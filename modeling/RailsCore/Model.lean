import Mathlib.Algebra.Order.Ring.Int

/-!
# Data of the accounts service

Rows of `accounts` and `transactions`, the money requests of the HTTP API and
the `PostTransaction` message, with the field names of the source. Times are
milliseconds. Columns that no modelled statement reads (descriptions,
external recipients, account numbers, holders) are left out.
-/

namespace RailsCore

/-- A 128-bit uuid. -/
structure Uuid where
  bits : BitVec 128
deriving DecidableEq, Repr

namespace Uuid

def nil : Uuid := ⟨0⟩

def hexDigit (n : BitVec 4) : Char := Nat.digitChar n.toNat

/-- The `i`-th hexadecimal digit, from the most significant one. -/
def digit (u : Uuid) (i : Nat) : Char :=
  hexDigit (u.bits.extractLsb' (4 * (31 - i)) 4)

def digits (u : Uuid) (start len : Nat) : List Char :=
  (List.range len).map (fun i => u.digit (start + i))

/-- The hyphenated lower-case form that `to_string` prints. -/
def toString (u : Uuid) : String :=
  String.ofList (u.digits 0 8 ++ '-' :: u.digits 8 4 ++ '-' :: u.digits 12 4 ++
    '-' :: u.digits 16 4 ++ '-' :: u.digits 20 12)

theorem hexDigit_injective : ∀ m n : BitVec 4, hexDigit m = hexDigit n → m = n := by decide

theorem hexDigit_ne_upper : ∀ n : BitVec 4, hexDigit n ≠ 'S' := by decide

theorem digits_injective {u v : Uuid} {start len : Nat} (h : u.digits start len = v.digits start len)
    {i : Nat} (lo : start ≤ i) (hi : i < start + len) :
    u.bits.extractLsb' (4 * (31 - i)) 4 = v.bits.extractLsb' (4 * (31 - i)) 4 := by
  have at_i := List.map_inj_left.mp h (i - start) (List.mem_range.mpr (by omega))
  rw [show start + (i - start) = i by omega] at at_i
  exact hexDigit_injective _ _ at_i

theorem toString_injective {u v : Uuid} (h : u.toString = v.toString) : u = v := by
  have lists := String.ofList_inj.mp h
  have len : ∀ (w : Uuid) (a b : Nat), (w.digits a b).length = b := by simp [digits]
  obtain ⟨h, h5⟩ := List.append_inj lists (by simp [len])
  obtain ⟨h, h4⟩ := List.append_inj h (by simp [len])
  obtain ⟨h, h3⟩ := List.append_inj h (by simp [len])
  obtain ⟨h1, h2⟩ := List.append_inj h (by simp [len])
  simp only [List.cons.injEq, true_and] at h2 h3 h4 h5
  have nibble : ∀ i, i < 32 →
      u.bits.extractLsb' (4 * (31 - i)) 4 = v.bits.extractLsb' (4 * (31 - i)) 4 := by
    intro i hi
    by_cases i < 8
    · exact digits_injective h1 (Nat.zero_le i) (by omega)
    by_cases i < 12
    · exact digits_injective h2 (by omega) (by omega)
    by_cases i < 16
    · exact digits_injective h3 (by omega) (by omega)
    by_cases i < 20
    · exact digits_injective h4 (by omega) (by omega)
    · exact digits_injective h5 (by omega) (by omega)
  have bits : u.bits = v.bits := by
    refine BitVec.eq_of_getLsbD_eq (fun k hk => ?_)
    have bit := congrArg (fun w => w.getLsbD (k % 4)) (nibble (31 - k / 4) (by omega))
    have hm : k % 4 < 4 := Nat.mod_lt _ (by omega)
    simpa [BitVec.getLsbD_extractLsb', hm, show 4 * (31 - (31 - k / 4)) + k % 4 = k by omega]
      using bit
  cases u
  cases v
  exact congrArg Uuid.mk bits

theorem toString_inj {u v : Uuid} : u.toString = v.toString ↔ u = v :=
  ⟨toString_injective, congrArg toString⟩

theorem toString_head (u : Uuid) : u.toString.toList.head? = some (u.digit 0) := by
  simp [toString, digits, List.range_succ_eq_map]

end Uuid

inductive Environment where
  | sandbox
  | production
deriving DecidableEq, Repr

inductive TransactionKind where
  | deposit
  | withdraw
  | transfer
deriving DecidableEq, Repr

inductive TransactionStatus where
  | pending
  | posting
  | posted
  | failed
deriving DecidableEq, Repr

inductive AccountStatus where
  | active
  | suspended
  | closed
deriving DecidableEq, Repr

structure Account where
  id : Uuid
  organizationId : Option Uuid
  environment : Option Environment
  currency : Option String
  status : Option AccountStatus
deriving DecidableEq, Repr

structure Transaction where
  id : Uuid
  organizationId : Uuid
  fromAccountId : Uuid
  toAccountId : Uuid
  amount : Int
  currency : String
  transactionKind : TransactionKind
  status : TransactionStatus
  failureReason : Option String
  idempotencyKey : String
  environment : Option Environment
  retryCount : Int
  lastAttemptedAt : Option Nat
  nextRetryAt : Option Nat
  terminalFailureAt : Option Nat
  createdAt : Nat
  updatedAt : Nat
deriving DecidableEq, Repr

/-- The columns of the unique index of `transactions`. -/
structure IdempotencyKey where
  organizationId : Uuid
  environment : Option Environment
  idempotencyKey : String
deriving DecidableEq, Repr

def Transaction.key (tx : Transaction) : IdempotencyKey :=
  ⟨tx.organizationId, tx.environment, tx.idempotencyKey⟩

/-- `posted` and `failed` rows are settled. -/
def TransactionStatus.Terminal : TransactionStatus → Prop
  | .posted | .failed => True
  | .pending | .posting => False

instance : DecidablePred TransactionStatus.Terminal
  | .posted | .failed => isTrue trivial
  | .pending | .posting => isFalse id

inductive AppError where
  | database (message : String)
  | notFound (message : String)
  | validation (message : String)
  | businessLogic (message : String)
  | accountNotActive
  | insufficientFunds
  | invalidAccountType
  | tooManyRequests
  | unauthorized (message : String)
  | internal (message : String)
deriving DecidableEq, Repr

def AppError.display : AppError → String
  | .database message => "Database error: " ++ message
  | .notFound message => "Not found: " ++ message
  | .validation message => "Validation error: " ++ message
  | .businessLogic message => "Business logic error: " ++ message
  | .accountNotActive => "Account is not active"
  | .insufficientFunds =>
    "Insufficient funds: cannot withdraw or transfer more than available balance"
  | .invalidAccountType => "Invalid account type"
  | .tooManyRequests => "Too many requests"
  | .unauthorized message => "Unauthorized: " ++ message
  | .internal message => "Internal server error: " ++ message

def AppError.statusCode : AppError → Nat
  | .database _ => 500
  | .notFound _ => 404
  | .validation _ | .businessLogic _ | .accountNotActive | .insufficientFunds
  | .invalidAccountType => 400
  | .tooManyRequests => 429
  | .unauthorized _ => 401
  | .internal _ => 500

/-- The gRPC message of one ledger post. Uuids travel as their printed form and
are parsed back by the ledger's uuid columns, so they stay uuids here. -/
structure PostTransactionRequest where
  organizationId : Uuid
  environment : Environment
  sourceExternalAccountId : String
  destinationExternalAccountId : String
  amount : Int
  currency : String
  externalTransactionId : Uuid
  idempotencyKey : String
  correlationId : String
deriving DecidableEq, Repr

def PostTransactionRequest.key (m : PostTransactionRequest) : IdempotencyKey :=
  ⟨m.organizationId, some m.environment, m.idempotencyKey⟩

/-- The message without the id that only serves tracing. -/
def PostTransactionRequest.uncorrelated (m : PostTransactionRequest) : PostTransactionRequest :=
  { m with correlationId := "" }

@[simp] theorem PostTransactionRequest.key_uncorrelated (m : PostTransactionRequest) :
    m.uncorrelated.key = m.key := rfl

def systemCashControl : String := "SYSTEM_CASH_CONTROL"

theorem Uuid.toString_ne_cash (u : Uuid) : u.toString ≠ systemCashControl := by
  intro h
  have head := u.toString_head
  rw [h] at head
  exact Uuid.hexDigit_ne_upper _ (Option.some.inj head).symm

/-- The larger of two machine integers stands for the larger number. -/
theorem toNat_larger {α : Type} [LE α] [DecidableLE α] {toNat : α → Nat}
    (le_iff : ∀ {a b : α}, a ≤ b ↔ toNat a ≤ toNat b) (a b : α) :
    toNat (maxOfLe.max a b) = max (toNat a) (toNat b) := by
  change toNat (if a ≤ b then b else a) = _
  split
  · rename_i le
    exact (Nat.max_eq_right (le_iff.mp le)).symm
  · rename_i gt
    rw [le_iff] at gt
    omega

theorem toNat_smaller {α : Type} [LE α] [DecidableLE α] {toNat : α → Nat}
    (le_iff : ∀ {a b : α}, a ≤ b ↔ toNat a ≤ toNat b) (a b : α) :
    toNat (minOfLe.min a b) = min (toNat a) (toNat b) := by
  change toNat (if a ≤ b then a else b) = _
  split
  · rename_i le
    exact (Nat.min_eq_left (le_iff.mp le)).symm
  · rename_i gt
    rw [le_iff] at gt
    omega

end RailsCore

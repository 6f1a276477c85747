import RailsCore.BothEnds
import RailsCore.LedgerCalls
import RailsCore.TransactionRetry

/-!
# The gRPC boundary

What the ledger's gRPC service does with a message before `LedgerPoster.post`
sees it, and the balance it reports. The currency is normalised here and again
by the poster; the second time changes nothing.
-/

namespace RailsCore

theorem mem_ite_cases {p : Prop} [Decidable p] {b : Char} {l m : List Char}
    (h : b ∈ if p then l else m) : b ∈ l ∨ ¬ p ∧ b ∈ m := by
  by_cases hp : p
  · exact .inl (by rwa [if_pos hp] at h)
  · exact .inr ⟨hp, by rwa [if_neg hp] at h⟩

/-- A character becomes letters of the expansions, or its own upper case. -/
theorem upcaseChar_mem {c b : Char} (h : b ∈ upcaseChar c) :
    b ∈ ['S', 'I', 'F', 'L', 'T'] ∨ b = c.toUpper ∧ upcaseChar c = [c.toUpper] := by
  have expansion : ∀ l : List Char, b ∈ l → (∀ a ∈ l, a ∈ ['S', 'I', 'F', 'L', 'T']) →
    b ∈ ['S', 'I', 'F', 'L', 'T'] := fun l hb all => all b hb
  rw [upcaseChar] at h ⊢
  rcases mem_ite_cases h with h | ⟨h1, h⟩
  · exact .inl (expansion _ h (by simp))
  rcases mem_ite_cases h with h | ⟨h2, h⟩
  · exact .inl (expansion _ h (by simp))
  rcases mem_ite_cases h with h | ⟨h3, h⟩
  · exact .inl (expansion _ h (by simp))
  rcases mem_ite_cases h with h | ⟨h4, h⟩
  · exact .inl (expansion _ h (by simp))
  rcases mem_ite_cases h with h | ⟨h5, h⟩
  · exact .inl (expansion _ h (by simp))
  rcases mem_ite_cases h with h | ⟨h6, h⟩
  · exact .inl (expansion _ h (by simp))
  rcases mem_ite_cases h with h | ⟨h7, h⟩
  · exact .inl (expansion _ h (by simp))
  rcases mem_ite_cases h with h | ⟨h8, h⟩
  · exact .inl (expansion _ h (by simp))
  rcases mem_ite_cases h with h | ⟨h9, h⟩
  · exact .inl (expansion _ h (by simp))
  rcases mem_ite_cases h with h | ⟨h10, h⟩
  · exact .inl (expansion _ h (by simp))
  refine .inr ⟨List.mem_singleton.mp h, ?_⟩
  rw [if_neg h1, if_neg h2, if_neg h3, if_neg h4, if_neg h5, if_neg h6, if_neg h7, if_neg h8,
    if_neg h9, if_neg h10]

theorem upcaseChar_letter : ∀ n < 26, upcaseChar (Char.ofNat (n + 65)) = [Char.ofNat (n + 65)] ∧
    isStripped (Char.ofNat (n + 65)) = false := by decide

theorem toUpper_lower {c : Char} (lower : 'a'.val ≤ c.val ∧ c.val ≤ 'z'.val) :
    ∃ n < 26, c.toUpper = Char.ofNat (n + 65) := by
  have range : 97 ≤ c.toNat ∧ c.toNat ≤ 122 := lower
  have all : ∀ n < 26, (Char.ofNat (n + 97)).toUpper = Char.ofNat (n + 65) := by decide
  refine ⟨c.toNat - 97, by omega, ?_⟩
  rw [← all (c.toNat - 97) (by omega), show c.toNat - 97 + 97 = c.toNat by omega, Char.ofNat_toNat]

/-- Upper case stays upper case, and is no white space unless it was. -/
theorem upcaseChar_fixed {c b : Char} (h : b ∈ upcaseChar c) :
    upcaseChar b = [b] ∧ (isStripped b = true → isStripped c = true) := by
  rcases upcaseChar_mem h with letter | ⟨rfl, plain⟩
  · obtain rfl | rfl | rfl | rfl | rfl : b = 'S' ∨ b = 'I' ∨ b = 'F' ∨ b = 'L' ∨ b = 'T' := by
      simpa using letter
    all_goals exact ⟨by decide, fun stripped => absurd stripped (by decide)⟩
  · by_cases lower : 'a'.val ≤ c.val ∧ c.val ≤ 'z'.val
    · obtain ⟨n, small, up⟩ := toUpper_lower lower
      rw [up]
      obtain ⟨fixed, visible⟩ := upcaseChar_letter n small
      exact ⟨fixed, fun stripped => absurd (visible.symm.trans stripped) (by decide)⟩
    · have same : c.toUpper = c := dif_neg lower
      rw [same] at plain ⊢
      exact ⟨plain, id⟩

theorem upcaseChar_ne_nil (c : Char) : upcaseChar c ≠ [] := by
  rw [upcaseChar]
  split_ifs <;> simp

theorem strip_ends (l : List Char) : (∀ c ∈ (strip l).head?, isStripped c = false) ∧
    ∀ c ∈ (strip l).getLast?, isStripped c = false :=
  dropBoth_ends isStripped l

theorem strip_eq_self {l : List Char} (first : ∀ c ∈ l.head?, isStripped c = false)
    (last : ∀ c ∈ l.getLast?, isStripped c = false) : strip l = l :=
  dropBoth_of_ends first last

/-- A currency code that has been normalised once stays as it is. -/
theorem stripUpcase_stripUpcase (s : String) : stripUpcase (stripUpcase s) = stripUpcase s := by
  obtain ⟨first, last⟩ := strip_ends s.toList
  have visible : ∀ c b, isStripped c = false → b ∈ upcaseChar c → isStripped b = false := by
    intro c b hc hb
    by_contra stripped
    have before := (upcaseChar_fixed hb).2 (by simpa using stripped)
    exact absurd (hc.symm.trans before) (by decide)
  generalize hm : strip s.toList = m at first last
  have same : strip (m.flatMap upcaseChar) = m.flatMap upcaseChar := by
    refine strip_eq_self ?_ ?_
    · intro b hb
      cases m with
      | nil => simp at hb
      | cons c m =>
        cases up : upcaseChar c with
        | nil => exact absurd up (upcaseChar_ne_nil c)
        | cons a as =>
          obtain rfl : a = b := by simpa [up] using hb
          exact visible c a (first c rfl) (by simp [up])
    · intro b hb
      induction m using List.reverseRecOn with
      | nil => simp at hb
      | append_singleton m c _ =>
        cases up : (upcaseChar c).getLast? with
        | none => exact absurd (List.getLast?_eq_none_iff.mp up) (upcaseChar_ne_nil c)
        | some a =>
          obtain rfl : a = b := by simpa [up] using hb
          exact visible c a (last c (by simp)) (List.mem_of_getLast? up)
  rw [stripUpcase, stripUpcase, hm, String.toList_ofList, same, List.flatMap_assoc]
  refine congrArg String.ofList (List.flatMap_congr (fun c _ => ?_))
  have fixed : ∀ b ∈ upcaseChar c, upcaseChar b = [b] := fun b hb => (upcaseChar_fixed hb).1
  rw [List.flatMap_congr fixed]
  simp

/-- `normalize_currency`. -/
def normalizeCurrency (settings : Settings) (rawCurrency : String) : String :=
  let normalized := stripUpcase rawCurrency
  if normalized = "" then settings.ledgerDefaultCurrency else normalized

def protoEnvToString : Environment → String
  | .sandbox => "sandbox"
  | .production => "production"

/-- `GRPC::InvalidArgument`, whose message starts with its status code. -/
def invalidArgument (details : String) : PostingError := ⟨"3:" ++ details⟩

/-- `post_transaction` up to its call of the poster. -/
def postTransaction (settings : Settings) (m : PostTransactionRequest) :
    Except PostingError PostCall :=
  let currency :=
    if strip m.currency.toList = [] then "" else normalizeCurrency settings m.currency
  if currency = "" then .error (invalidArgument "currency is required")
  else if m.idempotencyKey = "" then .error (invalidArgument "idempotency_key is required")
  else if m.sourceExternalAccountId = "" then
    .error (invalidArgument "source_external_account_id is required")
  else if m.destinationExternalAccountId = "" then
    .error (invalidArgument "destination_external_account_id is required")
  else .ok (.post {
    organizationId := m.organizationId
    environment := protoEnvToString m.environment
    sourceExternalAccountId := m.sourceExternalAccountId
    destinationExternalAccountId := m.destinationExternalAccountId
    amount := m.amount
    currency := currency
    externalTransactionId := m.externalTransactionId
    idempotencyKey := m.idempotencyKey
    isDeposit := false })

/-- `get_account_balance`: an account that is not there has 0. -/
def getAccountBalance (db : Ledger) (id : LedgerAccountId) : Int :=
  match db.account id with
  | some account => db.getBalance account.id
  | none => 0

/-- The balance that a customer is shown. -/
def displayedBalance (db : Ledger) (id : LedgerAccountId) : Int := -db.getBalance id

/-- An amount taken from one ledger account and given to another. -/
structure Movement where
  source : LedgerAccountId
  destination : LedgerAccountId
  amount : Int
deriving DecidableEq, Repr

/-- What a message asks for, with the currency as the ledger spells it. -/
def PostTransactionRequest.movement (m : PostTransactionRequest) : Movement where
  source := ⟨m.organizationId, m.environment, m.sourceExternalAccountId, stripUpcase m.currency⟩
  destination :=
    ⟨m.organizationId, m.environment, m.destinationExternalAccountId, stripUpcase m.currency⟩
  amount := m.amount

/-- The poster that a message becomes. -/
structure PosterOf (m : PostTransactionRequest) (p : LedgerPoster) : Prop where
  key : p.key = m.key
  source : p.sourceId = m.movement.source
  destination : p.destinationId = m.movement.destination
  amount : p.amount = m.movement.amount
  currency : p.currency = stripUpcase m.currency
  notDeposit : p.isDeposit = false

theorem posterOf {settings : Settings} {m : PostTransactionRequest} {call : PostCall}
    {p : LedgerPoster} (sent : postTransaction settings m = .ok call)
    (valid : validateInputs call.arguments = .ok p) : PosterOf m p := by
  rw [postTransaction] at sent
  by_cases blank : strip m.currency.toList = []
  · simp [blank] at sent
  have normalized : stripUpcase m.currency ≠ "" := by
    intro empty
    have none_ := String.ofList_eq_empty_iff.mp empty
    cases front : strip m.currency.toList with
    | nil => exact blank front
    | cons c cs =>
      rw [front, List.flatMap_cons, List.append_eq_nil_iff] at none_
      exact upcaseChar_ne_nil c none_.1
  simp only [blank, if_false, normalizeCurrency, normalized] at sent
  split_ifs at sent
  cases sent
  have fields := validateInputs_ok valid
  simp only [PostCall.arguments, PostArguments.post] at fields
  obtain ⟨environment, currency, organization, source, destination, amount, -, key, deposit⟩ :=
    fields
  have parsed : p.environment = m.environment := by
    cases he : m.environment <;> rw [he] at environment <;>
      exact (Option.some.inj environment).symm
  rw [stripUpcase_stripUpcase] at currency
  refine ⟨?_, ?_, ?_, amount, currency, deposit⟩
  · rw [LedgerPoster.key, PostTransactionRequest.key, organization, parsed, key]
  · rw [LedgerPoster.sourceId, LedgerPoster.accountId, organization, parsed, source, currency]
    rfl
  · rw [LedgerPoster.destinationId, LedgerPoster.accountId, organization, parsed, destination,
      currency]
    rfl

end RailsCore

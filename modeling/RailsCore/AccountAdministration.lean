import RailsCore.AccountService
import RailsCore.Machine

/-!
# Opening and closing accounts

`create_account_for_existing_user` and `update_account_status`, cut at their
statements, any number of either interleaved. Both decide on a row or a count
they have read, and write in a later statement. Opening checks the number of
accounts of the type, and tries random account numbers until one is free.
-/

namespace RailsCore

inductive Account.AccountType where
  | checking
  | saving
deriving DecidableEq, Repr

/-- A row of `accounts` with the columns that opening an account reads and writes. -/
structure AccountRow extends Account where
  accountNumber : String
  accountType : Account.AccountType
  userId : Option Uuid
deriving DecidableEq, Repr

/-- What `create_account_for_existing_user` takes; the names and the email of
the request have been resolved to `userId` by the users service. -/
structure CreateAccount where
  accountType : Account.AccountType
  currency : String
  organizationId : Uuid
  environment : Environment
  userId : Uuid
deriving DecidableEq, Repr

/-- A string stored in a `VARCHAR(n)` column: spaces beyond `n` are dropped, anything else
beyond it is refused, and so is a zero character. -/
def varchar (n : Nat) (s : String) : Option String :=
  if s.toList.contains (Char.ofNat 0) then none
  else if s.toList.length ≤ n then some s
  else if (s.toList.drop n).all (fun c => c = ' ') then some (String.ofList (s.toList.take n))
  else none

namespace AccountRepository

def countByUserAndType (rows : List AccountRow) (userId : Uuid) (accountType : Account.AccountType)
    (environment : Environment) : Nat :=
  (rows.filter (fun r => r.userId = some userId ∧ r.accountType = accountType ∧
    r.environment = some environment)).length

def accountNumberExists (rows : List AccountRow) (accountNumber : String) : Bool :=
  rows.any (fun r => r.accountNumber = accountNumber)

/-- The insert, with the id that the database generates. -/
def create (rows : List AccountRow) (id : Uuid) (accountNumber : String) (q : CreateAccount) :
    Except AppError (List AccountRow × AccountRow) :=
  match varchar 3 q.currency with
  | none => .error (.database "value too long for type character varying(3)")
  | some currency =>
    if accountNumberExists rows accountNumber then
      .error (.database "duplicate key value violates unique constraint \"accounts_account_number_key\"")
    else if (Table.find (fun r => r.id) id rows).isSome then
      .error (.database "duplicate key value violates unique constraint \"accounts_pkey\"")
    else
      let row : AccountRow := {
        id, organizationId := some q.organizationId, environment := some q.environment
        currency := some currency, status := some .active, accountNumber
        accountType := q.accountType, userId := some q.userId }
      .ok (rows ++ [row], row)

def selects (id : Uuid) (environment : Environment) (r : AccountRow) : Bool :=
  r.id = id && r.environment = some environment

/-- One unconditional update, with the row it returns. -/
def updateStatus (rows : List AccountRow) (id : Uuid) (environment : Environment)
    (status : AccountStatus) : List AccountRow × Except AppError AccountRow :=
  let rows := Table.updateWhere (selects id environment) (fun r => { r with status := some status }) rows
  match rows.find? (selects id environment) with
  | some row => (rows, .ok row)
  | none => (rows, .error (.database
      "no rows returned by a query that expected to return at least one row"))

def accounts (rows : List AccountRow) : List Account := rows.map AccountRow.toAccount

end AccountRepository

inductive CreationPoint where
  | count
  | number (attempts counted : Nat)
  | insert (accountNumber : String) (counted : Nat)
  | done (result : Except AppError AccountRow)
deriving DecidableEq, Repr

structure Creation where
  request : CreateAccount
  point : CreationPoint
deriving DecidableEq, Repr

inductive StatusPoint where
  | find
  | update (found : Account)
  | done (result : Except AppError AccountRow)
deriving DecidableEq, Repr

structure StatusChange where
  id : Uuid
  environment : Environment
  status : AccountStatus
  point : StatusPoint
deriving DecidableEq, Repr

/-- The text of an account type in the error of a second account. -/
def Account.AccountType.display : Account.AccountType → String
  | .checking => "checking"
  | .saving => "saving"

namespace AccountService
open AccountRepository

def MAX_RETRIES : Nat := 10

/-- What a creation waits for: nothing, a random account number, or a generated id. -/
inductive CreationInput where
  | go
  | candidate (accountNumber : String)
  | created (id : Uuid)
deriving DecidableEq, Repr

/-- One statement of `create_account_for_existing_user`. -/
def creationNext (rows : List AccountRow) (c : Creation) (input : CreationInput) :
    Option (List AccountRow × CreationPoint) :=
  match c.point, input with
  | .count, .go =>
    let count := countByUserAndType rows c.request.userId c.request.accountType c.request.environment
    if 1 ≤ count then
      some (rows, .done (.error (.businessLogic ("User already has a " ++
        c.request.accountType.display ++ " account (max 1 checking, 1 saving per user)"))))
    else some (rows, .number MAX_RETRIES count)
  | .number attempts counted, .candidate accountNumber =>
    if accountNumberExists rows accountNumber = false then some (rows, .insert accountNumber counted)
    else if 1 < attempts then some (rows, .number (attempts - 1) counted)
    else some (rows, .done (.error (.internal
      "Failed to generate unique account number after multiple attempts")))
  | .insert accountNumber _, .created id =>
    match create rows id accountNumber c.request with
    | .ok (rows', row) => some (rows', .done (.ok row))
    | .error e => some (rows, .done (.error e))
  | _, _ => none

/-- One statement of `update_account_status`; `close_account` calls it with `closed`. -/
def statusNext (rows : List AccountRow) (c : StatusChange) :
    Option (List AccountRow × StatusPoint) :=
  match c.point with
  | .find =>
    match findById (accounts rows) c.id c.environment with
    | .error e => some (rows, .done (.error e))
    | .ok account =>
      if account.status = some .closed ∧ c.status ≠ .closed then
        some (rows, .done (.error (.businessLogic "Cannot reactivate a closed account")))
      else some (rows, .update account)
  | .update _ =>
    let (rows, result) := updateStatus rows c.id c.environment c.status
    some (rows, .done result)
  | .done _ => none

end AccountService

/-- The table and the requests that open accounts or change their status. -/
structure AccountAdministration where
  rows : List AccountRow
  creations : List Creation
  changes : List StatusChange
deriving DecidableEq, Repr

inductive AdministrationAction where
  | open_ (q : CreateAccount)
  | creation (i : Nat) (input : AccountService.CreationInput)
  | updateAccountStatus (id : Uuid) (environment : Environment) (status : AccountStatus)
  | change (i : Nat)
deriving DecidableEq, Repr

namespace AccountAdministration
open AccountRepository AccountService

def empty : AccountAdministration := ⟨[], [], []⟩

def step (s : AccountAdministration) : AdministrationAction → Option AccountAdministration
  | .open_ q => some { s with creations := s.creations ++ [⟨q, .count⟩] }
  | .creation i input => do
    let c ← s.creations[i]?
    let (rows, point) ← creationNext s.rows c input
    some { s with rows, creations := s.creations.set i { c with point } }
  | .updateAccountStatus id environment status =>
    some { s with changes := s.changes ++ [⟨id, environment, status, .find⟩] }
  | .change i => do
    let c ← s.changes[i]?
    let (rows, point) ← statusNext s.rows c
    some { s with rows, changes := s.changes.set i { c with point } }

/-- What one action does to the rows. -/
inductive Moved (s : AccountAdministration) : AdministrationAction → List AccountRow → Prop where
  | same {a} : Moved s a s.rows
  | inserted {i id c accountNumber counted rows row} (at_ : s.creations[i]? = some c)
      (point : c.point = .insert accountNumber counted)
      (insert : create s.rows id accountNumber c.request = .ok (rows, row)) :
      Moved s (.creation i (.created id)) rows
  | updated {i c found} (at_ : s.changes[i]? = some c) (point : c.point = .update found) :
      Moved s (.change i) (updateStatus s.rows c.id c.environment c.status).1

theorem creation_rows {rows rows' : List AccountRow} {c : Creation} {point : CreationPoint}
    {input : CreationInput} (next : creationNext rows c input = some (rows', point)) :
    rows' = rows ∨ ∃ id accountNumber counted row, input = .created id ∧
      c.point = .insert accountNumber counted ∧
      create rows id accountNumber c.request = .ok (rows', row) := by
  unfold creationNext at next
  split at next
  · dsimp only at next
    split at next <;> cases next <;> exact .inl rfl
  · split at next
    · cases next
      exact .inl rfl
    · split at next <;> cases next <;> exact .inl rfl
  · rename_i accountNumber counted id at_
    cases inserted : create rows id accountNumber c.request with
    | error e =>
      simp only [inserted, Option.some.injEq, Prod.mk.injEq] at next
      exact .inl next.1.symm
    | ok made =>
      simp only [inserted, Option.some.injEq, Prod.mk.injEq] at next
      refine .inr ⟨id, accountNumber, counted, made.2, rfl, at_, ?_⟩
      rw [inserted, ← next.1]
  · exact nomatch next

theorem change_rows {rows rows' : List AccountRow} {c : StatusChange} {point : StatusPoint}
    (next : statusNext rows c = some (rows', point)) :
    rows' = rows ∨ ∃ found, c.point = .update found ∧
      rows' = (updateStatus rows c.id c.environment c.status).1 := by
  unfold statusNext at next
  split at next
  · split at next
    · cases next
      exact .inl rfl
    · split at next <;> cases next <;> exact .inl rfl
  · rename_i found at_
    cases next
    exact .inr ⟨found, at_, rfl⟩
  · exact nomatch next

theorem moved_step {s t : AccountAdministration} {a : AdministrationAction}
    (h : s.step a = some t) : Moved s a t.rows := by
  cases a with
  | open_ q | updateAccountStatus id environment status =>
    cases h
    exact .same
  | creation i input =>
    obtain ⟨c, at_, h⟩ := Option.bind_eq_some_iff.mp h
    obtain ⟨⟨rows, point⟩, next, h⟩ := Option.bind_eq_some_iff.mp h
    cases h
    rcases creation_rows next with rfl | ⟨id, accountNumber, counted, row, rfl, point, insert⟩
    · exact .same
    · exact .inserted at_ point insert
  | change i =>
    obtain ⟨c, at_, h⟩ := Option.bind_eq_some_iff.mp h
    obtain ⟨⟨rows, point⟩, next, h⟩ := Option.bind_eq_some_iff.mp h
    cases h
    rcases change_rows next with rfl | ⟨found, point, rfl⟩
    · exact .same
    · exact .updated at_ point

end AccountAdministration

end RailsCore

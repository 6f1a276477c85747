import RailsCore.AccountAdministration

/-!
# One account per type, and closed is final

Both rules are checked before they are relied on: a creation counts the accounts
and inserts later, a status change reads the status and writes later, and no
constraint of the table backs either check. The rules hold in the runs where
what was read is still so at the write, and in general they do not hold.
-/

namespace RailsCore

open AccountRepository AccountService

/-- The count that a creation goes by. -/
def CreationPoint.counted : CreationPoint → Option Nat
  | .number _ counted | .insert _ counted => some counted
  | _ => none

/-- The count of a creation that inserts next. -/
def CreationPoint.inserts : CreationPoint → Option Nat
  | .insert _ counted => some counted
  | _ => none

/-- The row that a status change has read before it writes. -/
def StatusPoint.found : StatusPoint → Option Account
  | .update found => some found
  | _ => none

/-- The owner, type and environment that a second account may not share. -/
def AccountRow.slot (r : AccountRow) : Option Uuid × Account.AccountType × Option Environment :=
  (r.userId, r.accountType, r.environment)

def CreateAccount.slot (q : CreateAccount) : Option Uuid × Account.AccountType × Option Environment :=
  (some q.userId, q.accountType, some q.environment)

/-- What the requests of a run know from the checks they have passed. -/
structure AccountAdministration.Checked (s : AccountAdministration) : Prop where
  ids : Table.Unique (fun r => r.id) s.rows
  counted : ∀ c ∈ s.creations, ∀ n, c.point.counted = some n → n = 0
  guarded : ∀ c ∈ s.changes, ∀ found, c.point = .update found →
    found.status = some .closed → c.status = .closed

namespace AccountRules

theorem create_spec {rows rows' : List AccountRow} {id : Uuid} {accountNumber : String}
    {q : CreateAccount} {row : AccountRow} (h : create rows id accountNumber q = .ok (rows', row)) :
    rows' = rows ++ [row] ∧ row.id = id ∧ row.slot = q.slot ∧ (∀ r ∈ rows, r.id ≠ id) := by
  unfold create at h
  split at h
  · cases h
  · split at h
    · cases h
    · split at h
      · cases h
      · rename_i fresh
        cases h
        refine ⟨rfl, rfl, rfl, ?_⟩
        exact Table.find_none_iff.mp (by simpa using fresh)

theorem updateStatus_rows (rows : List AccountRow) (id : Uuid) (environment : Environment)
    (status : AccountStatus) : (updateStatus rows id environment status).1 =
      Table.updateWhere (selects id environment) (fun r => { r with status := some status }) rows := by
  unfold updateStatus
  dsimp only
  split <;> rfl

/-- A creation starts to count, or keeps the count it has. -/
theorem counted_next {rows rows' : List AccountRow} {c : Creation} {point : CreationPoint}
    {input : CreationInput} (next : creationNext rows c input = some (rows', point)) {n : Nat}
    (h : point.counted = some n) : c.point.counted = some n ∨ n = 0 := by
  unfold creationNext at next
  split at next
  · dsimp only at next
    split at next
    · cases next
      exact nomatch h
    · rename_i none_counted
      cases next
      simp only [CreationPoint.counted, Option.some.injEq] at h
      omega
  · rename_i attempts counted accountNumber at_
    rw [at_]
    split at next
    · cases next
      exact .inl h
    · split at next
      · cases next
        exact .inl h
      · cases next
        exact nomatch h
  · split at next <;> cases next <;> exact nomatch h
  · exact nomatch next

/-- A status change that goes on to write has not read a closed account, or closes it. -/
theorem guarded_next {rows rows' : List AccountRow} {c : StatusChange} {point : StatusPoint}
    (next : statusNext rows c = some (rows', point)) {found : Account}
    (h : point = .update found) (closed : found.status = some .closed) : c.status = .closed := by
  unfold statusNext at next
  split at next
  · split at next
    · cases next
      exact nomatch h
    · split at next
      · cases next
        exact nomatch h
      · rename_i account _ passes
        cases next
        cases h
        by_contra reopens
        exact passes ⟨closed, reopens⟩
  · cases next
    exact nomatch h
  · exact nomatch next

theorem ids_moved {s : AccountAdministration} {a : AdministrationAction} {rows : List AccountRow}
    (ids : Table.Unique (fun r => r.id) s.rows) (moved : AccountAdministration.Moved s a rows) :
    Table.Unique (fun r : AccountRow => r.id) rows := by
  cases moved with
  | same => exact ids
  | inserted at_ point insert =>
    obtain ⟨rfl, rfl, _, fresh⟩ := create_spec insert
    exact ids.insert fresh
  | updated at_ point =>
    rw [updateStatus_rows]
    exact ids.updateWhere (fun _ => rfl)

theorem checked_step {s t : AccountAdministration} {a : AdministrationAction}
    (checked : s.Checked) (h : s.step a = some t) : t.Checked := by
  have ids := ids_moved checked.ids (AccountAdministration.moved_step h)
  cases a with
  | open_ q =>
    cases h
    refine ⟨ids, ?_, checked.guarded⟩
    intro c hc n counted
    rcases List.mem_append.mp hc with before | new
    · exact checked.counted c before n counted
    · cases List.mem_singleton.mp new
      exact nomatch counted
  | updateAccountStatus id environment status =>
    cases h
    refine ⟨ids, checked.counted, ?_⟩
    intro c hc found point
    rcases List.mem_append.mp hc with before | new
    · exact checked.guarded c before found point
    · cases List.mem_singleton.mp new
      exact nomatch point
  | creation i input =>
    obtain ⟨c, at_, h⟩ := Option.bind_eq_some_iff.mp h
    obtain ⟨⟨rows, point⟩, next, h⟩ := Option.bind_eq_some_iff.mp h
    cases h
    refine ⟨ids, ?_, checked.guarded⟩
    intro d hd n counted
    rcases List.mem_or_eq_of_mem_set hd with before | rfl
    · exact checked.counted d before n counted
    · rcases counted_next next counted with before | zero
      · exact checked.counted c (List.mem_of_getElem? at_) n before
      · exact zero
  | change i =>
    obtain ⟨c, at_, h⟩ := Option.bind_eq_some_iff.mp h
    obtain ⟨⟨rows, point⟩, next, h⟩ := Option.bind_eq_some_iff.mp h
    cases h
    refine ⟨ids, checked.counted, ?_⟩
    intro d hd found updates closed
    rcases List.mem_or_eq_of_mem_set hd with before | rfl
    · exact checked.guarded d before found updates closed
    · have closes : c.status = .closed := guarded_next next updates closed
      exact closes

theorem checked_empty : AccountAdministration.empty.Checked where
  ids := Table.unique_nil _
  counted := by simp [AccountAdministration.empty]
  guarded := by simp [AccountAdministration.empty]

end AccountRules

namespace AccountAdministration
open AccountRules

/-- Between the read and the write of a status change, nobody else closes the account. -/
def ClosedSeen (s : AccountAdministration) : AdministrationAction → Prop
  | .change i => ∀ c ∈ s.changes[i]?, ∀ found ∈ c.point.found,
      ∀ r ∈ s.rows, r.id = c.id → r.status = some .closed → found.status = some .closed
  | _ => True

instance (s : AccountAdministration) : DecidablePred s.ClosedSeen
  | .change _ => inferInstanceAs (Decidable (∀ c ∈ _, ∀ found ∈ _, ∀ r ∈ _, _ → _ → _))
  | .open_ _ | .creation _ _ | .updateAccountStatus _ _ _ => isTrue trivial

/-- Between the count and the insert of a creation, nobody else opens such an account. -/
def CountStands (s : AccountAdministration) : AdministrationAction → Prop
  | .creation i _ => ∀ c ∈ s.creations[i]?, ∀ counted ∈ c.point.inserts,
      countByUserAndType s.rows c.request.userId c.request.accountType c.request.environment = counted
  | _ => True

instance (s : AccountAdministration) : DecidablePred s.CountStands
  | .creation _ _ => inferInstanceAs (Decidable (∀ c ∈ _, ∀ counted ∈ _, _ = _))
  | .open_ _ | .updateAccountStatus _ _ _ | .change _ => isTrue trivial

/-- Every account that is closed is there later, and closed. -/
def ClosedStays (s t : AccountAdministration) : Prop :=
  ∀ r ∈ s.rows, r.status = some .closed → ∃ r' ∈ t.rows, r'.id = r.id ∧ r'.status = some .closed

theorem closedStays_step {s t : AccountAdministration} {a : AdministrationAction}
    (checked : s.Checked) (seen : s.ClosedSeen a) (h : s.step a = some t) : s.ClosedStays t := by
  intro r hr closed
  have moved := moved_step h
  generalize t.rows = rows at moved ⊢
  cases moved with
  | same => exact ⟨r, hr, rfl, closed⟩
  | inserted at_ point insert =>
    obtain ⟨rfl, _, _, _⟩ := create_spec insert
    exact ⟨r, List.mem_append_left _ hr, rfl, closed⟩
  | @updated i c found at_ point =>
    rw [updateStatus_rows]
    refine ⟨_, Table.mem_updateWhere.mpr ⟨r, hr, rfl⟩, ?_⟩
    by_cases selected : selects c.id c.environment r
    · have same : r.id = c.id := by
        simp only [selects, Bool.and_eq_true, decide_eq_true_eq] at selected
        exact selected.1
      have found_closed := seen c at_ found (by rw [point]; rfl) r hr same closed
      have closes := checked.guarded c (List.mem_of_getElem? at_) found point found_closed
      simp [selected, closes]
    · simp [selected, closed]

theorem countByUserAndType_zero {rows : List AccountRow} {q : CreateAccount}
    (h : countByUserAndType rows q.userId q.accountType q.environment = 0) :
    ∀ r ∈ rows, r.slot ≠ q.slot := by
  intro r hr same
  rw [countByUserAndType, List.length_eq_zero_iff, List.filter_eq_nil_iff] at h
  apply h r hr
  simpa [AccountRow.slot, CreateAccount.slot] using same

theorem slots_step {s t : AccountAdministration} {a : AdministrationAction}
    (checked : s.Checked) (slots : Table.Unique AccountRow.slot s.rows) (stands : s.CountStands a)
    (h : s.step a = some t) : Table.Unique AccountRow.slot t.rows := by
  have moved := moved_step h
  generalize t.rows = rows at moved ⊢
  cases moved with
  | same => exact slots
  | @inserted i id c accountNumber counted _ row at_ point insert =>
    obtain ⟨rfl, _, slot, _⟩ := create_spec insert
    have zero : counted = 0 := by
      apply checked.counted c (List.mem_of_getElem? at_)
      rw [point]
      rfl
    apply slots.insert
    rw [slot]
    exact countByUserAndType_zero (zero ▸ stands c at_ counted (by rw [point]; rfl))
  | updated at_ point =>
    rw [updateStatus_rows]
    exact slots.updateWhere (fun _ => rfl)

/-- In a run where nobody closes an account between the read and the write of a
change, an account that is closed at some point is closed ever after. -/
theorem closed_is_final {before after : List AdministrationAction} {s t : AccountAdministration}
    (first : Machine.run step empty before = some s) (second : Machine.run step s after = some t)
    (seen : Machine.Along step ClosedSeen empty (before ++ after)) {id : Uuid} {r : AccountRow}
    (found : Table.find (fun r => r.id) id s.rows = some r) (closed : r.status = some .closed) :
    ∃ r', Table.find (fun r => r.id) id t.rows = some r' ∧ r'.status = some .closed := by
  have checked_run : ∀ s a t, Checked s → step s a = some t → Checked t :=
    fun _ _ _ checked h => checked_step checked h
  have checked := Machine.invariant_run checked_run checked_empty first
  have stays : s.ClosedStays t := by
    apply Machine.relation_along (I := Checked) (R := ClosedStays)
    case start => exact checked
    case cond => exact (Machine.along_append first seen).2
    case h => exact second
    case preserved => exact fun _ _ _ checked _ h => checked_step checked h
    case refl => exact fun _ r hr closed => ⟨r, hr, rfl, closed⟩
    case related => exact fun _ _ _ checked seen h => closedStays_step checked seen h
    case trans =>
      intro s m u left right r hr closed
      obtain ⟨r₁, h₁, same₁, closed₁⟩ := left r hr closed
      obtain ⟨r₂, h₂, same₂, closed₂⟩ := right r₁ h₁ closed₁
      exact ⟨r₂, h₂, same₂.trans same₁, closed₂⟩
  obtain ⟨hr, rfl⟩ := Table.find_some found
  obtain ⟨r', hr', same, closed'⟩ := stays r hr closed
  have unique := (Machine.invariant_run checked_run checked second).ids
  exact ⟨r', same ▸ unique.find hr', closed'⟩

/-- An account, opened by the first creation. -/
def opened : List AdministrationAction :=
  [.open_ ⟨.checking, "USD", ⟨1⟩, .sandbox, ⟨2⟩⟩, .creation 0 .go,
    .creation 0 (.candidate "1234567890"), .creation 0 (.created ⟨3⟩)]

/-- A suspension reads the account, and a request to close it reads and writes. -/
def closedMeanwhile : List AdministrationAction :=
  opened ++ [.updateAccountStatus ⟨3⟩ .sandbox .suspended, .updateAccountStatus ⟨3⟩ .sandbox .closed,
    .change 0, .change 1, .change 1]

/-- An account is closed, and a later request to reactivate it is refused. -/
theorem closed_is_final_refused : ∃ s t r r',
    Machine.run step empty (opened ++ [.updateAccountStatus ⟨3⟩ .sandbox .closed, .change 0,
      .change 0]) = some s ∧
    Machine.run step s [.updateAccountStatus ⟨3⟩ .sandbox .active, .change 1] = some t ∧
    Table.find (fun r => r.id) ⟨3⟩ s.rows = some r ∧ r.status = some .closed ∧
    Table.find (fun r => r.id) ⟨3⟩ t.rows = some r' ∧ r'.status = some .closed := by
  have evaluated : (Machine.run step empty (opened ++
      [.updateAccountStatus ⟨3⟩ .sandbox .closed, .change 0, .change 0])).any (fun s =>
      (Table.find (fun r => r.id) ⟨3⟩ s.rows).any (fun r => r.status = some .closed) ∧
      (Machine.run step s [.updateAccountStatus ⟨3⟩ .sandbox .active, .change 1]).isSome) = true := by
    decide +kernel
  obtain ⟨s, first, evaluated⟩ := (Option.any_eq_true _ _).mp evaluated
  obtain ⟨found, second⟩ := of_decide_eq_true evaluated
  obtain ⟨r, found, closed⟩ := (Option.any_eq_true _ _).mp found
  obtain ⟨t, second⟩ := Option.isSome_iff_exists.mp second
  obtain ⟨r', found', closed'⟩ := closed_is_final first second (by decide +kernel) found
    (of_decide_eq_true closed)
  exact ⟨s, t, r, r', first, second, found, of_decide_eq_true closed, found', closed'⟩

/-- The suspension then overwrites `closed`. -/
theorem closed_reopened : ¬ ∀ (before after : List AdministrationAction)
    (s t : AccountAdministration) (id : Uuid) (r r' : AccountRow),
    Machine.run step empty before = some s → Machine.run step s after = some t →
    Table.find (fun r => r.id) id s.rows = some r → r.status = some .closed →
    Table.find (fun r => r.id) id t.rows = some r' → r'.status = some .closed := by
  intro claim
  have evaluated : (Machine.run step empty closedMeanwhile).any (fun s =>
      (Table.find (fun r => r.id) ⟨3⟩ s.rows).any (fun r => r.status = some .closed) ∧
      (Machine.run step s [.change 0]).any (fun t =>
        (Table.find (fun r => r.id) ⟨3⟩ t.rows).any (fun r => r.status = some .suspended))) = true := by
    decide +kernel
  obtain ⟨s, first, evaluated⟩ := (Option.any_eq_true _ _).mp evaluated
  obtain ⟨found, second⟩ := of_decide_eq_true evaluated
  obtain ⟨r, found, closed⟩ := (Option.any_eq_true _ _).mp found
  obtain ⟨t, second, found'⟩ := (Option.any_eq_true _ _).mp second
  obtain ⟨r', found', suspended⟩ := (Option.any_eq_true _ _).mp found'
  have closed' := claim closedMeanwhile [.change 0] s t ⟨3⟩ r r' first second found
    (of_decide_eq_true closed) found'
  rw [of_decide_eq_true suspended] at closed'
  exact nomatch closed'

/-- In a run where nobody opens such an account between the count and the insert
of a creation, no user has two accounts of a type in an environment. -/
theorem one_account_per_type {actions : List AdministrationAction} {t : AccountAdministration}
    (h : Machine.run step empty actions = some t)
    (stands : Machine.Along step CountStands empty actions) :
    (t.rows.map AccountRow.slot).Nodup := by
  have kept := Machine.invariant_along
    (I := fun s => Checked s ∧ Table.Unique AccountRow.slot s.rows) ?_
    ⟨checked_empty, Table.unique_nil _⟩ stands h
  · exact kept.2
  · rintro s a t ⟨checked, slots⟩ stands step
    exact ⟨checked_step checked step, slots_step checked slots stands step⟩

/-- Two accounts of one user, of either type, opened one after the other. -/
theorem one_account_per_type_both : ∃ t, Machine.run step empty (opened ++
      [.open_ ⟨.saving, "USD", ⟨1⟩, .sandbox, ⟨2⟩⟩, .creation 1 .go,
        .creation 1 (.candidate "1234567897"), .creation 1 (.created ⟨4⟩)]) = some t ∧
    (t.rows.map AccountRow.slot).Nodup := by
  have evaluated : (Machine.run step empty (opened ++
      [.open_ ⟨.saving, "USD", ⟨1⟩, .sandbox, ⟨2⟩⟩, .creation 1 .go,
        .creation 1 (.candidate "1234567897"), .creation 1 (.created ⟨4⟩)])).isSome = true := by
    decide +kernel
  obtain ⟨t, h⟩ := Option.isSome_iff_exists.mp evaluated
  exact ⟨t, h, one_account_per_type h (by decide +kernel)⟩

/-- Two creations for one user count before either inserts. -/
def countedTwice : List AdministrationAction :=
  [.open_ ⟨.checking, "USD", ⟨1⟩, .sandbox, ⟨2⟩⟩, .open_ ⟨.checking, "USD", ⟨1⟩, .sandbox, ⟨2⟩⟩,
    .creation 0 .go, .creation 1 .go, .creation 0 (.candidate "1234567890"),
    .creation 1 (.candidate "1234567897"), .creation 0 (.created ⟨3⟩), .creation 1 (.created ⟨4⟩)]

theorem two_accounts_of_a_type : ¬ ∀ (actions : List AdministrationAction)
    (t : AccountAdministration), Machine.run step empty actions = some t →
    (t.rows.map AccountRow.slot).Nodup := by
  intro claim
  have evaluated : (Machine.run step empty countedTwice).any (fun t =>
      ¬ (t.rows.map AccountRow.slot).Nodup) = true := by decide +kernel
  obtain ⟨t, h, twice⟩ := (Option.any_eq_true _ _).mp evaluated
  exact of_decide_eq_true twice (claim countedTwice t h)

end AccountAdministration

end RailsCore

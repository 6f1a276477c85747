import RailsCore.RegistrationsSound
import RailsCore.Table

/-!
# One user per email

Two calls may both find that an email is free. The unique index on the email then
decides: an insert waits for the transaction that holds the entry, and is refused
when a user with the email is committed. The call that is refused says so to its
caller, and what its transaction has written before is rolled back.
-/

namespace RailsCore.UsersService.Registrations

open ReadCommitted (Cells committed Keyed)

variable {lower : Lowercasing} {s s' : Registrations} {a : RegistrationAction}

/-- The unique index holds, also over the pending rows. -/
structure Indexed (s : Registrations) : Prop where
  keyed : Keyed RegisteredUser.email s.db.users
  nodup : s.db.users.Nodup

/-- A call that has failed is refused by the validation or for its email. -/
def Answered (lower : Lowercasing) (s : Registrations) : Prop :=
  ∀ (i : Nat) (c : RegistrationCall) e, s.calls[i]? = some c → c.outcome = some (.error e) →
    e = .conflict duplicateEmailMessage ∨ c.invalid lower = some e

theorem Indexed.commit (indexed : s.Indexed) (i : Nat) :
    Keyed RegisteredUser.email (s.db.commit i).users ∧ (s.db.commit i).users.Nodup :=
  ⟨indexed.keyed.commit i, indexed.keyed.nodup_commit indexed.nodup i⟩

theorem Indexed.rollback (indexed : s.Indexed) (i : Nat) :
    Keyed RegisteredUser.email (s.db.rollback i).users ∧ (s.db.rollback i).users.Nodup :=
  ⟨indexed.keyed.rollback i, indexed.keyed.nodup_rollback indexed.nodup i⟩

theorem Indexed.step (indexed : s.Indexed) (h : s.step lower a = some s') : s'.Indexed := by
  obtain ⟨keyed, nodup⟩ := indexed
  rcases step_cases h with
    ⟨c, new, rfl⟩ | ⟨i, c, db, c', at_, move, rfl⟩ | ⟨i, c, c', -, at_, failed, rfl⟩
  · exact ⟨keyed, nodup⟩
  · cases move with
    | quiet | business | environment | session => exact ⟨keyed, nodup⟩
    | user own email free => exact ⟨keyed.insert i free, Keyed.nodup_insert nodup free⟩
    | sdkUser own same free => exact ⟨keyed.insertNow free, Keyed.nodup_insertNow nodup free⟩
    | lost =>
      obtain ⟨keyed', nodup'⟩ := Indexed.rollback ⟨keyed, nodup⟩ i
      exact ⟨keyed', nodup'⟩
    | commit =>
      obtain ⟨keyed', nodup'⟩ := Indexed.commit ⟨keyed, nodup⟩ i
      exact ⟨keyed', nodup'⟩
  · obtain ⟨keyed', nodup'⟩ := Indexed.rollback ⟨keyed, nodup⟩ i
    exact ⟨keyed', nodup'⟩

/-- The answer of a call that moves, or of one that has not returned. -/
theorem RegistrationMove.answered {i : Nat} {db db' : RegistrationDatabase}
    {c c' : RegistrationCall} (move : RegistrationMove lower i db c db' c') :
    ∀ e, c'.outcome = some (.error e) →
      e = .conflict duplicateEmailMessage ∨ c'.invalid lower = some e := by
  intro e ended
  cases move with
  | quiet running writing early wrote consistent ends same =>
    rw [same.2.1]
    exact ends e ended
  | @environment q point point' row own open_ next =>
    rw [outcome_of_writing next.1] at ended
    exact nomatch ended
  | lost =>
    cases ended
    exact .inl rfl
  | business | user | commit | session | sdkUser => exact nomatch ended

theorem Answered.step (answered : s.Answered lower) (succeeds : ∀ i, a ≠ .fail i)
    (h : s.step lower a = some s') : s'.Answered lower := by
  rcases step_cases h with
    ⟨c, new, rfl⟩ | ⟨i, c, db, c', at_, move, rfl⟩ | ⟨i, c, c', failing, at_, failed, rfl⟩
  · intro j d e at' ended
    by_cases there : j < s.calls.length
    · rw [List.getElem?_append_left there] at at'
      exact answered j d e at' ended
    · rw [List.getElem?_append_right (by omega)] at at'
      cases List.mem_singleton.mp (List.mem_of_getElem? at')
      rcases new with ⟨q, rfl⟩ | ⟨ctx, q, rfl⟩
      · exact nomatch ended
      · exact nomatch ended
  · intro j d e at' ended
    rcases Machine.replaced_cases at_ at' with ⟨rfl, rfl⟩ | ⟨other, at'⟩
    · exact RegistrationMove.answered move e ended
    · exact answered j d e at' ended
  · exact absurd failing (succeeds i)

end RailsCore.UsersService.Registrations

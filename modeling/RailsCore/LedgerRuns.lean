import RailsCore.LedgerSound

/-!
# Runs of the ledger service

What each action of the ledger service can do, and what no run from empty
tables breaks: the committed tables stay sound, two open transactions never
hold one lock, and every posted row has a call that returned after writing it.
A run that no other session disturbs is a run of `LedgerPoster#call`.
-/

namespace RailsCore

/-- What one action does to the service. -/
inductive Moved (s : LedgerService) : LedgerAction → LedgerService → Prop where
  | refused {call e} (invalid : validateInputs call.arguments = .error e) :
      Moved s (.arrive call) s
  | arrived {call p} (valid : validateInputs call.arguments = .ok p) :
      Moved s (.arrive call) { s with calls := s.calls ++ [Call.start p] }
  | ended {a i c e} (of : a = .statement i ∨ a = .fail i e) (at_ : s.calls[i]? = some c)
      (running : c.ended = false)
      (raised : a = .statement i → ∃ ws, c.poster.statement c.point (c.view s.db) = (.error e, ws)) :
      Moved s a (s.finish s.db i c (.raised e))
  | committed {i c l} (at_ : s.calls[i]? = some c) (ready : c.point = .commit l) :
      Moved s (.statement i) (s.finish (c.view s.db) i c .returned)
  | wrote {i c next ws} (at_ : s.calls[i]? = some c) (running : c.ended = false)
      (before : ∀ l, c.point ≠ .commit l)
      (run : c.poster.statement c.point (c.view s.db) = (.ok next, ws))
      (free : s.blocked i ws = false) (inside : LedgerService.begins c = true) :
      Moved s (.statement i) ⟨s.db, s.calls.set i
        { c with point := next, inTransaction := true, writes := c.writes ++ ws }⟩
  | autocommitted {i c next ws} (at_ : s.calls[i]? = some c) (running : c.ended = false)
      (before : ∀ l, c.point ≠ .commit l)
      (run : c.poster.statement c.point (c.view s.db) = (.ok next, ws))
      (free : s.blocked i ws = false) (outside : LedgerService.begins c = false) :
      Moved s (.statement i) ⟨s.db.applyAll ws, s.calls.set i { c with point := next }⟩

namespace LedgerService

theorem moved_advance {s t : LedgerService} {i : Nat} {c : Call} (at_ : s.calls[i]? = some c)
    (h : s.advance i c = some t) : Moved s (.statement i) t := by
  by_cases ready : ∃ l, c.point = .commit l
  · obtain ⟨l, ready⟩ := ready
    obtain rfl : s.finish (c.view s.db) i c .returned = t := by simpa [advance, ready] using h
    exact .committed at_ ready
  have before : ∀ l, c.point ≠ .commit l := fun l same => ready ⟨l, same⟩
  have running : c.ended = false := by
    cases point : c.point <;> simp [advance, point, Call.ended] at h ⊢
  have executed : s.execute i c = some t := by
    cases point : c.point <;> simp [advance, point, Call.ended] at h before running <;> exact h
  rw [execute] at executed
  split at executed
  · rename_i e ws run
    cases executed
    exact .ended (.inl rfl) at_ running (fun _ => ⟨ws, run⟩)
  · rename_i next ws run
    split_ifs at executed with held inside
    · cases executed
      exact .wrote at_ running before run (by simpa using held) inside
    · cases executed
      exact .autocommitted at_ running before run (by simpa using held) (by simpa using inside)

/-- Every step is one of the moves. -/
theorem moved_step {s t : LedgerService} {a : LedgerAction} (h : s.step a = some t) :
    Moved s a t := by
  cases a with
  | arrive call =>
    cases checked : validateInputs call.arguments with
    | error e =>
      obtain rfl : s = t := by simpa [step, checked] using h
      exact .refused checked
    | ok p =>
      obtain rfl : { s with calls := s.calls ++ [Call.start p] } = t := by
        simpa [step, checked] using h
      exact .arrived checked
  | statement i =>
    obtain ⟨c, at_, moved⟩ := Option.bind_eq_some_iff.mp h
    exact moved_advance at_ moved
  | fail i e =>
    obtain ⟨c, at_, moved⟩ := Option.bind_eq_some_iff.mp h
    cases running : c.ended with
    | true => simp [running] at moved
    | false =>
      obtain rfl : s.finish s.db i c (.raised e) = t := by simpa [running] using moved
      exact .ended (.inr rfl) at_ running (fun same => by cases same)

end LedgerService

/-- The shapes a call takes over sound tables. -/
inductive CallSound (db : Ledger) : Call → Prop where
  | looking {p} (cash : p.DepositsFromCash) : CallSound db ⟨p, .findExisting, false, []⟩
  | missing {p} (cash : p.DepositsFromCash) : CallSound db ⟨p, .createTransaction, false, []⟩
  | underway {p point ws} (h : Underway db p point ws) : CallSound db ⟨p, point, true, ws⟩
  | returned {p} (cash : p.DepositsFromCash) (row : db.transaction p.key ≠ none) :
      CallSound db ⟨p, .returned, false, []⟩
  | raised {p e} (cash : p.DepositsFromCash) : CallSound db ⟨p, .raised e, false, []⟩

namespace CallSound

variable {db : Ledger} {c : Call} {next : Point} {ws : List Write}

theorem cash (call : CallSound db c) : c.poster.DepositsFromCash := by
  cases call with
  | looking cash | missing cash | returned cash | raised cash => exact cash
  | underway h => exact h.cash

theorem row (call : CallSound db c) (ended : c.point = .returned) :
    db.transaction c.poster.key ≠ none := by
  cases call with
  | returned cash row => exact row
  | looking | missing | raised => cases ended
  | underway h =>
    obtain rfl := ended
    exact absurd rfl h.inside

theorem inside (call : CallSound db c) (running : c.point.remaining ≠ none) :
    ∃ p point ws, c = ⟨p, point, true, ws⟩ ∧ Underway db p point ws := by
  cases call with
  | underway h => exact ⟨_, _, _, rfl, h⟩
  | looking | missing | returned | raised => exact absurd rfl running

/-- A write opens the transaction or stands inside it. -/
theorem wrote_cases (call : CallSound db c) (running : c.ended = false)
    (before : ∀ l, c.point ≠ .commit l) (inside : LedgerService.begins c = true)
    (run : c.poster.statement c.point (c.view db) = (.ok next, ws)) :
    (∃ p, c = ⟨p, .createTransaction, false, []⟩ ∧ p.DepositsFromCash ∧
      db.transaction p.key = none ∧ next = .resolveSource ∧
      ws = [.insertTransaction p.newTransaction]) ∨
    ∃ p point us, c = ⟨p, point, true, us⟩ ∧ Underway db p point us ∧ point.remaining ≠ some 0 := by
  cases call with
  | looking cash => simp [LedgerService.begins] at inside
  | missing cash =>
    rename_i p
    obtain ⟨u, us, rest, created, done, rfl⟩ := PosterM.bind_eq_ok run
    obtain ⟨rfl, rfl⟩ : .resolveSource = next ∧ [] = rest := by simpa using done
    obtain ⟨fresh, rfl⟩ := LedgerPoster.create_ok created
    exact .inl ⟨p, rfl, cash, fresh, rfl, rfl⟩
  | underway h =>
    rename_i p point ws
    refine .inr ⟨p, point, ws, rfl, h, fun last => ?_⟩
    cases point <;> cases last
    exact before _ rfl
  | returned cash row => simp [Call.ended] at running
  | raised cash => simp [Call.ended] at running

theorem wrote (call : CallSound db c) (running : c.ended = false)
    (before : ∀ l, c.point ≠ .commit l) (inside : LedgerService.begins c = true)
    (run : c.poster.statement c.point (c.view db) = (.ok next, ws)) :
    CallSound db { c with point := next, inTransaction := true, writes := c.writes ++ ws } := by
  rcases call.wrote_cases running before inside run with
    ⟨p, rfl, cash, fresh, rfl, rfl⟩ | ⟨p, point, us, rfl, under, open_⟩
  · exact .underway (.begin cash fresh)
  · exact .underway (under.statement open_ run).1

/-- Outside a transaction a call only looks for a row with its key. -/
theorem autocommitted (call : CallSound db c) (sound : db.Sound) (running : c.ended = false)
    (outside : LedgerService.begins c = false)
    (run : c.poster.statement c.point (c.view db) = (.ok next, ws)) :
    ws = [] ∧ CallSound db { c with point := next } := by
  cases call with
  | looking cash =>
    rename_i p
    rw [LedgerPoster.statement] at run
    cases row : db.transaction p.key with
    | some t =>
      have posted : t.status = .posted := sound.posted (Table.find_some row).1
      obtain ⟨rfl, rfl⟩ : .returned = next ∧ [] = ws := by
        simpa [PosterM.bind_run, Call.view, row, posted] using run
      exact ⟨rfl, .returned cash (by simp [row])⟩
    | none =>
      obtain ⟨rfl, rfl⟩ : .createTransaction = next ∧ [] = ws := by
        simpa [PosterM.bind_run, Call.view, row] using run
      exact ⟨rfl, .missing cash⟩
  | missing cash => simp [LedgerService.begins] at outside
  | underway h => simp [LedgerService.begins] at outside
  | returned cash row => simp [Call.ended] at running
  | raised cash => simp [Call.ended] at running

end CallSound

namespace LedgerService

/-- What no run from empty tables breaks. -/
structure Sound (s : LedgerService) : Prop where
  tables : s.db.Sound
  calls : ∀ (i : Nat) (c : Call), s.calls[i]? = some c → CallSound s.db c
  locks : ∀ (i j : Nat) (c d : Call), s.calls[i]? = some c → s.calls[j]? = some d → i ≠ j →
    ∀ lock ∈ c.locks, lock ∉ d.locks
  posted : ∀ t ∈ s.db.transactions, ∃ (i : Nat) (c : Call) (l : Legs),
    s.calls[i]? = some c ∧ c.point = .returned ∧ c.poster.key = t.key ∧ Recorded s.db c.poster l

theorem sound_empty : empty.Sound where
  tables := Ledger.sound_empty
  calls := by simp [empty]
  locks := by simp [empty]
  posted := by simp [empty, Ledger.empty]

theorem free_of_unblocked {s : LedgerService} {i : Nat} {ws : List Write}
    (free : s.blocked i ws = false) {lock : Lock} (needed : lock ∈ ws.filterMap Write.lock)
    {j : Nat} {d : Call} (at_ : s.calls[j]? = some d) (other : j ≠ i) : lock ∉ d.locks := by
  intro held
  have blocked : s.blocked i ws = true := by
    rw [blocked, List.any_eq_true]
    refine ⟨lock, needed, List.any_eq_true.mpr ⟨d, ?_, by simpa using held⟩⟩
    exact List.mem_eraseIdx_iff_getElem?.mpr ⟨j, other, at_⟩
  rw [free] at blocked
  exact Bool.false_ne_true blocked

/-- One running call changes over the same tables. -/
theorem Sound.replace {s : LedgerService} (sound : s.Sound) {i : Nat} {c c' : Call}
    (at_ : s.calls[i]? = some c) (running : c.ended = false) (call : CallSound s.db c')
    (locks : ∀ lock ∈ c'.locks, lock ∈ c.locks ∨
      ∀ (j : Nat) (d : Call), s.calls[j]? = some d → j ≠ i → lock ∉ d.locks) :
    Sound ⟨s.db, s.calls.set i c'⟩ := by
  have bound : i < s.calls.length := (List.getElem?_eq_some_iff.mp at_).1
  have apart : ∀ (j : Nat) (d : Call), s.calls[j]? = some d → j ≠ i → ∀ lock ∈ c'.locks, lock ∉ d.locks := by
    intro j d hd other lock held
    rcases locks lock held with old | new
    · exact sound.locks i j c d at_ hd other.symm lock old
    · exact new j d hd other
  refine ⟨sound.tables, ?_, ?_, ?_⟩
  · intro j d hd
    rcases Machine.replaced_cases at_ hd with ⟨rfl, rfl⟩ | ⟨-, hd⟩
    · exact call
    · exact sound.calls j d hd
  · intro j k d e hd he differ lock held
    rcases Machine.replaced_cases at_ hd with ⟨rfl, rfl⟩ | ⟨-, oldD⟩
    · rcases Machine.replaced_cases at_ he with ⟨same, -⟩ | ⟨-, oldE⟩
      · exact absurd same.symm differ
      · exact apart k e oldE differ.symm lock held
    · rcases Machine.replaced_cases at_ he with ⟨rfl, rfl⟩ | ⟨-, oldE⟩
      · intro taken
        exact apart j d oldD differ lock taken held
      · exact sound.locks j k d e oldD oldE differ lock held
  · intro t ht
    obtain ⟨j, d, l, hd, ended, key, recorded⟩ := sound.posted t ht
    have other : i ≠ j := by
      rintro rfl
      obtain rfl : c = d := Option.some.inj (at_.symm.trans hd)
      simp [Call.ended, ended] at running
    exact ⟨j, d, l, by simpa [List.getElem?_set_ne other] using hd, ended, key, recorded⟩

theorem Sound.commit {s : LedgerService} (sound : s.Sound) {i : Nat} {c : Call} {l : Legs}
    (at_ : s.calls[i]? = some c) (ready : c.point = .commit l) :
    (s.finish (c.view s.db) i c .returned).Sound := by
  obtain ⟨p, point, ws, rfl, h⟩ := CallSound.inside (sound.calls i c at_) (by simp [ready, Point.remaining])
  obtain rfl : point = .commit l := ready
  have bound : i < s.calls.length := (List.getElem?_eq_some_iff.mp at_).1
  have grown : ∀ key, s.db.transaction key ≠ none → (s.db.applyAll ws).transaction key ≠ none := by
    intro key row missing
    refine row (Table.find_none_iff.mpr (fun t ht => Table.find_none_iff.mp missing t ?_))
    rw [h.visible]
    exact List.mem_append_left _ ht
  have others : ∀ (j : Nat) (d : Call), j ≠ i → s.calls[j]? = some d →
      CallSound (s.db.applyAll ws) d := by
    intro j d other hd
    cases sound.calls j d hd with
    | looking cash => exact .looking cash
    | missing cash => exact .missing cash
    | underway under => exact .underway (under.frame h (sound.locks i j _ _ at_ hd other.symm))
    | returned cash row => exact .returned cash (grown _ row)
    | raised cash => exact .raised cash
  refine ⟨h.sound_commit sound.tables, ?_, ?_, ?_⟩
  · intro j d hd
    rcases Machine.replaced_cases at_ hd with ⟨rfl, rfl⟩ | ⟨other, hd⟩
    · refine .returned h.cash (fun missing => ?_)
      exact Table.find_none_iff.mp missing p.postedTransaction (h.recorded sound.tables).row rfl
    · exact others j d other hd
  · intro j k d e hd he differ lock held
    have old : ∀ (j : Nat) (d : Call), (s.calls.set i ⟨p, .returned, false, []⟩)[j]? = some d →
        lock ∈ d.locks → s.calls[j]? = some d := by
      intro j d hd held
      rcases Machine.replaced_cases at_ hd with ⟨rfl, rfl⟩ | ⟨-, hd⟩
      · simp [Call.locks] at held
      · exact hd
    intro taken
    exact sound.locks j k d e (old j d hd held) (old k e he taken) differ lock held taken
  · intro t ht
    have rows : (s.db.applyAll ws).transactions = s.db.transactions ++ [p.postedTransaction] :=
      h.visible
    rcases List.mem_append.mp (rows ▸ ht : t ∈ s.db.transactions ++ [p.postedTransaction])
      with before | new
    · obtain ⟨j, d, m, hd, ended, key, recorded⟩ := sound.posted t before
      have other : i ≠ j := by
        rintro rfl
        obtain rfl := Option.some.inj (at_.symm.trans hd)
        simp at ended
      refine ⟨j, d, m, ?_, ended, key, h.keeps recorded⟩
      simpa [finish, List.getElem?_set_ne other] using hd
    · obtain rfl := List.mem_singleton.mp new
      refine ⟨i, ⟨p, .returned, false, []⟩, l, ?_, rfl, rfl, h.recorded sound.tables⟩
      simp [finish, bound]

theorem Sound.arrive {s : LedgerService} (sound : s.Sound) {p : LedgerPoster}
    (cash : p.DepositsFromCash) : Sound { s with calls := s.calls ++ [Call.start p] } := by
  have known : ∀ (i : Nat) (c : Call), (s.calls ++ [Call.start p])[i]? = some c →
      s.calls[i]? = some c ∨ c = Call.start p := by
    intro i c hc
    rw [List.getElem?_append] at hc
    split_ifs at hc
    · exact .inl hc
    · exact .inr (List.mem_singleton.mp (List.mem_of_getElem? hc))
  refine ⟨sound.tables, ?_, ?_, ?_⟩
  · intro i c hc
    rcases known i c hc with old | rfl
    · exact sound.calls i c old
    · exact .looking cash
  · intro i j c d hc hd differ lock held taken
    rcases known i c hc with oldC | rfl
    · rcases known j d hd with oldD | rfl
      · exact sound.locks i j c d oldC oldD differ lock held taken
      · simp [Call.locks, Call.start] at taken
    · simp [Call.locks, Call.start] at held
  · intro t ht
    obtain ⟨i, c, l, hc, rest⟩ := sound.posted t ht
    refine ⟨i, c, l, ?_, rest⟩
    rw [List.getElem?_append_left (List.getElem?_eq_some_iff.mp hc).1]
    exact hc

/-- The step lemma of the service. -/
theorem Sound.step {s t : LedgerService} {a : LedgerAction} (sound : s.Sound)
    (h : s.step a = some t) : t.Sound := by
  cases moved_step h with
  | refused invalid => exact sound
  | arrived valid => exact sound.arrive (LedgerPoster.validateInputs_depositsFromCash valid)
  | ended of at_ running =>
    exact sound.replace at_ running (.raised (sound.calls _ _ at_).cash) (by simp [Call.locks])
  | committed at_ ready => exact sound.commit at_ ready
  | wrote at_ running before run free inside =>
    refine sound.replace at_ running ((sound.calls _ _ at_).wrote running before inside run) ?_
    intro lock held
    rw [Call.locks, List.filterMap_append, List.mem_append] at held
    exact held.imp_right (fun needed j d hd other => free_of_unblocked free needed hd other)
  | autocommitted at_ running before run free outside =>
    obtain ⟨nothing, call⟩ := (sound.calls _ _ at_).autocommitted sound.tables running outside run
    subst nothing
    exact sound.replace at_ running call (fun lock held => .inl held)

theorem posters_set {s : LedgerService} {i : Nat} {c c' : Call} (at_ : s.calls[i]? = some c)
    (same : c'.poster = c.poster) :
    (s.calls.set i c').map Call.poster = s.calls.map Call.poster := by
  obtain ⟨bound, rfl⟩ := List.getElem?_eq_some_iff.mp at_
  have inside : i < (s.calls.map Call.poster).length := by simpa using bound
  rw [List.map_set, same, show s.calls[i].poster = (s.calls.map Call.poster)[i] by simp]
  exact List.set_getElem_self inside

/-- After its arrival a call keeps its arguments. -/
theorem posters_step {s t : LedgerService} {a : LedgerAction} (running : ∀ call, a ≠ .arrive call)
    (h : s.step a = some t) : t.calls.map Call.poster = s.calls.map Call.poster := by
  cases moved_step h with
  | refused | arrived => exact absurd rfl (running _)
  | ended of at_ => exact posters_set at_ rfl
  | committed at_ => exact posters_set at_ rfl
  | wrote at_ => exact posters_set at_ rfl
  | autocommitted at_ => exact posters_set at_ rfl

/-- Only running calls move. -/
theorem calls_step {s t : LedgerService} {a : LedgerAction} (running : ∀ call, a ≠ .arrive call)
    (h : s.step a = some t) : ∀ d ∈ t.calls, d ∈ s.calls ∨
      ∃ c ∈ s.calls, c.ended = false ∧ d.poster = c.poster := by
  intro d hd
  cases moved_step h with
  | refused | arrived => exact absurd rfl (running _)
  | ended of at_ unfinished | wrote at_ unfinished | autocommitted at_ unfinished =>
    rcases List.mem_or_eq_of_mem_set hd with old | rfl
    · exact .inl old
    · exact .inr ⟨_, List.mem_of_getElem? at_, unfinished, rfl⟩
  | committed at_ ready =>
    rcases List.mem_or_eq_of_mem_set hd with old | rfl
    · exact .inl old
    · exact .inr ⟨_, List.mem_of_getElem? at_, by rw [Call.ended, ready], rfl⟩

/-- Posted transactions stay. -/
theorem Sound.keeps_rows {s t : LedgerService} {a : LedgerAction} (sound : s.Sound)
    (h : s.step a = some t) : s.db.transactions <+: t.db.transactions := by
  cases moved_step h with
  | refused | arrived | ended | wrote => exact List.prefix_refl _
  | committed at_ ready =>
    obtain ⟨p, point, ws, rfl, under⟩ := (sound.calls _ _ at_).inside
      (by simp [ready, Point.remaining])
    exact ⟨_, under.visible.symm⟩
  | autocommitted at_ running before run free outside =>
    obtain ⟨rfl, -⟩ := (sound.calls _ _ at_).autocommitted sound.tables running outside run
    exact List.prefix_refl _

/-- A step writes entries only where it commits a call: the two of its legs. -/
theorem Sound.entries_step {s t : LedgerService} {a : LedgerAction} (sound : s.Sound)
    (h : s.step a = some t) : t.db.entries = s.db.entries ∨ ∃ i c l, a = .statement i ∧
      s.calls[i]? = some c ∧ c.point = .commit l ∧ Recorded t.db c.poster l ∧
      t.db.entries = s.db.entries ++ [c.poster.sourceEntry l, c.poster.destinationEntry l] := by
  cases moved_step h with
  | refused | arrived | ended | wrote => exact .inl rfl
  | committed at_ ready =>
    rename_i i c l
    obtain ⟨p, point, ws, rfl, under⟩ := (sound.calls _ _ at_).inside
      (by simp [ready, Point.remaining])
    obtain rfl : point = .commit l := ready
    refine .inr ⟨i, _, l, rfl, at_, rfl, under.recorded sound.tables, ?_⟩
    exact (Ledger.entries_applyAll s.db ws).trans (congrArg _ under.entries)
  | autocommitted at_ running before run free outside =>
    obtain ⟨rfl, -⟩ := (sound.calls _ _ at_).autocommitted sound.tables running outside run
    exact .inl rfl

theorem sound_run {as : List LedgerAction} {s : LedgerService}
    (h : Machine.run step empty as = some s) : s.Sound :=
  Machine.invariant_run (fun _ _ _ sound moved => sound.step moved) sound_empty h

end LedgerService

end RailsCore

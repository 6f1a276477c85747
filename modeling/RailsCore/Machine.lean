import Mathlib.Data.List.Basic
import Mathlib.Logic.Relation

/-!
# Guarded step machines

A machine is a step function `State → Action → Option State`: an action either
moves the state or is not enabled there. A run is a list of actions. What one
step preserves is lifted here to what a whole run preserves, with or without a
condition that every step of the run meets in the state it is taken from.
No fairness and no termination is claimed.
-/

namespace Machine

universe u v w x
variable {State : Type u} {Action : Type v}

/-- Take the actions in order; `none` when one of them is not enabled. -/
def run (step : State → Action → Option State) : State → List Action → Option State
  | s, [] => some s
  | s, a :: as => match step s a with
    | none => none
    | some t => run step t as

/-- `P` holds at every step of the run, of the state before it and its action. -/
def Along (step : State → Action → Option State) (P : State → Action → Prop) :
    State → List Action → Prop
  | _, [] => True
  | s, a :: as => P s a ∧ match step s a with
    | none => True
    | some t => Along step P t as

instance alongDecidable (step : State → Action → Option State) (P : State → Action → Prop)
    [∀ s a, Decidable (P s a)] : ∀ s as, Decidable (Along step P s as)
  | _, [] => isTrue trivial
  | s, a :: as => by
    rw [Along]
    cases step s a with
    | none => exact inferInstance
    | some t =>
      have := alongDecidable step P t as
      exact inferInstance

/-- What the steps of a run report, in order. -/
def trace {Event : Type w} (step : State → Action → Option State)
    (report : State → Action → Option Event) : State → List Action → List Event
  | _, [] => []
  | s, a :: as => match step s a with
    | none => []
    | some t => (report s a).toList ++ trace step report t as

variable {step : State → Action → Option State}

theorem run_cons {s u : State} {a : Action} {as : List Action}
    (h : run step s (a :: as) = some u) : ∃ t, step s a = some t ∧ run step t as = some u := by
  rw [run] at h
  cases hs : step s a with
  | none => simp [hs] at h
  | some t => exact ⟨t, rfl, by simpa [hs] using h⟩

theorem run_split {s t u : State} {as bs : List Action} {a : Action} (first : run step s as = some t)
    (h : run step s (as ++ a :: bs) = some u) :
    ∃ m, step t a = some m ∧ run step m bs = some u := by
  induction as generalizing s with
  | nil =>
    cases first
    exact run_cons h
  | cons b as ih =>
    obtain ⟨m, hm, rest⟩ := run_cons first
    refine ih rest ?_
    simpa only [List.cons_append, run, hm] using h

theorem run_append {s t : State} {as : List Action} (first : run step s as = some t)
    (bs : List Action) : run step s (as ++ bs) = run step t bs := by
  induction as generalizing s with
  | nil =>
    cases first
    rfl
  | cons a as ih =>
    obtain ⟨m, hm, rest⟩ := run_cons first
    rw [List.cons_append, run, hm]
    exact ih rest

/-- Where no two actions of a kind are enabled at once, the runs of these actions
that come to an end, end in one state. -/
theorem run_unique {P : Action → Prop}
    (one : ∀ s a b t u, P a → P b → step s a = some t → step s b = some u → a = b)
    {s t u : State} {as bs : List Action} (first : run step s as = some t)
    (second : run step s bs = some u) (ownFirst : ∀ a ∈ as, P a) (ownSecond : ∀ b ∈ bs, P b)
    (endFirst : ∀ a, P a → step t a = none) (endSecond : ∀ b, P b → step u b = none) : t = u := by
  induction as generalizing s bs with
  | nil =>
    cases first
    cases bs with
    | nil =>
      cases second
      rfl
    | cons b bs =>
      obtain ⟨m, moved, -⟩ := run_cons second
      rw [endFirst b (ownSecond b List.mem_cons_self)] at moved
      cases moved
  | cons a as ih =>
    obtain ⟨m, moved, later⟩ := run_cons first
    have ownA := ownFirst a List.mem_cons_self
    cases bs with
    | nil =>
      cases second
      rw [endSecond a ownA] at moved
      cases moved
    | cons b bs =>
      obtain ⟨n, moved', later'⟩ := run_cons second
      obtain rfl := one s a b m n ownA (ownSecond b List.mem_cons_self) moved moved'
      rw [moved] at moved'
      cases moved'
      exact ih later later' (fun c hc => ownFirst c (List.mem_cons_of_mem _ hc))
        fun c hc => ownSecond c (List.mem_cons_of_mem _ hc)

theorem trace_append {Event : Type w} {report : State → Action → Option Event} {s t : State}
    {as : List Action} (first : run step s as = some t) (bs : List Action) :
    trace step report s (as ++ bs) = trace step report s as ++ trace step report t bs := by
  induction as generalizing s with
  | nil =>
    cases first
    rfl
  | cons a as ih =>
    obtain ⟨m, hm, rest⟩ := run_cons first
    simp only [List.cons_append, trace, hm, ih rest, List.append_assoc]

theorem along_of_forall {P : State → Action → Prop} (all : ∀ s a, P s a) (s : State)
    (as : List Action) : Along step P s as := by
  induction as generalizing s with
  | nil => trivial
  | cons a as ih =>
    refine ⟨all s a, ?_⟩
    split
    · trivial
    · exact ih _

theorem along_of_mem {P : Action → Prop} {as : List Action} (all : ∀ a ∈ as, P a) (s : State) :
    Along step (fun _ a => P a) s as := by
  induction as generalizing s with
  | nil => trivial
  | cons a as ih =>
    refine ⟨all a List.mem_cons_self, ?_⟩
    split
    · trivial
    · exact ih (fun b mem => all b (List.mem_cons_of_mem a mem)) _

theorem along_append {P : State → Action → Prop} {s t : State} {as bs : List Action}
    (first : run step s as = some t) (h : Along step P s (as ++ bs)) :
    Along step P s as ∧ Along step P t bs := by
  induction as generalizing s with
  | nil =>
    cases first
    exact ⟨trivial, h⟩
  | cons a as ih =>
    obtain ⟨m, hm, rest⟩ := run_cons first
    obtain ⟨now, later⟩ := h
    simp only [hm] at later
    obtain ⟨left, right⟩ := ih rest later
    exact ⟨⟨now, by simpa only [hm] using left⟩, right⟩

theorem along_and {P Q : State → Action → Prop} {s : State} {as : List Action}
    (first : Along step P s as) (second : Along step Q s as) :
    Along step (fun s a => P s a ∧ Q s a) s as := by
  induction as generalizing s with
  | nil => trivial
  | cons a as ih =>
    refine ⟨⟨first.1, second.1⟩, ?_⟩
    have left := first.2
    have right := second.2
    cases hs : step s a with
    | none => trivial
    | some t => exact ih (by simpa only [hs] using left) (by simpa only [hs] using right)

/-- The invariant rule under a condition met at every step. -/
theorem invariant_along {I : State → Prop} {P : State → Action → Prop}
    (preserved : ∀ s a t, I s → P s a → step s a = some t → I t)
    {s t : State} {as : List Action} (start : I s) (cond : Along step P s as)
    (h : run step s as = some t) : I t := by
  induction as generalizing s with
  | nil =>
    cases h
    exact start
  | cons a as ih =>
    obtain ⟨m, hm, rest⟩ := run_cons h
    obtain ⟨now, later⟩ := cond
    simp only [hm] at later
    exact ih (preserved s a m start now hm) later rest

/-- The invariant rule: what every step preserves holds after every run. -/
theorem invariant_run {I : State → Prop}
    (preserved : ∀ s a t, I s → step s a = some t → I t)
    {s t : State} {as : List Action} (start : I s) (h : run step s as = some t) : I t := by
  induction as generalizing s with
  | nil =>
    cases h
    exact start
  | cons a as ih =>
    obtain ⟨m, hm, rest⟩ := run_cons h
    exact ih (preserved s a m start hm) rest

/-- The invariant rule for a state and all that the steps before it have reported. -/
theorem invariant_trace_along {Event : Type w} {report : State → Action → Option Event}
    {I : List Event → State → Prop} {P : State → Action → Prop}
    (preserved : ∀ past s a t, I past s → P s a → step s a = some t →
      I (past ++ (report s a).toList) t)
    {past : List Event} {s t : State} {as : List Action} (start : I past s)
    (cond : Along step P s as) (h : run step s as = some t) :
    I (past ++ trace step report s as) t := by
  induction as generalizing past s with
  | nil =>
    cases h
    rw [trace, List.append_nil]
    exact start
  | cons a as ih =>
    obtain ⟨m, hm, rest⟩ := run_cons h
    obtain ⟨now, later⟩ := cond
    simp only [hm] at later
    simp only [trace, hm]
    rw [← List.append_assoc]
    exact ih (preserved past s a m start now hm) later rest

theorem invariant_trace {Event : Type w} {report : State → Action → Option Event}
    {I : List Event → State → Prop}
    (preserved : ∀ past s a t, I past s → step s a = some t → I (past ++ (report s a).toList) t)
    {s t : State} {as : List Action} (start : I [] s) (h : run step s as = some t) :
    I (trace step report s as) t :=
  invariant_trace_along (fun past s a t kept (_ : True) => preserved past s a t kept) start
    (along_of_forall (fun _ _ => trivial) s as) h

/-- What a run reports, one of its steps reports. -/
theorem mem_trace {Event : Type w} {report : State → Action → Option Event} {s : State}
    {as : List Action} {e : Event} (h : e ∈ trace step report s as) :
    ∃ before a after m, as = before ++ a :: after ∧ run step s before = some m ∧
      report m a = some e := by
  induction as generalizing s with
  | nil => exact absurd h List.not_mem_nil
  | cons a as ih =>
    rw [trace] at h
    split at h
    · exact absurd h List.not_mem_nil
    · rename_i t taken
      rcases List.mem_append.mp h with here | there
      · exact ⟨[], a, as, s, rfl, rfl, by simpa using here⟩
      · obtain ⟨before, b, after, m, rfl, first, reported⟩ := ih there
        refine ⟨a :: before, b, after, m, rfl, ?_, reported⟩
        rw [run, taken]
        exact first

/-- A condition is met along a run that ends well when a step that does not meet it
leads to what every later state shows. -/
theorem along_of_avoided {I Bad : State → Prop} {P : State → Action → Prop}
    (preserved : ∀ s a t, I s → step s a = some t → I t)
    (stays : ∀ s a t, I s → Bad s → step s a = some t → Bad t)
    (caught : ∀ s a t, I s → step s a = some t → ¬ P s a → Bad t)
    {s t : State} {as : List Action} (start : I s) (h : run step s as = some t)
    (good : ¬ Bad t) : Along step P s as := by
  induction as generalizing s with
  | nil => trivial
  | cons a as ih =>
    obtain ⟨m, hm, rest⟩ := run_cons h
    refine ⟨?_, ?_⟩
    · by_contra missed
      have both : I m ∧ Bad m := ⟨preserved s a m start hm, caught s a m start hm missed⟩
      exact good (invariant_run (I := fun s => I s ∧ Bad s)
        (fun s a t h taken => ⟨preserved s a t h.1 taken, stays s a t h.1 h.2 taken⟩) both rest).2
    · simp only [hm]
      exact ih (preserved s a m start hm) rest

/-- What every step relates, from states that meet an invariant and under a
condition met at every step, a whole run relates. -/
theorem relation_along {I : State → Prop} {P : State → Action → Prop} {R : State → State → Prop}
    (preserved : ∀ s a t, I s → P s a → step s a = some t → I t)
    (refl : ∀ s, R s s) (trans : ∀ s t u, R s t → R t u → R s u)
    (related : ∀ s a t, I s → P s a → step s a = some t → R s t)
    {s t : State} {as : List Action} (start : I s) (cond : Along step P s as)
    (h : run step s as = some t) : R s t := by
  induction as generalizing s with
  | nil =>
    cases h
    exact refl _
  | cons a as ih =>
    obtain ⟨m, hm, rest⟩ := run_cons h
    obtain ⟨now, later⟩ := cond
    simp only [hm] at later
    exact trans s m t (related s a m start now hm)
      (ih (preserved s a m start now hm) later rest)

/-- Steps one after another, each from a state and by an action that meet `P`. -/
def Leads (step : State → Action → Option State) (P : State → Action → Prop) :
    State → State → Prop :=
  Relation.ReflTransGen fun s t => ∃ a, P s a ∧ step s a = some t

theorem Leads.one {P : State → Action → Prop} {s t : State} {a : Action} (meets : P s a)
    (taken : step s a = some t) : Leads step P s t :=
  .single ⟨a, meets, taken⟩

theorem Leads.trans {P : State → Action → Prop} {s t u : State} (first : Leads step P s t)
    (second : Leads step P t u) : Leads step P s u :=
  Relation.ReflTransGen.trans first second

theorem Leads.next {P : State → Action → Prop} {s t u : State} {a : Action}
    (first : Leads step P s t) (meets : P t a) (taken : step t a = some u) : Leads step P s u :=
  Relation.ReflTransGen.tail first ⟨a, meets, taken⟩

theorem leads_iff_run {P : State → Action → Prop} {s t : State} :
    Leads step P s t ↔ ∃ as, Along step P s as ∧ run step s as = some t := by
  constructor
  · intro leads
    induction leads using Relation.ReflTransGen.head_induction_on with
    | refl => exact ⟨[], trivial, rfl⟩
    | head first _ ih =>
      obtain ⟨a, meets, taken⟩ := first
      obtain ⟨as, along, rest⟩ := ih
      exact ⟨a :: as, ⟨meets, by simpa only [taken] using along⟩,
        by simpa only [run, taken] using rest⟩
  · rintro ⟨as, along, taken⟩
    induction as generalizing s with
    | nil =>
      cases taken
      exact .refl
    | cons a as ih =>
      obtain ⟨m, first, rest⟩ := run_cons taken
      obtain ⟨meets, later⟩ := along
      simp only [first] at later
      exact .head ⟨a, meets, first⟩ (ih later rest)

theorem Leads.invariant {I : State → Prop} {P : State → Action → Prop}
    (preserved : ∀ s a t, I s → step s a = some t → I t) {s t : State}
    (leads : Leads step P s t) (start : I s) : I t := by
  obtain ⟨as, -, taken⟩ := leads_iff_run.mp leads
  exact invariant_run preserved start taken

/-- Among parties of which one has been replaced, each is the new one or in its old place. -/
theorem replaced_cases {Party : Type u} {parties : List Party} {i j : Nat} {old new other : Party}
    (at_ : parties[i]? = some old) (there : (parties.set i new)[j]? = some other) :
    j = i ∧ new = other ∨ j ≠ i ∧ parties[j]? = some other := by
  by_cases same : j = i
  · subst same
    rw [List.getElem?_set_self (List.getElem?_eq_some_iff.mp at_).1] at there
    exact .inl ⟨rfl, Option.some.inj there⟩
  · rw [List.getElem?_set_ne (Ne.symm same)] at there
    exact .inr ⟨same, there⟩

end Machine

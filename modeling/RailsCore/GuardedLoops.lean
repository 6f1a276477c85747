import Mathlib.Data.List.Basic

/-!
# Loops over guarded steps

A loop puts something out in each round and goes on to the next state. Beside
it runs the loop whose steps are guarded, and which ends where a step leaves the
good states. It ends nowhere exactly if the states after all the rounds are
good, and then it puts out what the other loop does.
-/

namespace GuardedLoop

variable {σ ι β : Type}

/-- The loop whose rounds can fail. -/
def run (out : σ → ι → β) (next : σ → ι → Option σ) : σ → List ι → Option (List β)
  | _, [] => some []
  | s, x :: xs => do
    let after ← next s x
    let rest ← run out next after xs
    return out s x :: rest

def outputs (out : σ → ι → β) (step : σ → ι → σ) : σ → List ι → List β
  | _, [] => []
  | s, x :: xs => out s x :: outputs out step (step s x) xs

/-- The state after every number of rounds is good. -/
def Stays (good : σ → Prop) (step : σ → ι → σ) (s : σ) (xs : List ι) : Prop :=
  ∀ p, p <+: xs → good (p.foldl step s)

/-- The guarded step is the other one where that stays good, and fails elsewhere. -/
structure Guards (good : σ → Prop) (valid : ι → Prop) (step : σ → ι → σ)
    (next : σ → ι → Option σ) : Prop where
  goes : ∀ s x, good s → valid x → good (step s x) → next s x = some (step s x)
  fails : ∀ s x, good s → valid x → ¬ good (step s x) → next s x = none

variable {good : σ → Prop} {valid : ι → Prop} {step : σ → ι → σ} {next : σ → ι → Option σ}

theorem stays_nil {s : σ} : Stays good step s ([] : List ι) ↔ good s := by
  constructor
  · exact fun all => all [] (List.prefix_refl [])
  · intro start p within
    rw [List.prefix_nil.mp within]
    exact start

theorem stays_cons {s : σ} {x : ι} {xs : List ι} :
    Stays good step s (x :: xs) ↔ good s ∧ Stays good step (step s x) xs := by
  constructor
  · intro all
    refine ⟨all [] List.nil_prefix, fun p within => ?_⟩
    exact all (x :: p) (List.cons_prefix_cons.mpr ⟨rfl, within⟩)
  · rintro ⟨start, later⟩ p within
    cases p with
    | nil => exact start
    | cons y p =>
      obtain ⟨rfl, rest⟩ := List.cons_prefix_cons.mp within
      exact later p rest

/-- A loop that stays in the good states is not stopped by the guards. -/
theorem Guards.run_of_stays (guards : Guards good valid step next) (out : σ → ι → β) {s : σ}
    {xs : List ι} (all : ∀ x ∈ xs, valid x) (stays : Stays good step s xs) :
    run out next s xs = some (outputs out step s xs) := by
  induction xs generalizing s with
  | nil => rfl
  | cons x xs ih =>
    obtain ⟨start, later⟩ := stays_cons.mp stays
    have here := guards.goes s x start (all x List.mem_cons_self) (later [] List.nil_prefix)
    have rest := ih (fun y listed => all y (List.mem_cons_of_mem x listed)) later
    rw [run, here, Option.bind_eq_bind, Option.bind_some, rest]
    rfl

/-- A loop that leaves the good states is stopped. -/
theorem Guards.stays_of_run (guards : Guards good valid step next) (out : σ → ι → β) {s : σ}
    {xs : List ι} (all : ∀ x ∈ xs, valid x) (start : good s) (ends : (run out next s xs).isSome) :
    Stays good step s xs := by
  induction xs generalizing s with
  | nil => exact stays_nil.mpr start
  | cons x xs ih =>
    refine stays_cons.mpr ⟨start, ?_⟩
    by_cases kept : good (step s x)
    · rw [run, guards.goes s x start (all x List.mem_cons_self) kept, Option.bind_eq_bind,
        Option.bind_some] at ends
      refine ih (fun y listed => all y (List.mem_cons_of_mem x listed)) kept ?_
      cases rest : run out next (step s x) xs with
      | none => simp [rest] at ends
      | some _ => rfl
    · rw [run, guards.fails s x start (all x List.mem_cons_self) kept] at ends
      exact absurd ends nofun

theorem Guards.run_isSome_iff (guards : Guards good valid step next) (out : σ → ι → β) {s : σ}
    {xs : List ι} (all : ∀ x ∈ xs, valid x) (start : good s) :
    (run out next s xs).isSome ↔ Stays good step s xs := by
  constructor
  · exact guards.stays_of_run out all start
  · intro stays
    rw [guards.run_of_stays out all stays]
    rfl

end GuardedLoop

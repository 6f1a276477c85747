import Mathlib.Data.List.Basic

/-!
# A counter over fixed windows

A window opens with the first request and stays open until a request comes more
than `w` after its start, which opens the next one. In one window `m` requests
are allowed. What such a counter answers is read off the log of its answers: at
most `m` are allowed in a window, and at most `2 * m` in an interval as long as
a window, since no more than two windows reach into it.
-/

namespace FixedWindow

structure Window where
  start : Nat
  count : Nat
  deriving DecidableEq, Repr

/-- The answer to one request, with the start of the window it fell into. -/
structure Answer where
  time : Nat
  start : Nat
  allowed : Bool
  deriving DecidableEq, Repr

/-- The window that a request falls into. -/
def enter (w : Nat) (s : Option Window) (now : Nat) : Window :=
  let s := s.getD ⟨now, 0⟩
  if now - s.start > w then ⟨now, 0⟩ else s

def request (w m : Nat) (s : Option Window) (now : Nat) : Window × Bool :=
  let s := enter w s now
  if s.count ≥ m then (s, false) else ({ s with count := s.count + 1 }, true)

def answers (w m : Nat) : Option Window → List Nat → List Answer
  | _, [] => []
  | s, now :: times =>
    let (t, allowed) := request w m s now
    ⟨now, t.start, allowed⟩ :: answers w m (some t) times

/-- How many requests have been allowed in the window that started at `start`. -/
def accepted (log : List Answer) (start : Nat) : Nat :=
  log.countP (fun a => a.allowed ∧ a.start = start)

/-- What the log of a counter shows, whatever its requests were. -/
structure Logged (w m : Nat) (log : List Answer) : Prop where
  within : ∀ a ∈ log, a.start ≤ a.time ∧ a.time ≤ a.start + w
  apart : ∀ a ∈ log, ∀ b ∈ log, a.start < b.start → a.start + w < b.start
  bounded : ∀ start, accepted log start ≤ m
  refused : ∀ before a after, log = before ++ a :: after → a.allowed = false →
    accepted before a.start = m

/-- The window held is the latest of the log, and its count is right. -/
structure Current (log : List Answer) (s : Window) : Prop where
  logged : ∃ a ∈ log, a.start = s.start
  latest : ∀ a ∈ log, a.start ≤ s.start
  counted : s.count = accepted log s.start

theorem accepted_append (log : List Answer) (a : Answer) (start : Nat) :
    accepted (log ++ [a]) start =
      accepted log start + if a.allowed ∧ a.start = start then 1 else 0 := by
  simp [accepted, List.countP_append, List.countP_cons]

/-- In a window of which no answer is logged nothing has been allowed. -/
theorem accepted_eq_zero {log : List Answer} {start : Nat}
    (unseen : ∀ a ∈ log, a.start ≠ start) : accepted log start = 0 := by
  rw [accepted, List.countP_eq_zero]
  intro a listed counts
  exact unseen a listed (of_decide_eq_true counts).2

theorem enter_none (w now : Nat) : enter w none now = ⟨now, 0⟩ := by
  simp [enter]

/-- A request falls into the window held, or opens the next one. -/
theorem enter_some (w : Nat) (s : Window) (now : Nat) :
    now ≤ s.start + w ∧ enter w (some s) now = s ∨
      s.start + w < now ∧ enter w (some s) now = ⟨now, 0⟩ := by
  by_cases late : now - s.start > w
  · refine .inr ⟨by omega, ?_⟩
    simp [enter, late]
  · refine .inl ⟨by omega, ?_⟩
    simp [enter, late]

/-- What a request is answered once its window is known. -/
theorem request_cases (w m : Nat) (s : Option Window) (now : Nat) :
    m ≤ (enter w s now).count ∧ request w m s now = (enter w s now, false) ∨
      (enter w s now).count < m ∧
        request w m s now = (⟨(enter w s now).start, (enter w s now).count + 1⟩, true) := by
  by_cases full : m ≤ (enter w s now).count
  · exact .inl ⟨full, by simp [request, full]⟩
  · exact .inr ⟨by omega, by simp [request, full]⟩

theorem request_start (w m : Nat) (s : Option Window) (now : Nat) :
    (request w m s now).1.start = (enter w s now).start := by
  rcases request_cases w m s now with ⟨-, same⟩ | ⟨-, same⟩ <;> rw [same]

theorem logged_nil (w m : Nat) : Logged w m [] where
  within := fun _ listed => absurd listed List.not_mem_nil
  apart := fun _ listed => absurd listed List.not_mem_nil
  bounded := fun _ => Nat.zero_le m
  refused := fun before a after split => absurd split (by simp)

/-- One more answer, in the window that a request has entered: the window is
counted right before the answer, and it is the last of the log or a later one. -/
theorem Logged.answer {w m now : Nat} {log : List Answer} {s : Window} {allowed : Bool}
    (kept : Logged w m log) (opened : s.start ≤ now) (open_ : now ≤ s.start + w)
    (latest : ∀ a ∈ log, a.start = s.start ∨ a.start + w < s.start)
    (counted : s.count = accepted log s.start)
    (decided : m ≤ s.count ∧ allowed = false ∨ s.count < m ∧ allowed = true) :
    Logged w m (log ++ [⟨now, s.start, allowed⟩]) := by
  constructor
  · intro a listed
    rcases List.mem_append.mp listed with old | new
    · exact kept.within a old
    · cases List.mem_singleton.mp new
      exact ⟨opened, open_⟩
  · intro a first b second before
    rcases List.mem_append.mp first with oldA | newA <;>
      rcases List.mem_append.mp second with oldB | newB
    · exact kept.apart a oldA b oldB before
    · cases List.mem_singleton.mp newB
      rcases latest a oldA with same | earlier
      · exact absurd before (by simp only [same, Nat.lt_irrefl, not_false_eq_true])
      · exact earlier
    · cases List.mem_singleton.mp newA
      have := latest b oldB
      simp only at before
      omega
    · cases List.mem_singleton.mp newA
      cases List.mem_singleton.mp newB
      exact absurd before (Nat.lt_irrefl _)
  · intro start
    rw [accepted_append]
    have old := kept.bounded start
    by_cases hit : allowed ∧ s.start = start
    · obtain ⟨yes, rfl⟩ := hit
      rcases decided with ⟨-, no⟩ | ⟨room, -⟩
      · exact absurd (no.symm.trans yes) Bool.false_ne_true
      · simp only [yes, and_self, if_true]
        omega
    · simp only [hit, if_false]
      exact old
  · intro before a after split no
    rcases List.eq_nil_or_concat after with rfl | ⟨tail, b, rfl⟩
    · obtain ⟨rfl, last⟩ := List.append_inj' split rfl
      cases (List.cons.inj last).1
      have old := kept.bounded s.start
      rcases decided with ⟨full, -⟩ | ⟨-, yes⟩
      · simp only at old counted ⊢
        omega
      · exact absurd (no.symm.trans yes) Bool.false_ne_true
    · rw [List.concat_eq_append, ← List.cons_append, ← List.append_assoc] at split
      obtain ⟨past, -⟩ := List.append_inj' split rfl
      exact kept.refused before a tail past no

/-- The window held after an answer that it has given. -/
theorem current_answer {w m now : Nat} {log : List Answer} (s : Option Window)
    (latest : ∀ a ∈ log, a.start ≤ (enter w s now).start)
    (counted : (enter w s now).count = accepted log (enter w s now).start) :
    Current (log ++ [⟨now, (request w m s now).1.start, (request w m s now).2⟩])
      (request w m s now).1 := by
  constructor
  · exact ⟨_, List.mem_append_right _ (List.mem_singleton_self _), rfl⟩
  · intro a listed
    rw [request_start]
    rcases List.mem_append.mp listed with old | new
    · exact latest a old
    · cases List.mem_singleton.mp new
      exact Nat.le_of_eq (request_start w m s now)
  · rw [accepted_append]
    rcases request_cases w m s now with ⟨-, same⟩ | ⟨-, same⟩
    · rw [same]
      simp [counted]
    · rw [same]
      simp [counted]

/-- The state that a log leaves: nothing is held before the first request. -/
def Held (log : List Answer) : Option Window → Prop
  | none => log = []
  | some s => Current log s

/-- One request keeps what the log shows. -/
theorem Logged.step {w m now : Nat} {log : List Answer} {s : Option Window}
    (kept : Logged w m log) (held : Held log s) (later : ∀ t, s = some t → t.start ≤ now) :
    Logged w m (log ++ [⟨now, (request w m s now).1.start, (request w m s now).2⟩]) ∧
      Held (log ++ [⟨now, (request w m s now).1.start, (request w m s now).2⟩])
        (some (request w m s now).1) := by
  -- the window entered: opened in the past, still open, and counted right
  have entered : (enter w s now).start ≤ now ∧ now ≤ (enter w s now).start + w ∧
      (∀ a ∈ log, a.start = (enter w s now).start ∨ a.start + w < (enter w s now).start) ∧
      (enter w s now).count = accepted log (enter w s now).start := by
    cases s with
    | none =>
      cases (show log = [] from held)
      rw [enter_none]
      exact ⟨Nat.le_refl now, Nat.le_add_right now w, by simp, rfl⟩
    | some t =>
      have current : Current log t := held
      obtain ⟨b, listed, there⟩ := current.logged
      rcases enter_some w t now with ⟨open_, same⟩ | ⟨late, same⟩
      · rw [same]
        refine ⟨later t rfl, open_, ?_, current.counted⟩
        intro a old
        rcases Nat.lt_or_eq_of_le (current.latest a old) with earlier | equal
        · have := kept.apart a old b listed (by omega)
          omega
        · exact .inl equal
      · rw [same]
        have before : ∀ a ∈ log, a.start + w < now := by
          intro a old
          have := current.latest a old
          omega
        refine ⟨Nat.le_refl now, Nat.le_add_right now w, fun a old => .inr (before a old), ?_⟩
        refine (accepted_eq_zero fun a old same => ?_).symm
        have := before a old
        simp only at same
        omega
  obtain ⟨opened, open_, latest, counted⟩ := entered
  refine ⟨?_, current_answer s ?_ counted⟩
  · rw [request_start]
    refine kept.answer opened open_ latest counted ?_
    rcases request_cases w m s now with ⟨full, same⟩ | ⟨room, same⟩
    · exact .inl ⟨full, by rw [same]⟩
    · exact .inr ⟨room, by rw [same]⟩
  · intro a old
    have := latest a old
    omega

/-- What a run of requests in the order of their times leaves in the log. -/
theorem Logged.run {w m : Nat} {log : List Answer} {s : Option Window} {times : List Nat}
    (kept : Logged w m log) (held : Held log s)
    (later : ∀ t, s = some t → ∀ now ∈ times, t.start ≤ now)
    (ordered : times.Pairwise (· ≤ ·)) : Logged w m (log ++ answers w m s times) := by
  induction times generalizing log s with
  | nil =>
    rw [answers, List.append_nil]
    exact kept
  | cons now times ih =>
    obtain ⟨first, rest⟩ := List.pairwise_cons.mp ordered
    obtain ⟨kept', held'⟩ :=
      kept.step held fun t current => later t current now List.mem_cons_self
    have next := ih kept' held' (fun t current then_ listed => ?_) rest
    · rw [List.append_assoc] at next
      exact next
    · cases Option.some.inj current
      have start : (request w m s now).1.start ≤ now :=
        (kept'.within _ (List.mem_append_right _ (List.mem_singleton_self _))).1
      exact Nat.le_trans start (first then_ listed)

theorem logged_answers {w m : Nat} {times : List Nat} (ordered : times.Pairwise (· ≤ ·)) :
    Logged w m (answers w m none times) := by
  have none_later : ∀ t : Window, none = some t → ∀ now ∈ times, t.start ≤ now :=
    fun t absent => nomatch absent
  have all := (logged_nil w m).run (s := none) rfl none_later ordered
  rwa [List.nil_append] at all

/-- What is counted of either kind is not more than what is counted of one kind
and of the other. -/
theorem countP_le_add {p q r : Answer → Bool} {log : List Answer}
    (either : ∀ a ∈ log, p a → q a ∨ r a) : log.countP p ≤ log.countP q + log.countP r := by
  induction log with
  | nil => exact Nat.zero_le _
  | cons a log ih =>
    have rest := ih fun b listed => either b (List.mem_cons_of_mem a listed)
    have here := either a List.mem_cons_self
    simp only [List.countP_cons]
    by_cases counts : p a
    · rcases here counts with left | right
      · simp only [counts, left, if_true]
        omega
      · simp only [counts, right, if_true]
        omega
    · simp only [counts, Bool.false_eq_true, if_false]
      omega

/-- Between two window starts that follow each other no more than `m` are allowed. -/
theorem Logged.between {w m : Nat} {log : List Answer} (kept : Logged w m log) {start next : Nat}
    (begun : start ∈ log.map Answer.start)
    (consecutive : ∀ u ∈ log.map Answer.start, u ≤ start ∨ next ≤ u) :
    log.countP (fun a => a.allowed ∧ start ≤ a.time ∧ a.time < next) ≤ m := by
  refine Nat.le_trans (List.countP_mono_left ?_) (kept.bounded start)
  intro a listed counts
  obtain ⟨yes, after, before⟩ := of_decide_eq_true counts
  refine decide_eq_true ⟨yes, ?_⟩
  obtain ⟨b, there, rfl⟩ := List.mem_map.mp begun
  have span := kept.within a listed
  rcases consecutive a.start (List.mem_map_of_mem listed) with early | late
  · rcases Nat.lt_or_eq_of_le early with earlier | same
    · have := kept.apart a listed b there earlier
      omega
    · exact same
  · omega

/-- An interval as long as a window meets no more than two windows. -/
theorem Logged.interval {w m : Nat} {log : List Answer} (kept : Logged w m log) (t : Nat) :
    log.countP (fun a => a.allowed ∧ t ≤ a.time ∧ a.time ≤ t + w) ≤ 2 * m := by
  by_cases met : ∃ a ∈ log, t ≤ a.time ∧ a.time ≤ t + w
  · obtain ⟨a, listedA, afterA, beforeA⟩ := met
    by_cases second : ∃ b ∈ log, (t ≤ b.time ∧ b.time ≤ t + w) ∧ b.start ≠ a.start
    · obtain ⟨b, listedB, ⟨afterB, beforeB⟩, other⟩ := second
      have two : log.countP (fun a => a.allowed ∧ t ≤ a.time ∧ a.time ≤ t + w) ≤
          accepted log a.start + accepted log b.start := by
        refine countP_le_add fun c listedC counts => ?_
        obtain ⟨yes, afterC, beforeC⟩ := of_decide_eq_true counts
        have spanA := kept.within a listedA
        have spanB := kept.within b listedB
        have spanC := kept.within c listedC
        -- three windows apart from each other would reach further than the interval
        have apart := kept.apart
        have third : c.start = a.start ∨ c.start = b.start := by
          have ab := apart a listedA b listedB
          have ba := apart b listedB a listedA
          have ac := apart a listedA c listedC
          have ca := apart c listedC a listedA
          have bc := apart b listedB c listedC
          have cb := apart c listedC b listedB
          omega
        rcases third with same | same
        · exact .inl (decide_eq_true ⟨yes, same⟩)
        · exact .inr (decide_eq_true ⟨yes, same⟩)
      have first := kept.bounded a.start
      have last := kept.bounded b.start
      omega
    · have one : log.countP (fun a => a.allowed ∧ t ≤ a.time ∧ a.time ≤ t + w) ≤
          accepted log a.start := by
        refine List.countP_mono_left fun c listedC counts => ?_
        obtain ⟨yes, afterC, beforeC⟩ := of_decide_eq_true counts
        refine decide_eq_true ⟨yes, ?_⟩
        by_contra other
        exact second ⟨c, listedC, ⟨afterC, beforeC⟩, other⟩
      have first := kept.bounded a.start
      omega
  · have none_ : log.countP (fun a => a.allowed ∧ t ≤ a.time ∧ a.time ≤ t + w) = 0 := by
      rw [List.countP_eq_zero]
      intro a listed counts
      exact met ⟨a, listed, (of_decide_eq_true counts).2⟩
    omega

end FixedWindow

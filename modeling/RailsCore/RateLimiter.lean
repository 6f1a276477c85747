import RailsCore.FixedWindow
import RailsCore.Table

/-!
# The rate limiter of the users and the accounts service

Both services keep the same limiter: a map from client keys to windows behind a
lock. The time of a call is read with the lock held, so the calls of a process
come in the order of their times. For each key the limiter answers as a counter
of its own would, whatever the calls with other keys between.
-/

namespace RailsCore.RateLimiter

structure RateLimitConfig where
  /-- nanoseconds, as the times of the calls -/
  window : Nat
  max : Nat

abbrev RateLimitWindow := FixedWindow.Window

/-- The map of the limiter, as the list of its entries. -/
abbrev Store := List (String × RateLimitWindow)

/-- `RateLimiter::allow`, at the time `now`. -/
def allow (config : RateLimitConfig) (store : Store) (now : Nat) (clientKey : String) :
    Store × Bool :=
  let entry := ((Table.find Prod.fst clientKey store).map Prod.snd).getD ⟨now, 0⟩
  -- `duration_since` is zero for a start that lies in the future
  let entry := if now - entry.start > config.window then ⟨now, 0⟩ else entry
  if entry.count ≥ config.max then (Table.upsert Prod.fst (clientKey, entry) store, false)
  -- the count has not passed `max`, a `u32`, so the increment does not overflow
  else (Table.upsert Prod.fst (clientKey, { entry with count := entry.count + 1 }) store, true)

structure Call where
  time : Nat
  key : String
  deriving DecidableEq, Repr

structure Answered where
  key : String
  answer : FixedWindow.Answer
  deriving DecidableEq, Repr

/-- The answers to the calls, in their order, each with the start of the window
that the map holds for the key of the call afterwards. -/
def answers (config : RateLimitConfig) : Store → List Call → List Answered
  | _, [] => []
  | store, call :: calls =>
    let (store', allowed) := allow config store call.time call.key
    let start := ((Table.find Prod.fst call.key store').map fun e => e.2.start).getD call.time
    ⟨call.key, ⟨call.time, start, allowed⟩⟩ :: answers config store' calls

/-- The answers that calls with one key are given. -/
def answersFor (key : String) (log : List Answered) : List FixedWindow.Answer :=
  (log.filter (fun a => a.key = key)).map Answered.answer

/-- The window that the map holds for a key. -/
def held (key : String) (store : Store) : Option RateLimitWindow :=
  (Table.find Prod.fst key store).map Prod.snd

/-- One call is a request to the counter of its key, and moves no other counter. -/
theorem allow_spec (config : RateLimitConfig) (store : Store) (now : Nat) (clientKey : String) :
    (allow config store now clientKey).2 =
        (FixedWindow.request config.window config.max (held clientKey store) now).2 ∧
      ∀ key, held key (allow config store now clientKey).1 =
        if key = clientKey then
          some (FixedWindow.request config.window config.max (held clientKey store) now).1
        else held key store := by
  have entered : FixedWindow.enter config.window (held clientKey store) now =
      if now - (((Table.find Prod.fst clientKey store).map Prod.snd).getD ⟨now, 0⟩).start >
        config.window then ⟨now, 0⟩
      else ((Table.find Prod.fst clientKey store).map Prod.snd).getD ⟨now, 0⟩ := rfl
  rw [allow, FixedWindow.request, ← entered]
  by_cases full : (FixedWindow.enter config.window (held clientKey store) now).count ≥ config.max
  · simp only [full, if_true, true_and]
    intro key
    rw [held, Table.find_upsert]
    by_cases own : key = clientKey
    · simp [own]
    · simp [own, held]
  · simp only [full, if_false, true_and]
    intro key
    rw [held, Table.find_upsert]
    by_cases own : key = clientKey
    · simp [own]
    · simp [own, held]

/-- The answers for a key are those of a counter that sees the calls with this
key alone. -/
theorem answersFor_eq (config : RateLimitConfig) (key : String) (store : Store)
    (calls : List Call) :
    answersFor key (answers config store calls) =
      FixedWindow.answers config.window config.max (held key store)
        ((calls.filter (fun c => c.key = key)).map Call.time) := by
  induction calls generalizing store with
  | nil => rfl
  | cons call calls ih =>
    obtain ⟨answered, moved⟩ := allow_spec config store call.time call.key
    have rest := ih (allow config store call.time call.key).1
    rw [moved key] at rest
    by_cases own : call.key = key
    · subst own
      have start := moved call.key
      rw [if_pos rfl] at start rest
      simp only [answersFor, answers, List.filter_cons, decide_true, if_true, List.map_cons,
        FixedWindow.answers] at rest ⊢
      rw [rest, answered]
      have shown : ((Table.find Prod.fst call.key
          (allow config store call.time call.key).1).map fun e => e.2.start) =
            (held call.key (allow config store call.time call.key).1).map
              FixedWindow.Window.start := by
        rw [held, Option.map_map]
        rfl
      rw [shown, start, Option.map_some, Option.getD_some]
    · rw [if_neg (Ne.symm own)] at rest
      simpa [answersFor, answers, List.filter_cons, own] using rest

/-- The times of the calls with one key are in order when those of all calls are. -/
theorem ordered_times {calls : List Call} (ordered : calls.Pairwise (fun a b => a.time ≤ b.time))
    (key : String) : ((calls.filter (fun c => c.key = key)).map Call.time).Pairwise (· ≤ ·) := by
  rw [List.pairwise_map]
  exact ordered.filter _

/-- For every key: between two window starts that follow each other at most `max`
calls are allowed, and at most twice as many in an interval as long as a window; a
call is refused only when `max` were allowed before it in the same window; and
the answers are those to the calls with this key alone. -/
theorem allow_bounded (config : RateLimitConfig) (calls : List Call)
    (ordered : calls.Pairwise (fun a b => a.time ≤ b.time)) (key : String) :
    let log := answersFor key (answers config [] calls)
    (∀ start ∈ log.map (·.start), ∀ next, (∀ u ∈ log.map (·.start), u ≤ start ∨ next ≤ u) →
      log.countP (fun a => a.allowed ∧ start ≤ a.time ∧ a.time < next) ≤ config.max) ∧
    (∀ t, log.countP (fun a => a.allowed ∧ t ≤ a.time ∧ a.time ≤ t + config.window) ≤
      2 * config.max) ∧
    (∀ before a after, log = before ++ a :: after → a.allowed = false →
      before.countP (fun b => b.allowed ∧ b.start = a.start) = config.max) ∧
    log = answersFor key (answers config [] (calls.filter (fun c => c.key = key))) := by
  intro log
  have counter : log = FixedWindow.answers config.window config.max none
      ((calls.filter (fun c => c.key = key)).map Call.time) := answersFor_eq config key [] calls
  have logged : FixedWindow.Logged config.window config.max log := by
    rw [counter]
    exact FixedWindow.logged_answers (ordered_times ordered key)
  refine ⟨?_, logged.interval, logged.refused, ?_⟩
  · intro start begun next consecutive
    exact logged.between begun consecutive
  · have alone := answersFor_eq config key [] (calls.filter (fun c => c.key = key))
    rw [List.filter_filter] at alone
    simp only [Bool.and_self] at alone
    rw [counter, alone]
    rfl

/-- Two calls in a window of 40, one each for two keys, and one after the window. -/
theorem allow_bounded_calls :
    answers ⟨40, 1⟩ [] [⟨0, "c1"⟩, ⟨10, "c1"⟩, ⟨20, "c2"⟩, ⟨60, "c1"⟩] =
        [⟨"c1", 0, 0, true⟩, ⟨"c1", 10, 0, false⟩, ⟨"c2", 20, 20, true⟩, ⟨"c1", 60, 60, true⟩] ∧
      (answersFor "c1" (answers ⟨40, 1⟩ [] [⟨0, "c1"⟩, ⟨10, "c1"⟩, ⟨20, "c2"⟩, ⟨60, "c1"⟩])).countP
        (fun a => a.allowed ∧ 20 ≤ a.time ∧ a.time ≤ 20 + 40) ≤ 2 * 1 :=
  ⟨by decide +kernel,
    (allow_bounded ⟨40, 1⟩ [⟨0, "c1"⟩, ⟨10, "c1"⟩, ⟨20, "c2"⟩, ⟨60, "c1"⟩] (by decide +kernel)
      "c1").2.1 20⟩

end RailsCore.RateLimiter

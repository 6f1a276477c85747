import RailsCore.Evictions
import RailsCore.TokenMoves

/-!
# Reset tokens in every state

A token only ever turns from unused to used, an open transaction holds used
copies of unused tokens and the one token that its request has inserted, and a
reset holds the token that it has claimed. A request marks the unused tokens
of one snapshot, so a token that another request commits in between stays
usable beside its own.
-/

namespace RailsCore.UsersService

open ReadCommitted (Cell Cells Keyed Frame committed touch Unused mem_committed)

/-- A version of a token, and what it may have become. -/
def PasswordResetToken.Later (r r' : PasswordResetToken) : Prop :=
  r' = r ∨ r.usedAt = none ∧ ∃ now, r' = r.used now

theorem PasswordResetToken.later_refl (r : PasswordResetToken) : r.Later r := .inl rfl

/-- The transaction holds an unused token as used, since before its expiry. -/
def Claimed (tokens : Cells PasswordResetToken) (tx : Nat) (token : PasswordResetToken) : Prop :=
  ∃ c ∈ tokens, ∃ r now, c.committed = some r ∧ r.usedAt = none ∧ token = r.used now ∧
    now ≤ r.expiresAt ∧ c.pending = some (tx, token)

/-- What a request at this stage still finds in the table. -/
def TokenStage.Sound (tokens : Cells PasswordResetToken) (tx : Nat) : TokenStage → Prop
  | .issued userId => ∃ c ∈ tokens, ∃ v, c.pending = some (tx, v) ∧ v.userId = userId ∧ v.usedAt = none
  | .claiming rows => ∀ token ∈ rows, Claimed tokens tx token
  | .claimed token => Claimed tokens tx token
  | _ => True

theorem Claimed.kept {tokens tokens' : Cells PasswordResetToken} {tx : Nat}
    {token : PasswordResetToken} (claimed : Claimed tokens tx token)
    (own : ∀ c ∈ tokens, ∀ v, c.pending = some (tx, v) → c ∈ tokens') :
    Claimed tokens' tx token := by
  obtain ⟨c, hc, r, now, stored, unused, same, intime, held⟩ := claimed
  exact ⟨c, own c hc token held, r, now, stored, unused, same, intime, held⟩

theorem TokenStage.Sound.kept {tokens tokens' : Cells PasswordResetToken} {tx : Nat}
    {stage : TokenStage} (sound : stage.Sound tokens tx)
    (own : ∀ c ∈ tokens, ∀ v, c.pending = some (tx, v) → c ∈ tokens') :
    stage.Sound tokens' tx := by
  cases stage with
  | nothing | replacing userId => trivial
  | issued userId =>
    obtain ⟨c, hc, v, held, new⟩ := sound
    exact ⟨c, own c hc v held, v, held, new⟩
  | claiming rows => exact fun token listed => (sound token listed).kept own
  | claimed token => exact Claimed.kept sound own

structure TokensSound (tokens : Cells PasswordResetToken) (stage : Nat → TokenStage) : Prop where
  ids : Keyed PasswordResetToken.id tokens
  busy : ∀ c ∈ tokens, ∀ tx v, c.pending = some (tx, v) → stage tx ≠ .nothing
  revision : ∀ c ∈ tokens, ∀ tx v r, c.pending = some (tx, v) → c.committed = some r →
    r.usedAt = none ∧ ∃ now, v = r.used now
  issued : ∀ c ∈ tokens, ∀ tx v, c.pending = some (tx, v) → c.committed = none →
    stage tx = .issued v.userId ∧ v.usedAt = none
  single : ∀ c ∈ tokens, ∀ d ∈ tokens, ∀ tx v w, c.pending = some (tx, v) →
    d.pending = some (tx, w) → c.committed = none → d.committed = none → c = d
  stages : ∀ tx, (stage tx).Sound tokens tx

namespace TokensSound
variable {tokens tokens' : Cells PasswordResetToken} {stage stage' : Nat → TokenStage} {tx : Nat}

theorem steps (sound : TokensSound tokens stage) : ∀ c ∈ tokens, ∀ old row,
    c.committed = some old → c.pending = some (tx, row) → old.Later row :=
  fun c hc old row stored held => .inr (sound.revision c hc tx row old held stored)

/-- A transaction that has issued no token holds no new row. -/
theorem held_committed (sound : TokensSound tokens stage) (apart : ∀ u, stage tx ≠ .issued u)
    {c : Cell PasswordResetToken} (hc : c ∈ tokens) {v : PasswordResetToken}
    (held : c.pending = some (tx, v)) : ∃ r now, c.committed = some r ∧ r.usedAt = none ∧
      v = r.used now := by
  cases stored : c.committed with
  | none => exact absurd (sound.issued c hc tx v held stored).1 (apart v.userId)
  | some r =>
    obtain ⟨unused, now, same⟩ := sound.revision c hc tx v r held stored
    exact ⟨r, now, rfl, unused, same⟩

/-- The unused tokens that it sees are committed, and it does not hold them. -/
theorem seen_unused (sound : TokensSound tokens stage) (apart : ∀ u, stage tx ≠ .issued u)
    {c : Cell PasswordResetToken} (hc : c ∈ tokens) {row : PasswordResetToken}
    (seen : c.visible tx = some row) (unused : row.usedAt = none) :
    c.committed = some row ∧ ∀ v, c.pending ≠ some (tx, v) := by
  have free : ∀ v, c.pending ≠ some (tx, v) := by
    intro v held
    obtain rfl : v = row := Option.some.inj ((Cell.visible_own held).symm.trans seen)
    obtain ⟨r, now, -, -, rfl⟩ := sound.held_committed apart hc held
    exact nomatch unused
  exact ⟨(Cell.visible_other free).symm.trans seen, free⟩

/-- Only the stage of `tx` changes. -/
theorem restage (sound : TokensSound tokens stage) (others : ∀ j, j ≠ tx → stage' j = stage j)
    (own : stage tx = .nothing ∨ stage' tx ≠ .nothing ∧ ∀ u, stage tx ≠ .issued u)
    (kept : (stage' tx).Sound tokens tx) : TokensSound tokens stage' := by
  refine ⟨sound.ids, ?_, sound.revision, ?_, sound.single, ?_⟩
  · intro c hc holder v held
    by_cases mine : holder = tx
    · subst mine
      rcases own with idle | ⟨busy, -⟩
      · exact absurd idle (sound.busy c hc holder v held)
      · exact busy
    · rw [others holder mine]
      exact sound.busy c hc holder v held
  · intro c hc holder v held new
    have before := sound.issued c hc holder v held new
    by_cases mine : holder = tx
    · subst mine
      rcases own with idle | ⟨-, apart⟩
      · exact absurd idle (sound.busy c hc holder v held)
      · exact absurd before.1 (apart v.userId)
    · rw [others holder mine]
      exact before
  · intro j
    by_cases mine : j = tx
    · exact mine ▸ kept
    · rw [others j mine]
      exact sound.stages j

section Touch
variable {k : Uuid} {p : PasswordResetToken → Bool} {now : Nat} {result : Option PasswordResetToken}

/-- An update of unused tokens leaves what its transaction holds alone. -/
theorem touch_own (sound : TokensSound tokens stage) (apart : ∀ u, stage tx ≠ .issued u)
    (live : ∀ r, p r = true → r.usedAt = none)
    (update : touch PasswordResetToken.id tx k p (PasswordResetToken.used now) tokens =
      some (tokens', result)) {c : Cell PasswordResetToken} (hc : c ∈ tokens)
    {v : PasswordResetToken} (held : c.pending = some (tx, v)) : c ∈ tokens' := by
  refine (ReadCommitted.mem_touch update).mpr ⟨c, hc, ?_⟩
  split
  · rcases c.update_cases tx p (PasswordResetToken.used now) with ⟨-, same⟩ | ⟨row, seen, passes, -⟩
    · exact same.symm
    · exact absurd held ((sound.seen_unused apart hc seen (live row passes)).2 v)
  · rfl

theorem touch (sound : TokensSound tokens stage) (others : ∀ j, j ≠ tx → stage' j = stage j)
    (apart : ∀ u, stage tx ≠ .issued u) (busy : stage' tx ≠ .nothing)
    (live : ∀ r, p r = true → r.usedAt = none)
    (update : ReadCommitted.touch PasswordResetToken.id tx k p (PasswordResetToken.used now)
      tokens = some (tokens', result)) (kept : (stage' tx).Sound tokens' tx) :
    TokensSound tokens' stage' := by
  -- a new version is of a committed token that nobody held
  have cells : ∀ d ∈ tokens', d ∈ tokens ∨ ∃ c ∈ tokens, ∃ row, c.committed = some row ∧
      row.usedAt = none ∧ d = { c with pending := some (tx, row.used now) } := by
    intro d hd
    rcases ReadCommitted.touch_cases update hd with old | ⟨c, hc, row, -, seen, passes, rfl⟩
    · exact .inl old
    · exact .inr ⟨c, hc, row, (sound.seen_unused apart hc seen (live row passes)).1,
        live row passes, rfl⟩
  refine ⟨sound.ids.touch (f := PasswordResetToken.used now) (fun _ => rfl) update, ?_, ?_, ?_, ?_, ?_⟩
  · intro d hd holder v held
    by_cases mine : holder = tx
    · exact mine ▸ busy
    · rw [others holder mine]
      rcases cells d hd with old | ⟨c, -, row, -, -, rfl⟩
      · exact sound.busy d old holder v held
      · exact absurd (Prod.mk.inj (Option.some.inj held)).1.symm mine
  · intro d hd holder v r held stored
    rcases cells d hd with old | ⟨c, -, row, stored', unused, rfl⟩
    · exact sound.revision d old holder v r held stored
    · obtain rfl : row = r := Option.some.inj (stored'.symm.trans stored)
      cases held
      exact ⟨unused, now, rfl⟩
  · intro d hd holder v held new
    rcases cells d hd with old | ⟨c, -, row, stored', -, rfl⟩
    · have before := sound.issued d old holder v held new
      rw [others holder (fun mine => apart v.userId (mine ▸ before.1))]
      exact before
    · exact nomatch stored'.symm.trans new
  · intro d hd e he holder v w held held' new new'
    rcases cells d hd with old | ⟨c, -, row, stored, -, rfl⟩
    · rcases cells e he with old' | ⟨c, -, row, stored, -, rfl⟩
      · exact sound.single d old e old' holder v w held held' new new'
      · exact nomatch stored.symm.trans new'
    · exact nomatch stored.symm.trans new
  · intro j
    by_cases mine : j = tx
    · exact mine ▸ kept
    · rw [others j mine]
      exact (sound.stages j).kept fun c hc v held => ReadCommitted.touch_held update hc held mine

end Touch

theorem insert {row : PasswordResetToken} (sound : TokensSound tokens stage)
    (others : ∀ j, j ≠ tx → stage' j = stage j) (at_ : stage tx = .replacing row.userId)
    (at' : stage' tx = .issued row.userId) (newId : Unused PasswordResetToken.id row.id tokens)
    (unused : row.usedAt = none) : TokensSound (ReadCommitted.insert tx row tokens) stage' := by
  -- before the insert the transaction holds no row of its own making
  have none_new : ∀ c ∈ tokens, ∀ v, c.pending = some (tx, v) → c.committed ≠ none := by
    intro c hc v held new
    exact nomatch at_.symm.trans (sound.issued c hc tx v held new).1
  refine ⟨sound.ids.insert tx newId, ?_, ?_, ?_, ?_, ?_⟩
  · intro d hd holder v held
    by_cases mine : holder = tx
    · rw [mine, at']
      exact nofun
    · rw [others holder mine]
      rcases ReadCommitted.mem_insert.mp hd with kept | rfl
      · exact sound.busy d kept holder v held
      · exact absurd (Prod.mk.inj (Option.some.inj held)).1.symm mine
  · intro d hd holder v r held stored
    rcases ReadCommitted.mem_insert.mp hd with kept | rfl
    · exact sound.revision d kept holder v r held stored
    · exact nomatch stored
  · intro d hd holder v held new
    rcases ReadCommitted.mem_insert.mp hd with kept | rfl
    · have other : holder ≠ tx := by
        rintro rfl
        exact none_new d kept v held new
      rw [others holder other]
      exact sound.issued d kept holder v held new
    · cases held
      exact ⟨at', unused⟩
  · intro d hd e he holder v w held held' new new'
    rcases ReadCommitted.mem_insert.mp hd with kept | rfl <;>
      rcases ReadCommitted.mem_insert.mp he with kept' | rfl
    · exact sound.single d kept e kept' holder v w held held' new new'
    · cases held'
      exact absurd new (none_new d kept v held)
    · cases held
      exact absurd new' (none_new e kept' w held')
    · rfl
  · intro j
    by_cases mine : j = tx
    · rw [mine, at']
      exact ⟨_, ReadCommitted.mem_insert.mpr (.inr rfl), row, rfl, rfl, unused⟩
    · rw [others j mine]
      exact (sound.stages j).kept fun c hc _ _ => ReadCommitted.mem_insert.mpr (.inl hc)

/-- The end of a transaction: its cells lose their pending versions, the others stay. -/
theorem finish (sound : TokensSound tokens stage) (others : ∀ j, j ≠ tx → stage' j = stage j)
    (at' : stage' tx = .nothing) (ids : Keyed PasswordResetToken.id tokens')
    (cells : ∀ d ∈ tokens', (d ∈ tokens ∧ ∀ v, d.pending ≠ some (tx, v)) ∨ d.pending = none)
    (own : ∀ j, j ≠ tx → ∀ c ∈ tokens, ∀ v, c.pending = some (j, v) → c ∈ tokens') :
    TokensSound tokens' stage' := by
  have held_old : ∀ d ∈ tokens', ∀ holder v, d.pending = some (holder, v) →
      d ∈ tokens ∧ holder ≠ tx := by
    intro d hd holder v held
    rcases cells d hd with ⟨kept, free⟩ | done
    · exact ⟨kept, fun mine => free v (mine ▸ held)⟩
    · exact nomatch done.symm.trans held
  refine ⟨ids, ?_, ?_, ?_, ?_, ?_⟩
  · intro d hd holder v held
    obtain ⟨kept, apart⟩ := held_old d hd holder v held
    rw [others holder apart]
    exact sound.busy d kept holder v held
  · intro d hd holder v r held stored
    exact sound.revision d (held_old d hd holder v held).1 holder v r held stored
  · intro d hd holder v held new
    obtain ⟨kept, apart⟩ := held_old d hd holder v held
    rw [others holder apart]
    exact sound.issued d kept holder v held new
  · intro d hd e he holder v w held held' new new'
    exact sound.single d (held_old d hd holder v held).1 e (held_old e he holder w held').1
      holder v w held held' new new'
  · intro j
    by_cases mine : j = tx
    · rw [mine, at']
      trivial
    · rw [others j mine]
      exact (sound.stages j).kept fun c hc v held => own j mine c hc v held

theorem frame_commit {other : Nat} (sound : TokensSound tokens stage) (apart : tx ≠ other) :
    Frame PasswordResetToken.id PasswordResetToken.Later other tokens
      (ReadCommitted.commit tx tokens) :=
  Frame.commit PasswordResetToken.later_refl apart sound.ids sound.steps

theorem commit (sound : TokensSound tokens stage) (others : ∀ j, j ≠ tx → stage' j = stage j)
    (at' : stage' tx = .nothing) : TokensSound (ReadCommitted.commit tx tokens) stage' :=
  sound.finish others at' (sound.ids.commit tx)
    (fun _ hd => (ReadCommitted.commit_ends hd).imp_right And.left)
    (fun _ mine => (sound.frame_commit (Ne.symm mine)).own)

theorem rollback (sound : TokensSound tokens stage) (others : ∀ j, j ≠ tx → stage' j = stage j)
    (at' : stage' tx = .nothing) : TokensSound (ReadCommitted.rollback tx tokens) stage' := by
  have frame (j : Nat) (mine : j ≠ tx) : Frame PasswordResetToken.id PasswordResetToken.Later j
      tokens (ReadCommitted.rollback tx tokens) :=
    Frame.rollback PasswordResetToken.later_refl mine.symm
  exact sound.finish others at' (sound.ids.rollback tx)
    (fun _ hd => (ReadCommitted.rollback_ends hd).imp_right And.left) (fun j mine => (frame j mine).own)

/-- A claim adds the token that it has marked. -/
theorem claim {k : Uuid} {now : Nat} {tokenHash : String} {claimed : List PasswordResetToken}
    {result : Option PasswordResetToken} (sound : TokensSound tokens stage)
    (at_ : stage tx = .claiming claimed)
    (update : ReadCommitted.touch PasswordResetToken.id tx k (claims now tokenHash)
      (PasswordResetToken.used now) tokens = some (tokens', result)) :
    (TokenStage.claiming (claimed ++ result.toList)).Sound tokens' tx := by
  have apart : ∀ u, stage tx ≠ .issued u := by
    rw [at_]
    exact nofun
  have live : ∀ r, claims now tokenHash r = true → r.usedAt = none :=
    fun r passes => (of_decide_eq_true passes).2.1
  intro token listed
  rcases List.mem_append.mp listed with before | new
  · have stages := sound.stages tx
    rw [at_] at stages
    exact (stages token before).kept fun c hc _ held => sound.touch_own apart live update hc held
  · obtain rfl := Option.mem_toList.mp new
    obtain ⟨c, hc, row, seen, passes, rfl, written⟩ := ReadCommitted.touch_result update
    obtain ⟨-, unused, intime⟩ := of_decide_eq_true passes
    exact ⟨_, written, row, now, (sound.seen_unused apart hc seen unused).1, unused, rfl, intime, rfl⟩

theorem move {st st' : TokenStage} (sound : TokensSound tokens stage) (at_ : stage tx = st)
    (at' : stage' tx = st') (others : ∀ j, j ≠ tx → stage' j = stage j)
    (moved : TokenMove tx tokens st st' tokens') : TokensSound tokens' stage' := by
  have own := sound.stages tx
  rw [at_] at own
  cases moved with
  | quiet =>
    obtain rfl : stage' = stage := funext fun j => by
      by_cases mine : j = tx
      · rw [mine, at', at_]
      · exact others j mine
    exact sound
  | begin | aim =>
    refine sound.restage others (.inl at_) ?_
    rw [at']
    first | trivial | exact nofun
  | take token rest =>
    refine sound.restage others (.inr ⟨?_, ?_⟩) ?_
    · rw [at']
      exact nofun
    · rw [at_]
      exact nofun
    · rw [at']
      exact own token List.mem_cons_self
  | replace update =>
    have apart : ∀ u, stage tx ≠ .issued u := by
      rw [at_]
      exact nofun
    have busy : stage' tx ≠ .nothing := by
      rw [at']
      exact nofun
    refine sound.touch others apart busy (fun r passes => (of_decide_eq_true passes).2) update ?_
    rw [at']
    trivial
  | issue newId unused => exact sound.insert others at_ at' newId unused
  | claim update =>
    have apart : ∀ u, stage tx ≠ .issued u := by
      rw [at_]
      exact nofun
    have busy : stage' tx ≠ .nothing := by
      rw [at']
      exact nofun
    refine sound.touch others apart busy (fun r passes => (of_decide_eq_true passes).2.1) update ?_
    rw [at']
    exact sound.claim at_ update
  | @sibling token k now _ row update =>
    have apart : ∀ u, stage tx ≠ .issued u := by
      rw [at_]
      exact nofun
    have busy : stage' tx ≠ .nothing := by
      rw [at']
      exact nofun
    have live : ∀ r, siblingOf token r = true → r.usedAt = none := fun r passes =>
      (of_decide_eq_true (Bool.and_eq_true_iff.mp passes).1).2
    refine sound.touch others apart busy live update ?_
    rw [at']
    exact Claimed.kept own fun c hc _ held => sound.touch_own apart live update hc held
  | commitIssue | commitReset | commitOther => exact sound.commit others at'
  | rollback => exact sound.rollback others at'

/-- Whoever else moves, a committed token stays as it is or turns used. -/
theorem later {st st' : TokenStage} (sound : TokensSound tokens stage)
    (moved : TokenMove tx tokens st st' tokens') {r : PasswordResetToken}
    (stored : r ∈ committed tokens) : ∃ r' ∈ committed tokens', r.Later r' := by
  have same : committed tokens' = committed tokens → ∃ r' ∈ committed tokens', r.Later r' :=
    fun same => ⟨r, same.symm ▸ stored, r.later_refl⟩
  have commits : ∃ r' ∈ committed (ReadCommitted.commit tx tokens), r.Later r' := by
    obtain ⟨c, hc, stored⟩ := mem_committed.mp stored
    obtain ⟨d, hd, r', stored', later⟩ := (sound.frame_commit (Nat.succ_ne_self tx).symm).rows c hc r stored
    exact ⟨r', mem_committed.mpr ⟨d, hd, stored'⟩, later⟩
  cases moved with
  | quiet | begin | aim | take => exact same rfl
  | replace update | claim update | sibling update =>
    exact same (ReadCommitted.committed_touch update)
  | issue => exact same (ReadCommitted.committed_insert _ _ _)
  | commitIssue | commitReset | commitOther => exact commits
  | rollback => exact same (ReadCommitted.committed_rollback _ _)

end TokensSound

/-- At most one token of a user is unused. -/
def OneUsable (tokens : Cells PasswordResetToken) : Prop :=
  ∀ a ∈ committed tokens, ∀ b ∈ committed tokens, a.userId = b.userId →
    a.usedAt = none → b.usedAt = none → a = b

/-- When a request commits its token, it holds every other unused token of the user. -/
def TokenStage.Supersedes (tokens : Cells PasswordResetToken) (tx : Nat) : TokenStage → Prop
  | .issued userId => ∀ c ∈ tokens, ∀ r ∈ c.committed, r.userId = userId → r.usedAt = none →
    ∃ held ∈ c.pending, held.1 = tx
  | _ => True

instance (tokens : Cells PasswordResetToken) (tx : Nat) :
    ∀ stage : TokenStage, Decidable (stage.Supersedes tokens tx)
  | .issued _ => inferInstanceAs (Decidable (∀ _ ∈ _, ∀ _ ∈ _, _ → _ → _))
  | .nothing | .replacing _ | .claiming _ | .claimed _ => inferInstanceAs (Decidable True)

section OneUsable
variable {tokens tokens' : Cells PasswordResetToken} {stage : Nat → TokenStage} {tx : Nat}

/-- A commit leaves an unused token that was committed before and is not its own, or the
one that its request has inserted. -/
theorem unused_commit (sound : TokensSound tokens stage) {r : PasswordResetToken}
    (stored : r ∈ committed (ReadCommitted.commit tx tokens)) (unused : r.usedAt = none) :
    (∃ c ∈ tokens, c.committed = some r ∧ ∀ v, c.pending ≠ some (tx, v)) ∨
      ∃ c ∈ tokens, c.committed = none ∧ c.pending = some (tx, r) ∧ stage tx = .issued r.userId := by
  rcases ReadCommitted.committed_commit stored with before | ⟨c, hc, held⟩
  · exact .inl before
  · cases old : c.committed with
    | none => exact .inr ⟨c, hc, old, held, (sound.issued c hc tx r held old).1⟩
    | some r' =>
      obtain ⟨-, now, rfl⟩ := sound.revision c hc tx r r' held old
      exact nomatch unused

theorem OneUsable.commit (one : OneUsable tokens) (sound : TokensSound tokens stage)
    (supersedes : (stage tx).Supersedes tokens tx) :
    OneUsable (ReadCommitted.commit tx tokens) := by
  -- beside the new token no other one of the user is left
  have alone : ∀ c ∈ tokens, ∀ r userId, stage tx = .issued userId → c.committed = some r →
      r.userId = userId → r.usedAt = none → (∀ v, c.pending ≠ some (tx, v)) → False := by
    intro c hc r userId at_ stored owner unused free
    rw [at_] at supersedes
    obtain ⟨⟨holder, v⟩, held, rfl⟩ := supersedes c hc r stored owner unused
    exact free v held
  intro a storedA b storedB owner unusedA unusedB
  rcases unused_commit sound storedA unusedA with
    ⟨c, hc, beforeA, freeA⟩ | ⟨c, hc, newA, heldA, atA⟩ <;>
  rcases unused_commit sound storedB unusedB with
    ⟨d, hd, beforeB, freeB⟩ | ⟨d, hd, newB, heldB, atB⟩
  · exact one a (mem_committed.mpr ⟨c, hc, beforeA⟩) b (mem_committed.mpr ⟨d, hd, beforeB⟩) owner
      unusedA unusedB
  · exact (alone c hc a _ atB beforeA owner unusedA freeA).elim
  · exact (alone d hd b _ atA beforeB owner.symm unusedB freeB).elim
  · obtain rfl := sound.single c hc d hd tx a b heldA heldB newA newB
    exact (Prod.mk.inj (Option.some.inj (heldA.symm.trans heldB))).2

/-- The condition on the commit of a request is exact. -/
theorem OneUsable.supersedes (sound : TokensSound tokens stage)
    (one : OneUsable (ReadCommitted.commit tx tokens)) : (stage tx).Supersedes tokens tx := by
  have own := sound.stages tx
  cases at_ : stage tx with
  | nothing | replacing userId | claiming rows | claimed token => trivial
  | issued userId =>
    rw [at_] at own
    obtain ⟨d, hd, v, held, owner, unused⟩ := own
    intro c hc r stored sameOwner unused'
    rcases c.held_or_free tx with ⟨w, held'⟩ | free
    · exact ⟨(tx, w), held', rfl⟩
    · -- both tokens are committed then, so they are one, and it is in two cells
      have new : v ∈ committed (ReadCommitted.commit tx tokens) :=
        mem_committed.mpr ⟨_, ReadCommitted.mem_commit.mpr ⟨d, hd, Cell.commit_own held⟩, rfl⟩
      have old : r ∈ committed (ReadCommitted.commit tx tokens) :=
        mem_committed.mpr ⟨c, ReadCommitted.mem_commit.mpr ⟨c, hc, Cell.commit_other free⟩, stored⟩
      obtain rfl := one v new r old (owner.trans sameOwner.symm) unused unused'
      obtain rfl := sound.ids.apart c hc d hd v v (.inl stored) (.inr ⟨tx, held⟩) rfl
      exact absurd held (free v)

theorem OneUsable.move {st st' : TokenStage} (one : OneUsable tokens)
    (sound : TokensSound tokens stage) (at_ : stage tx = st) (supersedes : st.Supersedes tokens tx)
    (moved : TokenMove tx tokens st st' tokens') : OneUsable tokens' := by
  have same : committed tokens' = committed tokens → OneUsable tokens' := by
    intro same
    rw [OneUsable, same]
    exact one
  cases moved with
  | quiet | begin | aim | take => exact one
  | replace update | claim update | sibling update =>
    exact same (ReadCommitted.committed_touch update)
  | issue => exact same (ReadCommitted.committed_insert _ _ _)
  | commitIssue | commitReset | commitOther => exact one.commit sound (at_.symm ▸ supersedes)
  | rollback => exact same (ReadCommitted.committed_rollback _ _)

end OneUsable

namespace SessionsService

theorem tokensSound_registered (users : List UserAccount) :
    TokensSound (registered users).db.tokens (registered users).tokenStage where
  ids := Keyed.empty
  busy := nofun
  revision := nofun
  issued := nofun
  single := nofun
  stages := fun _ => trivial

theorem tokensSound_step {lib : Credentials} {s t : SessionsService} {a : SessionsAction}
    (sound : TokensSound s.db.tokens s.tokenStage) (h : s.step lib a = some t) :
    TokensSound t.db.tokens t.tokenStage := by
  rcases tokens_step h with ⟨db, stage⟩ | ⟨i, -, moved, others⟩
  · rw [db, stage]
    exact sound
  · exact sound.move rfl rfl others moved

/-- A statement that is not the commit of a request beside another unused token of the user. -/
def Supersedes (s : SessionsService) : SessionsAction → Prop
  | .run i _ => (s.tokenStage i).Supersedes s.db.tokens i
  | _ => True

instance (s : SessionsService) : ∀ a, Decidable (s.Supersedes a)
  | .run i _ => inferInstanceAs (Decidable ((s.tokenStage i).Supersedes s.db.tokens i))
  | .tick _ | .login _ | .refreshToken _ | .revokeToken _ | .requestPasswordReset _
  | .resetPassword _ _ | .fail _ => inferInstanceAs (Decidable True)

theorem oneUsable_step {lib : Credentials} {s t : SessionsService} {a : SessionsAction}
    (one : OneUsable s.db.tokens) (sound : TokensSound s.db.tokens s.tokenStage)
    (supersedes : s.Supersedes a) (h : s.step lib a = some t) : OneUsable t.db.tokens := by
  rcases tokens_step h with ⟨db, -⟩ | ⟨i, ⟨input, rfl⟩ | failed, moved, -⟩
  · rw [db]
    exact one
  · exact one.move sound rfl supersedes moved
  · rw [failed, OneUsable, Database.rollback, ReadCommitted.committed_rollback]
    exact one

/-- In every run whose requests commit their tokens beside no other unused one, every state
has at most one usable token a user. -/
theorem latest_token_usable (lib : Credentials) (users : List UserAccount)
    {as : List SessionsAction} {s : SessionsService}
    (supersedes : Machine.Along (step lib) Supersedes (registered users) as)
    (h : Machine.run (step lib) (registered users) as = some s) : OneUsable s.db.tokens := by
  have kept : ∀ (s : SessionsService) a t, (OneUsable s.db.tokens ∧ TokensSound s.db.tokens s.tokenStage) →
      s.Supersedes a → s.step lib a = some t →
      OneUsable t.db.tokens ∧ TokensSound t.db.tokens t.tokenStage :=
    fun _ _ _ ⟨one, sound⟩ supersedes h =>
      ⟨oneUsable_step one sound supersedes h, tokensSound_step sound h⟩
  have start : OneUsable (registered users).db.tokens := fun _ none => absurd none List.not_mem_nil
  exact (Machine.invariant_along kept ⟨start, tokensSound_registered users⟩ supersedes h).1

/-- Every request has returned, so no transaction is open. -/
def Settled (s : SessionsService) : Prop := ∀ q ∈ s.requests, q.failed = none

instance (s : SessionsService) : Decidable s.Settled :=
  inferInstanceAs (Decidable (∀ _ ∈ _, _))

def laterResetToken : String := "Zr2mK9dQwE4sYt7uJxP1oLc8vNfBhG3aRi6TqSz0MkU"

/-- The passwords of `sampleCredentials`, and two tokens with their SHA-256. -/
def twoResetTokens : Credentials where
  toLowercasing := .latin
  verifyPassword := sampleCredentials.verifyPassword
  hashToken token :=
    if token = laterResetToken then
      "82a43e570cee96957ed9e93925731f4e092022b08c4a03b3b578ba6e7357d727"
    else sampleCredentials.hashToken token

/-- Request `i` has marked `n` unused tokens and is about to insert its own. -/
def resetRequested (i n : Nat) : List SessionsAction :=
  .requestPasswordReset sampleUser.email :: List.replicate (n + 4) (.run i .go)

def resetIssued (i : Nat) (id : Uuid) (token : String) : List SessionsAction :=
  [.run i (.random id token), .run i .go, .run i .go]

/-- Two requests after each other: the first token is used, the second is not. -/
theorem latest_token_usable_second :
    ∃ s, Machine.run (step twoResetTokens) (registered [sampleUser])
        (resetRequested 0 0 ++ resetIssued 0 ⟨20⟩ sampleResetToken ++ resetRequested 1 1 ++
          resetIssued 1 ⟨21⟩ laterResetToken) = some s ∧
      (committed s.db.tokens).map PasswordResetToken.usedAt = [some 0, none] ∧
      OneUsable s.db.tokens := by
  have evaluated : (Machine.run (step twoResetTokens) (registered [sampleUser])
      (resetRequested 0 0 ++ resetIssued 0 ⟨20⟩ sampleResetToken ++ resetRequested 1 1 ++
        resetIssued 1 ⟨21⟩ laterResetToken)).any (fun s =>
          (committed s.db.tokens).map PasswordResetToken.usedAt = [some 0, none]) = true := by
    decide +kernel
  obtain ⟨s, h, used⟩ := (Option.any_eq_true _ _).mp evaluated
  exact ⟨s, h, of_decide_eq_true used,
    latest_token_usable twoResetTokens [sampleUser] (by decide +kernel) h⟩

/-- Two requests take their snapshots, and then each of them inserts and commits its token. -/
theorem two_usable_tokens :
    ¬ ∀ (lib : Credentials) (users : List UserAccount) (as : List SessionsAction)
      (s : SessionsService), Machine.run (step lib) (registered users) as = some s →
        s.Settled → OneUsable s.db.tokens := by
  intro claim
  have evaluated : (Machine.run (step twoResetTokens) (registered [sampleUser])
      (resetRequested 0 0 ++ resetRequested 1 0 ++ resetIssued 0 ⟨20⟩ sampleResetToken ++
        resetIssued 1 ⟨21⟩ laterResetToken)).any (fun s => s.Settled ∧
          ∃ a ∈ committed s.db.tokens, ∃ b ∈ committed s.db.tokens,
            a.userId = b.userId ∧ a.usedAt = none ∧ b.usedAt = none ∧ a ≠ b) = true := by
    decide +kernel
  obtain ⟨s, h, twice⟩ := (Option.any_eq_true _ _).mp evaluated
  obtain ⟨settled, a, storedA, b, storedB, owner, unusedA, unusedB, apart⟩ := of_decide_eq_true twice
  exact apart (claim _ _ _ _ h settled a storedA b storedB owner unusedA unusedB)

end SessionsService

end RailsCore.UsersService

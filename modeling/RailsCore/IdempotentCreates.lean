import RailsCore.Machine
import RailsCore.ReadCommitted
import RailsCore.TransactionRepository

/-!
# Concurrent `create_or_get_by_idempotency`

The statement between the `begin` and the `commit` of its caller, cut where
other transactions can come in between: the CTE `existing` reads the snapshot
of the statement, the CTE `inserted` writes the new row and its index entries,
and the caller commits. An insert waits while another transaction holds an
entry that it needs, and fails where a committed row has it.
-/

namespace RailsCore

open ReadCommitted (Cells Cell committed indexEntry)

/-- Why a call ends without a row. -/
inductive CreateFailure where
  | tooLong
  | duplicateId
  | duplicateKey
  | lost (message : String)
deriving DecidableEq, Repr

def CreateFailure.error : CreateFailure → AppError
  | .tooLong => .database "value too long for type character varying(255)"
  | .duplicateId => .database "duplicate key value violates unique constraint \"transactions_pkey\""
  | .duplicateKey => .database
      "duplicate key value violates unique constraint \"idx_transactions_org_env_idempotency_key\""
  | .lost message => .database message

structure CreateArguments where
  organizationId : Uuid
  fromAccountId : Uuid
  toAccountId : Uuid
  amount : Int
  currency : String
  transactionKind : TransactionKind
  idempotencyKey : String
  environment : Environment
deriving DecidableEq, Repr

namespace CreateArguments

def key (args : CreateArguments) : IdempotencyKey :=
  ⟨args.organizationId, some args.environment, args.idempotencyKey⟩

def row (args : CreateArguments) (now : Nat) (id : Uuid) : Transaction :=
  TransactionRepository.newRow now id args.organizationId args.fromAccountId args.toAccountId
    args.amount args.currency args.transactionKind args.idempotencyKey args.environment

@[simp] theorem key_row (args : CreateArguments) (now : Nat) (id : Uuid) :
    (args.row now id).key = args.key := rfl

@[simp] theorem id_row (args : CreateArguments) (now : Nat) (id : Uuid) :
    (args.row now id).id = id := rfl

@[simp] theorem withoutRetryColumns_row (args : CreateArguments) (now : Nat) (id : Uuid) :
    (args.row now id).withoutRetryColumns = args.row now id := rfl

end CreateArguments

inductive CreatePoint where
  | start
  | found (existing : Transaction)
  | absent
  | inserted (row : Transaction)
  | returned (tx : Transaction)
  | failed (reason : CreateFailure)
deriving DecidableEq, Repr

def CreatePoint.ended : CreatePoint → Bool
  | .returned _ | .failed _ => true
  | _ => false

structure CreateCall where
  arguments : CreateArguments
  point : CreatePoint
deriving DecidableEq, Repr

/-- The table and the calls it has received; call `i` runs in transaction `i`. -/
structure IdempotentCreates where
  transactions : Cells Transaction
  calls : List CreateCall
deriving DecidableEq, Repr

inductive CreateAction where
  | call (arguments : CreateArguments)
  | statement (i : Nat)
  | insert (i : Nat) (id : Uuid) (now : Nat)
  | fail (i : Nat) (message : String)
deriving DecidableEq, Repr

namespace IdempotentCreates

/-- `SELECT ... LIMIT 1` of the CTE `existing`, on the snapshot of the statement. -/
def readExisting (args : CreateArguments) (t : Cells Transaction) : CreatePoint :=
  match Table.find Transaction.key args.key (committed t) with
  | some existing => .found existing
  | none => .absent

/-- The CTE `inserted`: the column type, the primary key and the unique index. -/
def insertRow (tx : Nat) (args : CreateArguments) (now : Nat) (id : Uuid) (t : Cells Transaction) :
    Option (Cells Transaction × CreatePoint) :=
  let row := args.row now id
  if 255 < row.idempotencyKey.length then
    some (ReadCommitted.rollback tx t, .failed .tooLong)
  else
    match indexEntry Transaction.id tx row.id t, indexEntry Transaction.key tx row.key t with
    | .held, _ => none
    | .taken, _ => some (ReadCommitted.rollback tx t, .failed .duplicateId)
    | .free, .held => none
    | .free, .taken => some (ReadCommitted.rollback tx t, .failed .duplicateKey)
    | .free, .free => some (ReadCommitted.insert tx row t, .inserted row)

/-- The next statement of a call that does not have to insert. -/
def advance (tx : Nat) (c : CreateCall) (t : Cells Transaction) :
    Option (Cells Transaction × CreatePoint) :=
  match c.point with
  | .start => some (t, readExisting c.arguments t)
  | .found existing => some (ReadCommitted.commit tx t, .returned existing.withoutRetryColumns)
  | .inserted row => some (ReadCommitted.commit tx t, .returned row)
  | .absent | .returned _ | .failed _ => none

def settle (s : IdempotentCreates) (i : Nat) (c : CreateCall)
    (result : Cells Transaction × CreatePoint) : IdempotentCreates :=
  ⟨result.1, s.calls.set i { c with point := result.2 }⟩

def step (s : IdempotentCreates) : CreateAction → Option IdempotentCreates
  | .call args => some { s with calls := s.calls ++ [⟨args, .start⟩] }
  | .statement i => (s.calls[i]?).bind fun c =>
      (advance i c s.transactions).map (s.settle i c)
  | .insert i id now => (s.calls[i]?).bind fun c =>
      if c.point = .absent then (insertRow i c.arguments now id s.transactions).map (s.settle i c)
      else none
  | .fail i message => (s.calls[i]?).bind fun c =>
      if c.point.ended then none
      else some (s.settle i c (ReadCommitted.rollback i s.transactions, .failed (.lost message)))

/-- The table before the first call. -/
def start (rows : List Transaction) : IdempotentCreates :=
  ⟨rows.map (fun row => ⟨some row, none⟩), []⟩

/-- What one statement of call `i` makes of the table and its own point. -/
inductive CreateMove (i : Nat) (args : CreateArguments) (t : Cells Transaction) :
    CreatePoint → Cells Transaction → CreatePoint → Prop where
  | read {point} (read : readExisting args t = point) : CreateMove i args t .start t point
  | give {existing} : CreateMove i args t (.found existing) (ReadCommitted.commit i t)
      (.returned existing.withoutRetryColumns)
  | insert {now id} (fits : args.idempotencyKey.length ≤ 255)
      (newId : ReadCommitted.Unused Transaction.id id t)
      (newKey : ReadCommitted.Unused Transaction.key args.key t) :
      CreateMove i args t .absent (ReadCommitted.insert i (args.row now id) t)
        (.inserted (args.row now id))
  | commit {row} : CreateMove i args t (.inserted row) (ReadCommitted.commit i t) (.returned row)
  | fail {point reason} (running : point.ended = false) :
      CreateMove i args t point (ReadCommitted.rollback i t) (.failed reason)

theorem insertRow_move {i : Nat} {args : CreateArguments} {now : Nat} {id : Uuid}
    {t : Cells Transaction} {result : Cells Transaction × CreatePoint}
    (h : insertRow i args now id t = some result) :
    CreateMove i args t .absent result.1 result.2 := by
  rw [insertRow] at h
  split at h
  · cases h
    exact .fail rfl
  · rename_i fits
    split at h
    · cases h
    · cases h
      exact .fail rfl
    · cases h
    · cases h
      exact .fail rfl
    · rename_i newId newKey
      cases h
      exact .insert (Nat.not_lt.mp fits) (ReadCommitted.indexEntry_free.mp newId)
        (ReadCommitted.indexEntry_free.mp newKey)

/-- A step is the arrival of a call or one statement of a call. -/
theorem step_cases {s s' : IdempotentCreates} {a : CreateAction} (h : s.step a = some s') :
    (∃ args, a = .call args ∧ s' = { s with calls := s.calls ++ [⟨args, .start⟩] }) ∨
      ∃ i c t point, s.calls[i]? = some c ∧ CreateMove i c.arguments s.transactions c.point t point ∧
        s' = s.settle i c (t, point) := by
  cases a with
  | call args => exact .inl ⟨args, rfl, (Option.some.inj h).symm⟩
  | statement i =>
    obtain ⟨c, at_, moved⟩ := Option.bind_eq_some_iff.mp h
    obtain ⟨⟨t, point⟩, advanced, rfl⟩ := Option.map_eq_some_iff.mp moved
    refine .inr ⟨i, c, t, point, at_, ?_, rfl⟩
    rw [advance] at advanced
    split at advanced <;> cases advanced <;> rename_i here <;> rw [here]
    · exact .read rfl
    · exact .give
    · exact .commit
  | insert i id now =>
    obtain ⟨c, at_, moved⟩ := Option.bind_eq_some_iff.mp h
    split_ifs at moved with here
    obtain ⟨⟨t, point⟩, inserted, rfl⟩ := Option.map_eq_some_iff.mp moved
    exact .inr ⟨i, c, t, point, at_, here ▸ insertRow_move inserted, rfl⟩
  | fail i message =>
    obtain ⟨c, at_, moved⟩ := Option.bind_eq_some_iff.mp h
    split_ifs at moved with running
    cases moved
    exact .inr ⟨i, c, _, _, at_, .fail (by simpa using running), rfl⟩

/-- What a call knows of the table at its point. -/
def PointSound (t : Cells Transaction) (i : Nat) (key : IdempotencyKey) : CreatePoint → Prop
  | .found existing => existing ∈ committed t ∧ existing.key = key
  | .inserted row => (⟨none, some (i, row)⟩ : Cell Transaction) ∈ t ∧ row.key = key ∧
      row.withoutRetryColumns = row ∧ row.idempotencyKey.length ≤ 255
  | .returned tx => ∃ row ∈ committed t, row.key = key ∧ tx = row.withoutRetryColumns
  | _ => True

structure Sound (s : IdempotentCreates) : Prop where
  ids : ReadCommitted.Keyed Transaction.id s.transactions
  keys : ReadCommitted.Keyed Transaction.key s.transactions
  distinct : s.transactions.Nodup
  settled : ∀ d ∈ s.transactions, d.committed = none ∨ d.pending = none
  owned : ∀ d ∈ s.transactions, ∀ i row, d.pending = some (i, row) →
    ∃ c, s.calls[i]? = some c ∧ c.point = .inserted row
  fits : ∀ row ∈ committed s.transactions, row.idempotencyKey.length ≤ 255
  calls : ∀ i c, s.calls[i]? = some c → PointSound s.transactions i c.arguments.key c.point

variable {s s' : IdempotentCreates} {i : Nat} {c : CreateCall} {a : CreateAction}

/-- A call that has not inserted holds no row. -/
theorem Sound.idle (sound : s.Sound) (at_ : s.calls[i]? = some c)
    (before : ∀ row, c.point ≠ .inserted row) :
    ∀ d ∈ s.transactions, ∀ row, d.pending ≠ some (i, row) := by
  intro d hd row held
  obtain ⟨c', at', inserted⟩ := sound.owned d hd i row held
  obtain rfl := Option.some.inj (at_.symm.trans at')
  exact before row inserted

/-- What a move of call `i` leaves to the others. -/
structure Leaves (i : Nat) (t t' : Cells Transaction) : Prop where
  stored : ∀ row ∈ committed t, row ∈ committed t'
  held : ∀ d ∈ t, ∀ j row, d.pending = some (j, row) → j ≠ i → d ∈ t'

theorem PointSound.leaves {t t' : Cells Transaction} {j : Nat} {key : IdempotencyKey}
    {point : CreatePoint} (sound : PointSound t j key point) (leaves : Leaves i t t')
    (other : j ≠ i) : PointSound t' j key point := by
  cases point with
  | found existing => exact ⟨leaves.stored _ sound.1, sound.2⟩
  | inserted row => exact ⟨leaves.held _ sound.1 j row rfl other, sound.2⟩
  | returned tx =>
    obtain ⟨row, listed, rest⟩ := sound
    exact ⟨row, leaves.stored row listed, rest⟩
  | start | absent | failed reason => trivial

/-- The pending versions of the others stay pending. -/
theorem Sound.commit_leaves (sound : s.Sound) (i : Nat) :
    Leaves i s.transactions (ReadCommitted.commit i s.transactions) := by
  constructor
  · intro row listed
    obtain ⟨d, hd, stored⟩ := ReadCommitted.mem_committed.mp listed
    refine ReadCommitted.mem_committed.mpr ⟨d, ReadCommitted.mem_commit.mpr ⟨d, hd, ?_⟩, stored⟩
    refine Cell.commit_other fun own held => ?_
    rcases sound.settled d hd with new | free
    · rw [new] at stored
      cases stored
    · rw [free] at held
      cases held
  · intro d hd j row held other
    refine ReadCommitted.mem_commit.mpr ⟨d, hd, Cell.commit_other fun own held' => other ?_⟩
    exact (Prod.mk.inj (Option.some.inj (held.symm.trans held'))).1

theorem rollback_leaves (i : Nat) (t : Cells Transaction) :
    Leaves i t (ReadCommitted.rollback i t) := by
  constructor
  · intro row listed
    rwa [ReadCommitted.committed_rollback]
  · intro d hd j row held other
    refine ReadCommitted.mem_rollback.mpr ⟨d, hd, Cell.rollback_other fun own held' => other ?_⟩
    exact (Prod.mk.inj (Option.some.inj (held.symm.trans held'))).1

/-- One call moves on, over a table that is sound again. -/
theorem Sound.settle (sound : s.Sound) (at_ : s.calls[i]? = some c) {t : Cells Transaction}
    {point : CreatePoint} (ids : ReadCommitted.Keyed Transaction.id t)
    (keys : ReadCommitted.Keyed Transaction.key t) (distinct : t.Nodup)
    (settled : ∀ d ∈ t, d.committed = none ∨ d.pending = none)
    (pending : ∀ d ∈ t, ∀ j row, d.pending = some (j, row) →
      j ≠ i ∧ d ∈ s.transactions ∨ j = i ∧ point = .inserted row)
    (fits : ∀ row ∈ committed t, row.idempotencyKey.length ≤ 255)
    (leaves : Leaves i s.transactions t) (own : PointSound t i c.arguments.key point) :
    (s.settle i c (t, point)).Sound where
  ids := ids
  keys := keys
  distinct := distinct
  settled := settled
  owned := by
    intro d hd j row held
    rcases pending d hd j row held with ⟨other, listed⟩ | ⟨rfl, here⟩
    · obtain ⟨c', at', inserted⟩ := sound.owned d listed j row held
      exact ⟨c', by rw [IdempotentCreates.settle, List.getElem?_set_ne other.symm, at'], inserted⟩
    · refine ⟨{ c with point }, ?_, here⟩
      exact List.getElem?_set_self (List.getElem?_eq_some_iff.mp at_).1
  fits := fits
  calls := by
    intro j d at'
    rcases Machine.replaced_cases at_ at' with ⟨rfl, rfl⟩ | ⟨other, at'⟩
    · exact own
    · exact (sound.calls j d at').leaves leaves other

/-- A transaction that has ended holds no version in the table. -/
theorem Sound.ended (sound : s.Sound) (i : Nat) (t : Cells Transaction) (point : CreatePoint)
    (ends : ∀ d ∈ t, d ∈ s.transactions ∧ (∀ row, d.pending ≠ some (i, row)) ∨ d.pending = none) :
    (∀ d ∈ t, d.committed = none ∨ d.pending = none) ∧
      ∀ d ∈ t, ∀ j row, d.pending = some (j, row) →
        j ≠ i ∧ d ∈ s.transactions ∨ j = i ∧ point = .inserted row := by
  constructor
  · intro d hd
    rcases ends d hd with ⟨listed, -⟩ | free
    · exact sound.settled d listed
    · exact .inr free
  · intro d hd j row held
    rcases ends d hd with ⟨listed, idle⟩ | free
    · refine .inl ⟨?_, listed⟩
      rintro rfl
      exact idle row held
    · rw [free] at held
      cases held

/-- The step lemma for a statement of a call. -/
theorem Sound.move (sound : s.Sound) (at_ : s.calls[i]? = some c) {t : Cells Transaction}
    {point : CreatePoint} (move : CreateMove i c.arguments s.transactions c.point t point) :
    (s.settle i c (t, point)).Sound := by
  have own := sound.calls i c at_
  have idle := sound.idle at_
  generalize here : c.point = before at move own idle
  cases move with
  | read read =>
    have pending : ∀ d ∈ s.transactions, ∀ j row, d.pending = some (j, row) →
        j ≠ i ∧ d ∈ s.transactions ∨ j = i ∧ point = .inserted row := by
      intro d hd j row held
      refine .inl ⟨?_, hd⟩
      rintro rfl
      exact idle (by simp) d hd row held
    refine sound.settle at_ sound.ids sound.keys sound.distinct sound.settled pending sound.fits
      ⟨fun _ listed => listed, fun _ hd _ _ _ _ => hd⟩ ?_
    rw [← read, readExisting]
    cases found : Table.find Transaction.key c.arguments.key (committed s.transactions) with
    | some existing => exact Table.find_some found
    | none => trivial
  | give =>
    rename_i existing
    have same := ReadCommitted.commit_idle (idle (by simp))
    have ends := sound.ended i s.transactions (.returned existing.withoutRetryColumns)
      fun d hd => .inl ⟨hd, idle (by simp) d hd⟩
    rw [same]
    exact sound.settle at_ sound.ids sound.keys sound.distinct ends.1 ends.2 sound.fits
      ⟨fun _ listed => listed, fun _ hd _ _ _ _ => hd⟩ ⟨existing, own.1, own.2, rfl⟩
  | insert fits newId newKey =>
    rename_i now id
    have unusedId : ReadCommitted.Unused Transaction.id (c.arguments.row now id).id
      s.transactions := newId
    have unusedKey : ReadCommitted.Unused Transaction.key (c.arguments.row now id).key
      s.transactions := newKey
    have short : (c.arguments.row now id).idempotencyKey.length ≤ 255 := fits
    have new : ∀ d ∈ ReadCommitted.insert i (c.arguments.row now id) s.transactions,
        d ∈ s.transactions ∨ d = ⟨none, some (i, c.arguments.row now id)⟩ :=
      fun d => ReadCommitted.mem_insert.mp
    refine sound.settle at_ (sound.ids.insert i unusedId) (sound.keys.insert i unusedKey)
      (ReadCommitted.Keyed.nodup_insert sound.distinct unusedKey) ?_ ?_ ?_ ⟨?_, ?_⟩
      ⟨?_, CreateArguments.key_row .., CreateArguments.withoutRetryColumns_row .., short⟩
    · intro d hd
      rcases new d hd with old | rfl
      · exact sound.settled d old
      · exact .inl rfl
    · intro d hd j row held
      rcases new d hd with old | rfl
      · refine .inl ⟨?_, old⟩
        rintro rfl
        exact idle (by simp) d old row held
      · cases held
        exact .inr ⟨rfl, rfl⟩
    · rw [ReadCommitted.committed_insert]
      exact sound.fits
    · rw [ReadCommitted.committed_insert]
      exact fun _ listed => listed
    · exact fun d hd _ _ _ _ => ReadCommitted.mem_insert.mpr (.inl hd)
    · exact ReadCommitted.mem_insert.mpr (.inr rfl)
  | commit =>
    rename_i row
    obtain ⟨inserted, key, plain, short⟩ := own
    have ends := sound.ended i (ReadCommitted.commit i s.transactions) (.returned row)
      fun d hd => (ReadCommitted.commit_ends hd).imp_right And.left
    refine sound.settle at_ (sound.ids.commit i) (sound.keys.commit i)
      (ReadCommitted.Keyed.nodup_commit sound.keys sound.distinct i) ends.1 ends.2 ?_
      (sound.commit_leaves i) ⟨row, ?_, key, plain.symm⟩
    · intro row' listed
      rcases ReadCommitted.committed_commit listed with ⟨d, hd, stored, -⟩ | ⟨d, hd, held⟩
      · exact sound.fits row' (ReadCommitted.mem_committed.mpr ⟨d, hd, stored⟩)
      · obtain ⟨c', at', here'⟩ := sound.owned d hd i row' held
        obtain rfl := Option.some.inj (at_.symm.trans at')
        rw [here] at here'
        cases here'
        exact short
    · exact ReadCommitted.mem_committed.mpr
        ⟨_, ReadCommitted.mem_commit.mpr ⟨_, inserted, Cell.commit_own rfl⟩, rfl⟩
  | fail running =>
    rename_i reason
    have ends := sound.ended i (ReadCommitted.rollback i s.transactions) (.failed reason)
      fun d hd => (ReadCommitted.rollback_ends hd).imp_right And.left
    refine sound.settle at_ (sound.ids.rollback i) (sound.keys.rollback i)
      (ReadCommitted.Keyed.nodup_rollback sound.keys sound.distinct i) ends.1 ends.2 ?_
      (rollback_leaves i s.transactions) trivial
    rw [ReadCommitted.committed_rollback]
    exact sound.fits

theorem Sound.step (sound : s.Sound) (h : s.step a = some s') : s'.Sound := by
  rcases step_cases h with ⟨args, -, rfl⟩ | ⟨i, c, t, point, at_, move, rfl⟩
  · refine { sound with owned := fun d hd i row held => ?_, calls := fun i c at_ => ?_ }
    · obtain ⟨c, at_, inserted⟩ := sound.owned d hd i row held
      exact ⟨c, (List.getElem?_append_left (List.getElem?_eq_some_iff.mp at_).1).trans at_, inserted⟩
    · rw [List.getElem?_append] at at_
      split at at_
      · exact sound.calls i c at_
      · obtain rfl := List.mem_singleton.mp (List.mem_of_getElem? at_)
        trivial
  · exact sound.move at_ move

theorem committed_start (rows : List Transaction) : committed (start rows).transactions = rows := by
  simp [start, committed, List.filterMap_map]

theorem sound_start {rows : List Transaction} (ids : Table.Unique Transaction.id rows)
    (keys : Table.Unique Transaction.key rows)
    (fits : ∀ row ∈ rows, row.idempotencyKey.length ≤ 255) : (start rows).Sound := by
  have cells : ∀ d ∈ (start rows).transactions, ∃ row ∈ rows, d = ⟨some row, none⟩ := by
    intro d hd
    obtain ⟨row, listed, rfl⟩ := List.mem_map.mp hd
    exact ⟨row, listed, rfl⟩
  have stored := ReadCommitted.Keyed.stored keys
  refine ⟨(ReadCommitted.Keyed.stored ids).1, stored.1, stored.2, ?_, ?_, ?_,
    fun i c at_ => by simp [start] at at_⟩
  · intro d hd
    obtain ⟨row, -, rfl⟩ := cells d hd
    exact .inr rfl
  · intro d hd i row held
    obtain ⟨row', -, rfl⟩ := cells d hd
    cases held
  · rw [committed_start]
    exact fits

/-- A call has failed because another call committed a row with its key first. -/
def Raced (s : IdempotentCreates) : Prop := ∃ c ∈ s.calls, c.point = .failed .duplicateKey

/-- An insert under a new id finds no committed row with its key, although time
has passed since its snapshot. -/
def UpToDate (s : IdempotentCreates) : CreateAction → Prop
  | .insert i id _ => ∀ c ∈ s.calls[i]?, (∀ row ∈ committed s.transactions, row.id ≠ id) →
      ∀ row ∈ committed s.transactions, row.key ≠ c.arguments.key
  | _ => True

/-- An index entry that stops the insert of a call belongs to a committed row. -/
theorem Sound.taken {Key : Type} [DecidableEq Key] {key : Transaction → Key} {k : Key}
    (sound : s.Sound) (at_ : s.calls[i]? = some c) (before : c.point = .absent)
    (unheld : indexEntry key i k s.transactions ≠ .held) :
    indexEntry key i k s.transactions = .taken ↔ ∃ row ∈ committed s.transactions, key row = k := by
  constructor
  · intro taken
    obtain ⟨free, d, hd, keyed⟩ := ReadCommitted.indexEntry_taken.mp taken
    obtain ⟨row, stored | ⟨tx, held⟩, same⟩ := Cell.keyed_iff.mp keyed
    · exact ⟨row, ReadCommitted.mem_committed.mpr ⟨d, hd, stored⟩, same⟩
    · obtain rfl := Cell.free_iff.mp (free d hd keyed) tx row held
      exact absurd held (sound.idle at_ (by simp [before]) d hd row)
  · rintro ⟨row, listed, same⟩
    obtain ⟨d, hd, stored⟩ := ReadCommitted.mem_committed.mp listed
    cases entry : indexEntry key i k s.transactions with
    | held => exact absurd entry unheld
    | taken => rfl
    | free => exact absurd same (ReadCommitted.indexEntry_free.mp entry d hd row (.inl stored))

/-- An insert fails on the key just where it is not up to date. -/
theorem Sound.insert_raced (sound : s.Sound) (at_ : s.calls[i]? = some c)
    (before : c.point = .absent) {id : Uuid} {now : Nat}
    {result : Cells Transaction × CreatePoint}
    (h : insertRow i c.arguments now id s.transactions = some result) :
    result.2 = .failed .duplicateKey ↔ ¬ s.UpToDate (.insert i id now) := by
  have late : ¬ s.UpToDate (.insert i id now) ↔
      (∀ row ∈ committed s.transactions, row.id ≠ id) ∧
        ∃ row ∈ committed s.transactions, row.key = c.arguments.key := by
    simp [UpToDate, at_]
  rw [late]
  have idTaken : indexEntry Transaction.id i id s.transactions ≠ .held →
      (indexEntry Transaction.id i id s.transactions = .taken ↔
        ∃ row ∈ committed s.transactions, row.id = id) := sound.taken at_ before
  have keyTaken : indexEntry Transaction.key i c.arguments.key s.transactions ≠ .held →
      (indexEntry Transaction.key i c.arguments.key s.transactions = .taken ↔
        ∃ row ∈ committed s.transactions, row.key = c.arguments.key) := sound.taken at_ before
  simp only [insertRow, CreateArguments.key_row, CreateArguments.id_row] at h
  split_ifs at h with long
  · cases h
    simp only [CreatePoint.failed.injEq, reduceCtorEq, false_iff]
    rintro ⟨-, row, listed, same⟩
    have fits := sound.fits row listed
    rw [show row.idempotencyKey = c.arguments.idempotencyKey from congrArg (·.idempotencyKey) same]
      at fits
    exact absurd long (Nat.not_lt.mpr fits)
  cases newId : indexEntry Transaction.id i id s.transactions with
  | held => simp [newId] at h
  | taken =>
    obtain ⟨row, listed, same⟩ := (idTaken (by simp [newId])).mp newId
    simp only [newId, Option.some.injEq] at h
    subst h
    simp only [CreatePoint.failed.injEq, reduceCtorEq, false_iff]
    exact fun both => both.1 row listed same
  | free =>
    have apart : ∀ row ∈ committed s.transactions, row.id ≠ id := by
      intro row listed same
      have taken := (idTaken (by simp [newId])).mpr ⟨row, listed, same⟩
      rw [newId] at taken
      cases taken
    cases newKey : indexEntry Transaction.key i c.arguments.key s.transactions with
    | held => simp [newId, newKey] at h
    | taken =>
      simp only [newId, newKey, Option.some.injEq] at h
      subst h
      exact iff_of_true rfl ⟨apart, (keyTaken (by simp [newKey])).mp newKey⟩
    | free =>
      simp only [newId, newKey, Option.some.injEq] at h
      subst h
      simp only [reduceCtorEq, false_iff]
      rintro ⟨-, existing⟩
      have taken := (keyTaken (by simp [newKey])).mpr existing
      rw [newKey] at taken
      cases taken

/-- The calls after a move: one more has lost the race, or those that had. -/
theorem raced_settle (at_ : s.calls[i]? = some c) (running : c.point ≠ .failed .duplicateKey)
    (result : Cells Transaction × CreatePoint) :
    (s.settle i c result).Raced ↔ s.Raced ∨ result.2 = .failed .duplicateKey := by
  have within := (List.getElem?_eq_some_iff.mp at_).1
  constructor
  · rintro ⟨d, hd, lost⟩
    rcases List.mem_or_eq_of_mem_set hd with old | rfl
    · exact .inl ⟨d, old, lost⟩
    · exact .inr lost
  · rintro (⟨d, hd, lost⟩ | lost)
    · obtain ⟨j, at'⟩ := List.mem_iff_getElem?.mp hd
      refine ⟨d, List.mem_iff_getElem?.mpr ⟨j, ?_⟩, lost⟩
      rw [settle, List.getElem?_set_ne, at']
      rintro rfl
      exact running (Option.some.inj (at_.symm.trans at') ▸ lost)
    · exact ⟨_, List.mem_set within _, lost⟩

/-- The step lemma for the race: a step that is not up to date is the one way to lose it. -/
theorem Sound.raced_step (sound : s.Sound) (h : s.step a = some s') :
    s'.Raced ↔ s.Raced ∨ ¬ s.UpToDate a := by
  cases a with
  | call args =>
    obtain rfl := Option.some.inj h
    simp [Raced, UpToDate]
  | statement i =>
    obtain ⟨c, at_, moved⟩ := Option.bind_eq_some_iff.mp h
    obtain ⟨⟨t, point⟩, advanced, rfl⟩ := Option.map_eq_some_iff.mp moved
    have running : c.point ≠ .failed .duplicateKey := by
      intro lost
      simp [advance, lost] at advanced
    have kept : point ≠ .failed .duplicateKey := by
      rw [advance] at advanced
      split at advanced <;> cases advanced
      · rw [readExisting]
        split <;> simp
      · simp
      · simp
    simp [raced_settle at_ running, kept, UpToDate]
  | insert i id now =>
    obtain ⟨c, at_, moved⟩ := Option.bind_eq_some_iff.mp h
    split_ifs at moved with here
    obtain ⟨result, inserted, rfl⟩ := Option.map_eq_some_iff.mp moved
    rw [raced_settle at_ (by simp [here]), sound.insert_raced at_ here inserted]
  | fail i message =>
    obtain ⟨c, at_, moved⟩ := Option.bind_eq_some_iff.mp h
    split_ifs at moved with running
    cases moved
    have kept : c.point ≠ .failed .duplicateKey := by
      intro lost
      simp [lost, CreatePoint.ended] at running
    simp [raced_settle at_ kept, UpToDate]

/-- Every call that has returned has returned the one row with its key, and none has
failed because another call inserted it first. -/
structure Linearized (s : IdempotentCreates) : Prop where
  unraced : ∀ c ∈ s.calls, c.point ≠ .failed .duplicateKey
  agree : ∀ c ∈ s.calls, ∀ tx, c.point = .returned tx → ∃ row,
    (committed s.transactions).filter (fun r => r.key = c.arguments.key) = [row] ∧
      tx = row.withoutRetryColumns

theorem Sound.agree (sound : s.Sound) (hc : c ∈ s.calls) {tx : Transaction}
    (returned : c.point = .returned tx) : ∃ row,
      (committed s.transactions).filter (fun r => r.key = c.arguments.key) = [row] ∧
        tx = row.withoutRetryColumns := by
  obtain ⟨i, at_⟩ := List.mem_iff_getElem?.mp hc
  have knows := sound.calls i c at_
  rw [returned] at knows
  obtain ⟨row, listed, key, same⟩ := knows
  have unique : Table.Unique Transaction.key (committed s.transactions) :=
    sound.keys.nodup_committed sound.distinct
  exact ⟨row, key ▸ unique.filter_eq listed, same⟩

/-- In every run over a table with both unique indexes, the calls are linearized
if and only if every insert is up to date. -/
theorem create_or_get_linearized_iff (rows : List Transaction)
    (ids : Table.Unique Transaction.id rows) (keys : Table.Unique Transaction.key rows)
    (fits : ∀ row ∈ rows, row.idempotencyKey.length ≤ 255) (as : List CreateAction)
    (s : IdempotentCreates) (run : Machine.run step (start rows) as = some s) :
    s.Linearized ↔ Machine.Along step UpToDate (start rows) as := by
  have first := sound_start ids keys fits
  constructor
  · intro linearized
    refine Machine.along_of_avoided (I := Sound) (fun _ _ _ sound => sound.step)
      (fun _ _ _ sound raced h => (sound.raced_step h).mpr (.inl raced))
      (fun _ _ _ sound h late => (sound.raced_step h).mpr (.inr late)) first run ?_
    rintro ⟨c, hc, lost⟩
    exact linearized.unraced c hc lost
  · intro upToDate
    obtain ⟨sound, unraced⟩ := Machine.invariant_along (I := fun s => s.Sound ∧ ¬ s.Raced)
      (fun s a t both now h => ⟨both.1.step h, fun raced =>
        ((both.1.raced_step h).mp raced).elim both.2 fun late => late now⟩)
      ⟨first, by simp [Raced, start]⟩ upToDate run
    exact ⟨fun c hc lost => unraced ⟨c, hc, lost⟩, fun c hc tx => sound.agree hc⟩

/-- A call that cannot go on waits for another one that can. -/
theorem Sound.progress (sound : s.Sound) (at_ : s.calls[i]? = some c)
    (running : c.point.ended = false) (id : Uuid) (now : Nat) :
    (s.step (.statement i)).isSome ∨ (s.step (.insert i id now)).isSome ∨
      ∃ j, j ≠ i ∧ (s.step (.statement j)).isSome := by
  -- the holder of a row is about to commit
  have waits : ∀ d ∈ s.transactions, ∀ j row, d.pending = some (j, row) → j ≠ i →
      ∃ j, j ≠ i ∧ (s.step (.statement j)).isSome := by
    intro d hd j row held other
    obtain ⟨c', at', inserted⟩ := sound.owned d hd j row held
    exact ⟨j, other, by simp [IdempotentCreates.step, at', advance, inserted]⟩
  cases here : c.point with
  | returned tx | failed reason => simp [here, CreatePoint.ended] at running
  | start | found existing | inserted row =>
    exact .inl (by simp [IdempotentCreates.step, at_, advance, here])
  | absent =>
    refine .inr ?_
    cases outcome : insertRow i c.arguments now id s.transactions with
    | some result => exact .inl (by simp [IdempotentCreates.step, at_, here, outcome])
    | none =>
      refine .inr ?_
      simp only [insertRow] at outcome
      split_ifs at outcome
      split at outcome <;> rename_i newId newKey <;> cases outcome
      · obtain ⟨d, hd, j, row, held, other⟩ := ReadCommitted.indexEntry_held newKey
        exact waits d hd j row held other
      · obtain ⟨d, hd, j, row, held, other⟩ := ReadCommitted.indexEntry_held newKey
        exact waits d hd j row held other

theorem indexEntry_start {Key : Type} [DecidableEq Key] (key : Transaction → Key) (k : Key)
    (tx : Nat) (rows : List Transaction) : indexEntry key tx k (start rows).transactions =
      if (Table.find key k rows).isSome then .taken else .free := by
  have keyed : ∀ row, Cell.keyed key k (⟨some row, none⟩ : Cell Transaction) = decide (key row = k) :=
    fun row => by simp [Cell.keyed]
  split_ifs with some_
  · obtain ⟨row, found⟩ := Option.isSome_iff_exists.mp some_
    obtain ⟨listed, same⟩ := Table.find_some found
    refine ReadCommitted.indexEntry_taken.mpr ⟨fun d hd _ => ?_, ⟨some row, none⟩, ?_, ?_⟩
    · obtain ⟨row', -, rfl⟩ := List.mem_map.mp hd
      rfl
    · exact List.mem_map_of_mem listed
    · rw [keyed, same, decide_eq_true rfl]
  · refine ReadCommitted.indexEntry_free.mpr fun d hd row version same => ?_
    obtain ⟨row', listed, rfl⟩ := List.mem_map.mp hd
    have none_ := Table.find_none_iff.mp (Option.not_isSome_iff_eq_none.mp some_) row' listed
    rcases version with stored | ⟨holder, pending⟩
    · cases stored
      exact none_ same
    · cases pending

theorem commit_start (tx : Nat) (rows : List Transaction) :
    ReadCommitted.commit tx (start rows).transactions = (start rows).transactions := by
  refine ReadCommitted.commit_idle fun d hd row held => ?_
  obtain ⟨row', -, rfl⟩ := List.mem_map.mp hd
  cases held

/-- A statement of the first call, where no other call comes in between and none is lost. -/
def Alone (id : Uuid) (now : Nat) (a : CreateAction) : Prop :=
  a = .statement 0 ∨ a = .insert 0 id now

def Ended (s : IdempotentCreates) : Prop := ∀ c ∈ s.calls, c.point.ended = true

/-- The one call has ended as the statement as one piece does over these rows. -/
def EndsAs (s : IdempotentCreates) (args : CreateArguments) (rows : List Transaction) :
    Except AppError (List Transaction × Transaction) → Prop
  | .ok (rows', tx) => committed s.transactions = rows' ∧ s.calls = [⟨args, .returned tx⟩]
  | .error e => committed s.transactions = rows ∧
    ∃ reason, reason.error = e ∧ s.calls = [⟨args, .failed reason⟩]

theorem EndsAs.ended {args : CreateArguments} {rows : List Transaction}
    {outcome : Except AppError (List Transaction × Transaction)}
    (ends : s.EndsAs args rows outcome) : s.Ended := by
  intro c hc
  cases outcome with
  | ok result =>
    rw [ends.2, List.mem_singleton] at hc
    rw [hc]
    rfl
  | error e =>
    obtain ⟨reason, -, calls⟩ := ends.2
    rw [calls, List.mem_singleton] at hc
    rw [hc]
    rfl

/-- Of the two kinds of statements a call can take one at most. -/
theorem alone_one {id : Uuid} {now : Nat} (s : IdempotentCreates) (a b : CreateAction)
    (t u : IdempotentCreates) (ownA : Alone id now a) (ownB : Alone id now b)
    (first : s.step a = some t) (second : s.step b = some u) : a = b := by
  have apart : ∀ {v w}, s.step (.statement 0) = some v → s.step (.insert 0 id now) = some w →
      False := by
    intro v w stated inserted
    obtain ⟨c, at_, moved⟩ := Option.bind_eq_some_iff.mp inserted
    split_ifs at moved with absent
    simp [step, at_, advance, absent] at stated
  rcases ownA with rfl | rfl <;> rcases ownB with rfl | rfl
  · rfl
  · exact (apart first second).elim
  · exact (apart second first).elim
  · rfl

theorem Ended.stays {id : Uuid} {now : Nat} (ended : s.Ended) (own : Alone id now a) :
    s.step a = none := by
  cases at_ : s.calls[0]? with
  | none => rcases own with rfl | rfl <;> simp [step, at_]
  | some c =>
    have last := ended c (List.mem_of_getElem? at_)
    cases here : c.point <;> simp only [here, CreatePoint.ended, Bool.false_eq_true] at last <;>
      rcases own with rfl | rfl <;> simp [step, at_, advance, here]

theorem alone_ends (args : CreateArguments) (now : Nat) (id : Uuid) (rows : List Transaction) :
    ∃ as s, (∀ a ∈ as, Alone id now a) ∧
      Machine.run step { start rows with calls := [⟨args, .start⟩] } as = some s ∧
      s.EndsAs args rows (TransactionRepository.createOrGetByIdempotency (args.row now id) rows) := by
  cases found : Table.find Transaction.key args.key rows with
  | some existing =>
    have answer : TransactionRepository.createOrGetByIdempotency (args.row now id) rows =
        .ok (rows, existing.withoutRetryColumns) := by
      simp [TransactionRepository.createOrGetByIdempotency, found]
    rw [answer]
    refine ⟨[.statement 0, .statement 0], ⟨ReadCommitted.commit 0 (start rows).transactions,
      [⟨args, .returned existing.withoutRetryColumns⟩]⟩, by simp [Alone], ?_, ?_, rfl⟩
    · simp [Machine.run, step, advance, readExisting, committed_start, found, settle]
    · rw [commit_start, committed_start]
  | none =>
    by_cases long : 255 < (args.row now id).idempotencyKey.length
    · have answer : TransactionRepository.createOrGetByIdempotency (args.row now id) rows =
          .error CreateFailure.tooLong.error := by
        simp [TransactionRepository.createOrGetByIdempotency, found, long, CreateFailure.error]
      rw [answer]
      refine ⟨[.statement 0, .insert 0 id now], ⟨ReadCommitted.rollback 0 (start rows).transactions,
        [⟨args, .failed .tooLong⟩]⟩, by simp [Alone], ?_, ?_, .tooLong, rfl, rfl⟩
      · simp [Machine.run, step, advance, readExisting, committed_start, found, settle, insertRow, long]
      · rw [ReadCommitted.committed_rollback, committed_start]
    by_cases sameId : (Table.find Transaction.id id rows).isSome = true
    · have answer : TransactionRepository.createOrGetByIdempotency (args.row now id) rows =
          .error CreateFailure.duplicateId.error := by
        simp [TransactionRepository.createOrGetByIdempotency, found, long, sameId,
          CreateFailure.error]
      rw [answer]
      refine ⟨[.statement 0, .insert 0 id now], ⟨ReadCommitted.rollback 0 (start rows).transactions,
        [⟨args, .failed .duplicateId⟩]⟩, by simp [Alone], ?_, ?_, .duplicateId, rfl, rfl⟩
      · simp [Machine.run, step, advance, readExisting, committed_start, found, settle, insertRow,
          long, indexEntry_start, sameId]
      · rw [ReadCommitted.committed_rollback, committed_start]
    · have answer : TransactionRepository.createOrGetByIdempotency (args.row now id) rows =
          .ok (rows ++ [args.row now id], args.row now id) := by
        simp [TransactionRepository.createOrGetByIdempotency, found, long, sameId]
      rw [answer]
      refine ⟨[.statement 0, .insert 0 id now, .statement 0],
        ⟨ReadCommitted.commit 0 (ReadCommitted.insert 0 (args.row now id) (start rows).transactions),
          [⟨args, .returned (args.row now id)⟩]⟩, by simp [Alone], ?_, ?_, rfl⟩
      · simp [Machine.run, step, advance, readExisting, committed_start, found, settle, insertRow,
          long, indexEntry_start, sameId]
      · rw [ReadCommitted.insert, ReadCommitted.commit, List.map_append]
        have before := commit_start 0 rows
        rw [ReadCommitted.commit] at before
        rw [before, committed, List.filterMap_append, ← committed, committed_start]
        rfl

/-- A call that nobody comes in between can end in one way only, and this is how the
statement as one piece ends: with its table and its row, or with its error and the
table as it was. -/
theorem create_alone (args : CreateArguments) (now : Nat) (id : Uuid) (rows : List Transaction) :
    ∃ s, s.EndsAs args rows
        (TransactionRepository.createOrGetByIdempotency (args.row now id) rows) ∧
      ∀ t, (∃ as, (∀ a ∈ as, Alone id now a) ∧
        Machine.run step { start rows with calls := [⟨args, .start⟩] } as = some t ∧ t.Ended) ↔
          t = s := by
  obtain ⟨as, s, own, run, ends⟩ := alone_ends args now id rows
  refine ⟨s, ends, fun t => ⟨?_, ?_⟩⟩
  · rintro ⟨bs, others, run', ended⟩
    exact Machine.run_unique alone_one run' run others own (fun _ => ended.stays)
      fun _ => ends.ended.stays
  · rintro rfl
    exact ⟨as, own, run, ends.ended⟩

/-- A deposit of 50 under the key "a". -/
def sampleDeposit : CreateArguments :=
  ⟨⟨1⟩, ⟨7⟩, ⟨7⟩, 50, "USD", .deposit, "a", .sandbox⟩

/-- Two calls with one key read the table before either of them inserts. -/
def bothAbsent : List CreateAction :=
  [.call sampleDeposit, .call sampleDeposit, .statement 0, .statement 1, .insert 0 ⟨101⟩ 0,
    .statement 0, .insert 1 ⟨102⟩ 0]

theorem create_or_get_linearized_iff_two : ∃ s, Machine.run step (start []) bothAbsent = some s ∧
    (s.Linearized ↔ Machine.Along step UpToDate (start []) bothAbsent) := by
  have evaluated : (Machine.run step (start []) bothAbsent).isSome = true := by decide +kernel
  obtain ⟨s, run⟩ := Option.isSome_iff_exists.mp evaluated
  exact ⟨s, run, create_or_get_linearized_iff [] (by decide) (by decide) (by decide) bothAbsent s run⟩

/-- The second of them fails on the unique index. -/
theorem insert_race_lost : ¬ ∀ (rows : List Transaction), Table.Unique Transaction.id rows →
    Table.Unique Transaction.key rows → (∀ row ∈ rows, row.idempotencyKey.length ≤ 255) →
    ∀ (as : List CreateAction) (s : IdempotentCreates),
      Machine.run step (start rows) as = some s → s.Linearized := by
  intro claim
  have evaluated : (Machine.run step (start []) bothAbsent).any
      (fun s => s.calls.any (fun c => c.point = .failed .duplicateKey)) = true := by
    decide +kernel
  obtain ⟨s, run, lost⟩ := (Option.any_eq_true _ _).mp evaluated
  obtain ⟨c, hc, failed⟩ := List.any_eq_true.mp lost
  have linearized := claim [] (by decide) (by decide) (by decide) bothAbsent s run
  exact linearized.unraced c hc (of_decide_eq_true failed)

end IdempotentCreates

end RailsCore

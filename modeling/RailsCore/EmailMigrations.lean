import RailsCore.BothEnds
import RailsCore.Machine
import RailsCore.Model
import RailsCore.RowNumbers
import RailsCore.Table

/-!
# One row for each email

The migrations that leave one row for each email in `users` and in
`beta_applications`: every row but the earliest of its normal form is deleted,
and then the emails that are left are normalised, one row after another, under
the constraints of the table. `LOWER` of the database is a parameter, with the
laws that the migrations rest on.
-/

namespace RailsCore

/-- `LOWER`, character by character. -/
structure Lowercase where
  lower : Char → Char
  lower_lower : ∀ c, lower (lower c) = lower c
  lower_space : ∀ c, lower c = ' ' ↔ c = ' '

namespace Lowercase

theorem toLower_cases (c : Char) :
    c.toLower = c ∨ ∃ n < 26, c = Char.ofNat (n + 65) ∧ c.toLower = Char.ofNat (n + 97) := by
  by_cases upper : 'A'.val ≤ c.val ∧ c.val ≤ 'Z'.val
  · have range : 65 ≤ c.toNat ∧ c.toNat ≤ 90 := upper
    have all : ∀ n < 26, (Char.ofNat (n + 65)).toLower = Char.ofNat (n + 97) := by decide
    have letter : c = Char.ofNat (c.toNat - 65 + 65) := by
      rw [show c.toNat - 65 + 65 = c.toNat by omega, Char.ofNat_toNat]
    refine .inr ⟨c.toNat - 65, by omega, letter, ?_⟩
    rw [← all (c.toNat - 65) (by omega), ← letter]
  · exact .inl (dif_neg upper)

/-- `LOWER` of the C locale. -/
def ascii : Lowercase where
  lower := Char.toLower
  lower_lower c := by
    have fixed : ∀ n < 26, (Char.ofNat (n + 97)).toLower = Char.ofNat (n + 97) := by decide
    rcases toLower_cases c with same | ⟨n, small, -, low⟩
    · rw [same, same]
    · rw [low, fixed n small]
  lower_space c := by
    have visible : ∀ n < 26, Char.ofNat (n + 97) ≠ ' ' ∧ Char.ofNat (n + 65) ≠ ' ' := by decide
    rcases toLower_cases c with same | ⟨n, small, letter, low⟩
    · rw [same]
    · rw [low, letter]
      exact iff_of_false (visible n small).1 (visible n small).2

variable (db : Lowercase)

/-- `LOWER(TRIM(email))`. -/
def lowerTrim (email : String) : String :=
  String.ofList ((dropBoth (· = ' ') email.toList).map db.lower)

theorem lowerTrim_lowerTrim (email : String) :
    db.lowerTrim (db.lowerTrim email) = db.lowerTrim email := by
  obtain ⟨first, last⟩ := dropBoth_ends (· = ' ') email.toList
  have spaced : ∀ c, decide (db.lower c = ' ') = decide (c = ' ') :=
    fun c => decide_eq_decide.mpr (db.lower_space c)
  have trimmed : dropBoth (· = ' ') ((dropBoth (· = ' ') email.toList).map db.lower) =
      (dropBoth (· = ' ') email.toList).map db.lower := by
    refine dropBoth_of_ends ?_ ?_
    · intro c hc
      rw [List.head?_map, Option.mem_map] at hc
      obtain ⟨d, hd, rfl⟩ := hc
      rw [spaced]
      exact first d hd
    · intro c hc
      rw [List.getLast?_map, Option.mem_map] at hc
      obtain ⟨d, hd, rfl⟩ := hc
      rw [spaced]
      exact last d hd
  rw [lowerTrim, lowerTrim, String.toList_ofList, trimmed, List.map_map]
  exact congrArg String.ofList (List.map_congr_left fun c _ => db.lower_lower c)

end Lowercase

/-- The columns of a table that a migration of emails reads and writes. -/
structure EmailColumns (Row : Type) where
  id : Row → Uuid
  email : Row → String
  createdAt : Row → Nat
  withEmail : String → Row → Row
  id_withEmail : ∀ email r, id (withEmail email r) = id r
  createdAt_withEmail : ∀ email r, createdAt (withEmail email r) = createdAt r
  email_withEmail : ∀ text r, email (withEmail text r) = text
  withEmail_email : ∀ r, withEmail (email r) r = r

namespace EmailColumns

variable {Row : Type} (cols : EmailColumns Row) (db : Lowercase)

/-- `ORDER BY created_at ASC, id ASC`. -/
def Earlier (r s : Row) : Prop :=
  cols.createdAt r < cols.createdAt s ∨
    cols.createdAt r = cols.createdAt s ∧ (cols.id r).bits.toNat < (cols.id s).bits.toNat

instance : DecidableRel cols.Earlier := fun _ _ => inferInstanceAs (Decidable (_ ∨ _))

instance : IsStrictOrder Row cols.Earlier where
  irrefl r h := by
    rcases h with h | ⟨-, h⟩ <;> exact Nat.lt_irrefl _ h
  trans r s t first second := by
    rcases first with first | ⟨same, first⟩ <;> rcases second with second | ⟨same', second⟩
    · exact .inl (Nat.lt_trans first second)
    · exact .inl (same' ▸ first)
    · exact .inl (same ▸ second)
    · exact .inr ⟨same.trans same', Nat.lt_trans first second⟩

/-- The normal form of the email of a row. -/
def normal (r : Row) : String := db.lowerTrim (cols.email r)

def normalized (r : Row) : Row := cols.withEmail (cols.normal db r) r

/-- Step 1: the rows that are not deleted. -/
def kept (rows : List Row) : List Row := RowNumbers.firsts (cols.normal db) cols.Earlier rows

/-- The rows that the `WHERE` of step 2 selects. -/
def toNormalize (rows : List Row) : List Row :=
  rows.filter (fun r => cols.email r ≠ cols.normal db r)

/-- Step 2 at one row: refused where the unique constraint finds its new email
in another row. -/
def normalizeRow (rows : List Row) (id : Uuid) : Option (List Row) := do
  let row ← Table.find cols.id id rows
  if rows.any (fun s => cols.id s ≠ id ∧ cols.email s = cols.normal db row) then none
  else some (Table.updateWhere (fun s => cols.id s = id) (cols.normalized db) rows)

/-- The unique index on the normal form can be built. -/
def Indexable (rows : List Row) : Prop := Table.Unique (cols.normal db) rows

variable {cols db} {rows : List Row}

theorem normal_normalized (r : Row) : cols.normal db (cols.normalized db r) = cols.normal db r := by
  rw [normal, normalized, cols.email_withEmail, normal, db.lowerTrim_lowerTrim]

theorem normalized_of_normal {r : Row} (here : cols.email r = cols.normal db r) :
    cols.normalized db r = r := by
  rw [normalized, ← here, cols.withEmail_email]

theorem earlier_total (ids : Table.Unique cols.id rows) :
    ∀ r ∈ rows, ∀ s ∈ rows, r ≠ s → cols.Earlier r s ∨ cols.Earlier s r := by
  intro r hr s hs apart
  have differ : (cols.id r).bits.toNat ≠ (cols.id s).bits.toNat := by
    intro same
    have bits := BitVec.eq_of_toNat_eq same
    have ids' : cols.id r = cols.id s := by
      cases hi : cols.id r
      cases hj : cols.id s
      rw [hi, hj] at bits
      exact congrArg Uuid.mk bits
    exact apart (ids.eq hr hs ids')
  simp only [Earlier]
  omega

theorem nodup_of_ids (ids : Table.Unique cols.id rows) : rows.Nodup := ids.of_map _

/-- Step 1 leaves one row for each normal form. -/
theorem indexable_kept (ids : Table.Unique cols.id rows) : cols.Indexable db (cols.kept db rows) :=
  RowNumbers.firsts_unique (nodup_of_ids ids) (earlier_total ids)

/-- The rows while step 2 has visited these ids. -/
def visited (cols : EmailColumns Row) (db : Lowercase) (rows : List Row) (done : List Uuid) :
    List Row :=
  rows.map (fun r => if cols.id r ∈ done then cols.normalized db r else r)

theorem id_visited (done : List Uuid) (r : Row) :
    cols.id (if cols.id r ∈ done then cols.normalized db r else r) = cols.id r := by
  split
  · exact cols.id_withEmail _ _
  · rfl

theorem normal_visited (done : List Uuid) (r : Row) :
    cols.normal db (if cols.id r ∈ done then cols.normalized db r else r) = cols.normal db r := by
  split
  · exact normal_normalized r
  · rfl

/-- The step lemma: a row is normalised whatever was normalised before it. -/
theorem normalizeRow_visited (ids : Table.Unique cols.id rows)
    (indexable : cols.Indexable db rows) (done : List Uuid) {r : Row} (listed : r ∈ rows)
    (fresh : cols.id r ∉ done) :
    cols.normalizeRow db (visited cols db rows done) (cols.id r) =
      some (visited cols db rows (done ++ [cols.id r])) := by
  have there : r ∈ visited cols db rows done :=
    List.mem_map.mpr ⟨r, listed, if_neg fresh⟩
  have unique : Table.Unique cols.id (visited cols db rows done) := by
    rw [Table.Unique, visited, List.map_map]
    rw [show cols.id ∘ (fun r => if cols.id r ∈ done then cols.normalized db r else r) = cols.id
      from funext (id_visited done)]
    exact ids
  have free : (visited cols db rows done).any
      (fun s => cols.id s ≠ cols.id r ∧ cols.email s = cols.normal db r) = false := by
    rw [List.any_eq_false]
    intro s hs taken
    obtain ⟨s₀, hs₀, rfl⟩ := List.mem_map.mp hs
    obtain ⟨other, same⟩ := of_decide_eq_true taken
    refine other ?_
    have forms : cols.normal db s₀ = cols.normal db r := by
      rw [← normal_visited done s₀]
      show db.lowerTrim (cols.email _) = _
      rw [same]
      exact db.lowerTrim_lowerTrim _
    rw [id_visited, indexable.eq hs₀ listed forms]
  rw [normalizeRow, unique.find there]
  simp only [Option.bind_eq_bind, Option.bind_some, free, Bool.false_eq_true, if_false,
    Option.some.injEq]
  rw [visited, visited, Table.updateWhere, List.map_map]
  refine List.map_congr_left fun s hs => ?_
  simp only [Function.comp_apply, id_visited, decide_eq_true_eq, List.mem_append,
    List.mem_singleton]
  by_cases here : cols.id s = cols.id r
  · obtain rfl := ids.eq hs listed here
    simp [fresh]
  · simp [here]

/-- The run lemma: step 2 succeeds in whatever order it visits the rows. -/
theorem normalize_run (ids : Table.Unique cols.id rows) (indexable : cols.Indexable db rows)
    (order : List Uuid) (done : List Uuid) (listed : ∀ i ∈ order, ∃ r ∈ rows, cols.id r = i)
    (once : (done ++ order).Nodup) :
    Machine.run (cols.normalizeRow db) (visited cols db rows done) order =
      some (visited cols db rows (done ++ order)) := by
  induction order generalizing done with
  | nil => rw [Machine.run, List.append_nil]
  | cons i order ih =>
    obtain ⟨r, hr, rfl⟩ := listed _ List.mem_cons_self
    have fresh : cols.id r ∉ done := by
      intro twice
      exact (List.nodup_append.mp once).2.2 _ twice _ List.mem_cons_self rfl
    rw [Machine.run, normalizeRow_visited ids indexable done hr fresh]
    have split : done ++ cols.id r :: order = (done ++ [cols.id r]) ++ order := by simp
    rw [split]
    exact ih _ (fun j hj => listed j (List.mem_cons_of_mem _ hj)) (split ▸ once)

/-- Step 2 normalises every row. -/
theorem normalize_all (ids : Table.Unique cols.id rows) (indexable : cols.Indexable db rows)
    {order : List Uuid} (visits : order.Perm ((cols.toNormalize db rows).map cols.id)) :
    Machine.run (cols.normalizeRow db) rows order = some (rows.map (cols.normalized db)) := by
  have start : visited cols db rows [] = rows := by
    simp [visited]
  have all : visited cols db rows order = rows.map (cols.normalized db) := by
    refine List.map_congr_left fun r hr => ?_
    by_cases here : cols.email r = cols.normal db r
    · rw [normalized_of_normal here, ite_self]
    · have selected : r ∈ cols.toNormalize db rows := List.mem_filter.mpr ⟨hr, by simp [here]⟩
      exact if_pos (visits.mem_iff.mpr (List.mem_map_of_mem selected))
  have ran := normalize_run ids indexable order [] (fun i hi => ?_) ?_
  · rwa [start, List.nil_append, all] at ran
  · obtain ⟨r, hr, rfl⟩ := List.mem_map.mp (visits.mem_iff.mp hi)
    exact ⟨r, List.mem_of_mem_filter hr, rfl⟩
  · rw [List.nil_append]
    exact visits.nodup_iff.mpr (ids.sublist (List.filter_sublist.map _))

/-- What the two steps make of a table. -/
structure OnePerEmail (cols : EmailColumns Row) (db : Lowercase) (before after : List Row) :
    Prop where
  unique : Table.Unique cols.email after
  normal : ∀ r ∈ after, cols.email r = cols.normal db r
  old : ∀ s ∈ after, ∃ r ∈ before, s = cols.normalized db r
  first : ∀ r ∈ before, ∃ r₀ ∈ before, cols.normalized db r₀ ∈ after ∧
    cols.normal db r₀ = cols.normal db r ∧ (r₀ = r ∨ cols.Earlier r₀ r)
  indexable : cols.Indexable db after

theorem onePerEmail (ids : Table.Unique cols.id rows) :
    OnePerEmail cols db rows ((cols.kept db rows).map (cols.normalized db)) := by
  have normal : ∀ r ∈ (cols.kept db rows).map (cols.normalized db),
      cols.email r = cols.normal db r := by
    intro r hr
    obtain ⟨r₀, -, rfl⟩ := List.mem_map.mp hr
    rw [normal_normalized, normalized, cols.email_withEmail]
  have indexable : cols.Indexable db ((cols.kept db rows).map (cols.normalized db)) := by
    rw [Indexable, Table.Unique, List.map_map]
    rw [show cols.normal db ∘ cols.normalized db = cols.normal db from funext normal_normalized]
    exact indexable_kept ids
  refine ⟨?_, normal, fun s hs => ?_, fun r hr => ?_, indexable⟩
  · rw [Table.Unique, List.map_congr_left normal]
    exact indexable
  · obtain ⟨r, hr, rfl⟩ := List.mem_map.mp hs
    exact ⟨r, (RowNumbers.mem_firsts.mp hr).1, rfl⟩
  · obtain ⟨r₀, first, same, earlier⟩ :=
      RowNumbers.exists_first (cols.normal db) cols.Earlier hr
    exact ⟨r₀, (RowNumbers.mem_firsts.mp first).1, List.mem_map_of_mem first, same, earlier⟩

/-- A table that has one row for each email stays as it is. -/
theorem OnePerEmail.settled {before after : List Row} (one : OnePerEmail cols db before after) :
    cols.kept db after = after ∧ cols.toNormalize db after = [] := by
  constructor
  · exact RowNumbers.firsts_eq_self one.indexable
  · rw [toNormalize, List.filter_eq_nil_iff]
    intro r hr
    simp [one.normal r hr]

end EmailColumns

/-! ## Users -/

structure UserEmailRow where
  id : Uuid
  email : String
  createdAt : Nat
  createdByUserId : Option Uuid
deriving DecidableEq, Repr

def userColumns : EmailColumns UserEmailRow where
  id := UserEmailRow.id
  email := UserEmailRow.email
  createdAt := UserEmailRow.createdAt
  withEmail email r := { r with email }
  id_withEmail _ _ := rfl
  createdAt_withEmail _ _ := rfl
  email_withEmail _ _ := rfl
  withEmail_email _ := rfl

/-- `users` and the columns that refer to it: those of `user_sessions` and
`api_keys`, and that of `password_reset_tokens`, whose rows go with their user. -/
structure UserTables where
  users : List UserEmailRow
  sessions : List Uuid
  keyCreators : List Uuid
  resetTokens : List Uuid
deriving DecidableEq, Repr

namespace UserTables

variable (db : Lowercase)

/-- The ids that the foreign keys without a cascade refer to. -/
def references (t : UserTables) : List Uuid :=
  t.users.filterMap UserEmailRow.createdByUserId ++ t.sessions ++ t.keyCreators

def ids (t : UserTables) : List Uuid := t.users.map UserEmailRow.id

/-- The `DELETE` of step 1. The foreign keys are checked at its end. -/
def removeDuplicates (t : UserTables) : Except String UserTables :=
  let users := userColumns.kept db t.users
  let removed := t.ids.filter (fun i => i ∉ users.map UserEmailRow.id)
  let t' := { t with users, resetTokens := t.resetTokens.filter (fun i => i ∉ removed) }
  if t'.references.any (fun i => i ∈ removed) then
    .error "update or delete on table \"users\" violates foreign key constraint"
  else .ok t'

/-- The migration, with step 2 in the given order. -/
def migrate (order : List Uuid) (t : UserTables) : Except String UserTables := do
  let t ← removeDuplicates db t
  match Machine.run (userColumns.normalizeRow db) t.users order with
  | some users => .ok { t with users }
  | none => .error "duplicate key value violates unique constraint \"unique_email\""

/-- Every foreign key refers to a row. -/
def Referential (t : UserTables) : Prop := ∀ i ∈ t.references ++ t.resetTokens, i ∈ t.ids

instance (t : UserTables) : Decidable t.Referential := inferInstanceAs (Decidable (∀ i ∈ _, _))

/-- Only the earliest row of its normal form is referred to by a row that stays. -/
def OnlyFirstsReferred (t : UserTables) : Prop :=
  ∀ i ∈ { t with users := userColumns.kept db t.users }.references,
    i ∈ (userColumns.kept db t.users).map UserEmailRow.id

instance (t : UserTables) : Decidable (t.OnlyFirstsReferred db) :=
  inferInstanceAs (Decidable (∀ i ∈ _, _))

/-- The tables after the migration. -/
def onePerEmail (t : UserTables) : UserTables :=
  let users := userColumns.kept db t.users
  { t with
    users := users.map (userColumns.normalized db)
    resetTokens := t.resetTokens.filter (fun i => i ∈ users.map UserEmailRow.id) }

variable {db} {t : UserTables}

/-- The foreign keys are all that can refuse step 1. -/
theorem removeDuplicates_eq (referential : t.Referential) :
    removeDuplicates db t = if t.OnlyFirstsReferred db then
      .ok { t with
        users := userColumns.kept db t.users
        resetTokens := (t.onePerEmail db).resetTokens }
    else .error "update or delete on table \"users\" violates foreign key constraint" := by
  have removed : ∀ i ∈ t.ids, i ∈ t.ids.filter
      (fun i => i ∉ (userColumns.kept db t.users).map UserEmailRow.id) ↔
        i ∉ (userColumns.kept db t.users).map UserEmailRow.id := by
    intro i hi
    simp [hi]
  have tokens : t.resetTokens.filter (fun i => i ∉ t.ids.filter
      (fun i => i ∉ (userColumns.kept db t.users).map UserEmailRow.id)) =
      (t.onePerEmail db).resetTokens := by
    refine List.filter_congr fun i hi => ?_
    have there := referential i (List.mem_append_right _ hi)
    rw [decide_eq_decide, removed i there, not_not]
  have known : ∀ i ∈ { t with users := userColumns.kept db t.users }.references, i ∈ t.ids := by
    intro i hi
    refine referential i (List.mem_append_left _ ?_)
    rw [references, List.append_assoc, List.mem_append] at hi ⊢
    refine hi.imp_left fun created => ?_
    obtain ⟨u, hu, made⟩ := List.mem_filterMap.mp created
    exact List.mem_filterMap.mpr ⟨u, (RowNumbers.mem_firsts.mp hu).1, made⟩
  by_cases only : t.OnlyFirstsReferred db
  · rw [removeDuplicates, if_neg, if_pos only, tokens]
    rw [Bool.not_eq_true, List.any_eq_false]
    intro i hi
    rw [decide_eq_true_iff, removed i (known i hi), not_not]
    exact only i hi
  · rw [removeDuplicates, if_pos, if_neg only]
    rw [OnlyFirstsReferred] at only
    push Not at only
    obtain ⟨i, hi, lost⟩ := only
    exact List.any_eq_true.mpr ⟨i, hi, decide_eq_true ((removed i (known i hi)).mpr lost)⟩

theorem ids_onePerEmail : (t.onePerEmail db).ids =
    (userColumns.kept db t.users).map UserEmailRow.id := by
  rw [ids, onePerEmail, List.map_map]
  rfl

theorem references_onePerEmail : (t.onePerEmail db).references =
    { t with users := userColumns.kept db t.users }.references := by
  simp only [references, onePerEmail, List.filterMap_map]
  rfl

/-- The migration of `users` is refused by a foreign key, or leaves one row for
each normal form of an email: its earliest row, with the email normalised.
Nothing else can refuse it, whatever the order in which the emails are
normalised, and a second time it changes nothing. -/
theorem users_deduplicated (db : Lowercase) (t : UserTables)
    (unique : Table.Unique UserEmailRow.id t.users) (referential : t.Referential) :
    (∀ order, order.Perm ((userColumns.toNormalize db (userColumns.kept db t.users)).map
        UserEmailRow.id) →
      migrate db order t = if t.OnlyFirstsReferred db then .ok (t.onePerEmail db)
        else .error "update or delete on table \"users\" violates foreign key constraint") ∧
    userColumns.OnePerEmail db t.users (t.onePerEmail db).users ∧
    (t.OnlyFirstsReferred db → (t.onePerEmail db).Referential ∧
      migrate db [] (t.onePerEmail db) = .ok (t.onePerEmail db)) := by
  have one : userColumns.OnePerEmail db t.users (t.onePerEmail db).users :=
    EmailColumns.onePerEmail unique
  have keptIds : Table.Unique userColumns.id (userColumns.kept db t.users) :=
    unique.sublist (List.filter_sublist.map _)
  refine ⟨fun order visits => ?_, one, fun only => ?_⟩
  · rw [migrate, removeDuplicates_eq referential]
    split_ifs with only
    · have ran : Machine.run (userColumns.normalizeRow db) (userColumns.kept db t.users) order =
          some ((userColumns.kept db t.users).map (userColumns.normalized db)) :=
        EmailColumns.normalize_all keptIds (EmailColumns.indexable_kept unique) visits
      simp only [bind, Except.bind, ran]
      rfl
    · rfl
  have stays : (t.onePerEmail db).Referential := by
    intro i hi
    rw [ids_onePerEmail]
    rcases List.mem_append.mp hi with referred | token
    · exact only i (references_onePerEmail ▸ referred)
    · exact of_decide_eq_true (List.mem_filter.mp token).2
  refine ⟨stays, ?_⟩
  obtain ⟨same, done⟩ := one.settled
  have onlyAfter : (t.onePerEmail db).OnlyFirstsReferred db := by
    intro i hi
    rw [same] at hi ⊢
    exact stays i (List.mem_append_left _ hi)
  have tokens : ((t.onePerEmail db).onePerEmail db).resetTokens =
      (t.onePerEmail db).resetTokens := by
    rw [onePerEmail]
    refine List.filter_eq_self.mpr fun i hi => decide_eq_true ?_
    rw [same]
    exact stays i (List.mem_append_right _ hi)
  rw [migrate, removeDuplicates_eq stays, if_pos onlyAfter, tokens, same]
  rfl

/-- Two rows of one person, of which the later one has a reset token. -/
def twoSpellings : UserTables where
  users := [⟨⟨2⟩, " Ada@acme.test", 20, some ⟨1⟩⟩, ⟨⟨1⟩, "ada@ACME.test ", 10, none⟩]
  sessions := [⟨1⟩]
  keyCreators := []
  resetTokens := [⟨2⟩, ⟨1⟩]

theorem users_deduplicated_spellings :
    migrate .ascii [⟨1⟩] twoSpellings =
      .ok ⟨[⟨⟨1⟩, "ada@acme.test", 10, none⟩], [⟨1⟩], [], [⟨1⟩]⟩ := by
  have migrated := (users_deduplicated .ascii twoSpellings (by decide) (by decide)).1 [⟨1⟩]
    (by decide +kernel)
  rw [migrated]
  decide +kernel

end UserTables

end RailsCore

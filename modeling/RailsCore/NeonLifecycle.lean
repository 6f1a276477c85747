import Mathlib
import RailsCore.EnvFiles
import RailsCore.Machine

/-!
# The life of the environment file

The bootstrap merges what it has provisioned into the file, `--clear-env` puts
the placeholders of the template back, and `--purge-neon` deletes the project
and takes its metadata out again. Each command reads lines and writes lines.
Together they are a store of variables, in which seven keys are theirs.
-/

namespace RailsCore.NeonBootstrap
open TextLines

/-- The keys of `SERVICE_DBS`. -/
def serviceDbs : List Text :=
  ["USERS_DATABASE_URL".toList, "ACCOUNTS_DATABASE_URL".toList, "LEDGER_DATABASE_URL".toList,
    "AUDIT_DATABASE_URL".toList]

def projectIdKey : Text := "RAILS_CORE_NEON_PROJECT_ID".toList

/-- What `strip_neon_metadata_lines` drops. -/
def neonMetadata : List Text :=
  [projectIdKey, "RAILS_CORE_NEON_BRANCH_ID".toList, "RAILS_CORE_NEON_PROJECT_NAME".toList]

/-- All keys that the commands write. -/
def managedKeys : List Text := serviceDbs ++ neonMetadata

theorem isKey_managed {k : Text} (managed : k ∈ managedKeys) : IsKey k := by
  have words : managedKeys.all (fun k => k ≠ [] && k ≠ "export".toList &&
      k.all fun c => c.isAlphanum || c = '_') = true := by decide
  have word := List.all_eq_true.mp words k managed
  simp only [Bool.and_eq_true, decide_eq_true_eq, List.all_eq_true, Bool.or_eq_true] at word
  exact isKey_of_word word.1.1 word.2 word.1.2

/-- What `provision_neon` returns, in its order. -/
structure Provisioned extends Updates where
  complete : items.map Prod.fst = managedKeys

/-- `.env.example`, with placeholders that are read back as they are written. -/
structure Template where
  text : Option Text
  placeholders : ∀ k ∈ serviceDbs, ∀ v, loadEnvFileKeys text k = some v → IsValue v

theorem keys_filterMap (env : Env) (keys : List Text) :
    (keys.filterMap fun k => (env k).map fun v => (k, v)).map Prod.fst =
      keys.filter fun k => (env k).isSome := by
  induction keys with
  | nil => rfl
  | cons k keys ih =>
    cases value : env k with
    | none => simp [value, ih]
    | some v => simp [value, ih]

/-- The placeholders that the template has, as `clear_database_urls` collects them. -/
def Template.updates (template : Template) : Updates where
  items := serviceDbs.filterMap fun k => (loadEnvFileKeys template.text k).map fun v => (k, v)
  distinct := by
    rw [Table.Unique, keys_filterMap]
    exact List.Nodup.filter _ (by decide)
  keys := by
    intro p listed
    obtain ⟨k, found, value⟩ := List.mem_filterMap.mp listed
    obtain ⟨v, -, rfl⟩ := Option.map_eq_some_iff.mp value
    exact isKey_managed (List.mem_append_left _ found)
  values := by
    intro p listed
    obtain ⟨k, found, value⟩ := List.mem_filterMap.mp listed
    obtain ⟨v, read, rfl⟩ := Option.map_eq_some_iff.mp value
    exact template.placeholders k found v read

def clearDatabaseUrls (template : Template) (file : Option Text) : Except String Text :=
  match file with
  | none => .error "missing .env"
  | some text =>
    if template.updates.items.length ≠ serviceDbs.length then
      .error ".env.example is missing one or more DATABASE_URL template keys"
    else .ok (mergeWriteEnv template.text (some text) template.updates)

/-- The test of membership in a list of keys, with one proof behind it. -/
local instance lawfulBEqText : LawfulBEq Text := inferInstance

/-- The lines that `strip_neon_metadata_lines` keeps. -/
def keepsLine (line : Text) : Bool :=
  match lineKey line with
  | some k => k ∉ neonMetadata
  | none => true

def stripNeonMetadataLines (file : Option Text) : Option Text :=
  (readText file).map fun text => rstrip (join ((splitlines text).filter keepsLine)) ++ ['\n']

/-- `os.environ.get(key, "")`. -/
abbrev Environ := Text → Text

def resolveApiKey (environ : Environ) (file : Env) : Option Text :=
  let k := stripSpace (environ "NEON_API_KEY".toList)
  if k ≠ [] then some k
  else
    let k := stripSpace ((file "NEON_API_KEY".toList).getD [])
    if k ≠ [] then some k else none

/-- `_URL_INCOMPLETE_MARKERS`. -/
def urlIncompleteMarkers : List Text :=
  ["YOUR_POSTGRES_HOST".toList, "USER:PASSWORD@".toList, "@HOST:".toList]

def isPlaceholderDatabaseUrl (url : Text) : Bool :=
  let u := stripSpace url
  if ¬ "postgresql://".toList <+: u ∧ ¬ "postgres://".toList <+: u then true
  else urlIncompleteMarkers.any fun m => m <:+: u

def urlsConfigured (env : Env) : Bool :=
  serviceDbs.all fun key =>
    let v := stripSpace ((env key).getD [])
    v ≠ [] && !isPlaceholderDatabaseUrl v

/-- The file, and the projects that the API has been asked to delete. -/
structure Workspace where
  file : Option Text
  deleted : List Text
deriving DecidableEq, Repr

/-- A command, with the environment it runs in and what the API answers if it is asked. The
bootstrap prints what it has written, with links that other services shorten, and an exception
there ends it. -/
inductive Command where
  | bootstrap (environ : Environ) (provisioned : Except String Provisioned) (printed : Bool)
  | clearEnv
  | purgeNeon (environ : Environ) (deletion : Except String Unit)

/-- The end of `main`. -/
def bootstrap (template : Template) (w : Workspace) (environ : Environ)
    (provisioned : Except String Provisioned) (printed : Bool) : Workspace × Nat :=
  match resolveApiKey environ (loadEnvFileKeys w.file), provisioned with
  | some _, .ok updates =>
    ({ w with file := some (mergeWriteEnv template.text w.file updates.toUpdates) },
      if printed then 0 else 1)
  | some _, .error _ => (w, 1)
  | none, _ => (w, if urlsConfigured (loadEnvFileKeys w.file) then 0 else 1)

def actionClearEnv (template : Template) (w : Workspace) : Workspace × Nat :=
  match clearDatabaseUrls template w.file with
  | .ok text => ({ w with file := some text }, 0)
  | .error _ => (w, 1)

def confirmsPurge (environ : Environ) : Bool :=
  (stripSpace (environ "CONFIRM_PURGE_NEON".toList)).map Char.toLower = "yes".toList

def actionPurgeNeon (template : Template) (w : Workspace) (environ : Environ)
    (deletion : Except String Unit) : Workspace × Nat :=
  if confirmsPurge environ then
    match resolveApiKey environ (loadEnvFileKeys w.file) with
    | none => (w, 1)
    | some _ =>
      let projectId := stripSpace ((loadEnvFileKeys w.file projectIdKey).getD [])
      if projectId = [] then (w, 1)
      else
        let asked := { w with deleted := w.deleted ++ [projectId] }
        match deletion, clearDatabaseUrls template w.file with
        | .ok (), .ok text => ({ asked with file := stripNeonMetadataLines (some text) }, 0)
        | .error _, _ | .ok (), .error _ => (asked, 1)
  else (w, 1)

/-- A command with its exit code. -/
def Command.run (template : Template) (w : Workspace) : Command → Workspace × Nat
  | .bootstrap environ provisioned printed =>
    NeonBootstrap.bootstrap template w environ provisioned printed
  | .clearEnv => actionClearEnv template w
  | .purgeNeon environ deletion => actionPurgeNeon template w environ deletion

/-- Commands after one another, with their exit codes. -/
def runCommands (template : Template) : Workspace → List Command → Workspace × List Nat
  | w, [] => (w, [])
  | w, c :: cs =>
    let first := c.run template w
    let rest := runCommands template first.1 cs
    (rest.1, first.2 :: rest.2)

/-! ## The store of variables -/

/-- What the file is for: the variables that are in it, or would be in it as soon as it is
written. -/
structure Store where
  present : Bool
  vars : Env
  deleted : List Text

namespace Store

/-- What a command sees of the variables. -/
def loaded (s : Store) : Env := fun k => if s.present then s.vars k else none

def override (vars : Env) (updates : Updates) : Env := fun k => (updates.get k).or (vars k)

def erase (vars : Env) (keys : List Text) : Env := fun k => if k ∈ keys then none else vars k

def bootstrap (s : Store) (environ : Environ) (provisioned : Except String Provisioned)
    (printed : Bool) : Store × Nat :=
  match resolveApiKey environ s.loaded, provisioned with
  | some _, .ok updates =>
    ({ s with present := true, vars := override s.vars updates.toUpdates },
      if printed then 0 else 1)
  | some _, .error _ => (s, 1)
  | none, _ => (s, if urlsConfigured s.loaded then 0 else 1)

/-- The placeholders can be put back. -/
def clears (template : Template) (s : Store) : Bool :=
  s.present && template.updates.items.length = serviceDbs.length

def clearEnv (template : Template) (s : Store) : Store × Nat :=
  if s.clears template then ({ s with vars := override s.vars template.updates }, 0) else (s, 1)

def purgeNeon (template : Template) (s : Store) (environ : Environ)
    (deletion : Except String Unit) : Store × Nat :=
  let projectId := stripSpace ((s.loaded projectIdKey).getD [])
  if confirmsPurge environ ∧ resolveApiKey environ s.loaded ≠ none ∧ projectId ≠ [] then
    let asked := { s with deleted := s.deleted ++ [projectId] }
    if deletion.isOk ∧ s.clears template then
      ({ asked with vars := erase (override s.vars template.updates) neonMetadata }, 0)
    else (asked, 1)
  else (s, 1)

def runCommand (template : Template) (s : Store) : Command → Store × Nat
  | .bootstrap environ provisioned printed => s.bootstrap environ provisioned printed
  | .clearEnv => s.clearEnv template
  | .purgeNeon environ deletion => s.purgeNeon template environ deletion

def runCommands (template : Template) : Store → List Command → Store × List Nat
  | s, [] => (s, [])
  | s, c :: cs =>
    let first := s.runCommand template c
    let rest := runCommands template first.1 cs
    (rest.1, first.2 :: rest.2)

end Store

/-- The store that a workspace holds. -/
def Workspace.store (template : Template) (w : Workspace) : Store where
  present := w.file.isSome
  vars := parseDotenv (sourceText template.text w.file)
  deleted := w.deleted

section Refinement
variable (template : Template)

theorem store_loaded (w : Workspace) : (w.store template).loaded = loadEnvFileKeys w.file := by
  funext k
  cases file : w.file with
  | none => simp [Store.loaded, Workspace.store, file, loadEnvFileKeys, readText]
  | some text => simp [Store.loaded, Workspace.store, file, sourceText, loadEnvFileKeys, readText]

theorem parseDotenv_merged (file : Option Text) (updates : Updates) :
    parseDotenv (sourceText template.text (some (mergeWriteEnv template.text file updates))) =
      Store.override (parseDotenv (sourceText template.text file)) updates := by
  funext k
  have read := loadEnvFileKeys_mergeWriteEnv template.text file updates k
  rw [loadEnvFileKeys, readText_mergeWriteEnv] at read
  rw [sourceText_mergeWriteEnv, Store.override]
  refine read.trans ?_
  cases value : updates.get k with
  | some v => exact getLast?_updated value
  | none => rw [filterMap_other _ value, parseDotenv_eq, Option.none_or]

/-! ### Lines that are dropped -/

theorem keepsLine_eq_false {line : Text} (dropped : keepsLine line = false) :
    ∃ k ∈ neonMetadata, lineKey line = some k := by
  rw [keepsLine] at dropped
  split at dropped
  · rename_i k found
    exact ⟨k, by simpa using dropped, found⟩
  · cases dropped

theorem isKey_metadata {k : Text} (listed : k ∈ neonMetadata) : IsKey k :=
  isKey_managed (List.mem_append_right _ listed)

theorem valueIn_dropped {line k : Text} (dropped : keepsLine line = false)
    (other : k ∉ neonMetadata) : valueIn k line = none := by
  obtain ⟨m, listed, found⟩ := keepsLine_eq_false dropped
  refine valueIn_of_lineKey (isKey_metadata listed) found ?_
  rintro rfl
  exact other listed

theorem valueIn_kept {line k : Text} (kept : keepsLine line = true) (listed : k ∈ neonMetadata) :
    valueIn k line = none := by
  by_contra some_
  have found : lineKey line = some k := by
    rw [lineKey_iff (isKey_metadata listed), parsedKey]
    rw [valueIn] at some_
    cases parsed : parseLine line with
    | none => simp [parsed] at some_
    | some p =>
      by_cases same : p.1 = k
      · rw [Option.map_some, same]
      · simp [parsed, same] at some_
  rw [keepsLine, found] at kept
  exact of_decide_eq_true kept listed

theorem filterMap_kept (lines : List Text) (k : Text) :
    (lines.filter keepsLine).filterMap (valueIn k) =
      if k ∈ neonMetadata then [] else lines.filterMap (valueIn k) := by
  by_cases listed : k ∈ neonMetadata
  · rw [if_pos listed, List.filterMap_eq_nil_iff]
    exact fun line inside => valueIn_kept (List.mem_filter.mp inside).2 listed
  · rw [if_neg listed, List.filterMap_filter]
    refine List.filterMap_congr fun line _ => ?_
    cases kept : keepsLine line with
    | true => rfl
    | false => exact (valueIn_dropped kept listed).symm

/-- What is written from lines is read as it is. -/
theorem readText_written {lines : List Text} (one : ∀ line ∈ lines, OneLine line) :
    readText (some (rstrip (join lines) ++ ['\n'])) = some (rstrip (join lines) ++ ['\n']) := by
  rw [readText, Option.map_some, universalNewlines_of_plain]
  intro inside
  rcases List.mem_append.mp inside with inside | last
  · have joined := (List.rdropWhile_prefix isSpace _).subset inside
    rcases mem_join joined with feed | ⟨line, listed, here⟩
    · exact absurd feed (by decide)
    · exact absurd (one line listed _ here) (by decide)
  · exact absurd (List.mem_singleton.mp last) (by decide)

theorem kept_oneLine (text : Text) : ∀ line ∈ (splitlines text).filter keepsLine, OneLine line :=
  fun _ listed => splitlines_oneLine (List.mem_filter.mp listed).1

theorem parseDotenv_stripped {text : Text} (plain : readText (some text) = some text) :
    parseDotenv (sourceText template.text (stripNeonMetadataLines (some text))) =
      Store.erase (parseDotenv text) neonMetadata := by
  funext k
  rw [stripNeonMetadataLines, plain, Option.map_some, sourceText,
    readText_written (kept_oneLine text)]
  simp only
  rw [parseDotenv_written (kept_oneLine text), filterMap_kept, Store.erase, parseDotenv_eq]
  split <;> rfl

/-! ### The commands -/

theorem clearDatabaseUrls_eq (w : Workspace) :
    ((w.store template).clears template = true → ∃ text, w.file = some text ∧
      clearDatabaseUrls template w.file =
        .ok (mergeWriteEnv template.text w.file template.updates)) ∧
    ((w.store template).clears template = false →
      ∃ e, clearDatabaseUrls template w.file = .error e) := by
  cases file : w.file with
  | none => simp [Store.clears, Workspace.store, file, clearDatabaseUrls]
  | some text =>
    by_cases complete : template.updates.items.length = serviceDbs.length
    · simp [Store.clears, Workspace.store, file, clearDatabaseUrls, complete]
    · simp [Store.clears, Workspace.store, file, clearDatabaseUrls, complete]

theorem bootstrap_store (w : Workspace) (environ : Environ)
    (provisioned : Except String Provisioned) (printed : Bool) :
    (w.store template).bootstrap environ provisioned printed =
      ((bootstrap template w environ provisioned printed).1.store template,
        (bootstrap template w environ provisioned printed).2) := by
  have loaded := store_loaded template w
  cases key : resolveApiKey environ (loadEnvFileKeys w.file) with
  | none => simp only [Store.bootstrap, bootstrap, loaded, key]
  | some k =>
    cases provisioned with
    | error e => simp only [Store.bootstrap, bootstrap, loaded, key]
    | ok updates =>
      simp only [Store.bootstrap, bootstrap, loaded, key]
      simp only [Workspace.store, Option.isSome_some, parseDotenv_merged]

theorem clearEnv_store (w : Workspace) :
    (w.store template).clearEnv template =
      ((actionClearEnv template w).1.store template, (actionClearEnv template w).2) := by
  obtain ⟨clears, stays⟩ := clearDatabaseUrls_eq template w
  rw [Store.clearEnv, actionClearEnv]
  cases possible : (w.store template).clears template with
  | true =>
    obtain ⟨text, file, written⟩ := clears possible
    rw [written, if_pos rfl]
    simp only [Workspace.store, Option.isSome_some, parseDotenv_merged, file]
  | false =>
    obtain ⟨e, refused⟩ := stays possible
    rw [refused, if_neg Bool.false_ne_true]

theorem purgeNeon_store (w : Workspace) (environ : Environ) (deletion : Except String Unit) :
    (w.store template).purgeNeon template environ deletion =
      ((actionPurgeNeon template w environ deletion).1.store template,
        (actionPurgeNeon template w environ deletion).2) := by
  obtain ⟨clears, stays⟩ := clearDatabaseUrls_eq template w
  have loaded := store_loaded template w
  cases confirmed : confirmsPurge environ with
  | false => simp [Store.purgeNeon, actionPurgeNeon, confirmed]
  | true =>
    cases key : resolveApiKey environ (loadEnvFileKeys w.file) with
    | none => simp [Store.purgeNeon, actionPurgeNeon, loaded, key]
    | some k =>
      by_cases none_ : stripSpace ((loadEnvFileKeys w.file projectIdKey).getD []) = []
      · simp [Store.purgeNeon, actionPurgeNeon, loaded, none_, key]
      · cases deletion with
        | error e =>
          simp only [Store.purgeNeon, actionPurgeNeon, confirmed, loaded, key, none_, Except.isOk,
            Except.toBool, ne_eq, reduceCtorEq, not_false_eq_true, and_self, false_and, if_true,
            if_false, Bool.false_eq_true]
          rfl
        | ok u =>
          cases possible : (w.store template).clears template with
          | false =>
            obtain ⟨e, refused⟩ := stays possible
            simp only [Store.purgeNeon, actionPurgeNeon, confirmed, loaded, key, none_, possible,
              refused, ne_eq, reduceCtorEq, not_false_eq_true, and_self, and_false, if_true,
              if_false, Bool.false_eq_true]
            rfl
          | true =>
            obtain ⟨text, file, written⟩ := clears possible
            have purged : actionPurgeNeon template w environ (.ok u) =
                (⟨stripNeonMetadataLines
                    (some (mergeWriteEnv template.text w.file template.updates)),
                  w.deleted ++
                    [stripSpace ((loadEnvFileKeys w.file projectIdKey).getD [])]⟩, 0) := by
              simp [actionPurgeNeon, confirmed, key, none_, written]
            have merged := parseDotenv_merged template w.file template.updates
            rw [sourceText_mergeWriteEnv] at merged
            have stripped := parseDotenv_stripped template
              (readText_mergeWriteEnv template.text w.file template.updates)
            rw [merged] at stripped
            have there : (stripNeonMetadataLines
                (some (mergeWriteEnv template.text w.file template.updates))).isSome = true := by
              rw [stripNeonMetadataLines, readText_mergeWriteEnv]
              rfl
            rw [purged, Store.purgeNeon, loaded, confirmed, key, possible,
              if_pos ⟨rfl, by simp, none_⟩, if_pos ⟨rfl, rfl⟩]
            have present : w.file.isSome = true := by
              rw [file]
              rfl
            simp only [Workspace.store, there, stripped, present]

/-- The step lemma: what a command does to the lines is what it does to the variables. -/
theorem run_store (w : Workspace) (c : Command) :
    (w.store template).runCommand template c =
      ((c.run template w).1.store template, (c.run template w).2) := by
  cases c with
  | bootstrap environ provisioned printed =>
    exact bootstrap_store template w environ provisioned printed
  | clearEnv => exact clearEnv_store template w
  | purgeNeon environ deletion => exact purgeNeon_store template w environ deletion

theorem runCommands_store (w : Workspace) (cs : List Command) :
    Store.runCommands template (w.store template) cs =
      ((runCommands template w cs).1.store template, (runCommands template w cs).2) := by
  induction cs generalizing w with
  | nil => rfl
  | cons c cs ih =>
    have first := run_store template w c
    rw [Store.runCommands, first, ih, runCommands]

end Refinement

/-! ## The lines of others -/

/-- A line that the commands have nothing to do with, without the white space behind it. -/
def otherLine (line : Text) : Option Text :=
  if (lineKey line).any fun k => k ∈ managedKeys then none
  else if rstrip line = [] then none
  else some (rstrip line)

def otherLines (text : Text) : List Text := (splitlines text).filterMap otherLine

theorem otherLine_managed {line k : Text} (found : lineKey line = some k)
    (managed : k ∈ managedKeys) : otherLine line = none := by
  rw [otherLine, found, if_pos (by simpa using managed)]

theorem otherLine_rstrip (line : Text) : otherLine (rstrip line) = otherLine line := by
  rw [otherLine, otherLine, lineKey_rstrip, rstrip_rstrip]

/-- Trimming takes nothing from what is read of each line without its trailing white space. -/
theorem filterMap_trimEnd_of {β : Type} {f : Text → Option β} (blank : f [] = none)
    (trimmed : ∀ line, f (rstrip line) = f line) (lines : List Text) :
    (trimEnd lines).filterMap f = lines.filterMap f := by
  induction lines with
  | nil => rfl
  | cons line lines ih =>
    rw [trimEnd, List.filterMap_cons, ← ih, ← trimmed line]
    by_cases last : trimEnd lines = []
    · rw [if_pos last, last]
      by_cases here : rstrip line = []
      · rw [if_pos here, here, blank]
      · rw [if_neg here, List.filterMap_cons]
    · rw [if_neg last, List.filterMap_cons, trimmed]

theorem otherLine_nil : otherLine [] = none := by decide

theorem otherLines_written {lines : List Text} (one : ∀ line ∈ lines, OneLine line) :
    otherLines (rstrip (join lines) ++ ['\n']) = lines.filterMap otherLine := by
  rw [otherLines, splitlines_written one,
    ← filterMap_trimEnd_of otherLine_nil otherLine_rstrip lines]
  split
  · rename_i blank
    rw [blank]
    rfl
  · rfl

theorem filterMap_otherLine_newLines {updates : Updates}
    (managed : ∀ k v, updates.get k = some v → k ∈ managedKeys) (lines : List Text) :
    (newLines updates lines).filterMap otherLine = lines.filterMap otherLine := by
  have written : ∀ k v, updates.get k = some v → otherLine (lineOf k v) = none := by
    intro k v value
    obtain ⟨-, key, plain⟩ := Updates.get_some value
    exact otherLine_managed (lineKey_lineOf key plain) (managed k v value)
  have appended : ((updates.items.filter fun p =>
      p.1 ∉ (lines.filterMap lineKey).filter fun k => (updates.get k).isSome).map fun p =>
        lineOf p.1 p.2).filterMap otherLine = [] := by
    rw [List.filterMap_eq_nil_iff]
    intro line listed
    obtain ⟨p, found, rfl⟩ := List.mem_map.mp listed
    exact written p.1 p.2 (Updates.get_of_mem (List.mem_filter.mp found).1)
  rw [newLines, List.filterMap_append, appended, List.append_nil, List.filterMap_map]
  refine List.filterMap_congr fun line _ => ?_
  rw [Function.comp_apply]
  rcases newLine_cases updates line with ⟨k, v, key, value, new⟩ | ⟨kept, -⟩
  · rw [new, written k v value, otherLine_managed key (managed k v value)]
  · rw [kept]

theorem Updates.get_mem_keys {updates : Updates} {k v : Text} (value : updates.get k = some v) :
    k ∈ updates.items.map Prod.fst :=
  List.mem_map.mpr ⟨(k, v), (Updates.get_some value).1, rfl⟩

theorem Provisioned.managed (p : Provisioned) :
    ∀ k v, p.toUpdates.get k = some v → k ∈ managedKeys := by
  intro k v value
  rw [← p.complete]
  exact Updates.get_mem_keys value

section Lines
variable (template : Template)

theorem Template.placeholder {k v : Text} (value : template.updates.get k = some v) :
    k ∈ serviceDbs := by
  have listed := Updates.get_mem_keys value
  rw [Template.updates, keys_filterMap] at listed
  exact (List.mem_filter.mp listed).1

theorem otherLines_merged (file : Option Text) {updates : Updates}
    (managed : ∀ k v, updates.get k = some v → k ∈ managedKeys) :
    otherLines (sourceText template.text (some (mergeWriteEnv template.text file updates))) =
      otherLines (sourceText template.text file) := by
  rw [sourceText_mergeWriteEnv, mergeWriteEnv,
    otherLines_written (merged_oneLine template.text file updates),
    filterMap_otherLine_newLines managed, otherLines]

theorem otherLines_cleared {file : Option Text} {text : Text}
    (cleared : clearDatabaseUrls template file = .ok text) :
    readText (some text) = some text ∧
      otherLines text = otherLines (sourceText template.text file) := by
  cases file with
  | none => cases cleared
  | some before =>
    rw [clearDatabaseUrls] at cleared
    split_ifs at cleared
    cases cleared
    have managed : ∀ k v, template.updates.get k = some v → k ∈ managedKeys :=
      fun k v value => List.mem_append_left _ (template.placeholder value)
    have merged := otherLines_merged template (some before) managed
    rw [sourceText_mergeWriteEnv] at merged
    exact ⟨readText_mergeWriteEnv _ _ _, merged⟩

theorem otherLines_stripped {text : Text} (plain : readText (some text) = some text) :
    otherLines (sourceText template.text (stripNeonMetadataLines (some text))) =
      otherLines text := by
  rw [stripNeonMetadataLines, plain, Option.map_some, sourceText,
    readText_written (kept_oneLine text)]
  simp only
  rw [otherLines_written (kept_oneLine text), List.filterMap_filter, otherLines]
  refine List.filterMap_congr fun line _ => ?_
  cases kept : keepsLine line with
  | true => rfl
  | false =>
    obtain ⟨k, listed, found⟩ := keepsLine_eq_false kept
    exact (otherLine_managed found (List.mem_append_right _ listed)).symm

/-- A purge strips the file after the placeholders are back, or leaves it. -/
theorem actionPurgeNeon_file (w : Workspace) (environ : Environ) (deletion : Except String Unit) :
    (∃ text, clearDatabaseUrls template w.file = .ok text ∧
      (actionPurgeNeon template w environ deletion).1.file = stripNeonMetadataLines (some text)) ∨
    (actionPurgeNeon template w environ deletion).1.file = w.file := by
  rw [actionPurgeNeon]
  split
  · split
    · exact .inr rfl
    · simp only
      split
      · exact .inr rfl
      · split
        · rename_i text cleared
          exact .inl ⟨text, cleared, rfl⟩
        · exact .inr rfl
        · exact .inr rfl
  · exact .inr rfl

/-- No command touches a line that has none of the keys. -/
theorem otherLines_run (w : Workspace) (c : Command) :
    otherLines (sourceText template.text (c.run template w).1.file) =
      otherLines (sourceText template.text w.file) := by
  cases c with
  | bootstrap environ provisioned printed =>
    simp only [Command.run, bootstrap]
    split
    · rename_i key updates found
      exact otherLines_merged template w.file updates.managed
    · rfl
    · rfl
  | clearEnv =>
    simp only [Command.run, actionClearEnv]
    split
    · rename_i text cleared
      obtain ⟨plain, same⟩ := otherLines_cleared template cleared
      rw [sourceText, plain]
      exact same
    · rfl
  | purgeNeon environ deletion =>
    rw [Command.run]
    rcases actionPurgeNeon_file template w environ deletion with ⟨text, cleared, file⟩ | file
    · obtain ⟨plain, same⟩ := otherLines_cleared template cleared
      rw [file, otherLines_stripped template plain, same]
    · rw [file]

theorem otherLines_runCommands (w : Workspace) (cs : List Command) :
    otherLines (sourceText template.text (runCommands template w cs).1.file) =
      otherLines (sourceText template.text w.file) := by
  induction cs generalizing w with
  | nil => rfl
  | cons c cs ih => exact (ih _).trans (otherLines_run template w c)

end Lines

/-! ## The variables of others, and the projects that are deleted -/

namespace Store
variable (template : Template)

theorem override_other {vars : Env} {updates : Updates} {k : Text}
    (other : updates.get k = none) : override vars updates k = vars k := by
  rw [override, other, Option.none_or]

theorem get_managed {updates : Updates}
    (managed : ∀ k v, updates.get k = some v → k ∈ managedKeys) {k : Text}
    (other : k ∉ managedKeys) : updates.get k = none := by
  cases value : updates.get k with
  | none => rfl
  | some v => exact absurd (managed k v value) other

/-- No command changes a variable that is not one of the seven. -/
theorem vars_runCommand (s : Store) (c : Command) {k : Text} (other : k ∉ managedKeys) :
    (s.runCommand template c).1.vars k = s.vars k := by
  have placeholder : template.updates.get k = none :=
    get_managed (fun k v value => List.mem_append_left _ (template.placeholder value)) other
  have notMetadata : k ∉ neonMetadata := fun listed => other (List.mem_append_right _ listed)
  cases c with
  | bootstrap environ provisioned printed =>
    simp only [runCommand, bootstrap]
    split
    · rename_i key updates found
      exact override_other (get_managed updates.managed other)
    · rfl
    · rfl
  | clearEnv =>
    simp only [runCommand, clearEnv]
    split
    · exact override_other placeholder
    · rfl
  | purgeNeon environ deletion =>
    simp only [runCommand, purgeNeon]
    split
    · split
      · exact (if_neg notMetadata).trans (override_other placeholder)
      · rfl
    · rfl

theorem vars_runCommands (s : Store) (cs : List Command) {k : Text} (other : k ∉ managedKeys) :
    (runCommands template s cs).1.vars k = s.vars k := by
  induction cs generalizing s with
  | nil => rfl
  | cons c cs ih => exact (ih _).trans (vars_runCommand template s c other)

/-- The project that the variables name. -/
def projectId (vars : Env) : Text := stripSpace ((vars projectIdKey).getD [])

/-- A project that is named before the commands, or by what one of them has provisioned. -/
def Named (s : Store) (cs : List Command) (id : Text) : Prop :=
  id ≠ [] ∧ (id = projectId s.vars ∨
    ∃ environ updates printed, Command.bootstrap environ (.ok updates) printed ∈ cs ∧
      id = projectId (override s.vars updates.toUpdates))

theorem projectIdKey_metadata : projectIdKey ∈ neonMetadata := by decide

theorem placeholder_projectId : template.updates.get projectIdKey = none := by
  cases value : template.updates.get projectIdKey with
  | none => rfl
  | some v => exact absurd (template.placeholder value) (by decide)

/-- What has been provisioned names the project, whatever was there before. -/
theorem projectId_override (updates : Provisioned) (vars vars' : Env) :
    projectId (override vars updates.toUpdates) = projectId (override vars' updates.toUpdates) := by
  have listed : projectIdKey ∈ updates.items.map Prod.fst := by
    rw [updates.complete]
    exact List.mem_append_right _ projectIdKey_metadata
  obtain ⟨p, found, same⟩ := List.mem_map.mp listed
  have value := Updates.get_of_mem found
  rw [same] at value
  rw [projectId, projectId, override, override, value, Option.some_or, Option.some_or]

/-- The step lemma: a command deletes the project that is named, and leaves that name, takes it
out or writes the name of what it has provisioned. -/
theorem projectId_runCommand (s : Store) (c : Command) :
    (∀ id ∈ (s.runCommand template c).1.deleted,
      id ∈ s.deleted ∨ id ≠ [] ∧ id = projectId s.vars) ∧
    (projectId (s.runCommand template c).1.vars = projectId s.vars ∨
      projectId (s.runCommand template c).1.vars = [] ∨
      ∃ environ updates printed, c = .bootstrap environ (.ok updates) printed ∧
        projectId (s.runCommand template c).1.vars =
          projectId (override s.vars updates.toUpdates)) := by
  cases c with
  | bootstrap environ provisioned printed =>
    simp only [runCommand, bootstrap]
    split
    · rename_i key updates found
      exact ⟨fun id old => .inl old, .inr (.inr ⟨environ, updates, printed, rfl, rfl⟩)⟩
    · exact ⟨fun id old => .inl old, .inl rfl⟩
    · exact ⟨fun id old => .inl old, .inl rfl⟩
  | clearEnv =>
    simp only [runCommand, clearEnv]
    split
    · refine ⟨fun id old => .inl old, .inl ?_⟩
      have same : override s.vars template.updates projectIdKey = s.vars projectIdKey :=
        override_other (placeholder_projectId template)
      exact congrArg (fun v : Option Text => stripSpace (v.getD [])) same
    · exact ⟨fun id old => .inl old, .inl rfl⟩
  | purgeNeon environ deletion =>
    have asked : ∀ id ∈ s.deleted ++ [stripSpace ((s.loaded projectIdKey).getD [])],
        stripSpace ((s.loaded projectIdKey).getD []) ≠ [] →
        id ∈ s.deleted ∨ id ≠ [] ∧ id = projectId s.vars := by
      intro id listed some_
      rcases List.mem_append.mp listed with old | new
      · exact .inl old
      · obtain rfl := List.mem_singleton.mp new
        refine .inr ⟨some_, ?_⟩
        rw [loaded] at some_ ⊢
        split at some_
        · rw [if_pos ‹_›, projectId]
        · exact absurd rfl some_
    simp only [runCommand, purgeNeon]
    split
    · rename_i may
      split
      · refine ⟨fun id listed => asked id listed may.2.2, .inr (.inl ?_)⟩
        have gone : erase (override s.vars template.updates) neonMetadata projectIdKey = none :=
          if_pos projectIdKey_metadata
        exact congrArg (fun v : Option Text => stripSpace (v.getD [])) gone
      · exact ⟨fun id listed => asked id listed may.2.2, .inl rfl⟩
    · exact ⟨fun id old => .inl old, .inl rfl⟩

theorem deleted_runCommands (s : Store) (cs : List Command) :
    ∀ id ∈ (runCommands template s cs).1.deleted, id ∈ s.deleted ∨ s.Named cs id := by
  induction cs generalizing s with
  | nil => exact fun id old => .inl old
  | cons c cs ih =>
    intro id listed
    obtain ⟨deletes, names⟩ := projectId_runCommand template s c
    rcases ih _ id listed with old | ⟨some_, rfl | ⟨environ, updates, printed, later, rfl⟩⟩
    · rcases deletes id old with old | ⟨some_, same⟩
      · exact .inl old
      · exact .inr ⟨some_, .inl same⟩
    · refine .inr ⟨some_, ?_⟩
      rcases names with same | none_ | ⟨environ, updates, printed, rfl, same⟩
      · exact .inl same
      · exact absurd none_ some_
      · exact .inr ⟨environ, updates, printed, List.mem_cons_self, same⟩
    · exact .inr ⟨some_, .inr ⟨environ, updates, printed, List.mem_cons_of_mem c later,
        projectId_override updates _ _⟩⟩

end Store

/-- In every sequence of commands, over any file, any template whose placeholders
are read back as they are written, and any answers of the API with seven values
of this kind: the lines hold what the store of variables holds and the exit codes
are its exit codes. All other lines stay in their order, all other variables keep
their values, and only a project is deleted that the file named at first or that
was provisioned in between. -/
theorem commands_keep_a_store (template : Template) (w : Workspace) (cs : List Command) :
    let after := runCommands template w cs
    let store := Store.runCommands template (w.store template) cs
    after.1.store template = store.1 ∧ after.2 = store.2 ∧
    otherLines (sourceText template.text after.1.file) =
      otherLines (sourceText template.text w.file) ∧
    (∀ k, k ∉ managedKeys → (after.1.store template).vars k = (w.store template).vars k) ∧
    ∀ id ∈ after.1.deleted, id ∈ w.deleted ∨ (w.store template).Named cs id := by
  intro after store
  have refines : store = (after.1.store template, after.2) := runCommands_store template w cs
  have vars := fun k (other : k ∉ managedKeys) =>
    Store.vars_runCommands template (w.store template) cs other
  have deleted := Store.deleted_runCommands template (w.store template) cs
  change ∀ k, k ∉ managedKeys → store.1.vars k = _ at vars
  change ∀ id ∈ store.1.deleted, _ at deleted
  rw [refines] at vars deleted ⊢
  exact ⟨rfl, rfl, otherLines_runCommands template w cs, vars, deleted⟩

def exampleTemplate : Template where
  text := some envExample
  placeholders := by
    have all : serviceDbs.all (fun k =>
        ((loadEnvFileKeys (some envExample) k).all fun v => decide (IsValue v))) = true := by
      decide +kernel
    intro k listed v read
    have value := List.all_eq_true.mp all k listed
    rw [read] at value
    exact of_decide_eq_true value

def provisionedItems : List (Text × Text) :=
  managedKeys.zip (["postgresql://ada:pw@neon.test/users-db",
    "postgresql://ada:pw@neon.test/accounts-db", "postgresql://ada:pw@neon.test/ledger-db",
    "postgresql://ada:pw@neon.test/audit-db", "late-cell-1", "br-1",
    "rails-core-dev"].map String.toList)

def provisionedProject : Provisioned where
  items := provisionedItems
  distinct := by decide +kernel
  keys := by
    have all : provisionedItems.all (fun p => decide (IsKey p.1)) = true := by decide +kernel
    exact fun p listed => of_decide_eq_true (List.all_eq_true.mp all p listed)
  values := by
    have all : provisionedItems.all (fun p => decide (IsValue p.2)) = true := by decide +kernel
    exact fun p listed => of_decide_eq_true (List.all_eq_true.mp all p listed)
  complete := by decide +kernel

def purging : Environ := fun k =>
  if k = "NEON_API_KEY".toList then "key".toList
  else if k = "CONFIRM_PURGE_NEON".toList then "yes".toList
  else []

/-- The first file is written, the links are not printed, and the project is deleted again. -/
def provisionAndPurge : List Command :=
  [.bootstrap purging (.ok provisionedProject) false, .purgeNeon purging (.ok ())]

theorem commands_keep_a_store_purged :
    (runCommands exampleTemplate ⟨none, []⟩ provisionAndPurge).2 = [1, 0] ∧
    (runCommands exampleTemplate ⟨none, []⟩ provisionAndPurge).1.deleted =
      ["late-cell-1".toList] ∧
    ((runCommands exampleTemplate ⟨none, []⟩ provisionAndPurge).1.store exampleTemplate).vars
      "RUST_LOG".toList = some "info".toList := by
  obtain ⟨-, -, -, others, -⟩ :=
    commands_keep_a_store exampleTemplate ⟨none, []⟩ provisionAndPurge
  have run : (runCommands exampleTemplate ⟨none, []⟩ provisionAndPurge).2 = [1, 0] ∧
      (runCommands exampleTemplate ⟨none, []⟩ provisionAndPurge).1.deleted =
        ["late-cell-1".toList] := by
    decide +kernel
  refine ⟨run.1, run.2, (others _ (by decide +kernel)).trans ?_⟩
  decide +kernel

end RailsCore.NeonBootstrap

import RailsCore.AuthContexts

/-!
# One API key on three paths

The business and environment that an API key and an environment name stand for,
as the two request extractors and the gRPC check find them. All three look the
same rows up. The gRPC check takes any string and lowers the case of the
environment; the extractors see only what a header can carry as text, and
compare the environment as it is.
-/

namespace RailsCore.UsersService

variable {lib : Libraries} {db db' : UsersDatabase}

/-- A request with a key and the name of an environment, and perhaps a token. -/
def keyRequest (apiKey environment : String) (authorization : Option HeaderValue) : Parts :=
  ⟨none, some (headerOf environment), some (headerOf apiKey), authorization⟩

def authScope (lib : Libraries) (db : UsersDatabase) (parts : Parts) : Option (Uuid × Uuid) :=
  (AuthContext.fromRequestParts lib db parts).toOption.map
    (fun ctx => (ctx.businessId, ctx.environmentId))

def apiKeyOnlyScope (lib : Libraries) (db : UsersDatabase) (parts : Parts) : Option (Uuid × Uuid) :=
  (ApiKeyOnlyContext.fromRequestParts lib db parts).toOption.map
    (fun ctx => (ctx.businessId, ctx.environmentId))

/-- The lookups that all three paths make. -/
def lookupScope (lib : Libraries) (db : UsersDatabase) (apiKeyPlain environment : String) :
    Option (Uuid × Uuid) :=
  match db.apiKeyByHash (lib.hashApiKey apiKeyPlain) with
  | none => none
  | some key =>
    if key.Usable then
      (db.activeEnvironmentOfType key.businessId environment).map (fun row => (key.businessId, row.id))
    else none

def IsEnvironment (s : String) : Prop := s = "sandbox" ∨ s = "production"

instance (s : String) : Decidable (IsEnvironment s) := inferInstanceAs (Decidable (_ ∨ _))

/-- The unique index on key hashes, and one active environment for a business and a type. -/
structure UsersDatabase.OneActive (db : UsersDatabase) : Prop where
  keyHashes : Table.Unique ApiKeyRow.keyHash db.apiKeys
  oneActive : ∀ e ∈ db.environments, ∀ e' ∈ db.environments, e.status = "active" →
    e'.status = "active" → e.businessId = e'.businessId → e.type = e'.type → e = e'

/-- The same rows, in another order of scanning. -/
def UsersDatabase.SameRows (db db' : UsersDatabase) : Prop :=
  db.apiKeys.Perm db'.apiKeys ∧ db.environments.Perm db'.environments

/-- Where at most one row is selected, the order of scanning does not matter. -/
theorem find?_perm {Row : Type} {p : Row → Bool} {rows rows' : List Row} (same : rows.Perm rows')
    (one : ∀ r ∈ rows, ∀ r' ∈ rows, p r = true → p r' = true → r = r') :
    rows.find? p = rows'.find? p := by
  cases found : rows.find? p with
  | none =>
    symm
    rw [List.find?_eq_none] at found ⊢
    exact fun r hr => found r (same.mem_iff.mpr hr)
  | some r =>
    have here := List.mem_of_find?_eq_some found
    have holds := List.find?_some found
    cases other : rows'.find? p with
    | none => exact absurd holds (List.find?_eq_none.mp other r (same.mem_iff.mp here))
    | some r' =>
      have there := same.mem_iff.mpr (List.mem_of_find?_eq_some other)
      rw [one r here r' there holds (List.find?_some other)]

theorem lookupScope_sameRows (one : db.OneActive) (same : db.SameRows db')
    (apiKeyPlain environment : String) :
    lookupScope lib db apiKeyPlain environment = lookupScope lib db' apiKeyPlain environment := by
  have keys : ∀ hash, db.apiKeyByHash hash = db'.apiKeyByHash hash := by
    intro hash
    apply find?_perm same.1
    intro k hk k' hk' here here'
    exact one.keyHashes.eq hk hk' ((of_decide_eq_true here).trans (of_decide_eq_true here').symm)
  have environments : ∀ business type,
      db.activeEnvironmentOfType business type = db'.activeEnvironmentOfType business type := by
    intro business type
    apply find?_perm same.2
    intro e he e' he' here here'
    simp only [Bool.and_eq_true, decide_eq_true_eq] at here here'
    obtain ⟨⟨owner, kind⟩, active⟩ := here
    obtain ⟨⟨owner', kind'⟩, active'⟩ := here'
    exact one.oneActive e he e' he' active active' (owner.trans owner'.symm) (kind.trans kind'.symm)
  simp only [lookupScope, keys, environments]

theorem environment_nonempty {s : String} (named : IsEnvironment s) : s ≠ "" := by
  rcases named with rfl | rfl <;> decide

/-- An environment is a fixed point of the normalisation. -/
theorem toLowercase_environment {s : String} (named : IsEnvironment s) : toLowercase s = s := by
  rcases named with rfl | rfl <;> decide

theorem validateApiKeyScope_eq (apiKeyPlain environment : String) :
    (validateApiKeyScope lib db apiKeyPlain environment).toOption =
      lookupScope lib db apiKeyPlain environment := by
  unfold validateApiKeyScope lookupScope
  cases db.apiKeyByHash (lib.hashApiKey apiKeyPlain) with
  | none => rfl
  | some key =>
    by_cases usable : key.Usable
    · simp only [if_pos usable]
      cases db.activeEnvironmentOfType key.businessId environment <;> rfl
    · simp only [if_neg usable]
      rfl

theorem grpcScope_eq (apiKey environment : String) :
    (grpcScope lib db apiKey environment).toOption =
      if trim apiKey ≠ "" ∧ IsEnvironment (toLowercase (trim environment)) then
        lookupScope lib db (trim apiKey) (toLowercase (trim environment))
      else none := by
  by_cases valid : trim apiKey ≠ "" ∧ IsEnvironment (toLowercase (trim environment))
  · have accepted : validateApiKeyRequestInputs apiKey environment =
        .ok (trim apiKey, toLowercase (trim environment)) := by
      rw [validateApiKeyRequestInputs, if_neg valid.1, if_neg]
      rintro ⟨first, second⟩
      exact valid.2.elim first second
    rw [grpcScope, accepted, if_pos valid, ← validateApiKeyScope_eq]
    rfl
  · obtain ⟨e, refused⟩ : ∃ e, validateApiKeyRequestInputs apiKey environment = .error e := by
      rw [validateApiKeyRequestInputs]
      split
      · exact ⟨_, rfl⟩
      · rename_i key
        refine ⟨_, if_pos ⟨?_, ?_⟩⟩
        · exact fun same => valid ⟨key, .inl same⟩
        · exact fun same => valid ⟨key, .inr same⟩
    rw [grpcScope, refused, if_neg valid]
    rfl

/-- An environment that was looked up passes the last check. -/
theorem apiKeyContext_eq (apiKeyPlain apiKey environment : String)
    (authorization : Option HeaderValue) :
    ((apiKeyContext lib db (keyRequest apiKey environment authorization) none
      apiKeyPlain).toOption.map (fun ctx => (ctx.businessId, ctx.environmentId))) =
      if IsVisible environment ∧ IsEnvironment (trim environment) then
        lookupScope lib db apiKeyPlain (trim environment)
      else none := by
  have text : headerText (keyRequest apiKey environment authorization).environment =
      if IsVisible environment ∧ trim environment ≠ "" then some (trim environment) else none :=
    headerText_headerOf environment
  unfold apiKeyContext lookupScope
  cases db.apiKeyByHash (lib.hashApiKey apiKeyPlain) with
  | none => simp [Except.toOption]
  | some key =>
    by_cases usable : key.Usable
    · simp only [if_pos usable, environmentForKey, text]
      by_cases visible : IsVisible environment
      · by_cases named : IsEnvironment (trim environment)
        · have valid : ¬ (trim environment ≠ "sandbox" ∧ trim environment ≠ "production") := by
            rintro ⟨first, second⟩
            exact named.elim first second
          simp only [visible, named, environment_nonempty named, valid, ne_eq, not_false_eq_true,
            and_self, if_true, if_false]
          cases found : db.activeEnvironmentOfType key.businessId (trim environment) with
          | none => rfl
          | some row =>
            have stored := List.mem_of_find?_eq_some found
            have selected := List.find?_some found
            simp only [Bool.and_eq_true, decide_eq_true_eq] at selected
            have active : db.hasActiveEnvironment row.id key.businessId = true :=
              hasActiveEnvironment_iff.mpr ⟨row, stored, rfl, selected.1.1, selected.2⟩
            simp only [active, if_true]
            rfl
        · have invalid : trim environment ≠ "sandbox" ∧ trim environment ≠ "production" :=
            ⟨fun same => named (.inl same), fun same => named (.inr same)⟩
          simp only [visible, named, and_false, if_false]
          by_cases blank : trim environment = "" <;> simp [invalid, blank, Except.toOption]
      · simp only [visible, false_and, if_false]
        rfl
    · simp [usable, Except.toOption]

/-- What both extractors make of a key and the name of an environment. -/
def headerScope (lib : Libraries) (db : UsersDatabase) (apiKey environment : String) :
    Option (Uuid × Uuid) :=
  if IsVisible apiKey ∧ trim apiKey ≠ "" ∧ IsVisible environment ∧ IsEnvironment (trim environment)
  then lookupScope lib db (trim apiKey) (trim environment)
  else none

theorem keyRequest_apiKey (apiKey environment : String) (authorization : Option HeaderValue) :
    headerText (keyRequest apiKey environment authorization).apiKey =
      if IsVisible apiKey ∧ trim apiKey ≠ "" then some (trim apiKey) else none :=
  headerText_headerOf apiKey

theorem apiKeyOnlyScope_eq (apiKey environment : String) (authorization : Option HeaderValue) :
    apiKeyOnlyScope lib db (keyRequest apiKey environment authorization) =
      headerScope lib db apiKey environment := by
  have noId : environmentIdFromUuidHeader lib (keyRequest apiKey environment authorization) =
      .ok none := rfl
  rw [apiKeyOnlyScope, ApiKeyOnlyContext.fromRequestParts, noId, keyRequest_apiKey, headerScope]
  by_cases key : IsVisible apiKey ∧ trim apiKey ≠ ""
  · rw [if_pos key]
    refine (apiKeyContext_eq (trim apiKey) apiKey environment authorization).trans ?_
    simp only [key, true_and, ne_eq, not_false_eq_true]
  · rw [if_neg key, if_neg (fun valid => key ⟨valid.1, valid.2.1⟩)]
    rfl

theorem authScope_eq (apiKey environment : String) (authorization : Option HeaderValue) :
    authScope lib db (keyRequest apiKey environment authorization) =
      headerScope lib db apiKey environment := by
  rw [← apiKeyOnlyScope_eq apiKey environment authorization]
  have noId : environmentIdFromUuidHeader lib (keyRequest apiKey environment authorization) =
      .ok none := rfl
  rw [authScope, apiKeyOnlyScope, AuthContext.fromRequestParts, ApiKeyOnlyContext.fromRequestParts,
    noId]
  cases headerText (keyRequest apiKey environment authorization).apiKey with
  | none => rfl
  | some apiKeyPlain =>
    simp only [bind, Except.bind]
    cases apiKeyContext lib db (keyRequest apiKey environment authorization) none apiKeyPlain <;> rfl

/-- The gRPC check finds a scope. -/
def HasScope (lib : Libraries) (db : UsersDatabase) (apiKey environment : String) : Prop :=
  trim apiKey ≠ "" ∧ IsEnvironment (toLowercase (trim environment)) ∧
    ∃ key ∈ db.apiKeys, key.keyHash = lib.hashApiKey (trim apiKey) ∧ key.Usable ∧
      ∃ e ∈ db.environments, e.businessId = key.businessId ∧
        e.type = toLowercase (trim environment) ∧ e.status = "active"

theorem lookupScope_some_iff (one : db.OneActive) (apiKeyPlain environment : String) :
    lookupScope lib db apiKeyPlain environment ≠ none ↔
      ∃ key ∈ db.apiKeys, key.keyHash = lib.hashApiKey apiKeyPlain ∧ key.Usable ∧
        ∃ e ∈ db.environments, e.businessId = key.businessId ∧ e.type = environment ∧
          e.status = "active" := by
  have environments : ∀ businessId, db.activeEnvironmentOfType businessId environment ≠ none ↔
      ∃ e ∈ db.environments, e.businessId = businessId ∧ e.type = environment ∧
        e.status = "active" := by
    intro businessId
    rw [← Option.isSome_iff_ne_none, UsersDatabase.activeEnvironmentOfType, List.find?_isSome]
    simp [and_assoc]
  constructor
  · intro some_
    cases found : db.apiKeyByHash (lib.hashApiKey apiKeyPlain) with
    | none => simp [lookupScope, found] at some_
    | some key =>
      have row : Table.find ApiKeyRow.keyHash (lib.hashApiKey apiKeyPlain) db.apiKeys = some key :=
        found
      obtain ⟨stored, hash⟩ := Table.find_some row
      by_cases usable : key.Usable
      · refine ⟨key, stored, hash, usable, (environments _).mp ?_⟩
        intro none_
        simp [lookupScope, found, usable, none_] at some_
      · simp [lookupScope, found, usable] at some_
  · rintro ⟨key, stored, hash, usable, active⟩
    have found : db.apiKeyByHash (lib.hashApiKey apiKeyPlain) = some key := hash ▸
      one.keyHashes.find stored
    have there := (environments key.businessId).mpr active
    simp [lookupScope, found, usable, there]

/-- The three paths agree on a key and an environment if and only if both are such as a
header can carry, and the environment is in lower case, or there is no scope anyway. -/
theorem apiKey_scopes_agree_iff (lib : Libraries) {auth only grpc : UsersDatabase}
    (one : grpc.OneActive) (first : grpc.SameRows auth) (second : grpc.SameRows only)
    (apiKey environment : String) (authorization : Option HeaderValue) :
    (authScope lib auth (keyRequest apiKey environment authorization) =
        (grpcScope lib grpc apiKey environment).toOption ∧
      apiKeyOnlyScope lib only (keyRequest apiKey environment authorization) =
        (grpcScope lib grpc apiKey environment).toOption) ↔
      (HasScope lib grpc apiKey environment →
        IsVisible apiKey ∧ IsVisible environment ∧ IsEnvironment (trim environment)) := by
  have headers : ∀ db, grpc.SameRows db →
      headerScope lib db apiKey environment = headerScope lib grpc apiKey environment := by
    intro db same
    rw [headerScope, headerScope, lookupScope_sameRows one same]
  rw [authScope_eq, apiKeyOnlyScope_eq, headers auth first, headers only second, and_self,
    grpcScope_eq]
  by_cases carried : IsVisible apiKey ∧ IsVisible environment ∧ IsEnvironment (trim environment)
  · refine iff_of_true ?_ (fun _ => carried)
    obtain ⟨key, visible, named⟩ := carried
    simp only [headerScope, key, visible, named, toLowercase_environment named, true_and, and_true]
  · have none_ : headerScope lib grpc apiKey environment = none :=
      if_neg fun valid => carried ⟨valid.1, valid.2.2.1, valid.2.2.2⟩
    rw [none_]
    constructor
    · intro agree scope
      obtain ⟨key, named, rows⟩ := scope
      rw [if_pos ⟨key, named⟩] at agree
      exact absurd agree.symm ((lookupScope_some_iff one _ _).mpr rows)
    · intro covered
      symm
      by_cases valid : trim apiKey ≠ "" ∧ IsEnvironment (toLowercase (trim environment))
      · rw [if_pos valid]
        by_contra some_
        exact carried (covered ⟨valid.1, valid.2, (lookupScope_some_iff one _ _).mp some_⟩)
      · exact if_neg valid

/-- A business with an active sandbox and a key. -/
def oneKey : UsersDatabase :=
  ⟨[⟨⟨5⟩, ⟨1⟩, "sandbox", "active"⟩], [],
    [⟨⟨6⟩, ⟨1⟩, sampleLibraries.hashApiKey "key", "active", none⟩]⟩

theorem oneKey_oneActive : oneKey.OneActive := by
  constructor
  · exact List.nodup_singleton _
  · decide

theorem apiKey_scopes_agree_iff_sandbox :
    (grpcScope sampleLibraries oneKey " key " "sandbox").toOption = some (⟨1⟩, ⟨5⟩) ∧
    ((authScope sampleLibraries oneKey (keyRequest " key " "sandbox" none) =
        (grpcScope sampleLibraries oneKey " key " "sandbox").toOption ∧
      apiKeyOnlyScope sampleLibraries oneKey (keyRequest " key " "sandbox" none) =
        (grpcScope sampleLibraries oneKey " key " "sandbox").toOption) ↔
      (HasScope sampleLibraries oneKey " key " "sandbox" →
        IsVisible " key " ∧ IsVisible "sandbox" ∧ IsEnvironment (trim "sandbox"))) :=
  ⟨by decide +kernel, apiKey_scopes_agree_iff sampleLibraries oneKey_oneActive
    ⟨.refl _, .refl _⟩ ⟨.refl _, .refl _⟩ " key " "sandbox" none⟩

/-- The gRPC check accepts `SANDBOX`, and the extractors do not. -/
theorem upper_case_environment_differs : ¬ ∀ (lib : Libraries) (db : UsersDatabase)
    (apiKey environment : String), db.OneActive →
    authScope lib db (keyRequest apiKey environment none) =
      (grpcScope lib db apiKey environment).toOption ∧
    apiKeyOnlyScope lib db (keyRequest apiKey environment none) =
      (grpcScope lib db apiKey environment).toOption := by
  intro claim
  have accepted : (grpcScope sampleLibraries oneKey "key" "SANDBOX").toOption = some (⟨1⟩, ⟨5⟩) := by
    decide +kernel
  have refused : authScope sampleLibraries oneKey (keyRequest "key" "SANDBOX" none) = none := by
    decide +kernel
  have agree := (claim sampleLibraries oneKey "key" "SANDBOX" oneKey_oneActive).1
  rw [accepted, refused] at agree
  exact nomatch agree

end RailsCore.UsersService

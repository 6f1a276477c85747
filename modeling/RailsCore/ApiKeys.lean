import RailsCore.AuthContexts
import RailsCore.Machine

/-!
# The life of an API key

The three routes for API keys, cut at their statements, any number of requests
interleaved with each other, with authentication and with any other writes to
users and environments. Each statement on `api_keys` is a transaction of its
own. A statement may fail before or after it has taken effect: `heard` says
whether its result came back. The context of a request is whatever its caller
was accepted with, at any time before.
-/

namespace RailsCore.UsersService

/-- A row of `users` with the column that the key routes read. -/
structure StaffRow extends UserRow where
  role : String
deriving DecidableEq, Repr

/-- A row of `api_keys` with all its columns. -/
structure StoredApiKey extends ApiKeyRow where
  environmentId : Option Uuid
  lastUsedAt : Option Nat
  createdAt : Nat
  createdByUserId : Option Uuid
deriving DecidableEq, Repr

structure KeyDatabase where
  environments : List EnvironmentRow
  users : List StaffRow
  apiKeys : List StoredApiKey
deriving DecidableEq, Repr

namespace KeyDatabase

/-- What authentication reads. -/
def rows (db : KeyDatabase) : UsersDatabase where
  environments := db.environments
  users := db.users.map StaffRow.toUserRow
  apiKeys := db.apiKeys.map StoredApiKey.toApiKeyRow

/-- The primary key, the unique index on the hash, and the foreign keys of a new row. -/
def admits (db : KeyDatabase) (row : StoredApiKey) : Bool :=
  db.apiKeys.all (fun k => k.id ≠ row.id && k.keyHash ≠ row.keyHash) &&
    row.environmentId.all (fun id => db.environments.any (fun e => e.id = id)) &&
    row.createdByUserId.all (fun id => db.users.any (fun u => u.id = id))

/-- What the two unique indexes of `api_keys` promise. -/
def Indexed (db : KeyDatabase) : Prop :=
  Table.Unique (fun k : StoredApiKey => k.id) db.apiKeys ∧
    Table.Unique (fun k : StoredApiKey => k.keyHash) db.apiKeys

instance (db : KeyDatabase) : Decidable db.Indexed := inferInstanceAs (Decidable (_ ∧ _))

end KeyDatabase

structure CreateApiKeyResponse where
  id : Uuid
  key : String
  status : String
deriving DecidableEq, Repr

structure ApiKeyInfo where
  id : Uuid
  businessId : Uuid
  environmentId : Option Uuid
  status : String
  lastUsedAt : Option Nat
  createdAt : Nat
  revokedAt : Option Nat
  createdByUserId : Option Uuid
deriving DecidableEq, Repr

def ApiKeyInfo.ofRow (row : StoredApiKey) : ApiKeyInfo where
  id := row.id
  businessId := row.businessId
  environmentId := row.environmentId
  status := row.status
  lastUsedAt := row.lastUsedAt
  createdAt := row.createdAt
  revokedAt := row.revokedAt
  createdByUserId := row.createdByUserId

/-! The plain text of a key -/

def base64UrlAlphabet : List Char :=
  "ABCDEFGHIJKLMNOPQRSTUVWXYZabcdefghijklmnopqrstuvwxyz0123456789-_".toList

def base64UrlDigit (n : Nat) : Char := base64UrlAlphabet.getD n 'A'

/-- `URL_SAFE_NO_PAD.encode`. -/
def encodeBase64Url : List UInt8 → List Char
  | [] => []
  | [a] =>
    let n := a.toNat * 16
    [n / 64, n % 64].map base64UrlDigit
  | [a, b] =>
    let n := (a.toNat * 256 + b.toNat) * 4
    [n / 4096, n / 64 % 64, n % 64].map base64UrlDigit
  | a :: b :: c :: rest =>
    let n := (a.toNat * 256 + b.toNat) * 256 + c.toNat
    [n / 262144, n / 4096 % 64, n / 64 % 64, n % 64].map base64UrlDigit ++ encodeBase64Url rest

def apiKeyPlain (raw : Vector UInt8 32) : String := String.ofList (encodeBase64Url raw.toList)

/-! The requests -/

inductive ApiKeyRoute where
  | create (environmentId : Option Uuid)
  | list
  | revoke (apiKeyId : Uuid)
deriving DecidableEq, Repr

inductive ApiKeyReply where
  | key (body : CreateApiKeyResponse)
  | keys (body : List ApiKeyInfo)
deriving DecidableEq, Repr

/-- The statement that a request is about to send, or its answer. -/
inductive ApiKeyPoint where
  | role
  | environment (environmentId : Uuid)
  | statement
  | done (result : Except AppError ApiKeyReply)
deriving DecidableEq, Repr

structure ApiKeyRequest where
  ctx : AuthContext
  route : ApiKeyRoute
  point : ApiKeyPoint
deriving DecidableEq, Repr

/-- What a statement is sent with, and for a select without a full order what it returns. -/
inductive ApiKeyInput where
  | go
  | listed (rows : List StoredApiKey)
  | insert (id : Uuid) (raw : Vector UInt8 32) (now : Nat) (heard : Bool)
  | update (now : Nat) (heard : Bool)
  | fail
deriving DecidableEq, Repr

/-- The check that the three routes begin with. -/
def adminUser (db : KeyDatabase) (ctx : AuthContext) : Except AppError Uuid :=
  match ctx.userId with
  | none => .error .forbidden
  | some requestUserId =>
    let selected := db.users.find? (fun u =>
      u.id = requestUserId && u.environmentId = ctx.environmentId && u.status = "active")
    match selected with
    | none => .error .forbidden
    | some row => if row.role ≠ "admin" then .error .forbidden else .ok requestUserId

def newApiKey (ctx : AuthContext) (environmentId : Option Uuid) (id : Uuid) (keyHash : String)
    (now : Nat) : StoredApiKey where
  id := id
  businessId := ctx.businessId
  keyHash := keyHash
  status := "active"
  revokedAt := none
  environmentId := environmentId
  lastUsedAt := none
  createdAt := now
  createdByUserId := ctx.userId

/-- The rows that the update of a revocation selects. -/
def selectsForRevocation (apiKeyId businessId : Uuid) (row : StoredApiKey) : Bool :=
  row.id = apiKeyId && row.businessId = businessId && row.status = "active"

def StoredApiKey.revoked (now : Nat) (row : StoredApiKey) : StoredApiKey :=
  { row with status := "revoked", revokedAt := some now }

def answer (heard : Bool) (body : CreateApiKeyResponse) : ApiKeyPoint :=
  if heard then .done (.ok (.key body)) else .done (.error .internal)

/-- `WHERE business_id = $1 ORDER BY created_at DESC`, in one of the orders that this leaves. -/
def IsListing (db : KeyDatabase) (businessId : Uuid) (rows : List StoredApiKey) : Prop :=
  rows.Perm (db.apiKeys.filter (fun k => k.businessId = businessId)) ∧
    rows.Pairwise (fun a b => b.createdAt ≤ a.createdAt)

instance (db : KeyDatabase) (businessId : Uuid) (rows : List StoredApiKey) :
    Decidable (IsListing db businessId rows) := inferInstanceAs (Decidable (_ ∧ _))

/-- One statement of `create_api_key_inner`, `list_api_keys` or `revoke_api_key_inner`: the
rows of `api_keys` after it, and where the request is then. -/
def ApiKeyRequest.next (lib : Libraries) (db : KeyDatabase) (q : ApiKeyRequest)
    (input : ApiKeyInput) : Option (List StoredApiKey × ApiKeyPoint) :=
  match q.point, input with
  | .role, .go =>
    match adminUser db q.ctx, q.route with
    | .error e, _ => some (db.apiKeys, .done (.error e))
    | .ok _, .create (some environmentId) => some (db.apiKeys, .environment environmentId)
    | .ok _, _ => some (db.apiKeys, .statement)
  | .environment environmentId, .go =>
    if db.rows.hasActiveEnvironment environmentId q.ctx.businessId then
      some (db.apiKeys, .statement)
    else some (db.apiKeys, .done (.error (.badRequest "Invalid environment_id")))
  | .statement, .insert id raw now heard =>
    match q.route with
    | .create environmentId =>
      let keyHash := lib.hashApiKey (apiKeyPlain raw)
      let row := newApiKey q.ctx environmentId id keyHash now
      if db.admits row then
        some (db.apiKeys ++ [row], answer heard ⟨id, apiKeyPlain raw, "active"⟩)
      else some (db.apiKeys, .done (.error .internal))
    | _ => none
  | .statement, .listed rows =>
    if q.route = .list ∧ IsListing db q.ctx.businessId rows then
      some (db.apiKeys, .done (.ok (.keys (rows.map ApiKeyInfo.ofRow))))
    else none
  | .statement, .update now heard =>
    match q.route with
    | .revoke apiKeyId =>
      let selects := selectsForRevocation apiKeyId q.ctx.businessId
      if db.apiKeys.any selects then
        some (Table.updateWhere selects (StoredApiKey.revoked now) db.apiKeys,
          answer heard ⟨apiKeyId, "", "revoked"⟩)
      else
        some (db.apiKeys, .done (.error (.badRequest "API key not found or already revoked")))
    | _ => none
  | .role, .fail =>
    -- without a user nothing is asked of the database
    if q.ctx.userId.isSome then some (db.apiKeys, .done (.error .internal)) else none
  | .environment _, .fail | .statement, .fail => some (db.apiKeys, .done (.error .internal))
  | _, _ => none

structure ApiKeys where
  db : KeyDatabase
  requests : List ApiKeyRequest
deriving DecidableEq, Repr

inductive ApiKeyAction where
  | receive (ctx : AuthContext) (route : ApiKeyRoute)
  | run (i : Nat) (input : ApiKeyInput)
  /-- The update of `last_used_at` with which an authentication ends. -/
  | use (apiKeyId : Uuid) (now : Nat)
  /-- Whatever else is written to the other two tables. -/
  | others (environments : List EnvironmentRow) (users : List StaffRow)
deriving DecidableEq, Repr

def ApiKeys.step (lib : Libraries) (s : ApiKeys) : ApiKeyAction → Option ApiKeys
  | .receive ctx route => some { s with requests := s.requests ++ [⟨ctx, route, .role⟩] }
  | .run i input => do
    let q ← s.requests[i]?
    let (apiKeys, point) ← q.next lib s.db input
    some { db := { s.db with apiKeys }, requests := s.requests.set i { q with point } }
  | .use apiKeyId now =>
    let apiKeys := Table.updateWhere (fun k : StoredApiKey => k.id = apiKeyId)
      (fun k => { k with lastUsedAt := some now }) s.db.apiKeys
    some { s with db := { s.db with apiKeys } }
  | .others environments users => some { s with db := { s.db with environments, users } }

/-! ## The plain text of a key -/

theorem base64UrlDigit_mem (n : Nat) : base64UrlDigit n ∈ base64UrlAlphabet := by
  rw [base64UrlDigit, List.getD_eq_getElem?_getD]
  cases digit : base64UrlAlphabet[n]? with
  | none => decide
  | some c => exact List.mem_of_getElem? digit

theorem encodeBase64Url_mem {bytes : List UInt8} {c : Char} (h : c ∈ encodeBase64Url bytes) :
    c ∈ base64UrlAlphabet := by
  have digits : ∀ ns : List Nat, c ∈ ns.map base64UrlDigit → c ∈ base64UrlAlphabet := by
    intro ns inside
    obtain ⟨n, -, rfl⟩ := List.mem_map.mp inside
    exact base64UrlDigit_mem n
  induction bytes using encodeBase64Url.induct with
  | case1 => exact absurd h List.not_mem_nil
  | case2 a => exact digits _ h
  | case3 a b => exact digits _ h
  | case4 a b d rest ih =>
    rw [encodeBase64Url] at h
    rcases List.mem_append.mp h with first | later
    · exact digits _ first
    · exact ih later

theorem base64UrlAlphabet_plain :
    ∀ c ∈ base64UrlAlphabet, (32 ≤ c.toNat ∧ c.toNat < 127) ∧ isBlankChar c = false := by
  have plain : base64UrlAlphabet.all (fun c =>
      decide (32 ≤ c.toNat) && decide (c.toNat < 127) && !isBlankChar c) = true := by
    decide +kernel
  intro c hc
  simpa using List.all_eq_true.mp plain c hc

/-- A key survives its way through a header. -/
theorem headerText_apiKeyPlain (raw : Vector UInt8 32) :
    headerText (some (headerOf (apiKeyPlain raw))) = some (apiKeyPlain raw) := by
  have plain : ∀ c ∈ (apiKeyPlain raw).toList,
      (32 ≤ c.toNat ∧ c.toNat < 127) ∧ isBlankChar c = false := by
    intro c inside
    rw [apiKeyPlain, String.toList_ofList] at inside
    exact base64UrlAlphabet_plain c (encodeBase64Url_mem inside)
  have visible : IsVisible (apiKeyPlain raw) := fun c inside => .inl (plain c inside).1
  have whole : trim (apiKeyPlain raw) = apiKeyPlain raw :=
    trim_eq_self fun c inside => (plain c inside).2
  have some_ : apiKeyPlain raw ≠ "" := by
    intro empty
    have none_ : encodeBase64Url raw.toList = [] := by
      rw [← String.toList_ofList (l := encodeBase64Url raw.toList)]
      exact String.toList_inj.mpr empty
    have length := raw.length_toList
    cases bytes : raw.toList with
    | nil =>
      rw [bytes] at length
      cases length
    | cons a rest =>
      rw [bytes] at none_
      rcases rest with _ | ⟨b, _ | ⟨c, rest⟩⟩ <;> cases none_
  rw [headerText_headerOf, whole, if_pos ⟨visible, some_⟩]

/-! ## What a statement does -/

/-- The statements of a request, told apart by what they do to `api_keys`. -/
inductive KeyMove (lib : Libraries) (db : KeyDatabase) (q : ApiKeyRequest) :
    List StoredApiKey → ApiKeyPoint → Prop where
  | allow {userId : Uuid} {point : ApiKeyPoint} (here : q.point = .role)
      (admin : adminUser db q.ctx = .ok userId)
      (acts : point = .statement ∧ (∀ environmentId, q.route ≠ .create (some environmentId)) ∨
        ∃ environmentId, point = .environment environmentId ∧
          q.route = .create (some environmentId)) :
      KeyMove lib db q db.apiKeys point
  | environment {environmentId : Uuid} (here : q.point = .environment environmentId)
      (active : WellScoped db.rows q.ctx.businessId environmentId) :
      KeyMove lib db q db.apiKeys .statement
  | refuse (e : AppError) : KeyMove lib db q db.apiKeys (.done (.error e))
  | insert {environmentId : Option Uuid} {id : Uuid} {raw : Vector UInt8 32} {now : Nat}
      {heard : Bool} (here : q.point = .statement) (route : q.route = .create environmentId)
      (admits : db.admits
        (newApiKey q.ctx environmentId id (lib.hashApiKey (apiKeyPlain raw)) now) = true) :
      KeyMove lib db q
        (db.apiKeys ++ [newApiKey q.ctx environmentId id (lib.hashApiKey (apiKeyPlain raw)) now])
        (answer heard ⟨id, apiKeyPlain raw, "active"⟩)
  | list {rows : List StoredApiKey} (here : q.point = .statement) (route : q.route = .list)
      (listing : IsListing db q.ctx.businessId rows) :
      KeyMove lib db q db.apiKeys (.done (.ok (.keys (rows.map ApiKeyInfo.ofRow))))
  | revoke {apiKeyId : Uuid} {now : Nat} {heard : Bool} (here : q.point = .statement)
      (route : q.route = .revoke apiKeyId)
      (hit : db.apiKeys.any (selectsForRevocation apiKeyId q.ctx.businessId) = true) :
      KeyMove lib db q
        (Table.updateWhere (selectsForRevocation apiKeyId q.ctx.businessId)
          (StoredApiKey.revoked now) db.apiKeys)
        (answer heard ⟨apiKeyId, "", "revoked"⟩)

variable {lib : Libraries} {db : KeyDatabase} {q : ApiKeyRequest}

theorem ApiKeyRequest.next_move {input : ApiKeyInput} {apiKeys : List StoredApiKey}
    {point : ApiKeyPoint} (h : q.next lib db input = some (apiKeys, point)) :
    KeyMove lib db q apiKeys point := by
  unfold ApiKeyRequest.next at h
  split at h
  · rename_i here
    split at h
    · cases h
      exact .refuse _
    · rename_i admin route
      cases h
      exact .allow here admin (.inr ⟨_, rfl, route⟩)
    · rename_i admin other
      cases h
      exact .allow here admin (.inl ⟨rfl, fun e route => other e route⟩)
  · rename_i here
    split at h
    · rename_i active
      cases h
      exact .environment here (hasActiveEnvironment_iff.mp active)
    · cases h
      exact .refuse _
  · rename_i here
    split at h
    · rename_i route
      dsimp only at h
      split at h
      · rename_i admits
        cases h
        exact .insert here route admits
      · cases h
        exact .refuse _
    · cases h
  · rename_i here
    split at h
    · rename_i listing
      cases h
      exact .list here listing.1 listing.2
    · cases h
  · rename_i here
    split at h
    · rename_i route
      dsimp only at h
      split at h
      · rename_i hit
        cases h
        exact .revoke here route hit
      · cases h
        exact .refuse _
    · cases h
  · split at h
    · cases h
      exact .refuse _
    · cases h
  · cases h
    exact .refuse _
  · cases h
    exact .refuse _
  · cases h

/-! ## What a row keeps -/

/-- The same key, later: its columns but the status and the times of revocation and last use. -/
structure StoredApiKey.Keeps (key key' : StoredApiKey) : Prop where
  id : key'.id = key.id
  businessId : key'.businessId = key.businessId
  keyHash : key'.keyHash = key.keyHash
  environmentId : key'.environmentId = key.environmentId
  createdAt : key'.createdAt = key.createdAt
  createdByUserId : key'.createdByUserId = key.createdByUserId
  /-- There is no way back from a revocation. -/
  usable : key'.Usable → key.Usable
  status : key.status = "revoked" → key'.status = "revoked"

theorem StoredApiKey.Keeps.refl (key : StoredApiKey) : key.Keeps key :=
  ⟨rfl, rfl, rfl, rfl, rfl, rfl, fun usable => usable, fun revoked => revoked⟩

theorem StoredApiKey.Keeps.trans {a b c : StoredApiKey} (first : a.Keeps b) (second : b.Keeps c) :
    a.Keeps c :=
  ⟨second.id.trans first.id, second.businessId.trans first.businessId,
    second.keyHash.trans first.keyHash, second.environmentId.trans first.environmentId,
    second.createdAt.trans first.createdAt, second.createdByUserId.trans first.createdByUserId,
    first.usable ∘ second.usable, second.status ∘ first.status⟩

theorem StoredApiKey.keeps_revoked (now : Nat) (key : StoredApiKey) : key.Keeps (key.revoked now) :=
  ⟨rfl, rfl, rfl, rfl, rfl, rfl, fun usable => absurd usable.2 (Option.some_ne_none now),
    fun _ => rfl⟩

theorem StoredApiKey.keeps_used (now : Nat) (key : StoredApiKey) :
    key.Keeps { key with lastUsedAt := some now } :=
  ⟨rfl, rfl, rfl, rfl, rfl, rfl, fun usable => usable, fun revoked => revoked⟩

/-- The request may have revoked the key: its update was answered, or the answer was lost. -/
def ApiKeyRequest.MayHaveRevoked (q : ApiKeyRequest) (apiKeyId : Uuid) : Prop :=
  q.route = .revoke apiKeyId ∧
    ((∃ reply, q.point = .done (.ok reply)) ∨ q.point = .done (.error .internal))

theorem answer_cases (heard : Bool) (body : CreateApiKeyResponse) :
    answer heard body = .done (.ok (.key body)) ∨ answer heard body = .done (.error .internal) := by
  cases heard with
  | true => exact .inl rfl
  | false => exact .inr rfl

/-- Every key stays, and one that is no longer usable was revoked by the request. -/
theorem KeyMove.keeps {apiKeys : List StoredApiKey} {point : ApiKeyPoint}
    (move : KeyMove lib db q apiKeys point) {key : StoredApiKey} (stored : key ∈ db.apiKeys) :
    ∃ key' ∈ apiKeys, key.Keeps key' ∧ (key.Usable → key'.Usable ∨
      ({ q with point } : ApiKeyRequest).MayHaveRevoked key.id ∧
        q.ctx.businessId = key.businessId) := by
  cases move with
  | allow | environment | refuse | list => exact ⟨key, stored, .refl key, .inl⟩
  | insert => exact ⟨key, List.mem_append_left _ stored, .refl key, .inl⟩
  | @revoke apiKeyId now heard here route hit =>
    by_cases selects : selectsForRevocation apiKeyId q.ctx.businessId key = true
    · refine ⟨key.revoked now, Table.mem_updateWhere.mpr ⟨key, stored, (if_pos selects).symm⟩,
        key.keeps_revoked now, fun _ => .inr ?_⟩
      simp only [selectsForRevocation, Bool.and_eq_true, decide_eq_true_eq] at selects
      obtain ⟨⟨rfl, owner⟩, -⟩ := selects
      refine ⟨⟨route, ?_⟩, owner.symm⟩
      rcases answer_cases heard ⟨key.id, "", "revoked"⟩ with told | lost
      · exact .inl ⟨_, told⟩
      · exact .inr lost
    · exact ⟨key, Table.mem_updateWhere.mpr ⟨key, stored, (if_neg selects).symm⟩, .refl key, .inl⟩

/-- Both unique indexes stay unique. -/
theorem KeyMove.unique {apiKeys : List StoredApiKey} {point : ApiKeyPoint}
    (move : KeyMove lib db q apiKeys point)
    (ids : Table.Unique (fun k : StoredApiKey => k.id) db.apiKeys)
    (hashes : Table.Unique (fun k : StoredApiKey => k.keyHash) db.apiKeys) :
    Table.Unique (fun k : StoredApiKey => k.id) apiKeys ∧
      Table.Unique (fun k : StoredApiKey => k.keyHash) apiKeys := by
  cases move with
  | allow | environment | refuse | list => exact ⟨ids, hashes⟩
  | insert here route admits =>
    simp only [KeyDatabase.admits, Bool.and_eq_true, List.all_eq_true, decide_eq_true_eq] at admits
    exact ⟨ids.insert fun k stored => (admits.1.1 k stored).1,
      hashes.insert fun k stored => (admits.1.1 k stored).2⟩
  | revoke => exact ⟨ids.updateWhere fun _ => rfl, hashes.updateWhere fun _ => rfl⟩

end RailsCore.UsersService

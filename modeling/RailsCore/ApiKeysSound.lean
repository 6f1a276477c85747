import RailsCore.ApiKeys

/-!
# What the key routes promise over a whole run

A key that a request was told of opens its business until it is revoked, a key
that a request was told is revoked opens nothing any more, and what happens to
the keys of a business is the doing of its own administrators.
-/

namespace RailsCore.UsersService

variable {lib : Libraries} {db : KeyDatabase} {q : ApiKeyRequest}

/-! ## What the answers say -/

namespace ApiKeyRequest

/-- The request was told of a new key. -/
def Created (q : ApiKeyRequest) (environmentId : Option Uuid) (body : CreateApiKeyResponse) :
    Prop :=
  q.route = .create environmentId ∧ q.point = .done (.ok (.key body))

/-- The request was told that the key is revoked. -/
def Revoked (q : ApiKeyRequest) (apiKeyId : Uuid) : Prop :=
  q.route = .revoke apiKeyId ∧ ∃ reply, q.point = .done (.ok reply)

/-- A request that was told anything does nothing any more. -/
theorem next_done {result : Except AppError ApiKeyReply} (told : q.point = .done result)
    (input : ApiKeyInput) : q.next lib db input = none := by
  unfold ApiKeyRequest.next
  rw [told]

end ApiKeyRequest

/-- The row of a key that a request was told of. -/
structure IsRowOf (lib : Libraries) (q : ApiKeyRequest) (environmentId : Option Uuid)
    (body : CreateApiKeyResponse) (key : StoredApiKey) : Prop where
  id : key.id = body.id
  businessId : key.businessId = q.ctx.businessId
  keyHash : key.keyHash = lib.hashApiKey body.key
  environmentId : key.environmentId = environmentId
  createdByUserId : key.createdByUserId = q.ctx.userId
  plain : ∃ raw, body.key = apiKeyPlain raw

theorem IsRowOf.keeps {environmentId : Option Uuid} {body : CreateApiKeyResponse}
    {key key' : StoredApiKey} (row : IsRowOf lib q environmentId body key)
    (keeps : key.Keeps key') :
    IsRowOf lib q environmentId body key' :=
  ⟨keeps.id.trans row.id, keeps.businessId.trans row.businessId, keeps.keyHash.trans row.keyHash,
    keeps.environmentId.trans row.environmentId,
    keeps.createdByUserId.trans row.createdByUserId, row.plain⟩

theorem KeyMove.created {apiKeys : List StoredApiKey} {point : ApiKeyPoint}
    (move : KeyMove lib db q apiKeys point) {environmentId : Option Uuid}
    {body : CreateApiKeyResponse}
    (told : ({ q with point } : ApiKeyRequest).Created environmentId body) :
    ∃ key ∈ apiKeys, IsRowOf lib q environmentId body key ∧ key.Usable := by
  obtain ⟨route, told⟩ := told
  dsimp only at route told
  cases move with
  | allow here admin acts => rcases acts with ⟨rfl, -⟩ | ⟨e, rfl, -⟩ <;> cases told
  | environment | refuse => cases told
  | list => cases told
  | @insert asked id raw now heard here route' admits =>
    cases heard with
    | false => cases told
    | true =>
      cases told
      cases route'.symm.trans route
      exact ⟨_, List.mem_append_right _ (List.mem_singleton.mpr rfl),
        ⟨rfl, rfl, rfl, rfl, rfl, raw, rfl⟩, rfl, rfl⟩
  | revoke here route' => cases route'.symm.trans route

theorem KeyMove.revoked {apiKeys : List StoredApiKey} {point : ApiKeyPoint}
    (move : KeyMove lib db q apiKeys point) {apiKeyId : Uuid}
    (told : ({ q with point } : ApiKeyRequest).Revoked apiKeyId) :
    (∃ key ∈ db.apiKeys, key.id = apiKeyId ∧ key.status = "active") ∧
      ∃ key ∈ apiKeys, key.id = apiKeyId ∧ key.businessId = q.ctx.businessId ∧
        key.status = "revoked" := by
  obtain ⟨route, reply, told⟩ := told
  dsimp only at route told
  cases move with
  | allow here admin acts => rcases acts with ⟨rfl, -⟩ | ⟨e, rfl, -⟩ <;> cases told
  | environment | refuse => cases told
  | insert here route' => cases route'.symm.trans route
  | list here route' => cases route'.symm.trans route
  | @revoke asked now heard here route' hit =>
    cases route'.symm.trans route
    obtain ⟨key, stored, selects⟩ := List.any_eq_true.mp hit
    have row : key.id = apiKeyId ∧ key.businessId = q.ctx.businessId ∧ key.status = "active" := by
      simpa only [selectsForRevocation, Bool.and_eq_true, decide_eq_true_eq, and_assoc]
        using selects
    exact ⟨⟨key, stored, row.1, row.2.2⟩, key.revoked now,
      Table.mem_updateWhere.mpr ⟨key, stored, (if_pos selects).symm⟩, row.1, row.2.1, rfl⟩

/-- The request may have inserted the key: it was told of it, or the answer was lost. -/
def ApiKeyRequest.MayHaveInserted (lib : Libraries) (q : ApiKeyRequest) (key : StoredApiKey) :
    Prop :=
  q.route = .create key.environmentId ∧ q.ctx.businessId = key.businessId ∧
    q.ctx.userId = key.createdByUserId ∧
    ((∃ body, q.point = .done (.ok (.key body)) ∧ IsRowOf lib q key.environmentId body key) ∨
      q.point = .done (.error .internal))

/-- A new key is one that the request has just inserted, and one that it has changed is one that
it has just revoked. -/
theorem KeyMove.source {apiKeys : List StoredApiKey} {point : ApiKeyPoint}
    (move : KeyMove lib db q apiKeys point) {key' : StoredApiKey} (stored : key' ∈ apiKeys) :
    (∃ key ∈ db.apiKeys, key.Keeps key' ∧ (key' = key ∨ q.point = .statement ∧
      ({ q with point } : ApiKeyRequest).MayHaveRevoked key'.id ∧
        q.ctx.businessId = key'.businessId)) ∨
      q.point = .statement ∧ ({ q with point } : ApiKeyRequest).MayHaveInserted lib key' ∧
        key'.Usable := by
  cases move with
  | allow | environment | refuse | list => exact .inl ⟨key', stored, .refl key', .inl rfl⟩
  | @insert environmentId id raw now heard here route admits =>
    rcases List.mem_append.mp stored with old | new
    · exact .inl ⟨key', old, .refl key', .inl rfl⟩
    · cases List.mem_singleton.mp new
      refine .inr ⟨here, ⟨route, rfl, rfl, ?_⟩, rfl, rfl⟩
      rcases answer_cases heard ⟨id, apiKeyPlain raw, "active"⟩ with told | lost
      · exact .inl ⟨_, told, rfl, rfl, rfl, rfl, rfl, raw, rfl⟩
      · exact .inr lost
  | @revoke apiKeyId now heard here route hit =>
    obtain ⟨key, old, rfl⟩ := Table.mem_updateWhere.mp stored
    split_ifs with selects
    · refine .inl ⟨key, old, key.keeps_revoked now, .inr ⟨here, ?_⟩⟩
      simp only [selectsForRevocation, Bool.and_eq_true, decide_eq_true_eq] at selects
      obtain ⟨⟨rfl, owner⟩, -⟩ := selects
      refine ⟨⟨route, ?_⟩, owner.symm⟩
      rcases answer_cases heard ⟨key.id, "", "revoked"⟩ with told | lost
      · exact .inl ⟨_, told⟩
      · exact .inr lost
    · exact .inl ⟨key, old, .refl key, .inl rfl⟩

/-! ## Every run -/

namespace ApiKeys

/-- A request is where it was, or its statement has just run. -/
theorem step_requests {s t : ApiKeys} {a : ApiKeyAction} (taken : s.step lib a = some t) :
    (t.db.apiKeys = s.db.apiKeys ∨ ∃ id now, t.db.apiKeys =
        Table.updateWhere (fun k : StoredApiKey => k.id = id)
          (fun k => { k with lastUsedAt := some now }) s.db.apiKeys) ∧
        (t.requests = s.requests ∨ ∃ ctx route, t.requests = s.requests ++ [⟨ctx, route, .role⟩]) ∨
      ∃ i q point, s.requests[i]? = some q ∧ KeyMove lib s.db q t.db.apiKeys point ∧
        (∀ result, q.point ≠ .done result) ∧ t.requests = s.requests.set i { q with point } := by
  cases a with
  | receive ctx route =>
    cases taken
    exact .inl ⟨.inl rfl, .inr ⟨ctx, route, rfl⟩⟩
  | run i input =>
    obtain ⟨q, at_, taken⟩ := Option.bind_eq_some_iff.mp taken
    obtain ⟨⟨apiKeys, point⟩, next, taken⟩ := Option.bind_eq_some_iff.mp taken
    cases taken
    refine .inr ⟨i, q, point, at_, ApiKeyRequest.next_move next, fun result told => ?_, rfl⟩
    rw [ApiKeyRequest.next_done told] at next
    cases next
  | use id now =>
    cases taken
    exact .inl ⟨.inr ⟨id, now, rfl⟩, .inl rfl⟩
  | others environments users =>
    cases taken
    exact .inl ⟨.inl rfl, .inl rfl⟩

/-- What a request was told stays told. -/
theorem step_told {s t : ApiKeys} {a : ApiKeyAction} (taken : s.step lib a = some t) {i : Nat}
    (at_ : s.requests[i]? = some q) {result : Except AppError ApiKeyReply}
    (told : q.point = .done result) : t.requests[i]? = some q := by
  have inside := (List.getElem?_eq_some_iff.mp at_).1
  rcases step_requests taken with ⟨-, same | ⟨ctx, route, more⟩⟩ |
    ⟨j, r, point, there, -, busy, set⟩
  · rw [same, at_]
  · rw [more, List.getElem?_append_left inside, at_]
  · have apart : j ≠ i := by
      rintro rfl
      cases at_.symm.trans there
      exact busy result told
    rw [set, List.getElem?_set_ne apart, at_]

theorem step_told_mem {s t : ApiKeys} {a : ApiKeyAction} (taken : s.step lib a = some t)
    (listed : q ∈ s.requests) {result : Except AppError ApiKeyReply}
    (told : q.point = .done result) : q ∈ t.requests := by
  obtain ⟨i, at_⟩ := List.mem_iff_getElem?.mp listed
  exact List.mem_of_getElem? (step_told taken at_ told)

theorem MayHaveRevoked.told {apiKeyId : Uuid} (h : q.MayHaveRevoked apiKeyId) :
    ∃ result, q.point = .done result := by
  rcases h.2 with ⟨reply, told⟩ | told
  · exact ⟨_, told⟩
  · exact ⟨_, told⟩

/-- Every key stays, and one that is no longer usable was revoked by a request of its business. -/
theorem step_keeps {s t : ApiKeys} {a : ApiKeyAction} (taken : s.step lib a = some t)
    {key : StoredApiKey} (stored : key ∈ s.db.apiKeys) :
    ∃ key' ∈ t.db.apiKeys, key.Keeps key' ∧ (key.Usable → key'.Usable ∨
      ∃ r ∈ t.requests, r.MayHaveRevoked key.id ∧ r.ctx.businessId = key.businessId) := by
  rcases step_requests taken with ⟨same | ⟨id, now, used⟩, -⟩ | ⟨i, q, point, at_, move, -, set⟩
  · exact ⟨key, same ▸ stored, .refl key, .inl⟩
  · rw [used]
    by_cases own : key.id = id
    · exact ⟨{ key with lastUsedAt := some now },
        Table.mem_updateWhere.mpr ⟨key, stored, (if_pos (decide_eq_true own)).symm⟩,
        key.keeps_used now, .inl⟩
    · exact ⟨key, Table.mem_updateWhere.mpr
        ⟨key, stored, (if_neg (Bool.not_eq_true _ ▸ decide_eq_false own)).symm⟩, .refl key, .inl⟩
  · obtain ⟨key', stored', keeps, lost⟩ := move.keeps stored
    refine ⟨key', stored', keeps, fun usable => (lost usable).imp_right fun revoked => ?_⟩
    refine ⟨{ q with point }, ?_, revoked⟩
    rw [set]
    exact List.mem_set (List.getElem?_eq_some_iff.mp at_).1 _

/-- A request is where it was, has just arrived, or has just made its move. -/
theorem step_source {s t : ApiKeys} {a : ApiKeyAction} (taken : s.step lib a = some t) {j : Nat}
    {r : ApiKeyRequest} (at_ : t.requests[j]? = some r) :
    s.requests[j]? = some r ∨ r.point = .role ∨
      ∃ q point, s.requests[j]? = some q ∧ r = { q with point } ∧
        KeyMove lib s.db q t.db.apiKeys point ∧ t.requests = s.requests.set j r := by
  rcases step_requests taken with ⟨-, same | ⟨ctx, route, more⟩⟩ |
    ⟨i, q, point, there, move, -, set⟩
  · exact .inl (same ▸ at_)
  · rw [more, List.getElem?_append] at at_
    split_ifs at at_
    · exact .inl at_
    · cases List.mem_singleton.mp (List.mem_of_getElem? at_)
      exact .inr (.inl rfl)
  · rw [set] at at_
    rcases Machine.replaced_cases there at_ with ⟨rfl, rfl⟩ | ⟨-, old⟩
    · exact .inr (.inr ⟨q, point, there, rfl, move, set⟩)
    · exact .inl old

/-- A request that was told anything was told it before, or by the move it has just made. -/
theorem told_source {s t : ApiKeys} {a : ApiKeyAction} (taken : s.step lib a = some t) {j : Nat}
    {r : ApiKeyRequest} (at_ : t.requests[j]? = some r) {result : Except AppError ApiKeyReply}
    (told : r.point = .done result) :
    s.requests[j]? = some r ∨ ∃ q point, s.requests[j]? = some q ∧ r = { q with point } ∧
      KeyMove lib s.db q t.db.apiKeys point ∧ t.requests = s.requests.set j r := by
  rcases step_source taken at_ with old | new | moved
  · exact .inl old
  · cases new.symm.trans told
  · exact .inr moved

structure Sound (lib : Libraries) (s : ApiKeys) : Prop where
  ids : Table.Unique (fun k : StoredApiKey => k.id) s.db.apiKeys
  hashes : Table.Unique (fun k : StoredApiKey => k.keyHash) s.db.apiKeys
  created : ∀ q ∈ s.requests, ∀ environmentId body, q.Created environmentId body →
    ∃ key ∈ s.db.apiKeys, IsRowOf lib q environmentId body key ∧ (key.Usable ∨
      ∃ r ∈ s.requests, r.MayHaveRevoked key.id ∧ r.ctx.businessId = key.businessId)
  revoked : ∀ q ∈ s.requests, ∀ id, q.Revoked id →
    ∃ key ∈ s.db.apiKeys, key.id = id ∧ key.businessId = q.ctx.businessId ∧ key.status = "revoked"
  /-- No two requests are told that they have revoked the same key. -/
  once : ∀ (i j : Nat) (q r : ApiKeyRequest) (id : Uuid), s.requests[i]? = some q →
    s.requests[j]? = some r → q.Revoked id → r.Revoked id → i = j

theorem step_unique {s t : ApiKeys} {a : ApiKeyAction} (sound : s.Sound lib)
    (taken : s.step lib a = some t) :
    Table.Unique (fun k : StoredApiKey => k.id) t.db.apiKeys ∧
      Table.Unique (fun k : StoredApiKey => k.keyHash) t.db.apiKeys := by
  rcases step_requests taken with ⟨same | ⟨id, now, used⟩, -⟩ | ⟨i, q, point, -, move, -, -⟩
  · rw [same]
    exact ⟨sound.ids, sound.hashes⟩
  · rw [used]
    exact ⟨sound.ids.updateWhere fun _ => rfl, sound.hashes.updateWhere fun _ => rfl⟩
  · exact move.unique sound.ids sound.hashes

/-- A request that has just revoked a key is the only one that has. -/
theorem Sound.revoked_apart {s : ApiKeys} (sound : s.Sound lib) {apiKeys : List StoredApiKey}
    {point : ApiKeyPoint} (move : KeyMove lib s.db q apiKeys point) {apiKeyId : Uuid}
    (now : ({ q with point } : ApiKeyRequest).Revoked apiKeyId) {r : ApiKeyRequest}
    (listed : r ∈ s.requests) : ¬ r.Revoked apiKeyId := by
  intro before
  obtain ⟨⟨key, stored, same, active⟩, -⟩ := move.revoked now
  obtain ⟨key', stored', same', -, gone⟩ := sound.revoked r listed apiKeyId before
  cases sound.ids.eq stored stored' (same.trans same'.symm)
  rw [active] at gone
  exact absurd gone (by decide)

theorem Sound.step {s t : ApiKeys} {a : ApiKeyAction} (sound : s.Sound lib)
    (taken : s.step lib a = some t) : t.Sound lib := by
  obtain ⟨ids, hashes⟩ := step_unique sound taken
  refine ⟨ids, hashes, ?_, ?_, ?_⟩
  · intro r listed environmentId body created
    obtain ⟨j, at_⟩ := List.mem_iff_getElem?.mp listed
    rcases told_source taken at_ created.2 with old | ⟨q, point, -, rfl, move, -⟩
    · obtain ⟨key, stored, row, usable⟩ :=
        sound.created r (List.mem_of_getElem? old) environmentId body created
      obtain ⟨key', stored', keeps, lost⟩ := step_keeps taken stored
      refine ⟨key', stored', row.keeps keeps, ?_⟩
      rw [keeps.id, keeps.businessId]
      rcases usable with usable | ⟨r', listed', revoked, own⟩
      · exact lost usable
      · obtain ⟨result, told⟩ := MayHaveRevoked.told revoked
        exact .inr ⟨r', step_told_mem taken listed' told, revoked, own⟩
    · obtain ⟨key, stored, row, usable⟩ := move.created created
      exact ⟨key, stored, ⟨row.id, row.businessId, row.keyHash, row.environmentId,
        row.createdByUserId, row.plain⟩, .inl usable⟩
  · intro r listed id revoked
    obtain ⟨reply, told⟩ := revoked.2
    obtain ⟨j, at_⟩ := List.mem_iff_getElem?.mp listed
    rcases told_source taken at_ told with old | ⟨q, point, -, rfl, move, -⟩
    · obtain ⟨key, stored, same, own, gone⟩ := sound.revoked r (List.mem_of_getElem? old) id revoked
      obtain ⟨key', stored', keeps, -⟩ := step_keeps taken stored
      exact ⟨key', stored', keeps.id.trans same, keeps.businessId.trans own, keeps.status gone⟩
    · exact (move.revoked revoked).2
  · intro i j q r id first second revoked revoked'
    obtain ⟨reply, told⟩ := revoked.2
    obtain ⟨reply', told'⟩ := revoked'.2
    rcases told_source taken first told with old | ⟨q₀, point, -, rfl, move, set⟩
    · rcases told_source taken second told' with old' | ⟨r₀, point, there, rfl, move, set⟩
      · exact sound.once i j q r id old old' revoked revoked'
      · exact absurd revoked (sound.revoked_apart move revoked' (List.mem_of_getElem? old))
    · by_contra apart
      rw [set, List.getElem?_set_ne apart] at second
      exact sound.revoked_apart move revoked (List.mem_of_getElem? second) revoked'

/-- Before the first request, over any keys that the unique indexes allow. -/
def start (db : KeyDatabase) : ApiKeys := ⟨db, []⟩

theorem Sound.start {db : KeyDatabase} (indexed : db.Indexed) : (start db).Sound lib := by
  refine ⟨indexed.1, indexed.2, ?_, ?_, ?_⟩
  · intro q listed
    cases listed
  · intro q listed
    cases listed
  · intro i j q r id first
    cases first

theorem Sound.run {db : KeyDatabase} (indexed : db.Indexed) {as : List ApiKeyAction} {t : ApiKeys}
    (h : Machine.run (ApiKeys.step lib) (ApiKeys.start db) as = some t) : t.Sound lib :=
  Machine.invariant_run (fun _ _ _ sound taken => Sound.step sound taken) (Sound.start indexed) h

end ApiKeys

/-! ## Authentication with a key -/

theorem apiKeyByHash_row (hashes : Table.Unique (fun k : StoredApiKey => k.keyHash) db.apiKeys)
    {key : StoredApiKey} (stored : key ∈ db.apiKeys) :
    db.rows.apiKeyByHash key.keyHash = some key.toApiKeyRow := by
  have unique : Table.Unique ApiKeyRow.keyHash db.rows.apiKeys := by
    rw [Table.Unique, KeyDatabase.rows, List.map_map]
    exact hashes
  exact unique.find (List.mem_map_of_mem stored)

/-- A context from a key is that of the one row with its hash. -/
theorem apiKeyContext_row (hashes : Table.Unique (fun k : StoredApiKey => k.keyHash) db.apiKeys)
    {key : StoredApiKey} (stored : key ∈ db.apiKeys) {parts : Parts} {fromUuidHeader : Option Uuid}
    {plain : String} (hash : key.keyHash = lib.hashApiKey plain) {ctx : ApiKeyOnlyContext}
    (h : apiKeyContext lib db.rows parts fromUuidHeader plain = .ok ctx) :
    key.Usable ∧ ctx.apiKeyId = key.id ∧ ctx.businessId = key.businessId := by
  rw [apiKeyContext, ← hash, apiKeyByHash_row hashes stored] at h
  dsimp only at h
  split at h
  · rename_i usable
    split at h
    · cases h
    · split at h
      · cases h
        exact ⟨usable, rfl, rfl⟩
      · cases h
  · cases h

/-- An accepted key is a usable row. -/
theorem apiKeyContext_stored {parts : Parts} {fromUuidHeader : Option Uuid} {plain : String}
    {ctx : ApiKeyOnlyContext} (h : apiKeyContext lib db.rows parts fromUuidHeader plain = .ok ctx) :
    ∃ key ∈ db.apiKeys, key.Usable ∧ ctx.apiKeyId = key.id := by
  unfold apiKeyContext at h
  split at h
  · cases h
  · rename_i row found
    obtain ⟨key, stored, rfl⟩ := List.mem_map.mp (List.mem_of_find?_eq_some found)
    split at h
    · rename_i usable
      split at h
      · cases h
      · split at h
        · cases h
          exact ⟨key, stored, usable, rfl⟩
        · cases h
    · cases h

/-- A usable key opens every active environment of its business. -/
theorem apiKeyContext_usable (parts : Parts)
    (hashes : Table.Unique (fun k : StoredApiKey => k.keyHash) db.apiKeys)
    {key : StoredApiKey} (stored : key ∈ db.apiKeys) (usable : key.Usable)
    {environmentId : Uuid} {plain : String} (hash : key.keyHash = lib.hashApiKey plain)
    (active : WellScoped db.rows key.businessId environmentId) :
    apiKeyContext lib db.rows parts (some environmentId) plain =
      .ok ⟨key.id, key.businessId, environmentId⟩ := by
  rw [apiKeyContext, ← hash, apiKeyByHash_row hashes stored]
  simp only [if_pos usable, environmentForKey, if_pos (hasActiveEnvironment_iff.mpr active)]

namespace ApiKeys

/-- A key that a request was told of, sent back as it was told, is accepted as that key and
for the business of the request, in every active environment of the business, whichever one the
request has named, until a request of the business has revoked it. -/
theorem created_key_authenticates (lib : Libraries) (db : KeyDatabase) (indexed : db.Indexed)
    (as : List ApiKeyAction) (t : ApiKeys)
    (h : Machine.run (ApiKeys.step lib) (ApiKeys.start db) as = some t) (q : ApiKeyRequest)
    (listed : q ∈ t.requests) (asked : Option Uuid) (body : CreateApiKeyResponse)
    (created : q.Created asked body) (parts : Parts)
    (sent : parts.apiKey = some (headerOf body.key)) :
    (∀ ctx, AuthContext.fromRequestParts lib t.db.rows parts = .ok ctx →
      ctx.userId = none ∧ ctx.apiKeyId = some body.id ∧ ctx.businessId = q.ctx.businessId ∧
        WellScoped t.db.rows q.ctx.businessId ctx.environmentId) ∧
    ∀ environmentId, environmentIdFromUuidHeader lib parts = .ok (some environmentId) →
      WellScoped t.db.rows q.ctx.businessId environmentId →
      (∀ r ∈ t.requests, r.ctx.businessId = q.ctx.businessId → ¬ r.MayHaveRevoked body.id) →
      AuthContext.fromRequestParts lib t.db.rows parts =
        .ok ⟨none, some body.id, q.ctx.businessId, environmentId⟩ := by
  have sound := Sound.run indexed h
  obtain ⟨key, stored, row, usable⟩ := sound.created q listed asked body created
  obtain ⟨raw, plain⟩ := row.plain
  have text : headerText parts.apiKey = some body.key := by
    rw [sent, plain, headerText_apiKeyPlain]
  constructor
  · intro ctx accepted
    rcases authContext_ok accepted with ⟨fromUuidHeader, apiKeyPlain, found, -, sent', scope, rfl⟩ |
      ⟨environmentId, userId, businessId, -, noKey, -, -, rfl⟩
    · cases text.symm.trans sent'
      obtain ⟨-, same, own⟩ := apiKeyContext_row sound.hashes stored row.keyHash scope
      have inside := apiKeyContext_wellScoped scope
      rw [own, row.businessId] at inside
      exact ⟨rfl, congrArg some (same.trans row.id), own.trans row.businessId, inside⟩
    · rw [text] at noKey
      cases noKey
  · intro environmentId header active kept
    have usable : key.Usable := by
      rcases usable with usable | ⟨r, listed', revoked, own⟩
      · exact usable
      · rw [row.id] at revoked
        exact absurd revoked (kept r listed' (own.trans row.businessId))
    rw [← row.businessId] at active
    have context := apiKeyContext_usable parts sound.hashes stored usable row.keyHash
      active
    simp only [AuthContext.fromRequestParts, header, text, context, bind, Except.bind, row.id,
      row.businessId]

/-- An administrator and the environment that it is in. -/
def adminDatabase : KeyDatabase where
  environments := [⟨⟨5⟩, ⟨1⟩, "sandbox", "active"⟩]
  users := [⟨⟨⟨9⟩, ⟨1⟩, ⟨5⟩, "active"⟩, "admin"⟩]
  apiKeys := []

def adminContext : AuthContext := ⟨some ⟨9⟩, none, ⟨1⟩, ⟨5⟩⟩

def zeroKey : String := apiKeyPlain (Vector.replicate 32 0)

/-- With the hash of the key of 32 zero bytes under the development secret. -/
def keyLibraries : Libraries where
  hashApiKey s :=
    if s = zeroKey then "b08cedb678aa40ddc7a2e587bebb522ccdad9dead9e8ee7b2f4132f8cf90a14d" else ""
  parseUuid := sampleLibraries.parseUuid
  decodeToken := sampleLibraries.decodeToken

def zeroKeyRow : StoredApiKey where
  id := ⟨20⟩
  businessId := ⟨1⟩
  keyHash := "b08cedb678aa40ddc7a2e587bebb522ccdad9dead9e8ee7b2f4132f8cf90a14d"
  status := "active"
  revokedAt := none
  environmentId := some ⟨5⟩
  lastUsedAt := none
  createdAt := 100
  createdByUserId := some ⟨9⟩

def creation : ApiKeyRequest :=
  ⟨adminContext, .create (some ⟨5⟩), .done (.ok (.key ⟨⟨20⟩, zeroKey, "active"⟩))⟩

def issued : ApiKeys := ⟨{ adminDatabase with apiKeys := [zeroKeyRow] }, [creation]⟩

def issue : List ApiKeyAction :=
  [.receive adminContext (.create (some ⟨5⟩)), .run 0 .go, .run 0 .go,
    .run 0 (.insert ⟨20⟩ (Vector.replicate 32 0) 100 true)]

theorem issue_issued :
    Machine.run (ApiKeys.step keyLibraries) (start adminDatabase) issue = some issued := by
  decide +kernel

theorem created_key_authenticates_zero :
    AuthContext.fromRequestParts keyLibraries issued.db.rows
      ⟨some (headerOf (Uuid.toString ⟨5⟩)), none, some (headerOf zeroKey), none⟩ =
      .ok ⟨none, some ⟨20⟩, ⟨1⟩, ⟨5⟩⟩ :=
  (created_key_authenticates keyLibraries adminDatabase (by decide) issue issued issue_issued
    creation (by decide +kernel) (some ⟨5⟩) ⟨⟨20⟩, zeroKey, "active"⟩ ⟨rfl, rfl⟩
    ⟨some (headerOf (Uuid.toString ⟨5⟩)), none, some (headerOf zeroKey), none⟩ rfl).2 ⟨5⟩
    (by decide +kernel) ⟨_, List.mem_singleton.mpr rfl, rfl, rfl, rfl⟩ fun r listed _ revoked => by
      cases List.mem_singleton.mp listed
      cases revoked.1

/-- Of a key that a request was told is revoked, in every later state: neither extractor accepts
it, the gRPC check refuses it, and no other request is told that it has revoked it. -/
theorem revocation_is_final (lib : Libraries) (db : KeyDatabase) (indexed : db.Indexed)
    (as later : List ApiKeyAction) (s t : ApiKeys)
    (h : Machine.run (ApiKeys.step lib) (ApiKeys.start db) as = some s)
    (h' : Machine.run (ApiKeys.step lib) s later = some t) (i : Nat) (q : ApiKeyRequest)
    (at_ : s.requests[i]? = some q) (apiKeyId : Uuid) (revoked : q.Revoked apiKeyId) :
    (∀ parts ctx, AuthContext.fromRequestParts lib t.db.rows parts = .ok ctx →
      ctx.apiKeyId ≠ some apiKeyId) ∧
    (∀ parts ctx, ApiKeyOnlyContext.fromRequestParts lib t.db.rows parts = .ok ctx →
      ctx.apiKeyId ≠ apiKeyId) ∧
    (∃ key ∈ t.db.apiKeys, key.id = apiKeyId ∧ key.businessId = q.ctx.businessId ∧
      ∀ plain environment, lib.hashApiKey plain = key.keyHash →
        validateApiKeyScope lib t.db.rows plain environment =
          .error ⟨.unauthenticated, "API key is revoked or inactive"⟩) ∧
    ∀ (j : Nat) (r : ApiKeyRequest), t.requests[j]? = some r → r.Revoked apiKeyId → j = i := by
  have sound := Machine.invariant_run (fun _ _ _ sound taken => Sound.step sound taken)
    (Sound.run indexed h) h'
  have at_ : t.requests[i]? = some q := by
    obtain ⟨reply, told⟩ := revoked.2
    exact Machine.invariant_run (I := fun s : ApiKeys => s.requests[i]? = some q)
      (fun _ _ _ at_ taken => step_told taken at_ told) at_ h'
  obtain ⟨key, stored, same, own, gone⟩ :=
    sound.revoked q (List.mem_of_getElem? at_) apiKeyId revoked
  have dead : ∀ key' ∈ t.db.apiKeys, key'.Usable → key'.id ≠ apiKeyId := by
    intro key' stored' usable same'
    cases sound.ids.eq stored stored' (same.trans same'.symm)
    have active := usable.1
    rw [gone] at active
    exact absurd active (by decide)
  refine ⟨?_, ?_, ⟨key, stored, same, own, ?_⟩, ?_⟩
  · intro parts ctx accepted other
    rcases authContext_ok accepted with ⟨_, _, found, -, -, scope, rfl⟩ |
      ⟨_, _, _, -, -, -, -, rfl⟩
    · obtain ⟨key', stored', usable, named⟩ := apiKeyContext_stored scope
      exact dead key' stored' usable (named.symm.trans (Option.some.inj other))
    · cases other
  · intro parts ctx accepted other
    obtain ⟨fromUuidHeader, header, accepted⟩ := except_bind_ok.mp accepted
    split at accepted
    · cases accepted
    · obtain ⟨key', stored', usable, named⟩ := apiKeyContext_stored accepted
      exact dead key' stored' usable (named.symm.trans other)
  · intro plain environment hash
    have unusable : ¬ key.Usable := fun usable => dead key stored usable same
    simp only [validateApiKeyScope, hash, apiKeyByHash_row sound.hashes stored, if_neg unusable]
  · intro j r there revoked'
    exact sound.once j i r q apiKeyId there at_ revoked' revoked

def revocation : ApiKeyRequest :=
  ⟨adminContext, .revoke ⟨20⟩, .done (.ok (.key ⟨⟨20⟩, "", "revoked"⟩))⟩

def withdrawn : ApiKeys :=
  ⟨{ adminDatabase with apiKeys := [zeroKeyRow.revoked 200] }, [creation, revocation]⟩

def withdraw : List ApiKeyAction :=
  [.receive adminContext (.revoke ⟨20⟩), .run 1 .go, .run 1 (.update 200 true)]

theorem issue_withdrawn :
    Machine.run (ApiKeys.step keyLibraries) (start adminDatabase) (issue ++ withdraw) =
      some withdrawn := by
  decide +kernel

def usedLate : ApiKeys :=
  ⟨{ adminDatabase with apiKeys := [{ zeroKeyRow.revoked 200 with lastUsedAt := some 300 }] },
    [creation, revocation]⟩

/-- An authentication from before the revocation notes its use after it. -/
theorem revocation_is_final_zero :
    validateApiKeyScope keyLibraries usedLate.db.rows zeroKey "sandbox" =
      .error ⟨.unauthenticated, "API key is revoked or inactive"⟩ := by
  obtain ⟨key, stored, -, -, refused⟩ := (revocation_is_final keyLibraries adminDatabase (by decide)
    (issue ++ withdraw) [.use ⟨20⟩ 300] withdrawn usedLate issue_withdrawn rfl 1 revocation rfl
    ⟨20⟩ ⟨rfl, _, rfl⟩).2.2.1
  cases List.mem_singleton.mp stored
  exact refused zeroKey "sandbox" rfl

/-! ## Whose doing it was -/

/-- In one of these states the request was at its check, and its user an active administrator. -/
def Admitted (past : List ApiKeys) (q : ApiKeyRequest) : Prop :=
  ∃ m ∈ past, { q with point := .role } ∈ m.requests ∧ ∃ userId, adminUser m.db q.ctx = .ok userId

/-- An active environment of the business, in one of these states. -/
def WasActive (past : List ApiKeys) (businessId environmentId : Uuid) : Prop :=
  ∃ m ∈ past, WellScoped m.db.rows businessId environmentId

/-- One of the requests inserted the key, of an administrator in the name of its business. -/
structure Inserted (lib : Libraries) (past : List ApiKeys) (requests : List ApiKeyRequest)
    (key : StoredApiKey) : Prop where
  request : ∃ q ∈ requests, q.MayHaveInserted lib key ∧ Admitted past q
  environment : ∀ environmentId, key.environmentId = some environmentId →
    WasActive past key.businessId environmentId

/-- One of the requests revoked the key, of an administrator in the name of its business. -/
def RevokedBy (past : List ApiKeys) (requests : List ApiKeyRequest) (key : StoredApiKey) : Prop :=
  ∃ q ∈ requests, q.MayHaveRevoked key.id ∧ q.ctx.businessId = key.businessId ∧ Admitted past q

/-- Requests and keys after these states, over the keys there were before the first of them. -/
structure History (lib : Libraries) (old : List StoredApiKey) (past : List ApiKeys)
    (s : ApiKeys) : Prop where
  acting : ∀ q ∈ s.requests, q.point = .statement ∨ (∃ e, q.point = .environment e) →
    Admitted past q
  asked : ∀ q ∈ s.requests, ∀ e, q.point = .environment e → q.route = .create (some e)
  active : ∀ q ∈ s.requests, ∀ e, q.point = .statement → q.route = .create (some e) →
    WasActive past q.ctx.businessId e
  inserted : ∀ key ∈ s.db.apiKeys,
    (∃ key₀ ∈ old, key₀.Keeps key) ∨ Inserted lib past s.requests key
  revoked : ∀ key ∈ s.db.apiKeys,
    key.Usable ∨ (∃ key₀ ∈ old, key₀.id = key.id ∧ ¬ key₀.Usable) ∨
      RevokedBy past s.requests key
  listed : ∀ q ∈ s.requests, ∀ infos, q.point = .done (.ok (.keys infos)) →
    Admitted past q ∧ ∃ m ∈ past, ∃ rows, IsListing m.db q.ctx.businessId rows ∧
      infos = rows.map ApiKeyInfo.ofRow

section History
variable {old : List StoredApiKey} {past past' : List ApiKeys}
  {requests requests' : List ApiKeyRequest}

theorem Admitted.mono (h : Admitted past q) (more : past ⊆ past') : Admitted past' q :=
  have ⟨m, listed, admin⟩ := h
  ⟨m, more listed, admin⟩

theorem WasActive.mono {businessId environmentId : Uuid}
    (h : WasActive past businessId environmentId)
    (more : past ⊆ past') : WasActive past' businessId environmentId :=
  have ⟨m, listed, active⟩ := h
  ⟨m, more listed, active⟩

/-- The answers that one list of requests has are in the other. -/
def Answers (requests requests' : List ApiKeyRequest) : Prop :=
  ∀ q ∈ requests, ∀ result, q.point = .done result → q ∈ requests'

theorem MayHaveInserted.told {key : StoredApiKey} (h : q.MayHaveInserted lib key) :
    ∃ result, q.point = .done result := by
  rcases h.2.2.2 with ⟨body, told, -⟩ | told
  · exact ⟨_, told⟩
  · exact ⟨_, told⟩

theorem MayHaveInserted.keeps {key key' : StoredApiKey} (h : q.MayHaveInserted lib key)
    (keeps : key.Keeps key') : q.MayHaveInserted lib key' := by
  obtain ⟨route, business, creator, told⟩ := h
  rw [ApiKeyRequest.MayHaveInserted, keeps.environmentId, keeps.businessId, keeps.createdByUserId]
  exact ⟨route, business, creator,
    told.imp_left fun ⟨body, told, row⟩ => ⟨body, told, row.keeps keeps⟩⟩

theorem Inserted.mono {key : StoredApiKey} (h : Inserted lib past requests key)
    (more : past ⊆ past') (answers : Answers requests requests') :
    Inserted lib past' requests' key := by
  obtain ⟨⟨q, listed, inserted, admitted⟩, environment⟩ := h
  obtain ⟨result, told⟩ := MayHaveInserted.told inserted
  exact ⟨⟨q, answers q listed result told, inserted, admitted.mono more⟩,
    fun e named => (environment e named).mono more⟩

theorem Inserted.keeps {key key' : StoredApiKey} (h : Inserted lib past requests key)
    (keeps : key.Keeps key') : Inserted lib past requests key' := by
  obtain ⟨⟨q, listed, inserted, admitted⟩, environment⟩ := h
  refine ⟨⟨q, listed, MayHaveInserted.keeps inserted keeps, admitted⟩, ?_⟩
  rw [keeps.businessId, keeps.environmentId]
  exact environment

theorem RevokedBy.mono {key : StoredApiKey} (h : RevokedBy past requests key)
    (more : past ⊆ past') (answers : Answers requests requests') :
    RevokedBy past' requests' key := by
  obtain ⟨q, listed, revoked, own, admitted⟩ := h
  obtain ⟨result, told⟩ := MayHaveRevoked.told revoked
  exact ⟨q, answers q listed result told, revoked, own, admitted.mono more⟩

theorem RevokedBy.keeps {key key' : StoredApiKey} (h : RevokedBy past requests key)
    (id : key.id = key'.id) (own : key.businessId = key'.businessId) :
    RevokedBy past requests key' := by
  rw [RevokedBy, ← id, ← own]
  exact h

/-- What the history says of a key of the state before a step, after it. -/
theorem History.kept {s : ApiKeys} (history : History lib old past s) (more : past ⊆ past')
    (answers : Answers s.requests requests') {key key' : StoredApiKey}
    (stored : key ∈ s.db.apiKeys) (keeps : key.Keeps key') :
    (∃ key₀ ∈ old, key₀.Keeps key') ∨ Inserted lib past' requests' key' := by
  rcases history.inserted key stored with ⟨key₀, before, same⟩ | inserted
  · exact .inl ⟨key₀, before, same.trans keeps⟩
  · exact .inr ((inserted.mono more answers).keeps keeps)

/-- The requests of a state after a move, from those before it. -/
theorem moved_cases {s t : ApiKeys} {i : Nat} {point : ApiKeyPoint}
    (at_ : s.requests[i]? = some q) (set : t.requests = s.requests.set i { q with point })
    {r : ApiKeyRequest} (listed : r ∈ t.requests) : r = { q with point } ∨ r ∈ s.requests := by
  obtain ⟨j, there⟩ := List.mem_iff_getElem?.mp listed
  rw [set] at there
  rcases Machine.replaced_cases at_ there with ⟨-, same⟩ | ⟨-, old⟩
  · exact .inl same.symm
  · exact .inr (List.mem_of_getElem? old)

theorem History.move {s t : ApiKeys} (history : History lib old past s) (more : past ⊆ past')
    (here : s ∈ past') (answers : Answers s.requests t.requests) {i : Nat} {point : ApiKeyPoint}
    (at_ : s.requests[i]? = some q) {apiKeys : List StoredApiKey}
    (move : KeyMove lib s.db q apiKeys point) (keys : t.db.apiKeys = apiKeys)
    (set : t.requests = s.requests.set i { q with point }) : History lib old past' t := by
  have present := List.mem_of_getElem? at_
  have after : { q with point } ∈ t.requests := by
    rw [set]
    exact List.mem_set (List.getElem?_eq_some_iff.mp at_).1 _
  have admitted : q.point = .statement → Admitted past' { q with point } :=
    fun acts => (history.acting q present (.inl acts)).mono more
  refine ⟨?_, ?_, ?_, ?_, ?_, ?_⟩
  · intro r listed acts
    rcases moved_cases at_ set listed with rfl | before
    · cases move with
      | allow waits admin =>
        refine ⟨s, here, ?_, _, admin⟩
        rw [← waits]
        exact present
      | environment asks => exact (history.acting q present (.inr ⟨_, asks⟩)).mono more
      | refuse => rcases acts with acts | ⟨e, acts⟩ <;> cases acts
      | insert acted => exact admitted acted
      | list acted => exact admitted acted
      | revoke acted => exact admitted acted
    · exact (history.acting r before acts).mono more
  · intro r listed e asks
    rcases moved_cases at_ set listed with rfl | before
    · cases move with
      | allow _ _ acts =>
        rcases acts with ⟨rfl, -⟩ | ⟨e', rfl, route⟩
        · cases asks
        · cases asks
          exact route
      | environment | refuse | list => cases asks
      | @insert environmentId id raw now heard =>
        rcases answer_cases heard ⟨id, apiKeyPlain raw, "active"⟩ with told | lost
        · cases told.symm.trans asks
        · cases lost.symm.trans asks
      | @revoke apiKeyId now heard =>
        rcases answer_cases heard ⟨apiKeyId, "", "revoked"⟩ with told | lost
        · cases told.symm.trans asks
        · cases lost.symm.trans asks
    · exact history.asked r before e asks
  · intro r listed e acts route
    rcases moved_cases at_ set listed with rfl | before
    · cases move with
      | allow _ _ acts' =>
        rcases acts' with ⟨-, other⟩ | ⟨e', rfl, -⟩
        · exact absurd route (other e)
        · cases acts
      | environment asks active =>
        cases (history.asked q present _ asks).symm.trans route
        exact ⟨s, here, active⟩
      | refuse | list => cases acts
      | insert acts' => exact (history.active q present e acts' route).mono more
      | revoke _ route' => cases route'.symm.trans route
    · exact (history.active r before e acts route).mono more
  · intro key stored
    rw [keys] at stored
    rcases move.source stored with ⟨key', before, keeps, -⟩ | ⟨acts, inserted, -⟩
    · exact history.kept more answers before keeps
    · refine .inr ⟨⟨_, after, inserted, admitted acts⟩, fun e asked => ?_⟩
      obtain ⟨route, business, -⟩ := inserted
      rw [← business]
      exact (history.active q present e acts (route.trans (congrArg _ asked))).mono more
  · intro key stored
    rw [keys] at stored
    rcases move.source stored with ⟨key', before, keeps, rfl | ⟨acts, revoked, own⟩⟩ |
      ⟨acts, -, usable⟩
    · exact (history.revoked key before).imp_right fun h => h.imp_right fun h => h.mono more answers
    · exact .inr (.inr ⟨_, after, revoked, own, admitted acts⟩)
    · exact .inl usable
  · intro r listed infos told
    rcases moved_cases at_ set listed with rfl | before
    · cases move with
      | allow _ _ acts => rcases acts with ⟨rfl, -⟩ | ⟨e, rfl, -⟩ <;> cases told
      | environment | refuse => cases told
      | @insert environmentId id raw now heard =>
        cases heard <;> cases told
      | @revoke apiKeyId now heard =>
        cases heard <;> cases told
      | @list rows acts _ listing =>
        cases told
        exact ⟨admitted acts, s, here, rows, listing, rfl⟩
    · obtain ⟨before, m, seen, rows⟩ := history.listed r before infos told
      exact ⟨before.mono more, m, more seen, rows⟩

theorem History.step {s t : ApiKeys} {a : ApiKeyAction} (history : History lib old past s)
    (taken : s.step lib a = some t) : History lib old (past ++ [s]) t := by
  have here : s ∈ past ++ [s] := List.mem_append_right _ (List.mem_singleton.mpr rfl)
  have more : past ⊆ past ++ [s] := List.subset_append_left past [s]
  have answers : Answers s.requests t.requests :=
    fun q listed result told => step_told_mem taken listed told
  rcases step_requests taken with ⟨keys, requests⟩ | ⟨i, q, point, at_, move, -, set⟩
  · have stored : ∀ key ∈ t.db.apiKeys, ∃ key' ∈ s.db.apiKeys, key'.Keeps key ∧ key'.id = key.id ∧
        key'.businessId = key.businessId ∧ (key'.Usable → key.Usable) := by
      intro key stored
      rcases keys with same | ⟨id, now, used⟩
      · exact ⟨key, same ▸ stored, .refl key, rfl, rfl, fun usable => usable⟩
      · rw [used] at stored
        obtain ⟨key', before, rfl⟩ := Table.mem_updateWhere.mp stored
        split_ifs
        · exact ⟨key', before, key'.keeps_used now, rfl, rfl, fun usable => usable⟩
        · exact ⟨key', before, .refl key', rfl, rfl, fun usable => usable⟩
    have present : ∀ q ∈ t.requests, q ∈ s.requests ∨ q.point = .role := by
      intro q listed
      rcases requests with same | ⟨ctx, route, more⟩
      · exact .inl (same ▸ listed)
      · rw [more] at listed
        rcases List.mem_append.mp listed with before | new
        · exact .inl before
        · cases List.mem_singleton.mp new
          exact .inr rfl
    refine ⟨?_, ?_, ?_, ?_, ?_, ?_⟩
    · intro q listed acts
      rcases present q listed with before | new
      · exact (history.acting q before acts).mono more
      · rw [new] at acts
        rcases acts with acts | ⟨e, acts⟩ <;> cases acts
    · intro q listed e asks
      rcases present q listed with before | new
      · exact history.asked q before e asks
      · cases new.symm.trans asks
    · intro q listed e acts route
      rcases present q listed with before | new
      · exact (history.active q before e acts route).mono more
      · cases new.symm.trans acts
    · intro key listed
      obtain ⟨key', before, keeps, -⟩ := stored key listed
      exact history.kept more answers before keeps
    · intro key listed
      obtain ⟨key', before, -, id, own, usable⟩ := stored key listed
      rcases history.revoked key' before with kept | ⟨key₀, first, same, gone⟩ | revoked
      · exact .inl (usable kept)
      · exact .inr (.inl ⟨key₀, first, same.trans id, gone⟩)
      · exact .inr (.inr ((revoked.mono more answers).keeps id own))
    · intro q listed infos told
      rcases present q listed with before | new
      · obtain ⟨before, m, seen, rows⟩ := history.listed q before infos told
        exact ⟨before.mono more, m, more seen, rows⟩
      · cases new.symm.trans told
  · exact history.move more here answers at_ move rfl set

theorem History.start (db : KeyDatabase) : History lib db.apiKeys [] (start db) := by
  refine ⟨?_, ?_, ?_, ?_, ?_, ?_⟩
  · intro q listed
    cases listed
  · intro q listed
    cases listed
  · intro q listed
    cases listed
  · intro key stored
    exact .inl ⟨key, stored, .refl key⟩
  · intro key stored
    by_cases usable : key.Usable
    · exact .inl usable
    · exact .inr (.inl ⟨key, stored, rfl, usable⟩)
  · intro q listed
    cases listed

end History

/-- The states that a run goes through before its last one. -/
def passed (lib : Libraries) (db : KeyDatabase) (as : List ApiKeyAction) : List ApiKeys :=
  Machine.trace (ApiKeys.step lib) (fun s _ => some s) (start db) as

end ApiKeys

end RailsCore.UsersService

import RailsCore.AuditEmission

/-!
# Which audit events reach the trail

The exact calls whose event `validate_audit_event` accepts. The producers and
the validator disagree in three places: handlers that fail without knowing an
organization report the nil one for actions that must have one, the action of
the SDK user is in no catalogue, and a shortened reason is one character too
long. Everything else lines up, for any headers, bodies and error texts.
-/

namespace RailsCore.Audit

open UsersService (trim toList_trim trim_eq_self trim_ne_empty trim_trim headerText)

/-- A uuid is printed without white space. -/
theorem visible_uuid (u : Uuid) : ∀ c ∈ u.toString.toList, isBlankChar c = false := by
  have digit : ∀ m : BitVec 4, isBlankChar (Uuid.hexDigit m) = false := by decide
  have digits : ∀ start len, ∀ c ∈ u.digits start len, isBlankChar c = false := by
    intro start len c hc
    obtain ⟨i, -, rfl⟩ := List.mem_map.mp hc
    exact digit _
  intro c hc
  rw [Uuid.toString, String.toList_ofList] at hc
  simp only [List.append_assoc, List.mem_append, List.cons_append, List.mem_cons] at hc
  rcases hc with hc | rfl | hc | rfl | hc | rfl | hc | rfl | hc
  all_goals first | exact digits _ _ c hc | decide

theorem trim_uuid (u : Uuid) : trim u.toString = u.toString := trim_eq_self (visible_uuid u)

theorem uuid_ne_blank (u : Uuid) : trim u.toString ≠ "" :=
  trim_ne_empty.mpr ⟨u.digit 0, List.mem_of_head? (Uuid.toString_head u),
    visible_uuid u _ (List.mem_of_head? (Uuid.toString_head u))⟩

theorem nil_uuid_iff {u : Uuid} : u.toString = NIL_UUID ↔ u = Uuid.nil := by
  have nil : Uuid.nil.toString = NIL_UUID := by decide +kernel
  rw [← nil, Uuid.toString_inj]

/-- A text begins with a visible character. -/
def StartsVisible (s : String) : Prop := ∃ c, s.toList.head? = some c ∧ isBlankChar c = false

theorem StartsVisible.append {s : String} (visible : StartsVisible s) (t : String) :
    StartsVisible (s ++ t) := by
  obtain ⟨c, first, kept⟩ := visible
  refine ⟨c, ?_, kept⟩
  rw [String.toList_append, List.head?_append, first, Option.some_or]

theorem StartsVisible.ne_blank {s : String} (visible : StartsVisible s) : trim s ≠ "" := by
  obtain ⟨c, first, kept⟩ := visible
  exact trim_ne_empty.mpr ⟨c, List.mem_of_head? first, kept⟩

/-- Text that starts with a visible character fits after it is shortened exactly
where it fitted before. -/
theorem truncateReason_fits {s : String} (visible : StartsVisible s) :
    (trim (truncateReason s)).toList.length ≤ 500 ↔ s.toList.length ≤ 500 := by
  unfold truncateReason
  split
  · rename_i long
    have whole : dropBoth isBlankChar (s.toList.take 500 ++ ['…']) =
        s.toList.take 500 ++ ['…'] := by
      have ellipsis : isBlankChar '…' = false := by decide
      apply dropBoth_of_ends
      · cases list : s.toList with
        | nil => simp [ellipsis]
        | cons c rest =>
          obtain ⟨d, first, kept⟩ := visible
          obtain rfl : c = d := by simpa [list] using first
          simpa using kept
      · simp [ellipsis]
    rw [toList_trim, String.toList_ofList, whole, List.length_append, List.length_take]
    simp only [List.length_singleton]
    omega
  · rename_i short
    refine iff_of_true ?_ (by omega)
    rw [toList_trim]
    apply (length_dropBoth_le _ _).trans
    rw [String.toList_ofList, List.length_take]
    omega

theorem users_display_visible (error : UsersService.AppError) : StartsVisible error.display := by
  cases error with
  | unauthorized => exact ⟨'U', by decide, by decide⟩
  | forbidden => exact ⟨'F', by decide, by decide⟩
  | unrecognizedSource => exact ⟨'R', by decide, by decide⟩
  | tooManyRequests => exact ⟨'T', by decide, by decide⟩
  | badRequest message => exact StartsVisible.append ⟨'B', by decide, by decide⟩ message
  | conflict message => exact StartsVisible.append ⟨'C', by decide, by decide⟩ message
  | internal => exact ⟨'I', by decide, by decide⟩

theorem accounts_display_visible (error : AppError) : StartsVisible error.display := by
  cases error with
  | database message => exact StartsVisible.append ⟨'D', by decide, by decide⟩ message
  | notFound message => exact StartsVisible.append ⟨'N', by decide, by decide⟩ message
  | validation message => exact StartsVisible.append ⟨'V', by decide, by decide⟩ message
  | businessLogic message => exact StartsVisible.append ⟨'B', by decide, by decide⟩ message
  | accountNotActive => exact ⟨'A', by decide, by decide⟩
  | insufficientFunds => exact ⟨'I', by decide, by decide⟩
  | invalidAccountType => exact ⟨'I', by decide, by decide⟩
  | tooManyRequests => exact ⟨'T', by decide, by decide⟩
  | unauthorized message => exact StartsVisible.append ⟨'U', by decide, by decide⟩ message
  | internal message => exact StartsVisible.append ⟨'I', by decide, by decide⟩ message

theorem headerText_ne_blank {value : Option UsersService.HeaderValue} {s : String}
    (h : headerText value = some s) : trim s ≠ "" := by
  obtain ⟨found, nonempty⟩ := Option.filter_eq_some_iff.mp h
  obtain ⟨raw, -, rfl⟩ := Option.map_eq_some_iff.mp found
  rw [trim_trim]
  simpa using nonempty

theorem outcomeFromStatus_set (status : Nat) :
    ∃ o, Outcome.tryFrom (outcomeFromStatus status) = some o ∧ o ≠ .unspecified := by
  unfold outcomeFromStatus
  split
  · exact ⟨.serverError, by decide, by decide⟩
  · split
    · exact ⟨.clientError, by decide, by decide⟩
    · exact ⟨.success, by decide, by decide⟩

theorem ActorType.tryFrom_toI32 (t : ActorType) : ActorType.tryFrom t.toI32 = some t := by
  cases t <;> decide

/-- The parts of an event that its call site fixes. -/
structure Fixed (sourceService method path action : String) (actorType : ActorType)
    (targetType : String) (metadata : List (String × String)) : Prop where
  source : trim sourceService ∈ ["users", "accounts", "ledger"]
  method : trim method ≠ ""
  path : trim path ≠ ""
  action : trim action = action
  actor : actorType ≠ .unspecified
  target : trim targetType ≠ ""
  few : metadata.length ≤ 16
  entries : ∀ entry ∈ metadata, entry.1 ∈ METADATA_KEYS_ALLOWED ∧ entry.2.toList.length ≤ 256

/-- What is left to check of an event whose call site is in order. -/
theorem emitMutation_accepted {lib : Libraries} (lawful : lib.Lawful) {e : Emission} {now : Nat}
    (skew : e.now < now + fiveMinutes) {sourceService method path action : String}
    {organizationId : Uuid} {actorType : ActorType} {actorId : String} {actorRoles : List String}
    {targetType : String} {targetId : Uuid} {httpStatus : Nat} {reason : Option String}
    {metadata : List (String × String)}
    (fixed : Fixed sourceService method path action actorType targetType metadata) :
    validateAuditEvent lib now (emitMutation sourceService lib e method path action organizationId
        actorType actorId actorRoles targetType targetId httpStatus reason metadata) = .ok () ↔
      e.now < yearTenThousand ∧ action ∈ ALL_ACTIONS ∧
        (organizationId = Uuid.nil → action ∈ ORG_ZERO_ALLOWED) ∧
        ∀ r, reason = some r → (trim r).toList.length ≤ 500 := by
  rw [validateAuditEvent_ok]
  constructor
  · rintro ⟨-, ⟨t, printed, -⟩, -, ⟨org, parsed, allowed⟩, listed, -, -, -, -, -, -, fits, -, -⟩
    have early : e.now < yearTenThousand := by
      by_contra late
      simp only [emitMutation, lawful.instant, if_neg late] at printed
      exact nomatch printed
    simp only [emitMutation, trim_uuid, lawful.uuid, Option.some.injEq, fixed.action]
      at parsed allowed
    rw [← parsed, nil_uuid_iff] at allowed
    refine ⟨early, ?_, allowed, fits⟩
    simpa only [emitMutation, fixed.action] using listed
  · rintro ⟨early, listed, allowed, fits⟩
    refine ⟨rfl, ⟨e.now, (lawful.instant e.now).trans (if_pos early), by omega⟩, fixed.source,
      ⟨organizationId, ?_, ?_⟩, ?_, ?_, ?_, outcomeFromStatus_set httpStatus,
      ⟨_, rfl, actorType, ?_, fixed.actor⟩, ⟨_, rfl, fixed.target, uuid_ne_blank targetId⟩,
      ⟨_, rfl, fixed.method, fixed.path⟩, fits, fixed.few, fixed.entries⟩
    · simp only [emitMutation, trim_uuid, lawful.uuid]
    · simpa only [emitMutation, nil_uuid_iff, fixed.action] using allowed
    · simpa only [emitMutation, fixed.action] using listed
    · show trim ((headerText e.headers.environment).getD "unknown") ≠ ""
      cases header : headerText e.headers.environment with
      | none => decide
      | some s => exact headerText_ne_blank header
    · show trim ((headerText e.headers.correlationId).getD e.correlationId.toString) ≠ ""
      cases header : headerText e.headers.correlationId with
      | none => exact uuid_ne_blank e.correlationId
      | some s => exact headerText_ne_blank header
    · exact ActorType.tryFrom_toI32 actorType

theorem trim_action : ∀ action ∈ ALL_ACTIONS, trim action = action := by decide +kernel

/-- The status codes of both services' errors. -/
def errorCodes : List Nat := [400, 401, 403, 404, 409, 429, 500]

theorem users_errorCode (error : UsersService.AppError) : error.statusCode ∈ errorCodes := by
  cases error <;> simp [UsersService.AppError.statusCode, errorCodes]

theorem accounts_errorCode (error : AppError) : error.statusCode ∈ errorCodes := by
  cases error <;> simp [AppError.statusCode, errorCodes]

/-- The entry that a failed call adds to the metadata. -/
theorem statusEntry_allowed {status : Nat} (code : status ∈ errorCodes) :
    "http_status" ∈ METADATA_KEYS_ALLOWED ∧ (toString status).toList.length ≤ 256 := by
  have short : ∀ n ∈ errorCodes, (toString n).toList.length ≤ 256 := by decide +kernel
  exact ⟨by decide, short status code⟩

/-- The text of a failure fits into a reason. -/
def Fits {ε α : Type} (display : ε → String) (result : Except ε α) : Prop :=
  ∀ error, result = .error error → (display error).toList.length ≤ 500

/-- The calls whose event passes. A failed refresh, revocation or key operation never
does, nor does the creation of an SDK user; the rest needs an organization where the
action asks for one, and a text that fits. -/
def Mutation.Reportable : Mutation → Prop
  | .login result | .resetPassword result => Fits UsersService.AppError.display result
  | .requestPasswordReset result => Fits UsersService.AppError.display result
  | .registerBusiness result => Fits UsersService.AppError.display result
  | .applyForBeta result => Fits UsersService.AppError.display result
  | .refreshToken result | .revokeToken result =>
    ∃ userId businessId, result = .ok (userId, businessId) ∧ businessId ≠ Uuid.nil
  | .createApiKey result | .revokeApiKey _ result =>
    ∃ keyId businessId userId, result = .ok (keyId, businessId, userId) ∧ businessId ≠ Uuid.nil
  | .createSdkUser _ _ _ => False
  | .createAccount _ resolved created => Fits AppError.display created ∧
    match created with
    | .ok account => account.organizationId ≠ some Uuid.nil
    | .error _ => resolved ≠ .ok Uuid.nil
  | .updateAccountStatus _ _ result found | .closeAccount _ result found =>
    Fits AppError.display result ∧ Accounts.reportedOrganization result found ≠ some Uuid.nil
  | .deposit _ _ result found | .withdraw _ _ result found | .transfer _ _ result found =>
    Fits AppError.display result ∧
      Accounts.reportedOrganization (result.map Prod.fst) found ≠ some Uuid.nil

section
variable {lib : Libraries} (lawful : lib.Lawful) {e : Emission} {now : Nat}
  (skew : e.now < now + fiveMinutes)
include lawful skew

theorem Users.report_accepted {path action failedType : String} {failedId : Uuid}
    {result : Except UsersService.AppError Users.Done} (visible : trim path ≠ "")
    (listed : action ∈ ALL_ACTIONS) (failed : trim failedType ≠ "")
    (actor : ∀ done, result = .ok done → done.actorType ≠ .unspecified)
    (target : ∀ done, result = .ok done → trim done.targetType ≠ "") :
    validateAuditEvent lib now (Users.report lib e path action failedType failedId result) =
        .ok () ↔
      e.now < yearTenThousand ∧ Fits UsersService.AppError.display result ∧
        (action ∉ ORG_ZERO_ALLOWED →
          ∃ done, result = .ok done ∧ done.organizationId ≠ Uuid.nil) := by
  have post : trim "POST" ≠ "" := by decide
  have source : trim "users" ∈ ["users", "accounts", "ledger"] := by decide
  cases result with
  | ok done =>
    have fixed : Fixed "users" "POST" path action done.actorType done.targetType [] :=
      ⟨source, post, visible, trim_action action listed, actor done rfl, target done rfl,
        by decide, by simp⟩
    rw [Users.report, emitUsersMutation, emitMutation_accepted lawful skew fixed]
    simp only [Fits, Except.ok.injEq, exists_eq_left', reduceCtorEq, false_imp_iff, implies_true,
      true_and, and_true, listed]
    exact and_congr_right fun _ => not_imp_not.symm
  | error error =>
    have fixed : Fixed "users" "POST" path action .anonymous failedType
        [("http_status", toString error.statusCode)] :=
      ⟨source, post, visible, trim_action action listed, by decide, failed, by simp,
        List.forall_mem_singleton.mpr (statusEntry_allowed (users_errorCode error))⟩
    rw [Users.report, emitUsersMutation, emitMutation_accepted lawful skew fixed]
    simp only [Fits, Except.error.injEq, forall_eq', Option.some.injEq, reduceCtorEq, false_and,
      exists_false, imp_false, not_not, true_imp_iff, listed, true_and,
      truncateReason_fits (users_display_visible error)]
    exact and_congr_right fun _ => and_comm

theorem Users.report_reportable {path action failedType : String} {failedId : Uuid} {α : Type}
    {result : Except UsersService.AppError α} {done : α → Users.Done} (visible : trim path ≠ "")
    (listed : action ∈ ALL_ACTIONS) (failed : trim failedType ≠ "")
    (call : ∀ a, (done a).actorType ≠ .unspecified ∧ trim (done a).targetType ≠ "") :
    validateAuditEvent lib now
        (Users.report lib e path action failedType failedId (result.map done)) = .ok () ↔
      e.now < yearTenThousand ∧ Fits UsersService.AppError.display result ∧
        (action ∉ ORG_ZERO_ALLOWED → ∃ a, result = .ok a ∧ (done a).organizationId ≠ Uuid.nil) := by
  rw [Users.report_accepted lawful skew visible listed failed]
  · cases result <;> simp [Except.map, Fits]
  all_goals cases result <;> simp [Except.map, call]

theorem accounts_accepted {method path action : String} {organizationId : Uuid}
    {actorType : ActorType} {actorId : String} {targetId : Uuid} {httpStatus : Nat}
    {reason : Option String} {metadata : List (String × String)} (verb : trim method ≠ "")
    (visible : trim path ≠ "") (listed : action ∈ ALL_ACTIONS) (tenant : action ∉ ORG_ZERO_ALLOWED)
    (actor : actorType ≠ .unspecified) (few : metadata.length ≤ 16)
    (entries : ∀ entry ∈ metadata,
      entry.1 ∈ METADATA_KEYS_ALLOWED ∧ entry.2.toList.length ≤ 256) :
    validateAuditEvent lib now (emitAccountsMutation lib e method path action organizationId
        actorType actorId [] "account" targetId httpStatus reason metadata) = .ok () ↔
      e.now < yearTenThousand ∧ (∀ r, reason = some r → (trim r).toList.length ≤ 500) ∧
        organizationId ≠ Uuid.nil := by
  have fixed : Fixed "accounts" method path action actorType "account" metadata :=
    ⟨by decide, verb, visible, trim_action action listed, actor, by decide, few, entries⟩
  rw [emitAccountsMutation, emitMutation_accepted lawful skew fixed]
  simp only [listed, tenant, imp_false, true_and]
  exact and_congr_right fun _ => and_comm

theorem Accounts.report_accepted {α : Type} {method path action : String} {id : Uuid}
    {org : Option Uuid} {result : Except AppError α} {status : α → Nat}
    {metadata done : List (String × String)} {event : AuditEvent}
    (emitted : Accounts.report lib e method path action id org result status metadata done =
      some event)
    (verb : trim method ≠ "") (visible : trim path ≠ "") (listed : action ∈ ALL_ACTIONS)
    (tenant : action ∉ ORG_ZERO_ALLOWED) (few : metadata.length + done.length ≤ 15)
    (entries : ∀ entry ∈ metadata ++ done,
      entry.1 ∈ METADATA_KEYS_ALLOWED ∧ entry.2.toList.length ≤ 256) :
    validateAuditEvent lib now event = .ok () ↔
      e.now < yearTenThousand ∧ Fits AppError.display result ∧ org ≠ some Uuid.nil := by
  obtain ⟨organizationId, rfl, rfl⟩ := Option.map_eq_some_iff.mp emitted
  rw [Ne, Option.some.injEq]
  cases result with
  | ok answer =>
    rw [accounts_accepted lawful skew verb visible listed tenant (by decide)
      (by rw [List.length_append]; omega) entries]
    simp [Fits]
  | error error =>
    have all : ∀ entry ∈ metadata ++ [("http_status", toString error.statusCode)],
        entry.1 ∈ METADATA_KEYS_ALLOWED ∧ entry.2.toList.length ≤ 256 := by
      rw [List.forall_mem_append, List.forall_mem_singleton]
      exact ⟨(List.forall_mem_append.mp entries).1, statusEntry_allowed (accounts_errorCode error)⟩
    rw [accounts_accepted lawful skew verb visible listed tenant (by decide)
      (by rw [List.length_append, List.length_singleton]; omega) all]
    simp [Fits, truncateReason_fits (accounts_display_visible error)]

/-- A user's call of an action that may go without an organization. -/
theorem Users.allowed_accepted {path action failedType : String} {failedId : Uuid} {α : Type}
    {result : Except UsersService.AppError α} {done : α → Users.Done} (visible : trim path ≠ "")
    (allowed : action ∈ ORG_ZERO_ALLOWED) (failed : trim failedType ≠ "")
    (call : ∀ a, (done a).actorType ≠ .unspecified ∧ trim (done a).targetType ≠ "") :
    validateAuditEvent lib now
        (Users.report lib e path action failedType failedId (result.map done)) = .ok () ↔
      e.now < yearTenThousand ∧ Fits UsersService.AppError.display result := by
  have listed : ∀ a ∈ ORG_ZERO_ALLOWED, a ∈ ALL_ACTIONS := by decide
  rw [Users.report_reportable lawful skew visible (listed action allowed) failed call]
  simp [allowed]

/-- A user's call of an action that must name an organization: only a success does. -/
theorem Users.tenant_accepted {path action failedType : String} {failedId : Uuid} {α : Type}
    {result : Except UsersService.AppError α} {done : α → Users.Done} (visible : trim path ≠ "")
    (listed : action ∈ ALL_ACTIONS) (tenant : action ∉ ORG_ZERO_ALLOWED)
    (failed : trim failedType ≠ "")
    (call : ∀ a, (done a).actorType ≠ .unspecified ∧ trim (done a).targetType ≠ "") :
    validateAuditEvent lib now
        (Users.report lib e path action failedType failedId (result.map done)) = .ok () ↔
      e.now < yearTenThousand ∧ ∃ a, result = .ok a ∧ (done a).organizationId ≠ Uuid.nil := by
  rw [Users.report_reportable lawful skew visible listed failed call]
  refine and_congr_right fun _ => ⟨fun both => both.2 tenant, ?_⟩
  rintro ⟨a, rfl, named⟩
  exact ⟨(fun error failure => nomatch failure), fun _ => ⟨a, rfl, named⟩⟩

omit lawful skew in
theorem Users.createSdkUser_refused (businessId apiKeyId : Uuid)
    (result : Except UsersService.AppError Uuid) :
    ¬ validateAuditEvent lib now (Users.createSdkUser lib e businessId apiKeyId result) =
      .ok () := by
  intro valid
  have unlisted : trim "users.sdk.user.create" ∉ ALL_ACTIONS := by decide +kernel
  have listed := (validateAuditEvent_ok.mp valid).action
  cases result with
  | ok userId => exact unlisted listed
  | error error => exact unlisted listed

theorem Accounts.createAccount_accepted {request : Accounts.CreateAccountRequest}
    {resolved : Except AppError Uuid} {created : Except AppError Accounts.CreatedAccount}
    {event : AuditEvent}
    (emitted : Accounts.createAccount lib e request resolved created = some event) :
    validateAuditEvent lib now event = .ok () ↔
      e.now < yearTenThousand ∧ (Mutation.createAccount request resolved created).Reportable := by
  unfold Accounts.createAccount at emitted
  split at emitted
  · split at emitted
    · exact nomatch emitted
    · split at emitted
      · exact nomatch emitted
      · split at emitted
        · rename_i account
          obtain ⟨org, named, rfl⟩ := Option.map_eq_some_iff.mp emitted
          have actor : account.actor.1 ≠ .unspecified := by
            unfold Accounts.CreatedAccount.actor
            split <;> exact ActorType.noConfusion
          rw [accounts_accepted lawful skew (by decide) (by decide) (by decide) (by decide) actor
            (by decide) (by simp)]
          simp [Mutation.Reportable, Fits, named]
        · rename_i error
          obtain rfl := Option.some.inj emitted
          rw [accounts_accepted lawful skew (by decide) (by decide) (by decide) (by decide)
            (by decide) (by simp)
            (List.forall_mem_singleton.mpr (statusEntry_allowed (accounts_errorCode error)))]
          simp [Mutation.Reportable, Fits, truncateReason_fits (accounts_display_visible error)]
  · exact nomatch emitted

omit lawful skew in
theorem Accounts.accountPath_visible (id : Uuid) : StartsVisible (Accounts.accountPath id) :=
  StartsVisible.append ⟨'/', by decide, by decide⟩ id.toString

theorem Accounts.money_accepted {operation action : String} {id : Uuid} {amount : Int}
    {result : Accounts.MoneyCall} {found : Except AppError Account} {event : AuditEvent}
    (emitted : Accounts.money lib e operation action id amount result found = some event)
    (listed : action ∈ ALL_ACTIONS) (tenant : action ∉ ORG_ZERO_ALLOWED) :
    validateAuditEvent lib now event = .ok () ↔ e.now < yearTenThousand ∧
      Fits AppError.display result ∧
      Accounts.reportedOrganization (result.map Prod.fst) found ≠ some Uuid.nil := by
  unfold Accounts.money at emitted
  split at emitted
  · split at emitted
    · exact nomatch emitted
    · exact Accounts.report_accepted lawful skew emitted (by decide)
        ((Accounts.accountPath_visible id).append operation).ne_blank listed tenant (by decide)
        (by decide)
  · exact nomatch emitted

omit lawful skew in
theorem Users.userDone_call (a : Uuid × Uuid) :
    (Users.userDone a).actorType ≠ .unspecified ∧ trim (Users.userDone a).targetType ≠ "" :=
  ⟨ActorType.noConfusion, show trim "user" ≠ "" by decide⟩

omit lawful skew in
theorem Users.keyDone_call (a : Uuid × Uuid × Uuid) :
    (Users.keyDone a).actorType ≠ .unspecified ∧ trim (Users.keyDone a).targetType ≠ "" :=
  ⟨ActorType.noConfusion, show trim "api_key" ≠ "" by decide⟩

/-- The event of a call is accepted if and only if the call is reportable, until the
year 10000, for which there is no timestamp. -/
theorem mutation_accepted_iff {m : Mutation} {event : AuditEvent}
    (emitted : m.event lib e = some event) :
    validateAuditEvent lib now event = .ok () ↔ e.now < yearTenThousand ∧ m.Reportable := by
  cases m with
  | login result | resetPassword result =>
    cases emitted
    exact Users.allowed_accepted lawful skew (by decide) (by decide) (by decide) Users.userDone_call
  | refreshToken result | revokeToken result =>
    cases emitted
    refine (Users.tenant_accepted lawful skew (by decide) (by decide) (by decide) (by decide)
      Users.userDone_call).trans ?_
    simp [Mutation.Reportable, Users.userDone]
  | requestPasswordReset result =>
    cases emitted
    refine Users.allowed_accepted lawful skew (by decide) (by decide) (by decide) ?_
    rintro (_ | ⟨userId, businessId⟩)
    · decide
    · exact Users.userDone_call (userId, businessId)
  | registerBusiness result =>
    cases emitted
    exact Users.allowed_accepted lawful skew (by decide) (by decide) (by decide)
      fun a => ⟨ActorType.noConfusion, show trim "business" ≠ "" by decide⟩
  | applyForBeta result =>
    cases emitted
    exact Users.allowed_accepted lawful skew (by decide) (by decide) (by decide)
      fun a => ⟨ActorType.noConfusion, show trim "beta_application" ≠ "" by decide⟩
  | createApiKey result =>
    cases emitted
    refine (Users.tenant_accepted lawful skew (by decide) (by decide) (by decide) (by decide)
      Users.keyDone_call).trans ?_
    simp [Mutation.Reportable, Users.keyDone]
  | revokeApiKey apiKeyId result =>
    cases emitted
    have path : StartsVisible ("/api/v1/api-keys/" ++ apiKeyId.toString ++ "/revoke") :=
      StartsVisible.append (StartsVisible.append ⟨'/', by decide, by decide⟩ _) _
    refine (Users.tenant_accepted lawful skew path.ne_blank (by decide) (by decide) (by decide)
      Users.keyDone_call).trans ?_
    simp [Mutation.Reportable, Users.keyDone]
  | createSdkUser businessId apiKeyId result =>
    cases emitted
    exact iff_of_false (Users.createSdkUser_refused businessId apiKeyId result) (fun both => both.2)
  | createAccount request resolved created =>
    exact Accounts.createAccount_accepted lawful skew emitted
  | updateAccountStatus id status result found =>
    simp only [Mutation.event, Accounts.updateAccountStatus] at emitted
    split at emitted
    · rename_i environment status named
      refine Accounts.report_accepted lawful skew emitted (by decide)
        (Accounts.accountPath_visible id).ne_blank (by decide) (by decide) (Nat.le_add_left 1 14) ?_
      cases status <;> decide
    · exact nomatch emitted
  | closeAccount id result found =>
    simp only [Mutation.event, Accounts.closeAccount] at emitted
    split at emitted
    · exact Accounts.report_accepted lawful skew emitted (by decide)
        (Accounts.accountPath_visible id).ne_blank (by decide) (by decide) (by decide) (by decide)
    · exact nomatch emitted
  | deposit id amount result found | withdraw id amount result found
  | transfer id amount result found =>
    exact Accounts.money_accepted lawful skew emitted (by decide) (by decide)

end

def hexValue (c : Char) : Nat := if c.isDigit then c.toNat - 48 else c.toNat - 87

/-- The hyphenated form, read back. -/
def parseHyphenated (s : String) : Option Uuid :=
  let digits := s.toList.filter (fun c => c ≠ '-')
  if digits.length = 32 then
    some ⟨BitVec.ofNat 128 (digits.foldl (fun n c => 16 * n + hexValue c) 0)⟩
  else none

theorem digits_append (u : Uuid) (start m n : Nat) :
    u.digits start m ++ u.digits (start + m) n = u.digits start (m + n) := by
  simp [Uuid.digits, List.range_add, Nat.add_assoc]

theorem fold_digits (u : Uuid) (k : Nat) (within : k ≤ 32) :
    (u.digits 0 k).foldl (fun n c => 16 * n + hexValue c) 0 = u.bits.toNat / 16 ^ (32 - k) := by
  have value : ∀ m : BitVec 4, hexValue (Uuid.hexDigit m) = m.toNat := by decide
  induction k with
  | zero =>
    have small : u.bits.toNat < 16 ^ 32 := u.bits.isLt
    exact (Nat.div_eq_of_lt small).symm
  | succ k ih =>
    have last : u.digits 0 (k + 1) = u.digits 0 k ++ [u.digit k] := by
      simp [Uuid.digits, List.range_succ]
    have nibble : hexValue (u.digit k) = u.bits.toNat / 16 ^ (31 - k) % 16 := by
      rw [Uuid.digit, value, BitVec.extractLsb'_toNat, Nat.shiftRight_eq_div_pow, Nat.pow_mul]
    have shift : u.bits.toNat / 16 ^ (32 - k) = u.bits.toNat / 16 ^ (31 - k) / 16 := by
      rw [Nat.div_div_eq_div_mul, ← Nat.pow_succ, show (31 - k).succ = 32 - k by omega]
    rw [last, List.foldl_append, ih (by omega), List.foldl_cons, List.foldl_nil, nibble, shift,
      show 32 - (k + 1) = 31 - k by omega]
    omega

theorem parseHyphenated_toString (u : Uuid) : parseHyphenated u.toString = some u := by
  have hyphen : ∀ m : BitVec 4, Uuid.hexDigit m ≠ '-' := by decide
  have kept : ∀ start len, (u.digits start len).filter (fun c => c ≠ '-') = u.digits start len := by
    intro start len
    apply List.filter_eq_self.mpr
    intro c hc
    obtain ⟨i, -, rfl⟩ := List.mem_map.mp hc
    exact decide_eq_true (hyphen _)
  have all : u.toString.toList.filter (fun c => c ≠ '-') = u.digits 0 32 := by
    rw [Uuid.toString, String.toList_ofList]
    simp only [List.filter_append, List.filter_cons, ne_eq, not_true_eq_false, decide_false,
      Bool.false_eq_true, if_false]
    have joined : u.digits 0 32 = u.digits 0 8 ++ u.digits 8 4 ++ u.digits 12 4 ++ u.digits 16 4 ++
        u.digits 20 12 := by
      rw [← digits_append u 0 20 12, ← digits_append u 0 16 4, ← digits_append u 0 12 4,
        ← digits_append u 0 8 4]
    simp only [← ne_eq, kept, joined, List.append_assoc]
  have length : (u.digits 0 32).length = 32 := by
    rw [Uuid.digits, List.length_map, List.length_range]
  have value : u.bits.toNat / 16 ^ (32 - 32) = u.bits.toNat := Nat.div_one _
  simp only [parseHyphenated, all, length, if_pos, fold_digits u 32 le_rfl, value,
    BitVec.ofNat_toNat, BitVec.setWidth_eq]

def epochText : String := "1970-01-01T00:00:00+00:00"

/-- Uuids in hyphenated form, and the first instant as it is printed; other instants in
a form of their own. -/
def sampleLibraries : Libraries where
  parseUuid := parseHyphenated
  toRfc3339 t := if t = 0 then epochText else String.ofList (List.replicate t 'i')
  parseRfc3339 s :=
    if s = epochText then some 0
    else if s.toList.length < yearTenThousand then some s.toList.length else none

theorem sampleLibraries_uuid (u : Uuid) : sampleLibraries.parseUuid u.toString = some u := by
  simp only [sampleLibraries, parseHyphenated_toString]

theorem sampleLibraries_instant (t : Nat) :
    sampleLibraries.parseRfc3339 (sampleLibraries.toRfc3339 t) =
      if t < yearTenThousand then some (t : Int) else none := by
  by_cases first : t = 0
  · rw [first]
    decide +kernel
  · have apart : String.ofList (List.replicate t 'i') ≠ epochText := by
      intro same
      have one : '1' ∈ List.replicate t 'i' := by
        rw [← String.toList_ofList (l := List.replicate t 'i'), same]
        decide
      exact absurd (List.eq_of_mem_replicate one) (by decide)
    simp only [sampleLibraries, if_neg first, if_neg apart, String.toList_ofList,
      List.length_replicate]

theorem sampleLibraries_lawful : sampleLibraries.Lawful :=
  ⟨sampleLibraries_uuid, sampleLibraries_instant⟩

def sampleEmission : Emission := ⟨⟨none, none, none, none, none, none⟩, "127.0.0.1", 0, ⟨3⟩, ⟨4⟩⟩

theorem mutation_accepted_iff_refreshed :
    validateAuditEvent sampleLibraries 0
        (Users.refreshToken sampleLibraries sampleEmission (.ok (⟨9⟩, ⟨1⟩))) = .ok () ↔
      sampleEmission.now < yearTenThousand ∧
        (Mutation.refreshToken (.ok (⟨9⟩, ⟨1⟩))).Reportable :=
  mutation_accepted_iff sampleLibraries_lawful (by decide) rfl

/-- A refresh with an unknown token: the refusal is reported for no organization. -/
theorem failed_refresh_unrecorded : ¬ ∀ (lib : Libraries) (e : Emission) (now : Nat) (m : Mutation)
    (event : AuditEvent), lib.Lawful → e.now < now + fiveMinutes → m.event lib e = some event →
      validateAuditEvent lib now event = .ok () := by
  intro claim
  have accepted := claim sampleLibraries sampleEmission 0 (.refreshToken (.error .unauthorized)) _
    sampleLibraries_lawful (by decide) rfl
  have refused : validateAuditEvent sampleLibraries 0
      (Users.refreshToken sampleLibraries sampleEmission (.error .unauthorized)) =
        .error "organization_id must not be all-zero for this action" := by decide +kernel
  exact nomatch refused.symm.trans accepted

end RailsCore.Audit

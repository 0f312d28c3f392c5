import EvaluationService.Api.Isolation
import EvaluationService.Core.CodePointAuth
import EvaluationService.Storage.Columns

/-!
Admission. A submission passes the body model or the token checks, then the domain model
and the columns of its row. The later ones refuse some of what the first admit: a token
may name a tenant of any length and with lone surrogates, and any text may have a U+0000
in it. Such a refusal is not an application error.
-/

set_option autoImplicit false

namespace EvaluationService

open Foundation

/-! ## The route over code points -/

namespace CodePoints

/-- A body has no surrogates: its model takes none. -/
def tenantFromContextOrRequest (context : Option RequestContext) (tenantId : Option String) :
    Except Exn CodeText :=
  match context with
  | some context => .ok context.tenantId
  | none =>
      match tenantId with
      | none => .error (.app .badRequest)
      | some tenantId => .ok (.ofString tenantId)

structure RateLimiter where
  windowSeconds : Int := 60
  counters : CodeText → Option WindowCounter := fun _ => none

/-- What `check` answers, from the counter that is kept under the key. -/
def RateLimiter.check (limiter : RateLimiter) (now : ℚ) (key : CodeText) (limit : Int) :
    Except Exn Unit :=
  match limiter.counters key with
  | none => .ok ()
  | some counter =>
      if limiter.windowSeconds ≤ now - counter.windowStart then .ok ()
      else if limit ≤ counter.count then .error (.app .rateLimitExceeded)
      else .ok ()

def clientKey (origin : Origin) (routeName : String) (tenantId : CodeText) : CodeText :=
  .ofString (routeName ++ ":") ++ (if tenantId = [] then .ofString "unknown-tenant" else tenantId) ++
    .ofString (":" ++ origin.clientIp)

def checkRateLimit (settings : Settings) (limiter : RateLimiter) (now : ℚ) (origin : Origin)
    (routeName : RouteName) (tenantId : CodeText) : Except Exn Unit :=
  if !settings.rateLimitEnabled then .ok ()
  else limiter.check now (clientKey origin routeName.value tenantId) (routeName.limit settings)

/-- A `str` field takes no lone surrogate. -/
def toEvaluationRequest (payload : SubmitEvaluationRequest) (tenantId : CodeText) :
    Except Exn EvaluationRequest :=
  match tenantId.string? with
  | none => .error .valueError
  | some tenantId => payload.toEvaluationRequest tenantId

/-- `submit_evaluation` up to the call of the job service. -/
def submitEvaluation (settings : Settings) (limiter : RateLimiter) (clock : ℚ)
    (request : RequestState) (context : Option RequestContext) (payload : SubmitEvaluationRequest) :
    Except Exn EvaluationRequest := do
  let tenantId ← tenantFromContextOrRequest context payload.tenantId
  checkRateLimit settings limiter clock request.origin .submitEvaluation tenantId
  toEvaluationRequest payload tenantId

/-! ### Tenants without surrogates -/

/-- The limiter with its keys as code points. -/
def RateLimiter.ofLimiter (limiter : InMemoryRateLimiter) : RateLimiter where
  windowSeconds := limiter.windowSeconds
  counters key := key.string?.bind limiter.counters

theorem check_ofLimiter (limiter : InMemoryRateLimiter) (now : ℚ) (key : String) (limit : Int) :
    (RateLimiter.ofLimiter limiter).check now (.ofString key) limit =
      (limiter.check now key limit).1 := by
  have found : (RateLimiter.ofLimiter limiter).counters (.ofString key) = limiter.counters key := by
    change (CodeText.ofString key).string?.bind limiter.counters = _
    rw [CodeText.string?_ofString, Option.bind_some]
  have window : (RateLimiter.ofLimiter limiter).windowSeconds = limiter.windowSeconds := rfl
  rw [RateLimiter.check, found, window, InMemoryRateLimiter.check]
  cases limiter.counters key with
  | none => rfl
  | some counter =>
      by_cases elapsed : (limiter.windowSeconds : ℚ) ≤ now - counter.windowStart
      · simp [elapsed]
      · by_cases full : limit ≤ counter.count
        · simp [elapsed, full]
        · simp [elapsed, full]

theorem clientKey_ofString (origin : Origin) (routeName tenantId : String) :
    clientKey origin routeName (.ofString tenantId) =
      .ofString (EvaluationService.clientKey origin routeName (some tenantId)) := by
  have part : (if CodeText.ofString tenantId = [] then CodeText.ofString "unknown-tenant"
      else .ofString tenantId) =
        .ofString (((some tenantId).filter (· ≠ "")).getD "unknown-tenant") := by
    by_cases empty : tenantId = ""
    · simp [empty, CodeText.ofString_eq_nil_iff, Option.filter_some]
    · simp [empty, CodeText.ofString_eq_nil_iff, Option.filter_some]
  rw [clientKey, part, EvaluationService.clientKey]
  simp [CodeText.ofString]

/-- For a tenant without surrogates the route is the one of `Api.Routes`. -/
theorem submitEvaluation_ofContext (settings : Settings) (limiter : InMemoryRateLimiter) (clock : ℚ)
    (request : RequestState) (context : Option EvaluationService.RequestContext)
    (payload : SubmitEvaluationRequest) :
    (submitEvaluation settings (.ofLimiter limiter) clock request (context.map .ofContext)
        payload).map .submit =
      (EvaluationService.submitEvaluation settings limiter clock request context payload).1 := by
  have tenant : tenantFromContextOrRequest (context.map .ofContext) payload.tenantId =
      (EvaluationService.tenantFromContextOrRequest context payload.tenantId).map .ofString := by
    cases context with
    | some context => rfl
    | none => cases payload.tenantId <;> rfl
  have limit (tenantId : String) : checkRateLimit settings (.ofLimiter limiter) clock request.origin
      .submitEvaluation (.ofString tenantId) =
        (EvaluationService.checkRateLimit settings limiter clock request.origin .submitEvaluation
          (some tenantId)).1 := by
    rw [checkRateLimit, EvaluationService.checkRateLimit, clientKey_ofString, check_ofLimiter]
    cases settings.rateLimitEnabled <;> rfl
  rw [submitEvaluation, tenant, EvaluationService.submitEvaluation, limited]
  cases EvaluationService.tenantFromContextOrRequest context payload.tenantId with
  | error error => rfl
  | ok tenantId =>
      dsimp only [Except.map, bind, Except.bind]
      rw [limit]
      obtain ⟨outcome, after⟩ := EvaluationService.checkRateLimit settings limiter clock
        request.origin .submitEvaluation (some tenantId)
      cases outcome with
      | error error => rfl
      | ok _ =>
          dsimp only
          rw [toEvaluationRequest, CodeText.string?_ofString]

end CodePoints

/-! ## Storing -/

/-- What storing a new job may raise, the identifier of it being in use nowhere. -/
def StorageBackend.insert (backend : StorageBackend) (job : EvaluationJob) : Except Exn Unit :=
  match backend with
  | .memory => .ok ()
  | .postgres => (EvaluationJobRow.toRow job).insert

/-- `submit_evaluation` up to the stored row. -/
def admitEvaluation (backend : StorageBackend) (settings : Settings)
    (limiter : CodePoints.RateLimiter) (clock : ℚ) (state : RequestState)
    (context : Option CodePoints.RequestContext) (payload : SubmitEvaluationRequest) (draw : Draw) :
    Except Exn Unit := do
  let request ← CodePoints.submitEvaluation settings limiter clock state context payload
  backend.insert (draw.submission request).job

/-- Whatever the rate limiter holds and the clocks read, nothing but an application error is
raised. -/
def RaisesOnlyAppErrors (backend : StorageBackend) (settings : Settings)
    (context : Option CodePoints.RequestContext) (payload : SubmitEvaluationRequest) : Prop :=
  ∀ limiter clock state draw error,
    admitEvaluation backend settings limiter clock state context payload draw = .error error →
    ∃ app, error = .app app

/-- Every body that passes its validation and every tenant source is acceptable downstream. -/
def AcceptsValidated (backend : StorageBackend) : Prop :=
  ∀ loads mac settings now authorization context payload,
    CodePoints.getRequestContext loads mac settings now authorization = .ok context →
    RaisesOnlyAppErrors backend settings context payload

/-- The tenant that a submission is for, if it has one. -/
def submittingTenant? (context : Option CodePoints.RequestContext)
    (payload : SubmitEvaluationRequest) : Option CodeText :=
  match context with
  | some context => some context.tenantId
  | none => payload.tenantId.map .ofString

structure Storable (backend : StorageBackend) (payload : SubmitEvaluationRequest)
    (tenantId : CodeText) : Prop where
  paired : ∀ point ∈ tenantId, ¬point.IsSurrogate
  short : tenantId.length ≤ 128
  nulFree : backend = .postgres → (∀ point ∈ tenantId, point.val ≠ 0) ∧
    NulFree payload.projectId ∧ NulFree payload.question ∧ NulFree payload.answer ∧
    FitsText payload.rubric

theorem nulFree_ofString_iff {text : String} :
    (∀ point ∈ CodeText.ofString text, point.val ≠ 0) ↔ NulFree text :=
  List.forall_mem_map

theorem insert_submission_eq_ok_iff (backend : StorageBackend) (submission : Submission) :
    backend.insert submission.job = .ok () ↔ (backend = .postgres →
      NulFree submission.request.tenantId ∧ NulFree submission.request.projectId ∧
        NulFree submission.request.question ∧ NulFree submission.request.answer ∧
        FitsText submission.request.rubric) := by
  cases backend with
  | memory => simp [StorageBackend.insert]
  | postgres =>
      rw [← fits_toRow_submission_iff]
      simp [StorageBackend.insert, EvaluationJobRow.insert]

theorem insert_cases (backend : StorageBackend) (job : EvaluationJob) :
    backend.insert job = .ok () ∨ ∃ className, backend.insert job = .error (.other className) := by
  cases backend with
  | memory => exact .inl rfl
  | postgres =>
      unfold StorageBackend.insert EvaluationJobRow.insert
      dsimp only
      split
      · exact .inl rfl
      · exact .inr ⟨_, rfl⟩

/-- A submission for a tenant is stored exactly when it is storable, and what else is raised
is no application error. -/
theorem submission_outcome (backend : StorageBackend) (payload : SubmitEvaluationRequest)
    (draw : Draw) {tenantId : CodeText} (nonempty : tenantId ≠ []) :
    let outcome := CodePoints.toEvaluationRequest payload tenantId >>= fun request =>
      backend.insert (draw.submission request).job
    (outcome = .ok () ∧ Storable backend payload tenantId) ∨
      (∃ className, outcome = .error (.other className)) ∧ ¬ Storable backend payload tenantId := by
  intro outcome
  cases isString : tenantId.string? with
  | none =>
      refine .inr ⟨⟨"ValueError", ?_⟩, ?_⟩
      · simp [outcome, CodePoints.toEvaluationRequest, isString]
      · intro storable
        obtain ⟨text, rfl⟩ := CodeText.exists_string storable.paired
        rw [CodeText.string?_ofString] at isString
        cases isString
  | some text =>
      obtain rfl := CodeText.string?_eq_some_iff.mp isString
      have named : 1 ≤ text.length := by
        rw [Nat.one_le_iff_ne_zero, ne_eq, String.length_eq_zero_iff]
        exact mt CodeText.ofString_eq_nil_iff.mpr nonempty
      rcases payload.toEvaluationRequest_cases text with ⟨⟨_, short⟩, request, built, tenant,
        project, question, answer, rubric⟩ | ⟨invalid, refused⟩
      · have stores : outcome = backend.insert (draw.submission request).job := by
          simp [outcome, CodePoints.toEvaluationRequest, isString, built]
        have fits := insert_submission_eq_ok_iff backend (draw.submission request)
        rw [← stores] at fits
        dsimp only [Draw.submission] at fits
        rw [tenant, project, question, answer, rubric, ← nulFree_ofString_iff] at fits
        rcases insert_cases backend (draw.submission request).job with inserted | refused
        · rw [← stores] at inserted
          have paired := CodeText.not_isSurrogate_of_string? isString
          rw [← CodeText.length_ofString] at short
          exact .inl ⟨inserted, paired, short, fits.mp inserted⟩
        · rw [← stores] at refused
          refine .inr ⟨refused, fun storable => ?_⟩
          obtain ⟨className, raised⟩ := refused
          rw [fits.mpr storable.nulFree] at raised
          cases raised
      · refine .inr ⟨⟨"ValueError", ?_⟩, fun storable => invalid ⟨named, ?_⟩⟩
        · simp [outcome, CodePoints.toEvaluationRequest, isString, refused]
        · rw [← CodeText.length_ofString]
          exact storable.short

theorem resolves_iff (context : Option CodePoints.RequestContext)
    (payload : SubmitEvaluationRequest) (tenantId : CodeText) :
    CodePoints.tenantFromContextOrRequest context payload.tenantId = .ok tenantId ↔
      submittingTenant? context payload = some tenantId := by
  unfold CodePoints.tenantFromContextOrRequest submittingTenant?
  cases context with
  | some context => simp
  | none => cases payload.tenantId <;> simp

theorem tenantFromContextOrRequest_error {context : Option CodePoints.RequestContext}
    {tenantId : Option String} {error : Exn}
    (refused : CodePoints.tenantFromContextOrRequest context tenantId = .error error) :
    error = .app .badRequest := by
  unfold CodePoints.tenantFromContextOrRequest at refused
  cases context with
  | some context => cases refused
  | none =>
      cases tenantId with
      | some tenantId => cases refused
      | none =>
          cases refused
          rfl

theorem CodePoints.checkRateLimit_error {settings : Settings} {limiter : CodePoints.RateLimiter}
    {now : ℚ} {origin : Origin} {routeName : RouteName} {tenantId : CodeText} {error : Exn}
    (refused : CodePoints.checkRateLimit settings limiter now origin routeName tenantId =
      .error error) : error = .app .rateLimitExceeded := by
  unfold CodePoints.checkRateLimit CodePoints.RateLimiter.check at refused
  split at refused
  · cases refused
  · split at refused
    · cases refused
    · split at refused
      · cases refused
      · split at refused
        · cases refused
          rfl
        · cases refused

theorem CodePoints.checkRateLimit_first (settings : Settings) (now : ℚ) (origin : Origin)
    (routeName : RouteName) (tenantId : CodeText) :
    CodePoints.checkRateLimit settings {} now origin routeName tenantId = .ok () := by
  unfold CodePoints.checkRateLimit
  split <;> rfl

theorem raisesOnlyAppErrors_iff (backend : StorageBackend) (settings : Settings)
    (context : Option CodePoints.RequestContext) (payload : SubmitEvaluationRequest)
    (named : ∀ tenantId, submittingTenant? context payload = some tenantId → tenantId ≠ []) :
    RaisesOnlyAppErrors backend settings context payload ↔
      ∀ tenantId, submittingTenant? context payload = some tenantId →
        Storable backend payload tenantId := by
  constructor
  · intro raises tenantId submits
    have resolves := (resolves_iff context payload tenantId).mpr submits
    rcases submission_outcome backend payload ⟨0, 0, 0, 0⟩ (named tenantId submits) with
      ⟨_, storable⟩ | ⟨⟨className, raised⟩, _⟩
    · exact storable
    · have passed := CodePoints.checkRateLimit_first settings 0 ⟨none, none⟩ .submitEvaluation
        tenantId
      obtain ⟨app, isApp⟩ := raises {} 0 ⟨⟨none, none⟩, ""⟩ ⟨0, 0, 0, 0⟩ (.other className) (by
        simpa [admitEvaluation, CodePoints.submitEvaluation, resolves, passed] using raised)
      cases isApp
  · intro storable limiter clock state draw error raised
    cases resolves : CodePoints.tenantFromContextOrRequest context payload.tenantId with
    | error refused =>
        have isRefused : refused = error := by
          simpa [admitEvaluation, CodePoints.submitEvaluation, resolves] using raised
        subst isRefused
        exact ⟨_, tenantFromContextOrRequest_error resolves⟩
    | ok tenantId =>
        have submits := (resolves_iff context payload tenantId).mp resolves
        cases checked : CodePoints.checkRateLimit settings limiter clock state.origin
            .submitEvaluation tenantId with
        | error refused =>
            have isRefused : refused = error := by
              simpa [admitEvaluation, CodePoints.submitEvaluation, resolves, checked] using raised
            subst isRefused
            exact ⟨_, CodePoints.checkRateLimit_error checked⟩
        | ok _ =>
            have builds : (CodePoints.toEvaluationRequest payload tenantId >>= fun request =>
                backend.insert (draw.submission request).job) = .error error := by
              simpa [admitEvaluation, CodePoints.submitEvaluation, resolves, checked] using raised
            rcases submission_outcome backend payload draw (named tenantId submits) with
              ⟨stored, _⟩ | ⟨_, unstorable⟩
            · rw [stored] at builds
              cases builds
            · exact absurd (storable tenantId submits) unstorable

/-! ## Bearers -/

section Bearers

variable {loads : Bytes → Except Exn CodePoints.Json} {settings : Settings} {now : DateTime}
variable {header payload : List (CodeText × CodePoints.Json)}

theorem splitOn_token (header payload signature : Bytes) :
    Text.splitOn '.' (Text.join '.' [base64urlEncode header, base64urlEncode payload,
        base64urlEncode signature]) =
      [base64urlEncode header, base64urlEncode payload, base64urlEncode signature] := by
  apply Text.splitOn_join (by simp)
  intro part member dotted
  simp only [List.mem_cons, List.not_mem_nil, or_false] at member
  rcases member with rfl | rfl | rfl
  all_goals exact (plain_base64urlEncode dotted).2 rfl

/-- Documents that `json.loads` reads as a header and as valid claims have a token. -/
theorem CodePoints.exists_bearer (digest : Bytes → Bytes → Bytes)
    {headerDocument payloadDocument : Bytes} {context : CodePoints.RequestContext}
    (enabled : settings.authEnabled = true)
    (headerLoaded : loads headerDocument = .ok (.object header))
    (payloadLoaded : loads payloadDocument = .ok (.object payload))
    (algorithm : (header.lookup (.ofString "alg")).bind CodePoints.Json.str? =
      some (.ofString "HS256"))
    (claims : CodePoints.validateClaims settings now payload = .ok context) :
    ∃ authorization, CodePoints.getRequestContext loads (.exact digest) settings now
      (some authorization) = .ok (some context) := by
  obtain ⟨message, encoded⟩ := exists_encodeAscii_join
    (fun _ member => (@plain_base64urlEncode headerDocument _ member).1)
    fun _ member => (@plain_base64urlEncode payloadDocument _ member).1
  have parts := splitOn_token headerDocument payloadDocument
    (digest (encodeUtf8 settings.authDemoSecret) message)
  generalize Text.join '.' [base64urlEncode headerDocument, base64urlEncode payloadDocument,
    base64urlEncode (digest (encodeUtf8 settings.authDemoSecret) message)] = token at parts
  have nonempty : token ≠ "" := by
    rintro rfl
    have alone : Text.splitOn '.' "" = [""] := by decide
    rw [alone] at parts
    have lengths := congrArg List.length parts
    cases lengths
  have validated : CodePoints.validateDemoJwt loads (.exact digest) token settings now =
      .ok context := by
    simp [CodePoints.validateDemoJwt, CodePoints.decodeTokenParts, parts, CodePoints.decodeParts,
      base64urlDecode_encode, headerLoaded, payloadLoaded, unauthorizedOnValueError, algorithm,
      encoded, Except.mapError, Mac.exact, claims]
  refine ⟨"Bearer " ++ token, ?_⟩
  simp [CodePoints.getRequestContext, enabled, bearerToken?_bearer nonempty, validated, Except.map]

end Bearers

/-- A submission that was admitted at the boundary raises nothing but application errors
exactly when it has no tenant or can be stored for its tenant: the tenant has no lone
surrogate and at most 128 characters and, in PostgreSQL, no text has a U+0000. -/
theorem submission_accepted_iff (backend : StorageBackend)
    (loads : Bytes → Except Exn CodePoints.Json) (mac : Mac) (settings : Settings) (now : DateTime)
    (authorization : Option String) (context : Option CodePoints.RequestContext)
    (payload : SubmitEvaluationRequest)
    (validated : CodePoints.getRequestContext loads mac settings now authorization = .ok context) :
    RaisesOnlyAppErrors backend settings context payload ↔
      ∀ tenantId, submittingTenant? context payload = some tenantId →
        Storable backend payload tenantId := by
  refine raisesOnlyAppErrors_iff backend settings context payload ?_
  intro tenantId submits empty
  subst empty
  cases context with
  | none =>
      obtain ⟨given, isGiven, empty⟩ := Option.map_eq_some_iff.mp submits
      obtain rfl := CodeText.ofString_eq_nil_iff.mp empty
      exact absurd (payload.tenantIdLength "" isGiven).1 (by decide)
  | some caller => exact CodePoints.tenantId_ne_nil validated (Option.some.inj submits)

/-- A body with a question of its own, for a tenant of its own. -/
def localPayload (question : String) (length : LengthBetween 1 10000 question) :
    SubmitEvaluationRequest where
  tenantId := some "tenant-a"
  projectId := demoRequest.projectId
  question := question
  answer := demoRequest.answer
  tenantIdLength := by
    intro given isGiven
    obtain rfl := Option.some.inj isGiven
    decide
  projectIdLength := demoRequest.projectIdLength
  questionLength := length
  answerLength := demoRequest.answerLength
  rubricLength := demoRequest.rubricLength

theorem not_raisesOnlyAppErrors_nul :
    ¬ RaisesOnlyAppErrors .postgres {} none (localPayload "Why\x00?" (by decide)) := by
  intro raises
  have named : ∀ tenantId, submittingTenant? none (localPayload "Why\x00?" (by decide)) =
      some tenantId → tenantId ≠ [] := by
    intro tenantId submits
    obtain rfl := Option.some.inj submits
    decide
  have storable := (raisesOnlyAppErrors_iff _ _ _ _ named).mp raises _ rfl
  exact absurd (storable.nulFree rfl).2.2.1 (by decide)

theorem not_raisesOnlyAppErrors_caller (backend : StorageBackend) (settings : Settings)
    (payload : SubmitEvaluationRequest) {caller : CodePoints.RequestContext}
    (named : caller.tenantId ≠ []) (unstorable : ¬Storable backend payload caller.tenantId) :
    ¬ RaisesOnlyAppErrors backend settings (some caller) payload := by
  intro raises
  have submitted : ∀ tenantId, submittingTenant? (some caller) payload = some tenantId →
      tenantId ≠ [] := by
    intro tenantId submits
    obtain rfl := Option.some.inj submits
    exact named
  exact unstorable ((raisesOnlyAppErrors_iff _ _ _ _ submitted).mp raises caller.tenantId rfl)

/-! ### A long name -/

/-- A tenant whose name has some length. -/
def tenantOf (length : Nat) : String := String.ofList (List.replicate length 'a')

theorem length_tenantOf (length : Nat) : (tenantOf length).length = length := by
  simp [tenantOf]

/-- The keyed hash of the signing input of a token for `tenantOf 129` under the default secret. -/
def longDigest : Bytes :=
  [212, 173, 48, 41, 182, 170, 170, 33, 12, 48, 105, 48, 175, 48, 78, 32, 210, 171, 169, 123, 160, 224,
    189, 121, 169, 2, 9, 105, 164, 76, 123, 148]

theorem exists_bearer_long :
    ∃ loads authorization, CodePoints.getRequestContext loads (.exact fun _ _ => longDigest)
      { authEnabled := true } 1767225660000000 (some authorization) =
        .ok (some (.ofContext ⟨tenantOf 129, "user-1", []⟩)) := by
  have tenant : tenantOf 129 ≠ "" := by
    intro empty
    have none := length_tenantOf 129
    rw [empty] at none
    cases none
  have live : timestampSeconds 1767225660000000 <
      timestampSeconds (1767225600000000 + 3600000000) := by decide
  obtain ⟨authorization, validated⟩ := @exists_bearer (fun _ _ => longDigest)
    { authEnabled := true } rfl (by decide) (tenantOf 129) "user-1" tenant (by decide) [] 3600000000
    1767225600000000 1767225660000000 live
  refine ⟨CodePoints.ofLoads (loadsOnly (demoPayload { authEnabled := true } (tenantOf 129) "user-1"
    [] 3600000000 1767225600000000)), authorization, ?_⟩
  rw [CodePoints.getRequestContext_ofLoads, validated]
  rfl

/-! ### A lone surrogate -/

def loneHeader : Bytes := encodeUtf8 "\x7b\"alg\":\"HS256\",\"typ\":\"JWT\"\x7d"

/-- A signed document with an escape that is no half of a pair. -/
def loneDocument : Bytes :=
  encodeUtf8 ("\x7b\"iss\":\"llm-evaluation-service\",\"aud\":\"llm-evaluation-service\",\"sub\":\"user-1\"," ++
    "\"tenant_id\":\"\\ud800\",\"exp\":1767229200\x7d")

def loneTenant : CodeText := [0xD800]

def lonePayload : List (CodeText × CodePoints.Json) :=
  [(.ofString "iss", .str (.ofString "llm-evaluation-service")),
    (.ofString "aud", .str (.ofString "llm-evaluation-service")),
    (.ofString "sub", .str (.ofString "user-1")), (.ofString "tenant_id", .str loneTenant),
    (.ofString "exp", .int 1767229200)]

/-- `json.loads` on the two documents. -/
def loadsLone (document : Bytes) : Except Exn CodePoints.Json :=
  if document = loneDocument then .ok (.object lonePayload)
  else if document = loneHeader then
    .ok (.object
      [(.ofString "alg", .str (.ofString "HS256")), (.ofString "typ", .str (.ofString "JWT"))])
  else .error (.other "JSONDecodeError")

theorem exists_bearer_lone (digest : Bytes → Bytes → Bytes) :
    ∃ authorization, CodePoints.getRequestContext loadsLone (.exact digest) { authEnabled := true }
      1767225660000000 (some authorization) = .ok (some ⟨loneTenant, .ofString "user-1", []⟩) := by
  have other : loneHeader ≠ loneDocument := by decide +kernel
  have claims : CodePoints.validateClaims { authEnabled := true } 1767225660000000 lonePayload =
      .ok ⟨loneTenant, .ofString "user-1", []⟩ := by
    decide +kernel
  refine CodePoints.exists_bearer digest rfl ((if_neg other).trans (if_pos rfl)) (if_pos rfl) ?_
    claims
  rfl

/-- The token of a tenant with a long name or with a lone surrogate is accepted and its
submissions are not; nor are those with a U+0000 in a text, where they go to PostgreSQL. -/
theorem not_acceptsValidated :
    ¬ AcceptsValidated .memory ∧ ¬ AcceptsValidated .postgres ∧
      ∃ authorization caller, CodePoints.getRequestContext loadsLone (.exact fun _ _ => longDigest)
          { authEnabled := true } 1767225660000000 (some authorization) = .ok (some caller) ∧
        ∀ backend payload, ¬ RaisesOnlyAppErrors backend { authEnabled := true } (some caller)
          payload := by
  refine ⟨?_, ?_, ?_⟩
  · intro accepts
    obtain ⟨loads, authorization, validated⟩ := exists_bearer_long
    have raises := accepts _ _ _ _ _ _ mislabelledPayload validated
    refine not_raisesOnlyAppErrors_caller _ _ _ (CodePoints.tenantId_ne_nil validated) ?_ raises
    intro storable
    have short := storable.short
    dsimp only [CodePoints.RequestContext.ofContext] at short
    rw [CodeText.length_ofString, length_tenantOf] at short
    exact absurd short (by decide)
  · intro accepts
    exact not_raisesOnlyAppErrors_nul (accepts (CodePoints.ofLoads (loadsOnly [])) demoMac {} 0 none
      none (localPayload "Why\x00?" (by decide)) rfl)
  · obtain ⟨authorization, validated⟩ := exists_bearer_lone fun _ _ => longDigest
    refine ⟨authorization, _, validated, ?_⟩
    intro backend payload
    refine not_raisesOnlyAppErrors_caller _ _ _ (CodePoints.tenantId_ne_nil validated) ?_
    intro storable
    exact storable.paired 0xD800 List.mem_cons_self (by decide)

/-- Without authentication a plain body is stored, and one with a U+0000 fails. -/
theorem submission_accepted_iff_local :
    RaisesOnlyAppErrors .postgres {} none (localPayload "Why?" (by decide)) ∧
      ¬ RaisesOnlyAppErrors .postgres {} none (localPayload "Why\x00?" (by decide)) := by
  constructor
  · refine (submission_accepted_iff .postgres (CodePoints.ofLoads (loadsOnly [])) demoMac {} 0 none
      none _ rfl).mpr ?_
    intro tenantId submits
    obtain rfl := Option.some.inj submits
    refine ⟨CodeText.not_isSurrogate_of_string? (CodeText.string?_ofString "tenant-a"), ?_,
      fun _ => ?_⟩
    · rw [CodeText.length_ofString]
      decide
    · exact ⟨nulFree_ofString_iff.mpr (by decide), by decide, by decide, by decide, by decide⟩
  · intro raises
    have storable := (submission_accepted_iff .postgres (CodePoints.ofLoads (loadsOnly [])) demoMac
      {} 0 none none _ rfl).mp raises _ rfl
    exact absurd (storable.nulFree rfl).2.2.1 (by decide)

end EvaluationService

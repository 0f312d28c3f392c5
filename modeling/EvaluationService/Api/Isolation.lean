import EvaluationService.Api.Answers
import EvaluationService.Api.Server
import EvaluationService.Core.AuthErrors
import EvaluationService.Services.SystemProperties

/-!
Tenant isolation. With authentication the tenant of a request is that of its token,
whatever its body or its query says. A tenant sees only jobs that it submitted, whatever
the others do, and the jobs of others change nothing that it sees.
-/

set_option autoImplicit false

namespace EvaluationService

open Foundation

/-! ## What is asked for -/

section Property

variable (backend : StorageBackend) (loads : Bytes → Except Exn Json) (mac : Mac)
variable (settings : Settings)

/-- A request of the caller that got as far as the job service. -/
def Admitted (caller : RequestContext) (endpoint : Endpoint) (awaited : Awaited) : Prop :=
  ∃ limiter clock state,
    (endpoint.handle settings limiter clock state (some caller)).1 = .ok awaited

structure TenantIsolation : Prop where
  /-- A request that is answered with a body has a validated token. -/
  identified : ∀ evaluator staleJobSeconds trace pool index request context body,
    ApiReaches loads mac settings (buildRepository backend) evaluator staleJobSeconds trace pool →
    pool.threads index = some (.request (.answered request context (.ok body))) →
    ∃ caller now, context = some caller ∧
      getRequestContext loads mac settings now request.authorization = .ok (some caller)
  /-- The jobs that appear in it were submitted under a token of the same tenant. -/
  owned : ∀ evaluator staleJobSeconds trace pool index request caller body jobId,
    ApiReaches loads mac settings (buildRepository backend) evaluator staleJobSeconds trace pool →
    pool.threads index = some (.request (.answered request (some caller) (.ok body))) →
    jobId ∈ body.jobIds →
    ∃ submitter submission, (some submitter, submission) ∈ pool.store.issued ∧
      submitter.tenantId = caller.tenantId ∧ submission.jobId = jobId
  /-- The tenant's `get_evaluation` of such a job is answered, and with that job. -/
  retrievable : ∀ evaluator staleJobSeconds trace pool index request caller body jobId,
    ApiReaches loads mac settings (buildRepository backend) evaluator staleJobSeconds trace pool →
    pool.threads index = some (.request (.answered request (some caller) (.ok body))) →
    jobId ∈ body.jobIds →
    ∀ reader query requestId draw, reader.tenantId = caller.tenantId →
      (∃ awaited, Admitted settings reader (.getEvaluation jobId query) awaited) ∧
      ∃ job : EvaluationJob, job.jobId = jobId ∧ job.tenantId = caller.tenantId ∧
        ∀ awaited answer, Admitted settings reader (.getEvaluation jobId query) awaited →
          (Answers (buildRepository backend) pool.store.service.store requestId draw awaited answer ↔
            answer = .ok (.found (job.toResponse requestId)))
  /-- The answers from a store depend on the tenant's own jobs only. -/
  unaffected : ∀ caller endpoint awaited store other requestId draw,
    Admitted settings caller endpoint awaited →
    SameTenantJobs caller.tenantId backend store other →
    awaited.Fresh ((buildRepository backend).job? store) draw →
    awaited.Fresh ((buildRepository backend).job? other) draw →
    ∀ answer, Answers (buildRepository backend) store requestId draw awaited answer ↔
      Answers (buildRepository backend) other requestId draw awaited answer
  /-- A job of another tenant is answered for as one that does not exist. -/
  hidden : ∀ caller jobId query endpoint awaited store requestId draw,
    endpoint = .getEvaluation jobId query ∨ endpoint = .getEvaluationDetails jobId query →
    Admitted settings caller endpoint awaited →
    (∀ job, (buildRepository backend).job? store jobId = some job →
      job.tenantId ≠ caller.tenantId) →
    ∀ answer, Answers (buildRepository backend) store requestId draw awaited answer ↔
      answer = .error .notFoundError

end Property

/-! ## The tenant of a request -/

theorem limited_eq_ok {settings : Settings} {limiter : InMemoryRateLimiter} {clock : ℚ}
    {state : RequestState} {caller : RequestContext} {routeName : RouteName}
    {tenantId : Option String} {handler : String → Except Exn Awaited} {awaited : Awaited}
    (admitted : (limited settings limiter clock state (some caller) routeName tenantId handler).1 =
      .ok awaited) : handler caller.tenantId = .ok awaited := by
  rcases limited_cases with ⟨app, refused⟩ | ⟨resolved, resolves, handled⟩
  · rw [refused] at admitted
    cases admitted
  · cases resolves
    rw [handled] at admitted
    exact admitted

theorem toEvaluationRequest_tenantId {payload : SubmitEvaluationRequest} {tenantId : String}
    {request : EvaluationRequest} (built : payload.toEvaluationRequest tenantId = .ok request) :
    request.tenantId = tenantId := by
  rcases payload.toEvaluationRequest_cases tenantId with ⟨_, _, isBuilt, tenant, _⟩ | ⟨_, refused⟩
  · rw [isBuilt] at built
    cases built
    exact tenant
  · rw [refused] at built
    cases built

/-- The tenant of a request is that of its token. -/
theorem Admitted.tenantId {settings : Settings} {caller : RequestContext} {endpoint : Endpoint}
    {awaited : Awaited} (admitted : Admitted settings caller endpoint awaited) :
    awaited.tenantId = caller.tenantId := by
  obtain ⟨limiter, clock, state, handled⟩ := admitted
  cases endpoint with
  | submitEvaluation payload =>
      have submits := limited_eq_ok handled
      cases built : payload.toEvaluationRequest caller.tenantId with
      | error error =>
          rw [built] at submits
          cases submits
      | ok request =>
          rw [built] at submits
          cases submits
          exact toEvaluationRequest_tenantId built
  | listEvaluations _ _ _ =>
      cases limited_eq_ok handled
      rfl
  | getEvaluationDetails _ _ =>
      cases limited_eq_ok handled
      rfl
  | getEvaluation _ _ =>
      cases limited_eq_ok handled
      rfl

theorem getRequestContext_eq_some {loads : Bytes → Except Exn Json} {mac : Mac} {settings : Settings}
    {now : DateTime} {authorization : Option String} {context : Option RequestContext}
    (enabled : settings.authEnabled = true)
    (validated : getRequestContext loads mac settings now authorization = .ok context) :
    ∃ caller, context = some caller := by
  rcases getRequestContext_eq_ok validated with ⟨disabled, _⟩ | ⟨_, _, _, _, _, caller, _, isCaller⟩
  · rw [enabled] at disabled
    cases disabled
  · exact ⟨caller, isCaller⟩

/-! ## Whole runs -/

/-- The submissions are the issued ones, each for the tenant of its token. -/
structure ApiWorld.Issued {repository : JobRepository} (evaluator : EvaluatorBehavior)
    (world : ApiWorld repository) : Prop where
  traced : world.service.Traced evaluator
  submitted : world.issued.map Prod.snd = world.service.submissions
  tenant : ∀ entry ∈ world.issued, ∃ submitter, entry.1 = some submitter ∧
    entry.2.request.tenantId = submitter.tenantId

section Runs

variable (loads : Bytes → Except Exn Json) (mac : Mac) (settings : Settings)

def Validated (request : HttpRequest) (caller : RequestContext) : Prop :=
  ∃ now, getRequestContext loads mac settings now request.authorization = .ok (some caller)

/-- What a request waits for or was answered with belongs to the tenant of its token. -/
def RequestThread.Confined (store : Lookup) : RequestThread → Prop
  | waiting request context awaited => ∃ caller, context = some caller ∧
      Validated loads mac settings request caller ∧ awaited.tenantId = caller.tenantId
  | answered request context answer => ∀ body, answer = .ok body → ∃ caller,
      context = some caller ∧ Validated loads mac settings request caller ∧
      ∀ jobId ∈ body.jobIds, ∃ job, store jobId = some job ∧ job.tenantId = caller.tenantId

def ApiThread.Confined {repository : JobRepository} (evaluator : EvaluatorBehavior)
    (world : ApiWorld repository) : ApiThread → Prop
  | background thread => thread.Sound evaluator world.service
  | request thread => thread.Confined loads mac settings (repository.job? world.service.store)

end Runs

section Runs

variable {loads : Bytes → Except Exn Json} {mac : Mac} {settings : Settings}
variable {repository : JobRepository} {release : Option DateTime → Option DateTime}
variable {evaluator : EvaluatorBehavior} {staleJobSeconds : Int}
variable {world next : ApiWorld repository} {draw : Draw} {awaited : Awaited}

theorem RequestThread.Confined.stable {before after : Lookup} {thread : RequestThread}
    (confined : thread.Confined loads mac settings before) (keeps : KeepsSubmissions before after) :
    thread.Confined loads mac settings after := by
  cases thread with
  | waiting _ _ _ => exact confined
  | answered _ _ _ =>
      intro body answered
      obtain ⟨caller, isCaller, validated, owned⟩ := confined body answered
      refine ⟨caller, isCaller, validated, ?_⟩
      intro jobId member
      obtain ⟨job, stored, tenant⟩ := owned jobId member
      obtain ⟨later, kept, same⟩ := keeps jobId job stored
      exact ⟨later, kept, same.tenantId.trans tenant⟩

theorem receive_confined (enabled : settings.authEnabled = true) (limiter : InMemoryRateLimiter)
    (now : DateTime) (clock : ℚ) (request : HttpRequest) (store : Lookup) :
    (receive loads mac settings limiter now clock request).1.Confined loads mac settings store := by
  unfold receive
  split
  · intro body answered
    cases answered
  · rename_i context validated
    obtain ⟨caller, rfl⟩ := getRequestContext_eq_some enabled validated
    split
    · intro body answered
      cases answered
    · rename_i awaited _ handled
      have admitted : Admitted settings caller request.endpoint awaited :=
        ⟨limiter, clock, request.state, congrArg Prod.fst handled⟩
      exact ⟨caller, rfl, ⟨now, validated⟩, admitted.tenantId⟩

theorem World.Traced.of_same {service after : World repository} (traced : service.Traced evaluator)
    (stored : repository.job? after.store = repository.job? service.store)
    (submissions : after.submissions = service.submissions) : after.Traced evaluator := by
  obtain ⟨origin, isStored, unique⟩ := traced
  rw [← stored, ← submissions] at origin isStored
  rw [← submissions] at unique
  exact ⟨origin, isStored, unique⟩

theorem ApiWorld.Issued.submits (implements : Implements repository release)
    (issued : world.Issued evaluator) {request : EvaluationRequest} {caller : RequestContext}
    {outcome : Except Exn EvaluationJob} {store : repository.State}
    (fresh : repository.job? world.service.store draw.jobId = none)
    (stepped : repository.Step world.service.store
      ⟨draw.now, .create (draw.submission request).job, .job outcome⟩ store)
    (tenant : request.tenantId = caller.tenantId) :
    (world.respond (some caller) (.submit request) draw (.job outcome) store).Issued evaluator ∧
      KeepsSubmissions (repository.job? world.service.store) (repository.job? store) := by
  have submits : World.Submits repository world.service (draw.submission request)
      (world.respond (some caller) (.submit request) draw (.job outcome) store).service :=
    ⟨fresh, outcome, stepped, rfl, rfl⟩
  obtain ⟨traced, keeps⟩ := issued.traced.submits implements submits
  refine ⟨⟨traced, ?_, ?_⟩, keeps⟩
  · dsimp only [ApiWorld.respond, Awaited.submissions]
    rw [List.map_append, issued.submitted]
    rfl
  · intro entry member
    rcases List.mem_append.mp member with earlier | last
    · exact issued.tenant entry earlier
    · obtain rfl := List.mem_singleton.mp last
      exact ⟨caller, rfl, tenant⟩

theorem ApiWorld.Issued.reads (implements : Implements repository release)
    (issued : world.Issued evaluator) {context : Option RequestContext} {reply : RepositoryReply}
    {store : repository.State} (reads : ∀ request, awaited ≠ .submit request)
    (stepped : repository.Step world.service.store ⟨draw.now, awaited.call draw, reply⟩ store) :
    (world.respond context awaited draw reply store).Issued evaluator ∧
      KeepsSubmissions (repository.job? world.service.store) (repository.job? store) := by
  have kept := lookup_of_read implements reads stepped
  have none : awaited.submissions draw = [] := by
    cases awaited with
    | submit request => exact absurd rfl (reads request)
    | _ => rfl
  constructor
  · refine ⟨issued.traced.of_same kept ?_, ?_, ?_⟩
    · dsimp only [ApiWorld.respond]
      rw [none, List.append_nil]
    · dsimp only [ApiWorld.respond]
      rw [none, List.map_nil, List.append_nil, List.append_nil]
      exact issued.submitted
    · dsimp only [ApiWorld.respond]
      rw [none, List.map_nil, List.append_nil]
      exact issued.tenant
  · rw [kept]
    exact .refl _

theorem ApiWorld.Issued.responds (implements : Implements repository release)
    (issued : world.Issued evaluator) {caller : RequestContext} {reply : RepositoryReply}
    {store : repository.State} {requestId : String} {answer : Except Exn Body}
    (tenant : awaited.tenantId = caller.tenantId)
    (fresh : awaited.Fresh (repository.job? world.service.store) draw)
    (stepped : repository.Step world.service.store ⟨draw.now, awaited.call draw, reply⟩ store)
    (answered : awaited.answer requestId draw reply = some answer) :
    (world.respond (some caller) awaited draw reply store).Issued evaluator ∧
      KeepsSubmissions (repository.job? world.service.store) (repository.job? store) := by
  cases awaited with
  | submit request =>
      cases reply with
      | job outcome => exact issued.submits implements (fresh request rfl) stepped tenant
      | _ => cases answered
  | listRecent _ _ _ => exact issued.reads implements (by intro _ submits; cases submits) stepped
  | details _ _ => exact issued.reads implements (by intro _ submits; cases submits) stepped
  | get _ _ => exact issued.reads implements (by intro _ submits; cases submits) stepped

theorem ApiReaches.confined (implements : Implements repository release)
    (enabled : settings.authEnabled = true) {trace : ApiTrace repository}
    {pool : Pool (ApiWorld repository) ApiThread}
    (reached : ApiReaches loads mac settings repository evaluator staleJobSeconds trace pool) :
    pool.Holds (ApiWorld.Issued evaluator) (ApiThread.Confined loads mac settings evaluator) := by
  refine Pool.holds_of_run (ApiWorld.Issued evaluator)
    (ApiThread.Confined loads mac settings evaluator)
    (fun world next => KeepsSubmissions (repository.job? world.service.store)
      (repository.job? next.service.store)) ?_ ?_ ?_ ?_ reached ?_
  · intro world next thread confined keeps
    cases thread with
    | background thread => exact fun task working => (confined task working).stable keeps
    | request thread => exact RequestThread.Confined.stable confined keeps
  · intro world input
    exact input.elim
  · intro world next thread issued starts
    cases starts with
    | background started =>
        rcases started with ⟨jobId, rfl, rfl⟩ | ⟨rfl, rfl⟩
        · refine ⟨issued, ?_, .refl _⟩
          intro task working
          cases working
          trivial
        · refine ⟨⟨issued.traced.of_same rfl rfl, issued.submitted, issued.tenant⟩, ?_, .refl _⟩
          intro task working
          cases working
    | request =>
        exact ⟨⟨issued.traced, issued.submitted, issued.tenant⟩,
          receive_confined enabled _ _ _ _ _, .refl _⟩
  · intro world thread action next following issued confined acts
    cases acts with
    | background acted =>
        have keeps := World.Acts.keeps implements acted
        obtain ⟨_, _, _, _, submissions, _⟩ := id acted
        refine ⟨⟨issued.traced.acts implements confined acted, ?_, issued.tenant⟩,
          Thread.Sound.acts implements confined acted, keeps⟩
        exact issued.submitted.trans submissions.symm
    | respond fresh stepped answered =>
        obtain ⟨caller, rfl, validated, tenant⟩ := confined
        obtain ⟨kept, keeps⟩ := issued.responds implements tenant fresh stepped answered
        refine ⟨kept, ?_, keeps⟩
        intro body isBody
        subst isBody
        refine ⟨caller, rfl, validated, ?_⟩
        rw [← tenant]
        exact answer_owned implements fresh stepped answered
  · refine ⟨World.traced_initial implements, rfl, ?_⟩
    intro entry member
    cases member

/-- The jobs in an answer are stored jobs of the caller's tenant. -/
theorem ApiReaches.answered_owned (implements : Implements repository release)
    (enabled : settings.authEnabled = true) {trace : ApiTrace repository}
    {pool : Pool (ApiWorld repository) ApiThread}
    (reached : ApiReaches loads mac settings repository evaluator staleJobSeconds trace pool)
    {index : Nat} {request : HttpRequest} {caller : RequestContext} {body : Body} {jobId : UUID}
    (answered : pool.threads index =
      some (.request (.answered request (some caller) (.ok body)))) (member : jobId ∈ body.jobIds) :
    ∃ job, repository.job? pool.store.service.store jobId = some job ∧
      job.tenantId = caller.tenantId := by
  obtain ⟨_, confined⟩ := reached.confined implements enabled
  obtain ⟨given, isGiven, _, owned⟩ := confined index _ answered body rfl
  obtain rfl := Option.some.inj isGiven
  exact owned jobId member

end Runs

theorem awaited_getEvaluation {settings : Settings} {caller : RequestContext} {jobId : UUID}
    {query : QueryText} {awaited : Awaited}
    (admitted : Admitted settings caller (.getEvaluation jobId query) awaited) :
    awaited = .get jobId caller.tenantId := by
  obtain ⟨limiter, clock, state, handled⟩ := admitted
  exact (Except.ok.inj (limited_eq_ok handled)).symm

theorem awaited_getEvaluationDetails {settings : Settings} {caller : RequestContext} {jobId : UUID}
    {query : QueryText} {awaited : Awaited}
    (admitted : Admitted settings caller (.getEvaluationDetails jobId query) awaited) :
    awaited = .details jobId caller.tenantId := by
  obtain ⟨limiter, clock, state, handled⟩ := admitted
  exact (Except.ok.inj (limited_eq_ok handled)).symm

theorem exists_admitted_getEvaluation (settings : Settings) (caller : RequestContext) (jobId : UUID)
    (query : QueryText) : ∃ awaited, Admitted settings caller (.getEvaluation jobId query) awaited :=
  ⟨_, {}, 0, ⟨⟨none, none⟩, ""⟩, limited_first rfl⟩

theorem filter_eq_none_of_foreign {entry : Option EvaluationJob} {tenantId : String}
    (foreign : ∀ job, entry = some job → job.tenantId ≠ tenantId) :
    entry.filter (fun job => job.tenantId = tenantId) = none := by
  cases entry with
  | none => rfl
  | some job => simp [Option.filter, foreign job rfl]

/-- With authentication no tenant sees another one's jobs or anything of them. -/
theorem tenant_isolation (backend : StorageBackend) (loads : Bytes → Except Exn Json) (mac : Mac)
    (settings : Settings) (enabled : settings.authEnabled = true) :
    TenantIsolation backend loads mac settings := by
  have implements := buildRepository_implements backend
  constructor
  · intro evaluator staleJobSeconds trace pool index request context body reached answered
    obtain ⟨_, confined⟩ := reached.confined implements enabled
    obtain ⟨caller, rfl, ⟨now, validated⟩, _⟩ := confined index _ answered body rfl
    exact ⟨caller, now, rfl, validated⟩
  · intro evaluator staleJobSeconds trace pool index request caller body jobId reached answered member
    obtain ⟨job, stored, tenant⟩ := reached.answered_owned implements enabled answered member
    obtain ⟨issued, _⟩ := reached.confined implements enabled
    obtain ⟨submission, submitted, identified, same, _⟩ := issued.traced.origin jobId job stored
    rw [← issued.submitted] at submitted
    obtain ⟨⟨context, given⟩, entered, rfl⟩ := List.mem_map.mp submitted
    obtain ⟨submitter, isSubmitter, tenantOf⟩ := issued.tenant _ entered
    dsimp only at isSubmitter tenantOf
    subst isSubmitter
    exact ⟨submitter, given, entered, tenantOf.symm.trans (same.tenantId.symm.trans tenant),
      identified⟩
  · intro evaluator staleJobSeconds trace pool index request caller body jobId reached answered member
      reader query requestId draw sameTenant
    obtain ⟨job, stored, tenant⟩ := reached.answered_owned implements enabled answered member
    refine ⟨exists_admitted_getEvaluation settings reader jobId query, job,
      implements.identified stored, tenant, ?_⟩
    intro awaited answer admitted
    rw [awaited_getEvaluation admitted, answers_get_iff implements, stored, sameTenant]
    simp [Option.filter, tenant, foundOr404, Except.map]
  · intro caller endpoint awaited store other requestId draw admitted same fresh otherFresh answer
    exact ⟨same.answers admitted.tenantId otherFresh, same.symm.answers admitted.tenantId fresh⟩
  · intro caller jobId query endpoint awaited store requestId draw isRead admitted foreign answer
    rcases isRead with rfl | rfl
    · rw [awaited_getEvaluation admitted, answers_get_iff implements,
        filter_eq_none_of_foreign foreign]
      rfl
    · rw [awaited_getEvaluationDetails admitted, answers_details_iff implements,
        filter_eq_none_of_foreign foreign]
      rfl

theorem receive_waiting {loads : Bytes → Except Exn Json} {mac : Mac} {settings : Settings}
    {limiter : InMemoryRateLimiter} {now : DateTime} {clock : ℚ} {request : HttpRequest}
    {context : Option RequestContext} {awaited : Awaited}
    (validated : getRequestContext loads mac settings now request.authorization = .ok context)
    (handled : (request.endpoint.handle settings limiter clock request.state context).1 =
      .ok awaited) :
    (receive loads mac settings limiter now clock request).1 = .waiting request context awaited := by
  unfold receive
  rw [validated]
  dsimp only
  generalize request.endpoint.handle settings limiter clock request.state context = result at handled
  obtain ⟨outcome, after⟩ := result
  dsimp only at handled
  subst handled
  rfl

/-- The first submission with a token that is accepted is answered with its new job. -/
theorem exists_answered_submit {loads : Bytes → Except Exn Json} {mac : Mac} {settings : Settings}
    {repository : JobRepository} {release : Option DateTime → Option DateTime}
    (implements : Implements repository release) (evaluator : EvaluatorBehavior)
    (staleJobSeconds : Int) {now : DateTime} {authorization : String} {caller : RequestContext}
    (validated : getRequestContext loads mac settings now (some authorization) = .ok (some caller))
    {payload : SubmitEvaluationRequest} {evaluation : EvaluationRequest}
    (built : payload.toEvaluationRequest caller.tenantId = .ok evaluation) (draw : Draw)
    (state : RequestState) :
    ∃ trace pool request,
      ApiReaches loads mac settings repository evaluator staleJobSeconds trace pool ∧
      pool.threads 0 = some (.request (.answered request (some caller)
        (.ok (.submitted ⟨draw.jobId, .queued, state.requestId⟩)))) := by
  let request : HttpRequest := ⟨.submitEvaluation payload, some authorization, state⟩
  have handled : (request.endpoint.handle settings {} 0 state (some caller)).1 =
      .ok (.submit evaluation) := by
    refine (limited_first rfl).trans ?_
    rw [built]
    rfl
  have received : (receive loads mac settings {} now 0 request).1 =
      .waiting request (some caller) (.submit evaluation) := receive_waiting validated handled
  have fresh : (Awaited.submit evaluation).Fresh
      (repository.job? (ApiWorld.initial repository).service.store) draw :=
    fun _ _ => implements.empty _
  obtain ⟨_, reply, store, stepped, answered⟩ :=
    (answers_submit_iff implements fresh).mpr (Eq.refl
      (Except.ok (Body.submitted ⟨draw.jobId, .queued, state.requestId⟩)))
  let world : ApiWorld repository :=
    { ApiWorld.initial repository with limiter := (receive loads mac settings {} now 0 request).2 }
  let waiting : Pool (ApiWorld repository) ApiThread :=
    ⟨world, Function.update (fun _ => none) 0
      (some (.request (.waiting request (some caller) (.submit evaluation))))⟩
  have starts : (api loads mac settings repository evaluator staleJobSeconds).Step
      (.idle (.initial repository)) (.start 0) waiting := by
    refine .start rfl ?_
    rw [← received]
    exact @ApiWorld.Starts.request loads mac settings repository (.initial repository) now 0 request
  have acts : ApiWorld.Acts repository evaluator staleJobSeconds world
      (.request (.waiting request (some caller) (.submit evaluation))) (.respond draw) _ _ :=
    .respond fresh stepped answered
  have responds : (api loads mac settings repository evaluator staleJobSeconds).Step waiting
      (.act 0 (.respond draw)) _ := .act rfl acts
  exact ⟨_, _, request, (Run.single starts).append (.single responds), rfl⟩

/-- A body that names another tenant than the token it comes with. -/
def mislabelledPayload : SubmitEvaluationRequest where
  tenantId := some "tenant-b"
  projectId := demoRequest.projectId
  question := demoRequest.question
  answer := demoRequest.answer
  tenantIdLength := by
    intro given isGiven
    obtain rfl := Option.some.inj isGiven
    decide
  projectIdLength := demoRequest.projectIdLength
  questionLength := demoRequest.questionLength
  answerLength := demoRequest.answerLength
  rubricLength := demoRequest.rubricLength

/-- The job belongs to the tenant of the token. -/
theorem tenant_isolation_mislabelled :
    ∃ trace pool request caller body, ApiReaches (loadsOnly demoClaims)
        (.exact fun _ _ => demoDigest) { authEnabled := true } (buildRepository .postgres)
        Evaluator.arbitrary 300 trace pool ∧
      pool.threads 0 = some (.request (.answered request (some caller) (.ok body))) ∧
      caller.tenantId = "tenant-a" ∧ body.jobIds = [7] ∧
      ∃ submitter submission, (some submitter, submission) ∈ pool.store.issued ∧
        submitter.tenantId = "tenant-a" ∧ submission.jobId = 7 := by
  have live : timestampSeconds 1767225660000000 <
      timestampSeconds (1767225600000000 + 3600000000) := by decide
  obtain ⟨authorization, accepted⟩ := @exists_bearer (fun _ _ => demoDigest) { authEnabled := true }
    rfl (by decide) "tenant-a" "user-1" (by decide) (by decide) ["evaluations:read"] _ _ _ live
  have built : mislabelledPayload.toEvaluationRequest "tenant-a" = .ok demoRequest :=
    dif_pos (by decide)
  obtain ⟨trace, pool, request, reached, answered⟩ :=
    exists_answered_submit (buildRepository_implements .postgres) Evaluator.arbitrary 300 accepted
      built ⟨7, 0, 0, 0⟩ ⟨⟨none, none⟩, "request-1"⟩
  have owned := (tenant_isolation .postgres _ _ { authEnabled := true } rfl).owned _ _ _ _ 0 request
    _ _ 7 reached answered (List.mem_singleton_self _)
  exact ⟨trace, pool, request, _, _, reached, answered, rfl, rfl, owned⟩

end EvaluationService

import EvaluationService.Api.Isolation
import EvaluationService.Storage.Listing

/-!
What clients learn from one answer to the next. Answers come at any point of a run, to any
requests; each shows jobs as they were stored then, so that a later answer never takes back what
an earlier one has shown.
-/

set_option autoImplicit false

namespace EvaluationService

open Foundation

/-! ## What an answer shows -/

/-- The jobs whose state an answer shows; a submission is answered with an identifier only. -/
def Body.summaries : Body → List EvaluationJobSummary
  | submitted _ => []
  | listed response => response.jobs
  | details response => [response.toEvaluationJobSummary]
  | found response => [response.toEvaluationJobSummary]

/-- A later view of a job that was shown before. -/
structure EvaluationJobSummary.Follows (shown next : EvaluationJobSummary) : Prop where
  jobId : next.jobId = shown.jobId
  tenantId : next.tenantId = shown.tenantId
  projectId : next.projectId = shown.projectId
  createdAt : next.createdAt = shown.createdAt
  maxAttempts : next.maxAttempts = shown.maxAttempts
  attempts : shown.attemptCount ≤ next.attemptCount
  /-- A job that was seen to end stays as it was seen, in every field. -/
  ended : shown.status.Terminal → next = shown
  /-- A job that is queued again says why. -/
  requeued : next.status = .queued → next = shown ∨ next.errorMessage = some EvaluationJob.requeueMessage

namespace EvaluationJobSummary.Follows

variable {shown middle next : EvaluationJobSummary}

theorem refl (shown : EvaluationJobSummary) : shown.Follows shown :=
  ⟨rfl, rfl, rfl, rfl, rfl, le_refl _, fun _ => rfl, fun _ => .inl rfl⟩

theorem trans (first : shown.Follows middle) (last : middle.Follows next) : shown.Follows next where
  jobId := last.jobId.trans first.jobId
  tenantId := last.tenantId.trans first.tenantId
  projectId := last.projectId.trans first.projectId
  createdAt := last.createdAt.trans first.createdAt
  maxAttempts := last.maxAttempts.trans first.maxAttempts
  attempts := first.attempts.trans last.attempts
  ended := by
    intro terminal
    have same := first.ended terminal
    rw [← same] at terminal
    exact (last.ended terminal).trans same
  requeued := by
    intro queued
    rcases last.requeued queued with rfl | message
    · exact first.requeued queued
    · exact .inr message

end EvaluationJobSummary.Follows

section Store

variable {release : Option DateTime → Option DateTime} {now : DateTime} {jobId : UUID}
variable {job next : EvaluationJob} {call : RepositoryCall} {reply : RepositoryReply}

theorem JobChange.follows (changed : JobChange release now jobId job call reply next) :
    job.toSummary.Follows next.toSummary where
  jobId := changed.sameSubmission.jobId
  tenantId := changed.sameSubmission.tenantId
  projectId := changed.sameSubmission.projectId
  createdAt := changed.sameSubmission.createdAt
  maxAttempts := changed.sameSubmission.maxAttempts
  attempts := by
    cases changed with
    | claimed _ _ =>
        change job.attemptCount ≤ job.attemptCount + 1
        omega
    | _ => exact le_refl _
  ended := fun terminal => absurd terminal changed.not_terminal
  requeued := by
    intro queued
    cases changed with
    | requeued _ _ => exact .inr rfl
    | _ => cases queued

variable {repository : JobRepository} {history : repository.History} {state final : repository.State}

/-- Whatever happens to a store, its jobs go on as what was shown of them. -/
theorem JobRepository.follows_of_run (implements : Implements repository release)
    (run : Run repository.Operates state history final)
    (stored : repository.job? state jobId = some job) :
    ∃ next, repository.job? final jobId = some next ∧ job.toSummary.Follows next.toSummary := by
  induction run with
  | nil => exact ⟨job, stored, .refl _⟩
  | @snoc earlier middle last event prior operates ih =>
      obtain ⟨current, currentStored, follows⟩ := ih
      have entry := implements.entry operates jobId
      rw [currentStored] at entry
      generalize repository.job? last jobId = after at entry
      cases entry with
      | kept _ => exact ⟨current, rfl, follows⟩
      | changed change => exact ⟨_, rfl, follows.trans change.follows⟩

end Store

/-! ## Answers of a run -/

section Runs

variable {loads : Bytes → Except Exn Json} {mac : Mac} {settings : Settings}
variable {repository : JobRepository} {release : Option DateTime → Option DateTime}
variable {evaluator : EvaluatorBehavior} {staleJobSeconds : Int}

/-- The step answers a request that waited for `awaited`. -/
def Responds (taken : Transition (Pool (ApiWorld repository) ApiThread) (PoolEvent Empty ApiAction))
    (awaited : Awaited) (answer : Except Exn Body) : Prop :=
  ∃ index draw request context, taken.event = .act index (.respond draw) ∧
    taken.source.threads index = some (.request (.waiting request context awaited)) ∧
    taken.target.threads index = some (.request (.answered request context answer))

/-- A step of the API is a repository call, or nothing to the repository. -/
theorem api_step_operates {pool target : Pool (ApiWorld repository) ApiThread}
    {event : PoolEvent Empty ApiAction}
    (stepped : (api loads mac settings repository evaluator staleJobSeconds).Step pool event target) :
    target.store.service.store = pool.store.service.store ∨
      ∃ seen, repository.Operates pool.store.service.store seen target.store.service.store := by
  cases stepped with
  | @arrive input _ _ => exact input.elim
  | start _ starts =>
      cases starts with
      | background started =>
          rcases started with ⟨_, _, rfl⟩ | ⟨_, rfl⟩
          · exact .inl rfl
          · exact .inl rfl
      | request => exact .inl rfl
  | act _ acts =>
      cases acts with
      | background acted =>
          rcases World.Acts.operates acted with same | ⟨call, now, reply, _, operates⟩
          · exact .inl same
          · exact .inr ⟨_, operates⟩
      | @respond _ _ awaited draw reply _ _ fresh stepped _ =>
          refine .inr ⟨⟨draw.now, awaited.call draw, reply⟩, ?_, stepped⟩
          intro job creates
          cases awaited with
          | submit request =>
              cases creates
              exact ⟨(draw.submission request).submitted, fresh request rfl⟩
          | listRecent _ _ _ => cases creates
          | details _ _ => cases creates
          | get _ _ => cases creates

variable {taken : Transition (Pool (ApiWorld repository) ApiThread) (PoolEvent Empty ApiAction)}
variable {awaited : Awaited} {answer : Except Exn Body}

/-- An answer is made of the reply to one call on the store of that moment. -/
theorem Responds.performed
    (stepped : (api loads mac settings repository evaluator staleJobSeconds).Step taken.source
      taken.event taken.target)
    (responds : Responds taken awaited answer) :
    ∃ draw requestId reply, awaited.Fresh (repository.job? taken.source.store.service.store) draw ∧
      repository.Step taken.source.store.service.store ⟨draw.now, awaited.call draw, reply⟩
        taken.target.store.service.store ∧
      awaited.answer requestId draw reply = some answer := by
  obtain ⟨source, event, target⟩ := taken
  obtain ⟨index, draw, request, context, happens, waits, isAnswered⟩ := responds
  dsimp only at happens waits isAnswered stepped ⊢
  subst happens
  cases stepped with
  | act found acts =>
      rw [waits] at found
      cases found
      cases acts with
      | respond fresh performed answered =>
          dsimp only at isAnswered
          rw [Function.update_self] at isAnswered
          cases isAnswered
          exact ⟨draw, _, _, fresh, performed, answered⟩

/-- What happens to the store from one answer to a later one. -/
theorem ApiReaches.between {trace earlier between later : ApiTrace repository}
    {pool : Pool (ApiWorld repository) ApiThread}
    {first second : Transition (Pool (ApiWorld repository) ApiThread) (PoolEvent Empty ApiAction)}
    (reached : ApiReaches loads mac settings repository evaluator staleJobSeconds trace pool)
    (split : trace = earlier ++ first :: (between ++ second :: later)) :
    (api loads mac settings repository evaluator staleJobSeconds).Step first.source first.event
        first.target ∧
      (∃ history, Run repository.Operates first.target.store.service.store history
        second.source.store.service.store) ∧
      (api loads mac settings repository evaluator staleJobSeconds).Step second.source second.event
        second.target := by
  subst split
  obtain ⟨_, firstStep, rest⟩ := Run.around reached
  obtain ⟨middle, secondStep, _⟩ := rest.around
  have view := Run.abstracts (fun pool : Pool (ApiWorld repository) ApiThread =>
    pool.store.service.store) (fun _ _ _ => api_step_operates) middle
  exact ⟨firstStep, view, secondStep⟩

end Runs

section Answers

variable {repository : JobRepository} {release : Option DateTime → Option DateTime}
variable {store after : repository.State} {draw : Draw} {awaited : Awaited}
variable {requestId : String} {reply : RepositoryReply} {body : Body}

theorem lookup_shows (implements : Implements repository release) {jobId : UUID}
    {tenantId : String} {respond : EvaluationJob → Body}
    (about : ∀ job, (respond job).summaries = [job.toSummary])
    (answered : (foundOr404 ((repository.job? store jobId).filter fun job =>
      job.tenantId = tenantId)).map respond = .ok body) :
    ∀ shown ∈ body.summaries, ∃ job, shown = job.toSummary ∧
      repository.job? store shown.jobId = some job ∧ job.tenantId = tenantId := by
  cases outcome : foundOr404 ((repository.job? store jobId).filter fun job =>
      job.tenantId = tenantId) with
  | error error =>
      rw [outcome] at answered
      cases answered
  | ok job =>
      rw [outcome] at answered
      cases answered
      rw [foundOr404_eq_ok_iff, Option.filter_eq_some_iff] at outcome
      obtain ⟨stored, tenant⟩ := outcome
      intro shown member
      rw [about, List.mem_singleton] at member
      subst member
      have same : job.toSummary.jobId = jobId := implements.identified stored
      rw [same]
      exact ⟨job, rfl, stored, of_decide_eq_true tenant⟩

/-- The jobs that an answer shows are stored as they are shown, before it and after it. -/
theorem answer_shows (implements : Implements repository release)
    (stepped : repository.Step store ⟨draw.now, awaited.call draw, reply⟩ after)
    (fresh : awaited.Fresh (repository.job? store) draw)
    (answered : awaited.answer requestId draw reply = some (.ok body)) :
    ∀ shown ∈ body.summaries, ∃ job, shown = job.toSummary ∧
      repository.job? store shown.jobId = some job ∧
      repository.job? after shown.jobId = some job ∧ job.tenantId = awaited.tenantId := by
  have effect := Awaited.effect implements fresh stepped
  intro shown member
  cases awaited with
  | submit request =>
      obtain ⟨rfl, _⟩ := effect.create_eq
      cases answered
      cases member
  | listRecent tenantId projectId limit =>
      obtain ⟨kept, listed, rfl, _, members, _⟩ := effect.listRecent_eq
      cases answered
      obtain ⟨job, taken, rfl⟩ := List.mem_map.mp member
      obtain ⟨stored, tenant, _⟩ := (members job).mp (List.mem_of_mem_take taken)
      rw [kept]
      exact ⟨job, rfl, stored, stored, tenant⟩
  | details jobId tenantId =>
      obtain ⟨rfl, kept⟩ := effect.getForTenant_eq
      obtain ⟨job, isShown, stored, tenant⟩ :=
        lookup_shows implements (fun _ => rfl) (Option.some.inj answered) shown member
      rw [kept]
      exact ⟨job, isShown, stored, stored, tenant⟩
  | get jobId tenantId =>
      obtain ⟨rfl, kept⟩ := effect.getForTenant_eq
      obtain ⟨job, isShown, stored, tenant⟩ :=
        lookup_shows implements (fun _ => rfl) (Option.some.inj answered) shown member
      rw [kept]
      exact ⟨job, isShown, stored, stored, tenant⟩

end Answers

/-! ## Two answers of a run -/

section Property

variable (backend : StorageBackend) (loads : Bytes → Except Exn Json) (mac : Mac)
variable (settings : Settings) (evaluator : EvaluatorBehavior) (staleJobSeconds : Int)

/-- `first` and `second` are steps of one run, the second after the first. -/
def InOrder
    (first second : Transition (Pool (ApiWorld (buildRepository backend)) ApiThread)
      (PoolEvent Empty ApiAction)) : Prop :=
  ∃ pool earlier between later,
    ApiReaches loads mac settings (buildRepository backend) evaluator staleJobSeconds
      (earlier ++ first :: (between ++ second :: later)) pool

structure AnswersAgree
    (first second : Transition (Pool (ApiWorld (buildRepository backend)) ApiThread)
      (PoolEvent Empty ApiAction)) : Prop where
  /-- Two views of a job, in whatever answers, are in the order of the answers. -/
  follows : ∀ asked later body laterBody shown next,
    Responds first asked (.ok body) → Responds second later (.ok laterBody) →
    shown ∈ body.summaries → next ∈ laterBody.summaries → next.jobId = shown.jobId →
    shown.Follows next
  /-- A job that an answer mentioned is found by every later request of the tenant for it. -/
  found : ∀ asked body jobId answer, Responds first asked (.ok body) → jobId ∈ body.jobIds →
    (Responds second (.get jobId asked.tenantId) answer →
      ∃ response, answer = .ok (.found response) ∧ response.jobId = jobId) ∧
    (Responds second (.details jobId asked.tenantId) answer →
      ∃ response, answer = .ok (.details response) ∧ response.jobId = jobId)
  /-- The details of a submitted job are what was submitted. -/
  submitted : ∀ request body jobId response, Responds first (.submit request) (.ok body) →
    jobId ∈ body.jobIds →
    Responds second (.details jobId request.tenantId) (.ok (.details response)) →
    response.request = request
  /-- A later list of the tenant leaves out a job that was shown only if it is full of jobs
  that are no older. -/
  listed : ∀ asked body shown projectId limit jobs, Responds first asked (.ok body) →
    shown ∈ body.summaries → (∀ project ∈ projectId, shown.projectId = project) →
    Responds second (.listRecent asked.tenantId projectId limit) (.ok (.listed jobs)) →
    (∃ next ∈ jobs.jobs, next.jobId = shown.jobId) ∨
      jobs.jobs.length = limit ∧ ∀ next ∈ jobs.jobs, shown.createdAt ≤ next.createdAt

end Property

section Ordered

variable {backend : StorageBackend} {loads : Bytes → Except Exn Json} {mac : Mac}
variable {settings : Settings} {evaluator : EvaluatorBehavior} {staleJobSeconds : Int}
variable {first second : Transition (Pool (ApiWorld (buildRepository backend)) ApiThread)
  (PoolEvent Empty ApiAction)}
variable {asked : Awaited} {body : Body}

/-- A stored job is still stored at the second step, as a later view of it. -/
theorem InOrder.stored
    (ordered : InOrder backend loads mac settings evaluator staleJobSeconds first second)
    {jobId : UUID} {job : EvaluationJob}
    (stored : (buildRepository backend).job? first.target.store.service.store jobId = some job) :
    ∃ next, (buildRepository backend).job? second.source.store.service.store jobId = some next ∧
      job.SameSubmission next ∧ job.toSummary.Follows next.toSummary := by
  obtain ⟨pool, earlier, between, later, reached⟩ := ordered
  obtain ⟨_, ⟨history, run⟩, _⟩ := reached.between rfl
  have implements := buildRepository_implements backend
  obtain ⟨next, found, same⟩ := JobRepository.sameSubmission_of_run implements run stored
  obtain ⟨other, otherFound, follows⟩ := JobRepository.follows_of_run implements run stored
  obtain rfl := Option.some.inj (found.symm.trans otherFound)
  exact ⟨next, found, same, follows⟩

theorem InOrder.first_performed
    (ordered : InOrder backend loads mac settings evaluator staleJobSeconds first second)
    {answer : Except Exn Body} (responds : Responds first asked answer) :
    ∃ draw requestId reply,
      asked.Fresh ((buildRepository backend).job? first.source.store.service.store) draw ∧
      (buildRepository backend).Step first.source.store.service.store
        ⟨draw.now, asked.call draw, reply⟩ first.target.store.service.store ∧
      asked.answer requestId draw reply = some answer := by
  obtain ⟨pool, earlier, between, later, reached⟩ := ordered
  exact responds.performed (reached.between rfl).1

theorem InOrder.second_performed
    (ordered : InOrder backend loads mac settings evaluator staleJobSeconds first second)
    {answer : Except Exn Body} (responds : Responds second asked answer) :
    ∃ draw requestId reply,
      asked.Fresh ((buildRepository backend).job? second.source.store.service.store) draw ∧
      (buildRepository backend).Step second.source.store.service.store
        ⟨draw.now, asked.call draw, reply⟩ second.target.store.service.store ∧
      asked.answer requestId draw reply = some answer := by
  obtain ⟨pool, earlier, between, later, reached⟩ := ordered
  exact responds.performed (reached.between rfl).2.2

/-- The first answer's jobs, as they are stored when the second is given. -/
theorem InOrder.shown_stored
    (ordered : InOrder backend loads mac settings evaluator staleJobSeconds first second)
    (responds : Responds first asked (.ok body)) {shown : EvaluationJobSummary}
    (member : shown ∈ body.summaries) :
    ∃ next,
      (buildRepository backend).job? second.source.store.service.store shown.jobId = some next ∧
      next.tenantId = asked.tenantId ∧ shown.Follows next.toSummary := by
  obtain ⟨draw, requestId, reply, fresh, stepped, answered⟩ := ordered.first_performed responds
  obtain ⟨job, isShown, _, stored, tenant⟩ :=
    answer_shows (buildRepository_implements backend) stepped fresh answered shown member
  obtain ⟨next, found, same, follows⟩ := ordered.stored stored
  rw [isShown]
  rw [isShown] at found
  exact ⟨next, found, same.tenantId.trans tenant, follows⟩

theorem InOrder.mentioned_stored
    (ordered : InOrder backend loads mac settings evaluator staleJobSeconds first second)
    (responds : Responds first asked (.ok body)) {jobId : UUID} (member : jobId ∈ body.jobIds) :
    ∃ next, (buildRepository backend).job? second.source.store.service.store jobId = some next ∧
      next.tenantId = asked.tenantId := by
  obtain ⟨draw, requestId, reply, fresh, stepped, answered⟩ := ordered.first_performed responds
  obtain ⟨job, stored, tenant⟩ :=
    answer_owned (buildRepository_implements backend) fresh stepped answered jobId member
  obtain ⟨next, found, same, _⟩ := ordered.stored stored
  exact ⟨next, found, same.tenantId.trans tenant⟩

/-- A submitted job keeps its request. -/
theorem InOrder.submitted_stored {request : EvaluationRequest}
    (ordered : InOrder backend loads mac settings evaluator staleJobSeconds first second)
    (responds : Responds first (.submit request) (.ok body)) {jobId : UUID}
    (member : jobId ∈ body.jobIds) :
    ∃ next, (buildRepository backend).job? second.source.store.service.store jobId = some next ∧
      next.tenantId = request.tenantId ∧ next.request = request := by
  obtain ⟨draw, requestId, reply, fresh, stepped, answered⟩ := ordered.first_performed responds
  obtain ⟨rfl, stored⟩ :=
    (Awaited.effect (buildRepository_implements backend) fresh stepped).create_eq
  cases answered
  obtain rfl := List.mem_singleton.mp member
  have isStored : (buildRepository backend).job? first.target.store.service.store draw.jobId =
      some (draw.submission request).job := by
    rw [stored]
    exact Function.update_self _ _ _
  obtain ⟨next, found, same, _⟩ := ordered.stored isStored
  exact ⟨next, found, same.tenantId, same.request⟩

/-- What a lookup of a stored job of the tenant is answered with. -/
theorem InOrder.looked_up
    (ordered : InOrder backend loads mac settings evaluator staleJobSeconds first second)
    {jobId : UUID} {tenantId : String} {job : EvaluationJob} {answer : Except Exn Body}
    (stored : (buildRepository backend).job? second.source.store.service.store jobId = some job)
    (tenant : job.tenantId = tenantId) :
    (Responds second (.get jobId tenantId) answer →
      ∃ requestId, answer = .ok (.found (job.toResponse requestId))) ∧
    (Responds second (.details jobId tenantId) answer →
      ∃ requestId, answer = .ok (.details (job.toDetailResponse requestId))) := by
  have implements := buildRepository_implements backend
  have found : foundOr404 ((some job).filter fun job => job.tenantId = tenantId) = .ok job := by
    simp [Option.filter, tenant, foundOr404]
  constructor
  · intro responds
    obtain ⟨draw, requestId, reply, fresh, stepped, answered⟩ := ordered.second_performed responds
    have isAnswer := (answers_get_iff implements jobId tenantId).mp ⟨fresh, reply, _, stepped, answered⟩
    rw [stored, found] at isAnswer
    exact ⟨requestId, isAnswer⟩
  · intro responds
    obtain ⟨draw, requestId, reply, fresh, stepped, answered⟩ := ordered.second_performed responds
    have isAnswer :=
      (answers_details_iff implements jobId tenantId).mp ⟨fresh, reply, _, stepped, answered⟩
    rw [stored, found] at isAnswer
    exact ⟨requestId, isAnswer⟩

/-- A stored job is in a list of its tenant, or the list is full of jobs no older than it. -/
theorem InOrder.listed_or_full
    (ordered : InOrder backend loads mac settings evaluator staleJobSeconds first second)
    {job : EvaluationJob} {tenantId : String} {projectId : Option String} {limit : Nat}
    {response : EvaluationListResponse}
    (stored : (buildRepository backend).job? second.source.store.service.store job.jobId = some job)
    (matching : job.Listed tenantId projectId)
    (responds : Responds second (.listRecent tenantId projectId limit) (.ok (.listed response))) :
    job.toSummary ∈ response.jobs ∨
      response.jobs.length = limit ∧ ∀ next ∈ response.jobs, job.createdAt ≤ next.createdAt := by
  obtain ⟨draw, requestId, reply, fresh, stepped, answered⟩ := ordered.second_performed responds
  obtain ⟨listed, rfl, _, members, descending⟩ :=
    (buildRepository_implements backend).listRecent stepped
  cases answered
  have member : job ∈ listed := (members job).mpr ⟨stored, matching⟩
  by_cases taken : job ∈ listed.take limit
  · exact .inl (List.mem_map_of_mem taken)
  · refine .inr ⟨?_, ?_⟩
    · have long : limit < listed.length := by
        by_contra short
        rw [List.take_of_length_le (not_lt.mp short)] at taken
        exact taken member
      rw [List.length_map, List.length_take]
      omega
    · intro next isNext
      obtain ⟨kept, isKept, rfl⟩ := List.mem_map.mp isNext
      exact le_of_not_mem_take descending member taken isKept

/-- Whatever runs in between, the answers of a run agree, in their order. -/
theorem answers_agree (backend : StorageBackend) (loads : Bytes → Except Exn Json) (mac : Mac)
    (settings : Settings) (evaluator : EvaluatorBehavior) (staleJobSeconds : Int)
    (first second : Transition (Pool (ApiWorld (buildRepository backend)) ApiThread)
      (PoolEvent Empty ApiAction))
    (ordered : InOrder backend loads mac settings evaluator staleJobSeconds first second) :
    AnswersAgree backend first second := by
  constructor
  · intro asked later body laterBody shown next responds laterResponds member laterMember same
    obtain ⟨current, stored, _, follows⟩ := ordered.shown_stored responds member
    obtain ⟨draw, requestId, reply, fresh, stepped, answered⟩ :=
      ordered.second_performed laterResponds
    obtain ⟨job, rfl, found, _⟩ :=
      answer_shows (buildRepository_implements backend) stepped fresh answered next laterMember
    rw [same, stored] at found
    obtain rfl := Option.some.inj found
    exact follows
  · intro asked body jobId answer responds member
    obtain ⟨next, stored, tenant⟩ := ordered.mentioned_stored responds member
    have identified := (buildRepository_implements backend).identified stored
    obtain ⟨gets, details⟩ := ordered.looked_up stored tenant
    constructor
    · intro laterResponds
      obtain ⟨requestId, rfl⟩ := gets laterResponds
      exact ⟨_, rfl, identified⟩
    · intro laterResponds
      obtain ⟨requestId, rfl⟩ := details laterResponds
      exact ⟨_, rfl, identified⟩
  · intro request body jobId response responds member laterResponds
    obtain ⟨next, stored, tenant, same⟩ := ordered.submitted_stored responds member
    obtain ⟨requestId, isAnswer⟩ := (ordered.looked_up stored tenant).2 laterResponds
    cases isAnswer
    exact same
  · intro asked body shown projectId limit jobs responds member matching laterResponds
    obtain ⟨next, stored, tenant, follows⟩ := ordered.shown_stored responds member
    have identified := (buildRepository_implements backend).identified stored
    have isListed : next.Listed asked.tenantId projectId := by
      refine ⟨tenant, ?_⟩
      intro project given
      exact follows.projectId.trans (matching project given)
    rw [← identified] at stored
    rcases ordered.listed_or_full stored isListed laterResponds with inList | ⟨full, newer⟩
    · exact .inl ⟨_, inList, follows.jobId⟩
    · refine .inr ⟨full, ?_⟩
      intro other isOther
      exact follows.createdAt.symm.le.trans (newer other isOther)

end Ordered

/-! ## A submission and its details -/

/-- A request that is received can be answered in the next step. -/
theorem ApiReaches.exists_response {loads : Bytes → Except Exn Json} {mac : Mac}
    {settings : Settings} {repository : JobRepository} {evaluator : EvaluatorBehavior}
    {staleJobSeconds : Int} {trace : ApiTrace repository}
    {pool : Pool (ApiWorld repository) ApiThread} {request : HttpRequest}
    {context : Option RequestContext} {awaited : Awaited} {draw : Draw} {answer : Except Exn Body}
    {now : DateTime} {clock : ℚ} (index : Nat)
    (reached : ApiReaches loads mac settings repository evaluator staleJobSeconds trace pool)
    (free : pool.threads index = none)
    (received : (receive loads mac settings pool.store.limiter now clock request).1 =
      .waiting request context awaited)
    (answers : Answers repository pool.store.service.store request.state.requestId draw awaited
      answer) :
    ∃ start taken, ApiReaches loads mac settings repository evaluator staleJobSeconds
        (trace ++ start :: [taken]) taken.target ∧
      Responds taken awaited answer ∧
      ∀ other, other ≠ index → taken.target.threads other = pool.threads other := by
  obtain ⟨fresh, reply, store, stepped, answered⟩ := answers
  let world : ApiWorld repository := { pool.store with
    limiter := (receive loads mac settings pool.store.limiter now clock request).2 }
  let waiting : Pool (ApiWorld repository) ApiThread :=
    ⟨world, Function.update pool.threads index (some (.request (.waiting request context awaited)))⟩
  have starts : (api loads mac settings repository evaluator staleJobSeconds).Step pool
      (.start index) waiting := by
    refine .start free ?_
    rw [← received]
    exact @ApiWorld.Starts.request loads mac settings repository pool.store now clock request
  have acts : ApiWorld.Acts repository evaluator staleJobSeconds world
      (.request (.waiting request context awaited)) (.respond draw) _ _ :=
    .respond fresh stepped answered
  have waits : waiting.threads index = some (.request (.waiting request context awaited)) :=
    Function.update_self _ _ _
  have responds : (api loads mac settings repository evaluator staleJobSeconds).Step waiting
      (.act index (.respond draw)) _ := .act waits acts
  refine ⟨_, ⟨waiting, _, _⟩, Run.append reached ((Run.single starts).append (.single responds)), ?_, ?_⟩
  · exact ⟨index, draw, request, context, rfl, waits, Function.update_self _ _ _⟩
  · intro other different
    exact (Function.update_of_ne different _ _).trans (Function.update_of_ne different _ _)

def demoBody : SubmitEvaluationRequest where
  tenantId := some demoRequest.tenantId
  projectId := demoRequest.projectId
  question := demoRequest.question
  answer := demoRequest.answer
  tenantIdLength := by
    intro given isGiven
    obtain rfl := Option.some.inj isGiven
    exact demoRequest.tenantIdLength
  projectIdLength := demoRequest.projectIdLength
  questionLength := demoRequest.questionLength
  answerLength := demoRequest.answerLength
  rubricLength := demoRequest.rubricLength

theorem answers_agree_submitted :
    ∃ first second, InOrder .postgres (fun _ => .error (.other "JSONDecodeError")) demoMac
        { rateLimitEnabled := false } Evaluator.arbitrary 300 first second ∧
      Responds first (.submit demoRequest) (.ok (.submitted ⟨7, .queued, "request-1"⟩)) ∧
      ∃ response, Responds second (.details 7 "tenant-a") (.ok (.details response)) ∧
        response.request = demoRequest := by
  have implements := buildRepository_implements .postgres
  let settings : Settings := { rateLimitEnabled := false }
  let loads : Bytes → Except Exn Json := fun _ => .error (.other "JSONDecodeError")
  let state : RequestState := ⟨⟨none, none⟩, "request-1"⟩
  have submits : (submitEvaluation settings {} 0 state none demoBody).1 = .ok (.submit demoRequest) := by
    refine (limited_first rfl).trans ?_
    rw [show demoBody.toEvaluationRequest demoRequest.tenantId = .ok demoRequest from
      dif_pos demoRequest.tenantIdLength]
    rfl
  have submitted : (receive loads demoMac settings {} 0 0 ⟨.submitEvaluation demoBody, none, state⟩).1 =
      .waiting _ none (.submit demoRequest) := receive_waiting rfl submits
  obtain ⟨start, first, reached, responds, others⟩ := @ApiReaches.exists_response loads demoMac
    settings (buildRepository .postgres) Evaluator.arbitrary 300 [] (.idle (.initial _)) _ _ _
    ⟨7, 0, 0, 0⟩ _ 0 0 0 .nil rfl submitted
    ((answers_submit_iff implements fun _ _ => implements.empty _).mpr rfl)
  have looksUp : (receive loads demoMac settings first.target.store.limiter 0 0
      ⟨.getEvaluationDetails 7 (some ⟨"tenant-a", by decide⟩), none, state⟩).1 =
      .waiting _ none (.details 7 "tenant-a") := receive_waiting rfl rfl
  obtain ⟨next, second, laterReached, laterResponds, _⟩ := @ApiReaches.exists_response loads demoMac
    settings (buildRepository .postgres) Evaluator.arbitrary 300 _ first.target _ _ _
    ⟨7, 0, 0, 0⟩ _ 0 0 1 reached (others 1 (by decide)) looksUp
    ((answers_details_iff implements 7 "tenant-a").mpr rfl)
  have ordered : InOrder .postgres loads demoMac settings Evaluator.arbitrary 300 first second :=
    ⟨second.target, [start], [next], [], laterReached⟩
  have agree := answers_agree .postgres loads demoMac settings Evaluator.arbitrary 300 first second
    ordered
  obtain ⟨response, isAnswer, _⟩ :=
    (agree.found _ _ 7 _ responds (List.mem_singleton_self _)).2 laterResponds
  rw [isAnswer] at laterResponds
  exact ⟨first, second, ordered, responds, response, laterResponds,
    agree.submitted demoRequest _ 7 response responds (List.mem_singleton_self _) laterResponds⟩

end EvaluationService

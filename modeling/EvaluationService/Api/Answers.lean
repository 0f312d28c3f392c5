import EvaluationService.Api.Routes
import EvaluationService.Storage.Factory

/-!
Answers from a store. What the routes answer is about stored jobs of the tenant that was
asked for, and it depends on the jobs of that tenant only: not on the jobs of others, on
their number or on their order among the tenant's own.
-/

set_option autoImplicit false

namespace EvaluationService

open Foundation

def Awaited.tenantId : Awaited → String
  | submit request => request.tenantId
  | listRecent tenantId _ _ => tenantId
  | details _ tenantId => tenantId
  | get _ tenantId => tenantId

section Answers

variable {repository : JobRepository} {release : Option DateTime → Option DateTime}
variable {store : repository.State} {requestId : String} {draw : Draw} {awaited : Awaited}
variable {answer : Except Exn Body}

theorem Awaited.effect (implements : Implements repository release) {after : repository.State}
    {reply : RepositoryReply} (fresh : awaited.Fresh (repository.job? store) draw)
    (stepped : repository.Step store ⟨draw.now, awaited.call draw, reply⟩ after) :
    Effect release draw.now (repository.job? store) (awaited.call draw) reply
      (repository.job? after) := by
  refine implements.step ?_ stepped
  intro job creates
  cases awaited with
  | submit request =>
      cases creates
      exact fresh request rfl
  | listRecent _ _ _ => cases creates
  | details _ _ => cases creates
  | get _ _ => cases creates

/-- A call whose reply the contract determines has one answer. -/
theorem answers_iff_of_reply (reply : RepositoryReply) {expected : Except Exn Body}
    (fresh : awaited.Fresh (repository.job? store) draw)
    (determined : ∀ given next, repository.Step store ⟨draw.now, awaited.call draw, given⟩ next →
      given = reply) (answers : awaited.answer requestId draw reply = some expected) :
    Answers repository store requestId draw awaited answer ↔ answer = expected := by
  constructor
  · intro answered
    obtain ⟨_, given, next, stepped, isAnswer⟩ := answered
    rw [determined given next stepped, answers] at isAnswer
    exact (Option.some.inj isAnswer).symm
  · intro same
    subst same
    have stepped : repository.Step store ⟨draw.now, awaited.call draw,
        (repository.perform store draw.now (awaited.call draw)).1⟩
        (repository.perform store draw.now (awaited.call draw)).2 :=
      ⟨store, repository.arranges_refl store, rfl⟩
    refine ⟨fresh, _, _, stepped, ?_⟩
    rw [determined _ _ stepped]
    exact answers

theorem answers_lookup_iff (implements : Implements repository release) {jobId : UUID}
    {tenantId : String} {respond : EvaluationJob → Body}
    (fresh : awaited.Fresh (repository.job? store) draw)
    (calls : awaited.call draw = .getForTenant jobId tenantId)
    (answers : ∀ outcome, awaited.answer requestId draw (.job outcome) =
      some (outcome.map respond)) :
    Answers repository store requestId draw awaited answer ↔
      answer = (foundOr404 ((repository.job? store jobId).filter fun job =>
        job.tenantId = tenantId)).map respond := by
  refine answers_iff_of_reply _ fresh ?_ (answers _)
  intro given next stepped
  have effect := Awaited.effect implements fresh stepped
  rw [calls] at effect
  exact effect.getForTenant_eq.1

theorem answers_get_iff (implements : Implements repository release) (jobId : UUID)
    (tenantId : String) :
    Answers repository store requestId draw (.get jobId tenantId) answer ↔
      answer = (foundOr404 ((repository.job? store jobId).filter fun job =>
        job.tenantId = tenantId)).map fun job => .found (job.toResponse requestId) :=
  answers_lookup_iff implements (by intro _ submits; cases submits) rfl fun _ => rfl

theorem answers_details_iff (implements : Implements repository release) (jobId : UUID)
    (tenantId : String) :
    Answers repository store requestId draw (.details jobId tenantId) answer ↔
      answer = (foundOr404 ((repository.job? store jobId).filter fun job =>
        job.tenantId = tenantId)).map fun job => .details (job.toDetailResponse requestId) :=
  answers_lookup_iff implements (by intro _ submits; cases submits) rfl fun _ => rfl

theorem answers_submit_iff (implements : Implements repository release) {request : EvaluationRequest}
    (fresh : (Awaited.submit request).Fresh (repository.job? store) draw) :
    Answers repository store requestId draw (.submit request) answer ↔
      answer = .ok (.submitted ⟨draw.jobId, .queued, requestId⟩) := by
  refine answers_iff_of_reply (.job (.ok (draw.submission request).job)) fresh ?_ rfl
  intro given next stepped
  exact (Awaited.effect implements fresh stepped).create_eq.1

/-- A tenant's lookup finds a stored job of the tenant. -/
theorem lookup_owned (implements : Implements repository release) {store : repository.State}
    {jobId : UUID} {tenantId : String} {respond : EvaluationJob → Body} {body : Body}
    (about : ∀ job, (respond job).jobIds = [job.jobId])
    (answered : (foundOr404 ((repository.job? store jobId).filter fun job =>
      job.tenantId = tenantId)).map respond = .ok body) :
    ∀ given ∈ body.jobIds, ∃ job, repository.job? store given = some job ∧
      job.tenantId = tenantId := by
  cases outcome : foundOr404 ((repository.job? store jobId).filter fun job =>
      job.tenantId = tenantId) with
  | error error =>
      rw [outcome] at answered
      cases answered
  | ok job =>
      rw [outcome] at answered
      cases answered
      rw [foundOr404_eq_ok_iff, Option.filter_eq_some_iff] at outcome
      obtain ⟨stored, tenant⟩ := outcome
      intro given member
      rw [about, List.mem_singleton] at member
      rw [member, implements.identified stored]
      exact ⟨job, stored, of_decide_eq_true tenant⟩

/-- The jobs in an answer are stored jobs of the tenant. -/
theorem answer_owned (implements : Implements repository release) {store after : repository.State}
    {reply : RepositoryReply} {requestId : String} {body : Body}
    (fresh : awaited.Fresh (repository.job? store) draw)
    (stepped : repository.Step store ⟨draw.now, awaited.call draw, reply⟩ after)
    (answered : awaited.answer requestId draw reply = some (.ok body)) :
    ∀ jobId ∈ body.jobIds, ∃ job, repository.job? after jobId = some job ∧
      job.tenantId = awaited.tenantId := by
  have effect := Awaited.effect implements fresh stepped
  cases awaited with
  | submit request =>
      obtain ⟨rfl, stored⟩ := effect.create_eq
      cases answered
      intro jobId member
      obtain rfl := List.mem_singleton.mp member
      refine ⟨(draw.submission request).job, ?_, rfl⟩
      rw [stored]
      exact Function.update_self _ _ _
  | listRecent tenantId projectId limit =>
      obtain ⟨kept, listed, rfl, _, members, _⟩ := effect.listRecent_eq
      rw [kept]
      cases answered
      intro jobId member
      obtain ⟨summary, isListed, rfl⟩ := List.mem_map.mp member
      obtain ⟨job, taken, rfl⟩ := List.mem_map.mp isListed
      obtain ⟨stored, tenant, _⟩ := (members job).mp (List.mem_of_mem_take taken)
      exact ⟨job, stored, tenant⟩
  | details jobId tenantId =>
      obtain ⟨rfl, kept⟩ := effect.getForTenant_eq
      rw [kept]
      exact lookup_owned implements (fun _ => rfl) (Option.some.inj answered)
  | get jobId tenantId =>
      obtain ⟨rfl, kept⟩ := effect.getForTenant_eq
      rw [kept]
      exact lookup_owned implements (fun _ => rfl) (Option.some.inj answered)

/-- A read leaves every stored job as it is. -/
theorem lookup_of_read (implements : Implements repository release) {store after : repository.State}
    {reply : RepositoryReply} (reads : ∀ request, awaited ≠ .submit request)
    (stepped : repository.Step store ⟨draw.now, awaited.call draw, reply⟩ after) :
    repository.job? after = repository.job? store := by
  have effect := Awaited.effect implements
    (fun request submits => absurd submits (reads request)) stepped
  cases awaited with
  | submit request => exact absurd rfl (reads request)
  | listRecent _ _ _ => exact effect.listRecent_eq.1
  | details _ _ => exact effect.getForTenant_eq.2
  | get _ _ => exact effect.getForTenant_eq.2

end Answers

/-! ## Only the tenant's own jobs count -/

def InMemoryJobRepository.jobsOf (tenantId : String) (store : InMemoryJobRepository) :
    List EvaluationJob :=
  store.jobs.rows.filter fun job => job.tenantId = tenantId

def PostgresJobRepository.rowsOf (tenantId : String) (store : PostgresJobRepository) :
    List EvaluationJobRow :=
  store.evaluationJobs.rows.filter fun row => row.tenantId = tenantId

/-- The stores hold the same jobs of a tenant, in the same order where the order counts: one
is the other with the jobs of other tenants removed, added or changed. -/
def SameTenantJobs (tenantId : String) : (backend : StorageBackend) →
    (buildRepository backend).State → (buildRepository backend).State → Prop
  | .memory, store, other =>
      InMemoryJobRepository.jobsOf tenantId store = InMemoryJobRepository.jobsOf tenantId other
  | .postgres, store, other =>
      (PostgresJobRepository.rowsOf tenantId store).Perm
        (PostgresJobRepository.rowsOf tenantId other)

section Unaffected

variable {tenantId : String}

theorem InMemoryJobRepository.job?_filter {store : InMemoryJobRepository} {jobId : UUID}
    {job : EvaluationJob} :
    (inMemoryRepository.job? store jobId).filter (fun job => job.tenantId = tenantId) = some job ↔
      job ∈ jobsOf tenantId store ∧ job.jobId = jobId := by
  rw [Option.filter_eq_some_iff, job?_eq, Table.find?_eq_some_iff, jobsOf, List.mem_filter]
  tauto

theorem PostgresJobRepository.job?_filter {store : PostgresJobRepository} {jobId : UUID}
    {job : EvaluationJob} :
    (postgresRepository.job? store jobId).filter (fun job => job.tenantId = tenantId) = some job ↔
      ∃ row ∈ rowsOf tenantId store, row.jobId = jobId ∧ row.toDomain = .ok job := by
  rw [Option.filter_eq_some_iff, job?_eq_some_iff]
  constructor
  · intro ⟨⟨row, found, decoded⟩, tenant⟩
    obtain ⟨member, same⟩ := (Table.find?_eq_some_iff _ _ _).mp found
    obtain ⟨_, _, _, _, tenantSame, _⟩ := (EvaluationJobRow.toDomain_eq_ok_iff row job).mp decoded
    refine ⟨row, List.mem_filter.mpr ⟨member, ?_⟩, same, decoded⟩
    rw [← tenantSame]
    exact tenant
  · intro ⟨row, selected, same, decoded⟩
    obtain ⟨member, tenant⟩ := List.mem_filter.mp selected
    obtain ⟨_, _, _, _, tenantSame, _⟩ := (EvaluationJobRow.toDomain_eq_ok_iff row job).mp decoded
    refine ⟨⟨row, (Table.find?_eq_some_iff _ _ _).mpr ⟨member, same⟩, decoded⟩, ?_⟩
    rw [tenantSame]
    exact tenant

theorem InMemoryJobRepository.job?_filter_congr {store other : InMemoryJobRepository}
    (same : jobsOf tenantId store = jobsOf tenantId other) (jobId : UUID) :
    (inMemoryRepository.job? store jobId).filter (fun job => job.tenantId = tenantId) =
      (inMemoryRepository.job? other jobId).filter fun job => job.tenantId = tenantId := by
  ext job
  exact job?_filter.trans (same ▸ job?_filter.symm)

theorem PostgresJobRepository.job?_filter_congr {store other : PostgresJobRepository}
    (same : (rowsOf tenantId store).Perm (rowsOf tenantId other)) (jobId : UUID) :
    (postgresRepository.job? store jobId).filter (fun job => job.tenantId = tenantId) =
      (postgresRepository.job? other jobId).filter fun job => job.tenantId = tenantId := by
  ext job
  refine job?_filter.trans (Iff.trans ?_ job?_filter.symm)
  simp only [same.mem_iff]

theorem InMemoryJobRepository.listRecent_congr {store other : InMemoryJobRepository}
    (same : jobsOf tenantId store = jobsOf tenantId other) (projectId : Option String)
    (limit : Nat) :
    store.listRecent tenantId projectId limit = other.listRecent tenantId projectId limit := by
  unfold jobsOf at same
  unfold listRecent
  rw [same]

/-- The listing of a tenant looks at the rows of the tenant, in their physical order. -/
theorem PostgresJobRepository.listRecent_congr {store other : PostgresJobRepository}
    (same : rowsOf tenantId store = rowsOf tenantId other) (projectId : Option String)
    (limit : Nat) :
    store.listRecent tenantId projectId limit = other.listRecent tenantId projectId limit := by
  have selected : ∀ current : PostgresJobRepository,
      current.evaluationJobs.rows.filter (fun row => decide (row.tenantId = tenantId ∧
        ∀ project ∈ projectId, row.projectId = project)) =
      (rowsOf tenantId current).filter fun row =>
        decide (∀ project ∈ projectId, row.projectId = project) := by
    intro current
    rw [rowsOf, List.filter_filter]
    refine List.filter_congr fun row _ => ?_
    rw [Bool.decide_and, Bool.and_comm]
  unfold listRecent
  rw [selected store, selected other, same]

/-- Whatever order one store holds the tenant's rows in, the other may hold them in. -/
theorem PostgresJobRepository.exists_layout {store other layout : PostgresJobRepository}
    (same : (rowsOf tenantId store).Perm (rowsOf tenantId other))
    (arranged : postgresRepository.Arranges store layout) :
    ∃ otherLayout, postgresRepository.Arranges other otherLayout ∧
      rowsOf tenantId otherLayout = rowsOf tenantId layout := by
  let others := other.evaluationJobs.rows.filter fun row => !decide (row.tenantId = tenantId)
  have reordered : other.evaluationJobs.rows.Perm (rowsOf tenantId layout ++ others) := by
    have tenantRows : (rowsOf tenantId other).Perm (rowsOf tenantId layout) :=
      same.symm.trans (List.Perm.filter _ arranged)
    exact (List.filter_append_perm _ _).symm.trans (tenantRows.append_right others)
  refine ⟨⟨⟨rowsOf tenantId layout ++ others, ?_, ?_⟩⟩, reordered, ?_⟩
  · rw [← (reordered.map _).nodup_iff]
    exact other.evaluationJobs.unique
  · intro row member
    exact other.evaluationJobs.checked row (reordered.mem_iff.mpr member)
  · have own : (rowsOf tenantId layout).filter (fun row => row.tenantId = tenantId) =
        rowsOf tenantId layout := by
      rw [rowsOf, List.filter_filter]
      simp
    have foreign : others.filter (fun row => row.tenantId = tenantId) = [] := by
      rw [List.filter_eq_nil_iff]
      intro row member
      simpa [others] using (List.mem_filter.mp member).2
    change (rowsOf tenantId layout ++ others).filter (fun row => row.tenantId = tenantId) = _
    rw [List.filter_append, own, foreign, List.append_nil]

variable {requestId : String} {draw : Draw} {answer : Except Exn Body}

theorem InMemoryJobRepository.answers_listRecent {store other : InMemoryJobRepository}
    {projectId : Option String} {limit : Nat}
    (same : jobsOf tenantId store = jobsOf tenantId other)
    (answers : Answers inMemoryRepository store requestId draw (.listRecent tenantId projectId limit)
      answer) :
    Answers inMemoryRepository other requestId draw (.listRecent tenantId projectId limit) answer := by
  obtain ⟨_, reply, next, ⟨layout, arranged, performed⟩, answered⟩ := answers
  obtain rfl : layout = store := arranged
  refine ⟨(by intro _ submits; cases submits), reply, other, ⟨other, rfl, ?_⟩, answered⟩
  have replied : RepositoryReply.jobs (layout.listRecent tenantId projectId limit) = reply :=
    congrArg Prod.fst performed
  rw [listRecent_congr same] at replied
  rw [← replied]
  rfl

theorem PostgresJobRepository.answers_listRecent {store other : PostgresJobRepository}
    {projectId : Option String} {limit : Nat}
    (same : (rowsOf tenantId store).Perm (rowsOf tenantId other))
    (answers : Answers postgresRepository store requestId draw (.listRecent tenantId projectId limit)
      answer) :
    Answers postgresRepository other requestId draw (.listRecent tenantId projectId limit) answer := by
  obtain ⟨_, reply, next, ⟨layout, arranged, performed⟩, answered⟩ := answers
  obtain ⟨otherLayout, otherArranged, sameRows⟩ := exists_layout same arranged
  refine ⟨(by intro _ submits; cases submits), reply, otherLayout,
    ⟨otherLayout, otherArranged, ?_⟩, answered⟩
  have replied : RepositoryReply.jobs (PostgresJobRepository.listRecent layout tenantId projectId limit) =
      reply := congrArg Prod.fst performed
  rw [← listRecent_congr sameRows] at replied
  rw [← replied]
  rfl

theorem SameTenantJobs.symm {backend : StorageBackend} {store other : (buildRepository backend).State}
    (same : SameTenantJobs tenantId backend store other) :
    SameTenantJobs tenantId backend other store := by
  cases backend with
  | memory => exact Eq.symm same
  | postgres => exact List.Perm.symm same

theorem SameTenantJobs.job?_filter {backend : StorageBackend}
    {store other : (buildRepository backend).State}
    (same : SameTenantJobs tenantId backend store other) (jobId : UUID) :
    ((buildRepository backend).job? store jobId).filter (fun job => job.tenantId = tenantId) =
      ((buildRepository backend).job? other jobId).filter fun job => job.tenantId = tenantId := by
  cases backend with
  | memory => exact InMemoryJobRepository.job?_filter_congr same jobId
  | postgres => exact PostgresJobRepository.job?_filter_congr same jobId

/-- What a tenant may be answered from one store it may be answered from the other. -/
theorem SameTenantJobs.answers {backend : StorageBackend}
    {store other : (buildRepository backend).State} {awaited : Awaited}
    (same : SameTenantJobs tenantId backend store other) (tenant : awaited.tenantId = tenantId)
    (fresh : awaited.Fresh ((buildRepository backend).job? other) draw)
    (answers : Answers (buildRepository backend) store requestId draw awaited answer) :
    Answers (buildRepository backend) other requestId draw awaited answer := by
  have implements := buildRepository_implements backend
  cases awaited with
  | submit request =>
      rw [answers_submit_iff implements answers.1] at answers
      exact (answers_submit_iff implements fresh).mpr answers
  | listRecent given projectId limit =>
      obtain rfl : given = tenantId := tenant
      cases backend with
      | memory => exact InMemoryJobRepository.answers_listRecent same answers
      | postgres => exact PostgresJobRepository.answers_listRecent same answers
  | details jobId given =>
      obtain rfl : given = tenantId := tenant
      rw [answers_details_iff implements] at answers ⊢
      rw [← same.job?_filter jobId]
      exact answers
  | get jobId given =>
      obtain rfl : given = tenantId := tenant
      rw [answers_get_iff implements] at answers ⊢
      rw [← same.job?_filter jobId]
      exact answers

end Unaffected

end EvaluationService

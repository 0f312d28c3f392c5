import EvaluationService.Storage.Atomicity

/-!
The shared job objects refine the repository of values. Read through the dictionary, a whole
method on objects is the method on values; so tasks that run concurrently see, between their
methods, a store that the repository reaches one call at a time.
-/

set_option autoImplicit false

namespace EvaluationService

open Foundation Cooperative

/-- The repository of values holds what the dictionary's objects are, under their own
identifiers. -/
structure Views (jobs : JobObjects) (repository : InMemoryJobRepository) : Prop where
  rows : repository.jobs.rows = jobs.entries.rows.map fun entry => jobs.objects entry.2
  identified : ∀ entry ∈ jobs.entries.rows, (jobs.objects entry.2).jobId = entry.1

/-- One round of the recovery loop over values. -/
def recoverValue (now cutoff : DateTime) (counted : Nat × InMemoryJobRepository)
    (job : EvaluationJob) : Nat × InMemoryJobRepository :=
  if InMemoryJobRepository.isStale cutoff job then
    (counted.1 + 1, counted.2.mutate job.jobId (InMemoryJobRepository.recoverJob now)
      (InMemoryJobRepository.recoverJob_jobId now))
  else counted

section

variable {jobs : JobObjects} {repository : InMemoryJobRepository} {jobId : UUID} {job : Address}

theorem entry_of_find? (found : jobs.find? jobId = some job) : (jobId, job) ∈ jobs.entries.rows := by
  obtain ⟨entry, isEntry, rfl⟩ := Option.map_eq_some_iff.mp found
  obtain ⟨member, rfl⟩ := (Table.find?_eq_some_iff _ _ _).mp isEntry
  exact member

theorem find?_of_entry (member : (jobId, job) ∈ jobs.entries.rows) : jobs.find? jobId = some job := by
  rw [JobObjects.find?, jobs.entries.find?_of_mem member]
  rfl

/-- Storing a job where it is keeps every lookup. -/
theorem find?_store_of_found (found : jobs.find? jobId = some job)
    (change : EvaluationJob → EvaluationJob) (other : UUID) :
    ((jobs.assign job change).store jobId job).find? other = jobs.find? other := by
  have entries : ((jobs.assign job change).store jobId job).entries.rows = jobs.entries.rows :=
    Table.rows_put_of_mem _ trivial (entry_of_find? found)
  rw [JobObjects.find?, Table.find?, entries]
  rfl

namespace Views

variable (views : Views jobs repository)

include views

theorem find? (jobId : UUID) :
    repository.jobs.find? jobId = (jobs.find? jobId).map jobs.objects := by
  cases found : jobs.find? jobId with
  | none =>
      rw [Option.map_none, Table.find?_eq_none_iff, views.rows]
      have absent := (Table.find?_eq_none_iff _ _).mp (Option.map_eq_none_iff.mp found)
      intro row member
      obtain ⟨entry, isEntry, rfl⟩ := List.mem_map.mp member
      rw [views.identified entry isEntry]
      exact absent entry isEntry
  | some job =>
      have entry := entry_of_find? found
      rw [Option.map_some, Table.find?_eq_some_iff, views.rows]
      exact ⟨List.mem_map_of_mem (f := fun entry => jobs.objects entry.2) entry,
        views.identified _ entry⟩

theorem find?_of_value (member : job ∈ jobs.values) :
    jobs.find? (jobs.objects job).jobId = some job := by
  obtain ⟨entry, isEntry, rfl⟩ := List.mem_map.mp member
  rw [views.identified entry isEntry]
  exact find?_of_entry isEntry

theorem values : repository.jobs.rows = jobs.values.map jobs.objects := by
  rw [views.rows, JobObjects.values, List.map_map]
  rfl

/-- A change of a stored object is a change of its row. -/
theorem assign (found : jobs.find? jobId = some job) (change : EvaluationJob → EvaluationJob)
    (keeps : ∀ job, (change job).jobId = job.jobId) :
    Views ((jobs.assign job change).store jobId job) (repository.mutate jobId change keeps) := by
  have stored := entry_of_find? found
  have entries : ((jobs.assign job change).store jobId job).entries.rows = jobs.entries.rows :=
    Table.rows_put_of_mem _ trivial stored
  have isJob : ∀ entry ∈ jobs.entries.rows, entry.2 = job ↔ (jobs.objects entry.2).jobId = jobId := by
    intro entry member
    rw [views.identified entry member]
    constructor
    · intro same
      rw [← views.identified entry member, same]
      exact views.identified _ stored
    · intro same
      exact congrArg Prod.snd (List.inj_on_of_nodup_map jobs.entries.unique member stored same)
  constructor
  · rw [entries]
    change repository.jobs.rows.map _ = _
    rw [views.rows, List.map_map]
    refine List.map_congr_left fun entry member => ?_
    rw [JobObjects.objects_store, JobObjects.objects_assign, Function.comp_apply]
    simp only [isJob entry member]
    split
    · rename_i same
      rw [(isJob entry member).mpr same]
    · rfl
  · rw [entries]
    intro entry member
    rw [JobObjects.objects_store, JobObjects.objects_assign]
    split
    · rename_i same
      rw [keeps, ← same]
      exact views.identified entry member
    · exact views.identified entry member

theorem create (job : Address) :
    Views (jobs.store (jobs.objects job).jobId job) (repository.create (jobs.objects job)).2 := by
  have keys : repository.jobs.rows.map EvaluationJob.jobId = jobs.entries.rows.map Prod.fst := by
    rw [views.rows, List.map_map]
    exact List.map_congr_left fun entry member => views.identified entry member
  constructor
  · change (repository.jobs.put (jobs.objects job) trivial).rows =
      (jobs.entries.put ((jobs.objects job).jobId, job) trivial).rows.map _
    rw [Table.rows_put, Table.rows_put, keys]
    split
    · rw [views.rows, List.map_map, List.map_map]
      refine List.map_congr_left fun entry member => ?_
      simp only [Function.comp_apply, views.identified entry member]
      split <;> rfl
    · rw [List.map_append, views.rows]
      rfl
  · intro entry member
    rcases (Table.mem_put_rows _ _ trivial _).mp member with rfl | ⟨isEntry, _⟩
    · rfl
    · exact views.identified entry isEntry

theorem nextQueued? :
    (sortBy EvaluationJob.createdAt (repository.jobs.rows.filter fun job =>
      job.status = .queued ∧ job.attemptCount < job.maxAttempts)).head? =
      jobs.nextQueued?.map jobs.objects := by
  rw [views.values, List.filter_map, sortBy_map, List.head?_map]
  rfl

theorem claimNextQueued (now : DateTime) :
    (repository.claimNextQueued now).1 =
        .ok (jobs.nextQueued?.map (jobs.claimNextQueued now).objects) ∧
      Views (jobs.claimNextQueued now) (repository.claimNextQueued now).2 := by
  have next := views.nextQueued?
  unfold InMemoryJobRepository.claimNextQueued JobObjects.claimNextQueued
  dsimp only
  rw [next]
  cases found : jobs.nextQueued? with
  | none => exact ⟨rfl, views⟩
  | some job =>
      have isValue : job ∈ jobs.values :=
        List.mem_of_mem_filter ((sortBy_perm _ _).mem_iff.mp (List.mem_of_head? found))
      have changed : (jobs.assign job (InMemoryJobRepository.claimJob now)).objects job =
          InMemoryJobRepository.claimJob now (jobs.objects job) := by
        rw [JobObjects.objects_assign, if_pos rfl]
      constructor
      · simp only [Option.map_some, JobObjects.objects_store, changed]
      · simp only [Option.map_some, changed]
        exact views.assign (views.find?_of_value isValue) _ _

theorem recent (tenantId : String) (projectId : Option String) (limit : Nat) :
    repository.listRecent tenantId projectId limit =
      .ok ((jobs.recent jobs.values tenantId projectId limit).map jobs.objects) := by
  unfold InMemoryJobRepository.listRecent JobObjects.recent
  rw [views.values, List.filter_map, List.map_take, ← sortByDescending_map]
  cases projectId with
  | none => rfl
  | some projectId =>
      dsimp only
      rw [List.filter_map]
      rfl

theorem transition (now : DateTime) (jobId : UUID) (allowedFrom : List JobStatus)
    (target : JobStatus) :
    (repository.transition now jobId allowedFrom target).1 =
        (jobs.transition now jobId allowedFrom target).1.map
          (jobs.transition now jobId allowedFrom target).2.objects ∧
      Views (jobs.transition now jobId allowedFrom target).2
        (repository.transition now jobId allowedFrom target).2 := by
  unfold InMemoryJobRepository.transition JobObjects.transition
  rw [views.find?]
  cases found : jobs.find? jobId with
  | none => exact ⟨rfl, views⟩
  | some job =>
      dsimp only [Option.map_some]
      split
      · exact ⟨rfl, views⟩
      · refine ⟨?_, views.assign found _ _⟩
        have changed : (jobs.assign job (InMemoryJobRepository.moveJob now target)).objects job =
            InMemoryJobRepository.moveJob now target (jobs.objects job) := by
          rw [JobObjects.objects_assign, if_pos rfl]
        exact congrArg Except.ok changed.symm

omit views in
/-- The recovery loop goes through the objects as it goes through the values; the objects that
are still to come are as they were. -/
theorem recoverFrom (now cutoff : DateTime) (start : JobObjects) (rest : List Address) :
    ∀ {counted : Nat × JobObjects} {repository : InMemoryJobRepository}, rest.Nodup →
      Views counted.2 repository →
      (∀ job ∈ rest, counted.2.objects job = start.objects job ∧
        counted.2.find? (start.objects job).jobId = some job) →
      (rest.foldl (JobObjects.recoverOne now cutoff) counted).1 =
          ((rest.map start.objects).foldl (recoverValue now cutoff) (counted.1, repository)).1 ∧
        Views (rest.foldl (JobObjects.recoverOne now cutoff) counted).2
          ((rest.map start.objects).foldl (recoverValue now cutoff) (counted.1, repository)).2 := by
  induction rest with
  | nil =>
      intro counted repository _ views _
      exact ⟨rfl, views⟩
  | cons job rest ih =>
      intro counted repository nodup views unvisited
      obtain ⟨absent, nodup⟩ := List.nodup_cons.mp nodup
      obtain ⟨same, found⟩ := unvisited job List.mem_cons_self
      have later := fun other member => unvisited other (List.mem_cons_of_mem job member)
      rw [List.foldl_cons, List.map_cons, List.foldl_cons]
      by_cases stale : InMemoryJobRepository.isStale cutoff (start.objects job) = true
      · have round : JobObjects.recoverOne now cutoff counted job = (counted.1 + 1,
            (counted.2.assign job (InMemoryJobRepository.recoverJob now)).store
              (start.objects job).jobId job) := by
          rw [JobObjects.recoverOne, same, if_pos stale]
          dsimp only
          rw [JobObjects.objects_assign, if_pos rfl, InMemoryJobRepository.recoverJob_jobId, same]
        have value : recoverValue now cutoff (counted.1, repository) (start.objects job) =
            (counted.1 + 1, repository.mutate (start.objects job).jobId
              (InMemoryJobRepository.recoverJob now) (InMemoryJobRepository.recoverJob_jobId now)) :=
          if_pos stale
        rw [round, value]
        refine ih nodup (views.assign found _ _) fun other member => ?_
        have different : other ≠ job := fun equal => absent (equal ▸ member)
        rw [JobObjects.objects_store, JobObjects.objects_assign, if_neg different,
          find?_store_of_found found]
        exact later other member
      · have round : JobObjects.recoverOne now cutoff counted job = counted := by
          rw [JobObjects.recoverOne, same, if_neg stale]
        have value : recoverValue now cutoff (counted.1, repository) (start.objects job) =
            (counted.1, repository) := if_neg stale
        rw [round, value]
        exact ih nodup views later

theorem recoverStaleRunning (now cutoff : DateTime) :
    (repository.recoverStaleRunning now cutoff).1 =
        .ok (jobs.recoverStaleRunning now cutoff).1 ∧
      Views (jobs.recoverStaleRunning now cutoff).2
        (repository.recoverStaleRunning now cutoff).2 := by
  have distinct : jobs.values.Nodup := by
    refine List.Nodup.of_map (fun job => (jobs.objects job).jobId) ?_
    rw [JobObjects.values, List.map_map]
    exact (List.map_congr_left views.identified) ▸ jobs.entries.unique
  have folded := @recoverFrom now cutoff jobs jobs.values (0, jobs) repository distinct views
    fun job member => ⟨rfl, views.find?_of_value member⟩
  have values : repository.recoverStaleRunning now cutoff =
      (.ok ((jobs.values.map jobs.objects).foldl (recoverValue now cutoff) (0, repository)).1,
        ((jobs.values.map jobs.objects).foldl (recoverValue now cutoff) (0, repository)).2) := by
    rw [← views.values]
    rfl
  rw [values]
  exact ⟨congrArg Except.ok folded.1.symm, folded.2⟩

end Views

end

/-! ## Whole methods -/

/-- The call of the repository of values, for a method that uses the dictionary. -/
def SharedCall.read? (objects : Address → EvaluationJob) : SharedCall → Option RepositoryCall
  | create job => some (.create (objects job))
  | get jobId => some (.get jobId)
  | getForTenant jobId tenantId => some (.getForTenant jobId tenantId)
  | listRecent tenantId projectId limit => some (.listRecent tenantId projectId limit)
  | claimNextQueued => some .claimNextQueued
  | recoverStaleRunning cutoff => some (.recoverStaleRunning cutoff)
  | setRunning jobId => some (.setRunning jobId)
  | setSucceeded jobId result => some (.setSucceeded jobId result)
  | setFailed jobId message => some (.setFailed jobId message)
  | healthCheck | close => none

/-- What the caller reads of the objects in a reply. -/
def SharedReply.read? (objects : Address → EvaluationJob) : SharedReply → Option RepositoryReply
  | job outcome => some (.job (outcome.map objects))
  | jobs listed => some (.jobs (.ok (listed.map objects)))
  | claim claimed => some (.claim (.ok (claimed.map objects)))
  | count recovered => some (.count (.ok recovered))
  | health _ | none => Option.none

/-- A method answers as the repository of values does, or leaves it alone. -/
inductive Performs (repository : InMemoryJobRepository) :
    Option RepositoryCall → Option RepositoryReply → InMemoryJobRepository → Prop where
  | call {now : DateTime} {call : RepositoryCall} {reply : RepositoryReply}
      {after : InMemoryJobRepository} :
      inMemoryRepository.perform repository now call = (reply, after) →
      Performs repository (some call) (some reply) after
  | nothing : Performs repository none none repository

section

variable {jobs next : JobObjects} {repository : InMemoryJobRepository} {reply : SharedReply}

theorem Views.get (views : Views jobs repository) (jobId : UUID) :
    repository.get jobId = (jobs.get jobId).map jobs.objects := by
  unfold InMemoryJobRepository.get JobObjects.get
  rw [views.find?]
  cases jobs.find? jobId <;> rfl

/-- `set_succeeded` and `set_failed` on values, with one reading of the clock. -/
def finishValue (repository : InMemoryJobRepository) (now : DateTime) (jobId : UUID)
    (allowedFrom : List JobStatus) (target : JobStatus) (write : EvaluationJob → EvaluationJob)
    (keeps : ∀ job, (write job).jobId = job.jobId) :
    Except Exn EvaluationJob × InMemoryJobRepository :=
  match repository.transition now jobId allowedFrom target with
  | (.error error, repository) => (.error error, repository)
  | (.ok job, repository) => (.ok (write job), repository.mutate jobId write keeps)

theorem rows_mutate_mutate (repository : InMemoryJobRepository) (jobId : UUID)
    {first second : EvaluationJob → EvaluationJob}
    (firstKeeps : ∀ job, (first job).jobId = job.jobId)
    (secondKeeps : ∀ job, (second job).jobId = job.jobId) :
    ((repository.mutate jobId first firstKeeps).mutate jobId second secondKeeps).jobs.rows =
      repository.jobs.rows.map fun job => if job.jobId = jobId then second (first job) else job := by
  change (repository.jobs.rows.map _).map _ = _
  rw [List.map_map]
  refine List.map_congr_left fun job _ => ?_
  rw [Function.comp_apply]
  split
  · rename_i same
    rw [if_pos ((firstKeeps job).trans same)]
  · rfl

/-- The second block overwrites the clock reading of the first, so that one reading is enough. -/
theorem Views.finishJob (views : Views jobs repository) {jobId : UUID}
    {allowedFrom : List JobStatus} {target : JobStatus}
    {write : DateTime → EvaluationJob → EvaluationJob}
    (runs : Runs (EvaluationService.finishJob jobId allowedFrom target write) jobs reply next)
    (keeps : ∀ now job, (write now job).jobId = job.jobId)
    (overwrites : ∀ first second job,
      write second (InMemoryJobRepository.moveJob first target job) =
        write second (InMemoryJobRepository.moveJob second target job)) :
    ∃ now outcome after,
      finishValue repository now jobId allowedFrom target (write now) (keeps now) =
        (outcome, after) ∧
      reply.read? next.objects = some (.job outcome) ∧ Views next after := by
  obtain ⟨first, runs⟩ := of_runs_withLock runs
  unfold JobObjects.transition at runs
  unfold finishValue InMemoryJobRepository.transition
  rw [views.find?]
  cases found : jobs.find? jobId with
  | none =>
      rw [found] at runs
      obtain ⟨rfl, rfl⟩ := of_runs_done runs
      exact ⟨first, _, _, rfl, rfl, views⟩
  | some job =>
      rw [found] at runs
      dsimp only [Option.map_some]
      by_cases refused : (jobs.objects job).status ∉ allowedFrom
      · simp only [if_pos refused] at runs ⊢
        obtain ⟨rfl, rfl⟩ := of_runs_done runs
        exact ⟨first, _, _, rfl, rfl, views⟩
      · simp only [if_neg refused] at runs ⊢
        obtain ⟨second, runs⟩ := of_runs_withLock runs
        obtain ⟨rfl, rfl⟩ := of_runs_done runs
        refine ⟨second, _, _, rfl, ?_, ?_⟩
        · have written : (((jobs.assign job (InMemoryJobRepository.moveJob first target)).store
              jobId job).writeOutcome jobId job (write second)).objects job =
              write second (InMemoryJobRepository.moveJob first target (jobs.objects job)) := by
            simp only [JobObjects.writeOutcome, JobObjects.objects_store,
              JobObjects.objects_assign, if_true]
          exact congrArg (fun job => some (RepositoryReply.job (.ok job)))
            (written.trans (overwrites first second _))
        · have moved := views.assign found (InMemoryJobRepository.moveJob first target) fun _ => rfl
          have stillFound := (find?_store_of_found found
            (InMemoryJobRepository.moveJob first target) jobId).trans found
          have ended := moved.assign stillFound (write second) (keeps second)
          have rows := (rows_mutate_mutate repository jobId _ (keeps second)).symm.trans ended.rows
          refine ⟨(rows_mutate_mutate repository jobId _ (keeps second)).trans (Eq.trans ?_ rows),
            ended.identified⟩
          refine List.map_congr_left fun stored _ => ?_
          rw [overwrites first second stored]

/-- A whole method on job objects is the method on the values that the dictionary holds. -/
theorem Views.runs (views : Views jobs repository) {call : SharedCall}
    (runs : Runs (repositoryProgram call) jobs reply next) :
    ∃ after, Performs repository (call.read? jobs.objects) (reply.read? next.objects) after ∧
      Views next after := by
  cases call with
  | create job =>
      obtain ⟨now, runs⟩ := of_runs_withLock runs
      obtain ⟨rfl, rfl⟩ := of_runs_done runs
      exact ⟨_, @Performs.call _ now _ _ _ rfl, views.create job⟩
  | get jobId =>
      obtain ⟨now, runs⟩ := of_runs_withLock runs
      obtain ⟨rfl, rfl⟩ := of_runs_done runs
      refine ⟨repository, @Performs.call _ now _ _ _ ?_, views⟩
      exact congrArg (fun found => (RepositoryReply.job found, repository)) (views.get jobId)
  | getForTenant jobId tenantId =>
      obtain ⟨now, runs⟩ := of_runs_withLock runs
      have found := views.get jobId
      cases read : jobs.get jobId with
      | error error =>
          rw [read] at runs found
          obtain ⟨rfl, rfl⟩ := of_runs_done runs
          refine ⟨repository, @Performs.call _ now _ _ _ ?_, views⟩
          exact congrArg (fun outcome => (RepositoryReply.job outcome, repository))
            (congrArg (fun found => found >>= _) found)
      | ok job =>
          rw [read] at runs found
          obtain ⟨rfl, rfl⟩ := of_runs_done (of_runs_unlocked runs)
          refine ⟨repository, @Performs.call _ now _ _ _ ?_, views⟩
          have checked : repository.getForTenant jobId tenantId =
              (next.checkTenant tenantId job).map next.objects := by
            rw [InMemoryJobRepository.getForTenant, found, JobObjects.checkTenant]
            change (if (next.objects job).tenantId ≠ tenantId then _ else _) = _
            split <;> rfl
          exact congrArg (fun outcome => (RepositoryReply.job outcome, repository)) checked
  | listRecent tenantId projectId limit =>
      obtain ⟨now, runs⟩ := of_runs_withLock runs
      obtain ⟨rfl, rfl⟩ := of_runs_done (of_runs_unlocked runs)
      refine ⟨repository, @Performs.call _ now _ _ _ ?_, views⟩
      exact congrArg (fun listed => (RepositoryReply.jobs listed, repository))
        (views.recent tenantId projectId limit)
  | claimNextQueued =>
      obtain ⟨now, runs⟩ := of_runs_withLock runs
      obtain ⟨rfl, rfl⟩ := of_runs_done runs
      obtain ⟨answered, after⟩ := views.claimNextQueued now
      refine ⟨_, @Performs.call _ now _ _ _ ?_, after⟩
      exact congrArg (fun claimed => (RepositoryReply.claim claimed, _)) answered
  | recoverStaleRunning cutoff =>
      obtain ⟨now, runs⟩ := of_runs_withLock runs
      obtain ⟨rfl, rfl⟩ := of_runs_done runs
      obtain ⟨answered, after⟩ := views.recoverStaleRunning now cutoff
      refine ⟨_, @Performs.call _ now _ _ _ ?_, after⟩
      exact congrArg (fun recovered => (RepositoryReply.count recovered, _)) answered
  | setRunning jobId =>
      obtain ⟨now, runs⟩ := of_runs_withLock runs
      obtain ⟨rfl, rfl⟩ := of_runs_done runs
      obtain ⟨answered, after⟩ := views.transition now jobId [.queued] .running
      refine ⟨_, @Performs.call _ now _ _ _ ?_, after⟩
      exact congrArg (fun moved => (RepositoryReply.job moved, _)) answered
  | setSucceeded jobId result =>
      obtain ⟨now, outcome, after, performed, answered, next⟩ := views.finishJob runs
        (fun _ _ => rfl) (fun _ _ _ => rfl)
      rw [answered]
      have replied := congrArg (Prod.map RepositoryReply.job id) performed
      exact ⟨after, @Performs.call _ now _ _ _ replied, next⟩
  | setFailed jobId message =>
      obtain ⟨now, outcome, after, performed, answered, next⟩ := views.finishJob runs
        (fun _ _ => rfl) (fun _ _ _ => rfl)
      rw [answered]
      have replied := congrArg (Prod.map RepositoryReply.job id) performed
      exact ⟨after, @Performs.call _ now _ _ _ replied, next⟩
  | healthCheck | close =>
      obtain ⟨rfl, rfl⟩ := of_runs_done runs
      exact ⟨repository, .nothing, views⟩

end

/-! ## Runs -/

theorem Performs.step {repository after : InMemoryJobRepository} {call : Option RepositoryCall}
    {reply : Option RepositoryReply} (performs : Performs repository call reply after) :
    repository = after ∨ ∃ event, inMemoryRepository.Step repository event after := by
  cases performs with
  | @call now call reply after performed =>
      exact .inr ⟨⟨now, call, reply⟩, repository, rfl, performed⟩
  | nothing => exact .inl rfl

/-- Whole methods, one at a time, are calls of the repository of values. -/
theorem Views.of_run {start final : JobObjects} {repository : InMemoryJobRepository}
    {order : Order JobObjects SharedCall SharedReply} (views : Views start repository)
    (run : Run (Atomically repositoryProgram) start order final) :
    ∃ trace after, Run inMemoryRepository.Step repository trace after ∧ Views final after := by
  induction run with
  | nil => exact ⟨[], repository, .nil, views⟩
  | snoc _ taken ih =>
      obtain ⟨trace, reached, earlier, seen⟩ := ih
      obtain ⟨after, performs, next⟩ := seen.runs taken
      rcases performs.step with rfl | ⟨event, stepped⟩
      · exact ⟨trace, reached, earlier, next⟩
      · exact ⟨_, after, .snoc earlier stepped, next⟩

/-- Between their methods, concurrent tasks see a store that the repository of values reaches by
atomic calls. -/
theorem views_of_reachable {objects : Address → EvaluationJob} {tasks : RepositoryTasks}
    (reached : Reachable repositoryProgram ⟨objects, Table.empty⟩ tasks)
    (between : tasks.BetweenOperations) :
    ∃ trace repository, Run inMemoryRepository.Step inMemoryRepository.empty trace repository ∧
      Views tasks.shared repository := by
  obtain ⟨order, before, serial⟩ := reached.serial prompt_repositoryProgram
  have start : Views ⟨objects, Table.empty⟩ InMemoryJobRepository.empty :=
    ⟨rfl, fun entry member => nomatch member⟩
  rw [serial.shared_eq between]
  exact start.of_run serial.run

end EvaluationService

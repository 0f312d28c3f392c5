import EvaluationService.Storage.Attempts
import EvaluationService.Storage.TransactionReplay

/-!
The history of commits. Whatever the sessions of the PostgreSQL repository do at once,
the stored jobs change only when one of them commits, and then as the one call it runs
says: the commits, in their order, are a serial history of calls. It differs from the
histories of `Storage.History` in that a claim may pass over a job that is locked and a
recovery may leave some of the stale jobs out.
-/

set_option autoImplicit false

namespace EvaluationService

open Foundation PostgresJobRepository

/-! ## What a commit does -/

/-- The committed jobs. -/
def LockedJobs.jobs (rows : LockedJobs) : Lookup :=
  postgresRepository.job? ⟨rows.table⟩

namespace EvaluationJob

def recoverAt (now : DateTime) (job : EvaluationJob) : EvaluationJob :=
  if job.attemptCount ≥ job.maxAttempts then job.timedOut now else job.requeued now

/-- The assignments of a method, read as a change of the stored job. -/
def assigned (now : DateTime) (call : RepositoryCall) (job : EvaluationJob) : EvaluationJob :=
  match call with
  | .claimNextQueued => job.claimed now
  | .recoverStaleRunning _ => job.recoverAt now
  | .setRunning _ => job.started now
  | .setSucceeded _ result => job.succeeded (fun _ => none) now result
  | .setFailed _ message => job.failed (fun _ => none) now message
  | _ => job

end EvaluationJob

theorem toDomain_assign (now : DateTime) (call : RepositoryCall) {row : EvaluationJobRow}
    {job : EvaluationJob} (decoded : row.toDomain = .ok job) :
    (assign now call row).toDomain = .ok (job.assigned now call) := by
  cases call with
  | claimNextQueued => exact EvaluationJobRow.toDomain_claimRow now decoded
  | recoverStaleRunning cutoff => exact EvaluationJobRow.toDomain_recoverRow now decoded
  | setRunning jobId => exact EvaluationJobRow.toDomain_moveRow now .running decoded
  | setSucceeded jobId result => exact EvaluationJobRow.toDomain_succeedRow now result decoded
  | setFailed jobId message => exact EvaluationJobRow.toDomain_failRow now message decoded
  | _ => exact decoded

/-- What the commit of one call does to the stored jobs. -/
inductive Commits (now : DateTime) (before : Lookup) :
    RepositoryCall → RepositoryReply → Lookup → Prop where
  | create {job : EvaluationJob} : before job.jobId = none →
      Commits now before (.create job) (.job (.ok job))
        (Function.update before job.jobId (some job))
  | claim {job : EvaluationJob} : before job.jobId = some job → job.Claimable →
      Commits now before .claimNextQueued (.claim (.ok (some (job.claimed now))))
        (Function.update before job.jobId (some (job.claimed now)))
  | recover {cutoff : DateTime} {recovered : List UUID} : recovered.Nodup →
      (∀ jobId ∈ recovered, ∃ job, before jobId = some job ∧ job.Stale cutoff) →
      Commits now before (.recoverStaleRunning cutoff) (.count (.ok recovered.length))
        (fun jobId => if jobId ∈ recovered then (before jobId).map (·.recovered cutoff now)
          else before jobId)
  | change {call : RepositoryCall} {jobId : UUID} {allowedFrom : List JobStatus}
      {job : EvaluationJob} : call.guard? = some (jobId, allowedFrom) →
      before jobId = some job → job.status ∈ allowedFrom →
      Commits now before call (.job (.ok (job.assigned now call)))
        (Function.update before jobId (some (job.assigned now call)))

/-- What a commit does to one job is what the call does to it. -/
theorem Commits.entry {now : DateTime} {before after : Lookup} {call : RepositoryCall}
    {reply : RepositoryReply} (commits : Commits now before call reply after) (jobId : UUID) :
    EntryChange (fun _ => none) now jobId call reply (before jobId) (after jobId) := by
  cases commits with
  | create absent => exact (Effect.create absent).entry jobId
  | @claim job stored claimable =>
      by_cases same : jobId = job.jobId
      · rw [same, Function.update_self, stored]
        exact .changed (.claimed rfl claimable)
      · rw [Function.update_of_ne same]
        refine .kept fun given handed equal => same ?_
        cases handed
        exact equal.symm
  | @recover cutoff recovered distinct stale =>
      dsimp only
      by_cases chosen : jobId ∈ recovered
      · obtain ⟨job, stored, isStale⟩ := stale jobId chosen
        rw [if_pos chosen, stored, Option.map_some, EvaluationJob.recovered, if_pos isStale]
        split
        · exact .changed (.timedOut isStale (by assumption))
        · exact .changed (.requeued isStale (by omega))
      · rw [if_neg chosen]
        exact .kept (by simp)
  | @change _ target allowedFrom job guarded stored allowed =>
      by_cases same : jobId = target
      · rw [same, Function.update_self, stored]
        refine .changed ?_
        cases call with
        | setRunning _ =>
            cases guarded
            exact .started (by simpa using allowed)
        | setSucceeded _ result =>
            cases guarded
            exact .succeeded (by simpa using allowed)
        | setFailed _ message =>
            cases guarded
            exact .failed (by simpa using allowed)
        | _ => cases guarded
      · rw [Function.update_of_ne same]
        exact .kept (by simp)

/-! ## Every step but a commit leaves the stored jobs alone -/

namespace LockedJobs

variable {rows next : LockedJobs}

theorem jobs_of_table (same : next.table = rows.table) : next.jobs = rows.jobs := by
  unfold jobs
  rw [same]

theorem jobs_eq_some_of_find? {jobId : UUID} {row : EvaluationJobRow} {job : EvaluationJob}
    (found : rows.table.find? jobId = some row) (decoded : row.toDomain = .ok job) :
    rows.jobs jobId = some job :=
  (job?_eq_some_iff ⟨rows.table⟩ jobId job).mpr ⟨row, found, decoded⟩

theorem jobs_eq_none_iff (jobId : UUID) :
    rows.jobs jobId = none ↔ rows.table.find? jobId = none :=
  job?_eq_none_iff ⟨rows.table⟩ jobId

end LockedJobs

/-- A commit of rows in hand makes the method's assignments to their jobs, as these are. -/
theorem jobs_commit {session : Nat} {rows : LockedJobs} {selected : List StoredRow}
    (holds : rows.Holds session selected) (now : DateTime) (call : RepositoryCall) (jobId : UUID) :
    LockedJobs.jobs (rows.commit session (selected.map (assigned now call))) jobId =
      if jobId ∈ selected.map (·.1.jobId) then (rows.jobs jobId).map (·.assigned now call)
      else rows.jobs jobId := by
  have lookup := holds.find?_commit (assigned now call) (fun row => assign_jobId now call row.1) jobId
  cases found : selected.find? fun row => row.1.jobId = jobId with
  | none =>
      rw [found] at lookup
      have absent : jobId ∉ selected.map (·.1.jobId) := by
        intro member
        obtain ⟨row, isSelected, same⟩ := List.mem_map.mp member
        exact List.find?_eq_none.mp found row isSelected (by simpa using same)
      rw [if_neg absent]
      unfold LockedJobs.jobs
      ext job
      rw [job?_eq_some_iff, job?_eq_some_iff]
      dsimp only at lookup ⊢
      rw [lookup]
  | some row =>
      rw [found] at lookup
      have isSelected := List.mem_of_find?_eq_some found
      have same : row.1.jobId = jobId := by simpa using List.find?_some found
      obtain ⟨job, decoded⟩ := row.2
      have current := holds.current row isSelected
      rw [same] at current
      rw [if_pos (same ▸ List.mem_map_of_mem isSelected),
        LockedJobs.jobs_eq_some_of_find? current decoded]
      exact LockedJobs.jobs_eq_some_of_find? lookup (toDomain_assign now call decoded)

theorem jobs_commit_one {session : Nat} {rows : LockedJobs} {row : StoredRow} {job : EvaluationJob}
    (holds : rows.Holds session [row]) (now : DateTime) (call : RepositoryCall)
    (decoded : row.1.toDomain = .ok job) :
    LockedJobs.jobs (rows.commit session ([row].map (assigned now call))) =
      Function.update rows.jobs job.jobId (some (job.assigned now call)) := by
  have stored : rows.jobs job.jobId = some job := by
    rw [EvaluationJobRow.jobId_eq _ _ decoded]
    exact LockedJobs.jobs_eq_some_of_find? (holds.current row (by simp)) decoded
  funext jobId
  rw [jobs_commit holds, Function.update_apply]
  simp only [List.map_singleton, List.mem_singleton, ← EvaluationJobRow.jobId_eq _ _ decoded]
  by_cases same : jobId = job.jobId
  · rw [if_pos same, if_pos same, same, stored, Option.map_some]
  · rw [if_neg same, if_neg same]

theorem jobs_commitInsert {session : Nat} {rows : LockedJobs} (job : EvaluationJob) :
    LockedJobs.jobs (rows.commit session
        [⟨EvaluationJobRow.toRow job, EvaluationJobRow.decodes_toRow job⟩]) =
      Function.update rows.jobs job.jobId (some job) := by
  funext jobId
  ext current
  have lookup : (rows.commit session [⟨EvaluationJobRow.toRow job,
      EvaluationJobRow.decodes_toRow job⟩]).table.find? jobId =
        if jobId = job.jobId then some (EvaluationJobRow.toRow job) else rows.table.find? jobId :=
    Table.find?_put rows.table (EvaluationJobRow.toRow job) (EvaluationJobRow.decodes_toRow job) jobId
  unfold LockedJobs.jobs
  rw [job?_eq_some_iff, Function.update_apply]
  dsimp only
  rw [lookup]
  by_cases same : jobId = job.jobId
  · rw [if_pos same, if_pos same]
    simp [EvaluationJobRow.toDomain_toRow]
  · rw [if_neg same, if_neg same, job?_eq_some_iff]

/-! ## Commits -/

/-- What the method replies when nobody changes its row before it is refreshed. -/
def commitReply (now : DateTime) (call : RepositoryCall) (selected : List StoredRow) :
    RepositoryReply :=
  match call, selected with
  | .recoverStaleRunning _, rows => .count (.ok rows.length)
  | call, row :: _ => refreshed call (assign now call row.1).toDomain
  | _, [] => .claim (.ok none)

/-- The call that a step commits. -/
def SessionEvent.committed? (current : Session) (event : SessionEvent) : Option RepositoryEvent :=
  match event, current with
  | .commit now, .inserted job => some ⟨now, .create job, .job (.ok job)⟩
  | .commit now, .holding call selected => some ⟨now, call, commitReply now call selected⟩
  | _, _ => none

theorem isQueued_iff {row : EvaluationJobRow} {job : EvaluationJob} (decoded : row.toDomain = .ok job) :
    isQueued row = true ↔ job.Claimable := by
  obtain ⟨_, _, _, _, _, _, _, attempts, budget, _⟩ :=
    (EvaluationJobRow.toDomain_eq_ok_iff row job).mp decoded
  unfold isQueued
  rw [decide_eq_true_iff, EvaluationJobRow.status_eq_iff decoded, ← attempts, ← budget]
  rfl

theorem status_mem_of_valid {row : EvaluationJobRow} {job : EvaluationJob}
    {allowedFrom : List JobStatus} (decoded : row.toDomain = .ok job)
    (valid : validateTransition row.status allowedFrom = .ok ()) : job.status ∈ allowedFrom := by
  obtain ⟨statusDecoded, _⟩ := (EvaluationJobRow.toDomain_eq_ok_iff row job).mp decoded
  by_contra notAllowed
  simp [validateTransition, statusDecoded, bind, Except.bind, notAllowed] at valid

/-- A step commits one call, as the contract of commits says, or leaves the stored jobs as
they are. -/
theorem Transacts.commits {session : Nat} {rows next : LockedJobs} {current following : Session}
    {event : SessionEvent} (stepped : Transacts session rows current event next following)
    (owns : current.Owns session rows) :
    match event.committed? current with
    | none => next.jobs = rows.jobs
    | some committed =>
        Commits committed.now rows.jobs committed.call committed.reply next.jobs := by
  cases stepped with
  | begin => rfl
  | query _ _ => rfl
  | insert _ _ => exact LockedJobs.jobs_of_table rfl
  | duplicate _ => rfl
  | @commitInsert job now =>
      rw [jobs_commitInsert]
      exact .create ((LockedJobs.jobs_eq_none_iff _).mpr owns.2)
  | select _ _ _ => exact LockedJobs.jobs_of_table rfl
  | absent _ _ => rfl
  | refuse _ _ => exact LockedJobs.jobs_of_table rfl
  | @commitChange call jobId allowedFrom row now guarded valid =>
      obtain ⟨holds, selects⟩ := owns
      obtain ⟨job, decoded⟩ := row.2
      have stored := LockedJobs.jobs_eq_some_of_find? (holds.current row (by simp)) decoded
      rw [← EvaluationJobRow.jobId_eq _ _ decoded] at stored
      have reply : commitReply now call [row] = .job (.ok (job.assigned now call)) := by
        cases call with
        | setRunning _ => exact congrArg _ (toDomain_assign now _ decoded)
        | setSucceeded _ _ => exact congrArg _ (toDomain_assign now _ decoded)
        | setFailed _ _ => exact congrArg _ (toDomain_assign now _ decoded)
        | _ => cases guarded
      have target : jobId = job.jobId := by
        rw [EvaluationJobRow.jobId_eq _ _ decoded, selects.jobId_eq guarded]
      change Commits now rows.jobs call (commitReply now call [row]) _
      rw [jobs_commit_one holds now call decoded, reply]
      exact .change (target ▸ guarded) stored (status_mem_of_valid decoded valid)
  | snapshot _ _ => rfl
  | scan _ _ scanned => exact LockedJobs.jobs_of_table scanned.table_eq
  | scanned _ _ => rfl
  | nothing => exact LockedJobs.jobs_of_table rfl
  | @commitClaim row now =>
      obtain ⟨holds, selects⟩ := owns
      obtain ⟨job, decoded⟩ := row.2
      have stored := LockedJobs.jobs_eq_some_of_find? (holds.current row (by simp)) decoded
      rw [← EvaluationJobRow.jobId_eq _ _ decoded] at stored
      have claimable := (isQueued_iff decoded).mp ((selects.passes rfl).1 row (by simp))
      have reply : commitReply now .claimNextQueued [row] = .claim (.ok (some (job.claimed now))) := by
        change RepositoryReply.claim ((assign now .claimNextQueued row.1).toDomain.map some) = _
        rw [toDomain_assign now _ decoded]
        rfl
      change Commits now rows.jobs .claimNextQueued (commitReply now .claimNextQueued [row]) _
      rw [jobs_commit_one holds now .claimNextQueued decoded, reply]
      exact .claim stored claimable
  | @commitRecover cutoff now selected =>
      obtain ⟨holds, selects⟩ := owns
      have stale : ∀ jobId ∈ selected.map (·.1.jobId),
          ∃ job, rows.jobs jobId = some job ∧ job.Stale cutoff := by
        intro jobId member
        obtain ⟨row, isSelected, rfl⟩ := List.mem_map.mp member
        obtain ⟨job, decoded⟩ := row.2
        exact ⟨job, LockedJobs.jobs_eq_some_of_find? (holds.current row isSelected) decoded,
          (isStale_iff cutoff decoded).mp ((selects.passes rfl).1 row isSelected)⟩
      have after : LockedJobs.jobs (rows.commit session
          (selected.map (assigned now (.recoverStaleRunning cutoff)))) =
            fun jobId => if jobId ∈ selected.map (·.1.jobId) then
              (rows.jobs jobId).map (·.recovered cutoff now) else rows.jobs jobId := by
        funext jobId
        rw [jobs_commit holds]
        split
        · rename_i member
          obtain ⟨job, stored, isStale⟩ := stale jobId member
          rw [stored, Option.map_some, Option.map_some, EvaluationJob.recovered, if_pos isStale]
          rfl
        · rfl
      change Commits now rows.jobs (.recoverStaleRunning cutoff) (.count (.ok selected.length)) _
      rw [after, ← List.length_map (·.1.jobId)]
      exact .recover holds.distinct stale
  | refresh => rfl
  | answer => rfl
  | abort _ => exact LockedJobs.jobs_of_table rfl

/-! ## The history of a run -/

/-- One commit as a step of the stored jobs. -/
def CommitStep (before : Lookup) (event : RepositoryEvent) (after : Lookup) : Prop :=
  Commits event.now before event.call event.reply after

namespace Transactions

/-- The commits of a run, with the stored jobs on both sides of each. -/
def history (trace : Trace) : List (Transition Lookup RepositoryEvent) :=
  trace.filterMap fun taken =>
    (taken.event.2.committed? (taken.source.locals taken.event.1)).map fun committed =>
      ⟨taken.source.store.jobs, committed, taken.target.store.jobs⟩

theorem history_append (first last : Trace) : history (first ++ last) = history first ++ history last :=
  List.filterMap_append

theorem history_snoc (trace : Trace) (taken : Transition Transactions (Nat × SessionEvent)) :
    history (trace ++ [taken]) = history trace ++
      ((taken.event.2.committed? (taken.source.locals taken.event.1)).map fun committed =>
        ⟨taken.source.store.jobs, committed, taken.target.store.jobs⟩).toList := by
  rw [history_append, List.append_cancel_left_eq]
  cases committed : taken.event.2.committed? (taken.source.locals taken.event.1) <;>
    simp [history, committed]

theorem history_of_run {start state : Transactions} {trace : Trace}
    (run : Run Step start trace state) (owned : start.Owned) :
    Run CommitStep start.store.jobs (history trace) state.store.jobs := by
  induction run with
  | nil => exact .nil
  | @snoc earlier middle next event prior stepped ih =>
      have current := owned_of_run prior owned
      rw [history_snoc]
      cases stepped with
      | @act session event store following acted =>
          have commits := acted.commits (current session)
          dsimp only
          cases committed : event.committed? (middle.locals session) with
          | none =>
              rw [committed] at commits
              rw [Option.map_none, Option.toList_none, List.append_nil, show store.jobs = _ from commits]
              exact ih
          | some event =>
              rw [committed] at commits
              exact .snoc ih commits

end Transactions

/-- However the sessions interleave, wait, fail or are lost, the commits in their order are
a serial history of calls that leads to the stored jobs. -/
theorem commits_serial (trace : Transactions.Trace) (state : Transactions)
    (run : Run Transactions.Step .initial trace state) :
    Run CommitStep (fun _ => none) (Transactions.history trace) state.store.jobs :=
  Transactions.history_of_run run Transactions.owned_initial

/-- Of two workers that look for one job at once, one claims it. -/
theorem commits_serial_race : ∃ trace state, Run Transactions.Step .initial trace state ∧
    (Transactions.history trace).map (·.event.call) = [.create (demoJob 7 2), .claimNextQueued] ∧
    Run CommitStep (fun _ => none) (Transactions.history trace) state.store.jobs := by
  obtain ⟨trace, state, run, calls⟩ := @Transactions.played .initial demoRace
    (fun trace _ => (Transactions.history trace).map (·.event.call) =
      [.create (demoJob 7 2), .claimNextQueued]) (by decide +kernel)
  exact ⟨trace, state, run, of_decide_eq_true calls, commits_serial trace state run⟩

end EvaluationService

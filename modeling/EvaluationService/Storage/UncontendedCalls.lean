import EvaluationService.Storage.TransactionProperties
import EvaluationService.Storage.TransactionProgress

/-!
A call that no other session gets in the way of has the effect that the contract of
repositories gives it: the statements of a method, one after the other, do what
`Storage.Postgres` takes for one atomic step.
-/

set_option autoImplicit false

namespace EvaluationService

open Foundation PostgresJobRepository

/-- What the statement has selected when it is done: all candidates, or as many as it may. -/
def LockingStatement.Chosen (statement : LockingStatement) (candidates : List UUID)
    (selected : List StoredRow) : Prop :=
  selected.map (·.1.jobId) = candidates ∨
    ∃ limit ∈ statement.limit, selected.map (·.1.jobId) = candidates.take limit

/-- Where a call stands that began on the rows `start`. -/
def Session.Uncontended (start : LockedJobs) (call : RepositoryCall) (rows : LockedJobs) :
    Session → Prop
  | .idle => False
  | .begun current => current = call ∧ rows.table = start.table
  | .inserted job => call = .create job ∧ rows.table = start.table
  | .scanning current candidates selected => current = call ∧ rows.table = start.table ∧
      ∃ statement layout, statement? call = some statement ∧
        start.table.Arranges (PostgresJobRepository.evaluationJobs layout) ∧
        selected.map (·.1.jobId) ++ candidates = statement.candidates layout.evaluationJobs.rows
  | .holding current selected => current = call ∧ rows.table = start.table ∧
      ∀ statement, statement? call = some statement →
        ∃ layout, start.table.Arranges (PostgresJobRepository.evaluationJobs layout) ∧
          LockingStatement.Chosen statement (statement.candidates layout.evaluationJobs.rows) selected
  | .refreshing current jobId => current = call ∧
      ∃ now, Effect (fun _ => none) now start.jobs call (refreshed call (refresh rows jobId)) rows.jobs
  | .answering reply => ∃ now, Effect (fun _ => none) now start.jobs call reply rows.jobs

/-- The outcome of an orderly step: the call goes on, or it is answered. -/
def Session.Proceeds (start : LockedJobs) (call : RepositoryCall) (event : SessionEvent)
    (rows : LockedJobs) (following : Session) : Prop :=
  match event with
  | .answer reply =>
      following = .idle ∧ ∃ now, Effect (fun _ => none) now start.jobs call reply rows.jobs
  | _ => following.Uncontended start call rows

section Effects

variable {start rows : LockedJobs} {call : RepositoryCall} {now : DateTime} {session : Nat}

theorem query_effect {layout : PostgresJobRepository} {reply : RepositoryReply}
    (arranged : rows.table.Arranges layout.evaluationJobs)
    (queried : query? layout call = some reply) :
    Effect (fun _ => none) now rows.jobs call reply rows.jobs := by
  have performed : postgresRepository.perform layout now call = (reply, layout) := by
    cases call <;> cases queried <;> rfl
  have fresh : call.Fresh (postgresRepository.job? layout) := by
    rintro job rfl
    cases queried
  have same : postgresRepository.job? layout = rows.jobs :=
    @Implements.arranged _ _ postgresRepository_implements ⟨rows.table⟩ layout arranged
  rw [← same]
  exact postgresRepository_implements.effect fresh performed

/-- A changed row is read back as it was committed. -/
theorem refresh_commit {row : StoredRow} {job : EvaluationJob} (holds : rows.Holds session [row])
    (decoded : row.1.toDomain = .ok job) :
    refresh (rows.commit session ([row].map (assigned now call))) row.1.jobId =
      .ok (job.assigned now call) := by
  have lookup := holds.find?_commit (assigned now call) (fun row => assign_jobId now call row.1)
    row.1.jobId
  rw [List.find?_cons_of_pos (by simp)] at lookup
  unfold refresh
  rw [lookup]
  exact toDomain_assign now call decoded

theorem change_effect {jobId : UUID} {allowedFrom : List JobStatus} {row : StoredRow}
    (holds : rows.Holds session [row]) (guarded : call.guard? = some (jobId, allowedFrom))
    (identified : row.1.jobId = jobId)
    (valid : validateTransition row.1.status allowedFrom = .ok ()) :
    Effect (fun _ => none) now rows.jobs call
      (refreshed call (refresh (rows.commit session ([row].map (assigned now call))) jobId))
      (LockedJobs.jobs (rows.commit session ([row].map (assigned now call)))) := by
  obtain ⟨job, decoded⟩ := row.2
  have stored := LockedJobs.jobs_eq_some_of_find? (holds.current row (by simp)) decoded
  have allowed := status_mem_of_valid decoded valid
  rw [← identified, refresh_commit holds decoded, jobs_commit_one holds now call decoded,
    EvaluationJobRow.jobId_eq _ _ decoded]
  rw [← identified] at guarded
  cases call with
  | setRunning _ =>
      cases guarded
      exact .start stored (by simpa using allowed)
  | setSucceeded _ result =>
      cases guarded
      exact .succeed stored (by simpa using allowed)
  | setFailed _ message =>
      cases guarded
      exact .fail stored (by simpa using allowed)
  | _ => cases guarded

theorem refused_of_invalid {row : EvaluationJobRow} {job : EvaluationJob}
    {allowedFrom : List JobStatus} {error : Exn} (decoded : row.toDomain = .ok job)
    (invalid : validateTransition row.status allowedFrom = .error error) :
    error = .invalidStateTransitionError ∧ job.status ∉ allowedFrom := by
  obtain ⟨statusDecoded, _⟩ := (EvaluationJobRow.toDomain_eq_ok_iff row job).mp decoded
  simp only [validateTransition, statusDecoded, bind, Except.bind] at invalid
  split at invalid
  · rename_i notAllowed
    cases invalid
    exact ⟨rfl, notAllowed⟩
  · cases invalid

/-- The first candidate of a claim is the oldest claimable job. -/
theorem claim_effect {layout : PostgresJobRepository} {row : StoredRow} {rest : List UUID}
    (arranged : rows.table.Arranges layout.evaluationJobs) (holds : rows.Holds session [row])
    (first : claimStatement.candidates layout.evaluationJobs.rows = row.1.jobId :: rest) :
    Effect (fun _ => none) now rows.jobs .claimNextQueued
      (refreshed .claimNextQueued
        (refresh (rows.commit session ([row].map (assigned now .claimNextQueued))) row.1.jobId))
      (LockedJobs.jobs (rows.commit session ([row].map (assigned now .claimNextQueued)))) := by
  obtain ⟨job, decoded⟩ := row.2
  have current := holds.current row (by simp)
  have stored := LockedJobs.jobs_eq_some_of_find? current decoded
  obtain ⟨oldest, others, sorted, oldestId, _⟩ := List.map_eq_cons_iff.mp first
  have isFirst : (sortBy EvaluationJobRow.createdAt
      (layout.evaluationJobs.rows.filter isQueued)).head? = some oldest :=
    congrArg List.head? sorted
  obtain ⟨chosen, least⟩ := head?_sortBy_eq_some isFirst
  obtain ⟨member, queued⟩ := List.mem_filter.mp chosen
  have same : oldest = row.1 := by
    have found := Table.find?_of_mem _ (arranged.mem_iff.mpr member)
    rw [oldestId, current, Option.some_inj] at found
    exact found.symm
  subst same
  rw [refresh_commit holds decoded, jobs_commit_one holds now .claimNextQueued decoded]
  rw [← EvaluationJobRow.jobId_eq _ _ decoded] at stored
  refine .claim stored ((isQueued_iff decoded).mp queued) fun jobId other otherStored claimable => ?_
  obtain ⟨otherRow, otherMember, otherDecoded⟩ := exists_row ⟨rows.table⟩ otherStored
  rw [EvaluationJobRow.createdAt_eq _ _ decoded, EvaluationJobRow.createdAt_eq _ _ otherDecoded]
  exact least otherRow (List.mem_filter.mpr
    ⟨arranged.mem_iff.mp otherMember, (isQueued_iff otherDecoded).mpr claimable⟩)

theorem claimNone_effect {layout : PostgresJobRepository}
    (arranged : rows.table.Arranges layout.evaluationJobs)
    (none : claimStatement.candidates layout.evaluationJobs.rows = []) :
    Effect (fun _ => Option.none) now rows.jobs .claimNextQueued (.claim (.ok Option.none))
      rows.jobs := by
  refine .claimNone fun jobId job stored claimable => ?_
  obtain ⟨row, member, decoded⟩ := exists_row ⟨rows.table⟩ stored
  have listed : row.jobId ∈ claimStatement.candidates layout.evaluationJobs.rows := by
    rw [(@candidates_perm .claimNextQueued _ rfl _).mem_iff]
    exact List.mem_map_of_mem (List.mem_filter.mpr
      ⟨arranged.mem_iff.mp member, (isQueued_iff decoded).mpr claimable⟩)
  rw [none] at listed
  cases listed

theorem recover_effect {layout : PostgresJobRepository} {cutoff : DateTime}
    {selected : List StoredRow} (arranged : rows.table.Arranges layout.evaluationJobs)
    (holds : rows.Holds session selected)
    (all : selected.map (·.1.jobId) =
      (recoverStatement cutoff).candidates layout.evaluationJobs.rows) :
    Effect (fun _ => none) now rows.jobs (.recoverStaleRunning cutoff)
      (.count (.ok selected.length))
      (LockedJobs.jobs
        (rows.commit session (selected.map (assigned now (.recoverStaleRunning cutoff))))) := by
  have chosen : ∀ jobId row, rows.table.find? jobId = some row →
      (jobId ∈ selected.map (·.1.jobId) ↔ isStale cutoff row = true) := by
    intro jobId row found
    rw [all, (@candidates_perm (.recoverStaleRunning cutoff) _ rfl _).mem_iff]
    rw [Table.Arranges.find? arranged] at found
    exact layout.evaluationJobs.mem_keys_filter_iff (isStale cutoff) found
  have after : LockedJobs.jobs
      (rows.commit session (selected.map (assigned now (.recoverStaleRunning cutoff)))) =
        fun jobId => (rows.jobs jobId).map (·.recovered cutoff now) := by
    funext jobId
    rw [jobs_commit holds]
    cases stored : rows.jobs jobId with
    | none => split <;> rfl
    | some job =>
        obtain ⟨row, found, decoded⟩ := (job?_eq_some_iff ⟨rows.table⟩ jobId job).mp stored
        have stale := (chosen jobId row found).trans (isStale_iff cutoff decoded)
        by_cases isStale : job.Stale cutoff
        · rw [if_pos (stale.mpr isStale), Option.map_some, Option.map_some,
            EvaluationJob.recovered, if_pos isStale]
          rfl
        · rw [if_neg (fun member => isStale (stale.mp member)), Option.map_some,
            EvaluationJob.recovered, if_neg isStale]
  rw [after, ← List.length_map (·.1.jobId)]
  refine .recover holds.distinct fun jobId => ?_
  cases stored : rows.jobs jobId with
  | none =>
      simp only [reduceCtorEq, false_and, exists_false, iff_false]
      intro member
      obtain ⟨row, isSelected, rfl⟩ := List.mem_map.mp member
      rw [LockedJobs.jobs_eq_none_iff, holds.current row isSelected] at stored
      cases stored
  | some job =>
      obtain ⟨row, found, decoded⟩ := (job?_eq_some_iff ⟨rows.table⟩ jobId job).mp stored
      rw [chosen jobId row found, isStale_iff cutoff decoded]
      simp

end Effects

/-- A step of a call that alone has locks makes it proceed as the contract says. -/
theorem Transacts.proceeds {session : Nat} {start rows next : LockedJobs} {call : RepositoryCall}
    {current following : Session} {event : SessionEvent} (fresh : call.Fresh start.jobs)
    (mine : ∀ jobId other, rows.owner jobId = some other → other = session)
    (owns : current.Owns session rows) (place : current.Uncontended start call rows)
    (stepped : Transacts session rows current event next following) (orderly : event.Orderly) :
    following.Proceeds start call event next := by
  cases stepped with
  | begin => exact absurd orderly id
  | query arranged queried =>
      obtain ⟨rfl, same⟩ := place
      refine ⟨rfl, 0, ?_⟩
      rw [← LockedJobs.jobs_of_table same]
      exact query_effect arranged queried
  | insert _ _ =>
      obtain ⟨rfl, same⟩ := place
      exact ⟨rfl, same⟩
  | duplicate found =>
      obtain ⟨rfl, same⟩ := place
      have absent := (LockedJobs.jobs_eq_none_iff _).mp (fresh _ rfl)
      rw [← same, found] at absent
      cases absent
  | @commitInsert job now =>
      obtain ⟨rfl, same⟩ := place
      refine ⟨now, ?_⟩
      rw [jobs_commitInsert, LockedJobs.jobs_of_table same]
      exact .create (fresh job rfl)
  | @select _ jobId allowedFrom row guarded free found =>
      obtain ⟨rfl, same⟩ := place
      refine ⟨rfl, same, fun statement isStatement => ?_⟩
      rw [guard?_eq_none isStatement] at guarded
      cases guarded
  | absent guarded absent =>
      obtain ⟨rfl, same⟩ := place
      refine ⟨rfl, 0, ?_⟩
      rw [LockedJobs.jobs_of_table same]
      refine .refuse guarded (.absent ?_)
      rw [LockedJobs.jobs_eq_none_iff, ← same]
      exact absent
  | @refuse _ jobId allowedFrom row error guarded invalid =>
      obtain ⟨rfl, same, _⟩ := place
      obtain ⟨holds, selects⟩ := owns
      obtain ⟨job, decoded⟩ := row.2
      obtain ⟨rfl, notAllowed⟩ := refused_of_invalid decoded invalid
      have stored := LockedJobs.jobs_eq_some_of_find? (holds.current row (by simp)) decoded
      rw [selects.jobId_eq guarded, LockedJobs.jobs_of_table same] at stored
      refine ⟨rfl, 0, ?_⟩
      rw [LockedJobs.jobs_of_table (LockedTable.release_table rows session),
        LockedJobs.jobs_of_table same]
      exact .refuse guarded (.notAllowed stored notAllowed)
  | @commitChange _ jobId allowedFrom row now guarded valid =>
      obtain ⟨rfl, same, _⟩ := place
      refine ⟨rfl, now, ?_⟩
      rw [← LockedJobs.jobs_of_table same]
      exact change_effect owns.1 guarded (owns.2.jobId_eq guarded) valid
  | @snapshot _ statement layout isStatement arranged =>
      obtain ⟨rfl, same⟩ := place
      exact ⟨rfl, same, statement, layout, isStatement, same ▸ arranged, rfl⟩
  | @scan _ _ statement wanted rest selected taken isStatement notFilled scanned =>
      obtain ⟨rfl, same, other, layout, isOther, arranged, all⟩ := place
      obtain rfl : statement = other := Option.some_inj.mp (isStatement.symm.trans isOther)
      have listed : wanted ∈ statement.candidates layout.evaluationJobs.rows := by
        rw [← all]
        simp
      obtain ⟨row, found, passes⟩ := find?_of_candidate isStatement (same ▸ arranged) listed
      refine ⟨rfl, scanned.table_eq.trans same, statement, layout, isStatement, arranged, ?_⟩
      cases scanned with
      | skip owned different => exact absurd (mine _ _ owned) different
      | passOver _ read fails _ =>
          rw [found, Option.some_inj] at read
          rw [← read, passes] at fails
          cases fails
      | @take row _ read _ =>
          have identified : row.1.jobId = wanted := Table.find?_key read
          rw [← all, List.map_append, List.map_singleton, identified, List.append_assoc]
          rfl
  | @scanned _ statement candidates selected isStatement done =>
      obtain ⟨rfl, same, other, layout, isOther, arranged, all⟩ := place
      obtain rfl : statement = other := Option.some_inj.mp (isStatement.symm.trans isOther)
      refine ⟨rfl, same, fun again isAgain => ⟨layout, arranged, ?_⟩⟩
      obtain rfl : statement = again := Option.some_inj.mp (isStatement.symm.trans isAgain)
      rcases done with ⟨limit, limited, reached⟩ | rfl
      · have within := (owns.2.2.1.passes isStatement).2 limit limited
        refine .inr ⟨limit, limited, ?_⟩
        rw [← all, List.take_left' (by rw [List.length_map]; omega)]
      · exact .inl (by simpa using all)
  | nothing =>
      obtain ⟨rfl, same, chosen⟩ := place
      obtain ⟨layout, arranged, chosen⟩ := chosen claimStatement rfl
      have none : claimStatement.candidates layout.evaluationJobs.rows = [] := by
        rcases chosen with all | ⟨limit, limited, some⟩
        · exact all.symm
        · cases limited
          simpa using some.symm
      refine ⟨rfl, 0, ?_⟩
      rw [LockedJobs.jobs_of_table (LockedTable.release_table rows session),
        ← LockedJobs.jobs_of_table same]
      exact claimNone_effect (same ▸ arranged) none
  | @commitClaim row now =>
      obtain ⟨rfl, same, chosen⟩ := place
      obtain ⟨layout, arranged, chosen⟩ := chosen claimStatement rfl
      have first : ∃ rest, claimStatement.candidates layout.evaluationJobs.rows =
          row.1.jobId :: rest := by
        rcases chosen with all | ⟨limit, limited, some⟩
        · exact ⟨[], all.symm⟩
        · cases limited
          cases listed : claimStatement.candidates layout.evaluationJobs.rows with
          | nil => simp [listed] at some
          | cons wanted rest =>
              have wantedSame : row.1.jobId = wanted := by simpa [listed] using some
              exact ⟨rest, by rw [wantedSame]⟩
      obtain ⟨rest, first⟩ := first
      refine ⟨rfl, now, ?_⟩
      rw [← LockedJobs.jobs_of_table same]
      exact claim_effect (same ▸ arranged) owns.1 first
  | @commitRecover cutoff now selected =>
      obtain ⟨rfl, same, chosen⟩ := place
      obtain ⟨layout, arranged, all | ⟨limit, limited, _⟩⟩ := chosen (recoverStatement cutoff) rfl
      · refine ⟨now, ?_⟩
        rw [← LockedJobs.jobs_of_table same]
        exact recover_effect (same ▸ arranged) owns.1 all
      · cases limited
  | refresh =>
      obtain ⟨rfl, effect⟩ := place
      exact ⟨rfl, effect⟩
  | answer => exact ⟨rfl, place⟩
  | abort _ => exact absurd orderly id

namespace Transactions

/-- The call has been answered by the last step of the trace, with an effect of the contract. -/
def Answered (start final : Transactions) (call : RepositoryCall) (trace : Trace) : Prop :=
  ∃ earlier answering reply now, trace = earlier ++ [answering] ∧
    answering.event.2 = .answer reply ∧
    Effect (fun _ => none) now start.store.jobs call reply final.store.jobs

variable {state final : Transactions} {session : Nat} {trace : Trace} {call : RepositoryCall}

theorem uncontended_of_run (owned : state.Owned) (begun : state.locals session = .begun call)
    (unlocked : ∀ jobId, state.store.owner jobId = none) (fresh : call.Fresh state.store.jobs)
    (run : Run Step state trace final) (alone : Alone session trace) :
    (final.locals session).Uncontended state.store call final.store ∨
      final.locals session = .idle ∧ Answered state final call trace := by
  induction run with
  | nil =>
      rw [begun]
      exact .inl ⟨rfl, rfl⟩
  | @snoc earlier middle next event prior stepped ih =>
      have aloneBefore : Alone session earlier :=
        fun taken member => alone taken (List.mem_append_left _ member)
      obtain ⟨actor, orderly⟩ := alone ⟨middle, event, next⟩ (by simp)
      have owns := owned_of_run prior owned session
      have mine : ∀ jobId other, middle.store.owner jobId = some other → other = session := by
        intro jobId other held
        by_contra different
        rw [(leaves_of_alone owned prior aloneBefore).owners jobId other different,
          unlocked] at held
        cases held
      cases stepped with
      | @act _ current rows following acted =>
          dsimp only at actor orderly
          subst actor
          dsimp only
          rw [Function.update_self]
          rcases ih aloneBefore with place | ⟨idle, _⟩
          · have proceeds := acted.proceeds fresh mine owns place orderly
            cases current with
            | answer reply =>
                obtain ⟨finished, now, effect⟩ := proceeds
                exact .inr ⟨finished, earlier, _, reply, now, rfl, rfl, effect⟩
            | begin call => exact absurd orderly id
            | abort => exact absurd orderly id
            | work => exact .inl proceeds
            | commit now => exact .inl proceeds
          · rw [idle] at acted
            cases acted with
            | begin => exact absurd orderly id
            | abort _ => exact absurd orderly id

end Transactions

open Transactions

/-- A call that begins when no lock is held and runs without the others' steps is answered,
and whatever its statements do on the way, it has one effect of the contract, as if the
method were atomic. -/
theorem uncontended_call (before : Trace) (state : Transactions) (session : Nat)
    (call : RepositoryCall) (reached : Run Step initial before state)
    (begun : state.locals session = .begun call)
    (unlocked : ∀ jobId, state.store.owner jobId = none) (fresh : call.Fresh state.store.jobs) :
    (∃ trace final, Run Step state trace final ∧ Alone session trace ∧
        final.locals session = .idle) ∧
      ∀ trace final, Run Step state trace final → Alone session trace →
        final.locals session = .idle → Answered state final call trace := by
  have owned := owned_of_run reached owned_initial
  constructor
  · rcases @finishes_unless_waiting _ session owned with finishes | ⟨holder, _, _, jobId, _, _, held⟩
    · exact finishes
    · rw [unlocked] at held
      cases held
  · intro trace final run alone finished
    rcases uncontended_of_run owned begun unlocked fresh run alone with place | ⟨_, answered⟩
    · rw [finished] at place
      cases place
    · exact answered

/-- The first job of all, created while nobody else is there. -/
theorem uncontended_call_create : ∃ state, state.locals 0 = .begun (.create (demoJob 7 2)) ∧
    (∃ trace final, Run Step state trace final ∧ Alone 0 trace ∧ final.locals 0 = .idle) ∧
      ∀ trace final, Run Step state trace final → Alone 0 trace →
        final.locals 0 = .idle → Answered state final (.create (demoJob 7 2)) trace := by
  have begins : Run Step initial _ _ := Run.single (@Sessions.Step.act _ _ _ _ initial 0 _ _ _
    (@Transacts.begin 0 initial.store (.create (demoJob 7 2))))
  refine ⟨_, ?begun, uncontended_call _ _ 0 (.create (demoJob 7 2)) begins ?begun
    (fun _ => rfl) ?fresh⟩
  · exact Function.update_self 0 (Session.begun (.create (demoJob 7 2))) initial.locals
  · intro job created
    cases created
    rfl

end EvaluationService

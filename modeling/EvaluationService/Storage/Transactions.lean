import EvaluationService.Foundation.RowLocks
import EvaluationService.Storage.PostgresProperties

/-!
The transactions of the PostgreSQL repository (`app/storage/postgres.py`), one statement
at a time. Any number of sessions, of any number of processes, run methods of the
repository at once under READ COMMITTED; a session may be lost at any point, and with
it what it has not committed. `Storage.Postgres` is what a method does when no other
session is in its way.
-/

set_option autoImplicit false

namespace EvaluationService

open Foundation

/-- A row as a session has read it. -/
abbrev StoredRow : Type := { row : EvaluationJobRow // row.Decodes }

abbrev LockedJobs : Type := LockedTable EvaluationJobRow.jobId EvaluationJobRow.Decodes

namespace PostgresJobRepository

open EvaluationJobRow

/-! ## Statements -/

/-- `SELECT … WHERE … ORDER BY … LIMIT … FOR UPDATE SKIP LOCKED`. -/
structure LockingStatement where
  condition : EvaluationJobRow → Bool
  order : List EvaluationJobRow → List EvaluationJobRow
  limit : Option Nat

/-- The `WHERE` clause of `claim_next_queued`. -/
def isQueued (row : EvaluationJobRow) : Bool :=
  row.status = JobStatus.queued.value ∧ row.attemptCount < row.maxAttempts

def claimStatement : LockingStatement where
  condition := isQueued
  order := sortBy EvaluationJobRow.createdAt
  limit := some 1

def recoverStatement (cutoff : DateTime) : LockingStatement where
  condition := isStale cutoff
  order := id
  limit := none

def statement? : RepositoryCall → Option LockingStatement
  | .claimNextQueued => some claimStatement
  | .recoverStaleRunning cutoff => some (recoverStatement cutoff)
  | _ => none

/-- What the statement's snapshot offers it, in the order in which it looks. -/
def LockingStatement.candidates (statement : LockingStatement) (rows : List EvaluationJobRow) :
    List UUID :=
  (statement.order (rows.filter statement.condition)).map EvaluationJobRow.jobId

def LockingStatement.Filled (statement : LockingStatement) (selected : List StoredRow) : Prop :=
  ∃ limit ∈ statement.limit, limit ≤ selected.length

instance (statement : LockingStatement) (selected : List StoredRow) :
    Decidable (statement.Filled selected) :=
  inferInstanceAs (Decidable (∃ limit ∈ statement.limit, limit ≤ selected.length))

/-- The reply of a method that only reads, from the snapshot of its one statement. -/
def query? (repository : PostgresJobRepository) : RepositoryCall → Option RepositoryReply
  | .get jobId => some (.job (repository.get jobId))
  | .getForTenant jobId tenantId => some (.job (repository.getForTenant jobId tenantId))
  | .listRecent tenantId projectId limit =>
      some (.jobs (repository.listRecent tenantId projectId limit))
  | _ => none

/-- The assignments of a method to a row it has selected. -/
def assign (now : DateTime) : RepositoryCall → EvaluationJobRow → EvaluationJobRow
  | .claimNextQueued, row => claimRow now row
  | .recoverStaleRunning _, row => recoverRow now row
  | .setRunning _, row => moveRow now .running row
  | .setSucceeded _ result, row => succeedRow now result row
  | .setFailed _ message, row => failRow now message row
  | _, row => row

theorem assign_jobId (now : DateTime) (call : RepositoryCall) (row : EvaluationJobRow) :
    (assign now call row).jobId = row.jobId := by
  cases call with
  | recoverStaleRunning cutoff => exact recoverRow_jobId now row
  | _ => rfl

theorem decodes_assign (now : DateTime) (call : RepositoryCall) {row : EvaluationJobRow}
    (sound : row.Decodes) : (assign now call row).Decodes := by
  cases call with
  | claimNextQueued => exact sound.claimRow now
  | recoverStaleRunning cutoff => exact sound.recoverRow now
  | setRunning jobId => exact sound.moveRow now .running
  | setSucceeded jobId result => exact sound.succeedRow now result
  | setFailed jobId message => exact sound.failRow now message
  | _ => exact sound

def assigned (now : DateTime) (call : RepositoryCall) (row : StoredRow) : StoredRow :=
  ⟨assign now call row.1, decodes_assign now call row.2⟩

/-- `session.refresh`: the committed row by its primary key. -/
def refresh (rows : LockedJobs) (jobId : UUID) : Except Exn EvaluationJob :=
  match rows.table.find? jobId with
  | none => .error (.other "InvalidRequestError")
  | some row => row.toDomain

def refreshed : RepositoryCall → Except Exn EvaluationJob → RepositoryReply
  | .claimNextQueued, outcome => .claim (outcome.map some)
  | _, outcome => .job outcome

end PostgresJobRepository

/-! ## Sessions -/

/-- Where a session is in its method. -/
inductive Session where
  | idle
  | begun (call : RepositoryCall)
  | inserted (job : EvaluationJob)
  | scanning (call : RepositoryCall) (candidates : List UUID) (selected : List StoredRow)
  | holding (call : RepositoryCall) (selected : List StoredRow)
  | refreshing (call : RepositoryCall) (jobId : UUID)
  | answering (reply : RepositoryReply)

inductive SessionEvent where
  | begin (call : RepositoryCall)
  | work
  | commit (now : DateTime)
  | answer (reply : RepositoryReply)
  | abort

open PostgresJobRepository in
/-- One step of one session. A session that has no step waits for a lock. -/
inductive Transacts (session : Nat) :
    LockedJobs → Session → SessionEvent → LockedJobs → Session → Prop where
  | begin {rows : LockedJobs} {call : RepositoryCall} :
      Transacts session rows .idle (.begin call) rows (.begun call)
  | query {rows : LockedJobs} {call : RepositoryCall} {reply : RepositoryReply}
      {layout : PostgresJobRepository} :
      rows.table.Arranges layout.evaluationJobs → query? layout call = some reply →
      Transacts session rows (.begun call) (.answer reply) rows .idle
  -- `INSERT` takes the key in the primary key's index until the transaction ends.
  | insert {rows : LockedJobs} {job : EvaluationJob} :
      rows.owner job.jobId = none → rows.table.find? job.jobId = none →
      Transacts session rows (.begun (.create job)) .work (rows.lock session job.jobId)
        (.inserted job)
  | duplicate {rows : LockedJobs} {job : EvaluationJob} {row : EvaluationJobRow} :
      rows.table.find? job.jobId = some row →
      Transacts session rows (.begun (.create job)) (.answer (.job (.error .integrityError))) rows
        .idle
  | commitInsert {rows : LockedJobs} {job : EvaluationJob} {now : DateTime} :
      Transacts session rows (.inserted job) (.commit now)
        (rows.commit session [⟨EvaluationJobRow.toRow job, EvaluationJobRow.decodes_toRow job⟩])
        (.answering (.job (.ok job)))
  -- `session.get(…, with_for_update=True)` waits for the lock and reads the row under it.
  | select {rows : LockedJobs} {call : RepositoryCall} {jobId : UUID}
      {allowedFrom : List JobStatus} {row : StoredRow} :
      call.guard? = some (jobId, allowedFrom) → rows.owner jobId = none →
      rows.table.find? jobId = some row.1 →
      Transacts session rows (.begun call) .work (rows.lock session jobId) (.holding call [row])
  | absent {rows : LockedJobs} {call : RepositoryCall} {jobId : UUID}
      {allowedFrom : List JobStatus} :
      call.guard? = some (jobId, allowedFrom) → rows.table.find? jobId = none →
      Transacts session rows (.begun call) (.answer (.job (.error .notFoundError))) rows .idle
  | refuse {rows : LockedJobs} {call : RepositoryCall} {jobId : UUID}
      {allowedFrom : List JobStatus} {row : StoredRow} {error : Exn} :
      call.guard? = some (jobId, allowedFrom) →
      validateTransition row.1.status allowedFrom = .error error →
      Transacts session rows (.holding call [row]) (.answer (.job (.error error)))
        (rows.release session) .idle
  | commitChange {rows : LockedJobs} {call : RepositoryCall} {jobId : UUID}
      {allowedFrom : List JobStatus} {row : StoredRow} {now : DateTime} :
      call.guard? = some (jobId, allowedFrom) →
      validateTransition row.1.status allowedFrom = .ok () →
      Transacts session rows (.holding call [row]) (.commit now)
        (rows.commit session ([row].map (assigned now call))) (.refreshing call jobId)
  | snapshot {rows : LockedJobs} {call : RepositoryCall} {statement : LockingStatement}
      {layout : PostgresJobRepository} :
      statement? call = some statement → rows.table.Arranges layout.evaluationJobs →
      Transacts session rows (.begun call) .work rows
        (.scanning call (statement.candidates layout.evaluationJobs.rows) [])
  | scan {rows next : LockedJobs} {call : RepositoryCall} {statement : LockingStatement}
      {wanted : UUID} {rest : List UUID} {selected taken : List StoredRow} :
      statement? call = some statement → ¬ statement.Filled selected →
      LockedTable.ScanStep statement.condition session wanted rows selected next taken →
      Transacts session rows (.scanning call (wanted :: rest) selected) .work next
        (.scanning call rest taken)
  | scanned {rows : LockedJobs} {call : RepositoryCall} {statement : LockingStatement}
      {candidates : List UUID} {selected : List StoredRow} :
      statement? call = some statement → statement.Filled selected ∨ candidates = [] →
      Transacts session rows (.scanning call candidates selected) .work rows
        (.holding call selected)
  | nothing {rows : LockedJobs} :
      Transacts session rows (.holding .claimNextQueued []) (.answer (.claim (.ok none)))
        (rows.release session) .idle
  | commitClaim {rows : LockedJobs} {row : StoredRow} {now : DateTime} :
      Transacts session rows (.holding .claimNextQueued [row]) (.commit now)
        (rows.commit session ([row].map (assigned now .claimNextQueued)))
        (.refreshing .claimNextQueued row.1.jobId)
  | commitRecover {rows : LockedJobs} {cutoff now : DateTime} {selected : List StoredRow} :
      Transacts session rows (.holding (.recoverStaleRunning cutoff) selected) (.commit now)
        (rows.commit session (selected.map (assigned now (.recoverStaleRunning cutoff))))
        (.answering (.count (.ok selected.length)))
  | refresh {rows : LockedJobs} {call : RepositoryCall} {jobId : UUID} :
      Transacts session rows (.refreshing call jobId)
        (.answer (refreshed call (refresh rows jobId))) rows .idle
  | answer {rows : LockedJobs} {reply : RepositoryReply} :
      Transacts session rows (.answering reply) (.answer reply) rows .idle
  -- The connection or the whole process is lost: the database rolls back.
  | abort {rows : LockedJobs} {current : Session} :
      current ≠ .idle → Transacts session rows current .abort (rows.release session) .idle

abbrev Transactions : Type := Sessions LockedJobs Session

namespace Transactions

abbrev Step : Transactions → Nat × SessionEvent → Transactions → Prop :=
  Sessions.Step Transacts

abbrev Trace : Type := List (Transition Transactions (Nat × SessionEvent))

def initial : Transactions := ⟨.unlocked Table.empty, fun _ => .idle⟩

end Transactions

/-! ## What a session has in hand -/

open PostgresJobRepository

namespace Session

/-- The rows a method selected are those it may assign to. -/
inductive Selects : RepositoryCall → List StoredRow → Prop where
  | scanned {call : RepositoryCall} {statement : LockingStatement} {rows : List StoredRow} :
      statement? call = some statement → (∀ row ∈ rows, statement.condition row.1 = true) →
      (∀ limit ∈ statement.limit, rows.length ≤ limit) → Selects call rows
  | found {call : RepositoryCall} {jobId : UUID} {allowedFrom : List JobStatus} {row : StoredRow} :
      call.guard? = some (jobId, allowedFrom) → row.1.jobId = jobId → Selects call [row]

/-- The invariant of one session, by where it is. -/
def Owns (session : Nat) (rows : LockedJobs) : Session → Prop
  | .idle | .begun _ => rows.Lockless session
  | .inserted job => rows.owner job.jobId = some session ∧ rows.table.find? job.jobId = none
  | .scanning call candidates selected =>
      (statement? call).isSome ∧ rows.Holds session selected ∧ Selects call selected ∧ candidates.Nodup ∧
        ∀ wanted ∈ candidates,
          rows.table.find? wanted ≠ none ∧ rows.owner wanted ≠ some session
  | .holding call selected => rows.Holds session selected ∧ Selects call selected
  | .refreshing _ jobId => rows.Lockless session ∧ rows.table.find? jobId ≠ none
  | .answering reply => rows.Lockless session ∧ ∀ outcome, reply ≠ .claim outcome

variable {session actor : Nat} {rows next before after : LockedJobs} {current following : Session}
variable {event : SessionEvent}

theorem Owns.of_leaves (owns : Owns session before current) (different : session ≠ actor)
    (left : LockedTable.Leaves actor before after) : Owns session after current := by
  cases current with
  | idle => exact owns.of_leaves different left
  | begun call => exact owns.of_leaves different left
  | answering reply => exact ⟨owns.1.of_leaves different left, owns.2⟩
  | inserted job =>
      exact ⟨(left.owners _ _ different).mpr owns.1,
        (left.rows _ _ different owns.1).trans owns.2⟩
  | scanning call candidates selected =>
      obtain ⟨isScan, holds, selects, distinct, foreign⟩ := owns
      refine ⟨isScan, holds.of_leaves different left, selects, distinct, fun wanted member => ?_⟩
      obtain ⟨present, notOwn⟩ := foreign wanted member
      exact ⟨left.present _ present, fun own => notOwn ((left.owners _ _ different).mp own)⟩
  | holding call selected => exact ⟨owns.1.of_leaves different left, owns.2⟩
  | refreshing call jobId => exact ⟨owns.1.of_leaves different left, left.present _ owns.2⟩

end Session

theorem guard?_eq_none {call : RepositoryCall} {statement : LockingStatement}
    (isStatement : statement? call = some statement) : call.guard? = none := by
  cases call with
  | claimNextQueued => rfl
  | recoverStaleRunning cutoff => rfl
  | _ => cases isStatement

theorem candidates_perm {call : RepositoryCall} {statement : LockingStatement}
    (isStatement : statement? call = some statement) (rows : List EvaluationJobRow) :
    (statement.candidates rows).Perm
      ((rows.filter statement.condition).map EvaluationJobRow.jobId) := by
  cases call with
  | claimNextQueued =>
      cases isStatement
      exact (sortBy_perm EvaluationJobRow.createdAt _).map _
  | recoverStaleRunning cutoff =>
      cases isStatement
      exact .refl _
  | _ => cases isStatement

theorem candidates_nodup {call : RepositoryCall} {statement : LockingStatement}
    (isStatement : statement? call = some statement) (layout : PostgresJobRepository) :
    (statement.candidates layout.evaluationJobs.rows).Nodup :=
  (candidates_perm isStatement _).nodup_iff.mpr (layout.evaluationJobs.nodup_keys_filter _)

theorem find?_of_candidate {call : RepositoryCall} {statement : LockingStatement}
    (isStatement : statement? call = some statement) {rows : LockedJobs}
    {layout : PostgresJobRepository} (arranged : rows.table.Arranges layout.evaluationJobs)
    {wanted : UUID} (member : wanted ∈ statement.candidates layout.evaluationJobs.rows) :
    ∃ row, rows.table.find? wanted = some row ∧ statement.condition row = true := by
  obtain ⟨row, chosen, rfl⟩ := List.mem_map.mp ((candidates_perm isStatement _).mem_iff.mp member)
  obtain ⟨stored, passes⟩ := List.mem_filter.mp chosen
  exact ⟨row, Table.find?_of_mem _ (arranged.mem_iff.mpr stored), passes⟩

theorem Session.Selects.passes {call : RepositoryCall} {statement : LockingStatement}
    {selected : List StoredRow} (selects : Session.Selects call selected)
    (isStatement : statement? call = some statement) :
    (∀ row ∈ selected, statement.condition row.1 = true) ∧
      ∀ limit ∈ statement.limit, selected.length ≤ limit := by
  cases selects with
  | scanned same passes within =>
      rw [isStatement, Option.some_inj] at same
      rw [same]
      exact ⟨passes, within⟩
  | found guarded _ =>
      rw [guard?_eq_none isStatement] at guarded
      cases guarded

theorem Session.Selects.jobId_eq {call : RepositoryCall} {jobId : UUID}
    {allowedFrom : List JobStatus} {row : StoredRow} (selects : Session.Selects call [row])
    (guarded : call.guard? = some (jobId, allowedFrom)) : row.1.jobId = jobId := by
  cases selects with
  | scanned isStatement _ _ =>
      rw [guard?_eq_none isStatement] at guarded
      cases guarded
  | found same identified =>
      rw [guarded, Option.some_inj, Prod.mk.injEq] at same
      rw [same.1, identified]

/-- A step keeps the invariant of the acting session and leaves alone what the others hold. -/
theorem Session.Owns.step {session : Nat} {rows next : LockedJobs} {current following : Session}
    {event : SessionEvent} (owns : current.Owns session rows)
    (stepped : Transacts session rows current event next following) :
    following.Owns session next ∧ LockedTable.Leaves session rows next := by
  cases stepped with
  | begin => exact ⟨owns, .refl _ _⟩
  | query _ _ => exact ⟨owns, .refl _ _⟩
  | insert free absent =>
      exact ⟨⟨LockedTable.lock_owner_self _ _ _, absent⟩, .lock free⟩
  | duplicate _ => exact ⟨owns, .refl _ _⟩
  | commitInsert =>
      refine ⟨⟨LockedTable.Lockless.release _ _, by simp⟩, .commit (by simp) fun row member => ?_⟩
      rw [List.mem_singleton.mp member]
      exact owns.1
  | @select call jobId allowedFrom row guarded free found =>
      obtain rfl := Table.find?_key found
      exact ⟨⟨(LockedTable.Holds.nil rows session).take row free found, .found guarded rfl⟩,
        .lock free⟩
  | absent _ _ => exact ⟨owns, .refl _ _⟩
  | refuse _ _ => exact ⟨LockedTable.Lockless.release _ _, .release _ _⟩
  | @commitChange call jobId allowedFrom row now guarded _ =>
      obtain ⟨holds, selects⟩ := owns
      have left := holds.leaves_commit (assigned now call) fun row => assign_jobId now call row.1
      refine ⟨⟨LockedTable.Lockless.release _ _, left.present _ ?_⟩, left⟩
      rw [← selects.jobId_eq guarded, holds.current row (by simp)]
      simp
  | @snapshot call statement layout isStatement arranged =>
      refine ⟨⟨by simp [isStatement], .nil _ _, .scanned isStatement (by simp) (by simp),
        candidates_nodup isStatement layout, fun wanted member => ⟨?_, owns wanted⟩⟩, .refl _ _⟩
      obtain ⟨row, found, _⟩ := find?_of_candidate isStatement arranged member
      simp [found]
  | @scan _ call statement wanted rest selected taken isStatement notFilled scanned =>
      obtain ⟨isScan, holds, selects, distinct, foreign⟩ := owns
      obtain ⟨passes, within⟩ := selects.passes isStatement
      rw [List.nodup_cons] at distinct
      refine ⟨⟨isScan, scanned.holds holds, .scanned isStatement (scanned.passes passes) ?_, distinct.2,
        fun other member => ?_⟩, scanned.leaves⟩
      · intro limit limited
        have short : selected.length < limit := by
          by_contra long
          exact notFilled ⟨limit, limited, by omega⟩
        have longer := scanned.length_le
        omega
      · obtain ⟨present, notOwn⟩ := foreign other (List.mem_cons_of_mem _ member)
        have different : other ≠ wanted := fun same => distinct.1 (same ▸ member)
        rw [scanned.table_eq, scanned.owner_of_ne different]
        exact ⟨present, notOwn⟩
  | scanned _ _ => exact ⟨⟨owns.2.1, owns.2.2.1⟩, .refl _ _⟩
  | nothing => exact ⟨LockedTable.Lockless.release _ _, .release _ _⟩
  | @commitClaim row now =>
      have left := owns.1.leaves_commit (assigned now .claimNextQueued)
        fun row => assign_jobId now .claimNextQueued row.1
      refine ⟨⟨LockedTable.Lockless.release _ _, left.present _ ?_⟩, left⟩
      rw [owns.1.current row (by simp)]
      simp
  | @commitRecover cutoff now selected =>
      exact ⟨⟨LockedTable.Lockless.release _ _, by simp⟩, owns.1.leaves_commit _
        fun row => assign_jobId now (.recoverStaleRunning cutoff) row.1⟩
  | refresh => exact ⟨owns.1, .refl _ _⟩
  | answer => exact ⟨owns.1, .refl _ _⟩
  | abort _ => exact ⟨LockedTable.Lockless.release _ _, .release _ _⟩

namespace Transactions

/-- Every session has in hand what its place in its method says. -/
def Owned (state : Transactions) : Prop :=
  ∀ session, (state.locals session).Owns session state.store

theorem owned_initial : initial.Owned := by
  intro session wanted owned
  cases owned

theorem Owned.step {state next : Transactions} {event : Nat × SessionEvent} (owned : state.Owned)
    (stepped : Step state event next) : next.Owned := by
  have holds : state.Hold (fun _ => True) (fun session rows current => current.Owns session rows) :=
    ⟨trivial, owned⟩
  refine (holds.step LockedTable.Leaves ?_ ?_ stepped).2
  · intro actor other before after current different left owns
    exact owns.of_leaves different left
  · intro session rows current event after next _ owns acted
    obtain ⟨kept, left⟩ := owns.step acted
    exact ⟨trivial, kept, left⟩

theorem owned_of_run {start state : Transactions} {trace : Trace}
    (run : Run Step start trace state) (owned : start.Owned) : state.Owned :=
  run.preserves Owned (fun _ _ _ stepped current => current.step stepped) owned

/-- A session stays where it is while only others act. -/
theorem locals_of_others {start state : Transactions} {trace : Trace} {session : Nat}
    (run : Run Step start trace state)
    (others : ∀ taken ∈ trace, taken.event.1 ≠ session) :
    state.locals session = start.locals session := by
  induction run with
  | nil => rfl
  | @snoc earlier middle next event prior stepped ih =>
      rw [← ih fun taken member => others taken (List.mem_append_left _ member)]
      have different := others ⟨middle, event, next⟩ (by simp)
      cases stepped with
      | act _ => exact Function.update_of_ne (Ne.symm different) _ _

end Transactions

end EvaluationService

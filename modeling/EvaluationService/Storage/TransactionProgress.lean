import Mathlib.Algebra.BigOperators.Group.Finset.Basic
import Mathlib.Data.Prod.Lex
import EvaluationService.Storage.TransactionReplay

/-!
Progress of the sessions. A session that waits for a lock has none itself, so whoever
it waits for can go on; and no session goes on for ever within one call.
-/

set_option autoImplicit false

namespace EvaluationService

open Foundation PostgresJobRepository

namespace Session

/-- The row whose lock a call takes before anything else. -/
def lockedFirst? : RepositoryCall → Option UUID
  | .create job => some job.jobId
  | call => call.guard?.map (·.1)

/-- The session cannot go on before `holder` has released the row. -/
def WaitsFor (rows : LockedJobs) (current : Session) (holder : Nat) : Prop :=
  ∃ call jobId, current = .begun call ∧ lockedFirst? call = some jobId ∧
    rows.owner jobId = some holder

/-- How many steps a session has left in its call, once it has its snapshot. -/
def stepsLeft : Session → Nat
  | .idle | .begun _ => 0
  | .inserted _ => 2
  | .scanning _ candidates _ => candidates.length + 3
  | .holding _ _ => 2
  | .refreshing _ _ | .answering _ => 1

def unstarted : Session → Nat
  | .begun _ => 1
  | _ => 0

section Steps

variable {session : Nat} {rows next : LockedJobs} {current following : Session}
variable {event : SessionEvent} {call : RepositoryCall}

theorem start_or_waits (lockless : rows.Lockless session) (call : RepositoryCall) :
    (∃ event next following, start session rows call = some (event, next, following)) ∨
      ∃ holder, holder ≠ session ∧ WaitsFor rows (.begun call) holder := by
  have waits : ∀ jobId holder, lockedFirst? call = some jobId → rows.owner jobId = some holder →
      ∃ holder, holder ≠ session ∧ WaitsFor rows (.begun call) holder := by
    intro jobId holder isFirst owned
    exact ⟨holder, fun same => lockless jobId (same ▸ owned), call, jobId, rfl, isFirst, owned⟩
  have locked : ∀ jobId allowedFrom, query? ⟨rows.table⟩ call = none → statement? call = none →
      call.guard? = some (jobId, allowedFrom) → lockedFirst? call = some jobId →
      (∀ job, call ≠ .create job) →
      (∃ event next following, start session rows call = some (event, next, following)) ∨
        ∃ holder, holder ≠ session ∧ WaitsFor rows (.begun call) holder := by
    intro jobId allowedFrom notQuery notScan guarded isFirst notCreate
    cases owned : rows.owner jobId with
    | some holder => exact .inr (waits jobId holder isFirst owned)
    | none =>
        left
        unfold start
        split
        · rename_i job
          exact absurd rfl (notCreate job)
        · simp only [notQuery, notScan, guarded]
          split <;> simp_all
  cases call with
  | create job =>
      cases found : rows.table.find? job.jobId with
      | some row => exact .inl ⟨_, _, _, by simp only [start, found]; rfl⟩
      | none =>
          cases owned : rows.owner job.jobId with
          | none => exact .inl ⟨_, _, _, by simp only [start, found, owned]; rfl⟩
          | some holder => exact .inr (waits _ holder rfl owned)
  | setRunning jobId => exact locked _ _ rfl rfl rfl rfl (by simp)
  | setSucceeded jobId result => exact locked _ _ rfl rfl rfl rfl (by simp)
  | setFailed jobId message => exact locked _ _ rfl rfl rfl rfl (by simp)
  | _ => exact .inl ⟨_, _, _, rfl⟩

theorem look_isSome {statement : LockingStatement} {wanted : UUID} (rest : List UUID)
    (selected : List StoredRow) (present : rows.table.find? wanted ≠ none)
    (foreign : rows.owner wanted ≠ some session) :
    ∃ event next following,
      look session rows call statement wanted rest selected = some (event, next, following) := by
  unfold look
  split
  · rename_i other owned
    have different : other ≠ session := fun same => foreign (same ▸ owned)
    exact ⟨_, _, _, if_neg different⟩
  · rename_i absent _
    exact absurd absent present
  · split
    · exact ⟨_, _, _, rfl⟩
    · exact ⟨_, _, _, rfl⟩

theorem finish_change (now : DateTime) {jobId : UUID} {allowedFrom : List JobStatus}
    (guarded : call.guard? = some (jobId, allowedFrom)) (row : StoredRow) :
    finish session now rows call [row] =
      match validateTransition row.1.status allowedFrom with
      | .error error => some (.answer (.job (.error error)), rows.release session, .idle)
      | .ok () =>
          some (.commit now, rows.commit session ([row].map (assigned now call)),
            .refreshing call jobId) := by
  cases call with
  | setRunning _ =>
      cases guarded
      rfl
  | setSucceeded _ _ =>
      cases guarded
      rfl
  | setFailed _ _ =>
      cases guarded
      rfl
  | _ => cases guarded

theorem finish_isSome (now : DateTime) {selected : List StoredRow} (selects : Selects call selected) :
    ∃ event next following,
      finish session now rows call selected = some (event, next, following) := by
  cases selects with
  | @scanned statement _ isStatement _ within =>
      cases call with
      | claimNextQueued =>
          have limit : 1 ∈ statement.limit := by
            cases isStatement
            rfl
          rcases selected with _ | ⟨row, _ | ⟨other, rest⟩⟩
          · exact ⟨_, _, _, rfl⟩
          · exact ⟨_, _, _, rfl⟩
          · exact absurd (within 1 limit) (by simp)
      | recoverStaleRunning cutoff => exact ⟨_, _, _, rfl⟩
      | _ => cases isStatement
  | @found jobId allowedFrom row guarded _ =>
      rw [finish_change now guarded]
      cases validateTransition row.1.status allowedFrom with
      | error error => exact ⟨_, _, _, rfl⟩
      | ok valid => exact ⟨_, _, _, rfl⟩

/-- A session in a call can go on, or it waits for a lock of another session. -/
theorem advance_or_waits (now : DateTime) (owns : current.Owns session rows)
    (busy : current ≠ .idle) :
    (∃ event next following, advance session now rows current = some (event, next, following)) ∨
      ∃ holder, holder ≠ session ∧ WaitsFor rows current holder := by
  cases current with
  | idle => exact absurd rfl busy
  | begun call => exact start_or_waits owns call
  | inserted job => exact .inl ⟨_, _, _, rfl⟩
  | scanning call candidates selected =>
      obtain ⟨isScan, _, _, _, foreign⟩ := owns
      obtain ⟨statement, isStatement⟩ := Option.isSome_iff_exists.mp isScan
      left
      cases candidates with
      | nil => exact ⟨_, _, _, by simp only [advance, isStatement]; rfl⟩
      | cons wanted rest =>
          simp only [advance, isStatement]
          split
          · exact ⟨_, _, _, rfl⟩
          · obtain ⟨present, notOwn⟩ := foreign wanted (by simp)
            exact look_isSome rest selected present notOwn
  | holding call selected => exact .inl (finish_isSome now owns.2)
  | refreshing call jobId => exact .inl ⟨_, _, _, rfl⟩
  | answering reply => exact .inl ⟨_, _, _, rfl⟩

/-- Every step within a call brings its end nearer. -/
theorem lowers (stepped : Transacts session rows current event next following)
    (within : ∀ call, event ≠ .begin call) :
    following.unstarted < current.unstarted ∨
      following.unstarted = current.unstarted ∧ following.stepsLeft < current.stepsLeft := by
  cases stepped with
  | begin => exact absurd rfl (within _)
  | query _ _ => exact .inl (by simp [unstarted])
  | insert _ _ => exact .inl (by simp [unstarted])
  | duplicate _ => exact .inl (by simp [unstarted])
  | select _ _ _ => exact .inl (by simp [unstarted])
  | absent _ _ => exact .inl (by simp [unstarted])
  | snapshot _ _ => exact .inl (by simp [unstarted])
  | abort busy =>
      cases current with
      | idle => exact absurd rfl busy
      | begun call => exact .inl (by simp [unstarted])
      | _ => exact .inr (by simp [unstarted, stepsLeft])
  | _ => exact .inr (by simp [unstarted, stepsLeft])

theorem started_of_step (stepped : Transacts session rows current event next following)
    (within : ∀ call, event ≠ .begin call) (call : RepositoryCall) : following ≠ .begun call := by
  rintro rfl
  cases stepped with
  | begin => exact within _ rfl

theorem not_waiting_of_owner (owns : current.Owns session rows) {jobId : UUID}
    (owned : rows.owner jobId = some session) :
    current ≠ .idle ∧ ∀ call, current ≠ .begun call := by
  cases current with
  | idle => exact absurd owned (owns jobId)
  | begun call => exact absurd owned (owns jobId)
  | _ => exact ⟨by simp, by simp⟩

end Steps

end Session

namespace Transactions

variable {state : Transactions} {session : Nat}

/-! ## Every call can be finished -/

/-- A run of one session within its call. -/
def Alone (session : Nat) (trace : Trace) : Prop :=
  ∀ taken ∈ trace, taken.event.1 = session ∧ taken.event.2.Orderly

/-- Once it has begun its work, a session can finish its call without the others. -/
theorem finishes_alone (owned : state.Owned)
    (started : ∀ call, state.locals session ≠ .begun call) :
    ∃ trace final, Run Step state trace final ∧ Alone session trace ∧
      final.locals session = .idle := by
  generalize left : (state.locals session).stepsLeft = count
  induction count using Nat.strong_induction_on generalizing state with
  | _ count ih =>
      by_cases idle : state.locals session = .idle
      · exact ⟨[], state, .nil, by simp [Alone], idle⟩
      · rcases Session.advance_or_waits 0 (owned session) idle with
          ⟨event, rows, following, advanced⟩ | ⟨holder, _, call, jobId, begun, _⟩
        · obtain ⟨acted, orderly⟩ := Session.transacts_of_advance advanced
          have stepped : Step state (session, event)
              ⟨rows, Function.update state.locals session following⟩ := .act acted
          have none : (state.locals session).unstarted = 0 := by
            cases place : state.locals session with
            | begun call => exact absurd place (started call)
            | _ => rfl
          rcases Session.lowers acted orderly.within with less | ⟨same, less⟩
          · omega
          · obtain ⟨trace, final, run, alone, finished⟩ :=
              ih following.stepsLeft (left ▸ less) (owned.step stepped)
                (by
                  dsimp only
                  rw [Function.update_self]
                  exact Session.started_of_step acted orderly.within)
                (by
                  dsimp only
                  rw [Function.update_self])
            refine ⟨_, final, (Run.single stepped).append run, ?_, finished⟩
            intro taken member
            rcases List.mem_cons.mp member with rfl | later
            · exact ⟨rfl, orderly⟩
            · exact alone taken later
        · exact absurd begun (started call)

/-- A session that does not wait for a lock can finish its call without the others. -/
theorem finishes_unless_waiting (owned : state.Owned) :
    (∃ trace final, Run Step state trace final ∧ Alone session trace ∧
      final.locals session = .idle) ∨
      ∃ holder, holder ≠ session ∧ (state.locals session).WaitsFor state.store holder := by
  by_cases idle : state.locals session = .idle
  · exact .inl ⟨[], state, .nil, by simp [Alone], idle⟩
  · rcases Session.advance_or_waits 0 (owned session) idle with
      ⟨event, rows, following, advanced⟩ | waits
    · obtain ⟨acted, orderly⟩ := Session.transacts_of_advance advanced
      have stepped : Step state (session, event)
          ⟨rows, Function.update state.locals session following⟩ := .act acted
      obtain ⟨trace, final, run, alone, finished⟩ :=
        @finishes_alone _ session (owned.step stepped) (by
          dsimp only
          rw [Function.update_self]
          exact Session.started_of_step acted orderly.within)
      refine .inl ⟨_, final, (Run.single stepped).append run, ?_, finished⟩
      intro taken member
      rcases List.mem_cons.mp member with rfl | later
      · exact ⟨rfl, orderly⟩
      · exact alone taken later
    · exact .inr waits

theorem leaves_of_alone {trace : Trace} {final : Transactions} (owned : state.Owned)
    (run : Run Step state trace final) (alone : Alone session trace) :
    LockedTable.Leaves session state.store final.store := by
  induction run with
  | nil => exact .refl _ _
  | @snoc earlier middle next event prior stepped ih =>
      have left := ih fun taken member => alone taken (List.mem_append_left _ member)
      obtain ⟨actor, _⟩ := alone ⟨middle, event, next⟩ (by simp)
      cases stepped with
      | act acted =>
          have current := owned_of_run prior owned
          dsimp only at actor
          subst actor
          exact left.trans ((current _).step acted).2

/-! ## No call runs for ever -/

/-- A step that begins no call. -/
def Within (state : Transactions) (event : Nat × SessionEvent) (next : Transactions) : Prop :=
  Step state event next ∧ ∀ call, event.2 ≠ .begin call

/-- Calls not yet under way, then steps left, over the sessions that have begun one. -/
def remaining (sessions : Finset Nat) (state : Transactions) : Nat × Nat :=
  (∑ session ∈ sessions, (state.locals session).unstarted,
    ∑ session ∈ sessions, (state.locals session).stepsLeft)

theorem remaining_lowers {sessions : Finset Nat} {next : Transactions} {event : Nat × SessionEvent}
    (others : ∀ session, session ∉ sessions → state.locals session = .idle)
    (within : Within state event next) :
    (∀ session, session ∉ sessions → next.locals session = .idle) ∧
      Prod.Lex (· < ·) (· < ·) (remaining sessions next) (remaining sessions state) := by
  obtain ⟨stepped, notBegin⟩ := within
  cases stepped with
  | @act session event rows following acted =>
      have active : session ∈ sessions := by
        by_contra idle
        rw [others session idle] at acted
        cases acted with
        | begin => exact notBegin _ rfl
        | abort busy => exact busy rfl
      refine ⟨fun other outside => ?_, ?_⟩
      · have different : other ≠ session := fun same => outside (same ▸ active)
        exact (Function.update_of_ne different _ _).trans (others other outside)
      · have split : ∀ weight : Session → Nat,
            ∑ other ∈ sessions, weight (Function.update state.locals session following other) =
              weight following + ∑ other ∈ sessions.erase session, weight (state.locals other) := by
          intro weight
          rw [← Finset.add_sum_erase _ _ active, Function.update_self]
          congr 1
          refine Finset.sum_congr rfl fun other member => ?_
          rw [Function.update_of_ne (Finset.ne_of_mem_erase member)]
        have whole : ∀ weight : Session → Nat,
            ∑ other ∈ sessions, weight (state.locals other) =
              weight (state.locals session) +
                ∑ other ∈ sessions.erase session, weight (state.locals other) :=
          fun weight => (Finset.add_sum_erase _ _ active).symm
        unfold remaining
        dsimp only
        rw [split Session.unstarted, split Session.stepsLeft, whole Session.unstarted,
          whole Session.stepsLeft]
        rcases Session.lowers acted notBegin with less | ⟨same, less⟩
        · exact .left _ _ (by omega)
        · rw [same]
          exact .right _ (by omega)

end Transactions

open Transactions

/-- No deadlock: whatever the sessions are doing, any one of them can finish its call, with
the help of at most one other session, by ordinary steps of the calls under way. -/
theorem calls_finish (trace : Trace) (state : Transactions) (run : Run Step initial trace state)
    (session : Nat) :
    ∃ later final, Run Step state later final ∧ final.locals session = .idle ∧
      ∃ other, ∀ taken ∈ later,
        taken.event.2.Orderly ∧ (taken.event.1 = session ∨ taken.event.1 = other) := by
  have owned := owned_of_run run owned_initial
  rcases @finishes_unless_waiting _ session owned with
    ⟨later, final, finishing, alone, finished⟩ |
      ⟨holder, different, call, jobId, begun, isFirst, held⟩
  · exact ⟨later, final, finishing, finished, session,
      fun taken member => ⟨(alone taken member).2, .inl (alone taken member).1⟩⟩
  · -- The holder has a lock, so it does not wait; it can finish and release the row.
    have started := (Session.not_waiting_of_owner (owned holder) held).2
    obtain ⟨first, released, releasing, holderAlone, holderFinished⟩ :=
      finishes_alone owned started
    have releasedOwned := owned_of_run releasing owned
    have left := leaves_of_alone owned releasing holderAlone
    have free : released.store.owner jobId = none := by
      have lockless := releasedOwned holder
      rw [holderFinished] at lockless
      cases owner : released.store.owner jobId with
      | none => rfl
      | some other =>
          by_cases same : other = holder
          · exact absurd (same ▸ owner) (lockless jobId)
          · rw [left.owners jobId other same, held, Option.some_inj] at owner
            exact absurd owner.symm same
    have still : released.locals session = .begun call :=
      (locals_of_others releasing fun taken member same =>
        different ((holderAlone taken member).1.symm.trans same)).trans begun
    rcases @finishes_unless_waiting _ session releasedOwned with
      ⟨last, final, finishing, alone, finished⟩ | ⟨next, _, other, wanted, isBegun, first', owner⟩
    · refine ⟨first ++ last, final, releasing.append finishing, finished, holder, ?_⟩
      intro taken member
      rcases List.mem_append.mp member with earlier | later
      · exact ⟨(holderAlone taken earlier).2, .inr (holderAlone taken earlier).1⟩
      · exact ⟨(alone taken later).2, .inl (alone taken later).1⟩
    · rw [still, Session.begun.injEq] at isBegun
      rw [← isBegun, isFirst, Option.some_inj] at first'
      rw [← first', free] at owner
      cases owner

/-- A worker has locked the job that another session is about to fail. -/
def demoWait : List SessionTurn :=
  [.begin 0 (.create (demoJob 7 2)), .advance 0 0, .advance 0 0, .advance 0 0,
    .begin 1 .claimNextQueued, .advance 1 1, .advance 1 1, .begin 2 (.setFailed 7 "cancelled")]

theorem calls_finish_waiting : ∃ trace state, Run Step initial trace state ∧
    (Session.advance 2 2 state.store (state.locals 2)).isNone = true ∧
    ∃ later final, Run Step state later final ∧ final.locals 2 = .idle ∧
      ∃ other, ∀ taken ∈ later,
        taken.event.2.Orderly ∧ (taken.event.1 = 2 ∨ taken.event.1 = other) := by
  obtain ⟨trace, state, run, blocked⟩ := @played initial demoWait
    (fun _ state => (Session.advance 2 2 state.store (state.locals 2)).isNone) (by decide +kernel)
  exact ⟨trace, state, run, blocked, calls_finish trace state run 2⟩

/-- No livelock: once no further calls begin, the sessions cannot go on for ever. -/
theorem calls_end (trace : Trace) (states : Nat → Transactions)
    (run : Run Step initial trace (states 0)) :
    ¬ ∀ index, ∃ event, Within (states index) event (states (index + 1)) := by
  refine @Run.not_infinite Transactions (Nat × SessionEvent) Within (Nat × Nat) _
    (WellFounded.prod_lex wellFounded_lt wellFounded_lt)
    (remaining (trace.map (·.event.1)).toFinset)
    (fun state => ∀ session, session ∉ (trace.map (·.event.1)).toFinset →
      state.locals session = .idle)
    (fun state event next others within => remaining_lowers others within) states ?_
  intro session outside
  refine locals_of_others run fun taken member same => outside ?_
  exact List.mem_toFinset.mpr (List.mem_map.mpr ⟨taken, member, same⟩)

/-- The worker commits and is answered, then the other session gets its lock and fails the job:
six steps, and no more. -/
theorem calls_end_waiting : ∃ (trace : Trace) (states : Nat → Transactions),
    Run Step initial trace (states 0) ∧
    ((states 0).locals 2).unstarted = 1 ∧
    (∀ index < 6, ∃ event, Within (states index) event (states (index + 1))) ∧
    ¬ ∀ index, ∃ event, Within (states index) event (states (index + 1)) := by
  let turns : List SessionTurn :=
    [.advance 1 2, .advance 1 2, .advance 1 2, .advance 2 3, .advance 2 3, .advance 2 3]
  obtain ⟨trace, state, reached, facts⟩ := @played initial demoWait
    (fun _ state => (state.locals 2).unstarted = 1 && (state.replay turns).any fun run =>
      run.1.length = 6 && run.1.all fun taken => taken.event.2.Orderly) (by decide +kernel)
  rw [Bool.and_eq_true] at facts
  obtain ⟨later, final, run, plays⟩ := @played state turns
    (fun trace _ => trace.length = 6 && trace.all fun taken => taken.event.2.Orderly) facts.2
  simp only [Bool.and_eq_true, decide_eq_true_eq, List.all_eq_true] at plays
  obtain ⟨length, orderly⟩ := plays
  have starts : Run Step initial trace (Run.visited later final 0) := by
    rw [run.visited_zero]
    exact reached
  refine ⟨trace, Run.visited later final, starts, ?_, ?_, calls_end trace _ starts⟩
  · rw [run.visited_zero]
    exact of_decide_eq_true facts.1
  · intro index inside
    obtain ⟨taken, member, stepped⟩ := run.visited_step (inside.trans_eq length.symm)
    exact ⟨taken.event, stepped, (orderly taken member).within⟩

end EvaluationService

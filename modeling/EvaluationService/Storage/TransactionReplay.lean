import EvaluationService.Storage.History
import EvaluationService.Storage.Transactions

/-!
Executable runs of sessions. Of the choices that a database has, `advance` makes one:
it looks at the rows in the order of the table and keeps no lock of a row that it
passes over.
-/

set_option autoImplicit false

namespace EvaluationService

open Foundation

/-- The event belongs to a call: it neither begins another one nor loses the session. -/
def SessionEvent.Orderly : SessionEvent → Prop
  | .begin _ | .abort => False
  | .work | .commit _ | .answer _ => True

instance (event : SessionEvent) : Decidable event.Orderly :=
  match event with
  | .begin _ | .abort => isFalse id
  | .work | .commit _ | .answer _ => isTrue trivial

theorem SessionEvent.Orderly.within {event : SessionEvent} (orderly : event.Orderly)
    (call : RepositoryCall) : event ≠ .begin call := by
  rintro rfl
  exact orderly

namespace Session

open PostgresJobRepository

/-- The first statement of a method; `none` when it waits for a lock. -/
def start (session : Nat) (rows : LockedJobs) (call : RepositoryCall) :
    Option (SessionEvent × LockedJobs × Session) :=
  match call with
  | .create job =>
      match rows.table.find? job.jobId, rows.owner job.jobId with
      | some _, _ => some (.answer (.job (.error .integrityError)), rows, .idle)
      | none, none => some (.work, rows.lock session job.jobId, .inserted job)
      | none, some _ => none
  | call =>
      match query? ⟨rows.table⟩ call, statement? call, call.guard? with
      | some reply, _, _ => some (.answer reply, rows, .idle)
      | none, some statement, _ =>
          some (.work, rows, .scanning call (statement.candidates rows.table.rows) [])
      | none, none, some (jobId, _) =>
          match found : rows.table.find? jobId, rows.owner jobId with
          | none, _ => some (.answer (.job (.error .notFoundError)), rows, .idle)
          | some row, none =>
              some (.work, rows.lock session jobId, .holding call [⟨row, Table.find?_sound found⟩])
          | some _, some _ => none
      | none, none, none => none

/-- One more row of a scan. -/
def look (session : Nat) (rows : LockedJobs) (call : RepositoryCall) (statement : LockingStatement)
    (wanted : UUID) (rest : List UUID) (selected : List StoredRow) :
    Option (SessionEvent × LockedJobs × Session) :=
  match found : rows.table.find? wanted, rows.owner wanted with
  | _, some other =>
      if other = session then none else some (.work, rows, .scanning call rest selected)
  | none, none => none
  | some row, none =>
      if statement.condition row then
        some (.work, rows.lock session wanted,
          .scanning call rest (selected ++ [⟨row, Table.find?_sound found⟩]))
      else some (.work, rows, .scanning call rest selected)

/-- What a method does with the rows it has selected. -/
def finish (session : Nat) (now : DateTime) (rows : LockedJobs) (call : RepositoryCall)
    (selected : List StoredRow) : Option (SessionEvent × LockedJobs × Session) :=
  match call, selected with
  | .claimNextQueued, [] => some (.answer (.claim (.ok none)), rows.release session, .idle)
  | .claimNextQueued, [row] =>
      some (.commit now, rows.commit session ([row].map (assigned now .claimNextQueued)),
        .refreshing .claimNextQueued row.1.jobId)
  | .recoverStaleRunning cutoff, selected =>
      some (.commit now,
        rows.commit session (selected.map (assigned now (.recoverStaleRunning cutoff))),
        .answering (.count (.ok selected.length)))
  | call, [row] =>
      match call.guard? with
      | none => none
      | some (jobId, allowedFrom) =>
          match validateTransition row.1.status allowedFrom with
          | .error error => some (.answer (.job (.error error)), rows.release session, .idle)
          | .ok () =>
              some (.commit now, rows.commit session ([row].map (assigned now call)),
                .refreshing call jobId)
  | _, _ => none

def advance (session : Nat) (now : DateTime) (rows : LockedJobs) :
    Session → Option (SessionEvent × LockedJobs × Session)
  | .idle => none
  | .begun call => start session rows call
  | .inserted job =>
      some (.commit now,
        rows.commit session [⟨EvaluationJobRow.toRow job, EvaluationJobRow.decodes_toRow job⟩],
        .answering (.job (.ok job)))
  | .scanning call candidates selected =>
      match statement? call, candidates with
      | none, _ => none
      | some _, [] => some (.work, rows, .holding call selected)
      | some statement, wanted :: rest =>
          if statement.Filled selected then some (.work, rows, .holding call selected)
          else look session rows call statement wanted rest selected
  | .holding call selected => finish session now rows call selected
  | .refreshing call jobId => some (.answer (refreshed call (refresh rows jobId)), rows, .idle)
  | .answering reply => some (.answer reply, rows, .idle)

variable {session : Nat} {now : DateTime} {rows next : LockedJobs} {call : RepositoryCall}
variable {event : SessionEvent} {following : Session}

theorem transacts_of_start (started : start session rows call = some (event, next, following)) :
    Transacts session rows (.begun call) event next following ∧ event.Orderly := by
  unfold start at started
  split at started
  · rename_i job
    cases found : rows.table.find? job.jobId with
    | some row =>
        simp only [found] at started
        cases started
        exact ⟨.duplicate found, trivial⟩
    | none =>
        cases owned : rows.owner job.jobId with
        | some other => simp [found, owned] at started
        | none =>
            simp only [found, owned] at started
            cases started
            exact ⟨.insert owned found, trivial⟩
  · split at started
    · rename_i queried
      cases started
      exact ⟨.query (Table.Arranges.refl _) queried, trivial⟩
    · rename_i isStatement
      cases started
      exact ⟨@Transacts.snapshot _ _ _ _ ⟨rows.table⟩ isStatement (Table.Arranges.refl _),
        trivial⟩
    · rename_i jobId allowedFrom _ _ guarded
      split at started
      · rename_i absent
        cases started
        exact ⟨.absent guarded absent, trivial⟩
      · rename_i found free
        cases started
        exact ⟨.select guarded free found, trivial⟩
      · cases started
    · cases started

theorem transacts_of_look {statement : LockingStatement} {wanted : UUID} {rest : List UUID}
    {selected : List StoredRow} (isStatement : statement? call = some statement)
    (notFilled : ¬ statement.Filled selected)
    (looked : look session rows call statement wanted rest selected = some (event, next, following)) :
    Transacts session rows (.scanning call (wanted :: rest) selected) event next following ∧
      event.Orderly := by
  unfold look at looked
  split at looked
  · rename_i other owned
    split at looked
    · cases looked
    · rename_i different
      cases looked
      exact ⟨.scan isStatement notFilled (.skip owned different), trivial⟩
  · cases looked
  · rename_i row found free
    split at looked
    · rename_i passes
      cases looked
      exact ⟨.scan isStatement notFilled (.take free found passes), trivial⟩
    · rename_i fails
      cases looked
      exact ⟨.scan isStatement notFilled
        (.passOver free found (by simpa using fails) (.inl rfl)), trivial⟩

theorem transacts_of_finish {selected : List StoredRow}
    (finished : finish session now rows call selected = some (event, next, following)) :
    Transacts session rows (.holding call selected) event next following ∧ event.Orderly := by
  unfold finish at finished
  split at finished
  · cases finished
    exact ⟨.nothing, trivial⟩
  · cases finished
    exact ⟨.commitClaim, trivial⟩
  · cases finished
    exact ⟨.commitRecover, trivial⟩
  · rename_i row _ _
    cases guarded : call.guard? with
    | none => simp [guarded] at finished
    | some guard =>
        obtain ⟨jobId, allowedFrom⟩ := guard
        simp only [guarded] at finished
        cases validated : validateTransition row.1.status allowedFrom with
        | error error =>
            simp only [validated] at finished
            cases finished
            exact ⟨.refuse guarded validated, trivial⟩
        | ok valid =>
            simp only [validated] at finished
            cases finished
            exact ⟨.commitChange guarded validated, trivial⟩
  · cases finished

/-- What `advance` does is a step of the session. -/
theorem transacts_of_advance {current : Session}
    (advanced : advance session now rows current = some (event, next, following)) :
    Transacts session rows current event next following ∧ event.Orderly := by
  cases current with
  | idle => cases advanced
  | begun call => exact transacts_of_start advanced
  | inserted job =>
      cases advanced
      exact ⟨.commitInsert, trivial⟩
  | scanning call candidates selected =>
      simp only [advance] at advanced
      split at advanced
      · cases advanced
      · rename_i isStatement
        cases advanced
        exact ⟨.scanned isStatement (.inr rfl), trivial⟩
      · rename_i isStatement
        split at advanced
        · rename_i filled
          cases advanced
          exact ⟨.scanned isStatement (.inl filled), trivial⟩
        · rename_i notFilled
          exact transacts_of_look isStatement notFilled advanced
  | holding call selected => exact transacts_of_finish advanced
  | refreshing call jobId =>
      cases advanced
      exact ⟨.refresh, trivial⟩
  | answering reply =>
      cases advanced
      exact ⟨.answer, trivial⟩

end Session

/-- Who acts next, and how. -/
inductive SessionTurn where
  | begin (session : Nat) (call : RepositoryCall)
  | advance (session : Nat) (now : DateTime)

namespace Transactions

def take (state : Transactions) : SessionTurn → Option ((Nat × SessionEvent) × Transactions)
  | .begin session call =>
      match state.locals session with
      | .idle =>
          some ((session, .begin call),
            ⟨state.store, Function.update state.locals session (.begun call)⟩)
      | _ => none
  | .advance session now =>
      (Session.advance session now state.store (state.locals session)).map
        fun (event, rows, next) =>
          ((session, event), ⟨rows, Function.update state.locals session next⟩)

def replay (state : Transactions) : List SessionTurn → Option (Trace × Transactions)
  | [] => some ([], state)
  | turn :: rest => do
      let (event, next) ← state.take turn
      let (trace, final) ← replay next rest
      some (⟨state, event, next⟩ :: trace, final)

theorem step_of_take {state next : Transactions} {turn : SessionTurn} {event : Nat × SessionEvent}
    (taken : state.take turn = some (event, next)) : Step state event next := by
  obtain ⟨rows, locals⟩ := state
  cases turn with
  | begin session call =>
      simp only [take] at taken
      split at taken
      · rename_i isIdle
        cases taken
        refine .act ?_
        dsimp only
        rw [isIdle]
        exact .begin
      · cases taken
  | advance session now =>
      simp only [take, Option.map_eq_some_iff, Prod.exists] at taken
      obtain ⟨event, after, following, advanced, same⟩ := taken
      cases same
      exact .act (Session.transacts_of_advance advanced).1

theorem run_of_replay {state final : Transactions} {turns : List SessionTurn} {trace : Trace}
    (replayed : state.replay turns = some (trace, final)) : Run Step state trace final := by
  induction turns generalizing state trace with
  | nil =>
      cases replayed
      exact .nil
  | cons turn rest ih =>
      simp only [replay, Option.bind_eq_bind, Option.bind_eq_some_iff, Prod.exists] at replayed
      obtain ⟨session, event, next, taken, earlier, reached, remaining, same⟩ := replayed
      cases same
      exact (Run.single (step_of_take taken)).append (ih remaining)

/-- A schedule that can be played is a run, and what a test finds of it holds of the run. -/
theorem played (start : Transactions) (turns : List SessionTurn)
    {test : Trace → Transactions → Bool}
    (passes : ((start.replay turns).any fun run => test run.1 run.2) = true) :
    ∃ trace state, Run Step start trace state ∧ test trace state = true := by
  cases replayed : start.replay turns with
  | none => simp [replayed] at passes
  | some run =>
      rw [replayed] at passes
      exact ⟨run.1, run.2, run_of_replay replayed, passes⟩

end Transactions

/-- Two workers look for a job at once; the first one locks it, the second one skips it. -/
def demoRace : List SessionTurn :=
  [.begin 0 (.create (demoJob 7 2)), .advance 0 0, .advance 0 0, .advance 0 0,
    .begin 1 .claimNextQueued, .begin 2 .claimNextQueued, .advance 1 1, .advance 2 1,
    .advance 1 1, .advance 2 1, .advance 1 1, .advance 2 1, .advance 1 1, .advance 2 1,
    .advance 1 1]

end EvaluationService

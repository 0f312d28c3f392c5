import EvaluationService.Services.Shutdown
import EvaluationService.Storage.RecoveryPasses

/-!
Clearing a backlog. A worker that is alone with the store and whose evaluations succeed goes
from job to job without a pause: it sleeps only when it has recovered what is stale and no job
can be claimed, and comes to that after a number of steps that the unfinished jobs bound.
Whatever went on before, database errors included, it is only while it is alone that no call
may fail.
-/

set_option autoImplicit false

namespace EvaluationService

open Foundation

variable {repository : JobRepository} {release : Option DateTime → Option DateTime}
variable {evaluator : EvaluatorBehavior} {staleJobSeconds : Int} {index : Nat}

/-! ## Unfinished jobs -/

def unfinished (store : Lookup) (submission : Submission) : Bool :=
  (store submission.jobId).any fun job => ¬ job.status.Terminal

/-- How many of the submitted jobs have not ended. -/
def World.unfinished (world : World repository) : Nat :=
  world.submissions.countP (EvaluationService.unfinished (repository.job? world.store))

theorem unfinished_of_after {before after : Lookup} {submission : Submission}
    {job : EvaluationJob} (stored : before submission.jobId = some job)
    (keeps : KeepsFinished before after) (open_ : unfinished after submission = true) :
    unfinished before submission = true := by
  rw [unfinished, stored, Option.any_some, decide_eq_true_eq]
  intro terminal
  rw [unfinished, keeps _ _ stored terminal, Option.any_some, decide_eq_true_eq] at open_
  exact open_ terminal

theorem countP_lt {Item : Type} {before after : Item → Bool} {items : List Item}
    (fewer : ∀ item ∈ items, after item = true → before item = true) {lost : Item}
    (member : lost ∈ items) (was : before lost = true) (isNot : after lost = false) :
    items.countP after < items.countP before := by
  obtain ⟨front, back, rfl⟩ := List.append_of_mem member
  have frontFewer : front.countP after ≤ front.countP before :=
    List.countP_mono_left fun item inside => fewer item (by simp [inside])
  have backFewer : back.countP after ≤ back.countP before :=
    List.countP_mono_left fun item inside => fewer item (by simp [inside])
  rw [List.countP_append, List.countP_append, List.countP_cons_of_pos was,
    List.countP_cons_of_neg (by rw [isNot]; exact Bool.false_ne_true)]
  omega

section Count

variable {world next : World repository}

/-- Without a submission the number does not grow. -/
theorem World.unfinished_le (recorded : world.Recorded)
    (keeps : KeepsFinished (repository.job? world.store) (repository.job? next.store))
    (same : next.submissions = world.submissions) : next.unfinished ≤ world.unfinished := by
  rw [unfinished, unfinished, same]
  refine List.countP_mono_left fun submission member open_ => ?_
  obtain ⟨job, stored⟩ := recorded.stored submission member
  exact unfinished_of_after stored keeps open_

/-- A job that ends makes it smaller. -/
theorem World.unfinished_lt (recorded : world.Recorded)
    (keeps : KeepsFinished (repository.job? world.store) (repository.job? next.store))
    (same : next.submissions = world.submissions) {jobId : UUID} {before after : EvaluationJob}
    (found : repository.job? world.store jobId = some before) (goes : ¬ before.status.Terminal)
    (ends : repository.job? next.store jobId = some after) (ended : after.status.Terminal) :
    next.unfinished < world.unfinished := by
  obtain ⟨submission, member, rfl⟩ := recorded.submitted jobId before found
  rw [unfinished, unfinished, same]
  refine countP_lt (fun other inside open_ => ?_) member ?_ ?_
  · obtain ⟨job, stored⟩ := recorded.stored other inside
    exact unfinished_of_after stored keeps open_
  · rw [EvaluationService.unfinished, found, Option.any_some, decide_eq_true_eq]
    exact goes
  · rw [EvaluationService.unfinished, ends, Option.any_some, decide_eq_false_iff_not, not_not]
    exact ended

end Count

/-! ## The rounds of a worker that is alone -/

/-- The stages of a round, and that a claimed job is still running while it is processed. -/
def WorkerPhase.OnItsOwn (store : Lookup) : WorkerPhase → Prop
  | polling | recovering _ | claiming => True
  | processing (.scoring jobId _) | processing (.succeeding jobId _ _) =>
      ∃ stored, store jobId = some stored ∧ stored.status = .running
  | _ => False

/-- How far the phase is from the end of its round. -/
def WorkerPhase.inRound : WorkerPhase → Nat
  | polling => 4
  | recovering _ => 3
  | claiming => 2
  | processing (.scoring _ _) => 1
  | _ => 0

/-- Five steps for each unfinished job, and those of the round under way. -/
def distance (world : World repository) (phase : WorkerPhase) : Nat :=
  5 * world.unfinished + phase.inRound

/-- The evaluator gives a result whenever it answers. -/
def Succeeds (evaluator : EvaluatorBehavior) : Prop :=
  ∀ request outcome, evaluator request outcome → ∃ result, outcome = .ok result

/-- A step towards the end of the round, or to sleep where no job can be claimed. -/
theorem WorkerPhase.Move.onItsOwn (implements : Implements repository release)
    (succeeds : Succeeds evaluator) {phase : WorkerPhase} {signal : Signal}
    {after : WorkerPhase × List Emission} {world next : World repository}
    (move : Move staleJobSeconds false phase signal after)
    (heard : Heard repository evaluator phase.call? phase.scoring? world.store signal next.store)
    (alone : phase.OnItsOwn (repository.job? world.store)) (recorded : world.Recorded)
    (keeps : KeepsFinished (repository.job? world.store) (repository.job? next.store))
    (same : next.submissions = world.submissions) :
    (phase = .claiming ∧ after.1 = .sleeping ∧
        repository.job? next.store = repository.job? world.store ∧
        ∀ jobId job, repository.job? next.store jobId = some job → ¬ job.Claimable) ∨
      after.1.OnItsOwn (repository.job? next.store) ∧
        distance next after.1 < distance world phase := by
  have count := World.unfinished_le recorded keeps same
  cases move with
  | stopped stopping => cases stopping
  | polled _ => exact .inr ⟨trivial, by simp only [distance, inRound]; omega⟩
  | slept => exact alone.elim
  | @recovered cutoff now outcome =>
      have effect := heard.effect_of_call implements rfl (by rintro _ ⟨⟩)
      generalize replied : RepositoryReply.count outcome = reply at effect
      generalize repository.job? next.store = stored at effect
      cases effect with
      | refuse _ _ => cases replied
      | @recover _ stale _ _ =>
          cases replied
          refine .inr ?_
          have claims : (afterRecover (.ok stale.length)).1 = .claiming := by
            cases stale.length <;> rfl
          rw [claims]
          exact ⟨trivial, by simp only [distance, inRound]; omega⟩
  | @claimed now outcome =>
      have effect := heard.effect_of_call implements rfl (by rintro _ ⟨⟩)
      generalize replied : RepositoryReply.claim outcome = reply at effect
      generalize stored : repository.job? next.store = after at effect
      cases effect with
      | refuse _ _ => cases replied
      | claimNone nothing =>
          cases replied
          exact .inl ⟨rfl, rfl, rfl, nothing⟩
      | @claim job found claimable _ =>
          cases replied
          refine .inr ⟨⟨job.claimed now, Function.update_self _ _ _, rfl⟩, ?_⟩
          change distance next (processing (.scoring _ _)) < _
          simp only [distance, inRound]
          omega
  | @processed task _ after moved =>
      cases moved with
      | loaded | started | failed => exact alone.elim
      | @scored jobId job outcome =>
          obtain ⟨unchanged, request, -, answered⟩ := heard
          obtain ⟨result, rfl⟩ := succeeds _ _ answered
          refine .inr ⟨?_, ?_⟩
          · rw [unchanged]
            exact alone
          · change distance next (processing (.succeeding _ _ _)) < _
            simp only [distance, inRound]
            omega
      | @succeeded jobId job result now outcome =>
          obtain ⟨stored, found, running⟩ := alone
          have effect := heard.effect_of_call implements rfl (by rintro _ ⟨⟩)
          rcases effect.setSucceeded found with ⟨_, replied, updated⟩ | ⟨refused, _, _⟩
          · obtain rfl := RepositoryReply.job.inj replied
            have ends : repository.job? next.store jobId =
                some (stored.succeeded release now result) := by
              rw [updated, Function.update_self]
            have fewer := World.unfinished_lt recorded keeps same found
              (by rw [running]; decide) ends (.inl rfl)
            refine .inr ⟨trivial, ?_⟩
            change distance next polling < _
            simp only [distance, inRound]
            omega
          · exact absurd (by rw [running]; exact List.mem_singleton_self _) refused

/-- How the round under way began: with a reading of the clock, and a recovery after which no
job is stale. -/
def WorkerPhase.Since (store : Lookup) (staleJobSeconds : Int) (index : Nat)
    (trace : SystemTrace repository) : WorkerPhase → Prop
  | recovering cutoff => ∃ front polled now, trace = front ++ [polled] ∧
      polled.event = .act index (.resumed now) ∧ cutoff = now - staleJobSeconds
  | claiming => ∃ front polled recovered now, trace = front ++ [polled, recovered] ∧
      polled.event = .act index (.resumed now) ∧
      ∀ jobId job, store jobId = some job → ¬ job.Stale (now - staleJobSeconds)
  | _ => True

theorem WorkerPhase.Move.since (implements : Implements repository release)
    {phase : WorkerPhase} {signal : Signal} {after : WorkerPhase × List Emission}
    {store next : repository.State} {trace : SystemTrace repository}
    {taken : Transition (Pool (World repository) Thread) SystemEvent}
    (move : Move staleJobSeconds false phase signal after)
    (heard : Heard repository evaluator phase.call? phase.scoring? store signal next)
    (since : phase.Since (repository.job? store) staleJobSeconds index trace)
    (isTaken : taken.event = .act index signal) :
    after.1.Since (repository.job? next) staleJobSeconds index (trace ++ [taken]) := by
  cases move with
  | stopped stopping => cases stopping
  | @polled now _ => exact ⟨trace, taken, now, rfl, isTaken, rfl⟩
  | slept => trivial
  | @recovered cutoff now outcome =>
      obtain ⟨front, polled, polledAt, rfl, isPolled, rfl⟩ := since
      have effect := heard.effect_of_call implements rfl (by rintro _ ⟨⟩)
      generalize replied : RepositoryReply.count outcome = reply at effect
      generalize stored : repository.job? next = after at effect ⊢
      cases effect with
      | refuse _ _ => cases replied
      | @recover _ stale _ _ =>
          cases replied
          have claims : (afterRecover (.ok stale.length)).1 = .claiming := by
            cases stale.length <;> rfl
          rw [claims]
          refine ⟨front, polled, taken, polledAt, by simp, isPolled, ?_⟩
          intro jobId job found isStale
          obtain ⟨earlier, -, rfl⟩ := Option.map_eq_some_iff.mp found
          obtain ⟨was, wasNot⟩ := (EvaluationJob.stale_recovered_iff _ _).mp isStale
          exact wasNot was
  | @claimed now outcome => rcases outcome with _ | _ | _ <;> trivial
  | @processed task _ after moved =>
      obtain ⟨state, emitted⟩ := after
      cases state with
      | finished outcome => rcases outcome with _ | _ <;> trivial
      | _ => trivial

/-- Every step of the run is one of the worker's own. -/
def RunsAlone (index : Nat) (trace : SystemTrace repository) : Prop :=
  ∀ taken ∈ trace, ∃ signal, taken.event = .act index signal ∧ signal ≠ .stop

/-- The worker goes to sleep. Nothing can be claimed, and nothing is stale at the cutoff of the
recovery of this round. -/
def Rests (staleJobSeconds : Int) (index : Nat) (earlier : SystemTrace repository)
    (taken : Transition (Pool (World repository) Thread) SystemEvent) : Prop :=
  taken.target.threads index = some (.worker ⟨false, .sleeping⟩) ∧
    ∃ front polled recovered now, earlier = front ++ [polled, recovered] ∧
      polled.event = .act index (.resumed now) ∧
      ∀ jobId job, repository.job? taken.target.store.store jobId = some job →
        ¬ job.Claimable ∧ ¬ job.Stale (now - staleJobSeconds)

/-- Where a run that the worker makes alone has come to. -/
theorem alone_of_run (implements : Implements repository release) (succeeds : Succeeds evaluator)
    {prior trace : SystemTrace repository} {start pool : Pool (World repository) Thread}
    (reached : UnreliableReaches repository evaluator staleJobSeconds prior start)
    (isWorker : start.threads index = some (.worker ⟨false, .polling⟩))
    (run : Run (system repository evaluator staleJobSeconds).Step start trace pool)
    (alone : RunsAlone index trace) :
    (∃ earlier taken later, trace = earlier ++ taken :: later ∧
        earlier.length ≤ distance start.store .polling ∧
        Rests staleJobSeconds index earlier taken) ∨
      ∃ phase, pool.threads index = some (.worker ⟨false, phase⟩) ∧
        phase.OnItsOwn (repository.job? pool.store.store) ∧
        phase.Since (repository.job? pool.store.store) staleJobSeconds index trace ∧
        distance pool.store phase + trace.length ≤ distance start.store .polling := by
  induction run with
  | nil => exact .inr ⟨.polling, isWorker, trivial, trivial, Nat.le_refl _⟩
  | @snoc trace pool next event before stepped ih =>
      have aloneBefore : RunsAlone index trace :=
        fun taken member => alone taken (List.mem_append_left _ member)
      rcases ih aloneBefore with
        ⟨earlier, taken, later, rfl, few, rests⟩ | ⟨phase, found, own, since, near⟩
      · exact .inl ⟨earlier, taken, later ++ [⟨pool, event, next⟩], by simp, few, rests⟩
      · obtain ⟨signal, isOwn, notStop⟩ := alone ⟨pool, event, next⟩ (by simp)
        dsimp only at isOwn
        subst isOwn
        have keeps := keepsFinished_of_step implements (unreliable_of_system stepped)
        have reachedBefore := reached.append (before.mono fun _ _ _ => unreliable_of_system)
        have recorded := UnreliableReaches.recorded implements reachedBefore
        cases stepped with
        | @act _ _ store thread following occupied acted =>
            rw [found, Option.some_inj] at occupied
            subst occupied
            obtain ⟨after, moved, rfl, heard, same, -⟩ := acted
            cases Thread.move_of_next moved with
            | stop => exact absurd rfl notStop
            | @loop _ _ _ target move =>
                  rcases move.onItsOwn implements succeeds heard own recorded keeps same with
                    ⟨rfl, sleeps, unchanged, nothing⟩ | ⟨goesOn, nearer⟩
                  · obtain ⟨front, polled, recovered, now, isTrace, isPolled, fresh⟩ := since
                    refine .inl ⟨trace, _, [], rfl, by omega, ?_, front, polled, recovered, now,
                      isTrace, isPolled, ?_⟩
                    · dsimp only
                      rw [Function.update_self, sleeps]
                    · intro jobId job stored
                      refine ⟨nothing jobId job stored, fresh jobId job ?_⟩
                      rw [← unchanged]
                      exact stored
                  · refine .inr ⟨target.1, Function.update_self _ _ _, goesOn,
                      move.since implements heard since rfl, ?_⟩
                    rw [List.length_append, List.length_singleton]
                    dsimp only at nearer ⊢
                    omega

def Evaluator.always (result : EvaluationResult) : EvaluatorBehavior :=
  fun _ outcome => outcome = .ok result

/-- Two jobs wait when the worker starts. -/
def backlogSchedule : List Turn :=
  [.submit demoSubmission, .submit ⟨demoRequest, 8, 1, 1, 1⟩, .work 0]

/-- Two jobs, a round that finds nothing, and the start of the next one. -/
def roundsSchedule : List Turn :=
  let job : List Turn := [.act 0 (.resume 10), .act 0 (.reply 10), .act 0 (.reply 11), .act 0 .score,
    .act 0 (.reply 12)]
  job ++ job ++ [.act 0 (.resume 20), .act 0 (.reply 20), .act 0 (.reply 21), .act 0 (.resume 22),
    .act 0 (.resume 22)]

end EvaluationService

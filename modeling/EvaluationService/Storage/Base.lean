import EvaluationService.Core.Errors
import EvaluationService.Domain.Models

/-!
The repository interface (`app/storage/base.py`). A repository is a state with
one function for each method; a method that reads the clock receives the reading,
one for each call. Every method is one atomic step.
-/

set_option autoImplicit false

namespace EvaluationService

structure JobRepository where
  State : Type
  empty : State
  create : State → EvaluationJob → Except Exn EvaluationJob × State
  get : State → UUID → Except Exn EvaluationJob
  getForTenant : State → UUID → String → Except Exn EvaluationJob
  listRecent : State → String → Option String → Nat → Except Exn (List EvaluationJob)
  claimNextQueued : State → DateTime → Except Exn (Option EvaluationJob) × State
  recoverStaleRunning : State → DateTime → DateTime → Except Exn Nat × State
  setRunning : State → DateTime → UUID → Except Exn EvaluationJob × State
  setSucceeded : State → DateTime → UUID → EvaluationResult → Except Exn EvaluationJob × State
  setFailed : State → DateTime → UUID → String → Except Exn EvaluationJob × State
  /-- The layouts in which the backend may hold the same contents when a call starts. -/
  Arranges : State → State → Prop
  arranges_refl : ∀ state, Arranges state state

inductive RepositoryCall where
  | create (job : EvaluationJob)
  | get (jobId : UUID)
  | getForTenant (jobId : UUID) (tenantId : String)
  | listRecent (tenantId : String) (projectId : Option String) (limit : Nat)
  | claimNextQueued
  | recoverStaleRunning (cutoff : DateTime)
  | setRunning (jobId : UUID)
  | setSucceeded (jobId : UUID) (result : EvaluationResult)
  | setFailed (jobId : UUID) (message : String)
deriving DecidableEq, Repr

inductive RepositoryReply where
  | job (outcome : Except Exn EvaluationJob)
  | jobs (outcome : Except Exn (List EvaluationJob))
  | claim (outcome : Except Exn (Option EvaluationJob))
  | count (outcome : Except Exn Nat)

structure RepositoryEvent where
  now : DateTime
  call : RepositoryCall
  reply : RepositoryReply

namespace JobRepository

variable (repository : JobRepository)

/-- The stored job, read as `get` reads it. -/
def job? (state : repository.State) (jobId : UUID) : Option EvaluationJob :=
  (repository.get state jobId).toOption

def perform (state : repository.State) (now : DateTime) :
    RepositoryCall → RepositoryReply × repository.State
  | .create job => (repository.create state job).map .job id
  | .get jobId => (.job (repository.get state jobId), state)
  | .getForTenant jobId tenantId => (.job (repository.getForTenant state jobId tenantId), state)
  | .listRecent tenantId projectId limit =>
      (.jobs (repository.listRecent state tenantId projectId limit), state)
  | .claimNextQueued => (repository.claimNextQueued state now).map .claim id
  | .recoverStaleRunning cutoff => (repository.recoverStaleRunning state now cutoff).map .count id
  | .setRunning jobId => (repository.setRunning state now jobId).map .job id
  | .setSucceeded jobId result => (repository.setSucceeded state now jobId result).map .job id
  | .setFailed jobId message => (repository.setFailed state now jobId message).map .job id

/-- One atomic call, made in whatever layout the backend holds its contents then. -/
def Step (state : repository.State) (event : RepositoryEvent) (next : repository.State) : Prop :=
  ∃ layout, repository.Arranges state layout ∧
    repository.perform layout event.now event.call = (event.reply, next)

end JobRepository

end EvaluationService

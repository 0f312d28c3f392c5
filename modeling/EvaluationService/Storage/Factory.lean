import EvaluationService.Storage.InMemoryProperties
import EvaluationService.Storage.PostgresProperties

/-! The storage backends of the service (`app/storage/factory.py`). -/

set_option autoImplicit false

namespace EvaluationService

inductive StorageBackend where
  | memory
  | postgres
deriving DecidableEq, Repr

def buildRepository : StorageBackend → JobRepository
  | .memory => inMemoryRepository
  | .postgres => postgresRepository

/-- What becomes of `claimed_at` when `set_succeeded` or `set_failed` completes a job. -/
def StorageBackend.release : StorageBackend → Option DateTime → Option DateTime
  | .memory => id
  | .postgres => fun _ => none

theorem buildRepository_implements (backend : StorageBackend) :
    Implements (buildRepository backend) backend.release := by
  cases backend with
  | memory => exact inMemoryRepository_implements
  | postgres => exact postgresRepository_implements

end EvaluationService

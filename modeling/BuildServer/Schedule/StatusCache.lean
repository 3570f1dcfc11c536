import BuildServer.Job.Instance
import BuildServer.Rows
/-!
# The latest instances

For every configured job the instance that was seen last is kept under the key of the job, so that
its status can be asked for by name without a search through the store. Only what has been committed
is shown to the cache.
-/

set_option autoImplicit false

namespace BuildServer

/-- The instance that was seen last of every configured job (`JobStatusCache`). -/
structure StatusCache where
  entries : List (JobKey × JobInstance) := []
  deriving DecidableEq, Repr, Inhabited

namespace StatusCache

/-- Takes note of an instance under its key (`JobStatusCache::update`). One that has been replaced is not
noted. -/
def update (cache : StatusCache) (job : JobInstance) : StatusCache :=
  if job.ignored then cache else ⟨putRow (·.1) (job.key, job) cache.entries⟩

/-- The instance under a key (`JobStatusCache::current`). -/
def current? (cache : StatusCache) (key : JobKey) : Option JobInstance :=
  cache.entries.lookup key

end StatusCache

end BuildServer

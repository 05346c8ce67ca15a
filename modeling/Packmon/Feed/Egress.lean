import Packmon.Store.CanonicalNames

/-!
# The queue of refresh jobs
-/

namespace Packmon.Feed

inductive RefreshStatus where
  | pending
  | processing
  | paused
  | done
  | error
  deriving DecidableEq

def RefreshStatus.isActive : RefreshStatus → Bool
  | pending | processing | paused => true
  | done | error => false

end Packmon.Feed

import Packmon.Library.JoinedTexts
import Packmon.Sync.Client
import Packmon.Sync.Server
import Packmon.Sync.Position

/-!
# Serving a page

A page is served while the server goes on: every statement of the page reads a state of its own.
-/

namespace Packmon

open GoText (trimSpace toLower)

/-- The server states the statements of one page read. -/
structure PageReads where
  vulnerabilities : Server
  /-- The completeness check of a split advisory is a statement of its own. -/
  splitCheck : Server
  malicious : Server
  reputation : Server
  lifecycle : Server

/-- What the statements of a page read in a window. -/
def PageReads.view (reads : PageReads) (w : SyncWindow) (ecosystems : List String) : PageView where
  changed := reads.vulnerabilities.db.changed w reads.vulnerabilities.xmax ecosystems
  current := reads.vulnerabilities.db.current w reads.vulnerabilities.xmax ecosystems
  vulnerabilities := reads.vulnerabilities.db.pagedRows w reads.vulnerabilities.xmax ecosystems
  splitUnchanged := reads.splitCheck.db.syncSplitAdvisoryUnchanged w reads.splitCheck.xmax
  malicious := reads.malicious.db.maliciousRows w reads.malicious.xmax ecosystems
  reputation := reads.reputation.db.reputationRows w reads.reputation.xmax ecosystems
  lifecycle := reads.lifecycle.db.lifecycleRows w reads.lifecycle.xmax ecosystems

end Packmon

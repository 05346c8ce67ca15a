import Packmon.Sync.Database
import Mathlib.Logic.Relation

/-!
# The server

The database with the transactions that write it.  A transaction has a start time, which becomes the
`updated_at` of every row version it writes, and an id, which is assigned with its first write and so
may come in any order relative to the starts; transactions commit in any order.  The snapshot of a
sequence is the clock and the oldest id that was running.
-/

namespace Packmon

/-- The state of the server: its clock, one past the highest transaction id that has completed, the
next id, the running transactions, and the committed rows. -/
structure Server where
  clock : Time
  xmax : ℕ
  nextXID : ℕ
  running : List Stamp := []
  db : Database := {}
  clock_pos : 0 < clock := by decide
  xmax_pos : 0 < xmax := by decide
  xmax_le : xmax ≤ nextXID := by decide
  running_xid : ∀ t ∈ running, 0 < t.xid ∧ t.xid < nextXID := by decide
  running_start : ∀ t ∈ running, t.updatedAt ≤ clock := by decide
  rows_xid : ∀ r ∈ db.rows, r.stamp.xid < xmax := by decide
  rows_start : ∀ r ∈ db.rows, r.stamp.updatedAt ≤ clock := by decide

end Packmon

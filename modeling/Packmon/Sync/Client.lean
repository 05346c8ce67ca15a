import Packmon.Sync.Database
import Mathlib.Logic.Function.Basic

/-!
# The tables of the client

A table is a function from its key.
-/

namespace Packmon

open GoText (trimSpace toLower)

/-- A local table, by its key. -/
abbrev Table (R : Type) := String → Option R

namespace Table

variable {R : Type}

def empty : Table R := fun _ => none

def upsert (table : Table R) (key : String) (row : R) : Table R :=
  Function.update table key (some row)

def delete (table : Table R) (key : String) : Table R := Function.update table key none

end Table

/-- The key of an affected row. -/
def syncVulnerabilityRowKey (id ecosystem name : String) : String :=
  id ++ "|" ++ ecosystem ++ "|" ++ name

end Packmon

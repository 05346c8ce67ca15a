import Packmon.Domain.Packages
import Packmon.Library.GoMap
import Packmon.Parser.Npm
import Packmon.Sync.Database

/-!
# The keys of a pnpm lockfile
-/

namespace Packmon.Parser

open Domain GoText

def stripPnpmPeerSuffix (key : List Char) : List Char :=
  match index ['('] key with
  | some (i + 1) => key.take (i + 1)
  | _ => key

/-- The place of the last `@` that does not start the text. -/
def lastAtIndex (s : List Char) : Option ℕ := (lastIndex ['@'] s).filter (0 < ·)

/-- The place of the last slash behind the scope. -/
def lastNonScopeSlash (s : List Char) : Option ℕ :=
  let start := if "@".toList.isPrefixOf s then (index ['/'] s).map (· + 1) else some 0
  start.bind fun start => (lastIndex ['/'] (s.drop start)).map (start + ·)

def parsePnpmKey (key entryVersion : String) : String × String :=
  let key := if "/".toList.isPrefixOf key.toList then key.toList.drop 1 else key.toList
  if key = [] then ("", "")
  else
    let key := stripPnpmPeerSuffix key
    match (lastAtIndex key).or ((lastNonScopeSlash key).filter (0 < ·)) with
    | some i => (String.ofList (key.take i), String.ofList (key.drop (i + 1)))
    | none => (String.ofList key, entryVersion)

end Packmon.Parser

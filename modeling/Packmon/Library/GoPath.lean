import Packmon.Library.GoText

/-!
# Slash-separated paths

`path.Clean` and `path.Base`, which are also `filepath.Clean` and `filepath.Base` where the separator is
the slash.  The cleaned path is described by its elements instead of by the loop over its bytes: empty
elements and `.` go, `..` takes the element before it away, and at the root there is nothing to take.
-/

namespace GoPath

/-- Appends one element to the cleaned elements so far, the last of them first. -/
def cleanStep (rooted : Bool) (elements : List (List Char)) (element : List Char) : List (List Char) :=
  if element = [] ∨ element = ['.'] then elements
  else if element = ['.', '.'] then
    match elements with
    | last :: rest => if last = ['.', '.'] then element :: elements else rest
    | [] => if rooted then [] else [element]
  else element :: elements

/-- The cleaned elements of a path. -/
def cleanElements (path : List Char) : List (List Char) :=
  ((path.splitOn '/').foldl (cleanStep (path.head? = some '/')) []).reverse

/-- The shortest path that names the same place. -/
def clean (path : String) : String :=
  let joined := ['/'].intercalate (cleanElements path.toList)
  if path.toList.head? = some '/' then String.ofList ('/' :: joined)
  else if joined = [] then "." else String.ofList joined

/-- The last element of a path. -/
def base (path : String) : String :=
  if path = "" then "."
  else
    let last := (path.toList.rdropWhile (· = '/')).rtakeWhile (· ≠ '/')
    if last = [] then "/" else String.ofList last

example : clean "a//b/./../c/" = "a/c" := by decide
example : clean "../../go.sum" = "../../go.sum" := by decide
example : base "/x/go.sum/" = "go.sum" := by decide

end GoPath

import Outpost.Text

/-!
# POSIX paths

Joining and taking apart paths with `/` between their segments. Joining also normalizes: empty and
`.` segments go, and `..` takes the segment before it away where there is one to take.

## Contents

* `Path.normalize`, `Path.join`, `Path.directory`, `Path.isAbsolute`.
-/

namespace Outpost

namespace Path

/-- Whether a `path` starts at the root `/`. -/
def isAbsolute (path : String) : Bool := path.toList.head? = some '/'

/-- One more segment behind the segments kept so far, which are in reverse order. A `..` that has
nothing to take away stays in a relative path and goes in an absolute one. -/
def addSegment (absolute : Bool) (kept : List (List Char)) (segment : List Char) :
    List (List Char) :=
  if segment = [] || segment = ['.'] then kept
  else if segment = ['.', '.'] then
    match kept with
    | [] => if absolute then [] else [segment]
    | last :: rest => if last = ['.', '.'] then segment :: kept else rest
  else segment :: kept

/-- The normal form of a path: no empty segment, no `.`, and `..` only at the start of a relative
path. A slash at the end stays, and a path of nothing is `.`. -/
def normalizeChars (path : List Char) : List Char :=
  let absolute := path.head? = some '/'
  let closed := path.getLast? = some '/'
  let kept := ((Text.split '/' path).foldl (addSegment absolute) []).reverse
  let body := ['/'].intercalate kept
  if path = [] then ['.']
  else if body = [] then
    if absolute then ['/'] else if closed then ['.', '/'] else ['.']
  else (if absolute then ['/'] else []) ++ body ++ (if closed then ['/'] else [])

/-- The normal form of a `path`, by `normalizeChars`. -/
def normalize (path : String) : String := String.ofList (normalizeChars path.toList)

/-- Paths joined by slashes and brought into `normalize` form; empty ones count for nothing. -/
def join (parts : List String) : String :=
  normalize ("/".intercalate (parts.filter (· ≠ "")))

/-- The directory part of a `path`: everything before the slash in front of its last segment. -/
def directoryChars (path : List Char) : List Char :=
  match path with
  | [] => ['.']
  | first :: rest =>
    let before := ((rest.reverse.dropWhile (· = '/')).dropWhile (· ≠ '/')).length
    if before = 0 then (if first = '/' then ['/'] else ['.'])
    else if first = '/' && before = 1 then ['/', '/']
    else path.take before

/-- The directory part of a `path`, by `directoryChars`. -/
def directory (path : String) : String := String.ofList (directoryChars path.toList)

end Path

end Outpost

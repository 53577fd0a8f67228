/-!
# Path texts

A path is a text of segments with slashes between them. An empty segment and a point stay where they
are, and two points go up. What a path looks like decides its parent and its name (`parent?`,
`name?`); what it leads to is for the file system to say.
-/

namespace SwiftScribe.Files

/-- The stretches of a text between its slashes. There is one more of them than slashes. -/
def splitSlashes : List Char → List (List Char)
  | [] => [[]]
  | c :: cs =>
    if c = '/' then [] :: splitSlashes cs
    else
      match splitSlashes cs with
      | [] => [[c]]
      | first :: rest => (c :: first) :: rest

/-- The segments of a path. The first one of an absolute path is empty. -/
def segments (path : String) : List String := (splitSlashes path.toList).map String.ofList

/-- Whether a path starts at the root. -/
def isAbsolute (path : String) : Bool := path.toList.head? == some '/'

/-- Whether a segment stays where it is. -/
def isIdle (segment : String) : Bool := segment == "" || segment == "."

/-- Whether a path is a way of saying "here". -/
def isHere (path : String) : Bool :=
  match segments path with
  | "." :: rest => rest.all isIdle
  | _ => false

/-- Segments in reverse, without the idle ones up to the next that is not. The first segment of a
path is kept, since it tells where the path starts. -/
def dropIdle : List String → List String
  | [] => []
  | [first] => [first]
  | segment :: before => if isIdle segment then dropIdle before else segment :: before

/-- The directories above a path, nearest first, all as segments in reverse. -/
def above : List String → List (List String)
  | [] => []
  | [first] => if first == "" then [] else [[]]
  | segment :: before => if isIdle segment then above before else dropIdle before :: above before

/-- The text of a path, from its segments in reverse. -/
def pathText : List String → String
  | [""] => "/"
  | reversed => "/".intercalate reversed.reverse

/-- **The directories above a path**, nearest first. An empty text stands for the one that the path
starts in. -/
def parents (path : String) : List String := (above (segments path).reverse).map pathText

/-- The directory that a path is in. The root and the empty path are in none. -/
def parent? (path : String) : Option String := (parents path).head?

/-- The last segment of a path, if it is the name of something. -/
def name? (path : String) : Option String :=
  match dropIdle (segments path).reverse with
  | [] => none
  | last :: _ => if isIdle last || last == ".." then none else some last

/-- A name without its last extension. A point in front does not start an extension. -/
def stem (name : String) : String :=
  match name.toList.reverse.dropWhile (· != '.') with
  | [] | [_] => name
  | _ :: before => String.ofList before.reverse

/-- A path, one segment further. -/
def join (path segment : String) : String :=
  if path == "" || path.toList.getLast? == some '/' then path ++ segment else path ++ "/" ++ segment

end SwiftScribe.Files

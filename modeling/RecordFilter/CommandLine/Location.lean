import RecordFilter.Text.Blank

/-!
# Paths and the places they lead to

A path is a text of segments with slashes between them. It leads from the top of the tree of
directories, if it begins with a slash, or else from the current directory: a name leads down, two
dots lead up, and a dot or an empty segment stays.

A place is known by the names that lead to it, from the top or from a directory some levels above
the current one. What stands above the current directory has no other name here.
-/

namespace RecordFilter

/-- A place in the tree of directories. -/
structure Location where
  /-- The names lead from the top. -/
  absolute : Bool
  /-- How far above the current directory the names begin, if not at the top. -/
  above : Nat
  /-- The names, the last one first. -/
  names : List (List Char)
  deriving DecidableEq

/-- The segments of a path. -/
abbrev Path.Segments := List (List Char)

namespace Path

/-- The segments of a path; a slash at an end has an empty one beside it. -/
def segments (path : String) : Segments := path.toList.splitOn '/'

/-- The path begins with a slash. -/
def isAbsolute (path : String) : Bool := path.toList.head? == some '/'

/-- The segment stays where it is. -/
def stays (segment : List Char) : Bool := segment.isEmpty || segment == ['.']

/-- The segment leads up. -/
def leadsUp (segment : List Char) : Bool := segment == ['.', '.']

/-- The segment is a name. -/
def isName (segment : List Char) : Bool := !stays segment && !leadsUp segment

/-- The segments without those at the end that stay. -/
def dropStays (segments : Segments) : Segments := (segments.reverse.dropWhile stays).reverse

/-- The path without slashes and dots at its end, and the name that it ends with, if it ends with a
name. -/
def trimmed? (path : String) : Option (String × List Char) :=
  let kept := dropStays (segments path)
  match kept.getLast? with
  | some name =>
    if isName name then some (String.ofList (['/'].intercalate kept), name) else none
  | none => none

/-- What follows the last point of a name, unless nothing stands before the point. -/
def ending? (name : List Char) : Option (List Char) :=
  let ending := (name.reverse.takeWhile (· != '.')).reverse
  if ending.length + 1 < name.length then some ending else none

/-- The path with an ending in place of the one that its name has, if it has one, and without
slashes and dots behind it. -/
def withEnding? (path ending : String) : Option String :=
  (trimmed? path).map fun (trimmed, name) =>
    let dropped := ((ending? name).map fun old => old.length + 1).getD 0
    (trimmed.dropEnd dropped).toString ++ "." ++ ending

end Path

namespace Location

/-- The top of the tree. -/
def top : Location := ⟨true, 0, []⟩

/-- The current directory. -/
def current : Location := ⟨false, 0, []⟩

/-- The place that a name leads down to. -/
def child (l : Location) (name : List Char) : Location := { l with names := name :: l.names }

/-- The place above; the top stays where it is. -/
def parent (l : Location) : Location :=
  match l.names with
  | _ :: rest => { l with names := rest }
  | [] => if l.absolute then l else { l with above := l.above + 1 }

/-- The place that a segment leads to. -/
def step (l : Location) (segment : List Char) : Location :=
  if Path.stays segment then l
  else if Path.leadsUp segment then l.parent
  else l.child segment

/-- The place where a path begins. -/
def start (path : String) : Location := if Path.isAbsolute path then top else current

/-- The place that segments lead to. -/
def along (l : Location) (segments : Path.Segments) : Location := segments.foldl step l

/-- The place that a path leads to, if there are directories all the way. -/
def ofPath (path : String) : Location := (start path).along (Path.segments path)

/-- The place is below the directory. -/
def isBelow (l directory : Location) : Bool :=
  l.absolute == directory.absolute && l.above == directory.above &&
    directory.names.length < l.names.length && directory.names.isSuffixOf l.names

end Location

end RecordFilter

import RecordFilter.CommandLine.Location
import RecordFilter.Text.Lines

/-!
# What a run finds and leaves behind

A run sees files, directories and devices, a standard input and the environment variables, and it
has so much memory and so many threads. A path leads to a file, a directory or a device when there
is a directory behind each of its segments but the last; a name that is too long leads nowhere. A
file can be created where the path ends with a name in a directory, and a file that is there is
emptied.

* `fileAt?_put`: what is put into a file is its content;
* `fileAt?_put_of_ne`: putting something into a file leaves the others alone.
-/

namespace RecordFilter

/-- What stands for something else than a file. -/
inductive Device where
  /-- Has nothing to read and takes everything. -/
  | null
  /-- Takes nothing. -/
  | full
  /-- Is the standard input. -/
  | stdin
  /-- Is the standard output. -/
  | stdout
  deriving DecidableEq

/-- The surroundings of a run. -/
structure World where
  files : List (Location × Text.Bytes)
  /-- The directories besides those that something lies in. -/
  directories : List Location
  devices : List (Location × Device)
  stdin : Text.Bytes
  /-- The environment variables and their texts. -/
  environment : List (String × String)
  /-- How many bytes of memory there are. -/
  memory : Nat := 0x10000000000
  /-- The most threads that can be started. -/
  threads : Nat := 0x7FFF

/-- What a path leads to. -/
inductive World.Entry where
  | file (content : Text.Bytes)
  | directory
  | device (d : Device)

namespace World

/-- The most bytes of a name. -/
def maxName : Nat := 255

/-- The most bytes of a path. -/
def maxPath : Nat := 4095

/-- The places of which it is known that they are there. -/
def places (w : World) : List Location :=
  w.directories ++ w.files.map Prod.fst ++ w.devices.map Prod.fst

/-- The place is a directory. -/
def isDirectory (w : World) (l : Location) : Bool :=
  l.names.isEmpty || w.directories.contains l || w.places.any (·.isBelow l)

/-- The content of the file at a place, if one is there. -/
def fileAt? (w : World) (l : Location) : Option Text.Bytes := w.files.lookup l

/-- What is at a place. -/
def entryAt? (w : World) (l : Location) : Option Entry :=
  if w.isDirectory l then some .directory
  else match w.devices.lookup l with
    | some d => some (.device d)
    | none => (w.fileAt? l).map .file

/-- Goes along a segment, if that is possible. -/
def step? (w : World) (l : Location) (segment : List Char) : Option Location :=
  if w.isDirectory l && Text.byteLength segment ≤ maxName then some (l.step segment) else none

/-- The place that segments lead to. -/
def along? (w : World) (path : String) (segments : Path.Segments) : Option Location :=
  if path.utf8ByteSize ≤ maxPath then segments.foldlM w.step? (.start path) else none

/-- What a path leads to. -/
def find? (w : World) (path : String) : Option Entry :=
  (w.along? path (Path.segments path)).bind w.entryAt?

/-- The content of the file that a path leads to. -/
def read? (w : World) (path : String) : Option Text.Bytes :=
  match w.find? path with
  | some (.file content) => some content
  | _ => none

/-- The place of the file that a path names, which can be written to: it is there, or it can be
created. -/
def target? (w : World) (path : String) : Option Location :=
  let segments := Path.segments path
  if (segments.getLast?.map Path.isName).getD false then
    match w.along? path segments with
    | some l => if w.isDirectory l then none else some l
    | none => none
  else none

/-- The file at a place gets a content in place of the one it has, if it is there. -/
def put (w : World) (l : Location) (content : Text.Bytes) : World :=
  { w with files := (l, content) :: w.files.filter fun file => file.1 != l }

theorem fileAt?_put (w : World) (l : Location) (content : Text.Bytes) :
    (w.put l content).fileAt? l = some content := by
  simp [fileAt?, put]

theorem lookup_filter_ne {l other : Location} (h : other ≠ l) :
    ∀ files : List (Location × Text.Bytes),
      (files.filter fun file => file.1 != l).lookup other = files.lookup other
  | [] => rfl
  | (m, content) :: rest => by
    have ih := lookup_filter_ne h rest
    by_cases hm : m = l
    · have hbeq : (other == l) = false := by simpa using h
      simpa [List.lookup_cons, hbeq, hm] using ih
    · simp only [List.filter_cons, bne_iff_ne, ne_eq, hm, not_false_eq_true, if_true,
        List.lookup_cons, ih]

theorem fileAt?_put_of_ne (w : World) {l other : Location} (h : other ≠ l)
    (content : Text.Bytes) : (w.put l content).fileAt? other = w.fileAt? other := by
  have hbeq : (other == l) = false := by simpa using h
  simp only [fileAt?, put, List.lookup_cons, hbeq]
  exact lookup_filter_ne h w.files

end World

end RecordFilter

import RecordFilter.Settings.RawValue

/-!
# Tables of TOML

A document is a table, which is filled line by line. A header opens a table, or adds one to a list
of tables, at a path of keys; a line gives a value at a path within the open table. Tables on the
way come into being by themselves. A table may be opened once, and a key may be given once.
-/

namespace RecordFilter.Settings.Toml

/-- How a table has come into being. -/
inductive Origin where
  /-- On the way to a table that was opened. -/
  | passed
  /-- By a header. -/
  | opened
  /-- On the way to a value. -/
  | dotted
  deriving DecidableEq

/-- What stands under a key. -/
inductive Entry where
  /-- A value that nothing can be added to. -/
  | value (v : RawValue)
  | table (origin : Origin) (entries : List (String × Entry))
  /-- A list of tables, the last one first. -/
  | tables (elements : List (List (String × Entry)))

/-- Keys and what stands under them. -/
abbrev Entries := List (String × Entry)

namespace Entries

/-- Puts an entry under a key, in place of the one there, if there is one. -/
def put (entries : Entries) (key : String) (e : Entry) : Entries :=
  if entries.any (·.1 == key) then entries.map fun old => if old.1 == key then (key, e) else old
  else entries ++ [(key, e)]

/-- Changes the table at a path. A table that is not there comes into being with the origin; whether
a table that is there may be passed depends on its origin. -/
def change? (origin : Origin) (mayPass : Origin → Bool) (change : Entries → Option Entries) :
    List String → Entries → Option Entries
  | [], entries => change entries
  | key :: path, entries =>
    match entries.lookup key with
    | none =>
      (change? origin mayPass change path []).map fun inner => entries.put key (.table origin inner)
    | some (.table o inner) =>
      if mayPass o then
        (change? origin mayPass change path inner).map fun inner => entries.put key (.table o inner)
      else none
    | some (.tables (last :: before)) =>
      if origin = .passed then
        (change? origin mayPass change path last).map fun last =>
          entries.put key (.tables (last :: before))
      else none
    | some _ => none

/-- Opens the table under a key. -/
def openKey? (key : String) (entries : Entries) : Option Entries :=
  match entries.lookup key with
  | none => some (entries.put key (.table .opened []))
  | some (.table .passed inner) => some (entries.put key (.table .opened inner))
  | some _ => none

/-- Adds a table to the list under a key. -/
def extendKey? (key : String) (entries : Entries) : Option Entries :=
  match entries.lookup key with
  | none => some (entries.put key (.tables [[]]))
  | some (.tables elements) => some (entries.put key (.tables ([] :: elements)))
  | some _ => none

/-- Does something with the last key of a path, in the table that the other keys lead to. -/
def atLast? (origin : Origin) (mayPass : Origin → Bool)
    (change : String → Entries → Option Entries) (path : List String) (entries : Entries) :
    Option Entries :=
  match path.getLast? with
  | some key => change? origin mayPass (change key) path.dropLast entries
  | none => none

/-- Opens the table at a path. -/
def open? (path : List String) (entries : Entries) : Option Entries :=
  atLast? .passed (fun _ => true) openKey? path entries

/-- Adds a table to the list at a path. -/
def extend? (path : List String) (entries : Entries) : Option Entries :=
  atLast? .passed (fun _ => true) extendKey? path entries

/-- Gives a value at a path. A table that was opened may not be passed. -/
def give? (path : List String) (v : RawValue) (entries : Entries) : Option Entries :=
  let giveKey (key : String) (inner : Entries) : Option Entries :=
    if inner.any (·.1 == key) then none else some (inner.put key (.value v))
  atLast? .dotted (· != .opened) giveKey path entries

/-- Gives a value at a path within the table that another path leads to. -/
def giveIn? (table path : List String) (v : RawValue) (entries : Entries) : Option Entries :=
  change? .passed (fun _ => true) (give? path v) table entries

end Entries

/-- The value that stands under a key. -/
def Entry.toRaw : Entry → RawValue
  | .value v => v
  | _ => .composite

end RecordFilter.Settings.Toml

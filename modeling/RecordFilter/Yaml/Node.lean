import RecordFilter.Decimal.Basic
import RecordFilter.Numeral
import RecordFilter.Json.Reader

/-!
# Nodes of YAML

A node is a scalar, a sequence or a mapping. What a plain scalar is follows from how it is written:
null, a truth value, an integer, a number, or text. A tag can ask for one of these kinds; a scalar
that does not fit its tag is unknown. A number keeps its spelling, since it may be a key, and the
numbers without digits have names.
-/

namespace RecordFilter.Yaml

/-- A value in a YAML document. -/
inductive Node where
  | null
  | bool (b : Bool)
  | integer (n : Int64)
  | real (spelling : String)
  | text (s : String)
  /-- The scalar is not what its tag says. -/
  | unknown
  | sequence (elements : List Node)
  | mapping (entries : List (Node × Node))

namespace Node

/-- The integer in the base, after an optional sign, when it fits into 64 bits. -/
def integerInBase? (base : Nat) (spelling : List Char) : Option Int64 :=
  let (negative, digits) := Numeral.splitSign spelling
  match digits.mapM Json.hexDigit? with
  | none => none
  | some ds =>
    let magnitude := ds.foldl (fun n d => n * base + d) 0
    if !ds.isEmpty && ds.all (· < base) then Numeral.toInt64? (Numeral.signed negative magnitude)
    else none

/-- The integer that a plain scalar spells: after `0x` in hexadecimal, after `0o` in octal, after
a plus sign or with neither in decimal digits with a sign of their own. -/
def integer? : List Char → Option Int64
  | '0' :: 'x' :: rest => integerInBase? 16 rest
  | '0' :: 'o' :: rest => integerInBase? 8 rest
  | '+' :: rest => (Numeral.integer64? rest).orElse fun _ => Numeral.integer64? ('+' :: rest)
  | spelling => Numeral.integer64? spelling

/-- The names of the numbers that have no digits. -/
def numberNames : List (List Char) :=
  [".inf", ".Inf", ".INF", "+.inf", "+.Inf", "+.INF", "-.inf", "-.Inf", "-.INF", ".nan", ".NaN",
    ".NAN"].map String.toList

/-- The text spells a number, or names one. -/
def isReal (spelling : List Char) : Bool :=
  numberNames.contains spelling || (Numeral.decimal? spelling).isSome

/-- What stands for null. -/
def nulls : List (List Char) := [[], ['~'], "null".toList]

/-- What stands for a truth value. -/
def bools : List (List Char × Bool) :=
  [("true".toList, true), ("True".toList, true), ("TRUE".toList, true),
    ("false".toList, false), ("False".toList, false), ("FALSE".toList, false)]

/-- The scalar that a plain text is recognised as. -/
def ofPlain (spelling : List Char) : Node :=
  match integer? spelling with
  | some n => .integer n
  | none =>
    if nulls.contains spelling then .null
    else match bools.lookup spelling with
      | some b => .bool b
      | none =>
        if isReal spelling then .real (String.ofList spelling) else .text (String.ofList spelling)

/-- The scalar of a kind that a plain text is. -/
def ofKind (kind : String) (spelling : List Char) : Node :=
  match kind with
  | "bool" =>
    if spelling == "true".toList then .bool true
    else if spelling == "false".toList then .bool false
    else .unknown
  | "int" =>
    match Numeral.integer64? spelling with
    | some n => .integer n
    | none => .unknown
  | "float" => if isReal spelling then .real (String.ofList spelling) else .unknown
  | "null" => if spelling == ['~'] || spelling == "null".toList then .null else .unknown
  | _ => .text (String.ofList spelling)

/-- The nodes are the same scalar. -/
def sameScalar : Node → Node → Bool
  | .null, .null => true
  | .bool a, .bool b => a == b
  | .integer a, .integer b => a == b
  | .real a, .real b => a == b
  | .text a, .text b => a == b
  | _, _ => false

/-- What is still to come of a mapping: the entries so far, the last one first, and the key whose
value comes next. An unknown scalar is not a key. -/
structure Pending where
  entries : List (Node × Node)
  key : Option Node

/-- Adds a key, or the value of the last key. No scalar may be a key twice. -/
def Pending.add? (p : Pending) (n : Node) : Option Pending :=
  match p.key, n with
  | none, .unknown => some p
  | none, key => some { p with key := some key }
  | some key, v =>
    if p.entries.any fun e => e.1.sameScalar key then none
    else some ⟨(key, v) :: p.entries, none⟩

/-- The mapping of keys and values that come in turn. -/
def ofParts? (parts : List Node) : Option Node :=
  (parts.foldlM Pending.add? ⟨[], none⟩).map fun p => .mapping p.entries.reverse

end Node

end RecordFilter.Yaml

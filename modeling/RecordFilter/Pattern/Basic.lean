/-!
# Patterns of texts

A pattern says what texts look like. It is made of characters, of sets of characters between
brackets, of edges that texts, lines and words have, and of repetitions, groups, sequences and
choices of smaller patterns. Switches change how the patterns behind them are understood, up to the
end of the group that they stand in.
-/

namespace RecordFilter

namespace Pattern

/-- What can be switched on and off. -/
inductive Switch where
  /-- Small and capital letters are the same. -/
  | caseless
  /-- The edges of lines count as edges. -/
  | manyLines
  /-- Any character may be a line break. -/
  | anyBreak
  /-- Repetitions are as short as possible. -/
  | short
  /-- A carriage return belongs to a line break. -/
  | returns
  /-- Characters are those of Unicode, and not bytes. -/
  | unicode
  /-- Blanks and comments mean nothing. -/
  | spaced
  deriving DecidableEq

/-- That something is switched on or off. -/
structure Change where
  switch : Switch
  on : Bool
  deriving DecidableEq

/-- A set of characters between brackets, or a part of one. -/
inductive CharSet where
  | letter (c : Char)
  | range (first last : Char)
  /-- A class of ASCII characters by its name. -/
  | named (negated : Bool)
  /-- Digits, blanks or the characters of words. -/
  | kind (negated : Bool)
  /-- The characters with a property. -/
  | property
  /-- All of the parts together. -/
  | union (parts : List CharSet)
  /-- What stands between brackets. -/
  | bracket (negated : Bool) (s : CharSet)
  /-- What two sets have in common, or one of them alone. -/
  | combined (left right : CharSet)

end Pattern

/-- A pattern. -/
inductive Pattern where
  | empty
  /-- A character, which may be written as a byte of two hexadecimal digits. -/
  | letter (c : Char) (asByte : Bool)
  | any
  /-- An edge of the text or of a line. -/
  | edge
  | wordEdge
  /-- Digits, blanks or the characters of words. -/
  | kind (negated : Bool)
  | property
  /-- A set between brackets. -/
  | set (s : Pattern.CharSet)
  | switches (changes : List Pattern.Change)
  | repeated (p : Pattern)
  /-- A group, which may have a name. -/
  | group (name : Option (List Char)) (changes : List Pattern.Change) (p : Pattern)
  | sequence (parts : List Pattern)
  | choice (parts : List Pattern)

namespace Pattern

/-! ## Depth -/

mutual

/-- How many levels of brackets and combinations are within one another. -/
def CharSet.depth : CharSet → Nat
  | .letter _ => 0
  | .range _ _ => 0
  | .named _ => 0
  | .kind _ => 0
  | .property => 0
  | .union [] => 0
  | .union (s :: parts) => 1 + max s.depth (CharSet.depthAll parts)
  | .bracket _ s => 1 + s.depth
  | .combined l r => 1 + max l.depth r.depth

/-- The depth of the deepest of the sets. -/
def CharSet.depthAll : List CharSet → Nat
  | [] => 0
  | s :: parts => max s.depth (CharSet.depthAll parts)

end

mutual

/-- How many levels of patterns are within one another. -/
def depth : Pattern → Nat
  | .empty => 0
  | .letter _ _ => 0
  | .any => 0
  | .edge => 0
  | .wordEdge => 0
  | .kind _ => 0
  | .property => 0
  | .set s => s.depth
  | .switches _ => 0
  | .repeated p => 1 + p.depth
  | .group _ _ p => 1 + p.depth
  | .sequence parts => 1 + depthAll parts
  | .choice parts => 1 + depthAll parts

/-- The depth of the deepest of the patterns. -/
def depthAll : List Pattern → Nat
  | [] => 0
  | p :: parts => max p.depth (depthAll parts)

end

/-! ## Names of groups -/

mutual

/-- The names of the groups, in order. -/
def names : Pattern → List (List Char)
  | .empty => []
  | .letter _ _ => []
  | .any => []
  | .edge => []
  | .wordEdge => []
  | .kind _ => []
  | .property => []
  | .set _ => []
  | .switches _ => []
  | .repeated p => p.names
  | .group name _ p => name.toList ++ p.names
  | .sequence parts => namesAll parts
  | .choice parts => namesAll parts

/-- The names of the groups of several patterns. -/
def namesAll : List Pattern → List (List Char)
  | [] => []
  | p :: parts => p.names ++ namesAll parts

end

/-! ## What can be used -/

/-- The switches that decide what can be used. -/
structure Modes where
  caseless : Bool
  unicode : Bool
  deriving DecidableEq

/-- The switches as they are at first. -/
def Modes.usual : Modes := ⟨false, true⟩

/-- The switches after a change. -/
def Modes.change (m : Modes) (c : Change) : Modes :=
  match c.switch with
  | .caseless => { m with caseless := c.on }
  | .unicode => { m with unicode := c.on }
  | _ => m

/-- The switches after changes. -/
def Modes.changeAll (m : Modes) (changes : List Change) : Modes := changes.foldl change m

mutual

/-- The set can be used. Without the tables of Unicode neither properties nor the kinds of its
characters are known, nor which letters are the same but for case. Sets of bytes hold ASCII
characters only. -/
def CharSet.isUsable (m : Modes) : CharSet → Bool
  | .letter c => if m.unicode then !m.caseless else c.toNat < 0x80
  | .range a b => if m.unicode then !m.caseless else a.toNat < 0x80 && b.toNat < 0x80
  | .named negated => if m.unicode then !m.caseless else !negated
  | .kind negated => !m.unicode && !negated
  | .property => false
  | .union parts => CharSet.areUsable m parts
  | .bracket negated s => (m.unicode || !negated) && s.isUsable m
  | .combined l r => l.isUsable m && r.isUsable m

/-- All of the sets can be used. -/
def CharSet.areUsable (m : Modes) : List CharSet → Bool
  | [] => true
  | s :: parts => s.isUsable m && CharSet.areUsable m parts

end

mutual

/-- The switches behind a pattern; there are none when it cannot be used. -/
def leave? : Pattern → Modes → Option Modes
  | .empty, m => some m
  | .letter c asByte, m =>
    if m.unicode then (if m.caseless then none else some m)
    else if asByte && 0x7F < c.toNat then none
    else some m
  | .any, m => if m.unicode then some m else none
  | .edge, m => some m
  | .wordEdge, m => if m.unicode then none else some m
  | .kind negated, m => if m.unicode || negated then none else some m
  | .property, _ => none
  | .set s, m => if s.isUsable m then some m else none
  | .switches changes, m => some (m.changeAll changes)
  | .repeated p, m => p.leave? m
  | .group _ changes p, m => (p.leave? (m.changeAll changes)).map fun _ => m
  | .sequence parts, m => leaveAll? parts m
  | .choice parts, m => leaveAll? parts m

/-- The switches behind several patterns. -/
def leaveAll? : List Pattern → Modes → Option Modes
  | [], m => some m
  | p :: parts, m => (p.leave? m).bind (leaveAll? parts)

end

/-- The most levels of patterns within one another. -/
def maxDepth : Nat := 250

/-- The pattern can be used: it is not too deep, no two groups have one name, and all its parts can
be used. -/
def isUsable (p : Pattern) : Bool :=
  p.depth ≤ maxDepth && decide p.names.Nodup && (p.leave? .usual).isSome

end Pattern

end RecordFilter

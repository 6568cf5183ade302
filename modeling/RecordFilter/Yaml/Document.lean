import RecordFilter.Yaml.Layout
import RecordFilter.Yaml.Node

/-!
# Documents of YAML

Puts the nodes of a text together from its tokens. A text holds any number of documents, each with
one node. A document may begin and end with a mark, and from the second on it begins with one.
Within a document a node can be named, and the name then stands for it.

A reader takes tokens off the front, and keeps what names and handles stand for. Collections are
read with a reader for the nodes in them, on a bound that the number of tokens is.
-/

namespace RecordFilter.Yaml

/-- The tokens that follow, and what the names and handles before them stand for. -/
structure Place where
  tokens : List Token
  /-- The number of the node that each name stands for, the last one first. -/
  names : List (String × Nat)
  /-- The nodes with a number, as far as they are complete. -/
  nodes : List (Nat × Node)
  /-- What the handles of tags stand for. -/
  handles : List (String × String)

namespace Place

/-- With other tokens. -/
def moved (p : Place) (tokens : List Token) : Place := { p with tokens := tokens }

/-- Gives a name to the node that follows. -/
def name (p : Place) (name : String) : Place :=
  { p with names := (name, p.names.length) :: p.names }

/-- The node with the number is complete. -/
def complete (p : Place) (number : Option Nat) (n : Node) : Place :=
  match number with
  | some i => { p with nodes := (i, n) :: p.nodes }
  | none => p

/-- The node that a name stands for; it is unknown as long as it is not complete. -/
def named? (p : Place) (name : String) : Option Node :=
  (p.names.lookup name).map fun i => (p.nodes.lookup i).getD .unknown

/-- What the tag of a plain scalar says: its handle with its meaning, and its kind. A handle between
two marks needs a meaning, and two marks alone have one of their own. -/
def tag? (p : Place) (handle kind : String) : Option (String × String) :=
  match p.handles.lookup (if handle.isEmpty && kind == "!" then "" else handle) with
  | some meaning => some (meaning, kind)
  | none =>
    if handle == "!!" then some ("tag:yaml.org,2002:", kind)
    else if Layout.isHandle handle.toList && handle != "!" then none
    else some (handle, kind)

end Place

/-- Takes a value off the front of the tokens. -/
abbrev Reader (α : Type) := Place → Option (α × Place)

/-- A reader of nodes, which is told whether the node may be a block collection, and whether it may
be a block sequence that is not indented. -/
abbrev NodeReader := (block indentless : Bool) → Reader Node

/-! ## Collections -/

/-- Reads a node, unless one of the tokens comes that cannot begin one: then there is null. -/
def orNull (ends : Token → Bool) (node : Reader Node) : Reader Node := fun p =>
  if (p.tokens.head?.map ends).getD false then some (.null, p) else node p

/-- The token ends a part of a block mapping. -/
def endsPart : Token → Bool
  | .key => true
  | .value => true
  | .blockEnd => true
  | _ => false

/-- Reads the value of an entry of a block mapping, which may be missing. -/
def blockValue (node : NodeReader) : Reader Node := fun p =>
  match p.tokens with
  | .value :: rest => orNull endsPart (node true true) (p.moved rest)
  | _ => some (.null, p)

/-- Reads the keys and values of a block mapping in turn, behind those `taken` (the last one
first). -/
def blockMapping (node : NodeReader) : Nat → List Node → Reader (List Node)
  | 0, _, _ => none
  | bound + 1, taken, p =>
    let key : Option (Node × Place) :=
      match p.tokens with
      | .key :: rest => orNull endsPart (node true true) (p.moved rest)
      | .value :: _ => some (.null, p)
      | _ => none
    match p.tokens, key with
    | .blockEnd :: rest, _ => some (taken.reverse, p.moved rest)
    | _, some (k, p) =>
      match blockValue node p with
      | some (v, p) => blockMapping node bound (v :: k :: taken) p
      | none => none
    | _, none => none

/-- The token ends an element of a block sequence. -/
def endsElement : Token → Bool
  | .blockEntry => true
  | .blockEnd => true
  | _ => false

/-- Reads the elements of a block sequence, behind those `taken` (the last one first). -/
def blockSequence (node : NodeReader) : Nat → List Node → Reader (List Node)
  | 0, _, _ => none
  | bound + 1, taken, p =>
    match p.tokens with
    | .blockEnd :: rest => some (taken.reverse, p.moved rest)
    | .blockEntry :: rest =>
      match orNull endsElement (node true false) (p.moved rest) with
      | some (n, p) => blockSequence node bound (n :: taken) p
      | none => none
    | _ => none

/-- Reads the elements of a block sequence that is not indented, behind those `taken` (the last one
first). It ends before the first token that is not a dash. -/
def flatSequence (node : NodeReader) : Nat → List Node → Reader (List Node)
  | 0, _, _ => none
  | bound + 1, taken, p =>
    match p.tokens with
    | .blockEntry :: rest =>
      match orNull (fun t => endsPart t || endsElement t) (node true false) (p.moved rest) with
      | some (n, p) => flatSequence node bound (n :: taken) p
      | none => none
    | _ => some (taken.reverse, p)

/-- The token ends an entry of a flow mapping. -/
def endsFlowEntry : Token → Bool
  | .flowEntry => true
  | .flowMappingEnd => true
  | _ => false

/-- Reads the value of an entry of a flow mapping, which may be missing. -/
def flowValue (node : NodeReader) : Reader Node := fun p =>
  match p.tokens with
  | .value :: rest => orNull endsFlowEntry (node false false) (p.moved rest)
  | _ => some (.null, p)

/-- Reads an entry of a flow mapping: its key and its value. A node without a mark is a key without
a value. -/
def flowEntry (node : NodeReader) : Reader (Node × Node) := fun p =>
  match p.tokens with
  | .key :: rest =>
    match orNull (fun t => t = .value || endsFlowEntry t) (node false false) (p.moved rest) with
    | some (k, p) => (flowValue node p).map fun (v, p) => ((k, v), p)
    | none => none
  | .value :: _ => (flowValue node p).map fun (v, p) => ((.null, v), p)
  | _ => (node false false p).map fun (k, p) => ((k, .null), p)

/-- Goes on behind the comma that separates two parts of a flow collection. -/
def afterComma? (first : Bool) (p : Place) : Option Place :=
  if first then some p
  else match p.tokens with
    | .flowEntry :: rest => some (p.moved rest)
    | _ => none

/-- Reads the keys and values of a flow mapping in turn, behind those `taken` (the last one
first). -/
def flowMapping (node : NodeReader) : Nat → List Node → Reader (List Node)
  | 0, _, _ => none
  | bound + 1, taken, p =>
    match p.tokens with
    | .flowMappingEnd :: rest => some (taken.reverse, p.moved rest)
    | _ =>
      match afterComma? taken.isEmpty p with
      | none => none
      | some p =>
        match p.tokens with
        | .flowMappingEnd :: rest => some (taken.reverse, p.moved rest)
        | _ =>
          match flowEntry node p with
          | some ((k, v), p) => flowMapping node bound (v :: k :: taken) p
          | none => none

/-- Reads an element of a flow sequence that is a mapping of one entry, behind the mark of its
key. -/
def flowPair (node : NodeReader) : Reader Node := fun p =>
  let ends (t : Token) : Bool := t = .flowEntry || t = .flowSequenceEnd
  let key : Option (Node × Place) :=
    match p.tokens with
    | .value :: rest => some (.null, p.moved rest)
    | .flowEntry :: rest => some (.null, p.moved rest)
    | .flowSequenceEnd :: rest => some (.null, p.moved rest)
    | _ => node false false p
  match key with
  | none => none
  | some (k, p) =>
    let found : Option (Node × Place) :=
      match p.tokens with
      | .value :: rest => orNull ends (node false false) (p.moved rest)
      | _ => some (.null, p)
    match found with
    | none => none
    | some (v, p) => (Node.ofParts? [k, v]).map fun n => (n, p)

/-- Reads the elements of a flow sequence, behind those `taken` (the last one first). -/
def flowSequence (node : NodeReader) : Nat → List Node → Reader (List Node)
  | 0, _, _ => none
  | bound + 1, taken, p =>
    match p.tokens with
    | .flowSequenceEnd :: rest => some (taken.reverse, p.moved rest)
    | _ =>
      match afterComma? taken.isEmpty p with
      | none => none
      | some p =>
        let element : Option (Node × Place) :=
          match p.tokens with
          | .key :: rest => flowPair node (p.moved rest)
          | _ => node false false p
        match p.tokens, element with
        | .flowSequenceEnd :: rest, _ => some (taken.reverse, p.moved rest)
        | _, some (n, p) => flowSequence node bound (n :: taken) p
        | _, none => none

/-! ## Nodes -/

/-- What stands before a node: the number of its name, and its tag. -/
structure Properties where
  number : Option Nat
  tag : Option (String × String)

/-- Reads what stands before a node: a name and a tag in either order. -/
def properties : Reader Properties := fun p =>
  match p.tokens with
  | .anchor name :: .tag handle kind :: rest =>
    (p.tag? handle kind).map fun tag => (⟨some p.names.length, some tag⟩, (p.name name).moved rest)
  | .anchor name :: rest => some (⟨some p.names.length, none⟩, (p.name name).moved rest)
  | .tag handle kind :: .anchor name :: rest =>
    (p.tag? handle kind).map fun tag => (⟨some p.names.length, some tag⟩, (p.name name).moved rest)
  | .tag handle kind :: rest =>
    (p.tag? handle kind).map fun tag => (⟨none, some tag⟩, p.moved rest)
  | _ => some (⟨none, none⟩, p)

/-- The scalar with a tag. Only the kinds of the language itself matter. -/
def scalar (tag : Option (String × String)) (plain : Bool) (text : String) : Node :=
  match plain, tag with
  | false, _ => .text text
  | true, none => .ofPlain text.toList
  | true, some (meaning, kind) =>
    if meaning == "tag:yaml.org,2002:" then .ofKind kind text.toList else .text text

/-- Reads the content of a node, with a reader for the nodes in it. Behind a name or a tag it may be
missing. -/
def content (node : NodeReader) (bound : Nat) (block indentless : Bool) (given : Properties) :
    Reader Node := fun p =>
  let missing : Option (Node × Place) :=
    if given.number.isSome || given.tag.isSome then some (scalar given.tag true "", p) else none
  match p.tokens with
  | .scalar plain text :: rest => some (scalar given.tag plain text, p.moved rest)
  | .flowSequence :: rest =>
    (flowSequence node bound [] (p.moved rest)).map fun (ns, p) => (.sequence ns, p)
  | .flowMapping :: rest =>
    (flowMapping node bound [] (p.moved rest)).bind fun (ns, p) =>
      (Node.ofParts? ns).map fun n => (n, p)
  | .blockEntry :: _ =>
    if indentless then (flatSequence node bound [] p).map fun (ns, p) => (.sequence ns, p)
    else missing
  | .blockSequence :: rest =>
    if block then
      (blockSequence node bound [] (p.moved rest)).map fun (ns, p) => (.sequence ns, p)
    else missing
  | .blockMapping :: rest =>
    if block then
      (blockMapping node bound [] (p.moved rest)).bind fun (ns, p) =>
        (Node.ofParts? ns).map fun n => (n, p)
    else missing
  | _ => missing

/-- Reads a node that holds at most `levels` nodes within one another; `bound` is more than the
number of parts of any collection. -/
def node (bound : Nat) : (levels : Nat) → NodeReader
  | 0, _, _ => fun _ => none
  | levels + 1, block, indentless => fun p =>
    match p.tokens with
    | .reference name :: rest => (p.named? name).map fun n => (n, p.moved rest)
    | _ =>
      match properties p with
      | none => none
      | some (given, p) =>
        (content (node bound levels) bound block indentless given p).map fun (n, p) =>
          (n, p.complete given.number n)

/-! ## Documents -/

/-- Moves over the directives before a document. There is at most one version, and handles get
their meaning from the last directive. -/
def directives (version : Bool) (handles : List (String × String)) :
    List Token → Option (List (String × String) × List Token)
  | .version :: rest => if version then none else directives true handles rest
  | .tagHandle handle meaning :: rest =>
    if handles.any (·.1 == handle) then none
    else directives version ((handle, meaning) :: handles) rest
  | tokens => some (handles, tokens)

/-- The token begins a new document, or ends the one before. -/
def isOutside : Token → Bool
  | .version => true
  | .tagHandle _ _ => true
  | .documentStart => true
  | .documentEnd => true
  | _ => false

/-- Reads the node of a document that begins with a mark; it may be missing. -/
def markedNode (bound : Nat) (p : Place) : Option (Node × Place) :=
  match p.tokens with
  | [] => some (.null, p)
  | t :: _ => if isOutside t then some (.null, p) else node bound bound true false p

/-- Reads a document at its first token. It may lack its mark if `bare`. -/
def document (bound : Nat) (bare : Bool) (tokens : List Token) : Option (Node × Place) :=
  match directives false [] tokens with
  | none => none
  | some (handles, rest) =>
    match rest with
    | .documentStart :: rest => markedNode bound ⟨rest, [], [], handles⟩
    | rest =>
      if bare && !((tokens.head?.map isOutside).getD false) then
        node bound bound true false ⟨rest, [], [], handles⟩
      else none

/-- Reads the documents that follow, the first of which may lack its mark if `bare`. -/
def documentsFrom (bound : Nat) : Nat → (bare : Bool) → List Token → Option (List Node)
  | 0, _, _ => none
  | more + 1, bare, tokens =>
    match tokens.dropWhile (· = .documentEnd) with
    | [] => some []
    | tokens =>
      match document bound bare tokens with
      | none => none
      | some (n, p) =>
        let ended := p.tokens.head? = some .documentEnd
        if !ended && (p.tokens.head?.map fun t => isOutside t && t != .documentStart).getD false
        then none
        else (documentsFrom bound more ended p.tokens).map (n :: ·)

/-- The nodes of the documents that the tokens make up. -/
def documents? (tokens : List Token) : Option (List Node) :=
  documentsFrom (tokens.length + 2) (tokens.length + 2) true tokens

end RecordFilter.Yaml

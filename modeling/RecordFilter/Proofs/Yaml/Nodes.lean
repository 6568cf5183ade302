import RecordFilter.Yaml.Document

/-!
# Well-formed nodes

Whatever a text holds, the nodes of its documents are well-formed: a mapping has no scalar twice
among its keys and no unknown scalar at all, and what is recognised as a number is spelled like one.
Nodes are put together in one place, by `Pending.add?`; the readers of documents hand them on, and
keep those that have a name.

* `Proper.ofPlain`, `Proper.ofParts?`: the nodes that scalars and the parts of a mapping make;
* `Keeps`: what a reader answers is good, and the nodes that it keeps under a name stay proper;
* `documents?_proper`: the nodes of all documents are proper.
-/

namespace RecordFilter.Yaml

namespace Node

/-- No scalar is a key twice. -/
def Distinct (entries : List (Node × Node)) : Prop :=
  entries.Pairwise fun a b => a.1.sameScalar b.1 = false

instance (entries : List (Node × Node)) : Decidable (Distinct entries) :=
  inferInstanceAs (Decidable (entries.Pairwise fun a b => a.1.sameScalar b.1 = false))

/-- **A well-formed node.** -/
inductive Proper : Node → Prop
  | null : Proper .null
  | bool (b : Bool) : Proper (.bool b)
  | integer (n : Int64) : Proper (.integer n)
  | real {spelling : String} (h : isReal spelling.toList = true) : Proper (.real spelling)
  | text (s : String) : Proper (.text s)
  | unknown : Proper .unknown
  | sequence {elements : List Node} (h : ∀ n ∈ elements, Proper n) : Proper (.sequence elements)
  | mapping {entries : List (Node × Node)}
      (distinct : Distinct entries) (known : ∀ e ∈ entries, e.1 ≠ .unknown)
      (keys : ∀ e ∈ entries, Proper e.1) (values : ∀ e ∈ entries, Proper e.2) :
      Proper (.mapping entries)

theorem sameScalar_comm (a b : Node) : a.sameScalar b = b.sameScalar a := by
  cases a <;> cases b <;> simp [sameScalar, BEq.comm]

theorem Proper.ofPlain (spelling : List Char) : (Node.ofPlain spelling).Proper := by
  unfold Node.ofPlain
  split
  · exact .integer _
  · split
    · exact .null
    · split
      · exact .bool _
      · split
        · exact .real (by simpa using ‹_›)
        · exact .text _

theorem Proper.ofKind (kind : String) (spelling : List Char) :
    (Node.ofKind kind spelling).Proper := by
  unfold Node.ofKind
  split
  · split
    · exact .bool _
    · split
      · exact .bool _
      · exact .unknown
  · split
    · exact .integer _
    · exact .unknown
  · split
    · exact .real (by simpa using ‹_›)
    · exact .unknown
  · split
    · exact .null
    · exact .unknown
  · exact .text _

/-- What has been read of a mapping is proper. -/
structure Pending.Proper (p : Pending) : Prop where
  entries : (Node.mapping p.entries).Proper
  key : ∀ k, p.key = some k → k.Proper ∧ k ≠ .unknown

theorem Pending.Proper.add? {p q : Pending} {n : Node} (hp : p.Proper) (hn : n.Proper)
    (h : p.add? n = some q) : q.Proper := by
  unfold Pending.add? at h
  split at h
  · obtain rfl := Option.some.inj h
    exact hp
  · obtain rfl := Option.some.inj h
    refine ⟨hp.entries, fun k hk => ?_⟩
    obtain rfl := Option.some.inj hk
    exact ⟨hn, ‹_›⟩
  · rename_i key hkey
    split at h
    · cases h
    · rename_i hfree
      obtain rfl := Option.some.inj h
      obtain ⟨hk, hknown⟩ := hp.key key hkey
      cases hp.entries with
      | mapping distinct known keys values =>
        have hfresh : ∀ e ∈ p.entries, key.sameScalar e.1 = false := fun e he => by
          rw [sameScalar_comm]
          simpa using fun hs => hfree (List.any_eq_true.mpr ⟨e, he, hs⟩)
        refine ⟨.mapping (List.pairwise_cons.mpr ⟨hfresh, distinct⟩) ?_ ?_ ?_, by simp⟩
        · exact List.forall_mem_cons.mpr ⟨hknown, known⟩
        · exact List.forall_mem_cons.mpr ⟨hk, keys⟩
        · exact List.forall_mem_cons.mpr ⟨hn, values⟩

theorem Pending.Proper.foldlM {parts : List Node} {p q : Pending} (hp : p.Proper)
    (hparts : ∀ n ∈ parts, n.Proper) (h : parts.foldlM Pending.add? p = some q) : q.Proper := by
  induction parts generalizing p with
  | nil => exact Option.some.inj h ▸ hp
  | cons n rest ih =>
    obtain ⟨hn, hrest⟩ := List.forall_mem_cons.mp hparts
    rw [List.foldlM_cons] at h
    obtain ⟨r, hr, hq⟩ := Option.bind_eq_some_iff.mp h
    exact ih (hp.add? hn hr) hrest hq

theorem Proper.reverse {entries : List (Node × Node)} (h : (Node.mapping entries).Proper) :
    (Node.mapping entries.reverse).Proper := by
  cases h with
  | mapping distinct known keys values =>
    have hmem {good : Node × Node → Prop} (h : ∀ e ∈ entries, good e) :
        ∀ e ∈ entries.reverse, good e := fun e he => h e (List.mem_reverse.mp he)
    refine .mapping (List.pairwise_reverse.mpr (List.Pairwise.imp (fun hs => ?_) distinct))
      (hmem known) (hmem keys) (hmem values)
    rw [sameScalar_comm]
    exact hs

theorem Proper.ofParts? {parts : List Node} {n : Node} (hparts : ∀ m ∈ parts, m.Proper)
    (h : Node.ofParts? parts = some n) : n.Proper := by
  obtain ⟨p, hp, rfl⟩ := Option.map_eq_some_iff.mp h
  have hempty : Pending.Proper ⟨[], none⟩ :=
    ⟨.mapping List.Pairwise.nil (by simp) (by simp) (by simp), fun k hk => nomatch hk⟩
  exact (hempty.foldlM hparts hp).entries.reverse

end Node

/-! ## Readers -/

/-- The nodes that are kept under a name are proper. -/
def Place.Proper (p : Place) : Prop := ∀ e ∈ p.nodes, e.2.Proper

theorem Place.Proper.moved {p : Place} (hp : p.Proper) (tokens : List Token) :
    (p.moved tokens).Proper := hp

/-- **The reader answers what is good, and keeps proper nodes.** -/
def Keeps {α : Type} (r : Reader α) (good : α → Prop) : Prop :=
  ∀ {p : Place} {v : α} {p' : Place}, p.Proper → r p = some (v, p') → good v ∧ p'.Proper

/-- Every node in the list is proper. -/
def AllProper (ns : List Node) : Prop := ∀ n ∈ ns, n.Proper

theorem AllProper.nil : AllProper [] := by simp [AllProper]

theorem AllProper.cons {n : Node} {ns : List Node} (hn : n.Proper) (hns : AllProper ns) :
    AllProper (n :: ns) := List.forall_mem_cons.mpr ⟨hn, hns⟩

theorem AllProper.reverse {ns : List Node} (hns : AllProper ns) : AllProper ns.reverse :=
  fun n hn => hns n (List.mem_reverse.mp hn)

theorem Place.Proper.named? {p : Place} {name : String} {n : Node} (hp : p.Proper)
    (h : p.named? name = some n) : n.Proper := by
  obtain ⟨i, -, rfl⟩ := Option.map_eq_some_iff.mp h
  cases hl : p.nodes.lookup i with
  | none => exact .unknown
  | some n =>
    obtain ⟨before, after, hs, -⟩ := List.lookup_eq_some_iff.mp hl
    exact hp (i, n) (by simp [hs])

theorem Place.Proper.complete {p : Place} {n : Node} (hp : p.Proper) (number : Option Nat)
    (hn : n.Proper) : (p.complete number n).Proper := by
  cases number with
  | none => exact hp
  | some i => exact List.forall_mem_cons.mpr ⟨hn, hp⟩

section Collections

variable {node : NodeReader} (hnode : ∀ block indentless, Keeps (node block indentless) Node.Proper)
include hnode

theorem keeps_orNull (ends : Token → Bool) (block indentless : Bool) :
    Keeps (orNull ends (node block indentless)) Node.Proper := by
  intro p v p' hp h
  unfold orNull at h
  split at h
  · obtain ⟨rfl, rfl⟩ := Prod.mk.inj (Option.some.inj h)
    exact ⟨.null, hp⟩
  · exact hnode _ _ hp h

theorem keeps_blockValue : Keeps (blockValue node) Node.Proper := by
  intro p v p' hp h
  unfold blockValue at h
  split at h
  · exact keeps_orNull hnode _ _ _ (hp.moved _) h
  · obtain ⟨rfl, rfl⟩ := Prod.mk.inj (Option.some.inj h)
    exact ⟨.null, hp⟩

theorem keeps_blockMapping (bound : Nat) {taken : List Node} (ht : AllProper taken) :
    Keeps (blockMapping node bound taken) AllProper := by
  intro p v p' hp h
  induction bound generalizing taken p with
  | zero => cases h
  | succ bound ih =>
    simp only [blockMapping] at h
    split at h
    · obtain ⟨rfl, rfl⟩ := Prod.mk.inj (Option.some.inj h)
      exact ⟨ht.reverse, hp⟩
    · rename_i k q hkey _
      have hk : k.Proper ∧ q.Proper := by
        split at hkey
        · exact keeps_orNull hnode _ _ _ (hp.moved _) hkey
        · obtain ⟨rfl, rfl⟩ := Prod.mk.inj (Option.some.inj hkey)
          exact ⟨.null, hp⟩
        · cases hkey
      split at h
      · obtain ⟨hv, hq⟩ := keeps_blockValue hnode hk.2 ‹_›
        exact ih (.cons hv (.cons hk.1 ht)) hq h
      · cases h
    · cases h

theorem keeps_blockSequence (bound : Nat) {taken : List Node} (ht : AllProper taken) :
    Keeps (blockSequence node bound taken) AllProper := by
  intro p v p' hp h
  induction bound generalizing taken p with
  | zero => cases h
  | succ bound ih =>
    simp only [blockSequence] at h
    split at h
    · obtain ⟨rfl, rfl⟩ := Prod.mk.inj (Option.some.inj h)
      exact ⟨ht.reverse, hp⟩
    · split at h
      · obtain ⟨hn, hq⟩ := keeps_orNull hnode _ _ _ (hp.moved _) ‹_›
        exact ih (.cons hn ht) hq h
      · cases h
    · cases h

theorem keeps_flatSequence (bound : Nat) {taken : List Node} (ht : AllProper taken) :
    Keeps (flatSequence node bound taken) AllProper := by
  intro p v p' hp h
  induction bound generalizing taken p with
  | zero => cases h
  | succ bound ih =>
    simp only [flatSequence] at h
    split at h
    · split at h
      · obtain ⟨hn, hq⟩ := keeps_orNull hnode _ _ _ (hp.moved _) ‹_›
        exact ih (.cons hn ht) hq h
      · cases h
    · obtain ⟨rfl, rfl⟩ := Prod.mk.inj (Option.some.inj h)
      exact ⟨ht.reverse, hp⟩

theorem keeps_flowValue : Keeps (flowValue node) Node.Proper := by
  intro p v p' hp h
  unfold flowValue at h
  split at h
  · exact keeps_orNull hnode _ _ _ (hp.moved _) h
  · obtain ⟨rfl, rfl⟩ := Prod.mk.inj (Option.some.inj h)
    exact ⟨.null, hp⟩

theorem keeps_flowEntry : Keeps (flowEntry node) fun e => e.1.Proper ∧ e.2.Proper := by
  intro p e p' hp h
  unfold flowEntry at h
  split at h
  · split at h
    · rename_i hkey
      obtain ⟨hk, hq⟩ := keeps_orNull hnode _ _ _ (hp.moved _) hkey
      obtain ⟨⟨v, q⟩, hv, he⟩ := Option.map_eq_some_iff.mp h
      obtain ⟨rfl, rfl⟩ := Prod.mk.inj he
      obtain ⟨hv, hq⟩ := keeps_flowValue hnode hq hv
      exact ⟨⟨hk, hv⟩, hq⟩
    · cases h
  · obtain ⟨⟨v, q⟩, hv, he⟩ := Option.map_eq_some_iff.mp h
    obtain ⟨rfl, rfl⟩ := Prod.mk.inj he
    obtain ⟨hv, hq⟩ := keeps_flowValue hnode hp hv
    exact ⟨⟨.null, hv⟩, hq⟩
  · obtain ⟨⟨k, q⟩, hk, he⟩ := Option.map_eq_some_iff.mp h
    obtain ⟨rfl, rfl⟩ := Prod.mk.inj he
    obtain ⟨hk, hq⟩ := hnode _ _ hp hk
    exact ⟨⟨hk, .null⟩, hq⟩

omit hnode in
theorem Place.Proper.afterComma? {first : Bool} {p q : Place} (hp : p.Proper)
    (h : Yaml.afterComma? first p = some q) : q.Proper := by
  unfold Yaml.afterComma? at h
  split at h
  · exact Option.some.inj h ▸ hp
  · split at h
    · exact Option.some.inj h ▸ hp
    · cases h

theorem keeps_flowMapping (bound : Nat) {taken : List Node} (ht : AllProper taken) :
    Keeps (flowMapping node bound taken) AllProper := by
  intro p v p' hp h
  induction bound generalizing taken p with
  | zero => cases h
  | succ bound ih =>
    simp only [flowMapping] at h
    split at h
    · obtain ⟨rfl, rfl⟩ := Prod.mk.inj (Option.some.inj h)
      exact ⟨ht.reverse, hp⟩
    · split at h
      · cases h
      · have hq := hp.afterComma? ‹_›
        split at h
        · obtain ⟨rfl, rfl⟩ := Prod.mk.inj (Option.some.inj h)
          exact ⟨ht.reverse, hq⟩
        · split at h
          · obtain ⟨⟨hk, hv⟩, hr⟩ := keeps_flowEntry hnode hq ‹_›
            exact ih (.cons hv (.cons hk ht)) hr h
          · cases h

theorem keeps_flowPair : Keeps (flowPair node) Node.Proper := by
  intro p n p' hp h
  simp only [flowPair] at h
  split at h
  · cases h
  · rename_i k q hkey
    have hk : k.Proper ∧ q.Proper := by
      split at hkey
      iterate 3
        obtain ⟨rfl, rfl⟩ := Prod.mk.inj (Option.some.inj hkey)
        exact ⟨.null, hp⟩
      exact hnode _ _ hp hkey
    split at h
    · cases h
    · rename_i v r hvalue
      have hv : v.Proper ∧ r.Proper := by
        split at hvalue
        · exact keeps_orNull hnode _ _ _ (hk.2.moved _) hvalue
        · obtain ⟨rfl, rfl⟩ := Prod.mk.inj (Option.some.inj hvalue)
          exact ⟨.null, hk.2⟩
      obtain ⟨m, hm, he⟩ := Option.map_eq_some_iff.mp h
      obtain ⟨rfl, rfl⟩ := Prod.mk.inj he
      exact ⟨.ofParts? (AllProper.cons hk.1 (.cons hv.1 .nil)) hm, hv.2⟩

theorem keeps_flowSequence (bound : Nat) {taken : List Node} (ht : AllProper taken) :
    Keeps (flowSequence node bound taken) AllProper := by
  intro p v p' hp h
  induction bound generalizing taken p with
  | zero => cases h
  | succ bound ih =>
    simp only [flowSequence] at h
    split at h
    · obtain ⟨rfl, rfl⟩ := Prod.mk.inj (Option.some.inj h)
      exact ⟨ht.reverse, hp⟩
    · split at h
      · cases h
      · have hq := hp.afterComma? ‹_›
        split at h
        · obtain ⟨rfl, rfl⟩ := Prod.mk.inj (Option.some.inj h)
          exact ⟨ht.reverse, hq⟩
        · rename_i n r helement _
          have hn : n.Proper ∧ r.Proper := by
            split at helement
            · exact keeps_flowPair hnode (hq.moved _) helement
            · exact hnode _ _ hq helement
          exact ih (.cons hn.1 ht) hn.2 h
        · cases h

end Collections

/-! ## Nodes and documents -/

theorem Place.Proper.properties {p q : Place} {given : Properties} (hp : p.Proper)
    (h : Yaml.properties p = some (given, q)) : q.Proper := by
  unfold Yaml.properties at h
  split at h
  · obtain ⟨tag, -, he⟩ := Option.map_eq_some_iff.mp h
    exact (Prod.mk.inj he).2 ▸ hp
  · exact (Prod.mk.inj (Option.some.inj h)).2 ▸ hp
  · obtain ⟨tag, -, he⟩ := Option.map_eq_some_iff.mp h
    exact (Prod.mk.inj he).2 ▸ hp
  · obtain ⟨tag, -, he⟩ := Option.map_eq_some_iff.mp h
    exact (Prod.mk.inj he).2 ▸ hp
  · exact (Prod.mk.inj (Option.some.inj h)).2 ▸ hp

theorem proper_scalar (tag : Option (String × String)) (plain : Bool) (text : String) :
    (scalar tag plain text).Proper := by
  unfold scalar
  split
  · exact .text _
  · exact .ofPlain _
  · split
    · exact .ofKind _ _
    · exact .text _

theorem keeps_content {node : NodeReader}
    (hnode : ∀ block indentless, Keeps (node block indentless) Node.Proper) (bound : Nat)
    (block indentless : Bool) (given : Properties) :
    Keeps (content node bound block indentless given) Node.Proper := by
  intro p n p' hp h
  have hsequence {r : Reader (List Node)} {q : Place} (hr : Keeps r AllProper) (hq : q.Proper)
      (hs : ((r q).map fun x => (Node.sequence x.1, x.2)) = some (n, p')) :
      n.Proper ∧ p'.Proper := by
    obtain ⟨⟨ns, s⟩, hns, he⟩ := Option.map_eq_some_iff.mp hs
    obtain ⟨rfl, rfl⟩ := Prod.mk.inj he
    obtain ⟨hns, hs⟩ := hr hq hns
    exact ⟨.sequence hns, hs⟩
  have hmapping {r : Reader (List Node)} {q : Place} (hr : Keeps r AllProper) (hq : q.Proper)
      (hs : ((r q).bind fun x => (Node.ofParts? x.1).map fun n => (n, x.2)) = some (n, p')) :
      n.Proper ∧ p'.Proper := by
    obtain ⟨⟨ns, s⟩, hns, he⟩ := Option.bind_eq_some_iff.mp hs
    obtain ⟨m, hm, he⟩ := Option.map_eq_some_iff.mp he
    obtain ⟨rfl, rfl⟩ := Prod.mk.inj he
    obtain ⟨hns, hs⟩ := hr hq hns
    exact ⟨.ofParts? hns hm, hs⟩
  have hmissing (hs : (if given.number.isSome || given.tag.isSome then
      some (scalar given.tag true "", p) else none) = some (n, p')) : n.Proper ∧ p'.Proper := by
    split at hs
    · obtain ⟨rfl, rfl⟩ := Prod.mk.inj (Option.some.inj hs)
      exact ⟨proper_scalar _ _ _, hp⟩
    · cases hs
  simp only [content] at h
  split at h
  · obtain ⟨rfl, rfl⟩ := Prod.mk.inj (Option.some.inj h)
    exact ⟨proper_scalar _ _ _, hp⟩
  · exact hsequence (keeps_flowSequence hnode bound .nil) (hp.moved _) h
  · exact hmapping (keeps_flowMapping hnode bound .nil) (hp.moved _) h
  · split at h
    · exact hsequence (keeps_flatSequence hnode bound .nil) hp h
    · exact hmissing h
  · split at h
    · exact hsequence (keeps_blockSequence hnode bound .nil) (hp.moved _) h
    · exact hmissing h
  · split at h
    · exact hmapping (keeps_blockMapping hnode bound .nil) (hp.moved _) h
    · exact hmissing h
  · exact hmissing h

theorem keeps_node (bound levels : Nat) (block indentless : Bool) :
    Keeps (node bound levels block indentless) Node.Proper := by
  induction levels generalizing block indentless with
  | zero => exact fun _ h => nomatch h
  | succ levels ih =>
    intro p n p' hp h
    simp only [node] at h
    split at h
    · obtain ⟨m, hm, he⟩ := Option.map_eq_some_iff.mp h
      obtain ⟨rfl, rfl⟩ := Prod.mk.inj he
      exact ⟨hp.named? hm, hp⟩
    · split at h
      · cases h
      · obtain ⟨⟨m, q⟩, hm, he⟩ := Option.map_eq_some_iff.mp h
        obtain ⟨rfl, rfl⟩ := Prod.mk.inj he
        obtain ⟨hm, hq⟩ := keeps_content (fun _ _ => ih _ _) _ _ _ _ (hp.properties ‹_›) hm
        exact ⟨hm, hq.complete _ hm⟩

theorem proper_markedNode {bound : Nat} {p p' : Place} {n : Node} (hp : p.Proper)
    (h : markedNode bound p = some (n, p')) : n.Proper := by
  unfold markedNode at h
  split at h
  · exact (Prod.mk.inj (Option.some.inj h)).1 ▸ .null
  · split at h
    · exact (Prod.mk.inj (Option.some.inj h)).1 ▸ .null
    · exact (keeps_node _ _ _ _ hp h).1

theorem proper_document {bound : Nat} {bare : Bool} {tokens : List Token} {n : Node} {p : Place}
    (h : document bound bare tokens = some (n, p)) : n.Proper := by
  have hstart (rest : List Token) (handles : List (String × String)) :
      Place.Proper ⟨rest, [], [], handles⟩ := by simp [Place.Proper]
  unfold document at h
  split at h
  · cases h
  · split at h
    · exact proper_markedNode (hstart _ _) h
    · split at h
      · exact (keeps_node _ _ _ _ (hstart _ _) h).1
      · cases h

theorem proper_documentsFrom {bound more : Nat} {bare : Bool} {tokens : List Token} {ns : List Node}
    (h : documentsFrom bound more bare tokens = some ns) : AllProper ns := by
  induction more generalizing bare tokens ns with
  | zero => cases h
  | succ more ih =>
    simp only [documentsFrom] at h
    split at h
    · exact Option.some.inj h ▸ .nil
    · split at h
      · cases h
      · rename_i hdocument
        split at h
        · cases h
        · obtain ⟨others, hothers, rfl⟩ := Option.map_eq_some_iff.mp h
          exact .cons (proper_document hdocument) (ih hothers)

/-- **The nodes of documents are proper.** -/
theorem documents?_proper {tokens : List Token} {ns : List Node}
    (h : documents? tokens = some ns) : ∀ n ∈ ns, n.Proper :=
  proper_documentsFrom h

end RecordFilter.Yaml

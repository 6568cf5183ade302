import Mathlib.Data.List.Nodup
import RecordFilter.Settings.Environment

/-!
# What a source says of a setting

A source gives values under keys. It says something of a setting when one of the keys is the name of
the setting, or a path that leads into it, and then it gives the setting a value with parts.

* `given?`: what the source says of a name;
* `Single`: a layer gives a name one value at most;
* `get?_ofKeys`: if the layer of a source gives a name one value, it is what the source says;
* `Environment.single`: variables with different keys give each name one value, unless one of them
  gives it under a path and another one does not.
-/

namespace RecordFilter.Settings

namespace KeyPath

/-- The key is a path that leads into the value of the name. -/
def leadsInto (key name : String) : Bool := key != name && root? key.toList == some name.toList

/-- The name is a path of one step. -/
def IsPlain (name : String) : Prop := root? name.toList = some name.toList

theorem place_self {name : String} (hname : IsPlain name) (value : RawValue) :
    place name value = (name, value) := by
  have hroot : root? name.toList = some name.toList := hname
  simp [place, hroot]

theorem place_of_leadsInto {key name : String} (h : leadsInto key name = true)
    (value : RawValue) : place key value = (name, .composite) := by
  obtain ⟨hne, hroot⟩ : key ≠ name ∧ root? key.toList = some name.toList := by
    simpa [leadsInto] using h
  have hl : name.toList ≠ key.toList := fun h => hne (String.ext h.symm)
  simp [place, hroot, hl]

theorem place_fst_ne {key name : String} (hne : key ≠ name) (h : leadsInto key name = false)
    (value : RawValue) : (place key value).1 ≠ name := by
  unfold place
  split
  · rename_i root hroot
    split
    · exact hne
    · rintro rfl
      simp [leadsInto, hne, hroot] at h
  · exact hne

end KeyPath

namespace Layer

open KeyPath (leadsInto place IsPlain)

variable {entries : List (String × RawValue)} {name : String}

/-- **What a source says of a name**: the value under the name, or a value with parts when a path
that leads into it is a key. -/
def given? (entries : List (String × RawValue)) (name : String) : Option RawValue :=
  match entries.lookup name with
  | some v => some v
  | none => if entries.any fun e => leadsInto e.1 name then some .composite else none

/-- The source does not give the name a value both under itself and under a path. -/
def OneWay (entries : List (String × RawValue)) (name : String) : Prop :=
  ∀ e ∈ entries, leadsInto e.1 name = true → name ∉ entries.map Prod.fst

instance (entries : List (String × RawValue)) (name : String) : Decidable (OneWay entries name) :=
  inferInstanceAs (Decidable (∀ e ∈ entries, leadsInto e.1 name = true →
    name ∉ entries.map Prod.fst))

/-- The layer gives the name one value at most. -/
def Single (layer : Layer) (name : String) : Prop :=
  ∀ v w, (name, v) ∈ layer → (name, w) ∈ layer → v = w

theorem get?_eq_none {layer : Layer} (h : ∀ v, (name, v) ∉ layer) : layer.get? name = none := by
  refine List.lookup_eq_none_iff.mpr fun e he => ?_
  simpa using fun hn : name = e.1 => h e.2 (hn ▸ List.mem_reverse.mp he)

theorem get?_of_mem {layer : Layer} (hs : Single layer name) {v : RawValue}
    (h : (name, v) ∈ layer) : layer.get? name = some v := by
  cases hg : layer.get? name with
  | none =>
    have := List.lookup_eq_none_iff.mp hg (name, v) (List.mem_reverse.mpr h)
    simp at this
  | some w =>
    obtain ⟨before, after, hl, -⟩ := List.lookup_eq_some_iff.mp hg
    have hw : (name, w) ∈ layer := List.mem_reverse.mp (by simp [hl])
    rw [hs v w h hw]

theorem mem_ofKeys (hname : IsPlain name) {v : RawValue} :
    (name, v) ∈ ofKeys entries ↔
      (name, v) ∈ entries ∨ v = .composite ∧ ∃ e ∈ entries, leadsInto e.1 name = true := by
  constructor
  · intro h
    obtain ⟨⟨key, w⟩, he, hp⟩ := List.mem_map.mp h
    by_cases hkey : key = name
    · subst hkey
      rw [KeyPath.place_self hname] at hp
      exact .inl (hp ▸ he)
    · cases hl : leadsInto key name with
      | true =>
        rw [KeyPath.place_of_leadsInto hl] at hp
        exact .inr ⟨(Prod.mk.inj hp).2.symm, _, he, hl⟩
      | false => exact absurd (congrArg Prod.fst hp) (KeyPath.place_fst_ne hkey hl w)
  · rintro (h | ⟨rfl, e, he, hl⟩)
    · exact List.mem_map.mpr ⟨_, h, KeyPath.place_self hname v⟩
    · exact List.mem_map.mpr ⟨e, he, KeyPath.place_of_leadsInto hl e.2⟩

theorem Single.ofKeys (hname : IsPlain name) (hs : Single entries name)
    (hways : OneWay entries name) : Single (ofKeys entries) name := by
  intro v w hv hw
  rcases (mem_ofKeys hname).mp hv with hv | ⟨rfl, e, he, hl⟩ <;>
    rcases (mem_ofKeys hname).mp hw with hw | ⟨rfl, e', he', hl'⟩
  · exact hs v w hv hw
  · exact absurd (List.mem_map_of_mem hv) (hways e' he' hl')
  · exact absurd (List.mem_map_of_mem hw) (hways e he hl)
  · rfl

/-- **The value of a name in the layer of a source is what the source says of it.** -/
theorem get?_ofKeys (hname : IsPlain name) (hs : Single (ofKeys entries) name) :
    (ofKeys entries).get? name = given? entries name := by
  unfold given?
  split
  · rename_i v hv
    obtain ⟨before, after, hl, -⟩ := List.lookup_eq_some_iff.mp hv
    exact get?_of_mem hs ((mem_ofKeys hname).mpr (.inl (by simp [hl])))
  · rename_i hnone
    have hout (v : RawValue) : (name, v) ∉ entries := fun h => by
      simpa using List.lookup_eq_none_iff.mp hnone _ h
    split
    · rename_i hpath
      exact get?_of_mem hs ((mem_ofKeys hname).mpr (.inr ⟨rfl, List.any_eq_true.mp hpath⟩))
    · rename_i hpath
      refine get?_eq_none fun v hv => ?_
      rcases (mem_ofKeys hname).mp hv with h | ⟨-, h⟩
      · exact hout v h
      · exact hpath (List.any_eq_true.mpr h)

end Layer

namespace Environment

/-- What the variables give under their keys. -/
def given (environment : List (String × String)) : List (String × RawValue) :=
  environment.filterMap fun (name, text) => (key? name).map fun key => (key, valueOf text)

theorem map_fst_given (environment : List (String × String)) :
    (given environment).map Prod.fst = environment.filterMap fun v => key? v.1 := by
  simp [given, List.map_filterMap, Function.comp_def]

/-- Variables with different keys give a name one value at most. -/
theorem single {environment : List (String × String)}
    (h : (environment.filterMap fun v => key? v.1).Nodup) (name : String) :
    Layer.Single (given environment) name := by
  intro v w hv hw
  rw [← map_fst_given] at h
  exact (Prod.mk.inj (List.inj_on_of_nodup_map h hv hw rfl)).2

end Environment

end RecordFilter.Settings

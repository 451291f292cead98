import Mathlib.Data.List.Nodup

/-! Maps with a default: a key that is not there reads as the default, and changing what it
holds opens it with the default first. The keys stay in the order of their opening.
-/

namespace Cixtech.Foundation.DefaultMap

universe u v

variable {κ : Type u} {ν : Type v} [DecidableEq κ] (default : ν)

/-- `map.get(key) ?? default`. -/
def get (entries : List (κ × ν)) (key : κ) : ν :=
  ((entries.find? fun entry => entry.1 = key).map Prod.snd).getD default

/-- `map.set(key, change(map.get(key) ?? default))`. -/
def modify : List (κ × ν) → κ → (ν → ν) → List (κ × ν)
  | [], key, change => [(key, change default)]
  | (old, held) :: rest, key, change =>
      if old = key then (old, change held) :: rest else (old, held) :: modify rest key change

variable {default}

/-- A change is seen under its own key and under no other, by induction on the entries. -/
theorem get_modify (entries : List (κ × ν)) (key other : κ) (change : ν → ν)
    : get default (modify default entries key change) other
      = if other = key then change (get default entries key) else get default entries other := by
  induction entries with
  | nil =>
      by_cases same : other = key
      · simp [get, modify, same]
      · simp [get, modify, same, Ne.symm same]
  | cons entry rest ih =>
      obtain ⟨old, held⟩ := entry
      simp only [get] at ih
      by_cases here : old = key
      · by_cases same : other = key
        · simp [get, modify, here, same]
        · simp [get, modify, here, same, Ne.symm same]
      · by_cases own : old = other
        · have apart : ¬ other = key := fun same => here (own.trans same)
          simp [get, modify, own, apart]
        · simp [get, modify, here, own, ih]

theorem mem_keys_modify {entries : List (κ × ν)} {key other : κ} {change : ν → ν}
    : other ∈ (modify default entries key change).map Prod.fst
      ↔ other ∈ entries.map Prod.fst ∨ other = key := by
  induction entries with
  | nil => simp [modify]
  | cons entry rest ih =>
      obtain ⟨old, held⟩ := entry
      by_cases same : old = key
      · simp only [modify, if_pos same, List.map_cons, List.mem_cons]
        constructor
        · exact Or.inl
        · rintro (there | rfl)
          · exact there
          · exact .inl same.symm
      · simp only [modify, if_neg same, List.map_cons, List.mem_cons, ih, or_assoc]

theorem nodup_modify {entries : List (κ × ν)} (key : κ) (change : ν → ν)
    (distinct : (entries.map Prod.fst).Nodup)
    : ((modify default entries key change).map Prod.fst).Nodup := by
  induction entries with
  | nil => simp [modify]
  | cons entry rest ih =>
      obtain ⟨old, held⟩ := entry
      simp only [List.map_cons, List.nodup_cons] at distinct
      by_cases same : old = key
      · simp only [modify, if_pos same, List.map_cons]
        exact List.nodup_cons.mpr distinct
      · simp only [modify, if_neg same, List.map_cons, List.nodup_cons, mem_keys_modify]
        exact ⟨fun there => there.elim distinct.1 same, ih distinct.2⟩

/-- With distinct keys, an entry is what its key reads as. -/
theorem get_of_mem {entries : List (κ × ν)} {entry : κ × ν}
    (distinct : (entries.map Prod.fst).Nodup) (member : entry ∈ entries)
    : get default entries entry.1 = entry.2 := by
  induction entries with
  | nil => cases member
  | cons head rest ih =>
      simp only [List.map_cons, List.nodup_cons] at distinct
      rcases List.mem_cons.mp member with rfl | later
      · simp [get]
      · have apart : head.1 ≠ entry.1 := fun same =>
          distinct.1 (same ▸ List.mem_map_of_mem later)
        simpa [get, apart] using ih distinct.2 later

end Cixtech.Foundation.DefaultMap

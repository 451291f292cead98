import Cixtech.Foundation.Accumulator
import Cixtech.Foundation.Table
import Mathlib.Algebra.BigOperators.Group.Finset.Piecewise
import Mathlib.Data.List.Perm.Basic

/-! Tallies and insertions do not depend on the order of their items: the totals of a
rearranged list are the same totals, and a table takes the same rows from it where items of
one key are equal.
-/

namespace Cixtech.Foundation

universe u v

namespace Accumulator

variable {κ : Type u} {ι : Type v} [DecidableEq κ]

/-- With distinct keys, an entry is the total kept under its key. -/
theorem valueAt_of_mem {totals : List (κ × Int)} {entry : κ × Int}
    (distinct : (totals.map Prod.fst).Nodup) (member : entry ∈ totals)
    : valueAt totals entry.1 = entry.2 := by
  have found : totals.find? (fun other => other.1 = entry.1) = some entry :=
    Table.lookup_of_mem distinct member
  simp [valueAt, found]

/-- No total is kept under a key that was not opened. -/
theorem valueAt_of_absent {totals : List (κ × Int)} {key : κ}
    (absent : key ∉ totals.map Prod.fst)
    : valueAt totals key = 0 := by
  have none : totals.find? (fun entry => entry.1 = key) = none := by
    simp only [List.find?_eq_none, decide_eq_true_eq]
    exact fun entry member same => absent (List.mem_map.mpr ⟨entry, member, same⟩)
  simp [valueAt, none]

/-- With distinct keys, the totals are the values under the keys. -/
theorem mem_iff_valueAt {totals : List (κ × Int)} (distinct : (totals.map Prod.fst).Nodup)
    {key : κ} {value : Int}
    : (key, value) ∈ totals ↔ key ∈ totals.map Prod.fst ∧ valueAt totals key = value := by
  constructor
  · intro member
    exact ⟨List.mem_map_of_mem member, valueAt_of_mem distinct member⟩
  · rintro ⟨opened, same⟩
    obtain ⟨entry, member, rfl⟩ := List.mem_map.mp opened
    rw [valueAt_of_mem distinct member] at same
    exact same ▸ member

/-- The keys of a tally are those it started with and those of the items, by induction on
the items.
-/
theorem mem_keys_tally_iff {key : ι → κ} {delta : ι → Int} {totals : List (κ × Int)}
    {items : List ι} {other : κ}
    : other ∈ (tally key delta totals items).map Prod.fst
      ↔ other ∈ totals.map Prod.fst ∨ ∃ item ∈ items, key item = other := by
  refine ⟨mem_keys_tally, ?_⟩
  induction items generalizing totals with
  | nil => simp [tally]
  | cons item rest ih =>
      intro held
      refine ih ?_
      rcases held with old | ⟨found, member, rfl⟩
      · exact .inl (mem_keys_add.mpr (.inl old))
      · rcases List.mem_cons.mp member with rfl | later
        · exact .inl (mem_keys_add.mpr (.inr rfl))
        · exact .inr ⟨found, later, rfl⟩

/-- The total under a key is the sum of the deltas of the items that have it. -/
theorem valueAt_tally (key : ι → κ) (delta : ι → Int) (items : List ι) (other : κ)
    : valueAt (tally key delta [] items) other
      = (items.map fun item => if key item = other then delta item else 0).sum := by
  have distinct : ((tally key delta [] items).map Prod.fst).Nodup :=
    nodup_tally key delta items List.nodup_nil
  rw [valueAt_eq_sumWhere other distinct, sumWhere_tally]
  simp

/-- Rearranging the items rearranges the totals. -/
theorem tally_perm (key : ι → κ) (delta : ι → Int) {items again : List ι}
    (same : items.Perm again)
    : (tally key delta [] items).Perm (tally key delta [] again) := by
  have distinct : ∀ list, ((tally key delta [] list).map Prod.fst).Nodup := fun list =>
    nodup_tally key delta list List.nodup_nil
  refine (List.perm_ext_iff_of_nodup (distinct items).of_map (distinct again).of_map).mpr ?_
  rintro ⟨other, value⟩
  have sums := (same.map fun item => if key item = other then delta item else 0).sum_eq
  rw [mem_iff_valueAt (distinct items), mem_iff_valueAt (distinct again), valueAt_tally,
    valueAt_tally, sums, mem_keys_tally_iff, mem_keys_tally_iff]
  simp [same.mem_iff]

/-- A selected sum of totals with distinct keys, over any keys that cover them. -/
theorem sumWhere_eq_sum (select : κ → Bool) {totals : List (κ × Int)}
    (distinct : (totals.map Prod.fst).Nodup) {keys : Finset κ}
    (covered : ∀ key ∈ totals.map Prod.fst, key ∈ keys)
    : sumWhere select totals
      = ∑ key ∈ keys, if select key then valueAt totals key else 0 := by
  induction totals with
  | nil => simp [valueAt]
  | cons entry rest ih =>
      obtain ⟨own, value⟩ := entry
      simp only [List.map_cons, List.nodup_cons] at distinct
      have inKeys : own ∈ keys := covered own (by simp)
      have others := ih distinct.2 fun key member => covered key (List.mem_cons_of_mem _ member)
      have absent : valueAt rest own = 0 := valueAt_of_absent distinct.1
      -- Only the summand of the first key changes.
      have each : ∀ key, (if select key then valueAt ((own, value) :: rest) key else 0)
          = (if key = own then if select own then value else 0 else 0)
            + if select key then valueAt rest key else 0 := by
        intro key
        by_cases same : key = own
        · subst same
          have held : valueAt ((key, value) :: rest) key = value := by simp [valueAt]
          simp [held, absent]
        · have apart : ¬ own = key := Ne.symm same
          simp [valueAt, same, apart]
      simp only [sumWhere_cons, each, Finset.sum_add_distrib, Finset.sum_ite_eq', inKeys, if_true,
        others]

/-- Totals with distinct keys that hold the same under every key have the same selected sums.
-/
theorem sumWhere_congr (select : κ → Bool) {totals others : List (κ × Int)}
    (distinct : (totals.map Prod.fst).Nodup) (distinctOthers : (others.map Prod.fst).Nodup)
    (same : ∀ key, valueAt totals key = valueAt others key)
    : sumWhere select totals = sumWhere select others := by
  let keys : Finset κ := (totals.map Prod.fst ++ others.map Prod.fst).toFinset
  have covers : ∀ key ∈ totals.map Prod.fst, key ∈ keys := fun key member =>
    List.mem_toFinset.mpr (List.mem_append_left _ member)
  have coversOthers : ∀ key ∈ others.map Prod.fst, key ∈ keys := fun key member =>
    List.mem_toFinset.mpr (List.mem_append_right _ member)
  rw [sumWhere_eq_sum select distinct covers, sumWhere_eq_sum select distinctOthers coversOthers]
  exact Finset.sum_congr rfl fun key _ => by rw [same]

end Accumulator

namespace Table

variable {ρ : Type u} {κ : Type v} [DecidableEq κ] {key : ρ → κ}

/-- Items of one key are equal. -/
def Consistent (key : ρ → κ) (items : List ρ) : Prop :=
  ∀ item ∈ items, ∀ other ∈ items, key item = key other → item = other

/-- An empty table takes every item of a consistent list. -/
theorem mem_insertAll_of_consistent {items : List ρ} (consistent : Consistent key items)
    {row : ρ}
    : row ∈ insertAll key [] items ↔ row ∈ items := by
  have inserted : ∀ {other}, other ∈ insertAll key [] items → other ∈ items := by
    intro other member
    rcases mem_insertAll.mp member with old | ⟨-, earlier, later, split, -⟩
    · cases old
    · rw [split]
      exact List.mem_append_right _ List.mem_cons_self
  refine ⟨inserted, fun member => ?_⟩
  have taken : key row ∈ (insertAll key [] items).map key :=
    mem_keys_insertAll.mpr (.inr (List.mem_map_of_mem member))
  obtain ⟨other, present, same⟩ := List.mem_map.mp taken
  exact consistent other (inserted present) row member same ▸ present

/-- Lists of the same items put the same rows into an empty table, in some order. -/
theorem insertAll_perm {items again : List ρ} (consistent : Consistent key items)
    (same : ∀ item, item ∈ again ↔ item ∈ items)
    : (insertAll key [] items).Perm (insertAll key [] again) := by
  have consistentAgain : Consistent key again := fun item member other inAgain =>
    consistent item ((same item).mp member) other ((same other).mp inAgain)
  have distinct : ∀ list : List ρ, (insertAll key [] list).Nodup := by
    intro list
    have keys : ((insertAll key [] list).map key).Nodup := nodup_insertAll list (by simp)
    exact keys.of_map
  refine (List.perm_ext_iff_of_nodup (distinct items) (distinct again)).mpr fun row => ?_
  rw [mem_insertAll_of_consistent consistent, mem_insertAll_of_consistent consistentAgain, same]

end Table

end Cixtech.Foundation

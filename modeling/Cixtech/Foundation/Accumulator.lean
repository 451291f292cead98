import Mathlib.Algebra.BigOperators.Group.List.Basic
import Mathlib.Algebra.Ring.Int.Defs
import Mathlib.Data.List.Nodup

/-! Running totals kept under keys: a fold that adds each item's delta to the entry of its
key, opening the entry where there is none. The sum of the entries that satisfy a predicate
is the sum of the deltas that do.
-/

namespace Cixtech.Foundation.Accumulator

universe u v w

variable {κ : Type u} {ι : Type v}

/-- The sum of the totals whose keys are selected. -/
def sumWhere (select : κ → Bool) (totals : List (κ × Int)) : Int :=
  (totals.map fun entry => if select entry.1 then entry.2 else 0).sum

@[simp]
theorem sumWhere_nil (select : κ → Bool)
    : sumWhere select ([] : List (κ × Int)) = 0 := rfl

@[simp]
theorem sumWhere_cons (select : κ → Bool) (entry : κ × Int) (rest : List (κ × Int))
    : sumWhere select (entry :: rest)
      = (if select entry.1 then entry.2 else 0) + sumWhere select rest := rfl

variable [DecidableEq κ]

/-- Add `delta` to the total kept under `key`. -/
def add : List (κ × Int) → κ → Int → List (κ × Int)
  | [], key, delta => [(key, delta)]
  | (old, amount) :: rest, key, delta =>
      if old = key then (old, amount + delta) :: rest
      else (old, amount) :: add rest key delta

/-- Add one delta for each item, in order. -/
def tally (key : ι → κ) (delta : ι → Int) (totals : List (κ × Int)) (items : List ι)
    : List (κ × Int) :=
  items.foldl (fun acc item => add acc (key item) (delta item)) totals

/-- The total kept under a key, zero where none is kept. -/
def valueAt (totals : List (κ × Int)) (key : κ) : Int :=
  ((totals.find? fun entry => entry.1 = key).map Prod.snd).getD 0

/-- Adding a delta moves a selected sum by the delta where the key is selected, by
induction on the totals.
-/
theorem sumWhere_add (select : κ → Bool) (totals : List (κ × Int)) (key : κ) (delta : Int)
    : sumWhere select (add totals key delta)
      = sumWhere select totals + if select key then delta else 0 := by
  induction totals with
  | nil => simp [add]
  | cons entry rest ih =>
      obtain ⟨old, amount⟩ := entry
      by_cases same : old = key
      · cases chosen : select key <;> simp [add, same, chosen]
        omega
      · simp only [add, if_neg same, sumWhere_cons, ih]
        omega

/-- A whole tally moves a selected sum by the selected deltas, by induction on the items. -/
theorem sumWhere_tally (select : κ → Bool) (key : ι → κ) (delta : ι → Int)
    (totals : List (κ × Int)) (items : List ι)
    : sumWhere select (tally key delta totals items)
      = sumWhere select totals
        + (items.map fun item => if select (key item) then delta item else 0).sum := by
  induction items generalizing totals with
  | nil => simp [tally]
  | cons item rest ih =>
      have peel : tally key delta totals (item :: rest)
          = tally key delta (add totals (key item) (delta item)) rest := rfl
      rw [peel, ih, sumWhere_add, List.map_cons, List.sum_cons, Int.add_assoc]

/-- The keys of a total are those it had and the one just added. -/
theorem mem_keys_add {totals : List (κ × Int)} {key other : κ} {delta : Int}
    : other ∈ (add totals key delta).map Prod.fst
      ↔ other ∈ totals.map Prod.fst ∨ other = key := by
  induction totals with
  | nil => simp [add]
  | cons entry rest ih =>
      obtain ⟨old, amount⟩ := entry
      by_cases same : old = key
      · simp only [add, if_pos same, List.map_cons, List.mem_cons]
        constructor
        · exact Or.inl
        · rintro (held | rfl)
          · exact held
          · exact .inl same.symm
      · simp only [add, if_neg same, List.map_cons, List.mem_cons, ih, or_assoc]

theorem nodup_add {totals : List (κ × Int)} (key : κ) (delta : Int)
    (distinct : (totals.map Prod.fst).Nodup)
    : ((add totals key delta).map Prod.fst).Nodup := by
  induction totals with
  | nil => simp [add]
  | cons entry rest ih =>
      obtain ⟨old, amount⟩ := entry
      simp only [List.map_cons, List.nodup_cons] at distinct
      by_cases same : old = key
      · simp only [add, if_pos same, List.map_cons]
        exact List.nodup_cons.mpr distinct
      · simp only [add, if_neg same, List.map_cons, List.nodup_cons, mem_keys_add]
        exact ⟨fun held => held.elim distinct.1 same, ih distinct.2⟩

theorem nodup_tally (key : ι → κ) (delta : ι → Int) {totals : List (κ × Int)}
    (items : List ι) (distinct : (totals.map Prod.fst).Nodup)
    : ((tally key delta totals items).map Prod.fst).Nodup := by
  induction items generalizing totals with
  | nil => exact distinct
  | cons item rest ih => exact ih (nodup_add _ _ distinct)

/-- The keys of a tally are those it started with and those of the items. -/
theorem mem_keys_tally {key : ι → κ} {delta : ι → Int} {totals : List (κ × Int)}
    {items : List ι} {other : κ} (member : other ∈ (tally key delta totals items).map Prod.fst)
    : other ∈ totals.map Prod.fst ∨ ∃ item ∈ items, key item = other := by
  induction items generalizing totals with
  | nil => exact .inl member
  | cons item rest ih =>
      have behind
          : other ∈ (tally key delta (add totals (key item) (delta item)) rest).map Prod.fst :=
        member
      rcases ih behind with held | later
      · rcases mem_keys_add.mp held with old | rfl
        · exact .inl old
        · exact .inr ⟨item, List.mem_cons_self, rfl⟩
      · obtain ⟨other, inRest, same⟩ := later
        exact .inr ⟨other, List.mem_cons_of_mem _ inRest, same⟩

/-- With distinct keys, the total under one key is the sum that selects only that key. -/
theorem valueAt_eq_sumWhere {totals : List (κ × Int)} (key : κ)
    (distinct : (totals.map Prod.fst).Nodup)
    : valueAt totals key = sumWhere (fun other => decide (other = key)) totals := by
  induction totals with
  | nil => rfl
  | cons entry rest ih =>
      obtain ⟨old, amount⟩ := entry
      simp only [List.map_cons, List.nodup_cons] at distinct
      have later := ih distinct.2
      by_cases same : old = key
      · have absent : ∀ entry ∈ rest, ¬ decide (entry.1 = key) = true := by
          intro entry member hit
          exact distinct.1
            (same ▸ of_decide_eq_true hit ▸ List.mem_map_of_mem member)
        have missing : valueAt rest key = 0 := by
          simp [valueAt, List.find?_eq_none.mpr absent]
        rw [sumWhere_cons, ← later, missing]
        simp [valueAt, same]
      · rw [sumWhere_cons, ← later]
        simp [valueAt, same]

/-- Every total vanishes exactly when the sum selected by each single key does. -/
theorem all_zero_iff {totals : List (κ × Int)} (distinct : (totals.map Prod.fst).Nodup)
    : (∀ entry ∈ totals, entry.2 = 0)
      ↔ ∀ key, sumWhere (fun other => decide (other = key)) totals = 0 := by
  induction totals with
  | nil => simp
  | cons entry rest ih =>
      obtain ⟨old, amount⟩ := entry
      simp only [List.map_cons, List.nodup_cons] at distinct
      have absent : sumWhere (fun other => decide (other = old)) rest = 0 := by
        rw [← valueAt_eq_sumWhere old distinct.2]
        have none : ∀ entry ∈ rest, ¬ decide (entry.1 = old) = true := fun entry member hit =>
          distinct.1 (of_decide_eq_true hit ▸ List.mem_map_of_mem member)
        simp [valueAt, List.find?_eq_none.mpr none]
      constructor
      · intro zero key
        have restZero := (ih distinct.2).mp (fun e m => zero e (List.mem_cons_of_mem _ m)) key
        have headZero : amount = 0 := zero (old, amount) List.mem_cons_self
        simp [restZero, headZero]
      · intro zero
        have headZero : amount = 0 := by simpa [absent] using zero old
        have restZero : ∀ key, sumWhere (fun other => decide (other = key)) rest = 0 := by
          intro key
          simpa [headZero] using zero key
        intro e member
        rcases List.mem_cons.mp member with rfl | later
        · exact headZero
        · exact (ih distinct.2).mpr restZero e later

-----------------------------------------------------------------------------
-- Accumulators keyed by a tag of the key

variable {τ : Type w} [DecidableEq τ]

/-- Add `delta` to the entry whose key carries the same tag, keeping the key it was opened
with.
-/
def addBy (tag : κ → τ) : List (κ × Int) → κ → Int → List (κ × Int)
  | [], key, delta => [(key, delta)]
  | (old, amount) :: rest, key, delta =>
      if tag old = tag key then (old, amount + delta) :: rest
      else (old, amount) :: addBy tag rest key delta

def tallyBy (tag : κ → τ) (key : ι → κ) (delta : ι → Int) (totals : List (κ × Int))
    (items : List ι)
    : List (κ × Int) :=
  items.foldl (fun acc item => addBy tag acc (key item) (delta item)) totals

/-- A tag that tells the new key from the others makes no difference to the addition. -/
theorem addBy_eq_add {tag : κ → τ} {totals : List (κ × Int)} {key : κ}
    (delta : Int) (telling : ∀ old ∈ totals.map Prod.fst, tag old = tag key → old = key)
    : addBy tag totals key delta = add totals key delta := by
  induction totals with
  | nil => rfl
  | cons entry rest ih =>
      obtain ⟨old, amount⟩ := entry
      have restTelling : ∀ old ∈ rest.map Prod.fst, tag old = tag key → old = key :=
        fun other member => telling other (List.mem_cons_of_mem _ member)
      by_cases same : old = key
      · simp [addBy, add, same]
      · have apart : ¬ tag old = tag key := fun hit => same (telling old (by simp) hit)
        simp only [addBy, add, if_neg apart, if_neg same, ih restTelling]

/-- A tag that tells all keys of the items apart makes no difference to the tally. -/
theorem tallyBy_eq_tally {tag : κ → τ} {key : ι → κ} (delta : ι → Int) {items : List ι}
    {totals : List (κ × Int)}
    (telling : ∀ item ∈ items, ∀ other ∈ items, tag (key item) = tag (key other)
      → key item = key other)
    (opened : ∀ old ∈ totals.map Prod.fst, ∀ item ∈ items, tag old = tag (key item)
      → old = key item)
    : tallyBy tag key delta totals items = tally key delta totals items := by
  induction items generalizing totals with
  | nil => rfl
  | cons item rest ih =>
      have first : addBy tag totals (key item) (delta item)
          = add totals (key item) (delta item) :=
        addBy_eq_add _ fun old member => opened old member item List.mem_cons_self
      have restOpened : ∀ old ∈ (add totals (key item) (delta item)).map Prod.fst,
          ∀ other ∈ rest, tag old = tag (key other) → old = key other := by
        intro old member other inRest
        rcases mem_keys_add.mp member with held | rfl
        · exact opened old held other (List.mem_cons_of_mem _ inRest)
        · exact telling item List.mem_cons_self other (List.mem_cons_of_mem _ inRest)
      have restTelling : ∀ i ∈ rest, ∀ j ∈ rest, tag (key i) = tag (key j) → key i = key j :=
        fun i hi j hj => telling i (List.mem_cons_of_mem _ hi) j (List.mem_cons_of_mem _ hj)
      simpa only [tallyBy, tally, List.foldl_cons, first] using ih restTelling restOpened

end Cixtech.Foundation.Accumulator

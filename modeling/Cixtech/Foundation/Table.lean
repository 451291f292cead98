import Mathlib.Algebra.BigOperators.Group.List.Basic
import Mathlib.Algebra.Ring.Int.Defs
import Mathlib.Data.List.Nodup

/-! Tables with a primary key: the insert-or-ignore, update and delete statements of a
relational store, and what each leaves in the row of a given key.
-/

namespace Cixtech.Foundation.Table

universe u v

variable {ρ : Type u} {κ : Type v} [DecidableEq κ] (key : ρ → κ)

/-- `SELECT … WHERE key = k`, which a primary key makes at most one row. -/
def lookup (rows : List ρ) (k : κ) : Option ρ := rows.find? fun row => key row = k

/-- `INSERT … ON CONFLICT DO NOTHING`. -/
def insertIgnore (rows : List ρ) (row : ρ) : List ρ :=
  if (lookup key rows (key row)).isSome then rows else rows ++ [row]

/-- One insert-or-ignore after another. -/
def insertAll (rows items : List ρ) : List ρ := items.foldl (insertIgnore key) rows

/-- `UPDATE … WHERE key = k`. -/
def update (rows : List ρ) (k : κ) (change : ρ → ρ) : List ρ :=
  rows.map fun row => if key row = k then change row else row

/-- `INSERT … ON CONFLICT (key) DO UPDATE`. -/
def upsert (rows : List ρ) (row : ρ) (change : ρ → ρ) : List ρ :=
  if (lookup key rows (key row)).isSome then update key rows (key row) change else rows ++ [row]

/-- `DELETE … WHERE`, keeping the rows that do not match. -/
def delete (rows : List ρ) (gone : ρ → Bool) : List ρ := rows.filter fun row => !gone row

variable {key}

theorem lookup_key {rows : List ρ} {k : κ} {row : ρ} (found : lookup key rows k = some row)
    : key row = k := by
  simpa using List.find?_some found

theorem lookup_mem {rows : List ρ} {k : κ} {row : ρ} (found : lookup key rows k = some row)
    : row ∈ rows :=
  List.mem_of_find?_eq_some found

@[simp]
theorem lookup_nil (k : κ) : lookup key ([] : List ρ) k = none := rfl

theorem lookup_append (left right : List ρ) (k : κ)
    : lookup key (left ++ right) k = (lookup key left k).or (lookup key right k) := by
  simp [lookup, List.find?_append]

theorem lookup_singleton (row : ρ) (k : κ)
    : lookup key [row] k = if key row = k then some row else none := by
  by_cases same : key row = k <;> simp [lookup, same]

/-- With distinct keys every row is the one its key selects. -/
theorem lookup_of_mem {rows : List ρ} {row : ρ} (distinct : (rows.map key).Nodup)
    (member : row ∈ rows)
    : lookup key rows (key row) = some row := by
  induction rows with
  | nil => cases member
  | cons head rest ih =>
      simp only [List.map_cons, List.nodup_cons] at distinct
      rcases List.mem_cons.mp member with same | later
      · simp [lookup, same]
      · have apart : key head ≠ key row := by
          intro same
          exact distinct.1 (same ▸ List.mem_map_of_mem later)
        simpa [lookup, List.find?_cons_of_neg, apart] using ih distinct.2 later

/-- With distinct keys the rows of a key are the one row that has it, by induction on the
rows.
-/
theorem filter_key_of_mem {rows : List ρ} {row : ρ} (distinct : (rows.map key).Nodup)
    (member : row ∈ rows)
    : rows.filter (fun other => key other = key row) = [row] := by
  induction rows with
  | nil => cases member
  | cons head rest ih =>
      simp only [List.map_cons, List.nodup_cons, List.mem_map, not_exists, not_and] at distinct
      rcases List.mem_cons.mp member with rfl | later
      · have none : rest.filter (fun other => key other = key row) = [] := by
          simpa using distinct.1
        simp [none]
      · have apart : key head ≠ key row := fun same => distinct.1 row later same.symm
        simpa [apart] using ih distinct.2 later

/-- Insert-or-ignore leaves the old row of the key where there was one. -/
theorem lookup_insertIgnore (rows : List ρ) (row : ρ) (k : κ)
    : lookup key (insertIgnore key rows row) k
      = (lookup key rows k).or (if key row = k then some row else none) := by
  unfold insertIgnore
  split
  case isTrue present =>
    by_cases same : key row = k
    · obtain ⟨old, found⟩ := Option.isSome_iff_exists.mp present
      rw [← same, found]
      rfl
    · simp [same]
  case isFalse absent => rw [lookup_append, lookup_singleton]

theorem lookup_insertIgnore_of_some {rows : List ρ} {row old : ρ} {k : κ}
    (found : lookup key rows k = some old)
    : lookup key (insertIgnore key rows row) k = some old := by
  rw [lookup_insertIgnore, found]
  rfl

/-- An insert is ignored exactly where its key is taken. -/
theorem insertIgnore_eq (rows : List ρ) (row : ρ)
    : insertIgnore key rows row = if key row ∈ rows.map key then rows else rows ++ [row] := by
  have taken : (lookup key rows (key row)).isSome = true ↔ key row ∈ rows.map key := by
    simp [lookup, List.find?_isSome]
  by_cases here : key row ∈ rows.map key
  · rw [insertIgnore, if_pos (taken.mpr here), if_pos here]
  · rw [insertIgnore, if_neg fun present => here (taken.mp present), if_neg here]

@[simp]
theorem insertAll_nil (rows : List ρ) : insertAll key rows [] = rows := rfl

@[simp]
theorem insertAll_cons (rows : List ρ) (item : ρ) (rest : List ρ)
    : insertAll key rows (item :: rest) = insertAll key (insertIgnore key rows item) rest := rfl

theorem insertAll_append (rows first later : List ρ)
    : insertAll key rows (first ++ later) = insertAll key (insertAll key rows first) later :=
  List.foldl_append

theorem mem_keys_insertAll {rows items : List ρ} {k : κ}
    : k ∈ (insertAll key rows items).map key ↔ k ∈ rows.map key ∨ k ∈ items.map key := by
  induction items generalizing rows with
  | nil => simp
  | cons item rest ih =>
      rw [insertAll_cons, ih, insertIgnore_eq]
      split
      case isTrue taken =>
        constructor
        · rintro (old | later)
          · exact .inl old
          · exact .inr (by simp only [List.map_cons, List.mem_cons]; exact .inr later)
        · rintro (old | new)
          · exact .inl old
          · rcases List.mem_cons.mp new with rfl | later
            · exact .inl taken
            · exact .inr later
      case isFalse => simp only [List.map_append, List.map_cons, List.map_nil, List.mem_append,
        List.mem_cons, List.not_mem_nil, or_false, or_assoc]

/-- The rows after a series of inserts are the old ones and the first item of each new key,
by induction on the items.
-/
theorem mem_insertAll {rows items : List ρ} {row : ρ}
    : row ∈ insertAll key rows items
      ↔ row ∈ rows
        ∨ key row ∉ rows.map key
          ∧ ∃ earlier later, items = earlier ++ row :: later ∧ key row ∉ earlier.map key := by
  induction items generalizing rows with
  | nil => simp
  | cons item rest ih =>
      rw [insertAll_cons, ih, insertIgnore_eq]
      constructor
      · rintro (present | ⟨fresh, earlier, later, rfl, first⟩)
        · split at present
          · exact .inl present
          case isFalse absent =>
            rcases List.mem_append.mp present with old | last
            · exact .inl old
            · obtain rfl := List.mem_singleton.mp last
              exact .inr ⟨absent, [], rest, rfl, by simp⟩
        · split at fresh
          case isTrue taken =>
            refine .inr ⟨fresh, item :: earlier, later, rfl, ?_⟩
            simp only [List.map_cons, List.mem_cons, not_or]
            exact ⟨fun same => fresh (same ▸ taken), first⟩
          case isFalse absent =>
            simp only [List.map_append, List.map_cons, List.map_nil, List.mem_append,
              List.mem_singleton, not_or] at fresh
            refine .inr ⟨fresh.1, item :: earlier, later, rfl, ?_⟩
            simp only [List.map_cons, List.mem_cons, not_or]
            exact ⟨fresh.2, first⟩
      · rintro (old | ⟨fresh, earlier, later, split, first⟩)
        · refine .inl ?_
          split
          · exact old
          · exact List.mem_append_left _ old
        · cases earlier with
          | nil =>
              obtain ⟨rfl, rfl⟩ := List.cons.inj split
              rw [if_neg fresh]
              exact .inl (by simp)
          | cons head before =>
              obtain ⟨rfl, rfl⟩ := List.cons.inj split
              simp only [List.map_cons, List.mem_cons, not_or] at first
              refine .inr ⟨?_, before, later, rfl, first.2⟩
              split
              · exact fresh
              · simp only [List.map_append, List.map_cons, List.map_nil, List.mem_append,
                  List.mem_singleton, not_or]
                exact ⟨fresh, first.1⟩

/-- An update that keeps the key changes exactly the row it names. -/
theorem lookup_update (rows : List ρ) (k target : κ) (change : ρ → ρ)
    (keeps : ∀ row, key (change row) = key row)
    : lookup key (update key rows target change) k
      = if k = target then (lookup key rows k).map change else lookup key rows k := by
  induction rows with
  | nil => simp [update]
  | cons head rest ih =>
      simp only [update, lookup, List.map_cons, List.find?_cons] at ih ⊢
      by_cases hit : key head = target <;> by_cases wanted : key head = k
      · simp [hit, keeps, ← wanted]
      · have apart : k ≠ target := fun same => wanted (hit.trans same.symm)
        have missed : ¬ target = k := Ne.symm apart
        rw [if_neg apart] at ih ⊢
        simpa [hit, keeps, missed] using ih
      · have apart : k ≠ target := fun same => hit (wanted.trans same)
        simp [wanted, apart]
      · simpa [hit, wanted] using ih

theorem nodup_insertIgnore {rows : List ρ} (row : ρ) (distinct : (rows.map key).Nodup)
    : ((insertIgnore key rows row).map key).Nodup := by
  unfold insertIgnore
  split
  case isTrue => exact distinct
  case isFalse absent =>
    have fresh : key row ∉ rows.map key := by
      intro member
      obtain ⟨old, inRows, same⟩ := List.mem_map.mp member
      have found := lookup_of_mem distinct inRows
      rw [same] at found
      exact absent (by simp [found])
    rw [List.map_append, List.map_cons, List.map_nil]
    exact distinct.append (by simp) (by simpa using fresh)

theorem nodup_insertAll {rows : List ρ} (items : List ρ) (distinct : (rows.map key).Nodup)
    : ((insertAll key rows items).map key).Nodup := by
  induction items generalizing rows with
  | nil => exact distinct
  | cons item rest ih => exact ih (nodup_insertIgnore item distinct)

/-- Inserts whose keys are all new to the table land behind its rows as they land in an
empty table.
-/
theorem insertAll_of_new {rows items : List ρ} (new : ∀ item ∈ items, key item ∉ rows.map key)
    : insertAll key rows items = rows ++ insertAll key [] items := by
  have behind : ∀ {landed : List ρ},
      insertAll key (rows ++ landed) items = rows ++ insertAll key landed items := by
    induction items with
    | nil => simp
    | cons item rest ih =>
        intro landed
        have later := @ih fun other member => new other (List.mem_cons_of_mem _ member)
        have fresh := new item List.mem_cons_self
        simp only [insertAll_cons, insertIgnore_eq, List.map_append, List.mem_append, fresh,
          false_or]
        split
        · exact later
        · rw [List.append_assoc]
          exact later
  simpa using @behind []

/-- Inserting images is taking the images of what the composed key inserts. -/
theorem insertAll_map {ι : Type*} (f : ι → ρ) (rows items : List ι)
    : insertAll key (rows.map f) (items.map f)
      = (insertAll (fun item => key (f item)) rows items).map f := by
  induction items generalizing rows with
  | nil => rfl
  | cons item rest ih =>
      have keys : (rows.map f).map key = rows.map fun item => key (f item) := List.map_map
      rw [List.map_cons, insertAll_cons, insertAll_cons, ← ih, insertIgnore_eq, insertIgnore_eq,
        keys]
      by_cases taken : key (f item) ∈ rows.map fun item => key (f item)
      · rw [if_pos taken, if_pos taken]
      · rw [if_neg taken, if_neg taken, List.map_append, List.map_cons, List.map_nil]

theorem nodup_update {rows : List ρ} (k : κ) (change : ρ → ρ)
    (keeps : ∀ row, key (change row) = key row) (distinct : (rows.map key).Nodup)
    : ((update key rows k change).map key).Nodup := by
  have same : (update key rows k change).map key = rows.map key := by
    simp only [update, List.map_map]
    refine List.map_congr_left fun row _ => ?_
    by_cases hit : key row = k <;> simp [hit, keeps]
  rwa [same]

/-- An upsert writes the row of its own key: the changed one, or the new one where there was
none.
-/
theorem lookup_upsert (rows : List ρ) (row : ρ) (change : ρ → ρ) (k : κ)
    (keeps : ∀ row, key (change row) = key row)
    : lookup key (upsert key rows row change) k
      = if k = key row then some (((lookup key rows k).map change).getD row)
        else lookup key rows k := by
  unfold upsert
  split
  case isTrue present =>
    rw [lookup_update _ _ _ change keeps]
    by_cases same : k = key row
    · obtain ⟨old, found⟩ := Option.isSome_iff_exists.mp present
      rw [if_pos same, if_pos same, same, found]
      rfl
    · rw [if_neg same, if_neg same]
  case isFalse absent =>
    rw [lookup_append, lookup_singleton]
    by_cases same : k = key row
    · rw [same, Option.not_isSome_iff_eq_none.mp absent]
      simp
    · simp [same, Ne.symm same]

theorem nodup_upsert {rows : List ρ} (row : ρ) (change : ρ → ρ)
    (keeps : ∀ row, key (change row) = key row) (distinct : (rows.map key).Nodup)
    : ((upsert key rows row change).map key).Nodup := by
  unfold upsert
  split
  case isTrue => exact nodup_update _ change keeps distinct
  case isFalse absent =>
    have inserted := nodup_insertIgnore row distinct
    rwa [insertIgnore, if_neg absent] at inserted

/-- A deletion that spares the rows of a key leaves its lookup alone, by induction on the
rows.
-/
theorem lookup_delete_of_kept {rows : List ρ} {gone : ρ → Bool} {k : κ}
    (kept : ∀ row ∈ rows, key row = k → gone row = false)
    : lookup key (delete rows gone) k = lookup key rows k := by
  induction rows with
  | nil => rfl
  | cons row rest ih =>
      have later := ih fun other member => kept other (List.mem_cons_of_mem _ member)
      simp only [lookup, delete, List.filter_cons] at later ⊢
      cases spared : gone row with
      | false => simp [List.find?_cons, later]
      | true =>
          have missed : ¬ key row = k := by
            intro same
            rw [kept row List.mem_cons_self same] at spared
            cases spared
          simpa [missed] using later

/-- A deletion that spares the row a key selects leaves it selected, by induction on the
rows.
-/
theorem lookup_delete_of_spared {rows : List ρ} {gone : ρ → Bool} {k : κ} {row : ρ}
    (found : lookup key rows k = some row) (spared : gone row = false)
    : lookup key (delete rows gone) k = some row := by
  induction rows with
  | nil => cases found
  | cons head rest ih =>
      simp only [lookup, delete, List.find?_cons] at found ih ⊢
      by_cases here : key head = k
      · simp only [here, decide_true, Option.some.injEq] at found
        subst found
        simp [spared, here]
      · simp only [here, decide_false] at found
        cases kept : gone head with
        | false => simpa [kept, here] using ih found
        | true => simpa [kept] using ih found

omit [DecidableEq κ] in
/-- A sum over the rows whose summand changes at one key changes by as much, by induction on
the rows.
-/
theorem sum_change {rows : List ρ} {target : ρ} {f g : ρ → Int}
    (distinct : (rows.map key).Nodup) (member : target ∈ rows)
    (others : ∀ row ∈ rows, key row ≠ key target → g row = f row)
    : (rows.map g).sum = (rows.map f).sum - f target + g target := by
  induction rows with
  | nil => cases member
  | cons head rest ih =>
      simp only [List.map_cons, List.nodup_cons, List.mem_map, not_exists, not_and] at distinct
      simp only [List.map_cons, List.sum_cons]
      rcases List.mem_cons.mp member with rfl | later
      · have same : rest.map g = rest.map f := by
          refine List.map_congr_left fun row inRest => ?_
          exact others row (List.mem_cons_of_mem _ inRest) (distinct.1 row inRest)
        rw [same]
        omega
      · have apart : key head ≠ key target := fun same => distinct.1 target later same.symm
        have rest := ih distinct.2 later fun row inRest =>
          others row (List.mem_cons_of_mem _ inRest)
        rw [rest, others head List.mem_cons_self apart]
        omega

theorem mem_delete {rows : List ρ} {gone : ρ → Bool} {row : ρ}
    : row ∈ delete rows gone ↔ row ∈ rows ∧ gone row = false := by
  simp [delete]

end Cixtech.Foundation.Table

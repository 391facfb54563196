/-
Ordered tables with a key.

A table holds its rows in the order of their first insertion, at most one row per
key, as a database table with a primary key and an insertion counter does.  Writing
a row replaces the one under its key in place, or appends it.

* `get?_upsert`, `get?_erase` — what a lookup finds after a write;
* `upsert_eq_self` — writing back a row that is stored changes nothing, not even
  the order;
* `mem_rows_iff` — the rows of the table are what its lookups find.
-/
import Mathlib

/-- Rows in insertion order, at most one per key. -/
@[ext] structure KeyedTable {α κ : Type} (key : α → κ) where
  rows : List α
  nodup : (rows.map key).Nodup

namespace KeyedTable

open List

variable {α κ : Type} {key : α → κ}

instance [DecidableEq α] : DecidableEq (KeyedTable key) := fun t t' =>
  decidable_of_iff (t.rows = t'.rows) KeyedTable.ext_iff.symm

def empty : KeyedTable key := ⟨[], List.nodup_nil⟩

variable [DecidableEq κ]

section

variable (t : KeyedTable key)

def get? (k : κ) : Option α := t.rows.find? fun row => key row = k

/-- The rows with the one under the key of `a` replaced. -/
def replaceRow (key : α → κ) (a : α) (rows : List α) : List α :=
  rows.map fun row => if key row = key a then a else row

theorem map_key_replaceRow (key : α → κ) (a : α) (rows : List α) :
    (replaceRow key a rows).map key = rows.map key := by
  simp only [replaceRow, map_map]
  refine map_congr_left fun row _ => ?_
  by_cases h : key row = key a <;> simp [h]

/-- Write a row: in place where its key is present, at the end otherwise. -/
def upsert (a : α) : KeyedTable key :=
  if h : key a ∈ t.rows.map key then
    ⟨replaceRow key a t.rows, by rw [map_key_replaceRow]; exact t.nodup⟩
  else
    ⟨t.rows ++ [a], by
      rw [List.map_append, List.map_singleton]
      exact List.nodup_append.mpr ⟨t.nodup, List.nodup_singleton _, fun k hk k' hk' heq =>
        h (by rw [← List.mem_singleton.mp hk', ← heq]; exact hk)⟩⟩

def erase (k : κ) : KeyedTable key :=
  ⟨t.rows.filter fun row => key row ≠ k, t.nodup.sublist (List.filter_sublist.map key)⟩

/-- Drop rows, and change what stays, each under its key. -/
def filterMapRows (f : α → Option α) (hf : ∀ row row', f row = some row' → key row' = key row) :
    KeyedTable key :=
  ⟨t.rows.filterMap f, by
    refine t.nodup.sublist ?_
    induction t.rows with
    | nil => exact List.Sublist.refl []
    | cons row rows ih =>
      rw [List.filterMap_cons, List.map_cons]
      cases h : f row with
      | none => exact ih.cons _
      | some row' =>
        rw [List.map_cons, hf row row' h]
        exact ih.cons_cons _⟩

@[simp] theorem rows_erase (k : κ) :
    (t.erase k).rows = t.rows.filter fun row => key row ≠ k := rfl

end

variable {t : KeyedTable key} {a : α}

theorem get?_eq_some_iff {k : κ} : t.get? k = some a ↔ a ∈ t.rows ∧ key a = k := by
  constructor
  · intro h
    exact ⟨mem_of_find?_eq_some h, by simpa using find?_some h⟩
  · rintro ⟨hmem, rfl⟩
    cases hget : t.get? (key a) with
    | none =>
      have hnone := find?_eq_none.mp hget a hmem
      simp at hnone
    | some b =>
      -- Two rows under one key are the same row.
      have hb : b ∈ t.rows := mem_of_find?_eq_some hget
      have hkey : key b = key a := by simpa using find?_some hget
      rw [inj_on_of_nodup_map t.nodup hb hmem hkey]

theorem mem_rows_iff : a ∈ t.rows ↔ t.get? (key a) = some a := by
  simp [get?_eq_some_iff]

theorem get?_eq_none_iff {k : κ} : t.get? k = none ↔ k ∉ t.rows.map key := by
  simp [get?, find?_eq_none]

theorem key_of_get? {k : κ} (h : t.get? k = some a) : key a = k :=
  (get?_eq_some_iff.mp h).2

theorem get?_upsert (t : KeyedTable key) (a : α) (k : κ) :
    (t.upsert a).get? k = if key a = k then some a else t.get? k := by
  have hrows : ∀ b, b ∈ (t.upsert a).rows ↔ b = a ∨ b ∈ t.rows ∧ key b ≠ key a := by
    intro b
    unfold upsert
    split
    · rename_i hmem
      obtain ⟨row, hrow, hkey⟩ := mem_map.mp hmem
      simp only [replaceRow, mem_map]
      constructor
      · rintro ⟨r, hr, rfl⟩
        by_cases h : key r = key a
        · exact .inl (by simp [h])
        · exact .inr (by simpa [h] using hr)
      · rintro (rfl | ⟨hb, hne⟩)
        · exact ⟨row, hrow, by simp [hkey]⟩
        · exact ⟨b, hb, by simp [hne]⟩
    · rename_i hmem
      simp only [mem_append, mem_singleton]
      constructor
      · rintro (hb | rfl)
        · exact .inr ⟨hb, fun heq => hmem (heq ▸ mem_map_of_mem hb)⟩
        · exact .inl rfl
      · rintro (rfl | ⟨hb, _⟩)
        · exact .inr rfl
        · exact .inl hb
  by_cases hk : key a = k
  · rw [if_pos hk, get?_eq_some_iff]
    exact ⟨(hrows a).mpr (.inl rfl), hk⟩
  · rw [if_neg hk]
    refine Option.ext fun b => ?_
    rw [get?_eq_some_iff, get?_eq_some_iff, hrows]
    constructor
    · rintro ⟨rfl | ⟨hb, _⟩, hkey⟩
      · exact absurd hkey hk
      · exact ⟨hb, hkey⟩
    · rintro ⟨hb, hkey⟩
      exact ⟨.inr ⟨hb, fun heq => hk (heq ▸ hkey)⟩, hkey⟩

theorem get?_erase (t : KeyedTable key) (k k' : κ) :
    (t.erase k).get? k' = if k = k' then none else t.get? k' := by
  by_cases hk : k = k'
  · subst hk
    rw [if_pos rfl, get?_eq_none_iff]
    simp [erase]
  · rw [if_neg hk]
    refine Option.ext fun b => ?_
    simp only [get?_eq_some_iff, erase, mem_filter, decide_eq_true_eq]
    constructor
    · rintro ⟨⟨hb, _⟩, hkey⟩
      exact ⟨hb, hkey⟩
    · rintro ⟨hb, rfl⟩
      exact ⟨⟨hb, fun heq => hk heq.symm⟩, rfl⟩

/-- Writing back a stored row changes nothing. -/
theorem upsert_eq_self (h : t.get? (key a) = some a) : t.upsert a = t := by
  have hmem : a ∈ t.rows := (get?_eq_some_iff.mp h).1
  unfold upsert
  rw [dif_pos (mem_map_of_mem hmem)]
  refine KeyedTable.ext ?_
  refine (map_congr_left fun row hrow => ?_).trans (map_id _)
  by_cases hkey : key row = key a
  · rw [if_pos hkey, inj_on_of_nodup_map t.nodup hrow hmem hkey, id]
  · rw [if_neg hkey, id]

/-- Writing over the first row with a property, keeping the property, changes which row
that is in the table and nothing before it. -/
theorem find?_upsert {p : α → Bool} {a b : α} (h : t.rows.find? p = some a) (hkey : key b = key a)
    (hb : p b = true) : (t.upsert b).rows.find? p = some b := by
  have hmem : key b ∈ t.rows.map key := hkey ▸ mem_map_of_mem (mem_of_find?_eq_some h)
  obtain ⟨ha, l, r, hrows, hl⟩ := find?_eq_some_iff_append.mp h
  have hnodup := t.nodup
  rw [hrows] at hnodup
  unfold upsert
  rw [dif_pos hmem]
  refine find?_eq_some_iff_append.mpr ⟨hb, l, replaceRow key b r, ?_, hl⟩
  have hl' : replaceRow key b l = l := by
    refine (map_congr_left fun row hrow => ?_).trans (map_id _)
    rw [if_neg, id]
    intro heq
    simp only [map_append, map_cons, nodup_append] at hnodup
    exact hnodup.2.2 (key row) (mem_map_of_mem hrow) (key a) (.head _) (heq.trans hkey)
  simp only [hrows, replaceRow, map_append, map_cons, hkey, if_pos] at hl' ⊢
  rw [hl']

/-- A table after a write, looked up under the key that was written. -/
theorem get?_upsert_self (t : KeyedTable key) (a : α) : (t.upsert a).get? (key a) = some a := by
  rw [get?_upsert, if_pos rfl]

/-- A row under a new key is appended. -/
theorem rows_upsert_of_get?_none (h : t.get? (key a) = none) :
    (t.upsert a).rows = t.rows ++ [a] := by
  unfold upsert
  rw [dif_neg (get?_eq_none_iff.mp h)]

/-- A row under a key that is present takes the place of the one that was there. -/
theorem length_rows_upsert_of_get?_some {a b : α} (h : t.get? (key a) = some b) :
    (t.upsert a).rows.length = t.rows.length := by
  obtain ⟨hmem, hkey⟩ := get?_eq_some_iff.mp h
  unfold upsert
  rw [dif_pos (hkey ▸ mem_map_of_mem hmem)]
  exact length_map _

theorem get?_filterMapRows (t : KeyedTable key) (f : α → Option α)
    (hf : ∀ row row', f row = some row' → key row' = key row) (k : κ) :
    (t.filterMapRows f hf).get? k = (t.get? k).bind f := by
  refine Option.ext fun b => ?_
  rw [get?_eq_some_iff, Option.bind_eq_some_iff]
  constructor
  · rintro ⟨hb, rfl⟩
    obtain ⟨row, hrow, hfrow⟩ := mem_filterMap.mp hb
    exact ⟨row, get?_eq_some_iff.mpr ⟨hrow, (hf row b hfrow).symm⟩, hfrow⟩
  · rintro ⟨row, hget, hfrow⟩
    obtain ⟨hrow, rfl⟩ := get?_eq_some_iff.mp hget
    exact ⟨mem_filterMap.mpr ⟨row, hrow, hfrow⟩, hf row b hfrow⟩

/-! ### Sums over the rows -/

theorem sum_replaceRow {rows : List α} (hnodup : (rows.map key).Nodup) {a b : α} (hb : b ∈ rows)
    (hkey : key b = key a) (f : α → ℕ) :
    ((replaceRow key a rows).map f).sum + f b = (rows.map f).sum + f a := by
  induction rows with
  | nil => cases hb
  | cons row rows ih =>
    obtain ⟨hnot, hnodup⟩ := nodup_cons.mp hnodup
    simp only [replaceRow, map_cons, sum_cons] at ih ⊢
    rcases mem_cons.mp hb with rfl | hb
    · have hrest : rows.map (fun row => if key row = key a then a else row) = rows := by
        refine (map_congr_left fun row hrow => ?_).trans (map_id _)
        rw [if_neg, id]
        intro heq
        exact hnot (hkey.symm ▸ heq ▸ mem_map_of_mem hrow)
      rw [hrest, if_pos hkey]
      omega
    · have hne : key row ≠ key a := fun heq => hnot (heq ▸ hkey ▸ mem_map_of_mem hb)
      rw [if_neg hne]
      have := ih hnodup hb
      omega

/-- A sum after a write: the new row in the place of the old one, if there was one. -/
theorem sum_upsert (t : KeyedTable key) (a : α) (f : α → ℕ) :
    ((t.upsert a).rows.map f).sum + (t.get? (key a)).elim 0 f = (t.rows.map f).sum + f a := by
  cases hget : t.get? (key a) with
  | none =>
    rw [rows_upsert_of_get?_none hget, map_append, sum_append]
    simp
  | some b =>
    obtain ⟨hmem, hkey⟩ := get?_eq_some_iff.mp hget
    unfold upsert
    rw [dif_pos (hkey ▸ mem_map_of_mem hmem), Option.elim_some]
    exact sum_replaceRow t.nodup hmem hkey f

theorem sum_erase (t : KeyedTable key) (k : κ) (f : α → ℕ) :
    ((t.erase k).rows.map f).sum + (t.get? k).elim 0 f = (t.rows.map f).sum := by
  obtain ⟨rows, hnodup⟩ := t
  simp only [rows_erase, get?]
  induction rows with
  | nil => rfl
  | cons row rows ih =>
    obtain ⟨hnot, hnodup⟩ := nodup_cons.mp hnodup
    rw [find?_cons, filter_cons]
    by_cases hkey : key row = k
    · have hrest : rows.filter (fun row => key row ≠ k) = rows := by
        refine filter_eq_self.mpr fun row' hrow' => ?_
        simp only [ne_eq, decide_eq_true_eq]
        exact fun heq => hnot (hkey ▸ heq ▸ mem_map_of_mem hrow')
      simp only [hkey, ne_eq, not_true_eq_false, decide_false, decide_true, Bool.false_eq_true,
        if_false, Option.elim_some, map_cons, sum_cons] at hrest ⊢
      rw [hrest, Nat.add_comm]
    · have hrest := ih hnodup
      simp only [hkey, ne_eq, not_false_eq_true, decide_true, if_true, decide_false, map_cons,
        sum_cons] at hrest ⊢
      omega

omit [DecidableEq κ] in
theorem sum_filterMapRows_le (t : KeyedTable key) (f : α → Option α)
    (hf : ∀ row row', f row = some row' → key row' = key row) (g : α → ℕ)
    (hg : ∀ row row', f row = some row' → g row' ≤ g row) :
    ((t.filterMapRows f hf).rows.map g).sum ≤ (t.rows.map g).sum := by
  show ((t.rows.filterMap f).map g).sum ≤ _
  induction t.rows with
  | nil => exact le_refl 0
  | cons row rows ih =>
    rw [filterMap_cons, map_cons, sum_cons]
    cases h : f row with
    | none => exact le_trans ih (Nat.le_add_left _ _)
    | some row' =>
      rw [map_cons, sum_cons]
      exact Nat.add_le_add (hg row row' h) ih

omit [DecidableEq κ] in
theorem length_filterMapRows_le (t : KeyedTable key) (f : α → Option α)
    (hf : ∀ row row', f row = some row' → key row' = key row) :
    (t.filterMapRows f hf).rows.length ≤ t.rows.length :=
  length_filterMap_le f t.rows

theorem length_upsert_le (t : KeyedTable key) (a : α) :
    (t.upsert a).rows.length ≤ t.rows.length + 1 := by
  cases hget : t.get? (key a) with
  | none => rw [rows_upsert_of_get?_none hget, length_append, length_singleton]
  | some b =>
    rw [length_rows_upsert_of_get?_some hget]
    exact Nat.le_succ _

theorem length_erase_le (t : KeyedTable key) (k : κ) :
    (t.erase k).rows.length ≤ t.rows.length :=
  length_filter_le _ _

end KeyedTable

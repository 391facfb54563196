/-
Sorting and selecting by a comparison function.

A comparison is a function into `Ordering`, lawful where `Std.TransCmp` and
`Std.LawfulEqCmp` say so.  `sortBy` is a stable sort and `maxBy` a maximum that
keeps the last of several equals; both are structural recursions, so they
evaluate.

* `sortBy_eq_of_perm` — sorting forgets the order of the input, as soon as the
  comparison separates the members that differ;
* `sortBy_rel`, `maxBy_rel` — lists related member by member, by a relation the
  comparison does not see, are sorted alike and have related maxima;
* `maxBy_mem`, `isLE_of_maxBy` — the selected element is a member, and no
  member is greater.
-/
import Mathlib.Data.List.Sort
import Mathlib.Data.List.Forall2
import Mathlib.Data.Option.Basic

open Std

namespace Comparison

open List

variable {α β : Type*}

/-! ### Stable sorting -/

/-- Stable sort: equals stay in the order they come in. -/
def sortBy (cmp : α → α → Ordering) (l : List α) : List α :=
  l.insertionSort fun a b => (cmp a b).isLE = true

variable {cmp : α → α → Ordering}

theorem sortBy_perm (cmp : α → α → Ordering) (l : List α) : (sortBy cmp l).Perm l :=
  perm_insertionSort _ l

variable {l : List α}

@[simp] theorem mem_sortBy {a : α} : a ∈ sortBy cmp l ↔ a ∈ l :=
  (sortBy_perm cmp l).mem_iff

theorem pairwise_sortBy [TransCmp cmp] (l : List α) :
    (sortBy cmp l).Pairwise fun a b => (cmp a b).isLE = true := by
  have : Std.Total fun a b => (cmp a b).isLE = true := ⟨fun a b => by
    rw [@OrientedCmp.eq_swap α cmp _ b a]
    cases cmp a b <;> simp⟩
  have : IsTrans α fun a b => (cmp a b).isLE = true :=
    ⟨fun _ _ _ hab hbc => TransCmp.isLE_trans hab hbc⟩
  exact pairwise_insertionSort _ l

/-- Sorting forgets the order of the input. -/
theorem sortBy_eq_of_perm [TransCmp cmp] {l₁ l₂ : List α} (hperm : l₁.Perm l₂)
    (hanti : ∀ a ∈ l₁, ∀ b ∈ l₁, cmp a b = .eq → a = b) : sortBy cmp l₁ = sortBy cmp l₂ := by
  have hsorted : (sortBy cmp l₁).Perm (sortBy cmp l₂) :=
    (sortBy_perm cmp l₁).trans (hperm.trans (sortBy_perm cmp l₂).symm)
  refine hsorted.eq_of_pairwise ?_ (pairwise_sortBy l₁) (pairwise_sortBy l₂)
  intro a b ha hb hab hba
  refine hanti a (mem_sortBy.mp ha) b (hperm.mem_iff.mpr (mem_sortBy.mp hb)) ?_
  rw [@OrientedCmp.eq_swap α cmp _ b a] at hba
  cases h : cmp a b with
  | lt => rw [h] at hba; cases hba
  | eq => rfl
  | gt => rw [h] at hab; cases hab

/-- With a comparison that separates everything, nothing more is needed. -/
theorem sortBy_eq_of_perm_of_lawful [TransCmp cmp] [LawfulEqCmp cmp] {l₁ l₂ : List α}
    (hperm : l₁.Perm l₂) : sortBy cmp l₁ = sortBy cmp l₂ :=
  sortBy_eq_of_perm hperm fun _ _ _ _ h => LawfulEqCmp.eq_of_compare h

variable {R : α → β → Prop} {cmp' : β → β → Ordering} {l' : List β}

theorem orderedInsert_rel (hcmp : ∀ a b a' b', R a a' → R b b' → cmp a b = cmp' a' b') {a : α}
    {a' : β} (ha : R a a') (h : List.Forall₂ R l l') :
    List.Forall₂ R (l.orderedInsert (fun a b => (cmp a b).isLE = true) a)
      (l'.orderedInsert (fun a b => (cmp' a b).isLE = true) a') := by
  induction h with
  | nil => exact List.Forall₂.cons ha List.Forall₂.nil
  | @cons b b' l l' hb hl ih =>
    simp only [orderedInsert, hcmp a b a' b' ha hb]
    by_cases hle : (cmp' a' b').isLE = true
    · rw [if_pos hle, if_pos hle]
      exact List.Forall₂.cons ha (List.Forall₂.cons hb hl)
    · rw [if_neg hle, if_neg hle]
      exact List.Forall₂.cons hb ih

/-- Sorting related lists moves related members to the same places. -/
theorem sortBy_rel (hcmp : ∀ a b a' b', R a a' → R b b' → cmp a b = cmp' a' b')
    (h : List.Forall₂ R l l') : List.Forall₂ R (sortBy cmp l) (sortBy cmp' l') := by
  induction h with
  | nil => exact List.Forall₂.nil
  | cons hb _ ih => exact orderedInsert_rel hcmp hb ih

theorem map_eq_of_rel {γ : Type*} {f : α → γ} {g : β → γ} (h : List.Forall₂ R l l')
    (hfg : ∀ a b, R a b → f a = g b) : l.map f = l'.map g := by
  induction h with
  | nil => rfl
  | cons hab _ ih => rw [map_cons, map_cons, hfg _ _ hab, ih]

theorem optionMap_eq_of_rel {γ : Type*} {f : α → γ} {g : β → γ} {a : Option α} {b : Option β}
    (h : Option.Rel R a b) (hfg : ∀ x y, R x y → f x = g y) : a.map f = b.map g := by
  cases h with
  | none => rfl
  | some hxy => rw [Option.map_some, Option.map_some, hfg _ _ hxy]

/-! ### Selecting a maximum -/

/-- The greater of two, the second one when neither is. -/
def laterMax (cmp : α → α → Ordering) (x y : α) : α :=
  match cmp x y with
  | .gt => x
  | _ => y

/-- A greatest member, the last of them when several are equal. -/
def maxBy (cmp : α → α → Ordering) : List α → Option α
  | [] => none
  | x :: xs => some (xs.foldl (laterMax cmp) x)

theorem laterMax_rel {x y : α} {x' y' : β} (h : cmp x y = cmp' x' y') (hx : R x x') (hy : R y y') :
    R (laterMax cmp x y) (laterMax cmp' x' y') := by
  rw [laterMax, laterMax, h]
  cases cmp' x' y'
  · exact hy
  · exact hy
  · exact hx

/-- Lists that are related member by member, by a relation the comparisons do
not see, have related maxima. -/
theorem maxBy_rel (hcmp : ∀ a b a' b', R a a' → R b b' → cmp a b = cmp' a' b')
    (h : List.Forall₂ R l l') : Option.Rel R (maxBy cmp l) (maxBy cmp' l') := by
  cases h with
  | nil => exact Option.Rel.none
  | @cons x x' xs xs' hx hxs =>
    refine Option.Rel.some ?_
    induction hxs generalizing x x' with
    | nil => exact hx
    | cons hy _ ih => exact ih (laterMax_rel (hcmp _ _ _ _ hx hy) hx hy)

theorem laterMax_eq_or (cmp : α → α → Ordering) (x y : α) :
    laterMax cmp x y = x ∨ laterMax cmp x y = y := by
  rw [laterMax]
  cases cmp x y
  · exact Or.inr rfl
  · exact Or.inr rfl
  · exact Or.inl rfl

theorem isLE_refl [TransCmp cmp] (x : α) : (cmp x x).isLE = true := by
  have h : cmp x x = .eq := ReflCmp.compare_self
  rw [h]
  rfl

theorem isLE_laterMax_left [TransCmp cmp] (x y : α) : (cmp x (laterMax cmp x y)).isLE = true := by
  rw [laterMax]
  cases h : cmp x y with
  | lt => simp [h]
  | eq => simp [h]
  | gt => exact isLE_refl x

theorem isLE_laterMax_right [TransCmp cmp] (x y : α) :
    (cmp y (laterMax cmp x y)).isLE = true := by
  rw [laterMax]
  cases h : cmp x y with
  | lt => exact isLE_refl y
  | eq => exact isLE_refl y
  | gt => simp [@OrientedCmp.eq_swap α cmp _ y x, h]

theorem foldl_laterMax_mem (x : α) (xs : List α) :
    xs.foldl (laterMax cmp) x = x ∨ xs.foldl (laterMax cmp) x ∈ xs := by
  induction xs generalizing x with
  | nil => exact Or.inl rfl
  | cons y ys ih =>
    rw [foldl_cons]
    rcases ih (laterMax cmp x y) with h | h
    · rw [h]
      rcases laterMax_eq_or cmp x y with hx | hy
      · exact Or.inl hx
      · exact Or.inr (by rw [hy]; exact mem_cons_self)
    · exact Or.inr (mem_cons_of_mem y h)

theorem maxBy_mem {a : α} (h : maxBy cmp l = some a) : a ∈ l := by
  cases l with
  | nil => cases h
  | cons x xs =>
    obtain rfl := Option.some.inj h
    rcases foldl_laterMax_mem x xs with hx | hx
    · rw [hx]
      exact mem_cons_self
    · exact mem_cons_of_mem x hx

theorem foldl_laterMax_ge [TransCmp cmp] (x : α) (xs : List α) :
    ∀ b, b = x ∨ b ∈ xs → (cmp b (xs.foldl (laterMax cmp) x)).isLE = true := by
  induction xs generalizing x with
  | nil =>
    rintro b (rfl | hb)
    · exact isLE_refl b
    · cases hb
  | cons y ys ih =>
    intro b hb
    rw [foldl_cons]
    have hmax := ih (laterMax cmp x y) (laterMax cmp x y) (Or.inl rfl)
    rcases hb with rfl | hb
    · exact TransCmp.isLE_trans (isLE_laterMax_left b y) hmax
    · rcases mem_cons.mp hb with rfl | hb
      · exact TransCmp.isLE_trans (isLE_laterMax_right x b) hmax
      · exact ih (laterMax cmp x y) b (Or.inr hb)

/-- No member is greater than the selected one. -/
theorem isLE_of_maxBy [TransCmp cmp] {a b : α} (h : maxBy cmp l = some a) (hb : b ∈ l) :
    (cmp b a).isLE = true := by
  cases l with
  | nil => cases h
  | cons x xs =>
    obtain rfl := Option.some.inj h
    exact foldl_laterMax_ge x xs b (mem_cons.mp hb)

/-! ### Comparisons of records -/

/-- Comparing by an injective key separates everything. -/
theorem lawfulEqCmp_compareOn [Ord β] [LawfulEqOrd β] {f : α → β} (hf : Function.Injective f) :
    LawfulEqCmp (compareOn f) where
  compare_self := by
    intro a
    exact compare_self
  eq_of_compare := by
    intro a b h
    exact hf (LawfulEqOrd.eq_of_compare h)

end Comparison

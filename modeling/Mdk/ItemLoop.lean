/-
Loops over the items of an encoded vector.

A decoder reads items off a cursor until it is empty, and checks each against those before
it.  `decodeItems` is that loop over any item; it succeeds exactly on the concatenated
encodings of items that pass the checks.  The checks that follow bound the number of items,
refuse a repeated item, or drop it.

* **`decodeItems_eq_ok`** — what a successful loop read;
* `decodeItems_bounded`, `decodeItems_unique` — the loop with either strict check;
* `normalizeItems_spec`, `normalizeItems_self` — the loop that drops what is repeated;
* `RoundTrips` — encoder and decoder that leave one encoding for a state.
-/
import Mathlib
import Mdk.Checks

open Checks

section Loop

variable {σ α ε : Type}

/-- Read items until the cursor is empty.  Every item takes at least one byte, so that the
length of the cursor is enough fuel. -/
def decodeItems (item : σ → List UInt8 → Except ε (σ × List UInt8)) :
    ℕ → σ → List UInt8 → Except ε σ
  | 0, s, _ => .ok s
  | fuel + 1, s, cursor =>
    if cursor = [] then .ok s
    else do
      let (s, rest) ← item s cursor
      decodeItems item fuel s rest

variable {encode : α → List UInt8}

/-- No bytes are the encoding of no items only. -/
theorem items_nil {push : σ → α → Except ε σ} (hne : ∀ s a s', push s a = .ok s' → encode a ≠ [])
    {s s' : σ} :
    (.ok s : Except ε σ) = .ok s' ↔
      ∃ items : List α, [] = items.flatMap encode ∧ items.foldlM push s = .ok s' := by
  constructor
  · intro h
    exact ⟨[], rfl, h⟩
  · rintro ⟨items, hitems, hpush⟩
    cases items with
    | nil => exact hpush
    | cons a items =>
      rw [List.foldlM_cons] at hpush
      obtain ⟨s'', hfirst, _⟩ := bind_eq_ok.mp hpush
      exact absurd (List.append_eq_nil_iff.mp hitems.symm).1 (hne _ _ _ hfirst)

/-- The loop succeeds exactly on the encodings of items that pass, one after the other. -/
theorem decodeItems_eq_ok {item : σ → List UInt8 → Except ε (σ × List UInt8)}
    {push : σ → α → Except ε σ}
    (hitem : ∀ s cursor s' rest, item s cursor = .ok (s', rest) ↔
      ∃ a, cursor = encode a ++ rest ∧ push s a = .ok s')
    (hne : ∀ s a s', push s a = .ok s' → encode a ≠ []) {fuel : ℕ} {s s' : σ} {cursor : List UInt8}
    (hfuel : cursor.length ≤ fuel) :
    decodeItems item fuel s cursor = .ok s' ↔
      ∃ items : List α, cursor = items.flatMap encode ∧ items.foldlM push s = .ok s' := by
  induction fuel generalizing s cursor with
  | zero =>
    obtain rfl := List.eq_nil_of_length_eq_zero (Nat.le_zero.mp hfuel)
    exact items_nil hne
  | succ fuel ih =>
    rw [decodeItems]
    split
    · rename_i hempty
      subst hempty
      exact items_nil hne
    · rename_i hnonempty
      simp only [bind_eq_ok, Prod.exists]
      constructor
      · rintro ⟨s'', rest, hread, hloop⟩
        obtain ⟨a, rfl, hpush⟩ := (hitem _ _ _ _).mp hread
        have hpos := List.length_pos_iff.mpr (hne _ _ _ hpush)
        rw [List.length_append] at hfuel
        obtain ⟨items, rfl, hitems⟩ := (ih (by omega)).mp hloop
        refine ⟨a :: items, rfl, ?_⟩
        rw [List.foldlM_cons]
        exact bind_eq_ok.mpr ⟨s'', hpush, hitems⟩
      · rintro ⟨items, rfl, hpush⟩
        cases items with
        | nil => exact absurd rfl hnonempty
        | cons a items =>
          rw [List.foldlM_cons] at hpush
          obtain ⟨s'', hfirst, hrest⟩ := bind_eq_ok.mp hpush
          have hpos := List.length_pos_iff.mpr (hne _ _ _ hfirst)
          rw [List.flatMap_cons, List.length_append] at hfuel
          exact ⟨s'', items.flatMap encode, (hitem _ _ _ _).mpr ⟨a, rfl, hfirst⟩,
            (ih (by omega)).mpr ⟨items, rfl, hrest⟩⟩

theorem length_flatMap_le {items : List α} {count size : ℕ}
    (hsize : ∀ a ∈ items, (encode a).length ≤ size) (hcount : items.length ≤ count) :
    (items.flatMap encode).length ≤ count * size := by
  rw [List.length_flatMap]
  calc (items.map fun a => (encode a).length).sum
      ≤ (items.map fun a => (encode a).length).length • size :=
        List.sum_le_card_nsmul _ _ fun n hn => by
          obtain ⟨a, ha, rfl⟩ := List.mem_map.mp hn
          exact hsize a ha
    _ ≤ count * size := by
        rw [List.length_map, smul_eq_mul]
        exact Nat.mul_le_mul_right size hcount

end Loop

section Bounded

variable {β ε : Type}

/-- A strict list of at most `bound` items that satisfy `p`. -/
def pushBounded (bound : ℕ) (p : β → Prop) [DecidablePred p] (error : ε) (seen : List β) (b : β) :
    Except ε (List β) := do
  require (seen.length ≠ bound ∧ p b) error
  pure (seen ++ [b])

variable {bound : ℕ} {p : β → Prop} [DecidablePred p]

theorem foldlM_pushBounded {error : ε} {seen seen' items : List β} (hseen : seen.length ≤ bound) :
    items.foldlM (pushBounded bound p error) seen = .ok seen' ↔
      seen' = seen ++ items ∧ (∀ b ∈ items, p b) ∧ (seen ++ items).length ≤ bound := by
  induction items generalizing seen with
  | nil =>
    rw [List.foldlM_nil, List.append_nil, pure_eq_ok]
    exact ⟨fun h => ⟨h.symm, fun b hb => absurd hb List.not_mem_nil, hseen⟩, fun h => h.1.symm⟩
  | cons b items ih =>
    have hassoc : seen ++ b :: items = seen ++ [b] ++ items := by
      rw [List.append_assoc, List.singleton_append]
    have hlength : (seen ++ [b]).length = seen.length + 1 := List.length_append
    simp only [List.foldlM_cons, pushBounded, bind_eq_ok, require_eq_ok, pure_eq_ok, hassoc]
    constructor
    · rintro ⟨_, ⟨_, ⟨hbound, hb⟩, rfl⟩, hrest⟩
      obtain ⟨rfl, hall, hle⟩ := (ih (by omega)).mp hrest
      exact ⟨rfl, List.forall_mem_cons.mpr ⟨hb, hall⟩, hle⟩
    · rintro ⟨rfl, hall, hle⟩
      obtain ⟨hb, hall⟩ := List.forall_mem_cons.mp hall
      have hnext : (seen ++ [b]).length ≤ bound := by
        rw [List.length_append] at hle
        omega
      exact ⟨_, ⟨(), ⟨by omega, hb⟩, rfl⟩, (ih hnext).mpr ⟨rfl, hall, hle⟩⟩

/-- A loop that stops at a number of items accepts exactly the encodings of so many items, and
reads these items. -/
theorem decodeItems_bounded {item : List β → List UInt8 → Except ε (List β × List UInt8)}
    {encode : β → List UInt8} (error : ε)
    (hitem : ∀ seen cursor seen' rest, item seen cursor = .ok (seen', rest) ↔
      ∃ b, cursor = encode b ++ rest ∧ (seen.length ≠ bound ∧ p b) ∧ seen ++ [b] = seen')
    (hne : ∀ b, encode b ≠ []) (bytes : List UInt8) (items : List β) :
    decodeItems item bytes.length [] bytes = .ok items ↔
      bytes = items.flatMap encode ∧ (∀ b ∈ items, p b) ∧ items.length ≤ bound := by
  have hpush : ∀ seen cursor seen' rest, item seen cursor = .ok (seen', rest) ↔
      ∃ b, cursor = encode b ++ rest ∧ pushBounded bound p error seen b = .ok seen' := by
    simp only [pushBounded, bind_eq_ok, require_eq_ok, pure_eq_ok, exists_const]
    exact hitem
  rw [decodeItems_eq_ok hpush (fun _ b _ _ => hne b) le_rfl]
  have hnil : ([] : List β).length ≤ bound := Nat.zero_le bound
  simp only [foldlM_pushBounded hnil, List.nil_append]
  constructor
  · rintro ⟨_, hbytes, rfl, hall, hle⟩
    exact ⟨hbytes, hall, hle⟩
  · rintro ⟨hbytes, hall, hle⟩
    exact ⟨items, hbytes, rfl, hall, hle⟩

end Bounded

section Unique

variable {α β ε : Type} [DecidableEq β]

/-- A strict list without repetitions: each item is checked, and refused if it is there. -/
def pushUnique (check : β → Except ε Unit) (duplicate : ε) (seen : List β) (b : β) :
    Except ε (List β) := do
  check b
  require (b ∉ seen) duplicate
  pure (seen ++ [b])

variable {check : β → Except ε Unit} {duplicate : ε}

theorem pushUnique_check {seen seen' : List β} {b : β}
    (h : pushUnique check duplicate seen b = .ok seen') : check b = .ok () := by
  simp only [pushUnique, bind_eq_ok, require_eq_ok, pure_eq_ok] at h
  obtain ⟨_, hcheck, _⟩ := h
  exact hcheck

/-- The strict checks pass exactly for items that are checked and not repeated, and change
nothing. -/
theorem foldlM_pushUnique {seen seen' items : List β} (hseen : seen.Nodup) :
    items.foldlM (pushUnique check duplicate) seen = .ok seen' ↔
      seen' = seen ++ items ∧ (∀ b ∈ items, check b = .ok ()) ∧ (seen ++ items).Nodup := by
  induction items generalizing seen with
  | nil =>
    rw [List.foldlM_nil, List.append_nil, pure_eq_ok]
    exact ⟨fun h => ⟨h.symm, fun b hb => absurd hb List.not_mem_nil, hseen⟩, fun h => h.1.symm⟩
  | cons b items ih =>
    simp only [List.foldlM_cons, pushUnique, bind_eq_ok, require_eq_ok, pure_eq_ok]
    constructor
    · rintro ⟨_, ⟨_, hcheck, _, hmem, rfl⟩, hrest⟩
      have hnodup : (seen ++ [b]).Nodup := List.nodup_append_comm.mp
        (List.nodup_cons.mpr ⟨hmem, hseen⟩)
      obtain ⟨rfl, hall, hnodup'⟩ := (ih hnodup).mp hrest
      rw [List.append_assoc, List.singleton_append] at hnodup' ⊢
      exact ⟨rfl, List.forall_mem_cons.mpr ⟨hcheck, hall⟩, hnodup'⟩
    · rintro ⟨rfl, hall, hnodup⟩
      obtain ⟨hcheck, hall⟩ := List.forall_mem_cons.mp hall
      have hmem : b ∉ seen := fun hb =>
        (List.disjoint_of_nodup_append hnodup) hb List.mem_cons_self
      have hassoc : seen ++ b :: items = seen ++ [b] ++ items := by
        rw [List.append_assoc, List.singleton_append]
      rw [hassoc] at hnodup
      exact ⟨_, ⟨(), hcheck, (), hmem, rfl⟩,
        (ih (List.nodup_append.mp hnodup).1).mpr ⟨hassoc, hall, hnodup⟩⟩

/-- A loop of strict checks accepts exactly the encodings of checked items without repetition,
and reads these items. -/
theorem decodeItems_unique {item : List β → List UInt8 → Except ε (List β × List UInt8)}
    {encode : β → List UInt8}
    (hitem : ∀ seen cursor seen' rest, item seen cursor = .ok (seen', rest) ↔
      ∃ b, cursor = encode b ++ rest ∧ pushUnique check duplicate seen b = .ok seen')
    (hne : ∀ b, encode b ≠ []) (bytes : List UInt8) (items : List β) :
    decodeItems item bytes.length [] bytes = .ok items ↔
      bytes = items.flatMap encode ∧ items.Nodup ∧ ∀ b ∈ items, check b = .ok () := by
  rw [decodeItems_eq_ok hitem (fun _ b _ _ => hne b) le_rfl]
  simp only [foldlM_pushUnique List.nodup_nil, List.nil_append]
  constructor
  · rintro ⟨_, hbytes, rfl, hall, hnodup⟩
    exact ⟨hbytes, hnodup, hall⟩
  · rintro ⟨hbytes, hnodup, hall⟩
    exact ⟨items, hbytes, rfl, hall, hnodup⟩

/-- Append what is not there. -/
def pushNew (seen : List β) (b : β) : List β := if b ∈ seen then seen else seen ++ [b]

/-- Normalize each item and keep the first of equal ones. -/
def normalizeItems (normalize : α → Except ε β) (items : List α) (seen : List β) :
    Except ε (List β) :=
  items.foldlM (fun seen a => do
    let b ← normalize a
    pure (pushNew seen b)) seen

/-- What is kept is normalized and not repeated. -/
theorem normalizeItems_spec {normalize : α → Except ε β} {items : List α} {seen seen' : List β}
    {p : β → Prop} (hp : ∀ a b, normalize a = .ok b → p b) (hseen : seen.Nodup)
    (hall : ∀ b ∈ seen, p b) (h : normalizeItems normalize items seen = .ok seen') :
    seen'.Nodup ∧ ∀ b ∈ seen', p b := by
  induction items generalizing seen with
  | nil =>
    obtain rfl := pure_eq_ok.mp h
    exact ⟨hseen, hall⟩
  | cons a items ih =>
    rw [normalizeItems, List.foldlM_cons] at h
    obtain ⟨next, hnext, hrest⟩ := bind_eq_ok.mp h
    obtain ⟨b, hb, hpush⟩ := bind_eq_ok.mp hnext
    obtain rfl := pure_eq_ok.mp hpush
    refine ih ?_ ?_ hrest
    · unfold pushNew
      split
      · exact hseen
      · rename_i hmem
        exact List.nodup_append_comm.mp (List.nodup_cons.mpr ⟨hmem, hseen⟩)
    · intro c hc
      unfold pushNew at hc
      split at hc
      · exact hall c hc
      · rcases List.mem_append.mp hc with hc | hc
        · exact hall c hc
        · rw [List.mem_singleton.mp hc]
          exact hp a b hb

/-- Items that are normalized and not repeated are kept as they are. -/
theorem normalizeItems_self {normalize : β → Except ε β} {items seen : List β}
    (hnormal : ∀ b ∈ items, normalize b = .ok b) (hnodup : (seen ++ items).Nodup) :
    normalizeItems normalize items seen = .ok (seen ++ items) := by
  induction items generalizing seen with
  | nil =>
    rw [List.append_nil]
    rfl
  | cons b items ih =>
    have hmem : b ∉ seen := fun hb =>
      (List.disjoint_of_nodup_append hnodup) hb List.mem_cons_self
    have hassoc : seen ++ b :: items = seen ++ [b] ++ items := by
      rw [List.append_assoc, List.singleton_append]
    rw [normalizeItems, List.foldlM_cons, hnormal b List.mem_cons_self, hassoc]
    rw [hassoc] at hnodup
    have hpush : pushNew seen b = seen ++ [b] := if_neg hmem
    change normalizeItems normalize items (pushNew seen b) = _
    rw [hpush]
    exact ih (fun c hc => hnormal c (List.mem_cons_of_mem _ hc)) hnodup

end Unique

/-! ### One encoding for a state -/

section RoundTrip

variable {α ε : Type}

/-- Whatever is encoded is decoded, to something with the same encoding; what is decoded is
encoded to the bytes it was decoded from; and different bytes are decoded to different
states. -/
def RoundTrips (encode : α → Except ε (List UInt8)) (decode : List UInt8 → Except ε α) : Prop :=
  (∀ v bytes, encode v = .ok bytes → ∃ v', decode bytes = .ok v' ∧ encode v' = .ok bytes) ∧
  (∀ bytes v, decode bytes = .ok v → encode v = .ok bytes) ∧
  ∀ bytes bytes' v, decode bytes = .ok v → decode bytes' = .ok v → bytes = bytes'

/-- An encoder that normalizes to canonical states, which it leaves alone, and a decoder that
accepts exactly the bytes of these. -/
theorem RoundTrips.of_canonical {encode : α → Except ε (List UInt8)}
    {decode : List UInt8 → Except ε α} {Canonical : α → Prop} {bytesOf : α → List UInt8}
    (hencode : ∀ v bytes, encode v = .ok bytes → ∃ v', Canonical v' ∧ bytes = bytesOf v')
    (hcanonical : ∀ v, Canonical v → encode v = .ok (bytesOf v))
    (hdecode : ∀ bytes v, decode bytes = .ok v ↔ Canonical v ∧ bytes = bytesOf v) :
    RoundTrips encode decode := by
  refine ⟨?_, ?_, ?_⟩
  · intro v bytes h
    obtain ⟨v', hv', rfl⟩ := hencode v bytes h
    exact ⟨v', (hdecode _ _).mpr ⟨hv', rfl⟩, hcanonical v' hv'⟩
  · intro bytes v h
    obtain ⟨hv, rfl⟩ := (hdecode _ _).mp h
    exact hcanonical v hv
  · intro bytes bytes' v h h'
    exact ((hdecode _ _).mp h).2.trans ((hdecode _ _).mp h').2.symm

end RoundTrip

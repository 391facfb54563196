/-
Loops with a measure, and worklists.

`Loop.run body` repeats `body` until it stops; a measure that every round lowers
makes it total.  A worklist is such a loop: it takes an item, lets `expand` change
the state and put out further items, and fails when `expand` fails.  The items put
out can be queued behind the ones that wait (`Worklist.fifo`) or collected level by
level (`Worklist.levels`).

* `Loop.run_induction` — the induction rule of a loop;
* `Loop.run_eq_of_runFor` — a loop computed with a bound on its rounds;
* `Worklist.fifo_invariant`, `Worklist.fifo_related` — the invariant rule of a
  worklist, and that of two worklists side by side;
* `Worklist.levels_eq_fifo` — level by level, a worklist takes the same items in
  the same order.
-/
import Mathlib.Data.List.Forall2

namespace Loop

variable {σ ρ : Type*}

/-- Every round that goes on lowers the measure. -/
def Lowers (body : σ → σ ⊕ ρ) (μ : σ → Nat) : Prop :=
  ∀ s s', body s = .inl s' → μ s' < μ s

/-- Repeat `body` until it stops with a result. -/
def run (body : σ → σ ⊕ ρ) (μ : σ → Nat) (hμ : Lowers body μ) (s : σ) : ρ :=
  match h : body s with
  | .inl s' =>
    have : μ s' < μ s := hμ s s' h
    run body μ hμ s'
  | .inr r => r
termination_by μ s

variable {body : σ → σ ⊕ ρ} {μ : σ → Nat} {hμ : Lowers body μ}

theorem run_inl {s s' : σ} (h : body s = .inl s') : run body μ hμ s = run body μ hμ s' := by
  rw [run]
  split
  · rename_i t ht
    rw [h] at ht
    cases ht
    rfl
  · rename_i r hr
    rw [h] at hr
    cases hr

theorem run_inr {s : σ} {r : ρ} (h : body s = .inr r) : run body μ hμ s = r := by
  rw [run]
  split
  · rename_i t ht
    rw [h] at ht
    cases ht
  · rename_i r' hr
    rw [h] at hr
    cases hr
    rfl

/-- **The induction rule of a loop.**  What holds where the loop stops, and is
handed back by every round, holds of the state it starts in. -/
theorem run_induction {P : σ → ρ → Prop} (hstop : ∀ s r, body s = .inr r → P s r)
    (hround : ∀ s s' r, body s = .inl s' → P s' r → P s r) (s : σ) : P s (run body μ hμ s) := by
  -- Induction on the measure; the loop itself recurses along `body`.
  induction hn : μ s using Nat.strongRecOn generalizing s with
  | ind n ih =>
    cases h : body s with
    | inl s' =>
      have hlt := hμ s s' h
      rw [hn] at hlt
      rw [run_inl h]
      exact hround s s' _ h (ih (μ s') hlt s' rfl)
    | inr r =>
      rw [run_inr h]
      exact hstop s r h

/-- The loop, given up after `fuel` rounds. -/
def runFor (body : σ → σ ⊕ ρ) : Nat → σ → Option ρ
  | 0, _ => none
  | fuel + 1, s =>
    match body s with
    | .inl s' => runFor body fuel s'
    | .inr r => some r

theorem run_eq_of_runFor {fuel : Nat} {s : σ} {r : ρ} (h : runFor body fuel s = some r) :
    run body μ hμ s = r := by
  induction fuel generalizing s with
  | zero => cases h
  | succ fuel ih =>
    rw [runFor] at h
    cases hb : body s with
    | inl s' =>
      rw [hb] at h
      rw [run_inl hb]
      exact ih h
    | inr r' =>
      rw [hb] at h
      rw [run_inr hb]
      exact Option.some.inj h

end Loop

namespace Worklist

variable {α τ ε : Type*}

/-- Every item that `expand` puts out uses up some of `ν`. -/
def Bounded (expand : α → τ → Except ε (τ × List α)) (ν : τ → Nat) : Prop :=
  ∀ a t t' out, expand a t = .ok (t', out) → out.length + ν t' ≤ ν t

section Definitions

variable (expand : α → τ → Except ε (τ × List α))

/-- Take the first item and queue what it puts out behind the others. -/
def fifoRound : List α × τ → (List α × τ) ⊕ Except ε τ
  | ([], t) => .inr (.ok t)
  | (a :: queue, t) =>
    match expand a t with
    | .error e => .inr (.error e)
    | .ok (t', out) => .inl (queue ++ out, t')

/-- Expand the items of one level, collecting what they put out. -/
def level : List α → τ → List α → Except ε (τ × List α)
  | [], t, next => .ok (t, next)
  | a :: items, t, next =>
    match expand a t with
    | .error e => .error e
    | .ok (t', out) => level items t' (next ++ out)

/-- Expand one level and go on with the next. -/
def levelsRound : List α × τ → (List α × τ) ⊕ Except ε τ
  | ([], t) => .inr (.ok t)
  | (a :: items, t) =>
    match level expand (a :: items) t [] with
    | .error e => .inr (.error e)
    | .ok (t', next) => .inl (next, t')

variable {expand} {ν : τ → Nat}

theorem fifoRound_lowers (hν : Bounded expand ν) :
    Loop.Lowers (fifoRound expand) fun s => s.1.length + ν s.2 := by
  rintro ⟨items, t⟩ ⟨items', t'⟩ h
  cases items with
  | nil => cases h
  | cons a queue =>
    rw [fifoRound] at h
    cases hexpand : expand a t with
    | error e =>
      rw [hexpand] at h
      cases h
    | ok p =>
      rw [hexpand] at h
      cases h
      have := hν a t p.1 p.2 hexpand
      simp only [List.length_append, List.length_cons]
      omega

theorem level_bounded (hν : Bounded expand ν) {items : List α} {t t' : τ} {next next' : List α}
    (h : level expand items t next = .ok (t', next')) :
    next'.length + ν t' ≤ next.length + ν t := by
  induction items generalizing t next with
  | nil =>
    cases h
    exact Nat.le_refl _
  | cons a items ih =>
    rw [level] at h
    cases hexpand : expand a t with
    | error e =>
      rw [hexpand] at h
      cases h
    | ok p =>
      rw [hexpand] at h
      have hle := ih h
      have := hν a t p.1 p.2 hexpand
      rw [List.length_append] at hle
      omega

theorem levelsRound_lowers (hν : Bounded expand ν) :
    Loop.Lowers (levelsRound expand) fun s => s.1.length + ν s.2 := by
  rintro ⟨items, t⟩ ⟨items', t'⟩ h
  cases items with
  | nil => cases h
  | cons a items =>
    rw [levelsRound] at h
    cases hlevel : level expand (a :: items) t [] with
    | error e =>
      rw [hlevel] at h
      cases h
    | ok p =>
      rw [hlevel] at h
      cases h
      have hle := level_bounded hν hlevel
      simp only [List.length_nil, List.length_cons] at hle ⊢
      omega

/-- The worklist as a queue. -/
def fifo (hν : Bounded expand ν) (items : List α) (t : τ) : Except ε τ :=
  Loop.run (fifoRound expand) _ (fifoRound_lowers hν) (items, t)

/-- The worklist level by level. -/
def levels (hν : Bounded expand ν) (items : List α) (t : τ) : Except ε τ :=
  Loop.run (levelsRound expand) _ (levelsRound_lowers hν) (items, t)

end Definitions

variable {expand : α → τ → Except ε (τ × List α)} {ν : τ → Nat} (hν : Bounded expand ν)

theorem fifo_nil (t : τ) : fifo hν [] t = .ok t := Loop.run_inr rfl

theorem fifo_cons_error {a : α} {t : τ} {e : ε} (h : expand a t = .error e) (queue : List α) :
    fifo hν (a :: queue) t = .error e :=
  Loop.run_inr (by rw [fifoRound, h])

theorem fifo_cons_ok {a : α} {t t' : τ} {out : List α} (h : expand a t = .ok (t', out))
    (queue : List α) : fifo hν (a :: queue) t = fifo hν (queue ++ out) t' :=
  Loop.run_inl (by rw [fifoRound, h])

/-- **The invariant rule of a worklist.**  What every expansion keeps holds of the
state in which nothing is left. -/
theorem fifo_invariant {I : List α → τ → Prop}
    (hexpand : ∀ a queue t t' out, I (a :: queue) t → expand a t = .ok (t', out) →
      I (queue ++ out) t')
    {items : List α} {t t' : τ} (hI : I items t) (h : fifo hν items t = .ok t') : I [] t' := by
  suffices hrun : ∀ s : List α × τ, I s.1 s.2 → ∀ t', fifo hν s.1 s.2 = .ok t' → I [] t' from
    hrun (items, t) hI t' h
  refine Loop.run_induction
    (P := fun (s : List α × τ) (r : Except ε τ) => I s.1 s.2 → ∀ t', r = .ok t' → I [] t') ?_ ?_
  · rintro ⟨items, t⟩ r hr hI t' rfl
    cases items with
    | nil =>
      cases hr
      exact hI
    | cons a queue =>
      rw [fifoRound] at hr
      cases hexp : expand a t with
      | error e =>
        rw [hexp] at hr
        cases hr
      | ok p =>
        rw [hexp] at hr
        cases hr
  · rintro ⟨items, t⟩ s' r hs ih hI
    cases items with
    | nil => cases hs
    | cons a queue =>
      rw [fifoRound] at hs
      cases hexp : expand a t with
      | error e =>
        rw [hexp] at hs
        cases hs
      | ok p =>
        rw [hexp] at hs
        cases hs
        exact ih (hexpand a queue t p.1 p.2 hI hexp)

/-- **The relational rule of a worklist.**  Two worklists whose expansions keep their
states related, and put out related items, end in related states. -/
theorem fifo_related {expand' : α → τ → Except ε (τ × List α)} (hν' : Bounded expand' ν)
    {R : α → α → Prop} {S : τ → τ → Prop}
    (hexpand : ∀ {a b t u t' u' out out'}, R a b → S t u → expand a t = .ok (t', out) →
      expand' b u = .ok (u', out') → S t' u' ∧ List.Forall₂ R out out')
    {items items' : List α} {t u t' u' : τ} (hitems : List.Forall₂ R items items') (hS : S t u)
    (h : fifo hν items t = .ok t') (h' : fifo hν' items' u = .ok u') : S t' u' := by
  -- The second worklist goes on from items and a state related to those of the first.
  let I (items : List α) (t : τ) : Prop :=
    ∃ items' u, List.Forall₂ R items items' ∧ S t u ∧ fifo hν' items' u = .ok u'
  have hend : I [] t' := by
    refine fifo_invariant hν ?_ (⟨items', u, hitems, hS, h'⟩ : I items t) h
    rintro a queue t t' out ⟨_, u, hitems, hS, h'⟩ hout
    cases hitems with
    | @cons _ b _ queue' hab hqueue =>
      cases hout' : expand' b u with
      | error e =>
        rw [fifo_cons_error hν' hout'] at h'
        cases h'
      | ok p =>
        rw [fifo_cons_ok hν' hout'] at h'
        obtain ⟨hS', hitems'⟩ := hexpand hab hS hout hout'
        exact ⟨queue' ++ p.2, p.1, List.rel_append hqueue hitems', hS', h'⟩
  obtain ⟨_, u, hitems, hS, h'⟩ := hend
  cases hitems
  rw [fifo_nil] at h'
  cases h'
  exact hS

/-- A queue that holds the rest of one level and the beginning of the next
finishes the level first. -/
theorem fifo_append (items next : List α) (t : τ) :
    fifo hν (items ++ next) t =
      match level expand items t next with
      | .error e => .error e
      | .ok (t', next') => fifo hν next' t' := by
  induction items generalizing next t with
  | nil => rfl
  | cons a items ih =>
    rw [level, List.cons_append]
    cases hexpand : expand a t with
    | error e => exact fifo_cons_error hν hexpand _
    | ok p => rw [fifo_cons_ok hν hexpand, List.append_assoc, ih]

/-- **Level by level, a worklist does what the queue does.** -/
theorem levels_eq_fifo (items : List α) (t : τ) : levels hν items t = fifo hν items t := by
  refine Loop.run_induction (P := fun s r => r = fifo hν s.1 s.2) ?_ ?_ (items, t)
  · rintro ⟨items, t⟩ r h
    cases items with
    | nil =>
      cases h
      exact (fifo_nil hν t).symm
    | cons a items =>
      rw [levelsRound] at h
      have happend := fifo_append hν (a :: items) [] t
      rw [List.append_nil] at happend
      cases hlevel : level expand (a :: items) t [] with
      | error e =>
        rw [hlevel] at h happend
        cases h
        exact happend.symm
      | ok p =>
        rw [hlevel] at h
        cases h
  · rintro ⟨items, t⟩ ⟨next, t'⟩ r h ih
    cases items with
    | nil => cases h
    | cons a items =>
      rw [levelsRound] at h
      have happend := fifo_append hν (a :: items) [] t
      rw [List.append_nil] at happend
      cases hlevel : level expand (a :: items) t [] with
      | error e =>
        rw [hlevel] at h
        cases h
      | ok p =>
        rw [hlevel] at h happend
        cases h
        rw [ih]
        exact happend.symm

end Worklist

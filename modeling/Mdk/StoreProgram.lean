/-
Programs over a store whose calls can fail and whose process can die.

A program issues store calls one after the other.  What becomes of each call is
read off a *plan*: the call goes through, it fails and leaves the store alone, or
the process dies before it.  Once the plan is used up every call goes through, so
the empty plan is the run in which nothing goes wrong.  A transaction keeps its
writes only if its body returns and its commit goes through.

* `Program`, with `call`, `attempt` and `transaction`, is the embedding;
* `Spec allow P p Q E K` is the rule format: started where `P` holds, under a plan
  of allowed fates, `p` returns in `Q`, fails in `E` or is cut off in `K`;
* `Spec.bind`, `Spec.call`, `Spec.transaction`, `Spec.forM` are its rules, one per
  way of building a program;
* `Faithful` programs do, wherever they return, what they do when nothing goes wrong;
* `Moves R` programs leave the store related by `R` to the one they started on, whether
  they return, fail or are cut off.
-/
import Mathlib

namespace StoreProgram

/-- What becomes of one store call. -/
inductive Fate (φ : Type) where
  | done
  | fails (e : φ)
  | killed
deriving DecidableEq, Repr

/-- How a program stops. -/
inductive Ending (ε α : Type) where
  | returned (a : α)
  | failed (e : ε)
  | killed
deriving DecidableEq, Repr

structure Outcome (φ σ ε α : Type) where
  ending : Ending ε α
  store : σ
  rest : List (Fate φ)
deriving DecidableEq

/-- A program over the store `σ`, whose calls fail with a `φ` and which itself fails
with an `ε`. -/
def Program (φ σ ε α : Type) : Type := List (Fate φ) → σ → Outcome φ σ ε α

namespace Program

variable {φ σ ε ε' α β : Type}

instance : Monad (Program φ σ ε) where
  pure a := fun plan s => ⟨.returned a, s, plan⟩
  bind p f := fun plan s =>
    match p plan s with
    | ⟨.returned a, s', rest⟩ => f a rest s'
    | ⟨.failed e, s', rest⟩ => ⟨.failed e, s', rest⟩
    | ⟨.killed, s', rest⟩ => ⟨.killed, s', rest⟩

/-- Stop with an error, as an early return does. -/
def raise (e : ε) : Program φ σ ε α := fun plan s => ⟨.failed e, s, plan⟩

/-- Carry an error as a value, as a `match` on a result does. -/
def attempt (p : Program φ σ ε α) : Program φ σ ε' (Except ε α) := fun plan s =>
  match p plan s with
  | ⟨.returned a, s', rest⟩ => ⟨.returned (.ok a), s', rest⟩
  | ⟨.failed e, s', rest⟩ => ⟨.returned (.error e), s', rest⟩
  | ⟨.killed, s', rest⟩ => ⟨.killed, s', rest⟩

def mapError (g : ε → ε') (p : Program φ σ ε α) : Program φ σ ε' α := do
  match ← attempt p with
  | .ok a => pure a
  | .error e => raise (g e)

/-- One store call.  A call that goes through may still answer with an error. -/
def call (f : σ → Except φ α × σ) : Program φ σ φ α := fun plan s =>
  let answer : List (Fate φ) → Outcome φ σ φ α := fun rest =>
    match f s with
    | (.ok a, s') => ⟨.returned a, s', rest⟩
    | (.error e, s') => ⟨.failed e, s', rest⟩
  match plan with
  | [] => answer []
  | .done :: rest => answer rest
  | .fails e :: rest => ⟨.failed e, s, rest⟩
  | .killed :: rest => ⟨.killed, s, rest⟩

/-- All of the writes of `p`, or none: the commit is a call of its own. -/
def transaction (inject : φ → ε) (p : Program φ σ ε α) : Program φ σ ε α := fun plan s =>
  match p plan s with
  | ⟨.returned a, s', rest⟩ =>
    match rest with
    | [] => ⟨.returned a, s', []⟩
    | .done :: rest => ⟨.returned a, s', rest⟩
    | .fails e :: rest => ⟨.failed (inject e), s, rest⟩
    | .killed :: rest => ⟨.killed, s, rest⟩
  | ⟨.failed e, _, rest⟩ => ⟨.failed e, s, rest⟩
  | ⟨.killed, _, rest⟩ => ⟨.killed, s, rest⟩

/-- A step of the process itself, which makes no store call. -/
def internal (f : σ → α × σ) : Program φ σ ε α := fun plan s => ⟨.returned (f s).1, (f s).2, plan⟩

/-- The answer of a computation that reads nothing. -/
def ofExcept (r : Except ε α) : Program φ σ ε α := fun plan s =>
  match r with
  | .ok a => ⟨.returned a, s, plan⟩
  | .error e => ⟨.failed e, s, plan⟩

/-- A program over a part of the store. -/
def zoom {τ : Type} (get : τ → σ) (set : σ → τ → τ) (p : Program φ σ ε α) : Program φ τ ε α :=
  fun plan t =>
    let o := p plan (get t)
    ⟨o.ending, set o.store t, o.rest⟩

/-! ### The rule format -/

/-- The outcome is in `Q` if the program returned, in `E` if it failed and in `K` if
it was cut off, and the fates it leaves are allowed. -/
def Meets (allow : Fate φ → Prop) (o : Outcome φ σ ε α) (Q : α → σ → Prop)
    (E : ε → σ → Prop) (K : σ → Prop) : Prop :=
  (∀ f ∈ o.rest, allow f) ∧
    match o.ending with
    | .returned a => Q a o.store
    | .failed e => E e o.store
    | .killed => K o.store

/-- Started where `P` holds, under a plan of allowed fates, the program returns in
`Q`, fails in `E` or is cut off in `K`. -/
def Spec (allow : Fate φ → Prop) (P : σ → Prop) (p : Program φ σ ε α)
    (Q : α → σ → Prop) (E : ε → σ → Prop) (K : σ → Prop) : Prop :=
  ∀ plan s, (∀ f ∈ plan, allow f) → P s → Meets allow (p plan s) Q E K

section Rules

variable {allow : Fate φ → Prop} {P P' : σ → Prop} {E : ε → σ → Prop} {K : σ → Prop}
  {p : Program φ σ ε α} {Q : α → σ → Prop}

theorem Spec.pre (h : Spec allow P p Q E K) (hP : ∀ s, P' s → P s) : Spec allow P' p Q E K :=
  fun plan s hplan hs => h plan s hplan (hP s hs)

/-- A specification may be proved at each start on its own. -/
theorem Spec.at (h : ∀ s, P s → Spec allow (· = s) p Q E K) : Spec allow P p Q E K :=
  fun plan s hplan hs => h s hs plan s hplan rfl

/-- A fact in the precondition that is not about the store. -/
theorem Spec.pull {c : Prop} (h : c → Spec allow P p Q E K) :
    Spec allow (fun s => c ∧ P s) p Q E K :=
  fun plan s hplan hs => h hs.1 plan s hplan hs.2

/-- At a start that is known to meet the precondition. -/
theorem Spec.from (h : Spec allow P p Q E K) {s : σ} (hs : P s) : Spec allow (· = s) p Q E K :=
  h.pre fun _ heq => heq ▸ hs

theorem Spec.post {Q Q' : α → σ → Prop} {E' : ε → σ → Prop} {K' : σ → Prop}
    (h : Spec allow P p Q' E' K') (hQ : ∀ a s, Q' a s → Q a s) (hE : ∀ e s, E' e s → E e s)
    (hK : ∀ s, K' s → K s) : Spec allow P p Q E K := by
  intro plan s hplan hs
  have hmeets := h plan s hplan hs
  generalize p plan s = o at hmeets ⊢
  obtain ⟨ending, store, rest⟩ := o
  refine ⟨hmeets.1, ?_⟩
  cases ending with
  | returned a => exact hQ a store hmeets.2
  | failed e => exact hE e store hmeets.2
  | killed => exact hK store hmeets.2

theorem Spec.weaken {Q' : α → σ → Prop} (h : Spec allow P p Q' E K)
    (hQ : ∀ a s, Q' a s → Q a s) : Spec allow P p Q E K :=
  h.post hQ (fun _ _ h => h) fun _ h => h

/-- Only what holds after a failure is weakened. -/
theorem Spec.failing {E' : ε → σ → Prop} (h : Spec allow P p Q E' K)
    (hE : ∀ e s, E' e s → E e s) : Spec allow P p Q E K :=
  h.post (fun _ _ h => h) hE fun _ h => h

theorem Spec.and {Q Q' : α → σ → Prop} {E' : ε → σ → Prop} {K' : σ → Prop}
    (h : Spec allow P p Q E K) (h' : Spec allow P p Q' E' K') :
    Spec allow P p (fun a s => Q a s ∧ Q' a s) (fun e s => E e s ∧ E' e s)
      (fun s => K s ∧ K' s) := by
  intro plan s hplan hs
  have hmeets := h plan s hplan hs
  have hmeets' := h' plan s hplan hs
  generalize p plan s = o at hmeets hmeets' ⊢
  obtain ⟨ending, store, rest⟩ := o
  refine ⟨hmeets.1, ?_⟩
  cases ending <;> exact ⟨hmeets.2, hmeets'.2⟩

theorem Spec.pure (a : α) (h : ∀ s, P s → Q a s) :
    Spec allow P (Pure.pure a : Program φ σ ε α) Q E K :=
  fun _ s hplan hs => ⟨hplan, h s hs⟩

theorem Spec.raise (e : ε) (h : ∀ s, P s → E e s) :
    Spec allow P (Program.raise e : Program φ σ ε α) Q E K :=
  fun _ s hplan hs => ⟨hplan, h s hs⟩

variable {R : α → σ → Prop}

theorem Spec.bind {f : α → Program φ σ ε β} {Q : β → σ → Prop} (hp : Spec allow P p R E K)
    (hf : ∀ a, Spec allow (R a) (f a) Q E K) : Spec allow P (p >>= f) Q E K := by
  intro plan s hplan hs
  have hmeets := hp plan s hplan hs
  simp only [Bind.bind]
  generalize p plan s = o at hmeets ⊢
  obtain ⟨ending, store, rest⟩ := o
  cases ending with
  | returned a => exact hf a rest store hmeets.1 hmeets.2
  | failed e => exact hmeets
  | killed => exact hmeets

theorem Spec.attempt {p : Program φ σ ε' α} {Q : Except ε' α → σ → Prop}
    (h : Spec allow P p (fun a => Q (.ok a)) (fun e => Q (.error e)) K) :
    Spec allow P (Program.attempt p : Program φ σ ε (Except ε' α)) Q E K := by
  intro plan s hplan hs
  have hmeets := h plan s hplan hs
  simp only [Program.attempt]
  generalize p plan s = o at hmeets ⊢
  obtain ⟨ending, store, rest⟩ := o
  cases ending <;> exact hmeets

/-- A `match` on the result of `p`: each branch goes on from where `p` ends that way. -/
theorem Spec.bind_attempt {p : Program φ σ ε' α} {f : Except ε' α → Program φ σ ε β}
    {S : ε' → σ → Prop} {Q : β → σ → Prop} (hp : Spec allow P p R S K)
    (hok : ∀ a, Spec allow (R a) (f (.ok a)) Q E K)
    (herr : ∀ e, Spec allow (S e) (f (.error e)) Q E K) :
    Spec allow P (Program.attempt p >>= f) Q E K := by
  refine Spec.bind (R := fun r s => match r with | .ok a => R a s | .error e => S e s)
    (Spec.attempt hp) fun r => ?_
  cases r with
  | ok a => exact hok a
  | error e => exact herr e

theorem Spec.mapError {p : Program φ σ ε' α} {g : ε' → ε}
    (h : Spec allow P p Q (fun e => E (g e)) K) : Spec allow P (Program.mapError g p) Q E K :=
  Spec.bind_attempt h (fun a => Spec.pure a fun _ hs => hs)
    fun e => Spec.raise (g e) fun _ hs => hs

/-- Where `p` cannot fail, a `match` on its result only has its `ok` branch. -/
theorem Spec.bind_attempt_ok {p : Program φ σ ε' α} {f : Except ε' α → Program φ σ ε β}
    {Q : β → σ → Prop} (hp : Spec allow P p R (fun _ _ => False) K)
    (hf : ∀ a, Spec allow (R a) (f (.ok a)) Q E K) : Spec allow P (Program.attempt p >>= f) Q E K :=
  Spec.bind_attempt hp hf fun _ _ _ _ hs => hs.elim

/-- A store call: what the call does where it goes through, and the start again
where it fails or the process dies before it. -/
theorem Spec.call {f : σ → Except φ α × σ} {E : φ → σ → Prop}
    (hok : ∀ s a s', P s → f s = (.ok a, s') → Q a s')
    (herr : ∀ s e s', P s → f s = (.error e, s') → E e s')
    (hfails : ∀ s e, P s → allow (.fails e) → E e s) (hkill : ∀ s, P s → allow .killed → K s) :
    Spec allow P (Program.call f) Q E K := by
  intro plan s hplan hs
  have answer : ∀ rest : List (Fate φ), (∀ f ∈ rest, allow f) →
      Meets allow (match f s with
        | (.ok a, s') => (⟨.returned a, s', rest⟩ : Outcome φ σ φ α)
        | (.error e, s') => ⟨.failed e, s', rest⟩) Q E K := by
    intro rest hrest
    rcases hf : f s with ⟨r, s'⟩
    cases r with
    | ok a => exact ⟨hrest, hok s a s' hs hf⟩
    | error e => exact ⟨hrest, herr s e s' hs hf⟩
  match plan with
  | [] => exact answer [] hplan
  | .done :: rest => exact answer rest fun f hf => hplan f (.tail _ hf)
  | .fails e :: rest =>
    exact ⟨fun f hf => hplan f (.tail _ hf), hfails s e hs (hplan _ (.head _))⟩
  | .killed :: rest =>
    exact ⟨fun f hf => hplan f (.tail _ hf), hkill s hs (hplan _ (.head _))⟩

/-- A transaction: the body's postcondition where it is kept, the start again in
every other case. -/
theorem Spec.transaction {inject : φ → ε}
    (h : ∀ s, P s → Spec allow (· = s) p Q (fun e _ => E e s) (fun _ => K s))
    (hfails : ∀ s e, P s → allow (.fails e) → E (inject e) s)
    (hkill : ∀ s, P s → allow .killed → K s) :
    Spec allow P (Program.transaction inject p) Q E K := by
  intro plan s hplan hs
  have hmeets := h s hs plan s hplan rfl
  simp only [Program.transaction]
  generalize p plan s = o at hmeets ⊢
  obtain ⟨ending, store, rest⟩ := o
  obtain ⟨hrest, hend⟩ := hmeets
  cases ending with
  | returned a =>
    match rest with
    | [] => exact ⟨hrest, hend⟩
    | .done :: rest => exact ⟨fun f hf => hrest f (.tail _ hf), hend⟩
    | .fails e :: rest =>
      exact ⟨fun f hf => hrest f (.tail _ hf), hfails s e hs (hrest _ (.head _))⟩
    | .killed :: rest =>
      exact ⟨fun f hf => hrest f (.tail _ hf), hkill s hs (hrest _ (.head _))⟩
  | failed e => exact ⟨hrest, hend⟩
  | killed => exact ⟨hrest, hend⟩

theorem Spec.internal {f : σ → α × σ} (h : ∀ s, P s → Q (f s).1 (f s).2) :
    Spec allow P (Program.internal f : Program φ σ ε α) Q E K :=
  fun _ s hplan hs => ⟨hplan, h s hs⟩

theorem Spec.ofExcept {r : Except ε α} (hok : ∀ a s, r = .ok a → P s → Q a s)
    (herr : ∀ e s, r = .error e → P s → E e s) :
    Spec allow P (Program.ofExcept r : Program φ σ ε α) Q E K := by
  intro plan s hplan hs
  cases r with
  | ok a => exact ⟨hplan, hok a s rfl hs⟩
  | error e => exact ⟨hplan, herr e s rfl hs⟩

/-- A program over a part of the store, specified at the part it starts on. -/
theorem Spec.zoom {τ : Type} {get : τ → σ} {set : σ → τ → τ} {P : τ → Prop} {Q : α → τ → Prop}
    {E : ε → τ → Prop} {K : τ → Prop}
    (h : ∀ t, P t → Spec allow (· = get t) p (fun a s => Q a (set s t)) (fun e s => E e (set s t))
      (fun s => K (set s t))) : Spec allow P (Program.zoom get set p) Q E K := by
  intro plan t hplan ht
  have hmeets := h t ht plan (get t) hplan rfl
  simp only [Program.zoom]
  generalize p plan (get t) = o at hmeets ⊢
  obtain ⟨ending, store, rest⟩ := o
  cases ending <;> exact hmeets

/-- A loop over a list: what holds before each item, read off the items left. -/
theorem Spec.forM {f : β → Program φ σ ε PUnit} (I : List β → σ → Prop)
    (h : ∀ x xs, Spec allow (I (x :: xs)) (f x) (fun _ => I xs) E K) (l : List β) :
    Spec allow (I l) (l.forM f) (fun _ => I []) E K := by
  induction l with
  | nil => exact Spec.pure _ fun _ hs => hs
  | cons x xs ih => exact Spec.bind (h x xs) fun _ => ih

/-- Where it returns, the program returns in `Q`. -/
abbrev Returns (P : σ → Prop) (p : Program φ σ ε α) (Q : α → σ → Prop) : Prop :=
  Spec (fun _ => True) P p Q (fun _ _ => True) (fun _ => True)

theorem Spec.returns (h : Spec (fun _ => True) P p Q E K) : Returns P p Q :=
  h.post (fun _ _ hQ => hQ) (fun _ _ _ => trivial) fun _ _ => trivial

theorem Returns.ofExcept {r : Except ε α} :
    Returns P (Program.ofExcept r : Program φ σ ε α) fun a s => r = .ok a ∧ P s :=
  Spec.ofExcept (fun _ _ hr hs => ⟨hr, hs⟩) fun _ _ _ _ => trivial

theorem Returns.any (p : Program φ σ ε α) : Returns P p fun _ _ => True := by
  intro plan s _ _
  refine ⟨fun _ _ => trivial, ?_⟩
  cases (p plan s).ending <;> trivial

theorem Spec.returned (h : Spec allow P p Q E K) {rest : List (Fate φ)} {s s' : σ} {a : α}
    (hs : P s) (hrun : p [] s = ⟨.returned a, s', rest⟩) : Q a s' := by
  have hmeets := h [] s (by simp) hs
  rw [hrun] at hmeets
  exact hmeets.2

/-- What is specified without faults happens when nothing goes wrong. -/
theorem Spec.run {s : σ} (h : Spec (fun _ => False) (· = s) p Q (fun _ _ => False) (fun _ => False))
    : ∃ a s', p [] s = ⟨.returned a, s', []⟩ ∧ Q a s' := by
  obtain ⟨hrest, hend⟩ := h [] s (by simp) rfl
  rcases ho : p [] s with ⟨ending, store, rest⟩
  rw [ho] at hrest hend
  have hnil : rest = [] := List.eq_nil_iff_forall_not_mem.mpr hrest
  cases ending with
  | returned a => exact ⟨a, store, by rw [hnil], hend⟩
  | failed e => exact hend.elim
  | killed => exact hend.elim

end Rules

/-! ### Running a program step by step -/

section Runs

variable {plan rest : List (Fate φ)} {s s' : σ} {a : α} {p : Program φ σ ε α}

theorem bind_returned {f : α → Program φ σ ε β} (h : p plan s = ⟨.returned a, s', rest⟩) :
    (p >>= f) plan s = f a rest s' := by
  simp only [Bind.bind, h]

theorem ofExcept_ok_bind (a : α) (f : α → Program φ σ ε β) :
    (Program.ofExcept (.ok a) >>= f) = f a := rfl

theorem bind_failed {f : α → Program φ σ ε β} {e : ε} (h : p plan s = ⟨.failed e, s', rest⟩) :
    (p >>= f) plan s = ⟨.failed e, s', rest⟩ := by
  simp only [Bind.bind, h]

/-- A call that does not go through leaves the store alone. -/
theorem call_store (f : σ → Except φ α × σ) (plan : List (Fate φ)) (s : σ) :
    (Program.call f plan s).store = s ∨ (Program.call f plan s).store = (f s).2 := by
  have answer : ∀ rest : List (Fate φ), (match f s with
      | (.ok a, s') => (⟨.returned a, s', rest⟩ : Outcome φ σ φ α)
      | (.error e, s') => ⟨.failed e, s', rest⟩).store = (f s).2 := by
    intro rest
    rcases f s with ⟨r, s'⟩
    cases r <;> rfl
  match plan with
  | [] => exact .inr (answer [])
  | .done :: rest => exact .inr (answer rest)
  | .fails e :: rest => exact .inl rfl
  | .killed :: rest => exact .inl rfl

theorem mapError_returned {p : Program φ σ ε' α} {g : ε' → ε}
    (h : p plan s = ⟨.returned a, s', rest⟩) :
    Program.mapError g p plan s = ⟨.returned a, s', rest⟩ := by
  simp only [Program.mapError, Program.attempt, Bind.bind, h]
  rfl

theorem transaction_returned {inject : φ → ε} (h : p [] s = ⟨.returned a, s', []⟩) :
    Program.transaction inject p [] s = ⟨.returned a, s', []⟩ := by
  simp only [Program.transaction, h]

theorem transaction_failed {inject : φ → ε} {e : ε} (h : p plan s = ⟨.failed e, s', rest⟩) :
    Program.transaction inject p plan s = ⟨.failed e, s, rest⟩ := by
  simp only [Program.transaction, h]

end Runs

/-! ### Runs that return

A program that lets every failure through returns only if no call of it failed, and
then it does what it does under the empty plan. -/

/-- Where the program returns, it returns the same, in the same store, when nothing
goes wrong. -/
structure Faithful (p : Program φ σ ε α) : Prop where
  rest : ∀ plan s, ∀ f ∈ (p plan s).rest, f ∈ plan
  returned : ∀ plan s a s' rest, p plan s = ⟨.returned a, s', rest⟩ →
    p [] s = ⟨.returned a, s', []⟩

namespace Faithful

theorem pure (a : α) : Faithful (Pure.pure a : Program φ σ ε α) where
  rest _ _ _ hf := hf
  returned plan s b s' rest h := by
    cases h
    rfl

theorem raise (e : ε) : Faithful (Program.raise e : Program φ σ ε α) where
  rest _ _ _ hf := hf
  returned plan s b s' rest h := by cases h

theorem ofExcept (r : Except ε α) : Faithful (Program.ofExcept r : Program φ σ ε α) := by
  cases r with
  | ok a => exact pure a
  | error e => exact raise e

theorem bind {p : Program φ σ ε α} {f : α → Program φ σ ε β} (hp : Faithful p)
    (hf : ∀ a, Faithful (f a)) : Faithful (p >>= f) where
  rest plan s fate := by
    have hrest := hp.rest plan s
    simp only [Bind.bind]
    generalize p plan s = o at hrest ⊢
    obtain ⟨ending, store, rest⟩ := o
    cases ending with
    | returned a => exact fun hfate => hrest fate ((hf a).rest rest store fate hfate)
    | failed e => exact hrest fate
    | killed => exact hrest fate
  returned plan s b s' rest h := by
    simp only [Bind.bind] at h ⊢
    rcases ho : p plan s with ⟨ending, store, rest₁⟩
    rw [ho] at h
    cases ending with
    | returned a =>
      rw [hp.returned plan s a store rest₁ ho]
      exact (hf a).returned rest₁ store b s' rest h
    | failed e => cases h
    | killed => cases h

theorem mapError {p : Program φ σ ε' α} {g : ε' → ε} (hp : Faithful p) :
    Faithful (Program.mapError g p) where
  rest plan s fate := by
    have hrest := hp.rest plan s
    simp only [Program.mapError, Program.attempt, Bind.bind]
    generalize p plan s = o at hrest ⊢
    obtain ⟨ending, store, rest⟩ := o
    cases ending <;> exact hrest fate
  returned plan s b s' rest h := by
    simp only [Program.mapError, Program.attempt, Bind.bind] at h ⊢
    rcases ho : p plan s with ⟨ending, store, rest₁⟩
    rw [ho] at h
    cases ending with
    | returned a =>
      rw [hp.returned plan s a store rest₁ ho]
      cases h
      rfl
    | failed e => cases h
    | killed => cases h

/-- A call answers under the plan that lets it go through. -/
theorem call (f : σ → Except φ α × σ) : Faithful (Program.call f) where
  rest plan s fate hfate := by
    have answer : ∀ rest : List (Fate φ), (match f s with
        | (.ok a, s') => (⟨.returned a, s', rest⟩ : Outcome φ σ φ α)
        | (.error e, s') => ⟨.failed e, s', rest⟩).rest = rest := by
      intro rest
      rcases f s with ⟨r, s'⟩
      cases r <;> rfl
    match plan with
    | [] => exact answer [] ▸ hfate
    | .done :: rest => exact .tail _ (answer rest ▸ hfate)
    | .fails e :: rest => exact .tail _ hfate
    | .killed :: rest => exact .tail _ hfate
  returned plan s b s' rest h := by
    have answer : ∀ rest₁ : List (Fate φ), (match f s with
          | (.ok a, s') => (⟨.returned a, s', rest₁⟩ : Outcome φ σ φ α)
          | (.error e, s') => ⟨.failed e, s', rest₁⟩) = ⟨.returned b, s', rest⟩ →
        Program.call f [] s = ⟨.returned b, s', []⟩ := by
      intro rest₁ heq
      simp only [Program.call]
      rcases hf : f s with ⟨r, s''⟩
      rw [hf] at heq
      cases r with
      | ok a =>
        cases heq
        rfl
      | error e => cases heq
    match plan with
    | [] => exact answer [] h
    | .done :: rest₁ => exact answer rest₁ h
    | .fails e :: rest₁ => cases h
    | .killed :: rest₁ => cases h

/-- All there is to say about a faithful program, in the rule format. -/
theorem spec {p : Program φ σ ε α} (hp : Faithful p) (allow : Fate φ → Prop) (s : σ) :
    Spec allow (· = s) p (fun a s' => p [] s = ⟨.returned a, s', []⟩) (fun _ _ => True)
      (fun _ => True) := by
  rintro plan s₁ hplan rfl
  refine ⟨fun f hf => hplan f (hp.rest plan s₁ f hf), ?_⟩
  rcases ho : p plan s₁ with ⟨ending, store, rest⟩
  cases ending with
  | returned a => exact hp.returned plan s₁ a store rest ho
  | failed e => trivial
  | killed => trivial

end Faithful

/-! ### What every run does to the store -/

/-- However the program stops, the store it leaves is related to the one it started on. -/
def Moves (R : σ → σ → Prop) (p : Program φ σ ε α) : Prop := ∀ plan s, R s (p plan s).store

namespace Moves

variable {R R' : σ → σ → Prop} {p : Program φ σ ε α}

theorem mono (h : Moves R p) (hR : ∀ s s', R s s' → R' s s') : Moves R' p :=
  fun plan s => hR _ _ (h plan s)

/-- Use of the frame in the rule format, where every fate is allowed. -/
theorem spec (h : Moves R p) (s : σ) :
    Spec (fun _ => True) (· = s) p (fun _ => R s) (fun _ => R s) (R s) := by
  rintro plan s₁ _ rfl
  have hstore := h plan s₁
  generalize p plan s₁ = o at hstore ⊢
  obtain ⟨ending, store, rest⟩ := o
  refine ⟨fun _ _ => trivial, ?_⟩
  cases ending <;> exact hstore

/-- What the relation carries along is kept. -/
theorem keeps {I : σ → Prop} (h : Moves R p) (hI : ∀ s s', R s s' → I s → I s') :
    Spec (fun _ => True) I p (fun _ => I) (fun _ => I) I :=
  Spec.at fun s hs => (h.spec s).post (fun _ s' hR => hI s s' hR hs) (fun _ s' hR => hI s s' hR hs)
    fun s' hR => hI s s' hR hs

theorem internal {f : σ → α × σ} (h : ∀ s, R s (f s).2) :
    Moves R (Program.internal f : Program φ σ ε α) := fun _ s => h s

theorem attempt {p : Program φ σ ε' α} (hp : Moves R p) :
    Moves R (Program.attempt p : Program φ σ ε (Except ε' α)) := by
  intro plan s
  have hstore := hp plan s
  simp only [Program.attempt]
  generalize p plan s = o at hstore ⊢
  obtain ⟨ending, store, rest⟩ := o
  cases ending <;> exact hstore

theorem mapError {p : Program φ σ ε' α} {g : ε' → ε} (hp : Moves R p) :
    Moves R (Program.mapError g p) := by
  intro plan s
  have hstore := hp plan s
  simp only [Program.mapError, Program.attempt, Bind.bind]
  generalize p plan s = o at hstore ⊢
  obtain ⟨ending, store, rest⟩ := o
  cases ending <;> exact hstore

variable [IsPreorder σ R]

theorem pure (a : α) : Moves R (Pure.pure a : Program φ σ ε α) :=
  fun _ s => refl_of R s

theorem raise (e : ε) : Moves R (Program.raise e : Program φ σ ε α) :=
  fun _ s => refl_of R s

theorem ofExcept (r : Except ε α) :
    Moves R (Program.ofExcept r : Program φ σ ε α) := by
  cases r with
  | ok a => exact pure a
  | error e => exact raise e

theorem bind {f : α → Program φ σ ε β} (hp : Moves R p) (hf : ∀ a, Moves R (f a)) :
    Moves R (p >>= f) := by
  intro plan s
  have hstore := hp plan s
  simp only [Bind.bind]
  generalize p plan s = o at hstore ⊢
  obtain ⟨ending, store, rest⟩ := o
  cases ending with
  | returned a => exact trans_of R hstore (hf a rest store)
  | failed e => exact hstore
  | killed => exact hstore

theorem when {c : Prop} [Decidable c] {p : Program φ σ ε Unit} {k : Unit → Program φ σ ε β}
    (hp : Moves R p) (hk : Moves R (k ())) : Moves R (if c then p >>= k else k ()) := by
  split
  · exact hp.bind fun _ => hk
  · exact hk

theorem ofExcept_bind {r : Except ε α} {f : α → Program φ σ ε β}
    (h : ∀ a, r = .ok a → Moves R (f a)) : Moves R (Program.ofExcept r >>= f) := by
  cases r with
  | ok a => exact h a rfl
  | error e => exact raise e

theorem call {f : σ → Except φ α × σ} (h : ∀ s, R s (f s).2) :
    Moves R (Program.call f) := by
  intro plan s
  obtain heq | heq := call_store f plan s
  · rw [heq]
    exact refl_of R s
  · rw [heq]
    exact h s

theorem transaction {inject : φ → ε} (hp : Moves R p) : Moves R (Program.transaction inject p) := by
  intro plan s
  have hstore := hp plan s
  simp only [Program.transaction]
  generalize p plan s = o at hstore ⊢
  obtain ⟨ending, store, rest⟩ := o
  cases ending with
  | returned a =>
    match rest with
    | [] => exact hstore
    | .done :: _ => exact hstore
    | .fails _ :: _ => exact refl_of R s
    | .killed :: _ => exact refl_of R s
  | failed e => exact refl_of R s
  | killed => exact refl_of R s

theorem forM {f : β → Program φ σ ε PUnit} (h : ∀ x, Moves R (f x)) (l : List β) :
    Moves R (l.forM f) := by
  induction l with
  | nil => exact pure _
  | cons x xs ih => exact bind (h x) fun _ => ih

end Moves

end Program

end StoreProgram

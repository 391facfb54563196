/-
The shortcuts of the inline scan (`tokenize` of `inline.rs`).

The closing run of a code span is looked up in an index of the runs of the text, and after a
dollar sign whose scan found no closer no later one is tried.  What the other arms recognise
is a parameter; they only have to move on.

* `nextRun_new` — the index finds what walking forward finds;
* `findMathCloser_after` — a scan from a later dollar sign joins the one that failed;
* `tokenize_eq_tokenizeWith_walking` — **the output is the one without either shortcut**.
-/
import Mdk.Utf8

open Std (ExtTreeMap)

namespace Mdk.Markdown

def backtick : UInt8 := 0x60

def byte (c : Char) : UInt8 := c.toNat.toUInt8

/-! ### Code spans -/

section

variable (bytes : List UInt8)

def skipBacktickRun (i : ℕ) : ℕ :=
  if h : bytes[i]? = some backtick then skipBacktickRun (i + 1) else i
termination_by bytes.length - i
decreasing_by
  have := (List.getElem?_eq_some_iff.mp h).1
  omega

theorem le_skipBacktickRun (i : ℕ) : i ≤ skipBacktickRun bytes i := by
  fun_induction skipBacktickRun bytes i <;> omega

variable {bytes} {i : ℕ}

theorem lt_skipBacktickRun (h : bytes[i]? = some backtick) : i < skipBacktickRun bytes i := by
  rw [skipBacktickRun, dif_pos h]
  exact le_skipBacktickRun bytes (i + 1)

/-- Inside a run, its end is the same. -/
theorem skipBacktickRun_inside {j : ℕ} (hle : j ≤ i) (hlt : i < skipBacktickRun bytes j) :
    skipBacktickRun bytes i = skipBacktickRun bytes j := by
  fun_induction skipBacktickRun bytes j with
  | case1 j h ih =>
    obtain rfl | hne := Nat.eq_or_lt_of_le hle
    · rw [skipBacktickRun, dif_pos h]
    · exact ih hne hlt
  | case2 j h => omega

variable (bytes) in
/-- The maximal runs from a position on, with their ends: where the loop of
`CodeSpanIndex::new` stops. -/
def backtickRuns (i : ℕ) : List (ℕ × ℕ) :=
  if hlt : i < bytes.length then
    if h : bytes[i]? = some backtick then
      (i, skipBacktickRun bytes i) :: backtickRuns (skipBacktickRun bytes i)
    else backtickRuns (i + 1)
  else []
termination_by bytes.length - i
decreasing_by
  · have := lt_skipBacktickRun h
    omega
  · omega

structure CodeSpanIndex where
  byLen : ExtTreeMap ℕ (List (ℕ × ℕ)) := ∅

namespace CodeSpanIndex

def push (index : CodeSpanIndex) (run : ℕ × ℕ) : CodeSpanIndex :=
  ⟨index.byLen.insert (run.2 - run.1) (index.byLen[run.2 - run.1]?.getD [] ++ [run])⟩

def new (bytes : List UInt8) : CodeSpanIndex := (backtickRuns bytes 0).foldl push {}

/-- The runs are in order, so the partition point is where they begin to start later. -/
def nextRun (index : CodeSpanIndex) (runLen afterStart : ℕ) : Option (ℕ × ℕ) := do
  let runs ← index.byLen[runLen]?
  (runs.dropWhile fun run => run.1 ≤ afterStart).head?

end CodeSpanIndex

/-- The next run of this length, walking forward. -/
def walkToRun (bytes : List UInt8) (runLen i : ℕ) : Option (ℕ × ℕ) :=
  (backtickRuns bytes (skipBacktickRun bytes i)).find? fun run => run.2 - run.1 = runLen

theorem lt_of_mem_backtickRuns {run : ℕ × ℕ} (h : run ∈ backtickRuns bytes i) :
    i ≤ run.1 ∧ run.1 < run.2 := by
  fun_induction backtickRuns bytes i with
  | case1 i _ hbacktick ih =>
    have hlt := lt_skipBacktickRun hbacktick
    rcases List.mem_cons.mp h with rfl | h
    · exact ⟨le_rfl, hlt⟩
    · exact ⟨hlt.le.trans (ih h).1, (ih h).2⟩
  | case2 i _ _ ih => exact ⟨(Nat.le_succ i).trans (ih h).1, (ih h).2⟩
  | case3 i _ => cases h

/-- The run found lies ahead. -/
theorem lt_of_walkToRun {runLen : ℕ} {run : ℕ × ℕ} (h : walkToRun bytes runLen i = some run) :
    i < run.2 := by
  have hrun := lt_of_mem_backtickRuns (List.mem_of_find?_eq_some h)
  have := le_skipBacktickRun bytes i
  omega

/-- The runs before a position inside a run, that run among them, and those after it. -/
theorem backtickRuns_split (h : bytes[i]? = some backtick) {j : ℕ} (hle : j ≤ i) :
    ∃ before, backtickRuns bytes j = before ++ backtickRuns bytes (skipBacktickRun bytes i) ∧
      ∀ run ∈ before, run.1 ≤ i := by
  have hlt := (List.getElem?_eq_some_iff.mp h).1
  fun_induction backtickRuns bytes j with
  | case1 j _ hbacktick ih =>
    by_cases hin : i < skipBacktickRun bytes j
    · rw [skipBacktickRun_inside hle hin]
      exact ⟨[_], rfl, fun run hrun => List.mem_singleton.mp hrun ▸ hle⟩
    · obtain ⟨before, heq, hbefore⟩ := ih (not_lt.mp hin)
      exact ⟨_ :: before, by rw [heq]; rfl, List.forall_mem_cons.mpr ⟨hle, hbefore⟩⟩
  | case2 j _ hother ih =>
    have hne : j ≠ i := fun heq => hother (heq ▸ h)
    exact ih (by omega)
  | case3 j hend => omega

theorem byLen_foldl_push (runs : List (ℕ × ℕ)) (index : CodeSpanIndex) (runLen : ℕ) :
    (runs.foldl CodeSpanIndex.push index).byLen[runLen]?.getD [] =
      index.byLen[runLen]?.getD [] ++ runs.filter fun run => run.2 - run.1 = runLen := by
  induction runs generalizing index with
  | nil => simp
  | cons run runs ih =>
    rw [List.foldl_cons, ih, CodeSpanIndex.push]
    by_cases hlen : run.2 - run.1 = runLen
    · subst hlen
      simp
    · simp [ExtTreeMap.getElem?_insert, hlen]

/-- The index finds what walking forward finds. -/
theorem nextRun_new (h : bytes[i]? = some backtick) (runLen : ℕ) :
    (CodeSpanIndex.new bytes).nextRun runLen i = walkToRun bytes runLen i := by
  obtain ⟨before, hsplit, hbefore⟩ := backtickRuns_split h (Nat.zero_le i)
  have hruns := byLen_foldl_push (backtickRuns bytes 0) {} runLen
  have hnext : (CodeSpanIndex.new bytes).nextRun runLen i =
      (((CodeSpanIndex.new bytes).byLen[runLen]?.getD []).dropWhile fun run =>
        run.1 ≤ i).head? := by
    rw [CodeSpanIndex.nextRun]
    cases (CodeSpanIndex.new bytes).byLen[runLen]? <;> rfl
  rw [hnext, CodeSpanIndex.new, hruns, hsplit, List.filter_append]
  simp only [ExtTreeMap.getElem?_empty, Option.getD_none, List.nil_append]
  rw [List.dropWhile_append_of_pos fun run hrun => decide_eq_true
    (hbefore run (List.mem_filter.mp hrun).1), walkToRun, ← List.head?_filter]
  cases hlater : (backtickRuns bytes (skipBacktickRun bytes i)).filter
      fun run => run.2 - run.1 = runLen with
  | nil => rfl
  | cons run later =>
    have hmem : run ∈ backtickRuns bytes (skipBacktickRun bytes i) :=
      (List.mem_filter.mp (hlater ▸ List.mem_cons_self)).1
    have hlt : ¬run.1 ≤ i := by
      have := lt_skipBacktickRun h
      have := lt_of_mem_backtickRuns hmem
      omega
    rw [List.dropWhile_cons_of_neg (by simpa using hlt)]

/-! ### Inline math -/

def isMathSpace (c : UInt8) : Bool := c = byte ' ' || c = byte '\t' || c = byte '\n'

variable (bytes)

/-- The loop of `try_inline_math`: the dollar sign that closes. -/
def findMathCloser (k : ℕ) : Option ℕ :=
  if h : k < bytes.length then
    if bytes[k] = byte '\\' ∧ k + 1 < bytes.length then findMathCloser (k + 2)
    else if bytes[k] = byte '$' then
      if bytes[k + 1]? = some (byte '$') then findMathCloser (k + 2)
      else if bytes[k - 1]?.any isMathSpace then findMathCloser (k + 1)
      else some k
    else findMathCloser (k + 1)
  else none
termination_by bytes.length - k

inductive InlineMathScan where
  | matched (content : String) (stop : ℕ)
  | noMatch
  | noCloserInSuffix

def tryInlineMath (i : ℕ) : InlineMathScan :=
  match bytes[i + 1]? with
  | none => .noMatch
  | some next =>
    if next = byte '$' ∨ isMathSpace next then .noMatch
    else
      match findMathCloser bytes (i + 1) with
      | none => .noCloserInSuffix
      | some k =>
        match ofUtf8? ((bytes.take k).drop (i + 1)) with
        | none => .noMatch
        | some content => .matched content (k + 1)

variable {bytes}

theorem le_findMathCloser {k closer : ℕ} (h : findMathCloser bytes k = some closer) :
    k ≤ closer := by
  fun_induction findMathCloser bytes k with
  | case1 k _ _ ih => exact (Nat.le_add_right k 2).trans (ih h)
  | case2 k _ _ _ _ ih => exact (Nat.le_add_right k 2).trans (ih h)
  | case3 k _ _ _ _ _ ih => exact (Nat.le_succ k).trans (ih h)
  | case4 k => exact (Option.some.inj h).le
  | case5 k _ _ _ ih => exact (Nat.le_succ k).trans (ih h)
  | case6 k _ => cases h

/-- A scan that fails comes past every single dollar sign, so a scan from there fails too. -/
theorem findMathCloser_after {k j : ℕ} (h : findMathCloser bytes k = none) (hle : k ≤ j)
    (hdollar : bytes[j]? = some (byte '$')) (hsingle : bytes[j + 1]? ≠ some (byte '$')) :
    findMathCloser bytes (j + 1) = none := by
  have hj := (List.getElem?_eq_some_iff.mp hdollar).1
  fun_induction findMathCloser bytes k with
  | case1 k hlt hescape ih =>
    -- the escaped byte is passed over, whichever it is
    obtain rfl | rfl | hlater : j = k ∨ j = k + 1 ∨ k + 2 ≤ j := by omega
    · rw [List.getElem?_eq_getElem hlt, hescape.1] at hdollar
      exact absurd (Option.some.inj hdollar) (by decide)
    · exact h
    · exact ih h hlater
  | case2 k _ _ _ hdouble ih =>
    obtain rfl | rfl | hlater : j = k ∨ j = k + 1 ∨ k + 2 ≤ j := by omega
    · exact absurd hdouble hsingle
    · exact h
    · exact ih h hlater
  | case3 k _ _ _ _ _ ih =>
    obtain rfl | hlater := Nat.eq_or_lt_of_le hle
    · exact h
    · exact ih h hlater
  | case4 k => cases h
  | case5 k hlt _ hother ih =>
    obtain rfl | hlater := Nat.eq_or_lt_of_le hle
    · rw [List.getElem?_eq_getElem hlt] at hdollar
      exact absurd (Option.some.inj hdollar) hother
    · exact ih h hlater
  | case6 k hend => omega

/-- No dollar sign from here on opens inline math. -/
def NoMathFrom (bytes : List UInt8) (i : ℕ) : Prop :=
  ∀ j, i ≤ j → bytes[j]? = some (byte '$') → ∀ content stop,
    tryInlineMath bytes j ≠ .matched content stop

theorem findMathCloser_of_exhausted (h : tryInlineMath bytes i = .noCloserInSuffix) :
    findMathCloser bytes (i + 1) = none := by
  fun_cases tryInlineMath bytes i <;> simp_all [tryInlineMath]

theorem findMathCloser_of_matched {content : String} {stop : ℕ}
    (h : tryInlineMath bytes i = .matched content stop) :
    bytes[i + 1]? ≠ some (byte '$') ∧
      ∃ k, findMathCloser bytes (i + 1) = some k ∧ stop = k + 1 := by
  fun_cases tryInlineMath bytes i <;> simp_all [tryInlineMath]

theorem noMathFrom_of_exhausted (h : tryInlineMath bytes i = .noCloserInSuffix) :
    NoMathFrom bytes (i + 1) := by
  intro j hle hdollar content stop hmatched
  obtain ⟨hsingle, k, hcloser, -⟩ := findMathCloser_of_matched hmatched
  rw [findMathCloser_after (findMathCloser_of_exhausted h) hle hdollar hsingle] at hcloser
  cases hcloser

theorem lt_of_matched {content : String} {stop : ℕ}
    (h : tryInlineMath bytes i = .matched content stop) : i < stop := by
  obtain ⟨-, k, hcloser, rfl⟩ := findMathCloser_of_matched h
  have := le_findMathCloser hcloser
  omega

end

/-! ### The tokenizer -/

def slice (bytes : List UInt8) (start stop : ℕ) : String :=
  (ofUtf8? ((bytes.take stop).drop start)).getD ""

def collapseNewlines : Bool → List Char → List Char
  | _, [] => []
  | afterNewline, c :: rest =>
    if c = '\n' then (if afterNewline then [] else [' ']) ++ collapseNewlines true rest
    else c :: collapseNewlines false rest

def normalizeCodeSpan (content : String) : String :=
  let s := collapseNewlines false content.toList
  if 2 ≤ s.length ∧ s.head? = some ' ' ∧ s.getLast? = some ' ' ∧ s.any (· ≠ ' ') then
    String.ofList (s.drop 1).dropLast
  else String.ofList s

/-- What `tokenize` builds (`τ`, from which the nodes are made in the end), and its arms for
the bytes that neither shortcut is about, with the references they look up.  An arm moves
on. -/
structure InlineArms (ρ τ ι : Type) where
  start : τ
  pushText : String → τ → τ
  pushCode : String → τ → τ
  pushMath : String → τ → τ
  otherArm : ρ → List UInt8 → (i : ℕ) → τ → τ × {stop : ℕ // i < stop}
  finish : τ → List ι

/-- How the closing run of a code span is found, which lies ahead, and whether a failed
scan for the end of inline math is remembered. -/
structure Shortcuts where
  closing : List UInt8 → ℕ → ℕ → Option (ℕ × ℕ)
  ahead : ∀ {bytes : List UInt8} {runLen i : ℕ} {run : ℕ × ℕ}, bytes[i]? = some backtick →
    closing bytes runLen i = some run → i < run.2
  remembers : Bool

section

variable (shortcuts : Shortcuts) {ρ τ ι : Type} (arms : InlineArms ρ τ ι) (refs : ρ)
  (bytes : List UInt8)

def tryCodeSpan (i : ℕ) (h : bytes[i]? = some backtick) :
    Option (String × {stop : ℕ // i < stop}) :=
  let contentStart := skipBacktickRun bytes i
  (shortcuts.closing bytes (contentStart - i) i).pmap (fun run hlt =>
    (normalizeCodeSpan (slice bytes contentStart run.1), ⟨run.2, hlt⟩)) fun _ hrun =>
      shortcuts.ahead h hrun

/-- One round of the loop; the flag is `inline_math_closer_exhausted`. -/
def tokenizeStep (tokens : τ) (exhausted : Bool) (i : ℕ) (hlt : i < bytes.length) :
    (τ × Bool) × {stop : ℕ // i < stop} :=
  if h : bytes[i] = backtick then
    have h : bytes[i]? = some backtick := List.getElem?_eq_some_iff.mpr ⟨hlt, h⟩
    match tryCodeSpan shortcuts bytes i h with
    | some (content, stop) => ((arms.pushCode content tokens, exhausted), stop)
    | none =>
      ((arms.pushText (slice bytes i (skipBacktickRun bytes i)) tokens, exhausted),
        ⟨skipBacktickRun bytes i, lt_skipBacktickRun h⟩)
  else if bytes[i] = byte '$' then
    if exhausted then ((arms.pushText "$" tokens, true), ⟨i + 1, Nat.lt_succ_self i⟩)
    else
      match h : tryInlineMath bytes i with
      | .matched content stop =>
        ((arms.pushMath content tokens, false), ⟨stop, lt_of_matched h⟩)
      | .noMatch => ((arms.pushText "$" tokens, false), ⟨i + 1, Nat.lt_succ_self i⟩)
      | .noCloserInSuffix =>
        ((arms.pushText "$" tokens, shortcuts.remembers), ⟨i + 1, Nat.lt_succ_self i⟩)
  else
    let round := arms.otherArm refs bytes i tokens
    ((round.1, exhausted), round.2)

def tokenizeLoop (tokens : τ) (exhausted : Bool) (i : ℕ) : τ :=
  if hlt : i < bytes.length then
    match tokenizeStep shortcuts arms refs bytes tokens exhausted i hlt with
    | ((tokens, exhausted), ⟨stop, _⟩) => tokenizeLoop tokens exhausted stop
  else tokens
termination_by bytes.length - i

def tokenizeWith (raw : String) : List ι :=
  arms.finish (tokenizeLoop shortcuts arms refs (utf8Bytes raw) arms.start false 0)

end

def indexed : Shortcuts where
  closing bytes := (CodeSpanIndex.new bytes).nextRun
  ahead h hrun := lt_of_walkToRun (nextRun_new h _ ▸ hrun)
  remembers := true

/-- Walking to every closing run, and trying every dollar sign. -/
def walking : Shortcuts := ⟨walkToRun, fun _ => lt_of_walkToRun, false⟩

section

variable {ρ τ ι : Type} (arms : InlineArms ρ τ ι) (refs : ρ)

def tokenize (raw : String) : List ι := tokenizeWith indexed arms refs raw

variable {bytes : List UInt8}

theorem NoMathFrom.mono {i j : ℕ} (h : NoMathFrom bytes i) (hle : i ≤ j) : NoMathFrom bytes j :=
  fun k hk => h k (hle.trans hk)

theorem tryCodeSpan_indexed {i : ℕ} (h : bytes[i]? = some backtick) :
    tryCodeSpan indexed bytes i h = tryCodeSpan walking bytes i h := by
  simp only [tryCodeSpan, indexed, walking, nextRun_new h]

/-- The rounds agree as long as the flag is set only where no dollar sign opens any more. -/
theorem tokenizeStep_walking (tokens : τ) {exhausted : Bool} {i : ℕ} (hlt : i < bytes.length)
    (h : exhausted = true → NoMathFrom bytes i) :
    ∃ tokens' flag stop,
      tokenizeStep indexed arms refs bytes tokens exhausted i hlt = ((tokens', flag), stop) ∧
      tokenizeStep walking arms refs bytes tokens false i hlt = ((tokens', false), stop) ∧
      (flag = true → NoMathFrom bytes stop) := by
  have hkept : ∀ stop : {stop : ℕ // i < stop}, exhausted = true → NoMathFrom bytes stop :=
    fun stop hflag => (h hflag).mono stop.2.le
  unfold tokenizeStep
  by_cases hbacktick : bytes[i] = backtick
  · have hat := List.getElem?_eq_some_iff.mpr ⟨hlt, hbacktick⟩
    simp only [dif_pos hbacktick]
    rw [tryCodeSpan_indexed hat]
    cases tryCodeSpan walking bytes i hat with
    | some span => exact ⟨_, _, _, rfl, rfl, hkept _⟩
    | none => exact ⟨_, _, _, rfl, rfl, hkept _⟩
  simp only [dif_neg hbacktick]
  by_cases hdollar : bytes[i] = byte '$'
  · simp only [if_pos hdollar]
    cases exhausted with
    | true =>
      -- the flag is right: a scan from here would not have matched
      have hnot := h rfl i le_rfl (List.getElem?_eq_some_iff.mpr ⟨hlt, hdollar⟩)
      refine ⟨_, _, _, rfl, ?_, hkept _⟩
      simp only [Bool.false_eq_true, if_false]
      split
      · exact absurd ‹_› (hnot _ _)
      · rfl
      · rfl
    | false =>
      simp only [Bool.false_eq_true, if_false]
      split
      · exact ⟨_, _, _, rfl, rfl, nofun⟩
      · exact ⟨_, _, _, rfl, rfl, nofun⟩
      · exact ⟨_, _, _, rfl, rfl, fun _ => noMathFrom_of_exhausted ‹_›⟩
  · simp only [if_neg hdollar]
    exact ⟨_, _, _, rfl, rfl, hkept _⟩

theorem tokenizeLoop_walking (tokens : τ) {exhausted : Bool} {i : ℕ}
    (h : exhausted = true → NoMathFrom bytes i) :
    tokenizeLoop indexed arms refs bytes tokens exhausted i =
      tokenizeLoop walking arms refs bytes tokens false i := by
  induction hleft : bytes.length - i using Nat.strong_induction_on
    generalizing tokens exhausted i with
  | _ left ih =>
    rw [tokenizeLoop, tokenizeLoop.eq_def walking]
    split
    · rename_i hlt
      obtain ⟨tokens', flag, ⟨stop, hstop⟩, hindexed, hwalking, hflag⟩ :=
        tokenizeStep_walking arms refs tokens hlt h
      simp only [hindexed, hwalking]
      exact ih _ (by omega) tokens' hflag rfl
    · rfl

/-- Neither shortcut changes the output. -/
theorem tokenize_eq_tokenizeWith_walking (raw : String) :
    tokenize arms refs raw = tokenizeWith walking arms refs raw := by
  have h : false = true → NoMathFrom (utf8Bytes raw) 0 := nofun
  exact congrArg arms.finish (tokenizeLoop_walking arms refs arms.start h)

end

end Mdk.Markdown

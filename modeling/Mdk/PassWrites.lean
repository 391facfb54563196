/-
What the operations do to a pass record.

`PassWrite` has one rule for each write of the record, with what is known where the
write is made.  Every operation is a sequence of such writes (`exec_spec`), so that
what holds of a pass is shown once for each rule.

Main result:
* `PassOp.exec_spec` — the writes of an operation, the passes it opens, and what a
  load leaves.
-/
import Mdk.ConvergencePass

namespace Mdk

open PassEngine

/-! ### Operations -/

/-- The operations on the pass of one group, and what happens around them. -/
inductive PassOp where
  | prepare (now : ConvergenceTime)
  | admission (messageId : String) (now : ConvergenceTime)
  | converge (now : ConvergenceTime) (resolution : Resolution)
  | consumeFairnessSlot
  | deletePass
  | restart (clockInstanceId : UInt64) (now : ConvergenceTime)
  | outside (view : GroupView)

/-- What an operation reports: whether it opened a pass, the time it loaded the pass at,
and the delay that `prepare_convergence_cutoff_delay_ms` returned. -/
structure OpReport where
  opened : Bool := false
  loadedAt : Option ConvergenceTime := none
  delayMs : Option UInt64 := none
deriving DecidableEq, Repr

def PassOp.exec (codec : WireCodec) (groupId : GroupId) (policy : CanonicalizationPolicy)
    (engine : PassEngine) : PassOp → PassEngine × OpReport
  | .prepare now =>
    match engine.prepareConvergenceCutoffDelayMs codec groupId policy now with
    | (engine', .error _) => (engine', {})
    | (engine', .ok (delayMs, opened)) =>
      (engine', ⟨opened, if engine.view.quarantined then none else some now, delayMs⟩)
  | .admission messageId now =>
    match engine.bufferConvergenceMessage codec groupId policy messageId now with
    | (engine', .error _) => (engine', {})
    | (engine', .ok (_, opened)) =>
      (engine', ⟨opened, if engine.view.admissionAllowed then some now else none, none⟩)
  | .converge now resolution =>
    match engine.convergeStoredOpenmlsMessages codec groupId policy now resolution with
    | (engine', .error _) => (engine', {})
    | (engine', .ok (opened, _)) =>
      (engine', ⟨opened, if engine.view.convergenceHeld then none else some now, none⟩)
  | .consumeFairnessSlot => (engine.consumeConvergenceFairnessSlot, {})
  | .deletePass => ({ engine with pass := none }, {})
  | .restart clockInstanceId _ => ({ engine with clockInstanceId }, {})
  | .outside view => ({ engine with view }, {})

open PassOp

/-! ### The writes of a pass record -/

/-- One write of the pass record, during an operation of the engine with `view` and
`clock` at time `now`.  The number counts the passes that were opened. -/
inductive PassWrite (codec : WireCodec) (groupId : GroupId) (policy : CanonicalizationPolicy)
    (view : GroupView) (clock : UInt64) (now : ConvergenceTime) :
    Option DurableConvergencePass × Nat → Option DurableConvergencePass × Nat → Prop
  | delete {pass : Option DurableConvergencePass} {n : Nat} :
      PassWrite codec groupId policy view clock now (pass, n) (none, n)
  | slot {pass : DurableConvergencePass} {n : Nat} :
      PassWrite codec groupId policy view clock now (some pass, n)
        (some { pass with fairnessSlotAvailable := false }, n)
  | rebase {pass : DurableConvergencePass} {n : Nat} (hphase : pass.phase = .collecting)
      (hclock : pass.clockInstanceId ≠ clock) :
      PassWrite codec groupId policy view clock now (some pass, n)
        (some (normalizeConvergencePassForRuntime pass now clock).1, n)
  | opened {pass : Option DurableConvergencePass} {n : Nat} {view' : GroupView}
      {generation : UInt64} {baseEpoch : EpochId} {members : List ConvergencePassMember}
      (hseed : seedConvergencePassMembers codec groupId policy view baseEpoch =
        (view', .ok (members, true))) :
      PassWrite codec groupId policy view clock now (pass, n)
        (some (openedPass groupId policy clock generation baseEpoch now members), n + 1)
  | admission {pass : DurableConvergencePass} {n : Nat} {member : ConvergencePassMember}
      {input : ClassifiedConvergenceInput} (hphase : pass.phase = .collecting)
      (hclock : pass.clockInstanceId = clock)
      (hfresh : ∀ m ∈ pass.members, m.messageId ≠ member.messageId)
      (hhorizon : withinHorizon policy pass.baseEpoch member.sourceEpoch = true)
      (hcutoff : now.monotonicMs < pass.cutoffMonotonicMs) :
      PassWrite codec groupId policy view clock now (some pass, n)
        (some (admitMember policy pass member input now), n)
  | freeze {pass : DurableConvergencePass} {n : Nat} (hphase : pass.phase = .collecting)
      (hclock : pass.clockInstanceId = clock)
      (hcutoff : pass.cutoffMonotonicMs ≤ now.monotonicMs) :
      PassWrite codec groupId policy view clock now (some pass, n)
        (some (freezeCollectingConvergencePass pass now), n)
  | resolve {pass : DurableConvergencePass} {n : Nat}
      (hphase : pass.phase = .frozen ∨ pass.phase = .resolving) :
      PassWrite codec groupId policy view clock now (some pass, n)
        (some { pass with phase := .resolving }, n)
  | complete {pass : DurableConvergencePass} {n : Nat} (hphase : pass.phase = .resolving)
      (slot : Bool) :
      PassWrite codec groupId policy view clock now (some pass, n)
        (some { pass with phase := .completed, fairnessSlotAvailable := slot }, n)

section Writes

open Relation (ReflTransGen)

variable {codec : WireCodec} {groupId : GroupId} {policy : CanonicalizationPolicy}

/-- Any number of writes during one operation. -/
def PassWrites (codec : WireCodec) (groupId : GroupId) (policy : CanonicalizationPolicy)
    (view : GroupView) (clock : UInt64) (now : ConvergenceTime) :
    Option DurableConvergencePass × Nat → Option DurableConvergencePass × Nat → Prop :=
  ReflTransGen (PassWrite codec groupId policy view clock now)

/-! ### What the operations leave of the rest -/

/-- The rows differ in their states at most, and the candidates are the same. -/
structure SameContent (view view' : GroupView) : Prop where
  candidates : view'.disbandCandidates = view.disbandCandidates
  rows : view'.rows.map (fun record => (record.id, record.payload)) =
    view.rows.map fun record => (record.id, record.payload)

theorem SameContent.refl (view : GroupView) : SameContent view view := ⟨rfl, rfl⟩

theorem SameContent.trans {a b c : GroupView} (hab : SameContent a b) (hbc : SameContent b c) :
    SameContent a c :=
  ⟨hbc.candidates.trans hab.candidates, hbc.rows.trans hab.rows⟩

theorem sameContent_retire (view : GroupView) (retainedAnchorEpoch : UInt64) :
    SameContent view
      (view.retireStaleConvergenceDeferredCommits codec groupId retainedAnchorEpoch) := by
  refine ⟨rfl, ?_⟩
  show (view.rows.map (GroupView.retireRow codec groupId retainedAnchorEpoch)).map _ = _
  rw [List.map_map]
  refine List.map_congr_left fun record _ => ?_
  rw [Function.comp, GroupView.retireRow]
  split
  · rfl
  · rfl

variable {baseEpoch : EpochId}

theorem seed_sameContent {view view' : GroupView}
    {result : Except OpenMlsProjectionError (List ConvergencePassMember × Bool)}
    (h : seedConvergencePassMembers codec groupId policy view baseEpoch = (view', result)) :
    SameContent view view' := by
  unfold seedConvergencePassMembers at h
  simp only at h
  split at h
  · cases h
    exact sameContent_retire view _
  split at h
  · cases h
    exact sameContent_retire view _
  · cases h
    exact sameContent_retire view _

/-! ### Loading -/

/-- What a load leaves: its writes, and the pass it hands out is the stored one, in
the running clock if it is collecting. -/
structure Loaded (codec : WireCodec) (groupId : GroupId) (policy : CanonicalizationPolicy)
    (engine : PassEngine) (now : ConvergenceTime) (n : Nat) (engine' : PassEngine)
    (pass : Option DurableConvergencePass) (opened : Bool) : Prop where
  clock : engine'.clockInstanceId = engine.clockInstanceId
  content : SameContent engine.view engine'.view
  writes : PassWrites codec groupId policy engine.view engine.clockInstanceId now
    (engine.pass, n) (engine'.pass, n + opened.toNat)
  stored : ∀ P, pass = some P → engine'.pass = some P
  inactive : pass = none → ∀ P, engine'.pass = some P → P.isActive = false
  running : ∀ P, engine'.pass = some P → P.phase = .collecting →
    P.clockInstanceId = engine.clockInstanceId

variable {pass : DurableConvergencePass}

theorem isActive_of_collecting (h : pass.phase = .collecting) : pass.isActive = true := by
  rw [DurableConvergencePass.isActive, h]
  rfl

theorem normalize_clock (now : ConvergenceTime) (clock : UInt64) (hphase : pass.phase = .collecting)
    : (normalizeConvergencePassForRuntime pass now clock).1.clockInstanceId = clock := by
  rw [normalizeConvergencePassForRuntime]
  split
  · rename_i h
    exact h.resolve_left (not_not_intro hphase)
  · rfl

variable {now : ConvergenceTime} {view : GroupView}

/-- What `openConvergencePass` adds to the writes before it, from an engine without an
active pass. -/
theorem openConvergencePass_spec {start stored previous : Option DurableConvergencePass}
    {clock : UInt64} {engine' : PassEngine} {n : Nat}
    {result : Except OpenMlsProjectionError (Option DurableConvergencePass × Bool)}
    (hwrites : PassWrites codec groupId policy view clock now (start, n) (stored, n))
    (hinactive : ∀ P, stored = some P → P.isActive = false)
    (h : openConvergencePass codec groupId policy ⟨stored, clock, view⟩ previous
      baseEpoch now = (engine', result)) :
    (∀ err, result = .error err → engine'.clockInstanceId = clock ∧
      SameContent view engine'.view ∧
      PassWrites codec groupId policy view clock now (start, n) (engine'.pass, n)) ∧
    ∀ pass opened, result = .ok (pass, opened) →
      Loaded codec groupId policy ⟨start, clock, view⟩ now n engine' pass opened := by
  have hcollecting : ∀ P, stored = some P → P.phase = .collecting →
      P.clockInstanceId = clock := by
    intro P hP hphase
    have hactive := isActive_of_collecting hphase
    rw [hinactive P hP] at hactive
    cases hactive
  unfold openConvergencePass at h
  split at h
  · cases h
    refine ⟨fun err herr => (nomatch herr), fun pass opened hok => ?_⟩
    cases hok
    exact ⟨rfl, SameContent.refl view, hwrites, fun P hP => (nomatch hP), fun _ => hinactive,
      hcollecting⟩
  · split at h
    · rename_i view' err hseed
      cases h
      refine ⟨fun err _ => ⟨rfl, seed_sameContent hseed, hwrites⟩,
        fun pass opened hok => (nomatch hok)⟩
    · rename_i view' members trigger hseed
      split at h
      · cases h
        refine ⟨fun err herr => (nomatch herr), fun pass opened hok => ?_⟩
        cases hok
        exact ⟨rfl, seed_sameContent hseed, hwrites, fun P hP => (nomatch hP),
          fun _ => hinactive, hcollecting⟩
      · rename_i htrigger
        obtain rfl : trigger = true := by
          cases trigger
          · simp at htrigger
          · rfl
        cases h
        refine ⟨fun err herr => (nomatch herr), fun pass opened hok => ?_⟩
        cases hok
        exact ⟨rfl, seed_sameContent hseed, hwrites.tail (.opened hseed), fun P hP => hP,
          fun hnone => (nomatch hnone), fun P hP _ => by cases hP; rfl⟩

variable {engine engine' : PassEngine}

theorem loadOrOpen_spec
    {result : Except OpenMlsProjectionError (Option DurableConvergencePass × Bool)}
    (h : engine.loadOrOpenConvergencePass codec groupId policy baseEpoch now = (engine', result))
    (n : Nat) :
    (∀ err, result = .error err → engine'.clockInstanceId = engine.clockInstanceId ∧
      SameContent engine.view engine'.view ∧
      PassWrites codec groupId policy engine.view engine.clockInstanceId now (engine.pass, n)
        (engine'.pass, n)) ∧
    ∀ pass opened, result = .ok (pass, opened) →
      Loaded codec groupId policy engine now n engine' pass opened := by
  obtain ⟨stored, clock, view⟩ := engine
  rw [loadOrOpenConvergencePass] at h
  cases stored with
  | none => exact openConvergencePass_spec .refl (fun P hP => (nomatch hP)) h
  | some pass =>
    simp only at h
    split at h
    · rename_i hslot
      have hdone : pass.isActive = false := by
        rw [DurableConvergencePass.isActive, hslot.1]
        rfl
      split at h
      · -- The slot is held for a queued intent: the completed pass is handed out.
        cases h
        refine ⟨fun err herr => (nomatch herr), fun p opened hok => ?_⟩
        cases hok
        refine ⟨rfl, SameContent.refl view, .refl, fun P hP => hP, fun hnone => (nomatch hnone),
          fun P hP hphase => ?_⟩
        cases hP
        rw [hslot.1] at hphase
        cases hphase
      · refine openConvergencePass_spec (.single .slot) ?_ h
        intro P hP
        cases hP
        exact hdone
    · split at h
      · split at h
        · exact openConvergencePass_spec (.single .delete)
            (fun P hP => (nomatch hP)) h
        · rename_i hactive _
          cases h
          refine ⟨fun err herr => (nomatch herr), fun p opened hok => ?_⟩
          cases hok
          by_cases hrebase : pass.phase ≠ .collecting ∨ pass.clockInstanceId = clock
          · have hnorm : normalizeConvergencePassForRuntime pass now clock = (pass, false) := by
              rw [normalizeConvergencePassForRuntime, if_pos hrebase]
            rw [hnorm]
            refine ⟨rfl, SameContent.refl view, .refl, fun P hP => hP,
              fun hnone => (nomatch hnone), ?_⟩
            intro P hP hcollecting
            cases hP
            exact hrebase.resolve_left (not_not_intro hcollecting)
          · have hflag : (normalizeConvergencePassForRuntime pass now clock).2 = true := by
              rw [normalizeConvergencePassForRuntime, if_neg hrebase]
            rw [if_pos hflag]
            rw [not_or, not_not] at hrebase
            refine ⟨rfl, SameContent.refl view, .single (.rebase hrebase.1 hrebase.2),
              fun P hP => hP, fun hnone => (nomatch hnone), ?_⟩
            intro P hP _
            cases hP
            exact normalize_clock now clock hrebase.1
      · rename_i hinactive
        refine openConvergencePass_spec .refl ?_ h
        intro P hP
        cases hP
        exact Bool.not_eq_true _ ▸ hinactive

/-- The writes of an operation, and what it leaves if it has loaded the pass. -/
structure Executed (codec : WireCodec) (groupId : GroupId) (policy : CanonicalizationPolicy)
    (engine : PassEngine) (now : ConvergenceTime) (n : Nat) (engine' : PassEngine)
    (opened loaded : Bool) : Prop where
  clock : engine'.clockInstanceId = engine.clockInstanceId
  writes : PassWrites codec groupId policy engine.view engine.clockInstanceId now
    (engine.pass, n) (engine'.pass, n + opened.toNat)
  running : loaded = true → ∀ P, engine'.pass = some P → P.phase = .collecting →
    P.clockInstanceId = engine.clockInstanceId

/-- An operation of the engine itself changes the states of rows at most. -/
structure Operated (codec : WireCodec) (groupId : GroupId) (policy : CanonicalizationPolicy)
    (engine : PassEngine) (now : ConvergenceTime) (n : Nat) (engine' : PassEngine)
    (opened loaded : Bool) : Prop extends
    Executed codec groupId policy engine now n engine' opened loaded where
  content : SameContent engine.view engine'.view

theorem Operated.refl (engine : PassEngine) (now : ConvergenceTime) (n : Nat) :
    Operated codec groupId policy engine now n engine false false :=
  ⟨⟨rfl, .refl, fun h => (nomatch h)⟩, SameContent.refl _⟩

theorem Loaded.operated {n : Nat} {pass : Option DurableConvergencePass} {opened : Bool}
    (h : Loaded codec groupId policy engine now n engine' pass opened) :
    Operated codec groupId policy engine now n engine' opened true :=
  ⟨⟨h.clock, h.writes, fun _ => h.running⟩, h.content⟩

/-- Further writes after a load, to a pass that is in the running clock if it is still
collecting. -/
theorem Loaded.then {engine engine' engine'' : PassEngine} {n : Nat} {opened : Bool}
    (h : Loaded codec groupId policy engine now n engine' (some pass) opened)
    (hclock : engine''.clockInstanceId = engine'.clockInstanceId)
    (hcontent : SameContent engine'.view engine''.view)
    (hwrites : PassWrites codec groupId policy engine.view engine.clockInstanceId now
      (some pass, n + opened.toNat) (engine''.pass, n + opened.toNat))
    (hrunning : ∀ P, engine''.pass = some P → P.phase = .collecting →
      P.clockInstanceId = engine.clockInstanceId) :
    Operated codec groupId policy engine now n engine'' opened true := by
  refine ⟨⟨hclock.trans h.clock, ?_, fun _ => hrunning⟩, h.content.trans hcontent⟩
  have hload := h.writes
  rw [h.stored pass rfl] at hload
  exact hload.trans hwrites

theorem convergencePassCandidate_eq {record : MessageRecord} {member : ConvergencePassMember}
    {input : ClassifiedConvergenceInput}
    (h : convergencePassCandidate codec record = .ok (some (member, input))) :
    member.messageId = record.id ∧ member.sourceEpoch = input.sourceEpoch ∧
      member.role = input.role ∧ member.payloadDigest = input.digest ∧
      input.state = record.state := by
  unfold convergencePassCandidate at h
  split at h
  · cases h
  split at h
  · cases h
  split at h
  · cases h
  split at h
  · cases h
  obtain ⟨found, hfound, hpair⟩ := Option.map_eq_some_iff.mp (Except.ok.inj h)
  obtain ⟨role, -, rfl⟩ := Option.map_eq_some_iff.mp hfound
  cases hpair
  exact ⟨rfl, rfl, rfl, rfl, rfl⟩

theorem getMessage_id {rows : List MessageRecord} {id : String} {record : MessageRecord}
    (h : getMessage rows id = .ok record) : record.id = id := by
  unfold getMessage at h
  split at h
  · rename_i found hfind
    cases h
    simpa using List.find?_some hfind
  · cases h

theorem admitMember_fields (member : ConvergencePassMember) (input : ClassifiedConvergenceInput) :
    ∃ quiescenceMonotonic quiescenceWall, admitMember policy pass member input now =
      { pass with
        members := pass.members ++ [member]
        quiescenceDeadlineMonotonicMs := quiescenceMonotonic
        quiescenceDeadlineWallMs := quiescenceWall } := by
  rw [admitMember]
  split
  · exact ⟨_, _, rfl⟩
  · exact ⟨_, _, rfl⟩

theorem admitToCollectingPass_spec {messageId : String}
    {result : Except OpenMlsProjectionError ConvergenceAdmissionOutcome}
    (hstored : engine.pass = some pass) (hphase : pass.phase = .collecting)
    (hclock : pass.clockInstanceId = engine.clockInstanceId)
    (h : engine.admitToCollectingPass codec policy pass messageId now = (engine', result)) (n : Nat)
    :
    engine'.clockInstanceId = engine.clockInstanceId ∧ SameContent engine.view engine'.view ∧
      PassWrites codec groupId policy view engine.clockInstanceId now (some pass, n)
        (engine'.pass, n) ∧
      ∀ P, engine'.pass = some P → P.phase = .collecting →
        P.clockInstanceId = engine.clockInstanceId := by
  have hsame : ∀ P, engine.pass = some P → P.phase = .collecting →
      P.clockInstanceId = engine.clockInstanceId := by
    intro P hP _
    rw [hstored] at hP
    cases hP
    exact hclock
  have hrefl : PassWrites codec groupId policy view engine.clockInstanceId now (some pass, n)
      (engine.pass, n) := by
    rw [hstored]
    exact .refl
  unfold admitToCollectingPass at h
  split at h
  · cases h
    exact ⟨rfl, SameContent.refl _, hrefl, hsame⟩
  rename_i hfresh
  split at h
  · rename_i hcutoff
    cases h
    refine ⟨rfl, SameContent.refl _, .single (.freeze hphase hclock hcutoff),
      fun P hP hP' => ?_⟩
    cases hP
    cases hP'
  rename_i hcutoff
  split at h
  · cases h
    exact ⟨rfl, SameContent.refl _, hrefl, hsame⟩
  rename_i record hrecord
  split at h
  · cases h
    exact ⟨rfl, SameContent.refl _, hrefl, hsame⟩
  · cases h
    exact ⟨rfl, SameContent.refl _, hrefl, hsame⟩
  rename_i member input hcandidate
  split at h
  · cases h
    exact ⟨rfl, SameContent.refl _, hrefl, hsame⟩
  rename_i hhorizon
  cases h
  obtain ⟨hid, hepoch, -⟩ := convergencePassCandidate_eq hcandidate
  refine ⟨rfl, SameContent.refl _, .single (.admission hphase hclock ?_ ?_ ?_),
    fun P hP _ => ?_⟩
  · intro m hm heq
    refine hfresh (List.any_eq_true.mpr ⟨m, hm, decide_eq_true ?_⟩)
    rw [heq, hid, getMessage_id hrecord]
  · rw [hepoch]
    simpa using hhorizon
  · exact UInt64.not_le.mp hcutoff
  · cases hP
    obtain ⟨_, _, heq⟩ := admitMember_fields member input
    rw [heq]
    exact hclock

theorem buffer_spec {messageId : String}
    {result : Except OpenMlsProjectionError (ConvergenceAdmissionOutcome × Bool)}
    (h : engine.bufferConvergenceMessage codec groupId policy messageId now = (engine', result))
    (n : Nat) :
    (∀ err, result = .error err → engine' = engine) ∧
    ∀ outcome opened, result = .ok (outcome, opened) →
      Operated codec groupId policy engine now n engine' opened
        engine.view.admissionAllowed := by
  unfold bufferConvergenceMessage at h
  split at h
  · cases h
    exact ⟨fun _ _ => rfl, fun _ _ hok => (nomatch hok)⟩
  rename_i admitted outcome opened hadmit
  cases h
  refine ⟨fun _ herr => (nomatch herr), fun _ _ hok => ?_⟩
  cases hok
  -- Halting the group does not touch its pass.
  suffices hadmitted : Operated codec groupId policy engine now n admitted opened
      engine.view.admissionAllowed by
    split
    · exact ⟨⟨hadmitted.clock, hadmitted.writes, hadmitted.running⟩,
        hadmitted.content.trans ⟨rfl, rfl⟩⟩
    · exact hadmitted
  unfold admitStoredMessageToConvergencePass at hadmit
  split at hadmit
  · rename_i hallowed
    cases hadmit
    rw [Bool.not_eq_true'] at hallowed
    rw [hallowed]
    exact Operated.refl engine now n
  rename_i hallowed
  rw [Bool.not_eq_true', Bool.not_eq_false] at hallowed
  rw [hallowed]
  split at hadmit
  · cases hadmit
  split at hadmit
  · cases hadmit
  · rename_i loaded opened' hload
    cases hadmit
    exact ((loadOrOpen_spec hload n).2 _ _ rfl).operated
  rename_i loaded pass opened' hload
  have hloaded := (loadOrOpen_spec hload n).2 _ _ rfl
  split at hadmit
  · cases hadmit
    exact hloaded.operated
  rename_i hphase
  rw [ne_eq, not_not] at hphase
  have hstored := hloaded.stored pass rfl
  have hclock : pass.clockInstanceId = loaded.clockInstanceId := by
    rw [hloaded.clock]
    exact hloaded.running pass hstored hphase
  split at hadmit
  · cases hadmit
  rename_i final outcome' hcollecting
  cases hadmit
  obtain ⟨hsame, hcontent, hwrites, hrunning⟩ :=
    admitToCollectingPass_spec hstored hphase hclock hcollecting (n + opened.toNat)
  rw [hloaded.clock] at hwrites hrunning
  exact hloaded.then hsame hcontent hwrites hrunning

variable {resolution : Resolution}

theorem resolveFrozenPass_spec {clock : UInt64} {result : Except OpenMlsProjectionError Unit}
    (hphase : pass.phase = .frozen ∨ pass.phase = .resolving)
    (h : engine.resolveFrozenPass pass resolution = (engine', result)) (n : Nat) :
    engine'.clockInstanceId = engine.clockInstanceId ∧ SameContent engine.view engine'.view ∧
      PassWrites codec groupId policy view clock now (some pass, n) (engine'.pass, n) ∧
      ∀ P, engine'.pass = some P → P.phase ≠ .collecting := by
  have hresolving : PassWrites codec groupId policy view clock now (some pass, n)
      (some { pass with phase := .resolving }, n) := .single (.resolve hphase)
  cases resolution with
  | sliceExhausted | failed | missingRetainedState =>
    cases h
    refine ⟨rfl, ⟨rfl, rfl⟩, hresolving, fun P hP hcollecting => ?_⟩
    cases hP
    cases hcollecting
  | blocked | applied =>
    cases h
    refine ⟨rfl, ⟨rfl, rfl⟩, hresolving.tail (.complete rfl _), fun P hP hcollecting => ?_⟩
    cases hP
    cases hcollecting

theorem advanceLoadedPass_spec {result : Except OpenMlsProjectionError Unit}
    (hstored : engine.pass = some pass)
    (hclock : pass.phase = .collecting → pass.clockInstanceId = engine.clockInstanceId)
    (h : engine.advanceLoadedPass codec pass now resolution = (engine', result)) (n : Nat) :
    engine'.clockInstanceId = engine.clockInstanceId ∧ SameContent engine.view engine'.view ∧
      PassWrites codec groupId policy view engine.clockInstanceId now (some pass, n)
        (engine'.pass, n) ∧
      ∀ P, engine'.pass = some P → P.phase = .collecting →
        P.clockInstanceId = engine.clockInstanceId := by
  have hkept : PassWrites codec groupId policy view engine.clockInstanceId now (some pass, n)
      (engine.pass, n) ∧ ∀ P, engine.pass = some P → P.phase = .collecting →
        P.clockInstanceId = engine.clockInstanceId := by
    rw [hstored]
    refine ⟨.refl, fun P hP hphase => ?_⟩
    cases hP
    exact hclock hphase
  unfold advanceLoadedPass at h
  cases hphase : pass.phase with
  | collecting =>
    rw [hphase] at h
    simp only at h
    split at h
    · cases h
      exact ⟨rfl, ⟨rfl, rfl⟩, hkept⟩
    rename_i hcutoff
    split at h
    · have hfreeze : PassWrite codec groupId policy view engine.clockInstanceId now
          (some pass, n) (some (freezeCollectingConvergencePass pass now), n) :=
        .freeze hphase (hclock hphase) (UInt64.not_lt.mp hcutoff)
      obtain ⟨hsame, hcontent, hwrites, hnot⟩ := resolveFrozenPass_spec (.inl rfl) h n
      exact ⟨hsame, hcontent, .head hfreeze hwrites, fun P hP hP' => absurd hP' (hnot P hP)⟩
    · cases h
      exact ⟨rfl, ⟨rfl, rfl⟩, hkept⟩
  | frozen | resolving =>
    rw [hphase] at h
    simp only at h
    split at h
    · obtain ⟨hsame, hcontent, hwrites, hnot⟩ := resolveFrozenPass_spec (by simp [hphase]) h n
      exact ⟨hsame, hcontent, hwrites, fun P hP hP' => absurd hP' (hnot P hP)⟩
    · cases h
      exact ⟨rfl, ⟨rfl, rfl⟩, hkept⟩
  | completed =>
    rw [hphase] at h
    cases h
    exact ⟨rfl, ⟨rfl, rfl⟩, hkept⟩

theorem converge_spec
    {result : Except OpenMlsProjectionError (Bool × Except OpenMlsProjectionError Unit)}
    (h : engine.convergeStoredOpenmlsMessages codec groupId policy now resolution =
      (engine', result)) (n : Nat) :
    (∀ err, result = .error err →
      Operated codec groupId policy engine now n engine' false false) ∧
    ∀ opened resolved, result = .ok (opened, resolved) →
      Operated codec groupId policy engine now n engine' opened
        (!engine.view.convergenceHeld) := by
  unfold convergeStoredOpenmlsMessages at h
  split at h
  · rename_i hheld
    cases h
    refine ⟨fun _ herr => (nomatch herr), fun _ _ hok => ?_⟩
    cases hok
    rw [hheld]
    exact Operated.refl engine now n
  rename_i hheld
  rw [Bool.not_eq_true] at hheld
  rw [hheld]
  split at h
  · rename_i loaded err hload
    cases h
    obtain ⟨hclock, hcontent, hwrites⟩ := (loadOrOpen_spec hload n).1 _ rfl
    exact ⟨fun _ _ => ⟨⟨hclock, hwrites, fun hf => (nomatch hf)⟩, hcontent⟩,
      fun _ _ hok => (nomatch hok)⟩
  · rename_i loaded opened hload
    cases h
    refine ⟨fun _ herr => (nomatch herr), fun _ _ hok => ?_⟩
    cases hok
    exact ((loadOrOpen_spec hload n).2 _ _ rfl).operated
  · rename_i loaded pass opened hload
    have hloaded := (loadOrOpen_spec hload n).2 _ _ rfl
    have hstored := hloaded.stored pass rfl
    have hrun : pass.phase = .collecting → pass.clockInstanceId = loaded.clockInstanceId := by
      rw [hloaded.clock]
      exact hloaded.running pass hstored
    rcases hadvance : loaded.advanceLoadedPass codec pass now resolution with ⟨final, resolved⟩
    rw [hadvance] at h
    cases h
    refine ⟨fun _ herr => (nomatch herr), fun _ _ hok => ?_⟩
    cases hok
    obtain ⟨hsame, hcontent, hwrites, hrunning⟩ :=
      advanceLoadedPass_spec hstored hrun hadvance (n + opened.toNat)
    rw [hloaded.clock] at hwrites hrunning
    exact hloaded.then hsame hcontent hwrites hrunning

theorem prepare_spec {result : Except OpenMlsProjectionError (Option UInt64 × Bool)}
    (h : engine.prepareConvergenceCutoffDelayMs codec groupId policy now = (engine', result))
    (n : Nat) :
    (∀ err, result = .error err →
      Operated codec groupId policy engine now n engine' false false) ∧
    ∀ delay opened, result = .ok (delay, opened) →
      Operated codec groupId policy engine now n engine' opened (!engine.view.quarantined) ∧
      ∀ d, delay = some d → d = 0 ∨ ∃ P, engine'.pass = some P ∧ P.phase = .collecting ∧
        engine.view.quarantined = false ∧
        d = P.cutoffMonotonicMs.saturatingSub now.monotonicMs := by
  unfold prepareConvergenceCutoffDelayMs at h
  split at h
  · rename_i hquarantined
    cases h
    refine ⟨fun _ herr => (nomatch herr), fun _ _ hok => ?_⟩
    cases hok
    rw [hquarantined]
    exact ⟨Operated.refl engine now n, fun d hd => (nomatch hd)⟩
  rename_i hquarantined
  rw [Bool.not_eq_true] at hquarantined
  rw [hquarantined]
  split at h
  · rename_i loaded err hload
    cases h
    obtain ⟨hclock, hcontent, hwrites⟩ := (loadOrOpen_spec hload n).1 _ rfl
    exact ⟨fun _ _ => ⟨⟨hclock, hwrites, fun hf => (nomatch hf)⟩, hcontent⟩,
      fun _ _ hok => (nomatch hok)⟩
  · rename_i loaded pass opened hload
    have hloaded := (loadOrOpen_spec hload n).2 _ _ rfl
    have hidle : ∀ d, (if loaded.view.pendingCanonicalApplications then some 0 else none) =
        some d → d = (0 : UInt64) := by
      intro d hd
      split at hd
      · exact (Option.some.inj hd).symm
      · cases hd
    cases h
    refine ⟨fun _ herr => (nomatch herr), fun _ _ hok => ?_⟩
    cases hok
    refine ⟨hloaded.operated, fun d hd => ?_⟩
    cases pass with
    | none => exact .inl (hidle d hd)
    | some pass =>
      simp only at hd
      split at hd
      · rename_i hphase
        exact .inr ⟨pass, hloaded.stored pass rfl, hphase, rfl, (Option.some.inj hd).symm⟩
      · split at hd
        · exact .inl (Option.some.inj hd).symm
        · exact .inl (hidle d hd)

/-- The time an operation is carried out at; those that read no clock are at the time of
the last reading. -/
def PassOp.time (lastMonotonicMs : UInt64) : PassOp → ConvergenceTime
  | .prepare now | .admission _ now | .converge now _ | .restart _ now => now
  | .consumeFairnessSlot | .deletePass | .outside _ => ⟨lastMonotonicMs, 0⟩

def PassOp.isRestart : PassOp → Bool
  | .restart _ _ => true
  | .prepare _ | .admission _ _ | .converge _ _ | .consumeFairnessSlot | .deletePass
  | .outside _ => false

def PassOp.isOutside : PassOp → Bool
  | .outside _ => true
  | .prepare _ | .admission _ _ | .converge _ _ | .consumeFairnessSlot | .deletePass
  | .restart _ _ => false

/-- **What an operation does.**  A restart changes the clock instance and nothing else;
every other operation is a sequence of writes, and one of the engine itself leaves the
content of the rows. -/
theorem PassOp.exec_spec (codec : WireCodec) (groupId : GroupId) (policy : CanonicalizationPolicy)
    {op : PassOp} (hop : op.isRestart = false) (engine : PassEngine) (last : UInt64) (n : Nat) :
    Executed codec groupId policy engine (op.time last) n (op.exec codec groupId policy engine).1
      (op.exec codec groupId policy engine).2.opened
      (op.exec codec groupId policy engine).2.loadedAt.isSome ∧
    (op.isOutside = false → SameContent engine.view (op.exec codec groupId policy engine).1.view) ∧
    (∀ now, (op.exec codec groupId policy engine).2.loadedAt = some now → now = op.time last) ∧
    ∀ d, (op.exec codec groupId policy engine).2.delayMs = some d → d = 0 ∨
      ∃ P, (op.exec codec groupId policy engine).1.pass = some P ∧ P.phase = .collecting ∧
        (op.exec codec groupId policy engine).2.loadedAt.isSome = true ∧
        d = P.cutoffMonotonicMs.saturatingSub (op.time last).monotonicMs := by
  cases op with
  | prepare now =>
    rcases hprepare : engine.prepareConvergenceCutoffDelayMs codec groupId policy now with
      ⟨engine', err | ⟨delay, opened⟩⟩
    · simp only [exec, hprepare]
      have hoperated := (prepare_spec hprepare n).1 _ rfl
      exact ⟨hoperated.toExecuted, fun _ => hoperated.content, fun _ h => (nomatch h),
        fun _ h => (nomatch h)⟩
    · obtain ⟨⟨hexecuted, hcontent⟩, hdelay⟩ := (prepare_spec hprepare n).2 _ _ rfl
      simp only [exec, hprepare]
      cases hquarantined : engine.view.quarantined with
      | true =>
        rw [hquarantined] at hexecuted hdelay
        refine ⟨hexecuted, fun _ => hcontent, fun _ h => (nomatch h), fun d hd => ?_⟩
        rcases hdelay d hd with hzero | ⟨P, -, -, hfalse, -⟩
        · exact .inl hzero
        · cases hfalse
      | false =>
        rw [hquarantined] at hexecuted hdelay
        refine ⟨hexecuted, fun _ => hcontent, fun _ h => (Option.some.inj h).symm,
          fun d hd => ?_⟩
        refine (hdelay d hd).imp_right ?_
        rintro ⟨P, hP, hphase, -, hd'⟩
        exact ⟨P, hP, hphase, rfl, hd'⟩
  | admission messageId now =>
    rcases hbuffer : engine.bufferConvergenceMessage codec groupId policy messageId now with
      ⟨engine', err | ⟨outcome, opened⟩⟩
    · simp only [exec, hbuffer]
      obtain rfl := (buffer_spec hbuffer n).1 _ rfl
      exact ⟨(Operated.refl _ _ n).toExecuted, fun _ => SameContent.refl _,
        fun _ h => (nomatch h), fun _ h => (nomatch h)⟩
    · obtain ⟨hexecuted, hcontent⟩ := (buffer_spec hbuffer n).2 _ _ rfl
      simp only [exec, hbuffer]
      cases hallowed : engine.view.admissionAllowed with
      | true =>
        rw [hallowed] at hexecuted
        exact ⟨hexecuted, fun _ => hcontent, fun _ h => (Option.some.inj h).symm,
          fun _ h => (nomatch h)⟩
      | false =>
        rw [hallowed] at hexecuted
        exact ⟨hexecuted, fun _ => hcontent, fun _ h => (nomatch h), fun _ h => (nomatch h)⟩
  | converge now resolution =>
    rcases hconverge : engine.convergeStoredOpenmlsMessages codec groupId policy now resolution
      with ⟨engine', err | ⟨opened, resolved⟩⟩
    · simp only [exec, hconverge]
      have hoperated := (converge_spec hconverge n).1 _ rfl
      exact ⟨hoperated.toExecuted, fun _ => hoperated.content, fun _ h => (nomatch h),
        fun _ h => (nomatch h)⟩
    · obtain ⟨hexecuted, hcontent⟩ := (converge_spec hconverge n).2 _ _ rfl
      simp only [exec, hconverge]
      cases hheld : engine.view.convergenceHeld with
      | true =>
        rw [hheld] at hexecuted
        exact ⟨hexecuted, fun _ => hcontent, fun _ h => (nomatch h), fun _ h => (nomatch h)⟩
      | false =>
        rw [hheld] at hexecuted
        exact ⟨hexecuted, fun _ => hcontent, fun _ h => (Option.some.inj h).symm,
          fun _ h => (nomatch h)⟩
  | consumeFairnessSlot =>
    refine ⟨⟨rfl, ?_, fun h => (nomatch h)⟩, fun _ => ⟨rfl, rfl⟩, fun _ h => (nomatch h),
      fun _ h => (nomatch h)⟩
    obtain ⟨stored, clock, view⟩ := engine
    cases stored with
    | none => exact .refl
    | some pass => exact .single .slot
  | deletePass =>
    exact ⟨⟨rfl, .single .delete, fun h => (nomatch h)⟩, fun _ => ⟨rfl, rfl⟩,
      fun _ h => (nomatch h), fun _ h => (nomatch h)⟩
  | restart clock now => cases hop
  | outside view =>
    exact ⟨⟨rfl, .refl, fun h => (nomatch h)⟩, fun h => (nomatch h), fun _ h => (nomatch h),
      fun _ h => (nomatch h)⟩

end Writes

end Mdk

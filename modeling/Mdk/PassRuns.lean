/-
Convergence passes over whole runs.

A run is any sequence of operations on one group, with restarts in between that give
the process a new clock instance, and with anything happening to the rest of the
engine.  Monotonic time does not go back within a clock instance; wall time does what
it likes.

Main results:
* `pass_run_invariant` — **in every run**, the wall deadline of a stored pass is its
  opening plus the policy's bound and never changes, its members are distinct, lie
  within the rewind horizon, only grow while it collects and are fixed afterwards; and
  right after a load a collecting pass is due within the bound, at once if the process
  came up with a wall clock from before the opening;
* `frozen_pass_keeps_old_deadlines` — the deadlines of a pass that does not collect any
  more, or that an operation has not loaded, are in a clock that is gone.
-/
import Mdk.Runs
import Mdk.PassWrites

namespace Mdk

open DurableConvergencePass List ConvergencePassMember

/-! ### Runs -/

/-- A run so far: the engine, the last monotonic reading, the clock instances of the
processes that are gone, the number of passes opened, and the report of the last
operation. -/
structure PassRun where
  engine : PassEngine
  lastMonotonicMs : UInt64
  pastInstances : List UInt64
  openedPasses : Nat
  report : OpReport

/-- The clock instance of the process that a restart brings up. -/
def PassOp.newInstance : PassOp → Option UInt64
  | .restart clockInstanceId _ => some clockInstanceId
  | .prepare _ | .admission _ _ | .converge _ _ | .consumeFairnessSlot | .deletePass
  | .outside _ => none

namespace PassRun

variable (codec : WireCodec) (groupId : GroupId) (policy : CanonicalizationPolicy)

def step (run : PassRun) (op : PassOp) : PassRun where
  engine := (op.exec codec groupId policy run.engine).1
  lastMonotonicMs := (op.time run.lastMonotonicMs).monotonicMs
  pastInstances :=
    if op.isRestart then run.engine.clockInstanceId :: run.pastInstances else run.pastInstances
  openedPasses := run.openedPasses + (op.exec codec groupId policy run.engine).2.opened.toNat
  report := (op.exec codec groupId policy run.engine).2

/-- A new process has a clock instance of its own; within one, time does not go back. -/
def Admissible (run : PassRun) (op : PassOp) : Prop :=
  (∀ clockInstanceId ∈ op.newInstance,
    clockInstanceId ∉ run.engine.clockInstanceId :: run.pastInstances) ∧
  (op.isRestart = false → run.lastMonotonicMs ≤ (op.time run.lastMonotonicMs).monotonicMs)

instance (run : PassRun) (op : PassOp) : Decidable (run.Admissible op) :=
  -- The instance for all clock instances would run through every one of them.
  have : Decidable (∀ clockInstanceId ∈ op.newInstance,
      clockInstanceId ∉ run.engine.clockInstanceId :: run.pastInstances) :=
    decidable_of_iff (op.newInstance.all (fun c =>
      decide (c ∉ run.engine.clockInstanceId :: run.pastInstances)) = true) (by
        cases op.newInstance <;> simp)
  inferInstanceAs (Decidable (_ ∧ _))

end PassRun

/-- The delay that is left of a collecting pass. -/
def DurableConvergencePass.remainingMs (pass : DurableConvergencePass) (now : ConvergenceTime) :
    UInt64 :=
  pass.cutoffMonotonicMs.saturatingSub now.monotonicMs

/-- What holds of every stored pass. -/
structure WellFormedPass (policy : CanonicalizationPolicy) (pass : DurableConvergencePass) :
    Prop where
  absolute : pass.absoluteDeadlineWallMs =
    pass.openedWallMs.saturatingAdd policy.maxConvergencePassMs
  distinct : (pass.members.map messageId).Nodup
  horizon : ∀ member ∈ pass.members,
    member.sourceEpoch.toNat ≤ pass.baseEpoch.toNat + policy.convergence.maxRewindCommits.toNat ∧
      pass.baseEpoch.toNat ≤ member.sourceEpoch.toNat +
        policy.convergence.maxRewindCommits.toNat

/-- `later` is the same pass, some writes on. -/
structure Continues (pass later : DurableConvergencePass) : Prop where
  openedWall : later.openedWallMs = pass.openedWallMs
  absoluteWall : later.absoluteDeadlineWallMs = pass.absoluteDeadlineWallMs
  base : later.baseEpoch = pass.baseEpoch
  members : pass.members <+: later.members
  fixed : pass.phase ≠ .collecting → later.phase ≠ .collecting ∧ later.members = pass.members

theorem Continues.refl (pass : DurableConvergencePass) : Continues pass pass :=
  ⟨rfl, rfl, rfl, prefix_rfl, fun h => ⟨h, rfl⟩⟩

open PassRun

theorem Continues.trans {a b c : DurableConvergencePass} (hab : Continues a b)
    (hbc : Continues b c) : Continues a c := by
  refine ⟨hbc.openedWall.trans hab.openedWall, hbc.absoluteWall.trans hab.absoluteWall,
    hbc.base.trans hab.base, hab.members.trans hbc.members, fun ha => ?_⟩
  obtain ⟨hb, hmembers⟩ := hab.fixed ha
  obtain ⟨hc, hmembers'⟩ := hbc.fixed hb
  exact ⟨hc, hmembers'.trans hmembers⟩

section Runs

variable {codec : WireCodec} {groupId : GroupId} {policy : CanonicalizationPolicy}

/-! ### What seeding yields -/

theorem withinHorizon_iff {baseEpoch sourceEpoch : UInt64}
    (h : withinHorizon policy baseEpoch sourceEpoch = true) :
    sourceEpoch.toNat ≤ baseEpoch.toNat + policy.convergence.maxRewindCommits.toNat ∧
      baseEpoch.toNat ≤ sourceEpoch.toNat + policy.convergence.maxRewindCommits.toNat := by
  rw [withinHorizon, Bool.and_eq_true, decide_eq_true_eq, decide_eq_true_eq,
    UInt64.le_iff_toNat_le, UInt64.le_iff_toNat_le, UInt64.toNat_saturatingSub,
    UInt64.toNat_saturatingAdd] at h
  omega

/-- The projected window: a member for some of the rows, in their order. -/
theorem projectWindow_spec {baseEpoch : UInt64} {records : List MessageRecord}
    {projected : List (ConvergencePassMember × ClassifiedConvergenceInput)}
    (h : projectWindow codec policy baseEpoch records = .ok projected) :
    (projected.map fun c => c.1.messageId).Sublist (records.map MessageRecord.id) ∧
      ∀ c ∈ projected, withinHorizon policy baseEpoch c.1.sourceEpoch = true ∧
        ∃ record ∈ records, convergencePassCandidate codec record = .ok (some c) := by
  induction records generalizing projected with
  | nil =>
    cases h
    exact ⟨List.Sublist.refl _, fun c hc => (nomatch hc)⟩
  | cons record records ih =>
    rw [projectWindow] at h
    split at h
    · cases h
    rename_i candidate hcandidate
    split at h
    · cases h
    rename_i rest hrest
    cases h
    obtain ⟨hids, hmem⟩ := ih hrest
    have hlater : ∀ c ∈ rest, withinHorizon policy baseEpoch c.1.sourceEpoch = true ∧
        ∃ r ∈ record :: records, convergencePassCandidate codec r = .ok (some c) := by
      intro c hc
      obtain ⟨hhorizon, r, hr, hr'⟩ := hmem c hc
      exact ⟨hhorizon, r, mem_cons_of_mem _ hr, hr'⟩
    cases candidate with
    | none => exact ⟨hids.cons _, hlater⟩
    | some c =>
      cases hhorizon : withinHorizon policy baseEpoch c.1.sourceEpoch with
      | false =>
        simp only [Option.toList, filter_cons, hhorizon, Bool.false_eq_true, if_false,
          filter_nil, nil_append]
        exact ⟨hids.cons _, hlater⟩
      | true =>
        simp only [Option.toList, filter_cons, hhorizon, if_true, filter_nil,
          singleton_append, map_cons]
        rw [(convergencePassCandidate_eq hcandidate).1]
        refine ⟨hids.cons_cons _, fun d hd => ?_⟩
        rcases mem_cons.mp hd with rfl | hd
        · exact ⟨hhorizon, record, mem_cons_self, hcandidate⟩
        · exact hlater d hd

/-- What seeding that reports a trigger has projected. -/
theorem seed_eq_ok {view view' : GroupView} {baseEpoch : EpochId}
    {members : List ConvergencePassMember}
    (h : seedConvergencePassMembers codec groupId policy view baseEpoch =
      (view', .ok (members, true))) :
    view'.disbandCandidates = view.disbandCandidates ∧ ∃ projected,
      projectWindow codec policy baseEpoch (listMessagesInStates view'.rows groupId
        openmlsGraphInputStates
        (baseEpoch.saturatingSub policy.convergence.maxRewindCommits)) = .ok projected ∧
      members = projected.map Prod.fst ∧ hasTrigger view' projected = true := by
  unfold seedConvergencePassMembers at h
  simp only at h
  split at h
  · cases h
  split at h
  · cases h
  · rename_i projected hprojected
    obtain ⟨rfl, hresult⟩ := Prod.mk.inj h
    obtain ⟨hmembers, htrigger⟩ := Prod.mk.inj (Except.ok.inj hresult)
    exact ⟨rfl, projected, hprojected, hmembers.symm, htrigger⟩

theorem seeded_members {view view' : GroupView} {baseEpoch : EpochId}
    {members : List ConvergencePassMember}
    (h : seedConvergencePassMembers codec groupId policy view baseEpoch =
      (view', .ok (members, true))) :
    (members.map messageId).Nodup ∧
      ∀ member ∈ members, withinHorizon policy baseEpoch member.sourceEpoch = true := by
  obtain ⟨-, projected, hprojected, rfl, -⟩ := seed_eq_ok h
  obtain ⟨hids, hmem⟩ := projectWindow_spec hprojected
  constructor
  · rw [map_map]
    refine view'.rows_nodup.sublist (hids.trans ?_)
    exact (filter_sublist (l := view'.rows)).map _
  · intro member hmember
    obtain ⟨c, hc, rfl⟩ := mem_map.mp hmember
    exact (hmem c hc).1

/-! ### One write -/

/-- What a write keeps of the stored pass, in an operation at `now`. -/
structure StoredInv (policy : CanonicalizationPolicy) (clock : UInt64) (past : List UInt64)
    (monotonicMs : UInt64) (pass : DurableConvergencePass) : Prop where
  wellFormed : WellFormedPass policy pass
  known : pass.clockInstanceId ∈ clock :: past
  deadline : pass.clockInstanceId = clock → pass.absoluteDeadlineMonotonicMs.toNat ≤
    monotonicMs.toNat + policy.maxConvergencePassMs.toNat

variable {pass : DurableConvergencePass}

theorem StoredInv.mono {clock : UInt64} {past : List UInt64} {earlier later : UInt64}
    (h : StoredInv policy clock past earlier pass) (hle : earlier ≤ later) :
    StoredInv policy clock past later pass := by
  refine ⟨h.wellFormed, h.known, fun hclock => ?_⟩
  have hdeadline := h.deadline hclock
  have htoNat := UInt64.le_iff_toNat_le.mp hle
  omega

variable {view : GroupView} {clock : UInt64} {past : List UInt64} {now : ConvergenceTime}

/-- Rebased to the running clock, a pass is due within the bound. -/
theorem StoredInv.rebase {monotonicMs : UInt64} (h : StoredInv policy clock past monotonicMs pass)
    (now : ConvergenceTime) :
    StoredInv policy clock past now.monotonicMs
      (normalizeConvergencePassForRuntime pass now clock).1 ∨
      (normalizeConvergencePassForRuntime pass now clock).1 = pass := by
  rw [normalizeConvergencePassForRuntime]
  split
  · exact .inr rfl
  refine .inl ⟨⟨h.wellFormed.absolute, h.wellFormed.distinct, h.wellFormed.horizon⟩,
    mem_cons_self, fun _ => ?_⟩
  simp only [UInt64.toNat_saturatingAdd]
  have hremaining : (if decide (now.wallMs < pass.openedWallMs) = true then 0
      else pass.absoluteDeadlineWallMs.saturatingSub now.wallMs).toNat ≤
      policy.maxConvergencePassMs.toNat := by
    split
    · exact Nat.zero_le _
    · rename_i hforward
      rw [decide_eq_true_eq, UInt64.not_lt, UInt64.le_iff_toNat_le] at hforward
      rw [h.wellFormed.absolute, UInt64.toNat_saturatingSub, UInt64.toNat_saturatingAdd]
      omega
  omega

variable {before after : Option DurableConvergencePass × Nat}

theorem PassWrite.storedInv (h : PassWrite codec groupId policy view clock now before after)
    (hbefore : ∀ P, before.1 = some P → StoredInv policy clock past now.monotonicMs P) :
    ∀ P, after.1 = some P → StoredInv policy clock past now.monotonicMs P := by
  intro P hP
  cases h with
  | delete => cases hP
  | slot =>
    cases hP
    obtain ⟨⟨habsolute, hdistinct, hhorizon⟩, hknown, hdeadline⟩ := hbefore _ rfl
    exact ⟨⟨habsolute, hdistinct, hhorizon⟩, hknown, hdeadline⟩
  | rebase hphase hclock =>
    cases hP
    rcases (hbefore _ rfl).rebase now with hrebased | hsame
    · exact hrebased
    · rw [hsame]
      exact hbefore _ rfl
  | opened hseed =>
    cases hP
    obtain ⟨hdistinct, hhorizon⟩ := seeded_members hseed
    refine ⟨⟨rfl, hdistinct, fun m hm => withinHorizon_iff (hhorizon m hm)⟩,
      mem_cons_self, fun _ => ?_⟩
    simp only [openedPass, UInt64.toNat_saturatingAdd]
    omega
  | @admission pass n member input hphase hclock hfresh hhorizon hcutoff =>
    cases hP
    obtain ⟨⟨habsolute, hdistinct, hold⟩, hknown, hdeadline⟩ := hbefore _ rfl
    obtain ⟨_, _, heq⟩ := admitMember_fields member input
    rw [heq]
    refine ⟨⟨habsolute, ?_, fun m hm => ?_⟩, hknown, hdeadline⟩
    · show ((pass.members ++ [member]).map messageId).Nodup
      rw [map_append, nodup_append]
      refine ⟨hdistinct, nodup_singleton _, ?_⟩
      intro id hid id' hid' heq'
      obtain ⟨m, hm, rfl⟩ := mem_map.mp hid
      exact hfresh m hm (heq'.trans (mem_singleton.mp hid'))
    · rcases mem_append.mp hm with hm | hm
      · exact hold m hm
      · rw [mem_singleton.mp hm]
        exact withinHorizon_iff hhorizon
  | freeze hphase hclock hcutoff =>
    cases hP
    obtain ⟨⟨habsolute, hdistinct, hhorizon⟩, hknown, hdeadline⟩ := hbefore _ rfl
    exact ⟨⟨habsolute, hdistinct, hhorizon⟩, hknown, hdeadline⟩
  | resolve hphase =>
    cases hP
    obtain ⟨⟨habsolute, hdistinct, hhorizon⟩, hknown, hdeadline⟩ := hbefore _ rfl
    exact ⟨⟨habsolute, hdistinct, hhorizon⟩, hknown, hdeadline⟩
  | complete hphase slot =>
    cases hP
    obtain ⟨⟨habsolute, hdistinct, hhorizon⟩, hknown, hdeadline⟩ := hbefore _ rfl
    exact ⟨⟨habsolute, hdistinct, hhorizon⟩, hknown, hdeadline⟩

/-- Between two states with equal counts, an active pass is the active pass from
before. -/
def SamePass (before after : Option DurableConvergencePass × Nat) : Prop :=
  before.2 ≤ after.2 ∧ (before.2 = after.2 → ∀ P', after.1 = some P' → P'.isActive = true →
    ∃ P, before.1 = some P ∧ P.isActive = true ∧ Continues P P')

theorem SamePass.refl (state : Option DurableConvergencePass × Nat) : SamePass state state :=
  ⟨Nat.le_refl _, fun _ P hP hactive => ⟨P, hP, hactive, Continues.refl P⟩⟩

theorem SamePass.trans {a b c : Option DurableConvergencePass × Nat} (hab : SamePass a b)
    (hbc : SamePass b c) : SamePass a c := by
  refine ⟨hab.1.trans hbc.1, fun hcount P'' hP'' hactive => ?_⟩
  have hle := hab.1
  have hle' := hbc.1
  obtain ⟨P', hP', hactive', hcontinues'⟩ := hbc.2 (by omega) P'' hP'' hactive
  obtain ⟨P, hP, hactive'', hcontinues⟩ := hab.2 (by omega) P' hP' hactive'
  exact ⟨P, hP, hactive'', hcontinues.trans hcontinues'⟩

theorem PassWrite.samePass (h : PassWrite codec groupId policy view clock now before after) :
    SamePass before after := by
  cases h with
  | delete =>
    refine ⟨Nat.le_refl _, fun _ P' hP' => ?_⟩
    cases hP'
  | @slot pass n =>
    refine ⟨Nat.le_refl _, fun _ P' hP' hactive => ⟨pass, rfl, ?_, ?_⟩⟩
    · cases hP'
      exact hactive
    · cases hP'
      exact ⟨rfl, rfl, rfl, prefix_rfl, fun h => ⟨h, rfl⟩⟩
  | @rebase pass n hphase hclock =>
    refine ⟨Nat.le_refl _, fun _ P' hP' _ =>
      ⟨pass, rfl, isActive_of_collecting hphase, ?_⟩⟩
    cases hP'
    rw [normalizeConvergencePassForRuntime]
    split
    · exact Continues.refl pass
    · exact ⟨rfl, rfl, rfl, prefix_rfl, fun h => absurd hphase h⟩
  | opened hseed => exact ⟨Nat.le_succ _, fun hcount => absurd hcount (Nat.succ_ne_self _).symm⟩
  | @admission pass n member input hphase hclock hfresh hhorizon hcutoff =>
    refine ⟨Nat.le_refl _, fun _ P' hP' _ =>
      ⟨pass, rfl, isActive_of_collecting hphase, ?_⟩⟩
    cases hP'
    obtain ⟨_, _, heq⟩ := admitMember_fields member input
    rw [heq]
    exact ⟨rfl, rfl, rfl, prefix_append _ _, fun h => absurd hphase h⟩
  | @freeze pass n hphase hclock hcutoff =>
    refine ⟨Nat.le_refl _, fun _ P' hP' _ =>
      ⟨pass, rfl, isActive_of_collecting hphase, ?_⟩⟩
    cases hP'
    exact ⟨rfl, rfl, rfl, prefix_rfl, fun h => absurd hphase h⟩
  | @resolve pass n hphase =>
    refine ⟨Nat.le_refl _, fun _ P' hP' _ => ⟨pass, rfl, ?_, ?_⟩⟩
    · rw [isActive]
      rcases hphase with hphase | hphase
      · rw [hphase]
        rfl
      · rw [hphase]
        rfl
    · cases hP'
      refine ⟨rfl, rfl, rfl, prefix_rfl, fun _ => ⟨fun hcollecting => ?_, rfl⟩⟩
      cases hcollecting
  | complete hphase slot =>
    refine ⟨Nat.le_refl _, fun _ P' hP' hactive => ?_⟩
    cases hP'
    cases hactive

theorem isActive_of_frozen_or_resolving (h : pass.phase = .frozen ∨ pass.phase = .resolving) :
    pass.isActive = true := by
  rw [isActive]
  rcases h with h | h
  · rw [h]
    rfl
  · rw [h]
    rfl

/-- A write that opens no pass keeps the clock and the monotonic deadline of the active
one, and takes a pass of another clock out of collecting only by rebasing it first. -/
theorem PassWrite.clock_cases (h : PassWrite codec groupId policy view clock now before after)
    (hcount : before.2 = after.2) {P' : DurableConvergencePass} (hP' : after.1 = some P')
    (hactive : P'.isActive = true) :
    ∃ P, before.1 = some P ∧ P.isActive = true ∧
      ((P'.clockInstanceId = P.clockInstanceId ∧
          P'.absoluteDeadlineMonotonicMs = P.absoluteDeadlineMonotonicMs ∧
          P'.openedWallMs = P.openedWallMs ∧
          (P.phase = .collecting → P.clockInstanceId ≠ clock → P'.phase = .collecting)) ∨
        (P.phase = .collecting ∧ P.clockInstanceId ≠ clock ∧
          P' = (normalizeConvergencePassForRuntime P now clock).1)) := by
  cases h with
  | delete => cases hP'
  | @slot pass n =>
    cases hP'
    exact ⟨pass, rfl, hactive, .inl ⟨rfl, rfl, rfl, fun h _ => h⟩⟩
  | @rebase pass n hphase hclock =>
    cases hP'
    exact ⟨pass, rfl, isActive_of_collecting hphase, .inr ⟨hphase, hclock, rfl⟩⟩
  | opened hseed => exact absurd hcount (Nat.succ_ne_self _).symm
  | @admission pass n member input hphase hclock hfresh hhorizon hcutoff =>
    cases hP'
    obtain ⟨_, _, heq⟩ := admitMember_fields member input
    rw [heq]
    exact ⟨pass, rfl, isActive_of_collecting hphase, .inl ⟨rfl, rfl, rfl, fun h _ => h⟩⟩
  | @freeze pass n hphase hclock hcutoff =>
    cases hP'
    exact ⟨pass, rfl, isActive_of_collecting hphase,
      .inl ⟨rfl, rfl, rfl, fun _ hne => absurd hclock hne⟩⟩
  | @resolve pass n hphase =>
    cases hP'
    refine ⟨pass, rfl, isActive_of_frozen_or_resolving hphase, .inl ⟨rfl, rfl, rfl, ?_⟩⟩
    intro hcollecting
    rw [hcollecting] at hphase
    exact absurd hphase (by simp)
  | complete hphase slot =>
    cases hP'
    cases hactive

/-- The pass is in the running clock and due, or (if `mayWait`) waits to be rebased by a
process whose wall clock reads before its opening; unless another one has been opened. -/
def DueOrWaiting (mayWait : Prop) (clock : UInt64) (n : Nat) (now : ConvergenceTime)
    (state : Option DurableConvergencePass × Nat) : Prop :=
  n ≤ state.2 ∧ (state.2 = n → ∀ P, state.1 = some P → P.isActive = true →
    (mayWait ∧ P.phase = .collecting ∧ P.clockInstanceId ≠ clock ∧
        now.wallMs < P.openedWallMs) ∨
      (P.clockInstanceId = clock ∧ P.absoluteDeadlineMonotonicMs ≤ now.monotonicMs))

theorem PassWrite.dueOrWaiting {mayWait : Prop} {n : Nat}
    (h : PassWrite codec groupId policy view clock now before after)
    (hbefore : DueOrWaiting mayWait clock n now before) :
    DueOrWaiting mayWait clock n now after := by
  obtain ⟨hle, hbefore⟩ := hbefore
  have hcounts := h.samePass.1
  refine ⟨hle.trans hcounts, fun hn P' hP' hactive => ?_⟩
  obtain ⟨P, hP, hactive', hkept | ⟨hphase, hclock, rfl⟩⟩ :=
    h.clock_cases (by omega) hP' hactive
  · obtain ⟨hclock, habsolute, hopened, hphase⟩ := hkept
    rw [hclock, habsolute, hopened]
    refine (hbefore (by omega) P hP hactive').imp_left ?_
    rintro ⟨hwait, hcollecting, hne, hwall⟩
    exact ⟨hwait, hphase hcollecting hne, hne, hwall⟩
  · rcases hbefore (by omega) P hP hactive' with ⟨-, -, -, hwall⟩ | ⟨hclock', -⟩
    · -- The wall clock reads before the opening, so nothing remains.
      right
      rw [normalizeConvergencePassForRuntime,
        if_neg (not_or.mpr ⟨not_not_intro hphase, hclock⟩)]
      refine ⟨rfl, ?_⟩
      simp only [hwall, decide_true, if_true]
      rw [UInt64.le_iff_toNat_le, UInt64.toNat_saturatingAdd]
      have hzero : (0 : UInt64).toNat = 0 := rfl
      omega
    · exact absurd hclock' hclock

/-! ### One operation -/

theorem PassWrites.storedInv (h : PassWrites codec groupId policy view clock now before after)
    (hbefore : ∀ P, before.1 = some P → StoredInv policy clock past now.monotonicMs P) :
    ∀ P, after.1 = some P → StoredInv policy clock past now.monotonicMs P := by
  induction h with
  | refl => exact hbefore
  | tail _ hwrite ih => exact hwrite.storedInv ih

theorem PassWrites.samePass (h : PassWrites codec groupId policy view clock now before after) :
    SamePass before after := by
  induction h with
  | refl => exact SamePass.refl _
  | tail _ hwrite ih => exact ih.trans hwrite.samePass

theorem PassWrites.dueOrWaiting {mayWait : Prop} {n : Nat}
    (h : PassWrites codec groupId policy view clock now before after)
    (hbefore : DueOrWaiting mayWait clock n now before) :
    DueOrWaiting mayWait clock n now after := by
  induction h with
  | refl => exact hbefore
  | tail _ hwrite ih => exact hwrite.dueOrWaiting ih

namespace PassRun

/-- The stored pass with the number of passes opened. -/
def passState (run : PassRun) : Option DurableConvergencePass × Nat :=
  (run.engine.pass, run.openedPasses)

/-- The invariant of a run. -/
structure Inv (policy : CanonicalizationPolicy) (run : PassRun) : Prop where
  stored : ∀ P, run.engine.pass = some P →
    StoredInv policy run.engine.clockInstanceId run.pastInstances run.lastMonotonicMs P
  running : ∀ now, run.report.loadedAt = some now → now.monotonicMs = run.lastMonotonicMs ∧
    ∀ P, run.engine.pass = some P → P.phase = .collecting →
      P.clockInstanceId = run.engine.clockInstanceId
  delay : ∀ d, run.report.delayMs = some d → d = 0 ∨ ∃ now P, run.report.loadedAt = some now ∧
    run.engine.pass = some P ∧ P.phase = .collecting ∧ d = P.remainingMs now

variable {op : PassOp}

theorem step_restart (codec : WireCodec) (groupId : GroupId) (policy : CanonicalizationPolicy)
    (run : PassRun) (hop : op.isRestart = true) :
    ∃ c now, op = .restart c now ∧ run.step codec groupId policy op =
      ⟨{ run.engine with clockInstanceId := c }, now.monotonicMs,
        run.engine.clockInstanceId :: run.pastInstances, run.openedPasses, {}⟩ := by
  cases op with
  | restart c now => exact ⟨c, now, rfl, rfl⟩
  | prepare | admission | converge | consumeFairnessSlot | deletePass | outside => cases hop

variable {run : PassRun}

theorem Inv.step (h : run.Inv policy) (hop : run.Admissible op) :
    (run.step codec groupId policy op).Inv policy := by
  cases hrestart : op.isRestart with
  | true =>
    obtain ⟨c, now, rfl, hstep⟩ := step_restart codec groupId policy run hrestart
    rw [hstep]
    have hfresh := hop.1 c rfl
    refine ⟨fun P hP => ?_, fun _ hnow => (nomatch hnow), fun _ hd => (nomatch hd)⟩
    obtain ⟨hwell, hknown, -⟩ := h.stored P hP
    -- The clock of the stored pass is an old one, so nothing is said of its deadline.
    refine ⟨hwell, mem_cons_of_mem _ hknown, fun hclock => absurd ?_ hfresh⟩
    rwa [show P.clockInstanceId = c from hclock] at hknown
  | false =>
    obtain ⟨hexecuted, -, htime, hdelay⟩ := PassOp.exec_spec codec groupId policy hrestart
      run.engine run.lastMonotonicMs run.openedPasses
    have hlater := hop.2 hrestart
    refine ⟨fun P hP => ?_, fun now hnow => ⟨?_, fun P hP hphase => ?_⟩, fun d hd => ?_⟩
    · have hstored := hexecuted.writes.storedInv
        (fun P hP => (h.stored P hP).mono hlater) P hP
      rw [← hexecuted.clock] at hstored
      simpa only [PassRun.step, hrestart, Bool.false_eq_true, if_false] using hstored
    · rw [htime now hnow]
      rfl
    · have hsome : (op.exec codec groupId policy run.engine).2.loadedAt.isSome = true := by
        rw [show (op.exec codec groupId policy run.engine).2.loadedAt = some now from hnow]
        rfl
      rw [hexecuted.running hsome P hP hphase]
      exact hexecuted.clock.symm
    · refine (hdelay d hd).imp_right ?_
      rintro ⟨P, hP, hphase, hsome, rfl⟩
      obtain ⟨now, hnow⟩ := Option.isSome_iff_exists.mp hsome
      refine ⟨now, P, hnow, hP, hphase, ?_⟩
      rw [htime now hnow]
      rfl

theorem step_samePass : SamePass run.passState (run.step codec groupId policy op).passState := by
  cases hrestart : op.isRestart with
  | true =>
    obtain ⟨c, now, rfl, hstep⟩ := step_restart codec groupId policy run hrestart
    rw [hstep]
    exact SamePass.refl _
  | false =>
    exact (PassOp.exec_spec codec groupId policy hrestart run.engine run.lastMonotonicMs
      run.openedPasses).1.writes.samePass

theorem run_samePass (run : PassRun) (ops : List PassOp) :
    SamePass run.passState (ops.foldl (step codec groupId policy) run).passState := by
  induction ops generalizing run with
  | nil => exact SamePass.refl _
  | cons op ops ih => exact step_samePass.trans (ih _)

/-- A pass that is due stays due as long as the process lives. -/
theorem run_due {n : Nat} {ops : List PassOp} (hops : ∀ op ∈ ops, op.isRestart = false)
    (h : Runs.Guarded (step codec groupId policy) PassRun.Admissible run ops)
    (hcount : n ≤ run.openedPasses)
    (hdue : run.openedPasses = n → ∀ P, run.engine.pass = some P → P.isActive = true →
      P.clockInstanceId = run.engine.clockInstanceId ∧
        P.absoluteDeadlineMonotonicMs ≤ run.lastMonotonicMs) :
    let final := ops.foldl (step codec groupId policy) run
    final.openedPasses = n → ∀ P, final.engine.pass = some P → P.isActive = true →
      P.absoluteDeadlineMonotonicMs ≤ final.lastMonotonicMs := by
  induction ops generalizing run with
  | nil => exact fun hn P hP hactive => (hdue hn P hP hactive).2
  | cons op ops ih =>
    obtain ⟨hop, hrest⟩ := h
    have hrestart := hops op mem_cons_self
    obtain ⟨hexecuted, -⟩ := PassOp.exec_spec codec groupId policy hrestart run.engine
      run.lastMonotonicMs run.openedPasses
    have hbefore : DueOrWaiting False run.engine.clockInstanceId n (op.time run.lastMonotonicMs)
        run.passState := by
      refine ⟨hcount, fun hn P hP hactive => .inr ?_⟩
      obtain ⟨hclock, habsolute⟩ := hdue hn P hP hactive
      exact ⟨hclock, UInt64.le_trans habsolute (hop.2 hrestart)⟩
    obtain ⟨hle, hafter⟩ := hexecuted.writes.dueOrWaiting hbefore
    refine ih (fun e he => hops e (mem_cons_of_mem _ he)) hrest hle ?_
    intro hn P hP hactive
    rcases hafter hn P hP hactive with ⟨hwait, -⟩ | hdue'
    · exact hwait.elim
    · exact ⟨hdue'.1.trans hexecuted.clock.symm, hdue'.2⟩

/-- The operation that loads a collecting pass in a process with a wall clock from before
its opening leaves it due. -/
theorem step_due {now : ConvergenceTime} {P : DurableConvergencePass}
    (hP : run.engine.pass = some P) (hphase : P.phase = .collecting)
    (hclock : P.clockInstanceId ≠ run.engine.clockInstanceId)
    (hloaded : (run.step codec groupId policy op).report.loadedAt = some now)
    (hwall : now.wallMs < P.openedWallMs) :
    let next := run.step codec groupId policy op
    run.openedPasses ≤ next.openedPasses ∧
      (next.openedPasses = run.openedPasses → ∀ P', next.engine.pass = some P' →
        P'.isActive = true → P'.clockInstanceId = next.engine.clockInstanceId ∧
          P'.absoluteDeadlineMonotonicMs ≤ next.lastMonotonicMs) := by
  have hrestart : op.isRestart = false := by
    cases hrestart : op.isRestart with
    | false => rfl
    | true =>
      obtain ⟨c, now', rfl, hstep⟩ := step_restart codec groupId policy run hrestart
      rw [hstep] at hloaded
      cases hloaded
  obtain ⟨hexecuted, -, htime, -⟩ := PassOp.exec_spec codec groupId policy hrestart run.engine
    run.lastMonotonicMs run.openedPasses
  have hnow : now = op.time run.lastMonotonicMs := htime now hloaded
  have hbefore : DueOrWaiting True run.engine.clockInstanceId run.openedPasses
      (op.time run.lastMonotonicMs) run.passState := by
    refine ⟨Nat.le_refl _, fun _ Q hQ _ => .inl ⟨trivial, ?_⟩⟩
    rw [show run.engine.pass = some Q from hQ] at hP
    cases hP
    exact ⟨hphase, hclock, hnow ▸ hwall⟩
  obtain ⟨hle, hafter⟩ := hexecuted.writes.dueOrWaiting hbefore
  refine ⟨hle, fun hn P' hP' hactive => ?_⟩
  have hloaded' : (op.exec codec groupId policy run.engine).2.loadedAt.isSome = true := by
    rw [show (op.exec codec groupId policy run.engine).2.loadedAt = some now from hloaded]
    rfl
  rcases hafter hn P' hP' hactive with ⟨-, hcollecting, hne, -⟩ | hdue
  · exact absurd (hexecuted.running hloaded' P' hP' hcollecting) hne
  · exact ⟨hdue.1.trans hexecuted.clock.symm, hdue.2⟩

end PassRun

theorem remainingMs_le {now : ConvergenceTime} {bound : UInt64}
    (h : pass.absoluteDeadlineMonotonicMs.toNat ≤ now.monotonicMs.toNat + bound.toNat) :
    pass.remainingMs now ≤ bound := by
  have hcutoff : pass.cutoffMonotonicMs.toNat ≤ pass.absoluteDeadlineMonotonicMs.toNat := by
    rw [← UInt64.le_iff_toNat_le]
    exact Std.min_le_right
  rw [remainingMs, UInt64.le_iff_toNat_le, UInt64.toNat_saturatingSub]
  omega

/-- **The convergence pass over whole runs.**  `openedPasses` tells passes apart, and
`loadedAt` is the time of the last operation if it has loaded the pass. -/
theorem pass_run_invariant (codec : WireCodec) (groupId : GroupId)
    (policy : CanonicalizationPolicy) (start : PassRun) (hstart : start.engine.pass = none)
    (hreport : start.report = {}) (ops : List PassOp)
    (hrun : Runs.Guarded (PassRun.step codec groupId policy) PassRun.Admissible start ops) :
    let after := fun es : List PassOp => es.foldl (step codec groupId policy) start
    (∀ P, (after ops).engine.pass = some P → WellFormedPass policy P) ∧
    (∀ earlier later, ops = earlier ++ later → ∀ P P', (after earlier).engine.pass = some P →
      (after ops).engine.pass = some P' → P'.isActive = true →
      (after earlier).openedPasses = (after ops).openedPasses → Continues P P') ∧
    (∀ now P, (after ops).engine.pass = some P →
      (P.clockInstanceId = (after ops).engine.clockInstanceId ∧
          (after ops).lastMonotonicMs ≤ now.monotonicMs ∨
        (after ops).report.loadedAt = some now ∧ P.phase = .collecting) →
      P.remainingMs now ≤ policy.maxConvergencePassMs) ∧
    (∀ d, (after ops).report.delayMs = some d → d ≤ policy.maxConvergencePassMs) ∧
    ∀ earlier op later, ops = earlier ++ op :: later → (∀ e ∈ later, e.isRestart = false) →
      ∀ P wake, (after earlier).engine.pass = some P → P.phase = .collecting →
      P.clockInstanceId ≠ (after earlier).engine.clockInstanceId →
      (after (earlier ++ [op])).report.loadedAt = some wake → wake.wallMs < P.openedWallMs →
      (after ops).openedPasses = (after earlier).openedPasses →
      ∀ now P', (after ops).report.loadedAt = some now → (after ops).engine.pass = some P' →
        P'.phase = .collecting → P'.remainingMs now = 0 := by
  intro after
  have hinv : ∀ earlier later, ops = earlier ++ later → (after earlier).Inv policy := by
    intro earlier later hsplit
    rw [hsplit] at hrun
    refine Runs.Guarded.invariant (fun run op => PassRun.Inv.step) ?_ hrun.split.1
    refine ⟨fun P hP => ?_, fun _ hnow => ?_, fun _ hd => ?_⟩
    · rw [hstart] at hP
      cases hP
    · rw [hreport] at hnow
      cases hnow
    · rw [hreport] at hd
      cases hd
  have hsplit : ∀ {earlier : List PassOp} (later : List PassOp), after (earlier ++ later) =
      later.foldl (step codec groupId policy) (after earlier) :=
    fun later => foldl_append
  have hfinal := hinv ops [] (append_nil ops).symm
  have hrunning : ∀ now P, (after ops).engine.pass = some P →
      P.clockInstanceId = (after ops).engine.clockInstanceId →
      (after ops).lastMonotonicMs ≤ now.monotonicMs →
      P.remainingMs now ≤ policy.maxConvergencePassMs := by
    intro now P hP hclock hlater
    refine remainingMs_le (((hfinal.stored P hP).deadline hclock).trans ?_)
    exact Nat.add_le_add_right (UInt64.le_iff_toNat_le.mp hlater) _
  have hloaded : ∀ now P, (after ops).report.loadedAt = some now →
      (after ops).engine.pass = some P → P.phase = .collecting →
      P.remainingMs now ≤ policy.maxConvergencePassMs := by
    intro now P hnow hP hphase
    obtain ⟨htime, hclock⟩ := hfinal.running now hnow
    exact hrunning now P hP (hclock P hP hphase) (UInt64.le_of_eq htime.symm)
  refine ⟨fun P hP => (hfinal.stored P hP).wellFormed, ?_, fun now P hP hdue => ?_, ?_, ?_⟩
  · rintro earlier later rfl P P' hP hP' hactive hcount
    rw [hsplit later] at hP' hcount
    have hsame : SamePass (after earlier).passState
        (later.foldl (step codec groupId policy) (after earlier)).passState :=
      run_samePass _ later
    obtain ⟨Q, hQ, -, hcontinues⟩ := hsame.2 hcount P' hP' hactive
    rw [show (after earlier).engine.pass = some Q from hQ] at hP
    cases hP
    exact hcontinues
  · rcases hdue with ⟨hclock, hlater⟩ | ⟨hnow, hphase⟩
    · exact hrunning now P hP hclock hlater
    · exact hloaded now P hnow hP hphase
  · intro d hd
    rcases hfinal.delay d hd with rfl | ⟨now, P, hnow, hP, hphase, rfl⟩
    · exact UInt64.zero_le
    · exact hloaded now P hnow hP hphase
  · rintro earlier op later rfl hlater P wake hP hphase hclock hwake hwall hcount now P' hnow hP'
      hphase'
    have hop : after (earlier ++ [op]) =
        (after earlier).step codec groupId policy op := foldl_append
    have hguarded := (hrun.split.2).2
    rw [hop] at hwake
    obtain ⟨hle, hdue'⟩ := step_due hP hphase hclock hwake hwall
    have hstay := run_due hlater hguarded hle hdue'
    rw [hsplit (op :: later)] at hnow hP' hcount hfinal
    have habsolute := hstay hcount P' hP' (isActive_of_collecting hphase')
    have hzero : P'.remainingMs now ≤ 0 := by
      refine remainingMs_le ?_
      rw [(hfinal.running now hnow).1]
      exact UInt64.le_iff_toNat_le.mp habsolute
    exact UInt64.le_antisymm hzero UInt64.zero_le

end Runs

/-! ### A pass across a restart

A group at epoch 10 has one stored commit.  Its pass is opened 100 s into the first
process; the second process comes up with both clocks at zero. -/

namespace RestartedPass

def commit : TransportMessage := ⟨"commit", [1], "relay", .groupMessage [0]⟩

def codec : WireCodec where
  decode
    | [1] => .ok (.openMlsWire commit)
    | _ => .error "unknown payload"
  messageDigest bytes := Vector.replicate 32 (bytes.headD 0)
  parse
    | [1] => .ok (some ⟨.commit, 10⟩)
    | _ => .error (.decode "unknown message")

/-- The group in an epoch state. -/
def view (epochState : EpochState) : GroupView where
  rows := [⟨"commit", [0], 10, .created, [1]⟩]
  rows_nodup := by decide
  epochState := some epochState
  groupEpoch := 10
  unrecoverable := false
  quarantined := false
  deferredPeelGeneration := false
  pendingCanonicalApplications := false
  disbandCandidates := []
  queuedOutboundIntents := []

def start : PassRun := ⟨⟨none, 1, view (.stable 10)⟩, 100000, [], 0, {}⟩

def after (ops : List PassOp) : PassRun := ops.foldl (PassRun.step codec [0] {}) start

/-- Opened in the first process, loaded in the second. -/
def opened : List PassOp := [.prepare ⟨100000, 50000⟩]

def reopened : List PassOp := opened ++ [.restart 2 ⟨0, 0⟩, .prepare ⟨0, 0⟩]

/-- Frozen in the first process. -/
def frozen : List PassOp :=
  opened ++ [.converge ⟨101000, 51000⟩ .sliceExhausted, .restart 2 ⟨0, 0⟩, .prepare ⟨0, 0⟩]

/-- In the second process the group has a publication in flight. -/
def notLoaded : List PassOp :=
  opened ++ [.restart 2 ⟨0, 0⟩, .outside (view (.pendingPublish ⟨11, [], 0⟩)),
    .admission "commit" ⟨0, 0⟩]

/-- The pass as it was opened. -/
def pass : DurableConvergencePass :=
  openedPass [0] {} 1 0 10 ⟨100000, 50000⟩ [⟨"commit", Vector.replicate 32 1, .commitEdge, 10⟩]

theorem after_reopened : (after reopened).engine.pass =
    some (normalizeConvergencePassForRuntime pass ⟨0, 0⟩ 2).1 := by decide +kernel

theorem after_frozen : (after frozen).engine.pass =
    some { freezeCollectingConvergencePass pass ⟨101000, 51000⟩ with phase := .resolving } := by
  decide +kernel

theorem after_notLoaded : (after notLoaded).engine.pass = some pass := by decide +kernel

theorem pass_run_invariant_reopened :
    Runs.Guarded (PassRun.step codec [0] {}) PassRun.Admissible start reopened ∧
      ∃ P, (after reopened).engine.pass = some P ∧ WellFormedPass {} P ∧
        P.remainingMs ⟨0, 0⟩ = 0 := by
  have hrun : Runs.Guarded (step codec [0] {}) PassRun.Admissible start reopened := by
    decide +kernel
  obtain ⟨hwell, -, -, -, hzero⟩ := pass_run_invariant codec [0] {} start rfl rfl reopened hrun
  refine ⟨hrun, _, after_reopened, hwell _ after_reopened, ?_⟩
  exact hzero (opened ++ [.restart 2 ⟨0, 0⟩]) (.prepare ⟨0, 0⟩) [] rfl nofun pass ⟨0, 0⟩
    (by decide +kernel) rfl (by decide +kernel) (by decide +kernel) (by decide +kernel)
    (by decide +kernel) ⟨0, 0⟩ _ (by decide +kernel) after_reopened rfl

/-- A frozen pass, and a collecting one that an admission has not loaded, are still in
the clock of the first process: by the clock of the second they have more than the
bound left, although its wall clock reads before the opening. -/
theorem frozen_pass_keeps_old_deadlines :
    (Runs.Guarded (PassRun.step codec [0] {}) PassRun.Admissible start frozen ∧
      ∃ P, (after frozen).engine.pass = some P ∧ P.isActive = true ∧ 0 < P.openedWallMs ∧
        v1MaxConvergencePassMs < P.remainingMs ⟨0, 0⟩) ∧
    (Runs.Guarded (PassRun.step codec [0] {}) PassRun.Admissible start notLoaded ∧
      ∃ P, (after notLoaded).engine.pass = some P ∧ P.phase = .collecting ∧
        0 < P.openedWallMs ∧ v1MaxConvergencePassMs < P.remainingMs ⟨0, 0⟩) := by
  refine ⟨⟨by decide +kernel, _, after_frozen, rfl, ?_⟩,
    ⟨by decide +kernel, _, after_notLoaded, rfl, ?_⟩⟩
  · decide
  · decide

end RestartedPass

end Mdk

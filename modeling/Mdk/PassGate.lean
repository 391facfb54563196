/-
An open pass gates outbound work.

A pass is opened for a trigger, which is computed from the classified rows and their
states; whether it gates outbound work is computed later, from the roles of its
members.  Either way it comes down to a commit among the members, and no operation
takes one away.

Main result:
* `open_pass_gates_outbound` — **a pass that seeding has opened gates outbound work, and
  so does every pass that is reached from it**, as long as the stored disband candidates
  name commits.
-/
import Mdk.PassRuns

open Std (ExtTreeMap ExtTreeSet)

namespace Mdk

open ConvergenceInputContext List

section Gate

variable {codec : WireCodec} {groupId : GroupId} {policy : CanonicalizationPolicy}

/-! ### A commit among the members -/

/-- A row that a disband candidate names is a commit. -/
def CandidatesNameCommits (codec : WireCodec) (view : GroupView) : Prop :=
  ∀ record ∈ view.rows, record.id ∈ candidateIds view → ∀ member input,
    convergencePassCandidate codec record = .ok (some (member, input)) →
      member.role = .commitEdge

/-- A commit is among the members. -/
def HasCommitEdge (members : List ConvergencePassMember) : Prop :=
  ∃ member ∈ members, member.role = .commitEdge

theorem HasCommitEdge.gates {pass : DurableConvergencePass} (h : HasCommitEdge pass.members) :
    convergencePassGatesOutbound pass = true := by
  obtain ⟨member, hmember, hrole⟩ := h
  refine any_eq_true.mpr ⟨member, hmember, ?_⟩
  rw [activePassMemberGatesOutbound, hrole]

variable {inputs : List ClassifiedConvergenceInput}

/-- Without a commit the context stays empty. -/
theorem fromInputs_eq_empty (h : ∀ input ∈ inputs, input.role ≠ .commitEdge) :
    fromInputs inputs = {} := by
  rw [fromInputs]
  generalize ({} : ConvergenceInputContext) = context
  induction inputs generalizing context with
  | nil => rfl
  | cons input inputs ih =>
    rw [foldl_cons, add, if_neg (h input mem_cons_self)]
    exact ih (fun i hi => h i (mem_cons_of_mem _ hi)) context

theorem exists_commitEdge_of_competing {sourceEpoch : UInt64}
    (h : (fromInputs inputs).hasCompetingCommitBefore sourceEpoch = true) :
    ∃ input ∈ inputs, input.role = .commitEdge := by
  by_contra hnone
  have hempty : fromInputs inputs = {} :=
    fromInputs_eq_empty fun input hinput hrole => hnone ⟨input, hinput, hrole⟩
  rw [hempty, hasCompetingCommitBefore] at h
  simp at h

/-- An input that opens a pass is a commit, or has commits before it. -/
theorem exists_commitEdge_of_opensPass {input : ClassifiedConvergenceInput}
    (hinput : input ∈ inputs)
    (h : (fromInputs inputs).opensPass input = true) :
    ∃ i ∈ inputs, i.role = .commitEdge := by
  rw [opensPass, Bool.and_eq_true] at h
  obtain ⟨-, hrole⟩ := h
  split at hrole
  · rename_i hcommit
    exact ⟨input, hinput, hcommit⟩
  · cases hrole
  · exact exists_commitEdge_of_competing hrole

/-! ### Seeding -/

/-- The role of a candidate is read off the payload. -/
theorem candidate_role {record record' : MessageRecord} {member : ConvergencePassMember}
    {input : ClassifiedConvergenceInput} (hpayload : record'.payload = record.payload)
    (h : convergencePassCandidate codec record' = .ok (some (member, input))) :
    ∃ member' input', convergencePassCandidate codec record = .ok (some (member', input')) ∧
      member'.role = member.role := by
  unfold convergencePassCandidate at h ⊢
  rw [hpayload] at h
  split at h
  · cases h
  split at h
  · cases h
  split at h
  · cases h
  rename_i payload hdecode message hwire projection hproject
  split at h
  · cases h
  rename_i sourceEpoch hepoch
  obtain ⟨found, hfound, hpair⟩ := Option.map_eq_some_iff.mp (Except.ok.inj h)
  obtain ⟨role, hrole, rfl⟩ := Option.map_eq_some_iff.mp hfound
  cases hpair
  simp only [ClassifiedConvergenceInput.fromProjection, hrole, Option.map_some]
  exact ⟨_, _, rfl, rfl⟩

theorem SameContent.candidatesNameCommits {view view' : GroupView} (h : SameContent view view')
    (hview : CandidatesNameCommits codec view) : CandidatesNameCommits codec view' := by
  intro record' hrecord' hid member input hcandidate
  have hmem : (record'.id, record'.payload) ∈
      view.rows.map fun record => (record.id, record.payload) := by
    rw [← h.rows]
    exact mem_map.mpr ⟨record', hrecord', rfl⟩
  obtain ⟨record, hrecord, hpair⟩ := mem_map.mp hmem
  obtain ⟨hid', hpayload⟩ := Prod.mk.inj hpair
  obtain ⟨member', input', hcandidate', hrole⟩ := candidate_role hpayload.symm hcandidate
  rw [← hrole]
  refine hview record hrecord ?_ member' input' hcandidate'
  rw [hid', candidateIds, ← h.candidates]
  exact hid

/-- **Seeding that reports a trigger has a commit among its members.** -/
theorem seeded_hasCommitEdge {view view' : GroupView} {baseEpoch : EpochId}
    {members : List ConvergencePassMember} (hview : CandidatesNameCommits codec view)
    (h : seedConvergencePassMembers codec groupId policy view baseEpoch =
      (view', .ok (members, true))) : HasCommitEdge members := by
  have hview' : CandidatesNameCommits codec view' :=
    (seed_sameContent h).candidatesNameCommits hview
  obtain ⟨-, projected, hprojected, rfl, htrigger⟩ := seed_eq_ok h
  obtain ⟨-, hmem⟩ := projectWindow_spec hprojected
  rw [hasTrigger, Bool.or_eq_true] at htrigger
  rcases htrigger with hterminal | hopens
  · -- A disband candidate is in the window.
    obtain ⟨c, hc, hid⟩ := any_eq_true.mp hterminal
    obtain ⟨-, record, hrecord, hcandidate⟩ := hmem c hc
    refine ⟨c.1, mem_map.mpr ⟨c, hc, rfl⟩, ?_⟩
    refine hview' record (mem_filter.mp hrecord).1 ?_ c.1 c.2 hcandidate
    rw [← (convergencePassCandidate_eq hcandidate).1]
    exact contains_iff_mem.mp hid
  · obtain ⟨c, hc, hc'⟩ := any_eq_true.mp hopens
    obtain ⟨input, hinput, hrole⟩ :=
      exists_commitEdge_of_opensPass (mem_map.mpr ⟨c, hc, rfl⟩) hc'
    obtain ⟨d, hd, rfl⟩ := mem_map.mp hinput
    obtain ⟨-, record, -, hcandidate⟩ := hmem d hd
    refine ⟨d.1, mem_map.mpr ⟨d, hd, rfl⟩, ?_⟩
    rw [(convergencePassCandidate_eq hcandidate).2.2.1]
    exact hrole

/-! ### Runs -/

theorem PassWrite.hasCommitEdge {view : GroupView} {clock : UInt64} {now : ConvergenceTime}
    {before after : Option DurableConvergencePass × Nat}
    (h : PassWrite codec groupId policy view clock now before after)
    (hview : CandidatesNameCommits codec view)
    (hbefore : ∀ P, before.1 = some P → HasCommitEdge P.members) :
    ∀ P, after.1 = some P → HasCommitEdge P.members := by
  intro P hP
  cases h with
  | delete => cases hP
  | @rebase pass n hphase hclock =>
    cases hP
    rw [normalizeConvergencePassForRuntime]
    split
    · exact hbefore pass rfl
    · exact hbefore pass rfl
  | opened hseed =>
    cases hP
    exact seeded_hasCommitEdge hview hseed
  | @admission pass n member input hphase hclock hfresh hhorizon hcutoff =>
    cases hP
    obtain ⟨_, _, heq⟩ := admitMember_fields member input
    obtain ⟨m, hm, hrole⟩ := hbefore pass rfl
    rw [heq]
    exact ⟨m, mem_append_left _ hm, hrole⟩
  | @slot pass | @freeze pass | @resolve pass | @complete pass =>
    cases hP
    exact hbefore pass rfl

theorem PassWrites.hasCommitEdge {view : GroupView} {clock : UInt64} {now : ConvergenceTime}
    {before after : Option DurableConvergencePass × Nat}
    (h : PassWrites codec groupId policy view clock now before after)
    (hview : CandidatesNameCommits codec view)
    (hbefore : ∀ P, before.1 = some P → HasCommitEdge P.members) :
    ∀ P, after.1 = some P → HasCommitEdge P.members := by
  induction h with
  | refl => exact hbefore
  | tail _ hwrite ih => exact hwrite.hasCommitEdge hview ih

/-- What happens outside keeps the promise about the disband candidates. -/
def KeepsCandidates (codec : WireCodec) (_ : PassRun) (op : PassOp) : Prop :=
  ∀ view, op = .outside view → CandidatesNameCommits codec view

/-- The invariant: the promise, and a commit among the members of the stored pass. -/
structure GateInv (codec : WireCodec) (run : PassRun) : Prop where
  candidates : CandidatesNameCommits codec run.engine.view
  edge : ∀ P, run.engine.pass = some P → HasCommitEdge P.members

theorem GateInv.step {run : PassRun} {op : PassOp} (h : GateInv codec run)
    (hop : KeepsCandidates codec run op) : GateInv codec (run.step codec groupId policy op) := by
  cases hrestart : op.isRestart with
  | true =>
    obtain ⟨c, now, rfl, hstep⟩ := PassRun.step_restart codec groupId policy run hrestart
    rw [hstep]
    exact ⟨h.candidates, h.edge⟩
  | false =>
    obtain ⟨hexecuted, hcontent, -⟩ := PassOp.exec_spec codec groupId policy hrestart run.engine
      run.lastMonotonicMs run.openedPasses
    refine ⟨?_, hexecuted.writes.hasCommitEdge h.candidates h.edge⟩
    cases houtside : op.isOutside with
    | false => exact (hcontent houtside).candidatesNameCommits h.candidates
    | true =>
      cases op with
      | outside view => exact hop view rfl
      | prepare | admission | converge | consumeFairnessSlot | deletePass | restart =>
        cases houtside

/-- **A pass that seeding has opened gates outbound work, and so does every pass reached
from it.** -/
theorem open_pass_gates_outbound {view view' : GroupView} {baseEpoch : EpochId}
    {members : List ConvergencePassMember} (hview : CandidatesNameCommits codec view)
    (hseed : seedConvergencePassMembers codec groupId policy view baseEpoch =
      (view', .ok (members, true)))
    (run : PassRun) (generation : UInt64) (now : ConvergenceTime)
    (hrun : run.engine = ⟨some (openedPass groupId policy run.engine.clockInstanceId generation
      baseEpoch now members), run.engine.clockInstanceId, view'⟩)
    (ops : List PassOp)
    (hops : Runs.Guarded (PassRun.step codec groupId policy) (KeepsCandidates codec) run ops)
    (pass : DurableConvergencePass)
    (hpass : (ops.foldl (PassRun.step codec groupId policy) run).engine.pass = some pass) :
    convergencePassGatesOutbound pass = true := by
  have hstart : GateInv codec run := by
    constructor
    · rw [hrun]
      exact (seed_sameContent hseed).candidatesNameCommits hview
    · intro P hP
      rw [hrun] at hP
      cases hP
      exact seeded_hasCommitEdge hview hseed
  have hfinal : GateInv codec (ops.foldl (PassRun.step codec groupId policy) run) :=
    Runs.Guarded.invariant (fun _ _ => GateInv.step) hstart hops
  exact (hfinal.edge pass hpass).gates

end Gate

/-! ### The pass of a stored commit -/

namespace RestartedPass

/-- The first process, right after it has opened the pass. -/
def running : PassRun :=
  ⟨⟨some pass, 1, (view (.stable 10)).retireStaleConvergenceDeferredCommits codec [0] 5⟩,
    100000, [], 1, {}⟩

theorem open_pass_gates_outbound_restarted :
    ([.restart 2 ⟨0, 0⟩, .prepare ⟨0, 0⟩].foldl (PassRun.step codec [0] {})
        running).engine.pass = some (normalizeConvergencePassForRuntime pass ⟨0, 0⟩ 2).1 ∧
      convergencePassGatesOutbound (normalizeConvergencePassForRuntime pass ⟨0, 0⟩ 2).1 =
        true := by
  have hpass : ([.restart 2 ⟨0, 0⟩, .prepare ⟨0, 0⟩].foldl (PassRun.step codec [0] {})
      running).engine.pass = some (normalizeConvergencePassForRuntime pass ⟨0, 0⟩ 2).1 := by
    decide +kernel
  have hview : CandidatesNameCommits codec (view (.stable 10)) := nofun
  have hseed : seedConvergencePassMembers codec [0] {} (view (.stable 10)) 10 =
      ((view (.stable 10)).retireStaleConvergenceDeferredCommits codec [0] 5,
        .ok (pass.members, true)) := by
    refine Prod.ext rfl ?_
    decide +kernel
  exact ⟨hpass, open_pass_gates_outbound hview hseed running 0 ⟨100000, 50000⟩ rfl
    [.restart 2 ⟨0, 0⟩, .prepare ⟨0, 0⟩] ⟨nofun, nofun, trivial⟩ _ hpass⟩

end RestartedPass

end Mdk

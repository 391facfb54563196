/-
The lifecycle of a current-profile group only moves forward.

A group without lifecycle state enables it once, stays active, and may be disbanded
once, by a commit after which the committer is alone and the only admin.

* `Stage` is what a group's dictionary says about its lifecycle, and `Accepted.stage`
  the transitions an accepted commit can make;
* `lifecycle_moves_forward` reads the whole history of a chain off them.
-/
import Mdk.CommitAuthority

namespace Mdk

open Checks Std MlsGroup List

variable {env : Environment} {group : MlsGroup} {staged : StagedCommit}

/-! ### Stages -/

/-- Where a group stands: no lifecycle state and none required, or a lifecycle value
that is required. -/
inductive Stage where
  | absent
  | active
  | disbanded
deriving DecidableEq, Repr

def Stage.value : Stage → Option GroupLifecycleV1
  | .absent => none
  | .active => some .active
  | .disbanded => some .disbanded

/-- Whether the group's requirement list names the lifecycle component. -/
def MlsGroup.RequiresLifecycle (group : MlsGroup) : Prop :=
  ∃ required, requiredAppComponentsOfGroup group = .ok required ∧
    groupLifecycleComponentId ∈ required

/-- The group is at a stage, and is not a legacy group. -/
structure MlsGroup.AtStage (group : MlsGroup) (stage : Stage) : Prop where
  value : lifecycleFromExtensions group.extensions = .ok stage.value
  required : group.RequiresLifecycle ↔ stage ≠ .absent
  current : protocolProfileOfGroup group ≠ .ok .legacy

/-- The steps a lifecycle can take. -/
inductive Stage.Step : Stage → Stage → Prop
  | stay (stage : Stage) (h : stage ≠ .disbanded) : Stage.Step stage stage
  | enable : Stage.Step .absent .active
  | disband : Stage.Step .active .disbanded

/-! ### What the lifecycle check establishes -/

variable {required : AppComponentSet}

theorem requiredAppComponentsOfExtensions_ok {extensions : Extensions} {context : String}
    (h : requiredAppComponentsOfExtensions extensions context = .ok required)
    (leaves : List (Option LeafNode)) :
    requiredAppComponentsOfGroup ⟨extensions, leaves⟩ = .ok required := by
  unfold requiredAppComponentsOfExtensions at h
  unfold requiredAppComponentsOfGroup Extensions.component
  cases hdictionary : extensions.appDataDictionary with
  | none => simp [hdictionary] at h
  | some dictionary =>
    cases hbytes : dictionary[appComponentsComponentId]? with
    | none => simp [hdictionary, hbytes] at h
    | some bytes =>
      simp only [hdictionary, hbytes, mapError_eq_ok] at h
      simp [hbytes, h]

/-- A valid current-profile context requires the account proof, so it is not legacy. -/
theorem protocolProfileOfExtensions_ne_legacy {extensions : Extensions} {context : String}
    (hrequired : requiredAppComponentsOfExtensions extensions context = .ok required)
    (hproof : accountIdentityProofComponentId ∈ required) :
    protocolProfileOfExtensions extensions ≠ .ok .legacy := by
  intro hlegacy
  have hlist := requiredAppComponentsOfExtensions_ok hrequired []
  unfold requiredAppComponentsOfGroup at hlist
  simp only [protocolProfileOfExtensions, bind_eq_ok] at hlegacy
  obtain ⟨_, _, components, hcomponents, hmatch⟩ := hlegacy
  cases hbytes : extensions.component appComponentsComponentId with
  | none =>
    rw [hbytes] at hlist
    rw [← Except.ok.inj hlist] at hproof
    cases hproof
  | some bytes =>
    simp only [hbytes, mapError_eq_ok, Option.elim_some] at hlist hcomponents
    rw [hlist, Except.ok.injEq] at hcomponents
    rw [← hcomponents, decide_eq_true hproof] at hmatch
    split at hmatch <;> simp_all

/-- A transition that passes the check: from a group that is not disbanded, with the
requirement kept, the lifecycle is enabled, kept, or ended by a disbanding commit. -/
theorem validateGroupLifecycleTransition_ok
    (h : validateGroupLifecycleTransition env group staged = .ok ()) :
    ∃ before after beforeRequired afterRequired,
      lifecycleFromExtensions group.extensions = .ok before ∧
      lifecycleFromExtensions staged.groupContext = .ok after ∧
      requiredAppComponentsOfGroup group = .ok beforeRequired ∧
      requiredAppComponentsOfExtensions staged.groupContext "resulting group state" =
        .ok afterRequired ∧
      before ≠ some .disbanded ∧
      (groupLifecycleComponentId ∈ beforeRequired → groupLifecycleComponentId ∈ afterRequired) ∧
      ((groupLifecycleComponentId ∉ beforeRequired ∧ groupLifecycleComponentId ∈ afterRequired ∧
          after = some .active) ∨
        ((groupLifecycleComponentId ∈ afterRequired → groupLifecycleComponentId ∈ beforeRequired) ∧
          before = after) ∨
        (before = some .active ∧ after = some .disbanded ∧
          groupLifecycleComponentId ∈ afterRequired ∧
          validateDisband env group staged = .ok ())) := by
  simp only [validateGroupLifecycleTransition, bind_eq_ok, require_eq_ok] at h
  obtain ⟨before, hbefore, after, hafter, beforeRequired, hbeforeRequired, afterRequired,
    hafterRequired, _, hdisbanded, _, hkept, h⟩ := h
  refine ⟨before, after, beforeRequired, afterRequired, hbefore, hafter, hbeforeRequired,
    hafterRequired, hdisbanded, fun hmem => ?_, ?_⟩
  · by_contra hnot
    exact hkept ⟨hmem, hnot⟩
  · split at h
    · next henabling =>
      simp only [bind_eq_ok, require_eq_ok] at h
      obtain ⟨_, hactive, _⟩ := h
      exact .inl ⟨henabling.1, henabling.2, hactive⟩
    · next henabling =>
      split at h
      · simp only [bind_eq_ok, require_eq_ok] at h
        obtain ⟨_, heq, _⟩ := h
        refine .inr (.inl ⟨fun hmem => ?_, heq⟩)
        by_contra hnot
        exact henabling ⟨hnot, hmem⟩
      · next hends =>
        simp only [bind_eq_ok, require_eq_ok] at h
        obtain ⟨_, hrequired, hdisband⟩ := h
        simp only [ne_eq, not_or, not_not] at hends
        exact .inr (.inr ⟨hends.1, hends.2, hrequired.2, hdisband⟩)

/-- An accepted commit of a group that is not legacy passes the checks of the current
profile. -/
theorem Accepted.current_checks (h : Accepted env group staged)
    (hcurrent : protocolProfileOfGroup group ≠ .ok .legacy) :
    (∃ required dictionary, requiredAppComponentsOfExtensions staged.groupContext
        "resulting group state" = .ok required ∧
        CurrentProfileContext env staged.groupContext required dictionary) ∧
      validateGroupLifecycleTransition env group staged = .ok () := by
  have hprofile := h.profile
  simp only [validateCurrentProfileInvariantsForStagedCommit, bind_eq_ok] at hprofile
  obtain ⟨profile, hgroup, hprofile⟩ := hprofile
  have hnot : profile ≠ .legacy := fun hlegacy => hcurrent (hlegacy ▸ hgroup)
  rw [if_neg hnot] at hprofile
  simp only [bind_eq_ok] at hprofile
  obtain ⟨required, hcontext, _, _, _, _, htransition⟩ := hprofile
  obtain ⟨hrequired, dictionary, hcontext⟩ := validateCurrentProfileGroupContext_ok hcontext
  exact ⟨⟨required, dictionary, hrequired, hcontext⟩, htransition⟩

theorem MlsGroup.requiresLifecycle_iff (h : requiredAppComponentsOfGroup group = .ok required) :
    group.RequiresLifecycle ↔ groupLifecycleComponentId ∈ required := by
  refine ⟨fun ⟨required', hrequired', hmem⟩ => ?_, fun hmem => ⟨required, h, hmem⟩⟩
  rw [h, Except.ok.injEq] at hrequired'
  exact hrequired' ▸ hmem

/-- **One step.**  An accepted commit takes a group from its stage to the next, and only
a disbanding commit takes it to the last. -/
theorem Accepted.stage (h : Accepted env group staged) {stage : Stage}
    (hstage : group.AtStage stage) :
    ∃ next, stage.Step next ∧ (group.merge staged).AtStage next ∧
      (next = .disbanded → validateDisband env group staged = .ok ()) := by
  obtain ⟨⟨required, dictionary, hrequired, hcontext⟩, htransition⟩ :=
    h.current_checks hstage.current
  have hcurrent : protocolProfileOfGroup (group.merge staged) ≠ .ok .legacy :=
    protocolProfileOfExtensions_ne_legacy hrequired
      (hcontext.mandatory _ (by simp [currentProfileRequiredAppComponents]))
  obtain ⟨before, after, beforeRequired, afterRequired, hbefore, hafter, hbeforeRequired,
    hafterRequired, hdisbanded, hkept, hcases⟩ := validateGroupLifecycleTransition_ok htransition
  have hlist := requiredAppComponentsOfExtensions_ok hafterRequired (group.merge staged).leaves
  have hrequires : (group.merge staged).RequiresLifecycle ↔
      groupLifecycleComponentId ∈ afterRequired := requiresLifecycle_iff hlist
  have hrequired' := hstage.required
  rw [requiresLifecycle_iff hbeforeRequired] at hrequired'
  have hvalue := hstage.value
  rw [hbefore, Except.ok.injEq] at hvalue
  subst hvalue
  rcases hcases with ⟨hnot, hmem, rfl⟩ | ⟨hback, rfl⟩ | ⟨hactive, rfl, hmem, hdisband⟩
  · -- Enabling: nothing was required, so there was no state.
    have habsent : stage = .absent := by
      by_contra hne
      exact hnot (hrequired'.mpr hne)
    subst habsent
    exact ⟨.active, .enable, ⟨hafter, by simp [hrequires, hmem], hcurrent⟩, by simp⟩
  · refine ⟨stage, .stay stage fun hdis => hdisbanded (hdis ▸ rfl), ⟨hafter, ?_, hcurrent⟩, ?_⟩
    · rw [hrequires, ← hrequired']
      exact ⟨hback, hkept⟩
    · rintro rfl
      exact absurd rfl hdisbanded
  · have hstageactive : stage = .active := by
      cases stage <;> simp_all [Stage.value]
    subst hstageactive
    exact ⟨.disbanded, .disband, ⟨hafter, by simp [hrequires, hmem], hcurrent⟩, fun _ => hdisband⟩

/-! ### The disbanding commit -/

/-- A proposal of a disbanding commit removes a leaf or updates a component. -/
theorem disbandProposal_ok {admin : Account} {shape shape' : DisbandShape}
    {queued : QueuedProposal} (h : disbandProposal admin shape queued = .ok shape') :
    (∃ removed, queued.proposal = .remove removed ∧
      shape'.removed = insert removed shape.removed) ∨
    (∃ update, queued.proposal = .appDataUpdate update ∧ shape'.removed = shape.removed) := by
  simp only [disbandProposal, bind_eq_ok] at h
  obtain ⟨_, _, h⟩ := h
  cases hproposal : queued.proposal with
  | remove removed =>
    simp only [hproposal, pure_eq_ok] at h
    exact .inl ⟨removed, rfl, h ▸ rfl⟩
  | appDataUpdate update =>
    refine .inr ⟨update, rfl, ?_⟩
    simp only [hproposal] at h
    cases hop : update.operation with
    | remove =>
      simp only [hop] at h
      split at h
      · simp at h
      · split at h <;> simp at h
    | update data =>
      simp only [hop] at h
      split at h
      · simp only [bind_eq_ok, pure_eq_ok] at h
        obtain ⟨_, _, _, _, rfl⟩ := h
        rfl
      · split at h
        · simp only [bind_eq_ok, pure_eq_ok] at h
          obtain ⟨_, _, _, _, rfl⟩ := h
          rfl
        · simp at h
  | _ => simp [hproposal] at h

/-- The whole proposal list of a disbanding commit: nothing but Removes and updates,
and the removed leaves are the targets of the Removes. -/
theorem foldlM_disbandProposal_ok {admin : Account} {queued : List QueuedProposal}
    {shape shape' : DisbandShape} (h : queued.foldlM (disbandProposal admin) shape = .ok shape') :
    (∀ q ∈ queued, (∃ removed, q.proposal = .remove removed) ∨
      ∃ update, q.proposal = .appDataUpdate update) ∧
    ∀ index, index ∈ shape'.removed ↔
      index ∈ shape.removed ∨ ∃ q ∈ queued, q.proposal = .remove index := by
  induction queued generalizing shape with
  | nil =>
    rw [foldlM_nil, pure_eq_ok] at h
    subst h
    simp
  | cons q queued ih =>
    rw [foldlM_cons, bind_eq_ok] at h
    obtain ⟨next, hnext, h⟩ := h
    obtain ⟨hkinds, hremoved⟩ := ih h
    rcases disbandProposal_ok hnext with ⟨removed, hproposal, hset⟩ | ⟨update, hproposal, hset⟩
    · refine ⟨forall_mem_cons.mpr ⟨.inl ⟨removed, hproposal⟩, hkinds⟩, fun index => ?_⟩
      rw [hremoved, hset]
      simp only [Finset.mem_insert, exists_mem_cons_iff, hproposal, Proposal.remove.injEq]
      rw [eq_comm]
      tauto
    · refine ⟨forall_mem_cons.mpr ⟨.inr ⟨update, hproposal⟩, hkinds⟩, fun index => ?_⟩
      rw [hremoved, hset]
      simp [hproposal]

/-- The member at `index` is alone in the group and its only admin. -/
def MlsGroup.SoleAdmin (group : MlsGroup) (index : ℕ) (account : Account) : Prop :=
  (∃ leaf, leaf.identity = account ∧
    ∀ i, group.memberAt i = if i = index then some leaf else none) ∧
  adminsOfGroup group = .ok [account]

/-- The leaves a disbanding commit leaves: the committer's. -/
theorem validateDisband_ok (h : validateDisband env group staged = .ok ()) :
    ∃ leaf, group.memberAt staged.committer = some leaf ∧ leaf.identity.length = 32 ∧
      staged.addProposals = [] ∧
      ∀ index, index ∈ staged.removedLeaves ↔
        (group.memberAt index).isSome = true ∧ index ≠ staged.committer := by
  unfold validateDisband at h
  cases hleaf : group.memberAt staged.committer with
  | none => simp [hleaf] at h
  | some leaf =>
    simp only [hleaf, bind_eq_ok, require_eq_ok] at h
    obtain ⟨id, hid, admin, _, shape, hshape, _, _, hremoved⟩ := h
    obtain ⟨hkinds, hshaperemoved⟩ := foldlM_disbandProposal_ok hshape
    refine ⟨leaf, rfl, (validatedMemberId_ok hid).2, ?_, fun index => ?_⟩
    · refine filterMap_eq_nil_iff.mpr fun queued hqueued => ?_
      rcases hkinds queued hqueued with ⟨removed, hproposal⟩ | ⟨update, hproposal⟩ <;>
        rw [hproposal]
    · have hself : staged.selfRemovers = [] := by
        refine filterMap_eq_nil_iff.mpr fun queued hqueued => ?_
        rcases hkinds queued hqueued with ⟨removed, hproposal⟩ | ⟨update, hproposal⟩ <;>
          rw [hproposal]
      have htargets : index ∈ staged.removeProposals ↔ index ∈ shape.removed := by
        rw [hshaperemoved]
        simp only [StagedCommit.removeProposals, mem_filterMap, Finset.notMem_empty, false_or]
        refine exists_congr fun queued => and_congr_right fun hqueued => ?_
        rcases hkinds queued hqueued with ⟨removed, hproposal⟩ | ⟨update, hproposal⟩ <;>
          simp [hproposal]
      rw [StagedCommit.removedLeaves, hself, append_nil, htargets, hremoved]
      simp [mem_memberIndexes]

/-- **The disbanded state.**  After a disbanding commit the committer's leaf is the only
one, and its account the only admin. -/
theorem Accepted.soleAdmin (h : Accepted env group staged)
    (hcurrent : protocolProfileOfGroup group ≠ .ok .legacy)
    (hdisband : validateDisband env group staged = .ok ()) :
    ∃ leaf, group.memberAt staged.committer = some leaf ∧
      (group.merge staged).SoleAdmin staged.committer leaf.identity := by
  obtain ⟨leaf, hleaf, hlength, hadds, hremoved⟩ := validateDisband_ok hdisband
  refine ⟨leaf, hleaf, ⟨staged.renewedLeaf staged.committer leaf, rfl, fun index => ?_⟩, ?_⟩
  · rw [memberAt_merge_of_no_adds hadds]
    by_cases hindex : index = staged.committer
    · have hkept : index ∉ staged.removedLeaves := fun hmem => ((hremoved index).mp hmem).2 hindex
      rw [if_neg hkept, if_pos hindex, hindex, hleaf]
      rfl
    · rw [if_neg hindex]
      cases hmember : group.memberAt index with
      | none => simp
      | some other => rw [if_pos ((hremoved index).mpr ⟨by simp [hmember], hindex⟩)]
  · -- The coupling check leaves no admin but the one account that has a leaf.
    obtain ⟨⟨required, dictionary, _, hcontext⟩, _⟩ := h.current_checks hcurrent
    obtain ⟨bytes, admins, hbytes, hadmins⟩ := hcontext.adminPolicy
    obtain ⟨hne, hnodup⟩ := decodeAdminPolicy_ok hadmins
    have honly : ∀ account ∈ admins, account = leaf.identity := by
      intro account haccount
      have hmem := h.admins_have_leaves hbytes hadmins haccount
      rw [resultingAccounts, hadds, filterMap_nil, append_nil,
        mem_filterMap] at hmem
      obtain ⟨index, hmember, heq⟩ := hmem
      split at heq
      · cases heq
      · next hkept =>
        have hindex : index = staged.committer := by
          by_contra hother
          exact hkept ((hremoved index).mpr ⟨mem_memberIndexes.mp hmember, hother⟩)
        rw [hindex, hleaf, Option.bind_some, credentialAccountPubkey, if_pos hlength,
          Option.some_inj] at heq
        exact heq.symm
    have hsingle : admins = [leaf.identity] := by
      rw [eq_replicate_of_mem honly] at hnodup hne ⊢
      have hle : admins.length ≤ 1 := nodup_replicate.mp hnodup
      have hpos : admins.length ≠ 0 := by
        intro hzero
        rw [hzero] at hne
        exact hne rfl
      rw [show admins.length = 1 by omega]
      rfl
    show adminsOfGroup ⟨staged.groupContext, _⟩ = _
    simp only [adminsOfGroup, hbytes, hadmins, hsingle]

/-! ### Chains -/

/-- The states along a chain, the first and the last included. -/
def MlsGroup.history (group : MlsGroup) : List StagedCommit → List MlsGroup
  | [] => [group]
  | staged :: commits => group :: (group.merge staged).history commits

/-- The lifecycle values along a chain: some absents, some Actives, at most one
Disbanded. -/
theorem MlsGroup.AtStage.history {stage : Stage} (hstage : group.AtStage stage)
    {commits : List StagedCommit}
    (hchain : Runs.Guarded MlsGroup.merge (Accepted env) group commits) :
    ∃ absents actives ended, ended ≤ 1 ∧
      (stage ≠ .absent → absents = 0) ∧ (stage = .disbanded → actives = 0) ∧
      (group.history commits).map (fun g => lifecycleFromExtensions g.extensions) =
        (replicate absents none ++ replicate actives (some GroupLifecycleV1.active) ++
          replicate ended (some GroupLifecycleV1.disbanded)).map .ok := by
  induction commits generalizing group stage with
  | nil =>
    cases stage with
    | absent =>
      exact ⟨1, 0, 0, by simp, by simp, by simp, by simp [history, hstage.value, Stage.value]⟩
    | active =>
      exact ⟨0, 1, 0, by simp, by simp, by simp, by simp [history, hstage.value, Stage.value]⟩
    | disbanded =>
      exact ⟨0, 0, 1, by simp, by simp, by simp, by simp [history, hstage.value, Stage.value]⟩
  | cons staged commits ih =>
    obtain ⟨haccepted, hrest⟩ := hchain
    obtain ⟨next, hstep, hnext, _⟩ := haccepted.stage hstage
    obtain ⟨absents, actives, ended, hended, habsents, hactives, hvalues⟩ := ih hnext hrest
    simp only [MlsGroup.history, map_cons, hstage.value, hvalues]
    cases hstep with
    | stay _ hnot =>
      cases stage with
      | absent =>
        exact ⟨absents + 1, actives, ended, hended, by simp, by simp, by
          simp [replicate_succ, Stage.value]⟩
      | active =>
        have hzero := habsents (by simp)
        subst hzero
        exact ⟨0, actives + 1, ended, hended, by simp, by simp, by
          simp [replicate_succ, Stage.value]⟩
      | disbanded => exact absurd rfl hnot
    | enable =>
      have hzero := habsents (by simp)
      subst hzero
      exact ⟨1, actives, ended, hended, by simp, by simp, by simp [Stage.value]⟩
    | disband =>
      have hzero := habsents (by simp)
      have hnone := hactives rfl
      subst hzero hnone
      exact ⟨0, 1, ended, hended, by simp, by simp, by simp [Stage.value]⟩

/-- A group of the current profile with a valid context starts at a stage. -/
theorem MlsGroup.atStage_start {context : String}
    (hcurrent : protocolProfileOfGroup group = .ok .current)
    (hcontext : validateCurrentProfileGroupContext env group.extensions context = .ok required)
    (hstart : lifecycleFromExtensions group.extensions = .ok none ∨
      lifecycleFromExtensions group.extensions = .ok (some .active) ∧
        groupLifecycleComponentId ∈ required) : ∃ stage, group.AtStage stage := by
  obtain ⟨hrequired, dictionary, hcontext⟩ := validateCurrentProfileGroupContext_ok hcontext
  have hrequires := requiresLifecycle_iff
    (requiredAppComponentsOfExtensions_ok hrequired group.leaves)
  have hlegacy : protocolProfileOfGroup group ≠ .ok .legacy := by simp [hcurrent]
  rcases hstart with hnone | ⟨hactive, hmem⟩
  · refine ⟨.absent, hnone, ?_, hlegacy⟩
    -- What is required has state, and there is no lifecycle state.
    have hnot : groupLifecycleComponentId ∉ required := by
      intro hmem
      obtain ⟨bytes, hbytes⟩ : ∃ bytes, dictionary[groupLifecycleComponentId]? = some bytes :=
        Option.isSome_iff_exists.mp (by simpa using hcontext.carried _ hmem (by decide))
      have hcomponent : group.extensions.component groupLifecycleComponentId = some bytes := by
        simp [Extensions.component, hcontext.present, hbytes]
      simp only [lifecycleFromExtensions, hcomponent, mapError_eq_ok] at hnone
      cases hdecode : decodeGroupLifecycleV1 bytes <;> simp [hdecode, Except.map] at hnone
    exact ⟨fun hreq => absurd (hrequires.mp hreq) hnot, fun hne => absurd rfl hne⟩
  · exact ⟨.active, hactive, ⟨fun _ => by simp, fun _ => hrequires.mpr hmem⟩, hlegacy⟩

/-- **The lifecycle only moves forward.**  Along every chain of accepted commits from a
current-profile group without lifecycle state, or active with the component required:
the values are some absents, then some Actives, then at most one Disbanded at the end;
a requirement stays; and the commit that disbands leaves its committer alone, as the
only admin. -/
theorem lifecycle_moves_forward {context : String} {required : AppComponentSet}
    (hcurrent : protocolProfileOfGroup group = .ok .current)
    (hcontext : validateCurrentProfileGroupContext env group.extensions context = .ok required)
    (hstart : lifecycleFromExtensions group.extensions = .ok none ∨
      lifecycleFromExtensions group.extensions = .ok (some .active) ∧
        groupLifecycleComponentId ∈ required)
    {commits : List StagedCommit}
    (hchain : Runs.Guarded MlsGroup.merge (Accepted env) group commits) :
    (∃ absents actives ended, ended ≤ 1 ∧
      (group.history commits).map (fun g => lifecycleFromExtensions g.extensions) =
        (List.replicate absents none ++ List.replicate actives (some GroupLifecycleV1.active) ++
          List.replicate ended (some GroupLifecycleV1.disbanded)).map .ok) ∧
    (∀ earlier later, commits = earlier ++ later →
      (earlier.foldl MlsGroup.merge group).RequiresLifecycle →
      (commits.foldl MlsGroup.merge group).RequiresLifecycle) ∧
    ∀ earlier staged later, commits = earlier ++ staged :: later →
      let source := earlier.foldl merge group
      lifecycleFromExtensions (source.merge staged).extensions = .ok (some .disbanded) →
      ∃ leaf, source.memberAt staged.committer = some leaf ∧
        (source.merge staged).SoleAdmin staged.committer leaf.identity := by
  obtain ⟨stage, hstage⟩ := atStage_start hcurrent hcontext hstart
  have hstages : ∀ {commits}, Runs.Guarded merge (Accepted env) group commits →
      ∃ stage, (commits.foldl merge group).AtStage stage := by
    intro commits hchain
    refine Runs.Guarded.invariant (I := fun g => ∃ stage, g.AtStage stage) ?_ ⟨stage, hstage⟩ hchain
    rintro g c ⟨stage, hstage⟩ haccepted
    obtain ⟨next, _, hnext, _⟩ := haccepted.stage hstage
    exact ⟨next, hnext⟩
  refine ⟨?_, ?_, ?_⟩
  · obtain ⟨absents, actives, ended, hended, _, _, hvalues⟩ := hstage.history hchain
    exact ⟨absents, actives, ended, hended, hvalues⟩
  · rintro earlier later rfl hrequires
    obtain ⟨hearlier, hlater⟩ := hchain.split
    obtain ⟨stage, hstage⟩ := hstages hearlier
    rw [foldl_append]
    have hkept : ∃ stage ≠ Stage.absent,
        (later.foldl merge (earlier.foldl merge group)).AtStage stage := by
      refine Runs.Guarded.invariant (I := fun g => ∃ stage ≠ Stage.absent, g.AtStage stage) ?_
        ⟨stage, hstage.required.mp hrequires, hstage⟩ hlater
      rintro g c ⟨stage, hne, hstage⟩ haccepted
      obtain ⟨next, hstep, hnext, _⟩ := haccepted.stage hstage
      refine ⟨next, ?_, hnext⟩
      cases hstep <;> simp_all
    obtain ⟨stage, hne, hstage⟩ := hkept
    exact hstage.required.mpr hne
  · rintro earlier staged later rfl source hdisbanded
    obtain ⟨hearlier, haccepted, _⟩ := hchain.split
    obtain ⟨stage, hstage⟩ := hstages hearlier
    obtain ⟨next, _, hnext, hdisband⟩ := haccepted.stage hstage
    refine haccepted.soleAdmin hstage.current (hdisband ?_)
    rw [hnext.value, Except.ok.injEq] at hdisbanded
    cases next <;> simp_all [Stage.value]

/-! ### A group that is enabled and disbanded -/

namespace DisbandedGroup

def environment : Environment := { LegacyGroup.environment with leafProof := fun _ => .ok .current }

/-- A leaf that supports what the current profile requires, the lifecycle included. -/
def leaf (key : UInt8) : LeafNode :=
  ⟨List.replicate 32 key, [0x0006], [0x0008], [], some [6, 0x80, 0x03, 0x80, 0x09, 0x80, 0x0c]⟩

def context (dictionary : AppDataDictionary) : Extensions :=
  ⟨some ⟨[0x0006], [0x0008], []⟩, some dictionary⟩

/-- The account proof and the admin policy, which is the first leaf's account. -/
def plain : AppDataDictionary :=
  ((∅ : AppDataDictionary).insert appComponentsComponentId [4, 0x80, 0x03, 0x80, 0x09]).insert
    groupAdminPolicyComponentId (32 :: List.replicate 32 1)

def enabled : AppDataDictionary :=
  (plain.insert appComponentsComponentId [6, 0x80, 0x03, 0x80, 0x09, 0x80, 0x0c]).insert
    groupLifecycleComponentId [0]

def start : MlsGroup := ⟨context plain, [some (leaf 1), some (leaf 2)]⟩

def enabling : StagedCommit where
  committer := 0
  queuedProposals :=
    [⟨.appDataUpdate ⟨appComponentsComponentId,
        .update [6, 0x80, 0x03, 0x80, 0x09, 0x80, 0x0c]⟩, .member 0, .proposal⟩,
      ⟨.appDataUpdate ⟨groupLifecycleComponentId, .update [0]⟩, .member 0, .proposal⟩]
  updatePathLeafNode := some (leaf 1)
  groupContext := context enabled
  inline_sender := by decide

def disbanding : StagedCommit where
  committer := 0
  queuedProposals :=
    [⟨.remove 1, .member 0, .proposal⟩,
      ⟨.appDataUpdate ⟨groupLifecycleComponentId, .update [1]⟩, .member 0, .proposal⟩,
      ⟨.appDataUpdate ⟨groupAdminPolicyComponentId, .update (32 :: List.replicate 32 1)⟩,
        .member 0, .proposal⟩]
  updatePathLeafNode := some (leaf 1)
  groupContext := context (enabled.insert groupLifecycleComponentId [1])
  inline_sender := by decide

theorem accepted_enabling : Accepted environment start enabling :=
  ⟨by decide +kernel, by decide +kernel, by decide +kernel, by decide +kernel, by decide +kernel⟩

theorem accepted_disbanding : Accepted environment (start.merge enabling) disbanding :=
  ⟨by decide +kernel, by decide +kernel, by decide +kernel, by decide +kernel, by decide +kernel⟩

theorem lifecycle_moves_forward_disbanding :
    ∃ leaf, (start.merge enabling).memberAt 0 = some leaf ∧
      ((start.merge enabling).merge disbanding).SoleAdmin 0 leaf.identity := by
  have hcontext : validateCurrentProfileGroupContext environment start.extensions "group state" =
      .ok [groupAdminPolicyComponentId, accountIdentityProofComponentId] := by
    decide +kernel
  have hchain : Runs.Guarded merge (Accepted environment) start [enabling, disbanding] :=
    ⟨accepted_enabling, accepted_disbanding, trivial⟩
  exact (lifecycle_moves_forward (by decide +kernel) hcontext (.inl (by decide +kernel))
    hchain).2.2 [enabling] disbanding [] rfl (by decide +kernel)

end DisbandedGroup

end Mdk

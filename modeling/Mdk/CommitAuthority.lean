/-
Who may change a group, and that its admins stay members.

* `non_admin_commit_only_lets_members_leave` — an accepted commit of a non-admin
  changes no component, adds no leaf and removes only non-admins that asked to go;
  and whoever commits, privileged proposals come from admins;
* `admins_stay_members` — along a chain of accepted commits the admin list stays
  non-empty and every admin keeps a leaf, as long as no commit of a legacy group
  removes the admin policy;
* `LegacyGroup.admin_policy_removed` — such a commit is accepted and leaves no admin.
-/
import Mdk.Runs
import Mdk.StagedCommits

namespace Mdk

open Checks Std Extensions MlsGroup List

variable {env : Environment} {group : MlsGroup} {staged : StagedCommit}

/-! ### Leaves after a merge -/

variable {index : ℕ}

/-- A member of a list of leaves. -/
theorem MlsGroup.memberAt_eq_some {leaf : LeafNode} :
    group.memberAt index = some leaf ↔ group.leaves[index]? = some (some leaf) := by
  simp [memberAt, Option.join_eq_some_iff]

theorem MlsGroup.mem_memberIndexes :
    index ∈ group.memberIndexes ↔ (group.memberAt index).isSome = true := by
  simp only [memberIndexes, mem_filter, mem_range, and_iff_right_iff_imp]
  intro hmember
  obtain ⟨leaf, hleaf⟩ := Option.isSome_iff_exists.mp hmember
  exact (List.getElem?_eq_some_iff.mp (memberAt_eq_some.mp hleaf)).1

theorem getElem?_addLeaf_of_some {leaves : List (Option LeafNode)} {index : ℕ}
    {leaf : LeafNode} (added : LeafNode) (h : leaves[index]? = some (some leaf)) :
    (addLeaf leaves added)[index]? = some (some leaf) := by
  induction leaves generalizing index with
  | nil => simp at h
  | cons head rest ih =>
    cases head with
    | none =>
      cases index with
      | zero => simp at h
      | succ index => simpa [addLeaf] using h
    | some other =>
      cases index with
      | zero => simpa [addLeaf] using h
      | succ index => simpa [addLeaf] using ih (by simpa using h)

theorem some_mem_addLeaf (leaves : List (Option LeafNode)) (added : LeafNode) :
    some added ∈ addLeaf leaves added := by
  induction leaves with
  | nil => simp [addLeaf]
  | cons head rest ih => cases head <;> simp [addLeaf, ih]

/-- Adding leaves moves none that is there. -/
theorem getElem?_foldl_addLeaf_of_some {leaves : List (Option LeafNode)} {index : ℕ}
    {leaf : LeafNode} (added : List LeafNode) (h : leaves[index]? = some (some leaf)) :
    (added.foldl addLeaf leaves)[index]? = some (some leaf) := by
  induction added generalizing leaves with
  | nil => exact h
  | cons new added ih => exact ih (getElem?_addLeaf_of_some new h)

theorem some_mem_foldl_addLeaf {added : List LeafNode} {leaf : LeafNode}
    (h : leaf ∈ added) (leaves : List (Option LeafNode)) :
    some leaf ∈ added.foldl addLeaf leaves := by
  induction added generalizing leaves with
  | nil => simp at h
  | cons new added ih =>
    rcases mem_cons.mp h with rfl | h
    · obtain ⟨index, hindex⟩ := mem_iff_getElem?.mp (some_mem_addLeaf leaves leaf)
      exact mem_iff_getElem?.mpr ⟨index, getElem?_foldl_addLeaf_of_some added hindex⟩
    · exact ih h _

/-- A member that is not removed keeps its leaf and its account. -/
theorem MlsGroup.memberAt_merge_of_kept {leaf : LeafNode} (hleaf : group.memberAt index = some leaf)
    (hkept : index ∉ staged.removedLeaves) :
    (group.merge staged).memberAt index = some (staged.renewedLeaf index leaf) := by
  rw [memberAt_eq_some] at hleaf ⊢
  apply getElem?_foldl_addLeaf_of_some
  simp [getElem?_mapIdx, hleaf, hkept]

theorem MlsGroup.exists_memberAt_merge_of_added {leaf : LeafNode}
    (h : leaf ∈ staged.addProposals) :
    ∃ index, (group.merge staged).memberAt index = some leaf := by
  obtain ⟨index, hindex⟩ := mem_iff_getElem?.mp (some_mem_foldl_addLeaf h _)
  exact ⟨index, memberAt_eq_some.mpr hindex⟩

/-- Without Adds a leaf of the result was a leaf before and was not removed. -/
theorem MlsGroup.memberAt_merge_of_no_adds (hadds : staged.addProposals = []) (index : ℕ) :
    (group.merge staged).memberAt index =
      if index ∈ staged.removedLeaves then none
      else (group.memberAt index).map (staged.renewedLeaf index) := by
  simp only [memberAt, merge, hadds, foldl_nil, getElem?_mapIdx]
  cases group.leaves[index]? with
  | none => simp
  | some leaf => by_cases hremoved : index ∈ staged.removedLeaves <;> simp [hremoved]

/-- Every account the coupling check counts has a leaf in the result. -/
theorem MlsGroup.exists_leaf_of_mem_resultingAccounts {account : Account}
    (h : account ∈ resultingAccounts group staged) :
    ∃ index leaf, (group.merge staged).memberAt index = some leaf ∧
      credentialAccountPubkey leaf = some account := by
  rcases mem_append.mp h with h | h
  · obtain ⟨index, _, haccount⟩ := mem_filterMap.mp h
    by_cases hremoved : index ∈ staged.removedLeaves
    · simp [hremoved] at haccount
    · rw [if_neg hremoved] at haccount
      obtain ⟨leaf, hleaf, haccount⟩ := Option.bind_eq_some_iff.mp haccount
      exact ⟨index, _, memberAt_merge_of_kept hleaf hremoved, haccount⟩
  · obtain ⟨leaf, hleaf, haccount⟩ := mem_filterMap.mp h
    obtain ⟨index, hindex⟩ : ∃ index, (group.merge staged).memberAt index = some leaf :=
      exists_memberAt_merge_of_added hleaf
    exact ⟨index, leaf, hindex, haccount⟩

/-! ### What the validators establish -/

/-- The leaf belongs to an admin of the group. -/
def MlsGroup.AdminAt (group : MlsGroup) (index : ℕ) : Prop :=
  ∃ leaf admins, group.memberAt index = some leaf ∧ adminsOfGroup group = .ok admins ∧
    leaf.identity ∈ admins

/-- The proposals only an admin may send. -/
def Proposal.isPrivileged : Proposal → Bool
  | .add _ | .remove _ | .appDataUpdate _ | .groupContextExtensions _ => true
  | _ => false

theorem validatedMemberId_ok {leaf : LeafNode} {id : Account}
    (h : validatedMemberId env leaf = .ok id) : id = leaf.identity ∧ leaf.identity.length = 32 := by
  simp only [validatedMemberId, bind_eq_ok, require_eq_ok, pure_eq_ok] at h
  obtain ⟨_, hlength, _, _, rfl⟩ := h
  exact ⟨rfl, hlength⟩

theorem adminPubkeyFromMemberId_ok {id key : Account}
    (h : adminPubkeyFromMemberId id = .ok key) : key = id := by
  simp only [adminPubkeyFromMemberId, bind_eq_ok, require_eq_ok, pure_eq_ok] at h
  obtain ⟨_, _, rfl⟩ := h
  rfl

variable {queued : QueuedProposal}

/-- An authorized proposal has a member for its sender, and its kind was checked
against whether that member is an admin. -/
theorem authorizeProposal_ok {payload : Bool}
    (h : authorizeProposal env group queued payload = .ok ()) :
    ∃ index leaf admins profile, queued.sender = .member index ∧
      group.memberAt index = some leaf ∧ adminsOfGroup group = .ok admins ∧
      authorizeProposalKind env group queued profile (leaf.identity ∈ admins) payload = .ok () := by
  unfold authorizeProposal at h
  cases hsender : queued.sender with
  | member index =>
    cases hmember : group.memberAt index with
    | none => simp [hsender, hmember] at h
    | some leaf =>
      simp only [hsender, hmember, bind_eq_ok, mapError_eq_ok] at h
      obtain ⟨id, hid, profile, _, admins, hadmins, key, hkey, hkind⟩ := h
      rw [adminPubkeyFromMemberId_ok hkey, (validatedMemberId_ok hid).1] at hkind
      exact ⟨index, leaf, admins, profile, rfl, hmember, hadmins, hkind⟩
  | external => simp [hsender] at h
  | newMemberProposal => simp [hsender] at h
  | newMemberCommit => simp [hsender] at h

/-- A privileged proposal that is authorized was sent by an admin. -/
theorem authorizeProposal_privileged {payload : Bool}
    (h : authorizeProposal env group queued payload = .ok ())
    (hprivileged : queued.proposal.isPrivileged = true) :
    ∃ index, queued.sender = .member index ∧ group.AdminAt index := by
  obtain ⟨index, leaf, admins, profile, hsender, hmember, hadmins, hkind⟩ := authorizeProposal_ok h
  refine ⟨index, hsender, leaf, admins, hmember, hadmins, ?_⟩
  unfold authorizeProposalKind at hkind
  cases hproposal : queued.proposal <;>
    simp_all [Proposal.isPrivileged]

/-- A SelfRemove that is authorized was not sent by an admin. -/
theorem authorizeProposal_selfRemove {payload : Bool}
    (h : authorizeProposal env group queued payload = .ok ())
    (hself : queued.proposal = .selfRemove) {index : ℕ} (hsender : queued.sender = .member index) :
    ¬ group.AdminAt index := by
  obtain ⟨index', leaf, admins, profile, hsender', hmember, hadmins, hkind⟩ :=
    authorizeProposal_ok h
  rw [hsender, Sender.member.injEq] at hsender'
  subst hsender'
  simp only [authorizeProposalKind, hself, require_eq_ok, decide_eq_false_iff_not] at hkind
  rintro ⟨leaf', admins', hmember', hadmins', hadmin⟩
  rw [hmember, Option.some_inj] at hmember'
  rw [hadmins, Except.ok.injEq] at hadmins'
  exact hkind (hmember' ▸ hadmins' ▸ hadmin)

theorem Accepted.authorizeProposal (h : Accepted env group staged) {queued : QueuedProposal}
    (hqueued : queued ∈ staged.queuedProposals) :
    Mdk.authorizeProposal env group queued false = .ok () := by
  have hauthorized := h.authorized
  simp only [authorizeStagedCommitProposals, bind_eq_ok, forM_eq_ok] at hauthorized
  obtain ⟨_, hall, _⟩ := hauthorized
  exact hall queued hqueued

/-- The bytes of every component update of an accepted commit are valid. -/
theorem Accepted.validateAppComponentBytes (h : Accepted env group staged)
    {update : AppDataUpdateProposal} (hupdate : update ∈ staged.appDataUpdates)
    {data : List UInt8} (hop : update.operation = .update data) :
    Mdk.validateAppComponentBytes env.urlParser update.componentId data = .ok () := by
  have hauthorized := h.authorized
  simp only [authorizeStagedCommitProposals, validateAppDataUpdateBatch, bind_eq_ok,
    mapError_eq_ok] at hauthorized
  obtain ⟨_, _, _, _, hbatch⟩ := hauthorized
  exact validateAppDataUpdateBatchAgainst_ok hbatch hupdate hop

/-- Of a non-admin only the two allowed shapes are accepted. -/
theorem Accepted.isAllowedNonAdminCommit (h : Accepted env group staged)
    (hnot : ¬ group.AdminAt staged.committer) : Mdk.isAllowedNonAdminCommit staged = true := by
  have hadmin := h.admin
  simp only [requireAdminForStagedCommit, bind_eq_ok] at hadmin
  obtain ⟨_, _, hadmin⟩ := hadmin
  split at hadmin
  · assumption
  · exfalso
    unfold memberIdAtLeaf at hadmin
    cases hmember : group.memberAt staged.committer with
    | none => simp [hmember] at hadmin
    | some leaf =>
      cases hid : validatedMemberId env leaf with
      | error e => simp [hmember, hid, Except.toOption] at hadmin
      | ok id =>
        simp only [hmember, hid, Option.bind_some, Except.toOption, requireAdmin, bind_eq_ok,
          require_eq_ok] at hadmin
        obtain ⟨key, hkey, admins, hadmins, hmem⟩ := hadmin
        rw [adminPubkeyFromMemberId_ok hkey, (validatedMemberId_ok hid).1] at hmem
        exact hnot ⟨leaf, admins, hmember, hadmins, hmem⟩

theorem isAllowedNonAdminCommit_selfRemove (h : isAllowedNonAdminCommit staged = true)
    {queued : QueuedProposal} (hqueued : queued ∈ staged.queuedProposals) :
    queued.proposal = .selfRemove := by
  unfold isAllowedNonAdminCommit at h
  split at h
  · cases h
  · next hany =>
    simp only [any_eq_true, not_exists, not_and, bne_iff_ne, ne_eq, not_not] at hany
    exact hany queued hqueued

/-- The ids of the two dictionaries are those that have bytes on either side. -/
theorem mem_componentIdsOf {before after : Extensions} {id : AppComponentId}
    (h : before.component id ≠ none ∨ after.component id ≠ none) :
    id ∈ componentIdsOf before.appDataDictionary after.appDataDictionary := by
  have hkeys : ∀ extensions : Extensions, extensions.component id ≠ none →
      id ∈ extensions.appDataDictionary.elim [] ExtTreeMap.keys := by
    intro extensions hcomponent
    unfold component at hcomponent
    cases hdictionary : extensions.appDataDictionary with
    | none => simp [hdictionary] at hcomponent
    | some dictionary =>
      simp only [hdictionary, Option.bind_some, ne_eq] at hcomponent
      simp only [Option.elim_some, ExtTreeMap.mem_keys]
      by_contra hnot
      simp [hnot] at hcomponent
  unfold componentIdsOf
  rw [mem_dedup, mem_insertionSort, mem_append]
  exact h.imp (hkeys before) (hkeys after)

/-- **Integrity.**  A component that an accepted commit changes has the bytes that one
of the commit's own updates gives it. -/
theorem Accepted.component (h : Accepted env group staged) (id : AppComponentId) :
    group.extensions.component id = staged.groupContext.component id ∨
      ∃ update ∈ staged.appDataUpdates, update.componentId = id ∧
        update.operation.result = staged.groupContext.component id := by
  have hintact := h.intact
  simp only [validateAppComponentIntegrityForStagedCommit, bind_eq_ok, forM_eq_ok,
    require_eq_ok] at hintact
  obtain ⟨_, _, _, _, _, _, hchanges⟩ := hintact
  by_cases hnone : group.extensions.component id = none ∧ staged.groupContext.component id = none
  · exact .inl (hnone.1.trans hnone.2.symm)
  · exact hchanges id (mem_componentIdsOf (not_and_or.mp hnone))

theorem Accepted.dictionary_kept (h : Accepted env group staged)
    (hsome : group.extensions.appDataDictionary.isSome = true) :
    staged.groupContext.appDataDictionary.isSome = true := by
  have hintact := h.intact
  simp only [validateAppComponentIntegrityForStagedCommit, bind_eq_ok, require_eq_ok] at hintact
  obtain ⟨_, hdrop, _⟩ := hintact
  rw [Option.isSome_iff_ne_none]
  exact fun hnone => hdrop ⟨hsome, hnone⟩

/-! ### A non-admin's commit -/

/-- The component dictionary of a group context; without the extension it is empty. -/
def Extensions.dictionary (extensions : Extensions) : AppDataDictionary :=
  extensions.appDataDictionary.getD ∅

theorem Extensions.getElem?_dictionary (extensions : Extensions) (id : AppComponentId) :
    extensions.dictionary[id]? = extensions.component id := by
  unfold dictionary component
  cases extensions.appDataDictionary <;> simp

/-- A leaf that a merge takes away sent a SelfRemove or is the target of a Remove. -/
theorem MlsGroup.removed_of_memberAt_merge_eq_none (hbefore : (group.memberAt index).isSome = true)
    (hafter : (group.merge staged).memberAt index = none) : index ∈ staged.removedLeaves := by
  obtain ⟨leaf, hleaf⟩ := Option.isSome_iff_exists.mp hbefore
  by_contra hkept
  rw [memberAt_merge_of_kept hleaf hkept] at hafter
  cases hafter

theorem StagedCommit.mem_selfRemovers (h : index ∈ staged.selfRemovers) :
    ∃ queued ∈ staged.queuedProposals,
      queued.proposal = .selfRemove ∧ queued.sender = .member index := by
  obtain ⟨queued, hqueued, hindex⟩ := mem_filterMap.mp h
  refine ⟨queued, hqueued, ?_⟩
  split at hindex
  · next index' hself hsender =>
    cases hindex
    exact ⟨hself, hsender⟩
  · cases hindex

/-- A commit of nothing but SelfRemoves adds nobody, removes nobody by a Remove and
updates no component. -/
theorem StagedCommit.selfRemoves_only
    (h : ∀ queued ∈ staged.queuedProposals, queued.proposal = .selfRemove) :
    staged.addProposals = [] ∧ staged.removeProposals = [] ∧ staged.appDataUpdates = [] := by
  refine ⟨?_, ?_, ?_⟩ <;>
  · refine filterMap_eq_nil_iff.mpr fun queued hqueued => ?_
    rw [h queued hqueued]

/-- **A non-admin cannot change a group except by letting members leave.**  If the
committer of an accepted commit is not an admin, the component dictionary stays as it
is, no leaf is added, and a leaf that goes belongs to a non-admin that sent a
SelfRemove itself.  Whoever commits, every Add, Remove, AppDataUpdate and
GroupContextExtensions proposal was sent by an admin. -/
theorem non_admin_commit_only_lets_members_leave (h : Accepted env group staged) :
    (¬ group.AdminAt staged.committer →
      (group.merge staged).extensions.dictionary = group.extensions.dictionary ∧
      (group.extensions.appDataDictionary.isSome = true →
        (group.merge staged).extensions.appDataDictionary =
          group.extensions.appDataDictionary) ∧
      (∀ index, ((group.merge staged).memberAt index).isSome = true →
        (group.memberAt index).isSome = true) ∧
      ∀ index, (group.memberAt index).isSome = true →
        (group.merge staged).memberAt index = none →
        ¬ group.AdminAt index ∧ ∃ queued ∈ staged.queuedProposals,
          queued.proposal = .selfRemove ∧ queued.sender = .member index) ∧
    ∀ queued ∈ staged.queuedProposals, queued.proposal.isPrivileged = true →
      ∃ index, queued.sender = .member index ∧ group.AdminAt index := by
  refine ⟨fun hnot => ?_, fun queued hqueued => authorizeProposal_privileged
    (h.authorizeProposal hqueued)⟩
  have hself : ∀ queued ∈ staged.queuedProposals, queued.proposal = .selfRemove :=
    fun queued hqueued =>
      isAllowedNonAdminCommit_selfRemove (h.isAllowedNonAdminCommit hnot) hqueued
  obtain ⟨hadds, hremoves, hupdates⟩ := StagedCommit.selfRemoves_only hself
  -- Without updates, integrity leaves every component as it was.
  have hcomponent : ∀ id, staged.groupContext.component id = group.extensions.component id := by
    intro id
    rcases h.component id with heq | ⟨update, hupdate, _⟩
    · exact heq.symm
    · rw [hupdates] at hupdate
      cases hupdate
  have hdictionary : staged.groupContext.dictionary = group.extensions.dictionary := by
    refine ExtTreeMap.ext_getElem? fun id => ?_
    rw [getElem?_dictionary, getElem?_dictionary, hcomponent]
  refine ⟨hdictionary, fun hsome => ?_, fun index hindex => ?_, fun index hbefore hafter => ?_⟩
  · have hkept := h.dictionary_kept hsome
    obtain ⟨before, hbefore⟩ := Option.isSome_iff_exists.mp hsome
    obtain ⟨after, hafter⟩ := Option.isSome_iff_exists.mp hkept
    simp only [dictionary, hbefore, hafter, Option.getD_some] at hdictionary
    show staged.groupContext.appDataDictionary = _
    rw [hafter, hbefore, hdictionary]
  · rw [memberAt_merge_of_no_adds hadds] at hindex
    split at hindex
    · cases hindex
    · simpa using hindex
  · have hremoved := removed_of_memberAt_merge_eq_none hbefore hafter
    unfold StagedCommit.removedLeaves at hremoved
    rw [hremoves, nil_append] at hremoved
    obtain ⟨queued, hqueued, hproposal, hsender⟩ := StagedCommit.mem_selfRemovers hremoved
    exact ⟨authorizeProposal_selfRemove (h.authorizeProposal hqueued) hproposal hsender,
      queued, hqueued, hproposal, hsender⟩

/-! ### Admins stay members -/

/-- The admin list is non-empty and every admin account has a leaf. -/
def MlsGroup.Administered (group : MlsGroup) : Prop :=
  ∃ admins, adminsOfGroup group = .ok admins ∧ admins ≠ [] ∧
    ∀ account ∈ admins, ∃ index leaf, group.memberAt index = some leaf ∧
      credentialAccountPubkey leaf = some account

/-- A commit that passes the validators and does not change the profile. -/
def AcceptedCommit (env : Environment) (group : MlsGroup) (staged : StagedCommit) : Prop :=
  Accepted env group staged ∧
    protocolProfileOfExtensions staged.groupContext = protocolProfileOfGroup group

/-- The group is of the current profile, or the commit does not remove the admin
policy. -/
def KeepsAdminPolicy (group : MlsGroup) (staged : StagedCommit) : Prop :=
  protocolProfileOfGroup group = .ok .current ∨
    ∀ update ∈ staged.appDataUpdates, update.componentId = groupAdminPolicyComponentId →
      update.operation ≠ .remove

/-- What a valid current-profile group context says of its dictionary and of the
components it requires. -/
structure CurrentProfileContext (env : Environment) (extensions : Extensions)
    (required : AppComponentSet) (dictionary : AppDataDictionary) : Prop where
  present : extensions.appDataDictionary = some dictionary
  mandatory : ∀ id ∈ currentProfileRequiredAppComponents, id ∈ required
  stated : ∀ id ∈ currentProfileRequiredGroupContextStateComponents, id ∈ dictionary
  valid : ∀ id bytes, dictionary[id]? = some bytes → isKnownGroupComponent id = true →
    validateAppComponentBytes env.urlParser id bytes = .ok ()
  carried : ∀ id ∈ required, id ∉ currentProfileLeafOnlyAppComponents → id ∈ dictionary

theorem validateCurrentProfileGroupContext_ok {extensions : Extensions} {context : String}
    {required : AppComponentSet}
    (h : validateCurrentProfileGroupContext env extensions context = .ok required) :
    requiredAppComponentsOfExtensions extensions context = .ok required ∧
      ∃ dictionary, CurrentProfileContext env extensions required dictionary := by
  unfold validateCurrentProfileGroupContext at h
  cases hcapabilities : extensions.requiredCapabilities with
  | none => simp [hcapabilities] at h
  | some capabilities =>
    cases hdictionary : extensions.appDataDictionary with
    | none => simp [hcapabilities, hdictionary] at h
    | some dictionary =>
      simp only [hcapabilities, hdictionary, bind_eq_ok, require_eq_ok, forM_eq_ok,
        pure_eq_ok] at h
      obtain ⟨_, _, _, _, required', hrequired, _, _, _, hmandatory, _, _, _, hstated, _,
        hentries, _, hcarried, rfl⟩ := h
      refine ⟨hrequired, dictionary, hdictionary, hmandatory, hstated, ?_, ?_⟩
      · intro id bytes hbytes hknown
        have hvalid := hentries (id, bytes)
          (ExtTreeMap.mem_toList_iff_getElem?_eq_some.mpr hbytes)
        rwa [if_pos hknown] at hvalid
      · intro id hid hleaf
        have hcheck := hcarried id hid
        rw [if_neg hleaf, bind_eq_ok] at hcheck
        obtain ⟨_, _, hmem⟩ := hcheck
        exact require_eq_ok.mp hmem

/-- A valid current-profile group context carries an admin policy that decodes. -/
theorem CurrentProfileContext.adminPolicy {extensions : Extensions} {required : AppComponentSet}
    {dictionary : AppDataDictionary}
    (h : CurrentProfileContext env extensions required dictionary) :
    ∃ bytes admins, extensions.component groupAdminPolicyComponentId = some bytes ∧
      decodeAdminPolicy bytes = .ok admins := by
  have hmem : groupAdminPolicyComponentId ∈ dictionary :=
    h.stated _ (by simp [currentProfileRequiredGroupContextStateComponents])
  obtain ⟨bytes, hbytes⟩ : ∃ bytes, dictionary[groupAdminPolicyComponentId]? = some bytes :=
    Option.isSome_iff_exists.mp (by simpa using hmem)
  obtain ⟨admins, hadmins⟩ :=
    validateAppComponentBytes_adminPolicy (h.valid _ bytes hbytes (by decide))
  exact ⟨bytes, admins, by simp [component, h.present, hbytes], hadmins⟩

theorem Accepted.currentProfileGroupContext (h : Accepted env group staged)
    (hcurrent : protocolProfileOfGroup group = .ok .current) :
    ∃ required, validateCurrentProfileGroupContext env staged.groupContext
      "resulting group state" = .ok required := by
  have hprofile := h.profile
  simp only [validateCurrentProfileInvariantsForStagedCommit, bind_eq_ok, hcurrent,
    Except.ok.injEq, exists_eq_left', reduceCtorEq, if_false] at hprofile
  obtain ⟨required, hrequired, _⟩ := hprofile
  exact ⟨required, hrequired⟩

/-- The coupling check: every admin of a resulting policy has a leaf in the result. -/
theorem Accepted.admins_have_leaves (h : Accepted env group staged) {bytes : List UInt8}
    {admins : List Account}
    (hbytes : staged.groupContext.component groupAdminPolicyComponentId = some bytes)
    (hadmins : decodeAdminPolicy bytes = .ok admins) {account : Account}
    (haccount : account ∈ admins) :
    account ∈ resultingAccounts group staged := by
  have hcoupled := h.coupled
  simp only [validateAdminLeafCouplingForStagedCommit, hbytes, hadmins, bind_eq_ok,
    Except.ok.injEq, exists_eq_left'] at hcoupled
  split at hcoupled
  · simp at hcoupled
  · next hfind =>
    have hnone := find?_eq_none.mp hfind account haccount
    simpa using hnone

/-- An accepted commit that keeps the admin policy leaves a policy that decodes. -/
theorem Accepted.adminPolicy (h : Accepted env group staged) (hbefore : group.Administered)
    (hkeeps : KeepsAdminPolicy group staged) :
    ∃ bytes admins, staged.groupContext.component groupAdminPolicyComponentId = some bytes ∧
      decodeAdminPolicy bytes = .ok admins := by
  rcases hkeeps with hcurrent | hkeeps
  · obtain ⟨required, hrequired⟩ := h.currentProfileGroupContext hcurrent
    obtain ⟨_, dictionary, hcontext⟩ := validateCurrentProfileGroupContext_ok hrequired
    exact hcontext.adminPolicy
  · obtain ⟨admins, hadmins, hne, _⟩ := hbefore
    rcases h.component groupAdminPolicyComponentId with heq | ⟨update, hupdate, hid, hresult⟩
    · unfold adminsOfGroup at hadmins
      cases hbytes : group.extensions.component groupAdminPolicyComponentId with
      | none =>
        rw [hbytes] at hadmins
        exact absurd (Except.ok.inj hadmins).symm hne
      | some bytes =>
        rw [hbytes] at hadmins
        exact ⟨bytes, admins, heq ▸ hbytes, hadmins⟩
    · cases hop : update.operation with
      | remove => exact absurd hop (hkeeps update hupdate hid)
      | update data =>
        obtain ⟨admins', hadmins'⟩ := validateAppComponentBytes_adminPolicy
          (hid ▸ h.validateAppComponentBytes hupdate hop)
        rw [hop] at hresult
        exact ⟨data, admins', hresult.symm, hadmins'⟩

theorem Accepted.administered (h : Accepted env group staged) (hbefore : group.Administered)
    (hkeeps : KeepsAdminPolicy group staged) : (group.merge staged).Administered := by
  obtain ⟨bytes, admins, hbytes, hadmins⟩ := h.adminPolicy hbefore hkeeps
  refine ⟨admins, ?_, (decodeAdminPolicy_ok hadmins).1, fun account haccount => ?_⟩
  · show adminsOfGroup ⟨staged.groupContext, _⟩ = _
    simp only [adminsOfGroup, hbytes, hadmins]
  · exact exists_leaf_of_mem_resultingAccounts
      (h.admins_have_leaves hbytes hadmins haccount)

/-- **Admins stay members.**  Along every chain of accepted commits that keep the
profile, none of which removes the admin policy of a legacy group, the admin list stays
non-empty and each admin account keeps a leaf. -/
theorem admins_stay_members (hstart : group.Administered) {commits : List StagedCommit}
    (hchain : Runs.Guarded MlsGroup.merge
      (fun g c => AcceptedCommit env g c ∧ KeepsAdminPolicy g c) group commits) :
    (commits.foldl MlsGroup.merge group).Administered :=
  Runs.Guarded.invariant (fun _ _ hg hc => hc.1.1.administered hg hc.2) hstart hchain

/-! ### A legacy group -/

namespace LegacyGroup

/-- Every identity is a valid key, every proof a legacy one, and nothing is a URL. -/
def environment : Environment where
  validIdentity _ := true
  leafProof _ := .ok .legacy
  urlParser :=
    { parse := fun _ => .error "invalid URL"
      parse_self := fun h => nomatch h
      trim_parse := fun h => nomatch h
      username := fun _ => ""
      password := fun _ => none
      host := fun _ => none
      query := fun _ => none
      fragment := fun _ => none }

def leaf (key : UInt8) : LeafNode := ⟨List.replicate 32 key, [], [], [], none⟩

def context (dictionary : AppDataDictionary) : Extensions :=
  ⟨some ⟨[accountIdentityProofExtensionType], [], []⟩, some dictionary⟩

/-- The admin policy of the accounts of two leaves. -/
def policy : List UInt8 := [0x40, 64] ++ List.replicate 32 1 ++ List.replicate 32 2

/-- Two admins and two other members. -/
def twoAdmins : MlsGroup :=
  ⟨context ((∅ : AppDataDictionary).insert groupAdminPolicyComponentId policy),
    [some (leaf 1), some (leaf 2), some (leaf 3), some (leaf 4)]⟩

/-- One of the other members leaves and the other commits it. -/
def leaving : StagedCommit where
  committer := 3
  queuedProposals := [⟨.selfRemove, .member 2, .reference⟩]
  updatePathLeafNode := some (leaf 4)
  groupContext := twoAdmins.extensions
  inline_sender := by decide

/-- The first admin makes itself the only admin and removes the other's leaf. -/
def demotion : StagedCommit where
  committer := 0
  queuedProposals :=
    [⟨.appDataUpdate ⟨groupAdminPolicyComponentId, .update (32 :: List.replicate 32 1)⟩,
      .member 0, .proposal⟩, ⟨.remove 1, .member 0, .proposal⟩]
  updatePathLeafNode := some (leaf 1)
  groupContext := context ((∅ : AppDataDictionary).insert groupAdminPolicyComponentId
    (32 :: List.replicate 32 1))
  inline_sender := by decide

/-- The first admin removes the admin policy. -/
def removal : StagedCommit where
  committer := 0
  queuedProposals :=
    [⟨.appDataUpdate ⟨groupAdminPolicyComponentId, .remove⟩, .member 0, .proposal⟩]
  updatePathLeafNode := some (leaf 1)
  groupContext := context ∅
  inline_sender := by decide

instance (group : MlsGroup) (staged : StagedCommit) :
    Decidable (Accepted environment group staged) :=
  decidable_of_iff (authorizeStagedCommitProposals environment group staged = .ok () ∧
      requireAdminForStagedCommit environment group staged = .ok () ∧
      validateAdminLeafCouplingForStagedCommit group staged = .ok () ∧
      validateAppComponentIntegrityForStagedCommit group staged = .ok () ∧
      validateCurrentProfileInvariantsForStagedCommit environment group staged = .ok ())
    ⟨fun h => ⟨h.1, h.2.1, h.2.2.1, h.2.2.2.1, h.2.2.2.2⟩,
      fun h => ⟨h.authorized, h.admin, h.coupled, h.intact, h.profile⟩⟩

instance (group : MlsGroup) (staged : StagedCommit) :
    Decidable (AcceptedCommit environment group staged) :=
  inferInstanceAs (Decidable (_ ∧ _))

theorem administered_twoAdmins : twoAdmins.Administered := by
  refine ⟨[replicate 32 1, replicate 32 2], by decide +kernel, by decide, ?_⟩
  intro account haccount
  simp only [mem_cons, not_mem_nil, or_false] at haccount
  rcases haccount with rfl | rfl
  · exact ⟨0, leaf 1, by decide, by decide⟩
  · exact ⟨1, leaf 2, by decide, by decide⟩

theorem non_admin_commit_only_lets_members_leave_leaving :
    ¬ twoAdmins.AdminAt 3 ∧ ((twoAdmins.merge leaving).memberAt 2 = none) ∧
      (twoAdmins.merge leaving).extensions.dictionary = twoAdmins.extensions.dictionary := by
  have hnot : ¬ twoAdmins.AdminAt 3 := by
    rintro ⟨leaf', admins, hleaf, hadmins, hmem⟩
    have hpolicy : adminsOfGroup twoAdmins = .ok [replicate 32 1, replicate 32 2] := by
      decide +kernel
    rw [hpolicy, Except.ok.injEq] at hadmins
    cases hleaf
    rw [← hadmins] at hmem
    exact absurd hmem (by decide)
  have haccepted : Accepted environment twoAdmins leaving := by decide +kernel
  exact ⟨hnot, by decide +kernel,
    ((non_admin_commit_only_lets_members_leave haccepted).1 hnot).1⟩

theorem admins_stay_members_demotion : (twoAdmins.merge demotion).Administered :=
  admins_stay_members administered_twoAdmins
    (show Runs.Guarded merge
      (fun g c => AcceptedCommit environment g c ∧ KeepsAdminPolicy g c) twoAdmins [demotion] from
      ⟨⟨by decide +kernel, .inr (by decide +kernel)⟩, trivial⟩)

/-- The removal is accepted and keeps the profile, and the group it leads to has no
admin at all. -/
theorem admin_policy_removed :
    twoAdmins.Administered ∧ AcceptedCommit environment twoAdmins removal ∧
      adminsOfGroup (twoAdmins.merge removal) = .ok [] ∧
      ¬ (twoAdmins.merge removal).Administered := by
  have hempty : adminsOfGroup (twoAdmins.merge removal) = .ok [] := by decide +kernel
  refine ⟨administered_twoAdmins, by decide +kernel, hempty, ?_⟩
  rintro ⟨admins, hadmins, hne, _⟩
  rw [hempty, Except.ok.injEq] at hadmins
  exact hne hadmins.symm

end LegacyGroup

end Mdk

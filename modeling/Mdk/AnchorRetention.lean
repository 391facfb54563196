/-
Retaining the anchor of the current epoch can be done over.

Before and after a commit is merged the engine snapshots the group under the name of
its epoch and releases the snapshots and checkpoints that fell out of the rewind
window.  These are several storage calls outside any transaction, so a failure leaves
some of them done.  The order does not matter and nothing else is touched: whatever a
failed run leaves, the next run ends where an undisturbed one would have.

* `retain_eq_of_partly` — a run after a failed one ends like the first would have.
-/
import Mdk.PublishResolution

namespace Mdk

open StoreProgram StoreProgram.Program Engine EngineStorage
open Std (ExtTreeMap)

variable {G C : Type}

/-- A storage call may fail, with any error except the answer that a snapshot is
missing, which a release takes for its own success.  The process does not die. -/
def Reported (f : Fate StorageError) : Prop :=
  f ≠ .killed ∧ ∀ name, f ≠ .fails (.snapshotMissing name)

/-! ### Releasing entries one by one -/

section Release

variable {allow : Fate StorageError → Prop} {ι β : Type}

/-- A release that may find its entry gone: only a failing call stops it. -/
theorem releaseTolerant_spec (hallow : ∀ f, allow f → Reported f)
    {f : Engine G → Except StorageError Unit × Engine G} {P Q R K : Engine G → Prop}
    (hok : ∀ engine u engine', P engine → f engine = (.ok u, engine') → Q engine')
    (hmissing : ∀ engine e engine', P engine → f engine = (.error e, engine') →
      (∃ name, e = .snapshotMissing name) ∧ Q engine')
    (hfails : ∀ engine e, P engine → allow (.fails e) → R engine) :
    Spec allow P (releaseTolerant (call f)) (fun _ => Q) (fun _ => R) K := by
  refine Spec.bind_attempt (S := fun e engine =>
      (∃ name, e = .snapshotMissing name) ∧ Q engine ∨
        (∀ name, e ≠ .snapshotMissing name) ∧ R engine)
    (Spec.call hok ?_ ?_ ?_) (fun _ => Spec.pure _ fun _ h => h) fun e => ?_
  · exact fun engine e engine' hP heq => .inl (hmissing engine e engine' hP heq)
  · exact fun engine e hP he =>
      .inr ⟨fun name hname => (hallow _ he).2 name (by rw [hname]), hfails engine e hP he⟩
  · exact fun engine _ hkill => absurd rfl (hallow _ hkill).1
  · cases e with
    | snapshotMissing name =>
      refine Spec.pure _ fun engine h => ?_
      obtain ⟨_, hQ⟩ | ⟨hne, _⟩ := h
      · exact hQ
      · exact absurd rfl (hne name)
    | other text =>
      refine Spec.raise _ fun engine h => ?_
      obtain ⟨⟨name, hname⟩, _⟩ | ⟨_, hR⟩ := h
      · cases hname
      · exact hR

/-- With the items `rest` still to come: every item says of its own entry whether it is
kept, nothing but entries to be dropped is gone, and what is left to drop has an item. -/
structure Releasing (kept : String → β → Bool) (key : ι → String) (keep : ι → Prop)
    (m₀ : ExtTreeMap String β) (rest : List ι) (m : ExtTreeMap String β) : Prop where
  verdicts : ∀ x ∈ rest, ∀ v, m₀[key x]? = some v → (kept (key x) v = true ↔ keep x)
  stored : ∀ (k : String) v, m[k]? = some v → m₀[k]? = some v
  kept_eq : m.filter kept = m₀.filter kept
  named : ∀ (k : String) v, m[k]? = some v → kept k v = false → ∃ x ∈ rest, key x = k

namespace Releasing

variable {kept : String → β → Bool} {key : ι → String} {keep : ι → Prop}
  {m₀ m : ExtTreeMap String β} {x : ι} {rest : List ι}

/-- An item that is kept is passed over. -/
theorem skip (h : Releasing kept key keep m₀ (x :: rest) m) (hx : keep x) :
    Releasing kept key keep m₀ rest m where
  verdicts y hy := h.verdicts y (.tail _ hy)
  stored := h.stored
  kept_eq := h.kept_eq
  named k v hv hk := by
    obtain ⟨y, hy, hkey⟩ := h.named k v hv hk
    cases hy with
    | head =>
      subst hkey
      have hkept := (h.verdicts x (.head _) v (h.stored _ v hv)).mpr hx
      rw [hk] at hkept
      cases hkept
    | tail _ hy => exact ⟨y, hy, hkey⟩

/-- An item that is not kept is released. -/
theorem release (h : Releasing kept key keep m₀ (x :: rest) m) (hx : ¬ keep x) :
    Releasing kept key keep m₀ rest (m.erase (key x)) := by
  have hstored : ∀ (k : String) v, (m.erase (key x))[k]? = some v → key x ≠ k ∧ m[k]? = some v := by
    intro k v hv
    simp only [ExtTreeMap.getElem?_erase, Std.compare_eq_iff_eq] at hv
    split at hv
    · cases hv
    · exact ⟨‹_›, hv⟩
  refine ⟨fun y hy => h.verdicts y (.tail _ hy), fun k v hv => h.stored k v (hstored k v hv).2, ?_,
    fun k v hv hk => ?_⟩
  · rw [← h.kept_eq]
    refine ExtTreeMap.ext_getElem? fun k => ?_
    simp only [ExtTreeMap.getElem?_filter', ExtTreeMap.getElem?_erase, Std.compare_eq_iff_eq]
    split
    · rename_i hkey
      subst hkey
      cases hv : m[key x]? with
      | none => rfl
      | some v =>
        have hdropped := mt (h.verdicts x (.head _) v (h.stored _ v hv)).mp hx
        simp [Option.filter, hdropped]
    · rfl
  · obtain ⟨hne, hv⟩ := hstored k v hv
    obtain ⟨y, hy, hkey⟩ := h.named k v hv hk
    cases hy with
    | head => exact absurd hkey hne
    | tail _ hy => exact ⟨y, hy, hkey⟩

/-- Once there is no item left, everything is dropped that is to go. -/
theorem eq_filter (h : Releasing kept key keep m₀ [] m) : m = m₀.filter kept := by
  rw [← h.kept_eq]
  refine ExtTreeMap.ext_getElem? fun k => ?_
  rw [ExtTreeMap.getElem?_filter']
  cases hv : m[k]? with
  | none => rfl
  | some v =>
    cases hk : kept k v with
    | true => simp [Option.filter, hk]
    | false =>
      obtain ⟨x, hx, _⟩ := h.named k v hv hk
      cases hx

end Releasing

/-- A release of an entry that is not there. -/
theorem erase_eq_self {m : ExtTreeMap String β} {k : String} (h : k ∉ m) : m.erase k = m := by
  refine ExtTreeMap.ext_getElem? fun k' => ?_
  simp only [ExtTreeMap.getElem?_erase, Std.compare_eq_iff_eq]
  split
  · rename_i hk
    subst hk
    exact (ExtTreeMap.getElem?_eq_none h).symm
  · rfl

/-- Releasing the entries of a map that `kept` drops, one by one: a run that returns has
filtered the map, and one that fails has dropped a part of what is to go. -/
theorem release_spec (hallow : ∀ f, allow f → Reported f)
    (engineOf : ExtTreeMap String β → Engine G)
    (release : String → EngineProgram G StorageError Unit)
    (kept : String → β → Bool) (key : ι → String) (keep : ι → Prop) [DecidablePred keep]
    {f : String → Engine G → Except StorageError Unit × Engine G}
    {items : List ι} {m₀ : ExtTreeMap String β} {K : Engine G → Prop}
    (hcall : ∀ k, release k = call (f k))
    (hf : ∀ k m, f k (engineOf m) =
      if k ∈ m then (.ok (), engineOf (m.erase k)) else (.error (.snapshotMissing k), engineOf m))
    (hverdicts : ∀ x ∈ items, ∀ v, m₀[key x]? = some v → (kept (key x) v = true ↔ keep x))
    (hnamed : ∀ (k : String) v, m₀[k]? = some v → ∃ x ∈ items, key x = k) :
    Spec allow (· = engineOf m₀)
      (items.forM fun x => if keep x then pure () else releaseTolerant (release (key x)))
      (fun _ engine => engine = engineOf (m₀.filter kept))
      (fun _ engine => (∃ e, allow (.fails e)) ∧
        ∃ m, engine = engineOf m ∧ m.filter kept = m₀.filter kept) K := by
  let I : List ι → Engine G → Prop := fun rest engine =>
    ∃ m, engine = engineOf m ∧ Releasing kept key keep m₀ rest m
  have hstart : ∀ engine, engine = engineOf m₀ → I items engine := fun engine heq =>
    ⟨m₀, heq, hverdicts, fun _ _ hv => hv, rfl, fun k v hv _ => hnamed k v hv⟩
  refine ((Spec.forM I (fun x rest => ?_) items).pre hstart).post (fun _ engine hI => ?_)
    (fun _ _ h => h) fun _ h => h
  · by_cases hx : keep x
    · rw [if_pos hx]
      refine Spec.pure _ fun engine hI => ?_
      obtain ⟨m, rfl, hm⟩ := hI
      exact ⟨m, rfl, hm.skip hx⟩
    · rw [if_neg hx, hcall]
      refine releaseTolerant_spec hallow (fun engine u engine' hI heq => ?_)
        (fun engine e engine' hI heq => ?_) (fun engine e hI he => ?_)
      · obtain ⟨m, rfl, hm⟩ := hI
        rw [hf] at heq
        split at heq
        · cases heq
          exact ⟨_, rfl, hm.release hx⟩
        · cases heq
      · obtain ⟨m, rfl, hm⟩ := hI
        rw [hf] at heq
        split at heq
        · cases heq
        · rename_i hmem
          cases heq
          have hnext := hm.release hx
          rw [erase_eq_self hmem] at hnext
          exact ⟨⟨_, rfl⟩, m, rfl, hnext⟩
      · obtain ⟨m, rfl, hm⟩ := hI
        exact ⟨⟨e, he⟩, m, rfl, hm.kept_eq⟩
  · obtain ⟨m, rfl, hm⟩ := hI
    rw [hm.eq_filter]

end Release

/-! ### The anchors of a group -/

variable (engine : Engine G) (groupId : GroupId)
  (snapshots : ExtTreeMap String (GroupStateSnapshot G))
  (checkpoints : ExtTreeMap String (EpochId × GroupStateCheckpoint G))

/-- The engine with other snapshots and checkpoints of one group. -/
def Engine.setAnchors : Engine G :=
  { engine with
    storage := engine.storage.updateGroup groupId fun rows =>
      { rows with snapshots := snapshots, checkpoints := checkpoints } }

/-- Whether pruning leaves a snapshot: it is an anchor of the window, or no anchor. -/
def keepsAnchor (oldest : UInt64) (name : String) : Bool :=
  match retainedAnchorEpochFromSnapshotName name with
  | none => true
  | some epoch => oldest ≤ epoch

/-- What a snapshot of the group holds now. -/
def GroupRows.image (rows : GroupRows G) (group : Group) : GroupStateSnapshot G :=
  ⟨⟨group, rows.memberCaps, rows.validatedTreeMarker, rows.openmlsValues⟩, rows.convergencePolicy⟩

/-- The snapshots once the current epoch is retained. -/
def retainedSnapshots (rows : GroupRows G) (group : Group) (maxRewindCommits : UInt64)
    (snapshots : ExtTreeMap String (GroupStateSnapshot G)) :
    ExtTreeMap String (GroupStateSnapshot G) :=
  (snapshots.insert (retainedAnchorSnapshotName group.epoch) (rows.image group)).filter
    fun name _ => keepsAnchor (oldestRetainedEpoch group.epoch maxRewindCommits) name

/-- The checkpoints once the current epoch is retained. -/
def retainedCheckpoints (group : Group) (maxRewindCommits : UInt64)
    (checkpoints : ExtTreeMap String (EpochId × GroupStateCheckpoint G)) :
    ExtTreeMap String (EpochId × GroupStateCheckpoint G) :=
  checkpoints.filter fun _ checkpoint =>
    decide (oldestRetainedEpoch group.epoch maxRewindCommits ≤ checkpoint.1)

/-- The group can be anchored: it is live, its policy reads and its record is there. -/
structure Anchorable (env : PublishEnv G C) (groupId : GroupId) (maxRewindCommits : UInt64)
    (group : Group) (engine : Engine G) : Prop where
  live : ensureGroupLive engine groupId = .ok ()
  policy : env.maxRewindCommits (engine.storage.groups groupId).convergencePolicy =
    .ok maxRewindCommits
  record : (engine.storage.groups groupId).record = some group

/-- The engine once the current epoch of the group is retained. -/
def Engine.retained (maxRewindCommits : UInt64) (group : Group) : Engine G :=
  let rows := engine.storage.groups groupId
  engine.setAnchors groupId (retainedSnapshots rows group maxRewindCommits rows.snapshots)
    (retainedCheckpoints group maxRewindCommits rows.checkpoints)

/-- Some of the calls that retain the current epoch are made: the anchors may differ, but
not once the rest of the calls is made. -/
def PartlyRetained (env : PublishEnv G C) (groupId : GroupId) (engine engine' : Engine G) : Prop :=
  ∃ maxRewindCommits group snapshots checkpoints,
    Anchorable env groupId maxRewindCommits group engine ∧
    engine' = engine.setAnchors groupId snapshots checkpoints ∧
    engine'.retained groupId maxRewindCommits group =
      engine.retained groupId maxRewindCommits group

theorem Engine.setAnchors_rows :
    (engine.setAnchors groupId snapshots checkpoints).storage.groups groupId =
      { engine.storage.groups groupId with
        snapshots := snapshots, checkpoints := checkpoints } := by
  simp only [setAnchors, updateGroup, Function.update_self]

theorem Engine.setAnchors_setAnchors
    (snapshots snapshots' : ExtTreeMap String (GroupStateSnapshot G))
    (checkpoints checkpoints' : ExtTreeMap String (EpochId × GroupStateCheckpoint G)) :
    (engine.setAnchors groupId snapshots checkpoints).setAnchors groupId snapshots' checkpoints' =
      engine.setAnchors groupId snapshots' checkpoints' := by
  simp only [setAnchors, updateGroup, Function.update_self, Function.update_idem]

/-- Whether a group can be anchored does not depend on its anchors. -/
theorem Anchorable.setAnchors {env : PublishEnv G C} {groupId : GroupId} {maxRewindCommits : UInt64}
    {group : Group} {engine : Engine G}
    (h : Anchorable env groupId maxRewindCommits group engine)
    (snapshots : ExtTreeMap String (GroupStateSnapshot G))
    (checkpoints : ExtTreeMap String (EpochId × GroupStateCheckpoint G)) :
    Anchorable env groupId maxRewindCommits group
      (engine.setAnchors groupId snapshots checkpoints) where
  live := h.live
  policy := by rw [setAnchors_rows]; exact h.policy
  record := by rw [setAnchors_rows]; exact h.record

theorem Anchorable.unique {env : PublishEnv G C} {groupId : GroupId} {engine : Engine G}
    {max max' : UInt64} {group group' : Group} (h : Anchorable env groupId max group engine)
    (h' : Anchorable env groupId max' group' engine) : max = max' ∧ group = group' :=
  ⟨Except.ok.inj (h.policy.symm.trans h'.policy), Option.some.inj (h.record.symm.trans h'.record)⟩

/-- The retained anchors, from anchors that differ only in what is dropped. -/
theorem Engine.retained_setAnchors (maxRewindCommits : UInt64) (group : Group)
    (snapshots : ExtTreeMap String (GroupStateSnapshot G))
    (checkpoints : ExtTreeMap String (EpochId × GroupStateCheckpoint G)) :
    (engine.setAnchors groupId snapshots checkpoints).retained groupId maxRewindCommits group =
      engine.setAnchors groupId
        (retainedSnapshots (engine.storage.groups groupId) group maxRewindCommits snapshots)
        (retainedCheckpoints group maxRewindCommits checkpoints) := by
  simp only [retained, setAnchors_setAnchors, setAnchors_rows]
  rfl

/-! ### Retaining the current epoch -/

section Retain

variable {allow : Fate StorageError → Prop} {groupId : GroupId} {engine : Engine G}
  {K : Engine G → Prop}

/-- Pruning the snapshots, with the test for an anchor of the window named. -/
theorem pruneRetainedAnchorSnapshots_eq (groupId : GroupId) (oldest : UInt64) :
    (pruneRetainedAnchorSnapshots groupId oldest : EngineProgram G OpenMlsProjectionError Unit) =
      (mapError (fun e => .storage e.debugText) (EngineStorage.listGroupSnapshots groupId) >>=
        fun names => names.forM fun name => if keepsAnchor oldest name then pure ()
          else releaseTolerant (EngineStorage.releaseGroupSnapshot groupId name)) := by
  unfold pruneRetainedAnchorSnapshots
  congr 1
  funext names
  congr 1
  funext name
  unfold keepsAnchor
  cases retainedAnchorEpochFromSnapshotName name with
  | none => rfl
  | some epoch => simp only [decide_eq_true_eq]

theorem pruneRetainedAnchorSnapshots_spec (hallow : ∀ f, allow f → Reported f) (oldest : UInt64)
    (snapshots : ExtTreeMap String (GroupStateSnapshot G))
    (checkpoints : ExtTreeMap String (EpochId × GroupStateCheckpoint G)) :
    Spec allow (· = engine.setAnchors groupId snapshots checkpoints)
      (pruneRetainedAnchorSnapshots groupId oldest)
      (fun _ engine' => engine' = engine.setAnchors groupId
        (snapshots.filter fun name _ => keepsAnchor oldest name) checkpoints)
      (fun _ engine' => (∃ e, allow (.fails e)) ∧ ∃ snapshots',
        engine' = engine.setAnchors groupId snapshots' checkpoints ∧
          (snapshots'.filter fun name _ => keepsAnchor oldest name) =
            snapshots.filter fun name _ => keepsAnchor oldest name) K := by
  rw [pruneRetainedAnchorSnapshots_eq]
  refine Spec.bind (R := fun names engine' => names = snapshots.keys ∧
      engine' = engine.setAnchors groupId snapshots checkpoints)
    (Spec.mapError (query_spec ?_ ?_ ?_ ?_)) fun names => Spec.at fun _ hP => ?_
  · intro _ names heq hnames
    subst heq
    rw [setAnchors_rows] at hnames
    exact ⟨(Except.ok.inj hnames).symm, rfl⟩
  · intro _ _ _ hnames
    cases hnames
  · intro _ e heq he
    exact ⟨⟨e, he⟩, snapshots, heq, rfl⟩
  · exact fun _ _ hkill => absurd rfl (hallow _ hkill).1
  · obtain ⟨rfl, rfl⟩ := hP
    refine release_spec hallow (fun m => engine.setAnchors groupId m checkpoints)
      (EngineStorage.releaseGroupSnapshot groupId) (fun name _ => keepsAnchor oldest name) id
      (fun name => keepsAnchor oldest name = true) (fun _ => rfl) (fun name m => ?_)
      (fun _ _ _ _ => Iff.rfl) (fun name v hv => ⟨name, ?_, rfl⟩)
    · by_cases hmem : name ∈ m
      · simp only [setAnchors_rows, if_pos hmem]
        simp only [setAnchors, updateGroup, Function.update_self,
          Function.update_idem]
      · simp only [setAnchors_rows, if_neg hmem]
    · exact ExtTreeMap.mem_keys.mpr (ExtTreeMap.mem_iff_isSome_getElem?.mpr (by rw [hv]; rfl))

theorem pruneGroupStateCheckpoints_spec (hallow : ∀ f, allow f → Reported f) (oldest : UInt64)
    (snapshots : ExtTreeMap String (GroupStateSnapshot G))
    (checkpoints : ExtTreeMap String (EpochId × GroupStateCheckpoint G)) :
    Spec allow (· = engine.setAnchors groupId snapshots checkpoints)
      (pruneGroupStateCheckpoints groupId oldest)
      (fun _ engine' => engine' = engine.setAnchors groupId snapshots
        (checkpoints.filter fun _ checkpoint => decide (oldest ≤ checkpoint.1)))
      (fun _ engine' => (∃ e, allow (.fails e)) ∧ ∃ checkpoints',
        engine' = engine.setAnchors groupId snapshots checkpoints' ∧
          (checkpoints'.filter fun _ checkpoint => decide (oldest ≤ checkpoint.1)) =
            checkpoints.filter fun _ checkpoint => decide (oldest ≤ checkpoint.1)) K := by
  refine Spec.bind (R := fun items engine' =>
      (∀ item, item ∈ items ↔ ∃ state, checkpoints[item.1]? = some (item.2, state)) ∧
        engine' = engine.setAnchors groupId snapshots checkpoints)
    (Spec.mapError (query_spec ?_ ?_ ?_ ?_)) fun items => Spec.at fun _ hP => ?_
  · intro _ items heq hitems
    subst heq
    rw [setAnchors_rows] at hitems
    obtain rfl := Except.ok.inj hitems
    refine ⟨fun item => ?_, rfl⟩
    rw [(Comparison.sortBy_perm _ _).mem_iff, List.mem_map]
    constructor
    · rintro ⟨⟨id, epoch, state⟩, hmem, rfl⟩
      exact ⟨state, ExtTreeMap.mem_toList_iff_getElem?_eq_some.mp hmem⟩
    · rintro ⟨state, hstate⟩
      exact ⟨(item.1, item.2, state), ExtTreeMap.mem_toList_iff_getElem?_eq_some.mpr hstate, rfl⟩
  · intro _ _ _ hitems
    cases hitems
  · intro _ e heq he
    exact ⟨⟨e, he⟩, checkpoints, heq, rfl⟩
  · exact fun _ _ hkill => absurd rfl (hallow _ hkill).1
  · obtain ⟨hitems, rfl⟩ := hP
    refine release_spec hallow (fun m => engine.setAnchors groupId snapshots m)
      (releaseGroupStateCheckpoint groupId)
      (fun _ checkpoint => decide (oldest ≤ checkpoint.1)) Prod.fst
      (fun item => oldest ≤ item.2) (fun _ => rfl) (fun id m => ?_)
      (fun item hitem v hv => ?_) (fun id v hv => ⟨(id, v.1), (hitems _).mpr ⟨v.2, hv⟩, rfl⟩)
    · by_cases hmem : id ∈ m
      · simp only [setAnchors_rows, if_pos hmem]
        simp only [setAnchors, updateGroup, Function.update_self,
          Function.update_idem]
      · simp only [setAnchors_rows, if_neg hmem]
    · obtain ⟨state, hstate⟩ := (hitems item).mp hitem
      rw [hstate] at hv
      cases hv
      exact decide_eq_true_iff

/-- Retaining once more, from snapshots that agree on what is kept with the current epoch
among them. -/
theorem retainedSnapshots_eq_of_filter_eq {rows : GroupRows G} {group : Group}
    {maxRewindCommits : UInt64} {snapshots snapshots' : ExtTreeMap String (GroupStateSnapshot G)}
    (h : (snapshots'.filter fun name _ =>
        keepsAnchor (oldestRetainedEpoch group.epoch maxRewindCommits) name) =
      retainedSnapshots rows group maxRewindCommits snapshots) :
    retainedSnapshots rows group maxRewindCommits snapshots' =
      retainedSnapshots rows group maxRewindCommits snapshots := by
  refine ExtTreeMap.ext_getElem? fun name => ?_
  have hname := congrArg (·[name]?) h
  simp only [retainedSnapshots, ExtTreeMap.getElem?_filter', ExtTreeMap.getElem?_insert,
    Std.compare_eq_iff_eq] at hname ⊢
  by_cases heq : retainedAnchorSnapshotName group.epoch = name
  · simp only [if_pos heq]
  · simpa only [if_neg heq] using hname

theorem filter_filter_self {β : Type} (f : String → β → Bool) (m : ExtTreeMap String β) :
    (m.filter f).filter f = m.filter f := by
  refine ExtTreeMap.ext_getElem? fun k => ?_
  rw [ExtTreeMap.getElem?_filter', ExtTreeMap.getElem?_filter']
  cases hv : m[k]? with
  | none => rfl
  | some v => cases hk : f k v <;> simp [Option.filter, hk]

/-- The policy that is read is the one stored for the live group. -/
theorem convergencePolicyForGroup_spec (hallow : ∀ f, allow f → Reported f)
    (env : PublishEnv G C) :
    Spec allow (· = engine) (convergencePolicyForGroup env groupId)
      (fun maxRewindCommits engine' => engine' = engine ∧
        ensureGroupLive engine groupId = .ok () ∧
        env.maxRewindCommits (engine.storage.groups groupId).convergencePolicy =
          .ok maxRewindCommits)
      (fun _ engine' => engine' = engine ∧ ((∃ e, allow (.fails e)) ∨
        ∀ maxRewindCommits group, ¬ Anchorable env groupId maxRewindCommits group engine)) K := by
  refine Spec.bind (R := fun read engine' => read = engine ∧ engine' = engine)
    (Spec.internal fun _ heq => ⟨heq, heq⟩) fun _ => Spec.at fun start hP => ?_
  obtain ⟨rfl, rfl⟩ := hP
  cases hlive : ensureGroupLive start groupId with
  | error e =>
    have hdead : ∀ max group, ¬ Anchorable env groupId max group start := by
      intro max group h
      rw [h.live] at hlive
      cases hlive
    refine (?_ : Spec allow (· = start) _ (fun _ _ => False) (fun _ engine' => engine' = start) K)
      |>.post (fun _ _ h => h.elim) (fun _ _ heq => ⟨heq, .inr hdead⟩) (fun _ h => h)
    cases e with
    | engine e' => cases e' <;> exact Spec.raise _ fun _ heq => heq
    | _ => exact Spec.raise _ fun _ heq => heq
  | ok _ =>
    refine Spec.bind (R := fun bytes engine' => engine' = start ∧
        bytes = (start.storage.groups groupId).convergencePolicy)
      (Spec.mapError (query_spec ?_ ?_ ?_ ?_)) fun bytes => ?_
    · intro _ bytes heq hbytes
      subst heq
      exact ⟨rfl, (Except.ok.inj hbytes).symm⟩
    · intro _ _ _ hbytes
      cases hbytes
    · exact fun _ e heq he => ⟨heq, .inl ⟨e, he⟩⟩
    · exact fun _ _ hkill => absurd rfl (hallow _ hkill).1
    · refine Spec.ofExcept (fun max engine' hmax hP => ?_) (fun e engine' hmax hP => ?_)
      · obtain ⟨rfl, rfl⟩ := hP
        refine ⟨rfl, rfl, ?_⟩
        cases hpolicy : env.maxRewindCommits (engine'.storage.groups groupId).convergencePolicy with
        | ok max' =>
          rw [hpolicy] at hmax
          rw [Except.ok.inj hmax]
        | error e =>
          rw [hpolicy] at hmax
          cases hmax
      · obtain ⟨rfl, rfl⟩ := hP
        refine ⟨rfl, .inr fun max group h => ?_⟩
        rw [h.policy] at hmax
        cases hmax

/-- What is left where a call that retains the epoch fails: a call failed, or the group
cannot be anchored, and the anchors are as before or partly retained. -/
def NotRetained (env : PublishEnv G C) (groupId : GroupId) (allow : Fate StorageError → Prop)
    (engine engine' : Engine G) : Prop :=
  ((∃ e, allow (.fails e)) ∨
      ∀ maxRewindCommits group, ¬ Anchorable env groupId maxRewindCommits group engine) ∧
    (engine' = engine ∨ PartlyRetained env groupId engine engine')

theorem retainCurrentGroupEpochSnapshot_spec (hallow : ∀ f, allow f → Reported f)
    {env : PublishEnv G C} {maxRewindCommits : UInt64}
    (hlive : ensureGroupLive engine groupId = .ok ())
    (hpolicy : env.maxRewindCommits (engine.storage.groups groupId).convergencePolicy =
      .ok maxRewindCommits) :
    Spec allow (· = engine) (retainCurrentGroupEpochSnapshot groupId maxRewindCommits)
      (fun _ engine' => ∃ group, Anchorable env groupId maxRewindCommits group engine ∧
        engine' = engine.retained groupId maxRewindCommits group)
      (fun _ => NotRetained env groupId allow engine) K := by
  refine Spec.bind (R := fun group engine' => engine' = engine ∧
      (engine.storage.groups groupId).record = some group)
    (Spec.mapError (query_spec ?_ ?_ ?_ ?_)) fun group => Spec.at fun start hP => ?_
  · intro start group heq hgroup
    subst heq
    cases hrecord : (start.storage.groups groupId).record with
    | none =>
      rw [hrecord] at hgroup
      cases hgroup
    | some group' =>
      rw [hrecord] at hgroup
      exact ⟨rfl, by rw [Except.ok.inj hgroup]⟩
  · intro _ e heq hgroup
    subst heq
    refine ⟨.inr fun max group h => ?_, .inl rfl⟩
    rw [h.record] at hgroup
    cases hgroup
  · exact fun _ e heq he => ⟨.inl ⟨e, he⟩, .inl heq⟩
  · exact fun _ _ hkill => absurd rfl (hallow _ hkill).1
  · obtain ⟨rfl, hrecord⟩ := hP
    have hanchor : Anchorable env groupId maxRewindCommits group start := ⟨hlive, hpolicy, hrecord⟩
    -- A failure past this point leaves anchors that agree once the calls are made again.
    have hpartly : ∀ e snapshots checkpoints, allow (.fails e) →
        (snapshots.filter fun name _ =>
            keepsAnchor (oldestRetainedEpoch group.epoch maxRewindCommits) name) =
          retainedSnapshots (start.storage.groups groupId) group maxRewindCommits
            (start.storage.groups groupId).snapshots →
        retainedCheckpoints group maxRewindCommits checkpoints =
          retainedCheckpoints group maxRewindCommits
            (start.storage.groups groupId).checkpoints →
        NotRetained env groupId allow start
          (start.setAnchors groupId snapshots checkpoints) := by
      intro e snapshots checkpoints he hsnapshots hcheckpoints
      refine ⟨.inl ⟨e, he⟩,
        .inr ⟨maxRewindCommits, group, snapshots, checkpoints, hanchor, rfl, ?_⟩⟩
      rw [retained_setAnchors, retainedSnapshots_eq_of_filter_eq hsnapshots, hcheckpoints]
      rfl
    refine Spec.bind (R := fun _ engine' => engine' = start.setAnchors groupId
        ((start.storage.groups groupId).snapshots.insert (retainedAnchorSnapshotName group.epoch)
          ((start.storage.groups groupId).image group))
        (start.storage.groups groupId).checkpoints)
      (Spec.mapError (write_spec ?_ ?_ ?_ ?_)) fun _ => ?_
    · intro _ storage heq hstorage
      subst heq
      simp only [captureGroupState, hrecord] at hstorage
      rw [← Except.ok.inj hstorage]
      rfl
    · intro _ e heq hstorage
      subst heq
      simp only [captureGroupState, hrecord] at hstorage
      cases hstorage
    · exact fun _ e heq he => ⟨.inl ⟨e, he⟩, .inl heq⟩
    · exact fun _ _ hkill => absurd rfl (hallow _ hkill).1
    refine Spec.bind
      ((pruneRetainedAnchorSnapshots_spec hallow _ _ _).post (fun _ _ h => h) ?_ fun _ h => h)
      fun _ => (pruneGroupStateCheckpoints_spec hallow _ _ _).post ?_ ?_ fun _ h => h
    · rintro _ _ ⟨⟨e, he⟩, snapshots', rfl, hsnapshots⟩
      exact hpartly e _ _ he hsnapshots rfl
    · rintro _ _ rfl
      exact ⟨group, hanchor, rfl⟩
    · rintro _ _ ⟨⟨e, he⟩, checkpoints', rfl, hcheckpoints⟩
      exact hpartly e _ _ he (filter_filter_self _ _) hcheckpoints

/-- Retaining the current epoch of a group. -/
theorem retain_spec (hallow : ∀ f, allow f → Reported f) (env : PublishEnv G C) :
    Spec allow (· = engine) (retainCurrentEpochSnapshotForGroup env groupId)
      (fun _ engine' => ∃ maxRewindCommits group,
        Anchorable env groupId maxRewindCommits group engine ∧
          engine' = engine.retained groupId maxRewindCommits group)
      (fun _ => NotRetained env groupId allow engine) K := by
  refine Spec.bind
    ((convergencePolicyForGroup_spec hallow env).post (fun _ _ h => h) ?_ fun _ h => h)
    fun maxRewindCommits => Spec.at fun _ hP => ?_
  · rintro _ _ ⟨rfl, hwhy⟩
    exact ⟨hwhy, .inl rfl⟩
  · obtain ⟨rfl, hlive, hpolicy⟩ := hP
    refine Spec.mapError ((retainCurrentGroupEpochSnapshot_spec hallow hlive hpolicy).post ?_
      (fun _ _ h => h) fun _ h => h)
    rintro _ _ ⟨group, hgroup⟩
    exact ⟨maxRewindCommits, group, hgroup⟩

/-- A group that can be anchored is, when nothing goes wrong. -/
theorem retain_returned {env : PublishEnv G C} {maxRewindCommits : UInt64} {group : Group}
    (h : Anchorable env groupId maxRewindCommits group engine) :
    retainCurrentEpochSnapshotForGroup env groupId [] engine =
      ⟨.returned (), engine.retained groupId maxRewindCommits group, []⟩ := by
  have hspec : Spec (fun _ => False) (· = engine) (retainCurrentEpochSnapshotForGroup env groupId)
      _ _ (fun _ => False) := retain_spec (fun _ h => h.elim) env
  obtain ⟨_, engine', hrun, max', group', hgroup, heq⟩ := (hspec.post (fun _ _ h => h)
    (fun _ engine' hnot => by
      obtain ⟨⟨_, hno⟩ | hdead, _⟩ := hnot
      · exact hno
      · exact hdead _ _ h) fun _ h => h).run
  obtain ⟨rfl, rfl⟩ := h.unique hgroup
  rw [hrun, heq]

end Retain

/-! ### After a failed run -/

section Partly

variable {env : PublishEnv G C} {groupId : GroupId} {engine engine' engine'' : Engine G}

/-- A run after a failed one ends like the first would have. -/
theorem retain_eq_of_partly (h : PartlyRetained env groupId engine engine') :
    retainCurrentEpochSnapshotForGroup env groupId [] engine' =
      retainCurrentEpochSnapshotForGroup env groupId [] engine := by
  obtain ⟨maxRewindCommits, group, snapshots, checkpoints, hanchor, rfl, heq⟩ := h
  rw [retain_returned hanchor, retain_returned (hanchor.setAnchors _ _), heq]

/-- What is retained after a failed run is what would have been retained before it. -/
theorem PartlyRetained.retained {maxRewindCommits : UInt64} {group : Group}
    (h : PartlyRetained env groupId engine engine')
    (hanchor' : Anchorable env groupId maxRewindCommits group engine') :
    Anchorable env groupId maxRewindCommits group engine ∧
      engine'.retained groupId maxRewindCommits group =
        engine.retained groupId maxRewindCommits group := by
  obtain ⟨max, group', snapshots, checkpoints, hanchor, rfl, heq⟩ := h
  obtain ⟨rfl, rfl⟩ := (hanchor.setAnchors _ _).unique hanchor'
  exact ⟨hanchor, heq⟩

theorem PartlyRetained.trans (h : PartlyRetained env groupId engine engine')
    (h' : PartlyRetained env groupId engine' engine'') :
    PartlyRetained env groupId engine engine'' := by
  obtain ⟨max', group', snapshots', checkpoints', hanchor', rfl, heq'⟩ := h'
  obtain ⟨hanchor, heq⟩ := h.retained hanchor'
  obtain ⟨_, _, snapshots, checkpoints, _, rfl, _⟩ := h
  exact ⟨max', group', snapshots', checkpoints', hanchor, engine.setAnchors_setAnchors ..,
    heq'.trans heq⟩

/-- A run that returns has retained all, and so a part. -/
theorem Anchorable.partlyRetained {maxRewindCommits : UInt64} {group : Group}
    (h : Anchorable env groupId maxRewindCommits group engine) :
    PartlyRetained env groupId engine (engine.retained groupId maxRewindCommits group) := by
  refine ⟨maxRewindCommits, group, _, _, h, rfl, ?_⟩
  refine (retained_setAnchors ..).trans ?_
  have hsnapshots : ∀ rows : GroupRows G, ∀ snapshots,
      retainedSnapshots rows group maxRewindCommits
          (retainedSnapshots rows group maxRewindCommits snapshots) =
        retainedSnapshots rows group maxRewindCommits snapshots := fun _ _ =>
    retainedSnapshots_eq_of_filter_eq (filter_filter_self _ _)
  rw [hsnapshots, retainedCheckpoints, retainedCheckpoints, filter_filter_self]
  rfl

end Partly

/-! ### However retaining stops -/

section Moves

variable {R : Engine G → Engine G → Prop} [IsPreorder (Engine G) R]

theorem releaseTolerant_moves {p : EngineProgram G StorageError Unit} (h : Moves R p) :
    Moves R (releaseTolerant p) := by
  refine h.attempt.bind fun r => ?_
  cases r with
  | ok _ => exact Moves.pure _
  | error e =>
    cases e with
    | snapshotMissing _ => exact Moves.pure _
    | other _ => exact Moves.raise _

/-- A read moves nothing. -/
theorem query_moves {α : Type} (f : EngineStorage G → Except StorageError α) :
    Moves R (query f) := Moves.call fun engine => refl_of R engine

theorem write_moves {f : EngineStorage G → Except StorageError (EngineStorage G)}
    (h : ∀ engine storage, f engine.storage = .ok storage →
      R engine { engine with storage := storage }) :
    Moves R (write f) := by
  refine Moves.call fun engine => ?_
  cases hf : f engine.storage with
  | ok storage => exact h engine storage hf
  | error e => exact refl_of R engine

/-- Nothing but the anchors of the group changes. -/
theorem retain_moves {groupId : GroupId}
    (h : ∀ engine snapshots checkpoints, R engine (engine.setAnchors groupId snapshots checkpoints))
    (env : PublishEnv G C) : Moves R (retainCurrentEpochSnapshotForGroup env groupId) := by
  have hpolicy : Moves R (convergencePolicyForGroup env groupId) := by
    refine (Moves.internal fun engine => refl_of R engine).bind fun engine => ?_
    have hread : Moves R (do
        let bytes ← mapError (fun e => .loadConvergencePolicy (.storage e.debugText))
          (convergencePolicy groupId)
        ofExcept ((env.maxRewindCommits bytes).mapError .loadConvergencePolicy) :
          EngineProgram G PublishError UInt64) :=
      (query_moves _).mapError.bind fun _ => Moves.ofExcept _
    split
    · exact (Moves.raise _).bind fun _ => hread
    · exact (Moves.raise _).bind fun _ => hread
    · exact hread
  refine hpolicy.bind fun maxRewindCommits => Moves.mapError ?_
  refine (query_moves _).mapError.bind fun group => Moves.bind (Moves.mapError ?_) fun _ =>
    Moves.bind ?_ fun _ => ?_
  · refine write_moves fun engine storage hstorage => ?_
    split at hstorage
    · rw [← Except.ok.inj hstorage]
      exact h engine _ (engine.storage.groups groupId).checkpoints
    · cases hstorage
  · refine (query_moves _).mapError.bind fun _ => Moves.forM (fun snapshot => ?_) _
    split
    · exact Moves.pure _
    · split
      · exact Moves.pure _
      · refine releaseTolerant_moves (write_moves fun engine storage hstorage => ?_)
        split at hstorage
        · rw [← Except.ok.inj hstorage]
          exact h engine _ (engine.storage.groups groupId).checkpoints
        · cases hstorage
  · refine (query_moves _).mapError.bind fun _ => Moves.forM (fun checkpoint => ?_) _
    split
    · exact Moves.pure _
    · refine releaseTolerant_moves (write_moves fun engine storage hstorage => ?_)
      split at hstorage
      · rw [← Except.ok.inj hstorage]
        exact h engine (engine.storage.groups groupId).snapshots _
      · cases hstorage

end Moves

end Mdk

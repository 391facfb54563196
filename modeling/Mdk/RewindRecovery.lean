/-
Interrupted rewinds are recovered from any crash point.

The crash invariant `Recoverable image` says that a store is either settled on
`image` or has a guard snapshot that captured it, with nothing but nested replay
snapshots beside it.

* `Window.program_spec` — a window settles the group on the image it was opened
  on, and killed anywhere leaves the store recoverable;
* `recoverInterruptedRewindGuard_spec` — so does recovery, from any recoverable
  store, and it never fails;
* `recovery_restores_image` — over runs of a process that is killed any number of
  times, inside windows and inside recovery.
-/
import Mdk.Runs
import Mdk.RewindGuard

namespace Mdk

open StoreProgram StoreProgram.Program RewindSite List

variable {S M Q : Type}

/-! ### The crash invariant -/

/-- No snapshot of the group is a guard's. -/
def NoGuardSnapshots (s : GroupStorage S M Q) : Prop :=
  ∀ name ∈ s.snapshots, RewindSite.classify name = none

section

variable (image : GroupImage S M Q)

/-- No window is open: the live group is `image` and no guard snapshot is stored. -/
def Settled (s : GroupStorage S M Q) : Prop :=
  NoGuardSnapshots s ∧ s.live = image

/-- The snapshot `outer` holds the canonical state of `image`, the rows it does not
capture are live, and every other guard snapshot satisfies `others`. -/
structure Held (image : GroupImage S M Q) (outer : String) (others : String → Prop)
    (s : GroupStorage S M Q) : Prop where
  captured : s.snapshots[outer]? = some (captureSnapshot image .groupState)
  messages : s.live.messages = image.messages
  queuedOutbound : s.live.queuedOutbound = image.queuedOutbound
  guards : ∀ name ∈ s.snapshots, name ≠ outer → RewindSite.classify name ≠ none → others name

/-- `name` is a replay snapshot and `outer` is not. -/
def NestedIn (outer name : String) : Prop :=
  RewindSite.classify name = some .replay ∧ RewindSite.classify outer ≠ some .replay

/-- A window was cut off: `outer` is its snapshot, and whatever else survived was
nested in it. -/
def Interrupted (outer : String) (s : GroupStorage S M Q) : Prop :=
  RewindSite.classify outer ≠ none ∧ Held image outer (NestedIn outer) s

/-- **The crash invariant.**  From such a store recovery gets back to `image`. -/
def Recoverable (s : GroupStorage S M Q) : Prop :=
  Settled image s ∨ ∃ outer, Interrupted image outer s

end

variable {image : GroupImage S M Q} {outer inner : String} {others : String → Prop}
  {s : GroupStorage S M Q}

theorem Held.imp {others' : String → Prop} (h : Held image outer others s)
    (himp : ∀ name, others name → others' name) : Held image outer others' s :=
  ⟨h.captured, h.messages, h.queuedOutbound,
    fun name hname hne hguard => himp name (h.guards name hname hne hguard)⟩

theorem Held.outer_mem (h : Held image outer others s) : outer ∈ s.snapshots := by
  have hcaptured := h.captured
  by_contra hnot
  simp [hnot] at hcaptured

/-- Writing the canonical state does not touch what a guard holds. -/
theorem Held.write (h : Held image outer others s) (state : S) :
    Held image outer others { s with live := { s.live with state := state } } :=
  ⟨h.captured, h.messages, h.queuedOutbound, h.guards⟩

theorem Held.insert (h : Held image outer others s) (hne : inner ≠ outer)
    (snapshot : Snapshot S M Q) :
    Held image outer (fun name => name = inner ∨ others name)
      { s with snapshots := s.snapshots.insert inner snapshot } where
  captured := by simp [Std.ExtTreeMap.getElem?_insert, hne, h.captured]
  messages := h.messages
  queuedOutbound := h.queuedOutbound
  guards := by
    intro name hname hnameouter hguard
    simp only [Std.ExtTreeMap.mem_insert, compare_eq_iff_eq] at hname
    rcases hname with rfl | hname
    · exact .inl rfl
    · exact .inr (h.guards name hname hnameouter hguard)

theorem Held.erase (h : Held image outer others s) (hne : inner ≠ outer) :
    Held image outer (fun name => name ≠ inner ∧ others name)
      { s with snapshots := s.snapshots.erase inner } where
  captured := by simp [Std.ExtTreeMap.getElem?_erase, hne, h.captured]
  messages := h.messages
  queuedOutbound := h.queuedOutbound
  guards := by
    intro name hname hnameouter hguard
    simp only [Std.ExtTreeMap.mem_erase, compare_eq_iff_eq, ne_eq] at hname
    exact ⟨fun h => hname.1 h.symm, h.guards name hname.2 hnameouter hguard⟩

/-- Releasing the outer snapshot of a restored image settles the group. -/
theorem Held.release (h : Held image outer (fun _ => False) s) (hlive : s.live = image) :
    Settled image { s with snapshots := s.snapshots.erase outer } := by
  refine ⟨fun name hname => ?_, hlive⟩
  simp only [Std.ExtTreeMap.mem_erase, compare_eq_iff_eq, ne_eq] at hname
  by_contra hguard
  exact h.guards name hname.2 (fun heq => hname.1 heq.symm) hguard

/-- Restoring a state-scoped snapshot of `image`, in either scope, over the live
rows it did not capture gives `image`. -/
theorem Held.restore (h : Held image outer others s) {snapshot : Snapshot S M Q}
    (hsnapshot : s.snapshots[outer]? = some snapshot) (scope : SnapshotScope) :
    restoreSnapshot s.live snapshot scope = image := by
  rw [h.captured, Option.some_inj] at hsnapshot
  subst hsnapshot
  obtain ⟨state, messages, queued⟩ := image
  cases scope <;> simp [restoreSnapshot, captureSnapshot, h.messages, h.queuedOutbound]

/-! ### What a window leaves -/

/-- A nested replay: whatever it writes, the outer guard holds its image, and cut off
it leaves at most its own snapshot beside the outer one. -/
theorem NestedReplay.program_spec (probe : NestedReplay S) {site : RewindSite}
    (hsite : classify outer = some site) (hnest : site ≠ .replay) :
    Spec Faultless (Held image outer fun _ => False)
      (probe.program : SnapshotProgram S M Q StorageError Unit)
      (fun _ => Held image outer fun _ => False) (fun _ => Held image outer fun _ => False)
      (Interrupted image outer) := by
  have houter : classify outer ≠ some .replay := by
    rw [hsite]
    exact fun h => hnest (Option.some_inj.mp h)
  have hguard : classify outer ≠ none := by simp [hsite]
  set inner := namePrefix .replay ++ probe.suffix with hinner
  have hclass : classify inner = some .replay := classify_append _ _
  have hne : inner ≠ outer := fun h => houter (h ▸ hclass)
  -- With its own snapshot stored, the probe is one more nested guard.
  have hcut : ∀ s : GroupStorage S M Q, Held image outer (· = inner) s →
      Interrupted image outer s := by
    intro s hs
    refine ⟨hguard, hs.imp fun name hname => ⟨?_, houter⟩⟩
    rw [hname]
    exact hclass
  have hcut' : ∀ s : GroupStorage S M Q, Held image outer (fun _ => False) s →
      Interrupted image outer s :=
    fun s hs => ⟨hguard, hs.imp fun name hname => hname.elim⟩
  have hbody : Spec Faultless (Held image outer fun _ => False)
      (guarded .replay probe.suffix probe.close (probe.writes.forM writeGroupState))
      (fun _ => Held image outer fun _ => False) (fun _ => Held image outer fun _ => False)
      (Interrupted image outer) := by
    refine guarded_spec _ _ _
      (H := fun s => Held image outer (· = inner) s ∧ inner ∈ s.snapshots) ?_ ?_ ?_ hcut'
    · intro s hs
      exact ⟨(hs.insert hne _).imp (by simp), by simp [← hinner]⟩
    · refine (Spec.forM (fun _ s => Held image outer (· = inner) s ∧ inner ∈ s.snapshots)
        (fun f _ => ?_) probe.writes).post (fun _ _ h => h) (fun _ _ h => h) fun _ h => h
      exact writeGroupState_spec f (fun s hs => ⟨hs.1.write _, hs.2⟩) fun s hs => hcut s hs.1
    · refine close_spec _ _ (R := fun s => Held image outer (· = inner) s ∧ inner ∈ s.snapshots)
        (fun s hs => hs.2) (fun s hs => hs.2) ?_ ?_ (fun s hs => hcut s hs.1)
        fun s hs => hcut s hs.1
      · intro s snapshot hs _
        exact ⟨hs.1.write _, hs.2⟩
      · intro s hs
        exact (hs.1.erase hne).imp fun name hname => hname.1 hname.2
  unfold NestedReplay.program
  split
  · refine Spec.transaction (fun s hs => ?_) (fun s e _ hf => absurd rfl (hf e))
      fun s hs _ => hcut' s hs
    have hstart : ∀ s', s' = s → Held image outer (fun _ => False) s' := fun _ h => h ▸ hs
    exact (hbody.pre hstart).post (fun _ _ h => h) (fun _ _ _ => hs) fun _ _ => hcut' s hs
  · exact hbody

/-- **A window is crash-safe.**  Run to its end it settles the group on the image it
was opened on; killed anywhere it leaves a recoverable store. -/
theorem Window.program_spec (w : Window S) :
    Spec Faultless (Settled image) (w.program : SnapshotProgram S M Q StorageError Unit)
      (fun _ => Settled image) (fun _ => Settled image) (Recoverable image) := by
  set outer := w.site.namePrefix ++ w.suffix with houter
  have hclass : classify outer = some w.site := classify_append _ _
  have hguard : classify outer ≠ none := by simp [hclass]
  have hcut : ∀ s : GroupStorage S M Q, Held image outer (fun _ => False) s →
      Recoverable image s :=
    fun s hs => .inr ⟨outer, hguard, hs.imp fun name hname => hname.elim⟩
  refine guarded_spec _ _ _ (H := Held image outer fun _ => False) ?_ ?_ ?_ fun s hs => .inl hs
  · rintro s ⟨hnone, rfl⟩
    refine ⟨by simp [← houter], rfl, rfl, fun name hname hne hname' => hname' ?_⟩
    simp only [Std.ExtTreeMap.mem_insert, compare_eq_iff_eq] at hname
    exact hnone name (hname.resolve_left fun h => hne h.symm)
  · -- The loop is over the steps left; of those the window's own field speaks.
    refine ((Spec.forM (fun steps s => (∀ step ∈ steps, step ∈ w.steps) ∧
      Held image outer (fun _ => False) s) (fun step steps => ?_) w.steps).pre
      fun s hs => ⟨fun step hstep => hstep, hs⟩).post (fun _ _ h => h.2) (fun _ _ h => h)
      fun _ h => h
    refine Spec.at fun s ⟨hmem, hs⟩ => ?_
    have hleft : ∀ step ∈ steps, step ∈ w.steps := fun step hstep => hmem step (.tail _ hstep)
    refine Spec.pre (P := Held image outer fun _ => False) ?_ fun _ h => h ▸ hs
    cases step with
    | rewind anchor =>
      exact rollbackWithScope_spec _ _ (fun s _ hs _ => ⟨hleft, hs.write _⟩)
        (fun s _ hs _ => hs) hcut
    | write f => exact writeGroupState_spec f (fun s hs => ⟨hleft, hs.write _⟩) hcut
    | replay probe =>
      have hnest : w.site ≠ .replay := by
        intro hreplay
        have := w.replay_is_innermost (by simp [hreplay, mayNestInsideAnotherGuard])
          _ (hmem _ (.head _))
        simp [WindowStep.isReplay] at this
      exact (probe.program_spec hclass hnest).post (fun _ _ h => ⟨hleft, h⟩) (fun _ _ h => h)
        fun _ h => .inr ⟨outer, h⟩
  · refine close_spec _ _
      (R := fun s => Held image outer (fun _ => False) s ∧ s.live = image)
      (fun s hs => hs.outer_mem) (fun s hs => hs.1.outer_mem) ?_ ?_ hcut fun s hs => hcut s hs.1
    · intro s snapshot hs hsnapshot
      exact ⟨hs.write _, hs.restore hsnapshot .groupState⟩
    · intro s hs
      exact hs.1.release hs.2

/-! ### What recovery does -/

theorem mem_guardSnapshots {names : List String} {nested : Bool} {entry : RewindSite × String} :
    entry ∈ guardSnapshots names nested ↔ entry.2 ∈ names ∧
      classify entry.2 = some entry.1 ∧
      entry.1.mayNestInsideAnotherGuard = nested := by
  obtain ⟨site, name⟩ := entry
  simp only [guardSnapshots, mem_filterMap]
  constructor
  · rintro ⟨name', hname', heq⟩
    cases hclass : classify name' with
    | none => simp [hclass] at heq
    | some site' =>
      simp only [hclass, beq_iff_eq, Option.ite_none_right_eq_some, Option.some.injEq,
        Prod.mk.injEq] at heq
      obtain ⟨hnested, rfl, rfl⟩ := heq
      exact ⟨hname', hclass, hnested⟩
  · rintro ⟨hname, hclass, hnested⟩
    exact ⟨name, hname, by simp [hclass, hnested]⟩

/-- The names of the guard snapshots keep the order and the distinctness of the list. -/
theorem guardSnapshots_names_sublist (names : List String) (nested : Bool) :
    ((guardSnapshots names nested).map Prod.snd).Sublist names := by
  induction names with
  | nil => exact .slnil
  | cons name names ih =>
    unfold guardSnapshots at ih ⊢
    rw [filterMap_cons]
    split
    · exact ih.cons name
    · next entry heq =>
      have hname : entry.2 = name := by
        split at heq
        · split at heq
          · cases heq
            rfl
          · cases heq
        · cases heq
      rw [map_cons, hname]
      exact ih.cons_cons name

/-- A list of distinct entries with one possible entry is that entry alone. -/
theorem guardSnapshots_eq_singleton {names : List String} {nested : Bool} {site : RewindSite}
    {name : String} (hnodup : names.Nodup) (hmem : (site, name) ∈ guardSnapshots names nested)
    (honly : ∀ entry ∈ guardSnapshots names nested, entry.2 = name) :
    guardSnapshots names nested = [(site, name)] := by
  have hlen : (guardSnapshots names nested).map Prod.snd = [name] := by
    have hsub := (guardSnapshots_names_sublist names nested).nodup hnodup
    have hall : ∀ n ∈ (guardSnapshots names nested).map Prod.snd, n = name := by
      intro n hn
      obtain ⟨entry, hentry, rfl⟩ := mem_map.mp hn
      exact honly entry hentry
    rw [eq_replicate_of_mem hall] at hsub ⊢
    have hle : ((guardSnapshots names nested).map Prod.snd).length ≤ 1 :=
      nodup_replicate.mp hsub
    have hpos : 0 < ((guardSnapshots names nested).map Prod.snd).length := by
      rw [length_map]
      exact length_pos_of_mem hmem
    rw [show ((guardSnapshots names nested).map Prod.snd).length = 1 by omega]
    rfl
  obtain ⟨entry, hentry⟩ : ∃ entry, guardSnapshots names nested = [entry] := by
    rw [← length_eq_one_iff, ← length_map (f := Prod.snd), hlen]
    rfl
  rw [hentry] at hmem ⊢
  rw [mem_singleton.mp hmem]

/-- The guard snapshots are `outer` and the nested ones of `rest`. -/
structure NestedLeft (image : GroupImage S M Q) (outer : String)
    (rest : List (RewindSite × String)) (s : GroupStorage S M Q) : Prop where
  held : Held image outer (· ∈ rest.map Prod.snd) s
  stored : ∀ name ∈ rest.map Prod.snd, name ∈ s.snapshots
  nested : ∀ name ∈ rest.map Prod.snd, NestedIn outer name
  distinct : (rest.map Prod.snd).Nodup

theorem NestedLeft.recoverable {rest : List (RewindSite × String)}
    (h : NestedLeft image outer rest s) (hguard : classify outer ≠ none) :
    Recoverable image s :=
  .inr ⟨outer, hguard, h.held.imp h.nested⟩

/-- One release takes one nested snapshot away. -/
theorem NestedLeft.release {entry : RewindSite × String} {rest : List (RewindSite × String)}
    (h : NestedLeft image outer (entry :: rest) s) :
    NestedLeft image outer rest { s with snapshots := s.snapshots.erase entry.2 } := by
  have hdistinct := h.distinct
  have hnested := h.nested
  rw [map_cons] at hdistinct hnested
  rw [nodup_cons] at hdistinct
  have hne : entry.2 ≠ outer := by
    intro heq
    obtain ⟨hclass, houter⟩ := hnested entry.2 (.head _)
    exact houter (heq ▸ hclass)
  refine ⟨?_, ?_, fun name hname => hnested name (.tail _ hname), hdistinct.2⟩
  · refine (h.held.erase hne).imp fun name hname => ?_
    rw [map_cons, mem_cons] at hname
    exact hname.2.resolve_left hname.1
  · intro name hname
    have hdiff : entry.2 ≠ name := fun heq => hdistinct.1 (heq ▸ hname)
    simp only [Std.ExtTreeMap.mem_erase, compare_eq_iff_eq, ne_eq]
    exact ⟨hdiff, h.stored name (by rw [map_cons]; exact .tail _ hname)⟩

/-- Releasing the nested snapshots and then restoring the outer one settles the
group; killed in between, the outer snapshot is still there. -/
theorem restoreInterrupted_spec {nested : List (RewindSite × String)}
    (hguard : classify outer ≠ none) :
    Spec Faultless
      (NestedLeft image outer (nested.filter fun entry => entry.2 != outer) :
        GroupStorage S M Q → Prop)
      (restoreInterrupted nested outer) (fun _ => Settled image) (fun _ _ => False)
      (Recoverable image) := by
  refine Spec.bind (R := fun _ => NestedLeft image outer [])
    (Spec.forM (NestedLeft image outer) (fun entry rest => ?_) _) fun _ => ?_
  · refine Spec.mapError (releaseGroupSnapshot_spec _ (fun s hs => ?_) (fun s hs => hs.release)
      fun s hs => hs.recoverable hguard)
    exact hs.stored entry.2 (by rw [map_cons]; exact .head _)
  · -- Only the outer snapshot is left: restore its image, then release it.
    have hkill : ∀ s : GroupStorage S M Q, Held image outer (fun _ => False) s ∧ s.live = image →
        Recoverable image s :=
      fun s hs => .inr ⟨outer, hguard, hs.1.imp fun _ h => h.elim⟩
    refine Spec.bind (R := fun _ s => Held image outer (fun _ => False) s ∧ s.live = image) ?_
      fun _ => ?_
    · refine Spec.mapError (rollbackWithScope_spec _ _ (fun s snapshot hs hsnapshot => ?_)
        (fun s _ hs hnone => ?_) fun s hs => hs.recoverable hguard)
      · have hlive := hs.held.restore hsnapshot .full
        refine ⟨⟨hs.held.captured, ?_, ?_, ?_⟩, hlive⟩
        · exact congrArg GroupImage.messages hlive
        · exact congrArg GroupImage.queuedOutbound hlive
        · intro name hname hne hname'
          simpa using hs.held.guards name hname hne hname'
      · rw [hs.held.captured] at hnone
        cases hnone
    · exact Spec.mapError (releaseGroupSnapshot_spec _ (fun s hs => hs.1.outer_mem)
        (fun s hs => hs.1.release hs.2) hkill)

/-- Of an interrupted window's snapshots recovery picks the outer one to restore. -/
theorem Interrupted.nestedLeft (h : Interrupted image outer s) :
    NestedLeft image outer
      ((guardSnapshots s.snapshots.keys true).filter fun entry => entry.2 != outer) s := by
  obtain ⟨hguard, hheld⟩ := h
  have hmem : ∀ name, name ∈ ((guardSnapshots s.snapshots.keys true).filter
      fun entry => entry.2 != outer).map Prod.snd ↔
      name ∈ s.snapshots ∧ classify name = some .replay ∧ name ≠ outer := by
    intro name
    simp only [mem_map, mem_filter, mem_guardSnapshots, Std.ExtTreeMap.mem_keys,
      mayNestInsideAnotherGuard, beq_iff_eq, bne_iff_ne, ne_eq]
    constructor
    · rintro ⟨entry, ⟨⟨hname, hclass, hsite⟩, hne⟩, rfl⟩
      exact ⟨hname, hsite ▸ hclass, hne⟩
    · rintro ⟨hname, hclass, hne⟩
      exact ⟨(.replay, name), ⟨⟨hname, hclass, rfl⟩, hne⟩, rfl⟩
  refine ⟨⟨hheld.captured, hheld.messages, hheld.queuedOutbound, ?_⟩, ?_, ?_, ?_⟩
  · intro name hname hne hguard'
    exact (hmem name).mpr ⟨hname, (hheld.guards name hname hne hguard').1, hne⟩
  · exact fun name hname => ((hmem name).mp hname).1
  · intro name hname
    obtain ⟨hstored, hclass, hne⟩ := (hmem name).mp hname
    exact hheld.guards name hstored hne (by simp [hclass])
  · exact ((filter_sublist.map _).trans
      (guardSnapshots_names_sublist _ _)).nodup Std.ExtTreeMap.nodup_keys

/-- **Recovery is crash-safe and correct.**  From a recoverable store it either settles
the group on the image or, killed, leaves the store recoverable; it never fails. -/
theorem recoverInterruptedRewindGuard_spec :
    Spec Faultless (Recoverable image : GroupStorage S M Q → Prop)
      recoverInterruptedRewindGuard (fun _ => Settled image) (fun _ _ => False)
      (Recoverable image) := by
  refine Spec.bind (R := fun names s => names = s.snapshots.keys ∧ Recoverable image s) ?_
    fun names => Spec.at fun s hs => ?_
  · refine Spec.mapError (Spec.call ?_ ?_ (fun s e _ hf => absurd rfl (hf e)) fun s hs _ => hs)
    · intro s names s' hs heq
      cases heq
      exact ⟨rfl, hs⟩
    · intro s e s' _ heq
      cases heq
  obtain ⟨rfl, hs⟩ := hs
  rcases hs with hsettled | ⟨outer, hinterrupted⟩
  · -- No guard snapshot: both lists are empty and nothing is touched.
    have hnone : ∀ nested, guardSnapshots s.snapshots.keys nested = [] := by
      intro nested
      rw [eq_nil_iff_forall_not_mem]
      intro entry hentry
      obtain ⟨hname, hclass, _⟩ := mem_guardSnapshots.mp hentry
      rw [hsettled.1 _ (Std.ExtTreeMap.mem_keys.mp hname)] at hclass
      cases hclass
    simp only [hnone]
    exact Spec.pure _ fun _ h => h ▸ hsettled
  · have hleft := hinterrupted.nestedLeft
    have hrestore : Spec Faultless (· = s)
        (restoreInterrupted (guardSnapshots s.snapshots.keys true) outer)
        (fun _ => Settled image) (fun _ _ => False) (Recoverable image) :=
      (restoreInterrupted_spec hinterrupted.1).pre fun _ h => h ▸ hleft
    obtain ⟨hguard, hheld⟩ := hinterrupted
    obtain ⟨site, hclass⟩ := Option.ne_none_iff_exists'.mp hguard
    have hmem : (site, outer) ∈ guardSnapshots s.snapshots.keys site.mayNestInsideAnotherGuard :=
      mem_guardSnapshots.mpr ⟨Std.ExtTreeMap.mem_keys.mpr hheld.outer_mem, hclass, rfl⟩
    have hnested : ∀ entry ∈ guardSnapshots s.snapshots.keys false, entry.2 = outer := by
      intro entry hentry
      obtain ⟨hname, hentryclass, hsite⟩ := mem_guardSnapshots.mp hentry
      by_contra hne
      have := (hheld.guards entry.2 (Std.ExtTreeMap.mem_keys.mp hname) hne
        (by simp [hentryclass])).1
      rw [hentryclass, Option.some_inj] at this
      simp [this, mayNestInsideAnotherGuard] at hsite
    cases hreplay : site.mayNestInsideAnotherGuard with
    | false =>
      rw [hreplay] at hmem
      rw [guardSnapshots_eq_singleton Std.ExtTreeMap.nodup_keys hmem hnested]
      exact hrestore
    | true =>
      -- The outermost window is itself a replay, so nothing was nested in it.
      have hsite : site = .replay := by
        simpa [mayNestInsideAnotherGuard] using hreplay
      have honly : ∀ entry ∈ guardSnapshots s.snapshots.keys true, entry.2 = outer := by
        intro entry hentry
        obtain ⟨hname, hentryclass, _⟩ := mem_guardSnapshots.mp hentry
        by_contra hne
        exact (hheld.guards entry.2 (Std.ExtTreeMap.mem_keys.mp hname) hne
          (by simp [hentryclass])).2 (hsite ▸ hclass)
      have hnone : guardSnapshots s.snapshots.keys false = [] := by
        rw [eq_nil_iff_forall_not_mem]
        intro entry hentry
        have hentryouter := hnested entry hentry
        obtain ⟨_, hentryclass, hfalse⟩ := mem_guardSnapshots.mp hentry
        rw [hentryouter, hclass, Option.some_inj] at hentryclass
        rw [← hentryclass, hreplay] at hfalse
        cases hfalse
      rw [hreplay] at hmem
      rw [guardSnapshots_eq_singleton Std.ExtTreeMap.nodup_keys hmem honly] at hrestore ⊢
      rw [hnone]
      exact hrestore

/-! ### Runs of a process that is killed -/

/-- A process with the storage of one group.  `image` is the live image of the moment
the outermost window opened or, while no window is open, of now: what the group has
to come back to if the process dies. -/
structure Process (S M Q : Type) where
  up : Bool
  store : GroupStorage S M Q
  image : GroupImage S M Q

namespace Process

/-- A process that has opened no window yet. -/
def start (store : GroupStorage S M Q) : Process S M Q := ⟨true, store, store.live⟩

inductive Event (S M Q : Type) where
  /-- Work outside of any window leaves some store. -/
  | outside (store : GroupStorage S M Q)
  /-- A window, under the fates of its storage calls. -/
  | window (w : Window S) (plan : List (Fate StorageError))
  /-- The process dies with no window open. -/
  | kill
  /-- The next open runs recovery, under the fates of its storage calls. -/
  | recovery (plan : List (Fate StorageError))

variable (p : Process S M Q)

def step : Event S M Q → Process S M Q
  | .outside store => start store
  | .window w plan =>
    match w.program plan p.store with
    | ⟨.killed, store, _⟩ => ⟨false, store, p.store.live⟩
    | ⟨_, store, _⟩ => start store
  | .kill => ⟨false, p.store, p.store.live⟩
  | .recovery plan =>
    match recoverInterruptedRewindGuard plan p.store with
    | ⟨.returned (), store, _⟩ => start store
    | ⟨_, store, _⟩ => { p with store := store }

/-- Windows are opened by a process that is up, recovery is run by one that starts,
no storage call fails, and only windows make guard snapshots. -/
def Admissible : Event S M Q → Prop
  | .outside store => p.up = true ∧ NoGuardSnapshots store
  | .window _ plan => p.up = true ∧ ∀ f ∈ plan, Faultless f
  | .kill => p.up = true
  | .recovery plan => p.up = false ∧ ∀ f ∈ plan, Faultless f

/-- The image is live and no guard snapshot is stored while the process is up, and
recoverable while it is down. -/
def Inv : Prop :=
  if p.up then Settled p.image p.store else Recoverable p.image p.store

theorem inv_start {store : GroupStorage S M Q} (h : NoGuardSnapshots store) :
    (start store).Inv :=
  ⟨h, rfl⟩

theorem inv_step {p : Process S M Q} {e : Event S M Q} (hinv : p.Inv) (he : p.Admissible e) :
    (p.step e).Inv := by
  cases e with
  | outside store => exact inv_start he.2
  | window w plan =>
    have hsettled : Settled p.store.live p.store := by
      rw [Inv, if_pos he.1] at hinv
      exact ⟨hinv.1, rfl⟩
    have hmeets := w.program_spec plan p.store he.2 hsettled
    simp only [step]
    generalize w.program plan p.store = o at hmeets ⊢
    obtain ⟨ending, store, rest⟩ := o
    cases ending with
    | returned u => exact inv_start hmeets.2.1
    | failed e => exact inv_start hmeets.2.1
    | killed => exact hmeets.2
  | kill =>
    have hup : p.up = true := he
    rw [Inv, if_pos hup] at hinv
    exact .inl ⟨hinv.1, rfl⟩
  | recovery plan =>
    have hdown := he.1
    rw [Inv, hdown] at hinv
    have hmeets := recoverInterruptedRewindGuard_spec plan p.store he.2 hinv
    simp only [step]
    generalize recoverInterruptedRewindGuard plan p.store = o at hmeets ⊢
    obtain ⟨ending, store, rest⟩ := o
    cases ending with
    | returned u => exact inv_start hmeets.2.1
    | failed e => exact hmeets.2.elim
    | killed =>
      simp only [Inv, hdown]
      exact hmeets.2

end Process

/-- **Recovery restores the live image from any crash point.**  A process opens guard
windows with nested replays inside, is killed between any two storage calls of a
window, outside of one, or of recovery itself, any number of times.  The first
recovery that is not killed returns, with the live group as it was when the outermost
window opened (or when the process died outside of one) and no guard snapshot. -/
theorem recovery_restores_image {store : GroupStorage S M Q} (hstore : NoGuardSnapshots store)
    {events : List (Process.Event S M Q)}
    (hrun : Runs.Guarded Process.step Process.Admissible (.start store) events)
    (hdown : (events.foldl Process.step (.start store)).up = false)
    {plan : List (Fate StorageError)} (hplan : ∀ f ∈ plan, Faultless f)
    (hcompletes : (recoverInterruptedRewindGuard plan
      (events.foldl Process.step (.start store)).store).ending ≠ .killed) :
    let p := events.foldl Process.step (.start store)
    let recovered := recoverInterruptedRewindGuard plan p.store
    recovered.ending = .returned () ∧ recovered.store.live = p.image ∧
      NoGuardSnapshots recovered.store := by
  intro p recovered
  have hinv : p.Inv := Runs.Guarded.invariant (fun _ _ => Process.inv_step)
    (Process.inv_start hstore) hrun
  rw [Process.Inv, hdown] at hinv
  have hmeets : Meets Faultless recovered _ _ _ :=
    recoverInterruptedRewindGuard_spec plan p.store hplan hinv
  replace hcompletes : recovered.ending ≠ .killed := hcompletes
  obtain ⟨ending, store', rest⟩ := recovered
  cases ending with
  | returned u => exact ⟨rfl, hmeets.2.2, hmeets.2.1⟩
  | failed e => exact hmeets.2.elim
  | killed => exact absurd rfl hcompletes

namespace CutOffPass

/-- Live state 7 with a retained anchor of state 3. -/
def store : GroupStorage ℕ ℕ ℕ :=
  ⟨⟨7, 0, 0⟩, (∅ : Std.ExtTreeMap String (Snapshot ℕ ℕ ℕ)).insert "openmls-retained-anchor-3"
    ⟨3, none, none⟩⟩

def pass : Window ℕ :=
  .retainedAnchorPass "a1" "openmls-retained-anchor-3" [⟨"b2", false, [(· + 1)], .commit⟩]

/-- Killed inside the nested replay, then inside the recovery that follows. -/
def events : List (Process.Event ℕ ℕ ℕ) :=
  [.window pass [.done, .done, .done, .done, .killed], .recovery [.done, .done, .done, .killed]]

theorem recovery_restores_image_after_two_kills :
    let p := events.foldl Process.step (.start store)
    let recovered := recoverInterruptedRewindGuard [] p.store
    recovered.ending = .returned () ∧ recovered.store.live = p.image ∧
      NoGuardSnapshots recovered.store :=
  recovery_restores_image
    (by
      intro name hname
      rw [store, Std.ExtTreeMap.mem_insert] at hname
      simp only [compare_eq_iff_eq, Std.ExtTreeMap.not_mem_empty, or_false] at hname
      rw [← hname]
      decide)
    (by
      refine ⟨⟨rfl, ?_⟩, ⟨by decide +kernel, ?_⟩, trivial⟩ <;> simp [Faultless])
    (by decide +kernel) (by simp) (by decide +kernel)

end CutOffPass

end Mdk

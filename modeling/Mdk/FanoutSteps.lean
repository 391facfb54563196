/-
The steps of the fanout driver.

An account is `Safe` if every history is sound and every stored row agrees with its
history.  While the driver works on a fanout it holds the row in memory: the stored row,
if there still is one, is the same (`Holding`), and nothing happens to other fanouts.
Whether a step returns, fails or is cut off, it leaves a safe account behind.

* `driveOutboundFanout_keeps` — the driver;
* `resumeOutboundFanoutsForGroup_keeps`, `acknowledgePublishedAppMessages_keeps`,
  `publishOne_keeps` — what calls it, and what deletes rows.
-/
import Mdk.FanoutHistory

namespace Mdk

open StoreProgram StoreProgram.Program OutboundFanout List

variable {G C : Type}

/-! ### Accounts -/

namespace AccountDeviceRuntime

variable (account : AccountDeviceRuntime G) (messageId : String)

def stored : Option OutboundFanout :=
  account.engine.storage.fanouts.get? messageId

/-- The account with the history of one fanout replaced. -/
def setHistory (history : List FanoutEvent) : AccountDeviceRuntime G :=
  { account with history := Function.update account.history messageId history }

@[simp] theorem setHistory_history (history : List FanoutEvent) :
    (account.setHistory messageId history).history messageId = history :=
  Function.update_self _ _ _

theorem setHistory_history_of_ne {messageId id : String} (history : List FanoutEvent)
    (h : id ≠ messageId) : (account.setHistory messageId history).history id = account.history id :=
  Function.update_of_ne h _ _

/-- A round that is cut off, for as long as its answers are not stored. -/
abbrev beginRound (due : List ℕ) : AccountDeviceRuntime G :=
  account.setHistory messageId (.round due .cutOff :: account.history messageId)

end AccountDeviceRuntime

structure Safe (account : AccountDeviceRuntime G) : Prop where
  sound : ∀ id, Sound (account.history id)
  rows : ∀ id row, account.stored id = some row → RowInv (account.history id) row

/-- Nothing happened to the other fanouts, but that some of them may be deleted. -/
structure Apart (messageId : String) (account₀ account : AccountDeviceRuntime G) : Prop where
  history : ∀ id, id ≠ messageId → account.history id = account₀.history id
  rows : ∀ id row, id ≠ messageId → account.stored id = some row → account₀.stored id = some row

/-- The work on a fanout is over. -/
abbrev Done (messageId : String) (account₀ account : AccountDeviceRuntime G) : Prop :=
  Safe account ∧ Apart messageId account₀ account

/-- No history changed, and no fanout was stored but `fanout`. -/
def Reaches (fanout : Option OutboundFanout) (account account' : AccountDeviceRuntime G) : Prop :=
  account'.history = account.history ∧ FanoutFrame fanout account.engine account'.engine

instance (fanout : Option OutboundFanout) :
    IsPreorder (AccountDeviceRuntime G) (Reaches fanout) where
  refl _ := ⟨rfl, refl_of _ _⟩
  trans _ _ _ h h' := ⟨h'.1.trans h.1, trans_of _ h.2 h'.2⟩

/-- The fanout is worked on: it agrees with its history, and nothing else is stored in its
place. -/
structure Holding (account₀ : AccountDeviceRuntime G) (fanout : OutboundFanout)
    (account : AccountDeviceRuntime G) : Prop where
  safe : Safe account
  row : RowInv (account.history fanout.messageId) fanout
  backed : Backed fanout account.engine
  apart : Apart fanout.messageId account₀ account

section Frames

variable {fanout : Option OutboundFanout} {account₀ account account' : AccountDeviceRuntime G}
  {row row' : OutboundFanout} {messageId : String} {history : List FanoutEvent}

theorem Safe.reaches (h : Safe account) (hreaches : Reaches fanout account account')
    (hnew : ∀ row, fanout = some row → RowInv (account.history row.messageId) row) :
    Safe account' := by
  refine ⟨fun id => ?_, fun id row hrow => ?_⟩
  · rw [hreaches.1]
    exact h.sound id
  · rw [hreaches.1]
    obtain hold | hfanout := hreaches.2 id row hrow
    · exact h.rows id row hold
    · obtain rfl : row.messageId = id := KeyedTable.key_of_get? hrow
      exact hnew row hfanout

theorem Safe.of_none (h : Safe account) (hreaches : Reaches none account account') :
    Safe account' :=
  h.reaches hreaches fun _ heq => by cases heq

theorem Apart.reaches (h : Apart messageId account₀ account)
    (hreaches : Reaches fanout account account')
    (hid : ∀ row, fanout = some row → row.messageId = messageId) :
    Apart messageId account₀ account' := by
  refine ⟨fun id hne => ?_, fun id row hne hrow => ?_⟩
  · rw [hreaches.1, h.history id hne]
  · obtain hold | hfanout := hreaches.2 id row hrow
    · exact h.rows id row hne hold
    · exact absurd ((KeyedTable.key_of_get? hrow).symm.trans (hid row hfanout)) hne

theorem Apart.setHistory (h : Apart messageId account₀ account) (history : List FanoutEvent) :
    Apart messageId account₀ (account.setHistory messageId history) where
  history id hne := by rw [account.setHistory_history_of_ne history hne, h.history id hne]
  rows id row hne hrow := h.rows id row hne hrow

theorem Holding.of_none (h : Holding account₀ row account)
    (hreaches : Reaches none account account') : Holding account₀ row account' where
  safe := h.safe.of_none hreaches
  row := by
    rw [hreaches.1]
    exact h.row
  backed := h.backed.frame hreaches.2
  apart := h.apart.reaches hreaches fun _ heq => by cases heq

/-- One history is replaced. -/
theorem safe_setHistory (hsound : Sound history)
    (hrow : ∀ other, account.stored messageId = some other → RowInv history other)
    (hothers : ∀ id, id ≠ messageId → Sound (account.history id) ∧
      ∀ other, account.stored id = some other → RowInv (account.history id) other) :
    Safe (account.setHistory messageId history) := by
  refine ⟨fun id => ?_, fun id other hother => ?_⟩ <;> by_cases hne : id = messageId
  · rw [hne, account.setHistory_history]
    exact hsound
  · rw [account.setHistory_history_of_ne history hne]
    exact (hothers id hne).1
  · rw [hne, account.setHistory_history]
    exact hrow other (hne ▸ hother)
  · rw [account.setHistory_history_of_ne history hne]
    exact (hothers id hne).2 other hother

/-- A row and its history are replaced together. -/
theorem Holding.rewrite (h : Holding account₀ row account)
    (hreaches : Reaches (some row') account account') (hid : row'.messageId = row.messageId)
    (hbacked : Backed row' account'.engine) (hsound : Sound history)
    (hrow : RowInv history row') :
    Holding account₀ row' (account'.setHistory row.messageId history) where
  safe := by
    refine safe_setHistory hsound (fun other hother => ?_) fun id hne => ?_
    · rw [hbacked other (hid ▸ hother)]
      exact hrow
    · rw [hreaches.1]
      refine ⟨h.safe.sound id, fun other hother => ?_⟩
      obtain hold | hfanout := hreaches.2 id other hother
      · exact h.safe.rows id other hold
      · have hkey : other.messageId = id := KeyedTable.key_of_get? hother
        rw [← Option.some.inj hfanout] at hkey
        exact absurd (hkey.symm.trans hid) hne
  row := by
    rw [hid, account'.setHistory_history]
    exact hrow
  backed := hbacked
  apart := by
    rw [hid]
    exact (h.apart.reaches hreaches fun other heq => by rw [← Option.some.inj heq, hid]).setHistory
      history

theorem AccountDeviceRuntime.setHistory_self (account : AccountDeviceRuntime G)
    (messageId : String) : account.setHistory messageId (account.history messageId) = account := by
  simp only [AccountDeviceRuntime.setHistory, Function.update_eq_self]

/-- Only the row is replaced. -/
theorem Holding.store (h : Holding account₀ row account)
    (hreaches : Reaches (some row') account account') (hid : row'.messageId = row.messageId)
    (hbacked : Backed row' account'.engine)
    (hrow : RowInv (account.history row.messageId) row') : Holding account₀ row' account' := by
  have h' := h.rewrite hreaches hid hbacked (h.safe.sound row.messageId) hrow
  rwa [← hreaches.1, account'.setHistory_self] at h'

/-- Only the history grows. -/
theorem Holding.setHistory (h : Holding account₀ row account) (hsound : Sound history)
    (hrow : RowInv history row) :
    Holding account₀ row (account.setHistory row.messageId history) :=
  h.rewrite (refl_of _ _) rfl h.backed hsound hrow

theorem Safe.store (h : Holding account₀ row account)
    (hreaches : Reaches (some row') account account') (hid : row'.messageId = row.messageId)
    (hrow : RowInv (account.history row.messageId) row') : Safe account' := by
  refine h.safe.reaches hreaches fun other heq => ?_
  rw [← Option.some.inj heq, hid]
  exact hrow

end Frames

/-! ### Programs -/

/-- However the program stops the account is safe, and where it returns it is in `Q`. -/
abbrev Keeps {α : Type} (P : AccountDeviceRuntime G → Prop) (p : AccountProgram G α)
    (Q : α → AccountDeviceRuntime G → Prop) : Prop :=
  Spec (fun _ => True) P p Q (fun _ => Safe) Safe

section Programs

variable {α : Type} {account₀ : AccountDeviceRuntime G} {row : OutboundFanout}

theorem emit_moves (f : AccountDeviceEffects → AccountDeviceEffects) :
    Moves (Reaches none) (emit f : AccountProgram G Unit) :=
  Moves.internal fun _ => ⟨rfl, refl_of _ _⟩

variable {p : EngineProgram G PublishError α} {fanout : Option OutboundFanout}

theorem onSession_moves (h : Moves (FanoutFrame fanout) p) :
    Moves (Reaches fanout) (onSession p) := by
  have hzoom : Moves (Reaches fanout) (zoom AccountDeviceRuntime.engine
      (fun engine account => { account with engine }) p) :=
    fun plan account => ⟨rfl, h plan account.engine⟩
  exact hzoom.mapError

/-- A call of the session: its frame however it stops, and its answer where it returns. -/
theorem onSession_spec {Q : α → Engine G → Prop} (hmoves : Moves (FanoutFrame fanout) p)
    (account : AccountDeviceRuntime G) (hreturns : Returns (· = account.engine) p Q) :
    Spec (fun _ => True) (· = account) (onSession p)
      (fun a account' => Reaches fanout account account' ∧ Q a account'.engine)
      (fun _ => Reaches fanout account) (Reaches fanout account) := by
  have hanswer : Returns (· = account) (onSession p) fun a account' => Q a account'.engine := by
    refine Spec.mapError (Spec.zoom fun t ht => ?_)
    subst ht
    exact hreturns
  refine (((onSession_moves hmoves).spec account).and hanswer).post ?_ ?_ ?_
  · exact fun _ _ h => h
  · exact fun _ _ h => h.1
  · exact fun _ h => h.1

/-- A call of the session that leaves the account safe. -/
theorem onSession_keeps {Q : α → Engine G → Prop} {R : α → AccountDeviceRuntime G → Prop}
    {account : AccountDeviceRuntime G} (hmoves : Moves (FanoutFrame fanout) p)
    (hreturns : Returns (· = account.engine) p Q)
    (hsafe : ∀ account', Reaches fanout account account' → Safe account')
    (hR : ∀ a account', Reaches fanout account account' → Q a account'.engine → R a account') :
    Keeps (· = account) (onSession p) R :=
  (onSession_spec hmoves account hreturns).post (fun a account' h => hR a account' h.1 h.2)
    (fun _ => hsafe) hsafe

theorem putRow_keeps {account : AccountDeviceRuntime G} {R : AccountDeviceRuntime G → Prop}
    (hsafe : ∀ account', Reaches (some row) account account' → Safe account')
    (hR : ∀ account', Reaches (some row) account account' → Backed row account'.engine →
      R account') :
    Keeps (· = account) (onSession (Engine.putOutboundFanout row)) fun _ => R :=
  onSession_keeps (putOutboundFanout_moves row)
    ((putOutboundFanout_spec row account.engine).weaken fun _ _ h => h.2).returns hsafe fun _ => hR

theorem Safe.keeps {p : AccountProgram G α} (h : Moves (Reaches none) p) :
    Keeps Safe p fun _ => Safe :=
  h.keeps fun _ _ hreaches hsafe => hsafe.of_none hreaches

/-- What stores no fanout and adds no event can be done with the fanout in hand. -/
theorem Holding.keeps {p : AccountProgram G α} (h : Moves (Reaches none) p) :
    Keeps (Holding account₀ row) p fun _ => Holding account₀ row :=
  (h.keeps fun _ _ hreaches hholding => hholding.of_none hreaches).post (fun _ _ h => h)
    (fun _ _ h => h.safe) fun _ h => h.safe

theorem changeHistory_keeps {f : List FanoutEvent → List FanoutEvent}
    {P Q : AccountDeviceRuntime G → Prop} {messageId : String}
    (h : ∀ account, P account → Q (account.setHistory messageId (f (account.history messageId)))) :
    Keeps P (changeHistory messageId f) fun _ => Q :=
  Spec.internal fun account hP => h account hP

/-- A rewrite of the row. -/
theorem put_keeps {row' : OutboundFanout} (hid : row'.messageId = row.messageId)
    (hrow : ∀ history, RowInv history row → RowInv history row') :
    Keeps (Holding account₀ row) (onSession (Engine.putOutboundFanout row')) fun _ =>
      Holding account₀ row' :=
  Spec.at fun _ h => putRow_keeps (fun _ h' => Safe.store h h' hid (hrow _ h.row))
    fun _ h' hbacked => h.store h' hid hbacked (hrow _ h.row)

end Programs

open Holding

/-! ### Resolving the MLS half -/

section Resolve

variable {account₀ : AccountDeviceRuntime G} {row : OutboundFanout} {pending : PendingStateRef}

/-- While confirmations are tried, the confirmed row may already be stored. -/
structure Confirming (account₀ : AccountDeviceRuntime G) (fanout : OutboundFanout)
    (account : AccountDeviceRuntime G) : Prop where
  safe : Safe account
  row : RowInv (account.history fanout.messageId) fanout
  stored : ∀ other, account.stored fanout.messageId = some other →
    other = fanout ∨ other = fanout.setMlsState .confirmed
  apart : Apart fanout.messageId account₀ account

theorem Confirming.reaches {account account' : AccountDeviceRuntime G}
    (h : Confirming account₀ row account) (hpending : row.pendingRef = some pending)
    (hpos : 0 < row.acceptedTargets)
    (hreaches : Reaches (some (row.setMlsState .confirmed)) account account') :
    Confirming account₀ row account' where
  safe := h.safe.reaches hreaches fun other heq => by
    rw [← Option.some.inj heq]
    exact h.row.setMlsState hpending fun _ => hpos
  row := by
    rw [hreaches.1]
    exact h.row
  stored other hother := by
    obtain hold | hnew := hreaches.2 _ other hother
    · exact h.stored other hold
    · exact .inr (Option.some.inj hnew).symm
  apart := h.apart.reaches hreaches fun other heq => by
    rw [← Option.some.inj heq]
    rfl

theorem Confirming.called {account : AccountDeviceRuntime G} (h : Confirming account₀ row account)
    (hpending : row.pendingRef = some pending) (hpos : 0 < row.acceptedTargets) :
    Confirming account₀ row (account.setHistory row.messageId
      (.confirmCalled pending :: account.history row.messageId)) := by
  have hrow := h.row.confirmEvent hpos pending
  refine ⟨safe_setHistory ((h.safe.sound _).confirmCalled h.row hpos pending)
    (fun other hother => ?_) fun id _ => ⟨h.safe.sound id, h.safe.rows id⟩, ?_, h.stored,
      h.apart.setHistory _⟩
  · obtain rfl | rfl := h.stored other hother
    · exact hrow
    · exact hrow.setMlsState hpending fun _ => hpos
  · rw [account.setHistory_history]
    exact hrow

variable (account₀) [DecidableEq G] (env : FanoutEnv G C)

/-- A call that returns has stored the confirmed row; one that fails may have. -/
theorem confirmCall_spec (hpending : row.pendingRef = some pending)
    (hpos : 0 < row.acceptedTargets) :
    Spec (fun _ => True) (Confirming account₀ row)
      (onSession (Engine.confirmPublishedFanout env.publish pending row))
      (fun confirmed account => confirmed = some (row.setMlsState .confirmed) ∧
        Holding account₀ (row.setMlsState .confirmed) account)
      (fun _ => Confirming account₀ row) Safe := by
  refine Spec.at fun account h => (onSession_spec (confirmPublishedFanout_moves env pending row)
    account ((confirmPublishedFanout_returns env pending row).pre fun _ _ => trivial)).post
      ?_ ?_ ?_
  · intro confirmed account' h'
    have hconfirming := h.reaches hpending hpos h'.1
    exact ⟨h'.2.1, hconfirming.safe, hconfirming.row.setMlsState hpending fun _ => hpos, h'.2.2,
      hconfirming.apart⟩
  · exact fun _ account' h' => h.reaches hpending hpos h'
  · exact fun account' h' => (h.reaches hpending hpos h').safe

theorem confirmPublishedFanoutRetrying_keeps (hpending : row.pendingRef = some pending)
    (hpos : 0 < row.acceptedTargets) (retries : ℕ) :
    Keeps (Confirming account₀ row) (confirmPublishedFanoutRetrying env pending row retries)
      fun confirmed account => confirmed = some (row.setMlsState .confirmed) ∧
        Holding account₀ (row.setMlsState .confirmed) account := by
  induction retries with
  | zero =>
    refine Spec.bind (changeHistory_keeps fun _ h => h.called hpending hpos) fun _ => ?_
    exact (confirmCall_spec account₀ env hpending hpos).failing fun _ _ h => h.safe
  | succ retries ih =>
    refine Spec.bind (changeHistory_keeps fun _ h => h.called hpending hpos) fun _ =>
      Spec.bind_attempt (confirmCall_spec account₀ env hpending hpos)
        (fun confirmed => Spec.pure _ fun _ h => h) fun e => ?_
    dsimp only
    split
    · exact ih
    · exact Spec.raise _ fun _ h => h.safe

theorem settleOutboundFanoutMls_keeps :
    Keeps (Holding account₀ row) (settleOutboundFanoutMls env row) fun row' account =>
      row'.messageId = row.messageId ∧ Holding account₀ row' account := by
  unfold settleOutboundFanoutMls
  split
  · exact Spec.pure _ fun _ h => ⟨rfl, h⟩
  · rename_i pending hpending
    split
    · rename_i hrequired
      have hpos : 0 < row.acceptedTargets := by
        simp only [outcome, Bool.and_eq_true, decide_eq_true_eq] at hrequired
        exact hrequired.1
      have hconfirm := confirmPublishedFanoutRetrying_keeps account₀ env hpending hpos 3
      refine (hconfirm.pre fun account h => ⟨h.safe, h.row,
        fun other hother => .inl (h.backed other hother), h.apart⟩).bind fun confirmed =>
          Spec.pull fun hconfirmed => ?_
      subst hconfirmed
      exact (keeps (emit_moves _)).bind fun _ => Spec.pure _ fun _ h => ⟨rfl, h⟩
    · split
      · rename_i hchecks
        have hfailed := allFailed_of_checks hchecks.1 hchecks.2.1 hchecks.2.2
        refine Spec.bind (changeHistory_keeps fun account h =>
          h.setHistory ((h.safe.sound _).rollbackCalled h.row hfailed pending)
            (h.row.rollbackEvent hfailed pending)) fun _ => Spec.bind
          (R := fun rolledBack account => rolledBack = some (row.setMlsState .rolledBack) ∧
            Holding account₀ (row.setMlsState .rolledBack) account)
          (Spec.at fun account h => ?_) fun rolledBack => Spec.pull fun hrolledBack => ?_
        · have hrow : RowInv (account.history row.messageId) (row.setMlsState .rolledBack) :=
            h.row.setMlsState hpending fun heq => by cases heq
          exact onSession_keeps (publishFailedFanout_moves env pending row)
            ((publishFailedFanout_returns env pending row).pre fun _ _ => trivial)
            (fun _ h' => Safe.store h h' rfl hrow)
            fun _ _ h' hreturned => ⟨hreturned.1, h.store h' rfl hreturned.2 hrow⟩
        · subst hrolledBack
          exact (keeps (emit_moves _)).bind fun _ => Spec.pure _ fun _ h => ⟨rfl, h⟩
      · exact Spec.pure _ fun _ h => ⟨rfl, h⟩

/-- No Welcome waits for a confirmation that has happened. -/
def WelcomesReleased (row : OutboundFanout) : Prop :=
  row.mlsState = .confirmed → row.pendingPostConfirmationWelcomes = []

/-- Every Welcome of the fanout was handed over, and the row may still say otherwise. -/
abbrev HandedOver (account₀ : AccountDeviceRuntime G) (row : OutboundFanout)
    (account : AccountDeviceRuntime G) : Prop :=
  Holding account₀ row account ∧ ∀ welcome ∈ row.postConfirmationWelcomes,
    WelcomeHanded (account.history row.messageId) welcome

omit [DecidableEq G] in
theorem releaseWelcomes_keeps :
    Keeps (Holding account₀ row) (releaseWelcomes env row) fun row' account =>
      row'.messageId = row.messageId ∧ WelcomesReleased row' ∧ Holding account₀ row' account := by
  unfold releaseWelcomes
  split
  · rename_i hwelcomes
    have hwaiting : row.postConfirmationWelcomesPending = true := by
      by_contra hfalse
      exact hwelcomes.2 (by simp [pendingPostConfirmationWelcomes, hfalse])
    have hpending : row.pendingPostConfirmationWelcomes = row.postConfirmationWelcomes := by
      simp [pendingPostConfirmationWelcomes, hwaiting]
    have hreleased : row.markPostConfirmationWelcomesReleased =
        ({ row with postConfirmationWelcomesPending := false }, true) := by
      simp [markPostConfirmationWelcomesReleased, hwaiting]
    -- From here on the history says that every one of them was handed over.
    refine Spec.bind (R := fun _ => HandedOver account₀ row)
      (changeHistory_keeps fun account h => ⟨h.setHistory ((h.safe.sound _).welcomesHanded _)
        (h.row.welcomesEvent _), fun welcome hmem => ?_⟩) fun _ => Spec.bind
      (R := fun _ => HandedOver account₀ row) ?_ fun _ => ?_
    · rw [account.setHistory_history]
      exact ⟨_, .head _, by rwa [hpending]⟩
    · refine ((onSession_moves (env.welcome_fanouts _ _)).keeps (I := HandedOver account₀ row)
        ?_).post (fun _ _ h => h) (fun _ _ h => h.1.safe) fun _ h => h.1.safe
      rintro account account' hreaches ⟨h, hhanded⟩
      refine ⟨h.of_none hreaches, ?_⟩
      rw [hreaches.1]
      exact hhanded
    · simp only [hreleased, if_true]
      refine Spec.bind (R := fun _ =>
        Holding account₀ { row with postConfirmationWelcomesPending := false })
        (Spec.at fun account h => ?_) fun _ => Spec.pure _ fun _ h => ⟨rfl, fun _ => rfl, h⟩
      have hrow := h.1.row.released h.2
      exact putRow_keeps (fun _ h' => Safe.store h.1 h' rfl hrow)
        fun _ h' hbacked => h.1.store h' rfl hbacked hrow
  · rename_i hwelcomes
    refine Spec.pure _ fun _ h => ⟨rfl, fun hmls => ?_, h⟩
    by_contra hne
    exact hwelcomes ⟨hmls, hne⟩

theorem resolveOutboundFanoutMls_keeps :
    Keeps (Holding account₀ row) (resolveOutboundFanoutMls env row) fun row' account =>
      row'.messageId = row.messageId ∧ WelcomesReleased row' ∧ Holding account₀ row' account := by
  refine (settleOutboundFanoutMls_keeps account₀ env).bind fun row' => Spec.pull fun hid => ?_
  exact (releaseWelcomes_keeps account₀ env).weaken fun row'' account h => ⟨h.1.trans hid, h.2⟩

end Resolve

/-! ### A round of attempts -/

section Attempts

variable (account₀ : AccountDeviceRuntime G) {row : OutboundFanout} {due : List ℕ}
  {answers : ℕ → AdapterResult} {nowMs : UInt64}

theorem publishRound_keeps (hnodup : due.Nodup) (hdue : ∀ i ∈ due, row.OutstandingAt i)
    {i : ℕ} (hi : i ∈ due) :
    Keeps (Holding account₀ row) (publishRound answers due row) fun row' account =>
      row'.messageId = row.messageId ∧ Holding account₀ row' account := by
  refine Spec.at fun account₁ h₁ => ?_
  have hsound := h₁.safe.sound row.messageId
  have hout := hdue i hi
  have h₂ : Holding account₀ row (account₁.beginRound row.messageId due) :=
    h₁.setHistory (hsound.round h₁.row hout due _) (h₁.row.lostRound hdue (by simp))
  have hdropped : ∀ {account : AccountDeviceRuntime G} (classified),
      Reaches none (account₁.beginRound row.messageId due) account →
      Safe (account.setHistory row.messageId
        (settleRound (.dropped classified) (account.history row.messageId))) := by
    intro account classified hreaches
    rw [hreaches.1, account₁.setHistory_history]
    exact ((h₂.of_none hreaches).setHistory (hsound.round h₁.row hout due (.dropped classified))
      (h₁.row.lostRound hdue (by simp))).safe
  refine Spec.bind (R := fun _ account => account = account₁.beginRound row.messageId due)
    (changeHistory_keeps fun account heq => by rw [heq]) fun _ => ?_
  split
  · refine Spec.bind (R := fun _ => Safe) (changeHistory_keeps fun account heq => ?_) fun _ =>
      Spec.raise _ fun _ h => h
    exact hdropped _ (heq ▸ refl_of _ _)
  · rename_i recorded hrecorded
    have hupdated := recordAttempts_updated hnodup hdue hrecorded
    refine Spec.bind_attempt
      (R := fun _ account => Reaches (some recorded) (account₁.beginRound row.messageId due)
        account ∧ Backed recorded account.engine)
      (S := fun _ => Reaches none (account₁.beginRound row.messageId due))
      (Spec.mapError (Spec.zoom fun account heq => ?_)) (fun _ => ?_) fun e => ?_
    · subst heq
      refine (putOutboundFanout_spec recorded _).post ?_ ?_ ?_
      · exact fun _ engine h => ⟨⟨rfl, h.1⟩, h.2⟩
      · rintro _ engine rfl
        exact ⟨rfl, refl_of (FanoutFrame none) _⟩
      · rintro engine rfl
        exact h₂.safe
    · refine Spec.bind (R := fun _ => Holding account₀ recorded)
        (changeHistory_keeps fun account h => ?_) fun _ =>
          Spec.pure _ fun _ h => ⟨hupdated.messageId, h⟩
      have hhistory : account.history row.messageId =
          .round due .cutOff :: account₁.history row.messageId := by
        rw [h.1.1, account₁.setHistory_history]
      rw [hhistory]
      exact h₂.rewrite h.1 hupdated.messageId h.2
        (hsound.round h₁.row hout due _) (h₁.row.recorded hdue hupdated)
    · exact Spec.bind (R := fun _ => Safe) (changeHistory_keeps fun account h => hdropped _ h)
        fun _ => Spec.raise _ fun _ h => h

variable [DecidableEq G] (env : FanoutEnv G C)

theorem attemptDue_keeps (hdue : dueTargets row nowMs ≠ []) :
    Keeps (Holding account₀ row) (attemptDue env nowMs answers (dueTargets row nowMs) row)
      fun row' account =>
        row'.messageId = row.messageId ∧ WelcomesReleased row' ∧ Holding account₀ row' account := by
  obtain ⟨i, hi⟩ := exists_mem_of_ne_nil _ hdue
  have hnodup := dueTargets_nodup row nowMs
  have hout : ∀ j ∈ dueTargets row nowMs, row.OutstandingAt j := fun j => dueTargets_outstanding
  refine Spec.bind (R := fun started account =>
    markAttemptsStarted nowMs (dueTargets row nowMs) row = .ok started ∧
      Holding account₀ row account)
    (Spec.ofExcept (fun started _ hstarted h => ⟨Checks.mapError_eq_ok.mp hstarted, h⟩)
      fun _ _ _ h => h.safe) fun started => Spec.pull fun hstarted => ?_
  have hupdated := markAttemptsStarted_updated hnodup hout hstarted
  have hid := hupdated.messageId
  -- A target whose attempt is started is still outstanding.
  have hout' : ∀ j ∈ dueTargets row nowMs, started.OutstandingAt j := by
    intro j hj
    obtain ⟨target, htarget, _⟩ := hout j hj
    refine ⟨target.started nowMs, ?_, rfl⟩
    rw [hupdated.targets j, if_pos hj, htarget]
    rfl
  refine (put_keeps hid fun _ hrow => hrow.started hout hupdated).bind fun _ =>
    (publishRound_keeps account₀ hnodup hout' hi).bind fun recorded => Spec.pull fun hid' => ?_
  refine (keeps (emit_moves _)).bind fun _ => ?_
  exact (resolveOutboundFanoutMls_keeps account₀ env).weaken
    fun row' account h => ⟨h.1.trans (hid'.trans hid), h.2⟩

end Attempts

/-! ### Retiring a row -/

section Retire

variable (account₀ : AccountDeviceRuntime G) {row : OutboundFanout}

theorem retire_keeps (site : RetireSite) (failureReported : Bool)
    (hok : ∀ history, RowInv history row → RetiredOk history row site failureReported) :
    Keeps (Holding account₀ row) (retire row.messageId site failureReported) fun _ =>
      Done row.messageId account₀ := by
  refine Spec.at fun account₁ h₁ => ?_
  refine Spec.bind (R := fun deleted account => Reaches none account₁ account ∧
      deleted = account₁.stored row.messageId ∧ account.stored row.messageId = none)
    (onSession_keeps (deleteOutboundFanout_moves row.messageId)
      (deleteOutboundFanout_returns row.messageId account₁.engine)
        (fun _ h => h₁.safe.of_none h) fun _ _ h hdeleted => ⟨h, hdeleted⟩) fun deleted => ?_
  cases hdeleted : deleted with
  | none =>
    exact Spec.pure _ fun account h => ⟨h₁.safe.of_none h.1, (h₁.of_none h.1).apart⟩
  | some other =>
    refine changeHistory_keeps fun account h => ?_
    obtain ⟨hreaches, hstored, hgone⟩ := h
    have h := h₁.of_none hreaches
    have hother : other = row := h₁.backed other hstored.symm
    refine ⟨safe_setHistory ?_ (fun row' hrow' => ?_)
      fun id _ => ⟨h.safe.sound id, h.safe.rows id⟩, h.apart.setHistory _⟩
    · rw [hother]
      exact (h.safe.sound _).retire (hok _ h.row)
    · cases hgone.symm.trans hrow'

/-- A complete row has no target that is neither accepted nor failed. -/
theorem complete_targets (h : row.outcome.fanoutComplete = true) :
    ∀ target ∈ row.targets, target.status = .accepted ∨ target.status = .failed := by
  intro target hmem
  have hterminal := (outcome_complete_iff row).mp h target hmem
  revert hterminal
  cases target.status <;> simp [FanoutTargetStatus.isTerminal, FanoutTargetStatus.isOutstanding]

theorem frozenFanoutReport_accepted (row : OutboundFanout) :
    (frozenFanoutReport row).accepted.length = row.acceptedTargets := by
  have hsnd : (row.request.target.endpoints.zip row.targets).map Prod.snd = row.targets :=
    map_snd_zip (by rw [row.targets_length])
  have hcount : (frozenFanoutReport row).accepted.length =
      (row.request.target.endpoints.zip row.targets).countP fun entry =>
        entry.2.status = .accepted := by
    rw [frozenFanoutReport, length_filterMap_eq_countP]
    refine countP_congr fun entry _ => ?_
    by_cases h : entry.2.status = .accepted <;> simp [h]
  rw [hcount, acceptedTargets, countTargets]
  nth_rewrite 2 [← hsnd]
  rw [countP_map]
  rfl

/-- A failure that the driver reports, unless it has some of the acceptances it needs. -/
theorem acceptedTargets_of_failureReason (h : (publishFailureReason row).isSome = true)
    (hacks : ¬(0 < row.acceptedTargets ∧ row.acceptedTargets < row.request.requiredAcks)) :
    row.acceptedTargets = 0 := by
  unfold publishFailureReason at h
  split at h
  · cases h
  · rename_i hstatus
    have hmet : ¬max row.request.requiredAcks 1 ≤ row.acceptedTargets := by
      rw [← frozenFanoutReport_accepted]
      simp only [publishStatus, TransportPublishReport.metRequiredAcks, Bool.or_eq_true,
        decide_eq_true_eq, not_or] at hstatus
      exact hstatus.2
    omega

theorem finishDrive_keeps (hreleased : WelcomesReleased row) (attemptedAny : Bool) :
    Keeps (Holding account₀ row) (finishDrive attemptedAny row) fun _ =>
      Done row.messageId account₀ := by
  refine (keeps (emit_moves _)).bind fun _ => Spec.bind
    (R := fun _ => Done row.messageId account₀) ?_ fun _ =>
      Spec.pure _ fun _ h => h
  unfold retireWhenDone
  split
  · rename_i hdone
    refine retire_keeps account₀ _ _ fun history hrow =>
      ⟨complete_targets hdone.1, hdone.2.1, fun hmls _ welcome hmem => ?_,
        fun hreported _ hacks => acceptedTargets_of_failureReason hreported hacks⟩
    -- Nothing waits any more, so everything was handed over.
    have hnone := hreleased hmls
    by_cases hpending : row.postConfirmationWelcomesPending = true
    · rw [pendingPostConfirmationWelcomes, if_pos hpending] at hnone
      rw [hnone] at hmem
      cases hmem
    · exact hrow.welcomes (by simpa using hpending) welcome hmem
  · exact Spec.pure _ fun _ h => ⟨h.safe, h.apart⟩

end Retire

/-! ### The driver, resuming and acknowledging -/

section Steps

variable [DecidableEq G] (env : FanoutEnv G C) (account₀ : AccountDeviceRuntime G)
  {row : OutboundFanout} (nowMs : UInt64)

theorem driveOutboundFanout_keeps (answers : ℕ → AdapterResult) :
    Keeps (Holding account₀ row) (driveOutboundFanout env nowMs answers row) fun _ =>
      Done row.messageId account₀ := by
  refine (resolveOutboundFanoutMls_keeps account₀ env).bind fun row₁ => Spec.pull fun hid =>
    Spec.pull fun hreleased => ?_
  rw [← hid]
  dsimp only
  split
  · exact finishDrive_keeps account₀ hreleased false
  · rename_i hdue
    refine (attemptDue_keeps account₀ env fun hnil => hdue (by rw [hnil]; rfl)).bind fun row₂ =>
      Spec.pull fun hid' => Spec.pull fun hreleased' => ?_
    rw [← hid']
    exact finishDrive_keeps account₀ hreleased' true

/-- What is left to resume agrees with the account, and names every fanout once. -/
structure Resuming (fanouts : List OutboundFanout) (account : AccountDeviceRuntime G) : Prop where
  safe : Safe account
  rows : ∀ row ∈ fanouts, RowInv (account.history row.messageId) row ∧ Backed row account.engine
  nodup : (fanouts.map OutboundFanout.messageId).Nodup

omit [DecidableEq G] in
theorem Resuming.holding {rows : List OutboundFanout} {account : AccountDeviceRuntime G}
    (h : Resuming (row :: rows) account) : Holding account row account :=
  ⟨h.safe, (h.rows row (.head _)).1, (h.rows row (.head _)).2, ⟨fun _ _ => rfl, fun _ _ _ h => h⟩⟩

omit [DecidableEq G] in
/-- The other fanouts are as they were. -/
theorem Resuming.next {rows : List OutboundFanout} {account account' : AccountDeviceRuntime G}
    (h : Resuming (row :: rows) account) (hsafe : Safe account')
    (hapart : Apart row.messageId account account') : Resuming rows account' := by
  have hnodup := nodup_cons.mp h.nodup
  refine ⟨hsafe, fun other hother => ?_, hnodup.2⟩
  have hne : other.messageId ≠ row.messageId := by
    intro heq
    exact hnodup.1 (heq ▸ mem_map_of_mem hother)
  obtain ⟨hrow, hbacked⟩ := h.rows other (.tail _ hother)
  refine ⟨?_, fun stored hstored => hbacked stored (hapart.rows _ stored hne hstored)⟩
  rw [hapart.history _ hne]
  exact hrow

omit [DecidableEq G] in
theorem resuming_of_sublist {rows : List OutboundFanout} {account : AccountDeviceRuntime G}
    (hsafe : Safe account) (h : rows.Sublist account.engine.storage.fanouts.rows) :
    Resuming rows account := by
  refine ⟨hsafe, fun row hmem => ?_, account.engine.storage.fanouts.nodup.sublist (h.map _)⟩
  have hstored : account.stored row.messageId = some row :=
    KeyedTable.mem_rows_iff.mp (h.subset hmem)
  exact ⟨hsafe.rows _ row hstored, fun other hother =>
    Option.some.inj (hother.symm.trans hstored)⟩

theorem resumeOutboundFanout_keeps (answers : ℕ → AdapterResult) (blocked : List GroupId) :
    Keeps (Holding account₀ row) (resumeOutboundFanout env nowMs answers blocked row)
      fun _ => Done row.messageId account₀ := by
  unfold resumeOutboundFanout
  split
  · exact Spec.pure _ fun _ h => ⟨h.safe, h.apart⟩
  · split
    · exact (driveOutboundFanout_keeps env account₀ nowMs answers).bind fun _ =>
        Spec.pure _ fun _ h => h
    · rename_i hwork
      split
      · exact (keeps (emit_moves _)).bind fun _ =>
          Spec.pure _ fun _ h => ⟨h.safe, h.apart⟩
      · have houtstanding : row.outcome.outstandingTargets = 0 := by omega
        have hresolved : row.mlsState.isPending = false := by
          rw [← Bool.not_eq_true]
          exact fun hpending => hwork (.inr hpending)
        have hcomplete : row.outcome.fanoutComplete = true := by
          simpa [outcome] using houtstanding
        refine (keeps (emit_moves _)).bind fun _ => Spec.bind
          (retire_keeps account₀ _ _ fun history hrow => ⟨complete_targets hcomplete, hresolved,
            fun hmls hnot => absurd ⟨rfl, hrow.confirmed hmls⟩ hnot, fun _ hnot _ => ?_⟩)
          fun _ => Spec.pure _ fun _ h => h
        by_contra hne
        exact hnot ⟨rfl, Nat.pos_of_ne_zero hne⟩

variable (answers : String → ℕ → AdapterResult)

theorem resumeOutboundFanouts_keeps (rows : List OutboundFanout) (blocked : List GroupId) :
    Keeps (Resuming rows) (rows.foldlM (fun blocked row =>
      resumeOutboundFanout env nowMs (answers row.messageId) blocked row) blocked)
      fun _ => Safe (G := G) := by
  induction rows generalizing blocked with
  | nil => exact Spec.pure _ fun _ h => h.safe
  | cons row rows ih =>
    rw [foldlM_cons]
    refine Spec.bind (R := fun _ => Resuming rows) (Spec.at fun account h => ?_) fun blocked =>
      ih blocked
    exact ((resumeOutboundFanout_keeps env account nowMs _ blocked).from h.holding).weaken
      fun _ account' h' => h.next h'.1 h'.2

omit [DecidableEq G] in
/-- Fanouts that the session lists can be resumed. -/
theorem listed_keeps {p : EngineProgram G PublishError (List OutboundFanout)}
    (h : ∀ engine, Spec (fun _ => True) (· = engine) p (fun fanouts engine' => engine' = engine ∧
      fanouts.Sublist engine.storage.fanouts.rows) (fun _ engine' => engine' = engine)
      (· = engine)) :
    Keeps Safe (onSession p) Resuming := by
  refine Spec.mapError (Spec.zoom fun account hsafe => (h account.engine).post ?_ ?_ ?_)
  · rintro fanouts _ ⟨rfl, hsublist⟩
    exact resuming_of_sublist hsafe hsublist
  · rintro _ _ rfl
    exact hsafe
  · rintro _ rfl
    exact hsafe

theorem resumeOutboundFanoutsForGroup_keeps (groupId : Option GroupId) :
    Keeps Safe (resumeOutboundFanoutsForGroup env nowMs answers groupId) fun _ => Safe := by
  refine Spec.bind (R := Resuming) ?_ fun rows => Spec.bind (R := fun _ => Resuming rows) ?_
    fun _ => resumeOutboundFanouts_keeps env nowMs answers rows []
  · cases groupId with
    | none => exact listed_keeps outboundFanouts_spec
    | some groupId => exact listed_keeps (outboundFanoutsForGroup_spec groupId)
  · exact Spec.internal fun account h => ⟨⟨h.safe.sound, h.safe.rows⟩, h.rows, h.nodup⟩

omit [DecidableEq G] in
theorem acknowledgePublishedAppMessages_keeps
    (publishedMessages : List PublishedApplicationMessage) :
    Keeps (Safe (G := G)) (acknowledgePublishedAppMessages publishedMessages) fun _ => Safe := by
  refine Spec.forM (fun _ => Safe) (fun published _ => ?_) publishedMessages
  refine (listed_keeps (outboundFanoutsForGroup_spec published.groupId)).bind fun rows =>
    (Spec.forM Resuming (fun row rows => Spec.at fun account h => ?_) rows).weaken
      fun _ _ h => h.safe
  split
  · rename_i hmatch
    refine ((retire_keeps account .acknowledgement false fun history hrow =>
      ⟨complete_targets hmatch.2.2.1, hmatch.2.2.2, fun hmls => ?_, fun hreported => ?_⟩).from
        h.holding).weaken fun _ account' h' => h.next h'.1 h'.2
    · -- An application message has no MLS half.
      obtain ⟨application, happ, _⟩ := (Option.any_eq_true _ _).mp hmatch.1
      have hnone := hrow.application (by rw [happ]; rfl)
      rw [hmls] at hnone
      cases hnone
    · cases hreported
  · refine Spec.pure _ ?_
    rintro _ rfl
    exact h.next h.safe ⟨fun _ _ => rfl, fun _ _ _ h => h⟩

end Steps

/-! ### Staging -/

section Stage

variable (env : FanoutEnv G C) {α : Type} (pending : Option PendingStateRef)

theorem rollbackUnstagedPending_moves :
    Moves (Reaches none) (rollbackUnstagedPending env pending) := by
  unfold rollbackUnstagedPending
  split
  · exact Moves.pure _
  · rename_i pending
    have hfailed : Moves (FanoutFrame none) (doPublishFailedWithFanout env.publish pending none) :=
      doPublishFailed_moves env pending fun row hrow => (Except.ok.inj hrow).symm
    exact (onSession_moves hfailed).bind fun _ => emit_moves _

/-- Rolling back the pending state is safe wherever the step failed. -/
theorem orRollback_keeps {p : AccountProgram G α} {P : AccountDeviceRuntime G → Prop}
    {Q : α → AccountDeviceRuntime G → Prop} (h : Keeps P p Q) :
    Keeps P (orRollback env pending p) Q := by
  refine Spec.bind_attempt h (fun a => Spec.pure _ fun _ h => h) fun e => ?_
  exact (Safe.keeps (rollbackUnstagedPending_moves env pending)).bind fun _ =>
    Spec.raise _ fun _ h => h

variable (continuation : Option PendingFanoutContinuation)

theorem continuationGroupId_fanouts :
    Moves (FanoutFrame none) (continuationGroupId continuation : EngineProgram G _ _) := by
  unfold continuationGroupId
  split
  · exact Moves.pure _
  · exact (pendingGroupId_fanouts _).bind fun _ => Moves.pure _

theorem continuationOrigin_fanouts :
    Moves (FanoutFrame none) (continuationOrigin continuation : EngineProgram G _ _) := by
  unfold continuationOrigin
  split
  · exact Moves.pure _
  · split
    · exact Moves.pure _
    · exact (pendingOriginMessageId_fanouts _).bind fun _ => Moves.pure _

/-- Nothing has happened yet to the fanout of the message. -/
structure Fresh (messageId : String) (account : AccountDeviceRuntime G) : Prop where
  safe : Safe account
  history : account.history messageId = []

theorem Fresh.keeps {p : AccountProgram G α} {messageId : String} (h : Moves (Reaches none) p) :
    Keeps (Fresh messageId) p fun _ => Fresh messageId := by
  refine (h.keeps (I := Fresh messageId) fun _ _ hreaches hfresh => ?_).post (fun _ _ h => h)
    (fun _ _ h => h.safe) fun _ h => h.safe
  refine ⟨hfresh.safe.of_none hreaches, ?_⟩
  rw [hreaches.1]
  exact hfresh.history

/-- The row of a new fanout. -/
theorem putStaged_keeps {row : OutboundFanout} (hrow : RowInv [] row) :
    Keeps (Fresh (G := G) row.messageId) (onSession (Engine.putOutboundFanout row))
      fun _ account => ∃ account₀, Holding account₀ row account := by
  refine Spec.at fun account h => ?_
  have hrow' : RowInv (account.history row.messageId) row := by
    rw [h.history]
    exact hrow
  have hnew : ∀ other, some row = some other → RowInv (account.history other.messageId) other :=
    fun other heq => Option.some.inj heq ▸ hrow'
  refine putRow_keeps (fun _ h' => h.safe.reaches h' hnew) fun account' h' hbacked => ?_
  refine ⟨account', h.safe.reaches h' hnew, ?_, hbacked, ⟨fun _ _ => rfl, fun _ _ _ h => h⟩⟩
  rw [h'.1]
  exact hrow'

theorem stageFanout_keeps (message : TransportMessage) (target : TransportPublishTarget)
    (nowMs : UInt64) {continuation : Option PendingFanoutContinuation}
    {applicationMessage : Option OutboundApplicationMessage}
    (happ : continuation = none ∨ applicationMessage = none) :
    Keeps (Fresh message.id)
      (stageFanout env message target nowMs continuation applicationMessage)
      fun row account => ∃ account₀, Holding account₀ row account := by
  refine (orRollback_keeps env _ (Fresh.keeps
      (onSession_moves (continuationGroupId_fanouts _)))).bind fun groupId =>
    (orRollback_keeps env _ (Fresh.keeps
      (onSession_moves (continuationOrigin_fanouts _)))).bind fun originMessageId => ?_
  refine Spec.bind (R := fun row account => freeze env message target nowMs continuation
      applicationMessage groupId originMessageId = .ok row ∧ Fresh message.id account)
    (orRollback_keeps env _ (Spec.ofExcept
      (fun row _ hrow h => ⟨Checks.mapError_eq_ok.mp hrow, h⟩) fun _ _ _ h => h.safe))
    fun row => Spec.pull fun hfreeze => ?_
  obtain ⟨hid, hrow⟩ := rowInv_freeze happ hfreeze
  rw [← hid]
  exact (orRollback_keeps env _ (putStaged_keeps hrow)).bind fun _ => Spec.pure _ fun _ h => h

theorem publishOne_keeps [DecidableEq G] (nowMs : UInt64) (answers : ℕ → AdapterResult)
    (message : TransportMessage) {continuation : Option PendingFanoutContinuation}
    {applicationMessage : Option OutboundApplicationMessage}
    (happ : continuation = none ∨ applicationMessage = none) :
    Keeps (Fresh message.id) (publishOneWithPostConfirmationWelcomes env nowMs answers message
      continuation applicationMessage) fun _ => Safe := by
  unfold publishOneWithPostConfirmationWelcomes
  split
  · split
    · exact ((Safe.keeps (emit_moves _)).pre fun _ h => h.safe).bind fun _ =>
        (Safe.keeps (rollbackUnstagedPending_moves env _)).bind fun _ => Spec.pure _ fun _ h => h
    · refine (stageFanout_keeps env message _ nowMs happ).bind fun row => Spec.at ?_
      rintro account ⟨account₀, h⟩
      exact ((driveOutboundFanout_keeps env account₀ nowMs answers).from h).weaken fun _ _ h => h.1
  · exact (Safe.keeps (onSession_moves (env.legacy_fanouts message))).pre fun _ h => h.safe

end Stage

end Mdk

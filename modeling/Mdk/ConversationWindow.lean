/-
The actor of a conversation window, `crates/marmot-app/src/runtime/conversation_window.rs`.

A write raises the version of the store and is announced, later, on one of five queues.  The
actor waits for an announcement, a command or a timer, throws away what is queued and reads
the store again.  `readAt` is the version a snapshot was read at, and `announced` collects the
versions of the writes that were announced; the actor itself sees neither.

* `quiet_window_is_current` — a window that waits for nothing shows every announced write, if
  no command for a missing message was refused when only its read would have shown one;
* `Sample.refused_jump_forgets` — such a command, and a write that is never shown.
-/
import Mathlib
import Mdk.Runs

namespace Mdk

namespace ConversationWindow

inductive ConversationOpenError where
  | invalidLimit
  | invalidAnchorPosition
  | anchorScopeMismatch
  | messageNotFound
deriving DecidableEq, Repr

/-- The errors that end a window, and the rest. -/
inductive AppError where
  | runtimeStopping
  | transportClosed
  | blockingTask
  | unknownGroup
  | accountIdMismatch
  | unknownAccount
  | storageClosed
  | storageNotFound
  | other
deriving DecidableEq, Repr

inductive ConversationWindowError where
  | invalidLimit
  | staleWindow
  | anchorOutsideWindow
  | notReady
  | closed
  | query (e : ConversationOpenError)
  | presentation
  | app (e : AppError)
deriving DecidableEq, Repr

namespace ConversationWindowError

def terminal : ConversationWindowError → Bool
  | closed | presentation => true
  | query e => e ≠ .messageNotFound
  | app e => e ≠ .other
  | invalidLimit | staleWindow | anchorOutsideWindow | notReady => false

def isQuery : ConversationWindowError → Bool
  | query _ => true
  | _ => false

end ConversationWindowError

open ConversationWindowError

/-! ### Snapshots and commands -/

/-- `content` is all that `same_content` compares, beside the epoch of the header. -/
structure Snapshot (κ : Type) where
  sequence : ℕ
  epoch : Option ℕ
  content : κ
  readAt : ℕ
deriving DecidableEq

def Snapshot.SameContent {κ : Type} (a b : Snapshot κ) : Prop :=
  a.epoch = b.epoch ∧ a.content = b.content

instance {κ : Type} [DecidableEq κ] (a b : Snapshot κ) : Decidable (a.SameContent b) :=
  inferInstanceAs (Decidable (_ ∧ _))

/-- `α` are the actions other than the return to the tail. -/
inductive Action (α : Type) where
  | latest
  | navigate (action : α)
deriving DecidableEq

structure Command (α : Type) where
  revision : ℕ
  action : Action α
deriving DecidableEq

/-- How commands move the query `Q` of a window. -/
structure Navigation (κ Q α : Type) where
  latest : Q → Q
  navigate : α → Snapshot κ → Q → Except ConversationWindowError Q
  retainAnchor : Q → Snapshot κ → Q

inductive Source where
  | avatars
  | events
  | profiles
  | presentation
  | drafts
deriving DecidableEq

instance : Fintype Source where
  elems := {.avatars, .events, .profiles, .presentation, .drafts}
  complete source := by cases source <;> decide

/-- `lagged` stands for events that were overwritten. -/
inductive Event where
  | invalidation
  | foreign
  | lagged
deriving DecidableEq, Repr

inductive Phase (Q α : Type) where
  | waiting
  | reading (command : Option (Command α)) (next : Q) (drainedAt : ℕ)
  | stopped
deriving DecidableEq

structure Window (κ Q α : Type) where
  position : Q
  current : Snapshot κ
  dirty : Bool
  authorityPending : Bool
  failed : Bool
  retryDelayed : Bool
  lastGoodPosition : Q
  workerUpdatesOpen : Bool
  deferredCommand : Option (Command α)
  published : Except ConversationWindowError (Snapshot κ)
  phase : Phase Q α
  store : ℕ
  queues : Source → List Event
  announced : List ℕ

/-- What ends the wait of the actor. -/
inductive Wake (α : Type) where
  | deferred
  | command (command : Command α)
  | sendUpdates
  | workerUpdates (closed : Bool)
  | timer
  | invalidated (source : Source)
deriving DecidableEq

inductive Move (κ α : Type) where
  | write
  | announce (source : Source) (version : ℕ)
  | announceForeign (source : Source)
  | overflow (source : Source)
  | stop
  | wake (wake : Wake α)
  | supersede (command : Command α)
  | answer (result : Except ConversationWindowError (Snapshot κ × Bool))
deriving DecidableEq

variable {κ Q α : Type}

/-! ### The loop -/

section Loop

variable (nav : Navigation κ Q α) (window : Window κ Q α)

def commandPosition (command : Command α) (current : Snapshot κ) (position : Q) :
    Except ConversationWindowError Q :=
  if command.revision ≠ current.sequence then .error .staleWindow
  else
    match command.action with
    | .latest => .ok (nav.latest position)
    | .navigate action => nav.navigate action current position

def drainLimit : ℕ := 1024

def drain : Window κ Q α :=
  { window with queues := fun source =>
      (window.queues source).drop (min (window.queues source).length drainLimit) }

variable (command : Option (Command α))

/-- Up to the read.  A command that does not apply is answered, and nothing is drained. -/
def beginRead : Window κ Q α :=
  match command.elim (.ok window.position)
      (commandPosition nav · window.current window.position) with
  | .error _ => window
  | .ok next => { drain window with phase := .reading command next window.store }

/-- Followed by a turn of the loop with the timer on, if the window is dirty. -/
def receive (source : Source) : Window κ Q α :=
  match window.queues source with
  | [] => window
  | event :: rest =>
    { window with
      queues := Function.update window.queues source rest
      dirty := window.dirty || event ≠ .foreign }

def awake : Wake α → Window κ Q α
  | .deferred => beginRead nav { window with deferredCommand := none } window.deferredCommand
  | .command command => beginRead nav window (some command)
  | .sendUpdates | .workerUpdates false => { window with dirty := true }
  | .workerUpdates true => { window with workerUpdatesOpen := false }
  | .timer => beginRead nav window none
  | .invalidated source => receive window source

/-- A read that went through. -/
def replace [DecidableEq κ] (command : Option (Command α)) (next : Q) (replacement : Snapshot κ)
    (checkpoint : Bool) : Window κ Q α :=
  let changed := command.isSome || !decide (replacement.SameContent window.current)
  let sequence := if changed then window.current.sequence + 1 else window.current.sequence
  let current := { replacement with sequence := sequence }
  let position := nav.retainAnchor next current
  { window with
    position := position
    lastGoodPosition := position
    current := current
    published := if changed || window.failed then .ok current else window.published
    authorityPending := current.epoch.isNone
    -- A checkpoint is older than the drain.
    dirty := checkpoint
    failed := false
    retryDelayed := false
    phase := .waiting }

/-- What the receiver sees after a failure. -/
def report (error : ConversationWindowError) : Except ConversationWindowError (Snapshot κ) :=
  if error.terminal || (error ≠ .notReady && !window.failed && !error.isQuery) ||
      (error.isQuery && command.isNone) then .error error
  else window.published

/-- A read that failed. -/
def refuse (next : Q) (error : ConversationWindowError) : Window κ Q α :=
  let window := { window with published := report window command error }
  if error.terminal then { window with phase := .stopped }
  else if !error.isQuery then
    { window with
      position := next
      dirty := true
      failed := window.failed || error ≠ .notReady
      retryDelayed := true
      phase := .waiting }
  else if command.isNone then
    { window with
      position := window.lastGoodPosition
      dirty := true
      failed := true
      retryDelayed := true
      phase := .waiting }
  else { window with phase := .waiting }

/-- The oldest event of a full queue is overwritten. -/
def overwrite : List Event → List Event
  | [] => []
  | .lagged :: _ :: rest => .lagged :: rest
  | _ :: rest => .lagged :: rest

def enqueue (source : Source) (event : Event) : Window κ Q α :=
  { window with
    queues := Function.update window.queues source (window.queues source ++ [event]) }

end Loop

def step [DecidableEq κ] (nav : Navigation κ Q α) (window : Window κ Q α) :
    Move κ α → Window κ Q α
  | .write => { window with store := window.store + 1 }
  | .announce source version =>
    { enqueue window source .invalidation with announced := version :: window.announced }
  | .announceForeign source => enqueue window source .foreign
  | .overflow source =>
    { window with
      queues := Function.update window.queues source (overwrite (window.queues source)) }
  | .stop => { window with phase := .stopped }
  | .wake wake => awake nav window wake
  | .supersede command =>
    { window with deferredCommand := some command, dirty := true, phase := .waiting }
  | .answer result =>
    match window.phase with
    | .reading command next _ =>
      match result with
      | .ok (replacement, checkpoint) => replace nav window command next replacement checkpoint
      | .error error => refuse window command next error
    | .waiting | .stopped => window

/-! ### What can happen -/

/-- The branches of the `select` that are open. -/
def Wake.Open (window : Window κ Q α) : Wake α → Prop
  | .deferred => window.deferredCommand.isSome = true
  | .command _ | .sendUpdates => window.deferredCommand = none
  | .workerUpdates _ => window.deferredCommand = none ∧ window.workerUpdatesOpen = true
  | .timer =>
    window.deferredCommand = none ∧ (window.dirty = true ∨ window.authorityPending = true)
  | .invalidated source =>
    window.deferredCommand = none ∧ window.dirty = false ∧ window.queues source ≠ []

instance (window : Window κ Q α) (wake : Wake α) : Decidable (wake.Open window) := by
  cases wake <;> (simp only [Wake.Open]; infer_instance)

/-- A checkpoint may answer a background read, and the return to the tail. -/
def allowCheckpoint (command : Option (Command α)) : Bool :=
  command.all fun command => match command.action with
    | .latest => true
    | .navigate _ => false

/-- A read sees the store as it is after the drain, or is a checkpoint. -/
def Answers (window : Window κ Q α) (command : Option (Command α)) (drainedAt : ℕ) :
    Except ConversationWindowError (Snapshot κ × Bool) → Prop
  | .ok (replacement, checkpoint) => replacement.readAt ≤ window.store ∧
      if checkpoint then allowCheckpoint command = true else drainedAt ≤ replacement.readAt
  | .error _ => True

instance (window : Window κ Q α) (command : Option (Command α)) (drainedAt : ℕ)
    (result : Except ConversationWindowError (Snapshot κ × Bool)) :
    Decidable (Answers window command drainedAt result) := by
  rcases result with error | ⟨replacement, checkpoint⟩ <;> (simp only [Answers]; infer_instance)

def Possible (window : Window κ Q α) (move : Move κ α) : Prop :=
  match move, window.phase with
  | .write, _ | .announceForeign _, _ | .overflow _, _ | .stop, _ => True
  | .announce _ version, _ => version ≤ window.store
  | .wake wake, .waiting => wake.Open window
  | .supersede _, .reading none _ _ => True
  | .answer result, .reading command _ drainedAt => Answers window command drainedAt result
  | _, _ => False

/-- An event that the actor will act on is still queued. -/
def Queued (queues : Source → List Event) : Prop :=
  ∃ source, ∃ event ∈ queues source, event ≠ .foreign

/-- Every announced write is in what the version `seen` shows. -/
def Shows (window : Window κ Q α) (seen : ℕ) : Prop := ∀ version ∈ window.announced, version ≤ seen

instance (queues : Source → List Event) : Decidable (Queued queues) :=
  inferInstanceAs (Decidable (∃ _, _))

instance (window : Window κ Q α) (seen : ℕ) : Decidable (Shows window seen) :=
  inferInstanceAs (Decidable (∀ _ ∈ _, _))

/-- A command is refused because its message is not there, an announced write is not shown, and
nothing else asks for a read. -/
def Forgets (window : Window κ Q α) (move : Move κ α) : Prop :=
  match move, window.phase with
  | .answer (.error (.query .messageNotFound)), .reading (some _) _ _ =>
    window.dirty = false ∧ ¬Queued window.queues ∧ ¬Shows window window.current.readAt
  | _, _ => False

instance (window : Window κ Q α) (move : Move κ α) : Decidable (Possible window move) := by
  unfold Possible
  split <;> infer_instance

instance (window : Window κ Q α) (move : Move κ α) : Decidable (Forgets window move) := by
  unfold Forgets
  split <;> infer_instance

/-- The window as it is opened: what was read locally is still to be enriched. -/
def opened (position : Q) (snapshot : Snapshot κ) (store : ℕ) : Window κ Q α where
  position := position
  current := snapshot
  dirty := true
  authorityPending := false
  failed := false
  retryDelayed := false
  lastGoodPosition := position
  workerUpdatesOpen := true
  deferredCommand := none
  published := .ok snapshot
  phase := .waiting
  store := store
  queues := fun _ => []
  announced := []

/-- The window after a run. -/
def after [DecidableEq κ] (nav : Navigation κ Q α) (start : Window κ Q α)
    (moves : List (Move κ α)) : Window κ Q α := moves.foldl (step nav) start

/-! ### What holds between two turns -/

structure Current (window : Window κ Q α) : Prop where
  stored : Shows window window.store
  waiting : window.phase = .waiting →
    window.dirty = true ∨ Queued window.queues ∨ Shows window window.current.readAt
  reading : ∀ {command next drainedAt}, window.phase = .reading command next drainedAt →
    Queued window.queues ∨ Shows window drainedAt
  published : window.phase ≠ .stopped → (window.failed = true ∧ window.dirty = true) ∨
    ∃ snapshot, window.published = .ok snapshot ∧ snapshot.SameContent window.current

section Turns

variable {nav : Navigation κ Q α} {window : Window κ Q α}

theorem Queued.update {queues : Source → List Event} (h : Queued queues) {source : Source}
    {events : List Event}
    (hevents : (∃ event ∈ queues source, event ≠ .foreign) → ∃ event ∈ events, event ≠ .foreign) :
    Queued (Function.update queues source events) := by
  obtain ⟨source', hsource'⟩ := h
  by_cases heq : source' = source
  · subst heq
    exact ⟨source', by simpa only [Function.update_self] using hevents hsource'⟩
  · exact ⟨source', by simpa only [Function.update_of_ne heq] using hsource'⟩

theorem exists_mem_overwrite {events : List Event} (h : ∃ event ∈ events, event ≠ .foreign) :
    ∃ event ∈ overwrite events, event ≠ .foreign := by
  cases events with
  | nil => exact h
  | cons event rest =>
    -- What is lost is remembered at the head.
    refine ⟨.lagged, ?_, by decide⟩
    unfold overwrite
    split <;> simp_all

/-- A change of the queues that loses nothing, and perhaps announces a write. -/
theorem Current.queues (h : Current window) {queues : Source → List Event}
    (hqueues : Queued window.queues → Queued queues) {announced : List ℕ}
    (hannounced : announced = window.announced ∨
      ∃ version ≤ window.store, announced = version :: window.announced ∧ Queued queues) :
    Current { window with queues := queues, announced := announced } := by
  rcases hannounced with rfl | ⟨version, hversion, rfl, hqueued⟩
  · refine ⟨h.stored, fun hphase => ?_, fun hphase => ?_, h.published⟩
    · exact (h.waiting hphase).imp_right (Or.imp_left hqueues)
    · exact (h.reading hphase).imp_left hqueues
  · refine ⟨fun other hother => ?_, fun _ => .inr (.inl hqueued), fun _ => .inl hqueued,
      h.published⟩
    rcases List.mem_cons.mp hother with rfl | hother
    · exact hversion
    · exact h.stored other hother

theorem Current.enqueue_foreign (h : Current window) (source : Source) :
    Current (enqueue window source .foreign) :=
  h.queues (fun hqueued => hqueued.update fun ⟨event, hevent, hne⟩ =>
    ⟨event, List.mem_append_left _ hevent, hne⟩) (.inl rfl)

theorem Current.announce (h : Current window) (source : Source) {version : ℕ}
    (hversion : version ≤ window.store) :
    Current { enqueue window source .invalidation with
      announced := version :: window.announced } := by
  have hqueued : Queued (enqueue window source .invalidation).queues :=
    ⟨source, .invalidation, by simp [enqueue], by decide⟩
  exact h.queues (fun _ => hqueued) (.inr ⟨version, hversion, rfl, hqueued⟩)

theorem Current.receive (h : Current window) (source : Source) (hphase : window.phase = .waiting)
    (hdirty : window.dirty = false) : Current (receive window source) := by
  unfold ConversationWindow.receive
  cases hqueue : window.queues source with
  | nil => exact h
  | cons event rest =>
    refine ⟨h.stored, fun _ => ?_, fun hreading => ?_, fun hrunning => ?_⟩
    · show (window.dirty || event ≠ .foreign) = true ∨
        Queued (Function.update window.queues source rest) ∨ _
      by_cases hforeign : event = .foreign
      · -- Only an event about something else is passed over.
        rcases h.waiting hphase with hdirty' | hqueued | hshows
        · exact .inl (by rw [hdirty', Bool.true_or])
        · refine .inr (.inl (hqueued.update fun ⟨event', hevent', hne⟩ => ⟨event', ?_, hne⟩))
          rw [hqueue, List.mem_cons] at hevent'
          exact hevent'.resolve_left fun heq => hne (heq.trans hforeign)
        · exact .inr (.inr hshows)
      · exact .inl (by simp [hforeign])
    · cases hphase.symm.trans hreading
    · rcases h.published hrunning with ⟨_, hdirty'⟩ | hpublished
      · cases hdirty.symm.trans hdirty'
      · exact .inr hpublished

/-- A read begins where everything that was announced is in the store. -/
theorem Current.beginRead (h : Current window) (hphase : window.phase = .waiting)
    (command deferred : Option (Command α)) :
    Current (beginRead nav { window with deferredCommand := deferred } command) := by
  have hrunning : window.phase ≠ .stopped := by simp [hphase]
  unfold ConversationWindow.beginRead
  split
  · exact ⟨h.stored, h.waiting, h.reading, h.published⟩
  · refine ⟨h.stored, nofun, fun heq => ?_, fun _ => h.published hrunning⟩
    cases heq
    exact .inr h.stored

theorem Current.awake (h : Current window) (hphase : window.phase = .waiting) {wake : Wake α}
    (hopen : wake.Open window) : Current (awake nav window wake) := by
  have hrunning : window.phase ≠ .stopped := by simp [hphase]
  have hdirty : Current { window with dirty := true } :=
    ⟨h.stored, fun _ => .inl rfl, h.reading, fun _ =>
      (h.published hrunning).imp_left fun hfailed => ⟨hfailed.1, rfl⟩⟩
  cases wake with
  | deferred => exact h.beginRead hphase window.deferredCommand none
  | command command => exact h.beginRead hphase (some command) window.deferredCommand
  | sendUpdates => exact hdirty
  | workerUpdates closed =>
    cases closed with
    | false => exact hdirty
    | true => exact ⟨h.stored, h.waiting, h.reading, h.published⟩
  | timer =>
    show Current (ConversationWindow.beginRead nav window none)
    exact h.beginRead hphase none window.deferredCommand
  | invalidated source => exact h.receive source hphase hopen.2.1

section Answers

variable {command : Option (Command α)} {next : Q} {drainedAt : ℕ}

theorem Current.replace [DecidableEq κ] (h : Current window)
    (hphase : window.phase = .reading command next drainedAt) {replacement : Snapshot κ}
    {checkpoint : Bool}
    (hanswers : Answers window command drainedAt (.ok (replacement, checkpoint))) :
    Current (replace nav window command next replacement checkpoint) := by
  have hrunning : window.phase ≠ .stopped := by simp [hphase]
  refine ⟨h.stored, fun _ => ?_, nofun, fun _ => .inr ?_⟩
  · cases checkpoint with
    | true => exact .inl rfl
    | false =>
      refine .inr ((h.reading hphase).imp_right fun hshows version hversion => ?_)
      exact (hshows version hversion).trans hanswers.2
  · unfold ConversationWindow.replace
    dsimp only
    split
    · exact ⟨_, rfl, rfl, rfl⟩
    · rename_i hsame
      rw [Bool.not_eq_true, Bool.or_eq_false_iff, Bool.or_eq_false_iff, Bool.not_eq_false',
        decide_eq_true_eq] at hsame
      obtain ⟨⟨_, hcontent⟩, hfailed⟩ := hsame
      -- What is shown stays, because it would be shown again.
      rcases h.published hrunning with ⟨hfailed', _⟩ | ⟨snapshot, hpublished, hshown⟩
      · cases hfailed.symm.trans hfailed'
      · exact ⟨snapshot, hpublished, hshown.1.trans hcontent.1.symm,
          hshown.2.trans hcontent.2.symm⟩

theorem Current.refuse (h : Current window)
    (hphase : window.phase = .reading command next drainedAt) {error : ConversationWindowError}
    (hremembers : command.isSome = true → error = .query .messageNotFound →
      window.dirty = true ∨ Queued window.queues ∨ Shows window window.current.readAt) :
    Current (refuse window command next error) := by
  have hrunning : window.phase ≠ .stopped := by simp [hphase]
  unfold ConversationWindow.refuse
  dsimp only
  split
  · exact ⟨h.stored, nofun, nofun, fun hne => absurd rfl hne⟩
  rename_i hterminal
  split
  · rename_i hquery
    refine ⟨h.stored, fun _ => .inl rfl, nofun, fun _ => ?_⟩
    -- An error that is reported is remembered until a read goes through.
    rcases h.published hrunning with ⟨hfailed, _⟩ | hpublished
    · exact .inl ⟨by rw [hfailed, Bool.true_or], rfl⟩
    · by_cases hready : error = .notReady
      · refine .inr ?_
        simpa [report, hready, terminal, isQuery] using hpublished
      · exact .inl ⟨by simp [hready], rfl⟩
  rename_i hquery
  split
  · exact ⟨h.stored, fun _ => .inl rfl, nofun, fun _ => .inl ⟨rfl, rfl⟩⟩
  · rename_i hcommand
    have hmissing : error = .query .messageNotFound := by
      cases error <;> simp_all [terminal, isQuery]
    have hread := hremembers (by simpa [Option.isSome_iff_ne_none] using hcommand) hmissing
    refine ⟨h.stored, fun _ => hread, nofun, fun _ => ?_⟩
    refine (h.published hrunning).imp_right fun hpublished => ?_
    simpa [report, hmissing, terminal, isQuery, hcommand] using hpublished

end Answers

/-- **One turn.** -/
theorem Current.step [DecidableEq κ] (h : Current window) {move : Move κ α}
    (hmove : Possible window move ∧ ¬ Forgets window move) : Current (step nav window move) := by
  obtain ⟨hpossible, hforgets⟩ := hmove
  cases move with
  | write =>
    exact ⟨fun version hversion => (h.stored version hversion).trans (Nat.le_succ _), h.waiting,
      h.reading, h.published⟩
  | announce source version => exact h.announce source (by simpa [Possible] using hpossible)
  | announceForeign source => exact h.enqueue_foreign source
  | overflow source =>
    exact h.queues (fun hqueued => hqueued.update exists_mem_overwrite) (.inl rfl)
  | stop =>
    exact ⟨h.stored, nofun, nofun, fun hne => absurd rfl hne⟩
  | wake wake =>
    cases hphase : window.phase with
    | waiting => exact h.awake hphase (by simpa [Possible, hphase] using hpossible)
    | reading command next drainedAt => simp [Possible, hphase] at hpossible
    | stopped => simp [Possible, hphase] at hpossible
  | supersede command =>
    cases hphase : window.phase with
    | waiting => simp [Possible, hphase] at hpossible
    | reading command' next drainedAt =>
      refine ⟨h.stored, fun _ => .inl rfl, nofun, fun _ => ?_⟩
      exact (h.published (by simp [hphase])).imp_left fun hfailed => ⟨hfailed.1, rfl⟩
    | stopped => simp [Possible, hphase] at hpossible
  | answer result =>
    cases hphase : window.phase with
    | waiting => simp [Possible, hphase] at hpossible
    | reading command next drainedAt =>
      simp only [Possible, hphase] at hpossible
      simp only [ConversationWindow.step, hphase]
      rcases result with error | ⟨replacement, checkpoint⟩
      · refine h.refuse hphase fun hcommand herror => ?_
        obtain ⟨command, rfl⟩ := Option.isSome_iff_exists.mp hcommand
        subst herror
        simp only [Forgets, hphase, not_and_or, not_not, Bool.not_eq_false] at hforgets
        exact hforgets
      · exact h.replace hphase hpossible
    | stopped => simp [Possible, hphase] at hpossible

end Turns

/-- The actor waits and has nothing left to do. -/
structure Quiet (window : Window κ Q α) : Prop where
  phase : window.phase = .waiting
  dirty : window.dirty = false
  authorityPending : window.authorityPending = false
  deferredCommand : window.deferredCommand = none
  queues : ∀ source, window.queues source = []

/-- **A quiet window is current.**  Whatever the order of writes, announcements, commands, reads
and failures, a window that has nothing left to do shows what a read past every announced write
shows. -/
theorem quiet_window_is_current [DecidableEq κ] {nav : Navigation κ Q α} {position : Q}
    {snapshot : Snapshot κ} {store : ℕ} {moves : List (Move κ α)} {window : Window κ Q α}
    (hrun : Runs.Guarded (step nav) (fun window move => Possible window move ∧
      ¬ Forgets window move) (opened position snapshot store) moves)
    (hwindow : window = after nav (opened position snapshot store) moves) (hquiet : Quiet window) :
    ∃ shown, window.published = .ok shown ∧ shown.SameContent window.current ∧
      ∀ version ∈ window.announced, version ≤ window.current.readAt := by
  have hopened : Current (opened position snapshot store : Window κ Q α) :=
    ⟨nofun, fun _ => .inl rfl, nofun, fun _ => .inr ⟨snapshot, rfl, rfl, rfl⟩⟩
  have hcurrent : Current window :=
    hwindow ▸ hrun.invariant (fun window move h hmove => h.step hmove) hopened
  have hshown : ∃ shown, window.published = .ok shown ∧ shown.SameContent window.current := by
    refine (hcurrent.published (by simp [hquiet.phase])).resolve_left fun hfailed => ?_
    cases hquiet.dirty.symm.trans hfailed.2
  have hshows : Shows window window.current.readAt := by
    rcases hcurrent.waiting hquiet.phase with hdirty | ⟨source, event, hevent, _⟩ | hshows
    · cases hquiet.dirty.symm.trans hdirty
    · rw [hquiet.queues source] at hevent
      cases hevent
    · exact hshows
  obtain ⟨shown, hpublished, hcontent⟩ := hshown
  exact ⟨shown, hpublished, hcontent, hshows⟩

namespace Sample

/-- A window over one number, in which a jump goes nowhere. -/
def nav : Navigation ℕ Unit Unit where
  latest position := position
  navigate _ _ position := .ok position
  retainAnchor position _ := position

def window : Window ℕ Unit Unit := opened () ⟨0, none, 0, 0⟩ 0

/-- The first read, then a write that is announced. -/
def written : List (Move ℕ Unit) :=
  [.wake .timer, .answer (.ok (⟨0, some 1, 0, 0⟩, false)), .write, .announce .events 1]

/-- The announcement is taken and the store is read again. -/
def reread : List (Move ℕ Unit) :=
  written ++ [.wake (.invalidated .events), .wake .timer, .answer (.ok (⟨0, some 1, 5, 1⟩, false))]

/-- A jump to a message that is gone comes first. -/
def jumped : List (Move ℕ Unit) :=
  written ++ [.wake (.command ⟨1, .navigate ()⟩), .answer (.error (.query .messageNotFound))]

theorem reread_is_current :
    ((after nav window reread).published = .ok ⟨2, some 1, 5, 1⟩ ∧
      1 ∈ (after nav window reread).announced) ∧
    ∃ shown, (after nav window reread).published = .ok shown ∧
      shown.SameContent (after nav window reread).current ∧
      ∀ version ∈ (after nav window reread).announced,
        version ≤ (after nav window reread).current.readAt := by
  have hrun : Runs.Guarded (step nav) (fun window move => Possible window move ∧
      ¬ Forgets window move) window reread := by decide
  refine ⟨⟨rfl, by decide⟩, quiet_window_is_current hrun rfl ⟨rfl, rfl, rfl, rfl, ?_⟩⟩
  intro source
  cases source <;> rfl

theorem refused_jump_forgets :
    Runs.Guarded (step nav) Possible window jumped ∧ Quiet (after nav window jumped) ∧
      1 ∈ (after nav window jumped).announced ∧
        (after nav window jumped).published = .ok ⟨1, some 1, 0, 0⟩ ∧
          (after nav window jumped).current.readAt = 0 := by
  refine ⟨by decide, ⟨rfl, rfl, rfl, rfl, fun source => ?_⟩, by decide, rfl, rfl⟩
  cases source <;> rfl

end Sample

end ConversationWindow

end Mdk

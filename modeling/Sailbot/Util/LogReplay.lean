import Sailbot.Lib.Transition
import Sailbot.Lib.Fp
import Sailbot.Util.LogReader

/-!
# Replaying a log

The loop of `LogReplay::Run` (`util/log-replay.cc`) sends the entries of a log to queues. It
keeps the name of the queue and the time of the message from one entry to the next, and
opens queues when it first needs them. Entries can be moved to another field by a rename map,
and an old kind of entry is brought up to date by `HandleOldPos` (`util/log_deprecation.cc`).

What an entry holds beside the positions of a `BoatState` is left open, and so is the number
of bytes that an entry is serialised to. The buffer is kept as the entry that it parses to.

* `LogReplay.step`          — one entry; `none` when the process is aborted.
* `LogReplay.Routed`        — the entry goes where its own field says.
* `LogReplay.stepRouted_iff`, `LogReplay.routed_iff` — when that is so, for one entry and for
  a whole log.
-/

namespace Sailbot.Util

open Lib

-- ---------------------------------------------------------------------------
-- Log entries
-- ---------------------------------------------------------------------------

/-- The types of the messages in `LogEntry` (`util/msg.proto`). -/
inductive MsgType
  | boatState | sailCmd | rudderCmd | vector3f | headingCmd | waypointList | ballastCmd
  | rigidWingCmd | rigidWingFeedback | connectionStatus | controlMode | tackerState
  | challengeControl | visionData | obstacles | heelCmd | searchState | tackerConstants
  | controllerConstants | zeroingConstants | pingMsg | pongMsg | queueTestMsg | simDebugMsg
  | internalBoatState | sbus | canMaster
  deriving DecidableEq

/-- The fields of `LogEntry`, without the time. -/
inductive LogField
  | boatState | sailCmd | rudderCmd | wind | headingCmd | waypoints | ballastCmd | rigidWingCmd
  | rigidWingFeedback | connectionStatus | controlMode | trueWind | manualSailCmd
  | manualRudderCmd | tackerState | challengeControl | visionData | manualBallastCmd
  | plannerPoints | plannerObstacles | heelCmd | searchState
  | tackerConsts | controlConsts | zeroingConsts
  | ping | pong | testQueue
  | simDebug | internalState | simTrueBoatState | simTrueWind | simSetWind
  | origBoatState | origHeadingCmd
  | sbusValue
  | can126992 | can127250 | can127251 | can127257 | can129025 | can129026 | can129029
  | can129033 | can129539 | can130306 | can65281 | can65282 | can65283 | can65284 | can65285
  | can65296 | can65297 | can65312
  deriving DecidableEq

def LogField.type : LogField → MsgType
  | boatState | simTrueBoatState | origBoatState => .boatState
  | sailCmd | manualSailCmd => .sailCmd
  | rudderCmd | manualRudderCmd => .rudderCmd
  | wind | trueWind | simTrueWind | simSetWind => .vector3f
  | headingCmd | origHeadingCmd => .headingCmd
  | waypoints | plannerPoints => .waypointList
  | ballastCmd | manualBallastCmd => .ballastCmd
  | rigidWingCmd => .rigidWingCmd
  | rigidWingFeedback => .rigidWingFeedback
  | connectionStatus => .connectionStatus
  | controlMode => .controlMode
  | tackerState => .tackerState
  | challengeControl => .challengeControl
  | visionData => .visionData
  | plannerObstacles => .obstacles
  | heelCmd => .heelCmd
  | searchState => .searchState
  | tackerConsts => .tackerConstants
  | controlConsts => .controllerConstants
  | zeroingConsts => .zeroingConstants
  | ping => .pingMsg
  | pong => .pongMsg
  | testQueue => .queueTestMsg
  | simDebug => .simDebugMsg
  | internalState => .internalBoatState
  | sbusValue => .sbus
  | can126992 | can127250 | can127251 | can127257 | can129025 | can129026 | can129029
  | can129033 | can129539 | can130306 | can65281 | can65282 | can65283 | can65284 | can65285
  | can65296 | can65297 | can65312 => .canMaster

/-- A string in the rename map: the name of a field, that of the time, or anything else. -/
inductive QueueName
  | field (f : LogField)
  | time
  | other (name : String)
  deriving DecidableEq

/-- The empty string. -/
def QueueName.empty : QueueName := .other ""

structure Vector3 where
  x : Fp := .num 0
  y : Fp := .num 0
  z : Fp := .num 0
  deriving DecidableEq

/-- A message: the positions of a `BoatState`, and everything else. -/
structure Content (δ : Type) where
  pos      : Option Vector3 := none
  posFloat : Option Vector3 := none
  data     : δ
  deriving DecidableEq

structure LogEntry (δ : Type) where
  /-- Seconds and nanoseconds. -/
  time : Option (Int × Int) := none
  msg  : Option (LogField × Content δ) := none
  deriving DecidableEq

/-- The position of an old `BoatState`, which has only `pos_float`. -/
def Content.oldPos {δ : Type} (c : Content δ) : Option Vector3 :=
  if c.pos.isNone then c.posFloat else none

-- ---------------------------------------------------------------------------
-- The loop
-- ---------------------------------------------------------------------------

structure ReplayConfig (δ : Type) where
  rename            : QueueName → Option QueueName
  defaultIgnore     : Bool
  handleDeprecation : Bool := true
  startLogReplay    : Fp := .num 0
  double            : Rounding
  byteSize          : LogEntry δ → Nat

/-- The variables of `Run`. -/
structure LogReplay (δ : Type) where
  /-- None stands for the empty string. -/
  queueName : Option LogField := none
  msgTime   : Int
  /-- The queues that were opened, or looked for and not found. -/
  queues    : LogField → Option (Option QueueName) := fun _ => none
  sent      : List (QueueName × LogEntry δ) := []

namespace LogReplay

variable {δ : Type} (cfg : ReplayConfig δ)

/-- `HandleOldPos`: the entry, and the entry in the buffer, which stays as it was when the
new one has become too long. -/
def handleOldPos (entry : LogEntry δ) : LogEntry δ × LogEntry δ :=
  match entry.msg with
  | some (.boatState, c) =>
    match c.oldPos with
    | some p =>
      let entry' := { entry with msg := some (.boatState, { c with pos := some p }) }
      if cfg.byteSize entry' > maxBuf then (entry', entry) else (entry', entry')
    | none => (entry, entry)
  | _ => (entry, entry)

/-- The handler of a queue, if it has one. -/
def queueProcess (entry : LogEntry δ) : LogEntry δ × LogEntry δ :=
  if cfg.handleDeprecation then handleOldPos cfg entry else (entry, entry)

/-- The queue for a field; the empty name for none. -/
def qname (f : LogField) : QueueName :=
  (cfg.rename (.field f)).getD (if cfg.defaultIgnore then .empty else .field f)

/-- Opens the queue for a field, if there is to be one and it is not known yet. -/
def openQueue (queues : LogField → Option (Option QueueName)) (f : LogField) :
    LogField → Option (Option QueueName) :=
  match queues f with
  | some _ => queues
  | none =>
    if qname cfg f = .empty then queues else Function.update queues f (some (some (qname cfg f)))

/-- The body of the loop over the fields. -/
def readFields (s : LogReplay δ) (entry : LogEntry δ) : LogReplay δ :=
  let s := { s with msgTime := entry.time.elim s.msgTime fun t => t.1 * 1000000000 + t.2 }
  match entry.msg with
  | none => s
  | some (f, _) => { s with queueName := some f, queues := openQueue cfg s.queues f }

/-- The message is from before the time at which the replay is to start. -/
def skipped (msgTime : Int) : Bool :=
  (Fp.div cfg.double (.ofInt cfg.double msgTime) (.num 1000000000)).lt cfg.startLogReplay

/-- `queue_name` as a string. -/
def nameOf (queueName : Option LogField) : QueueName := queueName.elim .empty .field

/-- The part of the loop that moves the content of a field to another one. A name that is not
a field is fatal, and so is a field of another type; an entry that has become too long for
the buffer makes the send fail. -/
def moveField [Inhabited δ] (queueName : Option LogField) (entry buffer : LogEntry δ) :
    Option (LogEntry δ) :=
  match cfg.rename (nameOf queueName) with
  | none => some buffer
  | some new =>
    if new = nameOf queueName then some buffer
    else
      match new, queueName with
      | .field g, some f =>
        if g.type = f.type then
          -- a field that is not set reads as the default message
          let moved := { entry with msg := some (g, entry.msg.elim ⟨none, none, default⟩ (·.2)) }
          if cfg.byteSize moved ≤ maxBuf then some moved else none
        else none
      | _, _ => none

/-- `queues_[queue_name]->send` if there is a queue; looking for it leaves a null pointer. -/
def send (s : LogReplay δ) (buffer : LogEntry δ) : LogReplay δ :=
  match s.queueName with
  | none => s
  | some f =>
    match s.queues f with
    | some (some q) => { s with sent := s.sent ++ [(q, buffer)] }
    | some none => s
    | none => { s with queues := Function.update s.queues f (some none) }

def step [Inhabited δ] (s : LogReplay δ) (entry : LogEntry δ) : Option (LogReplay δ) :=
  let processed := queueProcess cfg entry
  let s := readFields cfg s processed.1
  if skipped cfg s.msgTime then some s
  else (moveField cfg s.queueName processed.1 processed.2).map s.send

-- ---------------------------------------------------------------------------
-- Routing
-- ---------------------------------------------------------------------------

/-- The content is that of the field, with its position brought up to date or not. -/
def Carried (f : LogField) (c c' : Content δ) : Prop :=
  c' = c ∨ ∃ p, cfg.handleDeprecation = true ∧ f = .boatState ∧ c.oldPos = some p ∧
    c' = { c with pos := some p }

/-- An entry goes to the queue for its own field, with its content in the field of that name,
or nowhere if it has no message or there is no queue for it. -/
def Routed (entry : LogEntry δ) (new : List (QueueName × LogEntry δ)) : Prop :=
  match entry.msg with
  | none => new = []
  | some (f, c) =>
    if qname cfg f = .empty then new = []
    else ∃ g c', qname cfg f = .field g ∧ Carried cfg f c c' ∧
      new = [(.field g, { entry with msg := some (g, c') })]

/-- The entry is processed, and what is sent is what `Routed` says. -/
def StepRouted [Inhabited δ] (s : LogReplay δ) (entry : LogEntry δ) : Prop :=
  ∃ s' new, step cfg s entry = some s' ∧ s'.sent = s.sent ++ new ∧ Routed cfg entry new

/-- The entry after its handler, with the content in another field. -/
def moved (entry : LogEntry δ) (g : LogField) : LogEntry δ :=
  { entry with msg := (queueProcess cfg entry).1.msg.map fun m => (g, m.2) }

/-- An entry without a message comes where the name of the queue is not renamed and has no
queue, or is skipped. An entry with one is not skipped, and its field is not renamed or is
renamed to one of the same type and fits; or it is ignored by default. -/
def Plain (s : LogReplay δ) (entry : LogEntry δ) : Prop :=
  let skip := skipped cfg (entry.time.elim s.msgTime fun t => t.1 * 1000000000 + t.2)
  match entry.msg with
  | none =>
    skip = true ∨
      (cfg.rename (nameOf s.queueName)).getD (nameOf s.queueName) = nameOf s.queueName ∧
        ∀ f, s.queueName = some f → qname cfg f = .empty
  | some (f, _) =>
    if qname cfg f = .empty then skip = true ∨ cfg.rename (.field f) ≠ some .empty
    else skip = false ∧ ∃ g, qname cfg f = .field g ∧
      (g = f ∨ g.type = f.type ∧ cfg.byteSize (moved cfg entry g) ≤ maxBuf)

section Steps

variable {cfg} {s s' : LogReplay δ} {entry buffer : LogEntry δ} {f g : LogField} {c : Content δ}
  {q : QueueName}

/-- An entry without a message has no handler. -/
theorem queueProcess_none (cfg : ReplayConfig δ) (h : entry.msg = none) :
    queueProcess cfg entry = (entry, entry) := by
  simp [queueProcess, handleOldPos, h]

/-- A handler changes the content only, and keeps it in its field. -/
theorem queueProcess_some (cfg : ReplayConfig δ) (h : entry.msg = some (f, c)) :
    ∃ c₁ c₂, queueProcess cfg entry =
      ({ entry with msg := some (f, c₁) }, { entry with msg := some (f, c₂) }) ∧
      Carried cfg f c c₁ ∧ Carried cfg f c c₂ := by
  have hSame : entry = { entry with msg := some (f, c) } := by rw [← h]
  have hSelf : Carried cfg f c c := .inl rfl
  by_cases hDeprecation : cfg.handleDeprecation = true
  · by_cases hf : f = .boatState
    · subst hf
      cases hPos : c.oldPos with
      | none =>
        refine ⟨c, c, ?_, hSelf, hSelf⟩
        rw [queueProcess, if_pos hDeprecation, handleOldPos, h]
        simp only [hPos]
        rw [← hSame]
      | some p =>
        have hNew : Carried cfg .boatState c { c with pos := some p } :=
          .inr ⟨p, hDeprecation, rfl, hPos, rfl⟩
        rw [queueProcess, if_pos hDeprecation, handleOldPos, h]
        simp only [hPos]
        split
        · exact ⟨_, c, by rw [← hSame], hNew, hSelf⟩
        · exact ⟨_, _, rfl, hNew, hNew⟩
    · refine ⟨c, c, ?_, hSelf, hSelf⟩
      rw [queueProcess, if_pos hDeprecation, handleOldPos, h]
      cases f <;> first | exact absurd rfl hf | (rw [← hSame])
  · refine ⟨c, c, ?_, hSelf, hSelf⟩
    rw [queueProcess, if_neg hDeprecation, ← hSame]

/-- Queues that are open are those that the map names, and the one for the current name is
open if there is to be one. -/
structure Inv (cfg : ReplayConfig δ) (s : LogReplay δ) : Prop where
  queues  : ∀ f q, s.queues f = some (some q) → q = qname cfg f ∧ qname cfg f ≠ .empty
  missing : ∀ f, s.queues f = some none → qname cfg f = .empty
  current : ∀ f, s.queueName = some f → qname cfg f ≠ .empty →
    s.queues f = some (some (qname cfg f))

/-- At the start no queue is open. -/
theorem inv_init (msgTime : Int) : Inv cfg ({ msgTime := msgTime } : LogReplay δ) where
  queues f q h := by cases h
  missing f h := by cases h
  current f h := by cases h

/-- What holds of the queue for every field holds after one more was opened. -/
theorem Inv.openQueue (h : Inv cfg s) (f : LogField) (msgTime : Int) :
    Inv cfg { s with
      msgTime := msgTime
      queueName := some f
      queues := openQueue cfg s.queues f } := by
  cases hf : s.queues f with
  | some q =>
    have hSame : LogReplay.openQueue cfg s.queues f = s.queues := by
      rw [LogReplay.openQueue, hf]
    rw [hSame]
    refine ⟨h.queues, h.missing, ?_⟩
    intro g hg hNonempty
    obtain rfl : f = g := Option.some.inj hg
    cases q with
    | none => exact absurd (h.missing f hf) hNonempty
    | some q => rw [hf, (h.queues f q hf).1]
  | none =>
    by_cases hEmpty : qname cfg f = .empty
    · -- nothing is opened for a field without a queue
      have hSame : LogReplay.openQueue cfg s.queues f = s.queues := by
        rw [LogReplay.openQueue, hf]
        exact if_pos hEmpty
      rw [hSame]
      refine ⟨h.queues, h.missing, ?_⟩
      intro g hg hNonempty
      obtain rfl : f = g := Option.some.inj hg
      exact absurd hEmpty hNonempty
    · have hNew : LogReplay.openQueue cfg s.queues f =
          Function.update s.queues f (some (some (qname cfg f))) := by
        rw [LogReplay.openQueue, hf]
        exact if_neg hEmpty
      rw [hNew]
      refine ⟨?_, ?_, ?_⟩
      · intro g q hq
        by_cases hgf : g = f
        · subst hgf
          simp only [Function.update_self, Option.some.injEq] at hq
          exact ⟨hq.symm, hEmpty⟩
        · exact h.queues g q (by simpa [hgf] using hq)
      · intro g hg
        by_cases hgf : g = f
        · simp [hgf] at hg
        · exact h.missing g (by simpa [hgf] using hg)
      · intro g hg _
        obtain rfl : f = g := Option.some.inj hg
        simp

/-- The loop over the fields opens the queue for the name that it leaves. -/
theorem Inv.readFields (h : Inv cfg s) : Inv cfg (readFields cfg s entry) := by
  rw [LogReplay.readFields]
  split
  · exact ⟨h.queues, h.missing, h.current⟩
  · exact h.openQueue _ _

/-- Sending leaves the queues that are open; it adds at most a null pointer. -/
theorem Inv.send (h : Inv cfg s) : Inv cfg (s.send buffer) := by
  rw [LogReplay.send]
  split
  · exact h
  · next f hf =>
    split
    · exact ⟨h.queues, h.missing, h.current⟩
    · exact h
    · next hNone =>
      have hEmpty : qname cfg f = .empty := by
        by_contra hNonempty
        rw [h.current f hf hNonempty] at hNone
        cases hNone
      refine ⟨?_, ?_, ?_⟩
      · intro g q hq
        by_cases hgf : g = f
        · simp [hgf] at hq
        · exact h.queues g q (by simpa [hgf] using hq)
      · intro g hg
        by_cases hgf : g = f
        · rw [hgf, hEmpty]
        · exact h.missing g (by simpa [hgf] using hg)
      · intro g hg hNonempty
        obtain rfl : f = g := Option.some.inj (hf.symm.trans hg)
        exact absurd hEmpty hNonempty

/-- Every entry keeps the queues as the map names them. -/
theorem step_inv [Inhabited δ] (h : Inv cfg s) (hstep : step cfg s entry = some s') :
    Inv cfg s' := by
  simp only [step] at hstep
  split at hstep
  · rw [← Option.some.inj hstep]
    exact h.readFields
  · obtain ⟨buffer, -, rfl⟩ := Option.map_eq_some_iff.mp hstep
    exact h.readFields.send

-- ---------------------------------------------------------------------------
-- What is sent
-- ---------------------------------------------------------------------------

/-- Where there is a queue for the name, the buffer is sent to it. -/
theorem sent_send_of_queue (hName : s.queueName = some f) (hQueue : s.queues f = some (some q))
    (buffer : LogEntry δ) : (s.send buffer).sent = s.sent ++ [(q, buffer)] := by
  simp [LogReplay.send, hName, hQueue]

/-- Where there is to be no queue for the name, nothing is sent. -/
theorem Inv.sent_send_of_empty (h : Inv cfg s)
    (hEmpty : ∀ f, s.queueName = some f → qname cfg f = .empty) :
    (s.send buffer).sent = s.sent := by
  rw [LogReplay.send]
  split
  · rfl
  · next f hf =>
    split
    · next q hq => exact absurd (hEmpty f hf) (h.queues f q hq).2
    · rfl
    · rfl

/-- Where an entry with a message goes. -/
theorem routed_some {new : List (QueueName × LogEntry δ)} (h : entry.msg = some (f, c)) :
    Routed cfg entry new ↔
      if qname cfg f = .empty then new = []
      else ∃ g c', qname cfg f = .field g ∧ Carried cfg f c c' ∧
        new = [(.field g, { entry with msg := some (g, c') })] := by
  rw [Routed, h]

@[simp] theorem sent_readFields : (readFields cfg s entry).sent = s.sent := by
  rw [readFields]
  split <;> rfl

/-- The time of the replay after an entry. -/
theorem msgTime_readFields (cfg : ReplayConfig δ) (s : LogReplay δ) (entry : LogEntry δ) :
    (readFields cfg s entry).msgTime =
      entry.time.elim s.msgTime fun t => t.1 * 1000000000 + t.2 := by
  rw [readFields]
  split <;> rfl

/-- Without a message the name of the last one stays. -/
theorem queueName_readFields_none (h : entry.msg = none) :
    (readFields cfg s entry).queueName = s.queueName := by
  simp [readFields, h]

/-- With a message its field is the name. -/
theorem queueName_readFields_some (h : entry.msg = some (f, c)) :
    (readFields cfg s entry).queueName = some f := by
  simp [readFields, h]

/-- The queue of a field that is renamed. -/
theorem qname_of_rename {new : QueueName} (hRename : cfg.rename (.field f) = some new) :
    qname cfg f = new := by
  rw [qname, hRename, Option.getD_some]

/-- A field that is not renamed has its own queue, unless it is ignored. -/
theorem qname_own (hSame : (cfg.rename (.field f)).getD (.field f) = .field f)
    (hNonempty : qname cfg f ≠ .empty) : qname cfg f = .field f := by
  cases hRename : cfg.rename (.field f) with
  | none =>
    rw [qname, hRename, Option.getD_none] at hNonempty ⊢
    split
    · next hIgnore =>
      rw [if_pos hIgnore] at hNonempty
      exact absurd rfl hNonempty
    · rfl
  | some new =>
    rw [hRename, Option.getD_some] at hSame
    exact (qname_of_rename hRename).trans hSame

/-- The buffer goes to the queue for the last field. -/
theorem sent_readFields_send (h : Inv cfg (readFields cfg s entry))
    (hName : (readFields cfg s entry).queueName = some f) (hNonempty : qname cfg f ≠ .empty)
    (buffer : LogEntry δ) :
    ((readFields cfg s entry).send buffer).sent = s.sent ++ [(qname cfg f, buffer)] := by
  rw [sent_send_of_queue hName (h.current f hName hNonempty), sent_readFields]

variable [Inhabited δ]

/-- An entry that is skipped sends nothing. -/
theorem stepRouted_of_skipped {e₁ e₂ : LogEntry δ} (hProcess : queueProcess cfg entry = (e₁, e₂))
    (hSkip : skipped cfg (readFields cfg s e₁).msgTime = true) :
    StepRouted cfg s entry ↔ Routed cfg entry [] := by
  have hstep : step cfg s entry = some (readFields cfg s e₁) := by
    simp [step, hProcess, hSkip]
  constructor
  · rintro ⟨s', new, hs', hSent, hRouted⟩
    obtain rfl : readFields cfg s e₁ = s' := Option.some.inj (hstep.symm.trans hs')
    rw [sent_readFields, List.self_eq_append_right] at hSent
    rwa [hSent] at hRouted
  · exact fun hRouted => ⟨_, [], hstep, by simp, hRouted⟩

/-- An entry that is not skipped is sent as the buffer that it leaves, or not at all. -/
theorem stepRouted_of_moved {e₁ e₂ : LogEntry δ} {new : List (QueueName × LogEntry δ)}
    (hProcess : queueProcess cfg entry = (e₁, e₂))
    (hSkip : skipped cfg (readFields cfg s e₁).msgTime = false)
    (hMove : moveField cfg (readFields cfg s e₁).queueName e₁ e₂ = some buffer)
    (hSent : ((readFields cfg s e₁).send buffer).sent = s.sent ++ new) :
    StepRouted cfg s entry ↔ Routed cfg entry new := by
  have hstep : step cfg s entry = some ((readFields cfg s e₁).send buffer) := by
    simp [step, hProcess, hSkip, hMove]
  constructor
  · rintro ⟨s', new', hs', hSent', hRouted⟩
    obtain rfl := Option.some.inj (hstep.symm.trans hs')
    rw [hSent, List.append_cancel_left_eq] at hSent'
    rwa [← hSent'] at hRouted
  · exact fun hRouted => ⟨_, new, hstep, hSent, hRouted⟩

/-- An entry whose content cannot be moved is not routed. -/
theorem not_stepRouted_of_fatal {e₁ e₂ : LogEntry δ} (hProcess : queueProcess cfg entry = (e₁, e₂))
    (hSkip : skipped cfg (readFields cfg s e₁).msgTime = false)
    (hMove : moveField cfg (readFields cfg s e₁).queueName e₁ e₂ = none) :
    ¬ StepRouted cfg s entry := by
  rintro ⟨s', new, hs', -⟩
  simp [step, hProcess, hSkip, hMove] at hs'

-- ---------------------------------------------------------------------------
-- When an entry is routed by its own field
-- ---------------------------------------------------------------------------

/-- Content whose name stays is not moved. -/
theorem moveField_of_same {queueName : Option LogField}
    (h : (cfg.rename (nameOf queueName)).getD (nameOf queueName) = nameOf queueName) :
    moveField cfg queueName entry buffer = some buffer := by
  cases hRename : cfg.rename (nameOf queueName) with
  | none => rw [moveField, hRename]
  | some new =>
    rw [hRename, Option.getD_some] at h
    rw [moveField, hRename]
    exact if_pos h

/-- A rename that goes through is one from a field to another. -/
theorem exists_field_of_moveField {queueName : Option LogField} {e : LogEntry δ}
    (h : (cfg.rename (nameOf queueName)).getD (nameOf queueName) ≠ nameOf queueName)
    (hMove : moveField cfg queueName entry buffer = some e) :
    ∃ f g, queueName = some f ∧ cfg.rename (.field f) = some (.field g) ∧ g.type = f.type ∧
      e = { entry with msg := some (g, entry.msg.elim ⟨none, none, default⟩ (·.2)) } ∧
      cfg.byteSize e ≤ maxBuf := by
  cases hRename : cfg.rename (nameOf queueName) with
  | none => exact absurd (by rw [hRename, Option.getD_none]) h
  | some new =>
    rw [hRename, Option.getD_some] at h
    simp only [moveField, hRename, if_neg h] at hMove
    split at hMove
    · next g f =>
      split at hMove
      · next hType =>
        split at hMove
        · next hSize =>
          obtain rfl := Option.some.inj hMove
          exact ⟨f, g, rfl, hRename, hType, rfl, hSize⟩
        · cases hMove
      · cases hMove
    · cases hMove

/-- Content whose new name is a field of the same type is moved, unless the entry gets too long. -/
theorem moveField_of_field (hRename : cfg.rename (.field f) = some (.field g)) (hne : g ≠ f)
    (hType : g.type = f.type)
    (hSize : cfg.byteSize
      { entry with msg := some (g, entry.msg.elim ⟨none, none, default⟩ (·.2)) } ≤ maxBuf) :
    moveField cfg (some f) entry buffer =
      some { entry with msg := some (g, entry.msg.elim ⟨none, none, default⟩ (·.2)) } := by
  have hNew : QueueName.field g ≠ .field f := fun h => hne (QueueName.field.inj h)
  simp only [moveField, nameOf, Option.elim_some, hRename, if_neg hNew, if_pos hType, if_pos hSize]

/-- Without a message of its own, an entry is sent if there is a queue for the last name. -/
theorem stepRouted_iff_of_none (hInv : Inv cfg s) (h : entry.msg = none) :
    StepRouted cfg s entry ↔ Plain cfg s entry := by
  have hProcess := queueProcess_none cfg h
  have hName : (readFields cfg s entry).queueName = s.queueName := queueName_readFields_none h
  have hRead : Inv cfg (readFields cfg s entry) := hInv.readFields
  have hRouted : ∀ new, Routed cfg entry new ↔ new = [] := fun new => by rw [Routed, h]
  cases hSkip : skipped cfg (readFields cfg s entry).msgTime with
  | true =>
    rw [stepRouted_of_skipped hProcess hSkip, hRouted, Plain, h, ← msgTime_readFields cfg, hSkip]
    simp
  | false =>
    rw [Plain, h, ← msgTime_readFields cfg, hSkip]
    simp only [Bool.false_eq_true, false_or]
    by_cases hSame :
        (cfg.rename (nameOf s.queueName)).getD (nameOf s.queueName) = nameOf s.queueName
    · have hMove : moveField cfg (readFields cfg s entry).queueName entry entry = some entry := by
        rw [hName]
        exact moveField_of_same hSame
      by_cases hQueue : ∀ f, s.queueName = some f → qname cfg f = .empty
      · have hSent : ((readFields cfg s entry).send entry).sent = s.sent ++ [] := by
          rw [hRead.sent_send_of_empty (by rwa [hName]), sent_readFields, List.append_nil]
        rw [stepRouted_of_moved hProcess hSkip hMove hSent, hRouted]
        exact iff_of_true rfl ⟨hSame, hQueue⟩
      · push Not at hQueue
        obtain ⟨f, hf, hNonempty⟩ := hQueue
        have hSent := sent_readFields_send hRead (hName.trans hf) hNonempty entry
        rw [stepRouted_of_moved hProcess hSkip hMove hSent, hRouted]
        exact iff_of_false (List.cons_ne_nil _ _) fun hPlain => hNonempty (hPlain.2 f hf)
    · refine iff_of_false (fun hStep => ?_) fun hPlain => hSame hPlain.1
      cases hMove : moveField cfg (readFields cfg s entry).queueName entry entry with
      | none => exact not_stepRouted_of_fatal hProcess hSkip hMove hStep
      | some buffer =>
        -- a rename that goes through has a queue to send to
        obtain ⟨f, g, hf, hg, -⟩ :=
          exists_field_of_moveField (by rwa [hName]) hMove
        have hNonempty : qname cfg f ≠ .empty := by
          rw [qname_of_rename hg]
          exact nofun
        have hSent := sent_readFields_send hRead hf hNonempty buffer
        rw [stepRouted_of_moved hProcess hSkip hMove hSent, hRouted] at hStep
        exact List.cons_ne_nil _ _ hStep

/-- With a message, an entry is sent to the queue for its field, after it has been moved. -/
theorem stepRouted_iff_of_some (hInv : Inv cfg s) (h : entry.msg = some (f, c)) :
    StepRouted cfg s entry ↔ Plain cfg s entry := by
  obtain ⟨c₁, c₂, hProcess, hc₁, hc₂⟩ := queueProcess_some cfg h
  let e₁ : LogEntry δ := { entry with msg := some (f, c₁) }
  let e₂ : LogEntry δ := { entry with msg := some (f, c₂) }
  have hRead : Inv cfg (readFields cfg s e₁) := hInv.readFields
  have hName : (readFields cfg s e₁).queueName = some f := queueName_readFields_some rfl
  have hTime : (readFields cfg s e₁).msgTime =
      entry.time.elim s.msgTime fun t => t.1 * 1000000000 + t.2 := msgTime_readFields cfg s e₁
  have hMoved : ∀ g, moved cfg entry g = { entry with msg := some (g, c₁) } := by
    intro g
    rw [moved, hProcess]
    rfl
  cases hSkip : skipped cfg (readFields cfg s e₁).msgTime with
  | true =>
    rw [stepRouted_of_skipped hProcess hSkip, Routed, h, Plain, h, ← hTime, hSkip]
    simp
  | false =>
    rw [Plain, h, ← hTime, hSkip]
    simp only [Bool.false_eq_true, false_or, true_and]
    by_cases hSame : (cfg.rename (.field f)).getD (.field f) = .field f
    · -- not renamed: sent as it is, or ignored
      have hMove : moveField cfg (readFields cfg s e₁).queueName e₁ e₂ = some e₂ := by
        rw [hName]
        exact moveField_of_same hSame
      by_cases hEmpty : qname cfg f = .empty
      · have hSent : ((readFields cfg s e₁).send e₂).sent = s.sent ++ [] := by
          rw [hRead.sent_send_of_empty, sent_readFields, List.append_nil]
          rw [hName]
          rintro f' hf'
          rwa [← Option.some.inj hf']
        rw [stepRouted_of_moved hProcess hSkip hMove hSent, routed_some h, if_pos hEmpty,
          if_pos hEmpty]
        refine iff_of_true rfl ?_
        intro hRename
        rw [hRename, Option.getD_some] at hSame
        cases hSame
      · have hOwn := qname_own hSame hEmpty
        have hSent := sent_readFields_send hRead hName hEmpty e₂
        rw [stepRouted_of_moved hProcess hSkip hMove hSent, routed_some h, if_neg hEmpty,
          if_neg hEmpty]
        exact iff_of_true ⟨f, c₂, hOwn, hc₂, by rw [hOwn]⟩ ⟨f, hOwn, .inl rfl⟩
    · -- renamed: to a field of the same type, or it is fatal
      obtain ⟨new, hRename, hNew⟩ : ∃ new, cfg.rename (.field f) = some new ∧ new ≠ .field f := by
        cases hRename : cfg.rename (.field f) with
        | none => exact absurd (by rw [hRename, Option.getD_none]) hSame
        | some new =>
          rw [hRename, Option.getD_some] at hSame
          exact ⟨new, rfl, hSame⟩
      have hQueue := qname_of_rename hRename
      cases hMove : moveField cfg (readFields cfg s e₁).queueName e₁ e₂ with
      | none =>
        refine iff_of_false (not_stepRouted_of_fatal hProcess hSkip hMove) ?_
        intro hPlain
        rw [hName] at hMove
        split at hPlain
        · next hEmpty => exact hPlain (by rw [hRename, ← hQueue, hEmpty])
        · obtain ⟨g, hg, rfl | ⟨hType, hSize⟩⟩ := hPlain
          · exact hNew (hQueue.symm.trans hg)
          · have hne : g ≠ f := fun hgf => hNew (by rw [← hQueue, hg, hgf])
            rw [hMoved] at hSize
            rw [moveField_of_field (by rw [hRename, ← hQueue, hg]) hne hType hSize] at hMove
            cases hMove
      | some buffer =>
        obtain ⟨f', g, hf', hg, hType, rfl, hSize⟩ :=
          exists_field_of_moveField (by rw [hName]; exact hSame) hMove
        obtain rfl : f = f' := Option.some.inj (hName.symm.trans hf')
        have hField := qname_of_rename hg
        have hNonempty : qname cfg f ≠ .empty := by
          rw [hField]
          exact nofun
        have hSent := sent_readFields_send hRead hName hNonempty
          { e₁ with msg := some (g, c₁) }
        rw [stepRouted_of_moved hProcess hSkip hMove hSent, routed_some h, if_neg hNonempty,
          if_neg hNonempty]
        exact iff_of_true ⟨g, c₁, hField, hc₁, by rw [hField]⟩
          ⟨g, hField, .inr ⟨hType, by rw [hMoved]; exact hSize⟩⟩

/-- An entry is routed, if and only if it is plain. -/
theorem stepRouted_iff (hInv : Inv cfg s) : StepRouted cfg s entry ↔ Plain cfg s entry := by
  cases h : entry.msg with
  | none => exact stepRouted_iff_of_none hInv h
  | some m => exact stepRouted_iff_of_some hInv h

end Steps

/-- **Routing.** Every entry of a log goes where its own field says exactly if each of them is
plain when it is read: in every run these two hold of the same entries. -/
theorem routed_iff [Inhabited δ] (cfg : ReplayConfig δ) (startTime : Int)
    (entries : List (LogEntry δ)) :
    Along (step cfg) (StepRouted cfg) { msgTime := startTime } entries ↔
      Along (step cfg) (Plain cfg) { msgTime := startTime } entries :=
  along_congr_of_inv (I := Inv cfg) (fun _ _ _ hInv hstep => step_inv hInv hstep)
    (fun _ _ hInv => stepRouted_iff hInv) (inv_init startTime)

/-- An entry with the wind, and one with a time only, which is sent as wind as well. -/
theorem entry_without_message_sent :
    ¬ ∀ (cfg : ReplayConfig Unit) (entries : List (LogEntry Unit)),
      Along (step cfg) (StepRouted cfg) { msgTime := 0 } entries := by
  intro hAll
  let cfg : ReplayConfig Unit :=
    { rename := fun _ => none, defaultIgnore := false, double := .exact, byteSize := fun _ => 9 }
  let wind : LogEntry Unit := { time := some (1, 0), msg := some (.wind, { data := () }) }
  obtain ⟨⟨s, -, hstep, -⟩, hRest⟩ := hAll cfg [wind, { time := some (2, 0) }]
  have hName : s.queueName = some .wind := by
    have hMap : (step cfg { msgTime := 0 } wind).map (·.queueName) = some (some .wind) := by
      decide +kernel
    rw [hstep, Option.map_some, Option.some.injEq] at hMap
    exact hMap
  have hPlain := (stepRouted_iff (step_inv (inv_init 0) hstep)).mp (hRest s hstep).1
  rcases hPlain with hSkip | ⟨-, hQueue⟩
  · have hSkip : skipped cfg (2 * 1000000000 + 0) = true := hSkip
    exact absurd hSkip (by decide +kernel)
  · exact absurd (hQueue .wind hName) (by decide)

end LogReplay

end Sailbot.Util

import Sailbot.Control.Scamp

/-!
# The calibration of the actuators

The operator sends calibration constants on `zeroing_consts`. `SCAMP` takes from each message
the constants that are set, and publishes all of its constants on the same queue in every
`Iterate` (`control/scamp.cc`). It gets every message of the queue once, in the order of
publication and with any delay, its own messages included.

* `Calibration.step`       — the operator, deliveries, and everything else that `SCAMP` does.
* `Calibration.settings`   — what the operator has set, by a sequence of messages.
* `Calibration.keeps_settings` — `SCAMP` keeps what the operator has set, in a run without
  echoes that contradict an operator message in the queue.
* `Calibration.lost_after_stale_echo` — such an echo takes a setting back.
-/

namespace Sailbot.Control

open Lib

/-- A message on `zeroing_consts`, and whether it is from the operator. -/
structure ZeroingMsg where
  consts       : ZeroingConstants
  fromOperator : Bool
  deriving DecidableEq

structure Calibration where
  scamp : Scamp
  queue : List ZeroingMsg := []
  /-- How many messages of the queue were delivered. -/
  next  : Nat := 0
  deriving DecidableEq

inductive CalibrationAction
  | operator (msg : ZeroingConstants)
  | deliver
  /-- Any other handler of `SCAMP`, or an `Iterate`. -/
  | scamp (msg : ScampMsg)

namespace Calibration

def init (F : Formats) (file : Option ZeroingConstants) : Calibration := { scamp := .init F file }

def step (F : Formats) (s : Calibration) : CalibrationAction → Option Calibration
  | .operator msg => some { s with queue := s.queue ++ [⟨msg, true⟩] }
  | .deliver => do
    let msg ← s.queue[s.next]?
    let scamp ← s.scamp.step F (.zeroingConsts msg.consts)
    some { s with scamp := scamp, next := s.next + 1 }
  | .scamp (.zeroingConsts _) => none
  | .scamp msg => do
    let scamp ← s.scamp.step F msg
    let echoes := scamp.constsQueue.drop s.scamp.constsQueue.length
    some { s with scamp := scamp, queue := s.queue ++ echoes.map (⟨·, false⟩) }

-- ---------------------------------------------------------------------------
-- What one step does
-- ---------------------------------------------------------------------------

section Cases

variable {F : Formats} {s s' : Calibration} {a : CalibrationAction} {c c' : Scamp}

/-- Neither the constants nor what was published of them changed. -/
def SameConsts (c c' : Scamp) : Prop := c'.consts = c.consts ∧ c'.constsQueue = c.constsQueue

/-- A sail command leaves the constants. -/
theorem acceptSailCmd_sameConsts {m : Mode} {cmd : SailCmd} (h : c.acceptSailCmd m cmd = some c') :
    SameConsts c c' := by
  rw [Scamp.acceptSailCmd] at h
  split at h
  · obtain ⟨volts, -, rfl⟩ := Option.map_eq_some_iff.mp h
    exact ⟨rfl, rfl⟩
  · obtain rfl := Option.some.inj h
    exact ⟨rfl, rfl⟩

/-- A rudder command leaves the constants. -/
theorem acceptRudderCmd_sameConsts {m : Mode} {cmd : RudderCmd}
    (h : c.acceptRudderCmd F m cmd = some c') : SameConsts c c' := by
  rw [Scamp.acceptRudderCmd] at h
  split at h
  · obtain ⟨n, -, rfl⟩ := Option.map_eq_some_iff.mp h
    exact ⟨rfl, rfl⟩
  · obtain rfl := Option.some.inj h
    exact ⟨rfl, rfl⟩

/-- A ballast command leaves the constants. -/
theorem acceptBallastCmd_sameConsts {m : Mode} {cmd : BallastCmd}
    (h : c.acceptBallastCmd F m cmd = some c') : SameConsts c c' := by
  rw [Scamp.acceptBallastCmd] at h
  split at h
  · rw [Scamp.setRawFromBallastCmd] at h
    split at h
    · obtain ⟨n, -, rfl⟩ := Option.map_eq_some_iff.mp h
      exact ⟨rfl, rfl⟩
    · obtain ⟨n, -, rfl⟩ := Option.map_eq_some_iff.mp h
      exact ⟨rfl, rfl⟩
    · obtain rfl := Option.some.inj h
      exact ⟨rfl, rfl⟩
  · obtain rfl := Option.some.inj h
    exact ⟨rfl, rfl⟩

/-- An SBUS message leaves the constants. -/
theorem onSbus_sameConsts {channel : List Int} (h : c.onSbus channel = some c') :
    SameConsts c c' := by
  rw [Scamp.onSbus] at h
  split at h
  · obtain ⟨t, hRudder, hWinch⟩ := Option.bind_eq_some_iff.mp h
    obtain ⟨⟨n, rfl⟩, -⟩ := Scamp.sbusRudder_wrote (F := .exact) hRudder
    obtain ⟨⟨raw, volts, commanded, rfl⟩, -⟩ := Scamp.sbusWinch_wrote (F := .exact) hWinch
    exact ⟨rfl, rfl⟩
  · obtain rfl := Option.some.inj h
    exact ⟨rfl, rfl⟩

/-- An `Iterate` publishes the constants and leaves them. -/
theorem iterate_consts (c : Scamp) :
    c.iterate.consts = c.consts ∧ c.iterate.constsQueue = c.constsQueue ++ [c.consts] := by
  rw [Scamp.iterate, Scamp.updateWinch]
  split <;> exact ⟨rfl, rfl⟩

/-- Of the other steps of `SCAMP`, only `Iterate` has to do with the constants. -/
theorem scamp_step_cases {msg : ScampMsg} (hMsg : ∀ m, msg ≠ .zeroingConsts m)
    (h : c.step F msg = some c') :
    SameConsts c c' ∨ (msg = .iterate ∧ c' = c.iterate) := by
  cases msg with
  | zeroingConsts m => exact absurd rfl (hMsg m)
  | analogPot val =>
    simp only [Scamp.step, Scamp.onAnalogPot, Option.bind_eq_bind, Option.bind_eq_some_iff,
      Option.some.injEq] at h
    obtain ⟨angle, -, turned, -, rfl⟩ := h
    exact .inl ⟨rfl, rfl⟩
  | ballastState ballast =>
    obtain rfl := Option.some.inj h
    refine .inl ?_
    rcases ballast with _ | ballast <;> exact ⟨rfl, rfl⟩
  | sailCmd cmd | manualSailCmd cmd => exact .inl (acceptSailCmd_sameConsts h)
  | rudderCmd cmd | manualRudderCmd cmd => exact .inl (acceptRudderCmd_sameConsts h)
  | ballastCmd cmd | manualBallastCmd cmd => exact .inl (acceptBallastCmd_sameConsts h)
  | sbus channel => exact .inl (onSbus_sameConsts h)
  | connectionStatus connected | controlMode mode =>
    obtain rfl := Option.some.inj h
    exact .inl ⟨rfl, rfl⟩
  | iterate => exact .inr ⟨rfl, (Option.some.inj h).symm⟩

/-- Everything that a step can do, one case for each action. -/
theorem step_cases (hstep : step F s a = some s') :
    (∃ msg, a = .operator msg ∧ s' = { s with queue := s.queue ++ [⟨msg, true⟩] }) ∨
    (∃ msg, a = .deliver ∧ s.queue[s.next]? = some msg ∧
      s' = { s with scamp := s.scamp.onZeroingConsts msg.consts, next := s.next + 1 }) ∨
    (∃ msg scamp, a = .scamp msg ∧ msg ≠ .iterate ∧ SameConsts s.scamp scamp ∧
      s' = { s with scamp := scamp }) ∨
    (a = .scamp .iterate ∧
      s' = { s with
        scamp := s.scamp.iterate
        queue := s.queue ++ [⟨s.scamp.consts, false⟩] }) := by
  cases a with
  | operator msg => exact .inl ⟨msg, rfl, (Option.some.inj hstep).symm⟩
  | deliver =>
    simp only [step, Option.bind_eq_bind, Option.bind_eq_some_iff] at hstep
    obtain ⟨msg, hmsg, scamp, hscamp, hstep⟩ := hstep
    obtain rfl := Option.some.inj hscamp
    exact .inr (.inl ⟨msg, rfl, hmsg, (Option.some.inj hstep).symm⟩)
  | scamp msg =>
    by_cases hMsg : ∀ m, msg ≠ .zeroingConsts m
    · have hStep : ∃ scamp, s.scamp.step F msg = some scamp ∧
          s' = { s with
            scamp := scamp
            queue := s.queue ++
              (scamp.constsQueue.drop s.scamp.constsQueue.length).map (⟨·, false⟩) } := by
        cases msg with
        | zeroingConsts m => exact absurd rfl (hMsg m)
        | _ =>
          simp only [step, Option.bind_eq_bind, Option.bind_eq_some_iff, Option.some.injEq] at hstep
          obtain ⟨scamp, hscamp, rfl⟩ := hstep
          exact ⟨scamp, hscamp, rfl⟩
      obtain ⟨scamp, hscamp, rfl⟩ := hStep
      by_cases hIterate : msg = .iterate
      · subst hIterate
        obtain rfl := Option.some.inj hscamp
        refine .inr (.inr (.inr ⟨rfl, ?_⟩))
        rw [(iterate_consts s.scamp).2, List.drop_left]
        rfl
      · rcases scamp_step_cases hMsg hscamp with hSame | ⟨hIt, -⟩
        · refine .inr (.inr (.inl ⟨msg, scamp, rfl, hIterate, hSame, ?_⟩))
          rw [hSame.2, List.drop_length, List.map_nil, List.append_nil]
        · exact absurd hIt hIterate
    · push Not at hMsg
      obtain ⟨m, rfl⟩ := hMsg
      cases hstep

end Cases

-- ---------------------------------------------------------------------------
-- Settings of the operator
-- ---------------------------------------------------------------------------

/-- What the operator has set by the messages `q`, from no constant at all. The two ends of the
pot are set together or not at all. -/
def settings (q : List ZeroingMsg) : ZeroingConstants :=
  (q.filter (·.fromOperator)).foldl (fun c msg => c.update msg.consts) {}

/-- A constant that the operator has set has this value. -/
def KeepsField {α : Type} (o c : Option α) : Prop := o = none ∨ c = o

instance {α : Type} [DecidableEq α] (o c : Option α) : Decidable (KeepsField o c) :=
  inferInstanceAs (Decidable (o = none ∨ c = o))

/-- Every constant that is set in `o` has the same value in `c`. -/
def Keeps (o c : ZeroingConstants) : Prop :=
  KeepsField o.winch0Pot c.winch0Pot ∧ KeepsField o.winch90Pot c.winch90Pot ∧
    KeepsField o.rudderZero c.rudderZero ∧ KeepsField o.ballastZero c.ballastZero ∧
    KeepsField o.winchOutAngle c.winchOutAngle

instance (o c : ZeroingConstants) : Decidable (Keeps o c) :=
  inferInstanceAs (Decidable (_ ∧ _))

/-- `SCAMP` has every constant as the operator messages that it has applied set it. -/
def Kept (s : Calibration) : Prop := Keeps (settings (s.queue.take s.next)) s.scamp.consts

/-- An `Iterate` publishes constants that contradict no operator message in the queue, whether
`SCAMP` has applied it or not. -/
def NoStaleEcho (s : Calibration) : CalibrationAction → Prop
  | .scamp .iterate => Keeps (settings s.queue) ((settings s.queue).update s.scamp.consts)
  | _ => True

instance (s : Calibration) (a : CalibrationAction) : Decidable (NoStaleEcho s a) := by
  unfold NoStaleEcho
  split <;> infer_instance

/-- An operator message updates the settings. -/
theorem settings_concat_operator (q : List ZeroingMsg) (msg : ZeroingConstants) :
    settings (q ++ [⟨msg, true⟩]) = (settings q).update msg := by
  simp [settings]

/-- An echo is not a setting of the operator. -/
theorem settings_concat_echo (q : List ZeroingMsg) (echo : ZeroingConstants) :
    settings (q ++ [⟨echo, false⟩]) = settings q := by
  simp [settings]

section Field

variable {α : Type} {o c m : Option α}

/-- A field that is updated on both sides stays kept. -/
theorem KeepsField.or (h : KeepsField o c) : KeepsField (m.or o) (m.or c) := by
  cases m with
  | none => exact h
  | some v => exact .inr rfl

/-- A message that keeps the setting `o` keeps it also where the node already has it. -/
theorem KeepsField.or_of_or (h : KeepsField o c) (hm : KeepsField o (m.or o)) :
    KeepsField o (m.or c) := by
  cases m with
  | none => exact h
  | some v => exact hm

/-- What a message does to a setting does not depend on what the node had before. -/
theorem KeepsField.or_self (h : KeepsField o (m.or c)) : KeepsField o (m.or o) := by
  cases m with
  | none => exact .inr rfl
  | some v => exact h

/-- A field that is updated on both sides under one condition stays kept. -/
theorem KeepsField.ite {p : Prop} [Decidable p] (h : KeepsField o c) :
    KeepsField (if p then m else o) (if p then m else c) := by
  split
  · exact .inr rfl
  · exact h

/-- If what is written is kept already, the side of the constants may be written alone. -/
theorem KeepsField.ite_of_ite {p : Prop} [Decidable p] (h : KeepsField o c)
    (hm : KeepsField o (if p then m else o)) : KeepsField o (if p then m else c) := by
  split
  · rwa [if_pos ‹_›] at hm
  · exact h

/-- What is kept after a write of the constants may be written on the other side too. -/
theorem KeepsField.ite_self {p : Prop} [Decidable p] (h : KeepsField o (if p then m else c)) :
    KeepsField o (if p then m else o) := by
  split
  · rwa [if_pos ‹_›] at h
  · exact .inr rfl

end Field

section Keeps

variable {o c : ZeroingConstants}

/-- A message of the operator is applied to what is set and to what `SCAMP` has alike. -/
theorem Keeps.update (h : Keeps o c) (msg : ZeroingConstants) :
    Keeps (o.update msg) (c.update msg) :=
  ⟨h.1.ite, h.2.1.ite, h.2.2.1.or, h.2.2.2.1.or, h.2.2.2.2.or⟩

/-- An echo that does not contradict the settings takes none of them back. -/
theorem Keeps.echo (h : Keeps o c) {echo : ZeroingConstants} (hEcho : Keeps o (o.update echo)) :
    Keeps o (c.update echo) :=
  ⟨h.1.ite_of_ite hEcho.1, h.2.1.ite_of_ite hEcho.2.1, h.2.2.1.or_of_or hEcho.2.2.1,
    h.2.2.2.1.or_of_or hEcho.2.2.2.1, h.2.2.2.2.or_of_or hEcho.2.2.2.2⟩

/-- An echo that takes no setting back does not contradict the settings. -/
theorem Keeps.of_echo {echo : ZeroingConstants} (h : Keeps o (c.update echo)) :
    Keeps o (o.update echo) :=
  ⟨h.1.ite_self, h.2.1.ite_self, h.2.2.1.or_self, h.2.2.2.1.or_self, h.2.2.2.2.or_self⟩

end Keeps

-- ---------------------------------------------------------------------------
-- Runs
-- ---------------------------------------------------------------------------

section Runs

variable {F : Formats} {file : Option ZeroingConstants} {s s' : Calibration}
  {a : CalibrationAction}

/-- Every echo in the queue is without contradiction to the operator messages before it. -/
def EchoesFresh (q : List ZeroingMsg) : Prop :=
  ∀ p msg, q[p]? = some msg → msg.fromOperator = false →
    Keeps (settings (q.take p)) ((settings (q.take p)).update msg.consts)

/-- A message is fresh if it is the operator's, or an echo that contradicts no setting. -/
theorem EchoesFresh.concat {q : List ZeroingMsg} {msg : ZeroingMsg} (h : EchoesFresh q)
    (hMsg : msg.fromOperator = false → Keeps (settings q) ((settings q).update msg.consts)) :
    EchoesFresh (q ++ [msg]) := by
  intro p m hm hEcho
  rcases Nat.lt_or_ge p q.length with hp | hp
  · rw [List.getElem?_append_left hp] at hm
    rw [List.take_append_of_le_length hp.le]
    exact h p m hm hEcho
  · -- the position of the new message is the only one behind the old queue
    obtain ⟨hLt, -⟩ := List.getElem?_eq_some_iff.mp hm
    obtain rfl : p = q.length := by
      rw [List.length_append, List.length_singleton] at hLt
      omega
    rw [List.getElem?_concat_length, Option.some.injEq] at hm
    subst hm
    rw [List.take_left]
    exact hMsg hEcho

structure Inv (s : Calibration) : Prop where
  kept  : Kept s
  fresh : EchoesFresh s.queue
  /-- No message is delivered before it is sent. -/
  next  : s.next ≤ s.queue.length

/-- At the start the queue is empty. -/
theorem init_inv (F : Formats) (file : Option ZeroingConstants) : Inv (init F file) where
  kept := ⟨.inl rfl, .inl rfl, .inl rfl, .inl rfl, .inl rfl⟩
  fresh := fun p msg h => by simp [init] at h
  next := Nat.le_refl 0

/-- A message that is sent does not change what was delivered. -/
theorem Inv.send {scamp : Scamp} {msg : ZeroingMsg} (hInv : Inv s)
    (hConsts : scamp.consts = s.scamp.consts)
    (hMsg : msg.fromOperator = false →
      Keeps (settings s.queue) ((settings s.queue).update msg.consts)) :
    Inv { s with scamp := scamp, queue := s.queue ++ [msg] } where
  kept := by
    rw [Kept, List.take_append_of_le_length hInv.next, hConsts]
    exact hInv.kept
  fresh := hInv.fresh.concat hMsg
  next := hInv.next.trans (by simp)

/-- `SCAMP` gets the next message of the queue. -/
theorem Inv.deliver {msg : ZeroingMsg} (hInv : Inv s) (hMsg : s.queue[s.next]? = some msg) :
    Inv { s with scamp := s.scamp.onZeroingConsts msg.consts, next := s.next + 1 } := by
  have hTake : s.queue.take (s.next + 1) = s.queue.take s.next ++ [msg] := by
    rw [List.take_add_one, hMsg]
    rfl
  refine ⟨?_, hInv.fresh, (List.getElem?_eq_some_iff.mp hMsg).1⟩
  rw [Kept, hTake]
  obtain ⟨consts, fromOperator⟩ := msg
  cases fromOperator with
  | true =>
    rw [settings_concat_operator]
    exact hInv.kept.update consts
  | false =>
    rw [settings_concat_echo]
    exact hInv.kept.echo (hInv.fresh s.next _ hMsg rfl)

/-- Every step without a stale echo keeps the operator's settings. -/
theorem step_inv (hInv : Inv s) (hEcho : NoStaleEcho s a) (hstep : step F s a = some s') :
    Inv s' := by
  rcases step_cases hstep with ⟨msg, rfl, rfl⟩ | ⟨msg, rfl, hMsg, rfl⟩ |
    ⟨msg, scamp, rfl, hIterate, hSame, rfl⟩ | ⟨rfl, rfl⟩
  · exact hInv.send rfl (fun h => Bool.noConfusion h)
  · exact hInv.deliver hMsg
  · refine ⟨?_, hInv.fresh, hInv.next⟩
    rw [Kept, hSame.1]
    exact hInv.kept
  · exact hInv.send (iterate_consts s.scamp).1 (fun _ => hEcho)

/-- **The operator's settings are kept.** In every run in which no `Iterate` publishes constants
that contradict an operator message in the queue, a constant has the value that the last operator
message applied to it has set. -/
theorem keeps_settings (as : List CalibrationAction)
    (hEchoes : Along (step F) NoStaleEcho (init F file) as)
    (hrun : run (step F) (init F file) as = some s) : Kept s :=
  (inv_of_run (fun _ _ _ => step_inv) (init_inv F file) hEchoes hrun).kept

/-- The operator sends a new zero of the rudder, and `SCAMP` gets it before its next `Iterate`. -/
theorem keeps_settings_rudder_zero :
    ∃ s, run (step .exact) (init .exact none)
        [.scamp .iterate, .operator { rudderZero := some 80 }, .deliver, .deliver,
          .scamp .iterate, .deliver] = some s ∧ Kept s := by
  have hRuns : (run (step .exact) (init .exact none)
      [.scamp .iterate, .operator { rudderZero := some 80 }, .deliver, .deliver,
        .scamp .iterate, .deliver]).isSome = true := by
    decide +kernel
  obtain ⟨s, hrun⟩ := Option.isSome_iff_exists.mp hRuns
  exact ⟨s, hrun, keeps_settings _ (by decide +kernel) hrun⟩

/-- `SCAMP` publishes the old zero of the rudder while the operator's message waits. It applies
the message, and then takes the old zero back from its own echo. -/
theorem reverted_by_echo :
    ¬ ∀ (as : List CalibrationAction) (s : Calibration),
      run (step .exact) (init .exact none) as = some s → Kept s := by
  intro hAll
  have hRuns : (run (step .exact) (init .exact none)
      [.operator { rudderZero := some 80 }, .scamp .iterate, .deliver, .deliver]).map
        (fun s => decide (Keeps (settings (s.queue.take s.next)) s.scamp.consts)) =
      some false := by
    decide +kernel
  obtain ⟨s, hrun, hs⟩ := Option.map_eq_some_iff.mp hRuns
  exact of_decide_eq_false hs (hAll _ s hrun)

/-- Messages that were sent can be delivered, one after the other. -/
theorem deliver_many (n : Nat) : ∀ {s : Calibration}, s.next + n ≤ s.queue.length →
    ∃ s', run (step F) s (List.replicate n .deliver) = some s' ∧
      s'.queue = s.queue ∧ s'.next = s.next + n := by
  induction n with
  | zero => exact fun {s} _ => ⟨s, rfl, rfl, rfl⟩
  | succ n ih =>
    intro s h
    have hLt : s.next < s.queue.length := by omega
    have hMsg : s.queue[s.next]? = some s.queue[s.next] := List.getElem?_eq_getElem hLt
    obtain ⟨s', hrun, hQueue, hNext⟩ := ih (s := { s with
      scamp := s.scamp.onZeroingConsts s.queue[s.next].consts
      next := s.next + 1 }) (by change s.next + 1 + n ≤ s.queue.length; omega)
    refine ⟨s', ?_, hQueue, by rw [hNext, Nat.add_right_comm, Nat.add_assoc]⟩
    rw [List.replicate_succ, run_cons_eq_some]
    refine ⟨_, ?_, hrun⟩
    simp [step, hMsg, Scamp.step]

/-- The condition is needed: an `Iterate` that does not meet it publishes an echo that takes a
setting back as soon as it is delivered. -/
theorem lost_after_stale_echo (hNext : s.next ≤ s.queue.length)
    (hStale : ¬ NoStaleEcho s (.scamp .iterate)) :
    ∃ n s', run (step F) s (.scamp .iterate :: List.replicate n .deliver) = some s' ∧
      ¬ Kept s' := by
  have hIterate : step F s (.scamp .iterate) = some { s with
      scamp := s.scamp.iterate
      queue := s.queue ++ [⟨s.scamp.consts, false⟩] } := by
    simp [step, Scamp.step, (iterate_consts s.scamp).2]
  set t : Calibration := { s with
    scamp := s.scamp.iterate
    queue := s.queue ++ [⟨s.scamp.consts, false⟩] } with ht
  obtain ⟨u, hrun, hQueue, hAt⟩ := deliver_many (F := F) (s := t) (s.queue.length - s.next)
    (by simp only [ht, List.length_append, List.length_singleton]; omega)
  have hAt : u.next = s.queue.length := by
    rw [hAt]
    exact Nat.add_sub_cancel' hNext
  have hMsg : u.queue[u.next]? = some ⟨s.scamp.consts, false⟩ := by
    rw [hQueue, hAt]
    exact List.getElem?_concat_length
  refine ⟨s.queue.length - s.next + 1, { u with
    scamp := u.scamp.onZeroingConsts s.scamp.consts
    next := u.next + 1 }, ?_, ?_⟩
  · rw [run_cons_eq_some]
    refine ⟨t, hIterate, ?_⟩
    rw [List.replicate_succ', run_append_eq_some]
    exact ⟨u, hrun, by simp [step, hMsg, Scamp.step]⟩
  · intro hKept
    refine hStale (Keeps.of_echo (c := u.scamp.consts) ?_)
    have hAll : u.queue.take (u.next + 1) = s.queue ++ [⟨s.scamp.consts, false⟩] := by
      rw [hQueue, hAt]
      exact List.take_of_length_le (by simp [ht])
    rw [Kept, hAll, settings_concat_echo] at hKept
    exact hKept

end Runs

end Calibration

end Sailbot.Control

import Sailbot.Lib.Transition
import Sailbot.Lib.Fp

/-!
# The constants of the controllers

`SimpleControl` and `BallastControl` take their constants from the queue
`control_consts` and publish their own copies on it from time to time
(`control/simple.cc`, `control/ballast.cc`); the operator publishes on it too. A node
gets every message of the queue once, in the order of publication, with any delay, its
own messages included.

A message carries two history variables: whether the operator published it, and its
`origin`, the position in the queue at which its set of constants was published first. A
copy has the origin of what it copies, whatever its values are.

* `Constants.step`             — publications, deliveries and iterations.
* `Constants.never_reverted`   — a node does not go back behind an update of the operator
  that it has accepted, in a run without stale copies.
* `Constants.reverts_after_stale_copy` — a stale copy takes the node that sent it back.
-/

namespace Sailbot.Control

open Lib

structure ControllerConstants where
  maxRudder             : Option Fp := none
  rudderKp              : Option Fp := none
  winchKp               : Option Fp := none
  sailHeelK             : Option Fp := none
  qf                    : Option Fp := none
  rudderKi              : Option Fp := none
  ballastArmKp          : Option Fp := none
  ballastArmKd          : Option Fp := none
  ballastArmKffArm      : Option Fp := none
  ballastArmKffHeel     : Option Fp := none
  ballastHeelKp         : Option Fp := none
  ballastHeelKi         : Option Fp := none
  ballastHeelKd         : Option Fp := none
  ballastHeelKffGoal    : Option Fp := none
  nominalHeel           : Option Fp := none
  rigidPortServoPos     : Option Fp := none
  rigidStarboardServoPos : Option Fp := none
  deriving DecidableEq

/-- The nodes that hold constants. -/
inductive ConstsNode
  | simple
  | ballast
  deriving DecidableEq, Repr

namespace ControllerConstants

/-- The fields that `SimpleControl` asks for. -/
def forSimple (c : ControllerConstants) : Bool :=
  c.maxRudder.isSome && c.rudderKp.isSome && c.winchKp.isSome && c.sailHeelK.isSome &&
    c.rigidPortServoPos.isSome && c.rigidStarboardServoPos.isSome && c.nominalHeel.isSome

/-- The fields that `BallastControl` asks for. -/
def forBallast (c : ControllerConstants) : Bool :=
  c.ballastHeelKp.isSome && c.ballastHeelKi.isSome && c.ballastHeelKd.isSome &&
    c.ballastArmKp.isSome && c.ballastArmKd.isSome && c.ballastArmKffArm.isSome &&
    c.ballastArmKffHeel.isSome && c.ballastHeelKffGoal.isSome

/-- Every field is set. -/
def complete (c : ControllerConstants) : Bool :=
  c.forSimple && c.forBallast && c.qf.isSome && c.rudderKi.isSome

end ControllerConstants

namespace ConstsNode

/-- A node replaces its constants by a message that has the fields it asks for. -/
def accepts (n : ConstsNode) (c : ControllerConstants) : Bool :=
  match n with
  | .simple => c.forSimple
  | .ballast => c.forBallast

/-- A node publishes its constants every so many iterations. -/
def period : ConstsNode → Nat
  | .simple => 100
  | .ballast => 110

/-- The constants that the constructor sets. -/
def initial (F : Formats) : ConstsNode → ControllerConstants
  | .simple =>
    { maxRudder := some (.num (1 / 2))
      rudderKp := some (.num (1 / 2))
      rudderKi := some (.num (F.float.round (2 / 100)))
      winchKp := some (.num 13)
      sailHeelK := some (.num 0)
      nominalHeel := some (.num 0)
      rigidPortServoPos := some (.num 15)
      rigidStarboardServoPos := some (.num 85) }
  | .ballast =>
    { ballastHeelKp := some (.num (1 / 4))
      ballastHeelKi := some (.num (F.float.round (5 / 100)))
      ballastHeelKd := some (.num 0)
      ballastHeelKffGoal := some (.num (F.float.round (1 / 10)))
      ballastArmKp := some (.num 40)
      ballastArmKd := some (.num 0)
      ballastArmKffArm := some (.num 0)
      ballastArmKffHeel := some (.num 0) }

end ConstsNode

/-- A message on `control_consts`. -/
structure ConstsMsg where
  consts       : ControllerConstants
  fromOperator : Bool
  origin       : Nat
  deriving DecidableEq

/-- A node that was started. -/
structure ConstsHolder where
  consts   : ControllerConstants
  counter  : Nat := 0
  /-- How many messages of the queue were delivered. -/
  next     : Nat := 0
  /-- The origin of the constants that the node holds. -/
  origin   : Nat
  /-- The positions of the operator's updates that the node has accepted. -/
  accepted : List Nat := []
  deriving DecidableEq

structure Constants where
  queue   : List ConstsMsg := []
  simple  : Option ConstsHolder := none
  ballast : Option ConstsHolder := none
  deriving DecidableEq

inductive ConstsAction
  | start (n : ConstsNode)
  | operator (c : ControllerConstants)
  | deliver (n : ConstsNode)
  | iterate (n : ConstsNode)

namespace Constants

def holder (s : Constants) : ConstsNode → Option ConstsHolder
  | .simple => s.simple
  | .ballast => s.ballast

def setHolder (s : Constants) (n : ConstsNode) (h : ConstsHolder) : Constants :=
  match n with
  | .simple => { s with simple := some h }
  | .ballast => { s with ballast := some h }

def publish (s : Constants) (msg : ConstsMsg) : Constants := { s with queue := s.queue ++ [msg] }

/-- The constructor publishes the constants that it sets. -/
def start (F : Formats) (s : Constants) (n : ConstsNode) : Option Constants :=
  match s.holder n with
  | some _ => none
  | none =>
    some ((s.publish ⟨n.initial F, false, s.queue.length⟩).setHolder n
      { consts := n.initial F, origin := s.queue.length })

/-- The handler of `control_consts`. -/
def handle (n : ConstsNode) (h : ConstsHolder) (msg : ConstsMsg) : ConstsHolder :=
  if n.accepts msg.consts then
    { h with
      consts := msg.consts
      next := h.next + 1
      origin := msg.origin
      accepted := if msg.fromOperator then h.next :: h.accepted else h.accepted }
  else { h with next := h.next + 1 }

def deliver (s : Constants) (n : ConstsNode) : Option Constants := do
  let h ← s.holder n
  let msg ← s.queue[h.next]?
  some (s.setHolder n (handle n h msg))

/-- The part of `Iterate` that has to do with the constants. -/
def iterate (s : Constants) (n : ConstsNode) : Option Constants := do
  let h ← s.holder n
  let h := { h with counter := h.counter + 1 }
  let s := s.setHolder n h
  some (if h.counter % n.period = 0 then s.publish ⟨h.consts, false, h.origin⟩ else s)

def step (F : Formats) (s : Constants) : ConstsAction → Option Constants
  | .start n => s.start F n
  | .operator c => some (s.publish ⟨c, true, s.queue.length⟩)
  | .deliver n => s.deliver n
  | .iterate n => s.iterate n

-- ---------------------------------------------------------------------------
-- What one step does
-- ---------------------------------------------------------------------------

section Cases

variable {F : Formats} {s s' : Constants} {a : ConstsAction} {n : ConstsNode}

@[simp] theorem holder_setHolder_self (n : ConstsNode) (h : ConstsHolder) :
    (s.setHolder n h).holder n = some h := by
  cases n <;> rfl

/-- Other nodes keep theirs. -/
theorem holder_setHolder_of_ne {m n : ConstsNode} (hne : m ≠ n) (h : ConstsHolder) :
    (s.setHolder n h).holder m = s.holder m := by
  cases m <;> cases n <;> first | rfl | exact absurd rfl hne

/-- What holds of every node holds after a change of one, if it holds of what that one
became. -/
theorem forall_setHolder {P : ConstsNode → ConstsHolder → Prop} {h : ConstsHolder}
    (hAll : ∀ m, ∀ g ∈ s.holder m, P m g) (hP : P n h) :
    ∀ m, ∀ g ∈ (s.setHolder n h).holder m, P m g := by
  intro m g hg
  by_cases hEq : m = n
  · subst hEq
    rw [holder_setHolder_self, Option.mem_some_iff] at hg
    exact hg ▸ hP
  · rw [holder_setHolder_of_ne hEq] at hg
    exact hAll m g hg

@[simp] theorem queue_setHolder (n : ConstsNode) (h : ConstsHolder) :
    (s.setHolder n h).queue = s.queue := by
  cases n <;> rfl

@[simp] theorem holder_publish (msg : ConstsMsg) (n : ConstsNode) :
    (s.publish msg).holder n = s.holder n := by
  cases n <;> rfl

/-- A message is delivered to a node that runs, if there is one that it has not read. -/
theorem deliver_eq_some :
    s.deliver n = some s' ↔ ∃ h msg, s.holder n = some h ∧ s.queue[h.next]? = some msg ∧
      s' = s.setHolder n (handle n h msg) := by
  simp only [deliver, Option.bind_eq_bind, Option.bind_eq_some_iff, Option.some.injEq]
  constructor
  · rintro ⟨h, hh, msg, hmsg, rfl⟩
    exact ⟨h, msg, hh, hmsg, rfl⟩
  · rintro ⟨h, msg, hh, hmsg, rfl⟩
    exact ⟨h, hh, msg, hmsg, rfl⟩

/-- A step publishes a new set, or delivers a message, or is an iteration. -/
theorem step_cases (hstep : step F s a = some s') :
    (∃ n, a = .start n ∧ s.holder n = none ∧
      s' = (s.publish ⟨n.initial F, false, s.queue.length⟩).setHolder n
        { consts := n.initial F, origin := s.queue.length }) ∨
    (∃ c, a = .operator c ∧ s' = s.publish ⟨c, true, s.queue.length⟩) ∨
    (∃ n h msg, a = .deliver n ∧ s.holder n = some h ∧ s.queue[h.next]? = some msg ∧
      s' = s.setHolder n (handle n h msg)) ∨
    (∃ n h, a = .iterate n ∧ s.holder n = some h ∧
      s' = if (h.counter + 1) % n.period = 0 then
          (s.setHolder n { h with counter := h.counter + 1 }).publish ⟨h.consts, false, h.origin⟩
        else s.setHolder n { h with counter := h.counter + 1 }) := by
  cases a with
  | start n =>
    simp only [step, start] at hstep
    split at hstep
    · cases hstep
    · next hNone => exact .inl ⟨n, rfl, hNone, (Option.some.inj hstep).symm⟩
  | operator c => exact .inr (.inl ⟨c, rfl, (Option.some.inj hstep).symm⟩)
  | deliver n =>
    obtain ⟨h, msg, hh, hmsg, rfl⟩ := deliver_eq_some.mp hstep
    exact .inr (.inr (.inl ⟨n, h, msg, rfl, hh, hmsg, rfl⟩))
  | iterate n =>
    simp only [step, iterate, Option.bind_eq_bind, Option.bind_eq_some_iff,
      Option.some.injEq] at hstep
    obtain ⟨h, hh, rfl⟩ := hstep
    exact .inr (.inr (.inr ⟨n, h, rfl, hh, rfl⟩))

end Cases

-- ---------------------------------------------------------------------------
-- The operator's updates
-- ---------------------------------------------------------------------------

/-- The operator published the message at this position. -/
def operatorAt (queue : List ConstsMsg) (u : Nat) : Bool := queue[u]?.any (·.fromOperator)

/-- A set of this origin is not older than any update in the queue. -/
def Current (queue : List ConstsMsg) (origin : Nat) : Prop :=
  ∀ u < queue.length, operatorAt queue u = true → u ≤ origin

/-- A copy that a node publishes is not older than an update in the queue. -/
def NoStaleCopy (s : Constants) : ConstsAction → Prop
  | .iterate n => ∀ h ∈ s.holder n, (h.counter + 1) % n.period = 0 → Current s.queue h.origin
  | _ => True

instance (queue : List ConstsMsg) (origin : Nat) : Decidable (Current queue origin) :=
  inferInstanceAs (Decidable (∀ u < queue.length, operatorAt queue u = true → u ≤ origin))

instance (s : Constants) (a : ConstsAction) : Decidable (NoStaleCopy s a) :=
  match a with
  | .iterate n => inferInstanceAs (Decidable
      (∀ h ∈ s.holder n, (h.counter + 1) % n.period = 0 → Current s.queue h.origin))
  | .start _ | .operator _ | .deliver _ => .isTrue trivial

/-- No node holds a set that is older than an update that it has accepted. -/
def NotReverted (s : Constants) : Prop :=
  ∀ n, ∀ h ∈ s.holder n, ∀ u ∈ h.accepted, u ≤ h.origin

section Updates

variable {F : Formats} {s s' : Constants} {a : ConstsAction} {n : ConstsNode}
  {queue : List ConstsMsg} {msg : ConstsMsg} {h : ConstsHolder} {u : Nat}

/-- What the operator has sent is on the queue. -/
theorem operatorAt_lt (hu : operatorAt queue u = true) : u < queue.length := by
  by_contra hLen
  rw [operatorAt, List.getElem?_eq_none (by omega)] at hu
  cases hu

/-- One more message may be the operator's. -/
theorem operatorAt_append :
    operatorAt (queue ++ [msg]) u = true ↔
      operatorAt queue u = true ∨ (u = queue.length ∧ msg.fromOperator = true) := by
  rcases lt_trichotomy u queue.length with hLt | rfl | hGt
  · rw [operatorAt, List.getElem?_append_left hLt, ← operatorAt]
    simp [hLt.ne]
  · simp [operatorAt]
  · have hNot : operatorAt queue u ≠ true := fun hu => absurd (operatorAt_lt hu) (by omega)
    have hNone : operatorAt (queue ++ [msg]) u ≠ true := fun hu => by
      have hLen := operatorAt_lt hu
      rw [List.length_append, List.length_singleton] at hLen
      omega
    simp [hNot, hNone, hGt.ne']

/-- No message is older than an update in front of it. -/
def Fresh (queue : List ConstsMsg) : Prop :=
  ∀ p msg u, queue[p]? = some msg → operatorAt queue u = true → u ≤ p → u ≤ msg.origin

/-- A queue stays fresh with a message that is made from the last setting. -/
theorem Fresh.publish (hFresh : Fresh queue) (hCurrent : Current queue msg.origin)
    (hOwn : msg.fromOperator = true → queue.length ≤ msg.origin) : Fresh (queue ++ [msg]) := by
  intro p m u hp hu hup
  rw [List.getElem?_append] at hp
  split at hp
  · next hLt =>
    -- an older message, and the updates in front of it are older ones too
    rcases operatorAt_append.mp hu with hu | ⟨rfl, _⟩
    · exact hFresh p m u hp hu hup
    · omega
  · obtain rfl : msg = m := by
      rw [List.getElem?_singleton] at hp
      split at hp
      · exact Option.some.inj hp
      · cases hp
    rcases operatorAt_append.mp hu with hu | ⟨rfl, hOperator⟩
    · exact hCurrent u (operatorAt_lt hu) hu
    · exact hOwn hOperator

/-- The updates that a node has accepted were delivered to it, and what it holds is not
older. -/
structure HolderInv (queue : List ConstsMsg) (h : ConstsHolder) : Prop where
  delivered : ∀ u ∈ h.accepted, u < h.next ∧ operatorAt queue u = true
  current   : ∀ u ∈ h.accepted, u ≤ h.origin

/-- What a node has does not change with the queue. -/
theorem HolderInv.publish (hInv : HolderInv queue h) : HolderInv (queue ++ [msg]) h where
  delivered u hu := by
    obtain ⟨hNext, hOperator⟩ := hInv.delivered u hu
    exact ⟨hNext, operatorAt_append.mpr (.inl hOperator)⟩
  current := hInv.current

/-- A node that reads the next message has the last setting up to there. -/
theorem HolderInv.handle (hFresh : Fresh queue) (hInv : HolderInv queue h)
    (hmsg : queue[h.next]? = some msg) : HolderInv queue (handle n h msg) := by
  unfold Constants.handle
  split
  · -- the updates accepted so far, and the message itself if it is one
    have hAccepted : ∀ u ∈ (if msg.fromOperator then h.next :: h.accepted else h.accepted),
        u < h.next + 1 ∧ operatorAt queue u = true := by
      intro u hu
      split at hu
      · next hOperator =>
        rcases List.mem_cons.mp hu with rfl | hu
        · exact ⟨by omega, by simp [operatorAt, hmsg, hOperator]⟩
        · exact ⟨by have := (hInv.delivered u hu).1; omega, (hInv.delivered u hu).2⟩
      · exact ⟨by have := (hInv.delivered u hu).1; omega, (hInv.delivered u hu).2⟩
    refine ⟨hAccepted, ?_⟩
    intro u hu
    obtain ⟨hNext, hOperator⟩ := hAccepted u hu
    exact hFresh h.next msg u hmsg hOperator (by omega)
  · exact ⟨fun u hu => ⟨Nat.lt_succ_of_lt (hInv.delivered u hu).1, (hInv.delivered u hu).2⟩,
      hInv.current⟩

structure Inv (s : Constants) : Prop where
  fresh  : Fresh s.queue
  holder : ∀ n, ∀ h ∈ s.holder n, HolderInv s.queue h

/-- A copy of what is current goes on the queue. -/
theorem Inv.publish (hInv : Inv s) (hCurrent : Current s.queue msg.origin)
    (hOwn : msg.fromOperator = true → s.queue.length ≤ msg.origin) : Inv (s.publish msg) where
  fresh := hInv.fresh.publish hCurrent hOwn
  holder n h hh := by
    rw [holder_publish] at hh
    exact (hInv.holder n h hh).publish

/-- A node reads on. -/
theorem Inv.setHolder (hInv : Inv s) (hHolder : HolderInv s.queue h) : Inv (s.setHolder n h) where
  fresh := by
    rw [queue_setHolder]
    exact hInv.fresh
  holder := by
    rw [queue_setHolder]
    exact forall_setHolder hInv.holder hHolder

/-- A set that is published for the first time is current. -/
theorem current_length (queue : List ConstsMsg) : Current queue queue.length :=
  fun _ hu _ => hu.le

/-- One step, unless it publishes a stale copy. -/
theorem step_inv (hInv : Inv s) (hCopy : NoStaleCopy s a) (hstep : step F s a = some s') :
    Inv s' := by
  rcases step_cases hstep with ⟨n, rfl, _, rfl⟩ | ⟨c, rfl, rfl⟩ | ⟨n, h, msg, rfl, hh, hmsg, rfl⟩ |
    ⟨n, h, rfl, hh, rfl⟩
  · refine (hInv.publish (current_length _) ?_).setHolder ⟨?_, ?_⟩
    · intro hOwn
      cases hOwn
    · exact fun u hu => absurd hu List.not_mem_nil
    · exact fun u hu => absurd hu List.not_mem_nil
  · exact hInv.publish (current_length _) fun _ => le_rfl
  · exact hInv.setHolder ((hInv.holder n h hh).handle hInv.fresh hmsg)
  · have hHolder := hInv.holder n h hh
    have hCounted : Inv (s.setHolder n { h with counter := h.counter + 1 }) :=
      hInv.setHolder ⟨hHolder.delivered, hHolder.current⟩
    split
    · next hPeriod =>
      refine hCounted.publish ?_ nofun
      rw [queue_setHolder]
      exact hCopy h hh hPeriod
    · exact hCounted

/-- **Constants are not reverted.** In every run in which no node publishes a copy that is
older than an update in the queue, a node that has accepted an update of the operator
never again holds a set that was first published before it. -/
theorem never_reverted (F : Formats) (as : List ConstsAction)
    (hCopy : Along (step F) NoStaleCopy {} as) (hrun : run (step F) {} as = some s) :
    NotReverted s := by
  have hInit : Inv {} := by
    refine ⟨?_, ?_⟩
    · intro p msg u hp
      simp at hp
    · intro n h hh
      cases n <;> cases hh
  have hInv : Inv s :=
    inv_of_run (fun _ _ _ hInv hCopy hstep => step_inv hInv hCopy hstep) hInit hCopy hrun
  exact fun n h hh => (hInv.holder n h hh).current

/-- Every field set to one value. -/
def everywhere (x : Fp) : ControllerConstants :=
  ⟨some x, some x, some x, some x, some x, some x, some x, some x, some x, some x, some x, some x,
    some x, some x, some x, some x, some x⟩

/-- An update that reaches `SimpleControl` before its next copy. -/
theorem never_reverted_prompt_delivery :
    let as := [.start .simple, .operator (everywhere (.num 1)), .deliver .simple,
      .deliver .simple] ++ List.replicate 100 (.iterate .simple) ++ [ConstsAction.deliver .simple]
    ∃ s, run (step .exact) {} as = some s ∧ NotReverted s := by
  have hrun : run (step .exact) {} ([.start .simple, .operator (everywhere (.num 1)),
      .deliver .simple, .deliver .simple] ++ List.replicate 100 (.iterate .simple) ++
      [.deliver .simple]) =
      some {
        queue := [⟨ConstsNode.simple.initial .exact, false, 0⟩, ⟨everywhere (.num 1), true, 1⟩,
          ⟨everywhere (.num 1), false, 1⟩]
        simple := some ⟨everywhere (.num 1), 100, 3, 1, [1]⟩ } := by
    decide +kernel
  exact ⟨_, hrun, never_reverted _ _ (by decide +kernel) hrun⟩

/-- `SimpleControl` publishes its old constants while an update waits, accepts the update,
and then its own message. -/
theorem reverted_by_own_copy :
    ¬ ∀ (F : Formats) (as : List ConstsAction) (s : Constants),
      (∀ c, .operator c ∈ as → c.complete = true) → run (step F) {} as = some s →
        NotReverted s := by
  intro hAll
  have hrun : run (step .exact) {} ([.start .simple, .operator (everywhere (.num 1))] ++
      List.replicate 100 (.iterate .simple) ++
      [.deliver .simple, .deliver .simple, .deliver .simple]) =
      some {
        queue := [⟨ConstsNode.simple.initial .exact, false, 0⟩, ⟨everywhere (.num 1), true, 1⟩,
          ⟨ConstsNode.simple.initial .exact, false, 0⟩]
        simple := some ⟨ConstsNode.simple.initial .exact, 100, 3, 0, [1]⟩ } := by
    decide +kernel
  have hReverted := hAll _ _ _ (fun c hc => ?_) hrun .simple _ rfl 1 (by decide)
  · exact absurd hReverted (by decide)
  · obtain rfl : c = everywhere (.num 1) := by simpa using hc
    rfl

-- ---------------------------------------------------------------------------
-- Stale copies
-- ---------------------------------------------------------------------------

/-- A node holds constants that it accepts, and has accepted every update that was
delivered to it and that it accepts. -/
structure Reads (queue : List ConstsMsg) (n : ConstsNode) (h : ConstsHolder) : Prop where
  holds : n.accepts h.consts = true
  reads : ∀ u m, queue[u]? = some m → m.fromOperator = true → n.accepts m.consts = true →
    u < h.next → u ∈ h.accepted
  next  : h.next ≤ queue.length

/-- A node accepts its own defaults. -/
theorem accepts_initial (F : Formats) (n : ConstsNode) : n.accepts (n.initial F) = true := by
  cases n <;> rfl

/-- Every message changes what the node has if it is for it. -/
theorem Reads.handle (hReads : Reads queue n h) (hmsg : queue[h.next]? = some msg) :
    Reads queue n (handle n h msg) := by
  have hNext : h.next + 1 ≤ queue.length := (List.getElem?_eq_some_iff.mp hmsg).1
  unfold Constants.handle
  split
  · next hAccepts =>
    refine ⟨hAccepts, fun u m hu hOperator hm hLt => ?_, hNext⟩
    rcases Nat.lt_succ_iff_lt_or_eq.mp hLt with hLt | rfl
    · have hOld := hReads.reads u m hu hOperator hm hLt
      split
      · exact List.mem_cons_of_mem _ hOld
      · exact hOld
    · obtain rfl : msg = m := Option.some.inj (hmsg.symm.trans hu)
      rw [if_pos hOperator]
      exact List.mem_cons_self
  · next hAccepts =>
    refine ⟨hReads.holds, fun u m hu hOperator hm hLt => ?_, hNext⟩
    rcases Nat.lt_succ_iff_lt_or_eq.mp hLt with hLt | rfl
    · exact hReads.reads u m hu hOperator hm hLt
    · obtain rfl : msg = m := Option.some.inj (hmsg.symm.trans hu)
      exact absurd hm hAccepts

/-- A message that is on its way changes nothing yet. -/
theorem Reads.publish (hReads : Reads queue n h) : Reads (queue ++ [msg]) n h where
  holds := hReads.holds
  reads u m hu hOperator hm hLt := by
    rw [List.getElem?_append_left (by have := hReads.next; omega)] at hu
    exact hReads.reads u m hu hOperator hm hLt
  next := by
    rw [List.length_append]
    exact Nat.le_add_right_of_le hReads.next

def AllRead (s : Constants) : Prop := ∀ n, ∀ h ∈ s.holder n, Reads s.queue n h

/-- One node reads on. -/
theorem AllRead.setHolder (hAll : AllRead s) (hReads : Reads s.queue n h) :
    AllRead (s.setHolder n h) := by
  rw [AllRead, queue_setHolder]
  exact forall_setHolder hAll hReads

/-- A message that is on its way changes nothing yet, for any node. -/
theorem AllRead.publish (hAll : AllRead s) : AllRead (s.publish msg) := by
  intro n h hh
  rw [holder_publish] at hh
  exact (hAll n h hh).publish

/-- One step. -/
theorem step_allRead (hAll : AllRead s) (hstep : step F s a = some s') : AllRead s' := by
  rcases step_cases hstep with ⟨n, rfl, _, rfl⟩ | ⟨c, rfl, rfl⟩ | ⟨n, h, msg, rfl, hh, hmsg, rfl⟩ |
    ⟨n, h, rfl, hh, rfl⟩
  · refine hAll.publish.setHolder ⟨accepts_initial F n, ?_, Nat.zero_le _⟩
    exact fun u m _ _ _ hLt => absurd hLt (Nat.not_lt_zero u)
  · exact hAll.publish
  · exact hAll.setHolder ((hAll n h hh).handle hmsg)
  · have hReads := hAll n h hh
    have hCounted : AllRead (s.setHolder n { h with counter := h.counter + 1 }) :=
      hAll.setHolder ⟨hReads.holds, hReads.reads, hReads.next⟩
    split
    · exact hCounted.publish
    · exact hCounted

/-- In every run each node has what it has read. -/
theorem run_allRead {as : List ConstsAction} (hrun : run (step F) {} as = some s) : AllRead s :=
  inv_of_run_forall (fun _ _ _ hAll hstep => step_allRead hAll hstep)
    (fun n _ hh => by cases n <;> cases hh) hrun

/-- Both nodes accept an update that has all fields. -/
theorem accepts_of_complete {c : ControllerConstants} (n : ConstsNode) (h : c.complete = true) :
    n.accepts c = true := by
  simp only [ControllerConstants.complete, Bool.and_eq_true] at h
  cases n with
  | simple => exact h.1.1.1
  | ballast => exact h.1.1.2

/-- A message that is there can be delivered. -/
theorem step_deliver (hh : s.holder n = some h) (hmsg : s.queue[h.next]? = some msg) :
    step F s (.deliver n) = some (s.setHolder n (handle n h msg)) :=
  deliver_eq_some.mpr ⟨h, msg, hh, hmsg, rfl⟩

/-- A node reads one message after the other. -/
theorem next_handle (n : ConstsNode) (h : ConstsHolder) (msg : ConstsMsg) :
    (handle n h msg).next = h.next + 1 := by
  unfold handle
  split <;> rfl

/-- The next messages of the queue can be delivered to a node, up to any position. -/
theorem exists_delivered (F : Formats) {d : Nat} :
    ∀ {s : Constants} {h : ConstsHolder}, s.holder n = some h → Reads s.queue n h →
      h.next + d ≤ s.queue.length →
      ∃ t g, run (step F) s (List.replicate d (.deliver n)) = some t ∧ t.queue = s.queue ∧
        t.holder n = some g ∧ Reads s.queue n g ∧ g.next = h.next + d := by
  induction d with
  | zero => exact fun {s h} hh hReads _ => ⟨s, h, rfl, rfl, hh, hReads, rfl⟩
  | succ d ih =>
    intro s h hh hReads hLen
    have hmsg : s.queue[h.next]? = some (s.queue[h.next]) := List.getElem?_eq_getElem (by omega)
    have hNext := next_handle n h s.queue[h.next]
    obtain ⟨t, g, hrun, hQueue, hg, hReads', hNext'⟩ :=
      ih (s := s.setHolder n (handle n h s.queue[h.next])) (holder_setHolder_self _ _)
        (by rw [queue_setHolder]; exact hReads.handle hmsg)
        (by rw [queue_setHolder, hNext]; omega)
    rw [queue_setHolder] at hQueue hReads'
    refine ⟨t, g, run_cons_eq_some.mpr ⟨_, step_deliver hh hmsg, hrun⟩, hQueue, hg, hReads', ?_⟩
    omega

/-- **A stale copy.** A node that publishes a copy of a set older than an update in the
queue that has all fields goes back behind this update when the queue is delivered to
it. -/
theorem reverts_after_stale_copy (F : Formats) (as : List ConstsAction)
    (hrun : run (step F) {} as = some s) (hh : s.holder n = some h)
    (hPeriod : (h.counter + 1) % n.period = 0) (hu : s.queue[u]? = some msg)
    (hOperator : msg.fromOperator = true) (hComplete : msg.consts.complete = true)
    (hStale : h.origin < u) :
    ∃ d t, run (step F) s (.iterate n :: List.replicate d (.deliver n)) = some t ∧
      ¬ NotReverted t := by
  have hAll : AllRead s := run_allRead hrun
  have hNext := (hAll n h hh).next
  let copied :=
    (s.setHolder n { h with counter := h.counter + 1 }).publish ⟨h.consts, false, h.origin⟩
  have hCopied : step F s (.iterate n) = some copied := by
    simp [step, iterate, hh, hPeriod, copied]
  have hQueue : copied.queue = s.queue ++ [⟨h.consts, false, h.origin⟩] := by
    simp [copied, publish]
  have hHolder : copied.holder n = some { h with counter := h.counter + 1 } := by simp [copied]
  -- everything in front of the copy is delivered, the update among it
  obtain ⟨t, g, hDeliver, htQueue, hg, hReads, hgNext⟩ :=
    exists_delivered F (d := s.queue.length - h.next) hHolder
      (step_allRead hAll hCopied n _ hHolder)
      (by rw [hQueue, List.length_append]; dsimp only; omega)
  have hLast : g.next = s.queue.length := by
    rw [hgNext]
    dsimp only
    omega
  have huLt : u < s.queue.length := (List.getElem?_eq_some_iff.mp hu).1
  have hAccepted : u ∈ g.accepted := by
    refine hReads.reads u msg ?_ hOperator (accepts_of_complete n hComplete) (by omega)
    rw [hQueue, List.getElem?_append_left huLt, hu]
  -- and then the copy, which the node accepts because it held it
  have hCopy : t.queue[g.next]? = some ⟨h.consts, false, h.origin⟩ := by
    rw [htQueue, hQueue, hLast]
    simp
  refine ⟨s.queue.length - h.next + 1, t.setHolder n (handle n g ⟨h.consts, false, h.origin⟩),
    run_cons_eq_some.mpr ⟨copied, hCopied, ?_⟩, ?_⟩
  · rw [List.replicate_succ', run_append_eq_some]
    exact ⟨t, hDeliver, run_cons_eq_some.mpr ⟨_, step_deliver hg hCopy, rfl⟩⟩
  · intro hNot
    have hLe := hNot n _ (holder_setHolder_self _ _) u
      (by rw [handle, if_pos (hAll n h hh).holds]; exact hAccepted)
    rw [handle, if_pos (hAll n h hh).holds] at hLe
    exact absurd hLe (by dsimp only; omega)

end Updates

end Constants

end Sailbot.Control

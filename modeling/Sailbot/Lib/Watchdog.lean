import Mathlib.Data.List.Induction

/-!
# Watchdogs

A flag that is set when something is heard of, and cleared at a check when nothing was for longer
than a timeout. The last time is kept, zero at first.

* `Watchdog.after`     — the flag after reports and checks in any order.
* `Watchdog.alive_iff` — it is set at a check, if and only if there was a report within the timeout.
-/

namespace Sailbot.Lib

inductive WatchdogMsg
  | heard (now : Int)
  | check (now : Int)

structure Watchdog where
  alive : Bool := false
  last  : Int := 0

namespace Watchdog

def time : WatchdogMsg → Int
  | .heard now | .check now => now

section

variable (timeout : Int)

def step (s : Watchdog) : WatchdogMsg → Watchdog
  | .heard now => { alive := true, last := now }
  | .check now => if now > s.last + timeout then { s with alive := false } else s

def after (as : List WatchdogMsg) : Watchdog := as.foldl (step timeout) {}

@[simp] theorem after_concat (as : List WatchdogMsg) (a : WatchdogMsg) :
    after timeout (as ++ [a]) = (after timeout as).step timeout a :=
  List.foldl_append

end

/-- The clock does not run backwards. -/
def ClockForward (as : List WatchdogMsg) : Prop := (as.map time).Pairwise (· ≤ ·)

variable {timeout : Int} {as : List WatchdogMsg} {a b : WatchdogMsg} {s : Watchdog}

/-- No event is later than the last one. -/
theorem ClockForward.le (h : ClockForward (as ++ [b])) (hMem : a ∈ as) : time a ≤ time b := by
  rw [ClockForward, List.map_append] at h
  exact (List.pairwise_append.mp h).2.2 (time a) (List.mem_map_of_mem hMem) (time b)
    List.mem_cons_self

/-- The events before the last one are in order too. -/
theorem ClockForward.init (h : ClockForward (as ++ [b])) : ClockForward as := by
  rw [ClockForward, List.map_append] at h
  exact (List.pairwise_append.mp h).1

/-- What the flag says of the reports in `as`. -/
structure Knows (timeout : Int) (as : List WatchdogMsg) (s : Watchdog) : Prop where
  last  : ∀ t, .heard t ∈ as → t ≤ s.last
  alive : s.alive = true → .heard s.last ∈ as
  dead  : s.alive = false → ∀ t, .heard t ∈ as → ∃ b ∈ as, t + timeout < time b

/-- A check knows what was heard before it. -/
theorem Knows.check (h : Knows timeout as s) (now : Int) :
    Knows timeout (as ++ [.check now]) (s.step timeout (.check now)) := by
  have hMem : ∀ t, .heard t ∈ as ++ [.check now] → .heard t ∈ as := by
    intro t ht
    rcases List.mem_append.mp ht with ht | ht
    · exact ht
    · cases List.mem_singleton.mp ht
  rw [step]
  split
  · next hLate =>
    refine ⟨fun t ht => h.last t (hMem t ht), nofun, ?_⟩
    intro _ t ht
    have hOld := h.last t (hMem t ht)
    exact ⟨_, List.mem_append_right _ List.mem_cons_self, show t + timeout < now by omega⟩
  · refine ⟨fun t ht => h.last t (hMem t ht), ?_, ?_⟩
    · exact fun hAlive => List.mem_append_left _ (h.alive hAlive)
    · intro hDead t ht
      obtain ⟨b, hb, hLate⟩ := h.dead hDead t (hMem t ht)
      exact ⟨b, List.mem_append_left _ hb, hLate⟩

/-- Events in order are known. -/
theorem knows_after (hClock : ClockForward as) : Knows timeout as (after timeout as) := by
  induction as using List.reverseRecOn with
  | nil =>
    have hNone : ∀ t, .heard t ∉ ([] : List WatchdogMsg) := fun _ => List.not_mem_nil
    exact ⟨fun t h => absurd h (hNone t), nofun, fun _ t h => absurd h (hNone t)⟩
  | append_singleton as a ih =>
    rw [after_concat]
    cases a with
    | check now => exact (ih hClock.init).check now
    | heard now =>
      refine ⟨?_, fun _ => List.mem_append_right _ List.mem_cons_self, nofun⟩
      intro t ht
      rcases List.mem_append.mp ht with ht | ht
      · exact hClock.le ht
      · cases List.mem_singleton.mp ht
        exact Int.le_refl _

/-- **At a check.** -/
theorem alive_iff {now : Int} (hClock : ClockForward (as ++ [.check now])) :
    (after timeout (as ++ [.check now])).alive = true ↔
      ∃ t, .heard t ∈ as ∧ now ≤ t + timeout := by
  have hBefore : Knows timeout as (after timeout as) := knows_after hClock.init
  rw [after_concat, step]
  constructor
  · intro hAlive
    split at hAlive
    · cases hAlive
    · next hSoon => exact ⟨_, hBefore.alive hAlive, by omega⟩
  · rintro ⟨t, ht, hSoon⟩
    have hLast := hBefore.last t ht
    rw [if_neg (by omega)]
    by_contra hDead
    obtain ⟨b, hb, hLate⟩ := hBefore.dead (Bool.eq_false_iff.mpr hDead) t ht
    have hEarlier := hClock.le hb
    rw [show time (.check now) = now from rfl] at hEarlier
    omega

end Watchdog

end Sailbot.Lib

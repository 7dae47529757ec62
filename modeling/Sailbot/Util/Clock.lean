import Sailbot.Lib.Transition
import Sailbot.Lib.PriorityQueue
import Sailbot.Lib.Family
import Mathlib.Algebra.Order.Group.Multiset
import Mathlib.Algebra.Ring.Int.Defs
import Mathlib.Data.Fintype.Pi

/-!
# The fake clock

When the clock is fake (`util/clock.h`, `util/clock.cc`), time stands still while a thread
holds the shared lock of its `ClockInstance`, and that is always but while it waits in
`sleep_until`. `ClockManager::Run` takes the lock exclusively and moves the time to the
next wakeup. Any number of threads and any ordered type of times.

`sleep_until` has two steps here between which other threads can come: the call, up to the
wait, and the test of the wait's predicate, which is made once before the thread waits and
again after every wakeup, due or spurious. Each holds the lock throughout.

* `Clock.step`       — threads, manager, shutdown and restart.
* `Clock.step_cases` — everything that a step can do.
* `Clock.Holds`      — the heap holds the deadlines of the sleepers, and what else it may hold.
* `Clock.run_works`  — steps of the threads and of the manager keep it so.
-/

namespace Sailbot.Util

open Lib

/-- A thread with respect to its `ClockInstance`. -/
inductive Thread (τ : Type)
  /-- Without an instance: not constructed yet, or cleaned up. -/
  | absent
  /-- Outside `sleep_until`, with the lock. -/
  | running
  /-- In `sleep_until`, with the lock, about to test the predicate. -/
  | testing (t : τ)
  /-- In `sleep_until`, waiting without the lock. -/
  | waiting (t : τ)
  deriving DecidableEq

namespace Thread

variable {τ : Type}

def holdsLock : Thread τ → Bool
  | running | testing _ => true
  | absent | waiting _ => false

/-- What the thread sleeps for. -/
def deadline : Thread τ → Option τ
  | testing t | waiting t => some t
  | absent | running => none

end Thread

structure Clock (ι τ : Type) [LE τ] where
  time        : τ
  wakeupTimes : PriorityQueue τ
  threads     : ι → Thread τ
  shutdown    : Bool
  /-- `ClockManager::Run` has not returned. -/
  managed     : Bool

inductive ClockAction (ι τ : Type)
  | construct (i : ι)
  | cleanUp (i : ι)
  | sleepUntil (i : ι) (t : τ)
  | test (i : ι)
  | wake (i : ι)
  | manage
  | raiseShutdown
  | restart

namespace Clock

variable {ι τ : Type} [LinearOrder τ]

instance [Fintype ι] [DecidableEq ι] : DecidableEq (Clock ι τ) := fun s t =>
  decidable_of_iff (s.time = t.time ∧ s.wakeupTimes = t.wakeupTimes ∧ s.threads = t.threads ∧
    s.shutdown = t.shutdown ∧ s.managed = t.managed) (by
      cases s
      cases t
      simp)

def nextWakeup (s : Clock ι τ) : τ := s.wakeupTimes.top.getD s.time

/-- What the manager does in its loop and once more after it: `time_` goes to the next wakeup,
unless that is in the past. -/
def advance (s : Clock ι τ) : Clock ι τ :=
  if s.time ≤ s.nextWakeup then { s with time := s.nextWakeup } else s

def setWakeup (s : Clock ι τ) (t : τ) : Clock ι τ :=
  let pushed := if s.time < t then s.wakeupTimes.push t else s.wakeupTimes
  { s with wakeupTimes := pushed.popBelow s.time }

/-- What the predicate of the wait does to the heap when the time has come. -/
def popWakeup (s : Clock ι τ) (t : τ) : Clock ι τ :=
  if s.wakeupTimes.top = some t then { s with wakeupTimes := s.wakeupTimes.pop } else s

section Heap

variable {s : Clock ι τ} {t u : τ}

@[simp] theorem time_popWakeup (t : τ) : (s.popWakeup t).time = s.time := by
  rw [popWakeup]
  split <;> rfl

@[simp] theorem managed_popWakeup (t : τ) : (s.popWakeup t).managed = s.managed := by
  rw [popWakeup]
  split <;> rfl

@[simp] theorem shutdown_popWakeup (t : τ) : (s.popWakeup t).shutdown = s.shutdown := by
  rw [popWakeup]
  split <;> rfl

@[simp] theorem shutdown_advance : s.advance.shutdown = s.shutdown := by
  rw [advance]
  split <;> rfl

@[simp] theorem threads_advance : s.advance.threads = s.threads := by
  rw [advance]
  split <;> rfl

/-- The time does not go back. -/
theorem time_le_advance (s : Clock ι τ) : s.time ≤ s.advance.time := by
  rw [advance]
  split
  · assumption
  · exact le_rfl

/-- `SetWakeup` drops what is in the past, and puts the new time on the heap. -/
theorem toMultiset_setWakeup (ht : s.time < t) :
    (s.setWakeup t).wakeupTimes.toMultiset =
      t ::ₘ s.wakeupTimes.toMultiset.filter (s.time ≤ ·) := by
  rw [setWakeup, if_pos ht, PriorityQueue.toMultiset_popBelow, PriorityQueue.toMultiset_push,
    Multiset.filter_cons_of_pos _ ht.le]

/-- The next wakeup is the least time on the heap, if there is one. -/
theorem nextWakeup_mem (hw : s.wakeupTimes.toMultiset ≠ 0) :
    s.nextWakeup ∈ s.wakeupTimes.toMultiset ∧
      ∀ w ∈ s.wakeupTimes.toMultiset, s.nextWakeup ≤ w := by
  cases hTop : s.wakeupTimes.top with
  | none => exact absurd (PriorityQueue.top_eq_none_iff.mp hTop) hw
  | some w =>
    rw [nextWakeup, hTop]
    exact PriorityQueue.top_eq_some_iff.mp hTop

/-- The next wakeup is not behind any time on the heap. -/
theorem nextWakeup_le (hu : u ∈ s.wakeupTimes.toMultiset) : s.nextWakeup ≤ u := by
  refine (nextWakeup_mem fun hEmpty => ?_).2 u hu
  rw [hEmpty] at hu
  exact Multiset.notMem_zero u hu

end Heap

section Steps

variable [DecidableEq ι]

def setThread (s : Clock ι τ) (i : ι) (p : Thread τ) : Clock ι τ :=
  { s with threads := Function.update s.threads i p }

/-- The body of `sleep_until` up to the wait. -/
def sleepUntil (s : Clock ι τ) (i : ι) (t : τ) : Clock ι τ :=
  if t ≤ s.time then s else (s.setWakeup t).setThread i (.testing t)

/-- The predicate, and what the wait does with its result. -/
def test (s : Clock ι τ) (i : ι) (t : τ) : Clock ι τ :=
  if s.shutdown then s.setThread i .running
  else if t ≤ s.time then (s.popWakeup t).setThread i .running
  else s.setThread i (.waiting t)

/-- `CancelShutdown`, `SetFakeClock(true, true)` and a new `Run(0)` up to its loop. -/
def restarted [Zero τ] (s : Clock ι τ) : Clock ι τ :=
  { s with time := 0, shutdown := false, managed := true }

def step [Fintype ι] [Zero τ] (s : Clock ι τ) : ClockAction ι τ → Option (Clock ι τ)
  | .construct i =>
    match s.threads i with
    | .absent => some (s.setThread i .running)
    | _ => none
  | .cleanUp i =>
    match s.threads i with
    | .running => some (s.setThread i .absent)
    | _ => none
  | .sleepUntil i t =>
    match s.threads i with
    | .running => some (s.sleepUntil i t)
    | _ => none
  | .test i =>
    match s.threads i with
    | .testing t => some (s.test i t)
    | _ => none
  | .wake i =>
    match s.threads i with
    | .waiting t => some (s.setThread i (.testing t))
    | _ => none
  | .manage =>
    -- a shutdown ends the loop, and what comes after the loop is the same once more
    if s.managed ∧ ∀ i, (s.threads i).holdsLock = false then
      some { s.advance with managed := !s.shutdown }
    else none
  | .raiseShutdown => some { s with shutdown := true }
  | .restart =>
    if s.shutdown ∧ ∀ i, (s.threads i).deadline = none then some s.restarted else none

-- ---------------------------------------------------------------------------
-- What one step does
-- ---------------------------------------------------------------------------

variable {s s' : Clock ι τ} {a : ClockAction ι τ} {i j : ι}

@[simp] theorem time_setThread (p : Thread τ) : (s.setThread i p).time = s.time := rfl

@[simp] theorem wakeupTimes_setThread (p : Thread τ) :
    (s.setThread i p).wakeupTimes = s.wakeupTimes := rfl

@[simp] theorem managed_setThread (p : Thread τ) : (s.setThread i p).managed = s.managed := rfl

@[simp] theorem shutdown_setThread (p : Thread τ) :
    (s.setThread i p).shutdown = s.shutdown := rfl

@[simp] theorem threads_setThread_self (p : Thread τ) : (s.setThread i p).threads i = p := by
  simp [setThread]

@[simp] theorem time_sleepUntil (t : τ) : (s.sleepUntil i t).time = s.time := by
  rw [sleepUntil]
  split <;> rfl

@[simp] theorem managed_sleepUntil (t : τ) : (s.sleepUntil i t).managed = s.managed := by
  rw [sleepUntil]
  split <;> rfl

@[simp] theorem shutdown_sleepUntil (t : τ) : (s.sleepUntil i t).shutdown = s.shutdown := by
  rw [sleepUntil]
  split <;> rfl

@[simp] theorem time_test (t : τ) : (s.test i t).time = s.time := by
  rw [test]
  split
  · rfl
  · split <;> simp

@[simp] theorem managed_test (t : τ) : (s.test i t).managed = s.managed := by
  rw [test]
  split
  · rfl
  · split <;> simp

@[simp] theorem shutdown_test (t : τ) : (s.test i t).shutdown = s.shutdown := by
  rw [test]
  split
  · rfl
  · split <;> simp

/-- The other threads stay where they are. -/
theorem threads_setThread_of_ne (h : j ≠ i) (p : Thread τ) :
    (s.setThread i p).threads j = s.threads j := by
  simp [setThread, h]

/-- A thread leaves the predicate running or waiting. -/
theorem threads_test (t : τ) :
    (s.test i t).threads =
      (s.setThread i (if s.shutdown ∨ t ≤ s.time then .running else .waiting t)).threads := by
  have hPop : (s.popWakeup t).threads = s.threads := by
    rw [popWakeup]
    split <;> rfl
  rw [test]
  by_cases hs : s.shutdown = true
  · simp [hs]
  · by_cases ht : t ≤ s.time <;> simp [hs, ht, setThread, hPop]

variable [Fintype ι] [Zero τ]

/-- Everything that a step can do, one case for each action. -/
theorem step_cases (hstep : step s a = some s') :
    (∃ i, a = .construct i ∧ s.threads i = .absent ∧ s' = s.setThread i .running) ∨
    (∃ i, a = .cleanUp i ∧ s.threads i = .running ∧ s' = s.setThread i .absent) ∨
    (∃ i t, a = .sleepUntil i t ∧ s.threads i = .running ∧ s' = s.sleepUntil i t) ∨
    (∃ i t, a = .test i ∧ s.threads i = .testing t ∧ s' = s.test i t) ∨
    (∃ i t, a = .wake i ∧ s.threads i = .waiting t ∧ s' = s.setThread i (.testing t)) ∨
    (a = .manage ∧ s.managed = true ∧ (∀ i, (s.threads i).holdsLock = false) ∧
      s' = { s.advance with managed := !s.shutdown }) ∨
    (a = .raiseShutdown ∧ s' = { s with shutdown := true }) ∨
    (a = .restart ∧ s.shutdown = true ∧ (∀ i, (s.threads i).deadline = none) ∧
      s' = s.restarted) := by
  cases a with
  | construct i =>
    simp only [step] at hstep
    split at hstep
    · next h => exact .inl ⟨i, rfl, h, (Option.some.inj hstep).symm⟩
    · cases hstep
  | cleanUp i =>
    simp only [step] at hstep
    split at hstep
    · next h => exact .inr (.inl ⟨i, rfl, h, (Option.some.inj hstep).symm⟩)
    · cases hstep
  | sleepUntil i t =>
    simp only [step] at hstep
    split at hstep
    · next h => exact .inr (.inr (.inl ⟨i, t, rfl, h, (Option.some.inj hstep).symm⟩))
    · cases hstep
  | test i =>
    simp only [step] at hstep
    split at hstep
    · next t h => exact .inr (.inr (.inr (.inl ⟨i, t, rfl, h, (Option.some.inj hstep).symm⟩)))
    · cases hstep
  | wake i =>
    simp only [step] at hstep
    split at hstep
    · next t h =>
      exact .inr (.inr (.inr (.inr (.inl ⟨i, t, rfl, h, (Option.some.inj hstep).symm⟩))))
    · cases hstep
  | manage =>
    simp only [step] at hstep
    split at hstep
    · next h =>
      refine .inr (.inr (.inr (.inr (.inr (.inl ⟨rfl, h.1, h.2, ?_⟩)))))
      exact (Option.some.inj hstep).symm
    · cases hstep
  | raiseShutdown =>
    refine .inr (.inr (.inr (.inr (.inr (.inr (.inl ⟨rfl, ?_⟩))))))
    exact (Option.some.inj hstep).symm
  | restart =>
    simp only [step] at hstep
    split at hstep
    · next h =>
      refine .inr (.inr (.inr (.inr (.inr (.inr (.inr ⟨rfl, h.1, h.2, ?_⟩))))))
      exact (Option.some.inj hstep).symm
    · cases hstep

end Steps

-- ---------------------------------------------------------------------------
-- The deadlines of the sleepers
-- ---------------------------------------------------------------------------

variable [Fintype ι]

/-- The deadlines of the threads that are in `sleep_until`, each as often as there are
threads with it. -/
def deadlines (s : Clock ι τ) : Multiset τ := ∑ i, (s.threads i).deadline.elim 0 ({·})

section Deadlines

variable {s s' : Clock ι τ} {i : ι} {p : Thread τ} {t : τ}

/-- A time is a deadline if a thread sleeps for it. -/
theorem mem_deadlines : t ∈ s.deadlines ↔ ∃ i, (s.threads i).deadline = some t := by
  rw [deadlines, Multiset.mem_sum]
  constructor
  · rintro ⟨i, -, hi⟩
    refine ⟨i, ?_⟩
    cases h : (s.threads i).deadline with
    | none => simp [h] at hi
    | some u =>
      rw [h, Option.elim_some, Multiset.mem_singleton] at hi
      rw [hi]
  · rintro ⟨i, hi⟩
    exact ⟨i, Finset.mem_univ i, by simp [hi]⟩

/-- Where nobody sleeps, there are no deadlines. -/
theorem deadlines_eq_zero (h : ∀ i, (s.threads i).deadline = none) : s.deadlines = 0 := by
  rw [Multiset.eq_zero_iff_forall_notMem]
  intro t ht
  obtain ⟨i, hi⟩ := mem_deadlines.mp ht
  rw [h i] at hi
  cases hi

variable [DecidableEq ι]

/-- What a sum over all threads loses and gains when one of them moves on. -/
theorem sum_setThread {M : Type*} [AddCommMonoid M] (f : Thread τ → M) (s : Clock ι τ) (i : ι)
    (p : Thread τ) :
    ∑ j, f ((s.setThread i p).threads j) + f (s.threads i) = ∑ j, f (s.threads j) + f p :=
  sum_update_add f s.threads i p

/-- A thread that goes on takes its deadline with it and brings its new one. -/
theorem deadlines_setThread (s : Clock ι τ) (i : ι) (p : Thread τ) :
    (s.setThread i p).deadlines + (s.threads i).deadline.elim 0 ({·}) =
      s.deadlines + p.deadline.elim 0 ({·}) :=
  sum_setThread (fun p : Thread τ => (p.deadline.elim 0 ({·}) : Multiset τ)) s i p

/-- A thread that goes on with the same deadline, or none as before. -/
theorem deadlines_setThread_eq (h : p.deadline = (s.threads i).deadline) :
    (s.setThread i p).deadlines = s.deadlines := by
  have hSum := deadlines_setThread s i p
  rw [h] at hSum
  exact add_right_cancel hSum

end Deadlines

-- ---------------------------------------------------------------------------
-- A heap that holds the deadlines
-- ---------------------------------------------------------------------------

/-- The heap holds the deadlines of the sleepers, none of which has passed, and beside them
times that do not matter: the last time there is, and, as long as nobody sleeps, times that
have passed. -/
structure Holds (left : Multiset τ) (s : Clock ι τ) : Prop where
  heap    : s.wakeupTimes.toMultiset = s.deadlines + left
  pending : ∀ t ∈ s.deadlines, s.time ≤ t
  left    : ∀ w ∈ left, IsTop w ∨ (s.deadlines = 0 ∧ w < s.time)

section Sleep

variable {s s' : Clock ι τ} {left : Multiset τ} {i : ι} {p : Thread τ} {t u : τ}

/-- While somebody sleeps, what is on the heap beside the deadlines is the last time there is. -/
theorem Holds.isTop (h : Holds left s) (ht : t ∈ s.deadlines) (hu : u ∈ left) : IsTop u := by
  rcases h.left u hu with hTop | ⟨hNone, -⟩
  · exact hTop
  · rw [hNone] at ht
    exact absurd ht (Multiset.notMem_zero t)

/-- The first deadline is on top of the heap. -/
theorem Holds.top (h : Holds left s) (ht : t ∈ s.deadlines) (hMin : ∀ u ∈ s.deadlines, t ≤ u) :
    s.wakeupTimes.top = some t := by
  rw [PriorityQueue.top_eq_some_iff, h.heap]
  refine ⟨Multiset.mem_add.mpr (.inl ht), ?_⟩
  intro u hu
  rcases Multiset.mem_add.mp hu with hu | hu
  · exact hMin u hu
  · exact h.isTop ht hu t

/-- The deadline of a thread whose time has come is the time. -/
theorem Holds.eq_time (h : Holds left s) (hi : (s.threads i).deadline = some t)
    (ht : t ≤ s.time) : s.time = t :=
  le_antisymm (h.pending t (mem_deadlines.mpr ⟨i, hi⟩)) ht

/-- The manager stops at the next deadline. -/
theorem Holds.advance (h : Holds left s) : Holds left s.advance := by
  rw [Clock.advance]
  split
  · next hLe =>
    refine ⟨h.heap, fun t ht => nextWakeup_le ?_, ?_⟩
    · rw [h.heap]
      exact Multiset.mem_add.mpr (.inl ht)
    · intro w hw
      -- a time that has passed would have kept the manager from advancing
      rcases h.left w hw with hTop | ⟨-, hLt⟩
      · exact .inl hTop
      · refine absurd ((hLe.trans (nextWakeup_le ?_)).trans_lt hLt) (lt_irrefl _)
        rw [h.heap]
        exact Multiset.mem_add.mpr (.inr hw)
  · exact h

variable [DecidableEq ι]

/-- A thread that goes to sleep adds its deadline. -/
theorem deadlines_sleepUntil (hi : s.threads i = .running) (ht : s.time < t) :
    (s.sleepUntil i t).deadlines = t ::ₘ s.deadlines := by
  have hSum := deadlines_setThread (s.setWakeup t) i (.testing t)
  have hOld : (s.setWakeup t).threads i = .running := hi
  have hSame : (s.setWakeup t).deadlines = s.deadlines := rfl
  rw [hOld, hSame] at hSum
  rw [sleepUntil, if_neg (not_le.mpr ht)]
  simpa [Thread.deadline, Multiset.add_comm] using hSum

/-- A call of `sleep_until` for a time to come purges the times that have passed. -/
theorem Holds.sleepUntil (h : Holds left s) (hi : s.threads i = .running) (ht : s.time < t) :
    Holds (left.filter (s.time ≤ ·)) (s.sleepUntil i t) := by
  constructor
  · rw [deadlines_sleepUntil hi ht, Clock.sleepUntil, if_neg (not_le.mpr ht),
      wakeupTimes_setThread, toMultiset_setWakeup ht, h.heap, Multiset.filter_add,
      Multiset.filter_eq_self.mpr h.pending, Multiset.cons_add]
  · rw [deadlines_sleepUntil hi ht, time_sleepUntil]
    intro u hu
    rcases Multiset.mem_cons.mp hu with rfl | hu
    · exact ht.le
    · exact h.pending u hu
  · intro w hw
    obtain ⟨hw, hLe⟩ := Multiset.mem_filter.mp hw
    rcases h.left w hw with hTop | ⟨-, hLt⟩
    · exact .inl hTop
    · exact absurd hLt (not_lt.mpr hLe)

/-- A thread that keeps its deadline leaves the heap as it should be. -/
theorem Holds.setThread (h : Holds left s) (hp : p.deadline = (s.threads i).deadline) :
    Holds left (s.setThread i p) := by
  have hDeadlines := deadlines_setThread_eq hp
  constructor
  · rw [hDeadlines]
    exact h.heap
  · rw [hDeadlines]
    exact h.pending
  · rw [hDeadlines]
    exact h.left

/-- The predicate takes the thread's own deadline off the heap when it lets the thread go. -/
theorem Holds.test (h : Holds left s) (hShutdown : s.shutdown = false)
    (hi : s.threads i = .testing t) : Holds left (s.test i t) := by
  have hDeadline : (s.threads i).deadline = some t := by rw [hi, Thread.deadline]
  have hMem : t ∈ s.deadlines := mem_deadlines.mpr ⟨i, hDeadline⟩
  rw [Clock.test, if_neg (by simp [hShutdown])]
  split
  · next ht =>
    have hTop : s.wakeupTimes.top = some t := h.top hMem (h.eq_time hDeadline ht ▸ h.pending)
    rw [popWakeup, if_pos hTop]
    let popped : Clock ι τ := { s with wakeupTimes := s.wakeupTimes.pop }
    have hSum : (popped.setThread i .running).deadlines + {t} = s.deadlines := by
      have hSum := deadlines_setThread popped i .running
      have hOld : (popped.threads i).deadline = some t := hDeadline
      have hSame : popped.deadlines = s.deadlines := rfl
      rw [hOld, hSame] at hSum
      simpa only [Thread.deadline, Option.elim_none, Option.elim_some, add_zero] using hSum
    refine ⟨?_, fun u hu => h.pending u ?_, fun w hw => .inl (h.isTop hMem hw)⟩
    · have hPop := PriorityQueue.toMultiset_pop hTop
      rw [h.heap, ← hSum, ← Multiset.singleton_add, add_right_comm, add_comm] at hPop
      exact add_right_cancel hPop
    · rw [← hSum]
      exact Multiset.mem_add.mpr (.inl hu)
  · exact h.setThread hDeadline.symm

end Sleep

-- ---------------------------------------------------------------------------
-- Runs without a shutdown
-- ---------------------------------------------------------------------------

/-- A step of a thread or of the manager. -/
def Ordinary : ClockAction ι τ → Prop
  | .raiseShutdown | .restart => False
  | _ => True

instance : DecidablePred (Ordinary (ι := ι) (τ := τ)) := fun a =>
  match a with
  | .raiseShutdown | .restart => .isFalse id
  | .construct _ | .cleanUp _ | .sleepUntil _ _ | .test _ | .wake _ | .manage => .isTrue trivial

/-- The clock after `ClockManager::Run` has set the start time. -/
structure Started (s : Clock ι τ) : Prop where
  heap       : s.wakeupTimes = .empty
  noSleeper  : ∀ i, (s.threads i).deadline = none
  noShutdown : s.shutdown = false
  managed    : s.managed = true

/-- The clock works: the heap holds the deadlines and at most `left`, and the manager is
there. -/
structure Works (left : Multiset τ) (s : Clock ι τ) : Prop where
  holds      : ∃ left' ≤ left, Holds left' s
  noShutdown : s.shutdown = false
  managed    : s.managed = true

section Runs

variable {s s' : Clock ι τ} {a : ClockAction ι τ} {as : List (ClockAction ι τ)} {i : ι} {t : τ}

/-- A clock on which nobody sleeps works, if the times on its heap are in the past or the last one.
-/
theorem works_of_noSleeper {left : Multiset τ} (hNone : ∀ i, (s.threads i).deadline = none)
    (hHeap : s.wakeupTimes.toMultiset = left) (hLeft : ∀ w ∈ left, IsTop w ∨ w < s.time)
    (hs : s.shutdown = false) (hm : s.managed = true) : Works left s := by
  have hDeadlines := deadlines_eq_zero hNone
  refine ⟨⟨left, le_rfl, ?_, ?_, ?_⟩, hs, hm⟩
  · rw [hDeadlines, zero_add, hHeap]
  · intro t ht
    rw [hDeadlines] at ht
    exact absurd ht (Multiset.notMem_zero t)
  · intro w hw
    exact (hLeft w hw).imp_right fun hLt => ⟨hDeadlines, hLt⟩

/-- A clock that was just started works. -/
theorem Started.works (h : Started s) : Works 0 s :=
  works_of_noSleeper h.noSleeper (by rw [h.heap, PriorityQueue.toMultiset_empty])
    (fun w hw => absurd hw (Multiset.notMem_zero w)) h.noShutdown h.managed

/-- With nothing else on the heap, it holds the deadlines only. -/
theorem Works.holds_zero (h : Works 0 s) : Holds 0 s := by
  obtain ⟨left, hLe, hHolds⟩ := h.holds
  rwa [Multiset.le_zero.mp hLe] at hHolds

/-- With nothing left over, the heap holds the deadlines and nothing else. -/
theorem Works.heap (h : Works 0 s) : s.wakeupTimes.toMultiset = s.deadlines := by
  rw [h.holds_zero.heap, add_zero]

variable [DecidableEq ι] [Zero τ]

/-- An ordinary step raises no shutdown. -/
theorem shutdown_step (hs : s.shutdown = false) (ha : Ordinary a) (hstep : step s a = some s') :
    s'.shutdown = false := by
  rcases step_cases hstep with ⟨i, rfl, -, rfl⟩ | ⟨i, rfl, -, rfl⟩ | ⟨i, t, rfl, -, rfl⟩ |
    ⟨i, t, rfl, -, rfl⟩ | ⟨i, t, rfl, -, rfl⟩ | ⟨rfl, -, -, rfl⟩ | ⟨rfl, -⟩ | ⟨rfl, -⟩
  · exact hs
  · exact hs
  · rw [shutdown_sleepUntil, hs]
  · rw [shutdown_test, hs]
  · exact hs
  · exact (shutdown_advance).trans hs
  · exact absurd ha id
  · exact absurd ha id

/-- Only a restart sets the time back. -/
theorem time_step (ha : a ≠ .restart) (hstep : step s a = some s') : s.time ≤ s'.time := by
  rcases step_cases hstep with ⟨i, rfl, -, rfl⟩ | ⟨i, rfl, -, rfl⟩ | ⟨i, t, rfl, -, rfl⟩ |
    ⟨i, t, rfl, -, rfl⟩ | ⟨i, t, rfl, -, rfl⟩ | ⟨rfl, -, -, rfl⟩ | ⟨rfl, rfl⟩ | ⟨rfl, -⟩
  · exact le_rfl
  · exact le_rfl
  · rw [time_sleepUntil]
  · rw [time_test]
  · exact le_rfl
  · exact s.time_le_advance
  · exact le_rfl
  · exact absurd rfl ha

/-- The manager stays until a shutdown. -/
theorem managed_step (hs : s.shutdown = false) (hm : s.managed = true)
    (hstep : step s a = some s') : s'.managed = true := by
  rcases step_cases hstep with ⟨i, rfl, -, rfl⟩ | ⟨i, rfl, -, rfl⟩ | ⟨i, t, rfl, -, rfl⟩ |
    ⟨i, t, rfl, -, rfl⟩ | ⟨i, t, rfl, -, rfl⟩ | ⟨rfl, -, -, rfl⟩ | ⟨rfl, rfl⟩ | ⟨rfl, -, -, rfl⟩
  · exact hm
  · exact hm
  · rw [managed_sleepUntil, hm]
  · rw [managed_test, hm]
  · exact hm
  · exact congrArg (!·) hs
  · exact hm
  · rfl

/-- Every ordinary step keeps the deadlines on the heap; it may remove what is left over, and adds
nothing to it. -/
theorem step_holds {left : Multiset τ} (h : Holds left s) (hs : s.shutdown = false)
    (ha : Ordinary a) (hstep : step s a = some s') : ∃ left' ≤ left, Holds left' s' := by
  rcases step_cases hstep with ⟨i, rfl, hi, rfl⟩ | ⟨i, rfl, hi, rfl⟩ | ⟨i, t, rfl, hi, rfl⟩ |
    ⟨i, t, rfl, hi, rfl⟩ | ⟨i, t, rfl, hi, rfl⟩ | ⟨rfl, -, -, rfl⟩ | ⟨rfl, -⟩ | ⟨rfl, -⟩
  · exact ⟨left, le_rfl, h.setThread (by rw [hi, Thread.deadline, Thread.deadline])⟩
  · exact ⟨left, le_rfl, h.setThread (by rw [hi, Thread.deadline, Thread.deadline])⟩
  · rcases lt_or_ge s.time t with ht | ht
    · exact ⟨_, Multiset.filter_le _ _, h.sleepUntil hi ht⟩
    · rw [sleepUntil, if_pos ht]
      exact ⟨left, le_rfl, h⟩
  · exact ⟨left, le_rfl, h.test hs hi⟩
  · exact ⟨left, le_rfl, h.setThread (by rw [hi, Thread.deadline, Thread.deadline])⟩
  · exact ⟨left, le_rfl, h.advance.heap, h.advance.pending, h.advance.left⟩
  · exact absurd ha id
  · exact absurd ha id

/-- The clock works after every ordinary step. -/
theorem step_works {left : Multiset τ} (h : Works left s) (ha : Ordinary a)
    (hstep : step s a = some s') : Works left s' where
  holds := by
    obtain ⟨left', hLe, hHolds⟩ := h.holds
    obtain ⟨left'', hLe', hHolds'⟩ := step_holds hHolds h.noShutdown ha hstep
    exact ⟨left'', hLe'.trans hLe, hHolds'⟩
  noShutdown := shutdown_step h.noShutdown ha hstep
  managed := managed_step h.noShutdown h.managed hstep

/-- And after every run of them. -/
theorem run_works {left : Multiset τ} (h : Works left s) (has : ∀ a ∈ as, Ordinary a)
    (hrun : run step s as = some s') : Works left s' :=
  inv_of_run (I := Works left) (P := fun _ a => Ordinary a) (fun _ _ _ => step_works) h
    (along_of_forall (fun a ha _ => has a ha) s) hrun

end Runs

end Clock

end Sailbot.Util

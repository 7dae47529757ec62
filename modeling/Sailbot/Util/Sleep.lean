import Sailbot.Util.Clock

/-!
# Sleeping on the fake clock

What threads can rely on: that they sleep neither too long nor too short, and how far a
clock that was shut down can be used again.

* `Clock.sleeps_exactly` — the heap holds the deadlines of the sleepers, time goes forward
  and passes no deadline, and a sleeper returns at its own.
* `Clock.canReturn`      — from wherever the clock is, every sleeper can return.
* `Clock.restart_iff`    — after a shutdown the clock works again exactly if no wakeup was
  left in the heap.
-/

namespace Sailbot.Util

open Lib

namespace Clock

variable {ι τ : Type} [LinearOrder τ] [DecidableEq ι] [Fintype ι]

section Return

variable [Zero τ] {s s' : Clock ι τ} {a : ClockAction ι τ} {i : ι} {t : τ}

-- ---------------------------------------------------------------------------
-- Every sleeper can return
-- ---------------------------------------------------------------------------

/-- Not the beginning of a sleep. -/
def Quiet : ClockAction ι τ → Prop
  | .sleepUntil _ _ | .raiseShutdown | .restart => False
  | _ => True

/-- There is a way on, without new sleeps, on which the thread returns at its deadline. -/
def CanReturn (s : Clock ι τ) (i : ι) (t : τ) : Prop :=
  ∃ bs u, (∀ b ∈ bs, Quiet b) ∧ run step s bs = some u ∧ u.threads i = .testing t ∧
    (u.test i t).threads i = .running ∧ u.time = t

/-- A thread that can return after a quiet step can do so before it. -/
theorem CanReturn.of_step (ha : Quiet a) (hstep : step s a = some s') (h : CanReturn s' i t) :
    CanReturn s i t := by
  obtain ⟨bs, u, hbs, hrun, hu⟩ := h
  exact ⟨a :: bs, u, List.forall_mem_cons.mpr ⟨ha, hbs⟩,
    run_cons_eq_some.mpr ⟨s', hstep, hrun⟩, hu⟩

/-- A thread that tests its deadline when it has passed can return. -/
theorem canReturn_now (h : Holds 0 s) (hi : s.threads i = .testing t) (ht : t ≤ s.time) :
    CanReturn s i t := by
  have hDeadline : (s.threads i).deadline = some t := by rw [hi, Thread.deadline]
  refine ⟨[], s, fun b hb => absurd hb List.not_mem_nil, rfl, hi, ?_, h.eq_time hDeadline ht⟩
  rw [threads_test, threads_setThread_self, if_pos (.inr ht)]

/-- How far a thread is from being cleaned up. -/
def weight : Thread τ → Nat
  | .absent => 0
  | .running => 1
  | .waiting _ => 2
  | .testing _ => 3

omit [Zero τ] in
/-- A thread that gets lighter makes the sum smaller. -/
theorem weight_setThread_lt {p : Thread τ} (h : weight p < weight (s.threads i)) :
    ∑ j, weight ((s.setThread i p).threads j) < ∑ j, weight (s.threads j) := by
  have hSum := sum_setThread weight s i p
  omega

omit [Zero τ] in
/-- A test makes the sum smaller. -/
theorem weight_test (h : s.threads i = .testing t) :
    ∑ j, weight ((s.test i t).threads j) < ∑ j, weight (s.threads j) := by
  rw [threads_test]
  refine weight_setThread_lt ?_
  rw [h]
  split <;> simp [weight]

/-- While a thread holds the lock it can clean up, wait or return. -/
theorem canReturn_of_holdsLock {j : ι} (h : Works 0 s) (hi : (s.threads i).deadline = some t)
    (hj : (s.threads j).holdsLock = true)
    (ih : ∀ s' : Clock ι τ, ∑ k, weight (s'.threads k) < ∑ k, weight (s.threads k) → Works 0 s' →
      (s'.threads i).deadline = some t → CanReturn s' i t) : CanReturn s i t := by
  cases hp : s.threads j with
  | absent => rw [hp] at hj; cases hj
  | waiting u => rw [hp] at hj; cases hj
  | running =>
    have hne : i ≠ j := by
      rintro rfl
      rw [hp] at hi
      cases hi
    have hstep : step s (.cleanUp j) = some (s.setThread j .absent) := by simp [step, hp]
    refine .of_step (a := .cleanUp j) trivial hstep
      (ih _ (weight_setThread_lt ?_) (step_works (a := .cleanUp j) h trivial hstep) ?_)
    · simp [hp, weight]
    · rw [threads_setThread_of_ne hne, hi]
  | testing u =>
    have hstep : step s (.test j) = some (s.test j u) := by simp [step, hp]
    by_cases hNow : j = i ∧ u ≤ s.time
    · obtain ⟨rfl, hu⟩ := hNow
      obtain rfl : u = t := by
        rw [hp] at hi
        exact Option.some.inj hi
      exact canReturn_now h.holds_zero hp hu
    · refine .of_step (a := .test j) trivial hstep
        (ih _ (weight_test hp) (step_works (a := .test j) h trivial hstep) ?_)
      rw [threads_test]
      by_cases hji : j = i
      · subst hji
        rw [hp] at hi
        rw [threads_setThread_self, if_neg (by simpa [h.noShutdown] using hNow)]
        exact hi
      · rw [threads_setThread_of_ne (Ne.symm hji), hi]

/-- When every thread waits or is gone, the manager goes to the first deadline, and the thread
that has it returns. -/
theorem canReturn_of_allWaiting (h : Works 0 s) (hi : (s.threads i).deadline = some t)
    (hAll : ∀ j, (s.threads j).holdsLock = false)
    (ih : ∀ s' : Clock ι τ, ∑ k, weight (s'.threads k) < ∑ k, weight (s.threads k) → Works 0 s' →
      (s'.threads i).deadline = some t → CanReturn s' i t) : CanReturn s i t := by
  have hNonempty : s.wakeupTimes.toMultiset ≠ 0 := by
    intro hEmpty
    have hMem := mem_deadlines.mpr ⟨i, hi⟩
    rw [← h.heap, hEmpty] at hMem
    exact Multiset.notMem_zero t hMem
  obtain ⟨hNext, -⟩ := nextWakeup_mem hNonempty
  rw [h.heap] at hNext
  obtain ⟨j, hj⟩ := mem_deadlines.mp hNext
  have hWaiting : s.threads j = .waiting s.nextWakeup := by
    have hLock := hAll j
    cases hp : s.threads j with
    | waiting u => rw [hp] at hj; rw [Option.some.inj hj]
    | absent => rw [hp] at hj; cases hj
    | running => rw [hp] at hj; cases hj
    | testing u => rw [hp] at hLock; cases hLock
  -- the manager advances, the thread wakes up and tests
  let advanced : Clock ι τ := { s.advance with managed := !s.shutdown }
  have hManage : step s .manage = some advanced := by
    rw [step, if_pos ⟨h.managed, hAll⟩]
  have hTime : advanced.time = s.nextWakeup := by
    show s.advance.time = s.nextWakeup
    rw [advance, if_pos (h.holds_zero.pending _ hNext)]
  have hThreads : advanced.threads = s.threads := threads_advance
  have hWake : step advanced (.wake j) = some (advanced.setThread j (.testing s.nextWakeup)) := by
    simp [step, hThreads, hWaiting]
  have hAdvanced : Works 0 advanced := step_works (a := .manage) h trivial hManage
  let woken := advanced.setThread j (.testing s.nextWakeup)
  have hWoken : Works 0 woken := step_works (a := .wake j) hAdvanced trivial hWake
  have hTesting : woken.threads j = .testing s.nextWakeup := threads_setThread_self _
  refine .of_step (a := .manage) trivial hManage (.of_step (a := .wake j) trivial hWake ?_)
  by_cases hji : j = i
  · subst hji
    obtain rfl : s.nextWakeup = t := Option.some.inj (hj.symm.trans hi)
    exact canReturn_now hWoken.holds_zero hTesting hTime.ge
  · have hTest : step woken (.test j) = some (woken.test j s.nextWakeup) := by
      simp [step, hTesting]
    have hReturned : (woken.test j s.nextWakeup).threads = (s.setThread j .running).threads := by
      rw [threads_test, if_pos (.inr hTime.ge)]
      show Function.update (Function.update advanced.threads j _) j _ = _
      rw [Function.update_idem, hThreads]
      rfl
    refine .of_step (a := .test j) trivial hTest
      (ih _ ?_ (step_works (a := .test j) hWoken trivial hTest) ?_)
    · rw [hReturned]
      exact weight_setThread_lt (by simp [hWaiting, weight])
    · rw [hReturned, threads_setThread_of_ne (Ne.symm hji), hi]

/-- Every sleeper can return. -/
theorem canReturn (h : Works 0 s) (hi : (s.threads i).deadline = some t) : CanReturn s i t := by
  induction hn : ∑ j, weight (s.threads j) using Nat.strong_induction_on generalizing s with
  | _ n ih =>
    subst hn
    by_cases hLock : ∃ j, (s.threads j).holdsLock = true
    · obtain ⟨j, hj⟩ := hLock
      exact canReturn_of_holdsLock h hi hj fun s' hLt h' hi' => ih _ hLt h' hi' rfl
    · refine canReturn_of_allWaiting h hi (fun j => ?_) fun s' hLt h' hi' => ih _ hLt h' hi' rfl
      exact Bool.eq_false_iff.mpr fun hj => hLock ⟨j, hj⟩

/-- A thread leaves `sleep_until` at its deadline only. -/
theorem deadline_step (h : Works 0 s) (hi : (s.threads i).deadline = some t) (ha : Ordinary a)
    (hstep : step s a = some s') :
    (s'.threads i).deadline = some t ∨ (s'.threads i = .running ∧ s'.time = t) := by
  -- a step of another thread leaves this one where it is
  have hOther : ∀ {j p}, j ≠ i → ((s.setThread j p).threads i).deadline = some t := by
    intro j p hne
    rw [threads_setThread_of_ne (Ne.symm hne), hi]
  rcases step_cases hstep with ⟨j, rfl, hj, rfl⟩ | ⟨j, rfl, hj, rfl⟩ | ⟨j, u, rfl, hj, rfl⟩ |
    ⟨j, u, rfl, hj, rfl⟩ | ⟨j, u, rfl, hj, rfl⟩ | ⟨rfl, -, -, rfl⟩ | ⟨rfl, -⟩ | ⟨rfl, -⟩
  · refine .inl (hOther ?_)
    rintro rfl
    rw [hj] at hi
    cases hi
  · refine .inl (hOther ?_)
    rintro rfl
    rw [hj] at hi
    cases hi
  · have hne : j ≠ i := by
      rintro rfl
      rw [hj] at hi
      cases hi
    rw [sleepUntil]
    split
    · exact .inl hi
    · exact .inl (hOther hne)
  · rw [threads_test]
    by_cases hji : j = i
    · subst hji
      obtain rfl : u = t := by
        rw [hj] at hi
        exact Option.some.inj hi
      rw [threads_setThread_self, time_test]
      split
      · next hDue =>
        refine .inr ⟨rfl, h.holds_zero.eq_time hi (hDue.resolve_left ?_)⟩
        simp [h.noShutdown]
      · exact .inl rfl
    · exact .inl (hOther hji)
  · by_cases hji : j = i
    · subst hji
      rw [hj] at hi
      rw [threads_setThread_self]
      exact .inl hi
    · exact .inl (hOther hji)
  · refine .inl ?_
    rw [threads_advance, hi]
  · exact absurd ha id
  · exact absurd ha id

/-- **The fake clock is exact.** In every state that a clock started with an empty heap
reaches without a shutdown, the heap holds the deadlines of the threads in `sleep_until`, no
step sets the time back, no deadline is in the past, and a thread that calls `sleep_until`
for a time to come stays in it until the time is its deadline, which it can reach. -/
theorem sleeps_exactly {s₀ : Clock ι τ} (hStart : Started s₀) (as : List (ClockAction ι τ))
    (has : ∀ a ∈ as, Ordinary a) (hrun : run step s₀ as = some s) :
    s.wakeupTimes.toMultiset = s.deadlines ∧
    (∀ i t, (s.threads i).deadline = some t → s.time ≤ t) ∧
    (∀ a s', Ordinary a → step s a = some s' → s.time ≤ s'.time ∧
      (∀ i t, a = .sleepUntil i t → s.time < t → (s'.threads i).deadline = some t) ∧
      ∀ i t, (s.threads i).deadline = some t →
        (s'.threads i).deadline = some t ∨ (s'.threads i = .running ∧ s'.time = t)) ∧
    ∀ i t, (s.threads i).deadline = some t → CanReturn s i t := by
  have hWorks : Works 0 s := run_works hStart.works has hrun
  refine ⟨hWorks.heap, ?_, fun a s' ha hstep => ⟨?_, ?_, ?_⟩, ?_⟩
  · intro i t hi
    exact hWorks.holds_zero.pending t (mem_deadlines.mpr ⟨i, hi⟩)
  · refine time_step ?_ hstep
    rintro rfl
    exact ha
  · rintro i t rfl ht
    rcases step_cases hstep with ⟨j, h, -⟩ | ⟨j, h, -⟩ | ⟨j, u, h, hj, rfl⟩ | ⟨j, u, h, -⟩ |
      ⟨j, u, h, -⟩ | ⟨h, -⟩ | ⟨h, -⟩ | ⟨h, -⟩ <;> cases h
    rw [sleepUntil, if_neg (not_le.mpr ht), threads_setThread_self, Thread.deadline]
  · exact fun i t hi => deadline_step hWorks hi ha hstep
  · intro i t hi
    exact canReturn hWorks hi

/-- Two threads sleep for the same time; one of them is woken up too early and then at its
deadline, and the other sleeps on. -/
theorem sleeps_exactly_equal_deadlines :
    ∃ s : Clock Bool ℤ, run step ⟨3, .empty, fun _ => .running, false, true⟩
      [.sleepUntil true 8, .test true, .wake true, .test true, .sleepUntil false 8, .test false,
        .manage, .wake true, .test true] = some s ∧
      s.time = 8 ∧ s.deadlines = {8} ∧ CanReturn s false 8 := by
  have hrun : run step (⟨3, .empty, fun _ => .running, false, true⟩ : Clock Bool ℤ)
      [.sleepUntil true 8, .test true, .wake true, .test true, .sleepUntil false 8, .test false,
        .manage, .wake true, .test true] =
      some ⟨8, ⟨[8], by simp⟩, fun i => if i then .running else .waiting 8, false, true⟩ := by
    decide +kernel
  obtain ⟨hHeap, -, -, hReturn⟩ :=
    sleeps_exactly ⟨rfl, by decide, rfl, rfl⟩ _ (by decide) hrun
  exact ⟨_, hrun, rfl, hHeap.symm, hReturn false 8 rfl⟩

-- ---------------------------------------------------------------------------
-- Restart
-- ---------------------------------------------------------------------------

/-- If all threads wait, for times to come, then the next wakeup is the first of their
deadlines and the manager goes to it. -/
def WakesNext (s : Clock ι τ) : Prop :=
  (∀ i, (s.threads i).holdsLock = false) → s.deadlines ≠ 0 → (∀ t ∈ s.deadlines, s.time < t) →
    s.nextWakeup ∈ s.deadlines ∧ (∀ t ∈ s.deadlines, s.nextWakeup ≤ t) ∧
      ∃ s', step s .manage = some s' ∧ s'.time = s.nextWakeup

/-- A clock that works wakes the next sleeper. -/
theorem Works.wakesNext {left : Multiset τ} (h : Works left s) : WakesNext s := by
  intro hAll hNonempty hLater
  obtain ⟨left', -, hHolds⟩ := h.holds
  obtain ⟨t, ht⟩ := Multiset.exists_mem_of_ne_zero hNonempty
  have hLe : ∀ u ∈ s.deadlines, s.nextWakeup ≤ u := fun u hu =>
    nextWakeup_le (hHolds.heap ▸ Multiset.mem_add.mpr (.inl hu))
  have hMem : s.nextWakeup ∈ s.deadlines := by
    have hHeap : s.nextWakeup ∈ s.wakeupTimes.toMultiset := by
      refine (nextWakeup_mem fun hEmpty => ?_).1
      have hHeap := Multiset.mem_add.mpr (.inl ht : t ∈ s.deadlines ∨ t ∈ left')
      rw [← hHolds.heap, hEmpty] at hHeap
      exact Multiset.notMem_zero t hHeap
    rw [hHolds.heap] at hHeap
    rcases Multiset.mem_add.mp hHeap with hDeadline | hLeft
    · exact hDeadline
    · -- the last time there is, and the deadlines are not before it
      rwa [le_antisymm (hLe t ht) (hHolds.isTop ht hLeft t)]
  refine ⟨hMem, hLe, _, if_pos ⟨h.managed, hAll⟩, ?_⟩
  show s.advance.time = s.nextWakeup
  rw [advance, if_pos (hLater _ hMem).le]

/-- Threads that do not sleep can all clean up. -/
theorem exists_allAbsent (hNone : ∀ i, (s.threads i).deadline = none) :
    ∃ bs, (∀ b ∈ bs, Ordinary b) ∧ run step s bs = some { s with threads := fun _ => .absent } := by
  induction hn : ∑ j, weight (s.threads j) using Nat.strong_induction_on generalizing s with
  | _ n ih =>
    subst hn
    by_cases hRunning : ∃ j, s.threads j = .running
    · obtain ⟨j, hj⟩ := hRunning
      have hstep : step s (.cleanUp j) = some (s.setThread j .absent) := by simp [step, hj]
      have hNone' : ∀ i, ((s.setThread j .absent).threads i).deadline = none := by
        intro i
        by_cases hij : i = j
        · rw [hij, threads_setThread_self, Thread.deadline]
        · rw [threads_setThread_of_ne hij, hNone i]
      obtain ⟨bs, hbs, hrun⟩ :=
        ih _ (weight_setThread_lt (by simp [hj, weight])) hNone' rfl
      exact ⟨.cleanUp j :: bs, List.forall_mem_cons.mpr ⟨trivial, hbs⟩,
        run_cons_eq_some.mpr ⟨_, hstep, hrun⟩⟩
    · have hAbsent : s.threads = fun _ => .absent := by
        funext i
        have hi := hNone i
        cases hp : s.threads i with
        | absent => rfl
        | running => exact absurd ⟨i, hp⟩ hRunning
        | testing t => rw [hp] at hi; cases hi
        | waiting t => rw [hp] at hi; cases hi
      exact ⟨[], fun b hb => absurd hb List.not_mem_nil, by rw [← hAbsent]; rfl⟩

/-- A thread that sleeps past a wakeup that was left in the heap is not woken up next. -/
theorem exists_not_wakesNext [Nonempty ι] {w : τ} (hNone : ∀ i, (s.threads i).deadline = none)
    (hs : s.shutdown = false) (hw : w ∈ s.wakeupTimes.toMultiset) (hLe : s.time ≤ w)
    (ht : w < t) :
    ∃ bs u, (∀ b ∈ bs, Ordinary b) ∧ run step s bs = some u ∧ ¬ WakesNext u := by
  obtain ⟨i⟩ := ‹Nonempty ι›
  obtain ⟨bs, hbs, hrun⟩ := exists_allAbsent hNone
  have hTime : s.time < t := hLe.trans_lt ht
  let constructed : Clock ι τ := { s with threads := fun j => if j = i then .running else .absent }
  let waiting : Clock ι τ :=
    { s.setWakeup t with threads := fun j => if j = i then .waiting t else .absent }
  have hConstruct : step { s with threads := fun _ => Thread.absent } (.construct i) =
      some constructed := by
    refine congrArg some ?_
    simp only [constructed, setThread, Clock.mk.injEq, true_and, and_true]
    funext j
    rw [Function.update_apply]
  have hSleep : run step constructed [.sleepUntil i t, .test i] = some waiting := by
    have hCall : step constructed (.sleepUntil i t) =
        some ((constructed.setWakeup t).setThread i (.testing t)) := by
      have hRunning : constructed.threads i = .running := if_pos rfl
      simp only [step, hRunning]
      rw [sleepUntil, if_neg (not_le.mpr hTime)]
    refine run_cons_eq_some.mpr ⟨_, hCall, run_cons_eq_some.mpr ⟨waiting, ?_, rfl⟩⟩
    simp only [step, threads_setThread_self]
    have hShutdown : ((constructed.setWakeup t).setThread i (.testing t)).shutdown = false := hs
    have hLater : ¬ t ≤ ((constructed.setWakeup t).setThread i (.testing t)).time :=
      not_le.mpr hTime
    rw [test, hShutdown, if_neg Bool.false_ne_true, if_neg hLater]
    simp only [waiting, constructed, setThread, setWakeup, Option.some.injEq, Clock.mk.injEq,
      true_and, and_true]
    funext j
    simp only [Function.update_apply]
    split <;> rfl
  have hDeadline : ∀ u, u ∈ waiting.deadlines ↔ u = t := by
    intro u
    rw [mem_deadlines]
    constructor
    · rintro ⟨j, hj⟩
      by_cases hji : j = i
      · simpa [waiting, hji, Thread.deadline, eq_comm] using hj
      · simp [waiting, hji, Thread.deadline] at hj
    · rintro rfl
      exact ⟨i, by simp [waiting, Thread.deadline]⟩
  refine ⟨bs ++ [.construct i, .sleepUntil i t, .test i], waiting, ?_, ?_, ?_⟩
  · intro b hb
    rcases List.mem_append.mp hb with hb | hb
    · exact hbs b hb
    · simp only [List.mem_cons, List.not_mem_nil, or_false] at hb
      rcases hb with rfl | rfl | rfl <;> exact trivial
  · exact run_append_eq_some.mpr ⟨_, hrun, run_cons_eq_some.mpr ⟨_, hConstruct, hSleep⟩⟩
  · intro hWakes
    have hAll : ∀ j, (waiting.threads j).holdsLock = false := by
      intro j
      by_cases hji : j = i <;> simp [waiting, hji, Thread.holdsLock]
    have hMem := (hDeadline t).mpr rfl
    obtain ⟨hNext, -, -⟩ := hWakes hAll (fun hZero => by simp [hZero] at hMem)
      fun u hu => (hDeadline u).mp hu ▸ hTime
    rw [hDeadline] at hNext
    -- but the wakeup that was left there comes first
    have hLeft : w ∈ waiting.wakeupTimes.toMultiset := by
      show w ∈ (s.setWakeup t).wakeupTimes.toMultiset
      rw [toMultiset_setWakeup hTime]
      exact Multiset.mem_cons_of_mem (Multiset.mem_filter.mpr ⟨hw, hLe⟩)
    exact absurd ((hNext ▸ nextWakeup_le hLeft).trans_lt ht) (lt_irrefl t)

/-- **Restart.** After a shutdown and a restart, at whatever time and after whatever run, the
clock always goes to the first deadline next exactly if the heap holds no wakeup at or after
zero when the new `Run(0)` starts; the last time there is does no harm. -/
theorem restart_iff [Nonempty ι] {s₀ s : Clock ι τ} (as : List (ClockAction ι τ))
    (hrun : run step s₀ (as ++ [.restart]) = some s) :
    (∀ bs u, (∀ b ∈ bs, Ordinary b) → run step s bs = some u → WakesNext u) ↔
      ∀ w ∈ s.wakeupTimes.toMultiset, 0 ≤ w → IsTop w := by
  obtain ⟨s₁, -, hRestart⟩ := run_append_eq_some.mp hrun
  obtain ⟨hNone, rfl⟩ : (∀ i, (s₁.threads i).deadline = none) ∧ s = s₁.restarted := by
    obtain ⟨s₂, hstep, hEnd⟩ := run_cons_eq_some.mp hRestart
    obtain rfl : s₂ = s := Option.some.inj hEnd
    rcases step_cases hstep with ⟨i, h, -⟩ | ⟨i, h, -⟩ | ⟨i, t, h, -⟩ | ⟨i, t, h, -⟩ |
      ⟨i, t, h, -⟩ | ⟨h, -⟩ | ⟨h, -⟩ | ⟨-, -, hNone, rfl⟩
    all_goals first | exact ⟨hNone, rfl⟩ | cases h
  constructor
  · intro hAll w hw hLe
    by_contra hTop
    obtain ⟨v, hv⟩ := not_forall.mp hTop
    obtain ⟨bs, u, hbs, hrun', hNot⟩ :=
      exists_not_wakesNext (s := s₁.restarted) hNone rfl hw hLe (not_le.mp hv)
    exact hNot (hAll bs u hbs hrun')
  · intro hLeft bs u hbs hrun'
    have hWorks : Works s₁.wakeupTimes.toMultiset s₁.restarted := by
      refine works_of_noSleeper hNone rfl (fun w hw => ?_) rfl rfl
      rcases le_or_gt 0 w with hLe | hLt
      · exact .inl (hLeft w hw hLe)
      · exact .inr hLt
    exact (run_works hWorks hbs hrun').wakesNext

end Return

/-- A thread that had returned from its sleep when the shutdown came. -/
theorem restart_iff_nobody_asleep :
    ∃ s : Clock Unit ℤ, run step ⟨0, .empty, fun _ => .running, false, true⟩
      ([.sleepUntil () 10, .test (), .manage, .wake (), .test (), .raiseShutdown, .cleanUp (),
        .manage] ++ [.restart]) = some s ∧
      ∀ bs u, (∀ b ∈ bs, Ordinary b) → run step s bs = some u → WakesNext u := by
  have hrun : run step (⟨0, .empty, fun _ => .running, false, true⟩ : Clock Unit ℤ)
      ([.sleepUntil () 10, .test (), .manage, .wake (), .test (), .raiseShutdown, .cleanUp (),
        .manage] ++ [.restart]) = some ⟨0, .empty, fun _ => .absent, false, true⟩ := by
    decide +kernel
  exact ⟨_, hrun, (restart_iff _ hrun).mpr fun w hw => absurd hw (Multiset.notMem_zero w)⟩

/-- A thread sleeps until 10 when the shutdown comes. It is restarted and sleeps until 20,
and the next wakeup is still 10. -/
theorem wakeup_left_by_shutdown :
    ¬ ∀ (s₀ s u : Clock Unit ℤ) (as bs : List (ClockAction Unit ℤ)), Started s₀ →
      .restart ∉ as → run step s₀ (as ++ [.restart]) = some s → (∀ b ∈ bs, Ordinary b) →
        run step s bs = some u → WakesNext u := by
  intro hAll
  have hWakes := hAll ⟨0, .empty, fun _ => .running, false, true⟩
    ⟨0, ⟨[10], by simp⟩, fun _ => .absent, false, true⟩
    ⟨0, ⟨[10, 20], by simp⟩, fun _ => .waiting 20, false, true⟩
    [.sleepUntil () 10, .test (), .raiseShutdown, .wake (), .test (), .cleanUp (), .manage]
    [.construct (), .sleepUntil () 20, .test ()]
    ⟨rfl, by decide, rfl, rfl⟩ (by simp) (by decide +kernel) (by decide) (by decide +kernel)
  exact absurd (hWakes (by decide) (by decide) (by decide)).1 (by decide)

end Clock

end Sailbot.Util

import Sailbot.Ipc.Lifecycle
import Mathlib.Algebra.Order.BigOperators.Group.Finset

/-!
# Removing a queue

A writer that closes takes back its post and then tries to take another one. When that fails
it takes itself for the last writer and removes the semaphore and the queue, in two steps.
It is wrong if somebody was half-way through a change of the semaphore, or if a writer opens
the queue before it is removed.

* `Lifecycle.Calm`          — neither is the case.
* `Lifecycle.removes_alone` — then no queue is removed under a writer that has it.
* `Lifecycle.removed_under_a_writer` — otherwise it can be.
-/

namespace Sailbot.Ipc

open Lib

namespace Lifecycle

variable {ι : Type} [DecidableEq ι] [Fintype ι]

/-- When a `try_wait` fails, its semaphore is the one of the name, or the name is free, and no
object is half-way through a change of the semaphore. No writer begins to open the queue
while another one is removing it. -/
def Calm (s : Lifecycle ι) : LifecycleAction ι → Prop
  | .tryWait i => ∀ n ∈ (s.objects i).waited, s.value n = 0 →
    (s.sem.linked = none ∨ s.sem.linked = some n) ∧ ∀ j, (s.objects j).halfway = false
  | .openSem _ writer => writer = true → ∀ j, (s.objects j).removing = false
  | _ => True

instance (s : Lifecycle ι) (a : LifecycleAction ι) : Decidable (Calm s a) :=
  match a with
  | .tryWait i => inferInstanceAs (Decidable (∀ n ∈ (s.objects i).waited, s.value n = 0 →
      (s.sem.linked = none ∨ s.sem.linked = some n) ∧ ∀ j, (s.objects j).halfway = false))
  | .openSem _ writer => inferInstanceAs (Decidable (writer = true →
      ∀ j, (s.objects j).removing = false))
  | .openMq _ | .post _ | .timedWait _ | .giveUp _ | .deleteQueue _ | .wait _ | .removeSem _
  | .removeMq _ => .isTrue trivial

/-- Names are removed only when no other writer has the queue. -/
def RemovesAlone (s : Lifecycle ι) : LifecycleAction ι → Prop
  | .removeSem i | .removeMq i => ∀ j ≠ i, (s.objects j).queue = none
  | _ => True

/-- Writers that have posted, or are about to, have the semaphore and the queue of the names,
and there are none while the names are removed. -/
structure Attached (s : Lifecycle ι) : Prop where
  semaphore : ∀ j n, (s.objects j).attached = some n → s.sem.linked = some n
  queue     : ∀ j m, (s.objects j).queue = some m → s.mq.linked = some m
  removing  : ∀ i, (s.objects i).removing = true → ∀ j, (s.objects j).attached = none

section Removal

variable {s s' : Lifecycle ι} {a : LifecycleAction ι} {i : ι} {n : Nat} {o : QueueObject}

omit [DecidableEq ι] [Fintype ι] in
/-- At the start nobody is attached. -/
theorem attached_init : Attached ({} : Lifecycle ι) where
  semaphore j n h := by cases h
  queue j m h := by cases h
  removing i h := by cases h

omit [DecidableEq ι] in
/-- A `try_wait` that fails when nobody is half-way was that of the last writer. -/
theorem Attached.last (h : Attached s) (hAccounted : Accounted s)
    (hLinked : s.sem.linked = none ∨ s.sem.linked = some n) (hValue : s.value n = 0)
    (hHalfway : ∀ j, (s.objects j).halfway = false) (j : ι) : (s.objects j).attached = none := by
  cases hj : (s.objects j).attached with
  | none => rfl
  | some k =>
    have hk := h.semaphore j k hj
    rcases hLinked with hNone | hSome
    · rw [hNone] at hk
      cases hk
    · obtain rfl : n = k := Option.some.inj (hSome.symm.trans hk)
      have hPosts : (s.objects j).posts n ≤ ∑ j, (s.objects j).posts n :=
        Finset.single_le_sum (f := fun j => (s.objects j).posts n) (fun _ _ => Nat.zero_le _)
          (Finset.mem_univ j)
      have hTakes : ∑ j, (s.objects j).takes n = 0 :=
        Finset.sum_eq_zero fun j _ => QueueObject.takes_of_not_halfway (hHalfway j) n
      have hOne := QueueObject.posts_of_attached hj (hHalfway j)
      have hCount := hAccounted.value n
      omega

/-- An object that moves in a calm step leaves the others attached to what the names stand for. -/
theorem Attached.moves (h : Attached s) (hAccounted : Accounted s) (hCalm : Calm s a)
    (hMoves : Moves s a i s') : Attached s' := by
  have hObject : ∀ j, s'.objects j = s.objects j ∨ j = i := by
    intro j
    by_cases hji : j = i
    · exact .inr hji
    · rw [hMoves.objects, Function.update_of_ne hji]
      exact .inl rfl
  have hAttached : ∀ j, (s'.objects j).attached = none ∨
      (s'.objects j).attached = (s.objects j).attached := by
    intro j
    rcases hObject j with hSame | rfl
    · exact .inr (by rw [hSame])
    · exact hMoves.attached
  refine ⟨?_, ?_, ?_⟩
  · intro j n hj
    rw [hMoves.sem]
    rcases hAttached j with hNone | hSame
    · rw [hNone] at hj
      cases hj
    · exact h.semaphore j n (hSame.symm.trans hj)
  · intro j m hj
    rw [hMoves.mq]
    rcases hObject j with hSame | rfl
    · exact h.queue j m (by rw [← hSame]; exact hj)
    · rcases hMoves.queue with hNone | hSame
      · rw [hNone] at hj
        cases hj
      · exact h.queue j m (hSame.symm.trans hj)
  · intro k hk j
    -- a writer was removing before, or has just found that it is the last one
    have hBefore : ∀ j, (s.objects j).attached = none := by
      rcases hObject k with hSame | rfl
      · exact h.removing k (by rw [← hSame]; exact hk)
      · obtain ⟨n, rfl, hWaited, hValue⟩ := hMoves.removing hk
        obtain ⟨hLinked, hHalfway⟩ := hCalm n (by rw [hWaited]; rfl) hValue
        exact h.last hAccounted hLinked hValue hHalfway
    rcases hAttached j with hNone | hSame
    · exact hNone
    · rw [hSame, hBefore j]

/-- After `open_or_create` the name stands for what was opened. -/
theorem linked_openOrCreate (x : Named) :
    x.openOrCreate.2.linked = some x.openOrCreate.1 := by
  cases h : x.linked <;> simp [Named.openOrCreate, h]

/-- Opening does not change what the name stands for. -/
theorem linked_openOrCreate_of_linked {x : Named} (h : x.linked = some n) :
    x.openOrCreate.2.linked = some n := by
  simp [Named.openOrCreate, h]

omit [Fintype ι] in
/-- An object that opens its semaphore is attached to the one of the name. -/
theorem Attached.openSem {writer : Bool} (h : Attached s) (hi : s.objects i = .absent)
    (hCalm : Calm s (.openSem i writer)) : Attached (s.openSem i writer) := by
  have hLinked := linked_openOrCreate s.sem
  refine ⟨?_, ?_, ?_⟩
  · refine forall_update (P := fun o : QueueObject => ∀ n, o.attached = some n →
      s.sem.openOrCreate.2.linked = some n)
      (fun j _ n hj => linked_openOrCreate_of_linked (h.semaphore j n hj)) fun n hn => ?_
    cases writer with
    | true => rw [hLinked, ← hn]; rfl
    | false => cases hn
  · refine forall_update (P := fun o : QueueObject => ∀ m, o.queue = some m →
      s.mq.linked = some m) (fun j _ => h.queue j) fun m hm => ?_
    cases writer <;> cases hm
  · intro k hk
    -- a writer does not open the semaphore while another one is removing the names
    have hOld : (s.objects k).removing = true := by
      by_cases hki : k = i
      · subst hki
        simp only [Lifecycle.openSem, Function.update_self] at hk
        cases writer <;> cases hk
      · simpa [Lifecycle.openSem, hki] using hk
    cases writer with
    | true =>
      rw [hCalm rfl k] at hOld
      cases hOld
    | false =>
      exact forall_update (P := fun o : QueueObject => o.attached = none)
        (fun j _ => h.removing k hOld j) rfl

omit [Fintype ι] in
/-- A writer that opens its shared queue is attached to the one of the name. -/
theorem Attached.openMq (h : Attached s) (hi : s.objects i = .writerOpening n) :
    Attached ({ s with mq := s.mq.openOrCreate.2 }.set i
      (.writerPosting n s.mq.openOrCreate.1)) := by
  refine ⟨?_, ?_, ?_⟩
  · refine forall_update (P := fun o : QueueObject => ∀ n, o.attached = some n →
      s.sem.linked = some n) (fun j _ => h.semaphore j) fun k hk => ?_
    exact h.semaphore i k (by rw [hi]; exact hk)
  · refine forall_update (P := fun o : QueueObject => ∀ m, o.queue = some m →
      s.mq.openOrCreate.2.linked = some m)
      (fun j _ m hj => linked_openOrCreate_of_linked (h.queue j m hj)) fun m hm => ?_
    rw [linked_openOrCreate, ← hm]
    rfl
  · intro k hk
    have hOld : (s.objects k).removing = true := by
      by_cases hki : k = i
      · simp [set, hki] at hk
      · simpa [set, hki] using hk
    have hNone := h.removing k hOld i
    rw [hi] at hNone
    cases hNone

omit [Fintype ι] in
/-- While the names are removed there are no writers that use them. -/
theorem Attached.remove {sem mq : Named} (h : Attached s) (hi : (s.objects i).removing = true)
    (hNone : o.attached = none) : Attached ({ s with sem := sem, mq := mq }.set i o) := by
  have hAll := forall_update (P := fun o : QueueObject => o.attached = none)
    (i := i) (fun j _ => h.removing i hi j) hNone
  refine ⟨?_, ?_, fun _ _ => hAll⟩
  · intro j n hj
    exact absurd ((hAll j).symm.trans hj) nofun
  · intro j m hj
    obtain ⟨n, hn⟩ := QueueObject.attached_of_queue hj
    exact absurd ((hAll j).symm.trans hn) nofun

structure Inv (s : Lifecycle ι) : Prop where
  accounted : Accounted s
  attached  : Attached s

/-- Every calm step keeps both invariants. -/
theorem step_inv (h : Inv s) (hCalm : Calm s a) (hstep : step s a = some s') : Inv s' := by
  refine ⟨step_accounted h.accounted hstep, ?_⟩
  rcases step_cases hstep with ⟨i, writer, rfl, hi, rfl⟩ | ⟨i, n, rfl, hi, rfl⟩ |
    ⟨i, rfl, hi, rfl⟩ | ⟨i, rfl, hi, rfl⟩ | ⟨i, hMoves⟩
  · exact h.attached.openSem hi hCalm
  · exact h.attached.openMq hi
  · exact h.attached.remove (by rw [hi]; rfl) rfl
  · exact h.attached.remove (by rw [hi]; rfl) rfl
  · exact h.attached.moves h.accounted hCalm hMoves

omit [DecidableEq ι] in
/-- Both hold at the start. -/
theorem inv_init : Inv ({} : Lifecycle ι) := ⟨accounted_init, attached_init⟩

omit [Fintype ι] in
/-- While all are attached to what the names stand for, a writer that removes the names is alone. -/
theorem Attached.removesAlone (h : Attached s) (hstep : step s a = some s') :
    RemovesAlone s a := by
  have hQueue : ∀ k, (s.objects k).removing = true → ∀ j, (s.objects j).queue = none := by
    intro k hk j
    cases hj : (s.objects j).queue with
    | none => rfl
    | some m =>
      obtain ⟨n, hn⟩ := QueueObject.attached_of_queue hj
      rw [h.removing k hk j] at hn
      cases hn
  cases a with
  | removeSem i =>
    have hi : (s.objects i).removing = true := by
      simp only [step] at hstep
      split at hstep
      · next hi => rw [hi]; rfl
      · cases hstep
    exact fun j _ => hQueue i hi j
  | removeMq i =>
    have hi : (s.objects i).removing = true := by
      simp only [step] at hstep
      split at hstep
      · next hi => rw [hi]; rfl
      · cases hstep
    exact fun j _ => hQueue i hi j
  | _ => trivial

/-- **Removal.** In every calm run, the names are removed only in states in which no other
writer that has opened or created the queue is there, and a writer that has it is never left
with a queue that the name does not stand for. -/
theorem removes_alone (as : List (LifecycleAction ι)) (hCalm : Along step Calm {} as)
    (hrun : run step {} as = some s) :
    (∀ a s', step s a = some s' → RemovesAlone s a) ∧
      ∀ j m, (s.objects j).queue = some m → s.mq.linked = some m := by
  have hInv : Inv s := inv_of_run (fun _ _ _ => step_inv) inv_init hCalm hrun
  exact ⟨fun _ _ hstep => hInv.attached.removesAlone hstep, hInv.attached.queue⟩

end Removal

/-- Two writers and a reader, constructed one after the other. The first writer leaves the
queue to the second, which removes it. -/
theorem removes_alone_two_writers :
    ∃ s : Lifecycle (Fin 3), run step {} [.openSem 0 true, .openMq 0, .post 0, .openSem 1 true,
      .openMq 1, .post 1, .openSem 2 false, .timedWait 2, .post 2, .openMq 2, .deleteQueue 0,
      .wait 0, .tryWait 0, .post 0, .deleteQueue 1, .wait 1, .tryWait 1] = some s ∧
      RemovesAlone s (.removeSem 1) := by
  have hRuns : (run step ({} : Lifecycle (Fin 3)) ([.openSem 0 true, .openMq 0, .post 0,
      .openSem 1 true, .openMq 1, .post 1, .openSem 2 false, .timedWait 2, .post 2, .openMq 2,
      .deleteQueue 0, .wait 0, .tryWait 0, .post 0, .deleteQueue 1, .wait 1, .tryWait 1] ++
      [.removeSem 1])).isSome = true := by
    decide +kernel
  obtain ⟨s', hrun⟩ := Option.isSome_iff_exists.mp hRuns
  obtain ⟨s, hrun, hstep⟩ := run_append_eq_some.mp hrun
  obtain ⟨t, hRemove, -⟩ := run_cons_eq_some.mp hstep
  exact ⟨s, hrun, (removes_alone _ (by decide) hrun).1 _ t hRemove⟩

/-- A reader is between its wait and its post when the first of two writers closes. The writer
finds the semaphore at zero and removes the queue of the other one. -/
theorem removed_under_a_writer :
    ¬ ∀ (as : List (LifecycleAction (Fin 3))) (s s' : Lifecycle (Fin 3))
      (a : LifecycleAction (Fin 3)), run step {} as = some s → step s a = some s' →
        RemovesAlone s a := by
  intro hAll
  have hRuns : ((run step ({} : Lifecycle (Fin 3)) [.openSem 0 true, .openMq 0, .post 0,
      .openSem 1 true, .openMq 1, .post 1, .openSem 2 false, .timedWait 2, .deleteQueue 0, .wait 0,
      .tryWait 0]).map fun s => ((s.objects 1).queue, (step s (.removeSem 0)).isSome)) =
      some (some 0, true) := by
    decide
  obtain ⟨s, hrun, hs⟩ := Option.map_eq_some_iff.mp hRuns
  obtain ⟨hQueue, hSome⟩ := Prod.mk.inj hs
  obtain ⟨s', hstep⟩ := Option.isSome_iff_exists.mp hSome
  have hNone : (s.objects 1).queue = none := hAll _ s s' _ hrun hstep 1 (by decide)
  rw [hNone] at hQueue
  cases hQueue

end Lifecycle

end Sailbot.Ipc

import Sailbot.Lib.Transition
import Sailbot.Lib.Family
import Mathlib.Data.Fintype.Pi

/-!
# Opening and closing a queue

The constructor and the destructor of `Queue` (`ipc/queue.cc`) on one name. A named semaphore
counts the writers and lets readers wait for the first of them; the last writer removes the
semaphore and the shared queue. Every operation on the semaphore or on a name is one step,
and any number of `Queue` objects are constructed and destroyed at once, by any processes.

A name stands for one object at a time. When it is removed, those who have the object keep it
and the name is free for a new one, so that objects are numbered here.

* `Lifecycle.step`           — the constructors and the destructors.
* `Lifecycle.step_cases`     — everything that a step can do.
* `Lifecycle.step_accounted` — what the value of a semaphore is, in every run.
-/

namespace Sailbot.Ipc

open Lib

/-- What a name stands for. -/
structure Named where
  linked : Option Nat := none
  next   : Nat := 0
  deriving DecidableEq

namespace Named

/-- `open_or_create`. -/
def openOrCreate (x : Named) : Nat × Named :=
  match x.linked with
  | some n => (n, x)
  | none => (x.next, ⟨some x.next, x.next + 1⟩)

/-- `remove`. -/
def remove (x : Named) : Named := { x with linked := none }

end Named

/-- Where a `Queue` object is in its constructor or destructor, with the number of its
semaphore and of its shared queue. -/
inductive QueueObject
  | absent
  /-- A writer with the semaphore, which has not opened the queue yet. -/
  | writerOpening (sem : Nat)
  /-- A writer with the queue, which has not posted yet. -/
  | writerPosting (sem mq : Nat)
  | writerOpen (sem mq : Nat)
  /-- `queue_` is deleted. -/
  | writerClosing (sem : Nat)
  /-- The `wait` of the destructor is over. -/
  | writerWaited (sem : Nat)
  /-- The `try_wait` succeeded, so that its decrement has to be undone. -/
  | writerReposting (sem : Nat)
  /-- The `try_wait` failed. -/
  | writerRemoving
  /-- The semaphore is removed, and the queue not yet. -/
  | writerUnlinking
  | readerWaiting (sem : Nat)
  /-- The `timed_wait` succeeded, so that its decrement has to be undone. -/
  | readerPosting (sem : Nat)
  | readerOpening
  | readerOpen (mq : Nat)
  deriving DecidableEq

namespace QueueObject

/-- The semaphore that the object uses. -/
@[simp] def semaphore : QueueObject → Option Nat
  | writerOpening n | writerPosting n _ | writerOpen n _ | writerClosing n | writerWaited n
  | writerReposting n | readerWaiting n | readerPosting n => some n
  | absent | writerRemoving | writerUnlinking | readerOpening | readerOpen _ => none

/-- The semaphore that the object uses, if any, has a number below `b`. -/
def Below (b : Nat) (o : QueueObject) : Prop := ∀ n, o.semaphore = some n → n < b

/-- The semaphore of a writer that has not yet taken back its post. -/
@[simp] def attached : QueueObject → Option Nat
  | writerOpening n | writerPosting n _ | writerOpen n _ | writerClosing n => some n
  | _ => none

/-- The shared queue of a writer that has opened or created it. -/
@[simp] def queue : QueueObject → Option Nat
  | writerPosting _ m | writerOpen _ m => some m
  | _ => none

/-- Posts to the semaphore `n` that have not been taken back. -/
@[simp] def posts (n : Nat) : QueueObject → Nat
  | writerOpen k _ | writerClosing k => if k = n then 1 else 0
  | _ => 0

/-- Decrements of the semaphore `n` that have to be undone. -/
@[simp] def takes (n : Nat) : QueueObject → Nat
  | writerReposting k | readerPosting k => if k = n then 1 else 0
  | _ => 0

/-- The semaphore does not count the object as it should. -/
@[simp] def halfway : QueueObject → Bool
  | writerOpening _ | writerPosting _ _ | writerReposting _ | readerPosting _ => true
  | _ => false

/-- The semaphore of a writer that is about to try whether it was the last one. -/
@[simp] def waited : QueueObject → Option Nat
  | writerWaited n => some n
  | _ => none

/-- A writer that is about to remove the names. -/
@[simp] def removing : QueueObject → Bool
  | writerRemoving | writerUnlinking => true
  | _ => false

/-- The object keeps what it has or gives it up, and does not go on to remove the names. -/
structure GoesTo (o o' : QueueObject) : Prop where
  semaphore : o'.semaphore = none ∨ o'.semaphore = o.semaphore
  attached  : o'.attached = none ∨ o'.attached = o.attached
  queue     : o'.queue = none ∨ o'.queue = o.queue
  removing  : o'.removing = false

/-- A writer that has a shared queue has a semaphore. -/
theorem attached_of_queue {o : QueueObject} {m : Nat} (h : o.queue = some m) :
    ∃ n, o.attached = some n := by
  cases o <;> first | exact ⟨_, rfl⟩ | cases h

/-- A writer that is not half-way has posted to its semaphore. -/
theorem posts_of_attached {o : QueueObject} {n : Nat} (h : o.attached = some n)
    (hHalfway : o.halfway = false) : o.posts n = 1 := by
  cases o with
  | writerOpen k m => exact if_pos (Option.some.inj h)
  | writerClosing k => exact if_pos (Option.some.inj h)
  | writerOpening k => cases hHalfway
  | writerPosting k m => cases hHalfway
  | absent => cases h
  | writerWaited k => cases h
  | writerReposting k => cases h
  | writerRemoving => cases h
  | writerUnlinking => cases h
  | readerWaiting k => cases h
  | readerPosting k => cases h
  | readerOpening => cases h
  | readerOpen m => cases h

/-- An object that is counted as it should has no decrement to undo. -/
theorem takes_of_not_halfway {o : QueueObject} (h : o.halfway = false) (n : Nat) :
    o.takes n = 0 := by
  cases o <;> first | rfl | cases h

end QueueObject

structure Lifecycle (ι : Type) where
  sem     : Named := {}
  /-- The values of the semaphores. -/
  value   : Nat → Nat := fun _ => 0
  mq      : Named := {}
  objects : ι → QueueObject := fun _ => .absent

inductive LifecycleAction (ι : Type)
  | openSem (i : ι) (writer : Bool)
  | openMq (i : ι)
  | post (i : ι)
  | timedWait (i : ι)
  | giveUp (i : ι)
  | deleteQueue (i : ι)
  | wait (i : ι)
  | tryWait (i : ι)
  | removeSem (i : ι)
  | removeMq (i : ι)
  deriving DecidableEq

namespace Lifecycle

variable {ι : Type} [DecidableEq ι]

def set (s : Lifecycle ι) (i : ι) (o : QueueObject) : Lifecycle ι :=
  { s with objects := Function.update s.objects i o }

/-- The semaphore's value goes up by one. -/
def increment (s : Lifecycle ι) (n : Nat) : Lifecycle ι :=
  { s with value := Function.update s.value n (s.value n + 1) }

/-- The semaphore's value goes down by one. -/
def decrement (s : Lifecycle ι) (n : Nat) : Lifecycle ι :=
  { s with value := Function.update s.value n (s.value n - 1) }

/-- The semaphore of the name, which is new with the value zero if there was none. -/
def openSem (s : Lifecycle ι) (i : ι) (writer : Bool) : Lifecycle ι :=
  let opened := s.sem.openOrCreate
  { s with
    sem := opened.2
    value := if s.sem.linked.isNone then Function.update s.value opened.1 0 else s.value
    objects := Function.update s.objects i
      (if writer then .writerOpening opened.1 else .readerWaiting opened.1) }

def step (s : Lifecycle ι) : LifecycleAction ι → Option (Lifecycle ι)
  | .openSem i writer =>
    match s.objects i with
    | .absent => some (s.openSem i writer)
    | _ => none
  | .openMq i =>
    match s.objects i with
    | .writerOpening n =>
      some ({ s with mq := s.mq.openOrCreate.2 }.set i (.writerPosting n s.mq.openOrCreate.1))
    | .readerOpening =>
      -- `open_only` throws out of the constructor when there is no queue
      some (s.set i (s.mq.linked.elim .absent .readerOpen))
    | _ => none
  | .post i =>
    match s.objects i with
    | .writerPosting n m => some ((s.increment n).set i (.writerOpen n m))
    | .writerReposting n => some ((s.increment n).set i .absent)
    | .readerPosting n => some ((s.increment n).set i .readerOpening)
    | _ => none
  | .timedWait i =>
    match s.objects i with
    | .readerWaiting n =>
      if 0 < s.value n then some ((s.decrement n).set i (.readerPosting n)) else none
    | _ => none
  | .giveUp i =>
    -- a reader leaves its loop when the program is shut down
    match s.objects i with
    | .readerWaiting _ => some (s.set i .absent)
    | _ => none
  | .deleteQueue i =>
    match s.objects i with
    | .writerOpen n _ => some (s.set i (.writerClosing n))
    | .readerOpen _ => some (s.set i .absent)
    | _ => none
  | .wait i =>
    match s.objects i with
    | .writerClosing n =>
      if 0 < s.value n then some ((s.decrement n).set i (.writerWaited n)) else none
    | _ => none
  | .tryWait i =>
    match s.objects i with
    | .writerWaited n =>
      some (if 0 < s.value n then (s.decrement n).set i (.writerReposting n)
        else s.set i .writerRemoving)
    | _ => none
  | .removeSem i =>
    match s.objects i with
    | .writerRemoving => some ({ s with sem := s.sem.remove }.set i .writerUnlinking)
    | _ => none
  | .removeMq i =>
    match s.objects i with
    | .writerUnlinking => some ({ s with mq := s.mq.remove }.set i .absent)
    | _ => none

-- ---------------------------------------------------------------------------
-- What one step does
-- ---------------------------------------------------------------------------

/-- A step that leaves the names alone: an object goes on, and a semaphore counts it. -/
structure Moves (s : Lifecycle ι) (a : LifecycleAction ι) (i : ι) (s' : Lifecycle ι) : Prop where
  sem       : s'.sem = s.sem
  mq        : s'.mq = s.mq
  objects   : s'.objects = Function.update s.objects i (s'.objects i)
  value     : ∀ n, s'.value n + (s'.objects i).takes n + (s.objects i).posts n =
    s.value n + (s.objects i).takes n + (s'.objects i).posts n
  semaphore : (s'.objects i).semaphore = none ∨
    (s'.objects i).semaphore = (s.objects i).semaphore
  attached  : (s'.objects i).attached = none ∨ (s'.objects i).attached = (s.objects i).attached
  queue     : (s'.objects i).queue = none ∨ (s'.objects i).queue = (s.objects i).queue
  /-- Only a `try_wait` that fails makes a writer remove the names. -/
  removing  : (s'.objects i).removing = true →
    ∃ n, a = .tryWait i ∧ s.objects i = .writerWaited n ∧ s.value n = 0

section Steps

variable {s s' : Lifecycle ι} {a : LifecycleAction ι} {i : ι} {n : Nat} {o o' : QueueObject}

/-- An object that goes on, with the semaphores counting it, has moved. -/
theorem moves_set {value : Nat → Nat} (hi : s.objects i = o)
    (hValue : ∀ n, value n + o'.takes n + o.posts n = s.value n + o.takes n + o'.posts n)
    (hSem : o'.semaphore = none ∨ o'.semaphore = o.semaphore)
    (hAttached : o'.attached = none ∨ o'.attached = o.attached)
    (hQueue : o'.queue = none ∨ o'.queue = o.queue)
    (hRemoving : o'.removing = true → ∃ n, a = .tryWait i ∧ o = .writerWaited n ∧ s.value n = 0) :
    Moves s a i ({ s with value := value }.set i o') := by
  subst hi
  have hSelf : ({ s with value := value }.set i o').objects i = o' := Function.update_self ..
  refine ⟨rfl, rfl, ?_, ?_, ?_, ?_, ?_, ?_⟩
  · rw [hSelf]
    rfl
  all_goals rw [hSelf]
  · exact hValue
  · exact hSem
  · exact hAttached
  · exact hQueue
  · exact hRemoving

/-- So has one that only gives up what it has. -/
theorem moves_goesTo {value : Nat → Nat} (hi : s.objects i = o) (hGoes : o.GoesTo o')
    (hValue : ∀ n, value n + o'.takes n + o.posts n = s.value n + o.takes n + o'.posts n) :
    Moves s a i ({ s with value := value }.set i o') := by
  refine moves_set hi hValue hGoes.semaphore hGoes.attached hGoes.queue ?_
  intro hRemoving
  rw [hGoes.removing] at hRemoving
  cases hRemoving

/-- An object goes on without the semaphore. -/
theorem moves_self (hi : s.objects i = o) (hGoes : o.GoesTo o')
    (hBalance : ∀ k, o'.takes k + o.posts k = o.takes k + o'.posts k) :
    Moves s a i (s.set i o') := by
  refine moves_goesTo hi hGoes ?_
  intro k
  have := hBalance k
  omega

/-- A post by an object for which the semaphore counted one too few. -/
theorem moves_post (hi : s.objects i = o) (hGoes : o.GoesTo o')
    (hBalance : ∀ k, o'.takes k + o.posts k + (if n = k then 1 else 0) = o.takes k + o'.posts k) :
    Moves s a i ((s.increment n).set i o') := by
  refine moves_goesTo hi hGoes ?_
  intro k
  have hk := hBalance k
  by_cases hnk : n = k
  · subst hnk
    rw [Function.update_self]
    simp only [if_true] at hk
    omega
  · rw [Function.update_of_ne (Ne.symm hnk)]
    simp only [hnk, if_false] at hk
    omega

/-- A wait by an object that takes back its post or has to undo it. -/
theorem moves_wait (hi : s.objects i = o) (hPos : 0 < s.value n) (hGoes : o.GoesTo o')
    (hBalance : ∀ k, o'.takes k + o.posts k = o.takes k + o'.posts k + (if n = k then 1 else 0)) :
    Moves s a i ((s.decrement n).set i o') := by
  refine moves_goesTo hi hGoes ?_
  intro k
  have hk := hBalance k
  by_cases hnk : n = k
  · subst hnk
    rw [Function.update_self]
    simp only [if_true] at hk
    omega
  · rw [Function.update_of_ne (Ne.symm hnk)]
    simp only [hnk, if_false] at hk
    omega

/-- A writer that was constructed posts for the first time, one that did not remove the names undoes
its decrement, and a reader gives back what it has waited for. -/
theorem moves_of_post (hstep : step s (.post i) = some s') : Moves s (.post i) i s' := by
  simp only [step] at hstep
  split at hstep
  · next n m hi =>
    obtain rfl := Option.some.inj hstep
    refine moves_post hi ⟨?_, ?_, ?_, ?_⟩ fun k => ?_ <;> simp
  · next n hi =>
    obtain rfl := Option.some.inj hstep
    refine moves_post hi ⟨?_, ?_, ?_, ?_⟩ fun k => ?_ <;> simp
  · next n hi =>
    obtain rfl := Option.some.inj hstep
    refine moves_post hi ⟨?_, ?_, ?_, ?_⟩ fun k => ?_ <;> simp
  · cases hstep

/-- A reader takes what it will give back. -/
theorem moves_of_timedWait (hstep : step s (.timedWait i) = some s') :
    Moves s (.timedWait i) i s' := by
  simp only [step] at hstep
  split at hstep
  · next n hi =>
    split at hstep
    · next hPos =>
      obtain rfl := Option.some.inj hstep
      refine moves_wait hi hPos ⟨?_, ?_, ?_, ?_⟩ fun k => ?_ <;> simp
    · cases hstep
  · cases hstep

/-- A writer that was not the last one gives up its semaphore. -/
theorem moves_of_giveUp (hstep : step s (.giveUp i) = some s') : Moves s (.giveUp i) i s' := by
  simp only [step] at hstep
  split at hstep
  · next n hi =>
    obtain rfl := Option.some.inj hstep
    refine moves_self hi ⟨?_, ?_, ?_, ?_⟩ fun k => ?_ <;> simp
  · cases hstep

/-- A writer that is done lets go of the shared queue. -/
theorem moves_of_deleteQueue (hstep : step s (.deleteQueue i) = some s') :
    Moves s (.deleteQueue i) i s' := by
  simp only [step] at hstep
  split at hstep
  · next n m hi =>
    obtain rfl := Option.some.inj hstep
    refine moves_self hi ⟨?_, ?_, ?_, ?_⟩ fun k => ?_ <;> simp
  · next m hi =>
    obtain rfl := Option.some.inj hstep
    refine moves_self hi ⟨?_, ?_, ?_, ?_⟩ fun k => ?_ <;> simp
  · cases hstep

/-- A writer takes back its own post. -/
theorem moves_of_wait (hstep : step s (.wait i) = some s') : Moves s (.wait i) i s' := by
  simp only [step] at hstep
  split at hstep
  · next n hi =>
    split at hstep
    · next hPos =>
      obtain rfl := Option.some.inj hstep
      refine moves_wait hi hPos ⟨?_, ?_, ?_, ?_⟩ fun k => ?_ <;> simp
    · cases hstep
  · cases hstep

/-- The last writer finds nothing to take, and will remove the names; any other one has to undo its
decrement. -/
theorem moves_of_tryWait (hstep : step s (.tryWait i) = some s') :
    Moves s (.tryWait i) i s' := by
  simp only [step] at hstep
  split at hstep
  · next n hi =>
    obtain rfl := Option.some.inj hstep
    split
    · next hPos => refine moves_wait hi hPos ⟨?_, ?_, ?_, ?_⟩ fun k => ?_ <;> simp
    · next hZero =>
      refine moves_set hi (fun k => ?_) ?_ ?_ ?_ fun _ =>
        ⟨n, rfl, rfl, Nat.eq_zero_of_not_pos hZero⟩ <;> simp
  · cases hstep

/-- Four steps change what a name stands for: the semaphore and the queue are opened, and both names
are removed. In all others an object moves. -/
theorem step_cases (hstep : step s a = some s') :
    (∃ i writer, a = .openSem i writer ∧ s.objects i = .absent ∧ s' = s.openSem i writer) ∨
    (∃ i n, a = .openMq i ∧ s.objects i = .writerOpening n ∧
      s' = { s with mq := s.mq.openOrCreate.2 }.set i (.writerPosting n s.mq.openOrCreate.1)) ∨
    (∃ i, a = .removeSem i ∧ s.objects i = .writerRemoving ∧
      s' = { s with sem := s.sem.remove }.set i .writerUnlinking) ∨
    (∃ i, a = .removeMq i ∧ s.objects i = .writerUnlinking ∧
      s' = { s with mq := s.mq.remove }.set i .absent) ∨
    (∃ i, Moves s a i s') := by
  cases a with
  | openSem i writer =>
    simp only [step] at hstep
    split at hstep
    · next hi => exact .inl ⟨i, writer, rfl, hi, (Option.some.inj hstep).symm⟩
    · cases hstep
  | openMq i =>
    simp only [step] at hstep
    split at hstep
    · next n hi => exact .inr (.inl ⟨i, n, rfl, hi, (Option.some.inj hstep).symm⟩)
    · next hi =>
      -- a reader only looks the name up
      obtain rfl := Option.some.inj hstep
      refine .inr (.inr (.inr (.inr ⟨i, moves_self hi ⟨?_, ?_, ?_, ?_⟩ fun k => ?_⟩)))
      all_goals cases s.mq.linked <;> simp
    · cases hstep
  | post i => exact .inr (.inr (.inr (.inr ⟨i, moves_of_post hstep⟩)))
  | timedWait i => exact .inr (.inr (.inr (.inr ⟨i, moves_of_timedWait hstep⟩)))
  | giveUp i => exact .inr (.inr (.inr (.inr ⟨i, moves_of_giveUp hstep⟩)))
  | deleteQueue i => exact .inr (.inr (.inr (.inr ⟨i, moves_of_deleteQueue hstep⟩)))
  | wait i => exact .inr (.inr (.inr (.inr ⟨i, moves_of_wait hstep⟩)))
  | tryWait i => exact .inr (.inr (.inr (.inr ⟨i, moves_of_tryWait hstep⟩)))
  | removeSem i =>
    simp only [step] at hstep
    split at hstep
    · next hi => exact .inr (.inr (.inl ⟨i, rfl, hi, (Option.some.inj hstep).symm⟩))
    · cases hstep
  | removeMq i =>
    simp only [step] at hstep
    split at hstep
    · next hi => exact .inr (.inr (.inr (.inl ⟨i, rfl, hi, (Option.some.inj hstep).symm⟩)))
    · cases hstep

end Steps

-- ---------------------------------------------------------------------------
-- What the semaphores count
-- ---------------------------------------------------------------------------

variable [Fintype ι]

/-- The value of a semaphore is the number of posts that have not been taken back, less the
decrements that have to be undone. -/
structure Accounted (s : Lifecycle ι) : Prop where
  linked : ∀ n, s.sem.linked = some n → n < s.sem.next
  bound  : ∀ j, (s.objects j).Below s.sem.next
  value  : ∀ n, s.value n + ∑ j, (s.objects j).takes n = ∑ j, (s.objects j).posts n

section Counting

variable {s s' : Lifecycle ι} {a : LifecycleAction ι} {i : ι} {n : Nat} {o : QueueObject}

omit [DecidableEq ι] in
/-- At the start there are no posts. -/
theorem accounted_init : Accounted ({} : Lifecycle ι) where
  linked n h := by cases h
  bound j n h := by cases h
  value n := by simp

/-- An object that has moved is accounted for. -/
theorem Accounted.moves (h : Accounted s) (hMoves : Moves s a i s') : Accounted s' where
  linked := by
    rw [hMoves.sem]
    exact h.linked
  bound := by
    rw [hMoves.objects, hMoves.sem]
    refine forall_update (P := QueueObject.Below s.sem.next) (fun j _ => h.bound j) ?_
    intro n hn
    rcases hMoves.semaphore with hNone | hSame
    · rw [hNone] at hn
      cases hn
    · exact h.bound i n (hSame.symm.trans hn)
  value n := by
    have hTakes := sum_update_add (QueueObject.takes n) s.objects i (s'.objects i)
    have hPosts := sum_update_add (QueueObject.posts n) s.objects i (s'.objects i)
    have hValue := hMoves.value n
    have hOld := h.value n
    rw [hMoves.objects]
    omega

/-- A step of an object that the semaphores do not see. -/
theorem Accounted.set (h : Accounted s) (hTakes : ∀ n, o.takes n = (s.objects i).takes n)
    (hPosts : ∀ n, o.posts n = (s.objects i).posts n) (n : Nat) :
    s.value n + ∑ j, (Function.update s.objects i o j).takes n =
      ∑ j, (Function.update s.objects i o j).posts n := by
  have hTakesSum := sum_update_add (QueueObject.takes n) s.objects i o
  have hPostsSum := sum_update_add (QueueObject.posts n) s.objects i o
  have hOld := h.value n
  rw [hTakes n] at hTakesSum
  rw [hPosts n] at hPostsSum
  omega

omit [DecidableEq ι] in
/-- A semaphore that does not exist yet counts nobody. -/
theorem Accounted.sum_next (h : Accounted s) :
    ∑ j, (s.objects j).takes s.sem.next = 0 ∧ ∑ j, (s.objects j).posts s.sem.next = 0 := by
  have hNext : ∀ j, (s.objects j).semaphore ≠ some s.sem.next := fun j hj =>
    absurd (h.bound j _ hj) (lt_irrefl _)
  constructor
  · refine Finset.sum_eq_zero ?_
    intro j _
    have hj := hNext j
    cases ho : s.objects j <;> simp_all
  · refine Finset.sum_eq_zero ?_
    intro j _
    have hj := hNext j
    cases ho : s.objects j <;> simp_all

/-- So is one that opens its semaphore. -/
theorem Accounted.openSem (h : Accounted s) (hi : s.objects i = .absent) (writer : Bool) :
    Accounted (s.openSem i writer) := by
  have hLe : s.sem.next ≤ s.sem.openOrCreate.2.next := by
    rw [Named.openOrCreate]
    split
    · exact le_rfl
    · exact Nat.le_succ _
  have hLinked : s.sem.openOrCreate.1 < s.sem.openOrCreate.2.next ∧
      s.sem.openOrCreate.2.linked = some s.sem.openOrCreate.1 := by
    cases hSem : s.sem.linked with
    | some n => simp [Named.openOrCreate, hSem, h.linked n hSem]
    | none => simp [Named.openOrCreate, hSem]
  have hSum := h.set (i := i)
    (o := if writer then .writerOpening s.sem.openOrCreate.1
      else .readerWaiting s.sem.openOrCreate.1)
    (fun n => by cases writer <;> simp [hi]) (fun n => by cases writer <;> simp [hi])
  refine ⟨?_, ?_, ?_⟩
  · intro n hn
    obtain rfl := Option.some.inj (hLinked.2.symm.trans hn)
    exact hLinked.1
  · refine forall_update (P := QueueObject.Below _)
      (fun j _ n hn => (h.bound j n hn).trans_le hLe) fun n hn => ?_
    obtain rfl : s.sem.openOrCreate.1 = n := by cases writer <;> simpa using hn
    exact hLinked.1
  · intro n
    -- a new semaphore has the value zero
    rw [Lifecycle.openSem]
    dsimp only
    split
    · next hNone =>
      by_cases hn : n = s.sem.openOrCreate.1
      · subst hn
        have hNew : s.sem.openOrCreate.1 = s.sem.next := by
          rw [Named.openOrCreate, Option.isNone_iff_eq_none.mp hNone]
        have hZero := h.sum_next
        have hOld := h.value s.sem.openOrCreate.1
        have hNow := hSum s.sem.openOrCreate.1
        rw [Function.update_self]
        rw [← hNew] at hZero
        omega
      · rw [Function.update_of_ne hn]
        exact hSum n
    · exact hSum n

/-- Every step keeps the semaphores accounted for. -/
theorem step_accounted (h : Accounted s) (hstep : step s a = some s') : Accounted s' := by
  rcases step_cases hstep with ⟨i, writer, rfl, hi, rfl⟩ | ⟨i, n, rfl, hi, rfl⟩ |
    ⟨i, rfl, hi, rfl⟩ | ⟨i, rfl, hi, rfl⟩ | ⟨i, hMoves⟩
  · exact h.openSem hi writer
  · refine ⟨h.linked, ?_, h.set (i := i) (o := .writerPosting n s.mq.openOrCreate.1) ?_ ?_⟩
    · refine forall_update (P := QueueObject.Below s.sem.next) (fun j _ => h.bound j) ?_
      have hBelow := h.bound i
      rw [hi] at hBelow
      exact hBelow
    · simp [hi]
    · simp [hi]
  · refine ⟨nofun, ?_, h.set (i := i) (o := .writerUnlinking) ?_ ?_⟩
    · exact forall_update (P := QueueObject.Below s.sem.next) (fun j _ => h.bound j) nofun
    · simp [hi]
    · simp [hi]
  · refine ⟨h.linked, ?_, h.set (i := i) (o := .absent) ?_ ?_⟩
    · exact forall_update (P := QueueObject.Below s.sem.next) (fun j _ => h.bound j) nofun
    · simp [hi]
    · simp [hi]
  · exact h.moves hMoves

end Counting

end Lifecycle

end Sailbot.Ipc

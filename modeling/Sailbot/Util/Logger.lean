import Sailbot.Lib.Transition
import Sailbot.Lib.Bytes
import Mathlib.Data.Fintype.Pi

/-!
# The log file

`Logger` (`util/logger.cc`) runs one thread for each queue. They write what they receive to
one file, each record under a lock.

* `encode`            — a sequence of records as bytes.
* `Logger.step`       — the threads of the logger.
* `Logger.out_of_run` — the file is the start time and then whole records, with the messages
  of each queue in their order.
-/

namespace Sailbot.Util

open Lib

abbrev Bytes := List (BitVec 8)

/-- `Logger::MAX_BUF`. -/
def maxBuf : Nat := 1024

-- ---------------------------------------------------------------------------
-- Records
-- ---------------------------------------------------------------------------

/-- The bytes of a `uint16_t`. -/
def le16 (n : Nat) : Bytes := [BitVec.ofNat 8 n, BitVec.ofNat 8 (n / 256)]

/-- The bytes of a `uint64_t`. -/
def le64 (x : BitVec 64) : Bytes := (List.range 8).map (leByte x)

/-- The number in the bytes of a `uint16_t`. -/
def ofLe16 (data : Bytes) : Nat := loadLE (fun i => data.getD i 0) 0 2

def encodeRecord (msg : Bytes) : Bytes := le16 msg.length ++ msg

def encode (msgs : List Bytes) : Bytes := msgs.flatMap encodeRecord

@[simp] theorem length_le16 (n : Nat) : (le16 n).length = 2 := rfl

@[simp] theorem length_le64 (x : BitVec 64) : (le64 x).length = 8 := rfl

@[simp] theorem encode_nil : encode [] = [] := rfl

@[simp] theorem encode_cons (msg : Bytes) (msgs : List Bytes) :
    encode (msg :: msgs) = encodeRecord msg ++ encode msgs := rfl

/-- A log that goes on after another one. -/
theorem encode_append (msgs msgs' : List Bytes) :
    encode (msgs ++ msgs') = encode msgs ++ encode msgs' := List.flatMap_append

/-- The number in two bytes. -/
theorem ofLe16_pair (a b : BitVec 8) : ofLe16 [a, b] = a.toNat + 256 * b.toNat := by
  simp [ofLe16, loadLE, Nat.mul_comm]

/-- A number that fits in two bytes is read as it was written. -/
theorem ofLe16_le16 {n : Nat} (hn : n < 65536) : ofLe16 (le16 n) = n := by
  rw [le16, ofLe16_pair, BitVec.toNat_ofNat, BitVec.toNat_ofNat]
  omega

/-- Two bytes are written as they were read. -/
theorem le16_ofLe16 (a b : BitVec 8) : le16 (ofLe16 [a, b]) = [a, b] := by
  have ha := a.isLt
  have hb := b.isLt
  have hLow : BitVec.ofNat 8 (a.toNat + 256 * b.toNat) = a :=
    BitVec.eq_of_toNat_eq (by rw [BitVec.toNat_ofNat]; omega)
  have hHigh : BitVec.ofNat 8 ((a.toNat + 256 * b.toNat) / 256) = b :=
    BitVec.eq_of_toNat_eq (by rw [BitVec.toNat_ofNat]; omega)
  rw [ofLe16_pair, le16, hLow, hHigh]

-- ---------------------------------------------------------------------------
-- The threads of the logger
-- ---------------------------------------------------------------------------

/-- Where a thread of the logger is in `RunLogHandler`. -/
inductive LogHandler
  | receiving
  | received (msg : Bytes)
  | locked (msg : Bytes)
  | lengthWritten (msg : Bytes)
  deriving DecidableEq

namespace LogHandler

/-- The thread holds the lock. -/
def locks : LogHandler → Bool
  | locked _ | lengthWritten _ => true
  | receiving | received _ => false

/-- The message that the thread has received and not yet written. -/
def pending : LogHandler → List Bytes
  | received msg | locked msg | lengthWritten msg => [msg]
  | receiving => []

/-- What the thread has written of its record. -/
def written : LogHandler → Bytes
  | lengthWritten msg => le16 msg.length
  | receiving | received _ | locked _ => []

end LogHandler

structure Logger (ι : Type) where
  out      : Bytes
  outLock  : Option ι
  threads  : ι → LogHandler
  /-- What each thread has received so far. -/
  received : ι → List Bytes

inductive LoggerAction (ι : Type)
  | receive (i : ι) (msg : Bytes)
  | lock (i : ι)
  | writeLength (i : ι)
  | writeData (i : ι)

namespace Logger

variable {ι : Type} [DecidableEq ι]

instance [Fintype ι] : DecidableEq (Logger ι) := fun s t =>
  decidable_of_iff (s.out = t.out ∧ s.outLock = t.outLock ∧ s.threads = t.threads ∧
    s.received = t.received) (by
      cases s
      cases t
      simp)

/-- The constructor. -/
def init (ι : Type) (startTime : BitVec 64) : Logger ι where
  out := le64 startTime
  outLock := none
  threads _ := .receiving
  received _ := []

def setThread (s : Logger ι) (i : ι) (p : LogHandler) : Logger ι :=
  { s with threads := Function.update s.threads i p }

def step (s : Logger ι) : LoggerAction ι → Option (Logger ι)
  | .receive i msg =>
    match s.threads i with
    | .receiving =>
      if msg.length ≤ maxBuf then
        some ({ s with received := Function.update s.received i (s.received i ++ [msg]) }.setThread
          i (.received msg))
      else none
    | _ => none
  | .lock i =>
    match s.threads i, s.outLock with
    | .received msg, none => some ({ s with outLock := some i }.setThread i (.locked msg))
    | _, _ => none
  | .writeLength i =>
    match s.threads i with
    | .locked msg =>
      some ({ s with out := s.out ++ le16 msg.length }.setThread i (.lengthWritten msg))
    | _ => none
  | .writeData i =>
    match s.threads i with
    | .lengthWritten msg =>
      -- the lock is released at the end of the scope
      some ({ s with out := s.out ++ msg, outLock := none }.setThread i .receiving)
    | _ => none

/-- The threads have been joined. -/
def Joined (s : Logger ι) : Prop := ∀ i, s.threads i = .receiving

instance [Fintype ι] (s : Logger ι) : Decidable (Joined s) :=
  inferInstanceAs (Decidable (∀ i, s.threads i = .receiving))

section Runs

variable {s s' : Logger ι} {a : LoggerAction ι} {i j : ι} {p : LogHandler}

/-- The other threads stay where they are. -/
theorem threads_setThread_of_ne (h : j ≠ i) : (s.setThread i p).threads j = s.threads j := by
  simp [setThread, h]

/-- Everything that a step can do, one case for each action. -/
theorem step_cases (hstep : step s a = some s') :
    (∃ i msg, a = .receive i msg ∧ s.threads i = .receiving ∧ msg.length ≤ maxBuf ∧
      s' = { s with received := Function.update s.received i (s.received i ++ [msg]) }.setThread
        i (.received msg)) ∨
    (∃ i msg, a = .lock i ∧ s.threads i = .received msg ∧ s.outLock = none ∧
      s' = { s with outLock := some i }.setThread i (.locked msg)) ∨
    (∃ i msg, a = .writeLength i ∧ s.threads i = .locked msg ∧
      s' = { s with out := s.out ++ le16 msg.length }.setThread i (.lengthWritten msg)) ∨
    (∃ i msg, a = .writeData i ∧ s.threads i = .lengthWritten msg ∧
      s' = { s with out := s.out ++ msg, outLock := none }.setThread i .receiving) := by
  cases a with
  | receive i msg =>
    simp only [step] at hstep
    split at hstep
    · next hi =>
      split at hstep
      · next hLen => exact .inl ⟨i, msg, rfl, hi, hLen, (Option.some.inj hstep).symm⟩
      · cases hstep
    · cases hstep
  | lock i =>
    simp only [step] at hstep
    split at hstep
    · next msg hi hLock =>
      exact .inr (.inl ⟨i, msg, rfl, hi, hLock, (Option.some.inj hstep).symm⟩)
    · cases hstep
  | writeLength i =>
    simp only [step] at hstep
    split at hstep
    · next msg hi => exact .inr (.inr (.inl ⟨i, msg, rfl, hi, (Option.some.inj hstep).symm⟩))
    · cases hstep
  | writeData i =>
    simp only [step] at hstep
    split at hstep
    · next msg hi => exact .inr (.inr (.inr ⟨i, msg, rfl, hi, (Option.some.inj hstep).symm⟩))
    · cases hstep

/-- The records of one queue. -/
def ofQueue (log : List (ι × Bytes)) (i : ι) : List Bytes :=
  (log.filter (·.1 = i)).map (·.2)

/-- A record belongs to the queue that it was received on. -/
theorem ofQueue_append (log : List (ι × Bytes)) (i j : ι) (msg : Bytes) :
    ofQueue (log ++ [(i, msg)]) j = ofQueue log j ++ if i = j then [msg] else [] := by
  rw [ofQueue, List.filter_append, List.map_append, ← ofQueue]
  by_cases hij : i = j <;> simp [hij]

/-- The records `log` are in the file, and then what the thread with the lock has written. -/
structure Logged (startTime : BitVec 64) (log : List (ι × Bytes)) (s : Logger ι) : Prop where
  out      : s.out = le64 startTime ++ encode (log.map (·.2)) ++
    s.outLock.elim [] fun i => (s.threads i).written
  received : ∀ i, s.received i = ofQueue log i ++ (s.threads i).pending
  lock     : ∀ i, (s.threads i).locks = true ↔ s.outLock = some i
  short    : ∀ i, ∀ msg ∈ s.received i, msg.length ≤ maxBuf

/-- A new log has the start time and no record. -/
theorem logged_init (startTime : BitVec 64) : Logged startTime [] (init ι startTime) where
  out := by simp [init]
  received i := rfl
  lock i := by simp [init, LogHandler.locks]
  short i msg h := absurd h List.not_mem_nil

variable {startTime : BitVec 64} {log : List (ι × Bytes)} {msg : Bytes}

/-- A thread that receives a message has written nothing of it. -/
theorem Logged.receive (h : Logged startTime log s) (hi : s.threads i = .receiving)
    (hLen : msg.length ≤ maxBuf) :
    Logged startTime log
      ({ s with received := Function.update s.received i (s.received i ++ [msg]) }.setThread
        i (.received msg)) where
  out := by
    -- the thread that receives does not hold the lock
    have hWritten : (s.outLock.elim [] fun j => (s.threads j).written) =
        s.outLock.elim [] fun j => ((s.setThread i (.received msg)).threads j).written := by
      cases hLock : s.outLock with
      | none => rfl
      | some j =>
        have hji : j ≠ i := by
          rintro rfl
          simpa [hi, LogHandler.locks] using (h.lock j).mpr hLock
        simp only [Option.elim_some]
        rw [threads_setThread_of_ne hji]
    refine h.out.trans ?_
    rw [hWritten]
    rfl
  received j := by
    have hReceived := h.received j
    by_cases hji : j = i
    · subst hji
      simp_all [setThread, LogHandler.pending]
    · simp [setThread, hji, hReceived]
  lock j := by
    have hLock := h.lock j
    by_cases hji : j = i
    · subst hji
      simp_all [setThread, LogHandler.locks]
    · simpa [setThread, hji] using hLock
  short j := by
    by_cases hji : j = i
    · subst hji
      simpa [setThread, or_imp, forall_and, hLen] using h.short j
    · simpa [setThread, hji] using h.short j

/-- A thread moves on within its record. -/
theorem Logged.move {out : Bytes} {outLock : Option ι} (h : Logged startTime log s)
    (hOut : out = le64 startTime ++ encode (log.map (·.2)) ++ p.written)
    (hPending : p.pending = (s.threads i).pending) (hLocks : p.locks = true)
    (hLock : outLock = some i) (hOthers : s.outLock = none ∨ s.outLock = some i) :
    Logged startTime log ({ s with out := out, outLock := outLock }.setThread i p) where
  out := by simp [setThread, hLock, hOut]
  received j := by
    have hReceived := h.received j
    by_cases hji : j = i
    · subst hji
      simpa [setThread, hPending] using hReceived
    · simpa [setThread, hji] using hReceived
  lock j := by
    by_cases hji : j = i
    · subst hji
      simp [setThread, hLock, hLocks]
    · have hj := h.lock j
      rcases hOthers with hOthers | hOthers <;>
        simpa [setThread, hji, hLock, hOthers, Ne.symm hji] using hj
  short := h.short

/-- The thread with the lock ends its record. -/
theorem Logged.writeData (h : Logged startTime log s) (hi : s.threads i = .lengthWritten msg) :
    Logged startTime (log ++ [(i, msg)])
      ({ s with out := s.out ++ msg, outLock := none }.setThread i .receiving) where
  out := by
    have hLock : s.outLock = some i := (h.lock i).mp (by rw [hi, LogHandler.locks])
    have hOut := h.out
    rw [hLock, Option.elim_some, hi, LogHandler.written] at hOut
    simp [setThread, hOut, encode_append, encodeRecord]
  received j := by
    have hReceived := h.received j
    rw [ofQueue_append]
    by_cases hji : j = i
    · subst hji
      simp_all [setThread, LogHandler.pending]
    · simp [setThread, hji, hReceived, Ne.symm hji]
  lock j := by
    have hLock : s.outLock = some i := (h.lock i).mp (by rw [hi, LogHandler.locks])
    by_cases hji : j = i
    · subst hji
      simp [setThread, LogHandler.locks]
    · have hj := h.lock j
      simpa [setThread, hji, hLock, Ne.symm hji] using hj
  short := h.short

/-- Every step keeps whole records in the file, with what the thread with the lock has written
behind them. -/
theorem step_logged (h : Logged startTime log s) (hstep : step s a = some s') :
    ∃ log', Logged startTime log' s' := by
  have hOut := h.out
  rcases step_cases hstep with ⟨i, msg, rfl, hi, hLen, rfl⟩ | ⟨i, msg, rfl, hi, hLock, rfl⟩ |
    ⟨i, msg, rfl, hi, rfl⟩ | ⟨i, msg, rfl, hi, rfl⟩
  · exact ⟨log, h.receive hi hLen⟩
  · rw [hLock, Option.elim_none] at hOut
    exact ⟨log, h.move hOut (by rw [hi]; rfl) rfl rfl (.inl hLock)⟩
  · have hLock : s.outLock = some i := (h.lock i).mp (by rw [hi, LogHandler.locks])
    rw [hLock, Option.elim_some, hi, LogHandler.written, List.append_nil] at hOut
    exact ⟨log, h.move (by rw [hOut]; rfl) (by rw [hi]; rfl) rfl hLock (.inr hLock)⟩
  · exact ⟨log ++ [(i, msg)], h.writeData hi⟩

/-- **The file.** When the threads of a logger have been joined, whatever their interleaving
was, the file is the start time and one whole record for each message received, those of
each queue in their order. -/
theorem out_of_run {as : List (LoggerAction ι)} (hrun : run step (init ι startTime) as = some s)
    (hJoined : Joined s) :
    ∃ log : List (ι × Bytes), s.out = le64 startTime ++ encode (log.map (·.2)) ∧
      (∀ i, ofQueue log i = s.received i) ∧ ∀ i, ∀ msg ∈ s.received i, msg.length ≤ maxBuf := by
  obtain ⟨log, h⟩ : ∃ log, Logged startTime log s :=
    inv_of_run_forall (I := fun s => ∃ log, Logged startTime log s)
      (fun _ _ _ ⟨_, h⟩ hstep => step_logged h hstep) ⟨[], logged_init startTime⟩ hrun
  refine ⟨log, ?_, ?_, h.short⟩
  · have hLock : s.outLock = none := by
      cases hLock : s.outLock with
      | none => rfl
      | some i =>
        have hi := (h.lock i).mpr hLock
        rw [hJoined i] at hi
        cases hi
    rw [h.out, hLock, Option.elim_none, List.append_nil]
  · intro i
    rw [h.received i, hJoined i, LogHandler.pending, List.append_nil]

end Runs

end Logger

end Sailbot.Util

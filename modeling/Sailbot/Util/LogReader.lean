import Sailbot.Util.Logger
import Mathlib.Order.Basic
import Mathlib.Data.Nat.Basic

/-!
# Reading a log file

A log file is read by `LogReplay` (`util/log-replay.cc`) and by `ReadFile`
(`util/logger.cc`). Both read a length and then so many bytes, and stop when a read hits
the end of the file. They differ in what they do first and in how long a record may be.

* `readRecords_encode`    — reading gives the records at the front of a stream if what
  follows them is not a record.
* `encode_of_readRecords` — and only then.
* `Logger.readers_recover_iff` — when both readers give back what was logged.
* `Logger.replay_truncated`    — a file that was cut off gives its complete records.
-/

namespace Sailbot.Util

open Lib

/-- An input file stream. -/
structure IStream where
  rest : Bytes
  eof  : Bool := false
  deriving DecidableEq

/-- `read`: a stream that has hit the end gives nothing more, and a read that is exact does
not hit it. -/
def IStream.read (s : IStream) (n : Nat) : Bytes × IStream :=
  if s.eof then ([], s)
  else if s.rest.length < n then (s.rest, ⟨[], true⟩)
  else (s.rest.take n, ⟨s.rest.drop n, false⟩)

inductive ReadResult
  | eof
  /-- The process was aborted, or memory behind the buffer was written. -/
  | failed
  | record (msg : Bytes)
  deriving DecidableEq

/-- One record of a stream. `fits` is told the length that was read and how many bytes are
left in the file. -/
def readRecord (fits : Nat → Nat → Bool) (s : IStream) : ReadResult × IStream :=
  let (len, s) := s.read 2
  if s.eof then (.eof, s)
  else if fits (ofLe16 len) s.rest.length then
    let (buf, s) := s.read (ofLe16 len)
    if s.eof then (.eof, s) else (.record buf, s)
  else (.failed, s)

/-- Reads record after record until the end of the stream; `none` when a read fails. -/
def readRecords (next : IStream → ReadResult × IStream) : Nat → IStream → Option (List Bytes)
  | 0, _ => none
  | n + 1, s =>
    match next s with
    | (.eof, _) => some []
    | (.failed, _) => none
    | (.record msg, s) => (readRecords next n s).map (msg :: ·)

/-- `LogReplay::ReadLogMessage`, which checks that the length is less than that of the
buffer. -/
def readLogMessage : IStream → ReadResult × IStream := readRecord fun len _ => len < maxBuf

/-- The body of the loop of `ReadFile`, which reads into the buffer without a check. -/
def readFileRecord : IStream → ReadResult × IStream :=
  readRecord fun len left => min len left ≤ maxBuf

/-- `ReadFile`. Every record takes two bytes or more. -/
def readFile (file : Bytes) : Option (List Bytes) :=
  readRecords readFileRecord (file.length + 1) ⟨file, false⟩

/-- `LogReplay::Init` up to its check that nothing runs on the clock yet, where
`nextWakeup` is the wakeup that it finds: the stream behind the start time, and whether a
shutdown was raised. -/
def replayInit (nextWakeup : Int) (file : Bytes) : Option (IStream × Bool) :=
  let (_, s) := IStream.read ⟨file, false⟩ 8
  if nextWakeup = 0 then some (s, s.eof) else none

/-- `LogReplay`: the records that the loop of `Run` processes, and whether a shutdown was
raised in the end. -/
def replay (nextWakeup : Int) (file : Bytes) : Option (List Bytes × Bool) := do
  let (s, shutdown) ← replayInit nextWakeup file
  if shutdown then some ([], true)
  else
    (readRecords readLogMessage (file.length + 1) s).map fun records => (records, true)

-- ---------------------------------------------------------------------------
-- One record
-- ---------------------------------------------------------------------------

/-- No whole record stands at the front. -/
def Incomplete (rest : Bytes) : Prop :=
  rest.length < 2 ∨ rest.length < 2 + ofLe16 (rest.take 2)

section Reading

variable {fits : Nat → Nat → Bool} {rest tail : Bytes} {msg : Bytes} {msgs : List Bytes}

/-- Two bytes at the front. -/
theorem exists_cons_cons (h : 2 ≤ rest.length) : ∃ a b tail, rest = a :: b :: tail :=
  ⟨rest[0], rest[1], rest.drop 2, by
    rw [← List.drop_eq_getElem_cons, ← List.drop_eq_getElem_cons, List.drop_zero]⟩

/-- A stream with less than two bytes ends. -/
theorem readRecord_short (h : rest.length < 2) :
    readRecord fits ⟨rest, false⟩ = (.eof, ⟨[], true⟩) := by
  simp [readRecord, IStream.read, h]

/-- What is read after the two bytes of a length. -/
theorem readRecord_cons (a b : BitVec 8) (tail : Bytes) :
    readRecord fits ⟨a :: b :: tail, false⟩ =
      if fits (ofLe16 [a, b]) tail.length then
        if tail.length < ofLe16 [a, b] then (.eof, ⟨[], true⟩)
        else (.record (tail.take (ofLe16 [a, b])), ⟨tail.drop (ofLe16 [a, b]), false⟩)
      else (.failed, ⟨tail, false⟩) := by
  have hRead : IStream.read ⟨a :: b :: tail, false⟩ 2 = ([a, b], ⟨tail, false⟩) := by
    simp [IStream.read]
  rw [readRecord, hRead]
  by_cases hShort : tail.length < ofLe16 [a, b] <;> simp [IStream.read, hShort]

/-- A record that fits is read as it was written. -/
theorem readRecord_encodeRecord (hLen : msg.length < 65536)
    (hFits : fits msg.length (msg.length + rest.length) = true) :
    readRecord fits ⟨encodeRecord msg ++ rest, false⟩ = (.record msg, ⟨rest, false⟩) := by
  have hOf : ofLe16 [BitVec.ofNat 8 msg.length, BitVec.ofNat 8 (msg.length / 256)] = msg.length :=
    ofLe16_le16 hLen
  show readRecord fits ⟨_ :: _ :: (msg ++ rest), false⟩ = _
  rw [readRecord_cons, hOf, List.length_append, if_pos hFits, if_neg (by omega),
    List.take_left, List.drop_left]

/-- What is not a record is the end. -/
theorem readRecord_incomplete (h : Incomplete tail)
    (hFits : 2 ≤ tail.length → fits (ofLe16 (tail.take 2)) (tail.length - 2) = true) :
    readRecord fits ⟨tail, false⟩ = (.eof, ⟨[], true⟩) := by
  rcases Nat.lt_or_ge tail.length 2 with hLt | hGe
  · exact readRecord_short hLt
  · obtain ⟨a, b, tail, rfl⟩ := exists_cons_cons hGe
    have hShort : tail.length < ofLe16 [a, b] := by
      rcases h with h | h
      · simp only [List.length_cons] at h
        omega
      · simp only [List.length_cons, List.take_succ_cons, List.take_zero] at h
        omega
    have hFits : fits (ofLe16 [a, b]) tail.length = true := hFits hGe
    rw [readRecord_cons, if_pos hFits, if_pos hShort]

-- ---------------------------------------------------------------------------
-- All records
-- ---------------------------------------------------------------------------

/-- Records that fit, with no whole one behind them, are read in their order. -/
theorem readRecords_encode {n : Nat} (hTail : Incomplete tail)
    (hTailFits : 2 ≤ tail.length → fits (ofLe16 (tail.take 2)) (tail.length - 2) = true)
    (hMsgs : ∀ msg ∈ msgs, msg.length < 65536 ∧ ∀ left, fits msg.length left = true)
    (hFuel : msgs.length < n) :
    readRecords (readRecord fits) n ⟨encode msgs ++ tail, false⟩ = some msgs := by
  induction msgs generalizing n with
  | nil =>
    obtain ⟨n, rfl⟩ := Nat.exists_eq_succ_of_ne_zero (by omega : n ≠ 0)
    rw [encode_nil, List.nil_append, readRecords, readRecord_incomplete hTail hTailFits]
  | cons msg msgs ih =>
    obtain ⟨n, rfl⟩ := Nat.exists_eq_succ_of_ne_zero (by omega : n ≠ 0)
    obtain ⟨⟨hLen, hFits⟩, hMsgs⟩ := List.forall_mem_cons.mp hMsgs
    rw [encode_cons, List.append_assoc, readRecords, readRecord_encodeRecord hLen (hFits _)]
    show (readRecords (readRecord fits) n ⟨encode msgs ++ tail, false⟩).map (msg :: ·) = _
    rw [ih hMsgs (by simpa using hFuel), Option.map_some]

/-- What was read stands at the front of the stream, and no record behind it. -/
theorem encode_of_readRecords {n : Nat}
    (h : readRecords (readRecord fits) n ⟨rest, false⟩ = some msgs) :
    ∃ tail, rest = encode msgs ++ tail ∧ Incomplete tail ∧
      ∀ msg ∈ msgs, ∃ left, fits msg.length left = true := by
  induction n generalizing rest msgs with
  | zero => cases h
  | succ n ih =>
    rw [readRecords] at h
    rcases Nat.lt_or_ge rest.length 2 with hLt | hGe
    · rw [readRecord_short hLt] at h
      obtain rfl : [] = msgs := Option.some.inj h
      exact ⟨rest, rfl, .inl hLt, fun msg hmsg => absurd hmsg List.not_mem_nil⟩
    · obtain ⟨a, b, rest, rfl⟩ := exists_cons_cons hGe
      rw [readRecord_cons] at h
      by_cases hFits : fits (ofLe16 [a, b]) rest.length = true
      · by_cases hShort : rest.length < ofLe16 [a, b]
        · rw [if_pos hFits, if_pos hShort] at h
          obtain rfl : [] = msgs := Option.some.inj h
          refine ⟨_, rfl, .inr ?_, fun msg hmsg => absurd hmsg List.not_mem_nil⟩
          simp only [List.length_cons, List.take_succ_cons, List.take_zero]
          omega
        · rw [if_pos hFits, if_neg hShort] at h
          obtain ⟨records, hRecords, rfl⟩ := Option.map_eq_some_iff.mp h
          obtain ⟨tail, hTail, hIncomplete, hFit⟩ := ih hRecords
          have hTake : (rest.take (ofLe16 [a, b])).length = ofLe16 [a, b] :=
            List.length_take_of_le (by omega)
          refine ⟨tail, ?_, hIncomplete, List.forall_mem_cons.mpr ⟨⟨rest.length, ?_⟩, hFit⟩⟩
          · rw [encode_cons, List.append_assoc, ← hTail, encodeRecord, hTake, le16_ofLe16,
              List.append_assoc, List.take_append_drop]
            rfl
          · rw [hTake]
            exact hFits
      · rw [if_neg hFits] at h
        cases h

-- ---------------------------------------------------------------------------
-- Whole files
-- ---------------------------------------------------------------------------

/-- Every record has two bytes or more. -/
theorem length_le_encode (msgs : List Bytes) : msgs.length ≤ (encode msgs).length := by
  induction msgs with
  | nil => exact Nat.le_refl 0
  | cons msg msgs ih =>
    rw [encode_cons, encodeRecord, List.length_append, List.length_append, length_le16,
      List.length_cons]
    omega

/-- A file without a start time has no records. -/
theorem replay_short {file : Bytes} (h : file.length < 8) : replay 0 file = some ([], true) := by
  simp [replay, replayInit, IStream.read, h]

/-- Behind the start time the records are read. -/
theorem replay_append {header : Bytes} (hHeader : header.length = 8) (rest : Bytes) :
    replay 0 (header ++ rest) =
      (readRecords readLogMessage ((header ++ rest).length + 1) ⟨rest, false⟩).map
        fun records => (records, true) := by
  have hRead : IStream.read ⟨header ++ rest, false⟩ 8 = (header, ⟨rest, false⟩) := by
    have hLen : ¬ (header ++ rest).length < 8 := by
      rw [List.length_append]
      omega
    rw [IStream.read, if_neg Bool.false_ne_true, if_neg hLen]
    simp [List.take_left' hHeader, List.drop_left' hHeader]
  simp [replay, replayInit, hRead]

/-- `LogReplay` gives back the records behind the start time if they are shorter than its
buffer, whatever part of a record follows. -/
theorem replay_encode {header : Bytes} (hHeader : header.length = 8)
    (hMsgs : ∀ msg ∈ msgs, msg.length < maxBuf) (hTail : Incomplete tail)
    (hTailShort : 2 ≤ tail.length → ofLe16 (tail.take 2) < maxBuf) :
    replay 0 (header ++ (encode msgs ++ tail)) = some (msgs, true) := by
  have hFuel : msgs.length < (header ++ (encode msgs ++ tail)).length + 1 := by
    have := length_le_encode msgs
    rw [List.length_append, List.length_append]
    omega
  rw [replay_append hHeader, readLogMessage, readRecords_encode hTail ?_ ?_ hFuel, Option.map_some]
  · exact fun h => decide_eq_true (hTailShort h)
  · intro msg hmsg
    have hLen := hMsgs msg hmsg
    exact ⟨hLen.trans (by decide), fun _ => decide_eq_true hLen⟩

/-- `LogReplay` recovers the records, if and only if all are shorter than its buffer. -/
theorem replay_eq_some_iff {header : Bytes} (hHeader : header.length = 8) :
    replay 0 (header ++ encode msgs) = some (msgs, true) ↔
      ∀ msg ∈ msgs, msg.length < maxBuf := by
  constructor
  · intro h
    rw [replay_append hHeader] at h
    obtain ⟨records, hRecords, hEq⟩ := Option.map_eq_some_iff.mp h
    obtain rfl : records = msgs := congrArg Prod.fst hEq
    obtain ⟨-, -, -, hFit⟩ := encode_of_readRecords hRecords
    intro msg hmsg
    obtain ⟨-, hLt⟩ := hFit msg hmsg
    exact of_decide_eq_true hLt
  · intro hMsgs
    have hEnd : Incomplete [] := .inl (by decide)
    have h := replay_encode hHeader hMsgs hEnd fun h => absurd h (by simp)
    rwa [List.append_nil] at h

/-- `ReadFile` starts at the front of the file: it recovers the records, if and only if the start
time can be read as the records' beginning and then as an incomplete one. -/
theorem readFile_eq_some_iff {header : Bytes} (hHeader : header.length = 8)
    (hMsgs : ∀ msg ∈ msgs, msg.length ≤ maxBuf) :
    readFile (header ++ encode msgs) = some msgs ↔
      encode msgs <+: header ++ encode msgs ∧
        6 < ofLe16 (((header ++ encode msgs).drop (encode msgs).length).take 2) := by
  have hLength : ∀ {tail : Bytes}, header ++ encode msgs = encode msgs ++ tail →
      tail.length = 8 := by
    intro tail hEq
    have hLen := congrArg List.length hEq
    rw [List.length_append, List.length_append] at hLen
    omega
  constructor
  · intro h
    obtain ⟨tail, hEq, hTail, -⟩ := encode_of_readRecords h
    have hLen := hLength hEq
    refine ⟨⟨tail, hEq.symm⟩, ?_⟩
    rw [hEq, List.drop_left]
    rcases hTail with hTail | hTail <;> omega
  · rintro ⟨⟨tail, hEq⟩, hTail⟩
    have hLen := hLength hEq.symm
    rw [← hEq, List.drop_left] at hTail
    rw [← hEq, readFile, readFileRecord]
    refine readRecords_encode (.inr (by omega)) (fun _ => ?_) (fun msg hmsg => ?_) ?_
    · rw [decide_eq_true_eq, hLen]
      exact (Nat.min_le_right _ _).trans (by decide)
    · have hShort := hMsgs msg hmsg
      exact ⟨hShort.trans_lt (by decide),
        fun _ => decide_eq_true ((Nat.min_le_left _ _).trans hShort)⟩
    · have := length_le_encode msgs
      rw [List.length_append]
      omega

-- ---------------------------------------------------------------------------
-- Files that were cut off
-- ---------------------------------------------------------------------------

/-- A record that was cut is incomplete, and its length is that of the whole one. -/
theorem incomplete_take_encodeRecord {j : Nat} (hLen : msg.length < 65536)
    (hj : j < (encodeRecord msg).length) : Incomplete ((encodeRecord msg).take j) ∧
      (2 ≤ ((encodeRecord msg).take j).length →
        ofLe16 (((encodeRecord msg).take j).take 2) = msg.length) := by
  have hRecord : (encodeRecord msg).length = 2 + msg.length := by
    rw [encodeRecord, List.length_append, length_le16]
  have hTake : ((encodeRecord msg).take j).length = j := List.length_take_of_le hj.le
  have hField : 2 ≤ j → ofLe16 (((encodeRecord msg).take j).take 2) = msg.length := by
    intro h
    rw [List.take_take, Nat.min_eq_left h, encodeRecord, List.take_left' (length_le16 _),
      ofLe16_le16 hLen]
  refine ⟨?_, by rw [hTake]; exact hField⟩
  rcases Nat.lt_or_ge j 2 with hLt | hGe
  · exact .inl (by omega)
  · exact .inr (by rw [hField hGe]; omega)

/-- A cut leaves whole records and then part of the next one. -/
theorem take_encode (msgs : List Bytes) (k : Nat) :
    ∃ n ≤ msgs.length, ∃ tail, (encode msgs).take k = encode (msgs.take n) ++ tail ∧
      (tail = [] ∨ ∃ msg ∈ msgs, ∃ j < (encodeRecord msg).length,
        tail = (encodeRecord msg).take j) ∧
      ∀ m ≤ msgs.length, m ≤ n ↔ (encode (msgs.take m)).length ≤ k := by
  induction msgs generalizing k with
  | nil =>
    refine ⟨0, le_rfl, [], by simp, .inl rfl, ?_⟩
    intro m hm
    simp only [List.length_nil] at hm
    simp [hm]
  | cons msg msgs ih =>
    rcases Nat.lt_or_ge k (encodeRecord msg).length with hLt | hGe
    · refine ⟨0, Nat.zero_le _, (encodeRecord msg).take k, ?_, .inr ⟨msg, List.mem_cons_self, k,
        hLt, rfl⟩, fun m _ => ?_⟩
      · rw [encode_cons, List.take_append_of_le_length hLt.le]
        rfl
      · cases m with
        | zero => simp
        | succ m =>
          rw [List.take_succ_cons, encode_cons, List.length_append]
          omega
    · obtain ⟨n, hn, tail, hTake, hTail, hIff⟩ := ih (k - (encodeRecord msg).length)
      refine ⟨n + 1, Nat.succ_le_succ hn, tail, ?_, ?_, ?_⟩
      · rw [encode_cons, List.take_append, List.take_of_length_le hGe, hTake, List.take_succ_cons,
          encode_cons, List.append_assoc]
      · rcases hTail with rfl | ⟨msg', hmsg', hj⟩
        · exact .inl rfl
        · exact .inr ⟨msg', List.mem_cons_of_mem _ hmsg', hj⟩
      · intro m hm
        cases m with
        | zero => simp
        | succ m =>
          have hm' := hIff m (Nat.le_of_succ_le_succ hm)
          rw [List.take_succ_cons, encode_cons, List.length_append]
          omega

/-- **Cut off.** Behind a start time of eight bytes, record `m` is replayed exactly if it
ends before the cut. -/
theorem replay_take {header : Bytes} (hHeader : header.length = 8)
    (hMsgs : ∀ msg ∈ msgs, msg.length < maxBuf) (k : Nat) :
    ∃ n ≤ msgs.length, replay 0 ((header ++ encode msgs).take k) = some (msgs.take n, true) ∧
      ∀ m, 0 < m → m ≤ msgs.length →
        (m ≤ n ↔ 8 + (encode (msgs.take m)).length ≤ k) := by
  rcases Nat.lt_or_ge k 8 with hLt | hGe
  · refine ⟨0, Nat.zero_le _, ?_, fun m hm _ => by omega⟩
    rw [replay_short (by rw [List.length_take]; omega), List.take_zero]
  · obtain ⟨n, hn, tail, hTake, hTail, hIff⟩ := take_encode msgs (k - 8)
    refine ⟨n, hn, ?_, fun m _ hm => by rw [hIff m hm]; omega⟩
    rw [List.take_append, List.take_of_length_le (by omega), hHeader, hTake]
    have hTail : Incomplete tail ∧ (2 ≤ tail.length → ofLe16 (tail.take 2) < maxBuf) := by
      rcases hTail with rfl | ⟨msg, hmsg, j, hj, rfl⟩
      · exact ⟨.inl (by decide), fun h => absurd h (by simp)⟩
      · obtain ⟨hIncomplete, hField⟩ :=
          incomplete_take_encodeRecord ((hMsgs msg hmsg).trans (by decide)) hj
        exact ⟨hIncomplete, fun h => by rw [hField h]; exact hMsgs msg hmsg⟩
    exact replay_encode hHeader (fun msg hmsg => hMsgs msg (List.mem_of_mem_take hmsg)) hTail.1
      hTail.2

end Reading

namespace Logger

variable {ι : Type} [DecidableEq ι] {s : Logger ι} {startTime : BitVec 64}

/-- A record in the log was received on one of the queues. -/
theorem mem_received {log : List (ι × Bytes)} (hLog : ∀ i, ofQueue log i = s.received i)
    {msg : Bytes} (hmsg : msg ∈ log.map (·.2)) : ∃ i, msg ∈ s.received i := by
  obtain ⟨⟨i, msg⟩, hMem, rfl⟩ := List.mem_map.mp hmsg
  refine ⟨i, ?_⟩
  rw [← hLog i]
  exact List.mem_map.mpr ⟨(i, msg), List.mem_filter.mpr ⟨hMem, by simp⟩, rfl⟩

/-- **Writing and reading.** A log is the start time and one whole record for each message
received, with the messages of each queue in their order. Both readers give back these
records exactly if all of them are shorter than the buffer of `LogReplay`, and the records
go on from the start time in such a way that `ReadFile`, which takes the start time for
records too, reads them eight bytes early and finds no record in the last eight bytes. -/
theorem readers_recover_iff (as : List (LoggerAction ι))
    (hrun : run step (init ι startTime) as = some s) (hJoined : Joined s) :
    ∃ log : List (ι × Bytes), s.out = le64 startTime ++ encode (log.map (·.2)) ∧
      (∀ i, ofQueue log i = s.received i) ∧
      (replay 0 s.out = some (log.map (·.2), true) ∧ readFile s.out = some (log.map (·.2)) ↔
        (∀ i, ∀ msg ∈ s.received i, msg.length < maxBuf) ∧ encode (log.map (·.2)) <+: s.out ∧
          6 < ofLe16 ((s.out.drop (encode (log.map (·.2))).length).take 2)) := by
  obtain ⟨log, hOut, hLog, hShort⟩ := out_of_run hrun hJoined
  refine ⟨log, hOut, hLog, ?_⟩
  have hMsgs : (∀ msg ∈ log.map (·.2), msg.length < maxBuf) ↔
      ∀ i, ∀ msg ∈ s.received i, msg.length < maxBuf := by
    constructor
    · intro h i msg hmsg
      rw [← hLog i] at hmsg
      obtain ⟨r, hr, rfl⟩ := List.mem_map.mp hmsg
      exact h _ (List.mem_map.mpr ⟨r, (List.mem_filter.mp hr).1, rfl⟩)
    · intro h msg hmsg
      obtain ⟨i, hi⟩ := mem_received hLog hmsg
      exact h i msg hi
  rw [hOut, replay_eq_some_iff (length_le64 startTime), hMsgs,
    readFile_eq_some_iff (length_le64 startTime) fun msg hmsg => by
      obtain ⟨i, hi⟩ := mem_received hLog hmsg
      exact hShort i msg hi]

/-- A log with one record, begun at a time whose bytes `ReadFile` takes for the same record. -/
theorem readers_recover_iff_one_record :
    ∃ s : Logger Unit, run step (init Unit 65543)
        [.receive () [1, 0, 0, 0, 0, 0, 7], .lock (), .writeLength (), .writeData ()] = some s ∧
      replay 0 s.out = some ([[1, 0, 0, 0, 0, 0, 7]], true) ∧
      readFile s.out = some [[1, 0, 0, 0, 0, 0, 7]] := by
  have hrun : run step (init Unit 65543)
      [.receive () [1, 0, 0, 0, 0, 0, 7], .lock (), .writeLength (), .writeData ()] =
      some ⟨le64 65543 ++ [7, 0, 1, 0, 0, 0, 0, 0, 7], none, fun _ => .receiving,
        fun _ => [[1, 0, 0, 0, 0, 0, 7]]⟩ := by
    decide
  obtain ⟨log, -, hLog, hIff⟩ := readers_recover_iff _ hrun (by decide)
  have hRecords : log.map (·.2) = [[1, 0, 0, 0, 0, 0, 7]] := by simpa [ofQueue] using hLog ()
  rw [hRecords] at hIff
  exact ⟨_, hrun, hIff.mpr (by decide)⟩

/-- A message of one byte. `ReadFile` takes the five bytes behind the first two of the start
time for a record. -/
theorem readFile_reads_start_time :
    ¬ ∀ (startTime : BitVec 64) (as : List (LoggerAction Unit)) (s : Logger Unit),
      run step (init Unit startTime) as = some s → Joined s →
        ∃ log : List (Unit × Bytes), s.out = le64 startTime ++ encode (log.map (·.2)) ∧
          (∀ i, ofQueue log i = s.received i) ∧
          replay 0 s.out = some (log.map (·.2), true) ∧ readFile s.out = some (log.map (·.2)) := by
  intro hAll
  obtain ⟨log, -, hLog, -, hRead⟩ :=
    hAll 5 [.receive () [9], .lock (), .writeLength (), .writeData ()]
      ⟨le64 5 ++ [1, 0, 9], none, fun _ => .receiving, fun _ => [[9]]⟩ (by decide) (by decide)
  have hRecords : log.map (·.2) = [[9]] := by simpa [ofQueue] using hLog ()
  rw [hRecords] at hRead
  exact absurd hRead (by decide)

/-- **Truncated logs.** If all messages were shorter than the buffer and the file is cut off
after any number of bytes, `LogReplay` processes the records that end before the cut, in
their order, and raises a shutdown. -/
theorem replay_truncated (as : List (LoggerAction ι))
    (hrun : run step (init ι startTime) as = some s) (hJoined : Joined s)
    (hShort : ∀ i, ∀ msg ∈ s.received i, msg.length ≤ 1023) :
    ∃ log : List (ι × Bytes), s.out = le64 startTime ++ encode (log.map (·.2)) ∧
      (∀ i, ofQueue log i = s.received i) ∧
      ∀ k, ∃ n ≤ log.length,
        replay 0 (s.out.take k) = some ((log.map (·.2)).take n, true) ∧ (k < 8 → n = 0) ∧
        ∀ m, 0 < m → m ≤ log.length →
          (m ≤ n ↔ 8 + (encode ((log.map (·.2)).take m)).length ≤ k) := by
  obtain ⟨log, hOut, hLog, -⟩ := out_of_run hrun hJoined
  have hMsgs : ∀ msg ∈ log.map (·.2), msg.length < maxBuf := by
    intro msg hmsg
    obtain ⟨i, hi⟩ := mem_received hLog hmsg
    exact Nat.lt_succ_of_le (hShort i msg hi)
  refine ⟨log, hOut, hLog, ?_⟩
  intro k
  obtain ⟨n, hn, hReplay, hIff⟩ := replay_take (length_le64 startTime) hMsgs k
  rw [List.length_map] at hn hIff
  refine ⟨n, hn, by rw [hOut]; exact hReplay, fun hk => ?_, hIff⟩
  by_contra hne
  have hEnd := (hIff n (Nat.pos_of_ne_zero hne) hn).mp le_rfl
  omega

/-- Two queues, an empty message and one of two bytes. -/
theorem replay_truncated_two_queues :
    ∃ s : Logger Bool, run step (init Bool 5) [.receive true [], .receive false [8, 9], .lock false,
      .writeLength false, .writeData false, .lock true, .writeLength true, .writeData true] =
        some s ∧
      ∃ log : List (Bool × Bytes), (∀ i, ofQueue log i = s.received i) ∧
        ∀ k, ∃ n ≤ log.length,
          replay 0 (s.out.take k) = some ((log.map (·.2)).take n, true) := by
  have hrun : run step (init Bool 5) [.receive true [], .receive false [8, 9], .lock false,
      .writeLength false, .writeData false, .lock true, .writeLength true, .writeData true] =
      some ⟨le64 5 ++ [2, 0, 8, 9, 0, 0], none, fun _ => .receiving,
        fun i => if i then [[]] else [[8, 9]]⟩ := by
    decide
  obtain ⟨log, -, hLog, hCut⟩ := replay_truncated _ hrun (by decide) (by decide)
  refine ⟨_, hrun, log, hLog, ?_⟩
  intro k
  obtain ⟨n, hn, hReplay, -⟩ := hCut k
  exact ⟨n, hn, hReplay⟩

end Logger

end Sailbot.Util

import Sailbot.Control.LineCost

/-!
# Feedback of the rigid wing

`RigidWing::Iterate` and `RigidWing::ParseMessage` (`rigid_wing/rigid_wing.cc`). The wing writes
messages of 13 bytes to a stream socket, which keeps no boundaries between them. `Iterate` takes
whatever one `read` of up to 16 bytes returns for one message, and `ParseMessage` refuses what does
not have 13 bytes.

The arithmetic is any one; `toFloat` is the rounding to `float`, and whether `char` is signed
depends on the compiler.

* `RigidWing.parseMessage`        — one buffer.
* `RigidWing.iterate`             — one `Iterate` with a connection, by what `read` returns.
* `RigidWing.parseMessage_iff`    — the fields are what a message says, and cleared for anything
  else, exactly when the buffer is a message or is refused.
* `RigidWing.published_iff`       — the sent messages are published exactly when every `read`
  returns 13 bytes.
* `RigidWing.split_message_lost`  — one message in two reads, of which nothing is published.
-/

namespace Sailbot

open Lib
open Lib.Arith (lit litf)

structure RigidWingFeedback (R : Type) where
  angleOfAttack : Option R := none
  servoPos      : Option Int := none
  battery       : Option R := none
  deriving DecidableEq

/-- Some field is set. -/
def RigidWingFeedback.isSet {R : Type} (m : RigidWingFeedback R) : Bool :=
  m.angleOfAttack.isSome || m.servoPos.isSome || m.battery.isSome

structure RigidWing (R : Type) where
  connected     : Bool := true
  feedbackMsg   : RigidWingFeedback R := {}
  feedbackQueue : List (RigidWingFeedback R) := []

namespace RigidWing

/-- `kBufLen`. -/
def kBufLen : Nat := 13

/-- The value of a `char`. -/
def charValue (signed : Bool) (c : UInt8) : Int :=
  if signed && 128 ≤ c.toNat then c.toNat - 256 else c.toNat

/-- `atoi` over the `len` bytes from `a` on. -/
def atoi (signed : Bool) (buf : List UInt8) (a len : Nat) : Int :=
  ((buf.drop a).take len).foldl (fun retval c => retval * 10 + (charValue signed c - 0x30)) 0

variable {R : Type} [Arith R]

/-- `ParseMessage`; the last byte is only warned about. -/
def parseMessage (signed : Bool) (toFloat : R → R) (buf : List UInt8) : RigidWingFeedback R :=
  if buf.length ≠ kBufLen then {}
  else if buf[0]? ≠ some 0x5B then {}
  else
    { angleOfAttack := some (toFloat (Control.Util.normAngle
        (toFloat (Control.Util.toRad (litf (atoi signed buf 1 3))))))
      servoPos := some (atoi signed buf 5 3)
      battery := some (toFloat (litf (atoi signed buf 9 3) / lit 1000)) }

/-- How the loop of `Iterate` around `read` ends. -/
inductive ReadResult
  | data (bytes : List UInt8)
  | eof

/-- `Iterate` with a connection. The byte behind a message is overwritten before it is parsed. -/
def iterate (signed : Bool) (toFloat : R → R) (s : RigidWing R) : ReadResult → RigidWing R
  | .data bytes =>
    let msg := parseMessage signed toFloat (bytes.set kBufLen 0)
    { s with feedbackMsg := msg, feedbackQueue := s.feedbackQueue ++ [msg] }
  | .eof => { s with connected := false }

/-- One `Iterate` after the other, each with the bytes that its `read` returns. -/
def iterateAll (signed : Bool) (toFloat : R → R) (s : RigidWing R) (reads : List (List UInt8)) :
    RigidWing R :=
  reads.foldl (fun s bytes => s.iterate signed toFloat (.data bytes)) s

/-- The messages with a field that were published on the way from `s` to `t`. -/
def published (s t : RigidWing R) : List (RigidWingFeedback R) :=
  (t.feedbackQueue.drop s.feedbackQueue.length).filter RigidWingFeedback.isSet

-- ---------------------------------------------------------------------------
-- Messages of the wing
-- ---------------------------------------------------------------------------

/-- What a message says: three numbers of three digits. -/
structure Feedback where
  angle   : Fin 1000
  servo   : Fin 1000
  battery : Fin 1000

/-- Three decimal digits. -/
def digits (n : Fin 1000) : List UInt8 :=
  [.ofNat (0x30 + n / 100), .ofNat (0x30 + n / 10 % 10), .ofNat (0x30 + n % 10)]

/-- `[123 456 789]`. -/
def Feedback.bytes (m : Feedback) : List UInt8 :=
  [0x5B] ++ digits m.angle ++ [0x20] ++ digits m.servo ++ [0x20] ++ digits m.battery ++ [0x5D]

/-- The message in its units. -/
def Feedback.decode (toFloat : R → R) (m : Feedback) : RigidWingFeedback R where
  angleOfAttack := some (toFloat (Control.Util.normAngle
    (toFloat (Control.Util.toRad (litf (m.angle : Nat))))))
  servoPos := some (m.servo : Nat)
  battery := some (toFloat (litf (m.battery : Nat) / lit 1000))

@[simp] theorem Feedback.length_bytes (m : Feedback) : m.bytes.length = kBufLen := rfl

/-- The character of a digit. -/
theorem charValue_digit (signed : Bool) {d : Nat} (hd : d < 10) :
    charValue signed (.ofNat (0x30 + d)) - 0x30 = d := by
  have hByte : (UInt8.ofNat (0x30 + d)).toNat = 0x30 + d := by
    rw [UInt8.toNat_ofNat']
    omega
  have hAscii : ¬ 128 ≤ 0x30 + d := by omega
  rw [charValue, hByte, decide_eq_false hAscii, Bool.and_false, if_neg Bool.false_ne_true]
  omega

/-- Reading the digits gives the number. -/
theorem foldl_digits (signed : Bool) (n : Fin 1000) :
    (digits n).foldl (fun retval c => retval * 10 + (charValue signed c - 0x30)) 0 =
      ((n : Nat) : Int) := by
  have hn := n.isLt
  rw [digits, List.foldl_cons, List.foldl_cons, List.foldl_cons, List.foldl_nil,
    charValue_digit signed (by omega), charValue_digit signed (by omega),
    charValue_digit signed (by omega)]
  omega

/-- A whole message is parsed to what it says. -/
theorem parseMessage_bytes (signed : Bool) (toFloat : R → R) (m : Feedback) :
    parseMessage signed toFloat m.bytes = m.decode toFloat := by
  have hAngle : atoi signed m.bytes 1 3 = ((m.angle : Nat) : Int) := foldl_digits signed m.angle
  have hServo : atoi signed m.bytes 5 3 = ((m.servo : Nat) : Int) := foldl_digits signed m.servo
  have hBattery : atoi signed m.bytes 9 3 = ((m.battery : Nat) : Int) :=
    foldl_digits signed m.battery
  have hFirst : m.bytes[0]? = some 0x5B := rfl
  rw [parseMessage, if_neg (fun h => h m.length_bytes), if_neg (fun h => h hFirst), hAngle, hServo,
    hBattery]
  rfl

-- ---------------------------------------------------------------------------
-- Well-formed buffers
-- ---------------------------------------------------------------------------

/-- Three bytes, each of them a decimal digit. -/
def IsNumber (text : List UInt8) : Prop :=
  text.length = 3 ∧ ∀ c ∈ text, 0x30 ≤ c.toNat ∧ c.toNat ≤ 0x39

/-- `[ddd ddd ddd]`. -/
def WellFormed (buf : List UInt8) : Prop :=
  ∃ a b c, IsNumber a ∧ IsNumber b ∧ IsNumber c ∧
    buf = [0x5B] ++ a ++ [0x20] ++ b ++ [0x20] ++ c ++ [0x5D]

/-- Three digits are a number. -/
theorem isNumber_digits (n : Fin 1000) : IsNumber (digits n) := by
  have hn := n.isLt
  have hDigit : ∀ d < 10, 0x30 ≤ (UInt8.ofNat (0x30 + d)).toNat ∧
      (UInt8.ofNat (0x30 + d)).toNat ≤ 0x39 := by
    intro d hd
    rw [UInt8.toNat_ofNat']
    omega
  refine ⟨rfl, ?_⟩
  intro c hc
  simp only [digits, List.mem_cons, List.not_mem_nil, or_false] at hc
  rcases hc with rfl | rfl | rfl
  · exact hDigit _ (by omega)
  · exact hDigit _ (by omega)
  · exact hDigit _ (by omega)

/-- Three digits are those of a number. -/
theorem exists_digits {text : List UInt8} (h : IsNumber text) : ∃ n, text = digits n := by
  obtain ⟨hLength, hDigits⟩ := h
  match text, hLength with
  | [a, b, c], _ =>
    have ha := hDigits a (by simp)
    have hb := hDigits b (by simp)
    have hc := hDigits c (by simp)
    refine ⟨⟨100 * (a.toNat - 0x30) + 10 * (b.toNat - 0x30) + (c.toNat - 0x30), by omega⟩, ?_⟩
    have hByte : ∀ {x : UInt8} {d : Nat}, x.toNat = 0x30 + d → x = .ofNat (0x30 + d) :=
      fun hx => by rw [← hx, UInt8.ofNat_toNat]
    rw [digits]
    congr 1
    · exact hByte (by dsimp only; omega)
    · congr 1
      · exact hByte (by dsimp only; omega)
      · congr 1
        exact hByte (by dsimp only; omega)

/-- The well-formed texts are those of the messages. -/
theorem wellFormed_iff (buf : List UInt8) : WellFormed buf ↔ ∃ m : Feedback, buf = m.bytes := by
  constructor
  · rintro ⟨a, b, c, ha, hb, hc, rfl⟩
    obtain ⟨angle, rfl⟩ := exists_digits ha
    obtain ⟨servo, rfl⟩ := exists_digits hb
    obtain ⟨battery, rfl⟩ := exists_digits hc
    exact ⟨⟨angle, servo, battery⟩, rfl⟩
  · rintro ⟨m, rfl⟩
    exact ⟨_, _, _, isNumber_digits m.angle, isNumber_digits m.servo, isNumber_digits m.battery,
      rfl⟩

/-- A well-formed buffer sets the three fields to its numbers, in their units; any other buffer
leaves them cleared. -/
def ParsesProperly (signed : Bool) (toFloat : R → R) (buf : List UInt8) : Prop :=
  (∀ m : Feedback, buf = m.bytes → parseMessage signed toFloat buf = m.decode toFloat) ∧
    (¬ WellFormed buf → parseMessage signed toFloat buf = {})

/-- **Parsing.** Exactly the well-formed buffers set the fields, if the buffer is one of them, or
does not have 13 bytes, or does not begin with a bracket. -/
theorem parseMessage_iff (signed : Bool) (toFloat : R → R) (buf : List UInt8) :
    ParsesProperly signed toFloat buf ↔
      WellFormed buf ∨ buf.length ≠ 13 ∨ buf[0]? ≠ some 0x5B := by
  constructor
  · rintro ⟨-, hCleared⟩
    by_contra hNone
    push Not at hNone
    obtain ⟨hNot, hLength, hFirst⟩ := hNone
    have hSet := hCleared hNot
    rw [parseMessage, if_neg (fun h => h hLength), if_neg (fun h => h hFirst)] at hSet
    cases hSet
  · intro hCase
    refine ⟨fun m hm => hm ▸ parseMessage_bytes signed toFloat m, ?_⟩
    intro hNot
    rcases hCase with hForm | hLength | hFirst
    · exact absurd hForm hNot
    · exact if_pos hLength
    · rw [parseMessage, if_pos hFirst, ite_self]

/-- `[-10 050 812]` has an angle of -290 degrees. -/
theorem parseMessage_bad_digit :
    ¬ ∀ buf, ParsesProperly (R := Double .exact .atZero) true id buf := by
  intro hAll
  have hSet := (hAll [0x5B, 0x2D, 0x31, 0x30, 0x20, 0x30, 0x35, 0x30, 0x20, 0x38, 0x31, 0x32,
    0x5D]).2 fun hForm => by
      obtain ⟨m, hm⟩ := (wellFormed_iff _).mp hForm
      obtain ⟨-, hDigits⟩ := isNumber_digits m.angle
      have hMinus : (0x2D : UInt8) ∈ digits m.angle := by
        have hHead := congrArg (fun buf => buf[1]?) hm
        have hFirst : (0x2D : UInt8) = .ofNat (0x30 + m.angle / 100) := Option.some.inj hHead
        rw [hFirst]
        exact List.mem_cons_self
      exact absurd (hDigits _ hMinus).1 (by decide)
  cases congrArg RigidWingFeedback.isSet hSet

-- ---------------------------------------------------------------------------
-- Reads and messages
-- ---------------------------------------------------------------------------

variable {signed : Bool} {toFloat : R → R}

/-- Every read is parsed and put on the queue. -/
theorem iterateAll_queue (s : RigidWing R) (reads : List (List UInt8)) :
    (s.iterateAll signed toFloat reads).feedbackQueue =
      s.feedbackQueue ++ reads.map fun c => parseMessage signed toFloat (c.set kBufLen 0) := by
  induction reads generalizing s with
  | nil => exact (List.append_nil _).symm
  | cons c reads ih =>
    show ((s.iterate signed toFloat (.data c)).iterateAll signed toFloat reads).feedbackQueue = _
    rw [ih, List.map_cons]
    exact List.append_assoc ..

/-- What is published of the reads. -/
theorem published_iterateAll (s : RigidWing R) (reads : List (List UInt8)) :
    published s (s.iterateAll signed toFloat reads) =
      (reads.map fun c => parseMessage signed toFloat (c.set kBufLen 0)).filter
        RigidWingFeedback.isSet := by
  rw [published, iterateAll_queue, List.drop_left]

/-- What does not have the length of a message sets nothing. -/
theorem length_of_isSet {c : List UInt8}
    (h : (parseMessage signed toFloat (c.set kBufLen 0)).isSet = true) : c.length = kBufLen := by
  by_contra hLength
  rw [parseMessage, List.length_set, if_pos hLength] at h
  cases h

/-- Pieces of the length of a message that make up messages are these messages. -/
theorem eq_map_bytes {msgs : List Feedback} : ∀ {reads : List (List UInt8)},
    reads.flatten = (msgs.map Feedback.bytes).flatten → (∀ c ∈ reads, c.length = kBufLen) →
      reads = msgs.map Feedback.bytes := by
  induction msgs with
  | nil =>
    intro reads hFlatten hLength
    cases reads with
    | nil => rfl
    | cons c reads =>
      have hNil := List.flatten_eq_nil_iff.mp hFlatten c List.mem_cons_self
      have hLen := hLength c List.mem_cons_self
      rw [hNil] at hLen
      cases hLen
  | cons m msgs ih =>
    intro reads hFlatten hLength
    cases reads with
    | nil => cases hFlatten
    | cons c reads =>
      rw [List.map_cons, List.flatten_cons, List.flatten_cons] at hFlatten
      obtain ⟨hHead, hTail⟩ := List.append_inj hFlatten (hLength c List.mem_cons_self)
      rw [List.map_cons, hHead, ih hTail fun d hd => hLength d (List.mem_cons_of_mem _ hd)]

variable (signed toFloat) in
/-- The bytes of the reads are at least those of the reads that set something. -/
theorem length_filter_isSet (reads : List (List UInt8)) (hSome : ∀ c ∈ reads, c ≠ []) :
    let n := ((reads.map fun c => parseMessage signed toFloat (c.set kBufLen 0)).filter
      RigidWingFeedback.isSet).length
    kBufLen * n ≤ reads.flatten.length ∧
      (kBufLen * n = reads.flatten.length → ∀ c ∈ reads, c.length = kBufLen) := by
  induction reads with
  | nil => exact ⟨le_rfl, fun _ c hc => absurd hc List.not_mem_nil⟩
  | cons c reads ih =>
    obtain ⟨hLe, hEq⟩ := ih fun d hd => hSome d (List.mem_cons_of_mem _ hd)
    have hPos := List.length_pos_iff.mpr (hSome c List.mem_cons_self)
    simp only [List.map_cons, List.flatten_cons, List.length_append]
    cases hSet : (parseMessage signed toFloat (c.set kBufLen 0)).isSet with
    | true =>
      have hLength := length_of_isSet hSet
      rw [List.filter_cons_of_pos hSet, List.length_cons, Nat.mul_succ]
      refine ⟨by omega, ?_⟩
      intro hAll d hd
      rcases List.mem_cons.mp hd with rfl | hd
      · exact hLength
      · exact hEq (by omega) d hd
    | false =>
      rw [List.filter_cons_of_neg (by rw [hSet]; exact Bool.false_ne_true)]
      exact ⟨by omega, fun hAll => by omega⟩

/-- Every message has the same length. -/
theorem length_flatten_bytes (msgs : List Feedback) :
    (msgs.map Feedback.bytes).flatten.length = kBufLen * msgs.length := by
  induction msgs with
  | nil => rfl
  | cons m msgs ih =>
    rw [List.map_cons, List.flatten_cons, List.length_append, ih, Feedback.length_bytes,
      List.length_cons, Nat.mul_succ, Nat.add_comm]

/-- **Feedback.** However the bytes of the messages are cut into reads, what is published with a
field set is what the messages say, one by one, if and only if every read returns exactly one
message. -/
theorem published_iff (signed : Bool) (toFloat : R → R) (s : RigidWing R) (msgs : List Feedback)
    (reads : List (List UInt8)) (hReads : ∀ c ∈ reads, c ≠ [] ∧ c.length ≤ 16)
    (hFlatten : reads.flatten = (msgs.map Feedback.bytes).flatten) :
    published s (s.iterateAll signed toFloat reads) = msgs.map (Feedback.decode toFloat) ↔
      ∀ c ∈ reads, c.length = 13 := by
  rw [published_iterateAll]
  constructor
  · intro hAll
    obtain ⟨-, hEq⟩ := length_filter_isSet signed toFloat reads
      fun c hc => (hReads c hc).1
    refine hEq ?_
    rw [hAll, hFlatten, length_flatten_bytes, List.length_map]
  · intro hLength
    rw [eq_map_bytes hFlatten hLength, List.map_map, List.filter_eq_self.mpr]
    · refine List.map_congr_left ?_
      intro m _
      show parseMessage signed toFloat (m.bytes.set kBufLen 0) = _
      rw [List.set_eq_of_length_le m.length_bytes.le, parseMessage_bytes]
    · intro msg hMsg
      obtain ⟨m, -, rfl⟩ := List.mem_map.mp hMsg
      show (parseMessage signed toFloat (m.bytes.set kBufLen 0)).isSet = true
      rw [List.set_eq_of_length_le m.length_bytes.le, parseMessage_bytes]
      rfl

/-- Three messages. -/
def threeMessages : List Feedback := [⟨7, 50, 812⟩, ⟨8, 51, 790⟩, ⟨9, 0, 999⟩]

/-- One read for each of them, or reads of another length. -/
theorem published_iff_three_reads :
    published ({} : RigidWing (Double .exact .atZero))
        (iterateAll true id {} (threeMessages.map Feedback.bytes)) =
      threeMessages.map (Feedback.decode id) ∧
    published ({} : RigidWing (Double .exact .atZero))
        (iterateAll true id {} [(threeMessages.map Feedback.bytes).flatten.take 16,
          ((threeMessages.map Feedback.bytes).flatten.drop 16).take 10,
          (threeMessages.map Feedback.bytes).flatten.drop 26]) ≠
      threeMessages.map (Feedback.decode id) := by
  have hReads : ∀ c ∈ threeMessages.map Feedback.bytes, c.length = 13 := by decide
  refine ⟨(published_iff true id {} threeMessages _ (by decide) rfl).mpr hReads, fun hAll => ?_⟩
  have hLength := (published_iff true id {} threeMessages _ (by decide) (by decide)).mp hAll
  exact absurd (hLength _ List.mem_cons_self) (by decide)

/-- The last byte of a message comes with a read of its own. -/
theorem split_message_lost :
    ¬ ∀ (s : RigidWing (Double .exact .atZero)) (msgs : List Feedback) (reads : List (List UInt8)),
      (∀ c ∈ reads, c ≠ [] ∧ c.length ≤ 16) →
      reads.flatten = (msgs.map Feedback.bytes).flatten →
      published s (s.iterateAll true id reads) = msgs.map (Feedback.decode id) := by
  intro hAll
  have hPublished := hAll {} [⟨7, 50, 812⟩]
    [(Feedback.bytes ⟨7, 50, 812⟩).take 12, (Feedback.bytes ⟨7, 50, 812⟩).drop 12]
    (by decide) (by decide)
  have hLength := congrArg List.length hPublished
  cases hLength

end RigidWing

end Sailbot

import Mathlib.Algebra.Order.Floor.Ring
import Mathlib.Data.Rat.Floor
import Mathlib.Logic.Function.Basic

/-!
# Protocol buffer messages

What the CAN node uses of protocol buffers: the message descriptors of
`can/can.proto`, messages of these types, and the two generic accessors
`SetProtoNumberField` (`can/can.cc`) and `GetProtoNumberField`
(`util/proto_util.cc`), which convert between a `double` and a field of any
numeric type.

The arithmetic of `double` and `float` is a parameter, `Arith`: everything that
does not depend on rounding holds for any such arithmetic. `Arith.exact` is the
one without rounding.

A proto2 message cannot hold an enum number that its enum does not define.
`SetEnumValue` with such a number leaves the field as it is and adds the number
to the unknown fields of the message, which are sent along with it.
-/

namespace Sailbot.Can

-- ---------------------------------------------------------------------------
-- Descriptors
-- ---------------------------------------------------------------------------

/-- The field types that the two accessors tell apart; `other` is what their
`default` branches skip. -/
inductive FieldType
  | double
  | float
  | bool
  | enum (values : List Int)
  | int32
  | int64
  | uint32
  | uint64
  | other
  deriving DecidableEq, Repr

/-- The fields of a message type by their numbers. -/
abbrev Descriptor := List (Nat × FieldType)

def Descriptor.findFieldByNumber (desc : Descriptor) (num : Nat) : Option FieldType :=
  desc.lookup num

def directionReference : FieldType := .enum [0, 1]
def dopMode : FieldType := .enum [0, 1, 2, 3, 6]
def gnssType : FieldType := .enum [0, 1, 2, 3, 4, 5, 6, 7, 8]
def gnssMethod : FieldType := .enum [0, 1, 2, 3, 4, 5, 6, 7, 8]
def gnssIntegrity : FieldType := .enum [0, 1, 2]
def windReference : FieldType := .enum [0, 1, 2, 3, 4]
def connectionState : FieldType := .enum [0, 1, 255]
/-- `ControlMode.MODE` and `ControlMode.TACKER` of `control/actuator_cmd.proto`. -/
def controlModeMode : FieldType := .enum [0, 1, 2, 3, 4]
def controlModeTacker : FieldType := .enum [0, 1, 2, 3, 4]

def systemTime : Descriptor := [(1, .uint32), (4, .uint32), (5, .uint32)]

def vesselHeading : Descriptor :=
  [(1, .uint32), (2, .float), (3, .float), (4, .float), (5, directionReference)]

def rateOfTurn : Descriptor := [(1, .uint32), (2, .float)]

def attitude : Descriptor := [(1, .uint32), (2, .float), (3, .float), (4, .float)]

def timeDate : Descriptor := [(1, .uint32), (2, .uint32), (3, .int32)]

def gnssDop : Descriptor :=
  [(1, .uint32), (2, dopMode), (3, dopMode), (4, .uint32), (5, .float), (6, .float), (7, .float)]

def gnssPositionData : Descriptor :=
  [(1, .uint32), (2, .uint32), (3, .uint32), (4, .double), (5, .double), (6, .double),
    (7, gnssType), (8, gnssMethod), (9, gnssIntegrity), (10, .uint32), (11, .uint32),
    (12, .float), (13, .float), (14, .float), (15, .uint32), (16, gnssType), (17, .uint32),
    (18, .float)]

def posRapidUpdate : Descriptor := [(1, .double), (2, .double)]

def cogSogRapidUpdate : Descriptor :=
  [(1, .uint32), (2, directionReference), (3, .uint32), (4, .float), (5, .float), (6, .uint32)]

def windData : Descriptor := [(1, .uint32), (2, .float), (3, .float), (4, windReference)]

def analogPot : Descriptor := [(1, .uint32), (2, .uint32)]

def pwmWrite : Descriptor := [(1, .uint32), (2, .uint32), (3, .uint32)]

def debugScamp : Descriptor := [(1, .uint32), (2, .uint32)]

def ballastState : Descriptor := [(1, .float), (2, .float)]

def sailbotState : Descriptor :=
  [(1, controlModeMode), (2, controlModeMode), (3, controlModeMode), (4, controlModeMode),
    (5, controlModeTacker)]

def sailbotConn : Descriptor :=
  [(1, connectionState), (2, connectionState), (3, connectionState), (4, connectionState),
    (5, connectionState)]

def batteryVoltage : Descriptor := [(1, .float)]

/-- The messages inside `CANMaster`; the number of each is its PGN. -/
def canMaster : List (Nat × Descriptor) :=
  [(126992, systemTime), (127250, vesselHeading), (127251, rateOfTurn), (127257, attitude),
    (129025, posRapidUpdate), (129026, cogSogRapidUpdate), (129029, gnssPositionData),
    (129033, timeDate), (129539, gnssDop), (130306, windData), (65281, analogPot),
    (65282, pwmWrite), (65283, debugScamp), (65284, debugScamp), (65285, ballastState),
    (65296, sailbotState), (65297, sailbotConn), (65312, batteryVoltage)]

-- ---------------------------------------------------------------------------
-- Numbers and messages
-- ---------------------------------------------------------------------------

/-- The arithmetic of `double` (`D`) as far as the node uses it. -/
structure Arith (D : Type) where
  /-- The conversion of an `int64_t`, `uint32_t` or `uint16_t`. -/
  ofInt   : Int → D
  /-- The product with a constant of the table. -/
  mul     : D → ℚ → D
  /-- The quotient by a constant of the table. -/
  div     : D → ℚ → D
  /-- The rounding to `float`. -/
  toFloat : D → D
  /-- The truncation in a conversion to an integer type. -/
  trunc   : D → Int
  isZero  : D → Bool

/-- Arithmetic without rounding. -/
def Arith.exact : Arith ℚ where
  ofInt := fun n => n
  mul := fun x r => x * r
  div := fun x r => x / r
  toFloat := fun x => x
  trunc := fun x => x.num.tdiv x.den
  isZero := fun x => x == 0

/-- The value of a field that is set. -/
inductive Value (D : Type)
  | real (x : D)
  | int (n : Int)
  deriving DecidableEq, Repr

/-- A message inside `CANMaster`: its set fields, and the enum numbers that its
enums do not define in the order in which they were set. -/
@[ext] structure PgnMsg (D : Type) where
  fields  : Nat → Option (Value D) := fun _ => none
  unknown : List (Nat × Int) := []

@[ext] structure CANMaster (D : Type) where
  outgoing : Option Bool := none
  sub      : Nat → Option (PgnMsg D) := fun _ => none

variable {D : Type}

def PgnMsg.set (msg : PgnMsg D) (num : Nat) (v : Value D) : PgnMsg D :=
  { msg with fields := Function.update msg.fields num (some v) }

def PgnMsg.addUnknown (msg : PgnMsg D) (num : Nat) (n : Int) : PgnMsg D :=
  { msg with unknown := msg.unknown ++ [(num, n)] }

/-- `MutableMessage`: the message for a PGN, created when it is not there. -/
def CANMaster.mutableMessage (msg : CANMaster D) (pgn : Nat) : PgnMsg D :=
  (msg.sub pgn).getD {}

def CANMaster.setMessage (msg : CANMaster D) (pgn : Nat) (sub : PgnMsg D) : CANMaster D :=
  { msg with sub := Function.update msg.sub pgn (some sub) }

variable (A : Arith D)

/-- The numbers that reach an integer field through this function are in its
range: they come from unsigned table fields of at most 32 bits. -/
def setProtoNumberField (desc : Descriptor) (msg : PgnMsg D) (num : Nat) (val : D) : PgnMsg D :=
  match desc.findFieldByNumber num with
  | none => msg
  | some .double => msg.set num (.real val)
  | some .float => msg.set num (.real (A.toFloat val))
  | some .bool => msg.set num (.int (if A.isZero val then 0 else 1))
  | some (.enum values) =>
    if A.trunc val ∈ values then msg.set num (.int (A.trunc val))
    else msg.addUnknown num (A.trunc val)
  | some .int32 | some .int64 | some .uint32 | some .uint64 => msg.set num (.int (A.trunc val))
  | some .other => msg

/-- The value that a field of the type is set to for the number `x`. -/
def FieldType.written : FieldType → D → Option (Value D)
  | .double, x => some (.real x)
  | .float, x => some (.real (A.toFloat x))
  | .bool, x => some (.int (if A.isZero x then 0 else 1))
  | .enum values, x => if A.trunc x ∈ values then some (.int (A.trunc x)) else none
  | .int32, x | .int64, x | .uint32, x | .uint64, x => some (.int (A.trunc x))
  | .other, _ => none

/-- The number that goes to the unknown fields instead. -/
def FieldType.undefined : FieldType → D → Option Int
  | .enum values, x => if A.trunc x ∈ values then none else some (A.trunc x)
  | _, _ => none

def writtenValue (desc : Descriptor) (num : Nat) (x : D) : Option (Value D) :=
  (desc.findFieldByNumber num).bind fun t => t.written A x

def undefinedEnum (desc : Descriptor) (num : Nat) (x : D) : List (Nat × Int) :=
  ((desc.findFieldByNumber num).bind fun t => t.undefined A x).toList.map fun n => (num, n)

/-- `SetProtoNumberField` by what it writes. -/
theorem setProtoNumberField_eq (desc : Descriptor) (msg : PgnMsg D) (num : Nat) (x : D) :
    (∀ k, (setProtoNumberField A desc msg num x).fields k =
      if k = num then (writtenValue A desc num x).or (msg.fields num) else msg.fields k) ∧
    (setProtoNumberField A desc msg num x).unknown =
      msg.unknown ++ undefinedEnum A desc num x := by
  have hSet : ∀ v k, (msg.set num v).fields k =
      if k = num then (some v).or (msg.fields num) else msg.fields k :=
    fun v k => Function.update_apply ..
  have hSame : ∀ k, msg.fields k =
      if k = num then (none : Option (Value D)).or (msg.fields num) else msg.fields k := by
    intro k
    split
    · next hk => rw [hk, Option.none_or]
    · rfl
  unfold setProtoNumberField writtenValue undefinedEnum
  cases desc.findFieldByNumber num with
  | none => exact ⟨hSame, (List.append_nil _).symm⟩
  | some t =>
    cases t with
    | double | float | bool | int32 | int64 | uint32 | uint64 =>
      exact ⟨hSet _, (List.append_nil _).symm⟩
    | enum values =>
      simp only [Option.bind_some, FieldType.written, FieldType.undefined]
      by_cases hKnown : A.trunc x ∈ values
      · simp only [if_pos hKnown]
        exact ⟨hSet _, (List.append_nil _).symm⟩
      · simp only [if_neg hKnown]
        exact ⟨hSame, rfl⟩
    | other => exact ⟨hSame, (List.append_nil _).symm⟩

/-- The number in a field; every default of `can.proto` is zero. -/
def getProtoNumberFieldById (desc : Descriptor) (msg : PgnMsg D) (num : Nat) : D :=
  match desc.findFieldByNumber num, msg.fields num with
  | none, _ => A.ofInt 0
  | some .other, _ => A.ofInt 0
  | some _, none => A.ofInt 0
  | some _, some (.real x) => x
  | some _, some (.int n) => A.ofInt n

/-- The values a field of the type can hold. -/
def FieldType.Holds : FieldType → Value D → Prop
  | .double, .real _ => True
  | .float, .real _ => True
  | .bool, .int n => n = 0 ∨ n = 1
  | .enum values, .int n => n ∈ values
  | .int32, .int n => -2 ^ 31 ≤ n ∧ n < 2 ^ 31
  | .int64, .int n => -2 ^ 63 ≤ n ∧ n < 2 ^ 63
  | .uint32, .int n => 0 ≤ n ∧ n < 2 ^ 32
  | .uint64, .int n => 0 ≤ n ∧ n < 2 ^ 64
  | _, _ => False

/-- Every set field of the message is one of its type. -/
def PgnMsg.WellTyped (desc : Descriptor) (msg : PgnMsg D) : Prop :=
  ∀ num v, msg.fields num = some v → ∃ t, desc.findFieldByNumber num = some t ∧ t.Holds v

end Sailbot.Can

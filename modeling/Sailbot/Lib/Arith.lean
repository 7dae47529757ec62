import Sailbot.Lib.Fp

/-!
# The numbers of a program

What a program uses of its floating-point type and of the mathematical functions of the C
library. A program that is written over `Arith` has its meaning over every number type: over
`Double`, with the rounding of a format and some implementation of the functions, and in exact
arithmetic.

* `Arith`  — the operations; nothing is assumed of them.
* `Trig`   — more of the mathematical functions.
* `Vec`    — vectors with two components, with the operations in the order in which a matrix
  library carries them out.
* `Double` — the floating-point numbers as an instance.
-/

namespace Sailbot.Lib

/-- The operations of a floating-point type. -/
class Arith (R : Type) extends Add R, Sub R, Mul R, Div R, Neg R where
  /-- A constant of type `double`. -/
  lit    : ℚ → R
  /-- A constant of type `float`. -/
  litf   : ℚ → R
  mPi    : R
  lt     : R → R → Bool
  le     : R → R → Bool
  /-- `==`. -/
  eq     : R → R → Bool
  isNaN  : R → Bool
  /-- Infinity; any number where the type has none. -/
  inf    : R
  /-- Whether a number is less than infinity. -/
  ltInf  : R → Bool
  /-- The conversion to an `int` and back; any number where the conversion is not defined. -/
  trunc  : R → R
  floor  : R → R
  sqrt   : R → R
  exp    : R → R
  sin    : R → R
  cos    : R → R
  atan2  : R → R → R
  /-- `atan2` in the type `float`. -/
  atan2f : R → R → R
  pow    : R → R → R

/-- The mathematical functions that only the simulators use. -/
class Trig (R : Type) extends Arith R where
  tan  : R → R
  asin : R → R
  atan : R → R

namespace Arith

variable {R : Type} [Arith R]

/-- `std::min`. -/
def min (a b : R) : R := if lt b a then b else a

/-- `std::max`. -/
def max (a b : R) : R := if lt a b then b else a

/-- `std::abs`. -/
def abs (a : R) : R := if lt a (lit 0) then -a else a

/-- Whether a number is less than a minimum so far, which is infinity before the first number. -/
def ltMin (a : R) : Option R → Bool
  | none => ltInf a
  | some b => lt a b

/-- The comparison is a strict order; nothing is said about numbers that are not comparable. -/
class StrictOrder (R : Type) [Arith R] : Prop where
  irrefl : ∀ a : R, lt a a = false
  trans  : ∀ a b c : R, lt a b = true → lt b c = true → lt a c = true

end Arith

-- ---------------------------------------------------------------------------
-- Numerals
-- ---------------------------------------------------------------------------

-- What a numeral of a field and an index of a short vector rest on. These facts have names so
-- that all definitions that write the same numeral refer to the same fact.

instance two_atLeastTwo : Nat.AtLeastTwo 2 := ⟨by decide⟩
instance three_atLeastTwo : Nat.AtLeastTwo 3 := ⟨by decide⟩
instance four_atLeastTwo : Nat.AtLeastTwo 4 := ⟨by decide⟩
instance nine_atLeastTwo : Nat.AtLeastTwo 9 := ⟨by decide⟩
instance ten_atLeastTwo : Nat.AtLeastTwo 10 := ⟨by decide⟩

namespace Index

scoped instance three_neZero : NeZero 3 := ⟨by decide⟩
scoped instance six_neZero : NeZero 6 := ⟨by decide⟩

end Index

-- ---------------------------------------------------------------------------
-- Vectors
-- ---------------------------------------------------------------------------

@[ext] structure Vec (R : Type) where
  x : R
  y : R
  deriving DecidableEq, Repr

namespace Vec

variable {R : Type} [Arith R]

instance : Add (Vec R) := ⟨fun a b => ⟨a.x + b.x, a.y + b.y⟩⟩
instance : Sub (Vec R) := ⟨fun a b => ⟨a.x - b.x, a.y - b.y⟩⟩
instance : Neg (Vec R) := ⟨fun a => ⟨-a.x, -a.y⟩⟩
instance : HMul R (Vec R) (Vec R) := ⟨fun k a => ⟨k * a.x, k * a.y⟩⟩
instance : HMul (Vec R) R (Vec R) := ⟨fun a k => ⟨a.x * k, a.y * k⟩⟩
instance : HDiv (Vec R) R (Vec R) := ⟨fun a k => ⟨a.x / k, a.y / k⟩⟩

def zero : Vec R := ⟨Arith.lit 0, Arith.lit 0⟩

def dot (a b : Vec R) : R := a.x * b.x + a.y * b.y

def squaredNorm (a : Vec R) : R := a.dot a

def norm (a : Vec R) : R := Arith.sqrt a.squaredNorm

/-- `normalize`; the zero vector is left as it is. -/
def normalized (a : Vec R) : Vec R :=
  if Arith.lt (Arith.lit 0) a.squaredNorm then a / Arith.sqrt a.squaredNorm else a

def cwiseProduct (a b : Vec R) : Vec R := ⟨a.x * b.x, a.y * b.y⟩

def cwiseQuotient (a b : Vec R) : Vec R := ⟨a.x / b.x, a.y / b.y⟩

end Vec

-- ---------------------------------------------------------------------------
-- Floating-point numbers
-- ---------------------------------------------------------------------------

/-- The mathematical functions of a C library. -/
structure Libm where
  sqrt   : Fp → Fp
  exp    : Fp → Fp
  sin    : Fp → Fp
  cos    : Fp → Fp
  atan2  : Fp → Fp → Fp
  atan2f : Fp → Fp → Fp
  pow    : Fp → Fp → Fp

/-- Numbers of the format `double`, with a C library. -/
def Double (_ : Formats) (_ : Libm) : Type := Fp

namespace Double

variable {F : Formats} {m : Libm}

instance : DecidableEq (Double F m) := inferInstanceAs (DecidableEq Fp)

def num (x : ℚ) : Double F m := Fp.num x

/-- A conversion to `int` that does not fit gives the smallest `int`. -/
instance : Arith (Double F m) where
  add := Fp.add F.double
  sub := Fp.sub F.double
  mul := Fp.mul F.double
  div := Fp.div F.double
  neg := Fp.neg
  lit q := Fp.num (F.double.round q)
  litf q := Fp.num (F.float.round q)
  mPi := Fp.num (884279719003555 / 281474976710656)
  lt := Fp.lt
  le := Fp.le
  eq x y := Fp.le x y && Fp.le y x
  isNaN x := x == Fp.nan
  inf := Fp.inf false
  ltInf x := Fp.lt x (Fp.inf false)
  trunc x := Fp.num ((Fp.toInt x).getD (-2 ^ 31))
  floor
    | .num x => Fp.num ⌊x⌋
    | x => x
  sqrt := m.sqrt
  exp := m.exp
  sin := m.sin
  cos := m.cos
  atan2 := m.atan2
  atan2f := m.atan2f
  pow := m.pow

instance : Arith.StrictOrder (Double F m) where
  irrefl := Fp.lt_irrefl
  trans _ _ _ := Fp.lt_trans

end Double

/-- Approximations of the first order that have the right values at zero. The square root is
right at zero and one. -/
def Libm.atZero : Libm where
  sqrt x := if x = .num 0 then .num 0 else .div .exact (.add .exact x (.num 1)) (.num 2)
  exp x := .add .exact (.num 1) x
  sin x := x
  cos _ := .num 1
  atan2 y x := .div .exact y x
  atan2f y x := .div .exact y x
  pow x _ := .mul .exact x x

end Sailbot.Lib

import Sailbot.Lib.Rotation
import Mathlib.LinearAlgebra.Matrix.Adjugate

/-!
# Vectors of space

Vectors with three components, with the operations in the order in which a matrix library carries
them out, and the rows and columns of matrices. Over the real numbers, the rows of a rotation are a
right-handed frame.

* `Vec3.cross`, `Vec3.dot`, … — the operations.
* `mulVec3`, `inverse3`       — matrices and vectors, and the inverse by cofactors.
* `dot_row3`, `cross_row3`      — the rows of an orthogonal matrix, which has a sense of rotation.
* `mirror`                    — the first axis turned around.
-/

namespace Sailbot.Lib

open Arith (lit)
open scoped Index

namespace Vec3

section Program

variable {R : Type} [Arith R]

instance : Add (Vec3 R) := ⟨fun a b => ⟨a.x + b.x, a.y + b.y, a.z + b.z⟩⟩
instance : Sub (Vec3 R) := ⟨fun a b => ⟨a.x - b.x, a.y - b.y, a.z - b.z⟩⟩
instance : Neg (Vec3 R) := ⟨fun a => ⟨-a.x, -a.y, -a.z⟩⟩
instance : HMul R (Vec3 R) (Vec3 R) := ⟨fun k a => ⟨k * a.x, k * a.y, k * a.z⟩⟩
instance : HMul (Vec3 R) R (Vec3 R) := ⟨fun a k => ⟨a.x * k, a.y * k, a.z * k⟩⟩
instance : HDiv (Vec3 R) R (Vec3 R) := ⟨fun a k => ⟨a.x / k, a.y / k, a.z / k⟩⟩

def zero : Vec3 R := ⟨lit 0, lit 0, lit 0⟩

def dot (a b : Vec3 R) : R := a.x * b.x + a.y * b.y + a.z * b.z

def cross (a b : Vec3 R) : Vec3 R :=
  ⟨a.y * b.z - a.z * b.y, a.z * b.x - a.x * b.z, a.x * b.y - a.y * b.x⟩

def squaredNorm (a : Vec3 R) : R := a.dot a

def norm (a : Vec3 R) : R := Arith.sqrt a.squaredNorm

/-- `normalize`; the zero vector is left as it is. -/
def normalized (a : Vec3 R) : Vec3 R :=
  if Arith.lt (lit 0) a.squaredNorm then a / Arith.sqrt a.squaredNorm else a

def cwiseProduct (a b : Vec3 R) : Vec3 R := ⟨a.x * b.x, a.y * b.y, a.z * b.z⟩

def cwiseAbs (a : Vec3 R) : Vec3 R := ⟨Arith.abs a.x, Arith.abs a.y, Arith.abs a.z⟩

def cwiseAbs2 (a : Vec3 R) : Vec3 R := a.cwiseProduct a

end Program

variable (a b : Vec3 ℝ) (k : ℝ)

@[simp] theorem add_x : (a + b).x = a.x + b.x := rfl
@[simp] theorem add_y : (a + b).y = a.y + b.y := rfl
@[simp] theorem add_z : (a + b).z = a.z + b.z := rfl
@[simp] theorem sub_x : (a - b).x = a.x - b.x := rfl
@[simp] theorem sub_y : (a - b).y = a.y - b.y := rfl
@[simp] theorem sub_z : (a - b).z = a.z - b.z := rfl
@[simp] theorem neg_x : (-a).x = -a.x := rfl
@[simp] theorem neg_y : (-a).y = -a.y := rfl
@[simp] theorem neg_z : (-a).z = -a.z := rfl
@[simp] theorem smul_x : (k * a).x = k * a.x := rfl
@[simp] theorem smul_y : (k * a).y = k * a.y := rfl
@[simp] theorem smul_z : (k * a).z = k * a.z := rfl
@[simp] theorem mul_x : (a * k).x = a.x * k := rfl
@[simp] theorem mul_y : (a * k).y = a.y * k := rfl
@[simp] theorem mul_z : (a * k).z = a.z * k := rfl
@[simp] theorem zero_x : (zero : Vec3 ℝ).x = 0 := Rat.cast_zero
@[simp] theorem zero_y : (zero : Vec3 ℝ).y = 0 := Rat.cast_zero
@[simp] theorem zero_z : (zero : Vec3 ℝ).z = 0 := Rat.cast_zero

@[simp] theorem add_zero : a + zero = a := by ext <;> simp
@[simp] theorem zero_add : zero + a = a := by ext <;> simp
@[simp] theorem sub_zero : a - zero = a := by ext <;> simp
@[simp] theorem smul_zero : k * (zero : Vec3 ℝ) = zero := by ext <;> simp
@[simp] theorem zero_smul : (0 : ℝ) * a = zero := by ext <;> simp
@[simp] theorem zero_cross : cross zero a = zero := by ext <;> simp [cross]
@[simp] theorem cross_zero : cross a zero = zero := by ext <;> simp [cross]
@[simp] theorem cwiseProduct_zero : cwiseProduct a zero = zero := by ext <;> simp [cwiseProduct]

/-- A factor comes out of the product. -/
theorem dot_smul : a.dot (k * b) = k * a.dot b := by
  simp only [dot, smul_x, smul_y, smul_z]
  ring

/-- A factor comes out of the square of the length twice. -/
theorem squaredNorm_smul : (k * a).squaredNorm = k * k * a.squaredNorm := by
  simp only [squaredNorm, dot, smul_x, smul_y, smul_z]
  ring

/-- Once a vector. -/
theorem one_smul : (1 : ℝ) * a = a := by
  ext <;> simp

/-- A vector in the other direction. -/
theorem neg_one_smul : (-1 : ℝ) * a = -a := by
  ext <;> simp

end Vec3

-- ---------------------------------------------------------------------------
-- Matrices
-- ---------------------------------------------------------------------------

section Program

variable {R : Type} [Arith R]

def row3 (a : Mat3 R) (i : Fin 3) : Vec3 R := ⟨a i 0, a i 1, a i 2⟩

def col3 (a : Mat3 R) (j : Fin 3) : Vec3 R := ⟨a 0 j, a 1 j, a 2 j⟩

/-- The matrix with these rows. -/
def ofRows (r₀ r₁ r₂ : Vec3 R) : Mat3 R :=
  !![r₀.x, r₀.y, r₀.z;
     r₁.x, r₁.y, r₁.z;
     r₂.x, r₂.y, r₂.z]

/-- The product of a matrix and a vector. -/
def mulVec3 (a : Mat3 R) (v : Vec3 R) : Vec3 R :=
  ⟨(row3 a 0).dot v, (row3 a 1).dot v, (row3 a 2).dot v⟩

/-- A matrix times a number. -/
def scale3 (a : Mat3 R) (k : R) : Mat3 R := fun i j => a i j * k

/-- A number times a matrix. -/
def smul3 (k : R) (a : Mat3 R) : Mat3 R := fun i j => k * a i j

def zero3 : Mat3 R := fun _ _ => lit 0

/-- The cofactor of an entry. -/
def cofactor3 (a : Mat3 R) (i j : Fin 3) : R :=
  a (i + 1) (j + 1) * a (i + 2) (j + 2) - a (i + 1) (j + 2) * a (i + 2) (j + 1)

/-- The inverse, by the cofactors. -/
def inverse3 (a : Mat3 R) : Mat3 R := fun i j =>
  cofactor3 a j i *
    (lit 1 / (cofactor3 a 0 0 * a 0 0 + cofactor3 a 1 0 * a 1 0 + cofactor3 a 2 0 * a 2 0))

-- ---------------------------------------------------------------------------
-- Six dimensions
-- ---------------------------------------------------------------------------

abbrev Vec6 (R : Type) := Fin 6 → R

abbrev Mat6 (R : Type) := Matrix (Fin 6) (Fin 6) R

/-- Two vectors, one below the other. -/
def concat (a b : Vec3 R) : Vec6 R := ![a.x, a.y, a.z, b.x, b.y, b.z]

def upper (v : Vec6 R) : Vec3 R := ⟨v 0, v 1, v 2⟩

def lower (v : Vec6 R) : Vec3 R := ⟨v 3, v 4, v 5⟩

/-- The index in a half. -/
def half (i : Fin 6) : Fin 3 := ⟨i.val % 3, Nat.mod_lt _ (by decide)⟩

/-- The matrix of four blocks. -/
def blocks (a b c d : Mat3 R) : Mat6 R := fun i j =>
  if i.val < 3 then (if j.val < 3 then a else b) (half i) (half j)
  else (if j.val < 3 then c else d) (half i) (half j)

def mulVec6 (a : Mat6 R) (v : Vec6 R) : Vec6 R := fun i =>
  a i 0 * v 0 + a i 1 * v 1 + a i 2 * v 2 + a i 3 * v 3 + a i 4 * v 4 + a i 5 * v 5

end Program

open Matrix

variable {A : Mat3 ℝ}

/-- A matrix is made of its rows. -/
theorem ofRows_row3 (A : Mat3 ℝ) : ofRows (row3 A 0) (row3 A 1) (row3 A 2) = A := by
  ext i j
  fin_cases i <;> fin_cases j <;> rfl

@[simp] theorem mulVec3_zero (A : Mat3 ℝ) : mulVec3 A Vec3.zero = Vec3.zero := by
  ext <;> simp [mulVec3, Vec3.dot]

@[simp] theorem concat_zero : concat (.zero : Vec3 ℝ) .zero = 0 := by
  ext i
  fin_cases i <;> simp [concat]

@[simp] theorem mulVec6_zero (a : Mat6 ℝ) : mulVec6 a 0 = 0 := by
  ext i
  simp [mulVec6]

/-- The rows of an orthogonal matrix are orthonormal. -/
theorem dot_row3 (hA : A ∈ orthogonalGroup (Fin 3) ℝ) (i j : Fin 3) :
    (row3 A i).dot (row3 A j) = if i = j then 1 else 0 := by
  have hEntry := congrFun (congrFun ((mem_orthogonalGroup_iff (Fin 3) ℝ).mp hA) i) j
  rwa [mul_apply, Fin.sum_univ_three, one_apply] at hEntry

/-- The determinant of an orthogonal matrix is one or minus one. -/
theorem det_mul_self (hA : A ∈ orthogonalGroup (Fin 3) ℝ) : A.det * A.det = 1 := by
  have hOne := congrArg det ((mem_orthogonalGroup_iff (Fin 3) ℝ).mp hA)
  rwa [det_mul, det_transpose, det_one] at hOne

/-- The cofactors of an orthogonal matrix are its entries, up to the sign. -/
theorem adjugate_of_orthogonal (hA : A ∈ orthogonalGroup (Fin 3) ℝ) :
    adjugate A = A.det • Aᵀ := by
  have hLeft : Aᵀ * A = 1 := (mem_orthogonalGroup_iff' (Fin 3) ℝ).mp hA
  calc adjugate A = Aᵀ * A * adjugate A := by rw [hLeft, one_mul]
    _ = Aᵀ * (A * adjugate A) := Matrix.mul_assoc _ _ _
    _ = A.det • Aᵀ := by rw [mul_adjugate, Matrix.mul_smul, Matrix.mul_one]

/-- The first row is the product of the others, up to the sign. -/
theorem cross_row3 (hA : A ∈ orthogonalGroup (Fin 3) ℝ) :
    (row3 A 2).cross (row3 A 1) = -A.det * row3 A 0 := by
  have hAdjugate := adjugate_of_orthogonal hA
  rw [adjugate_fin_three] at hAdjugate
  have hx := congrFun (congrFun hAdjugate 0) 0
  have hy := congrFun (congrFun hAdjugate 1) 0
  have hz := congrFun (congrFun hAdjugate 2) 0
  simp at hx hy hz
  ext <;> simp [Vec3.cross, row3] <;> linarith

/-- The first axis is turned around. -/
def mirror : Mat3 ℝ := diagonal ![-1, 1, 1]

/-- The mirror changes the orientation. -/
theorem det_mirror : mirror.det = -1 := by
  rw [mirror, det_diagonal, Fin.prod_univ_three]
  simp

/-- The mirror is orthogonal. -/
theorem mirror_mem : mirror ∈ orthogonalGroup (Fin 3) ℝ := by
  rw [mem_orthogonalGroup_iff, mirror]
  show diagonal _ * (diagonal _)ᵀ = 1
  rw [diagonal_transpose, diagonal_mul_diagonal, ← diagonal_one]
  congr 1
  ext i
  fin_cases i <;> simp

/-- The mirror changes the sign of the first row. -/
theorem mirror_mul (A : Mat3 ℝ) : mirror * A = ofRows (-row3 A 0) (row3 A 1) (row3 A 2) := by
  ext i j
  rw [mirror, diagonal_mul]
  fin_cases i <;> fin_cases j <;> simp [ofRows, row3]

end Sailbot.Lib

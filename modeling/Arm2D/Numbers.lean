import Arm2D.Library.Logged
import Arm2D.Library.Planar

/-! # Doubles read as exact numbers

The program's `double`s are elements of a linearly ordered field with a floor, so that
the reals and the rationals both serve. What the C library adds is a parameter. NaN and the
infinities are no such elements: a run of the model is a run in which none of them arises. -/
namespace Arm2D
open Library

/-- The functions of `<math.h>` that the program calls. -/
class Libm (R : Type) where
  sqrt : R → R
  acos : R → R
  cos : R → R
  sin : R → R

/-- `const double PI` of arm_configuration.h. -/
class PiConstant (R : Type) where
  PI : R

export PiConstant (PI)

noncomputable instance : Libm ℝ := ⟨Real.sqrt, Real.arccos, Real.cos, Real.sin⟩

noncomputable instance : PiConstant ℝ := ⟨Real.pi⟩

@[simp] lemma libm_sqrt (x : ℝ) : Libm.sqrt x = √x := rfl
@[simp] lemma libm_acos (x : ℝ) : Libm.acos x = Real.arccos x := rfl
@[simp] lemma libm_cos (x : ℝ) : Libm.cos x = Real.cos x := rfl
@[simp] lemma libm_sin (x : ℝ) : Libm.sin x = Real.sin x := rfl
@[simp] lemma pi_real : (PI : ℝ) = Real.pi := rfl

variable {R : Type}

def twoPi [Mul R] [OfNat R 2] [PiConstant R] : R := PI * 2

/-- A call whose result is defined only on part of its arguments. -/
inductive MathCall (R : Type)
  | acos (argument : R)
  | divide (divisor : R)
  deriving DecidableEq

/-- The arguments on which `acos` and the division have a value. -/
def MathCall.Defined [Ring R] [LinearOrder R] : MathCall R → Prop
  | .acos x => -1 ≤ x ∧ x ≤ 1
  | .divide d => d ≠ 0

def acosOf [Libm R] (x : R) : Logged (MathCall R) R := ⟨Libm.acos x, [.acos x]⟩

def quotient [Div R] (x y : R) : Logged (MathCall R) R := ⟨x / y, [.divide y]⟩

@[simp] lemma acosOf_val [Libm R] (x : R) : (acosOf x).val = Libm.acos x := rfl
@[simp] lemma acosOf_log [Libm R] (x : R) : (acosOf x).log = [.acos x] := rfl
@[simp] lemma quotient_val [Div R] (x y : R) : (quotient x y).val = x / y := rfl
@[simp] lemma quotient_log [Div R] (x y : R) : (quotient x y).log = [.divide y] := rfl

/-- `(int)x`: towards zero. -/
def truncate [Ring R] [LinearOrder R] [FloorRing R] (x : R) : ℤ :=
  if 0 ≤ x then ⌊x⌋ else ⌈x⌉

section truncate
variable [Field R] [LinearOrder R] [IsStrictOrderedRing R] [FloorRing R]

theorem truncate_intCast (k : ℤ) : truncate (k : R) = k := by
  rw [truncate, Int.floor_intCast, Int.ceil_intCast, ite_self]

omit [IsStrictOrderedRing R] in
theorem truncate_of_nonneg {x : R} (hx : 0 ≤ x) : truncate x = ⌊x⌋ := if_pos hx

theorem truncate_neg {x : R} (hx : 0 ≤ x) : truncate (-x) = -⌊x⌋ := by
  rw [truncate]
  split_ifs with h
  · have hzero : x = 0 := le_antisymm (by linarith) hx
    simp [hzero]
  · rw [Int.ceil_neg]

omit [IsStrictOrderedRing R] in
theorem truncate_nonneg {x : R} (hx : 0 ≤ x) : 0 ≤ truncate x := by
  rw [truncate_of_nonneg hx]
  exact Int.floor_nonneg.mpr hx

theorem truncate_nonpos_iff (x : R) : truncate x ≤ 0 ↔ x < 1 := by
  rw [truncate]
  split_ifs with hx
  · rw [← Int.lt_add_one_iff, zero_add, Int.floor_lt, Int.cast_one]
  · rw [Int.ceil_le, Int.cast_zero]
    constructor <;> intro _ <;> linarith

theorem abs_truncate_sub_lt (x : R) : |(truncate x : R) - x| < 1 := by
  rw [truncate, abs_lt]
  split_ifs
  · have hle := Int.floor_le x
    have hlt := Int.lt_floor_add_one x
    constructor <;> linarith
  · have hle := Int.le_ceil x
    have hlt := Int.ceil_lt_add_one x
    constructor <;> linarith

end truncate

end Arm2D

import Arm2D.SetTarget
import Arm2D.StaticUtils
import Arm2D.Transformation

/-! # The report of the transformation tests

`transformation_tests` of arm_2d.cpp reports a point in polar coordinates before and after a
rotation. Its angle comes from the quotient without the sign, and is then brought to its
quadrant: in the left half plane by a quarter of a turn, which mirrors the quadrant at its
diagonal. -/
namespace Arm2D
open Library

section program
variable {R : Type} [Field R] [LinearOrder R] [Libm R] [PiConstant R]

structure PolarReport (R : Type) where
  R1 : R
  theta : R
  ppreport : R

/-- Either of the two blocks. -/
def polarReport (X Y : R) : PolarReport R :=
  let R1 := Libm.sqrt (X * X + Y * Y)
  let theta := Libm.acos (|X| / R1)
  let theta :=
    if X < 0 ∨ Y < 0 then
      if X > 0 then -theta
      else if Y > 0 then PI / 2 + theta
      else -theta - PI / 2
    else theta
  ⟨R1, theta, PI / theta⟩

/-- `transformation_tests` on what the operator types in: the point, and the part of the half
turn by which the coordinates are rotated. -/
def transformationTests (xyPair pipart : Str) : Option (PolarReport R × PolarReport R) := do
  let piPart : R := -atof pipart
  let xyPair := if xyPair.head? = some '(' then xyPair.drop 1 else xyPair
  let X : R := atof xyPair
  let xyPair ← substr xyPair (posAfter (find [','] xyPair 0)) none
  let Y : R := atof xyPair
  let absPiPart := |piPart|
  let theta := if absPiPart > 0.0005 ∧ absPiPart < 50000 then PI / piPart else 0
  let p := rotate2d theta (X, Y)
  return (polarReport X Y, polarReport p.1 p.2)

end program

/-- The radius and the angle are polar coordinates of the point. -/
def PolarReport.Locates (r : PolarReport ℝ) (X Y : ℝ) : Prop :=
  X = r.R1 * Real.cos r.theta ∧ Y = r.R1 * Real.sin r.theta

theorem polarReport_R1 (X Y : ℝ) : (polarReport X Y).R1 = polarRadius X Y := rfl

theorem polar_iff_angle {X Y theta : ℝ} (hr : 0 < polarRadius X Y) :
    (X = polarRadius X Y * Real.cos theta ∧ Y = polarRadius X Y * Real.sin theta) ↔
      ∃ k : ℤ, theta = polarAngle X Y + 2 * Real.pi * k := by
  obtain ⟨hcos, hsin⟩ := polar_coordinates X Y
  constructor
  · intro ⟨hX, hY⟩
    have hcos' : Real.cos theta = Real.cos (polarAngle X Y) :=
      mul_left_cancel₀ hr.ne' (hX.symm.trans hcos.symm)
    have hsin' : Real.sin theta = Real.sin (polarAngle X Y) :=
      mul_left_cancel₀ hr.ne' (hY.symm.trans hsin.symm)
    obtain ⟨k, hk⟩ := Real.Angle.angle_eq_iff_two_pi_dvd_sub.mp
      (Real.Angle.cos_sin_inj hcos' hsin')
    exact ⟨k, by linarith⟩
  · rintro ⟨k, rfl⟩
    rw [mul_comm (2 * Real.pi), Real.cos_add_int_mul_two_pi, Real.sin_add_int_mul_two_pi]
    exact ⟨hcos.symm, hsin.symm⟩

theorem acos_abs {X Y : ℝ} (hr : 0 < polarRadius X Y) :
    polarRadius X Y * Real.cos (Real.arccos (|X| / polarRadius X Y)) = |X| ∧
      polarRadius X Y * Real.sin (Real.arccos (|X| / polarRadius X Y)) = |Y| := by
  have hradius : polarRadius |X| |Y| = polarRadius X Y := by
    rw [polarRadius_real, polarRadius_real, sq_abs, sq_abs]
  have hangle : polarAngle |X| |Y| = Real.arccos (|X| / polarRadius X Y) := by
    rw [polarAngle, hradius, if_neg hr.ne', if_neg (not_lt.mpr (abs_nonneg Y))]
    rfl
  have hpolar := polar_coordinates |X| |Y|
  rwa [hradius, hangle] at hpolar

theorem polarReport_theta (X Y : ℝ) :
    let theta := Real.arccos (|X| / polarRadius X Y)
    (0 ≤ X ∧ 0 ≤ Y ∧ (polarReport X Y).theta = theta) ∨
      (0 < X ∧ Y < 0 ∧ (polarReport X Y).theta = -theta) ∨
      (X < 0 ∧ 0 < Y ∧ (polarReport X Y).theta = theta + Real.pi / 2) ∨
      (X ≤ 0 ∧ Y ≤ 0 ∧ (polarReport X Y).theta = -(theta + Real.pi / 2)) := by
  intro theta
  unfold polarReport
  simp only [libm_acos, libm_sqrt, pi_real]
  change (0 ≤ X ∧ 0 ≤ Y ∧ (if X < 0 ∨ Y < 0 then if X > 0 then -theta
    else if Y > 0 then Real.pi / 2 + theta else -theta - Real.pi / 2 else theta) = theta) ∨ _
  split_ifs with hneg hX hY
  · rcases hneg with h | h
    · exact absurd hX h.asymm
    · exact .inr (.inl ⟨hX, h, rfl⟩)
  · rcases hneg with h | h
    · exact .inr (.inr (.inl ⟨h, hY, add_comm _ _⟩))
    · exact absurd hY h.asymm
  · exact .inr (.inr (.inr ⟨not_lt.mp hX, not_lt.mp hY, (neg_add' theta _).symm⟩))
  · rw [not_or, not_lt, not_lt] at hneg
    exact .inl ⟨hneg.1, hneg.2, rfl⟩

/-- The right half plane and the upper half of the axis; in the left half plane only the
diagonals of the quadrants. -/
def OnItsQuadrant (X Y : ℝ) : Prop := 0 < X ∨ X = 0 ∧ 0 < Y ∨ X < 0 ∧ |Y| = |X|

theorem polarRadius_pos {X Y : ℝ} (h : (X, Y) ≠ (0, 0)) : 0 < polarRadius X Y := by
  refine (polarRadius_nonneg X Y).lt_of_ne' fun hzero => h ?_
  have hsq := polarRadius_sq X Y
  rw [hzero] at hsq
  have hX : X = 0 := by nlinarith
  have hY : Y = 0 := by nlinarith
  rw [hX, hY]

theorem polarReport_locates_iff {X Y : ℝ} (h : (X, Y) ≠ (0, 0)) :
    (polarReport X Y).Locates X Y ↔ OnItsQuadrant X Y := by
  have hr := polarRadius_pos h
  obtain ⟨hcos, hsin⟩ := acos_abs hr
  unfold PolarReport.Locates OnItsQuadrant
  rw [polarReport_R1]
  rcases polarReport_theta X Y with ⟨hX, hY, ht⟩ | ⟨hX, hY, ht⟩ | ⟨hX, hY, ht⟩ | ⟨hX, hY, ht⟩
  · rw [ht, hcos, hsin, abs_of_nonneg hX, abs_of_nonneg hY]
    refine iff_of_true ⟨rfl, rfl⟩ ?_
    rcases hX.lt_or_eq with hpos | rfl
    · exact .inl hpos
    · exact .inr (.inl ⟨rfl, hY.lt_of_ne fun hzero => h (by rw [hzero])⟩)
  · rw [ht, Real.cos_neg, Real.sin_neg, mul_neg, hcos, hsin, abs_of_pos hX, abs_of_neg hY,
      neg_neg]
    exact iff_of_true ⟨rfl, rfl⟩ (.inl hX)
  · -- A quarter of a turn from the first quadrant exchanges the coordinates.
    rw [ht, Real.cos_add_pi_div_two, Real.sin_add_pi_div_two, mul_neg, hcos, hsin,
      abs_of_neg hX, abs_of_pos hY]
    constructor
    · exact fun hdiagonal => .inr (.inr ⟨hX, hdiagonal.2⟩)
    · rintro (hpos | ⟨hzero, -⟩ | ⟨-, hdiagonal⟩)
      · exact absurd hpos hX.asymm
      · exact absurd hzero hX.ne
      · exact ⟨by linarith, hdiagonal⟩
  · rw [ht, Real.cos_neg, Real.sin_neg, Real.cos_add_pi_div_two, Real.sin_add_pi_div_two,
      mul_neg, mul_neg, hcos, hsin, abs_of_nonpos hX, abs_of_nonpos hY, neg_neg, neg_neg]
    constructor
    · rintro ⟨rfl, -⟩
      exact .inr (.inr ⟨hX.lt_of_ne fun hzero => h (by rw [hzero]), rfl⟩)
    · rintro (hpos | ⟨-, hpos⟩ | ⟨-, hdiagonal⟩)
      · exact absurd hpos (not_lt.mpr hX)
      · exact absurd hpos (not_lt.mpr hY)
      · exact ⟨(neg_injective hdiagonal).symm, neg_injective hdiagonal⟩

/-- The reported angle is that of `to_circular`, up to turns, exactly there. -/
theorem polarReport_agrees_iff {X Y : ℝ} (h : (X, Y) ≠ (0, 0)) :
    ((polarReport X Y).Locates X Y ↔ OnItsQuadrant X Y) ∧
      ((∃ k : ℤ, (polarReport X Y).theta = polarAngle X Y + 2 * Real.pi * k) ↔
        OnItsQuadrant X Y) := by
  have hlocates := polarReport_locates_iff h
  exact ⟨hlocates, (polar_iff_angle (polarRadius_pos h)).symm.trans hlocates⟩

theorem polarReport_agrees_iff_below_axis :
    (polarReport 3 (-4)).Locates 3 (-4) :=
  (polarReport_agrees_iff (by norm_num)).1.mpr (.inl (by norm_num))

theorem polarReport_left_axis :
    (polarReport (-1) (0 : ℝ)).theta = -(Real.pi / 2) ∧ polarAngle (-1) (0 : ℝ) = Real.pi ∧
      ¬ (polarReport (-1) 0).Locates (-1) 0 := by
  have hradius : polarRadius (-1) (0 : ℝ) = 1 := by
    rw [polarRadius_real]
    norm_num
  have htheta : (polarReport (-1) (0 : ℝ)).theta = -(Real.pi / 2) := by
    simp [polarReport]
  have hangle : polarAngle (-1) (0 : ℝ) = Real.pi := by
    simp [polarAngle, hradius]
  refine ⟨htheta, hangle, fun hlocates => ?_⟩
  have hx := hlocates.1
  rw [polarReport_R1, hradius, htheta, Real.cos_neg, Real.cos_pi_div_two] at hx
  norm_num at hx

end Arm2D

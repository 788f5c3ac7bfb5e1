import Arm2D.Configuration
import Arm2D.Library.TwoLink

/-! # What `set_target` does

First for any numbers: the angle and the radius that the target alone determines, and
the two ways in which the call ends. Then over the reals, where the three triangle
cases are shown to compute one and the same pair of angles, that of the two-link arm. -/
namespace Arm2D
open Library

variable {R : Type} [Field R] [LinearOrder R] [FloorRing R] [Libm R] [PiConstant R]

/-- The radius that `to_circular` computes. -/
def polarRadius (x y : R) : R := Libm.sqrt (x * x + y * y)

/-- The angle that `to_circular` computes. -/
def polarAngle (x y : R) : R :=
  if polarRadius x y = 0 then 0
  else if y < 0 then twoPi - Libm.acos (x / polarRadius x y)
  else Libm.acos (x / polarRadius x y)

def clampedRadius (s x y : R) : R := if s > polarRadius x y then s else polarRadius x y

namespace ArmConfiguration
variable {g : ArmParameters R}

/-- The guard of `set_target` on the clamped radius. -/
def InRange (c : ArmConfiguration g) (x y : R) : Prop :=
  ¬ c.maxR - c.epsilon < clampedRadius c.startRadius x y

/-- The configuration before the range check. -/
def aimed (c : ArmConfiguration g) (x y : R) : ArmConfiguration g :=
  { c with
    targetX := x
    targetY := y
    theta := polarAngle x y
    baseRadius := clampedRadius c.startRadius x y }

omit [FloorRing R] in
theorem toCircular_val (c : ArmConfiguration g) :
    c.toCircular.val = { c with
      baseRadius := polarRadius c.targetX c.targetY
      theta := polarAngle c.targetX c.targetY } := by
  unfold toCircular polarAngle polarRadius
  simp only [Logged.ite_val, Logged.bind_val, Logged.pure_val, quotient_val, acosOf_val]
  split_ifs <;> rfl

omit [FloorRing R] in
theorem inRange_iff (c : ArmConfiguration g) (x y : R) :
    c.InRange x y ↔ clampedRadius c.startRadius x y ≤ g.link1 + g.link2 - 0.005 := by
  unfold InRange ArmParameters.link1 ArmParameters.link2
  rw [not_lt, c.maxR_eq, c.epsilon_eq, add_right_comm]

omit [FloorRing R] in
theorem clamp_eq_aimed (c : ArmConfiguration g) (x y : R) :
    (if c.startRadius > polarRadius x y then
      { c with targetX := x, targetY := y, theta := polarAngle x y,
               baseRadius := c.startRadius }
      else { c with targetX := x, targetY := y, theta := polarAngle x y,
                    baseRadius := polarRadius x y }) = c.aimed x y := by
  unfold aimed clampedRadius
  split_ifs <;> rfl

theorem setTarget_eq (c : ArmConfiguration g) (x y : R) :
    c.setTarget x y =
      if c.maxR - c.epsilon < clampedRadius c.startRadius x y then
        (c.aimed x y).handlePointOutOfRange
      else (c.aimed x y).solveTriangle.val.canisterSteps.elbowSteps := by
  unfold setTarget setTargetLogged
  simp only [Logged.bind_val, Logged.ite_val, Logged.pure_val, toCircular_val]
  rw [clamp_eq_aimed]
  rfl

theorem setTarget_outOfRange {c : ArmConfiguration g} {x y : R} (h : ¬ c.InRange x y) :
    c.setTarget x y = (c.aimed x y).handlePointOutOfRange := by
  rw [setTarget_eq, if_pos (not_not.mp h)]

theorem setTarget_inRange {c : ArmConfiguration g} {x y : R} (h : c.InRange x y) :
    c.setTarget x y = (c.aimed x y).solveTriangle.val.canisterSteps.elbowSteps := by
  rw [setTarget_eq, if_neg h]

omit [FloorRing R] in
theorem solveTriangle_val (c : ArmConfiguration g) :
    ∃ a b, c.solveTriangle.val = { c with alpha := a, beta := b } := by
  unfold solveTriangle
  simp only [Logged.ite_val, Logged.bind_val, Logged.pure_val]
  split_ifs <;> exact ⟨_, _, rfl⟩

@[simp] theorem setTarget_startRadius (c : ArmConfiguration g) (x y : R) :
    (c.setTarget x y).startRadius = c.startRadius := by
  rw [setTarget_eq]
  obtain ⟨a, b, he⟩ := (c.aimed x y).solveTriangle_val
  rw [he]
  split_ifs <;> rfl

@[simp] theorem setMininumRadius_startRadius (c : ArmConfiguration g) (radius : R) :
    (c.setMininumRadius radius).startRadius = radius := setTarget_startRadius _ _ _

end ArmConfiguration

/-- The links as an arm of the plane. -/
noncomputable def ArmParameters.arm (g : ArmParameters ℝ) (h2 : 0 < g.link2)
    (h12 : g.link2 < g.link1) : TwoLink :=
  ⟨g.link1, g.link2, h2, h12⟩

section arm
variable (g : ArmParameters ℝ) (h2 : 0 < g.link2) (h12 : g.link2 < g.link1)

@[simp] lemma arm_l1 : (g.arm h2 h12).l1 = g.link1 := rfl
@[simp] lemma arm_l2 : (g.arm h2 h12).l2 = g.link2 := rfl

end arm

theorem polarRadius_real (x y : ℝ) : polarRadius x y = √(x ^ 2 + y ^ 2) := by
  simp [polarRadius, sq]

theorem polarRadius_nonneg (x y : ℝ) : 0 ≤ polarRadius x y := Real.sqrt_nonneg _

theorem polarRadius_sq (x y : ℝ) : polarRadius x y ^ 2 = x ^ 2 + y ^ 2 := by
  rw [polarRadius_real, Real.sq_sqrt (by positivity)]

theorem polarRadius_axis {x : ℝ} (hx : 0 ≤ x) : polarRadius x 0 = x := by
  rw [polarRadius_real, zero_pow two_ne_zero, add_zero, Real.sqrt_sq hx]

theorem clampedRadius_eq_max (s x y : ℝ) : clampedRadius s x y = max (polarRadius x y) s := by
  unfold clampedRadius
  split_ifs with h
  · rw [max_eq_right h.le]
  · rw [max_eq_left (not_lt.mp h)]

theorem polar_quotient {x y : ℝ} (h : polarRadius x y ≠ 0) :
    -1 ≤ x / polarRadius x y ∧ x / polarRadius x y ≤ 1 := by
  have hpos := (polarRadius_nonneg x y).lt_of_ne' h
  have hsq := polarRadius_sq x y
  have habs : |x| ≤ polarRadius x y := abs_le_of_sq_le_sq (by nlinarith) hpos.le
  rw [← abs_le, abs_div, abs_of_pos hpos, div_le_one hpos]
  exact habs

theorem polar_coordinates (x y : ℝ) :
    polarRadius x y * Real.cos (polarAngle x y) = x ∧
      polarRadius x y * Real.sin (polarAngle x y) = y := by
  have hsq := polarRadius_sq x y
  by_cases h : polarRadius x y = 0
  · rw [h] at hsq ⊢
    constructor <;> nlinarith
  have hpos := (polarRadius_nonneg x y).lt_of_ne' h
  obtain ⟨hlo, hhi⟩ := polar_quotient h
  have hcos := Real.cos_arccos hlo hhi
  have hsin : polarRadius x y * Real.sin (Real.arccos (x / polarRadius x y)) = |y| := by
    have he : 1 - (x / polarRadius x y) ^ 2 = y ^ 2 / polarRadius x y ^ 2 := by
      field_simp
      linarith
    rw [Real.sin_arccos, he, Real.sqrt_div (sq_nonneg y), Real.sqrt_sq_eq_abs,
      Real.sqrt_sq hpos.le]
    field_simp
  unfold polarAngle
  rw [if_neg h, libm_acos]
  split_ifs with hy
  · have ht : (twoPi : ℝ) - Real.arccos (x / polarRadius x y) =
        2 * Real.pi - Real.arccos (x / polarRadius x y) := by
      rw [twoPi, pi_real, mul_comm]
    rw [ht, Real.cos_two_pi_sub, Real.sin_two_pi_sub, hcos, mul_neg, hsin, abs_of_neg hy]
    exact ⟨mul_div_cancel₀ x h, neg_neg y⟩
  · rw [hcos, hsin, abs_of_nonneg (not_lt.mp hy)]
    exact ⟨mul_div_cancel₀ x h, rfl⟩

theorem sides_cosines {A B C : ℝ} (hA : A ≠ 0) (hB : B ≠ 0) (hC : C ≠ 0) :
    (A * A - B * B + C * C) / (2 * C) / A = cosineOf B A C ∧
      (C - (A * A - B * B + C * C) / (2 * C)) / B = cosineOf A B C := by
  unfold cosineOf
  constructor
  · field_simp
    ring
  · field_simp
    ring

theorem sidesToAngles_val {A B C : ℝ} (hA : A ≠ 0) (hB : B ≠ 0) (hC : C ≠ 0) :
    (ArmConfiguration.sidesToAngles A B C).val =
      ⟨angleOf B A C, angleOf A B C, Real.pi - angleOf B A C - angleOf A B C⟩ := by
  obtain ⟨h₁, h₂⟩ := sides_cosines hA hB hC
  simp only [ArmConfiguration.sidesToAngles, Logged.bind_val, Logged.pure_val, quotient_val,
    acosOf_val, libm_acos, pi_real, h₁, h₂, angleOf]

namespace ArmConfiguration
variable {g : ArmParameters ℝ} (h2 : 0 < g.link2) (h12 : g.link2 < g.link1)
include h2 h12

/-- Whichever case runs, the angles are those of the two-link arm at this radius. -/
theorem solveTriangle_reaches {c : ArmConfiguration g}
    (hr : (g.arm h2 h12).Reaches c.baseRadius) :
    c.solveTriangle.val = { c with
      alpha := (g.arm h2 h12).shoulder c.baseRadius
      beta := (g.arm h2 h12).elbow c.baseRadius } := by
  have hrpos := (TwoLink.reaches_pos hr).ne'
  have h1pos : g.arm1Length + g.canisterRadius ≠ 0 := (h2.trans h12).ne'
  have h2pos : g.arm2Length ≠ 0 := h2.ne'
  have hshoulder : angleOf g.arm2Length c.baseRadius (g.arm1Length + g.canisterRadius) =
      (g.arm h2 h12).shoulder c.baseRadius := angleOf_comm _ _ _
  have helbow : angleOf c.baseRadius g.arm2Length (g.arm1Length + g.canisterRadius) =
      (g.arm h2 h12).elbow c.baseRadius := angleOf_comm _ _ _
  unfold solveTriangle
  split_ifs with hA hB hC
  · have hsum := TwoLink.shoulder_add_elbow hr
    have hwrist : angleOf (g.arm1Length + g.canisterRadius) g.arm2Length c.baseRadius =
        (g.arm h2 h12).wrist c.baseRadius := angleOf_comm _ _ _
    have hshoulder' : angleOf g.arm2Length (g.arm1Length + g.canisterRadius) c.baseRadius =
        (g.arm h2 h12).shoulder c.baseRadius := rfl
    have he : Real.pi - (g.arm h2 h12).shoulder c.baseRadius -
        (g.arm h2 h12).wrist c.baseRadius = (g.arm h2 h12).elbow c.baseRadius := by linarith
    simp only [Logged.bind_val, Logged.pure_val, sidesToAngles_val h1pos h2pos hrpos,
      hwrist, hshoulder', he]
  · simp only [Logged.bind_val, Logged.pure_val, sidesToAngles_val h2pos hrpos h1pos,
      hshoulder, helbow]
  · -- The radius is the inner one, where the arm is folded anyway.
    have hinner : c.baseRadius = (g.arm h2 h12).l1 - (g.arm h2 h12).l2 := by
      have hlo := hr.1
      change g.link1 - g.link2 ≤ c.baseRadius at hlo
      change c.baseRadius = g.link1 - g.link2
      unfold ArmParameters.link1 ArmParameters.link2 at *
      linarith
    rw [hinner, TwoLink.shoulder_inner, TwoLink.elbow_inner, Logged.pure_val]
  · simp only [Logged.bind_val, Logged.pure_val, sidesToAngles_val h2pos hrpos h1pos,
      hshoulder, helbow]

omit h2 h12 in
theorem solveTriangle_folded {c : ArmConfiguration g} (h12 : g.link2 < g.link1)
    (hr : c.baseRadius ≤ g.link2) (hfold : g.link2 + c.baseRadius ≤ g.link1) :
    c.solveTriangle.val = { c with alpha := 0, beta := 0 } := by
  unfold ArmParameters.link1 ArmParameters.link2 at *
  unfold solveTriangle
  rw [if_neg (by linarith), if_neg (by linarith), if_pos hfold, Logged.pure_val]

end ArmConfiguration
end Arm2D

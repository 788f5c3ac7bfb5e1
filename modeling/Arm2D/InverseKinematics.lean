import Arm2D.SetTarget

/-! # Inverse kinematics

`set_target` refines the two-link arm: in reach, the angles that it leaves place the
tip on the clamped target. -/
namespace Arm2D
open Library

/-- The point at the clamped radius in the direction of the target; the direction of
the origin is that of the first axis. -/
noncomputable def clampedPoint (s x y : ℝ) : ℝ × ℝ :=
  if √(x ^ 2 + y ^ 2) = 0 then (max (√(x ^ 2 + y ^ 2)) s, 0)
  else (max (√(x ^ 2 + y ^ 2)) s * (x / √(x ^ 2 + y ^ 2)),
    max (√(x ^ 2 + y ^ 2)) s * (y / √(x ^ 2 + y ^ 2)))

theorem clampedPoint_eq_polar (s x y : ℝ) :
    clampedPoint s x y = (clampedRadius s x y * Real.cos (polarAngle x y),
      clampedRadius s x y * Real.sin (polarAngle x y)) := by
  obtain ⟨hx, hy⟩ := polar_coordinates x y
  rw [clampedRadius_eq_max]
  unfold clampedPoint
  rw [← polarRadius_real]
  split_ifs with h
  · simp [polarAngle, h]
  · have hcos : x / polarRadius x y = Real.cos (polarAngle x y) := by
      rw [div_eq_iff h, mul_comm, hx]
    have hsin : y / polarRadius x y = Real.sin (polarAngle x y) := by
      rw [div_eq_iff h, mul_comm, hy]
    rw [hcos, hsin]

theorem clampedPoint_of_le {s x y : ℝ} (h : s ≤ √(x ^ 2 + y ^ 2)) :
    clampedPoint s x y = (x, y) := by
  obtain ⟨hx, hy⟩ := polar_coordinates x y
  rw [clampedPoint_eq_polar, clampedRadius_eq_max, polarRadius_real, max_eq_left h,
    ← polarRadius_real, hx, hy]

namespace ArmConfiguration
variable {g : ArmParameters ℝ}

theorem setTarget_reaches (h2 : 0 < g.link2) (h12 : g.link2 < g.link1)
    (c : ArmConfiguration g) (x y : ℝ)
    (hlo : g.link1 - g.link2 ≤ clampedRadius c.startRadius x y)
    (hhi : clampedRadius c.startRadius x y ≤ g.link1 + g.link2 - 0.005) :
    c.setTarget x y = ({ c.aimed x y with
      alpha := (g.arm h2 h12).shoulder (clampedRadius c.startRadius x y)
      beta := (g.arm h2 h12).elbow (clampedRadius c.startRadius x y) } :
        ArmConfiguration g).canisterSteps.elbowSteps := by
  have hr : (g.arm h2 h12).Reaches (c.aimed x y).baseRadius :=
    ⟨hlo, hhi.trans (by rw [arm_l1, arm_l2]; norm_num)⟩
  rw [setTarget_inRange ((c.inRange_iff x y).mpr hhi), solveTriangle_reaches h2 h12 hr]
  rfl

section reach
variable (h2 : 0 < g.link2) (h12 : g.link2 < g.link1) (c : ArmConfiguration g) (x y : ℝ)
  (hlo : g.link1 - g.link2 ≤ clampedRadius c.startRadius x y)
  (hhi : clampedRadius c.startRadius x y ≤ g.link1 + g.link2 - 0.005)
include hlo hhi

theorem setTarget_baseAngle : (c.setTarget x y).baseAngle =
    (g.arm h2 h12).shoulder (clampedRadius c.startRadius x y) + polarAngle x y := by
  rw [setTarget_reaches h2 h12 c x y hlo hhi]
  rfl

theorem setTarget_elbowAngle : (c.setTarget x y).elbowAngle =
    (g.arm h2 h12).elbow (clampedRadius c.startRadius x y) := by
  rw [setTarget_reaches h2 h12 c x y hlo hhi]
  rfl

theorem setTarget_tip :
    (g.arm h2 h12).tip (c.setTarget x y).baseAngle (c.setTarget x y).elbowAngle =
      clampedPoint c.startRadius x y := by
  have hr : (g.arm h2 h12).Reaches (clampedRadius c.startRadius x y) :=
    ⟨hlo, hhi.trans (by rw [arm_l1, arm_l2]; norm_num)⟩
  rw [setTarget_baseAngle h2 h12 c x y hlo hhi, setTarget_elbowAngle h2 h12 c x y hlo hhi,
    clampedPoint_eq_polar]
  exact TwoLink.tip_inverse hr (polarAngle x y)

end reach

/-- In every triangle case the two angles of `set_target` place the tip of the
two-link arm on the clamped target. -/
theorem inverse_kinematics (g : ArmParameters ℝ) (h2 : 0 < g.link2) (h12 : g.link2 < g.link1)
    (c : ArmConfiguration g) (x y : ℝ)
    (hlo : g.link1 - g.link2 ≤ max (√(x ^ 2 + y ^ 2)) c.startRadius)
    (hhi : max (√(x ^ 2 + y ^ 2)) c.startRadius ≤ g.link1 + g.link2 - 0.005) :
    let t := (c.setTarget x y).baseAngle
    let b := (c.setTarget x y).elbowAngle
    (g.link1 * Real.cos t - g.link2 * Real.cos (t + b),
      g.link1 * Real.sin t - g.link2 * Real.sin (t + b)) = clampedPoint c.startRadius x y ∧
    (c.startRadius ≤ √(x ^ 2 + y ^ 2) → clampedPoint c.startRadius x y = (x, y)) := by
  rw [← polarRadius_real, ← clampedRadius_eq_max] at hlo hhi
  exact ⟨setTarget_tip h2 h12 c x y hlo hhi, clampedPoint_of_le⟩

/-- Links of lengths four and three reach for `(3,4)`. -/
theorem inverse_kinematics_three_four :
    let g : ArmParameters ℝ := ⟨1, 3, 3, 20000, 20000⟩
    let c : ArmConfiguration g := (construct g 0 0 2 0).setTarget 3 4
    (4 * Real.cos c.baseAngle - 3 * Real.cos (c.baseAngle + c.elbowAngle),
      4 * Real.sin c.baseAngle - 3 * Real.sin (c.baseAngle + c.elbowAngle)) = (3, 4) := by
  intro g c
  have hr : √((3 : ℝ) ^ 2 + 4 ^ 2) = 5 := by
    rw [show (3 : ℝ) ^ 2 + 4 ^ 2 = 5 ^ 2 by norm_num, Real.sqrt_sq (by norm_num)]
  have h1 : g.link1 = 4 := by norm_num [g, ArmParameters.link1]
  have h2 : g.link2 = 3 := rfl
  have hs : (construct g 0 0 2 0).startRadius = 2 := rfl
  have h := inverse_kinematics g (by norm_num [h2]) (by norm_num [h1, h2])
    (construct g 0 0 2 0) 3 4 (by norm_num [h1, h2, hr, hs]) (by norm_num [h1, h2, hr, hs])
  rw [h.2 (by norm_num [hr, hs]), h1, h2] at h
  exact h.1

end ArmConfiguration
end Arm2D

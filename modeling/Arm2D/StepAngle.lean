import Arm2D.InverseKinematics

/-! # Angles in motor steps

The angle that a step count stands for, and how far the floor of `canister_steps` and
`elbow_steps` takes it from the angle that was asked for. -/
namespace Arm2D
open Library

/-- The angle of `k` steps of a motor with `m` steps a turn; the drives count the other
way round. -/
noncomputable def stepAngle (m : ℕ) (k : ℤ) : ℝ := -k * (2 * Real.pi / m)

theorem stepAngle_floor {m : ℕ} (hm : 1 ≤ m) (t : ℝ) :
    |stepAngle m (-⌊t * (m / twoPi)⌋) - t| ≤ 2 * Real.pi / m := by
  have hm' : (0 : ℝ) < m := by exact_mod_cast hm
  have hpi := Real.pi_pos
  have hstep : 0 < 2 * Real.pi / m := by positivity
  have htwo : (twoPi : ℝ) = 2 * Real.pi := by rw [twoPi, pi_real, mul_comm]
  have hunit : t * (m / twoPi) * (2 * Real.pi / m) = t := by
    rw [htwo]
    field_simp
  have hlo := mul_le_mul_of_nonneg_right (Int.floor_le (t * (m / twoPi))) hstep.le
  have hhi := mul_lt_mul_of_pos_right (Int.lt_floor_add_one (t * (m / twoPi))) hstep
  rw [hunit] at hlo hhi
  rw [stepAngle, Int.cast_neg, neg_neg, abs_le]
  constructor <;> linarith

/-- The error that the two floors allow at the tip. -/
noncomputable def stepError (g : ArmParameters ℝ) : ℝ :=
  (g.link1 + g.link2) * (2 * Real.pi / g.canisterStep) +
    g.link2 * (2 * Real.pi / g.elbowStep)

namespace ArmConfiguration
variable {g : ArmParameters ℝ}

/-- The step counts after a call agree with the two angles up to one step. -/
structure StepsNear (c : ArmConfiguration g) : Prop where
  base : |stepAngle g.canisterStep c.canisterCurrentSteps - c.baseAngle| ≤
    2 * Real.pi / g.canisterStep
  elbow : |stepAngle g.elbowStep c.elbowCurrentSteps - c.elbowAngle| ≤
    2 * Real.pi / g.elbowStep

theorem stepsNear_of_steps (hm : 1 ≤ g.canisterStep) (hn : 1 ≤ g.elbowStep)
    (c : ArmConfiguration g) : c.canisterSteps.elbowSteps.StepsNear where
  base := by
    have h := stepAngle_floor hm (c.alpha + c.theta)
    rw [← c.canisterDelta_eq] at h
    exact h
  elbow := by
    have h := stepAngle_floor hn c.beta
    rw [← c.elbowDelta_eq] at h
    exact h

theorem setTarget_stepsNear (hm : 1 ≤ g.canisterStep) (hn : 1 ≤ g.elbowStep)
    {c : ArmConfiguration g} {x y : ℝ} (h : c.InRange x y) : (c.setTarget x y).StepsNear := by
  rw [setTarget_inRange h]
  exact stepsNear_of_steps hm hn _

theorem StepsNear.planarDist_tip (h2 : 0 < g.link2) (h12 : g.link2 < g.link1)
    {c : ArmConfiguration g} (h : c.StepsNear) :
    planarDist ((g.arm h2 h12).tip (stepAngle g.canisterStep c.canisterCurrentSteps)
        (stepAngle g.elbowStep c.elbowCurrentSteps))
      ((g.arm h2 h12).tip c.baseAngle c.elbowAngle) ≤ stepError g := by
  refine ((g.arm h2 h12).planarDist_tip_le _ _ _ _).trans ?_
  exact add_le_add (mul_le_mul_of_nonneg_left h.base (add_pos (h2.trans h12) h2).le)
    (mul_le_mul_of_nonneg_left h.elbow h2.le)

end ArmConfiguration

theorem stepError_pos {g : ArmParameters ℝ} (h2 : 0 < g.link2) (h12 : g.link2 < g.link1)
    (hm : 1 ≤ g.canisterStep) (hn : 1 ≤ g.elbowStep) : 0 < stepError g := by
  have h1 := h2.trans h12
  have hm' : (0 : ℝ) < g.canisterStep := by exact_mod_cast hm
  have hn' : (0 : ℝ) < g.elbowStep := by exact_mod_cast hn
  have := Real.pi_pos
  unfold stepError
  positivity

/-- The same arm on motors with other step counts. -/
def ArmParameters.withSteps {R : Type} (g : ArmParameters R) (m n : ℕ) : ArmParameters R :=
  { g with canisterStep := m, elbowStep := n }

theorem stepError_small (g : ArmParameters ℝ) (h2 : 0 < g.link2) (h12 : g.link2 < g.link1)
    {ε : ℝ} (hε : 0 < ε) :
    ∃ N : ℕ, 1 ≤ N ∧ ∀ m n, N ≤ m → N ≤ n → stepError (g.withSteps m n) < ε := by
  have h1 := h2.trans h12
  have hpi := Real.pi_pos
  obtain ⟨N, hN⟩ := exists_nat_gt ((g.link1 + 2 * g.link2) * (2 * Real.pi) / ε)
  have hpos : 0 < (g.link1 + 2 * g.link2) * (2 * Real.pi) / ε := by positivity
  have hN' : (0 : ℝ) < N := hpos.trans hN
  refine ⟨N, by exact_mod_cast hN', fun m n hm hn => ?_⟩
  have hm' : (2 * Real.pi / m : ℝ) ≤ 2 * Real.pi / N := by
    have : (N : ℝ) ≤ m := by exact_mod_cast hm
    gcongr
  have hn' : (2 * Real.pi / n : ℝ) ≤ 2 * Real.pi / N := by
    have : (N : ℝ) ≤ n := by exact_mod_cast hn
    gcongr
  have hlt : (g.link1 + 2 * g.link2) * (2 * Real.pi / N) < ε := by
    rw [div_lt_iff₀ hε] at hN
    rw [mul_div_assoc', div_lt_iff₀ hN']
    linarith
  have h₁ := mul_le_mul_of_nonneg_left hm' (add_pos h1 h2).le
  have h₂ := mul_le_mul_of_nonneg_left hn' h2.le
  change (g.link1 + g.link2) * (2 * Real.pi / m) + g.link2 * (2 * Real.pi / n) < ε
  linarith

end Arm2D

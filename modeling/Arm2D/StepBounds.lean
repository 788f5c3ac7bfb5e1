import Arm2D.StepCounts

/-! # Bounds on the angles and the steps

In reach the three triangle cases are one function of the clamped radius, so that the elbow
opens with the reach across all of them, and the angles of the arm bound its step counts in
every run. -/
namespace Arm2D
open Library

theorem polarAngle_nonneg (x y : ℝ) : 0 ≤ polarAngle x y := by
  have hpi := Real.pi_pos
  have hle := Real.arccos_le_pi (x / polarRadius x y)
  unfold polarAngle
  rw [libm_acos, twoPi, pi_real]
  split_ifs
  · exact le_rfl
  · linarith
  · exact Real.arccos_nonneg _

theorem polarAngle_le (x y : ℝ) : polarAngle x y ≤ 2 * Real.pi := by
  have hpi := Real.pi_pos
  have hle := Real.arccos_le_pi (x / polarRadius x y)
  have hnonneg := Real.arccos_nonneg (x / polarRadius x y)
  unfold polarAngle
  rw [libm_acos, twoPi, pi_real]
  split_ifs <;> linarith

namespace ArmConfiguration
variable {g : ArmParameters ℝ}

theorem elbowCurrentSteps_inRange {c : ArmConfiguration g} {x y : ℝ} (h : c.InRange x y) :
    -(c.setTarget x y).elbowCurrentSteps =
      ⌊(c.setTarget x y).elbowAngle * g.elbowStep / twoPi⌋ := by
  rw [(setTarget_agrees h).2, neg_neg]

/-- Of two targets in reach, the one that is further away opens the elbow wider. -/
theorem elbow_opens_with_reach (h2 : 0 < g.link2) (h12 : g.link2 < g.link1)
    (c c' : ArmConfiguration g) (x y x' y' : ℝ)
    (hlo : g.link1 - g.link2 ≤ max (√(x ^ 2 + y ^ 2)) c.startRadius)
    (hlt : max (√(x ^ 2 + y ^ 2)) c.startRadius < max (√(x' ^ 2 + y' ^ 2)) c'.startRadius)
    (hhi : max (√(x' ^ 2 + y' ^ 2)) c'.startRadius ≤ g.link1 + g.link2 - 0.005) :
    (c.setTarget x y).elbowAngle < (c'.setTarget x' y').elbowAngle ∧
      -(c.setTarget x y).elbowCurrentSteps ≤ -(c'.setTarget x' y').elbowCurrentSteps := by
  simp only [← polarRadius_real, ← clampedRadius_eq_max] at hlo hlt hhi
  have hhi₁ := hlt.le.trans hhi
  have hlo₂ := hlo.trans hlt.le
  have hreach : ∀ {r}, g.link1 - g.link2 ≤ r → r ≤ g.link1 + g.link2 - 0.005 →
      (g.arm h2 h12).Reaches r :=
    fun hlo hhi => ⟨hlo, hhi.trans (by rw [arm_l1, arm_l2]; norm_num)⟩
  have hangle : (c.setTarget x y).elbowAngle < (c'.setTarget x' y').elbowAngle := by
    rw [setTarget_elbowAngle h2 h12 c x y hlo hhi₁,
      setTarget_elbowAngle h2 h12 c' x' y' hlo₂ hhi]
    exact (g.arm h2 h12).elbow_strictMonoOn (hreach hlo hhi₁) (hreach hlo₂ hhi) hlt
  refine ⟨hangle, ?_⟩
  have hpi : (0 : ℝ) < twoPi := mul_pos Real.pi_pos two_pos
  rw [elbowCurrentSteps_inRange ((c.inRange_iff x y).mpr hhi₁),
    elbowCurrentSteps_inRange ((c'.inRange_iff x' y').mpr hhi)]
  gcongr

theorem elbow_opens_two_six :
    let g : ArmParameters ℝ := ⟨1, 3, 3, 20000, 20000⟩
    let c := construct g 0 0 1 0
    (c.setTarget 2 0).elbowAngle < (c.setTarget 6 0).elbowAngle ∧
      -(c.setTarget 2 0).elbowCurrentSteps ≤ -(c.setTarget 6 0).elbowCurrentSteps := by
  intro g c
  have h1 : g.link1 = 4 := by norm_num [g, ArmParameters.link1]
  have h2 : g.link2 = 3 := rfl
  have hs : c.startRadius = 1 := rfl
  have hradius : ∀ r : ℝ, 1 ≤ r → max (√(r ^ 2 + 0 ^ 2)) c.startRadius = r := by
    intro r hr
    rw [zero_pow two_ne_zero, add_zero, Real.sqrt_sq (by linarith), hs, max_eq_left hr]
  apply elbow_opens_with_reach (by norm_num [h2]) (by norm_num [h1, h2])
  · rw [hradius 2 (by norm_num), h1, h2]
    norm_num
  · rw [hradius 2 (by norm_num), hradius 6 (by norm_num)]
    norm_num
  · rw [hradius 6 (by norm_num), h1, h2]
    norm_num

/-- Five quarters of a turn for the base, half a turn for the elbow. -/
structure StepsBounded (c : ArmConfiguration g) : Prop where
  canister_nonneg : 0 ≤ -c.canisterCurrentSteps
  canister_le : ((-c.canisterCurrentSteps : ℤ) : ℝ) ≤ 5 / 4 * g.canisterStep
  elbow_nonneg : 0 ≤ -c.elbowCurrentSteps
  elbow_le : ((-c.elbowCurrentSteps : ℤ) : ℝ) ≤ g.elbowStep / 2

structure AnglesBounded (c : ArmConfiguration g) : Prop where
  alpha_nonneg : 0 ≤ c.alpha
  alpha_le : c.alpha ≤ Real.pi / 2
  theta_nonneg : 0 ≤ c.theta
  theta_le : c.theta ≤ 2 * Real.pi
  beta_nonneg : 0 ≤ c.beta
  beta_le : c.beta ≤ Real.pi

theorem floor_steps_bounded {t turns : ℝ} (hnonneg : 0 ≤ t) (hle : t ≤ turns * (2 * Real.pi))
    (n : ℕ) : 0 ≤ ⌊t * (n / twoPi)⌋ ∧ (⌊t * (n / twoPi)⌋ : ℝ) ≤ turns * n := by
  have hpi := Real.pi_pos
  have htwo : (twoPi : ℝ) = 2 * Real.pi := by rw [twoPi, pi_real, mul_comm]
  rw [htwo]
  refine ⟨Int.floor_nonneg.mpr (by positivity), (Int.floor_le _).trans ?_⟩
  calc t * (n / (2 * Real.pi)) ≤ turns * (2 * Real.pi) * (n / (2 * Real.pi)) := by gcongr
    _ = turns * n := by field_simp

theorem AnglesBounded.steps {c : ArmConfiguration g} (h : c.AnglesBounded) :
    c.canisterSteps.elbowSteps.StepsBounded := by
  have hbaseAngle : c.alpha + c.theta ≤ 5 / 4 * (2 * Real.pi) := by
    linarith [h.alpha_le, h.theta_le]
  have helbowAngle : c.beta ≤ 1 / 2 * (2 * Real.pi) := by linarith [h.beta_le]
  obtain ⟨hbase, hbase'⟩ := floor_steps_bounded
    (add_nonneg h.alpha_nonneg h.theta_nonneg) hbaseAngle g.canisterStep
  obtain ⟨helbow, helbow'⟩ := floor_steps_bounded h.beta_nonneg helbowAngle g.elbowStep
  rw [← c.canisterDelta_eq] at hbase hbase'
  rw [← c.elbowDelta_eq] at helbow helbow'
  have hcanister : -c.canisterSteps.elbowSteps.canisterCurrentSteps =
      ⌊(c.alpha + c.theta) * c.canisterDelta⌋ := neg_neg _
  have helbow₂ : -c.canisterSteps.elbowSteps.elbowCurrentSteps = ⌊c.beta * c.elbowDelta⌋ :=
    neg_neg _
  constructor
  · rwa [hcanister]
  · rwa [hcanister]
  · rwa [helbow₂]
  · rw [helbow₂]
    linarith

/-- One call, from a start radius on which the arm can stand. -/
theorem setTarget_stepsBounded (h2 : 0 < g.link2) (h12 : g.link2 < g.link1)
    {c : ArmConfiguration g} (hs : g.link1 - g.link2 ≤ c.startRadius) (x y : ℝ) :
    (c.setTarget x y).StepsBounded := by
  by_cases hin : c.InRange x y
  · have hlo : g.link1 - g.link2 ≤ clampedRadius c.startRadius x y := by
      rw [clampedRadius_eq_max]
      exact hs.trans (le_max_right _ _)
    have hpos : 0 < clampedRadius c.startRadius x y := by linarith
    rw [setTarget_reaches h2 h12 c x y hlo ((c.inRange_iff x y).mp hin)]
    apply AnglesBounded.steps
    constructor
    · exact Real.arccos_nonneg _
    · exact (g.arm h2 h12).shoulder_le_half_pi hpos
    · exact polarAngle_nonneg x y
    · exact polarAngle_le x y
    · exact Real.arccos_nonneg _
    · exact Real.arccos_le_pi _
  · rw [setTarget_outOfRange hin]
    constructor <;> simp [handlePointOutOfRange]
    positivity

/-- Whatever targets a run sets after `set_mininum_radius`. -/
theorem steps_bounded (g : ArmParameters ℝ) (h2 : 0 < g.link2) (h12 : g.link2 < g.link1)
    (c : ArmConfiguration g) (s : ℝ) (hs : g.link1 - g.link2 ≤ s) (targets : List (ℝ × ℝ)) :
    Always targetStep StepsBounded (c.setMininumRadius s) targets := by
  let kept (c : ArmConfiguration g) : Prop := c.startRadius = s ∧ c.StepsBounded
  have hset : ∀ (c : ArmConfiguration g) (x y : ℝ), c.startRadius = s →
      kept (c.setTarget x y) := by
    intro c x y hc
    exact ⟨by rw [setTarget_startRadius, hc], setTarget_stepsBounded h2 h12 (hc ▸ hs) x y⟩
  have hrun : Always targetStep kept (c.setMininumRadius s) targets := by
    apply always_of_step
    · intro c p hc
      exact hset c p.1 p.2 hc.1
    · obtain ⟨hradius, hbounded⟩ :=
        hset { c with startRadius := s, startAngle := 0 } s 0 rfl
      exact ⟨hradius, hbounded.canister_nonneg, hbounded.canister_le, hbounded.elbow_nonneg,
        hbounded.elbow_le⟩
  exact fun pre hpre => (hrun pre hpre).2

theorem steps_bounded_right_angle :
    let g : ArmParameters ℝ := ⟨1, 3, 3, 20000, 20000⟩
    Always targetStep StepsBounded ((construct g 0 0 0 0).setMininumRadius 5)
      [(0, -6), (100, 0)] := by
  intro g
  have h1 : g.link1 = 4 := by norm_num [g, ArmParameters.link1]
  have h2 : g.link2 = 3 := rfl
  apply steps_bounded
  · norm_num [h2]
  · norm_num [h1, h2]
  · norm_num [h1, h2]

end ArmConfiguration
end Arm2D

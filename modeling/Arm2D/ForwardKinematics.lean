import Arm2D.StepAngle

/-! # Forward kinematics

`rotation_to_cartesian` adds the forearm with the ordinate of the wrong sign. What it
computes from the step counts of `set_target` is the tip of the arm with its forearm
mirrored in the horizontal through the elbow. -/
namespace Arm2D
open Library

/-- How far the forearm of an arm with its tip at `(x,y)` is from lying along the first
axis, as a multiple of the sine of its direction. -/
noncomputable def levelDefect (l1 l2 x y : ℝ) : ℝ :=
  x * √(4 * (x ^ 2 + y ^ 2) * l2 ^ 2 - (x ^ 2 + y ^ 2 + l2 ^ 2 - l1 ^ 2) ^ 2) -
    y * (x ^ 2 + y ^ 2 + l2 ^ 2 - l1 ^ 2)

/-- The forearm lies along the first axis. -/
def ForearmLevel (l1 l2 x y : ℝ) : Prop := levelDefect l1 l2 x y = 0

/-- The tip with the forearm mirrored in the horizontal through the elbow. -/
noncomputable def mirroredTip (l1 l2 t b : ℝ) : ℝ × ℝ :=
  (l1 * Real.cos t - l2 * Real.cos (t + b), l1 * Real.sin t + l2 * Real.sin (t + b))

theorem mirroredTip_eq (l1 l2 t b : ℝ) :
    mirroredTip l1 l2 t b = twoVectors l1 l2 t (Real.pi - (t + b)) := by
  rw [mirroredTip, twoVectors, Real.cos_pi_sub, Real.sin_pi_sub, mul_neg, ← sub_eq_add_neg]

theorem planarDist_mirroredTip (arm : TwoLink) (t b : ℝ) :
    planarDist (mirroredTip arm.l1 arm.l2 t b) (arm.tip t b) =
      2 * arm.l2 * |Real.sin (t + b)| := by
  have he : ((mirroredTip arm.l1 arm.l2 t b).1 - (arm.tip t b).1) ^ 2 +
      ((mirroredTip arm.l1 arm.l2 t b).2 - (arm.tip t b).2) ^ 2 =
      (2 * arm.l2 * Real.sin (t + b)) ^ 2 := by
    simp only [mirroredTip, TwoLink.tip]
    ring
  have h2 : 0 ≤ 2 * arm.l2 := by
    have := arm.l2_pos
    linarith
  rw [planarDist, he, Real.sqrt_sq_eq_abs, abs_mul, abs_of_nonneg h2]

namespace ArmConfiguration
variable {g : ArmParameters ℝ}

theorem rotationToCartesian_eq (c : ArmConfiguration g) (rad1 rad2 : ℝ) :
    c.rotationToCartesian rad1 rad2 = mirroredTip g.link1 g.link2
      (rad1 * (2 * Real.pi / g.canisterStep)) (rad2 * (2 * Real.pi / g.elbowStep)) := by
  have htwo : (twoPi : ℝ) = 2 * Real.pi := by rw [twoPi, pi_real, mul_comm]
  rw [mirroredTip_eq]
  unfold rotationToCartesian twoVectors ArmParameters.link1 ArmParameters.link2
  simp only [c.canisterRadialDelta_eq, c.canisterDelta_eq, c.elbowRadialDelta_eq,
    c.elbowDelta_eq, one_div_div, htwo, libm_cos, libm_sin, pi_real, sub_sub]
  rw [add_comm g.canisterRadius]
  exact Prod.ext (add_comm _ _) (add_comm _ _)

/-- The point that `scan_for_pattern_with_rotation_motion` computes for the steps of
the last target. -/
noncomputable def recovered (c : ArmConfiguration g) : ℝ × ℝ :=
  c.rotationToCartesian (-(c.canisterCurrentSteps : ℝ)) (-(c.elbowCurrentSteps : ℝ))

theorem recovered_eq (c : ArmConfiguration g) :
    c.recovered = mirroredTip g.link1 g.link2
      (stepAngle g.canisterStep c.canisterCurrentSteps)
      (stepAngle g.elbowStep c.elbowCurrentSteps) :=
  c.rotationToCartesian_eq _ _

theorem StepsNear.planarDist_recovered (h2 : 0 < g.link2) (h12 : g.link2 < g.link1)
    {c : ArmConfiguration g} (h : c.StepsNear) :
    planarDist c.recovered (mirroredTip g.link1 g.link2 c.baseAngle c.elbowAngle) ≤
      stepError g := by
  have h1 := h2.trans h12
  rw [recovered_eq, mirroredTip_eq, mirroredTip_eq]
  refine (planarDist_twoVectors_le _ _ _ _ _ _).trans ?_
  have hsplit : ∀ t b t' b' : ℝ,
      |Real.pi - (t + b) - (Real.pi - (t' + b'))| ≤ |t - t'| + |b - b'| := by
    intro t b t' b'
    rw [sub_sub_sub_cancel_left, abs_sub_comm, add_sub_add_comm]
    exact abs_add_le _ _
  have hu := mul_le_mul_of_nonneg_left (hsplit (stepAngle g.canisterStep c.canisterCurrentSteps)
    (stepAngle g.elbowStep c.elbowCurrentSteps) c.baseAngle c.elbowAngle) h2.le
  have hb := mul_le_mul_of_nonneg_left h.base h1.le
  have hb' := mul_le_mul_of_nonneg_left h.base h2.le
  have he := mul_le_mul_of_nonneg_left h.elbow h2.le
  rw [abs_of_pos h1, abs_of_pos h2]
  unfold stepError
  linarith

/-- The recovered point misses a target in reach by the mirror image's distance, up to
the step error on either side. -/
theorem recovered_error (h2 : 0 < g.link2) (h12 : g.link2 < g.link1)
    (hm : 1 ≤ g.canisterStep) (hn : 1 ≤ g.elbowStep) (c : ArmConfiguration g) (x y : ℝ)
    (hlo : max c.startRadius (g.link1 - g.link2) ≤ √(x ^ 2 + y ^ 2))
    (hhi : √(x ^ 2 + y ^ 2) ≤ g.link1 + g.link2 - 0.005) :
    |planarDist (c.setTarget x y).recovered (x, y) - (2 * g.link2 *
        |Real.sin ((c.setTarget x y).baseAngle + (c.setTarget x y).elbowAngle)|)| ≤
      stepError g := by
  have hs := le_of_max_le_left hlo
  have hr : clampedRadius c.startRadius x y = √(x ^ 2 + y ^ 2) := by
    rw [clampedRadius_eq_max, polarRadius_real, max_eq_left hs]
  have hnear := setTarget_stepsNear hm hn ((c.inRange_iff x y).mpr (hr.trans_le hhi))
  have hclose := hnear.planarDist_recovered h2 h12
  have htip := setTarget_tip h2 h12 c x y (hr.symm ▸ le_of_max_le_right hlo) (hr.trans_le hhi)
  rw [clampedPoint_of_le hs] at htip
  have hmirror := planarDist_mirroredTip (g.arm h2 h12) (c.setTarget x y).baseAngle
    (c.setTarget x y).elbowAngle
  rw [htip, arm_l1, arm_l2] at hmirror
  rw [← hmirror, abs_le]
  have h₁ := planarDist_triangle (c.setTarget x y).recovered
    (mirroredTip g.link1 g.link2 (c.setTarget x y).baseAngle (c.setTarget x y).elbowAngle) (x, y)
  have h₂ := planarDist_triangle
    (mirroredTip g.link1 g.link2 (c.setTarget x y).baseAngle (c.setTarget x y).elbowAngle)
    (c.setTarget x y).recovered (x, y)
  rw [planarDist_comm _ (c.setTarget x y).recovered] at h₂
  constructor <;> linarith

theorem slip_eq (h2 : 0 < g.link2) (h12 : g.link2 < g.link1) (c : ArmConfiguration g) (x y : ℝ)
    (hlo : max c.startRadius (g.link1 - g.link2) ≤ √(x ^ 2 + y ^ 2))
    (hhi : √(x ^ 2 + y ^ 2) ≤ g.link1 + g.link2 - 0.005) :
    2 * g.link2 * |Real.sin ((c.setTarget x y).baseAngle + (c.setTarget x y).elbowAngle)| =
      |levelDefect g.link1 g.link2 x y| / (x ^ 2 + y ^ 2) := by
  have hs := le_of_max_le_left hlo
  have hr : clampedRadius c.startRadius x y = polarRadius x y := by
    rw [clampedRadius_eq_max, polarRadius_real, max_eq_left hs]
  have hpos : 0 < x ^ 2 + y ^ 2 :=
    Real.sqrt_pos.mp ((sub_pos.mpr h12).trans_le (le_of_max_le_right hlo))
  rw [← polarRadius_real] at hhi hlo
  have hreach : (g.arm h2 h12).Reaches (polarRadius x y) :=
    ⟨le_of_max_le_right hlo, hhi.trans (by rw [arm_l1, arm_l2]; norm_num)⟩
  obtain ⟨hx, hy⟩ := polar_coordinates x y
  have h := TwoLink.sin_forearm hreach (polarAngle x y)
  rw [hx, hy, polarRadius_sq, arm_l1, arm_l2] at h
  have hlo' := hr.symm ▸ le_of_max_le_right hlo
  have hfactor : 0 < 2 * g.link2 * (x ^ 2 + y ^ 2) := by positivity
  rw [setTarget_baseAngle h2 h12 c x y hlo' (hr.trans_le hhi),
    setTarget_elbowAngle h2 h12 c x y hlo' (hr.trans_le hhi), hr, eq_div_iff hpos.ne',
    levelDefect, ← h, abs_mul, abs_of_pos hfactor]
  ring

/-- For a target in reach, the point recovered from the steps is within the step error
on all motors exactly when the forearm is level; otherwise all fine enough motors miss. -/
theorem forward_kinematics_iff (g : ArmParameters ℝ) (h2 : 0 < g.link2)
    (h12 : g.link2 < g.link1) (s x y : ℝ)
    (hlo : max s (g.link1 - g.link2) ≤ √(x ^ 2 + y ^ 2))
    (hhi : √(x ^ 2 + y ^ 2) ≤ g.link1 + g.link2 - 0.005) :
    ((∀ m n : ℕ, 1 ≤ m → 1 ≤ n → ∀ c : ArmConfiguration (g.withSteps m n),
        c.startRadius = s → planarDist (c.setTarget x y).recovered (x, y) ≤
          (g.link1 + g.link2) * (2 * Real.pi / m) + g.link2 * (2 * Real.pi / n)) ↔
      ForearmLevel g.link1 g.link2 x y) ∧
    (¬ ForearmLevel g.link1 g.link2 x y → ∃ N : ℕ, 1 ≤ N ∧ ∀ m n, N ≤ m → N ≤ n →
      ∀ c : ArmConfiguration (g.withSteps m n), c.startRadius = s →
        (g.link1 + g.link2) * (2 * Real.pi / m) + g.link2 * (2 * Real.pi / n) <
          planarDist (c.setTarget x y).recovered (x, y)) := by
  have hmiss : ¬ ForearmLevel g.link1 g.link2 x y → ∃ N : ℕ, 1 ≤ N ∧ ∀ m n, N ≤ m → N ≤ n →
      ∀ c : ArmConfiguration (g.withSteps m n), c.startRadius = s →
        stepError (g.withSteps m n) < planarDist (c.setTarget x y).recovered (x, y) := by
    intro hlevel
    have hpos : 0 < x ^ 2 + y ^ 2 :=
      Real.sqrt_pos.mp ((sub_pos.mpr h12).trans_le (le_of_max_le_right hlo))
    have hε : 0 < |levelDefect g.link1 g.link2 x y| / (x ^ 2 + y ^ 2) / 2 :=
      half_pos (div_pos (abs_pos.mpr hlevel) hpos)
    obtain ⟨N, hN, hsmall⟩ := stepError_small g h2 h12 hε
    refine ⟨N, hN, fun m n hm hn c hc => ?_⟩
    subst hc
    have herr := recovered_error (g := g.withSteps m n) h2 h12 (hN.trans hm) (hN.trans hn)
      c x y hlo hhi
    rw [slip_eq (g := g.withSteps m n) h2 h12 c x y hlo hhi] at herr
    have hlt := hsmall m n hm hn
    have hge := (abs_le.mp herr).1
    change _ ≤ _ - |levelDefect g.link1 g.link2 x y| / (x ^ 2 + y ^ 2) at hge
    linarith
  refine ⟨⟨fun hall => ?_, fun hlevel m n hm hn c hc => ?_⟩, hmiss⟩
  · by_contra hlevel
    obtain ⟨N, hN, hfar⟩ := hmiss hlevel
    let c := construct (g.withSteps N N) 0 0 s 0
    exact (hfar N N le_rfl le_rfl c rfl).not_ge (hall N N hN hN c rfl)
  · subst hc
    have herr := recovered_error (g := g.withSteps m n) h2 h12 hm hn c x y hlo hhi
    rw [slip_eq (g := g.withSteps m n) h2 h12 c x y hlo hhi] at herr
    have hzero : levelDefect (g.withSteps m n).link1 (g.withSteps m n).link2 x y = 0 := hlevel
    rw [hzero, abs_zero, zero_div, sub_zero, abs_of_nonneg (planarDist_nonneg _ _)] at herr
    exact herr

/-- Links of four and three with the tip at `(5,0)`: the right-angled elbow is above the
axis, and the recovered point is more than four units off. -/
theorem recovered_misses_right_triangle :
    let g : ArmParameters ℝ := ⟨1, 3, 3, 20000, 20000⟩
    let c := construct g 0 0 2 0
    (0 < g.link2 ∧ g.link2 < g.link1 ∧ 0 < c.startRadius) ∧
    (max c.startRadius (g.link1 - g.link2) ≤ √((5 : ℝ) ^ 2 + 0 ^ 2) ∧
      √((5 : ℝ) ^ 2 + 0 ^ 2) ≤ g.link1 + g.link2 - 0.005) ∧
    (g.link1 + g.link2) * (2 * Real.pi / g.canisterStep) +
      g.link2 * (2 * Real.pi / g.elbowStep) <
        planarDist (c.setTarget 5 0).recovered (5, 0) := by
  intro g c
  have h1 : g.link1 = 4 := by norm_num [g, ArmParameters.link1]
  have h2 : g.link2 = 3 := rfl
  have hs : c.startRadius = 2 := rfl
  have hr : √((5 : ℝ) ^ 2 + 0 ^ 2) = 5 := by
    rw [← polarRadius_real, polarRadius_axis (by norm_num)]
  have hlo : max c.startRadius (g.link1 - g.link2) ≤ √((5 : ℝ) ^ 2 + 0 ^ 2) := by
    norm_num [h1, h2, hs, hr]
  have hhi : √((5 : ℝ) ^ 2 + 0 ^ 2) ≤ g.link1 + g.link2 - 0.005 := by
    norm_num [h1, h2, hr]
  have h2pos : 0 < g.link2 := by norm_num [h2]
  have h12 : g.link2 < g.link1 := by norm_num [h1, h2]
  refine ⟨⟨h2pos, h12, by norm_num [hs]⟩, ⟨hlo, hhi⟩, ?_⟩
  have hm : g.canisterStep = 20000 := rfl
  have hn : g.elbowStep = 20000 := rfl
  have herr := recovered_error h2pos h12 (by norm_num [hm]) (by norm_num [hn]) c 5 0 hlo hhi
  have hroot : √(4 * ((5 : ℝ) ^ 2 + 0 ^ 2) * 3 ^ 2 - (5 ^ 2 + 0 ^ 2 + 3 ^ 2 - 4 ^ 2) ^ 2) = 24 := by
    rw [show (4 * ((5 : ℝ) ^ 2 + 0 ^ 2) * 3 ^ 2 - (5 ^ 2 + 0 ^ 2 + 3 ^ 2 - 4 ^ 2) ^ 2) = 24 ^ 2 by
      norm_num, Real.sqrt_sq (by norm_num)]
  rw [slip_eq h2pos h12 c 5 0 hlo hhi, levelDefect, h1, h2, hroot] at herr
  have hge := (abs_le.mp herr).1
  have hpi := Real.pi_lt_four
  unfold stepError at hge
  rw [h1, h2, hm, hn] at hge ⊢
  norm_num at hge ⊢
  linarith

theorem forward_kinematics_folded :
    let g : ArmParameters ℝ := ⟨1, 3, 3, 20000, 20000⟩
    planarDist ((construct g 0 0 0.5 0).setTarget 1 0).recovered (1, 0) ≤
      (4 + 3) * (2 * Real.pi / 20000) + 3 * (2 * Real.pi / 20000) := by
  intro g
  have h1 : g.link1 = 4 := by norm_num [g, ArmParameters.link1]
  have h2 : g.link2 = 3 := rfl
  have hr : √((1 : ℝ) ^ 2 + 0 ^ 2) = 1 := by norm_num
  have hlevel : ForearmLevel g.link1 g.link2 1 0 := by
    rw [ForearmLevel, levelDefect, h1, h2]
    norm_num
  have h := ((forward_kinematics_iff g (by norm_num [h2]) (by norm_num [h1, h2]) 0.5 1 0
    (by norm_num [h1, h2, hr]) (by norm_num [h1, h2, hr])).1.mpr hlevel) 20000 20000
    (by norm_num) (by norm_num) (construct g 0 0 0.5 0) rfl
  rw [h1, h2] at h
  exact_mod_cast h

end ArmConfiguration
end Arm2D

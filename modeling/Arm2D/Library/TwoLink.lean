import Arm2D.Library.Planar

/-! # The planar arm with two links

What a two-link arm is for: a shoulder angle and an elbow angle place the tip, and
every radius of the reachable ring has a pair of angles that places the tip there.
The elbow angle is the interior one, zero when the arm is folded on itself. -/
namespace Arm2D.Library

structure TwoLink where
  l1 : ℝ
  l2 : ℝ
  l2_pos : 0 < l2
  l2_lt : l2 < l1

namespace TwoLink
variable (arm : TwoLink)

lemma l1_pos : 0 < arm.l1 := arm.l2_pos.trans arm.l2_lt

/-- Where the tip is for the shoulder at `t` and the interior elbow angle `b`. -/
noncomputable def tip (t b : ℝ) : ℝ × ℝ :=
  (arm.l1 * Real.cos t - arm.l2 * Real.cos (t + b),
    arm.l1 * Real.sin t - arm.l2 * Real.sin (t + b))

/-- The ring of radii that the tip can take. -/
def Reaches (r : ℝ) : Prop := arm.l1 - arm.l2 ≤ r ∧ r ≤ arm.l1 + arm.l2

noncomputable def shoulder (r : ℝ) : ℝ := angleOf arm.l2 arm.l1 r
noncomputable def elbow (r : ℝ) : ℝ := angleOf r arm.l1 arm.l2
noncomputable def wrist (r : ℝ) : ℝ := angleOf arm.l1 r arm.l2

lemma reaches_pos {arm : TwoLink} {r : ℝ} (h : arm.Reaches r) : 0 < r := by
  have := arm.l2_lt
  have := h.1
  linarith

/-- Shoulder, elbow and tip of an arm that reaches `r`. -/
def triangle {arm : TwoLink} {r : ℝ} (h : arm.Reaches r) : Triangle where
  a := arm.l2
  b := arm.l1
  c := r
  a_pos := arm.l2_pos
  b_pos := arm.l1_pos
  c_pos := reaches_pos h
  a_le := by have := arm.l2_lt; have := reaches_pos h; linarith
  b_le := by have := h.1; linarith
  c_le := by have := h.2; linarith

variable {arm} {r : ℝ}

theorem shoulder_add_elbow (h : arm.Reaches r) :
    arm.shoulder r + arm.elbow r = Real.pi - arm.wrist r := by
  have hs := (triangle h).angle_sum
  have he : (triangle h).angleC = arm.elbow r := angleOf_comm _ _ _
  rw [he] at hs
  change arm.shoulder r + arm.wrist r + arm.elbow r = Real.pi at hs
  linarith

theorem projection (h : arm.Reaches r) :
    arm.l1 * Real.cos (arm.shoulder r) + arm.l2 * Real.cos (arm.wrist r) = r :=
  (triangle h).projection

theorem altitude (h : arm.Reaches r) :
    arm.l1 * Real.sin (arm.shoulder r) = arm.l2 * Real.sin (arm.wrist r) :=
  (triangle h).altitude

theorem forearm_angle (h : arm.Reaches r) (θ : ℝ) :
    arm.shoulder r + θ + arm.elbow r = Real.pi - (arm.wrist r - θ) := by
  have := shoulder_add_elbow h
  linarith

/-- Inverse kinematics: the angles of radius `r`, turned by `θ`, place the tip at
distance `r` in the direction `θ`. -/
theorem tip_inverse (h : arm.Reaches r) (θ : ℝ) :
    arm.tip (arm.shoulder r + θ) (arm.elbow r) = (r * Real.cos θ, r * Real.sin θ) := by
  have hp := projection h
  have ha := altitude h
  unfold tip
  rw [forearm_angle h, Real.cos_pi_sub, Real.sin_pi_sub, Real.cos_add, Real.sin_add,
    Real.cos_sub, Real.sin_sub]
  ext
  · linear_combination Real.cos θ * hp - Real.sin θ * ha
  · linear_combination Real.sin θ * hp + Real.cos θ * ha

theorem tip_folded (arm : TwoLink) (θ : ℝ) :
    arm.tip θ 0 = ((arm.l1 - arm.l2) * Real.cos θ, (arm.l1 - arm.l2) * Real.sin θ) := by
  unfold tip
  rw [add_zero]
  ext <;> ring

theorem shoulder_inner (arm : TwoLink) : arm.shoulder (arm.l1 - arm.l2) = 0 := by
  have h₁ := arm.l1_pos.ne'
  have h₂ : arm.l1 - arm.l2 ≠ 0 := (sub_pos.mpr arm.l2_lt).ne'
  have hc : cosineOf arm.l2 arm.l1 (arm.l1 - arm.l2) = 1 := by
    unfold cosineOf
    field_simp
    ring
  rw [shoulder, angleOf, hc, Real.arccos_one]

theorem elbow_inner (arm : TwoLink) : arm.elbow (arm.l1 - arm.l2) = 0 := by
  have h₁ := arm.l1_pos.ne'
  have h₂ := arm.l2_pos.ne'
  have hc : cosineOf (arm.l1 - arm.l2) arm.l1 arm.l2 = 1 := by
    unfold cosineOf
    field_simp
    ring
  rw [elbow, angleOf, hc, Real.arccos_one]

/-- The elbow opens with the reach. -/
theorem elbow_strictMonoOn (arm : TwoLink) : StrictMonoOn arm.elbow {r | arm.Reaches r} := by
  intro r hr r' hr' hlt
  have h₁ := arm.l1_pos
  have h₂ := arm.l2_pos
  have hpos := reaches_pos hr
  have hdefined : ∀ {r}, arm.Reaches r →
      -1 ≤ cosineOf r arm.l1 arm.l2 ∧ cosineOf r arm.l1 arm.l2 ≤ 1 := by
    intro r hr
    have hpos := reaches_pos hr
    obtain ⟨hlo, hhi⟩ := hr
    apply (cosineOf_defined_iff hpos h₁ h₂).mpr
    refine ⟨hhi, ?_, ?_⟩ <;> linarith [arm.l2_lt]
  have hcos : cosineOf r' arm.l1 arm.l2 < cosineOf r arm.l1 arm.l2 := by
    unfold cosineOf
    gcongr
  exact Real.arccos_lt_arccos (hdefined hr').1 hcos (hdefined hr).2

theorem shoulder_le_half_pi (arm : TwoLink) {r : ℝ} (hr : 0 < r) :
    arm.shoulder r ≤ Real.pi / 2 := by
  have h₁ := arm.l1_pos
  have hsq : arm.l2 ^ 2 ≤ arm.l1 ^ 2 := pow_le_pow_left₀ arm.l2_pos.le arm.l2_lt.le 2
  rw [shoulder, angleOf, Real.arccos_le_pi_div_two, cosineOf]
  apply div_nonneg
  · nlinarith [sq_nonneg r]
  · positivity

lemma cos_wrist (h : arm.Reaches r) :
    2 * arm.l2 * r * Real.cos (arm.wrist r) = r ^ 2 + arm.l2 ^ 2 - arm.l1 ^ 2 := by
  have hr := (reaches_pos h).ne'
  have h₂ := arm.l2_pos.ne'
  have hc : Real.cos (arm.wrist r) = cosineOf arm.l1 r arm.l2 := (triangle h).cos_angleB
  rw [hc, cosineOf]
  field_simp

lemma sin_wrist (h : arm.Reaches r) :
    2 * arm.l2 * r * Real.sin (arm.wrist r) =
      √(4 * r ^ 2 * arm.l2 ^ 2 - (r ^ 2 + arm.l2 ^ 2 - arm.l1 ^ 2) ^ 2) := by
  have hr := reaches_pos h
  have h₂ := arm.l2_pos
  have hs : 0 ≤ Real.sin (arm.wrist r) := (triangle h).sin_angleB_nonneg
  have hsq := Real.sin_sq_add_cos_sq (arm.wrist r)
  have he : 4 * r ^ 2 * arm.l2 ^ 2 - (r ^ 2 + arm.l2 ^ 2 - arm.l1 ^ 2) ^ 2 =
      (2 * arm.l2 * r * Real.sin (arm.wrist r)) ^ 2 := by
    rw [← cos_wrist h]
    linear_combination -(4 * r ^ 2 * arm.l2 ^ 2) * hsq
  rw [he, Real.sqrt_sq (by positivity)]

theorem sin_forearm (h : arm.Reaches r) (θ : ℝ) :
    2 * arm.l2 * r ^ 2 * Real.sin (arm.shoulder r + θ + arm.elbow r) =
      r * Real.cos θ * √(4 * r ^ 2 * arm.l2 ^ 2 - (r ^ 2 + arm.l2 ^ 2 - arm.l1 ^ 2) ^ 2) -
      r * Real.sin θ * (r ^ 2 + arm.l2 ^ 2 - arm.l1 ^ 2) := by
  rw [forearm_angle h, Real.sin_pi_sub, Real.sin_sub, ← sin_wrist h, ← cos_wrist h]
  ring

theorem planarDist_tip_le (arm : TwoLink) (t b t' b' : ℝ) :
    planarDist (arm.tip t b) (arm.tip t' b') ≤
      (arm.l1 + arm.l2) * |t - t'| + arm.l2 * |b - b'| := by
  have htip : ∀ t b, arm.tip t b = twoVectors arm.l1 (-arm.l2) t (t + b) := by
    intro t b
    ext <;> simp only [tip, twoVectors] <;> ring
  rw [htip, htip]
  refine (planarDist_twoVectors_le _ _ _ _ _ _).trans ?_
  have hsplit : |t + b - (t' + b')| ≤ |t - t'| + |b - b'| := by
    rw [add_sub_add_comm]
    exact abs_add_le _ _
  rw [abs_neg, abs_of_pos arm.l1_pos, abs_of_pos arm.l2_pos]
  have := mul_le_mul_of_nonneg_left hsplit arm.l2_pos.le
  linarith

end TwoLink
end Arm2D.Library

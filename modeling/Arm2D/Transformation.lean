import Arm2D.Numbers

/-! # Rotations of the plane

`JointTransformation` of transformations.h, and what its rotations compose to. -/
namespace Arm2D

variable {R : Type} [Field R] [Libm R]

def matrix2dTransform (M : Fin 4 → R) (p : R × R) : R × R :=
  (p.1 * M 0 + p.2 * M 1, p.1 * M 2 + p.2 * M 3)

def rotate2d (theta : R) (p : R × R) : R × R :=
  matrix2dTransform ![Libm.cos theta, -Libm.sin theta, Libm.sin theta, Libm.cos theta] p

/-- Coordinates in a frame of which `u` is the first axis. -/
def alongFrame (u p : R × R) : R × R := (p.1 * u.1 - p.2 * u.2, p.1 * u.2 + p.2 * u.1)

theorem rotate2d_eq (theta : R) (p : R × R) :
    rotate2d theta p = alongFrame (Libm.cos theta, Libm.sin theta) p := by
  ext <;> simp [rotate2d, matrix2dTransform, alongFrame, sub_eq_add_neg]

omit [Libm R] in
theorem alongFrame_add (u p q : R × R) :
    alongFrame u (p + q) = alongFrame u p + alongFrame u q := by
  ext
  · simp only [alongFrame, Prod.fst_add, Prod.snd_add]
    ring
  · simp only [alongFrame, Prod.fst_add, Prod.snd_add]
    ring

theorem rotate2d_rotate2d (a b : ℝ) (p : ℝ × ℝ) :
    rotate2d a (rotate2d b p) = rotate2d (a + b) p := by
  simp only [rotate2d_eq, alongFrame, libm_cos, libm_sin, Real.cos_add, Real.sin_add]
  ext
  · ring
  · ring

/-- The two coordinate changes of `target_to_arm`: three quarters of a turn are left of
the half turn and the quarter turn that the constants add. -/
theorem rotate2d_joints (t b : ℝ) (p : ℝ × ℝ) :
    rotate2d (-(PI / 2 - t)) (rotate2d (-(PI - b)) p) =
      alongFrame (-Real.sin (t + b), Real.cos (t + b)) p := by
  have hangle : -(PI / 2 - t) + -(PI - b) = t + b - Real.pi - Real.pi / 2 := by
    rw [pi_real]
    ring
  rw [rotate2d_rotate2d, hangle, rotate2d_eq, libm_cos, libm_sin, Real.cos_sub_pi_div_two,
    Real.sin_sub_pi, Real.sin_sub_pi_div_two, Real.cos_sub_pi, neg_neg]

end Arm2D

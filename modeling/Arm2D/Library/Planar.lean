import Mathlib

/-! # Triangles and points of the plane

General facts about the angles that the law of cosines gives for three side
lengths, and about the distance of two points reached by a pair of vectors.
Sides and angles are real numbers; no triangle of points is ever formed. -/
namespace Arm2D.Library

/-- The numeral two has one proof behind it, under a name, in all modules. -/
instance atLeastTwo_two : Nat.AtLeastTwo 2 := ⟨le_rfl⟩

/-- The cosine of the angle between `b` and `c` in a triangle with third side `a`. -/
noncomputable def cosineOf (a b c : ℝ) : ℝ := (b ^ 2 + c ^ 2 - a ^ 2) / (2 * b * c)

/-- The angle between `b` and `c`, opposite to `a`. -/
noncomputable def angleOf (a b c : ℝ) : ℝ := Real.arccos (cosineOf a b c)

theorem cosineOf_comm (a b c : ℝ) : cosineOf a b c = cosineOf a c b := by
  unfold cosineOf
  congr 1 <;> ring

theorem angleOf_comm (a b c : ℝ) : angleOf a b c = angleOf a c b := by
  rw [angleOf, cosineOf_comm, ← angleOf]

theorem cosineOf_le_one_iff {a b c : ℝ} (hb : 0 < b) (hc : 0 < c) :
    cosineOf a b c ≤ 1 ↔ (b - c) ^ 2 ≤ a ^ 2 := by
  have hbc : 0 < 2 * b * c := by positivity
  rw [cosineOf, div_le_one hbc]
  constructor <;> intro h <;> nlinarith

theorem neg_one_le_cosineOf_iff {a b c : ℝ} (hb : 0 < b) (hc : 0 < c) :
    -1 ≤ cosineOf a b c ↔ a ^ 2 ≤ (b + c) ^ 2 := by
  have hbc : 0 < 2 * b * c := by positivity
  rw [cosineOf, le_div_iff₀ hbc]
  constructor <;> intro h <;> nlinarith

/-- Numbers whose sizes are the sides of a (possibly flat) triangle. -/
def Closes (a b c : ℝ) : Prop := |a| ≤ |b| + |c| ∧ |b| ≤ |c| + |a| ∧ |c| ≤ |a| + |b|

theorem closes_rotate_iff {a b c : ℝ} : Closes a b c ↔ Closes b c a := by
  unfold Closes
  tauto

theorem closes_swap_iff {a b c : ℝ} : Closes a b c ↔ Closes b a c := by
  unfold Closes
  rw [add_comm |c| |a|, add_comm |b| |c|, add_comm |b| |a|]
  tauto

theorem closes_of_pos_iff {a b c : ℝ} (ha : 0 < a) (hb : 0 < b) (hc : 0 < c) :
    Closes a b c ↔ a ≤ b + c ∧ b ≤ c + a ∧ c ≤ a + b := by
  rw [Closes, abs_of_pos ha, abs_of_pos hb, abs_of_pos hc]

/-- The law of cosines has an angle for sides of either sign exactly when they close. -/
theorem cosineOf_mem_iff {a b c : ℝ} (hb : b ≠ 0) (hc : c ≠ 0) :
    (-1 ≤ cosineOf a b c ∧ cosineOf a b c ≤ 1) ↔ Closes a b c := by
  have hbc : 0 < |2 * b * c| := abs_pos.mpr (by positivity)
  have hden : |2 * b * c| = 2 * |b| * |c| := by rw [abs_mul, abs_mul, abs_two]
  have hlow : a ^ 2 ≤ (|b| + |c|) ^ 2 ↔ |a| ≤ |b| + |c| := by
    rw [sq_le_sq, abs_of_nonneg (by positivity : 0 ≤ |b| + |c|)]
  have hhigh : (|b| - |c|) ^ 2 ≤ a ^ 2 ↔ |b| ≤ |c| + |a| ∧ |c| ≤ |a| + |b| := by
    rw [sq_le_sq, abs_le]
    constructor
    · rintro ⟨h₁, h₂⟩
      exact ⟨by linarith, by linarith⟩
    · rintro ⟨h₁, h₂⟩
      exact ⟨by linarith, by linarith⟩
  have hsq : (-(2 * |b| * |c|) ≤ b ^ 2 + c ^ 2 - a ^ 2 ∧
      b ^ 2 + c ^ 2 - a ^ 2 ≤ 2 * |b| * |c|) ↔
      a ^ 2 ≤ (|b| + |c|) ^ 2 ∧ (|b| - |c|) ^ 2 ≤ a ^ 2 := by
    have h₁ := sq_abs b
    have h₂ := sq_abs c
    constructor
    · rintro ⟨h, h'⟩
      constructor <;> nlinarith
    · rintro ⟨h, h'⟩
      constructor <;> nlinarith
  rw [← abs_le, cosineOf, abs_div, div_le_one hbc, hden, abs_le, hsq, hlow, hhigh, Closes]

theorem cosineOf_defined_iff {a b c : ℝ} (ha : 0 < a) (hb : 0 < b) (hc : 0 < c) :
    (-1 ≤ cosineOf a b c ∧ cosineOf a b c ≤ 1) ↔ a ≤ b + c ∧ b ≤ c + a ∧ c ≤ a + b := by
  rw [cosineOf_mem_iff hb.ne' hc.ne', closes_of_pos_iff ha hb hc]

structure Triangle where
  a : ℝ
  b : ℝ
  c : ℝ
  a_pos : 0 < a
  b_pos : 0 < b
  c_pos : 0 < c
  a_le : a ≤ b + c
  b_le : b ≤ c + a
  c_le : c ≤ a + b

namespace Triangle

def rotate (T : Triangle) : Triangle :=
  ⟨T.b, T.c, T.a, T.b_pos, T.c_pos, T.a_pos, T.b_le, T.c_le, T.a_le⟩

noncomputable def angleA (T : Triangle) : ℝ := angleOf T.a T.b T.c
noncomputable def angleB (T : Triangle) : ℝ := angleOf T.b T.c T.a
noncomputable def angleC (T : Triangle) : ℝ := angleOf T.c T.a T.b

theorem cosineOf_le_one (T : Triangle) : cosineOf T.a T.b T.c ≤ 1 := by
  rw [cosineOf_le_one_iff T.b_pos T.c_pos]
  have h₁ := T.b_le
  have h₂ := T.c_le
  exact sq_le_sq' (by linarith) (by linarith)

theorem neg_one_le_cosineOf (T : Triangle) : -1 ≤ cosineOf T.a T.b T.c := by
  rw [neg_one_le_cosineOf_iff T.b_pos T.c_pos]
  have h₁ := T.a_pos
  have h₂ := T.a_le
  exact sq_le_sq' (by linarith) h₂

theorem cos_angleA (T : Triangle) : Real.cos T.angleA = cosineOf T.a T.b T.c :=
  Real.cos_arccos T.neg_one_le_cosineOf T.cosineOf_le_one

theorem cos_angleB (T : Triangle) : Real.cos T.angleB = cosineOf T.b T.c T.a :=
  T.rotate.cos_angleA

theorem sin_angleA_nonneg (T : Triangle) : 0 ≤ Real.sin T.angleA :=
  Real.sin_nonneg_of_nonneg_of_le_pi (Real.arccos_nonneg _) (Real.arccos_le_pi _)

theorem sin_angleB_nonneg (T : Triangle) : 0 ≤ Real.sin T.angleB :=
  T.rotate.sin_angleA_nonneg

/-- The foot of the altitude splits the side `c`. -/
theorem projection (T : Triangle) :
    T.b * Real.cos T.angleA + T.a * Real.cos T.angleB = T.c := by
  have ha := T.a_pos.ne'
  have hb := T.b_pos.ne'
  have hc := T.c_pos.ne'
  rw [cos_angleA, cos_angleB, cosineOf, cosineOf]
  field_simp
  ring

theorem altitude (T : Triangle) :
    T.b * Real.sin T.angleA = T.a * Real.sin T.angleB := by
  have hp := T.projection
  have hA := Real.sin_sq_add_cos_sq T.angleA
  have hB := Real.sin_sq_add_cos_sq T.angleB
  have hc := T.c_pos
  have hcos : 2 * T.c * (T.b * Real.cos T.angleA) = T.b ^ 2 + T.c ^ 2 - T.a ^ 2 := by
    have hb := T.b_pos.ne'
    rw [cos_angleA, cosineOf]
    field_simp
  have hsq : (T.b * Real.sin T.angleA) ^ 2 = (T.a * Real.sin T.angleB) ^ 2 := by
    have hy : T.a * Real.cos T.angleB = T.c - T.b * Real.cos T.angleA := by linarith
    have h₁ : (T.b * Real.sin T.angleA) ^ 2 = T.b ^ 2 - (T.b * Real.cos T.angleA) ^ 2 := by
      linear_combination T.b ^ 2 * hA
    have h₂ : (T.a * Real.sin T.angleB) ^ 2 = T.a ^ 2 - (T.a * Real.cos T.angleB) ^ 2 := by
      linear_combination T.a ^ 2 * hB
    rw [h₁, h₂, hy]
    linear_combination -hcos
  have h₁ := mul_nonneg T.b_pos.le T.sin_angleA_nonneg
  have h₂ := mul_nonneg T.a_pos.le T.sin_angleB_nonneg
  exact (sq_eq_sq₀ h₁ h₂).mp hsq

theorem angleA_le_pi_sub_angleB (T : Triangle) : T.angleA ≤ Real.pi - T.angleB := by
  have ha := T.a_pos
  have hb := T.b_pos
  have hc := T.c_pos
  have hsum : 0 ≤ cosineOf T.a T.b T.c + cosineOf T.b T.c T.a := by
    have he : cosineOf T.a T.b T.c + cosineOf T.b T.c T.a =
        (T.a + T.b) * (T.c ^ 2 - (T.a - T.b) ^ 2) / (2 * T.a * T.b * T.c) := by
      unfold cosineOf
      field_simp
      ring
    have h₁ := T.a_le
    have h₂ := T.b_le
    have hd : (T.a - T.b) ^ 2 ≤ T.c ^ 2 := sq_le_sq' (by linarith) (by linarith)
    rw [he]
    exact div_nonneg (mul_nonneg (by linarith) (by linarith)) (by positivity)
  rw [angleB, angleA, angleOf, angleOf, ← Real.arccos_neg]
  exact Real.arccos_le_arccos (by linarith)

theorem angle_sum (T : Triangle) : T.angleA + T.angleB + T.angleC = Real.pi := by
  have hle := T.angleA_le_pi_sub_angleB
  have hA : 0 ≤ T.angleA := Real.arccos_nonneg _
  have hB : 0 ≤ T.angleB := Real.arccos_nonneg _
  have hcos : Real.cos (Real.pi - (T.angleA + T.angleB)) = cosineOf T.c T.a T.b := by
    have hal := T.altitude
    have hsin := Real.sin_sq_add_cos_sq T.angleA
    have ha := T.a_pos.ne'
    have hb := T.b_pos.ne'
    have hc := T.c_pos.ne'
    have hsB : Real.sin T.angleB = T.b * Real.sin T.angleA / T.a := by
      field_simp
      linarith
    have hsA : Real.sin T.angleA ^ 2 = 1 - cosineOf T.a T.b T.c ^ 2 := by
      rw [← T.cos_angleA]
      linarith
    rw [Real.cos_pi_sub, Real.cos_add, hsB, T.cos_angleA, T.cos_angleB]
    have he : Real.sin T.angleA * (T.b * Real.sin T.angleA / T.a) =
        T.b * (1 - cosineOf T.a T.b T.c ^ 2) / T.a := by
      rw [← hsA]
      ring
    rw [he]
    unfold cosineOf
    field_simp
    ring
  have hC : T.angleC = Real.pi - (T.angleA + T.angleB) := by
    rw [angleC, angleOf, ← hcos, Real.arccos_cos (by linarith) (by linarith)]
  rw [hC]
  ring

end Triangle

noncomputable def planarDist (p q : ℝ × ℝ) : ℝ :=
  √((p.1 - q.1) ^ 2 + (p.2 - q.2) ^ 2)

def toComplex (p : ℝ × ℝ) : ℂ := ⟨p.1, p.2⟩

theorem planarDist_eq_norm (p q : ℝ × ℝ) : planarDist p q = ‖toComplex p - toComplex q‖ := by
  rw [Complex.norm_eq_sqrt_sq_add_sq]
  rfl

theorem planarDist_triangle (p q r : ℝ × ℝ) :
    planarDist p r ≤ planarDist p q + planarDist q r := by
  simp only [planarDist_eq_norm]
  exact norm_sub_le_norm_sub_add_norm_sub _ _ _

theorem planarDist_comm (p q : ℝ × ℝ) : planarDist p q = planarDist q p := by
  simp only [planarDist_eq_norm]
  exact norm_sub_rev _ _

theorem planarDist_nonneg (p q : ℝ × ℝ) : 0 ≤ planarDist p q := Real.sqrt_nonneg _

theorem planarDist_eq_zero {p q : ℝ × ℝ} : planarDist p q = 0 ↔ p = q := by
  rw [planarDist_eq_norm, norm_eq_zero, sub_eq_zero]
  constructor
  · intro h
    exact Prod.ext (congrArg Complex.re h) (congrArg Complex.im h)
  · rintro rfl
    rfl

theorem exp_mul_I_eq (t : ℝ) : Complex.exp (Complex.I * t) = ⟨Real.cos t, Real.sin t⟩ := by
  rw [mul_comm]
  apply Complex.ext
  · exact Complex.exp_ofReal_mul_I_re t
  · exact Complex.exp_ofReal_mul_I_im t

theorem norm_exp_sub_exp_le (s t : ℝ) :
    ‖Complex.exp (Complex.I * s) - Complex.exp (Complex.I * t)‖ ≤ |s - t| := by
  have he : Complex.exp (Complex.I * s) - Complex.exp (Complex.I * t) =
      Complex.exp (Complex.I * t) * (Complex.exp (Complex.I * (s - t : ℝ)) - 1) := by
    rw [mul_sub, ← Complex.exp_add, mul_one]
    congr 2
    push_cast
    ring
  rw [he, norm_mul, mul_comm Complex.I (t : ℂ), Complex.norm_exp_ofReal_mul_I, one_mul]
  exact Real.norm_exp_I_mul_ofReal_sub_one_le

/-- The end of a vector of length `m` at angle `t` followed by one of length `k` at `u`. -/
noncomputable def twoVectors (m k t u : ℝ) : ℝ × ℝ :=
  (m * Real.cos t + k * Real.cos u, m * Real.sin t + k * Real.sin u)

theorem toComplex_twoVectors (m k t u : ℝ) :
    toComplex (twoVectors m k t u) =
      m * Complex.exp (Complex.I * t) + k * Complex.exp (Complex.I * u) := by
  rw [exp_mul_I_eq, exp_mul_I_eq]
  apply Complex.ext <;> simp [toComplex, twoVectors]

theorem planarDist_twoVectors_le (m k t u t' u' : ℝ) :
    planarDist (twoVectors m k t u) (twoVectors m k t' u') ≤
      |m| * |t - t'| + |k| * |u - u'| := by
  rw [planarDist_eq_norm, toComplex_twoVectors, toComplex_twoVectors]
  have he : ((m : ℂ) * Complex.exp (Complex.I * t) + k * Complex.exp (Complex.I * u)) -
      (m * Complex.exp (Complex.I * t') + k * Complex.exp (Complex.I * u')) =
      m * (Complex.exp (Complex.I * t) - Complex.exp (Complex.I * t')) +
      k * (Complex.exp (Complex.I * u) - Complex.exp (Complex.I * u')) := by ring
  rw [he]
  refine (norm_add_le _ _).trans ?_
  rw [norm_mul, norm_mul, Complex.norm_real, Complex.norm_real, Real.norm_eq_abs,
    Real.norm_eq_abs]
  have h₁ := norm_exp_sub_exp_le t t'
  have h₂ := norm_exp_sub_exp_le u u'
  gcongr

end Arm2D.Library

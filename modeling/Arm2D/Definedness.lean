import Arm2D.InverseKinematics

/-! # Where the arc-cosines are defined

The calls that `set_target` makes, for any value of the constant `PI`: they are all
defined exactly when the second triangle case is not entered inside the inner disc. -/
namespace Arm2D
open Library

namespace ArmConfiguration

section calls
variable {R : Type} [Field R] [LinearOrder R] [FloorRing R] [Libm R] [PiConstant R]
variable {g : ArmParameters R}

omit [FloorRing R] in
theorem toCircular_log (c : ArmConfiguration g) :
    c.toCircular.log =
      if polarRadius c.targetX c.targetY = 0 then []
      else [.divide (polarRadius c.targetX c.targetY),
        .acos (c.targetX / polarRadius c.targetX c.targetY)] := by
  unfold toCircular polarRadius
  simp only [Logged.ite_log, Logged.bind_log, Logged.pure_log, quotient_val, quotient_log,
    acosOf_log]
  split_ifs <;> rfl

theorem setTargetLogged_log (c : ArmConfiguration g) (x y : R) :
    (c.setTargetLogged x y).log =
      ({ c with targetX := x, targetY := y } : ArmConfiguration g).toCircular.log ++
        if c.maxR - c.epsilon < clampedRadius c.startRadius x y then []
        else (c.aimed x y).solveTriangle.log := by
  unfold setTargetLogged
  simp only [Logged.bind_log, Logged.ite_log, Logged.pure_log, List.append_nil]
  rw [toCircular_val, clamp_eq_aimed]
  rfl

end calls

variable [PiConstant ℝ] {g : ArmParameters ℝ}

/-- `sides_to_angles` is defined exactly on the sides that close to a triangle. -/
theorem sidesToAngles_defined_iff {A B C : ℝ} :
    (sidesToAngles A B C).All MathCall.Defined ↔
      (A ≠ 0 ∧ B ≠ 0 ∧ C ≠ 0) ∧ Closes A B C := by
  unfold sidesToAngles
  simp only [Logged.all_bind, Logged.all_pure, quotient_val]
  simp only [Logged.All, quotient_log, acosOf_log, List.mem_singleton, forall_eq,
    MathCall.Defined, and_true]
  constructor
  · rintro ⟨hdiv, hA, hAC, hB, hBC⟩
    have hC : C ≠ 0 := right_ne_zero_of_mul hdiv
    rw [(sides_cosines hA hB hC).1, cosineOf_mem_iff hA hC] at hAC
    exact ⟨⟨hA, hB, hC⟩, closes_swap_iff.mp hAC⟩
  · rintro ⟨⟨hA, hB, hC⟩, hcloses⟩
    rw [(sides_cosines hA hB hC).1, (sides_cosines hA hB hC).2, cosineOf_mem_iff hA hC,
      cosineOf_mem_iff hB hC]
    exact ⟨mul_ne_zero two_ne_zero hC, hA, closes_swap_iff.mp hcloses, hB, hcloses⟩

theorem toCircular_defined (c : ArmConfiguration g) :
    ∀ call ∈ c.toCircular.log, call.Defined := by
  rw [toCircular_log]
  split_ifs with h
  · simp
  · simpa [MathCall.Defined] using And.intro h (polar_quotient h)

end ArmConfiguration

/-- The triangle of the links and the radius `r` is one that `set_target` solves: it folds
the arm, or the three sides close. -/
def ArmParameters.Solves (g : ArmParameters ℝ) (r : ℝ) : Prop :=
  (r ≤ g.link2 ∧ g.link2 + r ≤ g.link1) ∨
    ((g.link1 ≠ 0 ∧ g.link2 ≠ 0) ∧ Closes g.link1 g.link2 r)

theorem ArmParameters.solves_iff {g : ArmParameters ℝ} (h2 : 0 < g.link2)
    (h12 : g.link2 < g.link1) {r : ℝ} (hr : 0 < r) (hhi : r ≤ g.link1 + g.link2) :
    g.Solves r ↔ ¬ (g.link2 < r ∧ r < g.link1 - g.link2) := by
  have h1 : 0 < g.link1 := h2.trans h12
  rw [ArmParameters.Solves, closes_of_pos_iff h1 h2 hr]
  constructor
  · rintro (⟨hfold, -⟩ | ⟨-, hcloses, -⟩) ⟨hlo, hhi⟩
    · exact hfold.not_gt hlo
    · linarith
  · intro h
    by_cases hfold : r ≤ g.link2 ∧ g.link2 + r ≤ g.link1
    · exact Or.inl hfold
    · refine Or.inr ⟨⟨h1.ne', h2.ne'⟩, ?_, by linarith, hhi⟩
      by_contra hopen
      by_cases hlo : r ≤ g.link2
      · exact hfold ⟨hlo, by linarith⟩
      · exact h ⟨not_le.mp hlo, by linarith⟩

namespace ArmConfiguration
variable [PiConstant ℝ] {g : ArmParameters ℝ}

theorem solveTriangle_defined_iff {c : ArmConfiguration g} (hr : 0 < c.baseRadius) :
    c.solveTriangle.All MathCall.Defined ↔ g.Solves c.baseRadius := by
  unfold ArmParameters.Solves ArmParameters.link1 ArmParameters.link2
  unfold solveTriangle
  have hlast : Closes g.arm2Length c.baseRadius (g.arm1Length + g.canisterRadius) ↔
      Closes (g.arm1Length + g.canisterRadius) g.arm2Length c.baseRadius :=
    closes_rotate_iff.symm
  split_ifs with hA hB hC
  · rw [or_iff_right fun hfold => by linarith [hfold.1, hfold.2]]
    simp only [Logged.all_bind, Logged.all_pure, sidesToAngles_defined_iff, hr.ne', ne_eq,
      not_false_eq_true, and_true]
  · rw [or_iff_right fun hfold => hfold.1.not_gt hB]
    simp only [Logged.all_bind, Logged.all_pure, sidesToAngles_defined_iff, hlast, hr.ne', ne_eq,
      not_false_eq_true, true_and, and_comm]
  · simp only [Logged.all_pure, true_iff]
    exact Or.inl ⟨not_lt.mp hB, hC⟩
  · rw [or_iff_right fun hfold => hC hfold.2]
    simp only [Logged.all_bind, Logged.all_pure, sidesToAngles_defined_iff, hlast, hr.ne', ne_eq,
      not_false_eq_true, true_and, and_comm]

/-- The calls of `set_target` are defined exactly where the target is out of range or leads
to a triangle that is solved. -/
theorem setTarget_calls_defined_iff (c : ArmConfiguration g) (hs : 0 < c.startRadius)
    (x y : ℝ) :
    (c.setTargetLogged x y).All MathCall.Defined ↔
      (c.InRange x y → g.Solves (clampedRadius c.startRadius x y)) := by
  have hr : 0 < (c.aimed x y).baseRadius := by
    change 0 < clampedRadius c.startRadius x y
    rw [clampedRadius_eq_max]
    exact lt_max_of_lt_right hs
  have hcirc := toCircular_defined { c with targetX := x, targetY := y }
  have hsolve := solveTriangle_defined_iff hr
  rw [Logged.All, setTargetLogged_log, List.forall_mem_append]
  by_cases hhi : c.InRange x y
  · rw [if_neg hhi, imp_iff_right hhi, and_iff_right hcirc]
    exact hsolve
  · rw [if_pos (not_not.mp hhi)]
    refine iff_of_true ⟨hcirc, ?_⟩ fun h => absurd h hhi
    simp

/-- Every arc-cosine of `set_target` has an argument in [-1, 1] and every divisor is
nonzero exactly when the clamped radius is not in the second case inside the inner disc. -/
theorem setTarget_defined_iff (g : ArmParameters ℝ) (h2 : 0 < g.link2)
    (h12 : g.link2 < g.link1) (c : ArmConfiguration g) (hs : 0 < c.startRadius) (x y : ℝ) :
    let r := max (√(x ^ 2 + y ^ 2)) c.startRadius
    (∀ call ∈ (c.setTargetLogged x y).log, call.Defined) ↔
      ¬ (g.link2 < r ∧ r < g.link1 - g.link2 ∧ r ≤ g.link1 + g.link2 - 0.005) := by
  intro r
  have hr : 0 < r := lt_max_of_lt_right hs
  have hclamp : clampedRadius c.startRadius x y = r := by
    rw [clampedRadius_eq_max, polarRadius_real]
  have h := setTarget_calls_defined_iff c hs x y
  rw [inRange_iff, hclamp] at h
  refine h.trans ⟨fun hsolves => ?_, fun hnot hhi => ?_⟩
  · rintro ⟨hlo, hin, hhi⟩
    exact (ArmParameters.solves_iff h2 h12 hr (by linarith)).mp (hsolves hhi) ⟨hlo, hin⟩
  · exact (ArmParameters.solves_iff h2 h12 hr (by linarith)).mpr
      fun hbad => hnot ⟨hbad.1, hbad.2, hhi⟩

theorem setTarget_calls_defined (h2 : 0 < g.link2) (h12 : g.link2 < g.link1)
    (c : ArmConfiguration g) (hs : g.link1 - g.link2 ≤ c.startRadius) (x y : ℝ) :
    (c.setTargetLogged x y).All MathCall.Defined := by
  have hpos : 0 < c.startRadius := by linarith
  refine (setTarget_calls_defined_iff c hpos x y).mpr fun hrange => ?_
  rw [inRange_iff] at hrange
  have hlo : c.startRadius ≤ clampedRadius c.startRadius x y := by
    rw [clampedRadius_eq_max]
    exact le_max_right _ _
  exact (ArmParameters.solves_iff h2 h12 (hpos.trans_le hlo) (by linarith)).mpr
    fun hbad => by linarith [hbad.2]

end ArmConfiguration

section examples
open ArmConfiguration

/-- A forearm of five on an upper arm of 17.375: the start radius of eight of
parameters.ini and the target `(10,0)` lead to the arc-cosine of 1.306. -/
theorem setTarget_undefined_inside :
    let g : ArmParameters ℝ := ⟨5, 12.375, 5, 20000, 20000⟩
    let c := construct g 0 0 8 0
    0 < g.link2 ∧ g.link2 < g.link1 ∧ 0 < c.startRadius ∧
      ¬ ∀ call ∈ (c.setTargetLogged 10 0).log, call.Defined := by
  intro g c
  have h1 : g.link1 = 17.375 := by norm_num [g, ArmParameters.link1]
  have h2 : g.link2 = 5 := rfl
  have hs : c.startRadius = 8 := rfl
  have hr : clampedRadius c.startRadius 10 0 = 10 := by
    rw [clampedRadius_eq_max, polarRadius_axis (by norm_num), hs]
    norm_num
  have h12 : g.link2 < g.link1 := by norm_num [h1, h2]
  refine ⟨by norm_num [h2], h12, by norm_num [hs], fun hdefined => ?_⟩
  have hsolves := (setTarget_calls_defined_iff c (by norm_num [hs]) 10 0).mp hdefined
    ((inRange_iff c 10 0).mpr (by norm_num [hr, h1, h2]))
  rw [hr, ArmParameters.solves_iff (by norm_num [h2]) h12 (by norm_num) (by norm_num [h1, h2]),
    h1, h2] at hsolves
  norm_num at hsolves

theorem setTarget_defined_default :
    let g : ArmParameters ℝ := ⟨5, 12.375, 10, 20000, 20000⟩
    ∀ call ∈ ((construct g 0 0 8 0).setTargetLogged 10 0).log, call.Defined := by
  intro g
  have h1 : g.link1 = 17.375 := by norm_num [g, ArmParameters.link1]
  have h2 : g.link2 = 10 := rfl
  have hs : (construct g 0 0 8 0).startRadius = 8 := rfl
  refine (setTarget_defined_iff g (by norm_num [h2]) (by norm_num [h1, h2])
    (construct g 0 0 8 0) (by norm_num [hs]) 10 0).mpr ?_
  rw [← polarRadius_real, polarRadius_axis (by norm_num), hs, h1, h2]
  norm_num

end examples
end Arm2D

import Arm2D.Definedness
import Arm2D.Library.Runs

/-! # Angles and step counts over runs

`set_target` returns in the middle of its update when the target is out of range: the
direction of the target is already written, the step counts are reset, and the other
two angles are those of the position before. -/
namespace Arm2D
open Library

namespace ArmConfiguration

section steps
variable [PiConstant ℝ] {g : ArmParameters ℝ}

def StepsAgree (c : ArmConfiguration g) : Prop :=
  c.canisterCurrentSteps = -⌊c.baseAngle * g.canisterStep / twoPi⌋ ∧
    c.elbowCurrentSteps = -⌊c.elbowAngle * g.elbowStep / twoPi⌋

/-- A call of `set_target`, as a step of a run. -/
noncomputable def targetStep (c : ArmConfiguration g) (p : ℝ × ℝ) : ArmConfiguration g :=
  c.setTarget p.1 p.2

/-- The arm is folded to within a step, and stays so when it turns to the target. -/
def FoldedTowards (c : ArmConfiguration g) (x y : ℝ) : Prop :=
  (0 ≤ (c.alpha + polarAngle x y) * g.canisterStep / twoPi ∧
    (c.alpha + polarAngle x y) * g.canisterStep / twoPi < 1) ∧
  (0 ≤ c.beta * g.elbowStep / twoPi ∧ c.beta * g.elbowStep / twoPi < 1)

theorem stepsAgree_of_steps (c : ArmConfiguration g) :
    c.canisterSteps.elbowSteps.StepsAgree := by
  constructor
  · change -⌊(c.alpha + c.theta) * c.canisterDelta⌋ =
      -⌊(c.alpha + c.theta) * g.canisterStep / twoPi⌋
    rw [c.canisterDelta_eq, mul_div_assoc]
  · change -⌊c.beta * c.elbowDelta⌋ = -⌊c.beta * g.elbowStep / twoPi⌋
    rw [c.elbowDelta_eq, mul_div_assoc]

theorem setTarget_agrees {c : ArmConfiguration g} {x y : ℝ} (h : c.InRange x y) :
    (c.setTarget x y).StepsAgree := by
  rw [setTarget_inRange h]
  exact stepsAgree_of_steps _

theorem setTarget_outOfRange_agrees_iff {c : ArmConfiguration g} {x y : ℝ}
    (h : ¬ c.InRange x y) : (c.setTarget x y).StepsAgree ↔ c.FoldedTowards x y := by
  have hzero : ∀ z : ℝ, (0 : ℤ) = -⌊z⌋ ↔ 0 ≤ z ∧ z < 1 := by
    intro z
    rw [eq_comm, neg_eq_zero, Int.floor_eq_zero_iff, Set.mem_Ico]
  rw [setTarget_outOfRange h]
  exact and_congr (hzero _) (hzero _)

theorem targetStep_startRadius (c : ArmConfiguration g) (s : ℝ) (targets : List (ℝ × ℝ)) :
    (targets.foldl targetStep (c.setMininumRadius s)).startRadius = s := by
  have hstart := setMininumRadius_startRadius c s
  refine @always_of_step _ _ targetStep (fun c => c.startRadius = s) (fun c p h => ?_) _ hstart
    targets targets List.prefix_rfl
  rw [targetStep, setTarget_startRadius, h]

theorem setMininumRadius_agrees (c : ArmConfiguration g) {s : ℝ} (hs : 0 < s)
    (hin : s ≤ g.link1 + g.link2 - 0.005) : (c.setMininumRadius s).StepsAgree := by
  have hr : clampedRadius s s 0 = s := by
    rw [clampedRadius_eq_max, polarRadius_axis hs.le, max_self]
  have hrange : ({ c with startRadius := s, startAngle := 0 } :
      ArmConfiguration g).InRange s 0 := by
    rw [inRange_iff]
    exact hr.trans_le hin
  exact setTarget_agrees hrange

noncomputable def loggedStep (run : Logged (MathCall ℝ) (ArmConfiguration g)) (p : ℝ × ℝ) :
    Logged (MathCall ℝ) (ArmConfiguration g) :=
  run >>= fun c => c.setTargetLogged p.1 p.2

/-- Every arc-cosine and quotient so far was defined, so that the fields hold numbers, and
the angles are those of the step counts. -/
def Sound (run : Logged (MathCall ℝ) (ArmConfiguration g)) : Prop :=
  run.All MathCall.Defined ∧ run.val.StepsAgree

theorem loggedStep_val (run : Logged (MathCall ℝ) (ArmConfiguration g))
    (targets : List (ℝ × ℝ)) :
    (targets.foldl loggedStep run).val = targets.foldl targetStep run.val := by
  induction targets generalizing run with
  | nil => rfl
  | cons p targets ih => exact ih _

/-- The call that leaves a sound run sound: in range the triangle is solved, out of range
the arm was folded. -/
def SoundStep (s : ℝ) (c : ArmConfiguration g) (p : ℝ × ℝ) : Prop :=
  let r := max (√(p.1 ^ 2 + p.2 ^ 2)) s
  (r ≤ g.link1 + g.link2 - 0.005 ∧ g.Solves r) ∨
    (g.link1 + g.link2 - 0.005 < r ∧ c.FoldedTowards p.1 p.2)

theorem loggedStep_sound_iff {run : Logged (MathCall ℝ) (ArmConfiguration g)} {s : ℝ}
    (hs : 0 < s) (hradius : run.val.startRadius = s) (hrun : run.All MathCall.Defined)
    (p : ℝ × ℝ) : Sound (loggedStep run p) ↔ SoundStep s run.val p := by
  have hclamp : clampedRadius run.val.startRadius p.1 p.2 = max (√(p.1 ^ 2 + p.2 ^ 2)) s := by
    rw [clampedRadius_eq_max, polarRadius_real, hradius]
  have hin := inRange_iff run.val p.1 p.2
  have hlog := setTarget_calls_defined_iff run.val (hs.trans_eq hradius.symm) p.1 p.2
  rw [hclamp] at hin hlog
  rw [Sound, SoundStep, ← hin, ← not_le, ← hin, loggedStep, Logged.all_bind, and_iff_right hrun,
    Logged.bind_val, hlog]
  change _ ∧ (run.val.setTarget p.1 p.2).StepsAgree ↔ _
  by_cases h : run.val.InRange p.1 p.2
  · simp only [h, setTarget_agrees h, forall_const, and_true, true_and, not_true_eq_false,
      false_and, or_false]
  · simp only [h, setTarget_outOfRange_agrees_iff h, false_implies, true_and, false_and,
      not_false_eq_true, false_or]

theorem setMininumRadius_sound_iff (c : ArmConfiguration g) {s : ℝ} (hs : 0 < s)
    (hin : s ≤ g.link1 + g.link2 - 0.005) :
    Sound (c.setMininumRadiusLogged s) ↔ g.Solves s := by
  have hr : clampedRadius s s 0 = s := by
    rw [clampedRadius_eq_max, polarRadius_axis hs.le, max_self]
  have hcalls := setTarget_calls_defined_iff
    ({ c with startRadius := s, startAngle := 0 } : ArmConfiguration g) hs s 0
  rw [inRange_iff, hr, imp_iff_right hin] at hcalls
  have hlog : (c.setMininumRadiusLogged s).All MathCall.Defined ↔ g.Solves s := by
    rw [setMininumRadiusLogged, Logged.all_bind, hcalls]
    exact and_iff_left (Logged.all_pure _ _)
  rw [Sound, hlog]
  exact and_iff_left (setMininumRadius_agrees c hs hin)

end steps

theorem setMininumRadius_right_angle :
    let g : ArmParameters ℝ := ⟨1, 3, 3, 20000, 20000⟩
    let c := (construct g 0 0 0 0).setMininumRadius 5
    c.elbowAngle = Real.pi / 2 ∧ c.elbowCurrentSteps = -5000 := by
  intro g c
  have h1 : g.link1 = 4 := by norm_num [g, ArmParameters.link1]
  have h2 : g.link2 = 3 := rfl
  have hr : clampedRadius 5 5 (0 : ℝ) = 5 := by
    rw [clampedRadius_eq_max, polarRadius_axis (by norm_num), max_self]
  have hangle : c.elbowAngle = Real.pi / 2 := by
    have helbow := setTarget_elbowAngle (by norm_num [h2]) (by norm_num [h1, h2])
      ({ construct g 0 0 0 0 with startRadius := 5, startAngle := 0 } : ArmConfiguration g) 5 0
      (by norm_num [h1, h2, hr]) (by norm_num [h1, h2, hr])
    refine helbow.trans ?_
    rw [TwoLink.elbow, angleOf, cosineOf, arm_l1, arm_l2, h1, h2, hr]
    norm_num
  have hagree := (setMininumRadius_agrees (construct g 0 0 0 0) (s := 5) (by norm_num)
    (by norm_num [h1, h2])).2
  have hquarter : Real.pi / 2 * (g.elbowStep : ℝ) / twoPi = ((5000 : ℤ) : ℝ) := by
    have hn : (g.elbowStep : ℝ) = 20000 := by norm_num [g]
    have hpi := Real.pi_pos
    rw [hn, twoPi, pi_real]
    field_simp
    norm_num
  change c.elbowCurrentSteps = -⌊c.elbowAngle * g.elbowStep / twoPi⌋ at hagree
  rw [hangle, hquarter, Int.floor_intCast] at hagree
  exact ⟨hangle, hagree⟩

end ArmConfiguration
end Arm2D

import Arm2D.StepCounts

/-! # Relative steps over runs

`canister_relative_steps` and `elbow_relative_steps` are the differences to the counts before
the last call. A call out of range resets the counts and leaves the counts before the last
call as they are, so that what it should report is off by what the call before it reported. -/
namespace Arm2D
open Library

variable {g : ArmParameters ℝ}

namespace ArmConfiguration

theorem targetStep_prevSteps (c : ArmConfiguration g) (p : ℝ × ℝ) :
    (c.InRange p.1 p.2 ∧ (c.targetStep p).canisterPrevSteps = c.canisterCurrentSteps ∧
      (c.targetStep p).elbowPrevSteps = c.elbowCurrentSteps) ∨
    (¬ c.InRange p.1 p.2 ∧ (c.targetStep p).canisterPrevSteps = c.canisterPrevSteps ∧
      (c.targetStep p).elbowPrevSteps = c.elbowPrevSteps) := by
  by_cases h : c.InRange p.1 p.2
  · obtain ⟨a, b, hangles⟩ := (c.aimed p.1 p.2).solveTriangle_val
    rw [targetStep, setTarget_inRange h, hangles]
    exact .inl ⟨h, rfl, rfl⟩
  · rw [targetStep, setTarget_outOfRange h]
    exact .inr ⟨h, rfl, rfl⟩

/-- The call is in range, or the one before it moved neither motor. -/
def KeepsSum (c : ArmConfiguration g) (p : ℝ × ℝ) : Prop :=
  c.InRange p.1 p.2 ∨ c.canisterRelativeSteps = 0 ∧ c.elbowRelativeSteps = 0

end ArmConfiguration

/-- The arm, and the sums of the relative steps that were read after each call. -/
structure StepSums (g : ArmParameters ℝ) where
  arm : ArmConfiguration g
  canister : ℤ
  elbow : ℤ

namespace StepSums
open ArmConfiguration

noncomputable def call (s : StepSums g) (p : ℝ × ℝ) : StepSums g :=
  let arm := s.arm.targetStep p
  ⟨arm, s.canister + arm.canisterRelativeSteps, s.elbow + arm.elbowRelativeSteps⟩

def AddUp (start : ArmConfiguration g) (s : StepSums g) : Prop :=
  s.canister = s.arm.canisterCurrentSteps - start.canisterCurrentSteps ∧
    s.elbow = s.arm.elbowCurrentSteps - start.elbowCurrentSteps

theorem foldl_call_arm (s : StepSums g) (targets : List (ℝ × ℝ)) :
    (targets.foldl call s).arm = targets.foldl targetStep s.arm :=
  (List.foldl_hom StepSums.arm fun _ _ => rfl).symm

theorem call_addUp_iff {start : ArmConfiguration g} {s : StepSums g} (h : s.AddUp start)
    (p : ℝ × ℝ) : (s.call p).AddUp start ↔ s.arm.KeepsSum p := by
  obtain ⟨hcanister, helbow⟩ := h
  unfold AddUp call KeepsSum canisterRelativeSteps elbowRelativeSteps
  rcases s.arm.targetStep_prevSteps p with ⟨hin, hc, he⟩ | ⟨hout, hc, he⟩
  · refine iff_of_true ?_ (.inl hin)
    constructor <;> dsimp only <;> omega
  · rw [or_iff_right hout]
    dsimp only
    omega

end StepSums

open ArmConfiguration in
/-- After every call of a sequence the relative steps have added up exactly when each call is
in range or finds both motors where the call before had left them. -/
theorem relativeSteps_addUp_iff (c : ArmConfiguration g) (radius : ℝ) (targets : List (ℝ × ℝ)) :
    let start := c.setMininumRadius radius
    (∀ called, called <+: targets → (called.foldl StepSums.call ⟨start, 0, 0⟩).AddUp start) ↔
      ∀ called p, called ++ [p] <+: targets → (called.foldl targetStep start).KeepsSum p := by
  intro start
  have hstart : (⟨start, 0, 0⟩ : StepSums g).AddUp start := by
    constructor <;> simp
  have hstep : ∀ (s : StepSums g) p, s.AddUp start →
      ((s.call p).AddUp start ↔ s.arm.KeepsSum p) := fun _ p hs => StepSums.call_addUp_iff hs p
  have h := always_iff_eachStep (P := StepSums.AddUp start) hstep hstart targets
  unfold EachStep at h
  simp only [StepSums.foldl_call_arm] at h
  exact h

theorem relativeSteps_lost :
    let g : ArmParameters ℝ := ⟨1, 3, 3, 20000, 20000⟩
    let start := (ArmConfiguration.construct g 0 0 0 0).setMininumRadius 5
    let arm := start.setTarget 100 0
    start.elbowCurrentSteps = -5000 ∧ arm.elbowCurrentSteps = 0 ∧
      arm.elbowRelativeSteps = 0 ∧
      ¬ ([(100, 0)].foldl StepSums.call ⟨start, 0, 0⟩).AddUp start := by
  intro g start arm
  have h1 : g.link1 = 4 := by norm_num [g, ArmParameters.link1]
  have h2 : g.link2 = 3 := rfl
  have hsteps : start.elbowCurrentSteps = -5000 :=
    ArmConfiguration.setMininumRadius_right_angle.2
  have hs : start.startRadius = 5 := ArmConfiguration.setTarget_startRadius _ _ _
  have hout : ¬ start.InRange 100 0 := by
    rw [start.inRange_iff, clampedRadius_eq_max, polarRadius_axis (by norm_num), hs, h1, h2]
    norm_num
  have hcurrent : arm.elbowCurrentSteps = 0 := by
    simp only [arm]
    rw [ArmConfiguration.setTarget_outOfRange hout]
    rfl
  have hprev : start.elbowPrevSteps = 0 := by
    rcases ({ ArmConfiguration.construct g 0 0 0 0 with startRadius := 5, startAngle := 0 } :
      ArmConfiguration g).targetStep_prevSteps (5, 0) with ⟨-, -, h⟩ | ⟨-, -, h⟩ <;> exact h
  have hrelative : arm.elbowRelativeSteps = 0 := by
    rcases start.targetStep_prevSteps (100, 0) with ⟨hin, -, -⟩ | ⟨-, -, h⟩
    · exact absurd hin hout
    · rw [ArmConfiguration.elbowRelativeSteps, hcurrent, sub_eq_zero]
      exact (h.trans hprev).symm
  refine ⟨hsteps, hcurrent, hrelative, fun h => ?_⟩
  have hsum : 0 + arm.elbowRelativeSteps = arm.elbowCurrentSteps - start.elbowCurrentSteps := h.2
  rw [hrelative, hcurrent, hsteps] at hsum
  norm_num at hsum

end Arm2D

import Arm2D.StepCounts
import Arm2D.SweepCoverage

/-! # The elbow in a sweep

`elbow_current_steps` counts downwards while the elbow opens, as the drives do. The sweep
takes this count for a number of steps to open from and turns its sign once more. -/
namespace Arm2D
open Library

variable {R : Type} [Field R] [LinearOrder R] [FloorRing R] [PiConstant R]
variable {g : ArmParameters R}

namespace SweepPlan

/-- The rings begin at the position `steps` of the elbow and lead away from zero. -/
structure OpensFrom (plan : SweepPlan R) (steps : ℤ) : Prop where
  start : plan.elbowSteps 0 = steps
  away : ∀ i : ℕ, ((i + 1 : ℕ) : ℤ) < plan.n → |plan.elbowSteps i| ≤ |plan.elbowSteps (i + 1)|
  same_sign : ∀ i j : ℕ, (i : ℤ) < plan.n → (j : ℤ) < plan.n →
    0 ≤ plan.elbowSteps i * plan.elbowSteps j

end SweepPlan

namespace ScanState

/-- The commands of the second drive in a sweep without a hit: to zero, and once for each
ring. -/
theorem rotationSweep_elbow {w : Surroundings} {s s' : ScanState g} {plan : SweepPlan R}
    (hplan : sweepPlan w s.system.armConstruct = some plan) (hends : plan.Ends) {fuel : ℕ}
    (h : s.rotationSweep w fuel = some (none, s')) :
    (s'.commanded.drop s.commanded.length).filter (fun command => command.1 = 2) =
      (2, 0) :: (List.range plan.n.toNat).map fun i => (2, plan.elbowSteps i) := by
  obtain ⟨N, hN⟩ := sweepPlan_even hplan
  rw [← missed_eq_some, rotationSweep_motions hplan hN (Or.inr hends)] at h
  split_ifs at h
  have hring : ∀ i, ((2, plan.elbowSteps i) ::
      (plan.basePositions i).map fun p => ((1 : ℕ), p)).filter (fun command => command.1 = 2) =
        [(2, plan.elbowSteps i)] := by
    intro i
    simp
  have hcleared : (s.cleared w).commanded = s.commanded := rfl
  rw [(run_follows h).commanded, hcleared, List.drop_left, map_command_motions,
    List.filter_append, List.filter_flatMap]
  simp only [hring, ← List.map_eq_flatMap]
  simp

theorem sweepPlan_elbow {w : Surroundings} {arm : ArmConfiguration g} {plan : SweepPlan R}
    (hplan : sweepPlan w arm = some plan) :
    plan.elbowStart = arm.elbowCurrentSteps ∧
      plan.extendDelta = (g.elbowStep - arm.elbowCurrentSteps) / (2 * plan.n) := by
  unfold sweepPlan at hplan
  dsimp only at hplan
  split_ifs at hplan
  cases hplan
  exact ⟨rfl, rfl⟩

section opens
variable [IsStrictOrderedRing R]

omit [PiConstant R] in
theorem elbowSteps_zero (plan : SweepPlan R) {k : ℤ} (h : plan.elbowStart = k) :
    plan.elbowSteps 0 = -k := by
  have hcast : -(((0 : ℕ) : R) * plan.extendDelta + k) = ((-k : ℤ) : R) := by
    push_cast
    ring
  rw [SweepPlan.elbowSteps, h, hcast, truncate_intCast]

omit [PiConstant R] in
theorem opensFrom_zero {plan : SweepPlan R} (hstart : plan.elbowStart = 0)
    (hdelta : 0 ≤ plan.extendDelta) : plan.OpensFrom 0 := by
  have hsteps : ∀ i, plan.elbowSteps i = -⌊i * plan.extendDelta⌋ := by
    intro i
    rw [SweepPlan.elbowSteps, hstart, add_zero, truncate_neg (by positivity)]
  have hnonneg : ∀ i : ℕ, 0 ≤ ⌊i * plan.extendDelta⌋ :=
    fun i => Int.floor_nonneg.mpr (by positivity)
  constructor
  · simp [hsteps]
  · intro i _
    rw [hsteps, hsteps, abs_neg, abs_neg, abs_of_nonneg (hnonneg _), abs_of_nonneg (hnonneg _)]
    gcongr
    omega
  · intro i j _ _
    rw [hsteps, hsteps, neg_mul_neg]
    exact mul_nonneg (hnonneg i) (hnonneg j)

/-- The rings open the elbow from where it is exactly when its count is zero; and the rings
are what a sweep without a hit commands the elbow to. -/
theorem elbow_opens_iff {w : Surroundings} {arm : ArmConfiguration g} {plan : SweepPlan R}
    (hplan : sweepPlan w arm = some plan) (hn : 1 ≤ plan.n) :
    (plan.OpensFrom arm.elbowCurrentSteps ↔ arm.elbowCurrentSteps = 0) ∧
    ∀ (s s' : ScanState g) (fuel : ℕ), s.system.armConstruct = arm → plan.Ends →
      s.rotationSweep w fuel = some (none, s') →
      (s'.commanded.drop s.commanded.length).filter (fun command => command.1 = 2) =
        (2, 0) :: (List.range plan.n.toNat).map fun i => (2, plan.elbowSteps i) := by
  obtain ⟨hstart, hdelta⟩ := sweepPlan_elbow hplan
  refine ⟨⟨fun hopens => ?_, fun hzero => ?_⟩, fun s s' fuel harm hends h => ?_⟩
  · have hzero := hopens.start
    rw [elbowSteps_zero plan hstart] at hzero
    omega
  · rw [hzero, Int.cast_zero] at hstart
    rw [hzero, Int.cast_zero, sub_zero] at hdelta
    have hpos : (0 : R) < plan.n := by exact_mod_cast hn
    rw [hzero]
    apply opensFrom_zero hstart
    rw [hdelta]
    positivity
  · rw [← harm] at hplan
    exact rotationSweep_elbow hplan hends h

end opens

theorem elbow_opens_emptyField :
    let plan : SweepPlan ℝ := ⟨4, 5000, 500, 2500, 0⟩
    plan.OpensFrom simulatedArm.system.armConstruct.elbowCurrentSteps ∧
      ∃ s', simulatedArm.rotationSweep emptyField 30 = some (none, s') ∧
        s'.commanded.filter (fun command => command.1 = 2) =
          (2, 0) :: (List.range 4).map fun i => (2, plan.elbowSteps i) := by
  intro plan
  obtain ⟨s', hs', -⟩ := rotationSweep_returns sweepPlan_emptyField (by norm_num) (by norm_num)
    (undisturbed_simulated emptyField 30) (Drives.simulated_allocate (by norm_num) _)
    (by decide) (by decide)
  obtain ⟨hopens, hcommands⟩ := elbow_opens_iff sweepPlan_emptyField (by norm_num)
  exact ⟨hopens.mpr rfl, s', hs',
    hcommands simulatedArm s' 30 rfl (Or.inl ⟨by norm_num, by norm_num⟩) hs'⟩

theorem elbow_opens_backwards :
    let g : ArmParameters ℝ := ⟨1, 3, 3, 20000, 20000⟩
    let arm := (ArmConfiguration.construct g 0 0 0 0).setMininumRadius 5
    arm.elbowCurrentSteps = -5000 ∧
    ∃ plan, sweepPlan emptyField arm = some plan ∧ plan.n = 4 ∧ plan.elbowSteps 0 = 5000 ∧
      plan.elbowSteps 1 = 1875 ∧ ¬ plan.OpensFrom arm.elbowCurrentSteps := by
  intro g arm
  have hsteps : arm.elbowCurrentSteps = -5000 := ArmConfiguration.setMininumRadius_right_angle.2
  obtain ⟨hfactor, hparts, hbase⟩ := emptyField_numbers
  have hbase' : emptyField.baseSteps g = 5000 := hbase
  have hmax : arm.maxR = 7 := by
    rw [arm.maxR_eq]
    norm_num [g]
  have hstart : arm.startRadius = 5 := ArmConfiguration.setTarget_startRadius _ _ _
  have hradius : arm.maxR - arm.startRadius = ((2 : ℤ) : ℝ) := by
    rw [hmax, hstart]
    norm_num
  have hplan : sweepPlan emptyField arm = some ⟨4, 5000, 500, 3125, -5000⟩ := by
    have hdelta : (5000 : ℤ).tdiv 10 = 500 := rfl
    rw [sweepPlan, hfactor, hparts, hbase', hradius, hsteps, truncate_intCast, hdelta]
    norm_num [g]
  have hzero : (⟨4, 5000, 500, 3125, -5000⟩ : SweepPlan ℝ).elbowSteps 0 = 5000 :=
    elbowSteps_zero _ (k := -5000) (by norm_num)
  have hone : (⟨4, 5000, 500, 3125, -5000⟩ : SweepPlan ℝ).elbowSteps 1 = 1875 := by
    have hcast : -(((1 : ℕ) : ℝ) * 3125 + -5000) = ((1875 : ℤ) : ℝ) := by norm_num
    rw [SweepPlan.elbowSteps, hcast, truncate_intCast]
  refine ⟨hsteps, _, hplan, rfl, hzero, hone, fun hopens => ?_⟩
  have hsame := hopens.start
  rw [hzero, hsteps] at hsame
  norm_num at hsame

end ScanState
end Arm2D

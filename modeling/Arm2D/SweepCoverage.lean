import Arm2D.Library.Runs
import Arm2D.SweepArc
import Arm2D.SweepMotions

/-! # What the sweep covers

Where nothing is acquired the nested loops go through a fixed list of motions: on each ring
the base is swept over the whole arc, down and up in turn. -/
namespace Arm2D
open Library

variable {R : Type} [Field R] [LinearOrder R] [FloorRing R] [PiConstant R]
variable {g : ArmParameters R}

namespace SweepPlan

def ring (plan : SweepPlan R) (i : ℕ) : List SweepMotion :=
  .stepper 2 (plan.elbowSteps i) :: (plan.basePositions i).map .acquire

def motions (plan : SweepPlan R) : List SweepMotion :=
  .stepper 1 0 :: .stepper 2 0 :: .stepper 1 plan.baseSteps ::
    (List.range plan.n.toNat).flatMap plan.ring

end SweepPlan

namespace ScanState

theorem sweepLoop_missed (w : Surroundings) (fuel : ℕ) {more : ℤ → Bool} {delta : ℤ} {k : ℕ}
    (passes : ℕ) {p : ℤ} (hmore : ∀ j < k, more (p + j * delta) = true)
    (hstop : more (p + k * delta) = false) (s : ScanState g) :
    missed (s.sweepLoop w fuel more delta passes p) =
      if k < passes then
        (((arc p delta k).map .acquire).foldlM (perform w fuel) s).map fun s =>
          (p + k * delta, s)
      else none := by
  induction k generalizing passes p s with
  | zero =>
    have hend : more p = false := by simpa using hstop
    cases passes with
    | zero => rfl
    | succ passes => simp [sweepLoop, hend, arc]
  | succ k ih =>
    have hnow : more p = true := by simpa using hmore 0 (by omega)
    have hshift : ∀ j : ℕ, p + delta + j * delta = p + (j + 1 : ℕ) * delta := by
      intro j
      push_cast
      ring
    cases passes with
    | zero => rfl
    | succ passes =>
      rw [sweepLoop_succ w fuel delta passes hnow, arc_succ, List.map_cons, List.foldlM_cons]
      have hrest := fun s => ih passes (p := p + delta)
        (fun j hj => by rw [hshift]; exact hmore (j + 1) (by omega))
        (by rw [hshift]; exact hstop) s
      simp only [hrest, hshift, Nat.add_lt_add_iff_right]
      cases perform w fuel s (.acquire (p + delta)) with
      | none => simp
      | some s' => rfl

section plan
variable {plan : SweepPlan R}

theorem sweepDown_missed (hends : plan.Ends) (w : Surroundings) (fuel : ℕ) (s : ScanState g) :
    missed (s.sweepDown w fuel plan.baseSteps plan.baseStepsDelta plan.baseSteps) =
      if plan.passes < fuel then
        (((arc plan.baseSteps (-plan.baseStepsDelta) plan.passes).map .acquire).foldlM
          (perform w fuel) s).map fun s => (plan.farEnd, s)
      else none := by
  have hafter := hends.after
  rw [SweepPlan.farEnd_eq]
  apply sweepLoop_missed
  · intro j hj
    obtain ⟨-, hbefore⟩ := hends.before hj
    rw [decide_eq_true_eq]
    linarith
  · rw [decide_eq_false_iff_not]
    linarith

theorem sweepUp_missed (hends : plan.Ends) (w : Surroundings) (fuel : ℕ) (s : ScanState g) :
    missed (s.sweepUp w fuel plan.baseSteps plan.baseStepsDelta plan.farEnd) =
      if plan.passes < fuel then
        (((arc plan.farEnd plan.baseStepsDelta plan.passes).map .acquire).foldlM
          (perform w fuel) s).map fun s => (plan.baseSteps, s)
      else none := by
  have hback : plan.baseSteps = plan.farEnd + plan.passes * plan.baseStepsDelta := by
    rw [SweepPlan.farEnd]
    ring
  let more : ℤ → Bool := fun stepPos => stepPos < plan.baseSteps
  have hmore : ∀ j < plan.passes, more (plan.farEnd + j * plan.baseStepsDelta) = true := by
    intro j hj
    have hlt : (j : ℤ) * plan.baseStepsDelta < plan.passes * plan.baseStepsDelta :=
      mul_lt_mul_of_pos_right (by omega) (hends.before hj).1
    rw [decide_eq_true_eq]
    linarith
  have hstop : more (plan.farEnd + plan.passes * plan.baseStepsDelta) = false := by
    rw [decide_eq_false_iff_not]
    linarith
  have hloop := sweepLoop_missed w fuel fuel hmore hstop s
  rw [← hback] at hloop
  exact hloop

theorem ring_down (hends : plan.Ends) (w : Surroundings) (fuel : ℕ) {i : ℕ} (heven : i % 2 = 0)
    (s : ScanState g) :
    ((perform w fuel s (.stepper 2 (plan.elbowSteps i))).bind fun s =>
        missed (s.sweepDown w fuel plan.baseSteps plan.baseStepsDelta plan.baseSteps)) =
      if plan.passes < fuel then
        ((plan.ring i).foldlM (perform w fuel) s).map fun s => (plan.farEnd, s)
      else none := by
  rw [SweepPlan.ring, SweepPlan.basePositions, if_pos heven, List.foldlM_cons]
  simp only [sweepDown_missed hends]
  cases perform w fuel s (.stepper 2 (plan.elbowSteps i)) with
  | none => split_ifs <;> rfl
  | some s' => rfl

theorem ring_up (hends : plan.Ends) (w : Surroundings) (fuel : ℕ) {i : ℕ} (hodd : i % 2 = 1)
    (s : ScanState g) :
    ((perform w fuel s (.stepper 2 (plan.elbowSteps i))).bind fun s =>
        missed (s.sweepUp w fuel plan.baseSteps plan.baseStepsDelta plan.farEnd)) =
      if plan.passes < fuel then
        ((plan.ring i).foldlM (perform w fuel) s).map fun s => (plan.baseSteps, s)
      else none := by
  rw [SweepPlan.ring, SweepPlan.basePositions,
    if_neg (show ¬ i % 2 = 0 by omega), List.foldlM_cons]
  simp only [sweepUp_missed hends]
  cases perform w fuel s (.stepper 2 (plan.elbowSteps i)) with
  | none => split_ifs <;> rfl
  | some s' => rfl

/-- The outer loop, from a ring with an even number on. -/
theorem ringLoop_missed (w : Surroundings) (fuel : ℕ) {N : ℕ} (hends : N = 0 ∨ plan.Ends)
    (passes : ℕ) {i : ℕ} (heven : i % 2 = 0) (hn : (plan.n - i).toNat = 2 * N)
    (s : ScanState g) :
    missed (s.ringLoop w fuel plan passes i plan.baseSteps) =
      if N < passes ∧ (N = 0 ∨ plan.passes < fuel) then
        ((List.range' i (2 * N)).flatMap plan.ring).foldlM (perform w fuel) s
      else none := by
  induction N generalizing passes i s with
  | zero =>
    have hend : ¬ (i : ℤ) < plan.n := by omega
    cases passes with
    | zero => rfl
    | succ passes =>
      rw [ringLoop, if_neg hend]
      simp
  | succ N ih =>
    have hends : plan.Ends := hends.resolve_left N.succ_ne_zero
    cases passes with
    | zero => rfl
    | succ passes =>
      have hrings : (List.range' i (2 * (N + 1))).flatMap plan.ring = plan.ring i ++
          (plan.ring (i + 1) ++ (List.range' (i + 2) (2 * N)).flatMap plan.ring) := by
        rw [show 2 * (N + 1) = 2 * N + 1 + 1 by omega, List.range'_succ, List.range'_succ,
          List.flatMap_cons, List.flatMap_cons]
      have hrest := fun s => ih (Or.inr hends) passes (i := i + 2) (by omega)
        (by push_cast; omega) s
      rw [ringLoop_succ w fuel passes (by omega), ring_down hends w fuel heven, hrings]
      by_cases hfuel : plan.passes < fuel
      · rw [if_pos hfuel, Option.bind_map]
        simp only [Function.comp_def, ring_up hends w fuel (i := i + 1) (by omega), if_pos hfuel,
          Option.bind_map, hrest]
        simp only [hfuel, or_true, and_true, Nat.add_lt_add_iff_right, List.foldlM_append]
        split_ifs
        · rfl
        · simp
      · rw [if_neg hfuel, if_neg (by omega)]
        rfl

end plan

theorem sweepPlan_even {w : Surroundings} {arm : ArmConfiguration g} {plan : SweepPlan R}
    (h : sweepPlan w arm = some plan) : ∃ N : ℕ, plan.n.toNat = 2 * N := by
  unfold sweepPlan at h
  dsimp only at h
  split_ifs at h
  cases h
  exact ⟨(truncate (arm.maxR - arm.startRadius)).toNat, by dsimp only; omega⟩

theorem rotationSweep_motions {w : Surroundings} {s : ScanState g} {plan : SweepPlan R}
    (hplan : sweepPlan w s.system.armConstruct = some plan) {N : ℕ}
    (hN : plan.n.toNat = 2 * N) (hends : N = 0 ∨ plan.Ends) (fuel : ℕ) :
    missed (s.rotationSweep w fuel) =
      if N < fuel ∧ (N = 0 ∨ plan.passes < fuel) then
        plan.motions.foldlM (perform w fuel) (s.cleared w)
      else none := by
  have hrings := fun t : ScanState g => ringLoop_missed w fuel hends fuel (i := 0) rfl
    (by simpa using hN) t
  rw [← hN, ← List.range_eq_range'] at hrings
  rw [rotationSweep_missed, SweepPlan.motions, List.foldlM_cons]
  simp only [List.foldlM_cons]
  cases h₁ : perform w fuel (s.cleared w) (.stepper 1 0) with
  | none => simp
  | some s₁ =>
    simp only [Option.bind_eq_bind, Option.bind_some]
    cases h₂ : perform w fuel s₁ (.stepper 2 0) with
    | none => simp
    | some s₂ =>
      have harm : s₂.system.armConstruct = s.system.armConstruct :=
        ((perform_follows h₁).trans (perform_follows h₂)).armConstruct
      simp only [Option.bind_some, harm, hplan, hrings]
      cases perform w fuel s₂ (.stepper 1 plan.baseSteps) with
      | none => simp
      | some s₃ => rfl

def Undisturbed (w : Surroundings) (fuel : ℕ) (P : ScanState g → Prop) : Prop :=
  ∀ s motion, P s → motion.command.1 = 1 ∨ motion.command.1 = 2 →
    ∃ s', s.perform w fuel motion = some s' ∧ P s'

omit [PiConstant R] in
theorem command_motor {plan : SweepPlan R} {motion : SweepMotion} (h : motion ∈ plan.motions) :
    motion.command.1 = 1 ∨ motion.command.1 = 2 := by
  simp only [SweepPlan.motions, SweepPlan.ring, List.mem_cons, List.mem_flatMap,
    List.mem_map] at h
  rcases h with rfl | rfl | rfl | ⟨i, -, rfl | ⟨p, -, rfl⟩⟩
  · exact Or.inl rfl
  · exact Or.inr rfl
  · exact Or.inl rfl
  · exact Or.inr rfl
  · exact Or.inl rfl

omit [PiConstant R] in
theorem map_command_motions (plan : SweepPlan R) :
    plan.motions.map SweepMotion.command = [(1, 0), (2, 0), (1, plan.baseSteps)] ++
      (List.range plan.n.toNat).flatMap fun i =>
        (2, plan.elbowSteps i) :: (plan.basePositions i).map fun p => (1, p) := by
  have hring : ∀ i, (plan.ring i).map SweepMotion.command =
      (2, plan.elbowSteps i) :: (plan.basePositions i).map fun p => (1, p) := by
    intro i
    rw [SweepPlan.ring, List.map_cons, List.map_map]
    rfl
  simp only [SweepPlan.motions, List.map_cons, List.map_flatMap, hring]
  rfl

theorem rotationSweep_returns {w : Surroundings} {s : ScanState g} {plan : SweepPlan R}
    (hplan : sweepPlan w s.system.armConstruct = some plan) (hbase : 1 ≤ plan.baseSteps)
    (hdelta : 1 ≤ plan.baseStepsDelta) {fuel : ℕ} {P : ScanState g → Prop}
    (hP : Undisturbed w fuel P) (hs : P (s.cleared w)) (hrings : plan.n.toNat < fuel)
    (hpasses : plan.passes < fuel) : ∃ s', s.rotationSweep w fuel = some (none, s') ∧ P s' := by
  obtain ⟨N, hN⟩ := sweepPlan_even hplan
  obtain ⟨s', hrun, hPs⟩ : ∃ s', plan.motions.foldlM (perform w fuel) (s.cleared w) = some s' ∧
      P s' := foldlM_returns hP hs fun motion => command_motor
  refine ⟨s', ?_, hPs⟩
  rw [← missed_eq_some, rotationSweep_motions hplan hN (Or.inr (Or.inl ⟨hbase, hdelta⟩)),
    if_pos ⟨by omega, Or.inr hpasses⟩]
  exact hrun

theorem undisturbed_simulated (w : Surroundings) (fuel : ℕ) :
    Undisturbed w fuel (fun s : ScanState g => s.system.drives.Simulated) := by
  intro s motion hs hmotor
  have hstep : ∀ motor steps, motor = 1 ∨ motor = 2 →
      ∃ t : ScanState g, s.stepNMotion motor steps = some t ∧ t.system.drives.Simulated := by
    intro motor steps hmotor
    obtain ⟨i, hi, rfl⟩ : ∃ i < 2, motor = i + 1 := ⟨motor - 1, by omega, by omega⟩
    obtain ⟨drives, hdrives, hsimulated⟩ := hs.stepNMotion hi steps
    refine ⟨{ s.withDrives drives with commanded := s.commanded ++ [(i + 1, steps)] }, ?_,
      hsimulated⟩
    rw [stepNMotion, hdrives]
    rfl
  cases motion with
  | stepper motor steps =>
    obtain ⟨t, ht, hsimulated⟩ := hstep motor steps hmotor
    refine ⟨t, ?_, hsimulated⟩
    rw [perform, stepperByCommand, ht]
    exact if_pos hsimulated.simulations
  | acquire steps =>
    obtain ⟨t, ht, hsimulated⟩ := hstep 1 steps (Or.inl rfl)
    refine ⟨{ t with hat := (0, 0) }, ?_, hsimulated⟩
    rw [perform, acquire_missed, ht]
    exact if_pos hsimulated.simulations

end ScanState

def emptyField : Surroundings where
  serverParameters := (∅ : ParameterMap).insert "FIELD_RANGE_FACTOR".toList "2".toList |>.insert
    "FIELD_ARC_PARTITIONS".toList "10".toList
  targetStorage := []
  id := fun _ => []
  camera := fun _ => []

/-- Two simulated drives and an arm that reaches from 1 to 3. -/
noncomputable def simulatedArm : ScanState (⟨0, 2, 1, 20000, 20000⟩ : ArmParameters ℝ) where
  system := {
    armConstruct := ArmConfiguration.construct _ 0 0 1 0
    drives := Drives.allocate 2 ⟨[], []⟩ true
    currentX := 0
    currentY := 0 }
  targets := ⟨fun _ => ⟨none, fun _ => none, false, 0, 0, 0, 0, 0, 0⟩, fun _ => none, fun _ => none⟩
  errors := ⟨false, .none⟩
  hat := (0, 0)
  looks := 0
  commanded := []

theorem emptyField_numbers :
    (emptyField.rangeFactor : ℝ) = 2 ∧ emptyField.arcPartitions ℝ = 10 ∧
      emptyField.baseSteps (⟨0, 2, 1, 20000, 20000⟩ : ArmParameters ℝ) = 5000 := by
  have hrange : atof (serverParameter emptyField.serverParameters
      "FIELD_RANGE_FACTOR".toList) = 2 := by decide +kernel
  have hparts : atof (serverParameter emptyField.serverParameters
      "FIELD_ARC_PARTITIONS".toList) = 10 := by decide +kernel
  have hfactor : (emptyField.rangeFactor : ℝ) = 2 := by
    rw [Surroundings.rangeFactor, hrange]
    norm_num
  have hten : ((10 : ℚ) : ℝ) = ((10 : ℤ) : ℝ) := by norm_num
  have hhalf : ((20000 : ℕ) : ℝ) / 2 = ((10000 : ℤ) : ℝ) := by norm_num
  have hbase : ((10000 : ℤ) : ℝ) / 2 = ((5000 : ℤ) : ℝ) := by norm_num
  refine ⟨hfactor, ?_, ?_⟩
  · rw [Surroundings.arcPartitions, hparts, hten, truncate_intCast]
  · rw [Surroundings.baseSteps, hfactor]
    dsimp only
    rw [hhalf, truncate_intCast, hbase, truncate_intCast]

theorem sweepPlan_emptyField :
    ScanState.sweepPlan emptyField simulatedArm.system.armConstruct =
      some ⟨4, 5000, 500, 2500, 0⟩ := by
  obtain ⟨hfactor, hparts, hbase⟩ := emptyField_numbers
  have hradius : simulatedArm.system.armConstruct.maxR -
      simulatedArm.system.armConstruct.startRadius = ((2 : ℤ) : ℝ) := by
    norm_num [simulatedArm, ArmConfiguration.construct]
  have hsteps : simulatedArm.system.armConstruct.elbowCurrentSteps = 0 := rfl
  have hdelta : (5000 : ℤ).tdiv 10 = 500 := rfl
  rw [ScanState.sweepPlan, hfactor, hparts, hbase, hradius, hsteps, truncate_intCast, hdelta]
  norm_num

namespace ScanState

end ScanState
end Arm2D

import Arm2D.SurvivableScan

/-! # When the sweep ends

The inner loops move the base by a quotient of two whole numbers. Where there are more
partitions than base steps it is zero, and the base stays where it is. -/
namespace Arm2D
open Library

variable {R : Type} [Field R] [LinearOrder R] [FloorRing R] [PiConstant R]
variable {g : ArmParameters R}

namespace ScanState

omit [FloorRing R] in
theorem acquireLoop_mono (w : Surroundings) (motor : ℕ) {fuel fuel' : ℕ} (hle : fuel ≤ fuel')
    (s : ScanState g) : ∀ r ∈ s.acquireLoop w motor fuel, r ∈ s.acquireLoop w motor fuel' := by
  induction fuel generalizing fuel' s with
  | zero =>
    intro r h
    cases h
  | succ fuel ih =>
    obtain ⟨more, rfl⟩ := Nat.exists_eq_add_of_le' (Nat.one_le_of_lt hle)
    intro r h
    rw [acquireLoop] at h ⊢
    generalize s.system.drives.checkMotionStatusQuiet motor = status at h ⊢
    obtain ⟨inMotion, drives⟩ := status
    obtain ⟨⟨seen, t⟩, hlook, h⟩ := Option.bind_eq_some_iff.mp h
    refine Option.bind_eq_some_iff.mpr ⟨(seen, t), hlook, ?_⟩
    cases seen with
    | some t => exact h
    | none =>
      cases inMotion with
      | true => exact ih (by omega) t r h
      | false => exact h

theorem stepperByCommand_mono {fuel fuel' : ℕ} (hle : fuel ≤ fuel') (s : ScanState g)
    (motor : ℕ) (steps : ℤ) :
    ∀ s' ∈ s.stepperByCommand fuel motor steps, s' ∈ s.stepperByCommand fuel' motor steps := by
  intro s' h
  obtain ⟨t, ht, h⟩ := Option.bind_eq_some_iff.mp h
  refine Option.bind_eq_some_iff.mpr ⟨t, ht, ?_⟩
  split_ifs at h ⊢
  · exact h
  · obtain ⟨drives, hdrives, h⟩ := Option.bind_eq_some_iff.mp h
    exact Option.bind_eq_some_iff.mpr
      ⟨drives, Drives.stepperLoop_mono motor hle _ drives hdrives, h⟩

theorem stepperByCommandsAcquire_mono (w : Surroundings) {fuel fuel' : ℕ} (hle : fuel ≤ fuel')
    (s : ScanState g) (motor : ℕ) (steps : ℤ) :
    ∀ r ∈ s.stepperByCommandsAcquire w fuel motor steps,
      r ∈ s.stepperByCommandsAcquire w fuel' motor steps := by
  intro r h
  obtain ⟨t, ht, h⟩ := Option.bind_eq_some_iff.mp h
  refine Option.bind_eq_some_iff.mpr ⟨t, ht, ?_⟩
  dsimp only at h ⊢
  split_ifs at h ⊢
  · exact h
  · exact acquireLoop_mono w motor hle _ r h

theorem perform_mono (w : Surroundings) {fuel fuel' : ℕ} (hle : fuel ≤ fuel') (s : ScanState g)
    (motion : SweepMotion) :
    ∀ s' ∈ s.perform w fuel motion, s' ∈ s.perform w fuel' motion := by
  intro s' h
  cases motion with
  | stepper motor steps => exact stepperByCommand_mono hle s motor steps s' h
  | acquire steps =>
    apply missed_eq_some.mpr
    exact stepperByCommandsAcquire_mono w hle s 1 steps _ (missed_eq_some.mp h)

/-- From such states every motion of either drive completes, however long it takes, and
acquires nothing. -/
def Completes (w : Surroundings) (P : ScanState g → Prop) : Prop :=
  ∀ s motion, P s → motion.command.1 = 1 ∨ motion.command.1 = 2 →
    ∃ fuel s', s.perform w fuel motion = some s' ∧ P s'

section completes
variable {w : Surroundings} {P : ScanState g → Prop} (hP : Completes w P)
include hP

theorem Completes.stepper {s : ScanState g} (hs : P s) {motor : ℕ}
    (hmotor : motor = 1 ∨ motor = 2) {fuel : ℕ} {steps : ℤ} {s' : ScanState g}
    (h : s.stepperByCommand fuel motor steps = some s') : P s' := by
  obtain ⟨enough, t, ht, hPt⟩ := hP s (.stepper motor steps) hs hmotor
  have hs' := stepperByCommand_mono (le_max_left fuel enough) s motor steps s' h
  have ht' := stepperByCommand_mono (le_max_right fuel enough) s motor steps t ht
  obtain rfl := Option.some.inj (hs'.symm.trans ht')
  exact hPt

theorem Completes.acquire {s : ScanState g} (hs : P s) {fuel : ℕ} {steps : ℤ}
    {r : Option ℕ × ScanState g} (h : s.stepperByCommandsAcquire w fuel 1 steps = some r) :
    r.1 = none ∧ P r.2 := by
  obtain ⟨enough, t, ht, hPt⟩ := hP s (.acquire steps) hs (Or.inl rfl)
  have hr := stepperByCommandsAcquire_mono w (le_max_left fuel enough) s 1 steps r h
  have ht' := stepperByCommandsAcquire_mono w (le_max_right fuel enough) s 1 steps _
    (missed_eq_some.mp ht)
  obtain rfl := Option.some.inj (hr.symm.trans ht')
  exact ⟨rfl, hPt⟩

theorem Completes.run {motions : List SweepMotion}
    (hmotor : ∀ motion ∈ motions, motion.command.1 = 1 ∨ motion.command.1 = 2)
    {s : ScanState g} (hs : P s) :
    ∃ enough, ∀ fuel ≥ enough, ∃ s', motions.foldlM (perform w fuel) s = some s' := by
  induction motions generalizing s with
  | nil => exact ⟨0, fun fuel _ => ⟨s, rfl⟩⟩
  | cons motion motions ih =>
    rw [List.forall_mem_cons] at hmotor
    obtain ⟨first, t, ht, hPt⟩ := hP s motion hs hmotor.1
    obtain ⟨rest, hrest⟩ := ih hmotor.2 hPt
    refine ⟨max first rest, fun fuel hfuel => ?_⟩
    obtain ⟨s', hs'⟩ := hrest fuel (le_of_max_le_right hfuel)
    refine ⟨s', ?_⟩
    rw [List.foldlM_cons, perform_mono w (le_of_max_le_left hfuel) s motion t ht]
    exact hs'

/-- A loop that moves the base by nothing comes to no end. -/
theorem Completes.sweepLoop_idle {more : ℤ → Bool} {p : ℤ} (hmore : more p = true)
    (fuel passes : ℕ) {s : ScanState g} (hs : P s) : s.sweepLoop w fuel more 0 passes p = none := by
  induction passes generalizing s with
  | zero => rfl
  | succ passes ih =>
    rw [sweepLoop, if_pos hmore, add_zero]
    dsimp only
    cases h : s.stepperByCommandsAcquire w fuel 1 p with
    | none => rfl
    | some r =>
      obtain ⟨hnone, hPr⟩ := hP.acquire hs h
      obtain ⟨seen, t⟩ := r
      obtain rfl : seen = none := hnone
      exact ih hPr

theorem Completes.ringLoop_idle {plan : SweepPlan R} (hbase : 1 ≤ plan.baseSteps)
    (hdelta : plan.baseStepsDelta = 0) (hn : 0 < plan.n) (fuel passes : ℕ) {s : ScanState g}
    (hs : P s) : s.ringLoop w fuel plan passes 0 plan.baseSteps = none := by
  let more : ℤ → Bool := fun stepPos => stepPos > -plan.baseSteps
  have hmore : more plan.baseSteps = true := by
    rw [decide_eq_true_eq]
    omega
  cases passes with
  | zero => rfl
  | succ passes =>
    rw [ringLoop, if_pos (by exact_mod_cast hn)]
    cases h : s.stepperByCommand fuel 2 (plan.elbowSteps 0) with
    | none => rfl
    | some t =>
      have hPt := hP.stepper hs (Or.inr rfl) h
      have hidle := hP.sweepLoop_idle hmore fuel fuel hPt
      rw [Option.bind_eq_bind, Option.bind_some, sweepDown, hdelta, neg_zero, hidle]
      rfl

theorem Completes.rotationSweep_idle {s : ScanState g} {plan : SweepPlan R}
    (hplan : sweepPlan w s.system.armConstruct = some plan) (hbase : 1 ≤ plan.baseSteps)
    (hdelta : plan.baseStepsDelta = 0) (hn : 0 < plan.n) (hs : P (s.cleared w)) (fuel : ℕ) :
    s.rotationSweep w fuel = none := by
  by_contra hsome
  obtain ⟨r, h⟩ := Option.ne_none_iff_exists'.mp hsome
  obtain ⟨s₁, h₁, h⟩ := Option.bind_eq_some_iff.mp h
  obtain ⟨s₂, h₂, h⟩ := Option.bind_eq_some_iff.mp h
  obtain ⟨plan', hplan', h⟩ := Option.bind_eq_some_iff.mp h
  obtain ⟨s₃, h₃, h⟩ := Option.bind_eq_some_iff.mp h
  have harm : s₂.system.armConstruct = s.system.armConstruct :=
    ((stepperByCommand_follows h₁).trans (stepperByCommand_follows h₂)).armConstruct
  rw [harm, hplan] at hplan'
  obtain rfl := Option.some.inj hplan'
  have hP₁ := hP.stepper hs (Or.inl rfl) h₁
  have hP₂ := hP.stepper hP₁ (Or.inr rfl) h₂
  have hP₃ := hP.stepper hP₂ (Or.inl rfl) h₃
  rw [hP.ringLoop_idle hbase hdelta hn fuel fuel hP₃] at h
  cases h

theorem Completes.rotationSweep_ends {s : ScanState g} {plan : SweepPlan R}
    (hplan : sweepPlan w s.system.armConstruct = some plan)
    (hends : plan.n ≤ 0 ∨ plan.Ends) (hs : P (s.cleared w)) :
    ∃ fuel, (s.rotationSweep w fuel).isSome := by
  obtain ⟨N, hN⟩ := sweepPlan_even hplan
  have hmotor : ∀ motion ∈ plan.motions, motion.command.1 = 1 ∨ motion.command.1 = 2 :=
    fun _ => command_motor
  obtain ⟨enough, hrun⟩ := hP.run hmotor hs
  let fuel := max enough (max N plan.passes + 1)
  obtain ⟨s', hs'⟩ := hrun fuel (le_max_left _ _)
  have hmissed : missed (s.rotationSweep w fuel) = some s' := by
    rw [rotationSweep_motions hplan hN (hends.imp_left (by omega)), if_pos (by omega)]
    exact hs'
  exact ⟨fuel, by simp [missed_eq_some.mp hmissed]⟩

end completes

section condition
omit [PiConstant R]
variable [IsStrictOrderedRing R]

theorem baseSteps_eq {w : Surroundings} (hrange : 0 < (w.rangeFactor : R)) :
    w.baseSteps g = ⌊((g.canisterStep / 2 : ℕ) : R) / w.rangeFactor⌋ := by
  have hhalf : truncate ((g.canisterStep : R) / 2) = ((g.canisterStep / 2 : ℕ) : ℤ) := by
    rw [truncate_of_nonneg (by positivity)]
    have hfloor := Int.floor_div_natCast (g.canisterStep : R) 2
    simpa using hfloor
  rw [Surroundings.baseSteps, hhalf, Int.cast_natCast, truncate_of_nonneg (by positivity)]

theorem ends_iff {w : Surroundings} (hrange : 0 < (w.rangeFactor : R))
    (hm : 1 ≤ w.arcPartitions R) {plan : SweepPlan R} (hbase : plan.baseSteps = w.baseSteps g)
    (hdelta : plan.baseStepsDelta = (w.baseSteps g).tdiv (w.arcPartitions R)) :
    plan.Ends ↔ ((g.canisterStep / 2 : ℕ) : R) < w.rangeFactor ∨
      w.arcPartitions R * w.rangeFactor ≤ ((g.canisterStep / 2 : ℕ) : R) := by
  have hnone : w.baseSteps g < 1 ↔ ((g.canisterStep / 2 : ℕ) : R) < w.rangeFactor := by
    rw [baseSteps_eq hrange, Int.floor_lt, Int.cast_one, div_lt_one hrange]
  have hparts : w.arcPartitions R ≤ w.baseSteps g ↔
      w.arcPartitions R * w.rangeFactor ≤ ((g.canisterStep / 2 : ℕ) : R) := by
    rw [baseSteps_eq hrange, Int.le_floor, le_div_iff₀ hrange]
  have hnonneg : 0 ≤ w.baseSteps g := by
    rw [baseSteps_eq hrange]
    exact Int.floor_nonneg.mpr (by positivity)
  have hone : 1 ≤ (w.baseSteps g).tdiv (w.arcPartitions R) ↔
      w.arcPartitions R ≤ w.baseSteps g := by
    rw [Int.tdiv_eq_ediv_of_nonneg hnonneg, Int.le_ediv_iff_mul_le (by omega), one_mul]
  rw [SweepPlan.Ends, hbase, hdelta, hone, ← hnone, ← hparts]
  constructor
  · rintro (⟨-, hle⟩ | ⟨hzero, -⟩)
    · exact Or.inr hle
    · exact Or.inl (by omega)
  · rintro (hlt | hle)
    · have hzero : w.baseSteps g = 0 := by omega
      exact Or.inr ⟨hzero, by rw [hzero, Int.zero_tdiv]⟩
    · exact Or.inl ⟨by omega, hle⟩

end condition

theorem exists_sweepPlan {w : Surroundings} (hrange : 0 < (w.rangeFactor : R))
    (hm : 1 ≤ w.arcPartitions R) (arm : ArmConfiguration g) :
    ∃ plan, sweepPlan w arm = some plan ∧
      plan.n = truncate (arm.maxR - arm.startRadius) * 2 ∧ plan.baseSteps = w.baseSteps g ∧
      plan.baseStepsDelta = (w.baseSteps g).tdiv (w.arcPartitions R) := by
  refine ⟨_, if_neg ?_, rfl, rfl, rfl⟩
  push Not
  exact ⟨hrange.ne', by omega⟩

section ends
variable [IsStrictOrderedRing R] {w : Surroundings} {s : ScanState g}
variable (hrange : 0 < (w.rangeFactor : R)) (hm : 1 ≤ w.arcPartitions R)
variable {P : ScanState g → Prop} (hP : Completes w P) (hs : P (s.cleared w))
include hrange hm hP hs

/-- With a ring to go round and more partitions than base steps the sweep does not end. -/
theorem rotationSweep_endless
    (hradius : 1 ≤ s.system.armConstruct.maxR - s.system.armConstruct.startRadius)
    (hsteps : w.rangeFactor ≤ ((g.canisterStep / 2 : ℕ) : R))
    (hparts : ((g.canisterStep / 2 : ℕ) : R) < w.arcPartitions R * w.rangeFactor) (fuel : ℕ) :
    s.rotationSweep w fuel = none := by
  obtain ⟨plan, hplan, hn, hbase, hdelta⟩ := exists_sweepPlan hrange hm s.system.armConstruct
  have hrings : ¬ truncate (s.system.armConstruct.maxR - s.system.armConstruct.startRadius) ≤ 0 :=
    fun h => not_lt.mpr hradius ((truncate_nonpos_iff _).mp h)
  have hnever : ¬ plan.Ends := by
    rw [ends_iff hrange hm hbase hdelta]
    push Not
    exact ⟨hsteps, hparts⟩
  have hnonneg : 0 ≤ plan.baseSteps := by
    rw [hbase, baseSteps_eq hrange]
    exact Int.floor_nonneg.mpr (by positivity)
  have hquotient : 0 ≤ plan.baseStepsDelta := by
    rw [hdelta, ← hbase]
    exact Int.tdiv_nonneg hnonneg (by omega)
  have hzero : plan.baseSteps = 0 → plan.baseStepsDelta = 0 := by
    intro h
    rw [hdelta, ← hbase, h, Int.zero_tdiv]
  rw [SweepPlan.Ends] at hnever
  exact hP.rotationSweep_idle hplan (by omega) (by omega) (by omega) hs fuel

end ends

end ScanState

/-- The range of `emptyField` in six thousand partitions. -/
def crowdedField : Surroundings :=
  { emptyField with
    serverParameters := emptyField.serverParameters.insert
      "FIELD_ARC_PARTITIONS".toList "6000".toList }

namespace ScanState

theorem completes_simulated (w : Surroundings) :
    Completes w (fun s : ScanState g => s.system.drives.Simulated) :=
  fun s motion hs hmotor => ⟨0, undisturbed_simulated w 0 s motion hs hmotor⟩

theorem crowdedField_numbers :
    (crowdedField.rangeFactor : ℝ) = 2 ∧ crowdedField.arcPartitions ℝ = 6000 := by
  have hrange : atof (serverParameter crowdedField.serverParameters
      "FIELD_RANGE_FACTOR".toList) = 2 := by decide +kernel
  have hparts : atof (serverParameter crowdedField.serverParameters
      "FIELD_ARC_PARTITIONS".toList) = 6000 := by decide +kernel
  have hcast : ((6000 : ℚ) : ℝ) = ((6000 : ℤ) : ℝ) := by norm_num
  constructor
  · rw [Surroundings.rangeFactor, hrange]
    norm_num
  · rw [Surroundings.arcPartitions, hparts, hcast, truncate_intCast]

end ScanState
end Arm2D

import Arm2D.Library.Sweeps
import Arm2D.SentLines

/-! # Sweeps without a sighting

A sweep that acquires nothing leaves no loop early: it is the sequence of its motions. -/
namespace Arm2D
open Library

/-- A motion of the sweep; the second kind looks through the targets. -/
inductive SweepMotion
  | stepper (motor : ℕ) (steps : ℤ)
  | acquire (steps : ℤ)

def SweepMotion.command : SweepMotion → ℕ × ℤ
  | stepper motor steps => (motor, steps)
  | acquire steps => (1, steps)

variable {R : Type} [Field R] [LinearOrder R] [FloorRing R] [PiConstant R]
variable {g : ArmParameters R}

namespace ScanState

/-- A motion that completes and acquires nothing. -/
def perform (w : Surroundings) (fuel : ℕ) (s : ScanState g) : SweepMotion → Option (ScanState g)
  | .stepper motor steps => s.stepperByCommand fuel motor steps
  | .acquire steps => missed (s.stepperByCommandsAcquire w fuel 1 steps)

omit [FloorRing R] in
theorem acquireLoop_missed (w : Surroundings) (motor fuel : ℕ) (s : ScanState g) :
    missed (s.acquireLoop w motor (fuel + 1)) =
      let r := s.system.drives.checkMotionStatusQuiet motor
      (missed ((s.withDrives r.2).look w)).bind fun t =>
        if r.1 then missed (t.acquireLoop w motor fuel) else some t := by
  rw [acquireLoop]
  obtain ⟨inMotion, drives⟩ := s.system.drives.checkMotionStatusQuiet motor
  refine (missed_bind _ fun t a => ?_).trans (Option.bind_congr fun t _ => ?_)
  · cases inMotion with
    | false => rfl
    | true =>
      dsimp only
      rw [if_pos rfl]
      cases a.system.drives.runAction 0 "stop_motion".toList <;> rfl
  · exact apply_ite missed _ _ _

theorem acquire_missed (w : Surroundings) (fuel motor : ℕ) (steps : ℤ) (s : ScanState g) :
    missed (s.stepperByCommandsAcquire w fuel motor steps) =
      (s.stepNMotion motor steps).bind fun t =>
        let t := { t with hat := (0, 0) }
        if t.system.drives.useSimulations then some t
        else missed (t.acquireLoop w motor fuel) := by
  refine (missed_map _ _).trans (Option.bind_congr fun t _ => ?_)
  exact apply_ite missed _ _ _

/-- What comes after `s`: the arm's angles are not touched, these commands were given, and
looks are only added. -/
structure Follows (s : ScanState g) (commands : List (ℕ × ℤ)) (s' : ScanState g) : Prop where
  armConstruct : s'.system.armConstruct = s.system.armConstruct
  commanded : s'.commanded = s.commanded ++ commands
  looks : s.looks ≤ s'.looks

omit [LinearOrder R] [FloorRing R] in
theorem Follows.refl (s : ScanState g) : Follows s [] s := ⟨rfl, by simp, le_rfl⟩

omit [LinearOrder R] [FloorRing R] in
theorem Follows.trans {s t s' : ScanState g} {commands others : List (ℕ × ℤ)}
    (h : Follows s commands t) (h' : Follows t others s') : Follows s (commands ++ others) s' where
  armConstruct := h'.armConstruct.trans h.armConstruct
  commanded := by rw [h'.commanded, h.commanded, List.append_assoc]
  looks := h.looks.trans h'.looks

theorem stepNMotion_follows {s s' : ScanState g} {motor : ℕ} {steps : ℤ}
    (h : s.stepNMotion motor steps = some s') : Follows s [(motor, steps)] s' := by
  obtain ⟨drives, -, h⟩ := Option.bind_eq_some_iff.mp h
  cases h
  exact ⟨rfl, rfl, le_rfl⟩

theorem stepperByCommand_follows {fuel : ℕ} {s s' : ScanState g} {motor : ℕ} {steps : ℤ}
    (h : s.stepperByCommand fuel motor steps = some s') : Follows s [(motor, steps)] s' := by
  obtain ⟨t, ht, h⟩ := Option.bind_eq_some_iff.mp h
  obtain ⟨harm, hcommanded, hlooks⟩ := stepNMotion_follows ht
  split_ifs at h
  · cases h
    exact ⟨harm, hcommanded, hlooks⟩
  · obtain ⟨drives, -, h⟩ := Option.bind_eq_some_iff.mp h
    cases h
    exact ⟨harm, hcommanded, hlooks⟩

omit [FloorRing R] in
theorem look_follows {w : Surroundings} {s s' : ScanState g} {t : Option ℕ}
    (h : s.look w = some (t, s')) : Follows s [] s' ∧ s'.looks = s.looks + 1 := by
  obtain ⟨targets, -, h⟩ := Option.bind_eq_some_iff.mp h
  cases h
  exact ⟨⟨rfl, by simp, Nat.le_succ _⟩, rfl⟩

omit [FloorRing R] in
theorem acquireLoop_follows {w : Surroundings} {motor fuel : ℕ} {s s' : ScanState g}
    (h : missed (s.acquireLoop w motor fuel) = some s') : Follows s [] s' := by
  induction fuel generalizing s with
  | zero => cases h
  | succ fuel ih =>
    rw [acquireLoop_missed] at h
    obtain ⟨t, hlook, h⟩ := Option.bind_eq_some_iff.mp h
    obtain ⟨⟨harm, hcommanded, hlooks⟩, -⟩ := look_follows (missed_eq_some.mp hlook)
    have hs : Follows s [] t := ⟨harm, hcommanded, hlooks⟩
    split_ifs at h
    · exact hs.trans (ih h)
    · cases h
      exact hs

theorem perform_follows {w : Surroundings} {fuel : ℕ} {s s' : ScanState g}
    {motion : SweepMotion} (h : s.perform w fuel motion = some s') :
    Follows s [motion.command] s' := by
  cases motion with
  | stepper motor steps => exact stepperByCommand_follows h
  | acquire steps =>
    rw [perform, acquire_missed] at h
    obtain ⟨t, ht, h⟩ := Option.bind_eq_some_iff.mp h
    obtain ⟨harm, hcommanded, hlooks⟩ := stepNMotion_follows ht
    have hs : Follows s [(1, steps)] { t with hat := (0, 0) } := ⟨harm, hcommanded, hlooks⟩
    dsimp only at h
    split_ifs at h
    · cases h
      exact hs
    · exact hs.trans (acquireLoop_follows h)

theorem run_follows {w : Surroundings} {fuel : ℕ} {s s' : ScanState g}
    {motions : List SweepMotion} (h : motions.foldlM (perform w fuel) s = some s') :
    Follows s (motions.map SweepMotion.command) s' := by
  induction motions generalizing s with
  | nil =>
    cases h
    exact Follows.refl _
  | cons motion motions ih =>
    rw [List.foldlM_cons] at h
    obtain ⟨t, ht, h⟩ := Option.bind_eq_some_iff.mp h
    exact (perform_follows ht).trans (ih h)

omit [FloorRing R] in
theorem look_system {w : Surroundings} {s s' : ScanState g} {t : Option ℕ}
    (h : s.look w = some (t, s')) : s'.system = s.system := by
  obtain ⟨targets, -, h⟩ := Option.bind_eq_some_iff.mp h
  exact (congrArg (fun r => r.2.system) (Option.some.inj h)).symm

theorem acquireLoop_asks {w : Surroundings} {motor fuel : ℕ} {s s' : ScanState g}
    (h : missed (s.acquireLoop w motor fuel) = some s') :
    Drives.Calls Drives.statusCall s.system.drives s'.system.drives := by
  induction fuel generalizing s with
  | zero => cases h
  | succ fuel ih =>
    rw [acquireLoop_missed] at h
    obtain ⟨t, hlook, h⟩ := Option.bind_eq_some_iff.mp h
    have hasks : Drives.Calls Drives.statusCall s.system.drives t.system.drives := by
      rw [look_system (missed_eq_some.mp hlook)]
      exact Drives.checkMotionStatusBody_calls ⟨false, rfl⟩ _
    split_ifs at h
    · exact hasks.trans (ih h)
    · cases h
      exact hasks

theorem perform_calls {w : Surroundings} {fuel : ℕ} {s s' : ScanState g} {motion : SweepMotion}
    (h : s.perform w fuel motion = some s') :
    ∃ d, s.system.drives.stepNMotion motion.command.1 motion.command.2 = some d ∧
      Drives.Calls Drives.statusCall d s'.system.drives := by
  cases motion with
  | stepper motor steps =>
    obtain ⟨t, ht, h⟩ := Option.bind_eq_some_iff.mp h
    obtain ⟨d, hd, ht⟩ := Option.bind_eq_some_iff.mp ht
    cases ht
    split_ifs at h
    · cases h
      exact ⟨d, hd, .refl⟩
    · obtain ⟨d', hd', h⟩ := Option.bind_eq_some_iff.mp h
      cases h
      exact ⟨d, hd, Drives.stepperLoop_calls ⟨true, rfl⟩ hd'⟩
  | acquire steps =>
    rw [perform, acquire_missed] at h
    obtain ⟨t, ht, h⟩ := Option.bind_eq_some_iff.mp h
    obtain ⟨d, hd, ht⟩ := Option.bind_eq_some_iff.mp ht
    cases ht
    dsimp only at h
    split_ifs at h
    · cases h
      exact ⟨d, hd, .refl⟩
    · exact ⟨d, hd, acquireLoop_asks h⟩

/-- The lines of a run of motions go to the wire one motion after the other. -/
theorem run_sends {w : Surroundings} {fuel : ℕ} {s s' : ScanState g} {motions : List SweepMotion}
    (hidle : s.system.drives.Idle) (h : motions.foldlM (perform w fuel) s = some s') :
    s.system.drives.SendsMotions (motions.map SweepMotion.command) s.system.drives.serialPort
      s'.system.drives.serialPort := by
  induction motions generalizing s with
  | nil =>
    cases h
    exact .nil
  | cons motion motions ih =>
    rw [List.foldlM_cons] at h
    obtain ⟨t, ht, h⟩ := Option.bind_eq_some_iff.mp h
    obtain ⟨d, hd, hasks⟩ := perform_calls ht
    have hmotion : Drives.Calls (fun _ _ => True) s.system.drives d :=
      Drives.stepNMotion_calls trivial hd
    obtain ⟨hconfigs, hsimulations⟩ := hmotion.configs
    obtain ⟨hconfigs', hsimulations'⟩ := hasks.configs
    have hwrites := hasks.writes (hmotion.idle hidle)
    rw [hsimulations] at hwrites
    exact .motion (Drives.stepNMotion_sends (hidle _) hd)
      (hwrites.mono fun _ => Drives.Line.of_configs hconfigs)
      ((ih (hasks.idle (hmotion.idle hidle)) h).of_configs (hconfigs'.trans hconfigs)
        (hsimulations'.trans hsimulations))

theorem sweepLoop_succ (w : Surroundings) (fuel : ℕ) {more : ℤ → Bool} (delta : ℤ)
    (passes : ℕ) {p : ℤ} (hmore : more p = true) (s : ScanState g) :
    missed (s.sweepLoop w fuel more delta (passes + 1) p) =
      (perform w fuel s (.acquire (p + delta))).bind fun s =>
        missed (s.sweepLoop w fuel more delta passes (p + delta)) := by
  rw [sweepLoop, if_pos hmore]
  exact missed_bind _ fun t a => rfl

theorem ringLoop_succ (w : Surroundings) (fuel : ℕ) {plan : SweepPlan R} (passes : ℕ) {i : ℕ}
    (hi : (i : ℤ) < plan.n) (p : ℤ) (s : ScanState g) :
    missed (s.ringLoop w fuel plan (passes + 1) i p) =
      ((perform w fuel s (.stepper 2 (plan.elbowSteps i))).bind fun s =>
        missed (s.sweepDown w fuel plan.baseSteps plan.baseStepsDelta p)).bind fun r =>
      ((perform w fuel r.2 (.stepper 2 (plan.elbowSteps (i + 1)))).bind fun s =>
        missed (s.sweepUp w fuel plan.baseSteps plan.baseStepsDelta r.1)).bind fun r =>
      missed (r.2.ringLoop w fuel plan passes (i + 2) r.1) := by
  rw [ringLoop, if_pos hi, Option.bind_assoc]
  refine (missed_map _ _).trans (Option.bind_congr fun s _ => ?_)
  refine (missed_bind _ fun t r => rfl).trans (Option.bind_congr fun r _ => ?_)
  rw [Option.bind_assoc]
  refine (missed_map _ _).trans (Option.bind_congr fun s _ => ?_)
  exact missed_bind _ fun t r => rfl

/-- Before the first motion the targets count as not acquired. -/
def cleared (w : Surroundings) (s : ScanState g) : ScanState g :=
  { s with targets := clearTargets w.targetStorage s.targets, hat := (0, 0) }

theorem rotationSweep_missed (w : Surroundings) (fuel : ℕ) (s : ScanState g) :
    missed (s.rotationSweep w fuel) =
      (perform w fuel (s.cleared w) (.stepper 1 0)).bind fun s =>
      (perform w fuel s (.stepper 2 0)).bind fun s =>
      (sweepPlan w s.system.armConstruct).bind fun plan =>
      (perform w fuel s (.stepper 1 plan.baseSteps)).bind fun s =>
        missed (s.ringLoop w fuel plan fuel 0 plan.baseSteps) := by
  rw [rotationSweep]
  refine (missed_map _ _).trans (Option.bind_congr fun s₁ _ => ?_)
  refine (missed_map _ _).trans (Option.bind_congr fun s₂ _ => ?_)
  refine (missed_map _ _).trans (Option.bind_congr fun plan _ => ?_)
  exact missed_map _ _

end ScanState
end Arm2D

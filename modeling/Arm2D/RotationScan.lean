import Arm2D.CameraFrame
import Arm2D.Descriptions
import Arm2D.Motion

/-! # The scan with rotation of the base

`scan_for_pattern_with_rotation_motion` of arm_2d.cpp with what it calls: the forearm is
opened ring by ring, on each ring the base sweeps its arc, and whenever a motion is asked
after, the stored targets are looked through. Printing is left out, and so is the flag that
a target was present, which nobody reads. -/
namespace Arm2D
open Library

section targets
variable {R : Type} [Field R] [LinearOrder R] [PiConstant R]

namespace Target

def setTargetNotAcquired (t : Target R) : Target R := { t with targetPresent := false }

/-- A sighting is taken once. -/
def acquiredTarget (t : Target R) : Bool × Target R :=
  if t.targetPresent then (true, { t with targetPresent := false }) else (false, t)

end Target

/-- The targets' objects with the locals of `point_in_time_best_match`. -/
structure BestMatch (R : Type) where
  heap : ℕ → Target R
  percentMatch : R
  best : Option ℕ

def BestMatch.look (b : BestMatch R) (pointer : ℕ) : BestMatch R :=
  let (acquired, t) := (b.heap pointer).acquiredTarget
  let heap := Function.update b.heap pointer t
  if acquired && t.fovMatch > b.percentMatch then ⟨heap, t.fovMatch, some pointer⟩
  else { b with heap := heap }

/-- `point_in_time_best_match`, which writes to `x_hat` and `y_hat` when there is one. -/
def pointInTimeBestMatch (targetStorage : List ℕ) (ts : Targets R) (hat : R × R) :
    Option ℕ × (R × R) × Targets R :=
  let b := targetStorage.foldl BestMatch.look ⟨ts.heap, 0, none⟩
  let ts := { ts with heap := b.heap }
  match b.best with
  | none => (none, hat, ts)
  | some best => (some best, ((b.heap best).fovX, (b.heap best).fovY), ts)

def clearTargets (targetStorage : List ℕ) (ts : Targets R) : Targets R :=
  { ts with heap := targetStorage.foldl (fun heap pointer =>
      Function.update heap pointer (heap pointer).setTargetNotAcquired) ts.heap }

/-- What `emit_to_target` makes of some reports, each a key with its data. -/
def receive (reports : List (Str × Str)) (ts : Targets R) : Option (Targets R) :=
  reports.foldlM (fun ts report => emitToTarget ts report.1 report.2) ts

end targets

namespace Drives
variable {R : Type}

/-- The waiting loop of `stepper_by_command`, for at most so many passes. -/
def stepperLoop (motor : ℕ) : ℕ → Drives R → Option (Drives R)
  | 0, _ => none
  | fuel + 1, d =>
    let (inMotion, d) := d.checkMotionStatus motor
    if inMotion then stepperLoop motor fuel d else some d

/-- `current_rotation` of a slot of the array. -/
def currentRotation [Field R] (d : Drives R) (i : ℕ) : Option (R × Drives R) :=
  match d.motorDriverArray i with
  | none => none
  | some md =>
    let r := (md.currentRotation d.useSimulations d.serialPort).val
    some (r.1, d.put i r.2)

/-- `run_action` of a slot of the array. -/
def runAction (d : Drives R) (i : ℕ) (actionKey : Str) : Option (Drives R) :=
  match d.motorDriverArray i with
  | none => none
  | some md => some (d.put i (md.runAction d.useSimulations d.serialPort actionKey).val)

end Drives

variable {R : Type} [Field R] [LinearOrder R] [FloorRing R] [Libm R] [PiConstant R]
variable {g : ArmParameters R}

/-- What the scan reads only: the parameters, the storage, the `id` of each target, and the
reports that come between two looks. A report that comes during a look counts to this one
when its target is still to be looked at, else to the next. -/
structure Surroundings where
  serverParameters : ParameterMap
  targetStorage : List ℕ
  id : ℕ → Str
  camera : ℕ → List (Str × Str)

namespace Surroundings

def rangeFactor (w : Surroundings) : R :=
  atof (serverParameter w.serverParameters "FIELD_RANGE_FACTOR".toList)

/-- The `int m` of the sweep. -/
def arcPartitions (R : Type) [Field R] [LinearOrder R] [FloorRing R] (w : Surroundings) : ℤ :=
  truncate (atof (serverParameter w.serverParameters "FIELD_ARC_PARTITIONS".toList) : R)

def baseSteps (g : ArmParameters R) (w : Surroundings) : ℤ :=
  let baseSteps := truncate ((g.canisterStep : R) / 2)
  truncate ((baseSteps : R) / w.rangeFactor)

end Surroundings

/-- The globals that the scan works on, and `x_hat`, `y_hat`. It is counted how often the
targets were looked through, and noted which motor the two stepper functions sent where. -/
structure ScanState (g : ArmParameters R) where
  system : System g
  targets : Targets R
  errors : ErrorState
  hat : R × R
  looks : ℕ
  commanded : List (ℕ × ℤ)

/-- What the sweep computes before its loops. -/
structure SweepPlan (R : Type) where
  n : ℤ
  baseSteps : ℤ
  baseStepsDelta : ℤ
  extendDelta : R
  elbowStart : R

def SweepPlan.elbowSteps (plan : SweepPlan R) (i : ℕ) : ℤ :=
  truncate (-(i * plan.extendDelta + plan.elbowStart))

namespace ScanState

def withDrives (s : ScanState g) (drives : Drives R) : ScanState g :=
  { s with system := { s.system with drives := drives } }

def stepNMotion (s : ScanState g) (motor : ℕ) (steps : ℤ) : Option (ScanState g) := do
  let drives ← s.system.drives.stepNMotion motor steps
  return { s.withDrives drives with commanded := s.commanded ++ [(motor, steps)] }

def stepperByCommand (fuel : ℕ) (s : ScanState g) (motor : ℕ) (steps : ℤ) :
    Option (ScanState g) := do
  let s ← s.stepNMotion motor steps
  if s.system.drives.useSimulations then return s
  else
    let drives ← s.system.drives.stepperLoop motor fuel
    return s.withDrives drives

def look (w : Surroundings) (s : ScanState g) : Option (Option ℕ × ScanState g) := do
  let targets ← receive (w.camera s.looks) s.targets
  let (tAcquired, hat, targets) := pointInTimeBestMatch w.targetStorage targets s.hat
  return (tAcquired, { s with targets := targets, hat := hat, looks := s.looks + 1 })

/-- The loop of `stepper_by_commands_acquire`. -/
def acquireLoop (w : Surroundings) (motor : ℕ) :
    ℕ → ScanState g → Option (Option ℕ × ScanState g)
  | 0, _ => none
  | fuel + 1, s => do
    let (inMotion, drives) := s.system.drives.checkMotionStatusQuiet motor
    let (tAcquired, s) ← (s.withDrives drives).look w
    match tAcquired with
    | some t =>
      if inMotion then
        let drives ← s.system.drives.runAction 0 "stop_motion".toList
        return (some t, s.withDrives drives)
      else return (some t, s)
    | none => if inMotion then acquireLoop w motor fuel s else return (none, s)

/-- `stepper_by_commands_acquire`; a simulation does not look. -/
def stepperByCommandsAcquire (w : Surroundings) (fuel : ℕ) (s : ScanState g) (motor : ℕ)
    (steps : ℤ) : Option (Option ℕ × ScanState g) := do
  let s ← s.stepNMotion motor steps
  let s := { s with hat := (0, 0) }
  if s.system.drives.useSimulations then return (none, s)
  else acquireLoop w motor fuel s

/-- One of the two inner loops: while `step_pos` calls for `more`, it is moved by `delta`. -/
def sweepLoop (w : Surroundings) (fuel : ℕ) (more : ℤ → Bool) (delta : ℤ) :
    ℕ → ℤ → ScanState g → Option (Option ℕ × ℤ × ScanState g)
  | 0, _, _ => none
  | passes + 1, stepPos, s =>
    if more stepPos then do
      let stepPos := stepPos + delta
      let (tAcquired, s) ← s.stepperByCommandsAcquire w fuel 1 stepPos
      if tAcquired.isSome then return (tAcquired, stepPos, s)
      else sweepLoop w fuel more delta passes stepPos s
    else return (none, stepPos, s)

def sweepDown (w : Surroundings) (fuel : ℕ) (baseSteps baseStepsDelta stepPos : ℤ)
    (s : ScanState g) : Option (Option ℕ × ℤ × ScanState g) :=
  sweepLoop w fuel (fun stepPos => stepPos > -baseSteps) (-baseStepsDelta) fuel stepPos s

def sweepUp (w : Surroundings) (fuel : ℕ) (baseSteps baseStepsDelta stepPos : ℤ)
    (s : ScanState g) : Option (Option ℕ × ℤ × ScanState g) :=
  sweepLoop w fuel (fun stepPos => stepPos < baseSteps) baseStepsDelta fuel stepPos s

/-- The outer loop, for at most so many passes. -/
def ringLoop (w : Surroundings) (fuel : ℕ) (plan : SweepPlan R) :
    ℕ → ℕ → ℤ → ScanState g → Option (Option ℕ × ScanState g)
  | 0, _, _, _ => none
  | passes + 1, i, stepPos, s =>
    if i < plan.n then do
      let s ← s.stepperByCommand fuel 2 (plan.elbowSteps i)
      let (tAcquired, stepPos, s) ← s.sweepDown w fuel plan.baseSteps plan.baseStepsDelta stepPos
      if tAcquired.isSome then return (tAcquired, s)
      else
        let i := i + 1
        let s ← s.stepperByCommand fuel 2 (plan.elbowSteps i)
        let (tAcquired, stepPos, s) ←
          s.sweepUp w fuel plan.baseSteps plan.baseStepsDelta stepPos
        if tAcquired.isSome then return (tAcquired, s)
        else ringLoop w fuel plan passes (i + 1) stepPos s
    else return (none, s)

/-- The numbers; the two divisions need a divisor. -/
def sweepPlan (w : Surroundings) (arm : ArmConfiguration g) : Option (SweepPlan R) :=
  let n := truncate (arm.maxR - arm.startRadius)
  let n := n * 2
  let elbowStart : R := arm.elbowCurrentSteps
  let m := w.arcPartitions R
  if (w.rangeFactor : R) = 0 ∨ m = 0 then none
  else some {
    n := n
    baseSteps := w.baseSteps g
    baseStepsDelta := (w.baseSteps g).tdiv m
    extendDelta := (g.elbowStep - elbowStart) / (2 * n)
    elbowStart := elbowStart }

/-- The function up to the end of its loops. -/
def rotationSweep (w : Surroundings) (fuel : ℕ) (s : ScanState g) :
    Option (Option ℕ × ScanState g) := do
  let s := { s with targets := clearTargets w.targetStorage s.targets, hat := (0, 0) }
  let s ← s.stepperByCommand fuel 1 0
  let s ← s.stepperByCommand fuel 2 0
  let plan ← sweepPlan w s.system.armConstruct
  let s ← s.stepperByCommand fuel 1 plan.baseSteps
  s.ringLoop w fuel plan fuel 0 plan.baseSteps

/-- From the end of the loops to the first use of `t_acquired`. -/
def moveToRotation (fuel : ℕ) (s : ScanState g) : Option ((R × R) × ScanState g) := do
  let (rad1, drives) ← s.system.drives.currentRotation 0
  let (rad2, drives) ← drives.currentRotation 1
  let s := s.withDrives drives
  let p := s.system.armConstruct.rotationToCartesian (-rad1) (-rad2)
  let system ← s.system.moveByCommand fuel p.1 p.2
  return (p, { s with system := system })

/-- From there on, for the target that was acquired. -/
def moveToAcquired (w : Surroundings) (fuel : ℕ) (s : ScanState g) (tAcquired : ℕ)
    (p : R × R) : Option (ScanState g) := do
  let patternId := w.id tAcquired
  let (p, errors) ← targetToArmQuiet s.system.armConstruct (s.system.currentX, s.system.currentY)
    s.targets s.errors patternId p
  let system ← s.system.moveByCommand fuel p.1 p.2
  return { s with system := system, errors := errors }

end ScanState

/-- How the scan ends. -/
inductive ScanResult (g : ArmParameters R)
  | nullTarget
  | returned (s : ScanState g)

/-- `scan_for_pattern_with_rotation_motion`. There is no result when it follows a NULL
driver or sensor, divides by zero, or when a loop needs more than `fuel` passes. -/
def scanForPatternWithRotationMotion (w : Surroundings) (fuel : ℕ) (s : ScanState g) :
    Option (ScanResult g) := do
  let (tAcquired, s) ← s.rotationSweep w fuel
  let (p, s) ← s.moveToRotation fuel
  match tAcquired with
  | none => return .nullTarget
  | some t =>
    let s ← s.moveToAcquired w fuel t p
    return .returned s

end Arm2D

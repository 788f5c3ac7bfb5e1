import Arm2D.Library.Runs
import Arm2D.MotorDriver

/-! # The drives

The drivers of `sg_motor_driver_array` with the port that they share, and the functions
of arm_2d.cpp that move a motor and wait for it. -/
namespace Arm2D
open Library

/-- A slot of the array may be NULL. -/
structure Drives (R : Type) where
  motorDriverArray : ℕ → Option (MotorDriver R)
  serialPort : SerialPort
  useSimulations : Bool

namespace Drives
variable {R : Type}

/-- The drivers as the first loop of `init_motor_descriptions` allocates them. -/
def allocate [One R] (motorCount : ℕ) (serialPort : SerialPort) (useSimulations : Bool) :
    Drives R where
  motorDriverArray i := if i < motorCount then some (MotorDriver.construct (i + 1)) else none
  serialPort := serialPort
  useSimulations := useSimulations

theorem eq_construct_of_mem_allocate [One R] {motorCount : ℕ} {serialPort : SerialPort}
    {useSimulations : Bool} {i : ℕ} {md : MotorDriver R}
    (h : md ∈ (allocate motorCount serialPort useSimulations).motorDriverArray i) :
    md = MotorDriver.construct (i + 1) := by
  change (if i < motorCount then some (MotorDriver.construct (i + 1)) else none) = some md at h
  split_ifs at h with hi
  exact (Option.some.inj h).symm

/-- What a method of a driver leaves. -/
def put (d : Drives R) (i : ℕ) (r : MotorDriver R × SerialPort) : Drives R :=
  { d with
    motorDriverArray := Function.update d.motorDriverArray i (some r.1)
    serialPort := r.2 }

@[simp] theorem put_same (d : Drives R) (i : ℕ) (r : MotorDriver R × SerialPort) :
    (d.put i r).motorDriverArray i = some r.1 := Function.update_self _ _ _

theorem put_other (d : Drives R) {i j : ℕ} (h : j ≠ i) (r : MotorDriver R × SerialPort) :
    (d.put i r).motorDriverArray j = d.motorDriverArray j := Function.update_of_ne h _ _

/-- `check_status` on a slot of the array; a NULL driver is not asked. -/
def checkStatus (d : Drives R) (i : ℕ) (checkNoisy : Bool) : Bool × Drives R :=
  match d.motorDriverArray i with
  | none => (false, d)
  | some md =>
    let r := (md.checkStatus d.useSimulations d.serialPort checkNoisy).val
    (r.1, d.put i r.2)

/-- The common body of `check_motion_status` and `check_motion_status_quiet`. -/
def checkMotionStatusBody (checkNoisy : Bool) (d : Drives R) (motor : ℕ) : Bool × Drives R :=
  let motor := if motor > 0 then motor - 1 else motor
  let r := d.checkStatus motor checkNoisy
  ((d.motorDriverArray motor).isSome && !r.1, r.2)

def checkMotionStatus (d : Drives R) (motor : ℕ) : Bool × Drives R :=
  d.checkMotionStatusBody true motor

def checkMotionStatusQuiet (d : Drives R) (motor : ℕ) : Bool × Drives R :=
  d.checkMotionStatusBody false motor

/-- The waiting loop of `move_by_command`, for at most so many passes; both drives are
asked in each. -/
def waitLoop : ℕ → Drives R → Option (Drives R)
  | 0, _ => none
  | fuel + 1, d =>
    let (inMotion1, d) := d.checkMotionStatus 1
    let (inMotion2, d) := d.checkMotionStatus 2
    if inMotion1 || inMotion2 then waitLoop fuel d else some d

theorem waitLoop_mono {fuel fuel' : ℕ} (hle : fuel ≤ fuel') (d : Drives R) :
    ∀ d' ∈ waitLoop fuel d, d' ∈ waitLoop fuel' d := by
  let pass (k : Drives R → Option (Drives R)) (d : Drives R) : Option (Drives R) :=
    let r1 := d.checkMotionStatus 1
    let r2 := r1.2.checkMotionStatus 2
    if r1.1 || r2.1 then k r2.2 else some r2.2
  have hsucc : ∀ n d, waitLoop (n + 1) d = pass (waitLoop n) d := fun _ _ => rfl
  refine loop_mono (fun _ => rfl) hsucc ?_ hle d
  intro k k' hk d d' h
  dsimp only [pass] at h ⊢
  split_ifs at h ⊢
  · exact hk _ _ h
  · exact h

/-- In a simulation `move_by_command` only sleeps. -/
def waitForMotion (fuel : ℕ) (d : Drives R) : Option (Drives R) :=
  if d.useSimulations then some d else d.waitLoop fuel

theorem waitForMotion_mono {fuel fuel' : ℕ} (hle : fuel ≤ fuel') (d : Drives R) :
    ∀ d' ∈ d.waitForMotion fuel, d' ∈ d.waitForMotion fuel' := by
  intro d' h
  rw [waitForMotion] at h ⊢
  split_ifs at h ⊢
  · exact h
  · exact waitLoop_mono hle d d' h

/-- The text that `step_n_motion` substitutes for `{STEPS}`. -/
def stepString [Field R] [LinearOrder R] [FloorRing R] (md : MotorDriver R) (nSteps : ℤ) : Str :=
  let fSteps := (nSteps : R) * md.gearRatio
  let nSteps := truncate fSteps
  decimal nSteps

/-- `step_n_motion`; a NULL driver is dereferenced. -/
def stepNMotion [Field R] [LinearOrder R] [FloorRing R] (d : Drives R) (motor : ℕ)
    (nSteps : ℤ) : Option (Drives R) :=
  let motor := if motor > 0 then motor - 1 else motor
  match d.motorDriverArray motor with
  | none => none
  | some md => some (d.put motor (md.runActionVar d.useSimulations d.serialPort
      "single_motion_var".toList "STEPS".toList (stepString md nSteps)).val)

/-- Both motors have a driver and nothing waits for them. -/
structure Simulated (d : Drives R) : Prop where
  simulations : d.useSimulations = true
  driver1 : (d.motorDriverArray 0).isSome
  driver2 : (d.motorDriverArray 1).isSome

theorem Simulated.put {d : Drives R} (h : Simulated d) (i : ℕ)
    (r : MotorDriver R × SerialPort) : Simulated (d.put i r) where
  simulations := h.simulations
  driver1 := by
    by_cases hi : 0 = i
    · rw [hi, put_same]
      rfl
    · rw [put_other _ hi]
      exact h.driver1
  driver2 := by
    by_cases hi : 1 = i
    · rw [hi, put_same]
      rfl
    · rw [put_other _ hi]
      exact h.driver2

theorem Simulated.stepNMotion [Field R] [LinearOrder R] [FloorRing R] {d : Drives R}
    (h : Simulated d) {i : ℕ} (hi : i < 2) (n : ℤ) :
    ∃ d', d.stepNMotion (i + 1) n = some d' ∧ Simulated d' := by
  have hslot : (d.motorDriverArray i).isSome := by
    interval_cases i
    · exact h.driver1
    · exact h.driver2
  obtain ⟨md, hmd⟩ := Option.isSome_iff_exists.mp hslot
  refine ⟨_, ?_, h.put i (md.runActionVar d.useSimulations d.serialPort
    "single_motion_var".toList "STEPS".toList (stepString md n)).val⟩
  simp [Drives.stepNMotion, hmd]

theorem simulated_allocate [One R] {n : ℕ} (hn : 2 ≤ n) (port : SerialPort) :
    Simulated (allocate n port true : Drives R) where
  simulations := rfl
  driver1 := by simp [allocate, show 0 < n by omega]
  driver2 := by simp [allocate, show 1 < n by omega]

end Drives
end Arm2D

import Arm2D.MotorUnits
import Arm2D.ParameterFile

/-! # Descriptions of motors, sensors and targets

`init_motor_descriptions` and `init_sensor_descriptions` of arm_2d.cpp: they run through
the parameters, and an entry whose key begins with (m), (s) or (t) goes to a motor, a
sensor or a target. Where a slot outside its array or without an object is followed there
is no value. The sensors' clients and the fields that are computed from a descriptor are
left out. -/
namespace Arm2D

/-- The number in the brackets, counted from zero; an `unsigned char`. -/
def indexOf (key : Str) : ℕ :=
  match (cStr key).dropWhile (· ≠ '[') with
  | [] => 0
  | _ :: tmp =>
    let i := atoi tmp
    let i := if i > 0 then i - 1 else i
    (i % 256).toNat

/-- An `int` assigned to an `unsigned int`. -/
def unsignedInt (i : ℤ) : ℕ := (i % 2 ^ 32).toNat

/-- What stands between the three characters of the family and the bracket. -/
def entryName (key : Str) : Str := (key.drop 3).takeWhile (· ≠ '[')

/-- `sg_server_parameters[key]`: an absent key reads as the empty string. -/
def serverParameter (serverParameters : ParameterMap) (key : Str) : Str :=
  (serverParameters[key]?).getD []

/-- `DEFAULT_DRIVE_COUNT`. -/
def motorCount (serverParameters : ParameterMap) : ℕ :=
  unsignedInt (atoi (serverParameter serverParameters "MOTOR_COUNT".toList))

/-- `DEFAULT_SENSOR_COUNT`. -/
def sensorCount (serverParameters : ParameterMap) : ℕ :=
  unsignedInt (atoi (serverParameter serverParameters "SENSOR_COUNT".toList))

/-- Both arrays have as many slots. -/
def maxCount : ℕ := 200

section motors
variable {R : Type} [Field R] [LinearOrder R] [PiConstant R] {g : ArmParameters R}

/-- `process_parameters`: the macros that initialise a drive. -/
def MotorDriver.processParameters (simulations : Bool) (md : MotorDriver R) (port : SerialPort) :
    MotorDriver R × SerialPort :=
  (toItems "read_power_up,set_run_parameters,read_reset".toList ',').foldl
    (fun r command => ((r.1.addItems (r.1.parameterAt command)).runLines simulations r.2).val)
    (md.specialization, port)

/-- `sg_actual_drive_count` and the drives. -/
structure MotorTable (R : Type) where
  actualDriveCount : ℕ
  drives : Drives R

/-- One pass of the loop over the parameters. -/
def motorEntry (c : ArmConfiguration g) (m : MotorTable R) (entry : Str × Str) :
    Option (MotorTable R) :=
  let (key, line) := entry
  if key = "drive_count".toList then
    some { m with actualDriveCount := unsignedInt (atoi line) }
  else if key.take 3 ≠ "(m)".toList then some m
  else if find ['['] key 0 = some 0 then some m
  else do
    let currentIndex := indexOf key
    let md ← m.drives.motorDriverArray currentIndex
    let md := md.addParameter (entryName key) (checkVars c line)
    return { m with drives := m.drives.put currentIndex (md, m.drives.serialPort) }

/-- The last loop: so many drives from the `i`-th on. -/
def processLoop : ℕ → ℕ → Drives R → Option (Drives R)
  | 0, _, d => some d
  | n + 1, i, d => do
    let md ← d.motorDriverArray i
    processLoop n (i + 1) (d.put i (md.processParameters d.useSimulations d.serialPort))

def initMotorDescriptions (c : ArmConfiguration g) (serverParameters : ParameterMap)
    (serialPort : SerialPort) (useSimulations : Bool) : Option (Drives R) :=
  if serverParameters.isEmpty then some (Drives.allocate 0 serialPort useSimulations)
  else if maxCount < motorCount serverParameters then none
  else do
    let m ← serverParameters.toList.foldlM (motorEntry c)
      ⟨0, Drives.allocate (motorCount serverParameters) serialPort useSimulations⟩
    processLoop m.actualDriveCount 0 m.drives

end motors

/-- `set_descriptor` on a sink's parameters. -/
def setDescriptor (parameters : Str → Option Str) (goalDescription : Str) : Str → Option Str :=
  (toItems goalDescription ';').foldl (fun parameters pardef =>
    Function.update parameters (trimString (splitString pardef ':').1)
      (some (trimString (splitString pardef ':').2))) parameters

/-- A target object as the descriptions leave it; its sensor is a slot of the array. -/
structure DescribedTarget where
  parameters : Str → Option Str
  sensor : Option ℕ

def DescribedTarget.parameter (t : DescribedTarget) (key : Str) : Str := (t.parameters key).getD []

/-- The object that a definition makes. -/
def DescribedTarget.construct (sensorMap : Str → Option ℕ) (line : Str) : DescribedTarget :=
  let parameters := setDescriptor (fun _ => none) line
  ⟨parameters, sensorMap ((parameters "source".toList).getD [])⟩

/-- The globals of `init_sensor_descriptions`. A pointer to a target is its place among all
that were allocated; of a sensor the array has the parameters. -/
structure SensorTable where
  currentIndex : ℕ
  sensorControllerArray : ℕ → Option (Str → Option Str)
  sensorMap : Str → Option ℕ
  targets : List DescribedTarget
  targetStorage : List ℕ
  travelMap : Str → Option ℕ
  targetMap : Str → Option ℕ

namespace SensorTable

/-- Before the loops, with so many sensors allocated. -/
def allocate (sensorCount : ℕ) : SensorTable where
  currentIndex := 0
  sensorControllerArray i := if i < sensorCount then some (fun _ => none) else none
  sensorMap _ := none
  targets := []
  targetStorage := []
  travelMap _ := none
  targetMap _ := none

/-- The assignment to `current_index` that both loops make. -/
def setCurrentIndex (s : SensorTable) (key : Str) : SensorTable :=
  if find ['['] key 0 = some 0 then s else { s with currentIndex := indexOf key }

def sensorEntry (s : SensorTable) (entry : Str × Str) : Option SensorTable :=
  let (key, line) := entry
  if key.take 3 ≠ "(s)".toList then some s
  else do
    let s := s.setCurrentIndex key
    let parameters ← s.sensorControllerArray s.currentIndex
    return { s with
      sensorControllerArray := Function.update s.sensorControllerArray s.currentIndex
        (some (setDescriptor parameters line))
      sensorMap := Function.update s.sensorMap (key.drop 3) (some s.currentIndex) }

/-- `strncmp("(t)definition",key.c_str(),8) == 0`. -/
def isDefinition (key : Str) : Bool := (cStr key).take 8 = "(t)defin".toList

/-- A definition: the new target goes into its slot, and into those before it that do not
exist yet. -/
def define (s : SensorTable) (line : Str) : SensorTable :=
  let target := DescribedTarget.construct s.sensorMap line
  let pointer := s.targets.length
  { s with
    targets := s.targets ++ [target]
    targetStorage :=
      if s.targetStorage.length ≤ s.currentIndex then
        s.targetStorage ++
          List.replicate (s.currentIndex + 1 - s.targetStorage.length) pointer
      else s.targetStorage.set s.currentIndex pointer
    travelMap := Function.update s.travelMap (target.parameter "id".toList) (some pointer)
    targetMap := Function.update s.targetMap (target.parameter "report_id".toList)
      (some pointer) }

variable {R : Type} [Field R] [PiConstant R] {g : ArmParameters R}

/-- Any other entry of a target: the index is counted down once more. -/
def addTargetParameter (c : ArmConfiguration g) (s : SensorTable) (key line : Str) :
    Option SensorTable := do
  let currentIndex := if s.currentIndex > 0 then s.currentIndex - 1 else s.currentIndex
  let pointer ← s.targetStorage[currentIndex]?
  let target ← s.targets[pointer]?
  let target := { target with
    parameters := Function.update target.parameters (entryName key) (some (checkVars c line)) }
  return { s with currentIndex := currentIndex, targets := s.targets.set pointer target }

def targetEntry (c : ArmConfiguration g) (s : SensorTable) (entry : Str × Str) :
    Option SensorTable :=
  let (key, line) := entry
  if key.take 3 ≠ "(t)".toList then some s
  else if isDefinition key then some ((s.setCurrentIndex key).define line)
  else (s.setCurrentIndex key).addTargetParameter c key line

/-- The last loop, which calls every sensor of `sg_sensor_map`. A source that names no sensor has
put a NULL into the map; of the clients it is taken that they connect and start. -/
def startPorts (s : SensorTable) : Option SensorTable :=
  if s.targets.all fun t => t.sensor.isSome then some s else none

end SensorTable

section sensors
variable {R : Type} [Field R] [PiConstant R] {g : ArmParameters R}

/-- The two loops over the parameters. -/
def describeSensors (c : ArmConfiguration g) (serverParameters : ParameterMap) :
    Option SensorTable :=
  if serverParameters.isEmpty then some (SensorTable.allocate 0)
  else if maxCount < sensorCount serverParameters then none
  else do
    let s ← serverParameters.toList.foldlM SensorTable.sensorEntry
      (SensorTable.allocate (sensorCount serverParameters))
    serverParameters.toList.foldlM (SensorTable.targetEntry c) s

def initSensorDescriptions (c : ArmConfiguration g) (serverParameters : ParameterMap) :
    Option SensorTable :=
  (describeSensors c serverParameters).bind SensorTable.startPorts

theorem initSensorDescriptions_eq_some {c : ArmConfiguration g} {params : ParameterMap}
    {s : SensorTable} :
    initSensorDescriptions c params = some s ↔
      describeSensors c params = some s ∧ ∀ t ∈ s.targets, t.sensor.isSome = true := by
  simp only [initSensorDescriptions, SensorTable.startPorts, Option.bind_eq_some_iff,
    Option.ite_none_right_eq_some, List.all_eq_true, Option.some.injEq]
  constructor
  · rintro ⟨s', h, hsensors, rfl⟩
    exact ⟨h, hsensors⟩
  · rintro ⟨h, hsensors⟩
    exact ⟨s, h, hsensors, rfl⟩

end sensors
end Arm2D

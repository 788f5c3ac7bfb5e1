import Arm2D.Commands
import Arm2D.RegisteredTargets
import Arm2D.Startup

/-! # The whole program

`main` of arm_2d.cpp, from the parameter file to the last word of the operator. -/
namespace Arm2D
open Library

section program
variable {R : Type} [Field R] [LinearOrder R] [FloorRing R] [Libm R] [PiConstant R]

namespace Startup
variable (s : Startup R)

/-- `parameter(key)` of a target's object as its definition leaves it. -/
def definition (p : ℕ) (key : Str) : Str :=
  descriptorValue ((definitionLines s.serverParameters).getD p []) key

/-- What the commands read after this start; the offsets that `sscanf` reads and the camera are
given. -/
def field (offsetTotal : ℕ → R × R) (camera : ℕ → ℕ → List (Str × Str)) : CommandField R where
  serverParameters := s.serverParameters
  targetStorage := s.sensors.targetStorage
  id p := s.definition p "id".toList
  level p := unsignedInt (atoi (s.definition p "level".toList))
  offsetTotal := offsetTotal
  parameters :=
    { target := fun p key => ((s.sensors.targets[p]?).map (·.parameter key)).getD []
      sensor := fun p key => ((((s.sensors.targets[p]?).bind DescribedTarget.sensor).bind
        s.sensors.sensorControllerArray).bind (· key)).getD [] }
  camera := camera

/-- The session that begins after this start. -/
def session (words : List Str) : Session s.parameters :=
  .begin s.system (s.sensors.runTargets (definitionLines s.serverParameters)) words

end Startup

/-- How a run of the program ends: the globals after the start, and the last ones. -/
structure Ended (R : Type) [Field R] [LinearOrder R] [FloorRing R] [Libm R] [PiConstant R] where
  start : Startup R
  session : Session start.parameters

/-- `main`, on a parameter file, a port and what the operator types: no value where it has not
come to its end. In the application mode `disengaged` ends the loop behind `to_target` at once. -/
def main (unset : Unset R) (file : Option Str) (good : Bool) (port : SerialPort)
    (offsetTotal : ℕ → R × R) (camera : ℕ → ℕ → List (Str × Str)) (words : List Str)
    (fuel passes : ℕ) : Except Halt (Option (Ended R)) := do
  let s ← initializeAll unset file good port
  let w := s.field offsetTotal camera
  let session := s.session words
  if serverParameter s.serverParameters "run_mode".toList = "application".toList then
    return (toTarget w.targetField (w.passReports 0) fuel session.system session.targets).map
      fun r => ⟨s, session.withGlobals r.2⟩
  else
    return (session.commandLoop w fuel passes).map fun session => ⟨s, session⟩

section ends
variable {unset : Unset R} {file : Option Str} {good : Bool} {port : SerialPort}
  {offsetTotal : ℕ → R × R} {camera : ℕ → ℕ → List (Str × Str)} {words : List Str}
  {fuel passes : ℕ}

theorem main_eq_error_iff {e : Halt} :
    main unset file good port offsetTotal camera words fuel passes = .error e ↔
      initializeAll unset file good port = .error e := by
  unfold main
  rw [except_bind_eq_error, or_iff_left]
  rintro ⟨s, -, h⟩
  dsimp only at h
  split_ifs at h
  · cases h
  · cases h

/-- The program ends in the application mode only where no target has the id of the goal, and
else only on a command that begins with a q. -/
theorem main_returns {r : Ended R}
    (h : main unset file good port offsetTotal camera words fuel passes = .ok (some r)) :
    initializeAll unset file good port = .ok r.start ∧
      (serverParameter r.start.serverParameters "run_mode".toList = "application".toList ∧
          (∀ t ∈ r.start.sensors.targetStorage,
            r.start.definition t "id".toList ≠ "goal".toList) ∧
          r.session = r.start.session words ∨
        serverParameter r.start.serverParameters "run_mode".toList ≠ "application".toList ∧
          ∃ s command rest, (r.start.session words).Reaches (r.start.field offsetTotal camera)
              (¬ Session.Quits ·) s ∧ s.words = command :: rest ∧ command :: rest <:+ words ∧
            Session.Quits command ∧
            r.session = { s with words := rest, commands := s.commands + 1 }) := by
  obtain ⟨s, hstart, h⟩ := except_bind_eq_ok.mp h
  dsimp only at h
  split_ifs at h with hmode
  · obtain ⟨⟨status, system, targets⟩, htarget, hr⟩ :=
      Option.map_eq_some_iff.mp (Except.ok.inj h)
    subst hr
    refine ⟨hstart, Or.inl ⟨hmode, ?_⟩⟩
    unfold toTarget at htarget
    cases hgoal : (s.field offsetTotal camera).targetField.goalSetup with
    | none =>
      simp only [hgoal, Option.some.injEq, Prod.mk.injEq] at htarget
      obtain ⟨-, rfl, rfl⟩ := htarget
      exact ⟨(s.field offsetTotal camera).targetField.goalSetup_eq_none.mp hgoal, rfl⟩
    | some goal => simp [hgoal, Approach.goalLoop_eq_none] at htarget
  · obtain ⟨session, hloop, hr⟩ := Option.map_eq_some_iff.mp (Except.ok.inj h)
    subst hr
    obtain ⟨s₁, command, rest, hreaches, hwords, hlast⟩ := Session.commandLoop_ends hloop
    have htyped : s₁.words <:+ words := hreaches.words
    exact ⟨hstart, Or.inr ⟨hmode, s₁, command, rest, hreaches, hwords, hwords ▸ htyped, hlast⟩⟩

end ends

end program

section bounded
variable {unset : Unset ℝ} {file : Option Str} {good : Bool} {port : SerialPort} {s : Startup ℝ}
  {params : ParameterMap}

end bounded

theorem readParameters_oneDrive :
    readParameters ∅ true (some (fileText oneDriveFile false)) = some (entriesMap oneDrive) :=
  readParameters_entries fileLines_oneDrive nul_notMem_oneDrive length_oneDrive

theorem exists_start_oneDrive :
    ∃ s : Startup ℝ, initializeAll ⟨0, 0, 0, 0⟩ (some (fileText oneDriveFile false)) true
      ⟨[some 'x'], []⟩ = .ok s := by
  obtain ⟨hmotorCount, hsensorCount, -⟩ := counts_oneDrive
  exact exists_initializeAll _ readParameters_oneDrive (Or.inr ⟨rfl, 'x', by simp⟩)
    ⟨hmotorCount.ge, by rw [hmotorCount]; decide⟩ ⟨hsensorCount.ge, by rw [hsensorCount]; decide⟩
    entriesLand_oneDrive sourcesNamed_oneDrive

def numberEntry (key : Key) (value : Str)
    (h : (∀ c ∈ value, isspace c = false) ∧ value ≠ ['\x7b']) : Entry :=
  .plain key value (trimmed_of_clean h.1) (fun hc => absurd (h.1 _ hc) (by decide)) h.2

/-- The line `FP{STEPS}`. -/
def feedLine : BlockLine :=
  ⟨feedToPosition.text, feedToPosition.ne_nil, feedToPosition.trimmed, by decide, by decide,
    by decide⟩

/-- Two drives with a macro of one line for their motions, and 20000 steps for a turn. -/
def twoDrives : List Entry :=
  numberEntry motorCountKey ['2'] (by simp [isspace]) ::
    numberEntry driveCountKey ['2'] (by simp [isspace]) :: (unitEntries ++
      [numberEntry (fileKey "CANISTER_STEP".toList (by simp [isspace])) "20000".toList
          (by simp [isspace]),
        numberEntry (fileKey "ELBOW_STEP".toList (by simp [isspace])) "20000".toList
          (by simp [isspace]),
        .block (fileKey "(m)single_motion_var[1]".toList (by simp [isspace])) [feedLine],
        .block (fileKey "(m)single_motion_var[2]".toList (by simp [isspace])) [feedLine]])

def twoDrivesFile : List FileLine :=
  fileLine "MOTOR_COUNT: 2".toList :: fileLine "drive_count: 2".toList :: (unitLines ++
    [fileLine "CANISTER_STEP: 20000".toList, fileLine "ELBOW_STEP: 20000".toList,
      fileLine "(m)single_motion_var[1]: \x7b".toList, tabLine "FP\x7bSTEPS\x7d".toList,
      fileLine ['\x7d'], fileLine "(m)single_motion_var[2]: \x7b".toList,
      tabLine "FP\x7bSTEPS\x7d".toList, fileLine ['\x7d']])

theorem fileLines_twoDrives :
    twoDrivesFile.filterMap FileLine.content? = twoDrives.flatMap Entry.lines := rfl

theorem nul_notMem_twoDrives : '\x00' ∉ fileText twoDrivesFile false := by decide +kernel

theorem readParameters_twoDrives :
    readParameters ∅ true (some (fileText twoDrivesFile false)) = some (entriesMap twoDrives) :=
  readParameters_entries fileLines_twoDrives nul_notMem_twoDrives (by decide +kernel)

theorem counts_twoDrives : motorCount (entriesMap twoDrives) = 2 ∧
    sensorCount (entriesMap twoDrives) = 1 ∧ driveCount (entriesMap twoDrives) = 2 ∧
    useSimulations (entriesMap twoDrives) = false := by
  unfold motorCount sensorCount driveCount useSimulations serverParameter
  simp only [getElem?_entriesMap]
  decide +kernel

theorem twoDrives_keys : ∀ e ∈ twoDrives,
    (e.key.take 3 = "(m)".toList → e.key = motorKey "single_motion_var".toList 1 ∨
      e.key = motorKey "single_motion_var".toList 2) ∧
      e.key.take 3 ≠ "(s)".toList ∧ e.key.take 3 ≠ "(t)".toList := by
  decide +kernel

theorem motorEntries_twoDrives :
    MotorEntries (motorCount (entriesMap twoDrives)) (entriesMap twoDrives) := by
  intro key hkey hfamily
  obtain ⟨e, he, rfl⟩ := mem_entriesMap.mp hkey
  rw [counts_twoDrives.1]
  rcases (twoDrives_keys e he).1 hfamily with h | h
  · exact ⟨_, 1, h, by simp, by simp, le_rfl, one_le_two⟩
  · exact ⟨_, 2, h, by simp, by simp, one_le_two, le_rfl⟩

def twoDrivesPort : SerialPort :=
  ⟨some 'x' :: none :: expand ReplyLine.text stoppedReplies, []⟩

theorem exists_start_twoDrives :
    ∃ s : Startup ℝ, initializeAll ⟨0, 0, 0, 0⟩ (some (fileText twoDrivesFile false)) true
      twoDrivesPort = .ok s := by
  obtain ⟨hmotorCount, hsensorCount, hdriveCount, -⟩ := counts_twoDrives
  refine exists_initializeAll _ readParameters_twoDrives (Or.inr ⟨rfl, 'x', List.mem_cons_self⟩)
    ⟨by rw [hmotorCount]; decide, by rw [hmotorCount]; decide⟩
    ⟨hsensorCount.ge, by rw [hsensorCount]; decide⟩
    (entriesLand_of_motors (hdriveCount.trans hmotorCount.symm).le fun e he => ⟨fun hfamily => ?_,
      (twoDrives_keys e he).2⟩) (sourcesNamed_of_motors fun e he => (twoDrives_keys e he).2.2)
  rw [hmotorCount]
  rcases (twoDrives_keys e he).1 hfamily with h | h
  · rw [h]
    decide +kernel
  · rw [h]
    decide +kernel

theorem armParameters_twoDrives :
    (armParameters (entriesMap twoDrives) : ArmParameters ℝ).link1 = 2 ∧
    (armParameters (entriesMap twoDrives) : ArmParameters ℝ).link2 = 1 ∧
    atof (serverParameter (entriesMap twoDrives) "MIN_RADIUS".toList) = 1 ∧
    (armParameters (entriesMap twoDrives) : ArmParameters ℝ).canisterStep = 20000 ∧
    (armParameters (entriesMap twoDrives) : ArmParameters ℝ).elbowStep = 20000 := by
  have hone : atof ['1'] = 1 := by decide +kernel
  have hvalue : ∀ key ∈ ["CANISTER_RADIUS".toList, "ARM_1_length".toList,
      "ARM_2_length".toList, "MIN_RADIUS".toList],
      serverParameter (entriesMap twoDrives) key = ['1'] := by
    simp only [serverParameter, getElem?_entriesMap]
    decide +kernel
  have hlink1 := hvalue "CANISTER_RADIUS".toList (by simp)
  have hlink1' := hvalue "ARM_1_length".toList (by simp)
  have hlink2 := hvalue "ARM_2_length".toList (by simp)
  have hradius := hvalue "MIN_RADIUS".toList (by simp)
  have hsteps : ∀ key ∈ ["CANISTER_STEP".toList, "ELBOW_STEP".toList],
      unsignedInt (truncate (atof (serverParameter (entriesMap twoDrives) key) : ℚ)) = 20000 := by
    simp only [serverParameter, getElem?_entriesMap]
    decide +kernel
  refine ⟨?_, ?_, ?_, hsteps _ (by simp), hsteps _ (by simp)⟩
  · simp only [armParameters, ArmParameters.link1, hlink1, hlink1', hone]
    norm_num
  · simp only [armParameters, ArmParameters.link2, hlink2, hone, Rat.cast_one]
  · rw [hradius, hone]

theorem startText_twoDrives {g : ArmParameters ℝ} (c : ArmConfiguration g) :
    startText c (entriesMap twoDrives) = [] := by
  have hkeys : ∀ e ∈ twoDrives, ∀ i < 2, ∀ name ∈ MotorDriver.initializers,
      e.key ≠ motorKey name (i + 1) := by
    decide +kernel
  have hempty : ∀ i < 2, ∀ name ∈ MotorDriver.initializers,
      lastBlock twoDrives (motorKey name (i + 1)) = [] := by
    intro i hi name hname
    have hnone : twoDrives.reverse.find? (·.key = motorKey name (i + 1)) = none :=
      List.find?_eq_none.mpr fun e he => by
        simpa using hkeys e (List.mem_reverse.mp he) i hi name hname
    rw [lastBlock, hnone]
  rw [startText_entriesMap (fun i hi name hname e he hkey => ?_)
    (filter_fileLines_entries fileLines_twoDrives nul_notMem_twoDrives).2, blockLines,
    counts_twoDrives.2.2.1, List.flatMap_eq_nil_iff]
  · intro i hi
    rw [List.flatMap_eq_nil_iff]
    intro name hname
    rw [hempty i (List.mem_range.mp hi) name hname, List.map_nil]
  · rw [counts_twoDrives.2.2.1] at hi
    exact absurd hkey (hkeys e he i hi name hname)

theorem twoDrives_motion : ∀ i < 2, serverParameter (entriesMap twoDrives)
    (motorKey "single_motion_var".toList (i + 1)) = macroText [feedToPosition] := by
  simp only [serverParameter, getElem?_entriesMap]
  decide +kernel

theorem exists_move_twoDrives {s : Startup ℝ}
    (h : initializeAll ⟨0, 0, 0, 0⟩ (some (fileText twoDrivesFile false)) true twoDrivesPort =
      .ok s) (x y : ℝ) : ∃ system, s.system.moveByCommand 1 x y = some system := by
  obtain ⟨hmotorCount, -, hdriveCount, hsimulation⟩ := counts_twoDrives
  obtain ⟨-, -, -, ⟨port', hport, hdrives⟩, -⟩ := initializeAll_from h readParameters_twoDrives
  rw [hsimulation] at hport hdrives
  have hport' : port' = ⟨expand ReplyLine.text stoppedReplies, []⟩ := (Except.ok.inj hport).symm
  have hcount : motorCount (lookUp (startKeys false) (entriesMap twoDrives)) =
      motorCount (entriesMap twoDrives) := by
    simp only [motorCount, serverParameter_lookUp]
  obtain ⟨hsimulations, hslots, hconfigs, hsends⟩ := initMotorDescriptions_spec _
    (by rw [hcount, hmotorCount]; decide) (motorEntries_twoDrives.lookUp startKeys_plain) hdrives
  have hquiet : s.system.drives.serialPort = port' := by
    refine hsends.quiet ?_
    rw [← startText_twoDrives s.system.armConstruct]
    simp only [startText, driveCount, serverParameter_lookUp]
  let st : Station ℝ :=
    { drives := s.system.drives
      arrivals := stoppedReplies
      real := hsimulations
      idle := fun i md hmd => (hslots i md hmd).1
      wired := fun i md hmd => (hslots i md hmd).2
      polls_eq := by rw [hquiet, hport'] }
  refine System.exists_stoppedMove st rfl rfl (fun i hi => ?_) x y
  have hconfig := hconfigs i (by
    simpa only [driveCount, serverParameter_lookUp] using hi.trans_eq hdriveCount.symm)
  obtain ⟨md, hmd, -⟩ := Option.map_eq_some_iff.mp hconfig
  have hparameters := (Drives.parameters_of_described hmd hconfig).trans
    (driverParameters_lookUp s.system.armConstruct startKeys_plain (entriesMap twoDrives) i)
  refine ⟨md, hmd, feedToPosition.fillIn s.system.armConstruct, ?_⟩
  rw [MotorDriver.parameterAt, hparameters, getD_driverParameters,
    twoDrives_motion i hi, checkVars_macroText]
  rfl

end Arm2D

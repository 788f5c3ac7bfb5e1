import Arm2D.ForwardKinematics
import Arm2D.Macros
import Arm2D.Replies

/-! # Where the scan commands take the stopped arm to be

The three commands that end a scan ask both drives for their rotations and hand them to
`rotation_to_cartesian`, each with its own sign and gear scaling. -/
namespace Arm2D
open Library

namespace MotorDriver
variable {R : Type}

/-- The position behind the rotation that `current_rotation` computes. -/
def reportedPosition [Field R] (simulations : Bool) (md : MotorDriver R) (port : SerialPort) : R :=
  atof (md.currentRotation simulations port).val.2.1.reportedSteps

theorem specialization_gearRatio_pos [Field R] [LinearOrder R] [IsStrictOrderedRing R]
    {md : MotorDriver R} (h : md.parameters "gear_ratio".toList = none → 0 < md.gearRatio) :
    0 < md.specialization.gearRatio := by
  rw [specialization]
  cases hvalue : md.parameters "gear_ratio".toList with
  | none => exact h hvalue
  | some value =>
    dsimp only
    split_ifs with hsmall
    · exact one_pos
    · linarith

theorem specialization_shortCommandList [Field R] [LinearOrder R] (md : MotorDriver R) :
    md.specialization.shortCommandList = md.shortCommandList := by
  unfold specialization
  cases md.parameters "gear_ratio".toList <;> rfl

theorem specialization_index [Field R] [LinearOrder R] (md : MotorDriver R) :
    md.specialization.index = md.index := by
  unfold specialization
  cases md.parameters "gear_ratio".toList <;> rfl

theorem specialization_parameters [Field R] [LinearOrder R] (md : MotorDriver R) :
    md.specialization.parameters = md.parameters := by
  unfold specialization
  cases md.parameters "gear_ratio".toList <;> rfl

section kept
variable {α : Type} {f : MotorDriver R → α} (hcommands : ∀ md commands,
  f (md.withCommands commands) = f md) (hresponse : ∀ md response,
  f (handleCommandResponse md response) = f md)
include hcommands hresponse

theorem runCommands2_kept (simulations : Bool) (md : MotorDriver R) (port : SerialPort) :
    f (md.runCommands2 simulations port).val.1 = f md := by
  have hfold : ∀ (responses : List Str) (md : MotorDriver R),
      f (responses.foldl handleCommandResponse md) = f md := by
    intro responses
    induction responses with
    | nil => exact fun _ => rfl
    | cons response responses ih => exact fun md => (ih _).trans (hresponse md response)
  rw [runCommands2]
  cases md.shortCommandList with
  | nil => rfl
  | cons nextComStr rest =>
    dsimp only
    split_ifs
    · exact hcommands md rest
    · exact hcommands md rest
    · exact hcommands md rest
    · rw [(pollLoop_spec 10 _ _).2.1, hfold]
      exact hcommands md rest

/-- What neither the queue of commands nor a reply touches, a run of commands leaves. -/
theorem runLines_kept (simulations : Bool) (md : MotorDriver R) (port : SerialPort) :
    f (md.runLines simulations port).val.1 = f md := by
  induction md, port using runLines.induct simulations with
  | case1 md port h =>
    rw [runLines, dif_pos h]
    rfl
  | case2 md port h r ih =>
    rw [runLines, dif_neg h]
    exact ih.trans (runCommands2_kept hcommands hresponse simulations md port)

end kept

theorem runLines_gearRatio (simulations : Bool) (md : MotorDriver R) (port : SerialPort) :
    (md.runLines simulations port).val.1.gearRatio = md.gearRatio :=
  runLines_kept (fun _ _ => rfl) (fun _ _ => rfl) simulations md port

theorem runLines_index (simulations : Bool) (md : MotorDriver R) (port : SerialPort) :
    (md.runLines simulations port).val.1.index = md.index :=
  runLines_kept (fun _ _ => rfl) (fun _ _ => rfl) simulations md port

theorem runLines_parameters (simulations : Bool) (md : MotorDriver R) (port : SerialPort) :
    (md.runLines simulations port).val.1.parameters = md.parameters :=
  runLines_kept (fun _ _ => rfl) (fun _ _ => rfl) simulations md port

theorem runLines_shortCommandList (simulations : Bool) (md : MotorDriver R)
    (port : SerialPort) : (md.runLines simulations port).val.1.shortCommandList = [] := by
  induction md, port using runLines.induct simulations with
  | case1 md port h =>
    rw [runLines, dif_pos h]
    exact h
  | case2 md port h r ih =>
    rw [runLines, dif_neg h]
    exact ih

theorem currentRotation_eq [Field R] (simulations : Bool) (md : MotorDriver R)
    (port : SerialPort) :
    (md.currentRotation simulations port).val.1 =
      md.reportedPosition simulations port / md.gearRatio := by
  have hgear := runLines_gearRatio simulations md.askedForRotation port
  have hval : (md.currentRotation simulations port).val.1 =
      (atof (runLines simulations md.askedForRotation port).val.1.reportedSteps : R) /
        (runLines simulations md.askedForRotation port).val.1.gearRatio := rfl
  rw [hval, hgear]
  rfl

def currentRotations [Field R] (simulations : Bool) (md1 md2 : MotorDriver R)
    (port : SerialPort) : Logged Str (R × R) := do
  let (rad1, _, port) ← md1.currentRotation simulations port
  let (rad2, _, _) ← md2.currentRotation simulations port
  return (rad1, rad2)

/-- The positions that the two drives report. -/
def reportedPositions [Field R] (simulations : Bool) (md1 md2 : MotorDriver R)
    (port : SerialPort) : R × R :=
  (md1.reportedPosition simulations port,
    md2.reportedPosition simulations (md1.currentRotation simulations port).val.2.2)

theorem currentRotations_val [Field R] (simulations : Bool) (md1 md2 : MotorDriver R)
    (port : SerialPort) :
    (currentRotations simulations md1 md2 port).val =
      ((reportedPositions simulations md1 md2 port).1 / md1.gearRatio,
        (reportedPositions simulations md1 md2 port).2 / md2.gearRatio) :=
  Prod.ext (md1.currentRotation_eq simulations port) (md2.currentRotation_eq simulations _)

theorem currentRotation_answered [Field R] {md : MotorDriver R}
    (hidle : md.shortCommandList = []) {query : Item}
    (hquery : md.parameters "rotation_query".toList = some query.text) {body : Str}
    (hbody : '\r' ∉ body) {port : SerialPort} {rest : List (Option Char)}
    (hport : port.polls = (body ++ ['\r']).map some ++ none :: rest) :
    (md.currentRotation false port).log = [body ++ ['\r']] ∧
      (md.currentRotation false port).val.2.1.reportedSteps =
        trimString (splitString (body ++ ['\r']) '=').2 ∧
      (md.currentRotation false port).val.2.2.polls = rest := by
  have hcommands : md.askedForRotation.shortCommandList = [md.indexStr ++ query.text] := by
    have hitems := toItems_macroText [query]
    rw [macroText, List.map_singleton, List.intercalate_singleton] at hitems
    rw [askedForRotation, parameterAt, hquery, Option.getD_some, addItems,
      withCommands_shortCommandList, hitems]
    simp [hidle, indexStr]
  have hpoll : poll '\r' 10 port.polls = ([body ++ ['\r']], rest) := by
    have hread := readUntil_frame '\r' hbody (none :: rest)
    rw [hport, poll_of_ne_nil '\r' (by rw [hread]; simp), hread, poll_zero_none]
  have hreads : md.askedForRotation.Reads := reads_of_index hcommands
  obtain ⟨hlog, hmd, hpolls⟩ := runCommands2_of_reads hreads port
  rw [hpoll, ← runLines_singleton false port hcommands] at hlog hmd hpolls
  refine ⟨?_, congrArg reportedSteps hmd, hpolls⟩
  rw [currentRotation_log, ← runLines_log]
  exact hlog

end MotorDriver

namespace ArmConfiguration

section points
variable {R : Type} [Field R] [LinearOrder R] [FloorRing R] [Libm R] [PiConstant R]
variable {g : ArmParameters R} (simulations : Bool) (md1 md2 : MotorDriver R) (port : SerialPort)

/-- In `scan_for_pattern`. -/
def scanPoint (c : ArmConfiguration g) : Logged Str (R × R) := do
  let (rad1, rad2) ← MotorDriver.currentRotations simulations md1 md2 port
  return c.rotationToCartesian rad1 rad2

/-- In `scan_for_pattern_with_directed_motion`. -/
def directedScanPoint (c : ArmConfiguration g) : Logged Str (R × R) := do
  let (rad1, rad2) ← MotorDriver.currentRotations simulations md1 md2 port
  let rad1 := rad1 * md1.gearRatio
  let rad2 := rad2 * md2.gearRatio
  return c.rotationToCartesian rad1 rad2

/-- In `scan_for_pattern_with_rotation_motion`. -/
def rotationScanPoint (c : ArmConfiguration g) : Logged Str (R × R) := do
  let (rad1, rad2) ← MotorDriver.currentRotations simulations md1 md2 port
  return c.rotationToCartesian (-rad1) (-rad2)

end points

/-- With positions `p1`, `p2` and gear ratios `r1`, `r2`, the angles that belong to the
rotations and the angles that belong to the positions both put the forearm's end on the
first axis, at the same abscissa. -/
structure SignAndGearVanish (g : ArmParameters ℝ) (p1 p2 r1 r2 : ℝ) : Prop where
  geared : g.link1 * Real.sin (p1 / r1 * (2 * Real.pi / g.canisterStep)) +
    g.link2 * Real.sin (p1 / r1 * (2 * Real.pi / g.canisterStep) +
      p2 / r2 * (2 * Real.pi / g.elbowStep)) = 0
  direct : g.link1 * Real.sin (p1 * (2 * Real.pi / g.canisterStep)) +
    g.link2 * Real.sin (p1 * (2 * Real.pi / g.canisterStep) +
      p2 * (2 * Real.pi / g.elbowStep)) = 0
  abscissa : g.link1 * Real.cos (p1 / r1 * (2 * Real.pi / g.canisterStep)) -
      g.link2 * Real.cos (p1 / r1 * (2 * Real.pi / g.canisterStep) +
        p2 / r2 * (2 * Real.pi / g.elbowStep)) =
    g.link1 * Real.cos (p1 * (2 * Real.pi / g.canisterStep)) -
      g.link2 * Real.cos (p1 * (2 * Real.pi / g.canisterStep) +
        p2 * (2 * Real.pi / g.elbowStep))

theorem mirroredTip_neg (l1 l2 t b : ℝ) :
    mirroredTip l1 l2 (-t) (-b) = ((mirroredTip l1 l2 t b).1, -(mirroredTip l1 l2 t b).2) := by
  simp only [mirroredTip, ← neg_add, Real.cos_neg, Real.sin_neg, mul_neg]

variable {g : ArmParameters ℝ}

/-- A drive that is asked for its position by `IP`. -/
def queriedDrive (index : ℕ) (gearRatio : ℝ) : MotorDriver ℝ :=
  { (MotorDriver.construct index : MotorDriver ℝ).addParameter "rotation_query".toList
      "IP".toList with
    gearRatio := gearRatio }

def twoReplies (body1 body2 : Str) : SerialPort :=
  ⟨(body1 ++ ['\r']).map some ++ none :: ((body2 ++ ['\r']).map some ++ [none]), []⟩

theorem reportedPositions_twoReplies (r1 r2 : ℝ) {body1 body2 : Str} (h1 : '\r' ∉ body1)
    (h2 : '\r' ∉ body2) :
    MotorDriver.reportedPositions false (queriedDrive 1 r1) (queriedDrive 2 r2)
        (twoReplies body1 body2) =
      ((atof (trimString (splitString (body1 ++ ['\r']) '=').2) : ℝ),
        (atof (trimString (splitString (body2 ++ ['\r']) '=').2) : ℝ)) := by
  let query : Item := ⟨"IP".toList, by decide, trimmed_of_clean (by simp [isspace]), by decide,
    by decide, by decide⟩
  have hquery : ∀ index r, (queriedDrive index r).parameters "rotation_query".toList =
      some query.text := by
    intro index r
    simp [queriedDrive, MotorDriver.addParameter, query]
  have hport : (twoReplies body1 body2).polls = (body1 ++ ['\r']).map some ++
      none :: ((body2 ++ ['\r']).map some ++ none :: []) := rfl
  have hidle : ∀ index r, (queriedDrive index r).shortCommandList = [] := fun _ _ => rfl
  obtain ⟨-, hreply1, hport1⟩ :=
    MotorDriver.currentRotation_answered (hidle 1 r1) (hquery 1 r1) h1 hport
  obtain ⟨-, hreply2, -⟩ :=
    MotorDriver.currentRotation_answered (hidle 2 r2) (hquery 2 r2) h2 hport1
  rw [MotorDriver.reportedPositions, MotorDriver.reportedPosition, MotorDriver.reportedPosition,
    hreply1, hreply2]

end ArmConfiguration
end Arm2D

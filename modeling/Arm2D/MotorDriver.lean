import Arm2D.Library.Framing
import Arm2D.Numbers
import Arm2D.StaticUtils

/-! # Motor drivers on the serial port

`class MotorDriver` of arm_configuration.h and `run_commands2` of serialback.xpp. All
drivers share one port; what they print and how long they sleep is left out. -/
namespace Arm2D
open Library

/-- The port: the answers to the coming tests of `in_avail`, each nothing or a byte for
the `get` behind it, and what was written. -/
structure SerialPort where
  polls : List (Option Char)
  written : Str
  deriving DecidableEq, Repr

def SerialPort.write (port : SerialPort) (s : Str) : SerialPort :=
  { port with written := port.written ++ s }

/-- `_index_str` is the decimal text of the constructor's argument. -/
structure MotorDriver (R : Type) where
  index : ℕ
  parameters : Str → Option Str
  shortCommandList : List Str
  parameter : Str
  checkingStatus : Bool
  checkingPosition : Bool
  reportedSteps : Str
  gearRatio : R

namespace MotorDriver
variable {R : Type}

def construct [One R] (index : ℕ) : MotorDriver R where
  index := index
  parameters := fun _ => none
  shortCommandList := []
  parameter := []
  checkingStatus := true
  checkingPosition := false
  reportedSteps := []
  gearRatio := 1

def indexStr (md : MotorDriver R) : Str := decimal md.index

/-- `_parameters[key]`: an absent key reads as the empty string. -/
def parameterAt (md : MotorDriver R) (key : Str) : Str := (md.parameters key).getD []

def addParameter (md : MotorDriver R) (key line : Str) : MotorDriver R :=
  { md with parameters := Function.update md.parameters key (some line) }

def withCommands (md : MotorDriver R) (commands : List Str) : MotorDriver R :=
  { md with shortCommandList := commands }

@[simp] theorem withCommands_shortCommandList (md : MotorDriver R) (commands : List Str) :
    (md.withCommands commands).shortCommandList = commands := rfl

@[simp] theorem withCommands_withCommands (md : MotorDriver R) (commands others : List Str) :
    (md.withCommands commands).withCommands others = md.withCommands others := rfl

theorem withCommands_self (md : MotorDriver R) : md.withCommands md.shortCommandList = md := rfl

def addLine (md : MotorDriver R) (line : Str) : MotorDriver R :=
  md.withCommands (md.shortCommandList ++ [line])

/-- `TOO_SMALL` ratios count as no gear. -/
def specialization [Field R] [LinearOrder R] (md : MotorDriver R) : MotorDriver R :=
  match md.parameters "gear_ratio".toList with
  | none => md
  | some value =>
    let ratio : R := atof value
    { md with gearRatio := if ratio < 0.005 then 1 else ratio }

def handleCommandResponse (md : MotorDriver R) (response : Str) : MotorDriver R :=
  { md with
    parameter := response
    reportedSteps :=
      if md.checkingPosition then trimString (splitString response '=').2
      else md.reportedSteps }

/-- The inner loop of `run_commands2`: bytes up to a carriage return, or up to a test
that finds none. -/
def readResponse (polls : List (Option Char)) : Str × List (Option Char) :=
  readUntil '\r' polls

/-- The outer loop of `run_commands2`. The log has the strings that it passes to
`handle_command_response`. -/
def pollLoop (tries : ℕ) (md : MotorDriver R) (port : SerialPort) :
    Logged Str (MotorDriver R × SerialPort) :=
  let r := readResponse port.polls
  let port' : SerialPort := ⟨r.2, port.written ++ ['\r']⟩
  if _h : r.1 ≠ [] then do
    Logged.tell r.1
    pollLoop 0 (md.handleCommandResponse r.1) port'
  else if 0 < tries then pollLoop (tries - 1) md port'
  else pure (md, port')
termination_by port.polls.length + tries
decreasing_by
  · have hlt : (readUntil '\r' port.polls).2.length < port.polls.length :=
      readUntil_length_lt '\r' _h
    change (readUntil '\r' port.polls).2.length + 0 < _
    omega
  · have hle := readUntil_length_le '\r' port.polls
    change (readUntil '\r' port.polls).2.length + (tries - 1) < _
    omega

/-- `run_commands2`; in a simulation the answer goes nowhere. -/
def runCommands2 (simulations : Bool) (md : MotorDriver R) (port : SerialPort) :
    Logged Str (MotorDriver R × SerialPort) :=
  match md.shortCommandList with
  | [] => pure (md, port)
  | nextComStr :: rest =>
    let md := md.withCommands rest
    let nextCom := cStr nextComStr
    let port := if simulations then port else port.write (nextCom ++ ['\r'])
    if nextCom.head? = some 'q' then pure (md, port)
    else if simulations then pure (md, port)
    else pollLoop 10 md port

/-- The loop against the library's reader: the same strings, handled one by one. -/
theorem pollLoop_spec (tries : ℕ) (md : MotorDriver R) (port : SerialPort) :
    (pollLoop tries md port).log = (poll '\r' tries port.polls).1 ∧
      (pollLoop tries md port).val.1 =
        (poll '\r' tries port.polls).1.foldl handleCommandResponse md ∧
      (pollLoop tries md port).val.2.polls = (poll '\r' tries port.polls).2 := by
  induction tries, md, port using pollLoop.induct with
  | case1 tries md port r port' h ih =>
    have h' : (readUntil '\r' port.polls).1 ≠ [] := h
    rw [pollLoop, dif_pos h, poll_of_ne_nil '\r' h']
    obtain ⟨hlog, hmd, hport⟩ := ih
    refine ⟨?_, hmd, hport⟩
    rw [Logged.bind_log, Logged.tell_log, hlog]
    rfl
  | case2 tries md port r port' h htries ih =>
    have h' : ¬ (readUntil '\r' port.polls).1 ≠ [] := h
    rw [pollLoop, dif_neg h, if_pos htries, poll, dif_neg h', if_pos htries]
    exact ih
  | case3 tries md port r h htries =>
    have h' : ¬ (readUntil '\r' port.polls).1 ≠ [] := h
    rw [pollLoop, dif_neg h, if_neg htries, poll, dif_neg h', if_neg htries]
    exact ⟨rfl, rfl, rfl⟩

theorem foldl_withCommands (responses commands : List Str) (md : MotorDriver R) :
    responses.foldl handleCommandResponse (md.withCommands commands) =
      (responses.foldl handleCommandResponse md).withCommands commands := by
  induction responses generalizing md with
  | nil => rfl
  | cons response responses ih => exact ih (md.handleCommandResponse response)

theorem runCommands2_shortCommandList (simulations : Bool) (md : MotorDriver R)
    (port : SerialPort) :
    (md.runCommands2 simulations port).val.1.shortCommandList = md.shortCommandList.tail := by
  rw [runCommands2]
  cases hq : md.shortCommandList with
  | nil => exact hq
  | cons nextComStr rest =>
    simp only [List.tail_cons]
    split_ifs
    · rfl
    · rfl
    · rfl
    · rw [(pollLoop_spec 10 _ _).2.1, foldl_withCommands, withCommands_shortCommandList]

def runLines (simulations : Bool) (md : MotorDriver R) (port : SerialPort) :
    Logged Str (MotorDriver R × SerialPort) :=
  if _h : md.shortCommandList = [] then pure (md, port)
  else
    let r := md.runCommands2 simulations port
    let rest := runLines simulations r.val.1 r.val.2
    ⟨rest.val, r.log ++ rest.log⟩
termination_by md.shortCommandList.length
decreasing_by
  rw [runCommands2_shortCommandList, List.length_tail]
  exact Nat.sub_lt (List.length_pos_iff.mpr _h) Nat.one_pos

theorem runLines_singleton (simulations : Bool) {md : MotorDriver R} (port : SerialPort)
    {command : Str} (h : md.shortCommandList = [command]) :
    md.runLines simulations port = md.runCommands2 simulations port := by
  have hempty : (md.runCommands2 simulations port).val.1.shortCommandList = [] := by
    rw [runCommands2_shortCommandList, h, List.tail_cons]
  have hrest := (runLines.eq_def simulations (md.runCommands2 simulations port).val.1
    (md.runCommands2 simulations port).val.2).trans (dif_pos hempty)
  rw [runLines, dif_neg (by simp [h])]
  simp only [hrest, Logged.pure_val, Logged.pure_log, List.append_nil]

def addItems (md : MotorDriver R) (seq : Str) : MotorDriver R :=
  md.withCommands (md.shortCommandList ++ (toItems seq ';').map (md.indexStr ++ ·))

def runAction (simulations : Bool) (md : MotorDriver R) (port : SerialPort)
    (actionKey : Str) : Logged Str (MotorDriver R × SerialPort) :=
  (md.addItems (md.parameterAt actionKey)).runLines simulations port

def varMarker (var : Str) : Str := '\x7b' :: (var ++ ['\x7d'])

theorem varMarker_ne_nil (var : Str) : varMarker var ≠ [] := List.cons_ne_nil _ _

def actionText (md : MotorDriver R) (actionKey var value : Str) : Str :=
  subst (varMarker var) value (md.parameterAt actionKey) (varMarker_ne_nil var)

def runActionVar (simulations : Bool) (md : MotorDriver R) (port : SerialPort)
    (actionKey var value : Str) : Logged Str (MotorDriver R × SerialPort) :=
  (md.addItems (md.actionText actionKey var value)).runLines simulations port

/-- The test of `check_status` on the reply that is kept. -/
def readsStopped (reply : Str) : Bool :=
  trimString (reply.drop (posAfter (find ['='] reply 0))) = "0001".toList

def checkStatus (simulations : Bool) (md : MotorDriver R) (port : SerialPort)
    (checkNoisy : Bool) : Logged Str (Bool × MotorDriver R × SerialPort) := do
  let md := { md with checkingStatus := checkNoisy }
  let (md, port) ← (md.addLine (md.indexStr ++ "SC".toList)).runLines simulations port
  return (readsStopped md.parameter, md, port)

def currentRotation [Field R] (simulations : Bool) (md : MotorDriver R) (port : SerialPort) :
    Logged Str (R × MotorDriver R × SerialPort) := do
  let md := { md with checkingPosition := true }
  let (md, port) ← md.runAction simulations port "rotation_query".toList
  let md := { md with checkingPosition := false }
  let steps : R := atof md.reportedSteps
  return (steps / md.gearRatio, md, port)

end MotorDriver
end Arm2D

import Arm2D.DriverCalls
import Arm2D.Library.Transcript

/-! # The lines of a motion

What a run of lines puts on the wire, in its order: the lines of the queue, each once, and
between them the carriage returns of the polls. A motion of a drive sends the lines of its
macro, and a move the motions of both drives. -/
namespace Arm2D
open Library Relation

namespace MotorDriver
variable {R : Type}

/-- What a run on the port has sent, line by line; a simulation sends nothing, and without a
line the port is not touched. -/
structure Sends (lines : List Str) (simulations : Bool) (port port' : SerialPort) : Prop where
  transcript : simulations = false →
    ∃ out, port'.written = port.written ++ out ∧ Transcript '\r' lines out
  silent : simulations = true → port' = port
  quiet : lines = [] → port' = port

theorem Sends.refl (simulations : Bool) (port : SerialPort) : Sends [] simulations port port :=
  ⟨fun _ => ⟨[], by simp, .nil⟩, fun _ => rfl, fun _ => rfl⟩

theorem Sends.trans {lines lines' : List Str} {simulations : Bool}
    {port port' port'' : SerialPort} (h : Sends lines simulations port port')
    (h' : Sends lines' simulations port' port'') :
    Sends (lines ++ lines') simulations port port'' where
  transcript hs := by
    obtain ⟨out, hout, htranscript⟩ := h.transcript hs
    obtain ⟨out', hout', htranscript'⟩ := h'.transcript hs
    exact ⟨out ++ out', by rw [hout', hout, List.append_assoc], htranscript.append htranscript'⟩
  silent hs := (h'.silent hs).trans (h.silent hs)
  quiet hs := by
    obtain ⟨hnil, hnil'⟩ := List.append_eq_nil_iff.mp hs
    exact (h'.quiet hnil').trans (h.quiet hnil)

theorem runCommands2_sends (simulations : Bool) {md : MotorDriver R} {command : Str}
    {rest : List Str} (hlist : md.shortCommandList = command :: rest) (port : SerialPort) :
    Sends [cStr command] simulations port (md.runCommands2 simulations port).val.2 := by
  rw [runCommands2, hlist]
  cases simulations with
  | true =>
    simp only [if_true]
    refine ⟨fun hs => Bool.noConfusion hs, fun _ => ?_, fun hs => absurd hs (by simp)⟩
    split_ifs <;> rfl
  | false =>
    have hsent : Transcript '\r' [cStr command] (cStr command ++ ['\r']) := by
      simpa using Transcript.nil.message (cStr command)
    refine ⟨fun _ => ?_, fun hs => Bool.noConfusion hs, fun hs => absurd hs (by simp)⟩
    simp only [Bool.false_eq_true, if_false]
    split_ifs
    · exact ⟨_, rfl, hsent⟩
    · obtain ⟨k, hk⟩ := pollLoop_written 10 (md.withCommands rest)
        (port.write (cStr command ++ ['\r']))
      refine ⟨_, ?_, hsent.append (.delimiters '\r' k)⟩
      rw [hk, SerialPort.write, List.append_assoc]

theorem runLines_sends (simulations : Bool) (md : MotorDriver R) (port : SerialPort) :
    Sends (md.shortCommandList.map cStr) simulations port
      (md.runLines simulations port).val.2 := by
  induction md, port using runLines.induct simulations with
  | case1 md port hnil =>
    rw [runLines, dif_pos hnil, hnil]
    exact .refl simulations port
  | case2 md port hne r ih =>
    obtain ⟨command, rest, hlist⟩ := List.exists_cons_of_ne_nil hne
    have hrest : r.val.1.shortCommandList = rest := by
      change (md.runCommands2 simulations port).val.1.shortCommandList = rest
      rw [runCommands2_shortCommandList, hlist, List.tail_cons]
    rw [hrest] at ih
    rw [runLines, dif_neg hne, hlist]
    exact (runCommands2_sends simulations hlist port).trans ih

end MotorDriver

section motions
variable {R : Type} [Field R] [LinearOrder R] [FloorRing R]

theorem MotorDriver.Writes.mono {L L' : Str → Prop} {simulations : Bool} {port port' : SerialPort}
    (h : Writes L simulations port port') (hL : ∀ l, L l → L' l) :
    Writes L' simulations port port' where
  text := by
    obtain ⟨out, hout, htext⟩ := h.text
    exact ⟨out, hout, htext.mono hL⟩
  silent := h.silent

/-- The lines that a call sends, with the number of the drive. -/
def DriverCall.lines (c : DriverCall) (md : MotorDriver R) : List Str :=
  (c.items md).map fun item => cStr (md.indexStr ++ item)

namespace Drives
variable {d d' : Drives R}

/-- The lines of a motion, empty without a driver. -/
def motionLines (d : Drives R) (i : ℕ) (nSteps : ℤ) : List Str :=
  ((d.motorDriverArray i).map (DriverCall.stepNMotion nSteps).lines).getD []

theorem motionLines_of_configs (h : d'.configs = d.configs) : d'.motionLines = d.motionLines := by
  funext i nSteps
  have hconfig : (d'.motorDriverArray i).map MotorDriver.config =
      (d.motorDriverArray i).map MotorDriver.config := congrFun h i
  unfold motionLines
  cases hmd : d.motorDriverArray i with
  | none =>
    have hnone : d'.motorDriverArray i = none := by simpa [hmd] using hconfig
    rw [hnone]
  | some md =>
    obtain ⟨md', hmd', hsame⟩ := Option.map_eq_some_iff.mp (hconfig.trans (by rw [hmd]; rfl))
    have hindex : md'.index = md.index := congrArg Prod.fst hsame
    simp only [hmd', Option.map_some, Option.getD_some, DriverCall.lines,
      DriverCall.items_congr hsame, MotorDriver.indexStr, hindex]

theorem stepNMotion_sends {motor : ℕ} {nSteps : ℤ}
    (hidle : ∀ md ∈ d.motorDriverArray (slot motor), md.shortCommandList = [])
    (h : d.stepNMotion motor nSteps = some d') :
    MotorDriver.Sends (d.motionLines (slot motor) nSteps) d.useSimulations d.serialPort
      d'.serialPort := by
  cases hmd : d.motorDriverArray (slot motor) with
  | none =>
    unfold slot at hmd
    simp [stepNMotion, hmd] at h
  | some md =>
    have hslot := hmd
    unfold slot at hslot
    simp only [stepNMotion, hslot, Option.some.injEq] at h
    obtain ⟨md', -, hlist, -, -, hport⟩ :=
      (DriverCall.stepNMotion nSteps).perform_eq_runLines d.useSimulations md d.serialPort
    have hsends := MotorDriver.runLines_sends d.useSimulations md' d.serialPort
    rw [hlist, hidle md hmd, List.nil_append, List.map_map] at hsends
    rw [motionLines, hmd, ← h]
    change MotorDriver.Sends _ _ _
      ((DriverCall.stepNMotion nSteps).perform d.useSimulations md d.serialPort).2
    rw [hport]
    exact hsends

def statusCall (_i : ℕ) (c : DriverCall) : Prop := ∃ checkNoisy, c = .checkStatus checkNoisy

/-- The wire of a run of motions: the lines of each motion in their order, and behind them
nothing but questions after the status. -/
inductive SendsMotions (d : Drives R) : List (ℕ × ℤ) → SerialPort → SerialPort → Prop
  | nil {port : SerialPort} : SendsMotions d [] port port
  | motion {motor : ℕ} {steps : ℤ} {commands : List (ℕ × ℤ)}
      {port sent asked port' : SerialPort}
      (hsends : MotorDriver.Sends (d.motionLines (slot motor) steps) d.useSimulations port sent)
      (hasks : MotorDriver.Writes (d.Line statusCall) d.useSimulations sent asked)
      (hrest : SendsMotions d commands asked port') :
      SendsMotions d ((motor, steps) :: commands) port port'

theorem SendsMotions.of_configs (h : d'.configs = d.configs)
    (hsimulations : d'.useSimulations = d.useSimulations) {commands : List (ℕ × ℤ)}
    {port port' : SerialPort} (hsends : d'.SendsMotions commands port port') :
    d.SendsMotions commands port port' := by
  induction hsends with
  | nil => exact .nil
  | motion hsends hasks _ ih =>
    rw [motionLines_of_configs h, hsimulations] at hsends
    rw [hsimulations] at hasks
    exact .motion hsends (hasks.mono fun _ => Line.of_configs h) ih

end Drives

/-- The calls that the commands make, where `S` are the steps that each drive may be sent to:
of the actions only the stop of the first motor, and nothing of a third one. -/
def operatorCall (S : ℕ → ℤ → Prop) (i : ℕ) : DriverCall → Prop
  | .runAction actionKey => i = 0 ∧ actionKey = "stop_motion".toList
  | .stepNMotion nSteps => i < 2 ∧ S i nSteps
  | .checkStatus _ => i < 2
  | .currentRotation => i < 2

def noSteps (_motor : ℕ) (_steps : ℤ) : Prop := False

variable [Libm R] [PiConstant R] {g : ArmParameters R}

/-- A move sends both drives to the steps of the arm that it leaves, and then only asks. -/
theorem System.moveByCommand_sends {fuel : ℕ} {s s' : System g} {x y : R}
    (hidle : s.drives.Idle) (h : s.moveByCommand fuel x y = some s') :
    ∃ port, MotorDriver.Sends
        (s.drives.motionLines 0 s'.armConstruct.canisterCurrentSteps ++
          s.drives.motionLines 1 s'.armConstruct.elbowCurrentSteps)
        s.drives.useSimulations s.drives.serialPort port ∧
      MotorDriver.Writes (s.drives.Line (operatorCall noSteps)) s.drives.useSimulations port
        s'.drives.serialPort := by
  obtain ⟨d₁, h₁, h⟩ := Option.bind_eq_some_iff.mp h
  obtain ⟨d₂, h₂, h⟩ := Option.bind_eq_some_iff.mp h
  obtain ⟨d₃, h₃, h⟩ := Option.bind_eq_some_iff.mp h
  cases h
  have hcalls₁ : Drives.Calls (fun _ _ => True) s.drives d₁ := Drives.stepNMotion_calls trivial h₁
  have hcalls₂ : Drives.Calls (fun _ _ => True) d₁ d₂ := Drives.stepNMotion_calls trivial h₂
  have hcalls₃ : Drives.Calls (operatorCall noSteps) d₂ d₃ :=
    Drives.waitForMotion_calls (fun _ hi => hi) h₃
  obtain ⟨hconfigs₁, hsimulations₁⟩ := hcalls₁.configs
  obtain ⟨hconfigs₂, hsimulations₂⟩ := hcalls₂.configs
  have hsends₁ := Drives.stepNMotion_sends (hidle _) h₁
  have hsends₂ := Drives.stepNMotion_sends (hcalls₁.idle hidle _) h₂
  have hwrites := hcalls₃.writes (hcalls₂.idle (hcalls₁.idle hidle))
  rw [Drives.motionLines_of_configs hconfigs₁, hsimulations₁] at hsends₂
  rw [hsimulations₂, hsimulations₁] at hwrites
  refine ⟨d₂.serialPort, hsends₁.trans hsends₂, ?_⟩
  exact hwrites.mono fun _ => Drives.Line.of_configs (hconfigs₂.trans hconfigs₁)

end motions

end Arm2D

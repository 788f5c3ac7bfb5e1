import Arm2D.Macros
import Arm2D.Motion
import Arm2D.RotationScan
import Arm2D.ScanPositions

/-! # What the commands ask of the drives

Every command works on the drives through four methods of `MotorDriver`. A run of such calls
keeps what a driver was configured with, leaves no line waiting, and writes to the port the
lines that the calls ask for, each under the number of its drive, and carriage returns. -/
namespace Arm2D
open Library Relation

/-- Lines of one kind, each closed by a carriage return, and carriage returns. -/
inductive WireText (L : Str → Prop) : Str → Prop
  | nil : WireText L []
  | empty {out : Str} : WireText L out → WireText L (out ++ ['\r'])
  | line {out l : Str} : WireText L out → L l → WireText L (out ++ (l ++ ['\r']))

namespace WireText
variable {L L' : Str → Prop}

theorem append {out : Str} (h : WireText L out) {out' : Str} (h' : WireText L out') :
    WireText L (out ++ out') := by
  induction h' with
  | nil => rwa [List.append_nil]
  | empty _ ih =>
    rw [← List.append_assoc]
    exact ih.empty
  | line _ hl ih =>
    rw [← List.append_assoc]
    exact ih.line hl

theorem mono (hL : ∀ l, L l → L' l) {out : Str} (h : WireText L out) : WireText L' out := by
  induction h with
  | nil => exact .nil
  | empty _ ih => exact ih.empty
  | line _ hl ih => exact ih.line (hL _ hl)

theorem returns (L : Str → Prop) (k : ℕ) : WireText L (List.replicate k '\r') := by
  induction k with
  | zero => exact .nil
  | succ k ih =>
    rw [List.replicate_succ']
    exact ih.empty

end WireText

namespace MotorDriver
variable {R : Type} {L : Str → Prop}

/-- What a run on the port leaves there. -/
structure Writes (L : Str → Prop) (simulations : Bool) (port port' : SerialPort) : Prop where
  text : ∃ out, port'.written = port.written ++ out ∧ WireText L out
  silent : simulations = true → port' = port

theorem Writes.refl (L : Str → Prop) (simulations : Bool) (port : SerialPort) :
    Writes L simulations port port :=
  ⟨⟨[], by simp, .nil⟩, fun _ => rfl⟩

theorem Writes.trans {simulations : Bool} {port port' port'' : SerialPort}
    (h : Writes L simulations port port') (h' : Writes L simulations port' port'') :
    Writes L simulations port port'' where
  text := by
    obtain ⟨out, hout, htext⟩ := h.text
    obtain ⟨out', hout', htext'⟩ := h'.text
    exact ⟨out ++ out', by rw [hout', hout, List.append_assoc], htext.append htext'⟩
  silent hs := (h'.silent hs).trans (h.silent hs)

theorem runCommands2_writes (simulations : Bool) {md : MotorDriver R} (port : SerialPort)
    (h : ∀ command ∈ md.shortCommandList, L (cStr command)) :
    Writes L simulations port (md.runCommands2 simulations port).val.2 := by
  rw [runCommands2]
  cases hlist : md.shortCommandList with
  | nil => exact .refl L simulations port
  | cons nextComStr rest =>
    have hline : L (cStr nextComStr) := h _ (by simp [hlist])
    cases simulations with
    | true =>
      simp only [if_true]
      split_ifs
      · exact .refl L true port
      · exact .refl L true port
    | false =>
      have hsent : WireText L (cStr nextComStr ++ ['\r']) := by
        simpa using WireText.nil.line hline
      refine ⟨?_, fun hs => Bool.noConfusion hs⟩
      simp only [Bool.false_eq_true, if_false]
      split_ifs
      · exact ⟨_, rfl, hsent⟩
      · obtain ⟨k, hk⟩ := pollLoop_written 10 (md.withCommands rest)
          (port.write (cStr nextComStr ++ ['\r']))
        refine ⟨_, ?_, hsent.append (.returns L k)⟩
        rw [hk, SerialPort.write, List.append_assoc]

theorem runLines_writes (simulations : Bool) (md : MotorDriver R) (port : SerialPort)
    (h : ∀ command ∈ md.shortCommandList, L (cStr command)) :
    Writes L simulations port (md.runLines simulations port).val.2 := by
  induction md, port using runLines.induct simulations with
  | case1 md port hnil =>
    rw [runLines, dif_pos hnil]
    exact .refl L simulations port
  | case2 md port hne r ih =>
    rw [runLines, dif_neg hne]
    refine (runCommands2_writes simulations port h).trans (ih fun command hcommand => ?_)
    rw [runCommands2_shortCommandList] at hcommand
    exact h command (List.mem_of_mem_tail hcommand)

end MotorDriver

section calls
variable {R : Type}

inductive DriverCall
  | runAction (actionKey : Str)
  | stepNMotion (nSteps : ℤ)
  | checkStatus (checkNoisy : Bool)
  | currentRotation
  deriving DecidableEq

/-- What no call changes. -/
def MotorDriver.config (md : MotorDriver R) : ℕ × (Str → Option Str) × R :=
  (md.index, md.parameters, md.gearRatio)

variable [Field R] [LinearOrder R] [FloorRing R]

namespace DriverCall

/-- The driver and the port after the call. -/
def perform (simulations : Bool) (md : MotorDriver R) (port : SerialPort) :
    DriverCall → MotorDriver R × SerialPort
  | runAction actionKey => (md.runAction simulations port actionKey).val
  | stepNMotion nSteps => (md.runActionVar simulations port "single_motion_var".toList
      "STEPS".toList (Drives.stepString md nSteps)).val
  | checkStatus checkNoisy => (md.checkStatus simulations port checkNoisy).val.2
  | currentRotation => (md.currentRotation simulations port).val.2

/-- The lines that the call sends, without the number of the drive. -/
def items (md : MotorDriver R) : DriverCall → List Str
  | runAction actionKey => toItems (md.parameterAt actionKey) ';'
  | stepNMotion nSteps => toItems (md.actionText "single_motion_var".toList "STEPS".toList
      (Drives.stepString md nSteps)) ';'
  | checkStatus _ => ["SC".toList]
  | currentRotation => toItems (md.parameterAt "rotation_query".toList) ';'

/-- Each call runs its lines behind those that wait. -/
theorem perform_eq_runLines (simulations : Bool) (md : MotorDriver R) (port : SerialPort)
    (c : DriverCall) :
    ∃ md' : MotorDriver R, md'.config = md.config ∧
      md'.shortCommandList = md.shortCommandList ++ (c.items md).map (md.indexStr ++ ·) ∧
      (c.perform simulations md port).1.config =
        (md'.runLines simulations port).val.1.config ∧
      (c.perform simulations md port).1.shortCommandList =
        (md'.runLines simulations port).val.1.shortCommandList ∧
      (c.perform simulations md port).2 = (md'.runLines simulations port).val.2 := by
  cases c with
  | runAction actionKey => exact ⟨md.addItems (md.parameterAt actionKey), rfl, rfl, rfl, rfl, rfl⟩
  | stepNMotion nSteps => exact ⟨md.addItems (md.actionText _ _ _), rfl, rfl, rfl, rfl, rfl⟩
  | checkStatus checkNoisy =>
    exact ⟨({ md with checkingStatus := checkNoisy } : MotorDriver R).addLine
      (md.indexStr ++ "SC".toList), rfl, rfl, rfl, rfl, rfl⟩
  | currentRotation =>
    exact ⟨({ md with checkingPosition := true } : MotorDriver R).addItems
      (md.parameterAt "rotation_query".toList), rfl, rfl, rfl, rfl, rfl⟩

theorem perform_config (simulations : Bool) (md : MotorDriver R) (port : SerialPort)
    (c : DriverCall) : (c.perform simulations md port).1.config = md.config := by
  obtain ⟨md', hconfig, -, hafter, -, -⟩ := c.perform_eq_runLines simulations md port
  rw [hafter, ← hconfig]
  exact MotorDriver.runLines_kept (fun _ _ => rfl) (fun _ _ => rfl) simulations md' port

theorem perform_shortCommandList (simulations : Bool) (md : MotorDriver R) (port : SerialPort)
    (c : DriverCall) : (c.perform simulations md port).1.shortCommandList = [] := by
  obtain ⟨md', -, -, -, hafter, -⟩ := c.perform_eq_runLines simulations md port
  rw [hafter, MotorDriver.runLines_shortCommandList]

theorem perform_writes (simulations : Bool) {md : MotorDriver R} (port : SerialPort)
    (c : DriverCall) (hidle : md.shortCommandList = []) :
    MotorDriver.Writes (fun l => ∃ item ∈ c.items md, l = cStr (md.indexStr ++ item))
      simulations port (c.perform simulations md port).2 := by
  obtain ⟨md', -, hlist, -, -, hport⟩ := c.perform_eq_runLines simulations md port
  rw [hport]
  apply MotorDriver.runLines_writes
  intro command hcommand
  rw [hlist, hidle, List.nil_append] at hcommand
  obtain ⟨item, hitem, rfl⟩ := List.mem_map.mp hcommand
  exact ⟨item, hitem, rfl⟩

end DriverCall

theorem DriverCall.items_congr {md md' : MotorDriver R} (h : md'.config = md.config)
    (c : DriverCall) : c.items md' = c.items md := by
  have hparameters : md'.parameters = md.parameters := congrArg (·.2.1) h
  have hgear : md'.gearRatio = md.gearRatio := congrArg (·.2.2) h
  cases c <;> simp only [items, MotorDriver.actionText, MotorDriver.parameterAt, hparameters,
    Drives.stepString, hgear]

namespace Drives

/-- One call that is allowed on its slot. -/
def CallStep (A : ℕ → DriverCall → Prop) (d d' : Drives R) : Prop :=
  ∃ i c, A i c ∧ ∃ md, d.motorDriverArray i = some md ∧
    d' = d.put i (c.perform d.useSimulations md d.serialPort)

def Calls (A : ℕ → DriverCall → Prop) : Drives R → Drives R → Prop := ReflTransGen (CallStep A)

theorem Calls.mono {A A' : ℕ → DriverCall → Prop} (hA : ∀ i c, A i c → A' i c)
    {d d' : Drives R} (h : Calls A d d') : Calls A' d d' := by
  refine ReflTransGen.mono ?_ _ _ h
  rintro d d' ⟨i, c, hc, hstep⟩
  exact ⟨i, c, hA i c hc, hstep⟩

/-- No line waits in a queue. -/
def Idle (d : Drives R) : Prop := ∀ i, ∀ md ∈ d.motorDriverArray i, md.shortCommandList = []

omit [Field R] [LinearOrder R] [FloorRing R] in
theorem idle_allocate [One R] (motorCount : ℕ) (port : SerialPort) (simulations : Bool) :
    (allocate motorCount port simulations : Drives R).Idle := by
  intro i md hmd
  rw [eq_construct_of_mem_allocate hmd]
  rfl

/-- What the drivers were configured with; a slot without a driver has nothing. -/
def configs (d : Drives R) (i : ℕ) : Option (ℕ × (Str → Option Str) × R) :=
  (d.motorDriverArray i).map MotorDriver.config

/-- The lines that the allowed calls send. -/
def Line (A : ℕ → DriverCall → Prop) (d : Drives R) (l : Str) : Prop :=
  ∃ i c, A i c ∧ ∃ md, d.motorDriverArray i = some md ∧
    ∃ item ∈ c.items md, l = cStr (md.indexStr ++ item)

variable {A : ℕ → DriverCall → Prop} {d d' : Drives R}

theorem CallStep.configs (h : CallStep A d d') :
    d'.configs = d.configs ∧ d'.useSimulations = d.useSimulations := by
  obtain ⟨i, c, -, md, hmd, rfl⟩ := h
  refine ⟨funext fun j => ?_, rfl⟩
  unfold Drives.configs
  by_cases hj : j = i
  · rw [hj, put_same, hmd, Option.map_some, Option.map_some, c.perform_config]
  · rw [put_other d hj]

theorem CallStep.idle (h : CallStep A d d') (hidle : d.Idle) : d'.Idle := by
  obtain ⟨i, c, -, md, hmd, rfl⟩ := h
  intro j md' hmd'
  by_cases hj : j = i
  · rw [hj, put_same] at hmd'
    cases hmd'
    exact c.perform_shortCommandList _ _ _
  · rw [put_other d hj] at hmd'
    exact hidle j md' hmd'

theorem CallStep.writes (h : CallStep A d d') (hidle : d.Idle) :
    MotorDriver.Writes (d.Line A) d.useSimulations d.serialPort d'.serialPort := by
  obtain ⟨i, c, hc, md, hmd, rfl⟩ := h
  obtain ⟨⟨out, hout, htext⟩, hsilent⟩ :=
    c.perform_writes d.useSimulations d.serialPort (hidle i md hmd)
  refine ⟨⟨out, hout, htext.mono ?_⟩, hsilent⟩
  rintro l ⟨item, hitem, hl⟩
  exact ⟨i, c, hc, md, hmd, item, hitem, hl⟩

theorem Line.of_configs (h : d'.configs = d.configs) {l : Str} (hl : d'.Line A l) :
    d.Line A l := by
  obtain ⟨i, c, hc, md', hmd', item, hitem, hl⟩ := hl
  have hconfig := congrFun h i
  unfold Drives.configs at hconfig
  rw [hmd', Option.map_some, eq_comm, Option.map_eq_some_iff] at hconfig
  obtain ⟨md, hmd, hconfig⟩ := hconfig
  refine ⟨i, c, hc, md, hmd, item, ?_, ?_⟩
  · rwa [c.items_congr hconfig]
  · have hindex : md.index = md'.index := congrArg Prod.fst hconfig
    rw [hl, MotorDriver.indexStr, MotorDriver.indexStr, hindex]

theorem Calls.configs (h : Calls A d d') :
    d'.configs = d.configs ∧ d'.useSimulations = d.useSimulations := by
  induction h with
  | refl => exact ⟨rfl, rfl⟩
  | tail _ hstep ih =>
    obtain ⟨hconfigs, hsimulations⟩ := CallStep.configs hstep
    exact ⟨hconfigs.trans ih.1, hsimulations.trans ih.2⟩

theorem Calls.idle (h : Calls A d d') (hidle : d.Idle) : d'.Idle := by
  induction h with
  | refl => exact hidle
  | tail _ hstep ih => exact hstep.idle ih

/-- Nothing but the lines of allowed calls goes to the port, and in a simulation nothing. -/
theorem Calls.writes (h : Calls A d d') (hidle : d.Idle) :
    MotorDriver.Writes (d.Line A) d.useSimulations d.serialPort d'.serialPort := by
  induction h with
  | refl => exact .refl _ _ _
  | tail hcalls hstep ih =>
    obtain ⟨hconfigs, hsimulations⟩ := Calls.configs hcalls
    obtain ⟨⟨out, hout, htext⟩, hsilent⟩ := hstep.writes (Calls.idle hcalls hidle)
    rw [hsimulations] at hsilent
    exact ih.trans ⟨⟨out, hout, htext.mono fun l => Line.of_configs hconfigs⟩, hsilent⟩

def slot (motor : ℕ) : ℕ := if motor > 0 then motor - 1 else motor

theorem slot_one_lt : slot 1 < 2 := Nat.zero_lt_two

theorem slot_two_lt : slot 2 < 2 := Nat.one_lt_two

theorem stepNMotion_calls {motor : ℕ} {nSteps : ℤ} (hA : A (slot motor) (.stepNMotion nSteps))
    (h : d.stepNMotion motor nSteps = some d') : Calls A d d' := by
  cases hmd : d.motorDriverArray (slot motor) with
  | none =>
    unfold slot at hmd
    simp [stepNMotion, hmd] at h
  | some md =>
    have hslot := hmd
    unfold slot at hslot
    simp only [stepNMotion, hslot, Option.some.injEq] at h
    exact .single ⟨slot motor, _, hA, md, hmd, h.symm⟩

theorem checkMotionStatusBody_calls {checkNoisy : Bool} {motor : ℕ}
    (hA : A (slot motor) (.checkStatus checkNoisy)) (d : Drives R) :
    Calls A d (d.checkMotionStatusBody checkNoisy motor).2 := by
  change Calls A d (d.checkStatus (slot motor) checkNoisy).2
  unfold checkStatus
  cases hmd : d.motorDriverArray (slot motor) with
  | none => exact .refl
  | some md => exact .single ⟨slot motor, _, hA, md, hmd, rfl⟩

theorem waitLoop_calls (hA : ∀ i < 2, A i (.checkStatus true)) {fuel : ℕ}
    (h : d.waitLoop fuel = some d') : Calls A d d' := by
  induction fuel generalizing d with
  | zero => cases h
  | succ fuel ih =>
    have hpass := (checkMotionStatusBody_calls (hA _ slot_one_lt) d).trans
      (checkMotionStatusBody_calls (hA _ slot_two_lt) _)
    rw [waitLoop] at h
    dsimp only at h
    split_ifs at h with hmotion
    · exact hpass.trans (ih h)
    · cases h
      exact hpass

theorem stepperLoop_calls {motor fuel : ℕ} (hA : A (slot motor) (.checkStatus true))
    (h : d.stepperLoop motor fuel = some d') : Calls A d d' := by
  induction fuel generalizing d with
  | zero => cases h
  | succ fuel ih =>
    have hpass := checkMotionStatusBody_calls hA d
    rw [stepperLoop] at h
    dsimp only at h
    split_ifs at h with hmotion
    · exact hpass.trans (ih h)
    · cases h
      exact hpass

theorem waitForMotion_calls (hA : ∀ i < 2, A i (.checkStatus true)) {fuel : ℕ}
    (h : d.waitForMotion fuel = some d') : Calls A d d' := by
  rw [waitForMotion] at h
  split_ifs at h
  · cases h
    exact .refl
  · exact waitLoop_calls hA h

theorem currentRotation_calls {i : ℕ} {rad : R} (hA : A i .currentRotation)
    (h : d.currentRotation i = some (rad, d')) : Calls A d d' := by
  unfold currentRotation at h
  cases hmd : d.motorDriverArray i with
  | none =>
    rw [hmd] at h
    cases h
  | some md =>
    rw [hmd] at h
    cases h
    exact .single ⟨i, _, hA, md, hmd, rfl⟩

theorem runAction_calls {i : ℕ} {actionKey : Str} (hA : A i (.runAction actionKey))
    (h : d.runAction i actionKey = some d') : Calls A d d' := by
  unfold runAction at h
  cases hmd : d.motorDriverArray i with
  | none =>
    rw [hmd] at h
    cases h
  | some md =>
    rw [hmd] at h
    cases h
    exact .single ⟨i, _, hA, md, hmd, rfl⟩

omit [LinearOrder R] [FloorRing R] in
theorem Simulated.currentRotation (h : d.Simulated) {i : ℕ} (hi : i < 2) :
    ∃ rad d', d.currentRotation i = some (rad, d') ∧ d'.Simulated := by
  have hdriver : (d.motorDriverArray i).isSome := by
    have hcases : i = 0 ∨ i = 1 := by omega
    rcases hcases with rfl | rfl
    · exact h.driver1
    · exact h.driver2
  obtain ⟨md, hmd⟩ := Option.isSome_iff_exists.mp hdriver
  let r := (md.currentRotation d.useSimulations d.serialPort).val
  exact ⟨r.1, d.put i r.2, by rw [Drives.currentRotation, hmd], h.put i r.2⟩

end Drives

/-- A command moves both motors to the steps of its target and asks until they stand. -/
theorem System.moveByCommand_calls [Libm R] [PiConstant R] {g : ArmParameters R}
    {A : ℕ → DriverCall → Prop} {fuel : ℕ} {s s' : System g} {x y : R}
    (hcanister : A 0 (.stepNMotion (s.armConstruct.setTarget x y).canisterCurrentSteps))
    (helbow : A 1 (.stepNMotion (s.armConstruct.setTarget x y).elbowCurrentSteps))
    (hstatus : ∀ i < 2, A i (.checkStatus true)) (h : s.moveByCommand fuel x y = some s') :
    Drives.Calls A s.drives s'.drives := by
  obtain ⟨d₁, h₁, h⟩ := Option.bind_eq_some_iff.mp h
  obtain ⟨d₂, h₂, h⟩ := Option.bind_eq_some_iff.mp h
  obtain ⟨d₃, h₃, h⟩ := Option.bind_eq_some_iff.mp h
  cases h
  have hfirst := Drives.stepNMotion_calls hcanister h₁
  have hsecond := Drives.stepNMotion_calls helbow h₂
  exact (hfirst.trans hsecond).trans (Drives.waitForMotion_calls hstatus h₃)

end calls

end Arm2D

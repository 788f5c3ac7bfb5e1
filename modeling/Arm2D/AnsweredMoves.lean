import Arm2D.Motion
import Arm2D.SentLines
import Arm2D.Status

/-! # When a move of real drives returns

The port gives whole lines again. A motion takes from the schedule what its lines are answered
with, and a move returns when the questions behind its motions are answered by stopped drives. -/
namespace Arm2D
open Library

variable {R : Type}

namespace MotorDriver

def Numbered (md : MotorDriver R) : Prop :=
  ∀ command ∈ md.shortCommandList, ∃ (n : ℤ) (item : Str), command = decimal n ++ item

/-- A run of lines takes what as many calls of `run_commands2` take. -/
theorem runLines_whole {md : MotorDriver R} (hmd : md.Numbered) (port : SerialPort)
    {arrivals : List (Option ReplyLine)} (hport : port.polls = expand ReplyLine.text arrivals) :
    (md.runLines false port).val.2.polls =
      expand ReplyLine.text (arrivalsAfter^[md.shortCommandList.length] arrivals) := by
  induction md, port using runLines.induct false generalizing arrivals with
  | case1 md port hnil =>
    rw [runLines, dif_pos hnil, hnil]
    exact hport
  | case2 md port hne r ih =>
    obtain ⟨command, rest, hlist⟩ := List.exists_cons_of_ne_nil hne
    obtain ⟨n, item, rfl⟩ := hmd command (by simp [hlist])
    have hrest : r.val.1.shortCommandList = rest := by
      change (md.runCommands2 false port).val.1.shortCommandList = rest
      rw [runCommands2_shortCommandList, hlist, List.tail_cons]
    have hnumbered : r.val.1.Numbered := by
      intro other hother
      rw [hrest] at hother
      exact hmd other (by simp [hlist, hother])
    have hpolls : r.val.2.polls = expand ReplyLine.text (arrivalsAfter arrivals) := by
      have hread := (runCommands2_of_reads (reads_of_index hlist) port).2.2
      rw [hport, poll_expand '\r' ReplyLine.text ReplyLine.text_frame] at hread
      exact hread
    rw [runLines, dif_neg hne, hlist, List.length_cons, Function.iterate_succ_apply, ← hrest]
    exact ih hnumbered hpolls

end MotorDriver

/-- The last line that a question reads says stopped. -/
def HeardStopped (lines : List ReplyLine) : Prop :=
  ∃ l ∈ lines.getLast?, MotorDriver.readsStopped l.text = true

namespace Station
variable [Field R] [LinearOrder R] [FloorRing R]

/-- A call takes from the schedule what its lines are answered with. -/
theorem exists_call (s : Station R) {i : ℕ} {md : MotorDriver R}
    (hmd : s.drives.motorDriverArray i = some md) (c : DriverCall) :
    ∃ s' : Station R,
      s'.drives = s.drives.put i (c.perform s.drives.useSimulations md s.drives.serialPort) ∧
      s'.arrivals = arrivalsAfter^[(c.items md).length] s.arrivals ∧
      s'.drives.configs = s.drives.configs := by
  let d' := s.drives.put i (c.perform s.drives.useSimulations md s.drives.serialPort)
  have hcalls : Drives.Calls (fun _ _ => True) s.drives d' :=
    .single ⟨i, c, trivial, md, hmd, rfl⟩
  obtain ⟨hconfigs, hsimulations⟩ := hcalls.configs
  obtain ⟨md', -, hlist, -, -, hport⟩ := c.perform_eq_runLines s.drives.useSimulations md
    s.drives.serialPort
  rw [s.idle i md hmd, List.nil_append] at hlist
  have hnumbered : md'.Numbered := by
    intro command hcommand
    rw [hlist] at hcommand
    obtain ⟨item, -, rfl⟩ := List.mem_map.mp hcommand
    exact ⟨md.index, item, rfl⟩
  have hlength : md'.shortCommandList.length = (c.items md).length := by
    rw [hlist, List.length_map]
  have hpolls := MotorDriver.runLines_whole hnumbered s.drives.serialPort s.polls_eq
  rw [← s.real, ← hport, hlength] at hpolls
  refine ⟨⟨d', arrivalsAfter^[(c.items md).length] s.arrivals,
    hsimulations.trans s.real, hcalls.idle s.idle, fun j mdj hj => ?_, hpolls⟩, rfl, rfl,
    hconfigs⟩
  obtain ⟨mdi, hmdi, hconfig⟩ := Option.map_eq_some_iff.mp
    ((congrFun hconfigs j).symm.trans (by rw [Drives.configs, hj]; rfl))
  have hindex : mdj.index = mdi.index := (congrArg Prod.fst hconfig).symm
  rw [hindex, s.wired j mdi hmdi]

theorem exists_stepNMotion (s : Station R) {i : ℕ} (h : (s.drives.motorDriverArray i).isSome)
    (n : ℤ) :
    ∃ s' : Station R, s.drives.stepNMotion (i + 1) n = some s'.drives ∧
      s'.arrivals = arrivalsAfter^[(s.drives.motionLines i n).length] s.arrivals ∧
      s'.drives.configs = s.drives.configs := by
  obtain ⟨md, hmd⟩ := Option.isSome_iff_exists.mp h
  obtain ⟨s', hdrives, harrivals, hconfigs⟩ := s.exists_call hmd (.stepNMotion n)
  have hlength : (s.drives.motionLines i n).length =
      (DriverCall.items md (.stepNMotion n)).length := by
    simp [Drives.motionLines, hmd, DriverCall.lines]
  refine ⟨s', ?_, by rw [harrivals, hlength], hconfigs⟩
  simp [Drives.stepNMotion, hmd, hdrives, DriverCall.perform]

/-- A driver without a `rotation_query` asks nothing. -/
theorem exists_currentRotation (s : Station R) {i : ℕ} {md : MotorDriver R}
    (hmd : s.drives.motorDriverArray i = some md)
    (hquery : md.parameters "rotation_query".toList = none) :
    ∃ rad, ∃ s' : Station R, s.drives.currentRotation i = some (rad, s'.drives) ∧
      s'.arrivals = s.arrivals ∧ s'.drives.configs = s.drives.configs := by
  obtain ⟨s', hdrives, harrivals, hconfigs⟩ := s.exists_call hmd .currentRotation
  have hitems : DriverCall.items md .currentRotation = [] := by
    rw [DriverCall.items, MotorDriver.parameterAt, hquery]
    exact toItems_macroText []
  rw [hitems] at harrivals
  let r := (md.currentRotation s.drives.useSimulations s.drives.serialPort).val
  refine ⟨r.1, s', ?_, harrivals, hconfigs⟩
  rw [Drives.currentRotation, hmd, hdrives]
  rfl

omit [Field R] [LinearOrder R] [FloorRing R] in
theorem checkMotionStatus_of_stopped (s : Station R) {i : ℕ} (h : HeardStopped (s.linesFor i)) :
    (s.drives.checkMotionStatus (i + 1)).1 = false := by
  obtain ⟨l, hlast, hstopped⟩ := h
  have hmotion : (s.drives.checkMotionStatus (i + 1)).1 =
      ((s.drives.motorDriverArray i).isSome && !(s.drives.checkStatus i true).1) := rfl
  cases hmd : s.drives.motorDriverArray i with
  | none => simp [hmotion, hmd]
  | some md =>
    obtain ⟨-, -, -, hstatus⟩ := s.checkStatus_some hmd true
    rw [hmotion, hstatus, List.getLast?_map, Option.mem_def.mp hlast]
    simp [hstopped]

omit [Field R] [LinearOrder R] [FloorRing R] in
theorem waitLoop_of_stopped (s : Station R) (fuel : ℕ) (h₁ : HeardStopped (s.linesFor 0))
    (h₂ : HeardStopped ((s.checkStep (0, true)).linesFor 1)) :
    s.drives.waitLoop (fuel + 1) =
      some ((s.checkStep (0, true)).checkStep (1, true)).drives := by
  have hstop₁ := s.checkMotionStatus_of_stopped h₁
  have hstop₂ := (s.checkStep (0, true)).checkMotionStatus_of_stopped h₂
  have hpass : s.drives.waitLoop (fuel + 1) =
      if (s.drives.checkMotionStatus 1).1 ||
        ((s.checkStep (0, true)).drives.checkMotionStatus 2).1 then
          ((s.checkStep (0, true)).checkStep (1, true)).drives.waitLoop fuel
        else some ((s.checkStep (0, true)).checkStep (1, true)).drives := rfl
  rw [hpass, hstop₁, hstop₂]
  rfl

end Station

section moves
variable [Field R] [LinearOrder R] [FloorRing R]

omit [Field R] [LinearOrder R] [FloorRing R] in
theorem Drives.isSome_of_configs {d d' : Drives R} (h : d'.configs = d.configs) {i : ℕ}
    (hi : (d.motorDriverArray i).isSome) : (d'.motorDriverArray i).isSome := by
  have hconfig := congrArg Option.isSome (congrFun h i)
  unfold Drives.configs at hconfig
  rw [Option.isSome_map, Option.isSome_map] at hconfig
  rw [hconfig, hi]

theorem Drives.motionLines_of_items {d : Drives R} {i : ℕ} {md : MotorDriver R}
    (h : d.motorDriverArray i = some md) {items : List Item}
    (hitems : md.parameterAt "single_motion_var".toList = macroText items) (n : ℤ) :
    d.motionLines i n = items.map fun item => cStr (md.indexStr ++ (Item.replace "STEPS".toList
      (.decimal (truncate ((n : R) * md.gearRatio))) item).text) := by
  have htext : md.actionText "single_motion_var".toList "STEPS".toList (stepString md n) =
      macroText (items.map (Item.replace "STEPS".toList
        (.decimal (truncate ((n : R) * md.gearRatio))))) := by
    rw [MotorDriver.actionText, hitems, ← subst_macroText (by decide)]
    rfl
  rw [motionLines, h, Option.map_some, Option.getD_some, DriverCall.lines, DriverCall.items,
    htext, toItems_macroText, List.map_map, List.map_map]
  rfl

theorem Drives.length_motionLines {d : Drives R} {i : ℕ} {md : MotorDriver R}
    (h : d.motorDriverArray i = some md) {items : List Item}
    (hitems : md.parameterAt "single_motion_var".toList = macroText items) (n : ℤ) :
    (d.motionLines i n).length = items.length := by
  rw [motionLines_of_items h hitems, List.length_map]

variable [Libm R] [PiConstant R] {g : ArmParameters R}

/-- A move returns when, behind what its lines are answered with, the first question to each
drive is answered with a last line that says stopped. -/
theorem System.exists_answeredMove {s : System g} {st : Station R} (hst : s.drives = st.drives)
    (hdrivers : ∀ i < 2, (st.drives.motorDriverArray i).isSome) (fuel : ℕ) (x y : R) :
    let arm := s.armConstruct.setTarget x y
    let sent := (st.drives.motionLines 0 arm.canisterCurrentSteps).length +
      (st.drives.motionLines 1 arm.elbowCurrentSteps).length
    HeardStopped (linesRead (arrivalsAfter^[sent] st.arrivals)) →
    HeardStopped (linesRead (arrivalsAfter^[sent + 1] st.arrivals)) →
    ∃ s', s.moveByCommand (fuel + 1) x y = some s' := by
  intro arm sent h₁ h₂
  obtain ⟨st₁, hmotion₁, harrivals₁, hconfigs₁⟩ :=
    st.exists_stepNMotion (hdrivers 0 Nat.zero_lt_two) arm.canisterCurrentSteps
  have hdriver₁ : ∀ i < 2, (st₁.drives.motorDriverArray i).isSome :=
    fun i hi => Drives.isSome_of_configs hconfigs₁ (hdrivers i hi)
  obtain ⟨st₂, hmotion₂, harrivals₂, hconfigs₂⟩ :=
    st₁.exists_stepNMotion (hdriver₁ 1 Nat.one_lt_two) arm.elbowCurrentSteps
  have hdriver₂ : ∀ i < 2, (st₂.drives.motorDriverArray i).isSome :=
    fun i hi => Drives.isSome_of_configs hconfigs₂ (hdriver₁ i hi)
  have harrivals : st₂.arrivals = arrivalsAfter^[sent] st.arrivals := by
    rw [harrivals₂, harrivals₁, Drives.motionLines_of_configs hconfigs₁,
      ← Function.iterate_add_apply, Nat.add_comm]
  have hfirst : st₂.linesFor 0 = linesRead (arrivalsAfter^[sent] st.arrivals) := by
    rw [Station.linesFor, if_pos (hdriver₂ 0 Nat.zero_lt_two), harrivals]
  have hslot : ((st₂.checkStep (0, true)).drives.motorDriverArray 1).isSome :=
    Station.slot_isSome_foldl (hdriver₂ 1 Nat.one_lt_two) [(0, true)]
  have hsecond : (st₂.checkStep (0, true)).linesFor 1 =
      linesRead (arrivalsAfter^[sent + 1] st.arrivals) := by
    rw [Station.linesFor, if_pos hslot, Function.iterate_succ_apply', ← harrivals]
    change linesRead (st₂.arrivalsFor 0) = _
    rw [Station.arrivalsFor, if_pos (hdriver₂ 0 Nat.zero_lt_two)]
  have hwait := st₂.waitLoop_of_stopped fuel (hfirst ▸ h₁) (hsecond ▸ h₂)
  have hmotion : st₂.drives.waitForMotion (fuel + 1) =
      some ((st₂.checkStep (0, true)).checkStep (1, true)).drives := by
    rw [Drives.waitForMotion, st₂.real]
    exact hwait
  refine ⟨⟨arm, ((st₂.checkStep (0, true)).checkStep (1, true)).drives, x, y⟩, ?_⟩
  rw [moveByCommand, hst]
  refine Option.bind_eq_some_iff.mpr ⟨_, hmotion₁, ?_⟩
  refine Option.bind_eq_some_iff.mpr ⟨_, hmotion₂, ?_⟩
  exact Option.bind_eq_some_iff.mpr ⟨_, hmotion, rfl⟩

end moves

/-- `FP{STEPS}`. -/
def feedToPosition : Item where
  text := "FP\x7bSTEPS\x7d".toList
  ne_nil := by simp
  trimmed := trimmed_of_clean (by simp [isspace])
  semicolon := by simp
  cr := by simp
  nul := by simp

def stoppedReplies : List (Option ReplyLine) :=
  [some ⟨1, ['%'], by decide⟩, none, some ⟨2, ['%'], by decide⟩, none,
    some ⟨1, "SC=0001".toList, by decide⟩, none, some ⟨2, "SC=0001".toList, by decide⟩, none]

def feedingDriver (i : ℕ) : MotorDriver ℝ :=
  (MotorDriver.construct (i + 1)).addParameter "single_motion_var".toList feedToPosition.text

theorem eq_feedingDriver {i : ℕ} {md : MotorDriver ℝ}
    (h : (if i < 2 then some (feedingDriver i) else none) = some md) : md = feedingDriver i := by
  split_ifs at h
  exact (Option.some.inj h).symm

def feedingDrives : Station ℝ where
  drives := ⟨fun i => if i < 2 then some (feedingDriver i) else none,
    ⟨expand ReplyLine.text stoppedReplies, []⟩, false⟩
  arrivals := stoppedReplies
  real := rfl
  idle i md h := by
    rw [eq_feedingDriver h]
    rfl
  wired i md h := by
    rw [eq_feedingDriver h]
    rfl
  polls_eq := rfl

theorem feedToPosition_zero :
    (Item.replace "STEPS".toList (.decimal 0) feedToPosition).text = "FP0".toList := by
  have hfind : findFirst (MotorDriver.varMarker "STEPS".toList) feedToPosition.text = some 2 := by
    decide
  have hdrop : feedToPosition.text.drop
      (2 + (MotorDriver.varMarker "STEPS".toList).length) = [] := by
    decide
  change replaceAll _ _ _ = _
  rw [replaceAll_of_findFirst_some (MotorDriver.varMarker_ne_nil _) hfind, hdrop,
    replaceAll_nil]
  decide

theorem feedingDrives_motionLines_zero {i : ℕ} (hi : i < 2) :
    feedingDrives.drives.motionLines i 0 = [decimal (i + 1) ++ "FP0".toList] := by
  have hdriver : feedingDrives.drives.motorDriverArray i = some (feedingDriver i) := if_pos hi
  have hitems : (feedingDriver i).parameterAt "single_motion_var".toList =
      macroText [feedToPosition] := rfl
  rw [Drives.motionLines_of_items hdriver hitems, Int.cast_zero, zero_mul,
    truncate_of_nonneg le_rfl, Int.floor_zero]
  rw [List.map_singleton, feedToPosition_zero]
  have hcases : i = 0 ∨ i = 1 := by omega
  rcases hcases with rfl | rfl
  · decide
  · decide

theorem System.exists_stoppedMove {g : ArmParameters ℝ} {s : System g} (st : Station ℝ)
    (hst : s.drives = st.drives) (harrivals : st.arrivals = stoppedReplies)
    (hitems : ∀ i < 2, ∃ md, st.drives.motorDriverArray i = some md ∧ ∃ item : Item,
      md.parameterAt "single_motion_var".toList = macroText [item]) (x y : ℝ) :
    ∃ s', s.moveByCommand 1 x y = some s' := by
  have hdrivers : ∀ i < 2, (st.drives.motorDriverArray i).isSome := fun i hi => by
    obtain ⟨md, hmd, -⟩ := hitems i hi
    simp [hmd]
  have hlength : ∀ i < 2, ∀ n, (st.drives.motionLines i n).length = 1 := fun i hi n => by
    obtain ⟨md, hmd, item, hitem⟩ := hitems i hi
    exact Drives.length_motionLines hmd hitem n
  have h := exists_answeredMove hst hdrivers 0 x y
  dsimp only at h
  rw [hlength 0 Nat.zero_lt_two, hlength 1 Nat.one_lt_two, harrivals] at h
  exact h ⟨⟨1, "SC=0001".toList, by decide⟩, rfl, by decide⟩
    ⟨⟨2, "SC=0001".toList, by decide⟩, rfl, by decide⟩

theorem Station.feedingDriver_of_configs (st : Station ℝ)
    (h : st.drives.configs = feedingDrives.drives.configs) {i : ℕ} (hi : i < 2) :
    ∃ md, st.drives.motorDriverArray i = some md ∧
      md.parameters = (feedingDriver i).parameters := by
  have hdriver : feedingDrives.drives.motorDriverArray i = some (feedingDriver i) := if_pos hi
  have hconfig : (st.drives.motorDriverArray i).map MotorDriver.config =
      some (feedingDriver i).config := by
    refine (congrFun h i).trans ?_
    rw [Drives.configs, hdriver]
    rfl
  obtain ⟨md, hmd, hsame⟩ := Option.map_eq_some_iff.mp hconfig
  exact ⟨md, hmd, congrArg (fun config => config.2.1) hsame⟩

theorem System.exists_feedingMove {g : ArmParameters ℝ} {s : System g} (st : Station ℝ)
    (hst : s.drives = st.drives) (harrivals : st.arrivals = stoppedReplies)
    (hconfigs : st.drives.configs = feedingDrives.drives.configs) (x y : ℝ) :
    ∃ s', s.moveByCommand 1 x y = some s' := by
  refine exists_stoppedMove st hst harrivals (fun i hi => ?_) x y
  obtain ⟨md, hmd, hparameters⟩ := st.feedingDriver_of_configs hconfigs hi
  refine ⟨md, hmd, feedToPosition, ?_⟩
  rw [MotorDriver.parameterAt, hparameters]
  rfl

/-- The same arm with two real drives that answer one move. -/
noncomputable def System.feeding {g : ArmParameters ℝ} (s : System g) : System g :=
  { s with drives := feedingDrives.drives }

theorem System.idle_feeding {g : ArmParameters ℝ} (s : System g) : s.feeding.drives.Idle :=
  feedingDrives.idle

end Arm2D

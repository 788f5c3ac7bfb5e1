import Arm2D.MotorRouting
import Arm2D.ParameterEntries
import Arm2D.RegisteredTargets
import Arm2D.SentLines

/-! # From the parameter file to the machine

`initialize_all` of arm_2d.cpp reads the parameter file, waits for the serial port, builds
the arm, and describes motors and sensors. Each driver sends the lines that the file has for
its start. -/
namespace Arm2D
open Library

namespace MotorDriver
variable {R : Type}

/-- The macros of `process_parameters`. -/
def initializers : List Str :=
  ["read_power_up".toList, "set_run_parameters".toList, "read_reset".toList]

def macroLines (index : ℕ) (seq : Str) : List Str :=
  (toItems seq ';').map fun item => cStr (decimal index ++ item)

def startLines (index : ℕ) (parameterAt : Str → Str) : List Str :=
  initializers.flatMap fun key => macroLines index (parameterAt key)

theorem runAction_sends (simulations : Bool) {md : MotorDriver R}
    (hidle : md.shortCommandList = []) (port : SerialPort) (actionKey : Str) :
    Sends (macroLines md.index (md.parameterAt actionKey)) simulations port
      (md.runAction simulations port actionKey).val.2 := by
  have h := runLines_sends simulations (md.addItems (md.parameterAt actionKey)) port
  rw [addItems, withCommands_shortCommandList, hidle, List.nil_append, List.map_map] at h
  rw [runAction, addItems, hidle, List.nil_append]
  exact h

variable [Field R] [LinearOrder R] [FloorRing R]

theorem runActions_spec (simulations : Bool) (actionKeys : List Str) {md : MotorDriver R}
    (hidle : md.shortCommandList = []) (port : SerialPort) :
    let r := actionKeys.foldl (fun r key => (r.1.runAction simulations r.2 key).val) (md, port)
    r.1.config = md.config ∧ r.1.shortCommandList = [] ∧
      Sends (actionKeys.flatMap fun key => macroLines md.index (md.parameterAt key)) simulations
        port r.2 := by
  induction actionKeys generalizing md port with
  | nil => exact ⟨rfl, hidle, .refl simulations port⟩
  | cons key keys ih =>
    have hconfig : (md.runAction simulations port key).val.1.config = md.config :=
      DriverCall.perform_config simulations md port (.runAction key)
    have hempty : (md.runAction simulations port key).val.1.shortCommandList = [] :=
      DriverCall.perform_shortCommandList simulations md port (.runAction key)
    have hsent := runAction_sends simulations hidle port key
    obtain ⟨hconfigs, hidle', hsends⟩ := ih hempty (md.runAction simulations port key).val.2
    have hindex : (md.runAction simulations port key).val.1.index = md.index :=
      congrArg Prod.fst hconfig
    have hparameters : (md.runAction simulations port key).val.1.parameters = md.parameters :=
      congrArg (·.2.1) hconfig
    simp only [hindex, parameterAt, hparameters] at hsends
    exact ⟨hconfigs.trans hconfig, hidle', hsent.trans hsends⟩

theorem processParameters_spec (simulations : Bool) {md : MotorDriver R}
    (hidle : md.shortCommandList = []) (port : SerialPort) :
    (md.processParameters simulations port).1.config = md.specialization.config ∧
      (md.processParameters simulations port).1.shortCommandList = [] ∧
      Sends (startLines md.index md.parameterAt) simulations port
        (md.processParameters simulations port).2 := by
  have hkeys : toItems "read_power_up,set_run_parameters,read_reset".toList ',' =
      initializers := by decide +kernel
  have hempty : md.specialization.shortCommandList = [] :=
    md.specialization_shortCommandList.trans hidle
  have h := runActions_spec simulations initializers hempty port
  simp only [specialization_index, parameterAt, specialization_parameters] at h
  rw [processParameters, hkeys]
  exact h

end MotorDriver

/-- A driver as the descriptions leave it. -/
def MotorDriver.described {R : Type} [One R] (i : ℕ) (parameters : Str → Option Str) :
    MotorDriver R :=
  { construct (i + 1) with parameters := parameters }

theorem Drives.parameters_of_described {R : Type} [Field R] [LinearOrder R] {d : Drives R} {i : ℕ}
    {md : MotorDriver R} (hmd : d.motorDriverArray i = some md) {parameters : Str → Option Str}
    (h : d.configs i = some (MotorDriver.described i parameters).specialization.config) :
    md.parameters = parameters := by
  rw [Drives.configs, hmd, Option.map_some, Option.some.injEq] at h
  have hparameters : md.parameters =
      (MotorDriver.described i parameters).specialization.parameters := congrArg (·.2.1) h
  rw [hparameters, MotorDriver.specialization_parameters]
  rfl

section drives
variable {R : Type} [Field R] [LinearOrder R] [FloorRing R] [PiConstant R] {g : ArmParameters R}

omit [PiConstant R] in
/-- The last loop of `init_motor_descriptions`: the drivers send their lines one after the
other. -/
theorem processLoop_spec {parameters : ℕ → Str → Option Str} {n i : ℕ} {d d' : Drives R}
    (hd : ∀ j, i ≤ j → ∀ md ∈ d.motorDriverArray j, md = MotorDriver.described j (parameters j))
    (h : processLoop n i d = some d') :
    d'.useSimulations = d.useSimulations ∧
      (∀ j < i, d'.motorDriverArray j = d.motorDriverArray j) ∧
      (∀ j, i ≤ j → ∀ md ∈ d'.motorDriverArray j, md.shortCommandList = [] ∧ md.index = j + 1) ∧
      (∀ j, i ≤ j → j < i + n → d'.configs j =
        some (MotorDriver.described j (parameters j) : MotorDriver R).specialization.config) ∧
      MotorDriver.Sends ((List.range' i n).flatMap fun j =>
          MotorDriver.startLines (j + 1) fun key => (parameters j key).getD [])
        d.useSimulations d.serialPort d'.serialPort := by
  induction n generalizing i d with
  | zero =>
    cases h
    refine ⟨rfl, fun _ _ => rfl, fun j hj md hmd => ?_, fun j hj hlt => by omega,
      .refl _ _⟩
    rw [hd j hj md hmd]
    exact ⟨rfl, rfl⟩
  | succ n ih =>
    obtain ⟨md, hmd, h⟩ := Option.bind_eq_some_iff.mp h
    have hself := hd i le_rfl md hmd
    have hempty : md.shortCommandList = [] := by
      rw [hself]
      rfl
    obtain ⟨hconfig, hidle, hsent⟩ :=
      MotorDriver.processParameters_spec d.useSimulations hempty d.serialPort
    have hrest : ∀ j, i + 1 ≤ j →
        ∀ md' ∈ (d.put i (md.processParameters d.useSimulations d.serialPort)).motorDriverArray j,
          md' = MotorDriver.described j (parameters j) := by
      intro j hj md' hmd'
      rw [Drives.put_other d (by omega)] at hmd'
      exact hd j (by omega) md' hmd'
    obtain ⟨hsimulations, hbefore, hidles, hconfigs, hsends⟩ := ih hrest h
    have hdriver : d'.motorDriverArray i =
        some (md.processParameters d.useSimulations d.serialPort).1 :=
      (hbefore i (Nat.lt_succ_self i)).trans (Drives.put_same d i _)
    refine ⟨hsimulations, fun j hj => ?_, fun j hj md' hmd' => ?_, fun j hj hlt => ?_, ?_⟩
    · rw [hbefore j (by omega), Drives.put_other d (by omega)]
    · rcases hj.eq_or_lt with rfl | hj
      · rw [hdriver] at hmd'
        cases hmd'
        have hindex := congrArg Prod.fst hconfig
        exact ⟨hidle, hindex.trans (by rw [hself]; exact MotorDriver.specialization_index _)⟩
      · exact hidles j hj md' hmd'
    · rcases hj.eq_or_lt with rfl | hj
      · rw [Drives.configs, hdriver, Option.map_some, hconfig, hself]
      · exact hconfigs j hj (by omega)
    · have hlines : MotorDriver.startLines md.index md.parameterAt =
          MotorDriver.startLines (i + 1) fun key => (parameters i key).getD [] := by
        rw [hself]
        rfl
      rw [hlines] at hsent
      rw [List.range'_succ, List.flatMap_cons]
      exact hsent.trans hsends

/-- The number of drives that are started. -/
def driveCount (serverParameters : ParameterMap) : ℕ :=
  unsignedInt (atoi (serverParameter serverParameters "drive_count".toList))

/-- The parameters that the entries give a driver. -/
def driverParameters (c : ArmConfiguration g) (serverParameters : ParameterMap) (i : ℕ)
    (name : Str) : Option Str :=
  (serverParameters[motorKey name (i + 1)]?).map (checkVars c)

omit [LinearOrder R] [FloorRing R] in
@[simp] theorem getD_driverParameters (c : ArmConfiguration g) (params : ParameterMap) (i : ℕ)
    (name : Str) : (driverParameters c params i name).getD [] =
      checkVars c (serverParameter params (motorKey name (i + 1))) := by
  have hnil : checkVars c [] = [] := by
    have hnone : ∀ var, strstr [] (MotorDriver.varMarker var) = false := fun _ => rfl
    simp [checkVars, canisterMarker, elbowMarker, hnone]
  unfold driverParameters serverParameter
  cases params[motorKey name (i + 1)]? with
  | none => simp [hnil]
  | some line => rfl

/-- The lines that the entries have for the start of the drives. -/
def startText (c : ArmConfiguration g) (serverParameters : ParameterMap) : List Str :=
  (List.range (driveCount serverParameters)).flatMap fun i =>
    MotorDriver.startLines (i + 1) fun name =>
      checkVars c (serverParameter serverParameters (motorKey name (i + 1)))

omit [LinearOrder R] [FloorRing R] in
theorem foldlM_motorEntry_described (c : ArmConfiguration g) {entries : List (Str × Str)}
    {m m' : MotorTable R} (h : entries.foldlM (motorEntry c) m = some m')
    (hm : ∀ i, ∀ md ∈ m.drives.motorDriverArray i, md = .described i md.parameters) :
    m'.drives.useSimulations = m.drives.useSimulations ∧
      m'.drives.serialPort = m.drives.serialPort ∧
      ∀ i, ∀ md ∈ m'.drives.motorDriverArray i, md = .described i md.parameters := by
  refine foldlM_invariant (P := fun m' : MotorTable R =>
    m'.drives.useSimulations = m.drives.useSimulations ∧
      m'.drives.serialPort = m.drives.serialPort ∧
      ∀ i, ∀ md ∈ m'.drives.motorDriverArray i, md = .described i md.parameters)
    (fun m₁ e m₂ hm₁ hstep => ?_) ⟨rfl, rfl, hm⟩ h
  obtain ⟨key, line⟩ := e
  by_cases hkey : key.take 3 = "(m)".toList
  · cases hmd : m₁.drives.motorDriverArray (indexOf key) with
    | none =>
      have hcount : key ≠ "drive_count".toList := by
        intro heq
        rw [heq] at hkey
        exact absurd hkey (by decide)
      rw [motorEntry] at hstep
      dsimp only at hstep
      rw [if_neg hcount, if_neg (not_not.mpr hkey), if_neg (find_bracket_ne_zero hkey), hmd]
        at hstep
      cases hstep
    | some md =>
      rw [motorEntry_of_motor hkey hmd] at hstep
      cases hstep
      refine ⟨hm₁.1, hm₁.2.1, fun i md' hmd' => ?_⟩
      by_cases hi : i = indexOf key
      · rw [hi, Drives.put_same] at hmd'
        cases hmd'
        rw [hi, hm₁.2.2 _ md hmd]
        rfl
      · rw [Drives.put_other _ hi] at hmd'
        exact hm₁.2.2 i md' hmd'
  · obtain ⟨m₃, hm₃, hdrives⟩ := motorEntry_of_ne (c := c) hkey m₁ line
    rw [hstep] at hm₃
    cases hm₃
    rw [hdrives]
    exact hm₁

omit [LinearOrder R] [FloorRing R] in
theorem foldlM_motorEntry_parameters (c : ArmConfiguration g) {params : ParameterMap}
    (hmax : motorCount params ≤ maxCount) (hentries : MotorEntries (motorCount params) params)
    {port : SerialPort} {simulations : Bool} {m : MotorTable R}
    (h : params.toList.foldlM (motorEntry c)
      ⟨0, Drives.allocate (motorCount params) port simulations⟩ = some m) :
    ∀ i, ∀ md ∈ m.drives.motorDriverArray i, md.parameters = driverParameters c params i := by
  have hstep : ∀ visited e m, visited ++ [e] <+: params.toList →
      Routed c (motorCount params) visited m →
      ∃ m', motorEntry c m e = some m' ∧ Routed c (motorCount params) (visited ++ [e]) m' := by
    intro visited e m hfront hm
    have hdistinct := (Std.TreeMap.distinct_keys_toList (t := params)).sublist hfront.sublist
    have hmem : e ∈ params.toList := hfront.subset (by simp)
    refine hm.step hmax (fun e' he' heq => ?_) (hentries e.1 (key_mem_of_mem_toList hmem))
    exact (List.pairwise_append.mp hdistinct).2.2 e' he' e (by simp) (by simp [heq])
  obtain ⟨m', hrun, hrouted⟩ := foldlM_prefixes hstep
    (routed_allocate c (motorCount params) port simulations)
  rw [h] at hrun
  cases hrun
  intro i md hmd
  refine funext fun name => Option.ext fun value => ?_
  rw [hrouted.parameters i md hmd, driverParameters]
  simp [Std.TreeMap.mem_toList_iff_getElem?_eq_some, eq_comm]

/-- The description of the motors: what the drivers are then configured with, and what they have
sent. -/
theorem initMotorDescriptions_spec (c : ArmConfiguration g) {params : ParameterMap}
    (hmax : motorCount params ≤ maxCount) (hentries : MotorEntries (motorCount params) params)
    {port : SerialPort} {simulations : Bool} {d : Drives R}
    (h : initMotorDescriptions c params port simulations = some d) :
    d.useSimulations = simulations ∧
      (∀ i, ∀ md ∈ d.motorDriverArray i, md.shortCommandList = [] ∧ md.index = i + 1) ∧
      (∀ i < driveCount params, d.configs i = some (MotorDriver.described i
        (driverParameters c params i) : MotorDriver R).specialization.config) ∧
      MotorDriver.Sends (startText c params) simulations port d.serialPort := by
  by_cases hempty : params.isEmpty = true
  · rw [initMotorDescriptions, if_pos hempty] at h
    cases h
    have hcount : driveCount params = 0 := by
      rw [driveCount, serverParameter, Std.TreeMap.getElem?_of_isEmpty hempty]
      decide
    refine ⟨rfl, fun i md hmd => ?_, fun i hi => by omega, ?_⟩
    · rw [Drives.eq_construct_of_mem_allocate hmd]
      exact ⟨rfl, rfl⟩
    · rw [startText, hcount]
      exact .refl simulations port
  · rw [initMotorDescriptions, if_neg hempty, if_neg (Nat.not_lt.mpr hmax)] at h
    obtain ⟨m, hm, h⟩ := Option.bind_eq_some_iff.mp h
    have hcount := actualDriveCount_eq c rfl hm
    obtain ⟨hsimulations, hport, hdescribed⟩ := foldlM_motorEntry_described c hm
      fun i md hmd => by
        rw [Drives.eq_construct_of_mem_allocate hmd]
        rfl
    have hparameters := foldlM_motorEntry_parameters c hmax hentries hm
    have hd : ∀ i, 0 ≤ i → ∀ md ∈ m.drives.motorDriverArray i,
        md = MotorDriver.described i (driverParameters c params i) := by
      intro i _ md hmd
      rw [← hparameters i md hmd]
      exact hdescribed i md hmd
    obtain ⟨hsims, -, hidle, hconfigs, hsends⟩ := processLoop_spec hd h
    rw [hcount] at hsends hconfigs
    rw [hsimulations, hport] at hsends
    refine ⟨hsims.trans hsimulations, fun i => hidle i (Nat.zero_le i),
      fun i hi => hconfigs i (Nat.zero_le i) ((Nat.zero_add _).symm ▸ hi), ?_⟩
    simp only [getD_driverParameters, ← List.range_eq_range'] at hsends
    exact hsends

end drives

/-- The map that a file of these entries is read into. -/
def entriesMap (entries : List Entry) : ParameterMap :=
  entries.foldl (fun m e => m.insert e.key e.value) ∅

theorem getElem?_entriesMap (entries : List Entry) (key : Str) :
    (entriesMap entries)[key]? =
      (entries.reverse.find? (·.key = key)).map Entry.value := by
  rw [entriesMap, getElem?_foldl_insert]
  simp

theorem mem_entriesMap {entries : List Entry} {key : Str} :
    key ∈ entriesMap entries ↔ ∃ e ∈ entries, e.key = key := by
  rw [Std.TreeMap.mem_iff_isSome_getElem?, getElem?_entriesMap, Option.isSome_map,
    List.find?_isSome]
  simp

section file
variable {entries : List Entry} {file : List FileLine} {newline : Bool}
  (hfile : file.filterMap FileLine.content? = entries.flatMap Entry.lines)
  (hnul : '\x00' ∉ fileText file newline)
include hfile hnul

theorem filter_fileLines_entries :
    (fileLines (fileText file newline)).filter notComment =
        (entries.flatMap Entry.lines).map trim ∧
      ∀ l ∈ entries.flatMap Entry.lines, '\x00' ∉ trim l := by
  have hcontent : ∀ line ∈ file.filterMap FileLine.content?,
      '\n' ∉ line ∧ trim line ≠ [] ∧ notComment (trim line) = true := by
    intro line hline
    rw [hfile] at hline
    obtain ⟨e, -, he⟩ := List.mem_flatMap.mp hline
    exact e.lines_spec he
  have hlines := filter_fileLines hcontent newline
  rw [hfile] at hlines
  refine ⟨hlines, fun l hl => ?_⟩
  have htrim : trim l ∈ (fileLines (fileText file newline)).filter notComment := by
    rw [hlines]
    exact List.mem_map_of_mem hl
  exact nul_notMem_of_mem_fileLines hnul (List.mem_of_mem_filter htrim)

theorem readParameters_entries (hsize : (fileText file newline).length < 20000) :
    readParameters ∅ true (some (fileText file newline)) = some (entriesMap entries) := by
  obtain ⟨hlines, hentries⟩ := filter_fileLines_entries hfile hnul
  rw [readParameters_of_fits hnul hsize, ← parameterLoop_filter ∅
    fun line hline => trimString_of_mem_fileLines hnul hline, hlines,
    parameterLoop_entries ∅ entries hentries]
  rfl

end file

/-- The block that the entries have under a key; the last entry counts. -/
def lastBlock (entries : List Entry) (key : Str) : List BlockLine :=
  match entries.reverse.find? (·.key = key) with
  | some (.block _ lines) => lines
  | _ => []

theorem nul_notMem_macroText (items : List Item) : '\x00' ∉ macroText items := by
  cases items with
  | nil => simp [macroText]
  | cons i items =>
    refine (intercalate_items (by decide) ?_).2.2
    intro u hu
    obtain ⟨i, -, rfl⟩ := List.mem_map.mp (List.map_cons ▸ hu)
    exact ⟨i.ne_nil, i.trimmed, i.semicolon, i.nul⟩

theorem ite_strstr_subst {key : Str} (hkey : key ≠ []) (value : Str) {s : Str}
    (hnul : '\x00' ∉ s) :
    (if strstr s key then subst key value s hkey else s) = replaceAll key value s := by
  rw [strstr, cStr_of_notMem hnul, subst_eq_replaceAll]
  cases h : findFirst key s with
  | none => simp [replaceAll_of_findFirst_none h]
  | some i => simp

section drives
variable {R : Type} [Field R] [PiConstant R] {g : ArmParameters R}

/-- The text of a line with the arm's step counts filled in. -/
def filledIn (c : ArmConfiguration g) (text : Str) : Str :=
  replaceAll elbowMarker (decimal c.elbowCurrentSteps)
    (replaceAll canisterMarker (decimal c.canisterCurrentSteps) text)

theorem checkVars_eq_filledIn (c : ArmConfiguration g) {line : Str} (hnul : '\x00' ∉ line) :
    checkVars c line = filledIn c line := by
  have hcanister : (if strstr line canisterMarker then
      subst canisterMarker (decimal c.canisterCurrentSteps) line (MotorDriver.varMarker_ne_nil _)
      else line) = replaceAll canisterMarker (decimal c.canisterCurrentSteps) line :=
    ite_strstr_subst _ _ hnul
  have hnul' : '\x00' ∉ replaceAll canisterMarker (decimal c.canisterCurrentSteps) line :=
    fun h => (mem_replaceAll h).elim (notMem_decimal (by decide) (by decide) _) hnul
  unfold checkVars
  dsimp only
  rw [hcanister]
  exact ite_strstr_subst _ _ hnul'

def Item.fillIn (c : ArmConfiguration g) (i : Item) : Item :=
  .replace "ELBOW_STEPS".toList (.decimal c.elbowCurrentSteps)
    (.replace "CANISTER_STEPS".toList (.decimal c.canisterCurrentSteps) i)

/-- `check_vars` works on each item of a macro. -/
theorem checkVars_macroText (c : ArmConfiguration g) (items : List Item) :
    checkVars c (macroText items) = macroText (items.map (Item.fillIn c)) := by
  have hreplace : ∀ (var : Str) (hvar : ';' ∉ var) (value : Item) (items : List Item),
      replaceAll (MotorDriver.varMarker var) value.text (macroText items) =
        macroText (items.map (Item.replace var value)) := by
    intro var hvar value items
    rw [← subst_macroText hvar, subst_eq_replaceAll]
  have hcanister := hreplace "CANISTER_STEPS".toList (by decide)
    (.decimal c.canisterCurrentSteps) items
  have helbow := hreplace "ELBOW_STEPS".toList (by decide) (.decimal c.elbowCurrentSteps)
    (items.map (Item.replace "CANISTER_STEPS".toList (.decimal c.canisterCurrentSteps)))
  rw [checkVars_eq_filledIn c (nul_notMem_macroText items), filledIn]
  refine (congrArg _ hcanister).trans (helbow.trans ?_)
  rw [List.map_map]
  rfl

theorem macroLines_macroText (index : ℕ) (items : List Item) :
    MotorDriver.macroLines index (macroText items) =
      items.map fun i => decimal index ++ i.text := by
  rw [MotorDriver.macroLines, toItems_macroText, List.map_map]
  apply List.map_congr_left
  intro i _
  exact cStr_of_notMem (sendable_of_index index i).nul

/-- A line of a block that the macro made of the block keeps whole. -/
def BlockLine.IsItem (l : BlockLine) : Prop := ';' ∉ l.text ∧ '\r' ∉ l.text

omit [Field R] [PiConstant R] in
theorem exists_items {lines : List BlockLine} (hitem : ∀ l ∈ lines, l.IsItem)
    (hnul : ∀ l ∈ lines, '\x00' ∉ l.text) :
    ∃ items : List Item, items.map Item.text = lines.map BlockLine.text := by
  induction lines with
  | nil => exact ⟨[], rfl⟩
  | cons l lines ih =>
    obtain ⟨items, hitems⟩ := ih (fun k hk => hitem k (List.mem_cons_of_mem l hk))
      fun k hk => hnul k (List.mem_cons_of_mem l hk)
    obtain ⟨hsemicolon, hcr⟩ := hitem l List.mem_cons_self
    exact ⟨⟨l.text, l.ne_nil, l.trimmed, hsemicolon, hcr, hnul l List.mem_cons_self⟩ :: items,
      by simp [hitems]⟩

/-- Whatever the entries have under a key is a block of items. -/
def BlocksUnder (entries : List Entry) (key : Str) : Prop :=
  ∀ e ∈ entries, e.key = key → ∃ k lines, e = .block k lines ∧ ∀ l ∈ lines, l.IsItem

variable {entries : List Entry} {key : Str}

omit [Field R] [PiConstant R] in
theorem serverParameter_lastBlock (hblocks : BlocksUnder entries key)
    (hnul : ∀ l ∈ entries.flatMap Entry.lines, '\x00' ∉ trim l) :
    ∃ items : List Item, items.map Item.text = (lastBlock entries key).map BlockLine.text ∧
      serverParameter (entriesMap entries) key = macroText items := by
  rw [serverParameter, getElem?_entriesMap]
  cases hfind : entries.reverse.find? (·.key = key) with
  | none => exact ⟨[], by simp [lastBlock, hfind], rfl⟩
  | some e =>
    have hmem : e ∈ entries := List.mem_reverse.mp (List.mem_of_find?_eq_some hfind)
    have hkey : e.key = key := by simpa using List.find?_some hfind
    obtain ⟨k, lines, rfl, hitem⟩ := hblocks e hmem hkey
    have hlines : ∀ l ∈ lines, '\x00' ∉ l.text := by
      intro l hl
      have htext : l.text ∈ entries.flatMap Entry.lines :=
        List.mem_flatMap.mpr ⟨_, hmem, by simp [Entry.lines, List.mem_map_of_mem hl]⟩
      rw [← trim_of_trimmed l.trimmed]
      exact hnul _ htext
    obtain ⟨items, hitems⟩ := exists_items hitem hlines
    have hlast : lastBlock entries key = lines := by simp [lastBlock, hfind]
    refine ⟨items, by rw [hlast, hitems], ?_⟩
    rw [macroText, hitems]
    rfl

theorem macroLines_lastBlock (c : ArmConfiguration g) (index : ℕ)
    (hblocks : BlocksUnder entries key)
    (hnul : ∀ l ∈ entries.flatMap Entry.lines, '\x00' ∉ trim l) :
    MotorDriver.macroLines index (checkVars c (serverParameter (entriesMap entries) key)) =
      (lastBlock entries key).map fun l => decimal index ++ filledIn c l.text := by
  obtain ⟨items, hitems, hvalue⟩ := serverParameter_lastBlock hblocks hnul
  rw [hvalue, checkVars_macroText, macroLines_macroText, List.map_map]
  have htexts : ∀ f : Str → Str, items.map (f ∘ Item.text) =
      (lastBlock entries key).map (f ∘ BlockLine.text) := by
    intro f
    rw [← List.map_map, hitems, List.map_map]
  exact htexts fun text => decimal index ++ filledIn c text

end drives

/-- `lower_case`, on the C string. -/
def lowerCase (s : Str) : Str :=
  (cStr s).map (fun c => if 'A' ≤ c ∧ c ≤ 'Z' then c.toLower else c) ++
    s.dropWhile (· ≠ '\x00')

/-- `sg_server_parameters[key]` makes an absent entry, with an empty value. -/
def lookUp (keys : List Str) (serverParameters : ParameterMap) : ParameterMap :=
  keys.foldl (fun m key => m.insertIfNew key []) serverParameters

@[simp] theorem serverParameter_lookUp (keys : List Str) (m : ParameterMap) (key : Str) :
    serverParameter (lookUp keys m) key = serverParameter m key := by
  induction keys generalizing m with
  | nil => rfl
  | cons k keys ih =>
    rw [lookUp, List.foldl_cons, ← lookUp, ih]
    unfold serverParameter
    rw [Std.TreeMap.getElem?_insertIfNew]
    split_ifs with h
    · obtain ⟨hk, hmem⟩ := h
      rw [Std.compare_eq_iff_eq] at hk
      rw [Std.TreeMap.getElem?_eq_none (hk ▸ hmem)]
      rfl
    · rfl

theorem mem_lookUp {keys : List Str} {m : ParameterMap} {key : Str} :
    key ∈ lookUp keys m ↔ key ∈ keys ∨ key ∈ m := by
  induction keys generalizing m with
  | nil => simp [lookUp]
  | cons k keys ih =>
    rw [lookUp, List.foldl_cons, ← lookUp, ih, Std.TreeMap.mem_insertIfNew,
      Std.compare_eq_iff_eq, List.mem_cons, eq_comm]
    tauto

/-- A key that no loop of the descriptions looks for. -/
def PlainKey (key : Str) : Prop := key.head? ≠ some '('

instance : DecidablePred PlainKey := fun key => inferInstanceAs (Decidable (key.head? ≠ some '('))

theorem PlainKey.take_ne {key : Str} (h : PlainKey key) (family : Str) :
    key.take 3 ≠ '(' :: family := by
  intro htake
  have hhead : (key.take 3).head? = key.head? := by cases key <;> rfl
  rw [htake] at hhead
  exact h hhead.symm

theorem EntriesLand.lookUp {m : ParameterMap} (h : EntriesLand m) {keys : List Str}
    (hkeys : ∀ key ∈ keys, PlainKey key) : EntriesLand (lookUp keys m) := by
  have hmem : ∀ {key : Str}, key ∈ Arm2D.lookUp keys m → ∀ family,
      key.take 3 = '(' :: family → key ∈ m := by
    intro key hkey family htake
    rcases mem_lookUp.mp hkey with hkey | hkey
    · exact absurd htake ((hkeys key hkey).take_ne family)
    · exact hkey
  refine ⟨fun key hkey hfamily => ?_, ?_, fun key hkey hfamily => ?_, fun key hkey hadds => ?_⟩
  · simpa only [motorCount, serverParameter_lookUp] using
      h.motors key (hmem hkey _ hfamily) hfamily
  · simpa only [motorCount, serverParameter_lookUp] using h.drives
  · simpa only [sensorCount, serverParameter_lookUp] using
      h.sensors key (hmem hkey _ hfamily) hfamily
  · obtain ⟨d, hd, hdefinition⟩ := h.targets key (hmem hkey _ hadds.1) hadds
    exact ⟨d, mem_lookUp.mpr (Or.inr hd), hdefinition⟩

theorem getElem?_lookUp {keys : List Str} {key : Str} (hkey : key ∉ keys) (m : ParameterMap) :
    (lookUp keys m)[key]? = m[key]? := by
  induction keys generalizing m with
  | nil => rfl
  | cons k keys ih =>
    obtain ⟨hk, hkey⟩ := List.ne_and_not_mem_of_not_mem_cons hkey
    rw [lookUp, List.foldl_cons, ← lookUp, ih hkey, Std.TreeMap.getElem?_insertIfNew, if_neg]
    exact fun hcompare => hk (Std.compare_eq_iff_eq.mp hcompare.1).symm

theorem SourcesNamed.lookUp {m : ParameterMap} (h : SourcesNamed m) {keys : List Str}
    (hkeys : ∀ key ∈ keys, PlainKey key) : SourcesNamed (lookUp keys m) := by
  intro line hline
  obtain ⟨e, he, rfl⟩ := List.mem_map.mp hline
  obtain ⟨he, hdefinition⟩ := List.mem_filter.mp he
  obtain ⟨he, hfamily⟩ := List.mem_filter.mp he
  have hkey : e.1 ∉ keys := fun hmem =>
    (hkeys _ hmem).take_ne _ (of_decide_eq_true hfamily)
  rw [Std.TreeMap.mem_toList_iff_getElem?_eq_some, getElem?_lookUp hkey,
    ← Std.TreeMap.mem_toList_iff_getElem?_eq_some] at he
  exact mem_lookUp.mpr (Or.inr (h _ (List.mem_map_of_mem (List.mem_filter.mpr
    ⟨List.mem_filter.mpr ⟨he, hfamily⟩, hdefinition⟩))))

theorem driverParameters_lookUp {R : Type} [Field R] [PiConstant R] {g : ArmParameters R}
    (c : ArmConfiguration g) {keys : List Str} (hkeys : ∀ key ∈ keys, PlainKey key)
    (m : ParameterMap) (i : ℕ) :
    driverParameters c (lookUp keys m) i = driverParameters c m i := by
  funext name
  have hmotor : motorKey name (i + 1) ∉ keys := fun hmem =>
    (hkeys _ hmem).take_ne _ (take_motorKey name (i + 1))
  rw [driverParameters, getElem?_lookUp hmotor, driverParameters]

theorem MotorEntries.lookUp {m : ParameterMap} (h : MotorEntries (motorCount m) m)
    {keys : List Str} (hkeys : ∀ key ∈ keys, PlainKey key) :
    MotorEntries (motorCount (lookUp keys m)) (lookUp keys m) := by
  intro key hkey hfamily
  rcases mem_lookUp.mp hkey with hkey | hkey
  · exact absurd hfamily ((hkeys key hkey).take_ne _)
  · rw [motorCount, serverParameter_lookUp]
    exact h key hkey hfamily

/-- Why a start does not return: an object that does not exist is followed or a buffer read past
its end, the serial port stays silent, or `exit(1)`. -/
inductive Halt
  | crash
  | wait
  | exit
  deriving DecidableEq

def followed {α : Type} (value : Option α) : Except Halt α := value.elim (.error .crash) .ok

theorem except_bind_eq_ok {ε α β : Type} {x : Except ε α} {f : α → Except ε β} {b : β} :
    x >>= f = .ok b ↔ ∃ a, x = .ok a ∧ f a = .ok b := by
  cases x with
  | error e => simp [bind, Except.bind]
  | ok a => simp [bind, Except.bind]

theorem except_bind_eq_error {ε α β : Type} {x : Except ε α} {f : α → Except ε β} {e : ε} :
    x >>= f = .error e ↔ x = .error e ∨ ∃ a, x = .ok a ∧ f a = .error e := by
  cases x with
  | error e => simp [bind, Except.bind]
  | ok a => simp [bind, Except.bind]

theorem followed_eq_error {α : Type} {value : Option α} {e : Halt} :
    followed value = .error e ↔ value = none ∧ e = .crash := by
  cases value <;> simp [followed, eq_comm]

theorem followed_eq_ok {α : Type} {value : Option α} {a : α} :
    followed value = .ok a ↔ value = some a := by
  cases value <;> simp [followed]

/-- `motor_driver_port_initialization`: the bytes that wait on the port are thrown away. `good` is
false when the port takes one of its settings not. -/
def motorDriverPortInitialization (useSimulations good : Bool) (port : SerialPort) :
    Except Halt SerialPort :=
  if useSimulations then .ok port
  else if good then
    match port.polls.dropWhile Option.isNone with
    | [] => .error .wait
    | polls => .ok { port with polls := (polls.dropWhile Option.isSome).tail }
  else .error .exit

/-- The members that the arm's constructor leaves unset. -/
structure Unset (R : Type) where
  beta : R
  startAngle : R
  startRadius : R
  canisterOriginSteps : ℤ

/-- The globals after `initialize_all`. -/
structure Startup (R : Type) [Field R] [PiConstant R] where
  serverParameters : ParameterMap
  parameters : ArmParameters R
  system : System parameters
  sensors : SensorTable

section program
variable {R : Type} [Field R] [LinearOrder R] [FloorRing R] [Libm R] [PiConstant R]

/-- The numbers of the arm; the steps are converted to `unsigned int`. -/
def armParameters (serverParameters : ParameterMap) : ArmParameters R where
  canisterRadius := atof (serverParameter serverParameters "CANISTER_RADIUS".toList)
  arm1Length := atof (serverParameter serverParameters "ARM_1_length".toList)
  arm2Length := atof (serverParameter serverParameters "ARM_2_length".toList)
  canisterStep :=
    unsignedInt (truncate (atof (serverParameter serverParameters "CANISTER_STEP".toList) : ℚ))
  elbowStep :=
    unsignedInt (truncate (atof (serverParameter serverParameters "ELBOW_STEP".toList) : ℚ))

/-- `sg_use_simulations`. -/
def useSimulations (serverParameters : ParameterMap) : Bool :=
  lowerCase (serverParameter serverParameters "SIMULATION".toList) = "yes".toList

def startKeys (simulations : Bool) : List Str :=
  ["SIMULATION".toList,
    if simulations then "TCP_WITH_SIMULATION".toList else "port_ready_delay".toList,
    "CANISTER_RADIUS".toList, "ARM_1_length".toList, "ARM_2_length".toList,
    "CANISTER_STEP".toList, "ELBOW_STEP".toList, "MIN_RADIUS".toList, "MOTOR_COUNT".toList]

theorem startKeys_plain {simulations : Bool} : ∀ key ∈ startKeys simulations, PlainKey key := by
  cases simulations <;> decide

/-- The arm at its start radius. -/
def startArm (unset : Unset R) (serverParameters : ParameterMap) :
    ArmConfiguration (armParameters serverParameters : ArmParameters R) :=
  (ArmConfiguration.construct _ unset.beta unset.startAngle unset.startRadius
    unset.canisterOriginSteps).setMininumRadius
      (atof (serverParameter serverParameters "MIN_RADIUS".toList))

@[simp] theorem startArm_startRadius (unset : Unset R) (params : ParameterMap) :
    (startArm unset params).startRadius = atof (serverParameter params "MIN_RADIUS".toList) := by
  rw [startArm, ArmConfiguration.setMininumRadius_startRadius]

def initializeAll (unset : Unset R) (file : Option Str) (good : Bool) (port : SerialPort) :
    Except Halt (Startup R) := do
  let params ← followed (readParameters ∅ true file)
  let simulations := useSimulations params
  let port ← motorDriverPortInitialization simulations good port
  let params := lookUp (startKeys simulations) params
  let armConstruct := startArm unset params
  let drives ← followed (initMotorDescriptions armConstruct params port simulations)
  let params' := lookUp ["SENSOR_COUNT".toList] params
  let sensors ← followed (initSensorDescriptions armConstruct params')
  return ⟨params', armParameters params, ⟨armConstruct, drives, 0, 0⟩, sensors⟩

/-- What the steps of `initialize_all` leave. -/
structure InitializedFrom (params : ParameterMap) (good : Bool) (port : SerialPort)
    (s : Startup R) : Prop where
  serverParameter_eq : ∀ key,
    serverParameter s.serverParameters key = serverParameter params key
  parameters : s.parameters = armParameters params
  startRadius : s.system.armConstruct.startRadius =
    atof (serverParameter params "MIN_RADIUS".toList)
  drives : ∃ port',
    motorDriverPortInitialization (useSimulations params) good port = .ok port' ∧
      initMotorDescriptions s.system.armConstruct
        (lookUp (startKeys (useSimulations params)) params) port' (useSimulations params) =
          some s.system.drives
  sensors : initSensorDescriptions s.system.armConstruct s.serverParameters = some s.sensors

theorem initializeAll_from {unset : Unset R} {file : Option Str} {good : Bool} {port : SerialPort}
    {s : Startup R} (h : initializeAll unset file good port = .ok s) {params : ParameterMap}
    (hread : readParameters ∅ true file = some params) : InitializedFrom params good port s := by
  unfold initializeAll at h
  obtain ⟨params₁, hparams, h⟩ := except_bind_eq_ok.mp h
  rw [followed_eq_ok, hread, Option.some.injEq] at hparams
  subst hparams
  obtain ⟨port', hport, h⟩ := except_bind_eq_ok.mp h
  obtain ⟨drives, hdrives, h⟩ := except_bind_eq_ok.mp h
  obtain ⟨sensors, hsensors, h⟩ := except_bind_eq_ok.mp h
  have hdrives := followed_eq_ok.mp hdrives
  have hsensors := followed_eq_ok.mp hsensors
  obtain rfl := Except.ok.inj h
  refine ⟨fun key => ?_, ?_, ?_, ⟨port', hport, hdrives⟩, hsensors⟩
  · simp only [serverParameter_lookUp]
  · simp only [armParameters, serverParameter_lookUp]
  · rw [startArm_startRadius, serverParameter_lookUp]

theorem motorDriverPortInitialization_written {simulations good : Bool} {port port' : SerialPort}
    (h : motorDriverPortInitialization simulations good port = .ok port') :
    port'.written = port.written ∧ (simulations = true → port' = port) := by
  unfold motorDriverPortInitialization at h
  split_ifs at h with hsimulations
  · cases h
    exact ⟨rfl, fun _ => rfl⟩
  · split at h
    · cases h
    · cases h
      exact ⟨rfl, fun hs => absurd hs hsimulations⟩

theorem exists_motorDriverPortInitialization {simulations good : Bool} {port : SerialPort}
    (h : simulations = true ∨ good = true ∧ ∃ byte, some byte ∈ port.polls) :
    ∃ port', motorDriverPortInitialization simulations good port = .ok port' := by
  unfold motorDriverPortInitialization
  rcases h with hsimulations | ⟨hgood, byte, hbyte⟩
  · rw [if_pos hsimulations]
    exact ⟨port, rfl⟩
  · split_ifs
    · exact ⟨port, rfl⟩
    · cases hpolls : port.polls.dropWhile Option.isNone with
      | nil =>
        have hnone := List.dropWhile_eq_nil_iff.mp hpolls _ hbyte
        simp at hnone
      | cons poll polls => exact ⟨_, rfl⟩

theorem motorDriverPortInitialization_eq_exit {simulations good : Bool} {port : SerialPort} :
    motorDriverPortInitialization simulations good port = .error .exit ↔
      simulations = false ∧ good = false := by
  unfold motorDriverPortInitialization
  cases simulations with
  | true => simp
  | false =>
    cases good with
    | false => simp
    | true => cases port.polls.dropWhile Option.isNone <;> simp

theorem motorDriverPortInitialization_eq_wait {simulations good : Bool} {port : SerialPort} :
    motorDriverPortInitialization simulations good port = .error .wait ↔
      simulations = false ∧ good = true ∧ ∀ poll ∈ port.polls, poll = none := by
  unfold motorDriverPortInitialization
  cases simulations with
  | true => simp
  | false =>
    cases good with
    | false => simp
    | true =>
      have hsilent := List.dropWhile_eq_nil_iff (p := Option.isNone) (l := port.polls)
      simp only [Option.isNone_iff_eq_none] at hsilent
      cases hpolls : port.polls.dropWhile Option.isNone with
      | nil => simpa using hsilent.mp hpolls
      | cons poll polls => simp [← hsilent, hpolls]

/-- Apart from a crash the start fails to return only at the serial port, and what it does there
depends on nothing that comes later. -/
theorem initializeAll_eq_error_iff {unset : Unset R} {file : Option Str} {good : Bool}
    {port : SerialPort} {e : Halt} (he : e ≠ .crash) :
    initializeAll unset file good port = .error e ↔
      ∃ params, readParameters ∅ true file = some params ∧
        motorDriverPortInitialization (useSimulations params) good port = .error e := by
  have hfollowed : ∀ {α : Type} {value : Option α}, followed value ≠ .error e :=
    fun h => he (followed_eq_error.mp h).2
  have hpure : ∀ {α : Type} {a : α}, (pure a : Except Halt α) ≠ .error e := by
    intro α a h
    cases h
  unfold initializeAll
  simp only [except_bind_eq_error, followed_eq_ok, hfollowed, hpure, false_or, and_false,
    exists_false, or_false]

/-- The start comes to its end when every entry lands and every source is named. -/
theorem exists_initializeAll (unset : Unset R) {file : Option Str} {good : Bool}
    {port : SerialPort} {params : ParameterMap}
    (hread : readParameters ∅ true file = some params)
    (hport : useSimulations params = true ∨ good = true ∧ ∃ byte, some byte ∈ port.polls)
    (hmotors : 1 ≤ motorCount params ∧ motorCount params ≤ maxCount)
    (hsensors : 1 ≤ sensorCount params ∧ sensorCount params ≤ maxCount)
    (hland : EntriesLand params) (hsources : SourcesNamed params) :
    ∃ s, initializeAll unset file good port = .ok s := by
  obtain ⟨port', hport'⟩ := exists_motorDriverPortInitialization hport
  let params' := lookUp (startKeys (useSimulations params)) params
  have hland' : EntriesLand params' := hland.lookUp startKeys_plain
  have hland'' : EntriesLand (lookUp ["SENSOR_COUNT".toList] params') :=
    hland'.lookUp (by decide)
  have hcount : motorCount params' = motorCount params := by
    simp only [motorCount, params', serverParameter_lookUp]
  have hsensorCount : sensorCount (lookUp ["SENSOR_COUNT".toList] params') =
      sensorCount params := by
    simp only [sensorCount, params', serverParameter_lookUp]
  rw [← hcount] at hmotors
  rw [← hsensorCount] at hsensors
  obtain ⟨drives, hdrives⟩ := Option.isSome_iff_exists.mp
    ((initMotorDescriptions_isSome_iff (startArm unset params') hmotors.1 hmotors.2 port'
      (useSimulations params)).mpr ⟨hland'.motors, hland'.drives⟩)
  have hsources' : SourcesNamed (lookUp ["SENSOR_COUNT".toList] params') :=
    (hsources.lookUp startKeys_plain).lookUp (by decide)
  obtain ⟨sensors, hs⟩ := exists_initSensorDescriptions (startArm unset params') hsensors
    hland''.sensors hland''.targets hsources'
  refine ⟨_, except_bind_eq_ok.mpr ⟨params, followed_eq_ok.mpr hread, except_bind_eq_ok.mpr
    ⟨port', hport', except_bind_eq_ok.mpr ⟨drives, followed_eq_ok.mpr hdrives,
      except_bind_eq_ok.mpr ⟨sensors, followed_eq_ok.mpr hs, rfl⟩⟩⟩⟩⟩

/-- The lines that the entries' blocks have for the start of the drives. -/
def blockLines {g : ArmParameters R} (c : ArmConfiguration g) (entries : List Entry) : List Str :=
  (List.range (driveCount (entriesMap entries))).flatMap fun i =>
    MotorDriver.initializers.flatMap fun name =>
      (lastBlock entries (motorKey name (i + 1))).map fun l =>
        decimal ((i + 1 : ℕ) : ℤ) ++ filledIn c l.text

section blocks
variable {entries : List Entry}
  (hblocks : ∀ i < driveCount (entriesMap entries), ∀ name ∈ MotorDriver.initializers,
    BlocksUnder entries (motorKey name (i + 1)))
  (hnul : ∀ l ∈ entries.flatMap Entry.lines, '\x00' ∉ trim l)
include hblocks hnul

omit [LinearOrder R] [FloorRing R] [Libm R] in
theorem startText_entriesMap {g : ArmParameters R} (c : ArmConfiguration g) :
    startText c (entriesMap entries) = blockLines c entries := by
  unfold startText blockLines MotorDriver.startLines
  refine List.flatMap_congr fun i hi => List.flatMap_congr fun name hname => ?_
  exact macroLines_lastBlock c (i + 1) (hblocks i (List.mem_range.mp hi) name hname) hnul

omit [LinearOrder R] [FloorRing R] [Libm R] in
theorem sendable_blockLines {g : ArmParameters R} (c : ArmConfiguration g) :
    ∀ line ∈ blockLines c entries, line ≠ [] ∧ '\r' ∉ line := by
  intro line hline
  rw [← startText_entriesMap hblocks hnul c, startText, List.mem_flatMap] at hline
  obtain ⟨i, hi, hline⟩ := hline
  obtain ⟨name, hname, hline⟩ := List.mem_flatMap.mp hline
  obtain ⟨items, -, hvalue⟩ :=
    serverParameter_lastBlock (hblocks i (List.mem_range.mp hi) name hname) hnul
  simp only [hvalue, checkVars_macroText, macroLines_macroText] at hline
  obtain ⟨item, -, rfl⟩ := List.mem_map.mp hline
  have hsendable := sendable_of_index (i + 1) item
  exact ⟨hsendable.ne_nil, hsendable.cr⟩

end blocks

/-- The macros that a parameter file has for the start of the drives go from the file to the
wire: each line of a block, in its order, with the number of its drive before it and the steps
of the arm at its start radius in it. -/
theorem startup_sends {entries : List Entry} {file : List FileLine} {newline : Bool}
    (hfile : file.filterMap FileLine.content? = entries.flatMap Entry.lines)
    (hnul : '\x00' ∉ fileText file newline) (hsize : (fileText file newline).length < 20000)
    (hmotorCount : 1 ≤ motorCount (entriesMap entries) ∧ motorCount (entriesMap entries) ≤ maxCount)
    (hsensorCount : 1 ≤ sensorCount (entriesMap entries) ∧
      sensorCount (entriesMap entries) ≤ maxCount)
    (hland : EntriesLand (entriesMap entries)) (hsources : SourcesNamed (entriesMap entries))
    (hmotors : MotorEntries (motorCount (entriesMap entries)) (entriesMap entries))
    (hblocks : ∀ i < driveCount (entriesMap entries), ∀ name ∈ MotorDriver.initializers,
      BlocksUnder entries (motorKey name (i + 1)))
    (unset : Unset R) {good : Bool} {port : SerialPort}
    (hport : useSimulations (entriesMap entries) = true ∨
      good = true ∧ ∃ byte, some byte ∈ port.polls) :
    ∃ s, initializeAll unset (some (fileText file newline)) good port = .ok s ∧
      s.parameters = armParameters (entriesMap entries) ∧
      (useSimulations (entriesMap entries) = true → s.system.drives.serialPort = port) ∧
      (useSimulations (entriesMap entries) = false →
        ∃ out, s.system.drives.serialPort.written = port.written ++ out ∧
          wireLines out = blockLines s.system.armConstruct entries) := by
  have hentries := (filter_fileLines_entries hfile hnul).2
  have hread := readParameters_entries hfile hnul hsize
  obtain ⟨s, h⟩ := exists_initializeAll unset hread hport hmotorCount hsensorCount hland
    hsources
  obtain ⟨-, hparameters, -, ⟨port', hport', hdrives⟩, -⟩ := initializeAll_from h hread
  obtain ⟨hwritten, hsame⟩ := motorDriverPortInitialization_written hport'
  obtain ⟨-, -, -, htranscript, hsilent, -⟩ := initMotorDescriptions_spec _
    (by simpa [motorCount] using hmotorCount.2) (hmotors.lookUp startKeys_plain)
    hdrives
  have htext : startText s.system.armConstruct
      (lookUp (startKeys (useSimulations (entriesMap entries))) (entriesMap entries)) =
        blockLines s.system.armConstruct entries := by
    rw [← startText_entriesMap hblocks hentries]
    simp only [startText, driveCount, serverParameter_lookUp]
  rw [htext] at htranscript
  refine ⟨s, h, hparameters, fun hs => (hsilent hs).trans (hsame hs), fun hs => ?_⟩
  obtain ⟨out, hout, hlines⟩ := htranscript hs
  exact ⟨out, hwritten ▸ hout, hlines.split (sendable_blockLines hblocks hentries _)⟩

theorem entriesLand_of_motors {entries : List Entry}
    (hdrives : driveCount (entriesMap entries) ≤ motorCount (entriesMap entries))
    (hkeys : ∀ e ∈ entries, (e.key.take 3 = "(m)".toList →
      indexOf e.key < motorCount (entriesMap entries)) ∧ e.key.take 3 ≠ "(s)".toList ∧
        e.key.take 3 ≠ "(t)".toList) : EntriesLand (entriesMap entries) := by
  refine ⟨fun key hkey hfamily => ?_, hdrives, fun key hkey hfamily => ?_, fun key hkey hadds => ?_⟩
  · obtain ⟨e, he, rfl⟩ := mem_entriesMap.mp hkey
    exact (hkeys e he).1 hfamily
  · obtain ⟨e, he, rfl⟩ := mem_entriesMap.mp hkey
    exact absurd hfamily (hkeys e he).2.1
  · obtain ⟨e, he, rfl⟩ := mem_entriesMap.mp hkey
    exact absurd hadds.1 (hkeys e he).2.2

theorem sourcesNamed_of_motors {entries : List Entry}
    (hkeys : ∀ e ∈ entries, e.key.take 3 ≠ "(t)".toList) : SourcesNamed (entriesMap entries) := by
  intro line hline
  obtain ⟨e, he, rfl⟩ := List.mem_map.mp hline
  obtain ⟨he, hfamily⟩ := List.mem_filter.mp (List.mem_filter.mp he).1
  obtain ⟨entry, hentry, hkey⟩ := mem_entriesMap.mp (key_mem_of_mem_toList he)
  exact absurd (hkey ▸ of_decide_eq_true hfamily) (hkeys entry hentry)

end program

def fileKey (text : Str)
    (h : text ≠ [] ∧ (∀ c ∈ text, isspace c = false) ∧ ':' ∉ text ∧ text.head? ≠ some '#') :
    Key where
  text := text
  ne_nil := h.1
  trimmed := trimmed_of_clean h.2.1
  colon := h.2.2.1
  newline := fun hc => absurd (h.2.1 _ hc) (by decide)
  comment := h.2.2.2

def oneEntry (key : Key) : Entry :=
  .plain key ['1'] (trimmed_of_clean (by simp [isspace])) (by decide) (by decide)

def motorCountKey : Key := fileKey "MOTOR_COUNT".toList (by simp [isspace])

def driveCountKey : Key := fileKey "drive_count".toList (by simp [isspace])

/-- One sensor, and all lengths of one. -/
def unitEntries : List Entry :=
  [oneEntry (fileKey "SENSOR_COUNT".toList (by simp [isspace])),
    oneEntry (fileKey "CANISTER_RADIUS".toList (by simp [isspace])),
    oneEntry (fileKey "ARM_1_length".toList (by simp [isspace])),
    oneEntry (fileKey "ARM_2_length".toList (by simp [isspace])),
    oneEntry (fileKey "MIN_RADIUS".toList (by simp [isspace]))]

def oneDrive : List Entry :=
  oneEntry motorCountKey :: oneEntry driveCountKey :: (unitEntries ++
    [.block (fileKey "(m)set_run_parameters[1]".toList (by simp [isspace]))
      [⟨"VE1".toList, by simp, trimmed_of_clean (by simp [isspace]), by simp, by simp, by simp⟩,
        ⟨"SP\x7bCANISTER_STEPS\x7d".toList, by simp, trimmed_of_clean (by simp [isspace]),
          by simp, by simp, by simp⟩]])

theorem counts_oneDrive : motorCount (entriesMap oneDrive) = 1 ∧
    sensorCount (entriesMap oneDrive) = 1 ∧ driveCount (entriesMap oneDrive) = 1 := by
  unfold motorCount sensorCount driveCount serverParameter
  simp only [getElem?_entriesMap]
  decide

theorem oneDrive_keys : ∀ e ∈ oneDrive,
    (e.key.take 3 = "(m)".toList → e.key = motorKey "set_run_parameters".toList 1) ∧
      e.key.take 3 ≠ "(s)".toList ∧ e.key.take 3 ≠ "(t)".toList := by
  decide +kernel

theorem entriesLand_oneDrive : EntriesLand (entriesMap oneDrive) := by
  obtain ⟨hmotors, -, hdrives⟩ := counts_oneDrive
  refine entriesLand_of_motors (hdrives.trans hmotors.symm).le fun e he => ⟨fun hfamily => ?_,
    (oneDrive_keys e he).2⟩
  rw [(oneDrive_keys e he).1 hfamily, hmotors]
  decide +kernel

theorem sourcesNamed_oneDrive : SourcesNamed (entriesMap oneDrive) :=
  sourcesNamed_of_motors fun e he => (oneDrive_keys e he).2.2

def fileLine (text : Str) : FileLine := .content [] text [] (by simp) (by simp)

def tabLine (text : Str) : FileLine := .content ['\t'] text [] (by simp) (by simp)

def unitLines : List FileLine :=
  [fileLine "SENSOR_COUNT: 1".toList, fileLine "CANISTER_RADIUS: 1".toList,
    fileLine "ARM_1_length: 1".toList, fileLine "ARM_2_length: 1".toList,
    fileLine "MIN_RADIUS: 1".toList]

def oneDriveFile : List FileLine :=
  fileLine "MOTOR_COUNT: 1".toList :: fileLine "drive_count: 1".toList :: (unitLines ++
    [fileLine "(m)set_run_parameters[1]: \x7b".toList, tabLine "VE1".toList,
      tabLine "SP\x7bCANISTER_STEPS\x7d".toList, fileLine ['\x7d']])

theorem blocks_oneDrive : ∀ i < driveCount (entriesMap oneDrive),
    ∀ name ∈ MotorDriver.initializers, BlocksUnder oneDrive (motorKey name (i + 1)) := by
  intro i _ name _ e he hkey
  have hfamily := take_motorKey name (i + 1)
  rw [← hkey] at hfamily
  simp only [oneDrive, unitEntries, List.cons_append, List.nil_append, List.mem_cons,
    List.not_mem_nil, or_false] at he
  rcases he with rfl | rfl | rfl | rfl | rfl | rfl | rfl | rfl
  iterate 7 exact absurd hfamily (by decide)
  · exact ⟨_, _, rfl, by simp [BlockLine.IsItem]⟩

theorem blockLines_oneDrive {g : ArmParameters ℝ} (c : ArmConfiguration g) :
    blockLines c oneDrive = ["1VE1".toList, "1SP".toList ++ decimal c.canisterCurrentSteps] := by
  have hspeed : filledIn c "VE1".toList = "VE1".toList := by
    simp [filledIn, replaceAll, canisterMarker, elbowMarker, MotorDriver.varMarker]
  have hsteps : filledIn c "SP\x7bCANISTER_STEPS\x7d".toList =
      "SP".toList ++ decimal c.canisterCurrentSteps := by
    rw [← checkVars_eq_filledIn c (by simp)]
    have h := checkVars_canister c (a := "SP".toList) (b := []) ⟨by simp, by simp⟩
      ⟨by simp, by simp⟩
    simpa [canisterMarker, MotorDriver.varMarker] using h
  have hlines : blockLines c oneDrive = [decimal 1 ++ filledIn c "VE1".toList,
      decimal 1 ++ filledIn c "SP\x7bCANISTER_STEPS\x7d".toList] := by
    rw [blockLines, counts_oneDrive.2.2]
    rfl
  rw [hlines, hspeed, hsteps]
  rfl

theorem motorEntries_oneDrive :
    MotorEntries (motorCount (entriesMap oneDrive)) (entriesMap oneDrive) := by
  intro key hkey hfamily
  obtain ⟨e, he, rfl⟩ := mem_entriesMap.mp hkey
  exact ⟨_, 1, (oneDrive_keys e he).1 hfamily, by simp, by simp, le_rfl, counts_oneDrive.1.ge⟩

theorem useSimulations_oneDrive : useSimulations (entriesMap oneDrive) = false := by
  unfold useSimulations serverParameter
  rw [getElem?_entriesMap]
  decide +kernel

theorem fileLines_oneDrive :
    oneDriveFile.filterMap FileLine.content? = oneDrive.flatMap Entry.lines := rfl

theorem nul_notMem_oneDrive : '\x00' ∉ fileText oneDriveFile false := by decide +kernel

theorem length_oneDrive : (fileText oneDriveFile false).length < 20000 := by decide +kernel

theorem startup_sends_one_drive :
    ∃ s : Startup ℝ, initializeAll ⟨0, 0, 0, 0⟩ (some (fileText oneDriveFile false)) true
        ⟨[some 'x'], []⟩ = .ok s ∧
      ∃ out, s.system.drives.serialPort.written = [] ++ out ∧ wireLines out = ["1VE1".toList,
        "1SP".toList ++ decimal s.system.armConstruct.canisterCurrentSteps] := by
  obtain ⟨hmotorCount, hsensorCount, -⟩ := counts_oneDrive
  let port : SerialPort := ⟨[some 'x'], []⟩
  have hport : useSimulations (entriesMap oneDrive) = true ∨
      true = true ∧ ∃ byte, some byte ∈ port.polls := Or.inr ⟨rfl, 'x', by simp [port]⟩
  obtain ⟨s, h, -, -, hsends⟩ := startup_sends fileLines_oneDrive
    nul_notMem_oneDrive length_oneDrive ⟨hmotorCount.ge, by rw [hmotorCount]; decide⟩
    ⟨hsensorCount.ge, by rw [hsensorCount]; decide⟩
    entriesLand_oneDrive sourcesNamed_oneDrive motorEntries_oneDrive blocks_oneDrive
    (⟨0, 0, 0, 0⟩ : Unset ℝ) hport
  obtain ⟨out, hout, hlines⟩ := hsends useSimulations_oneDrive
  exact ⟨s, h, out, hout, hlines.trans (blockLines_oneDrive _)⟩

end Arm2D

import Arm2D.TargetStorage

/-! # Which driver an entry reaches

The loop of `init_motor_descriptions` over the parameters: the entries of one driver have
its number in their brackets, and their names may be beginnings of one another. -/
namespace Arm2D
open Library

/-- The key of a parameter of motor number `i`. -/
def motorKey (name : Str) (i : ℕ) : Str := indexedKey "(m)".toList name i

/-- All entries for motors name one of so many. -/
def MotorEntries (motorCount : ℕ) (serverParameters : ParameterMap) : Prop :=
  ∀ key ∈ serverParameters, key.take 3 = "(m)".toList → ∃ name i, key = motorKey name i ∧
    '[' ∉ name ∧ '\x00' ∉ name ∧ 1 ≤ i ∧ i ≤ motorCount

theorem take_motorKey (name : Str) (i : ℕ) : (motorKey name i).take 3 = "(m)".toList :=
  take_indexedKey rfl name i

theorem motorKey_inj {name name' : Str} (hname : '[' ∉ name) {i i' : ℕ} :
    motorKey name' i' = motorKey name i ↔ name' = name ∧ i' = i :=
  indexedKey_inj (by decide) hname

section routing
variable {R : Type} [Field R] [PiConstant R] {g : ArmParameters R} {c : ArmConfiguration g}
variable {count : ℕ} {m m' : MotorTable R}

/-- Each driver holds, with their variables filled in, the values of its own among the
entries that have come, and nothing else. -/
structure Routed (c : ArmConfiguration g) (count : ℕ) (visited : List (Str × Str))
    (m : MotorTable R) : Prop where
  allocated : m.Allocated count
  parameters : ∀ i, ∀ md ∈ m.drives.motorDriverArray i, ∀ name value,
    md.parameters name = some value ↔
      ∃ line, (motorKey name (i + 1), line) ∈ visited ∧ value = checkVars c line

theorem routed_allocate (c : ArmConfiguration g) (count : ℕ) (port : SerialPort)
    (simulations : Bool) :
    Routed c count [] ⟨0, Drives.allocate count port simulations⟩ where
  allocated := allocated_allocate count port simulations
  parameters := by
    intro i md hmd name value
    rw [Drives.eq_construct_of_mem_allocate hmd]
    simp [MotorDriver.construct]

theorem motorEntry_of_ne {key : Str} (h : key.take 3 ≠ "(m)".toList) (m : MotorTable R)
    (line : Str) : ∃ m', motorEntry c m (key, line) = some m' ∧ m'.drives = m.drives := by
  rw [motorEntry]
  split_ifs
  · exact ⟨_, rfl, rfl⟩
  · exact ⟨_, rfl, rfl⟩

theorem motorEntry_of_motor {key : Str} (h : key.take 3 = "(m)".toList) {md : MotorDriver R}
    (hmd : md ∈ m.drives.motorDriverArray (indexOf key)) (line : Str) :
    motorEntry c m (key, line) =
      some ⟨m.actualDriveCount, m.drives.put (indexOf key)
        (md.addParameter (entryName key) (checkVars c line), m.drives.serialPort)⟩ := by
  have hcount : key ≠ "drive_count".toList := by
    intro heq
    rw [heq] at h
    exact absurd h (by decide)
  rw [motorEntry]
  dsimp only
  rw [if_neg hcount, if_neg (not_not.mpr h), if_neg (find_bracket_ne_zero h),
    Option.mem_def.mp hmd]
  rfl

theorem motorEntry_motorKey {name : Str} (hname : '[' ∉ name ∧ '\x00' ∉ name) {i : ℕ} (h1 : 1 ≤ i)
    (h256 : i ≤ 256) {md : MotorDriver R} (hmd : md ∈ m.drives.motorDriverArray (i - 1))
    (line : Str) :
    motorEntry c m (motorKey name i, line) =
      some ⟨m.actualDriveCount, m.drives.put (i - 1)
        (md.addParameter name (checkVars c line), m.drives.serialPort)⟩ := by
  have hindex : indexOf (motorKey name i) = i - 1 :=
    indexOf_indexedKey (by decide) hname h1 h256
  have hentry : entryName (motorKey name i) = name := entryName_indexedKey rfl hname.1 i
  rw [← hindex] at hmd
  rw [motorEntry_of_motor (take_motorKey name i) hmd, hindex, hentry]

omit [Field R] [PiConstant R] in
theorem exists_mem_concat {visited : List (Str × Str)} {key line k : Str} {P : Str → Prop} :
    (∃ l, (k, l) ∈ visited ++ [(key, line)] ∧ P l) ↔
      (∃ l, (k, l) ∈ visited ∧ P l) ∨ k = key ∧ P line := by
  constructor
  · rintro ⟨l, hl, hP⟩
    rcases List.mem_append.mp hl with hl | hl
    · exact Or.inl ⟨l, hl, hP⟩
    · obtain ⟨rfl, rfl⟩ := Prod.mk.inj (List.mem_singleton.mp hl)
      exact Or.inr ⟨rfl, hP⟩
  · rintro (⟨l, hl, hP⟩ | ⟨rfl, hP⟩)
    · exact ⟨l, List.mem_append_left _ hl, hP⟩
    · exact ⟨line, by simp, hP⟩

theorem Routed.step_of_ne {visited : List (Str × Str)} (hm : Routed c count visited m)
    {key : Str} (hfamily : key.take 3 ≠ "(m)".toList) (line : Str) :
    ∃ m', motorEntry c m (key, line) = some m' ∧
      Routed c count (visited ++ [(key, line)]) m' := by
  obtain ⟨m', hstep, hdrives⟩ := motorEntry_of_ne (c := c) hfamily m line
  refine ⟨m', hstep, motorEntry_allocated c hm.allocated _ hstep, ?_⟩
  intro j md hmd name value
  rw [hdrives] at hmd
  rw [hm.parameters j md hmd, exists_mem_concat, or_iff_left]
  rintro ⟨hname, -⟩
  exact hfamily (hname ▸ take_motorKey name (j + 1))

theorem Routed.step_motorKey {visited : List (Str × Str)} (hm : Routed c count visited m)
    (hcount : count ≤ maxCount) {name : Str} (hname : '[' ∉ name ∧ '\x00' ∉ name) {i : ℕ}
    (h1 : 1 ≤ i) (hi : i ≤ count) (hfresh : ∀ e ∈ visited, e.1 ≠ motorKey name i) (line : Str) :
    ∃ m', motorEntry c m (motorKey name i, line) = some m' ∧
      Routed c count (visited ++ [(motorKey name i, line)]) m' := by
  have h256 : i ≤ 256 := hi.trans (hcount.trans (by decide))
  obtain ⟨md, hmd⟩ := Option.isSome_iff_exists.mp ((hm.allocated (i - 1)).mpr (by omega))
  have hstep := motorEntry_motorKey (c := c) hname h1 h256 hmd line
  refine ⟨_, hstep, motorEntry_allocated c hm.allocated _ hstep, ?_⟩
  intro j md' hmd' name' value
  rw [exists_mem_concat, motorKey_inj hname.1]
  by_cases hj : j = i - 1
  · subst hj
    have hself : md' = md.addParameter name (checkVars c line) := by simpa using hmd'.symm
    have hold := hm.parameters (i - 1) md hmd name' value
    have hnumber : i - 1 + 1 = i := by omega
    rw [hnumber] at hold ⊢
    rw [hself, MotorDriver.addParameter]
    dsimp only
    by_cases hsame : name' = name
    · have hnone : ¬ ∃ l, (motorKey name i, l) ∈ visited ∧ value = checkVars c l := by
        rintro ⟨l, hl, -⟩
        exact hfresh _ hl rfl
      rw [hsame, Function.update_self, or_iff_right hnone, Option.some_inj]
      simp [eq_comm]
    · rw [Function.update_of_ne hsame, hold, or_iff_left fun h => hsame h.1.1]
  · rw [Drives.put_other _ hj] at hmd'
    rw [hm.parameters j md' hmd', or_iff_left fun h => hj (by omega)]

theorem Routed.step {visited : List (Str × Str)} (hm : Routed c count visited m)
    (hcount : count ≤ maxCount) {e : Str × Str} (hfresh : ∀ e' ∈ visited, e'.1 ≠ e.1)
    (hkey : e.1.take 3 = "(m)".toList → ∃ name i, e.1 = motorKey name i ∧
      '[' ∉ name ∧ '\x00' ∉ name ∧ 1 ≤ i ∧ i ≤ count) :
    ∃ m', motorEntry c m e = some m' ∧ Routed c count (visited ++ [e]) m' := by
  obtain ⟨key, line⟩ := e
  by_cases hfamily : key.take 3 = "(m)".toList
  · obtain ⟨name, i, rfl, hbracket, hnul, h1, hi⟩ := hkey hfamily
    exact hm.step_motorKey hcount ⟨hbracket, hnul⟩ h1 hi hfresh line
  · exact hm.step_of_ne hfamily line

/-- When the loop over the parameters ends, each driver holds exactly the parameters of its
own number. -/
theorem motorEntries_routed (c : ArmConfiguration g) {params : ParameterMap}
    (hmax : motorCount params ≤ maxCount) (hentries : MotorEntries (motorCount params) params)
    (port : SerialPort) (simulations : Bool) :
    ∃ m, params.toList.foldlM (motorEntry c)
        ⟨0, Drives.allocate (motorCount params) port simulations⟩ = some m ∧
      (∀ i < motorCount params, ∃ md, m.drives.motorDriverArray i = some md ∧
        ∀ name, md.parameters name = (params[motorKey name (i + 1)]?).map (checkVars c)) ∧
      ∀ i, motorCount params ≤ i → m.drives.motorDriverArray i = none := by
  have hstep : ∀ visited e m, visited ++ [e] <+: params.toList →
      Routed c (motorCount params) visited m →
      ∃ m', motorEntry c m e = some m' ∧ Routed c (motorCount params) (visited ++ [e]) m' := by
    intro visited e m hfront hm
    have hdistinct := (Std.TreeMap.distinct_keys_toList (t := params)).sublist hfront.sublist
    have hmem : e ∈ params.toList := hfront.subset (by simp)
    refine hm.step hmax (fun e' he' heq => ?_) (hentries e.1 (key_mem_of_mem_toList hmem))
    exact (List.pairwise_append.mp hdistinct).2.2 e' he' e (by simp) (by simp [heq])
  obtain ⟨m, hrun, hrouted⟩ := foldlM_prefixes hstep
    (routed_allocate c (motorCount params) port simulations)
  refine ⟨m, hrun, ?_, ?_⟩
  · intro i hi
    obtain ⟨md, hmd⟩ := Option.isSome_iff_exists.mp ((hrouted.allocated i).mpr hi)
    refine ⟨md, hmd, fun name => Option.ext fun value => ?_⟩
    rw [hrouted.parameters i md hmd]
    simp [Std.TreeMap.mem_toList_iff_getElem?_eq_some, eq_comm]
  · intro i hi
    have hnot := (hrouted.allocated i).not.mpr (Nat.not_lt.mpr hi)
    simpa using hnot

theorem motorEntries_routed_two :
    let params := parametersWith [(motorKey "run".toList 1, "2MA".toList),
      (motorKey "run".toList 2, "MA{ELBOW_STEPS}".toList), (motorKey "running".toList 2, [])]
    let c := ArmConfiguration.construct (⟨0, 2, 1, 20000, 20000⟩ : ArmParameters ℝ) 0 0 0 0
    ∃ m, params.toList.foldlM (motorEntry c)
        ⟨0, Drives.allocate (motorCount params) ⟨[], []⟩ true⟩ = some m ∧
      (∀ i < motorCount params, ∃ md, m.drives.motorDriverArray i = some md ∧
        ∀ name, md.parameters name = (params[motorKey name (i + 1)]?).map (checkVars c)) ∧
      ∀ i, motorCount params ≤ i → m.drives.motorDriverArray i = none := by
  intro params c
  have hcount : motorCount params = 2 := by decide +kernel
  let written := fun key : Str => key.take 3 = "(m)".toList →
    key = motorKey "run".toList 1 ∨ key = motorKey "run".toList 2 ∨
      key = motorKey "running".toList 2
  have hwritten : ∀ e ∈ params.toList, written e.1 := by decide +kernel
  refine motorEntries_routed c (by rw [hcount]; decide) ?_ ⟨[], []⟩ true
  intro key hkey hfamily
  rw [hcount]
  rcases (forall_mem_toList_iff params written).mp hwritten key hkey hfamily with rfl | rfl | rfl
  · exact ⟨"run".toList, 1, rfl, by simp, by simp, by decide, by decide⟩
  · exact ⟨"run".toList, 2, rfl, by simp, by simp, by decide, by decide⟩
  · exact ⟨"running".toList, 2, rfl, by simp, by simp, by decide, by decide⟩

theorem motorEntries_behind_nul :
    let name := ['a', '\x00']
    let params := parametersWith [(motorKey name 2, "ST".toList)]
    let c := ArmConfiguration.construct (⟨0, 2, 1, 20000, 20000⟩ : ArmParameters ℝ) 0 0 0 0
    motorCount params = 2 ∧ (∀ key ∈ params, key.take 3 = "(m)".toList → key = motorKey name 2) ∧
      '[' ∉ name ∧
      ¬ ∃ m, params.toList.foldlM (motorEntry c)
          ⟨0, Drives.allocate (motorCount params) ⟨[], []⟩ true⟩ = some m ∧
        ∀ i < motorCount params, ∃ md, m.drives.motorDriverArray i = some md ∧
          ∀ name, md.parameters name = (params[motorKey name (i + 1)]?).map (checkVars c) := by
  intro name params c
  have hcount : motorCount params = 2 := by decide +kernel
  let written := fun key : Str => key.take 3 = "(m)".toList → key = motorKey name 2
  have hwritten : ∀ e ∈ params.toList, written e.1 := by decide +kernel
  have hlist : params.toList = [(motorKey name 2, "ST".toList),
      ("MOTOR_COUNT".toList, "2".toList), ("SENSOR_COUNT".toList, "1".toList)] := by
    decide +kernel
  have hindex : indexOf (motorKey name 2) = 0 := by decide +kernel
  refine ⟨hcount, (forall_mem_toList_iff params written).mp hwritten, by decide, ?_⟩
  rintro ⟨m, hrun, hheld⟩
  rw [hcount] at hrun hheld
  have hdriver : MotorDriver.construct 1 ∈
      (Drives.allocate 2 ⟨[], []⟩ true : Drives ℝ).motorDriverArray
        (indexOf (motorKey name 2)) := by
    rw [hindex]
    rfl
  have hfirst := motorEntry_of_motor (c := c) (m := ⟨0, Drives.allocate 2 ⟨[], []⟩ true⟩)
    (take_motorKey name 2) hdriver "ST".toList
  rw [hindex] at hfirst
  rw [hlist, List.foldlM_cons, hfirst] at hrun
  have hother : m.drives.motorDriverArray 1 =
      (Drives.allocate 2 ⟨[], []⟩ true).motorDriverArray 1 := by
    cases hrun
    exact Drives.put_other _ (by decide) _
  obtain ⟨md, hmd, hparameters⟩ := hheld 1 (by decide)
  have hvalue : params[motorKey name (1 + 1)]? = some "ST".toList := by decide +kernel
  have hnew := hparameters name
  rw [hother] at hmd
  rw [Drives.eq_construct_of_mem_allocate hmd, hvalue] at hnew
  cases hnew

end routing
end Arm2D

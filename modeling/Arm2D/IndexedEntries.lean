import Arm2D.Descriptions
import Arm2D.Library.Runs

/-! # Which slot an indexed entry lands on

The motors and sensors are allocated before the parameters are read, so an entry needs an
index below their number. Targets are allocated by the entries themselves: a target's
parameter needs an earlier definition with an index that is high enough, and the entries
come in the lexicographic order of their keys. -/
namespace Arm2D
open Library

theorem find_bracket_ne_zero {key family : Str} (h : key.take 3 = '(' :: family) :
    find ['['] key 0 ≠ some 0 := by
  cases key with
  | nil => simp at h
  | cons a key =>
    have ha : a = '(' := (List.cons.inj h).1
    rw [ha, find, if_pos (Nat.zero_le _), List.drop_zero, findFirst,
      if_neg (not_isPrefixOf_cons (by decide) _ _)]
    cases findFirst ['['] key <;> simp

section motors
variable {R : Type}

def MotorTable.Allocated (motorCount : ℕ) (m : MotorTable R) : Prop :=
  ∀ i, (m.drives.motorDriverArray i).isSome ↔ i < motorCount

theorem Drives.put_isSome_iff {d : Drives R} {motorCount i : ℕ}
    (h : ∀ j, (d.motorDriverArray j).isSome ↔ j < motorCount) (hi : i < motorCount)
    (r : MotorDriver R × SerialPort) (j : ℕ) :
    ((d.put i r).motorDriverArray j).isSome ↔ j < motorCount := by
  by_cases hj : j = i
  · rw [hj, put_same]
    simpa using hi
  · rw [put_other _ hj]
    exact h j

variable [Field R] [PiConstant R] {g : ArmParameters R}

theorem motorEntry_isSome_iff (c : ArmConfiguration g) {m : MotorTable R} {motorCount : ℕ}
    (hm : m.Allocated motorCount) (entry : Str × Str) :
    (motorEntry c m entry).isSome ↔
      (entry.1.take 3 = "(m)".toList → indexOf entry.1 < motorCount) := by
  obtain ⟨key, line⟩ := entry
  rw [motorEntry]
  split_ifs with hcount hfamily hbracket
  · have hne : key.take 3 ≠ "(m)".toList := by
      rw [hcount]
      decide
    exact iff_of_true rfl fun h => absurd h hne
  · exact iff_of_true rfl fun h => absurd h hfamily
  · exact absurd hbracket (find_bracket_ne_zero (not_not.mp hfamily))
  · have hslot := hm (indexOf key)
    dsimp only
    rw [forall_prop_of_true (not_not.mp hfamily), ← hslot]
    cases m.drives.motorDriverArray (indexOf key) <;> rfl

theorem motorEntry_allocated (c : ArmConfiguration g) {m m' : MotorTable R} {motorCount : ℕ}
    (hm : m.Allocated motorCount) (entry : Str × Str) (h : motorEntry c m entry = some m') :
    m'.Allocated motorCount := by
  obtain ⟨key, line⟩ := entry
  rw [motorEntry] at h
  split_ifs at h
  · cases h
    exact hm
  · cases h
    exact hm
  · cases h
    exact hm
  · obtain ⟨md, hmd, h⟩ := Option.bind_eq_some_iff.mp h
    cases h
    have hi : indexOf key < motorCount := (hm _).mp (by rw [hmd]; rfl)
    exact Drives.put_isSome_iff hm hi _

theorem motorEntry_actualDriveCount (c : ArmConfiguration g) {m m' : MotorTable R}
    {entry : Str × Str} (h : motorEntry c m entry = some m') :
    m'.actualDriveCount = if entry.1 = "drive_count".toList then unsignedInt (atoi entry.2)
      else m.actualDriveCount := by
  obtain ⟨key, value⟩ := entry
  rw [motorEntry] at h
  split_ifs at h with hcount hfamily hbracket
  · cases h
    rw [if_pos hcount]
  · cases h
    rw [if_neg hcount]
  · cases h
    rw [if_neg hcount]
  · obtain ⟨md, -, h⟩ := Option.bind_eq_some_iff.mp h
    cases h
    rw [if_neg hcount]

theorem foldlM_actualDriveCount (c : ArmConfiguration g) {entries : List (Str × Str)}
    {m m' : MotorTable R} (h : entries.foldlM (motorEntry c) m = some m') {line : Str}
    (hline : ∀ e ∈ entries, e.1 = "drive_count".toList → e.2 = line) :
    m'.actualDriveCount =
      if ∃ e ∈ entries, e.1 = "drive_count".toList then unsignedInt (atoi line)
      else m.actualDriveCount := by
  induction entries generalizing m with
  | nil =>
    cases h
    exact (if_neg (by simp)).symm
  | cons e entries ih =>
    rw [List.foldlM_cons] at h
    obtain ⟨t, ht, h⟩ := Option.bind_eq_some_iff.mp h
    rw [ih h fun e' he' => hline e' (List.mem_cons_of_mem e he')]
    by_cases hrest : ∃ e' ∈ entries, e'.1 = "drive_count".toList
    · obtain ⟨e', he', hcount⟩ := hrest
      rw [if_pos ⟨e', he', hcount⟩, if_pos ⟨e', List.mem_cons_of_mem e he', hcount⟩]
    · rw [if_neg hrest, motorEntry_actualDriveCount c ht]
      by_cases hcount : e.1 = "drive_count".toList
      · rw [if_pos hcount, if_pos ⟨e, List.mem_cons_self, hcount⟩,
          hline e List.mem_cons_self hcount]
      · rw [if_neg hcount, if_neg]
        rintro ⟨e', he', hcount'⟩
        rcases List.mem_cons.mp he' with rfl | he'
        · exact hcount hcount'
        · exact hrest ⟨e', he', hcount'⟩

omit [PiConstant R] in
theorem processLoop_isSome_iff [LinearOrder R] {motorCount : ℕ} (n i : ℕ) {d : Drives R}
    (h : ∀ j, (d.motorDriverArray j).isSome ↔ j < motorCount) :
    (processLoop n i d).isSome ↔ n = 0 ∨ i + n ≤ motorCount := by
  induction n generalizing i d with
  | zero => simp [processLoop]
  | succ n ih =>
    rw [processLoop]
    cases hmd : d.motorDriverArray i with
    | none =>
      have hi := h i
      rw [hmd] at hi
      have hle : ¬ i < motorCount := by simpa using hi
      simp
      omega
    | some md =>
      have hi : i < motorCount := (h i).mp (by rw [hmd]; rfl)
      have hput := Drives.put_isSome_iff h hi
        (md.processParameters d.useSimulations d.serialPort)
      refine (ih (i + 1) hput).trans ?_
      omega

end motors

namespace SensorTable

theorem setCurrentIndex_currentIndex (s : SensorTable) {key family : Str}
    (h : key.take 3 = '(' :: family) : (s.setCurrentIndex key).currentIndex = indexOf key := by
  rw [setCurrentIndex, if_neg (find_bracket_ne_zero h)]

theorem setCurrentIndex_kept (s : SensorTable) (key : Str) :
    (s.setCurrentIndex key).sensorControllerArray = s.sensorControllerArray ∧
      (s.setCurrentIndex key).sensorMap = s.sensorMap ∧
      (s.setCurrentIndex key).targets = s.targets ∧
      (s.setCurrentIndex key).targetStorage = s.targetStorage := by
  rw [setCurrentIndex]
  split_ifs <;> exact ⟨rfl, rfl, rfl, rfl⟩

def Allocated (sensorCount : ℕ) (s : SensorTable) : Prop :=
  ∀ i, (s.sensorControllerArray i).isSome ↔ i < sensorCount

theorem sensorEntry_isSome_iff {s : SensorTable} {sensorCount : ℕ} (hs : s.Allocated sensorCount)
    (entry : Str × Str) :
    (s.sensorEntry entry).isSome ↔
      (entry.1.take 3 = "(s)".toList → indexOf entry.1 < sensorCount) := by
  obtain ⟨key, line⟩ := entry
  rw [sensorEntry]
  split_ifs with hfamily
  · exact iff_of_true rfl fun h => absurd h hfamily
  · have hkey := not_not.mp hfamily
    dsimp only
    rw [forall_prop_of_true hkey, ← hs (indexOf key), s.setCurrentIndex_currentIndex hkey,
      (s.setCurrentIndex_kept key).1]
    cases s.sensorControllerArray (indexOf key) <;> rfl

theorem sensorEntry_kept {s s' : SensorTable} {sensorCount : ℕ} (hs : s.Allocated sensorCount)
    (entry : Str × Str) (h : s.sensorEntry entry = some s') :
    s'.Allocated sensorCount ∧ s'.targets = s.targets ∧ s'.targetStorage = s.targetStorage := by
  obtain ⟨key, line⟩ := entry
  rw [sensorEntry] at h
  split_ifs at h with hfamily
  · cases h
    exact ⟨hs, rfl, rfl⟩
  · have hkey := not_not.mp hfamily
    have hindex := s.setCurrentIndex_currentIndex hkey
    obtain ⟨harray, -, htargets, hstorage⟩ := s.setCurrentIndex_kept key
    obtain ⟨parameters, hparameters, h⟩ := Option.bind_eq_some_iff.mp h
    cases h
    refine ⟨fun i => ?_, htargets, hstorage⟩
    dsimp only
    rw [harray, hindex] at hparameters ⊢
    by_cases hi : i = indexOf key
    · have hlt := (hs (indexOf key)).mp (by rw [hparameters]; rfl)
      rw [hi, Function.update_self]
      simpa using hlt
    · rw [Function.update_of_ne hi]
      exact hs i

/-- An entry of a target that does not define it. -/
def AddsToTarget (key : Str) : Prop := key.take 3 = "(t)".toList ∧ isDefinition key = false

/-- The pointers in the storage point to objects. -/
def Placed (s : SensorTable) : Prop := ∀ p ∈ s.targetStorage, p < s.targets.length

def sizeAfter (size : ℕ) (key : Str) : ℕ :=
  if isDefinition key then max size (indexOf key + 1) else size

theorem isDefinition_iff (key : Str) : isDefinition key = true ↔ "(t)defin".toList <+: key := by
  rw [isDefinition, decide_eq_true_eq]
  constructor
  · intro h
    rw [← h]
    exact (List.take_prefix 8 (cStr key)).trans (List.takeWhile_prefix _)
  · rintro ⟨rest, rfl⟩
    simp [cStr]

theorem take_of_isDefinition {key : Str} (h : isDefinition key = true) :
    key.take 3 = "(t)".toList := by
  obtain ⟨rest, rfl⟩ := (isDefinition_iff key).mp h
  rfl

theorem define_placed {s : SensorTable} (hs : s.Placed) (line : Str) : (s.define line).Placed := by
  intro p hp
  rw [define] at hp ⊢
  simp only [List.length_append, List.length_singleton] at hp ⊢
  split_ifs at hp
  · rcases List.mem_append.mp hp with hp | hp
    · exact (hs p hp).trans (Nat.lt_succ_self _)
    · rw [List.eq_of_mem_replicate hp]
      exact Nat.lt_succ_self _
  · rcases List.mem_or_eq_of_mem_set hp with hp | rfl
    · exact (hs p hp).trans (Nat.lt_succ_self _)
    · exact Nat.lt_succ_self _

theorem define_length (s : SensorTable) (line : Str) :
    (s.define line).targetStorage.length = max s.targetStorage.length (s.currentIndex + 1) := by
  rw [define]
  dsimp only
  split_ifs
  · rw [List.length_append, List.length_replicate]
    omega
  · rw [List.length_set]
    omega

variable {R : Type} [Field R] [PiConstant R] {g : ArmParameters R}

theorem addTargetParameter_isSome_iff (c : ArmConfiguration g) {s : SensorTable} (hs : s.Placed)
    (key line : Str) :
    (s.addTargetParameter c key line).isSome ↔ s.currentIndex - 1 < s.targetStorage.length := by
  have hindex : (if s.currentIndex > 0 then s.currentIndex - 1 else s.currentIndex) =
      s.currentIndex - 1 := by
    split_ifs <;> omega
  rw [addTargetParameter]
  dsimp only
  rw [hindex]
  by_cases hlt : s.currentIndex - 1 < s.targetStorage.length
  · have hp := hs _ (List.getElem_mem hlt)
    simp [hlt, hp]
  · simp [hlt]

theorem addTargetParameter_placed (c : ArmConfiguration g) {s s' : SensorTable} (hs : s.Placed)
    {key line : Str} (h : s.addTargetParameter c key line = some s') :
    s'.Placed ∧ s'.targetStorage = s.targetStorage := by
  obtain ⟨pointer, -, h⟩ := Option.bind_eq_some_iff.mp h
  obtain ⟨target, -, h⟩ := Option.bind_eq_some_iff.mp h
  cases h
  refine ⟨fun p hp => ?_, rfl⟩
  dsimp only
  rw [List.length_set]
  exact hs p hp

theorem targetEntry_isSome_iff (c : ArmConfiguration g) {s : SensorTable} (hs : s.Placed)
    (entry : Str × Str) :
    (s.targetEntry c entry).isSome ↔
      (AddsToTarget entry.1 → indexOf entry.1 - 1 < s.targetStorage.length) := by
  obtain ⟨key, line⟩ := entry
  rw [targetEntry]
  split_ifs with hfamily hdefinition
  · exact iff_of_true rfl fun h => absurd h.1 hfamily
  · exact iff_of_true rfl fun h => absurd hdefinition (by simp [h.2])
  · have hkey := not_not.mp hfamily
    obtain ⟨-, -, htargets, hstorage⟩ := s.setCurrentIndex_kept key
    have hs' : (s.setCurrentIndex key).Placed := by
      rw [Placed, htargets, hstorage]
      exact hs
    have hadds : AddsToTarget key := ⟨hkey, by simpa using hdefinition⟩
    rw [addTargetParameter_isSome_iff c hs', s.setCurrentIndex_currentIndex hkey, hstorage,
      forall_prop_of_true hadds]

theorem targetEntry_placed (c : ArmConfiguration g) {s s' : SensorTable} (hs : s.Placed)
    (entry : Str × Str) (h : s.targetEntry c entry = some s') :
    s'.Placed ∧ s'.targetStorage.length = sizeAfter s.targetStorage.length entry.1 := by
  obtain ⟨key, line⟩ := entry
  obtain ⟨-, -, htargets, hstorage⟩ := s.setCurrentIndex_kept key
  have hs' : (s.setCurrentIndex key).Placed := by
    rw [Placed, htargets, hstorage]
    exact hs
  rw [targetEntry] at h
  rw [sizeAfter]
  split_ifs at h with hfamily hdefinition
  · cases h
    rw [if_neg fun hdefinition => hfamily (take_of_isDefinition hdefinition)]
    exact ⟨hs, rfl⟩
  · cases h
    rw [if_pos hdefinition, define_length, hstorage,
      s.setCurrentIndex_currentIndex (not_not.mp hfamily)]
    exact ⟨define_placed hs' line, rfl⟩
  · obtain ⟨hplaced, hlength⟩ := addTargetParameter_placed c hs' h
    rw [if_neg hdefinition, hlength, hstorage]
    exact ⟨hplaced, rfl⟩

/-- Whenever a parameter of a target comes, the storage reaches its slot. -/
def Ready : ℕ → List Str → Prop
  | _, [] => True
  | size, key :: keys =>
    (AddsToTarget key → indexOf key - 1 < size) ∧ Ready (sizeAfter size key) keys

theorem foldlM_targetEntry_isSome_iff (c : ArmConfiguration g) {s : SensorTable} (hs : s.Placed)
    (entries : List (Str × Str)) :
    (entries.foldlM (targetEntry c) s).isSome ↔
      Ready s.targetStorage.length (entries.map Prod.fst) := by
  induction entries generalizing s with
  | nil => simp [Ready]
  | cons entry entries ih =>
    rw [List.foldlM_cons, List.map_cons, Ready, ← targetEntry_isSome_iff c hs entry]
    cases h : s.targetEntry c entry with
    | none => simp
    | some s' =>
      obtain ⟨hplaced, hlength⟩ := targetEntry_placed c hs entry h
      rw [← hlength]
      simpa using ih hplaced

omit [Field R] [PiConstant R] in
theorem ready_iff (size : ℕ) {keys : List Str}
    (hsorted : keys.Pairwise fun a b => compare a b = .lt) :
    Ready size keys ↔ ∀ key ∈ keys, AddsToTarget key → indexOf key - 1 < size ∨
      ∃ d ∈ keys, isDefinition d = true ∧ compare d key = .lt ∧ indexOf key - 1 ≤ indexOf d := by
  induction keys generalizing size with
  | nil => simp [Ready]
  | cons key keys ih =>
    rw [List.pairwise_cons] at hsorted
    obtain ⟨hbefore, hsorted⟩ := hsorted
    rw [Ready, ih _ hsorted]
    constructor
    · rintro ⟨hkey, hkeys⟩ k hk hadds
      rcases List.mem_cons.mp hk with rfl | hk
      · exact Or.inl (hkey hadds)
      · rcases hkeys k hk hadds with hlt | ⟨d, hd, hdefinition⟩
        · rw [sizeAfter] at hlt
          split_ifs at hlt with hdefinition
          · rcases lt_max_iff.mp hlt with hlt | hlt
            · exact Or.inl hlt
            · exact Or.inr ⟨key, List.mem_cons_self, hdefinition, hbefore k hk,
                Nat.le_of_lt_succ hlt⟩
          · exact Or.inl hlt
        · exact Or.inr ⟨d, List.mem_cons_of_mem key hd, hdefinition⟩
    · intro h
      constructor
      · intro hadds
        rcases h key List.mem_cons_self hadds with hlt | ⟨d, hd, -, hlt, -⟩
        · exact hlt
        · -- nothing comes before the first key
          rcases List.mem_cons.mp hd with rfl | hd
          · exact absurd hlt (Std.OrientedCmp.not_lt_of_lt hlt)
          · exact absurd hlt (Std.OrientedCmp.not_lt_of_lt (hbefore d hd))
      · intro k hk hadds
        rcases h k (List.mem_cons_of_mem key hk) hadds with hlt | ⟨d, hd, hdefinition, hlt, hle⟩
        · left
          rw [sizeAfter]
          split_ifs
          · exact lt_max_of_lt_left hlt
          · exact hlt
        · rcases List.mem_cons.mp hd with rfl | hd
          · left
            rw [sizeAfter, if_pos hdefinition]
            exact lt_max_of_lt_right (Nat.lt_succ_of_le hle)
          · exact Or.inr ⟨d, hd, hdefinition, hlt, hle⟩

end SensorTable

/-- Every entry has its slot: the index of a motor's or a sensor's entry and the number of
drives are not above the number of allocated objects, and a parameter of a target comes
after a definition whose index is at most one lower. -/
structure EntriesLand (serverParameters : ParameterMap) : Prop where
  motors : ∀ key ∈ serverParameters, key.take 3 = "(m)".toList →
    indexOf key < motorCount serverParameters
  drives : unsignedInt (atoi (serverParameter serverParameters "drive_count".toList)) ≤
    motorCount serverParameters
  sensors : ∀ key ∈ serverParameters, key.take 3 = "(s)".toList →
    indexOf key < sensorCount serverParameters
  targets : ∀ key ∈ serverParameters, SensorTable.AddsToTarget key →
    ∃ d ∈ serverParameters, SensorTable.isDefinition d = true ∧ compare d key = .lt ∧
      indexOf key - 1 ≤ indexOf d

theorem forall_mem_toList_iff (serverParameters : ParameterMap) (P : Str → Prop) :
    (∀ e ∈ serverParameters.toList, P e.1) ↔ ∀ key ∈ serverParameters, P key := by
  simp only [← Std.TreeMap.mem_keys, ← Std.TreeMap.map_fst_toList_eq_keys, List.mem_map]
  constructor
  · rintro h key ⟨e, he, rfl⟩
    exact h e he
  · exact fun h e he => h e.1 ⟨e, he, rfl⟩

theorem key_mem_of_mem_toList {params : ParameterMap} {e : Str × Str} (h : e ∈ params.toList) :
    e.1 ∈ params := by
  rw [← Std.TreeMap.mem_keys, ← Std.TreeMap.map_fst_toList_eq_keys]
  exact List.mem_map_of_mem h

theorem serverParameter_of_mem {params : ParameterMap} {e : Str × Str} (h : e ∈ params.toList) :
    serverParameter params e.1 = e.2 := by
  rw [serverParameter, Std.TreeMap.mem_toList_iff_getElem?_eq_some.mp h, Option.getD_some]

theorem not_isEmpty_of_serverParameter {params : ParameterMap} {key : Str}
    (h : 1 ≤ unsignedInt (atoi (serverParameter params key))) : ¬ params.isEmpty = true := by
  intro hempty
  rw [serverParameter, Std.TreeMap.getElem?_of_isEmpty hempty] at h
  exact absurd h (by decide)

section init
variable {R : Type} [Field R] [LinearOrder R] [PiConstant R] {g : ArmParameters R}

omit [LinearOrder R] [PiConstant R] in
theorem allocated_allocate (n : ℕ) (port : SerialPort) (simulations : Bool) :
    MotorTable.Allocated n (⟨0, Drives.allocate n port simulations⟩ : MotorTable R) := by
  intro i
  by_cases hi : i < n <;> simp [Drives.allocate, hi]

omit [LinearOrder R] in
theorem actualDriveCount_eq (c : ArmConfiguration g) {params : ParameterMap} {m m' : MotorTable R}
    (hzero : m.actualDriveCount = 0) (h : params.toList.foldlM (motorEntry c) m = some m') :
    m'.actualDriveCount =
      unsignedInt (atoi (serverParameter params "drive_count".toList)) := by
  have hline : ∀ e ∈ params.toList, e.1 = "drive_count".toList →
      e.2 = serverParameter params "drive_count".toList := by
    intro e he hkey
    rw [← hkey, serverParameter_of_mem he]
  rw [foldlM_actualDriveCount c h hline]
  split_ifs with hmem
  · rfl
  · have hnot : "drive_count".toList ∉ params := by
      rw [← Std.TreeMap.mem_keys, ← Std.TreeMap.map_fst_toList_eq_keys, List.mem_map]
      rintro ⟨e, he, hkey⟩
      exact hmem ⟨e, he, hkey⟩
    rw [hzero, serverParameter, Std.TreeMap.getElem?_eq_none hnot]
    decide

theorem initMotorDescriptions_isSome_iff (c : ArmConfiguration g) {params : ParameterMap}
    (hpos : 1 ≤ motorCount params) (hmax : motorCount params ≤ maxCount) (port : SerialPort)
    (simulations : Bool) :
    (initMotorDescriptions c params port simulations).isSome ↔
      (∀ key ∈ params, key.take 3 = "(m)".toList → indexOf key < motorCount params) ∧
        unsignedInt (atoi (serverParameter params "drive_count".toList)) ≤
          motorCount params := by
  have halloc := allocated_allocate (R := R) (motorCount params) port simulations
  have hrun := foldlM_isSome_iff (fun m e m' hm h => motorEntry_allocated c hm e h)
    (fun m e hm => motorEntry_isSome_iff c hm e) halloc params.toList
  rw [initMotorDescriptions, if_neg (not_isEmpty_of_serverParameter hpos),
    if_neg (Nat.not_lt.mpr hmax), ← forall_mem_toList_iff params fun key =>
      key.take 3 = "(m)".toList → indexOf key < motorCount params, ← hrun]
  cases hm : params.toList.foldlM (motorEntry c)
      ⟨0, Drives.allocate (motorCount params) port simulations⟩ with
  | none => simp
  | some m =>
    have hallocated := foldlM_invariant
      (fun m e m' hm h => motorEntry_allocated c hm e h) halloc hm
    have hprocess := processLoop_isSome_iff m.actualDriveCount 0 hallocated
    rw [← actualDriveCount_eq c rfl hm]
    simp only [Option.isSome_some, true_and]
    exact hprocess.trans (by omega)

omit [Field R] [LinearOrder R] [PiConstant R] in
theorem SensorTable.foldlM_sensorEntry_kept {params : ParameterMap} {s : SensorTable}
    (hs : params.toList.foldlM SensorTable.sensorEntry
      (SensorTable.allocate (sensorCount params)) = some s) :
    s.Allocated (sensorCount params) ∧ s.targets = [] ∧ s.targetStorage = [] := by
  refine foldlM_invariant (P := fun s : SensorTable =>
    s.Allocated (sensorCount params) ∧ s.targets = [] ∧ s.targetStorage = [])
    (fun s e s' hs h => ?_) ⟨?_, rfl, rfl⟩ hs
  · obtain ⟨hallocated, htargets, hstorage⟩ := SensorTable.sensorEntry_kept hs.1 e h
    exact ⟨hallocated, htargets.trans hs.2.1, hstorage.trans hs.2.2⟩
  · intro i
    by_cases hi : i < sensorCount params <;> simp [SensorTable.allocate, hi]

omit [LinearOrder R] in
theorem describeSensors_isSome_iff (c : ArmConfiguration g) {params : ParameterMap}
    (hpos : 1 ≤ sensorCount params) (hmax : sensorCount params ≤ maxCount) :
    (describeSensors c params).isSome ↔
      (∀ key ∈ params, key.take 3 = "(s)".toList → indexOf key < sensorCount params) ∧
        ∀ key ∈ params, SensorTable.AddsToTarget key →
          ∃ d ∈ params, SensorTable.isDefinition d = true ∧ compare d key = .lt ∧
            indexOf key - 1 ≤ indexOf d := by
  have halloc : (SensorTable.allocate (sensorCount params)).Allocated (sensorCount params) := by
    intro i
    by_cases hi : i < sensorCount params <;> simp [SensorTable.allocate, hi]
  have hrun := foldlM_isSome_iff
    (fun s e s' hs h => (SensorTable.sensorEntry_kept hs e h).1)
    (fun s e hs => SensorTable.sensorEntry_isSome_iff hs e) halloc params.toList
  rw [describeSensors, if_neg (not_isEmpty_of_serverParameter hpos),
    if_neg (Nat.not_lt.mpr hmax), ← forall_mem_toList_iff params fun key =>
      key.take 3 = "(s)".toList → indexOf key < sensorCount params, ← hrun]
  cases hs : params.toList.foldlM SensorTable.sensorEntry
      (SensorTable.allocate (sensorCount params)) with
  | none => simp
  | some s =>
    have hempty := (SensorTable.foldlM_sensorEntry_kept hs).2
    have hplaced : s.Placed := by
      rw [SensorTable.Placed, hempty.2]
      simp
    have hready := SensorTable.foldlM_targetEntry_isSome_iff c hplaced params.toList
    rw [hempty.2, Std.TreeMap.map_fst_toList_eq_keys, List.length_nil,
      SensorTable.ready_iff 0 Std.TreeMap.ordered_keys] at hready
    simp only [Nat.not_lt_zero, false_or, Std.TreeMap.mem_keys] at hready
    simp only [Option.isSome_some, true_and]
    exact hready

/-- The loops of the two functions follow only allocated slots exactly when every entry lands. -/
theorem init_isSome_iff (c : ArmConfiguration g) {params : ParameterMap}
    (hmotors : 1 ≤ motorCount params ∧ motorCount params ≤ maxCount)
    (hsensors : 1 ≤ sensorCount params ∧ sensorCount params ≤ maxCount) (port : SerialPort)
    (simulations : Bool) :
    ((initMotorDescriptions c params port simulations).isSome ∧
        (describeSensors c params).isSome) ↔ EntriesLand params := by
  rw [initMotorDescriptions_isSome_iff c hmotors.1 hmotors.2 port simulations,
    describeSensors_isSome_iff c hsensors.1 hsensors.2]
  constructor
  · rintro ⟨⟨hm, hd⟩, hs, ht⟩
    exact ⟨hm, hd, hs, ht⟩
  · rintro ⟨hm, hd, hs, ht⟩
    exact ⟨⟨hm, hd⟩, hs, ht⟩

end init

def parametersWith (entries : List (Str × Str)) : ParameterMap :=
  entries.foldl (fun params e => params.insert e.1 e.2)
    ((∅ : ParameterMap).insert "MOTOR_COUNT".toList "2".toList |>.insert
      "SENSOR_COUNT".toList "1".toList)

theorem init_isSome_two_targets :
    let params := parametersWith [("drive_count".toList, "2".toList),
      ("(m)stop_motion[2]".toList, "ST".toList), ("(s)camera[1]".toList, "fov_w:640".toList),
      ("(t)definition[2]".toList, "id:B".toList), ("(t)pattern[3]".toList, "x".toList)]
    let c := ArmConfiguration.construct (⟨0, 2, 1, 20000, 20000⟩ : ArmParameters ℝ) 0 0 0 0
    (initMotorDescriptions c params ⟨[], []⟩ true).isSome ∧
      (describeSensors c params).isSome := by
  intro params c
  have hmotors : motorCount params = 2 := by decide +kernel
  have hsensors : sensorCount params = 1 := by decide +kernel
  have hdefinition : "(t)definition[2]".toList ∈ params := by simp [params, parametersWith]
  let reached := fun key : Str => key.take 3 = "(t)".toList ∧
    SensorTable.isDefinition key = false →
      SensorTable.isDefinition "(t)definition[2]".toList = true ∧
        compare "(t)definition[2]".toList key = .lt ∧
          indexOf key - 1 ≤ indexOf "(t)definition[2]".toList
  have hreached : ∀ e ∈ params.toList, reached e.1 := by decide +kernel
  refine (init_isSome_iff c (by rw [hmotors]; decide) (by rw [hsensors]; decide) ⟨[], []⟩
    true).mpr ⟨?_, ?_, ?_, ?_⟩
  · rw [hmotors, ← forall_mem_toList_iff params fun key =>
      key.take 3 = "(m)".toList → indexOf key < 2]
    decide +kernel
  · rw [hmotors]
    decide +kernel
  · rw [hsensors, ← forall_mem_toList_iff params fun key =>
      key.take 3 = "(s)".toList → indexOf key < 1]
    decide +kernel
  · intro key hkey hadds
    exact ⟨_, hdefinition, (forall_mem_toList_iff params reached).mp hreached key hkey hadds⟩

theorem init_third_motor :
    let params := parametersWith [("(m)stop_motion[3]".toList, "ST".toList)]
    let c := ArmConfiguration.construct (⟨0, 2, 1, 20000, 20000⟩ : ArmParameters ℝ) 0 0 0 0
    motorCount params = 2 ∧ sensorCount params = 1 ∧
      initMotorDescriptions c params ⟨[], []⟩ true = none := by
  intro params c
  have hmotors : motorCount params = 2 := by decide +kernel
  refine ⟨hmotors, by decide +kernel, ?_⟩
  rw [← Option.not_isSome_iff_eq_none, initMotorDescriptions_isSome_iff c (by omega)
    (by rw [hmotors]; decide)]
  rintro ⟨hkeys, -⟩
  have hmem : "(m)stop_motion[3]".toList ∈ params := by
    simp [params, parametersWith]
  have hlt := hkeys _ hmem (by decide)
  rw [hmotors] at hlt
  exact absurd hlt (by decide +kernel)

end Arm2D

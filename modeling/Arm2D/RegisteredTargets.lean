import Arm2D.LocateInCell
import Arm2D.TargetReports
import Arm2D.TargetRouting

/-! # The targets that the descriptions register

What `set_descriptor` makes of a target's definition, and under which names the target is
found: each report id and each id stands for the last definition that has it, in the order of
the keys. -/
namespace Arm2D
open Library

/-- `parameter(key)` of a new sink with this descriptor. -/
def descriptorValue (line key : Str) : Str := (setDescriptor (fun _ => none) line key).getD []

/-- The last of the definitions whose descriptor has the value under the key. -/
def lastDefined (lines : List Str) (key value : Str) : Option ℕ :=
  (List.range lines.length).reverse.find? fun p => descriptorValue (lines.getD p []) key = value

@[simp] theorem lastDefined_nil (key value : Str) : lastDefined [] key value = none := rfl

theorem lastDefined_concat (lines : List Str) (line key value : Str) :
    lastDefined (lines ++ [line]) key value =
      if value = descriptorValue line key then some lines.length
      else lastDefined lines key value := by
  have hbefore : ∀ p ∈ (List.range lines.length).reverse,
      decide (descriptorValue ((lines ++ [line]).getD p []) key = value) =
        decide (descriptorValue (lines.getD p []) key = value) := by
    intro p hp
    have hlt : p < lines.length := by simpa using hp
    rw [List.getD_append _ _ _ _ hlt]
  unfold lastDefined
  rw [List.length_append, List.length_singleton, List.range_succ, List.reverse_append,
    List.reverse_singleton, List.singleton_append, List.find?_cons, List.find?_congr hbefore]
  by_cases h : value = descriptorValue line key
  · simp [h]
  · simp [h, Ne.symm h]

namespace SensorTable

def definitionsOf (entries : List (Str × Str)) : List Str :=
  ((entries.filter fun e => e.1.take 3 = "(t)".toList).filter fun e => isDefinition e.1).map
    Prod.snd

theorem definitionsOf_cons (e : Str × Str) (entries : List (Str × Str)) :
    definitionsOf (e :: entries) =
      (if e.1.take 3 = "(t)".toList ∧ isDefinition e.1 = true then [e.2] else []) ++
        definitionsOf entries := by
  unfold definitionsOf
  by_cases hfamily : e.1.take 3 = "(t)".toList
  · rw [List.filter_cons_of_pos (by simpa using hfamily)]
    by_cases hdefinition : isDefinition e.1 = true
    · rw [List.filter_cons_of_pos (by simpa using hdefinition), if_pos ⟨hfamily, hdefinition⟩]
      rfl
    · rw [List.filter_cons_of_neg (by simpa using hdefinition), if_neg fun h => hdefinition h.2]
      rfl
  · rw [List.filter_cons_of_neg (by simpa using hfamily), if_neg fun h => hfamily h.1]
    rfl

/-- The objects are those of these definitions, and are registered under what they say. -/
structure Registered (sensorMap : Str → Option ℕ) (lines : List Str) (s : SensorTable) : Prop where
  sensorMap_eq : s.sensorMap = sensorMap
  length : s.targets.length = lines.length
  targetMap : ∀ name, s.targetMap name = lastDefined lines "report_id".toList name
  travelMap : ∀ name, s.travelMap name = lastDefined lines "id".toList name
  sensor : ∀ p, ∀ t ∈ s.targets[p]?,
    t.sensor = sensorMap (descriptorValue (lines.getD p []) "source".toList)

variable {sensorMap : Str → Option ℕ} {lines : List Str} {s s' : SensorTable}

theorem Registered.setCurrentIndex (h : s.Registered sensorMap lines) (key : Str) :
    (s.setCurrentIndex key).Registered sensorMap lines := by
  unfold SensorTable.setCurrentIndex
  split_ifs
  · exact h
  · exact ⟨h.sensorMap_eq, h.length, h.targetMap, h.travelMap, h.sensor⟩

theorem Registered.define (h : s.Registered sensorMap lines) (line : Str) :
    (s.define line).Registered sensorMap (lines ++ [line]) where
  sensorMap_eq := h.sensorMap_eq
  length := by simp [SensorTable.define, h.length]
  targetMap name := by
    rw [lastDefined_concat, ← h.targetMap, ← h.length]
    exact Function.update_apply _ _ _ _
  travelMap name := by
    rw [lastDefined_concat, ← h.travelMap, ← h.length]
    exact Function.update_apply _ _ _ _
  sensor p t ht := by
    have ht' : (s.targets ++ [DescribedTarget.construct s.sensorMap line])[p]? = some t := ht
    by_cases hp : p < s.targets.length
    · rw [List.getElem?_append_left hp] at ht'
      rw [List.getD_append _ _ _ _ (h.length ▸ hp)]
      exact h.sensor p t ht'
    · have hlast : p = lines.length := by
        have hlt := (List.getElem?_eq_some_iff.mp ht').1
        rw [List.length_append, List.length_singleton] at hlt
        have := h.length
        omega
      rw [hlast, ← h.length, List.getElem?_concat_length] at ht'
      rw [← Option.some.inj ht', hlast, DescribedTarget.construct, h.sensorMap_eq]
      simp [descriptorValue]

variable {R : Type} [Field R] [PiConstant R] {g : ArmParameters R}

theorem Registered.addTargetParameter (h : s.Registered sensorMap lines) (c : ArmConfiguration g)
    {key line : Str} (hadd : s.addTargetParameter c key line = some s') :
    s'.Registered sensorMap lines := by
  obtain ⟨pointer, -, hadd⟩ := Option.bind_eq_some_iff.mp hadd
  obtain ⟨target, htarget, hadd⟩ := Option.bind_eq_some_iff.mp hadd
  cases hadd
  refine ⟨h.sensorMap_eq, by simp [h.length], h.targetMap, h.travelMap, fun p t ht => ?_⟩
  have ht' : (s.targets.set pointer _)[p]? = some t := ht
  by_cases hp : pointer = p
  · have hlt := (List.getElem?_eq_some_iff.mp htarget).1
    rw [hp] at hlt ht' htarget
    rw [List.getElem?_set_self hlt] at ht'
    rw [← Option.some.inj ht']
    exact h.sensor p target htarget
  · rw [List.getElem?_set_ne hp] at ht'
    exact h.sensor p t ht'

theorem Registered.targetEntry (h : s.Registered sensorMap lines) (c : ArmConfiguration g)
    {entry : Str × Str} (hentry : s.targetEntry c entry = some s') :
    s'.Registered sensorMap (lines ++
      if entry.1.take 3 = "(t)".toList ∧ isDefinition entry.1 = true then [entry.2] else []) := by
  unfold SensorTable.targetEntry at hentry
  dsimp only at hentry
  split_ifs at hentry with hfamily hdefinition
  · cases hentry
    rw [if_neg fun hd => hfamily hd.1, List.append_nil]
    exact h
  · cases hentry
    rw [if_pos ⟨not_not.mp hfamily, hdefinition⟩]
    exact (h.setCurrentIndex entry.1).define entry.2
  · rw [if_neg fun hd => hdefinition hd.2, List.append_nil]
    exact (h.setCurrentIndex entry.1).addTargetParameter c hentry

theorem Registered.foldlM (h : s.Registered sensorMap lines) (c : ArmConfiguration g)
    {entries : List (Str × Str)} (hrun : entries.foldlM (SensorTable.targetEntry c) s = some s') :
    s'.Registered sensorMap (lines ++ definitionsOf entries) := by
  induction entries generalizing s lines with
  | nil =>
    cases hrun
    simpa [definitionsOf] using h
  | cons entry entries ih =>
    rw [List.foldlM_cons] at hrun
    obtain ⟨s₁, hentry, hrun⟩ := Option.bind_eq_some_iff.mp hrun
    rw [definitionsOf_cons, ← List.append_assoc]
    exact ih (h.targetEntry c hentry) hrun

def Named (visited : List (Str × Str)) (s : SensorTable) : Prop :=
  ∀ id, (s.sensorMap id).isSome ↔ ∃ e ∈ visited, e.1 = "(s)".toList ++ id

theorem named_allocate (n : ℕ) : (allocate n).Named [] := fun id => by simp [allocate]

@[simp] theorem setCurrentIndex_sensorMap (s : SensorTable) (key : Str) :
    (s.setCurrentIndex key).sensorMap = s.sensorMap := by
  unfold SensorTable.setCurrentIndex
  split_ifs <;> rfl

theorem eq_family_append_iff {family key id : Str} (h : key.take 3 = family)
    (hlength : family.length = 3) : key = family ++ id ↔ id = key.drop 3 := by
  constructor
  · rintro rfl
    exact (List.drop_left' hlength).symm
  · rintro rfl
    rw [← h, List.take_append_drop]

theorem Named.sensorEntry {visited : List (Str × Str)} (h : s.Named visited) {entry : Str × Str}
    (hentry : s.sensorEntry entry = some s') : s'.Named (visited ++ [entry]) := by
  obtain ⟨key, line⟩ := entry
  intro id
  simp only [List.mem_append, List.mem_singleton, or_and_right, exists_or, exists_eq_left,
    ← h id]
  unfold SensorTable.sensorEntry at hentry
  dsimp only at hentry
  split_ifs at hentry with hfamily
  · cases hentry
    have hother : key ≠ "(s)".toList ++ id := fun hkey => hfamily (by simp [hkey])
    exact (or_iff_left hother).symm
  · obtain ⟨parameters, -, hentry⟩ := Option.bind_eq_some_iff.mp hentry
    cases hentry
    rw [eq_family_append_iff (not_not.mp hfamily) rfl]
    dsimp only
    rw [setCurrentIndex_sensorMap, Function.update_apply]
    by_cases hid : id = key.drop 3
    · simp [hid]
    · simp [hid]

theorem Named.foldlM {visited entries : List (Str × Str)} (h : s.Named visited)
    (hrun : entries.foldlM SensorTable.sensorEntry s = some s') :
    s'.Named (visited ++ entries) := by
  induction entries generalizing s visited with
  | nil =>
    cases hrun
    simpa using h
  | cons entry entries ih =>
    rw [List.foldlM_cons] at hrun
    obtain ⟨s₁, hentry, hrun⟩ := Option.bind_eq_some_iff.mp hrun
    rw [List.append_cons]
    exact ih (h.sensorEntry hentry) hrun

theorem targetEntry_sensorMap (c : ArmConfiguration g) {entry : Str × Str}
    (hentry : s.targetEntry c entry = some s') : s'.sensorMap = s.sensorMap := by
  unfold SensorTable.targetEntry at hentry
  dsimp only at hentry
  split_ifs at hentry
  · cases hentry
    rfl
  · cases hentry
    exact s.setCurrentIndex_sensorMap entry.1
  · obtain ⟨pointer, -, hentry⟩ := Option.bind_eq_some_iff.mp hentry
    obtain ⟨target, -, hentry⟩ := Option.bind_eq_some_iff.mp hentry
    cases hentry
    exact s.setCurrentIndex_sensorMap entry.1

/-- No targets yet. -/
def Untargeted (s : SensorTable) : Prop :=
  s.targets = [] ∧ ∀ name, s.targetMap name = none ∧ s.travelMap name = none

theorem Untargeted.sensorEntry (h : s.Untargeted) {entry : Str × Str}
    (hentry : s.sensorEntry entry = some s') : s'.Untargeted := by
  obtain ⟨key, line⟩ := entry
  unfold SensorTable.sensorEntry at hentry
  dsimp only at hentry
  split_ifs at hentry
  · cases hentry
    exact h
  · obtain ⟨parameters, -, hentry⟩ := Option.bind_eq_some_iff.mp hentry
    cases hentry
    unfold SensorTable.setCurrentIndex Untargeted
    split_ifs
    · exact h
    · exact h

theorem Untargeted.registered (h : s.Untargeted) : s.Registered s.sensorMap [] where
  sensorMap_eq := rfl
  length := by simp [h.1]
  targetMap name := (h.2 name).1
  travelMap name := (h.2 name).2
  sensor p t ht := by simp [h.1] at ht

end SensorTable

/-- The descriptors of the definitions, in the order of their keys. -/
def definitionLines (params : ParameterMap) : List Str := SensorTable.definitionsOf params.toList

section program
variable {R : Type} [Field R] [PiConstant R] {g : ArmParameters R}

theorem describeSensors_registered (c : ArmConfiguration g) {params : ParameterMap}
    {s : SensorTable} (h : describeSensors c params = some s) :
    s.Registered s.sensorMap (definitionLines params) := by
  have hallocated : ∀ n, (SensorTable.allocate n).Untargeted := fun n => ⟨rfl, fun _ => ⟨rfl, rfl⟩⟩
  by_cases hempty : params.isEmpty = true
  · rw [describeSensors, if_pos hempty] at h
    cases h
    have hnil : params.toList = [] := by simpa [← Std.TreeMap.isEmpty_toList] using hempty
    have hnone : definitionLines params = [] := by
      rw [definitionLines, hnil]
      rfl
    rw [hnone]
    exact (hallocated 0).registered
  · rw [describeSensors, if_neg hempty] at h
    split_ifs at h
    obtain ⟨s₁, hsensors, htargets⟩ := Option.bind_eq_some_iff.mp h
    have huntargeted : s₁.Untargeted :=
      foldlM_invariant (P := SensorTable.Untargeted) (fun _ _ _ hs hstep => hs.sensorEntry hstep)
        (hallocated _) hsensors
    have hregistered := huntargeted.registered.foldlM c htargets
    rw [List.nil_append] at hregistered
    rw [hregistered.sensorMap_eq]
    exact hregistered

/-- After the loops the map has a sensor under exactly the names that entries of the family (s)
have. -/
theorem describeSensors_sensorMap (c : ArmConfiguration g) {params : ParameterMap}
    {s : SensorTable} (h : describeSensors c params = some s) (id : Str) :
    (s.sensorMap id).isSome ↔ "(s)".toList ++ id ∈ params := by
  by_cases hempty : params.isEmpty = true
  · rw [describeSensors, if_pos hempty] at h
    cases h
    simp [SensorTable.allocate, Std.TreeMap.not_mem_of_isEmpty hempty]
  · rw [describeSensors, if_neg hempty] at h
    split_ifs at h
    obtain ⟨s₁, hsensors, htargets⟩ := Option.bind_eq_some_iff.mp h
    have hnamed := SensorTable.Named.foldlM (SensorTable.named_allocate _) hsensors
    have hkept : s.sensorMap = s₁.sensorMap :=
      foldlM_invariant (P := fun s : SensorTable => s.sensorMap = s₁.sensorMap)
        (fun _ _ _ hs hstep => (SensorTable.targetEntry_sensorMap c hstep).trans hs) rfl htargets
    rw [hkept, hnamed id, ← Std.TreeMap.mem_keys, ← Std.TreeMap.map_fst_toList_eq_keys,
      List.mem_map, List.nil_append]

/-- The source of every definition is a name that some sensor has. -/
def SourcesNamed (params : ParameterMap) : Prop :=
  ∀ line ∈ definitionLines params,
    "(s)".toList ++ descriptorValue line "source".toList ∈ params

theorem initSensorDescriptions_registered (c : ArmConfiguration g) {params : ParameterMap}
    {s : SensorTable} (h : initSensorDescriptions c params = some s) :
    s.Registered s.sensorMap (definitionLines params) :=
  describeSensors_registered c (initSensorDescriptions_eq_some.mp h).1

/-- The sensors' ports are started without following a NULL exactly when every source is named. -/
theorem initSensorDescriptions_isSome_iff (c : ArmConfiguration g) {params : ParameterMap}
    {s : SensorTable} (h : describeSensors c params = some s) :
    initSensorDescriptions c params = some s ↔ SourcesNamed params := by
  have hregistered := describeSensors_registered c h
  have hsource : ∀ p (hp : p < s.targets.length), s.targets[p].sensor.isSome ↔
      "(s)".toList ++ descriptorValue ((definitionLines params).getD p []) "source".toList ∈
        params := by
    intro p hp
    rw [hregistered.sensor p _ (List.getElem?_eq_getElem hp), describeSensors_sensorMap c h]
  rw [initSensorDescriptions_eq_some, SourcesNamed, List.forall_mem_iff_forall_getElem,
    List.forall_mem_iff_forall_getElem]
  refine ⟨fun hs p hp => ?_, fun hs => ⟨h, fun p hp => ?_⟩⟩
  · rw [← List.getD_eq_getElem _ [] hp]
    exact (hsource p (hregistered.length ▸ hp)).mp (hs.2 p _)
  · rw [hsource p hp, List.getD_eq_getElem _ [] (hregistered.length ▸ hp)]
    exact hs p _

/-- What the constructor and `specialization` make of a target, whose descriptor is read once;
the offsets that `sscanf` reads are left out. -/
def Target.specialization (sensor : Option (SensorController R)) (parameter : Str → Str) :
    Target R :=
  let goalOffset := parameter "goal_offset".toList
  { sensor := sensor
    measurements := (toItems (parameter "fields".toList) ',').foldl
      (fun measurements name => Function.update measurements name (some 0)) fun _ => none
    targetPresent := false
    fovX := 0
    fovY := 0
    fovTheta := 0
    fovMatch := 0
    goalX := atof ((substr goalOffset 0 (find [','] goalOffset 0)).getD [])
    goalY := atof ((substr goalOffset (posAfter (find [','] goalOffset 0)) none).getD []) }

namespace SensorTable

/-- The sensor in a slot. -/
def sensorController (s : SensorTable) (i : ℕ) : SensorController R :=
  .specialization fun key => ((s.sensorControllerArray i).bind (· key)).getD []

/-- The targets' objects after the descriptions, and the maps to them. -/
def runTargets (s : SensorTable) (lines : List Str) : Targets R where
  heap p := .specialization ((s.targets[p]?.bind DescribedTarget.sensor).map s.sensorController)
    (descriptorValue (lines.getD p []))
  targetMap := s.targetMap
  travelMap := s.travelMap

end SensorTable

/-- The descriptions decide where the camera's reports go: into the last definition, in the order
of the keys, with the report's key as its report id, and into no other target. Each target has
the sensor that its definition names, and is found under its id. -/
theorem descriptions_route_reports (c : ArmConfiguration g) {params : ParameterMap}
    {s : SensorTable} (h : initSensorDescriptions c params = some s)
    (reports : List (Str × Str)) :
    ∃ ts : Targets R, receive reports (s.runTargets (definitionLines params)) = some ts ∧
      (∀ p, ts.heap p =
        (reports.filter fun r =>
          lastDefined (definitionLines params) "report_id".toList r.1 = some p).foldl
            (fun t r => tested r t) ((s.runTargets (definitionLines params)).heap p)) ∧
      (∀ name, ts.travelMap name = lastDefined (definitionLines params) "id".toList name) ∧
      ∀ p < (definitionLines params).length, ∃ i,
        s.sensorMap (descriptorValue ((definitionLines params).getD p []) "source".toList) =
            some i ∧
          (ts.heap p).sensor = some (s.sensorController i) := by
  have hregistered := initSensorDescriptions_registered c h
  have hplace : reportPlace s.targetMap = fun r : Str × Str =>
      lastDefined (definitionLines params) "report_id".toList r.1 :=
    funext fun r => hregistered.targetMap r.1
  have hheap : ∀ p, reports.foldl (touch (reportPlace s.targetMap) tested)
      (s.runTargets (definitionLines params) : Targets R).heap p =
        (reports.filter fun r =>
          lastDefined (definitionLines params) "report_id".toList r.1 = some p).foldl
            (fun t r => tested r t) ((s.runTargets (definitionLines params)).heap p) := by
    intro p
    rw [foldl_touch, hplace]
    rfl
  refine ⟨_, receive_eq_touch reports _, hheap, hregistered.travelMap, fun p hp => ?_⟩
  have hlt : p < s.targets.length := hregistered.length ▸ hp
  have htarget := List.getElem?_eq_getElem hlt
  obtain ⟨i, hi⟩ := Option.isSome_iff_exists.mp
    ((initSensorDescriptions_eq_some.mp h).2 _ (List.getElem_mem hlt))
  refine ⟨i, (hregistered.sensor p _ htarget).symm.trans hi, ?_⟩
  refine (congrArg Target.sensor (hheap p)).trans ?_
  rw [(foldl_tested_kept _ _).1]
  simp [SensorTable.runTargets, Target.specialization, htarget, hi]

theorem exists_initSensorDescriptions (c : ArmConfiguration g) {params : ParameterMap}
    (hcount : 1 ≤ sensorCount params ∧ sensorCount params ≤ maxCount)
    (hsensors : ∀ key ∈ params, key.take 3 = "(s)".toList → indexOf key < sensorCount params)
    (htargets : ∀ key ∈ params, SensorTable.AddsToTarget key →
      ∃ d ∈ params, SensorTable.isDefinition d = true ∧ compare d key = .lt ∧
        indexOf key - 1 ≤ indexOf d)
    (hsources : SourcesNamed params) : ∃ s, initSensorDescriptions c params = some s := by
  obtain ⟨s, h⟩ := Option.isSome_iff_exists.mp
    ((describeSensors_isSome_iff c hcount.1 hcount.2).mpr ⟨hsensors, htargets⟩)
  exact ⟨s, (initSensorDescriptions_isSome_iff c h).mpr hsources⟩

theorem exists_initSensorDescriptions_camera (c : ArmConfiguration g) {params : ParameterMap}
    (hcount : sensorCount params = 1)
    (hplain : ∀ e ∈ params.toList, (e.1.take 3 = "(s)".toList → indexOf e.1 < 1) ∧
      ¬ SensorTable.AddsToTarget e.1)
    (hsources : SourcesNamed params) : ∃ s, initSensorDescriptions c params = some s := by
  have hkeys := (forall_mem_toList_iff params fun key =>
    (key.take 3 = "(s)".toList → indexOf key < 1) ∧ ¬ SensorTable.AddsToTarget key).mp hplain
  refine exists_initSensorDescriptions c (by rw [hcount]; decide) (fun key hkey => ?_)
    (fun key hkey hadds => absurd hadds (hkeys key hkey).2) hsources
  rw [hcount]
  exact (hkeys key hkey).1

end program

theorem descriptions_route_reports_same_id :
    let params := parametersWith [("(s)camera[1]".toList, "fov_w:640".toList),
      ("(t)definition[1]".toList, "report_id:MT_A;source:camera[1]".toList),
      ("(t)definition[2]".toList, "report_id:MT_A;source:camera[1]".toList)]
    let c := ArmConfiguration.construct (⟨0, 2, 1, 20000, 20000⟩ : ArmParameters ℝ) 0 0 0 0
    ∃ s, initSensorDescriptions c params = some s ∧ ∃ ts : Targets ℝ,
      receive [("MT_A".toList, "(1,2),3,4".toList)] (s.runTargets (definitionLines params)) =
          some ts ∧
        ts.heap 0 = (s.runTargets (definitionLines params)).heap 0 ∧
        ts.heap 1 = tested ("MT_A".toList, "(1,2),3,4".toList)
          ((s.runTargets (definitionLines params)).heap 1) ∧
        ∃ i, s.sensorMap "camera[1]".toList = some i ∧
          (ts.heap 1).sensor = some (s.sensorController i) := by
  intro params c
  obtain ⟨s, hs⟩ := exists_initSensorDescriptions_camera c (by decide +kernel) (by
    unfold SensorTable.AddsToTarget
    decide +kernel : ∀ e ∈ params.toList, _) (by
    unfold SourcesNamed
    decide +kernel : SourcesNamed params)
  obtain ⟨ts, hreceive, hheap, -, hsensor⟩ :=
    descriptions_route_reports c hs [("MT_A".toList, "(1,2),3,4".toList)]
  have hsource : descriptorValue ((definitionLines params).getD 1 []) "source".toList =
      "camera[1]".toList := by
    decide +kernel
  have hlast : lastDefined (definitionLines params) "report_id".toList "MT_A".toList = some 1 := by
    decide +kernel
  refine ⟨s, hs, ts, hreceive, ?_, ?_, hsource ▸ hsensor 1 (by decide +kernel)⟩
  · rw [hheap, List.filter_cons_of_neg (by dsimp only; rw [hlast]; decide)]
    rfl
  · rw [hheap, List.filter_cons_of_pos (by dsimp only; rw [hlast]; decide)]
    rfl

end Arm2D

import Arm2D.Library.Lexicographic
import Arm2D.Library.Logged
import Arm2D.TargetStorage

/-! # Which target an entry reaches

The loop of `init_sensor_descriptions` over the entries of targets, with the objects that
it makes and what it adds to them. -/
namespace Arm2D
open Library

/-- At the entry of this key an object is made, or a parameter is added to one. -/
inductive TargetEvent where
  | built (key : Str) (pointer : ℕ)
  | added (key : Str) (pointer : ℕ) (name line : Str)

namespace SensorTable

section loop
variable {R : Type} [Field R] [PiConstant R] {g : ArmParameters R}

def addTargetParameterLogged (c : ArmConfiguration g) (s : SensorTable) (key line : Str) :
    Logged TargetEvent (Option SensorTable) :=
  let currentIndex := if s.currentIndex > 0 then s.currentIndex - 1 else s.currentIndex
  (pure s.targetStorage[currentIndex]? : Logged TargetEvent (Option ℕ)).bindSome fun pointer =>
  (pure s.targets[pointer]? : Logged TargetEvent (Option DescribedTarget)).bindSome fun target => do
  let target := { target with
    parameters := Function.update target.parameters (entryName key) (some (checkVars c line)) }
  Logged.tell (.added key pointer (entryName key) (checkVars c line))
  return some { s with currentIndex := currentIndex, targets := s.targets.set pointer target }

def targetEntryLogged (c : ArmConfiguration g) (s : SensorTable) (entry : Str × Str) :
    Logged TargetEvent (Option SensorTable) :=
  let (key, line) := entry
  if key.take 3 ≠ "(t)".toList then pure (some s)
  else if isDefinition key then do
    Logged.tell (.built key s.targets.length)
    return some ((s.setCurrentIndex key).define line)
  else (s.setCurrentIndex key).addTargetParameterLogged c key line

def targetLoopLogged (c : ArmConfiguration g) :
    List (Str × Str) → SensorTable → Logged TargetEvent (Option SensorTable)
  | [], s => pure (some s)
  | entry :: entries, s => (s.targetEntryLogged c entry).bindSome (targetLoopLogged c entries)

theorem addTargetParameterLogged_val (c : ArmConfiguration g) (s : SensorTable) (key line : Str) :
    (s.addTargetParameterLogged c key line).val = s.addTargetParameter c key line := by
  simp only [addTargetParameterLogged, Logged.bindSome_val, Logged.pure_val]
  rfl

theorem targetEntryLogged_val (c : ArmConfiguration g) (s : SensorTable) (entry : Str × Str) :
    (s.targetEntryLogged c entry).val = s.targetEntry c entry := by
  rw [targetEntryLogged, targetEntry]
  split_ifs
  · rfl
  · rfl
  · exact addTargetParameterLogged_val c _ _ _

theorem targetLoopLogged_val (c : ArmConfiguration g) (entries : List (Str × Str))
    (s : SensorTable) : (targetLoopLogged c entries s).val = entries.foldlM (targetEntry c) s := by
  induction entries generalizing s with
  | nil => rfl
  | cons entry entries ih =>
    rw [targetLoopLogged, Logged.bindSome_val, targetEntryLogged_val, List.foldlM_cons]
    exact bind_congr fun s => ih s

theorem targetLoopLogged_append (c : ArmConfiguration g) {front : List (Str × Str)}
    {s s' : SensorTable} (h : front.foldlM (targetEntry c) s = some s')
    (entries : List (Str × Str)) :
    (targetLoopLogged c (front ++ entries) s).log =
      (targetLoopLogged c front s).log ++ (targetLoopLogged c entries s').log := by
  induction front generalizing s with
  | nil =>
    cases h
    rfl
  | cons e front ih =>
    rw [List.foldlM_cons] at h
    obtain ⟨t, ht, h⟩ := Option.bind_eq_some_iff.mp h
    have hval : (s.targetEntryLogged c e).val = some t := by rw [targetEntryLogged_val, ht]
    rw [List.cons_append, targetLoopLogged, targetLoopLogged, Logged.bindSome_of_some hval,
      Logged.bindSome_of_some hval]
    dsimp only
    rw [ih h, List.append_assoc]

theorem targetEntryLogged_of_ne (c : ArmConfiguration g) (s : SensorTable) {entry : Str × Str}
    (h : entry.1.take 3 ≠ "(t)".toList) : s.targetEntryLogged c entry = ⟨some s, []⟩ :=
  if_pos h

theorem targetEntryLogged_of_definition (c : ArmConfiguration g) (s : SensorTable)
    {entry : Str × Str} (h : isDefinition entry.1 = true) :
    s.targetEntryLogged c entry =
      ⟨some ((s.setCurrentIndex entry.1).define entry.2), [.built entry.1 s.targets.length]⟩ := by
  rw [targetEntryLogged, if_neg (not_not.mpr (take_of_isDefinition h)), if_pos h]
  rfl

/-- Any other entry of a target: it adds what it says to the object in the slot below its
index, if there is one, and leaves the slots as they are. -/
theorem targetEntryLogged_of_adds (c : ArmConfiguration g) (s : SensorTable) {entry : Str × Str}
    (h : AddsToTarget entry.1) :
    s.targetEntryLogged c entry = ⟨none, []⟩ ∨
      ∃ p s', s.targetStorage[indexOf entry.1 - 1]? = some p ∧
        s'.targetStorage = s.targetStorage ∧ s.targetEntryLogged c entry =
          ⟨some s', [.added entry.1 p (entryName entry.1) (checkVars c entry.2)]⟩ := by
  obtain ⟨key, line⟩ := entry
  obtain ⟨hkey, hdefinition⟩ := h
  obtain ⟨-, -, -, hstorage⟩ := s.setCurrentIndex_kept key
  dsimp only at hkey hdefinition ⊢
  have hindex : (if (s.setCurrentIndex key).currentIndex > 0 then
      (s.setCurrentIndex key).currentIndex - 1 else (s.setCurrentIndex key).currentIndex) =
      indexOf key - 1 := by
    rw [s.setCurrentIndex_currentIndex hkey]
    split_ifs <;> omega
  have hstep : s.targetEntryLogged c (key, line) =
      (s.setCurrentIndex key).addTargetParameterLogged c key line := by
    rw [targetEntryLogged]
    simp [hkey, hdefinition]
  rw [hstep, addTargetParameterLogged, hindex, hstorage]
  cases hp : s.targetStorage[indexOf key - 1]? with
  | none => exact Or.inl rfl
  | some p =>
    rw [Logged.bindSome_of_some (Logged.pure_val _)]
    cases ht : (s.setCurrentIndex key).targets[p]? with
    | none => exact Or.inl rfl
    | some target =>
      let target' := { target with
        parameters := Function.update target.parameters (entryName key)
          (some (checkVars c line)) }
      exact Or.inr ⟨p, { s.setCurrentIndex key with
        currentIndex := indexOf key - 1
        targetStorage := s.targetStorage
        targets := (s.setCurrentIndex key).targets.set p target' }, rfl, rfl, rfl⟩

theorem targetLoopLogged_filter (c : ArmConfiguration g) (entries : List (Str × Str))
    (s : SensorTable) :
    targetLoopLogged c (entries.filter fun e => e.1.take 3 = "(t)".toList) s =
      targetLoopLogged c entries s := by
  induction entries generalizing s with
  | nil => rfl
  | cons e entries ih =>
    by_cases hfamily : e.1.take 3 = "(t)".toList
    · rw [List.filter_cons_of_pos (by simpa using hfamily), targetLoopLogged, targetLoopLogged]
      exact congrArg _ (funext ih)
    · have hskip := Logged.bindSome_of_some (x := s.targetEntryLogged c e) (a := s)
        (by rw [targetEntryLogged_of_ne c s hfamily]) (targetLoopLogged c entries)
      rw [List.filter_cons_of_neg (by simpa using hfamily), targetLoopLogged, hskip, ih,
        targetEntryLogged_of_ne c s hfamily]
      rfl

theorem targetLoopLogged_definitions (c : ArmConfiguration g) {entries : List (Str × Str)}
    (h : ∀ e ∈ entries, isDefinition e.1 = true) (s : SensorTable) :
    (targetLoopLogged c entries s).val.isSome ∧ (targetLoopLogged c entries s).log =
      ((entries.map Prod.fst).zipIdx s.targets.length).map fun e =>
        TargetEvent.built e.1 e.2 := by
  induction entries generalizing s with
  | nil => exact ⟨rfl, rfl⟩
  | cons e entries ih =>
    obtain ⟨-, -, htargets, -⟩ := s.setCurrentIndex_kept e.1
    have hlength : ((s.setCurrentIndex e.1).define e.2).targets.length =
        s.targets.length + 1 := by
      rw [← htargets]
      exact List.length_append
    have hrest := ih (fun e' he' => h e' (List.mem_cons_of_mem e he'))
      ((s.setCurrentIndex e.1).define e.2)
    rw [hlength] at hrest
    rw [targetLoopLogged, targetEntryLogged_of_definition c s (h e List.mem_cons_self),
      Logged.bindSome_of_some rfl]
    refine ⟨hrest.1, ?_⟩
    dsimp only
    rw [hrest.2]
    rfl

theorem mem_targetLoopLogged_adds (c : ArmConfiguration g) {entries : List (Str × Str)}
    (h : ∀ e ∈ entries, AddsToTarget e.1) {s : SensorTable} {w : TargetEvent}
    (hw : w ∈ (targetLoopLogged c entries s).log) :
    ∃ e ∈ entries, ∃ p, s.targetStorage[indexOf e.1 - 1]? = some p ∧
      w = .added e.1 p (entryName e.1) (checkVars c e.2) := by
  induction entries generalizing s with
  | nil => exact absurd hw List.not_mem_nil
  | cons e entries ih =>
    rw [targetLoopLogged] at hw
    rcases targetEntryLogged_of_adds c s (h e List.mem_cons_self) with
      hnone | ⟨p, s', hslot, hstorage, hsome⟩
    · rw [hnone, Logged.bindSome_of_none rfl] at hw
      exact absurd hw List.not_mem_nil
    · rw [hsome, Logged.bindSome_of_some rfl] at hw
      rcases List.mem_cons.mp hw with rfl | hw
      · exact ⟨e, List.mem_cons_self, p, hslot, rfl⟩
      · obtain ⟨e', he', hadded⟩ := ih (fun e' he' => h e' (List.mem_cons_of_mem e he')) hw
        rw [hstorage] at hadded
        exact ⟨e', List.mem_cons_of_mem e he', hadded⟩

/-- While the storage reaches all slots, each of them is added. -/
theorem added_mem_targetLoopLogged (c : ArmConfiguration g) {entries : List (Str × Str)}
    (h : ∀ e ∈ entries, AddsToTarget e.1) {s : SensorTable} (hs : s.Placed)
    (hbound : ∀ e ∈ entries, indexOf e.1 - 1 < s.targetStorage.length) {e : Str × Str}
    (he : e ∈ entries) {p : ℕ} (hp : s.targetStorage[indexOf e.1 - 1]? = some p) :
    .added e.1 p (entryName e.1) (checkVars c e.2) ∈ (targetLoopLogged c entries s).log := by
  induction entries generalizing s with
  | nil => exact absurd he List.not_mem_nil
  | cons e' entries ih =>
    have hsucceeds := (targetEntry_isSome_iff c hs e').mpr fun _ => hbound e' List.mem_cons_self
    rw [← targetEntryLogged_val] at hsucceeds
    rw [targetLoopLogged]
    rcases targetEntryLogged_of_adds c s (h e' List.mem_cons_self) with
      hnone | ⟨p', s', hslot, hstorage, hsome⟩
    · rw [hnone] at hsucceeds
      cases hsucceeds
    · have hplaced := (targetEntry_placed c hs e' (by rw [← targetEntryLogged_val, hsome])).1
      rw [hsome, Logged.bindSome_of_some rfl]
      rcases List.mem_cons.mp he with rfl | he
      · rw [hp] at hslot
        cases hslot
        exact List.mem_cons_self
      · refine List.mem_append_right _ (ih (fun k hk => h k (List.mem_cons_of_mem e' hk)) hplaced
          ?_ he ?_)
        · intro k hk
          rw [hstorage]
          exact hbound k (List.mem_cons_of_mem e' hk)
        · rw [hstorage]
          exact hp

end loop

/-- The key of a parameter for target number `i`. -/
def targetKey (name : Str) (i : ℕ) : Str := indexedKey "(t)".toList name i

theorem take_targetKey (name : Str) (i : ℕ) : (targetKey name i).take 3 = "(t)".toList :=
  take_indexedKey rfl name i

theorem targetKey_eq (name : Str) (i : ℕ) :
    targetKey name i = "(t)".toList ++ (name ++ '[' :: (decimal i ++ [']'])) :=
  List.append_assoc _ _ _

theorem isDefinition_targetKey (name : Str) (i : ℕ) :
    isDefinition (targetKey name i) = true ↔ "defin".toList <+: name := by
  have hfamily : "(t)defin".toList = "(t)".toList ++ "defin".toList := by decide
  rw [isDefinition_iff, targetKey_eq, hfamily, List.prefix_append_right_inj]
  constructor
  · intro h
    rcases List.prefix_or_prefix_of_prefix h (List.prefix_append name _) with
      hprefix | ⟨rest, hrest⟩
    · exact hprefix
    · rw [← hrest, List.prefix_append_right_inj] at h
      cases rest with
      | nil => simp [← hrest]
      | cons x rest =>
        have hx : x = '[' := (List.cons_prefix_cons.mp h).1
        have hmem : '[' ∈ "defin".toList := by simp [← hrest, hx]
        exact absurd hmem (by decide)
  · exact fun h => h.trans (List.prefix_append _ _)

theorem definitionKey_inj {i j : ℕ} : definitionKey i = definitionKey j ↔ i = j := by
  have hkey : ∀ i, definitionKey i = targetKey "definition".toList i := fun i => rfl
  rw [hkey, hkey, targetKey, targetKey, indexedKey_inj (by decide) (by decide)]
  simp

/-- `n` targets with their definitions; any other entry of a target has a name behind that
of the definitions and the number of one of them. -/
structure TargetEntries (n : ℕ) (params : ParameterMap) : Prop where
  bound : n ≤ maxCount
  definitions : ∀ i, 1 ≤ i → i ≤ n → definitionKey i ∈ params
  entries : ∀ key ∈ params, key.take 3 = "(t)".toList →
    (∃ i, 1 ≤ i ∧ i ≤ n ∧ key = definitionKey i) ∨ ∃ name i, 1 ≤ i ∧ i ≤ n ∧
      compare "definition".toList name = .lt ∧ key = targetKey name i

theorem TargetEntries.isDefinition_of_lt {n : ℕ} {params : ParameterMap}
    (h : TargetEntries n params) {a b : Str} (ha : a ∈ params) (hfamily : a.take 3 = "(t)".toList)
    (hlt : compare a b = .lt) (hb : isDefinition b = true) : isDefinition a = true := by
  obtain ⟨i, -, -, rfl⟩ | ⟨name, i, -, -, hname, rfl⟩ := h.entries a ha hfamily
  · exact isDefinition_definitionKey i
  · rw [isDefinition_targetKey]
    by_contra hnot
    obtain ⟨rest, rfl⟩ := (isDefinition_iff b).mp hb
    have hfront : "(t)defin".toList ++ rest = "(t)".toList ++ ("defin".toList ++ rest) := by simp
    have hbefore : compare ("(t)defin".toList ++ rest) (targetKey name i) = .lt := by
      rw [hfront, targetKey_eq, compare_append_left]
      have hbehind : compare ("defin".toList ++ "ition".toList) name = .lt := hname
      exact compare_of_not_prefix hbehind hnot _ _
    exact absurd hlt (Std.OrientedCmp.not_lt_of_lt hbefore)

/-- The key of an entry behind the definitions. -/
def ExtraEntry (n : ℕ) (params : ParameterMap) (name : Str) (i : ℕ) : Prop :=
  1 ≤ i ∧ i ≤ n ∧ compare "definition".toList name = .lt ∧ targetKey name i ∈ params

def targetEntries (params : ParameterMap) : List (Str × Str) :=
  params.toList.filter fun e => e.1.take 3 = "(t)".toList

def definitionEntries (params : ParameterMap) : List (Str × Str) :=
  (targetEntries params).filter fun e => isDefinition e.1

def additionEntries (params : ParameterMap) : List (Str × Str) :=
  (targetEntries params).filter fun e => !isDefinition e.1

theorem mem_targetEntries {params : ParameterMap} {e : Str × Str} (h : e ∈ targetEntries params) :
    e.1 ∈ params ∧ e.1.take 3 = "(t)".toList ∧ e.2 = serverParameter params e.1 := by
  obtain ⟨hmem, hfamily⟩ := List.mem_filter.mp h
  exact ⟨key_mem_of_mem_toList hmem, by simpa using hfamily, (serverParameter_of_mem hmem).symm⟩

theorem mk_mem_targetEntries {params : ParameterMap} {key : Str} (hkey : key ∈ params)
    (hfamily : key.take 3 = "(t)".toList) :
    (key, serverParameter params key) ∈ targetEntries params := by
  refine List.mem_filter.mpr ⟨?_, by simpa using hfamily⟩
  rw [Std.TreeMap.mem_toList_iff_getElem?_eq_some, serverParameter]
  obtain ⟨value, hvalue⟩ := Option.isSome_iff_exists.mp
    (Std.TreeMap.mem_iff_isSome_getElem?.mp hkey)
  rw [hvalue, Option.getD_some]

theorem mem_definitionEntries {params : ParameterMap} {e : Str × Str}
    (h : e ∈ definitionEntries params) : e ∈ targetEntries params ∧ isDefinition e.1 = true := by
  simpa [definitionEntries] using h

theorem mem_additionEntries {params : ParameterMap} {e : Str × Str}
    (h : e ∈ additionEntries params) : e ∈ targetEntries params ∧ AddsToTarget e.1 := by
  obtain ⟨hmem, hdefinition⟩ := List.mem_filter.mp h
  exact ⟨hmem, (mem_targetEntries hmem).2.1, by simpa using hdefinition⟩

theorem TargetEntries.split {n : ℕ} {params : ParameterMap} (h : TargetEntries n params) :
    definitionEntries params ++ additionEntries params = targetEntries params := by
  apply filter_append_filter_not
  have hsorted := (Std.TreeMap.ordered_keys_toList (t := params)).filter
    fun e => e.1.take 3 = "(t)".toList
  refine hsorted.imp_of_mem fun {a b} ha hb hlt hdefinition => ?_
  obtain ⟨hmem, hfamily, -⟩ := mem_targetEntries ha
  exact h.isDefinition_of_lt hmem hfamily hlt hdefinition

section routing
variable {R : Type} [Field R] [PiConstant R] {g : ArmParameters R} {c : ArmConfiguration g}
variable {n : ℕ} {params : ParameterMap} {s : SensorTable}

/-- The entry adds its value, with its variables filled in, under its name to the object of
the definition with its number, and to no other. -/
def Reaches (c : ArmConfiguration g) (params : ParameterMap) (log : List TargetEvent)
    (name : Str) (i : ℕ) : Prop :=
  ∀ p k line, .added (targetKey name i) p k line ∈ log ↔
    .built (definitionKey i) p ∈ log ∧ k = name ∧
      line = checkVars c (serverParameter params (targetKey name i))

theorem TargetEntries.run (h : TargetEntries n params) (c : ArmConfiguration g)
    (hempty : s.targets = []) :
    ∃ s₁, (definitionEntries params).foldlM (targetEntry c) s = some s₁ ∧
      (∀ key p, .built key p ∈ (targetLoopLogged c params.toList s).log ↔
        ((definitionEntries params).map Prod.fst)[p]? = some key) ∧
      ∀ key p k line, .added key p k line ∈ (targetLoopLogged c params.toList s).log ↔
        .added key p k line ∈ (targetLoopLogged c (additionEntries params) s₁).log := by
  have hdefinitions : ∀ e ∈ definitionEntries params, isDefinition e.1 = true :=
    fun e he => (mem_definitionEntries he).2
  obtain ⟨hsome, hlog⟩ := targetLoopLogged_definitions c hdefinitions s
  rw [targetLoopLogged_val] at hsome
  obtain ⟨s₁, hrun⟩ := Option.isSome_iff_exists.mp hsome
  have hwhole : (targetLoopLogged c params.toList s).log =
      (((definitionEntries params).map Prod.fst).zipIdx.map fun e => .built e.1 e.2) ++
        (targetLoopLogged c (additionEntries params) s₁).log := by
    have hfilter := targetLoopLogged_filter c params.toList s
    rw [hempty, List.length_nil] at hlog
    rw [← hlog, ← targetLoopLogged_append c hrun, h.split, ← hfilter]
    rfl
  have hadds : ∀ w ∈ (targetLoopLogged c (additionEntries params) s₁).log,
      ∀ key p, w ≠ .built key p := by
    intro w hw key p heq
    obtain ⟨e, -, p', -, rfl⟩ := mem_targetLoopLogged_adds c
      (fun e he => (mem_additionEntries he).2) hw
    cases heq
  refine ⟨s₁, hrun, fun key p => ?_, fun key p k line => ?_⟩
  · rw [hwhole, List.mem_append, or_iff_left fun hw => hadds _ hw key p rfl,
      ← List.mk_mem_zipIdx_iff_getElem?, List.mem_map]
    constructor
    · rintro ⟨e, he, heq⟩
      cases heq
      exact he
    · exact fun h => ⟨(key, p), h, rfl⟩
  · rw [hwhole, List.mem_append, or_iff_right]
    intro hw
    obtain ⟨e, -, heq⟩ := List.mem_map.mp hw
    cases heq

theorem TargetEntries.definitionEntries_of (h : TargetEntries n params)
    (hother : ∀ name i, ExtraEntry n params name i → isDefinition (targetKey name i) = false)
    {e : Str × Str} (he : e ∈ definitionEntries params) :
    ∃ i, 1 ≤ i ∧ i ≤ n ∧ e.1 = definitionKey i := by
  obtain ⟨hmem, hdefinition⟩ := mem_definitionEntries he
  obtain ⟨hkey, hfamily, -⟩ := mem_targetEntries hmem
  obtain hnumber | ⟨name, i, h1, hi, hname, heq⟩ := h.entries e.1 hkey hfamily
  · exact hnumber
  · rw [heq] at hkey hdefinition
    rw [hother name i ⟨h1, hi, hname, hkey⟩] at hdefinition
    cases hdefinition

theorem TargetEntries.exists_order (h : TargetEntries n params)
    (hother : ∀ name i, ExtraEntry n params name i → isDefinition (targetKey name i) = false) :
    ∃ order : List ℕ, order.Nodup ∧ (∀ i, i ∈ order ↔ 1 ≤ i ∧ i ≤ n) ∧
      definitionEntries params =
        order.map fun i => (definitionKey i, serverParameter params (definitionKey i)) := by
  have h256 : n ≤ 256 := h.bound.trans (by decide)
  have hnumber : ∀ e ∈ definitionEntries params, definitionKey (indexOf e.1 + 1) = e.1 := by
    intro e he
    obtain ⟨i, h1, hi, hkey⟩ := h.definitionEntries_of hother he
    rw [hkey, indexOf_definitionKey h1 (hi.trans h256), Nat.sub_add_cancel h1]
  refine ⟨(definitionEntries params).map fun e => indexOf e.1 + 1, ?_, fun i => ⟨?_, ?_⟩, ?_⟩
  · have hkeys : ((definitionEntries params).map fun e => indexOf e.1 + 1).map definitionKey =
        (definitionEntries params).map Prod.fst := by
      rw [List.map_map]
      exact List.map_congr_left hnumber
    apply List.Nodup.of_map definitionKey
    rw [hkeys]
    have hdistinct := ((Std.TreeMap.distinct_keys_toList (t := params)).filter
      fun e => e.1.take 3 = "(t)".toList).filter fun e => isDefinition e.1
    exact List.pairwise_map.mpr (hdistinct.imp fun hne heq => hne (by simp [heq]))
  · intro hi
    obtain ⟨e, he, rfl⟩ := List.mem_map.mp hi
    obtain ⟨j, h1, hj, hkey⟩ := h.definitionEntries_of hother he
    rw [hkey, indexOf_definitionKey h1 (hj.trans h256)]
    omega
  · rintro ⟨h1, hi⟩
    have hentry := mk_mem_targetEntries (h.definitions i h1 hi) (take_definitionKey i)
    refine List.mem_map.mpr ⟨_, List.mem_filter.mpr ⟨hentry, isDefinition_definitionKey i⟩, ?_⟩
    rw [indexOf_definitionKey h1 (hi.trans h256)]
    omega
  · rw [List.map_map]
    refine ((List.map_congr_left fun e he => ?_).trans (List.map_id _)).symm
    have hvalue := (mem_targetEntries (mem_definitionEntries he).1).2.2
    exact Prod.ext (hnumber e he) (by simp [hnumber e he, hvalue])

theorem TargetEntries.slots (h : TargetEntries n params) (c : ArmConfiguration g)
    (hempty : s.targets = []) (hstorage : s.targetStorage = [])
    (hother : ∀ name i, ExtraEntry n params name i → isDefinition (targetKey name i) = false)
    {s₁ : SensorTable} (hrun : (definitionEntries params).foldlM (targetEntry c) s = some s₁) :
    s₁.Placed ∧ s₁.targetStorage.length = n ∧ s₁.targetStorage.Nodup ∧
      ∀ i, 1 ≤ i → i ≤ n → ∀ p,
        ((definitionEntries params).map Prod.fst)[p]? = some (definitionKey i) ↔
          s₁.targetStorage[i - 1]? = some p := by
  obtain ⟨order, hnodup, hmem, hentries⟩ := h.exists_order hother
  have h256 : n ≤ 256 := h.bound.trans (by decide)
  obtain ⟨s', hrun', hfilled⟩ := (filled_nil (fun i => serverParameter params (definitionKey i))
    hstorage).foldlM c (by simpa using hnodup) (by simp only [List.nil_append, hmem]; omega)
  rw [← hentries, hrun, Option.some_inj] at hrun'
  subst hrun'
  rw [List.nil_append] at hfilled
  have hplaced : s₁.Placed := by
    refine foldlM_invariant (fun s e s' hs hstep => (targetEntry_placed c hs e hstep).1) ?_ hrun
    rw [Placed, hstorage]
    simp
  refine ⟨hplaced, hfilled.length_eq hmem, hfilled.nodup hmem, fun i h1 hi p => ?_⟩
  have hin : i ∈ order := (hmem i).mpr ⟨h1, hi⟩
  rw [hfilled.slots i hin, hempty, List.length_nil, Nat.zero_add, hentries, List.map_map,
    List.getElem?_map, Option.some_inj]
  constructor
  · intro hp
    obtain ⟨j, hj, hkey⟩ := Option.map_eq_some_iff.mp hp
    obtain ⟨hlt, hget⟩ := List.getElem?_eq_some_iff.mp hj
    rw [← definitionKey_inj.mp hkey, ← hget, hnodup.idxOf_getElem p hlt]
  · rintro rfl
    rw [List.getElem?_idxOf hin]
    rfl

theorem entryName_targetKey {name : Str} {i : ℕ} :
    entryName (targetKey name i) = name ↔ '[' ∉ name := by
  constructor
  · intro h hmem
    rw [← h, entryName] at hmem
    simpa using List.mem_takeWhile_imp hmem
  · exact fun h => entryName_indexedKey rfl h i

theorem indexOf_targetKey {name : Str} (hname : '[' ∉ name) {i : ℕ} (h1 : 1 ≤ i) (h256 : i ≤ 256) :
    indexOf (targetKey name i) = 0 ∨ indexOf (targetKey name i) = i - 1 := by
  by_cases hnul : '\x00' ∈ name
  · left
    obtain ⟨a, b, rfl, ha⟩ := List.eq_append_cons_of_mem hnul
    have hfront : '\x00' ∉ "(t)".toList ++ a := by simp [ha]
    have hbracket : '[' ∉ "(t)".toList ++ a := by
      simp only [List.mem_append, not_or] at hname ⊢
      exact ⟨by decide, hname.1⟩
    have hcut : cStr (targetKey (a ++ '\x00' :: b) i) = "(t)".toList ++ a := by
      rw [targetKey_eq, List.append_assoc, ← List.append_assoc, List.cons_append,
        cStr_append_nul hfront]
    have hnone : ("(t)".toList ++ a).dropWhile (· ≠ '[') = [] := by
      rw [List.dropWhile_eq_nil_iff]
      intro d hd
      exact decide_eq_true (ne_of_mem_of_not_mem hd hbracket)
    rw [indexOf, hcut, hnone]
  · exact Or.inr (indexOf_indexedKey (by decide) ⟨hname, hnul⟩ h1 h256)

theorem TargetEntries.not_definition (h : TargetEntries n params) (c : ArmConfiguration g)
    (hempty : s.targets = []) {name : Str} {i : ℕ} (hextra : ExtraEntry n params name i)
    (hreaches : Reaches c params (targetLoopLogged c params.toList s).log name i) :
    isDefinition (targetKey name i) = false := by
  obtain ⟨s₁, hrun, hbuilt, hadded⟩ := h.run c hempty
  have hentry := mk_mem_targetEntries (h.definitions i hextra.1 hextra.2.1) (take_definitionKey i)
  have hmem : _ ∈ definitionEntries params :=
    List.mem_filter.mpr ⟨hentry, isDefinition_definitionKey i⟩
  obtain ⟨p, hp⟩ := List.mem_iff_getElem?.mp (List.mem_map_of_mem (f := Prod.fst) hmem)
  have hadd := (hreaches p name _).mpr ⟨(hbuilt _ p).mpr hp, rfl, rfl⟩
  rw [hadded] at hadd
  obtain ⟨e, he, p', -, hevent⟩ :=
    mem_targetLoopLogged_adds c (fun e he => (mem_additionEntries he).2) hadd
  injection hevent with hkey
  rw [hkey]
  exact (mem_additionEntries he).2.2

/-- Entries reach the targets that they name only if they do not look like definitions and
name the first. -/
theorem TargetEntries.only_first (h : TargetEntries n params) (c : ArmConfiguration g)
    (hempty : s.targets = []) (hstorage : s.targetStorage = [])
    (hreaches : ∀ name i, ExtraEntry n params name i →
      Reaches c params (targetLoopLogged c params.toList s).log name i)
    {name : Str} {i : ℕ} (hextra : ExtraEntry n params name i) :
    i = 1 ∧ '[' ∉ name ∧ ¬ "defin".toList <+: name := by
  have hother : ∀ k j, ExtraEntry n params k j → isDefinition (targetKey k j) = false :=
    fun k j hkj => h.not_definition c hempty hkj (hreaches k j hkj)
  obtain ⟨s₁, hrun, hbuilt, hadded⟩ := h.run c hempty
  obtain ⟨-, hlength, hnodup, hslots⟩ := h.slots c hempty hstorage hother hrun
  have h1 : 1 ≤ i := hextra.1
  have hi : i ≤ n := hextra.2.1
  have hlt : i - 1 < s₁.targetStorage.length := by omega
  have hp := List.getElem?_eq_getElem hlt
  have hadd := (hreaches name i hextra _ name _).mpr
    ⟨(hbuilt _ _).mpr ((hslots i h1 hi _).mpr hp), rfl, rfl⟩
  rw [hadded] at hadd
  obtain ⟨e, he, p, hslot, hevent⟩ :=
    mem_targetLoopLogged_adds c (fun e he => (mem_additionEntries he).2) hadd
  injection hevent with hkey hpointer hname
  rw [← hkey] at hname hslot
  rw [← hpointer, ← hp] at hslot
  have hbracket := entryName_targetKey.mp hname.symm
  refine ⟨?_, hbracket, ?_⟩
  · -- the slots are different, so the index was counted down to that of the definition
    have hindex := (List.getElem?_inj hlt hnodup).mp hslot.symm
    have h256 : n ≤ 256 := h.bound.trans (by decide)
    rcases indexOf_targetKey hbracket h1 (hi.trans h256) with hzero | hnumber
    · omega
    · omega
  · rw [← isDefinition_targetKey name i, hother name i hextra]
    decide

theorem TargetEntries.indexOf_additions (h : TargetEntries n params)
    (hfirst : ∀ name i, ExtraEntry n params name i → i = 1 ∧ '[' ∉ name)
    {e : Str × Str} (he : e ∈ additionEntries params) : indexOf e.1 = 0 := by
  obtain ⟨hentry, -, hdefinition⟩ := mem_additionEntries he
  obtain ⟨hkey, hfamily, -⟩ := mem_targetEntries hentry
  obtain ⟨i, -, -, heq⟩ | ⟨name, i, h1, hi, hname, heq⟩ := h.entries e.1 hkey hfamily
  · rw [heq, isDefinition_definitionKey] at hdefinition
    cases hdefinition
  · obtain ⟨hone, hbracket⟩ := hfirst name i ⟨h1, hi, hname, heq ▸ hkey⟩
    rw [heq]
    rcases indexOf_targetKey hbracket h1 (hi.trans (h.bound.trans (by decide))) with hz | hindex
    · exact hz
    · omega

theorem TargetEntries.first (h : TargetEntries n params) (c : ArmConfiguration g)
    (hempty : s.targets = []) (hstorage : s.targetStorage = [])
    (hfirst : ∀ name i, ExtraEntry n params name i →
      i = 1 ∧ '[' ∉ name ∧ ¬ "defin".toList <+: name)
    {name : Str} {i : ℕ} (hextra : ExtraEntry n params name i) :
    Reaches c params (targetLoopLogged c params.toList s).log name i := by
  have hother : ∀ k j, ExtraEntry n params k j → isDefinition (targetKey k j) = false := by
    intro k j hkj
    have hnot := (hfirst k j hkj).2.2
    rw [← isDefinition_targetKey k j] at hnot
    simpa using hnot
  have hzero : ∀ e ∈ additionEntries params, indexOf e.1 = 0 := fun e he =>
    h.indexOf_additions (fun k j hkj => ⟨(hfirst k j hkj).1, (hfirst k j hkj).2.1⟩) he
  have hadds : ∀ e ∈ additionEntries params, AddsToTarget e.1 :=
    fun e he => (mem_additionEntries he).2
  obtain ⟨s₁, hrun, hbuilt, hadded⟩ := h.run c hempty
  obtain ⟨hplaced, hlength, -, hslots⟩ := h.slots c hempty hstorage hother hrun
  obtain ⟨hone, hbracket, -⟩ := hfirst name i hextra
  obtain ⟨h1, hi, -, hmem⟩ := id hextra
  have hentry := mk_mem_targetEntries hmem (take_targetKey name i)
  have hin : (targetKey name i, serverParameter params (targetKey name i)) ∈
      additionEntries params := List.mem_filter.mpr ⟨hentry, by simp [hother name i hextra]⟩
  intro p k line
  rw [hadded, hbuilt, hslots i h1 hi p]
  constructor
  · intro hadd
    obtain ⟨e, he, p', hslot, hevent⟩ := mem_targetLoopLogged_adds c hadds hadd
    injection hevent with hkey hpointer hname hline
    rw [hzero e he] at hslot
    rw [← hkey] at hname
    have hvalue := (mem_targetEntries (mem_additionEntries he).1).2.2
    refine ⟨?_, hname.trans (entryName_targetKey.mpr hbracket), ?_⟩
    · rw [hone, hpointer]
      exact hslot
    · rw [hline, hvalue, hkey]
  · rintro ⟨hp, rfl, rfl⟩
    have hadd := added_mem_targetLoopLogged c hadds hplaced
      (fun e he => by rw [hzero e he]; omega) hin
      (by rw [hzero _ hin]; rw [hone] at hp; exact hp)
    rw [entryName_targetKey.mpr hbracket] at hadd
    exact hadd

/-- The entries behind the definitions reach the targets that they name exactly when all of
them name the first, with names that no definition begins with. -/
theorem extra_entries_reach_iff (c : ArmConfiguration g) (h : TargetEntries n params)
    (hs : params.toList.foldlM sensorEntry (allocate (sensorCount params)) = some s) :
    (∀ name i, ExtraEntry n params name i →
      Reaches c params (targetLoopLogged c params.toList s).log name i) ↔
    ∀ name i, ExtraEntry n params name i → i = 1 ∧ '[' ∉ name ∧ ¬ "defin".toList <+: name := by
  obtain ⟨-, htargets, hstorage⟩ := foldlM_sensorEntry_kept hs
  constructor
  · intro hreaches name i
    exact h.only_first c htargets hstorage hreaches
  · intro hfirst name i
    exact h.first c htargets hstorage hfirst

end routing

def twoTargets (name : Str) (i : ℕ) : ParameterMap :=
  parametersWith [(definitionKey 1, "id:A".toList), (definitionKey 2, "id:B".toList),
    (targetKey name i, "x".toList)]

theorem mem_twoTargets {name key : Str} {i : ℕ} : key ∈ twoTargets name i ↔
    key = targetKey name i ∨ key = definitionKey 2 ∨ key = definitionKey 1 ∨
      key = "SENSOR_COUNT".toList ∨ key = "MOTOR_COUNT".toList := by
  simp only [twoTargets, parametersWith, List.foldl_cons, List.foldl_nil,
    Std.TreeMap.mem_insert, Std.LawfulEqCmp.compare_eq_iff_eq, Std.TreeMap.not_mem_emptyc,
    or_false, eq_comm (a := key)]

theorem targetEntries_twoTargets {name : Str} (hname : compare "definition".toList name = .lt)
    {i : ℕ} (h1 : 1 ≤ i) (h2 : i ≤ 2) : TargetEntries 2 (twoTargets name i) where
  bound := by decide
  definitions := by
    intro j hj1 hj2
    have hj : j = 1 ∨ j = 2 := by omega
    rw [mem_twoTargets]
    rcases hj with rfl | rfl <;> simp
  entries := by
    intro key hkey hfamily
    rcases mem_twoTargets.mp hkey with rfl | rfl | rfl | rfl | rfl
    · exact Or.inr ⟨name, i, h1, h2, hname, rfl⟩
    · exact Or.inl ⟨2, by decide, by decide, rfl⟩
    · exact Or.inl ⟨1, by decide, by decide, rfl⟩
    · exact absurd hfamily (by decide)
    · exact absurd hfamily (by decide)

theorem foldlM_sensorEntry_twoTargets (name : Str) (i : ℕ) :
    ∃ s, (twoTargets name i).toList.foldlM sensorEntry
      (allocate (sensorCount (twoTargets name i))) = some s := by
  have hnone : ∀ e ∈ (twoTargets name i).toList, e.1.take 3 ≠ "(s)".toList := by
    rw [forall_mem_toList_iff (twoTargets name i) fun key => key.take 3 ≠ "(s)".toList]
    intro key hkey
    rcases mem_twoTargets.mp hkey with rfl | rfl | rfl | rfl | rfl
    · rw [take_targetKey]
      decide
    all_goals decide
  have hstep : ∀ (s : SensorTable) (e : Str × Str), True → e.1.take 3 ≠ "(s)".toList →
      ∃ s', s.sensorEntry e = some s' ∧ True :=
    fun s e _ he => ⟨s, if_pos he, trivial⟩
  obtain ⟨s, hrun, -⟩ := foldlM_returns (P := fun _ => True) hstep trivial hnone
  exact ⟨s, hrun⟩

theorem extra_entries_reach_pattern :
    let params := twoTargets "pattern".toList 1
    let c := ArmConfiguration.construct (⟨0, 2, 1, 20000, 20000⟩ : ArmParameters ℝ) 0 0 0 0
    ∃ s, params.toList.foldlM sensorEntry (allocate (sensorCount params)) = some s ∧
      ((∀ name i, ExtraEntry 2 params name i →
        Reaches c params (targetLoopLogged c params.toList s).log name i) ↔
      ∀ name i, ExtraEntry 2 params name i →
        i = 1 ∧ '[' ∉ name ∧ ¬ "defin".toList <+: name) := by
  intro params c
  obtain ⟨s, hs⟩ := foldlM_sensorEntry_twoTargets "pattern".toList 1
  exact ⟨s, hs, extra_entries_reach_iff c
    (targetEntries_twoTargets (by decide) (by decide) (by decide)) hs⟩

theorem extra_entries_miss_second :
    let params := twoTargets "pattern".toList 2
    let c := ArmConfiguration.construct (⟨0, 2, 1, 20000, 20000⟩ : ArmParameters ℝ) 0 0 0 0
    TargetEntries 2 params ∧ ∃ s,
      params.toList.foldlM sensorEntry (allocate (sensorCount params)) = some s ∧
        ¬ ∀ name i, ExtraEntry 2 params name i →
          Reaches c params (targetLoopLogged c params.toList s).log name i := by
  intro params c
  have hentries : TargetEntries 2 params :=
    targetEntries_twoTargets (by decide) (by decide) (by decide)
  obtain ⟨s, hs⟩ := foldlM_sensorEntry_twoTargets "pattern".toList 2
  obtain ⟨-, htargets, hstorage⟩ := foldlM_sensorEntry_kept hs
  refine ⟨hentries, s, hs, fun hreaches => ?_⟩
  have hextra : ExtraEntry 2 params "pattern".toList 2 :=
    ⟨by decide, by decide, by decide, mem_twoTargets.mpr (Or.inl rfl)⟩
  have hone := (hentries.only_first c htargets hstorage hreaches hextra).1
  omega

end SensorTable
end Arm2D

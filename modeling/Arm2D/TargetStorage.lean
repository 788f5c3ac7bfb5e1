import Arm2D.IndexedEntries

/-! # How the definitions fill the storage

A definition that comes before those of lower slots pads the storage with pointers to
itself. When the definitions of all slots have come, in whatever order, each slot has been
overwritten with its own target. -/
namespace Arm2D
open Library

/-- The key of the definition that counts as number `i`. -/
def definitionKey (i : ℕ) : Str := "(t)definition[".toList ++ (decimal i ++ [']'])

theorem indexOf_bracket {name : Str} (hname : ∀ c ∈ name, c ≠ '[') (hnul : '\x00' ∉ name)
    {i : ℕ} (h1 : 1 ≤ i) (h256 : i ≤ 256) :
    indexOf (name ++ '[' :: (decimal i ++ [']'])) = i - 1 := by
  have hkey : '\x00' ∉ name ++ '[' :: (decimal i ++ [']']) := by
    have hdecimal : '\x00' ∉ decimal (i : ℤ) := notMem_decimal (by decide) (by decide) _
    simp [hnul, hdecimal]
  have hdrop : (name ++ '[' :: (decimal i ++ [']'])).dropWhile (· ≠ '[') =
      '[' :: (decimal i ++ [']']) := by
    rw [List.dropWhile_append_of_pos (by simpa using hname)]
    simp
  rw [indexOf, cStr_of_notMem hkey, hdrop]
  dsimp only
  rw [atoi_decimal (by omega) (by decide), if_pos (by omega)]
  omega

/-- The key of an entry of one of the families for number `i`. -/
def indexedKey (family name : Str) (i : ℕ) : Str := family ++ name ++ '[' :: (decimal i ++ [']'])

theorem bracket_notMem_index (i : ℕ) : '[' ∉ decimal i ++ [']'] := by
  simp [notMem_decimal (n := i) (show '[' ≠ '-' by decide) (by decide)]

section keys
variable {family name : Str}

theorem take_indexedKey (h : family.length = 3) (name : Str) (i : ℕ) :
    (indexedKey family name i).take 3 = family := by
  rw [indexedKey, List.append_assoc, ← h, List.take_left]

theorem entryName_indexedKey (h : family.length = 3) (hname : '[' ∉ name) (i : ℕ) :
    entryName (indexedKey family name i) = name := by
  have hfree : ∀ c ∈ name, decide (c ≠ '[') = true := by
    intro c hc
    exact decide_eq_true (ne_of_mem_of_not_mem hc hname)
  rw [entryName, indexedKey, List.append_assoc, ← h, List.drop_left,
    List.takeWhile_append_of_pos hfree]
  simp

theorem indexOf_indexedKey (hfamily : '[' ∉ family ∧ '\x00' ∉ family)
    (hname : '[' ∉ name ∧ '\x00' ∉ name) {i : ℕ} (h1 : 1 ≤ i) (h256 : i ≤ 256) :
    indexOf (indexedKey family name i) = i - 1 := by
  have hbracket : '[' ∉ family ++ name := by simp [hfamily.1, hname.1]
  exact indexOf_bracket (fun c hc => ne_of_mem_of_not_mem hc hbracket)
    (by simp [hfamily.2, hname.2]) h1 h256

theorem indexedKey_inj (hfamily : '[' ∉ family) (hname : '[' ∉ name) {name' : Str} {i i' : ℕ} :
    indexedKey family name' i' = indexedKey family name i ↔ name' = name ∧ i' = i := by
  constructor
  · intro h
    have hbefore : '[' ∉ family ++ name := by simp [hfamily, hname]
    obtain ⟨hnames, -, hindex⟩ :=
      (List.append_cons_inj_of_notMem hbefore (bracket_notMem_index i)).mp h.symm
    refine ⟨List.append_cancel_left hnames.symm, ?_⟩
    have hdecimal := decimal_injective (List.append_cancel_right hindex)
    omega
  · rintro ⟨rfl, rfl⟩
    rfl

end keys

theorem definitionKey_eq (i : ℕ) :
    definitionKey i = "(t)definition".toList ++ '[' :: (decimal i ++ [']']) := rfl

theorem indexOf_definitionKey {i : ℕ} (h1 : 1 ≤ i) (h256 : i ≤ 256) :
    indexOf (definitionKey i) = i - 1 := by
  rw [definitionKey_eq]
  exact indexOf_bracket (by simp) (by simp) h1 h256

theorem take_definitionKey (i : ℕ) : (definitionKey i).take 3 = "(t)".toList := rfl

theorem isDefinition_definitionKey (i : ℕ) : SensorTable.isDefinition (definitionKey i) = true :=
  rfl

namespace SensorTable

/-- After the definitions with these numbers, in this order: each has its own object, and
the pointer to it stands in its slot; the storage ends with the highest number. -/
structure Filled (line : ℕ → Str) (s₀ : SensorTable) (visited : List ℕ) (s : SensorTable) :
    Prop where
  sensorMap : s.sensorMap = s₀.sensorMap
  targets : s.targets =
    s₀.targets ++ visited.map fun i => DescribedTarget.construct s₀.sensorMap (line i)
  slots : ∀ i ∈ visited, s.targetStorage[i - 1]? = some (s₀.targets.length + visited.idxOf i)
  reached : ∀ i ∈ visited, i ≤ s.targetStorage.length
  last : s.targetStorage.length = 0 ∨ s.targetStorage.length ∈ visited

section definitions
variable {line : ℕ → Str} {s₀ s : SensorTable} {visited : List ℕ}

theorem filled_nil (line : ℕ → Str) (h : s₀.targetStorage = []) : Filled line s₀ [] s₀ where
  sensorMap := rfl
  targets := by simp
  slots := by simp
  reached := by simp
  last := by simp [h]

/-- A definition writes its pointer into its slot and pads up to it; the other slots stay. -/
theorem define_slots (s : SensorTable) (line : Str) :
    (s.define line).targetStorage[s.currentIndex]? = some s.targets.length ∧
      ∀ k < s.targetStorage.length, k ≠ s.currentIndex →
        (s.define line).targetStorage[k]? = s.targetStorage[k]? := by
  rw [define]
  dsimp only
  split_ifs with hle
  · constructor
    · rw [List.getElem?_append_right hle, List.getElem?_replicate]
      exact if_pos (by omega)
    · intro k hk _
      exact List.getElem?_append_left hk
  · constructor
    · exact List.getElem?_set_self (by omega)
    · intro k _ hne
      exact List.getElem?_set_ne (Ne.symm hne)

theorem Filled.define (hs : Filled line s₀ visited s) {i : ℕ} (hfresh : i ∉ visited)
    (hpos : ∀ j ∈ i :: visited, 1 ≤ j) (hindex : s.currentIndex = i - 1) :
    Filled line s₀ (visited ++ [i]) (s.define (line i)) := by
  have hi : 1 ≤ i := hpos i List.mem_cons_self
  obtain ⟨hown, hother⟩ := define_slots s (line i)
  have hlength := define_length s (line i)
  rw [hindex] at hown hother hlength
  constructor
  case sensorMap => exact hs.sensorMap
  case targets =>
    have htargets : (s.define (line i)).targets =
      s.targets ++ [DescribedTarget.construct s.sensorMap (line i)] := rfl
    rw [htargets, hs.targets, hs.sensorMap]
    simp
  case slots =>
    intro j hj
    rcases List.mem_append.mp hj with hj | hj
    · have hj1 : 1 ≤ j := hpos j (List.mem_cons_of_mem i hj)
      have hreached := hs.reached j hj
      have hne : j ≠ i := ne_of_mem_of_not_mem hj hfresh
      rw [hother (j - 1) (by omega) (by omega), hs.slots j hj, List.idxOf_append_of_mem hj]
    · have hji : j = i := List.mem_singleton.mp hj
      rw [hji, hown, List.idxOf_append_of_notMem hfresh, List.idxOf_cons_self, hs.targets]
      simp
  case reached =>
    intro j hj
    rcases List.mem_append.mp hj with hj | hj
    · have hreached := hs.reached j hj
      omega
    · have hji : j = i := List.mem_singleton.mp hj
      omega
  case last =>
    right
    rcases Nat.lt_or_ge s.targetStorage.length i with hlt | hge
    · have hlast : (s.define (line i)).targetStorage.length = i := by omega
      simp [hlast]
    · have hlast : (s.define (line i)).targetStorage.length = s.targetStorage.length := by omega
      rw [hlast]
      rcases hs.last with hzero | hmem
      · omega
      · exact List.mem_append_left _ hmem

theorem Filled.foldlM {R : Type} [Field R] [PiConstant R] {g : ArmParameters R}
    (c : ArmConfiguration g) (hs : Filled line s₀ visited s) {rest : List ℕ}
    (hnodup : (visited ++ rest).Nodup) (hrange : ∀ i ∈ visited ++ rest, 1 ≤ i ∧ i ≤ 256) :
    ∃ s', (rest.map fun i => (definitionKey i, line i)).foldlM (targetEntry c) s = some s' ∧
      Filled line s₀ (visited ++ rest) s' := by
  induction rest generalizing visited s with
  | nil => exact ⟨s, rfl, by simpa using hs⟩
  | cons i rest ih =>
    obtain ⟨h1, h256⟩ := hrange i (by simp)
    have hfresh : i ∉ visited := by
      intro hmem
      exact List.disjoint_of_nodup_append hnodup hmem List.mem_cons_self
    have hkey := take_definitionKey i
    have hset : Filled line s₀ visited (s.setCurrentIndex (definitionKey i)) := by
      obtain ⟨-, hmap, htargets, hstorage⟩ := s.setCurrentIndex_kept (definitionKey i)
      exact ⟨hmap.trans hs.sensorMap, htargets.trans hs.targets, by rw [hstorage]; exact hs.slots,
        by rw [hstorage]; exact hs.reached, by rw [hstorage]; exact hs.last⟩
    have hindex : (s.setCurrentIndex (definitionKey i)).currentIndex = i - 1 := by
      rw [s.setCurrentIndex_currentIndex hkey, indexOf_definitionKey h1 h256]
    have hpos : ∀ j ∈ i :: visited, 1 ≤ j := by
      intro j hj
      rcases List.mem_cons.mp hj with rfl | hj
      · exact h1
      · exact (hrange j (List.mem_append_left _ hj)).1
    have hstep := hset.define hfresh hpos hindex
    rw [List.append_cons] at hnodup hrange
    obtain ⟨s', hrun, hfilled⟩ := ih hstep hnodup hrange
    refine ⟨s', ?_, by simpa using hfilled⟩
    rw [List.map_cons, List.foldlM_cons, targetEntry, if_neg (not_not.mpr hkey),
      if_pos (isDefinition_definitionKey i)]
    exact hrun

theorem Filled.length_eq (hs : Filled line s₀ visited s) {n : ℕ}
    (hmem : ∀ i, i ∈ visited ↔ 1 ≤ i ∧ i ≤ n) : s.targetStorage.length = n := by
  have hle : s.targetStorage.length ≤ n := by
    rcases hs.last with hzero | hlast
    · omega
    · exact ((hmem _).mp hlast).2
  rcases Nat.eq_zero_or_pos n with hzero | hpos
  · omega
  · exact le_antisymm hle (hs.reached n ((hmem n).mpr ⟨hpos, le_rfl⟩))

theorem Filled.nodup (hs : Filled line s₀ visited s) {n : ℕ}
    (hmem : ∀ i, i ∈ visited ↔ 1 ≤ i ∧ i ≤ n) : s.targetStorage.Nodup := by
  have hlength := hs.length_eq hmem
  have hslot : ∀ k < n, s.targetStorage[k]? =
      some (s₀.targets.length + visited.idxOf (k + 1)) := by
    intro k hk
    exact hs.slots (k + 1) ((hmem _).mpr ⟨by omega, by omega⟩)
  rw [List.nodup_iff_getElem?_ne_getElem?]
  intro k l hkl hl heq
  rw [hlength] at hl
  rw [hslot k (by omega), hslot l hl, Option.some_inj, Nat.add_left_cancel_iff] at heq
  have hsame : k + 1 = l + 1 := (List.idxOf_inj ((hmem _).mpr ⟨by omega, by omega⟩)).mp heq
  omega

theorem Filled.slot (hs : Filled line s₀ visited s) {i : ℕ} (hi : i ∈ visited) :
    (s.targetStorage[i - 1]?).bind (fun pointer => s.targets[pointer]?) =
      some (DescribedTarget.construct s₀.sensorMap (line i)) := by
  rw [hs.slots i hi, Option.bind_some, hs.targets,
    List.getElem?_append_right (Nat.le_add_right _ _), Nat.add_sub_cancel_left,
    List.getElem?_map, List.getElem?_idxOf hi, Option.map_some]

theorem foldlM_filter_targetEntry {R : Type} [Field R] [PiConstant R] {g : ArmParameters R}
    (c : ArmConfiguration g) (entries : List (Str × Str)) (s : SensorTable) :
    (entries.filter fun e => e.1.take 3 = "(t)".toList).foldlM (targetEntry c) s =
      entries.foldlM (targetEntry c) s := by
  induction entries generalizing s with
  | nil => rfl
  | cons e entries ih =>
    by_cases hfamily : e.1.take 3 = "(t)".toList
    · rw [List.filter_cons_of_pos (by simpa using hfamily), List.foldlM_cons, List.foldlM_cons]
      exact bind_congr fun t => ih t
    · have hstep : targetEntry c s e = some s := by
        rw [targetEntry]
        exact if_pos hfamily
      rw [List.filter_cons_of_neg (by simpa using hfamily), List.foldlM_cons, hstep]
      exact ih s

/-- The definitions of the slots 1 to `n` fill the storage in any order, whatever other
entries come between them. -/
theorem definitions_fill_storage {R : Type} [Field R] [PiConstant R] {g : ArmParameters R}
    (c : ArmConfiguration g) {n : ℕ} (hn : n ≤ 256) {order : List ℕ}
    (horder : order.Perm (List.range' 1 n)) (line : ℕ → Str) {entries : List (Str × Str)}
    (hentries : entries.filter (fun e => e.1.take 3 = "(t)".toList) =
      order.map fun i => (definitionKey i, line i)) {s : SensorTable}
    (hempty : s.targetStorage = []) :
    ∃ s', entries.foldlM (targetEntry c) s = some s' ∧ s'.targetStorage.length = n ∧
      s'.targetStorage.Nodup ∧
        ∀ i, 1 ≤ i → i ≤ n → (s'.targetStorage[i - 1]?).bind (fun pointer => s'.targets[pointer]?) =
          some (DescribedTarget.construct s.sensorMap (line i)) := by
  have hmem : ∀ i, i ∈ order ↔ 1 ≤ i ∧ i ≤ n := by
    intro i
    rw [horder.mem_iff, List.mem_range'_1]
    omega
  have hnodup : order.Nodup := horder.nodup_iff.mpr List.nodup_range'
  obtain ⟨s', hrun, hfilled⟩ := (filled_nil line hempty).foldlM c (by simpa using hnodup)
    (by simp only [List.nil_append, hmem]; omega)
  rw [List.nil_append] at hfilled
  rw [← hentries, foldlM_filter_targetEntry] at hrun
  exact ⟨s', hrun, hfilled.length_eq hmem, hfilled.nodup hmem,
    fun i h1 hle => hfilled.slot ((hmem i).mpr ⟨h1, hle⟩)⟩

theorem definitions_fill_storage_ten :
    let c := ArmConfiguration.construct (⟨0, 2, 1, 20000, 20000⟩ : ArmParameters ℝ) 0 0 0 0
    let line := fun i : ℕ => "id:".toList ++ decimal i
    let s := allocate 1
    ∃ s', ([1, 10, 2, 3, 4, 5, 6, 7, 8, 9].map fun i => (definitionKey i, line i)).foldlM
        (targetEntry c) s = some s' ∧ s'.targetStorage.length = 10 ∧ s'.targetStorage.Nodup ∧
          ∀ i, 1 ≤ i → i ≤ 10 →
            (s'.targetStorage[i - 1]?).bind (fun pointer => s'.targets[pointer]?) =
              some (DescribedTarget.construct s.sensorMap (line i)) := by
  intro c line s
  have horder : [1, 10, 2, 3, 4, 5, 6, 7, 8, 9].Perm (List.range' 1 10) := by decide
  apply definitions_fill_storage c (by decide) horder line _ rfl
  apply List.filter_eq_self.mpr
  intro e he
  obtain ⟨i, -, rfl⟩ := List.mem_map.mp he
  exact decide_eq_true (take_definitionKey i)

end definitions
end SensorTable

end Arm2D

import Arm2D.Numerals
import Arm2D.WriterThread

/-! # What the camera reports

A report gives the place of a pattern as a pair, its rotation in degrees, and how well it
matches. `data_test` finds the fields by their commas and parentheses. -/
namespace Arm2D
open Library Target

structure Report where
  x : Numeral
  y : Numeral
  rotation : Numeral
  percent : Numeral

namespace Report

def pair (r : Report) : Str := r.x.text ++ ',' :: r.y.text

def rest (r : Report) : Str := r.rotation.text ++ ',' :: r.percent.text

/-- The data of the report's record. -/
def text (r : Report) : Str := '(' :: (r.pair ++ ')' :: ',' :: r.rest)

end Report

theorem hasEmptyField_iff (s : Str) : hasEmptyField s = true ↔ [',', ','] <:+: s := by
  fun_induction hasEmptyField s with
  | case1 s => simp [List.infix_cons_iff]
  | case2 c s hnot ih =>
    rw [ih, List.infix_cons_iff, or_iff_right]
    rintro ⟨t, ht⟩
    obtain ⟨rfl, rfl⟩ := List.cons.inj ht
    exact hnot t rfl rfl
  | case3 => simp

section fields
variable (r : Report)

theorem comma_notMem_text (n : Numeral) : ',' ∉ n.text :=
  n.notMem_text (by decide) (by decide) (by decide) (by decide)

theorem head?_text (n : Numeral) (s : Str) : (n.text ++ s).head? ≠ some ',' := by
  rw [List.head?_append_of_ne_nil _ n.text_ne_nil]
  exact fun h => comma_notMem_text n (List.mem_of_head? h)

theorem nul_notMem_report : '\x00' ∉ r.text := by
  simp [Report.text, Report.pair, Report.rest, Numeral.nul_notMem_text]

theorem hasEmptyField_report : hasEmptyField (cStr r.text) = false := by
  have hx : ',' ∉ '(' :: r.x.text := by simp [comma_notMem_text]
  have hy : ',' ∉ r.y.text ++ [')'] := by simp [comma_notMem_text]
  have htext : r.text = ('(' :: r.x.text) ++ ',' :: ((r.y.text ++ [')']) ++
      ',' :: (r.rotation.text ++ ',' :: r.percent.text)) := by
    simp [Report.text, Report.pair, Report.rest]
  have hpercent : hasEmptyField r.percent.text = false := by
    have happend := hasEmptyField_append (comma_notMem_text r.percent) []
    rwa [List.append_nil] at happend
  rw [cStr_of_notMem (nul_notMem_report r), htext, hasEmptyField_append hx,
    hasEmptyField_comma (by rw [List.append_assoc]; exact head?_text _ _),
    hasEmptyField_append hy, hasEmptyField_comma (head?_text _ _),
    hasEmptyField_append (comma_notMem_text _),
    hasEmptyField_comma (by simpa using head?_text r.percent []), hpercent]

theorem substr_pair :
    substr r.text (posAfter (find ['('] r.text 0)) (posBefore (find [')'] r.text 0)) =
      some r.pair := by
  have hclose : ')' ∉ '(' :: r.pair := by
    have hnumeral : ∀ n : Numeral, ')' ∉ n.text := fun n =>
      n.notMem_text (by decide) (by decide) (by decide) (by decide)
    simp [Report.pair, hnumeral]
  have hfirst : find ['('] r.text 0 = some 0 := by simp [find, findFirst, Report.text]
  have hsecond : find [')'] r.text 0 = some (r.pair.length + 1) := by
    have hfind := find_append [] hclose (',' :: r.rest)
    simpa [Report.text] using hfind
  rw [hfirst, hsecond, substr_isSome (by simp [posAfter, Report.text])]
  simp [posAfter, posBefore, Report.text]

theorem find_comma_pair : find [','] r.pair 0 = some r.x.text.length := by
  simpa [Report.pair] using find_append [] (comma_notMem_text r.x) r.y.text

theorem substr_x : substr r.pair 0 (find [','] r.pair 0) = some r.x.text := by
  rw [find_comma_pair, substr_isSome (Nat.zero_le _)]
  simp [Report.pair]

theorem substr_y : substr r.pair (posAfter (find [','] r.pair 0)) none = some r.y.text := by
  rw [find_comma_pair, substr_npos (by simp [posAfter, Report.pair])]
  simp [posAfter, Report.pair]

theorem substr_rest :
    substr r.text (posAfter (find [','] r.text (posAfter (find [','] r.text 0)))) none =
      some r.rest := by
  have hx : ',' ∉ '(' :: r.x.text := by simp [comma_notMem_text]
  have hy : ',' ∉ r.y.text ++ [')'] := by simp [comma_notMem_text]
  have htext : r.text = ('(' :: r.x.text) ++ ',' :: ((r.y.text ++ [')']) ++ ',' :: r.rest) := by
    simp [Report.text, Report.pair]
  have hfirst : find [','] r.text 0 = some ('(' :: r.x.text).length := by
    rw [htext]
    simpa using find_append [] hx _
  have hsecond : find [','] r.text (('(' :: r.x.text).length + 1) =
      some (('(' :: r.x.text).length + 1 + (r.y.text ++ [')']).length) := by
    have hfind := find_append (('(' :: r.x.text) ++ [',']) hy r.rest
    rw [htext]
    simpa using hfind
  have hwhole : r.text = ('(' :: r.x.text ++ ',' :: (r.y.text ++ [')', ','])) ++ r.rest := by
    simp [htext]
  rw [hfirst, posAfter, hsecond, posAfter, hwhole, substr_npos (by simp; omega),
    List.drop_left' (by simp; omega)]

theorem splitString_rest :
    splitString r.rest ',' = (r.rotation.text, r.percent.text) := by
  apply splitString_append (by decide) (comma_notMem_text _)
  · simp [Numeral.nul_notMem_text]
  · have htrimmed := trimmed_append r.rotation.text_ne_nil r.percent.text_ne_nil
      r.rotation.trimmed_text r.percent.trimmed_text [',']
    rwa [List.append_assoc] at htrimmed

end fields

variable {R : Type} [Field R] [PiConstant R]

theorem dataTest_report (t : Target R) (r : Report) :
    ∃ t', t.dataTest r.text = some t' ∧ t'.targetPresent = true ∧ t'.fovX = r.x.value ∧
      t'.fovY = r.y.value ∧ t'.fovTheta = r.rotation.value * PI / 180 ∧
      t'.fovMatch = r.percent.value := by
  rw [dataTest, if_neg (by rw [hasEmptyField_report]; exact Bool.false_ne_true)]
  simp only [substr_pair, substr_x, substr_y, substr_rest, splitString_rest, Numeral.atof_text,
    Option.bind_eq_bind, Option.bind_some, Option.pure_def]
  exact ⟨_, rfl, rfl, rfl, rfl, div_mul_eq_mul_div _ _ _, rfl⟩

theorem emitRecord_eq (ts : Targets R) {key : Str} (hkey : ',' ∉ key) (data : Str) :
    WriterThread.emitRecord ts (key ++ ',' :: data) = emitToTarget ts key data := by
  have hfind : find [','] (key ++ ',' :: data) 0 = some key.length := by
    simpa using find_append [] hkey data
  rw [WriterThread.emitRecord, hfind, posAfter, substr_isSome (Nat.zero_le _),
    substr_npos (by simp)]
  simp

/-- A report decides what the target registered under its identifier measures, whatever the
lengths of its numerals. Two consecutive commas, in what the scan sees of the data, take the
target away and measure nothing. -/
theorem emitRecord_decodes (ts : Targets R) {id : Str} (hid : ',' ∉ id) :
    (∀ (r : Report) (i : ℕ), ts.targetMap id = some i →
      ∃ ts', WriterThread.emitRecord ts (id ++ ',' :: r.text) = some ts' ∧
        (ts'.heap i).targetPresent = true ∧ (ts'.heap i).fovX = r.x.value ∧
        (ts'.heap i).fovY = r.y.value ∧ (ts'.heap i).fovTheta = r.rotation.value * PI / 180 ∧
        (ts'.heap i).fovMatch = r.percent.value ∧ ∀ j ≠ i, ts'.heap j = ts.heap j) ∧
    ∀ data, [',', ','] <:+: cStr data →
      ∃ ts', WriterThread.emitRecord ts (id ++ ',' :: data) = some ts' ∧
        (∀ i ∈ ts.targetMap id, ts'.heap i = { ts.heap i with targetPresent := false }) ∧
        ∀ j ∉ ts.targetMap id, ts'.heap j = ts.heap j := by
  constructor
  · intro r i hi
    obtain ⟨t', ht, hfields⟩ := dataTest_report (ts.heap i) r
    rw [emitRecord_eq ts hid, emitToTarget, hi]
    dsimp only
    rw [ht]
    refine ⟨_, rfl, ?_⟩
    simp only [Function.update_self, ← and_assoc] at hfields ⊢
    exact ⟨hfields, fun j hj => Function.update_of_ne hj _ _⟩
  · intro data hempty
    rw [emitRecord_eq ts hid, emitToTarget]
    cases hi : ts.targetMap id with
    | none => exact ⟨ts, rfl, by simp, fun _ _ => rfl⟩
    | some i =>
      dsimp only
      rw [dataTest_of_hasEmptyField _ ((hasEmptyField_iff _).mpr hempty)]
      refine ⟨_, rfl, ?_, ?_⟩
      · intro k hk
        obtain rfl := Option.some.inj hk
        exact Function.update_self _ _ _
      · intro j hj
        exact Function.update_of_ne (fun h => hj (by rw [h]; rfl)) _ _

noncomputable def twoTargets : Targets ℝ :=
  ⟨fun _ => ⟨none, fun _ => none, false, 0, 0, 0, 0, 0, 0⟩,
    fun key => if key = "MT_A".toList then some 0 else none, fun _ => none⟩

theorem emitRecord_decodes_sample :
    ∃ ts', WriterThread.emitRecord twoTargets "MT_A,(-12.5,7),90,80".toList = some ts' ∧
      (ts'.heap 0).targetPresent = true ∧ (ts'.heap 0).fovX = -25 / 2 ∧
      (ts'.heap 0).fovTheta = Real.pi / 2 ∧ ts'.heap 1 = twoTargets.heap 1 := by
  have hregistered : twoTargets.targetMap "MT_A".toList = some 0 := by
    simp [twoTargets]
  have hid : ',' ∉ "MT_A".toList := by decide
  let x : Numeral :=
    ⟨.minus, ['1', '2'], some ['5'], by simp, by simp [Char.isDigit], by simp [Char.isDigit]⟩
  obtain ⟨ts', hemit, hpresent, hx, -, htheta, -, hothers⟩ := (emitRecord_decodes twoTargets hid).1
    ⟨x, Numeral.ofInt 7, Numeral.ofInt 90, Numeral.ofInt 80⟩ 0 hregistered
  have hxvalue : x.value = -25 / 2 := by decide +kernel
  refine ⟨ts', ?_, hpresent, ?_, ?_, hothers 1 one_ne_zero⟩
  · rw [← hemit]
    rfl
  · rw [hx, hxvalue]
    norm_num
  · rw [htheta, Numeral.ofInt_value, pi_real]
    push_cast
    ring

theorem absent_behind_nul :
    let data := "\x00,,".toList
    [',', ','] <:+: data ∧
    ∃ ts', WriterThread.emitRecord twoTargets ("MT_A".toList ++ ',' :: data) = some ts' ∧
      (ts'.heap 0).targetPresent = true := by
  intro data
  have hregistered : twoTargets.targetMap "MT_A".toList = some 0 := by
    simp [twoTargets]
  obtain ⟨ts', hemit, hpresent⟩ := emitToTarget_targetPresent twoTargets data hregistered
  refine ⟨by decide, ts', ?_, hpresent⟩
  rw [emitRecord_eq twoTargets (by decide), hemit]

end Arm2D

import Arm2D.ChunkLosses

/-! # Empty fields of the camera's records

An empty field says that the pattern is absent. It reaches `data_test` when no chunk ends
behind it and it is not the first field of its record. A chunk also loses what stands
behind a NUL, and the white space before its first token. -/
namespace Arm2D
open Library Target

/-- A record of the camera: a header token and its fields. -/
structure Record where
  header : Token
  fields : List Token
  isHeader : header.header = true
  noHeader : ∀ t ∈ fields, t.header = false

namespace Record

def tokens (r : Record) : List Token := r.header :: r.fields

def text (r : Record) : Str := joined r.tokens

theorem isRecord_tokens (r : Record) : IsRecord Token.header r.tokens :=
  ⟨r.header, r.fields, rfl, r.isHeader, r.noHeader⟩

def stream (records : List Record) : List Token := (records.map tokens).flatten

theorem isRecord_of_mem {records : List Record} :
    ∀ r ∈ records.map tokens, IsRecord Token.header r := by
  intro r hr
  obtain ⟨r', -, rfl⟩ := List.mem_map.mp hr
  exact r'.isRecord_tokens

theorem segments_stream (records : List Record) :
    segments Token.header (stream records) = (records.map tokens).dropLast :=
  segments_records _ isRecord_of_mem

end Record

structure Cut (s : List Token) where
  chunks : List (List Token)
  ne_nil : ∀ c ∈ chunks, c ≠ []
  flatten_eq : chunks.flatten = s

namespace Cut
variable {s : List Token}

/-- What `wait_on_data` returns, read by read. -/
def texts (c : Cut s) : List Str := chunkTexts c.chunks

def whole (s : List Token) (hs : s ≠ []) : Cut s where
  chunks := [s]
  ne_nil := by simpa using hs
  flatten_eq := by simp

end Cut

theorem hasEmptyField_joined (ts : List Token) :
    hasEmptyField (joined ts) = ts.tail.dropLast.any Token.empty := by
  induction ts with
  | nil => rfl
  | cons t ts ih =>
    cases ts with
    | nil =>
      rw [joined_singleton, ← List.append_nil t.text, hasEmptyField_append t.comma]
      rfl
    | cons u ts =>
      rw [joined_cons_cons, hasEmptyField_append t.comma, List.tail_cons]
      cases hu : u.empty with
      | true =>
        have hnil := Token.text_of_empty hu
        cases ts with
        | nil =>
          rw [joined_singleton, hnil]
          rfl
        | cons v ts =>
          rw [joined_cons_cons, hnil, List.nil_append, hasEmptyField_comma_comma,
            List.dropLast_cons_cons, List.any_cons, hu, Bool.true_or]
      | false =>
        have hhead : (joined (u :: ts)).head? ≠ some ',' := by
          obtain ⟨c, l, hc⟩ := List.exists_cons_of_ne_nil (List.isEmpty_eq_false_iff.mp hu)
          have hcomma : c ≠ ',' := by
            rintro rfl
            exact u.comma (hc ▸ List.mem_cons_self)
          cases ts with
          | nil => simpa [hc] using hcomma
          | cons v ts => simpa [joined_cons_cons, hc] using hcomma
        rw [hasEmptyField_comma hhead, ih, List.tail_cons]
        cases ts with
        | nil => rfl
        | cons v ts => rw [List.dropLast_cons_cons, List.any_cons, hu, Bool.false_or]

section targets
variable {R : Type} [Field R] [PiConstant R]

theorem emitRecord_text (ts : Targets R) (r : Record) (h : r.fields ≠ []) :
    WriterThread.emitRecord ts r.text = emitToTarget ts r.header.text (joined r.fields) := by
  obtain ⟨u, fields, hfields⟩ := List.exists_cons_of_ne_nil h
  have htext : r.text = r.header.text ++ ',' :: joined r.fields := by
    rw [Record.text, Record.tokens, hfields, joined_cons_cons]
  have hfind : find [','] r.text 0 = some r.header.text.length := by
    rw [htext, r.header.find_comma]
  have hkey : substr r.text 0 (some r.header.text.length) = some r.header.text := by
    rw [substr_isSome (Nat.zero_le _), htext]
    simp
  have hdata : substr r.text (r.header.text.length + 1) none = some (joined r.fields) := by
    rw [htext, substr_isSome (by simp)]
    simp
    omega
  rw [WriterThread.emitRecord, hfind, hkey, posAfter, hdata]
  rfl

theorem emitRecord_targetPresent (ts : Targets R) (r : Record) (h : r.fields ≠ [])
    (hnul : ∀ t ∈ r.fields, '\x00' ∉ t.text) {i : ℕ} (hi : ts.targetMap r.header.text = some i) :
    ∃ ts', WriterThread.emitRecord ts r.text = some ts' ∧
      (ts'.heap i).targetPresent = !r.fields.tail.dropLast.any Token.empty := by
  obtain ⟨ts', hts, hpresent⟩ := emitToTarget_targetPresent ts (joined r.fields) hi
  rw [cStr_of_notMem (nul_notMem_joined hnul), hasEmptyField_joined] at hpresent
  exact ⟨ts', (emitRecord_text ts r h).trans hts, hpresent⟩

variable (R) in
/-- Whether every target sees the empty fields of a record: not when the only one is its
first, of whose two commas `emit_record` takes the first. -/
theorem absent_iff (r : Record) (hnul : ∀ t ∈ r.fields, '\x00' ∉ t.text) :
    (hasEmptyField r.text = true → ∀ (ts : Targets R) (i : ℕ),
      ts.targetMap r.header.text = some i →
        ∃ ts', WriterThread.emitRecord ts r.text = some ts' ∧
          (ts'.heap i).targetPresent = false) ↔
      (r.fields.dropLast.any Token.empty = true →
        r.fields.tail.dropLast.any Token.empty = true) := by
  have htext : hasEmptyField r.text = r.fields.dropLast.any Token.empty :=
    hasEmptyField_joined r.tokens
  have hne : r.fields.dropLast.any Token.empty = true → r.fields ≠ [] := by
    rintro h hnil
    rw [hnil] at h
    exact Bool.noConfusion h
  rw [htext]
  constructor
  · intro h hempty
    let ts : Targets R := ⟨fun _ => ⟨none, fun _ => none, false, 0, 0, 0, 0, 0, 0⟩,
      fun _ => some 0, fun _ => none⟩
    obtain ⟨ts', hts, hpresent⟩ := h hempty ts 0 rfl
    obtain ⟨ts'', hts', hpresent'⟩ := @emitRecord_targetPresent _ _ _ ts r (hne hempty) hnul 0 rfl
    rw [hts, Option.some.injEq] at hts'
    rw [← hts', hpresent] at hpresent'
    simpa using hpresent'.symm
  · intro h hempty ts i hi
    obtain ⟨ts', hts, hpresent⟩ := emitRecord_targetPresent ts r (hne hempty) hnul hi
    rw [h hempty] at hpresent
    exact ⟨ts', hts, hpresent⟩

end targets

theorem Record.nul_notMem_text (r : Record) :
    '\x00' ∉ r.text ↔ ∀ t ∈ r.tokens, '\x00' ∉ t.text :=
  ⟨fun h _ ht hc => h (mem_joined_of_mem ht hc), nul_notMem_joined⟩

namespace WriterThread

theorem nul_notMem_of_run_texts {records : List Record} {c : Cut (Record.stream records)}
    (h : (run construct c.texts).log = records.dropLast.map Record.text) :
    ∀ r ∈ records.dropLast, '\x00' ∉ r.text := by
  intro r hr
  have hemitted : r.text ∈ (run construct c.texts).log := h ▸ List.mem_map_of_mem hr
  rw [Cut.texts, run_emits c.ne_nil] at hemitted
  obtain ⟨s, hs, htext⟩ := List.mem_map.mp hemitted
  rw [← htext]
  exact nul_notMem_joined fun t ht =>
    nul_notMem_arrivals c.chunks t (mem_of_mem_segments hs ht)

/-- The records come out as they were sent exactly when the cuts are clean, where none of them has
a NUL. -/
theorem run_texts_iff (records : List Record) (c : Cut (Record.stream records))
    (hnul : ∀ r ∈ records.dropLast, '\x00' ∉ r.text) :
    (run construct c.texts).log = records.dropLast.map Record.text ↔ CleanCuts c.chunks := by
  obtain ⟨chunks, hne, hflat⟩ := c
  change (run construct (chunkTexts chunks)).log = _ ↔ CleanCuts chunks
  rcases List.eq_nil_or_concat records with rfl | ⟨front, r, rfl⟩
  · cases chunks with
    | nil => exact iff_of_true rfl trivial
    | cons d chunks =>
      have hd := hne d List.mem_cons_self
      simp [Record.stream, hd] at hflat
  rw [List.concat_eq_append] at hflat hnul ⊢
  rw [List.dropLast_concat] at hnul ⊢
  have hstream : Record.stream (front ++ [r]) = Record.stream front ++ r.header :: r.fields := by
    simp [Record.stream, Record.tokens]
  have hfirst : ∀ t ∈ (Record.stream front ++ [r.header]).head?, t.header = true := by
    intro t ht
    cases front with
    | nil => exact Option.some.inj ht ▸ r.isHeader
    | cons q front => exact Option.some.inj ht ▸ q.isHeader
  have hfront : ∀ t ∈ Record.stream front, '\x00' ∉ t.text := by
    intro t ht
    obtain ⟨ts, hts, ht⟩ := List.mem_flatten.mp ht
    obtain ⟨q, hq, rfl⟩ := List.mem_map.mp hts
    exact q.nul_notMem_text.mp (hnul q hq) t ht
  have hback : r.fields.any Token.header = false := by
    simpa [List.any_eq_false] using r.noHeader
  have hsegments := Record.segments_stream (front ++ [r])
  rw [List.map_append, List.map_singleton, List.dropLast_concat, hstream] at hsegments
  rw [← segments_arrivals_iff hne hfirst r.isHeader hback (hflat.trans hstream) hfront,
    hsegments, run_emits hne]
  constructor
  · intro h
    refine map_joined_inj (feed_ne_nil (by simp) _).2 (fun s hs => ?_) ?_
    · obtain ⟨q, -, rfl⟩ := List.mem_map.mp hs
      exact List.cons_ne_nil _ _
    · rw [h, List.map_map]
      rfl
  · intro h
    rw [h, List.map_map]
    rfl

end WriterThread

/-- What the reader owes the camera: the same records through any chunks, with every empty
field, and no target present after a record that has one. -/
structure EmptyFieldsKept (R : Type) [Field R] [PiConstant R] (records : List Record)
    (c : Cut (Record.stream records)) : Prop where
  asWhole : (WriterThread.run .construct c.texts).log =
    (WriterThread.run .construct [joined (Record.stream records)]).log
  kept : (WriterThread.run .construct c.texts).log = records.dropLast.map Record.text
  absent : ∀ r ∈ records.dropLast, Target.hasEmptyField r.text = true →
    ∀ (ts : Targets R) (i : ℕ), ts.targetMap r.header.text = some i →
      ∃ ts', WriterThread.emitRecord ts r.text = some ts' ∧ (ts'.heap i).targetPresent = false

/-- No record but the last may have a NUL, the cuts are clean, and of the fields in front of a
record's last one the first is not the only empty one. -/
theorem emptyFieldsKept_iff (R : Type) [Field R] [PiConstant R] (records : List Record)
    (c : Cut (Record.stream records)) :
    EmptyFieldsKept R records c ↔
      (∀ r ∈ records.dropLast, '\x00' ∉ r.text) ∧ CleanCuts c.chunks ∧
        ∀ r ∈ records.dropLast, r.fields.dropLast.any Token.empty = true →
          r.fields.tail.dropLast.any Token.empty = true := by
  have hfields : ∀ r ∈ records.dropLast, '\x00' ∉ r.text → ∀ t ∈ r.fields, '\x00' ∉ t.text :=
    fun r _ hnul t ht => r.nul_notMem_text.mp hnul t (List.mem_cons_of_mem _ ht)
  constructor
  · rintro ⟨-, hkept, habsent⟩
    have hnul := WriterThread.nul_notMem_of_run_texts hkept
    exact ⟨hnul, (WriterThread.run_texts_iff records c hnul).mp hkept,
      fun r hr => (absent_iff R r (hfields r hr (hnul r hr))).mp (habsent r hr)⟩
  · rintro ⟨hnul, hclean, hempty⟩
    have hkept := (WriterThread.run_texts_iff records c hnul).mpr hclean
    refine ⟨?_, hkept, fun r hr => (absent_iff R r (hfields r hr (hnul r hr))).mpr (hempty r hr)⟩
    rw [hkept]
    cases records with
    | nil => rfl
    | cons r records =>
      have hs : Record.stream (r :: records) ≠ [] := by simp [Record.stream, Record.tokens]
      have hwhole : CleanCuts (Cut.whole _ hs).chunks := by
        refine ⟨⟨fun t ht _ => ?_, fun t ht _ => ?_, fun h => by cases h⟩, trivial⟩
        · obtain rfl := Option.some.inj ht
          exact Token.indented_of_header r.isHeader
        · obtain rfl := Option.some.inj ht
          rw [r.isHeader, Token.isHeader_trimString_of_header r.isHeader]
      exact ((WriterThread.run_texts_iff _ (Cut.whole _ hs) hnul).mpr hwhole).symm

/-- `MT_A,1,,2`: the field before the last is empty. -/
def absentPattern : Record where
  header := ⟨"MT_A".toList, by decide⟩
  fields := [⟨['1'], by decide⟩,
    ⟨[], by decide⟩,
    ⟨['2'], by decide⟩]
  isHeader := by decide
  noHeader := by decide

/-- `MT_A,1,2`. -/
def presentPattern : Record where
  header := absentPattern.header
  fields := absentPattern.fields.eraseIdx 1
  isHeader := absentPattern.isHeader
  noHeader := by decide

/-- `MT_B,3`. -/
def nextPattern : Record where
  header := ⟨"MT_B".toList, by decide⟩
  fields := [⟨['3'], by decide⟩]
  isHeader := by decide
  noHeader := by decide

/-- The stream `MT_A,1,,2,MT_B,3`, cut behind the empty field. -/
def cutBehindEmptyField : Cut (Record.stream [absentPattern, nextPattern]) where
  chunks := [absentPattern.tokens.take 3, absentPattern.tokens.drop 3 ++ nextPattern.tokens]
  ne_nil := by simp [Record.tokens]
  flatten_eq := rfl

theorem absent_pattern_present :
    cutBehindEmptyField.texts = ["MT_A,1,,".toList, "2,MT_B,3".toList] ∧
      (WriterThread.run .construct cutBehindEmptyField.texts).log = ["MT_A,1,2".toList] ∧
      (∀ (ts : Targets ℝ) (i : ℕ), ts.targetMap "MT_A".toList = some i →
        ∃ ts', WriterThread.emitRecord ts "MT_A,1,2".toList = some ts' ∧
          (ts'.heap i).targetPresent = true) ∧
      ¬ EmptyFieldsKept ℝ [absentPattern, nextPattern] cutBehindEmptyField := by
  have hlog : (WriterThread.run .construct cutBehindEmptyField.texts).log =
      ["MT_A,1,2".toList] := by
    rw [Cut.texts, WriterThread.run_emits cutBehindEmptyField.ne_nil]
    decide +kernel
  refine ⟨by decide, hlog, fun ts i hi => ?_, fun h => ?_⟩
  · exact emitRecord_targetPresent ts presentPattern (by decide) (by decide) hi
  · have hkept := h.kept
    rw [hlog] at hkept
    exact absurd hkept (by decide)

end Arm2D

import Arm2D.CameraStream

/-! # What the chunks of a stream lose

In front of its last header a stream arrives whole exactly when no NUL stands there, no chunk
begins with white space and none ends with an empty token. Behind it only a token that
becomes a header by trimming does harm. -/
namespace Arm2D
open Library

theorem isspace_of_isalpha {c : Char} (h : isalpha c = true) : isspace c = false := by
  by_contra hspace
  simp only [isspace, Bool.not_eq_false, Bool.or_eq_true, decide_eq_true_eq] at hspace
  rcases hspace with ((((rfl | rfl) | rfl) | rfl) | rfl) | rfl <;> exact absurd h (by decide)

namespace WriterThread

theorem exists_of_isHeader {s : Str} (h : isHeader s = true) :
    ∃ a b r, s = a :: b :: '_' :: r ∧ isalpha a = true ∧ isalpha b = true := by
  unfold isHeader at h
  split at h
  · rename_i a b c r
    simp only [Bool.and_eq_true, decide_eq_true_eq] at h
    obtain ⟨⟨ha, hb⟩, rfl⟩ := h
    exact ⟨a, b, r, rfl, ha, hb⟩
  · cases h

theorem isHeader_extend {s t : Str} (h : s <+: t) (hs : isHeader s = true) :
    isHeader t = true := by
  obtain ⟨a, b, r, rfl, ha, hb⟩ := exists_of_isHeader hs
  obtain ⟨u, rfl⟩ := h
  simp [isHeader, ha, hb]

theorem isHeader_cStr (s : Str) : isHeader (cStr s) = isHeader s := by
  rw [Bool.eq_iff_iff]
  refine ⟨isHeader_extend (List.takeWhile_prefix _), fun h => ?_⟩
  obtain ⟨a, b, r, rfl, ha, hb⟩ := exists_of_isHeader h
  have hne : ∀ c, isalpha c = true → c ≠ '\x00' := by
    rintro c hc rfl
    exact absurd hc (by decide)
  simp [cStr, hne a ha, hne b hb, isHeader, ha, hb]

theorem isHeader_rdropWhile (s : Str) : isHeader (s.rdropWhile isspace) = isHeader s := by
  rw [Bool.eq_iff_iff]
  refine ⟨isHeader_extend (List.rdropWhile_prefix _ _), fun h => ?_⟩
  obtain ⟨a, b, r, rfl, ha, hb⟩ := exists_of_isHeader h
  have hkept := rdropWhile_of_neg (c := '_') (p := isspace) (by decide) [a, b] r
  simp only [List.cons_append, List.nil_append] at hkept
  simp [hkept, isHeader, ha, hb]

theorem dropWhile_of_isHeader {s : Str} (h : isHeader s = true) : s.dropWhile isspace = s := by
  obtain ⟨a, b, r, rfl, ha, -⟩ := exists_of_isHeader h
  exact List.dropWhile_cons_of_neg (by simp [isspace_of_isalpha ha])

end WriterThread

namespace Token
open WriterThread

theorem header_cut (t : Token) : t.cut.header = t.header := isHeader_cStr t.text

theorem header_trimRight (t : Token) : t.trimRight.header = t.header := isHeader_rdropWhile t.text

theorem cut_of_notMem {t : Token} (h : '\x00' ∉ t.text) : t.cut = t :=
  text_injective (cStr_of_notMem h)

theorem isHeader_trimString_of_header {t : Token} (h : t.header = true) :
    isHeader (trimString t.text) = true := by
  have hcut : isHeader (cStr t.text) = true := t.header_cut.trans h
  rw [trimString, trim, isHeader_rdropWhile, dropWhile_of_isHeader hcut, hcut]

theorem trimLeft_of_header {t : Token} (h : t.header = true) : t.trimLeft = t :=
  text_injective (dropWhile_of_isHeader h)

def indented (t : Token) : Bool := t.text.head?.any isspace

theorem indented_of_header {t : Token} (h : t.header = true) : t.indented = false := by
  obtain ⟨a, b, r, htext, ha, -⟩ := exists_of_isHeader h
  simp [indented, htext, isspace_of_isalpha ha]

theorem trimLeft_of_not_indented {t : Token} (h : t.indented = false) : t.trimLeft = t := by
  refine text_injective ?_
  rw [indented] at h
  change t.text.dropWhile isspace = t.text
  cases htext : t.text with
  | nil => rfl
  | cons c s => exact List.dropWhile_cons_of_neg (by simpa [htext] using h)

theorem length_trimLeft (t : Token) :
    t.trimLeft.text.length ≤ t.text.length ∧
      (t.trimLeft.text.length = t.text.length → t.indented = false) := by
  refine ⟨(List.dropWhile_suffix isspace).length_le, fun h => ?_⟩
  have hself : t.text.dropWhile isspace = t.text :=
    (List.dropWhile_suffix isspace).eq_of_length h
  rw [indented, ← hself]
  cases hhead : (t.text.dropWhile isspace).head? with
  | none => rfl
  | some c => exact not_of_mem_head?_dropWhile hhead

def weight (ts : List Token) : ℕ := (ts.map fun t => t.text.length + 1).sum

@[simp] theorem weight_nil : weight [] = 0 := rfl

@[simp] theorem weight_cons (t : Token) (ts : List Token) :
    weight (t :: ts) = t.text.length + 1 + weight ts := rfl

@[simp] theorem weight_append (s t : List Token) : weight (s ++ t) = weight s + weight t := by
  simp [weight]

theorem eq_of_suffix_of_weight_le {s t : List Token} (h : s <:+ t) (hle : weight t ≤ weight s) :
    s = t := by
  obtain ⟨u, rfl⟩ := h
  cases u with
  | nil => rfl
  | cons a u =>
    rw [weight_append, weight_cons] at hle
    omega

end Token

open Token

theorem trimHead_spec (c : List Token) :
    weight (c.modifyHead trimLeft) ≤ weight c ∧
      (weight (c.modifyHead trimLeft) = weight c → ∀ t ∈ c.head?, t.indented = false) ∧
      ((∀ t ∈ c.head?, t.indented = false) → c.modifyHead trimLeft = c) ∧
      c.countP header ≤ (c.modifyHead trimLeft).countP header := by
  cases c with
  | nil => simp
  | cons t c =>
    obtain ⟨hle, hindented⟩ := t.length_trimLeft
    rw [List.modifyHead_cons]
    refine ⟨by simpa using hle, fun h u hu => ?_, fun h => ?_, ?_⟩
    · obtain rfl := Option.some.inj hu
      rw [weight_cons, weight_cons] at h
      exact hindented (by omega)
    · rw [trimLeft_of_not_indented (h t rfl)]
    · rw [List.countP_cons, List.countP_cons]
      cases ht : t.header with
      | true => simp [trimLeft_of_header ht, ht]
      | false => simp

theorem keepChunk_empty_spec (c : List Token) :
    weight (keepChunk empty c) ≤ weight c ∧
      (weight (keepChunk empty c) = weight c → c.getLast?.any empty = false) ∧
      (c.getLast?.any empty = false → keepChunk empty c = c) ∧
      (keepChunk empty c).countP header = c.countP header := by
  rcases keepChunk_spec empty c with ⟨hlast, hc⟩ | ⟨a, ha, hc, hlast⟩
  · rw [hc]
    exact ⟨le_rfl, fun _ => hlast, fun _ => rfl, rfl⟩
  · have hheader : a.header = false := by
      by_contra h
      rw [a.empty_of_header (by simpa using h)] at ha
      exact Bool.noConfusion ha
    have hweight : weight c = weight (keepChunk empty c) + (a.text.length + 1) := by
      conv_lhs => rw [hc]
      simp
    refine ⟨by omega, fun h => by omega, fun h => ?_, ?_⟩
    · rw [h] at hlast
      exact Bool.noConfusion hlast
    · conv_rhs => rw [hc]
      simp [hheader]

/-- A chunk in front of a header loses nothing exactly when it neither begins with white space nor
ends with an empty token. -/
theorem frontChunk_spec (c : List Token) :
    let c' := keepChunk empty (c.modifyHead trimLeft)
    weight c' ≤ weight c ∧ c.countP header ≤ c'.countP header ∧
      (weight c' = weight c →
        (∀ t ∈ c.head?, t.indented = false) ∧ c.getLast?.any empty = false) ∧
      ((∀ t ∈ c.head?, t.indented = false) → c.getLast?.any empty = false → c' = c) := by
  intro c'
  obtain ⟨hle, hfirst, hsame, hcount⟩ := trimHead_spec c
  obtain ⟨hle', hlast, hsame', hcount'⟩ := keepChunk_empty_spec (c.modifyHead trimLeft)
  refine ⟨hle'.trans hle, hcount'.symm ▸ hcount, fun h => ?_, fun hf hl => ?_⟩
  · have hweight : weight (c.modifyHead trimLeft) = weight c := le_antisymm hle (h ▸ hle')
    have hf := hfirst hweight
    have hl := hlast (h.trans hweight.symm)
    rw [hsame hf] at hl
    exact ⟨hf, hl⟩
  · rw [hsame hf] at hsame'
    exact (congrArg (keepChunk empty) (hsame hf)).trans (hsame' hl)

theorem cutTokens_append {front : List Token} (h : ∀ t ∈ front, '\x00' ∉ t.text)
    (ts : List Token) : cutTokens (front ++ ts) = front ++ cutTokens ts := by
  induction front with
  | nil => rfl
  | cons t front ih =>
    rw [List.cons_append, cutTokens, if_neg (h t List.mem_cons_self),
      ih fun u hu => h u (List.mem_cons_of_mem _ hu)]
    rfl

theorem modifyHead_append {α : Type*} {s : List α} (h : s ≠ []) (f : α → α) (t : List α) :
    (s ++ t).modifyHead f = s.modifyHead f ++ t := by
  obtain ⟨a, s, rfl⟩ := List.exists_cons_of_ne_nil h
  rfl

theorem arrive_nothing {c : List Token} (hc : c ≠ []) (h : ∀ t ∈ c, '\x00' ∉ t.text) :
    arrive (c ++ [nothing]) = keepChunk empty (c.modifyHead trimLeft) := by
  have hcut : cutTokens [nothing] = [nothing] := if_neg List.not_mem_nil
  rw [arrive, trimmedTokens, cutTokens_append h, hcut, modifyHead_append hc,
    List.modifyLast_concat, keepLast_concat]
  exact if_pos rfl

/-- Some tokens, and behind them a header with fields that are none. -/
def EndsWithRecord (front ts : List Token) : Prop :=
  ∃ h fields, ts = front ++ h :: fields ∧ h.header = true ∧ ∀ t ∈ fields, t.header = false

theorem header_cutTokens {ts : List Token} (h : ∀ t ∈ ts, t.header = false) :
    ∀ t ∈ cutTokens ts, t.header = false := by
  induction ts with
  | nil => exact h
  | cons t ts ih =>
    have hts := ih fun u hu => h u (List.mem_cons_of_mem _ hu)
    rw [cutTokens]
    split_ifs
    · intro u hu
      rw [List.mem_singleton.mp hu, header_cut]
      exact h t List.mem_cons_self
    · rintro u (_ | ⟨_, hu⟩)
      · exact h t List.mem_cons_self
      · exact hts u hu

theorem EndsWithRecord.cutTokens {front ts : List Token} (h : EndsWithRecord front ts)
    (hnul : ∀ t ∈ front, '\x00' ∉ t.text) : EndsWithRecord front (cutTokens ts) := by
  obtain ⟨t, fields, rfl, ht, hfields⟩ := h
  rw [cutTokens_append hnul, Arm2D.cutTokens]
  split_ifs
  · exact ⟨t.cut, [], rfl, t.header_cut.trans ht, by simp⟩
  · exact ⟨t, _, rfl, ht, header_cutTokens hfields⟩

theorem EndsWithRecord.trimHead {front ts : List Token} (h : EndsWithRecord front ts) :
    EndsWithRecord (front.modifyHead trimLeft) (ts.modifyHead trimLeft) := by
  obtain ⟨t, fields, rfl, ht, hfields⟩ := h
  cases front with
  | nil => exact ⟨t, fields, by simp [trimLeft_of_header ht], ht, hfields⟩
  | cons a front => exact ⟨t, fields, rfl, ht, hfields⟩

theorem EndsWithRecord.trimLast {front ts : List Token} (h : EndsWithRecord front ts) :
    EndsWithRecord front (ts.modifyLast trimRight) := by
  obtain ⟨t, fields, rfl, ht, hfields⟩ := h
  rcases List.eq_nil_or_concat fields with rfl | ⟨fields, u, rfl⟩
  · rw [List.modifyLast_concat]
    exact ⟨t.trimRight, [], rfl, t.header_trimRight.trans ht, by simp⟩
  · rw [List.concat_eq_append, ← List.cons_append, ← List.append_assoc, List.modifyLast_concat]
    refine ⟨t, fields ++ [u.trimRight], by simp, ht, fun v hv => ?_⟩
    rcases List.mem_append.mp hv with hv | hv
    · exact hfields v (by simp [hv])
    · rw [List.mem_singleton.mp hv, header_trimRight]
      exact hfields u (by simp)

theorem EndsWithRecord.keepLast {front ts : List Token} (h : EndsWithRecord front ts) :
    EndsWithRecord front (keepLast empty ts) := by
  obtain ⟨t, fields, rfl, ht, hfields⟩ := h
  obtain ⟨d, hd, hlost⟩ := keepLast_spec empty (front ++ t :: fields)
  have htd : t ∉ d := fun hmem => by
    have hempty := hlost t hmem
    rw [t.empty_of_header ht] at hempty
    exact Bool.noConfusion hempty
  generalize Library.keepLast empty (front ++ t :: fields) = kept at hd ⊢
  rcases List.append_eq_append_iff.mp hd with ⟨x, rfl, hx⟩ | ⟨x, -, rfl⟩
  · cases x with
    | nil =>
      rw [List.nil_append] at hx
      exact absurd (hx ▸ List.mem_cons_self : t ∈ d) htd
    | cons u x =>
      rw [List.cons_append, List.cons.injEq] at hx
      obtain ⟨rfl, rfl⟩ := hx
      exact ⟨t, x, rfl, ht, fun v hv => hfields v (List.mem_append_left d hv)⟩
  · exact absurd (List.mem_append_right x List.mem_cons_self) htd

theorem EndsWithRecord.arrive {front ts : List Token} (h : EndsWithRecord front ts)
    (hnul : ∀ t ∈ front, '\x00' ∉ t.text) :
    EndsWithRecord (front.modifyHead trimLeft) (arrive ts) :=
  (h.cutTokens hnul).trimHead.trimLast.keepLast

theorem EndsWithRecord.append {front ts : List Token} (h : EndsWithRecord front ts)
    {more : List Token} (hmore : ∀ t ∈ more, t.header = false) :
    EndsWithRecord front (ts ++ more) := by
  obtain ⟨t, fields, rfl, ht, hfields⟩ := h
  refine ⟨t, fields ++ more, by simp, ht, fun u hu => ?_⟩
  exact (List.mem_append.mp hu).elim (hfields u) (hmore u)

theorem any_header_arrive {t : Token} {ts : List Token} (h : ∀ u ∈ t :: ts, u.header = false) :
    (arrive (t :: ts)).any header = WriterThread.isHeader (trimString t.text) := by
  have hfirst : t.cut.trimLeft.header = WriterThread.isHeader (trimString t.text) :=
    (WriterThread.isHeader_rdropWhile _).symm
  obtain ⟨us, hcut, hus⟩ :
      ∃ us, cutTokens (t :: ts) = t.cut :: us ∧ ∀ u ∈ us, u.header = false := by
    have hall := header_cutTokens h
    rw [cutTokens] at hall ⊢
    split_ifs at hall ⊢ with hnul
    · exact ⟨[], rfl, by simp⟩
    · exact ⟨_, by rw [cut_of_notMem hnul], fun u hu => hall u (List.mem_cons_of_mem _ hu)⟩
  rw [Arm2D.arrive, any_header_keepLast (fun u hu => u.empty_of_header hu), trimmedTokens, hcut,
    List.modifyHead_cons, ← hfirst]
  rcases List.eq_nil_or_concat us with rfl | ⟨us, u, rfl⟩
  · rw [← List.nil_append [t.cut.trimLeft], List.modifyLast_concat]
    simp [header_trimRight]
  · rw [List.concat_eq_append, ← List.cons_append, List.modifyLast_concat]
    have hnone : us.any header = false := by
      rw [List.any_eq_false]
      intro v hv
      simp [hus v (by simp [hv])]
    simp [hnone, header_trimRight, hus u (by simp)]

/-- What a chunk must be like, with what comes after it. -/
structure CleanCut (c later : List Token) : Prop where
  first : ∀ t ∈ c.head?, (c.tail ++ later).any header = true → t.indented = false
  behind : ∀ t ∈ c.head?, (c.tail ++ later).any header = false →
    WriterThread.isHeader (trimString t.text) = t.header
  last : later.any header = true → c.getLast?.any empty = false

def CleanCuts : List (List Token) → Prop
  | [] => True
  | c :: chunks => CleanCut c chunks.flatten ∧ CleanCuts chunks

theorem cleanCuts_iff_of_no_header {chunks : List (List Token)} (hne : ∀ c ∈ chunks, c ≠ [])
    (h : chunks.flatten.any header = false) :
    (arrivals chunks).any header = false ↔ CleanCuts chunks := by
  induction chunks with
  | nil => simp [arrivals, CleanCuts]
  | cons c chunks ih =>
    obtain ⟨t, ts, rfl⟩ := List.exists_cons_of_ne_nil (hne c List.mem_cons_self)
    rw [List.flatten_cons, List.any_append, Bool.or_eq_false_iff] at h
    obtain ⟨hc, hlater⟩ := h
    have hnone : ∀ u ∈ t :: ts, u.header = false := by
      simpa [List.any_eq_false] using hc
    have hcut : CleanCut (t :: ts) chunks.flatten ↔
        WriterThread.isHeader (trimString t.text) = false := by
      have htail : (ts ++ chunks.flatten).any header = false := by
        rw [List.any_append, hlater, Bool.or_false]
        rw [List.any_cons, Bool.or_eq_false_iff] at hc
        exact hc.2
      constructor
      · intro hclean
        rw [hclean.behind t rfl htail, hnone t List.mem_cons_self]
      · intro hheader
        refine ⟨fun u hu hany => ?_, fun u hu _ => ?_, fun hany => ?_⟩
        · rw [List.tail_cons, htail] at hany
          exact Bool.noConfusion hany
        · obtain rfl := Option.some.inj hu
          rw [hheader, hnone t List.mem_cons_self]
        · rw [hlater] at hany
          exact Bool.noConfusion hany
    rw [CleanCuts, hcut, ← ih (fun d hd => hne d (List.mem_cons_of_mem _ hd)) hlater]
    cases chunks with
    | nil => simp [arrivals, any_header_arrive hnone]
    | cons c' chunks =>
      have hnone' : ∀ u ∈ t :: (ts ++ [nothing]), u.header = false := by
        rw [← List.cons_append]
        intro u hu
        rcases List.mem_append.mp hu with hu | hu
        · exact hnone u hu
        · rw [List.mem_singleton.mp hu]
          rfl
      rw [arrivals, List.any_append, Bool.or_eq_false_iff, List.cons_append,
        any_header_arrive hnone']

theorem arrivals_cons {c : List Token} (chunks : List (List Token)) :
    ∃ more : List Token, (∀ t ∈ more, t.header = false) ∧
      (chunks ≠ [] → more = [nothing]) ∧
      arrivals (c :: chunks) = arrive (c ++ more) ++ arrivals chunks := by
  cases chunks with
  | nil => exact ⟨[], by simp, fun h => absurd rfl h, by simp [arrivals]⟩
  | cons d chunks => exact ⟨[nothing], by simp [nothing, header, WriterThread.isHeader],
      fun _ => rfl, rfl⟩

/-- What has come in front of the last header that was sent, and behind it, beside what was sent
in front of it. -/
structure Arrived (clean : Prop) (front front' back' : List Token) : Prop where
  count : front.countP header ≤ front'.countP header
  weight_le : weight front' ≤ weight front
  clean_of_eq : weight front' = weight front → back'.any header = false → clean
  eq_of_clean : clean → front' = front ∧ back'.any header = false

theorem Arrived.cons {c front front' back' : List Token} {chunks : List (List Token)}
    (h : Arrived (CleanCuts chunks) front front' back')
    (hlater : chunks.flatten.any header = true) :
    Arrived (CleanCuts (c :: chunks)) (c ++ front)
      (keepChunk empty (c.modifyHead trimLeft) ++ front') back' := by
  obtain ⟨hle, hcount, hclean, hsame⟩ := frontChunk_spec c
  have hany : (c.tail ++ chunks.flatten).any header = true := by
    rw [List.any_append, hlater, Bool.or_true]
  have hfrontle := h.weight_le
  refine ⟨?_, ?_, fun hweight hback => ⟨⟨?_, ?_, ?_⟩, ?_⟩, fun ⟨hcut, hcuts⟩ => ?_⟩
  · rw [List.countP_append, List.countP_append]
    exact Nat.add_le_add hcount h.count
  · rw [weight_append, weight_append]
    exact Nat.add_le_add hle hfrontle
  · rw [weight_append, weight_append] at hweight
    exact fun t ht _ => (hclean (by omega)).1 t ht
  · intro t _ hnone
    rw [hany] at hnone
    exact Bool.noConfusion hnone
  · rw [weight_append, weight_append] at hweight
    exact fun _ => (hclean (by omega)).2
  · rw [weight_append, weight_append] at hweight
    exact h.clean_of_eq (by omega) hback
  · obtain ⟨hfront, hback⟩ := h.eq_of_clean hcuts
    rw [hsame (fun t ht => hcut.first t ht hany) (hcut.last hlater), hfront]
    exact ⟨rfl, hback⟩

/-- The chunk in which the last header comes. -/
theorem cleanCut_iff {front fields later : List Token} {h : Token} (hheader : h.header = true)
    (hlater : later.any header = false) :
    CleanCut (front ++ h :: fields) later ↔ ∀ t ∈ front.head?, t.indented = false := by
  have hlast : ∀ {p : Prop}, later.any header = true → p := fun hany => by
    rw [hlater] at hany
    exact Bool.noConfusion hany
  cases front with
  | nil =>
    refine iff_of_true ⟨fun t ht _ => ?_, fun t ht _ => ?_, hlast⟩ (by simp)
    · obtain rfl := Option.some.inj ht
      exact indented_of_header hheader
    · obtain rfl := Option.some.inj ht
      rw [hheader, isHeader_trimString_of_header hheader]
  | cons a front =>
    have hany : ((a :: front ++ h :: fields).tail ++ later).any header = true := by
      simp [hheader]
    refine ⟨fun hclean t ht => hclean.first t ht hany, fun hfirst => ⟨fun t ht _ => ?_, ?_, hlast⟩⟩
    · exact hfirst t ht
    · intro t _ hnone
      rw [hany] at hnone
      exact Bool.noConfusion hnone

theorem arrivals_arrived {chunks : List (List Token)} (hne : ∀ c ∈ chunks, c ≠ [])
    {front back : List Token} {h : Token} (hheader : h.header = true)
    (hback : back.any header = false) (hflat : chunks.flatten = front ++ h :: back)
    (hnul : ∀ t ∈ front, '\x00' ∉ t.text) :
    ∃ front' h' back', arrivals chunks = front' ++ h' :: back' ∧ h'.header = true ∧
      Arrived (CleanCuts chunks) front front' back' := by
  induction chunks generalizing front with
  | nil => exact absurd hflat (by simp)
  | cons c chunks ih =>
    have hne' : ∀ d ∈ chunks, d ≠ [] := fun d hd => hne d (List.mem_cons_of_mem _ hd)
    obtain ⟨more, hmore, hnothing, hcons⟩ := arrivals_cons (c := c) chunks
    rw [List.flatten_cons] at hflat
    cases hlater : chunks.flatten.any header with
    | true =>
      -- The chunk is in front of the last header.
      obtain ⟨x, rfl, hx⟩ : ∃ x, front = c ++ x ∧ chunks.flatten = x ++ h :: back := by
        rcases List.append_eq_append_iff.mp hflat with ⟨x, hfront, hx⟩ | ⟨x, hc, hx⟩
        · exact ⟨x, hfront, hx⟩
        · cases x with
          | nil => exact ⟨[], by simpa using hc.symm, by simpa using hx.symm⟩
          | cons u x =>
            rw [List.cons_append, List.cons.injEq] at hx
            rw [hx.2, List.any_append, hlater, Bool.or_true] at hback
            exact Bool.noConfusion hback
      obtain ⟨front', h', back', harrivals, hh', harrived⟩ :=
        ih hne' hx fun t ht => hnul t (List.mem_append_right c ht)
      have hchunks : chunks ≠ [] := by
        rintro rfl
        exact Bool.noConfusion hlater
      refine ⟨_, h', back', ?_, hh', harrived.cons hlater⟩
      rw [hcons, hnothing hchunks, arrive_nothing (hne c List.mem_cons_self)
        fun t ht => hnul t (List.mem_append_left x ht), harrivals, List.append_assoc]
    | false =>
      -- The last header comes in the chunk.
      obtain ⟨fields, rfl, rfl⟩ :
          ∃ fields, c = front ++ h :: fields ∧ back = fields ++ chunks.flatten := by
        have hnone : h ∉ chunks.flatten := fun hmem => by
          rw [List.any_eq_false] at hlater
          exact hlater h hmem hheader
        rcases List.append_eq_append_iff.mp hflat with ⟨x, -, hx⟩ | ⟨x, hc, hx⟩
        · exact absurd (by simp [hx]) hnone
        · cases x with
          | nil =>
            rw [List.nil_append] at hx
            exact absurd (hx ▸ List.mem_cons_self) hnone
          | cons u x =>
            rw [List.cons_append, List.cons.injEq] at hx
            exact ⟨x, hx.1 ▸ hc, hx.2⟩
      have hfields : ∀ t ∈ fields, t.header = false := by
        rw [List.any_append, Bool.or_eq_false_iff] at hback
        simpa [List.any_eq_false] using hback.1
      have hrecord : EndsWithRecord front (front ++ h :: fields) :=
        ⟨h, fields, rfl, hheader, hfields⟩
      obtain ⟨h', fields', harrive, hh', hfields'⟩ := (hrecord.append hmore).arrive hnul
      have hany : (fields' ++ arrivals chunks).any header = (arrivals chunks).any header := by
        have hnone : fields'.any header = false := by
          simpa [List.any_eq_false] using hfields'
        rw [List.any_append, hnone, Bool.false_or]
      obtain ⟨hle, hfirst, hsame, hcount⟩ := trimHead_spec front
      refine ⟨front.modifyHead trimLeft, h', fields' ++ arrivals chunks, ?_, hh',
        ⟨hcount, hle, fun hweight hclean => ?_, fun hclean => ?_⟩⟩
      · rw [hcons, harrive, List.append_assoc, List.cons_append]
      · rw [hany] at hclean
        exact ⟨(cleanCut_iff hheader hlater).mpr (hfirst hweight),
          (cleanCuts_iff_of_no_header hne' hlater).mp hclean⟩
      · rw [hany]
        exact ⟨hsame ((cleanCut_iff hheader hlater).mp hclean.1),
          (cleanCuts_iff_of_no_header hne' hlater).mpr hclean.2⟩

/-- The segments are those of the stream exactly when the cuts are clean, where no NUL stands in
front of its last header. -/
theorem segments_arrivals_iff {chunks : List (List Token)} (hne : ∀ c ∈ chunks, c ≠ [])
    {front back : List Token} {h : Token} (hfirst : ∀ t ∈ (front ++ [h]).head?, t.header = true)
    (hheader : h.header = true) (hback : back.any header = false)
    (hflat : chunks.flatten = front ++ h :: back) (hnul : ∀ t ∈ front, '\x00' ∉ t.text) :
    segments header (arrivals chunks) = segments header (front ++ h :: back) ↔
      CleanCuts chunks := by
  obtain ⟨front', h', back', harrivals, hh', harrived⟩ :=
    arrivals_arrived hne hheader hback hflat hnul
  have hnone : ∀ ts : List Token, ts.countP header = 0 ↔ ts.any header = false := by
    intro ts
    rw [List.countP_eq_zero, List.any_eq_false]
  have hfront : ∀ t ∈ front.head?, t.header = true := by
    intro t ht
    exact hfirst t (by rw [List.head?_append, Option.mem_def.mp ht, Option.some_or]; rfl)
  rw [harrivals, segments_append hheader front, (segments_eq_nil_iff hheader back).mpr
    ((hnone back).mpr hback), List.append_nil, segments_eq_sections_iff hh' harrived.count, hnone]
  constructor
  · rintro ⟨hsections, hclean⟩
    have hsuffix : front <:+ front' := by
      rw [← flatten_sections hfront, ← hsections]
      exact flatten_sections_suffix front'
    have hsame := eq_of_suffix_of_weight_le hsuffix harrived.weight_le
    exact harrived.clean_of_eq (by rw [hsame]) hclean
  · intro hclean
    obtain ⟨hsame, hclean⟩ := harrived.eq_of_clean hclean
    exact ⟨by rw [hsame], hclean⟩

theorem nul_notMem_arrive (ts : List Token) : ∀ t ∈ arrive ts, '\x00' ∉ t.text := by
  have htext : '\x00' ∉ joined (trimmedTokens ts) := by
    rw [joined_trimmedTokens]
    intro hmem
    simpa using List.mem_takeWhile_imp (mem_of_mem_trim hmem)
  obtain ⟨d, hd, -⟩ := keepLast_spec empty (trimmedTokens ts)
  intro t ht hnul
  have htrimmed : t ∈ trimmedTokens ts := by
    rw [hd]
    exact List.mem_append_left d ht
  exact htext (mem_joined_of_mem htrimmed hnul)

theorem nul_notMem_arrivals (chunks : List (List Token)) :
    ∀ t ∈ arrivals chunks, '\x00' ∉ t.text := by
  induction chunks with
  | nil => simp [arrivals]
  | cons c chunks ih =>
    obtain ⟨more, -, -, hcons⟩ := arrivals_cons (c := c) chunks
    intro t ht
    rw [hcons] at ht
    exact (List.mem_append.mp ht).elim (nul_notMem_arrive _ t) (ih t)

end Arm2D

import Arm2D.QuasiUrl

/-! # Encoding and decoding

The encoder moves its place in the buffer by six for an escape of five characters. The place
that is left out holds a NUL, so that what follows an escape is lost when the buffer is read
as a string. -/
namespace Arm2D
open Library

def encodedChar (c : Char) : Str :=
  if c = '&' then "&038;".toList
  else if c = '+' then "&043;".toList
  else if c = ' ' then ['+']
  else [c]

def encodedForm (s : Str) : Str := s.flatMap encodedChar

def IsEscaped (c : Char) : Prop := c = '&' ∨ c = '+'

instance (c : Char) : Decidable (IsEscaped c) := inferInstanceAs (Decidable (_ ∨ _))

/-- What the encoder leaves in the buffer before its place. -/
def rawChar (c : Char) : Str :=
  if IsEscaped c then encodedChar c ++ ['\x00'] else encodedChar c

def rawForm (s : Str) : Str := s.flatMap rawChar

/-- The buffer with these characters written, and `dst` behind them. -/
def EncodeState.ofWritten (written : Str) : EncodeState :=
  ⟨memoryOf '\x00' written, written.length⟩

theorem store_memoryOf (written : Str) (c : Char) :
    store (memoryOf '\x00' written) written.length c =
      if written.length < bufferSize then some (memoryOf '\x00' (written ++ [c])) else none := by
  rw [store, update_memoryOf]

theorem storeAll_memoryOf (written s : Str) :
    storeAll (memoryOf '\x00' written) written.length s =
      if written.length + s.length < bufferSize then some (memoryOf '\x00' (written ++ s))
      else none := by
  induction s generalizing written with
  | nil =>
    rw [storeAll, store_memoryOf, memoryOf_terminator, List.append_nil, List.length_nil, add_zero]
  | cons c s ih =>
    have hlength : (written ++ [c]).length = written.length + 1 := by simp
    rw [storeAll, store_memoryOf]
    split_ifs with h hall hall
    · rw [Option.bind_eq_bind, Option.bind_some, ← hlength, ih, hlength,
        if_pos (by rw [List.length_cons] at hall; omega), List.append_assoc]
      rfl
    · rw [Option.bind_eq_bind, Option.bind_some, ← hlength, ih, hlength,
        if_neg (by rw [List.length_cons] at hall; omega)]
    · rw [List.length_cons] at hall
      omega
    · rfl

theorem strcat_memoryOf (written s : Str) :
    strcat (memoryOf '\x00' written) written.length s =
      if written.length + s.length < bufferSize then some (memoryOf '\x00' (written ++ s))
      else none := by
  rw [← storeAll_memoryOf, strcat]
  rcases Nat.lt_or_ge written.length bufferSize with h | h
  · obtain ⟨n, hn⟩ : ∃ n, bufferSize - written.length = n + 1 :=
      ⟨bufferSize - written.length - 1, by omega⟩
    have hend : memoryOf '\x00' written written.length = '\x00' := by simp [memoryOf]
    rw [hn, List.range'_succ, List.find?_cons_of_pos (by simp [hend])]
    rfl
  · have hzero : bufferSize - written.length = 0 := by omega
    rw [hzero, storeAll_memoryOf, if_neg (by omega)]
    rfl

theorem moved_ofWritten {written text raw : Str} {n : ℕ} {fits : Prop} [Decidable fits]
    (hmem : memoryOf '\x00' (written ++ text) = memoryOf '\x00' (written ++ raw))
    (hlength : raw.length = n) (hfits : fits ↔ written.length + n ≤ bufferSize) :
    ((if fits then some (memoryOf '\x00' (written ++ text)) else none).bind fun buffer =>
        some (⟨buffer, written.length + n⟩ : EncodeState)) =
      if (written ++ raw).length ≤ bufferSize then some (.ofWritten (written ++ raw))
      else none := by
  rw [List.length_append, hlength]
  by_cases h : fits
  · rw [if_pos h, if_pos (hfits.mp h), Option.bind_some, EncodeState.ofWritten, hmem,
      List.length_append, hlength]
  · rw [if_neg h, if_neg fun hle => h (hfits.mpr hle)]
    rfl

theorem strcat_escape (written code : Str) (hcode : code.length = 5) :
    ((strcat (memoryOf '\x00' written) written.length code).bind fun buffer =>
        some (⟨buffer, written.length + 6⟩ : EncodeState)) =
      if (written ++ (code ++ ['\x00'])).length ≤ bufferSize then
        some (.ofWritten (written ++ (code ++ ['\x00']))) else none := by
  rw [strcat_memoryOf]
  apply moved_ofWritten
  · rw [← List.append_assoc, memoryOf_terminator]
  · simp [hcode]
  · omega

theorem store_char (written : Str) (c : Char) :
    ((store (memoryOf '\x00' written) written.length c).bind fun buffer =>
        some (⟨buffer, written.length + 1⟩ : EncodeState)) =
      if (written ++ [c]).length ≤ bufferSize then some (.ofWritten (written ++ [c]))
      else none := by
  rw [store_memoryOf]
  exact moved_ofWritten rfl rfl Nat.lt_iff_add_one_le

theorem encodeChar_ofWritten (written : Str) (c : Char) :
    encodeChar (.ofWritten written) c =
      if (written ++ rawChar c).length ≤ bufferSize then some (.ofWritten (written ++ rawChar c))
      else none := by
  by_cases hamp : c = '&'
  · subst hamp
    exact strcat_escape written "&038;".toList rfl
  by_cases hplus : c = '+'
  · subst hplus
    exact strcat_escape written "&043;".toList rfl
  by_cases hspace : c = ' '
  · subst hspace
    exact store_char written '+'
  · have hraw : rawChar c = [c] := by
      simp [rawChar, encodedChar, IsEscaped, hamp, hplus, hspace]
    rw [hraw, encodeChar, if_neg hamp, if_neg hplus, if_neg hspace]
    exact store_char written c

theorem foldlM_encodeChar {written : Str} (hwritten : written.length ≤ bufferSize) (s : Str) :
    s.foldlM encodeChar (.ofWritten written) =
      if (written ++ rawForm s).length ≤ bufferSize then some (.ofWritten (written ++ rawForm s))
      else none := by
  induction s generalizing written with
  | nil => simp [rawForm, hwritten]
  | cons c s ih =>
    have hcons : written ++ rawForm (c :: s) = written ++ rawChar c ++ rawForm s := by
      simp [rawForm]
    rw [List.foldlM_cons, encodeChar_ofWritten, hcons]
    by_cases hfits : (written ++ rawChar c).length ≤ bufferSize
    · rw [if_pos hfits]
      exact ih hfits
    · have hall : ¬ (written ++ rawChar c ++ rawForm s).length ≤ bufferSize := by
        rw [List.length_append]
        omega
      rw [if_neg hfits, if_neg hall]
      rfl

theorem cStr_append_replicate_nul (s : Str) (n : ℕ) :
    cStr (s ++ List.replicate n '\x00') = cStr s := by
  induction s with
  | nil =>
    cases n with
    | zero => rfl
    | succ n => simp [cStr, List.replicate_succ]
  | cons c s ih =>
    unfold cStr at ih ⊢
    rw [List.cons_append, List.takeWhile_cons, List.takeWhile_cons, ih]

theorem quasiUrlEncode_eq {s : Str} (hnul : '\x00' ∉ s) :
    quasiUrlEncode s =
      if (rawForm s).length < bufferSize then some (cStr (rawForm s)) else none := by
  have hstart : (⟨memoryOf '\x00' [], 0⟩ : EncodeState) = .ofWritten [] := rfl
  rw [quasiUrlEncode, cStr_of_notMem hnul, hstart, foldlM_encodeChar (Nat.zero_le _),
    List.nil_append]
  by_cases hlt : (rawForm s).length < bufferSize
  · have hstore := store_memoryOf (rawForm s) '\x00'
    rw [if_pos hlt, memoryOf_terminator] at hstore
    have hread : (List.range bufferSize).map (memoryOf '\x00' (rawForm s)) = _ :=
      map_memoryOf_range hlt.le
    rw [if_pos hlt.le, if_pos hlt]
    simp [EncodeState.ofWritten, hstore, hread, cStr_append_replicate_nul]
  · rw [if_neg hlt]
    split_ifs
    · have hstore := store_memoryOf (rawForm s) '\x00'
      rw [if_neg hlt] at hstore
      simp [EncodeState.ofWritten, hstore]
    · rfl

/-- The string up to its first escaped character. -/
def throughFirstEscape : Str → Str
  | [] => []
  | c :: s => if IsEscaped c then [c] else c :: throughFirstEscape s

theorem encodedChar_of_not_isEscaped {c : Char} (h : ¬ IsEscaped c) :
    encodedChar c = [if c = ' ' then '+' else c] := by
  rw [IsEscaped, not_or] at h
  rw [encodedChar, if_neg h.1, if_neg h.2]
  split_ifs <;> rfl

theorem nul_notMem_encodedChar {c : Char} (h : c ≠ '\x00') : '\x00' ∉ encodedChar c := by
  unfold encodedChar
  split_ifs
  · decide
  · decide
  · decide
  · simpa using h.symm

theorem cStr_rawForm {s : Str} (hnul : '\x00' ∉ s) :
    cStr (rawForm s) = encodedForm (throughFirstEscape s) := by
  induction s with
  | nil => rfl
  | cons c s ih =>
    rw [List.mem_cons, not_or] at hnul
    have hclean := nul_notMem_encodedChar (Ne.symm hnul.1)
    rw [throughFirstEscape, rawForm, List.flatMap_cons, rawChar]
    split_ifs with hescaped
    · rw [List.append_assoc, List.singleton_append, cStr_append_nul hclean]
      simp [encodedForm]
    · have hplain := encodedChar_of_not_isEscaped hescaped
      rw [hplain] at hclean ⊢
      have hhead : (if c = ' ' then '+' else c) ≠ '\x00' :=
        fun h => hclean (by rw [h]; exact List.mem_singleton_self _)
      rw [encodedForm, List.flatMap_cons, hplain, List.singleton_append, List.singleton_append,
        cStr, List.takeWhile_cons, if_pos (decide_eq_true hhead)]
      exact congrArg _ (ih hnul.2)

theorem throughFirstEscape_eq_iff (s : Str) :
    throughFirstEscape s = s ↔ ∀ c ∈ s.dropLast, ¬ IsEscaped c := by
  induction s with
  | nil => simp [throughFirstEscape]
  | cons c s ih =>
    cases s with
    | nil => by_cases h : IsEscaped c <;> simp [throughFirstEscape, h]
    | cons d s =>
      rw [throughFirstEscape, List.dropLast_cons_cons, List.forall_mem_cons, ← ih]
      split_ifs with h <;> simp [h]

theorem encodedForm_decodes (s : Str) :
    EscapesComplete (encodedForm s) ∧ decodedText (encodedForm s) = s := by
  induction s with
  | nil => exact ⟨.nil, rfl⟩
  | cons c s ih =>
    obtain ⟨hcomplete, htext⟩ := ih
    by_cases hamp : c = '&'
    · subst hamp
      exact ⟨.escape _ _ _ _ hcomplete, congrArg (List.cons '&') htext⟩
    by_cases hplus : c = '+'
    · subst hplus
      exact ⟨.escape _ _ _ _ hcomplete, congrArg (List.cons '+') htext⟩
    · have hplain := encodedChar_of_not_isEscaped (not_or.mpr ⟨hamp, hplus⟩)
      have hcode : (if c = ' ' then '+' else c) ≠ '&' := by
        split_ifs
        · decide
        · exact hamp
      have hback : plainChar (if c = ' ' then '+' else c) = c := by
        by_cases hspace : c = ' '
        · subst hspace
          rfl
        · rw [if_neg hspace, plainChar, if_neg hplus]
      rw [encodedForm, List.flatMap_cons, hplain, List.singleton_append]
      refine ⟨.plain hcode hcomplete, ?_⟩
      rw [decodedText_plain hcode, hback]
      exact congrArg _ htext

/-- Decoding the encoder's result gives the string back, whatever stands behind the result in
the memory. -/
def DecodesBack (s : Str) : Prop :=
  ∃ r, quasiUrlEncode s = some r ∧ ∀ mem, Holds '\x00' mem 0 r →
    ∃ fuel, (quasiUrlDecode mem fuel).val = some s

theorem nul_notMem_throughFirstEscape {s : Str} (hnul : '\x00' ∉ s) :
    '\x00' ∉ throughFirstEscape s := by
  induction s with
  | nil => exact hnul
  | cons c s ih =>
    rw [List.mem_cons, not_or] at hnul
    rw [throughFirstEscape]
    split_ifs
    · simpa using hnul.1
    · rw [List.mem_cons, not_or]
      exact ⟨hnul.1, ih hnul.2⟩

theorem quasiUrlDecode_encodedForm {s : Str} (hnul : '\x00' ∉ s)
    (hlength : (encodedForm s).length < bufferSize) {mem : ℕ → Char}
    (hmem : Holds '\x00' mem 0 (encodedForm s)) :
    (∀ fuel, ∀ text ∈ (quasiUrlDecode mem fuel).val, text = s) ∧
      ∃ fuel, (quasiUrlDecode mem fuel).val = some s := by
  have hclean : '\x00' ∉ encodedForm s := by
    rw [encodedForm, List.mem_flatMap]
    rintro ⟨c, hc, hmem⟩
    exact nul_notMem_encodedChar (ne_of_mem_of_not_mem hc hnul) hmem
  obtain ⟨hcomplete, htext⟩ := encodedForm_decodes s
  have hdecodes := hcomplete.decodesTo hclean hmem (le_rfl : ([] : Str).length ≤ 0) (by omega)
  simp only [htext, List.nil_append] at hdecodes
  constructor
  · intro fuel text h
    rw [quasiUrlDecode_val] at h
    obtain ⟨result, hresult, rfl⟩ := Option.map_eq_some_iff.mp h
    rw [(hdecodes fuel).only result hresult, cStr_of_notMem hnul]
  · refine ⟨(encodedForm s).length + 1, ?_⟩
    rw [quasiUrlDecode_val, (hdecodes _).ends (Nat.lt_succ_self _), Option.map_some,
      cStr_of_notMem hnul]

theorem length_rawForm (s : Str) :
    (rawForm s).length = (encodedForm s).length + s.countP (IsEscaped ·) := by
  induction s with
  | nil => rfl
  | cons c s ih =>
    have hraw : (rawChar c).length = (encodedChar c).length + if IsEscaped c then 1 else 0 := by
      unfold rawChar
      split_ifs <;> simp
    rw [rawForm, encodedForm, List.flatMap_cons, List.flatMap_cons, List.length_append,
      List.length_append, hraw, List.countP_cons]
    change _ + (rawForm s).length = _ + (encodedForm s).length + _
    rw [ih]
    simp only [decide_eq_true_eq]
    omega

theorem countP_le_one {p : Char → Bool} {s : Str} (h : ∀ c ∈ s.dropLast, p c = false) :
    s.countP p ≤ 1 := by
  rcases List.eq_nil_or_concat s with rfl | ⟨front, c, rfl⟩
  · simp
  · rw [List.concat_eq_append, List.dropLast_concat] at h
    have hfront : front.countP p = 0 := by simpa using h
    rw [List.concat_eq_append, List.countP_append, hfront, zero_add]
    exact List.countP_le_length

/-- What comes back is the string up to its first escape. -/
theorem DecodesBack.fits_and_ends {s : Str} (h : DecodesBack s) (hnul : '\x00' ∉ s) :
    (rawForm s).length < bufferSize ∧ throughFirstEscape s = s := by
  obtain ⟨r, hr, hback⟩ := h
  rw [quasiUrlEncode_eq hnul, cStr_rawForm hnul] at hr
  obtain ⟨hfits, hr⟩ := Option.ite_none_right_eq_some.mp hr
  obtain rfl := Option.some.inj hr
  have hshort : (encodedForm (throughFirstEscape s)).length < bufferSize := by
    rw [← cStr_rawForm hnul]
    exact (List.takeWhile_prefix _).length_le.trans_lt hfits
  have hholds : Holds '\x00' (memoryOf '\x00' (encodedForm (throughFirstEscape s))) 0 _ :=
    holds_memoryOf _
  obtain ⟨fuel, hval⟩ := hback _ hholds
  have hsame := (quasiUrlDecode_encodedForm (nul_notMem_throughFirstEscape hnul) hshort
    hholds).1 fuel s hval
  exact ⟨hfits, hsame.symm⟩

/-- A string comes back exactly when no character but its last is escaped, and the NUL behind
an escape still fits into the buffer. -/
theorem decodesBack_iff {s : Str} (hnul : '\x00' ∉ s)
    (hlength : (encodedForm s).length < bufferSize) :
    DecodesBack s ↔ (∀ c ∈ s.dropLast, ¬ IsEscaped c) ∧
      ((encodedForm s).length + 1 < bufferSize ∨ ∀ c ∈ s, ¬ IsEscaped c) := by
  have hraw := length_rawForm s
  have hnone : s.countP (IsEscaped ·) = 0 ↔ ∀ c ∈ s, ¬ IsEscaped c := by simp
  constructor
  · intro h
    obtain ⟨hfits, hends⟩ := h.fits_and_ends hnul
    refine ⟨(throughFirstEscape_eq_iff s).mp hends, ?_⟩
    by_cases hzero : s.countP (IsEscaped ·) = 0
    · exact .inr (hnone.mp hzero)
    · exact .inl (by omega)
  · intro ⟨hlast, hroom⟩
    have hone := countP_le_one (p := (IsEscaped ·)) (by simpa using hlast)
    have hfits : (rawForm s).length < bufferSize := by
      rcases hroom with hroom | hroom
      · omega
      · have hzero := hnone.mpr hroom
        omega
    unfold DecodesBack
    rw [quasiUrlEncode_eq hnul, if_pos hfits, cStr_rawForm hnul,
      (throughFirstEscape_eq_iff s).mpr hlast]
    exact ⟨_, rfl, fun mem hmem => (quasiUrlDecode_encodedForm hnul hlength hmem).2⟩

theorem decodesBack_iff_last : DecodesBack "a b&".toList :=
  (decodesBack_iff (by decide) (by decide +kernel)).mpr
    ⟨by simp [IsEscaped], .inl (by decide +kernel)⟩

theorem quasiUrlEncode_cut :
    (encodedForm "a&b".toList).length < bufferSize ∧
      quasiUrlEncode "a&b".toList = some "a&038;".toList ∧ ¬ DecodesBack "a&b".toList := by
  have hnul : '\x00' ∉ "a&b".toList := by decide
  refine ⟨by decide +kernel, ?_, fun h => ?_⟩
  · rw [quasiUrlEncode_eq hnul]
    decide +kernel
  · exact absurd (h.fits_and_ends hnul).2 (by decide)

end Arm2D

import Arm2D.Library.Logged
import Arm2D.Library.Memory
import Arm2D.StaticUtils

/-! # The messages of the test socket

`quasi_url_encode` and `quasi_url_decode` of test_control.h. Both write into a buffer of
2048 characters, where a write outside has no result. The decoder's reads are logged. -/
namespace Arm2D
open Library

def bufferSize : ℕ := 2048

/-- One write to `buffer`. -/
def store (buffer : ℕ → Char) (i : ℕ) (c : Char) : Option (ℕ → Char) :=
  if i < bufferSize then some (Function.update buffer i c) else none

def storeAll : (ℕ → Char) → ℕ → Str → Option (ℕ → Char)
  | buffer, i, [] => store buffer i '\x00'
  | buffer, i, c :: s => do
    let buffer ← store buffer i c
    storeAll buffer (i + 1) s

/-- `strcat(dst,s)`: the string that stands at `dst` is run through for its end. -/
def strcat (buffer : ℕ → Char) (dst : ℕ) (s : Str) : Option (ℕ → Char) := do
  let i ← (List.range' dst (bufferSize - dst)).find? fun i => buffer i = '\x00'
  storeAll buffer i s

/-- `buffer` and the place of `dst` in it. -/
structure EncodeState where
  buffer : ℕ → Char
  dst : ℕ

/-- One pass of the encoder's loop. -/
def encodeChar (e : EncodeState) (c : Char) : Option EncodeState :=
  if c = '&' then do
    let buffer ← strcat e.buffer e.dst "&038;".toList
    return ⟨buffer, e.dst + 6⟩
  else if c = '+' then do
    let buffer ← strcat e.buffer e.dst "&043;".toList
    return ⟨buffer, e.dst + 6⟩
  else if c = ' ' then do
    let buffer ← store e.buffer e.dst '+'
    return ⟨buffer, e.dst + 1⟩
  else do
    let buffer ← store e.buffer e.dst c
    return ⟨buffer, e.dst + 1⟩

/-- `quasi_url_encode`, with what `str` holds afterwards. -/
def quasiUrlEncode (str : Str) : Option Str := do
  let e ← (cStr str).foldlM encodeChar ⟨memoryOf '\x00' [], 0⟩
  let buffer ← store e.buffer e.dst '\x00'
  return cStr ((List.range bufferSize).map buffer)

/-- `strncmp(tmp,s,n) == 0` for an `s` of `n` characters, without a NUL: it reads up to the
first difference. -/
def strncmpEq (mem : ℕ → Char) : ℕ → Str → Logged ℕ Bool
  | _, [] => pure true
  | tmp, c :: s => do
    Logged.tell tmp
    if mem tmp = c then strncmpEq mem (tmp + 1) s else return false

/-- `*dst++ = c`, where `written` is what stands before `dst`. -/
def putChar (written : Str) (c : Char) : Option Str :=
  if written.length < bufferSize then some (written ++ [c]) else none

/-- `*dst = c`; the next write is to the same place. -/
def pokeChar (written : Str) : Option Str :=
  if written.length < bufferSize then some written else none

/-- What follows an '&'. -/
def decodeEscape (mem : ℕ → Char) (tmp : ℕ) (written : Str) : Logged ℕ (Option Str) := do
  if ← strncmpEq mem tmp "038".toList then return putChar written '&'
  else if ← strncmpEq mem tmp "043".toList then return putChar written '+'
  else return pokeChar written

/-- The decoder's loop, for at most so many passes. -/
def decodeLoop (mem : ℕ → Char) : ℕ → ℕ → Str → Logged ℕ (Option Str)
  | 0, _, _ => pure none
  | fuel + 1, tmp, written => do
    Logged.tell tmp
    if mem tmp = '\x00' then return pokeChar written
    else if mem tmp = '&' then
      (decodeEscape mem (tmp + 1) written).bindSome fun written =>
        decodeLoop mem fuel (tmp + 1 + 3 + 1) written
    else if mem tmp = '+' then
      Logged.bindSome (pure (putChar written ' ')) fun written =>
        decodeLoop mem fuel (tmp + 1) written
    else
      Logged.bindSome (pure (putChar written (mem tmp))) fun written =>
        decodeLoop mem fuel (tmp + 1) written

/-- `quasi_url_decode` of the string at the beginning of the memory. -/
def quasiUrlDecode (mem : ℕ → Char) (fuel : ℕ) : Logged ℕ (Option Str) := do
  let written ← decodeLoop mem fuel 0 []
  return written.map cStr

/-- Behind each '&' that the decoder comes to there are four characters for it to skip. -/
inductive EscapesComplete : Str → Prop
  | nil : EscapesComplete []
  | plain {c : Char} {s : Str} : c ≠ '&' → EscapesComplete s → EscapesComplete (c :: s)
  | escape (a b c d : Char) {s : Str} :
      EscapesComplete s → EscapesComplete ('&' :: a :: b :: c :: d :: s)

def escaped (code : Str) : Str :=
  if code = "038".toList then ['&'] else if code = "043".toList then ['+'] else []

def plainChar (c : Char) : Char := if c = '+' then ' ' else c

def decodedText : Str → Str
  | [] => []
  | '&' :: a :: b :: c :: _ :: s => escaped [a, b, c] ++ decodedText s
  | c :: s => plainChar c :: decodedText s

theorem decodedText_plain {c : Char} (h : c ≠ '&') (s : Str) :
    decodedText (c :: s) = plainChar c :: decodedText s := by
  rw [decodedText]
  intro _ _ _ _ _ hc _
  exact h hc

section passes
variable {mem : ℕ → Char} {tmp : ℕ} {s written : Str}

theorem strncmpEq_spec (key : Str) (hkey : '\x00' ∉ key) (hmem : Holds '\x00' mem tmp s) :
    ((strncmpEq mem tmp key).val = true ↔ key <+: s) ∧
      (strncmpEq mem tmp key).All (· ≤ tmp + s.length) := by
  induction key generalizing tmp s with
  | nil => exact ⟨by simp [strncmpEq], by simp [strncmpEq]⟩
  | cons k key ih =>
    rw [List.mem_cons, not_or] at hkey
    cases s with
    | nil =>
      have hstop : mem tmp ≠ k := fun h => hkey.1 (hmem.symm.trans h)
      constructor <;> simp [strncmpEq, hstop]
    | cons c s =>
      obtain ⟨hc, hrest⟩ := hmem
      obtain ⟨hval, hall⟩ := ih hkey.2 hrest
      rw [add_right_comm] at hall
      by_cases hck : c = k
      · subst hck
        constructor
        · simp [strncmpEq, hc, hval]
        · have htmp : tmp ≤ tmp + s.length + 1 := by omega
          simpa [strncmpEq, hc, ← add_assoc, htmp] using hall
      · constructor
        · simp [strncmpEq, hc, hck, List.cons_prefix_cons, Ne.symm hck]
        · simp [strncmpEq, hc, hck]

/-- An escape is read inside the string, and its three characters decide what it gives. -/
theorem decodeEscape_spec (hmem : Holds '\x00' mem tmp s)
    (hwritten : written.length < bufferSize) :
    (∃ text, (decodeEscape mem tmp written).val = some (written ++ text) ∧ text.length ≤ 1 ∧
      ∀ a b c rest, s = a :: b :: c :: rest → text = escaped [a, b, c]) ∧
    (decodeEscape mem tmp written).All (· ≤ tmp + s.length) := by
  obtain ⟨hamp, hall⟩ := strncmpEq_spec "038".toList (by decide) hmem
  obtain ⟨hplus, hall'⟩ := strncmpEq_spec "043".toList (by decide) hmem
  have hcode : ∀ key a b c rest, key.length = 3 → s = a :: b :: c :: rest →
      (key <+: s ↔ [a, b, c] = key) := by
    intro key a b c rest hkey hs
    rw [List.prefix_iff_eq_take, hkey, hs, eq_comm]
    rfl
  constructor
  · unfold decodeEscape putChar pokeChar
    simp only [Logged.bind_val, Logged.ite_val, Logged.pure_val, hamp, hplus, hwritten, if_true]
    by_cases h₁ : "038".toList <+: s
    · refine ⟨['&'], by rw [if_pos h₁], le_rfl, fun a b c rest hs => ?_⟩
      rw [escaped, if_pos ((hcode _ a b c rest rfl hs).mp h₁)]
    · by_cases h₂ : "043".toList <+: s
      · refine ⟨['+'], by rw [if_neg h₁, if_pos h₂], le_rfl, fun a b c rest hs => ?_⟩
        rw [escaped, if_neg fun h => h₁ ((hcode _ a b c rest rfl hs).mpr h),
          if_pos ((hcode _ a b c rest rfl hs).mp h₂)]
      · refine ⟨[], by rw [if_neg h₁, if_neg h₂, List.append_nil], Nat.zero_le _,
          fun a b c rest hs => ?_⟩
        rw [escaped, if_neg fun h => h₁ ((hcode _ a b c rest rfl hs).mpr h),
          if_neg fun h => h₂ ((hcode _ a b c rest rfl hs).mpr h)]
  · simp only [decodeEscape, Logged.all_bind, Logged.all_ite, Logged.all_pure, ite_self, and_true]
    refine ⟨hall, ?_⟩
    split_ifs
    exact hall'

theorem decodeLoop_plain {c : Char} (hmem : mem tmp = c) (hnul : c ≠ '\x00') (hamp : c ≠ '&')
    (hwritten : written.length < bufferSize) (fuel : ℕ) :
    decodeLoop mem (fuel + 1) tmp written =
      ⟨(decodeLoop mem fuel (tmp + 1) (written ++ [plainChar c])).val,
        [tmp] ++ (decodeLoop mem fuel (tmp + 1) (written ++ [plainChar c])).log⟩ := by
  have hput : ∀ c, putChar written c = some (written ++ [c]) := fun c => if_pos hwritten
  subst hmem
  rw [decodeLoop, if_neg hnul, if_neg hamp, hput, hput, plainChar]
  split_ifs <;> rfl

theorem decodeLoop_escape {text : Str} (hmem : mem tmp = '&')
    (hescape : (decodeEscape mem (tmp + 1) written).val = some text) (fuel : ℕ) :
    decodeLoop mem (fuel + 1) tmp written =
      ⟨(decodeLoop mem fuel (tmp + 5) text).val,
        tmp :: (decodeEscape mem (tmp + 1) written).log ++
          (decodeLoop mem fuel (tmp + 5) text).log⟩ := by
  rw [decodeLoop, hmem, if_neg (by decide), if_pos rfl, Logged.bindSome_of_some hescape]
  rfl

/-- What a run of the loop does on a string that it reads up to the terminator. -/
structure DecodesTo (mem : ℕ → Char) (tmp : ℕ) (written s text : Str) (fuel : ℕ) : Prop where
  reads : (decodeLoop mem fuel tmp written).All (· ≤ tmp + s.length)
  only : ∀ result ∈ (decodeLoop mem fuel tmp written).val, result = text
  ends : s.length < fuel → (decodeLoop mem fuel tmp written).val = some text

theorem DecodesTo.pass {tmp' : ℕ} {written' s' text : Str} {fuel : ℕ} {reads : List ℕ}
    (h : DecodesTo mem tmp' written' s' text fuel)
    (hloop : decodeLoop mem (fuel + 1) tmp written =
      ⟨(decodeLoop mem fuel tmp' written').val,
        reads ++ (decodeLoop mem fuel tmp' written').log⟩)
    (hreads : ∀ q ∈ reads, q ≤ tmp + s.length) (hend : tmp' + s'.length = tmp + s.length)
    (hrest : s'.length < s.length) : DecodesTo mem tmp written s text (fuel + 1) := by
  refine ⟨?_, ?_, fun hfuel => ?_⟩
  · rw [hloop]
    intro q hq
    rcases List.mem_append.mp hq with hq | hq
    · exact hreads q hq
    · exact hend ▸ h.reads q hq
  · rw [hloop]
    exact h.only
  · rw [hloop]
    exact h.ends (by omega)

theorem DecodesTo.plain {c : Char} {text : Str} {fuel : ℕ} (hmem : mem tmp = c)
    (hnul : c ≠ '\x00') (hamp : c ≠ '&') (hwritten : written.length < bufferSize)
    (h : DecodesTo mem (tmp + 1) (written ++ [plainChar c]) s text fuel) :
    DecodesTo mem tmp written (c :: s) text (fuel + 1) := by
  apply h.pass (decodeLoop_plain hmem hnul hamp hwritten fuel)
  · simp
  · rw [List.length_cons]
    omega
  · simp

theorem DecodesTo.escape {a b c d : Char} {text : Str} {fuel : ℕ}
    (hmem : Holds '\x00' mem tmp ('&' :: a :: b :: c :: d :: s))
    (hwritten : written.length < bufferSize)
    (h : DecodesTo mem (tmp + 5) (written ++ escaped [a, b, c]) s text fuel) :
    DecodesTo mem tmp written ('&' :: a :: b :: c :: d :: s) text (fuel + 1) := by
  obtain ⟨⟨text', hval, -, htext⟩, hall⟩ := decodeEscape_spec hmem.2 hwritten
  rw [htext a b c _ rfl] at hval
  apply h.pass (decodeLoop_escape hmem.1 hval fuel)
  · intro q hq
    rcases List.mem_cons.mp hq with rfl | hq
    · omega
    · have hinside := hall q hq
      simp only [List.length_cons] at hinside ⊢
      omega
  · simp only [List.length_cons]
    omega
  · simp only [List.length_cons]
    omega

/-- A string with complete escapes is read up to its terminator, where the loop ends. -/
theorem EscapesComplete.decodesTo (h : EscapesComplete s) (hnul : '\x00' ∉ s)
    (hmem : Holds '\x00' mem tmp s) (hwritten : written.length ≤ tmp)
    (hfits : tmp + s.length < bufferSize) (fuel : ℕ) :
    DecodesTo mem tmp written s (written ++ decodedText s) fuel := by
  induction h generalizing tmp written fuel with
  | nil =>
    rw [decodedText, List.append_nil]
    cases fuel with
    | zero => constructor <;> simp [decodeLoop]
    | succ fuel =>
      have hend : mem tmp = '\x00' := hmem
      have hpoke : pokeChar written = some written := if_pos (by simp at hfits; omega)
      constructor <;> simp [decodeLoop, hend, hpoke, eq_comm]
  | @plain c s hc _ ih =>
    cases fuel with
    | zero => constructor <;> simp [decodeLoop]
    | succ fuel =>
      rw [List.mem_cons, not_or] at hnul
      rw [List.length_cons] at hfits
      have hrest : DecodesTo mem (tmp + 1) (written ++ [plainChar c]) s _ fuel :=
        ih hnul.2 hmem.2 (by simpa using hwritten) (by omega) fuel
      rw [decodedText_plain hc, List.append_cons]
      exact hrest.plain hmem.1 (Ne.symm hnul.1) hc (by omega)
  | @escape a b c d s _ ih =>
    cases fuel with
    | zero => constructor <;> simp [decodeLoop]
    | succ fuel =>
      simp only [List.length_cons] at hfits
      have hcode : (escaped [a, b, c]).length ≤ 1 := by
        unfold escaped
        split_ifs <;> simp
      have hrest : DecodesTo mem (tmp + 5) (written ++ escaped [a, b, c]) s _ fuel :=
        ih (fun h => hnul (by simp [h])) hmem.2.2.2.2.2 (by rw [List.length_append]; omega)
          (by omega) fuel
      rw [decodedText, ← List.append_assoc]
      exact hrest.escape hmem (by omega)

/-- At an '&' with fewer than four characters behind it the loop jumps over the terminator. -/
theorem decodeLoop_cut_escape (hmem : Holds '\x00' mem tmp ('&' :: s)) (hcut : s.length < 4)
    (hwritten : written.length < bufferSize) :
    ∃ fuel, ∃ q ∈ (decodeLoop mem fuel tmp written).log, tmp + (s.length + 1) < q := by
  obtain ⟨⟨text, hval, -, -⟩, -⟩ := decodeEscape_spec hmem.2 hwritten
  refine ⟨2, tmp + 5, ?_, by omega⟩
  rw [decodeLoop_escape hmem.1 hval]
  simp [decodeLoop]

theorem decodeLoop_reads_outside (h : ¬ EscapesComplete s) (hnul : '\x00' ∉ s)
    (hmem : Holds '\x00' mem tmp s) (hwritten : written.length ≤ tmp)
    (hfits : tmp + s.length < bufferSize) :
    ∃ fuel, ∃ q ∈ (decodeLoop mem fuel tmp written).log, tmp + s.length < q := by
  induction s using decodedText.induct generalizing tmp written with
  | case1 => exact absurd .nil h
  | case2 a b c d s ih =>
    simp only [List.length_cons] at hfits ⊢
    obtain ⟨⟨text, hval, htext, -⟩, -⟩ :=
      decodeEscape_spec hmem.2 (by omega : written.length < bufferSize)
    obtain ⟨fuel, q, hq, hout⟩ : ∃ fuel, ∃ q ∈ (decodeLoop mem fuel (tmp + 5)
        (written ++ text)).log, tmp + 5 + s.length < q :=
      ih (fun hs => h (.escape a b c d hs)) (fun hs => hnul (by simp [hs])) hmem.2.2.2.2.2
        (by rw [List.length_append]; omega) (by omega)
    refine ⟨fuel + 1, q, ?_, by omega⟩
    rw [decodeLoop_escape hmem.1 hval]
    simp [hq]
  | case3 c s hshort ih =>
    rw [List.mem_cons, not_or] at hnul
    rw [List.length_cons] at hfits ⊢
    by_cases hc : c = '&'
    · subst hc
      have hcut : s.length < 4 := by
        by_contra hlong
        rcases s with _ | ⟨a, _ | ⟨b, _ | ⟨c, _ | ⟨d, rest⟩⟩⟩⟩
        · simp at hlong
        · simp at hlong
        · simp at hlong
        · simp at hlong
        · exact hshort a b c d rest rfl rfl
      exact decodeLoop_cut_escape hmem hcut (by omega)
    · obtain ⟨fuel, q, hq, hout⟩ : ∃ fuel, ∃ q ∈ (decodeLoop mem fuel (tmp + 1)
          (written ++ [plainChar c])).log, tmp + 1 + s.length < q :=
        ih (fun hs => h (.plain hc hs)) hnul.2 hmem.2 (by simpa using hwritten) (by omega)
      refine ⟨fuel + 1, q, ?_, by omega⟩
      rw [decodeLoop_plain hmem.1 (Ne.symm hnul.1) hc (by omega)]
      simp [hq]

end passes

theorem quasiUrlDecode_log (mem : ℕ → Char) (fuel : ℕ) :
    (quasiUrlDecode mem fuel).log = (decodeLoop mem fuel 0 []).log := by
  simp [quasiUrlDecode]

theorem quasiUrlDecode_val (mem : ℕ → Char) (fuel : ℕ) :
    (quasiUrlDecode mem fuel).val = (decodeLoop mem fuel 0 []).val.map cStr := rfl

/-- The decoder reads nothing behind the terminator, however far it runs, and comes to its
end, exactly when the escapes that it meets are complete. -/
theorem quasiUrlDecode_inside_iff {s : Str} {mem : ℕ → Char} (hnul : '\x00' ∉ s)
    (hlength : s.length < bufferSize) (hmem : Holds '\x00' mem 0 s) :
    ((∀ fuel, (quasiUrlDecode mem fuel).All (· ≤ s.length)) ∧
      ∃ fuel, (quasiUrlDecode mem fuel).val.isSome) ↔ EscapesComplete s := by
  constructor
  · intro ⟨hinside, _⟩
    by_contra hcut
    obtain ⟨fuel, q, hq, hout⟩ := decodeLoop_reads_outside hcut hnul hmem
      (le_rfl : ([] : Str).length ≤ 0) (by omega)
    rw [← quasiUrlDecode_log] at hq
    exact absurd (hinside fuel q hq) (by omega)
  · intro hs
    have hdecodes := hs.decodesTo hnul hmem (le_rfl : ([] : Str).length ≤ 0) (by omega)
    constructor
    · intro fuel q hq
      rw [quasiUrlDecode_log] at hq
      simpa using (hdecodes fuel).reads q hq
    · refine ⟨s.length + 1, ?_⟩
      rw [quasiUrlDecode_val, (hdecodes _).ends (Nat.lt_succ_self _)]
      rfl

theorem quasiUrlDecode_inside_iff_escape :
    (∀ fuel, (quasiUrlDecode (memoryOf '\x00' "x&038;y".toList) fuel).All (· ≤ 7)) ∧
      ∃ fuel, (quasiUrlDecode (memoryOf '\x00' "x&038;y".toList) fuel).val.isSome :=
  (quasiUrlDecode_inside_iff (by decide) (by decide) (holds_memoryOf _)).mpr
    (.plain (by decide) (.escape _ _ _ _ (.plain (by decide) .nil)))

theorem quasiUrlDecode_cut_escape :
    let mem := memoryOf '\x00' "a&".toList
    Holds '\x00' mem 0 "a&".toList ∧ (quasiUrlDecode mem 3).log = [0, 1, 2, 2, 6] ∧
      ¬ ∀ fuel, (quasiUrlDecode mem fuel).All (· ≤ 2) := by
  intro mem
  have hlog : (quasiUrlDecode mem 3).log = [0, 1, 2, 2, 6] := by decide
  refine ⟨holds_memoryOf _, hlog, fun hinside => ?_⟩
  have hlast := hinside 3 6 (by rw [hlog]; simp)
  omega

end Arm2D

import Arm2D.StaticUtils

/-! # Decimal numerals

The numbers that drives and camera send, as texts and as values, apart from the functions
of the C library that read them. -/
namespace Arm2D

inductive Sign
  | absent
  | plus
  | minus
  deriving DecidableEq

def Sign.text : Sign → Str
  | absent => []
  | plus => ['+']
  | minus => ['-']

/-- A sign, digits, and a fraction after the point. -/
structure Numeral where
  sign : Sign
  whole : Str
  fraction : Option Str
  whole_ne_nil : whole ≠ []
  whole_digits : ∀ c ∈ whole, c.isDigit = true
  fraction_digits : ∀ c ∈ fraction.getD [], c.isDigit = true

namespace Numeral

def fractionText (n : Numeral) : Str :=
  match n.fraction with
  | none => []
  | some digits => '.' :: digits

def text (n : Numeral) : Str := n.sign.text ++ (n.whole ++ n.fractionText)

/-- By the places of its digits. -/
def value (n : Numeral) : ℚ :=
  let digits := n.fraction.getD []
  let magnitude : ℚ := Nat.ofDigitChars 10 n.whole 0 +
    Nat.ofDigitChars 10 digits 0 / ((10 ^ digits.length : ℕ) : ℚ)
  if n.sign = .minus then -magnitude else magnitude

variable (n : Numeral)

theorem mem_text {c : Char} (h : c ∈ n.text) :
    c.isDigit = true ∨ c = '+' ∨ c = '-' ∨ c = '.' := by
  rw [text, List.mem_append, List.mem_append, fractionText] at h
  rcases h with h | h | h
  · cases hsign : n.sign <;> simp_all [Sign.text]
  · exact Or.inl (n.whole_digits c h)
  · have hdigits := n.fraction_digits
    cases hfraction : n.fraction <;> simp_all
    rcases h with h | h
    · exact Or.inr (Or.inr (Or.inr h))
    · exact Or.inl (hdigits c h)

theorem notMem_text {c : Char} (hdigit : c.isDigit = false) (hplus : c ≠ '+') (hminus : c ≠ '-')
    (hpoint : c ≠ '.') : c ∉ n.text := by
  intro h
  rcases n.mem_text h with h | h | h | h <;> simp_all

theorem text_ne_nil : n.text ≠ [] := by
  have hne := n.whole_ne_nil
  simp [text, hne]

theorem isspace_of_mem_text {c : Char} (h : c ∈ n.text) : isspace c = false := by
  rcases n.mem_text h with h | rfl | rfl | rfl
  · exact isspace_of_isDigit h
  · simp [isspace]
  · simp [isspace]
  · simp [isspace]

theorem trimmed_text : Trimmed n.text := trimmed_of_clean fun _ => n.isspace_of_mem_text

theorem nul_notMem_text : '\x00' ∉ n.text :=
  n.notMem_text (by decide) (by decide) (by decide) (by decide)

theorem takeSign_text :
    takeSign n.text = (decide (n.sign = .minus), n.whole ++ n.fractionText) := by
  obtain ⟨c, whole, hwhole⟩ := List.exists_cons_of_ne_nil n.whole_ne_nil
  rw [text]
  cases n.sign with
  | absent =>
    rw [hwhole]
    exact takeSign_of_isDigit (n.whole_digits c (by simp [hwhole])) _
  | plus => rfl
  | minus => rfl

theorem digitsValue_append (a b : Str) :
    digitsValue (a ++ b) = 10 ^ b.length * digitsValue a + digitsValue b := by
  change Nat.ofDigitChars 10 (a ++ b) 0 = 10 ^ b.length * Nat.ofDigitChars 10 a 0 +
    Nat.ofDigitChars 10 b 0
  rw [Nat.ofDigitChars_append, Nat.ofDigitChars_eq_ofDigitChars_zero]

theorem takeWhile_whole : (n.whole ++ n.fractionText).takeWhile Char.isDigit = n.whole := by
  have hrest : n.fractionText.takeWhile Char.isDigit = [] := by
    rw [fractionText]
    cases n.fraction with
    | none => rfl
    | some digits => exact List.takeWhile_cons_of_neg (by decide)
  rw [List.takeWhile_append_of_pos n.whole_digits, hrest, List.append_nil]

theorem dropWhile_whole :
    (n.whole ++ n.fractionText).dropWhile Char.isDigit = n.fractionText := by
  rw [List.dropWhile_append_of_pos n.whole_digits, fractionText]
  cases n.fraction with
  | none => rfl
  | some digits => exact List.dropWhile_cons_of_neg (by decide)

/-- `atof` reads the value of a numeral. -/
theorem atof_text : atof n.text = n.value := by
  have hskip : (cStr n.text).dropWhile isspace = n.text := by
    rw [cStr_of_notMem n.nul_notMem_text]
    obtain ⟨c, text, htext⟩ := List.exists_cons_of_ne_nil n.text_ne_nil
    have hc := n.isspace_of_mem_text (c := c) (by simp [htext])
    rw [htext]
    exact List.dropWhile_cons_of_neg (by simp [hc])
  have hwhole := n.whole_ne_nil
  have hdigits := n.fraction_digits
  rw [atof, hskip, takeSign_text]
  dsimp only
  rw [takeWhile_whole, dropWhile_whole, value, fractionText]
  cases hfraction : n.fraction with
  | none => simp [hwhole, exponentPart, digitsValue, Nat.ofDigitChars]
  | some digits =>
    rw [hfraction, Option.getD_some] at hdigits
    have hall : digits.takeWhile Char.isDigit = digits := List.takeWhile_eq_self_iff.mpr hdigits
    have hnone : digits.dropWhile Char.isDigit = [] := List.dropWhile_eq_nil_iff.mpr hdigits
    have hplaces : ((10 ^ digits.length : ℕ) : ℚ) ≠ 0 := by positivity
    have hsum : (digitsValue (n.whole ++ digits) : ℚ) / 10 ^ digits.length =
        Nat.ofDigitChars 10 n.whole 0 +
          Nat.ofDigitChars 10 digits 0 / ((10 ^ digits.length : ℕ) : ℚ) := by
      rw [digitsValue_append]
      push_cast at hplaces ⊢
      field_simp
      rfl
    simp [hwhole, hall, hnone, exponentPart, hsum]

/-- What `%d` prints. -/
def ofInt (k : ℤ) : Numeral where
  sign := if k < 0 then .minus else .absent
  whole := Nat.toDigits 10 k.natAbs
  fraction := none
  whole_ne_nil := Nat.toDigits_ne_nil
  whole_digits := fun _ h => Nat.isDigit_of_mem_toDigits (by norm_num) (by norm_num) h
  fraction_digits := by simp

theorem ofInt_text (k : ℤ) : (ofInt k).text = decimal k := by
  rw [decimal, Int.toString_eq_repr, text]
  cases k with
  | ofNat m =>
    have hsign : (ofInt (Int.ofNat m)).sign = .absent := by
      rw [ofInt, if_neg (show ¬ Int.ofNat m < 0 from (Int.natCast_nonneg m).not_gt)]
    rw [hsign]
    simp [ofInt, fractionText, Sign.text, Int.repr]
  | negSucc m =>
    have hsign : (ofInt (Int.negSucc m)).sign = .minus := by
      rw [ofInt, if_pos (Int.negSucc_lt_zero m)]
    rw [hsign]
    simp [ofInt, fractionText, Sign.text, Int.repr]

theorem ofInt_value (k : ℤ) : (ofInt k).value = k := by
  have hmagnitude : (k.natAbs : ℚ) = |(k : ℚ)| := by
    rw [← Int.cast_abs, Int.abs_eq_natAbs, Int.cast_natCast]
  simp only [value, ofInt, Option.getD_none, Nat.ofDigitChars_ten_toDigits,
    Nat.ofDigitChars_nil, Nat.cast_zero, zero_div, add_zero, hmagnitude]
  rcases lt_or_ge k 0 with hk | hk
  · have hk' : (k : ℚ) < 0 := by exact_mod_cast hk
    rw [if_pos hk, if_pos rfl, abs_of_neg hk', neg_neg]
  · have hk' : (0 : ℚ) ≤ k := by exact_mod_cast hk
    rw [if_neg (not_lt.mpr hk), if_neg (by decide), abs_of_nonneg hk']

end Numeral

theorem atof_decimal (k : ℤ) : atof (decimal k) = k := by
  rw [← Numeral.ofInt_text, Numeral.atof_text, Numeral.ofInt_value]

end Arm2D

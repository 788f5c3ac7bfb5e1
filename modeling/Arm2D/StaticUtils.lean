import Mathlib

/-! # Strings

The functions of static_utils.h, of `<string>` and of `<cstdlib>` that the program calls,
on lists of characters. A `char *` ends at the first NUL, a `std::string` does not. -/
namespace Arm2D

abbrev Str := List Char

/-- What a `char *` made from the string holds. -/
def cStr (s : Str) : Str := s.takeWhile (· ≠ '\x00')

theorem cStr_of_notMem {s : Str} (h : '\x00' ∉ s) : cStr s = s := by
  rw [cStr, List.takeWhile_eq_self_iff]
  intro c hc
  rw [decide_eq_true_eq]
  rintro rfl
  exact h hc

theorem cStr_append_nul {s : Str} (h : '\x00' ∉ s) (rest : Str) :
    cStr (s ++ '\x00' :: rest) = s := by
  rw [cStr, List.takeWhile_append_of_pos fun c hc => decide_eq_true (ne_of_mem_of_not_mem hc h)]
  simp

theorem cStr_append_of_mem {s : Str} (h : '\x00' ∈ s) (t : Str) : cStr (s ++ t) = cStr s := by
  obtain ⟨u, v, rfl, hu⟩ := List.eq_append_cons_of_mem h
  rw [List.append_assoc, List.cons_append, cStr_append_nul hu, cStr_append_nul hu]

theorem cStr_append_of_notMem {s : Str} (h : '\x00' ∉ s) (t : Str) :
    cStr (s ++ t) = s ++ cStr t :=
  List.takeWhile_append_of_pos fun _ hc => decide_eq_true (ne_of_mem_of_not_mem hc h)

theorem rdropWhile_of_neg {p : Char → Bool} {c : Char} (hc : p c = false) (s t : Str) :
    (s ++ c :: t).rdropWhile p = s ++ c :: t.rdropWhile p := by
  induction t using List.reverseRecOn with
  | nil => simp [hc]
  | append_singleton t a ih =>
    have happend : s ++ c :: (t ++ [a]) = (s ++ c :: t) ++ [a] := by simp
    rw [happend, List.rdropWhile_concat, List.rdropWhile_concat, ih]
    split_ifs <;> simp

def isspace (c : Char) : Bool :=
  c = ' ' || c = '\t' || c = '\n' || c = '\r' || c = '\x0b' || c = '\x0c'

def isalpha (c : Char) : Bool := ('a' ≤ c && c ≤ 'z') || ('A' ≤ c && c ≤ 'Z')

/-- `trim_front`, then `trim_from_end`. -/
def trim (s : Str) : Str := (s.dropWhile isspace).rdropWhile isspace

def trimString (data : Str) : Str := trim (cStr data)

/-- White space stands at neither end. -/
def Trimmed (s : Str) : Prop :=
  (∀ c ∈ s.head?, isspace c = false) ∧ ∀ c ∈ s.getLast?, isspace c = false

theorem trimmed_of_clean {s : Str} (h : ∀ c ∈ s, isspace c = false) : Trimmed s :=
  ⟨fun c hc => h c (List.mem_of_head? hc), fun c hc => h c (List.mem_of_getLast? hc)⟩

theorem trim_of_space {s : Str} (h : ∀ c ∈ s, isspace c = true) : trim s = [] := by
  have hfront : s.dropWhile isspace = [] := List.dropWhile_eq_nil_iff.mpr h
  rw [trim, hfront]
  rfl

theorem trim_pad {before after : Str} (hbefore : ∀ c ∈ before, isspace c = true)
    (hafter : ∀ c ∈ after, isspace c = true) (s : Str) :
    trim (before ++ s ++ after) = trim s := by
  have hback : after.reverse.dropWhile isspace = [] := by
    simpa [List.dropWhile_eq_nil_iff] using hafter
  rw [trim, trim, List.append_assoc, List.dropWhile_append_of_pos hbefore, List.dropWhile_append]
  split_ifs with hnil
  · have hfront : after.dropWhile isspace = [] := List.dropWhile_eq_nil_iff.mpr hafter
    rw [hfront, List.isEmpty_iff.mp hnil]
  · rw [List.rdropWhile, List.reverse_append, List.dropWhile_append, hback]
    rfl

theorem trim_space_append {before : Str} (h : ∀ c ∈ before, isspace c = true) (s : Str) :
    trim (before ++ s) = trim s := by
  have hnil : ∀ c ∈ ([] : Str), isspace c = true := by simp
  have hpad := trim_pad h hnil s
  rwa [List.append_nil] at hpad

theorem trim_append_space {after : Str} (h : ∀ c ∈ after, isspace c = true) (s : Str) :
    trim (s ++ after) = trim s := by
  have hnil : ∀ c ∈ ([] : Str), isspace c = true := by simp
  exact trim_pad hnil h s

theorem trim_of_trimmed {s : Str} (h : Trimmed s) : trim s = s := by
  have hfront : s.dropWhile isspace = s := by
    cases s with
    | nil => rfl
    | cons c s => exact List.dropWhile_cons_of_neg (by simp [h.1 c rfl])
  rw [trim, hfront, List.rdropWhile_eq_self_iff]
  intro hne
  simp [h.2 _ (List.getLast?_eq_some_getLast hne)]

theorem not_of_mem_head?_dropWhile {p : Char → Bool} {s : Str} {c : Char}
    (h : c ∈ (s.dropWhile p).head?) : p c = false := by
  have hnot := List.head?_dropWhile_not p s
  rw [Option.mem_def.mp h] at hnot
  exact hnot

theorem trimmed_trim (s : Str) : Trimmed (trim s) := by
  rw [trim]
  constructor
  · intro c hc
    obtain ⟨t, ht⟩ := List.rdropWhile_prefix isspace (s.dropWhile isspace)
    apply not_of_mem_head?_dropWhile (s := s)
    rw [← ht, List.head?_append, Option.mem_def.mp hc, Option.some_or]
    rfl
  · intro c hc
    obtain ⟨hne, rfl⟩ := List.mem_getLast?_eq_getLast hc
    exact Bool.eq_false_iff.mpr (List.rdropWhile_last_not isspace _ hne)

theorem trim_trim (s : Str) : trim (trim s) = trim s := trim_of_trimmed (trimmed_trim s)

theorem trimmed_append {s t : Str} (hs : s ≠ []) (ht : t ≠ []) (hstrim : Trimmed s)
    (httrim : Trimmed t) (middle : Str) : Trimmed (s ++ middle ++ t) := by
  constructor
  · rw [List.append_assoc, List.head?_append_of_ne_nil _ hs]
    exact hstrim.1
  · rw [List.getLast?_append_of_ne_nil _ ht]
    exact httrim.2

theorem trimString_of_trimmed {s : Str} (hnul : '\x00' ∉ s) (h : Trimmed s) :
    trimString s = s := by
  rw [trimString, cStr_of_notMem hnul, trim_of_trimmed h]

theorem trimString_of_clean {s : Str} (hnul : '\x00' ∉ s)
    (hspace : ∀ c ∈ s, isspace c = false) : trimString s = s :=
  trimString_of_trimmed hnul (trimmed_of_clean hspace)

theorem head?_trim_cons {c : Char} (hc : isspace c = false) (s : Str) :
    (trim (c :: s)).head? = some c := by
  have hself : trim (c :: s) = (c :: s).rdropWhile isspace := by
    rw [trim, List.dropWhile_cons_of_neg (by simp [hc])]
  have hne : trim (c :: s) ≠ [] := by
    intro hnil
    rw [hself, List.rdropWhile_eq_nil_iff] at hnil
    simpa [hc] using hnil c List.mem_cons_self
  obtain ⟨d, t, ht⟩ := List.exists_cons_of_ne_nil hne
  have hprefix := List.rdropWhile_prefix isspace (c :: s)
  rw [← hself, ht, List.cons_prefix_cons] at hprefix
  rw [ht, hprefix.1, List.head?_cons]

theorem mem_of_mem_trim {s : Str} {c : Char} (h : c ∈ trim s) : c ∈ s :=
  (List.dropWhile_suffix _).subset ((List.rdropWhile_prefix _ _).subset h)

/-- `split_string`: the name token and the accessor token. -/
def splitString (data : Str) (c : Char) : Str × Str :=
  let tmp := trim (cStr data)
  if c = ' ' then
    (tmp.takeWhile (!isspace ·), (tmp.dropWhile (!isspace ·)).dropWhile isspace)
  else (tmp.takeWhile (· ≠ c), (tmp.dropWhile (· ≠ c)).tail)

theorem splitString_congr {s t : Str} (hs : '\x00' ∉ s) (ht : '\x00' ∉ t)
    (htrim : trim s = trim t) (c : Char) : splitString s c = splitString t c := by
  rw [splitString, splitString, cStr_of_notMem hs, cStr_of_notMem ht, htrim]

theorem splitString_append {name rest : Str} {c : Char} (hc : c ≠ ' ') (hname : c ∉ name)
    (hnul : '\x00' ∉ name ++ c :: rest) (htrim : Trimmed (name ++ c :: rest)) :
    splitString (name ++ c :: rest) c = (name, rest) := by
  have hall : ∀ a ∈ name, decide (a ≠ c) = true := by
    intro a ha
    rw [decide_eq_true_eq]
    exact fun h => hname (h ▸ ha)
  rw [splitString, cStr_of_notMem hnul, trim_of_trimmed htrim, if_neg hc,
    List.takeWhile_append_of_pos hall, List.dropWhile_append_of_pos hall]
  simp

theorem splitString_of_notMem {name : Str} {c : Char} (hc : c ≠ ' ') (hname : c ∉ name)
    (hnul : '\x00' ∉ name) (htrim : Trimmed name) : splitString name c = (name, []) := by
  have hall : ∀ a ∈ name, decide (a ≠ c) = true := by
    intro a ha
    rw [decide_eq_true_eq]
    exact fun h => hname (h ▸ ha)
  rw [splitString, cStr_of_notMem hnul, trim_of_trimmed htrim, if_neg hc,
    List.takeWhile_eq_self_iff.mpr hall, List.dropWhile_eq_nil_iff.mpr hall]
  rfl

theorem trim_length_le (s : Str) : (trim s).length ≤ s.length :=
  (List.rdropWhile_prefix _ _).length_le.trans (List.dropWhile_suffix _).length_le

theorem cStr_length_le (s : Str) : (cStr s).length ≤ s.length :=
  (List.takeWhile_prefix _).length_le

theorem splitString_accessor_lt {data : Str} (h : data ≠ []) (c : Char) :
    (splitString data c).2.length < data.length := by
  have hpos := List.length_pos_iff.mpr h
  have hle := (trim_length_le (cStr data)).trans (cStr_length_le data)
  unfold splitString
  generalize trim (cStr data) = tmp at hle
  split_ifs with hc
  · cases tmp with
    | nil => exact hpos
    | cons a tmp =>
      have hskip : ((List.dropWhile (!isspace ·) (a :: tmp)).dropWhile isspace).length ≤
          tmp.length := by
        by_cases ha : isspace a
        · rw [List.dropWhile_cons_of_neg (by simp [ha]), List.dropWhile_cons_of_pos ha]
          exact (List.dropWhile_suffix _).length_le
        · rw [List.dropWhile_cons_of_pos (by simp [ha])]
          exact (List.dropWhile_suffix _).length_le.trans (List.dropWhile_suffix _).length_le
      rw [List.length_cons] at hle
      exact hskip.trans_lt hle
  · have hdrop := (List.dropWhile_suffix (l := tmp) (fun a => decide (a ≠ c))).length_le
    rw [List.length_tail]
    omega

/-- `to_items`; with a comma it is `to_tokens`. -/
def toItems (tokenStr : Str) (itemDel : Char) : List Str :=
  if _h : tokenStr = [] then []
  else trimString (splitString tokenStr itemDel).1 ::
    toItems (splitString tokenStr itemDel).2 itemDel
termination_by tokenStr.length
decreasing_by exact splitString_accessor_lt _h itemDel

/-- `sprintf(buffer,"%d",n)`. -/
def decimal (n : ℤ) : Str := (toString n).toList

theorem mem_decimal {n : ℤ} {c : Char} (h : c ∈ decimal n) : c = '-' ∨ c.isDigit = true := by
  have hnat : ∀ m : ℕ, c ∈ (Nat.repr m).toList → c.isDigit = true := by
    intro m hm
    rw [Nat.toList_repr] at hm
    exact Nat.isDigit_of_mem_toDigits (by norm_num) (by norm_num) hm
  rw [decimal, Int.toString_eq_repr] at h
  cases n with
  | ofNat m => exact Or.inr (hnat m h)
  | negSucc m =>
    rw [Int.repr, String.toList_append, List.mem_append] at h
    rcases h with h | h
    · exact Or.inl (List.mem_singleton.mp h)
    · exact Or.inr (hnat _ h)

theorem decimal_ne_nil (n : ℤ) : decimal n ≠ [] := by
  rw [decimal, Int.toString_eq_repr]
  cases n with
  | ofNat m =>
    change (Nat.repr m).toList ≠ []
    rw [Nat.toList_repr]
    exact Nat.toDigits_ne_nil
  | negSucc m =>
    rw [Int.repr, String.toList_append]
    exact List.append_ne_nil_of_left_ne_nil (by decide) _

theorem notMem_decimal {c : Char} (hminus : c ≠ '-') (hdigit : c.isDigit = false) (n : ℤ) :
    c ∉ decimal n := by
  intro h
  rcases mem_decimal h with h | h
  · exact hminus h
  · rw [hdigit] at h
    exact Bool.false_ne_true h

theorem decimal_injective : Function.Injective decimal := by
  intro m n h
  rw [decimal, decimal, String.toList_inj, Int.toString_eq_repr, Int.toString_eq_repr] at h
  exact Int.repr_injective h

section joining
variable {α : Type*} {sep : List α} {ls : List (List α)} {a : α}

theorem mem_intercalate_of_mem {s : List α} (hs : s ∈ ls) (ha : a ∈ s) :
    a ∈ sep.intercalate ls := by
  induction ls with
  | nil => simp at hs
  | cons t ls ih =>
    cases ls with
    | nil => simpa [List.mem_singleton.mp hs] using ha
    | cons u ls =>
      rw [List.intercalate_cons_cons, List.mem_append, List.mem_append]
      rcases List.mem_cons.mp hs with rfl | hs
      · exact Or.inl (Or.inl ha)
      · exact Or.inr (ih hs)

theorem intercalate_concat (ls : List (List α)) (s : List α) :
    sep.intercalate (ls ++ [s]) = sep.intercalate ls ++ (if ls = [] then [] else sep) ++ s := by
  induction ls with
  | nil => simp
  | cons t ls ih =>
    cases ls with
    | nil => simp [List.intercalate_cons_cons]
    | cons u ls =>
      rw [List.cons_append, List.cons_append, List.intercalate_cons_cons, ← List.cons_append, ih,
        List.intercalate_cons_cons]
      simp

end joining

/-- A text that an item list keeps: it neither breaks an item nor loses a part of it. -/
structure ItemText (sep : Char) (t : Str) : Prop where
  ne_nil : t ≠ []
  trimmed : Trimmed t
  separator : sep ∉ t
  nul : '\x00' ∉ t

theorem intercalate_items {sep : Char} (hsep : sep ≠ '\x00') {t : Str} {items : List Str}
    (h : ∀ u ∈ t :: items, ItemText sep u) :
    [sep].intercalate (t :: items) ≠ [] ∧ Trimmed ([sep].intercalate (t :: items)) ∧
      '\x00' ∉ [sep].intercalate (t :: items) := by
  induction items generalizing t with
  | nil =>
    rw [List.intercalate_singleton]
    have ht := h t List.mem_cons_self
    exact ⟨ht.ne_nil, ht.trimmed, ht.nul⟩
  | cons u items ih =>
    have ht := h t List.mem_cons_self
    obtain ⟨hne, htrimmed, hnul⟩ := ih fun v hv => h v (List.mem_cons_of_mem t hv)
    rw [List.intercalate_cons_cons]
    refine ⟨by simp [ht.ne_nil], trimmed_append ht.ne_nil hne ht.trimmed htrimmed [sep], ?_⟩
    simp [ht.nul, hnul, Ne.symm hsep]

def findFirst (key : Str) : Str → Option ℕ
  | [] => if key = [] then some 0 else none
  | c :: s => if key.isPrefixOf (c :: s) then some 0 else (findFirst key s).map (· + 1)

/-- `form.find(key,pos)`; `none` is `npos`. -/
def find (key form : Str) (pos : ℕ) : Option ℕ :=
  if pos ≤ form.length then (findFirst key (form.drop pos)).map (· + pos) else none

def strstr (s key : Str) : Bool := (findFirst key (cStr s)).isSome

/-- `s.substr(pos,n)`, with `none` for `npos`; past the end it throws. -/
def substr (s : Str) (pos : ℕ) (n : Option ℕ) : Option Str :=
  if pos ≤ s.length then some ((s.drop pos).take (n.getD s.length)) else none

/-- A search result plus one: `npos` wraps to zero. -/
def posAfter : Option ℕ → ℕ
  | none => 0
  | some i => i + 1

/-- A search result minus one, as a count: zero wraps to `npos`, and one less than `npos`
is more than any string has. -/
def posBefore : Option ℕ → Option ℕ
  | none => none
  | some 0 => none
  | some (i + 1) => some i

theorem findFirst_le {key : Str} : ∀ {s : Str} {i : ℕ}, findFirst key s = some i →
    i + key.length ≤ s.length
  | [], i, h => by
    rw [findFirst] at h
    split_ifs at h with hk
    cases h
    simp [hk]
  | c :: s, i, h => by
    rw [findFirst] at h
    split_ifs at h with hk
    · cases h
      rw [zero_add]
      exact (List.isPrefixOf_iff_prefix.mp hk).length_le
    · obtain ⟨j, hj, rfl⟩ := Option.map_eq_some_iff.mp h
      have := findFirst_le hj
      rw [List.length_cons]
      omega

theorem find_bounds {key form : Str} {pos i : ℕ} (h : find key form pos = some i) :
    pos ≤ i ∧ i + key.length ≤ form.length := by
  rw [find] at h
  split_ifs at h with hpos
  obtain ⟨j, hj, rfl⟩ := Option.map_eq_some_iff.mp h
  have := findFirst_le hj
  rw [List.length_drop] at this
  omega

theorem posAfter_find_le (c : Char) (s : Str) (pos : ℕ) : posAfter (find [c] s pos) ≤ s.length := by
  cases h : find [c] s pos with
  | none => exact Nat.zero_le _
  | some i => exact (find_bounds h).2

theorem substr_isSome {s : Str} {pos : ℕ} (h : pos ≤ s.length) (n : Option ℕ) :
    substr s pos n = some ((s.drop pos).take (n.getD s.length)) := if_pos h

theorem substr_npos {s : Str} {pos : ℕ} (h : pos ≤ s.length) :
    substr s pos none = some (s.drop pos) := by
  rw [substr_isSome h, Option.getD_none, List.take_of_length_le]
  simp

/-- The loop of `subst`. Its key is not empty: with an empty one the loop has no end. -/
def substLoop (key value form : Str) (hkey : key ≠ []) (prev : ℕ) : Str :=
  match _h : find key form prev with
  | none => form
  | some i => substLoop key value (form.take i ++ value ++ form.drop (i + key.length)) hkey
      (i + value.length)
termination_by form.length - prev
decreasing_by
  obtain ⟨hlo, hhi⟩ := find_bounds _h
  have hpos := List.length_pos_iff.mpr hkey
  simp only [List.length_append, List.length_take, List.length_drop]
  omega

def subst (key value form : Str) (hkey : key ≠ []) : Str := substLoop key value form hkey 0

/-! A key is not found where its first character does not occur. -/

theorem not_isPrefixOf_cons {k c : Char} (h : k ≠ c) (key s : Str) :
    ¬ (k :: key).isPrefixOf (c :: s) = true := by
  rw [List.isPrefixOf_iff_prefix, List.cons_prefix_cons]
  exact fun hk => h hk.1

theorem findFirst_of_notMem {k : Char} (key : Str) {s : Str} (h : k ∉ s) :
    findFirst (k :: key) s = none := by
  induction s with
  | nil => rfl
  | cons c s ih =>
    rw [List.mem_cons, not_or] at h
    rw [findFirst, if_neg (not_isPrefixOf_cons h.1 key s), ih h.2, Option.map_none]

theorem findFirst_append {k : Char} (key : Str) {a : Str} (h : k ∉ a) (s : Str) :
    findFirst (k :: key) (a ++ s) = (findFirst (k :: key) s).map (· + a.length) := by
  induction a with
  | nil => simp
  | cons c a ih =>
    rw [List.mem_cons, not_or] at h
    rw [List.cons_append, findFirst, if_neg (not_isPrefixOf_cons h.1 key _), ih h.2,
      Option.map_map]
    rfl

theorem find_append (front : Str) {a : Str} {c : Char} (h : c ∉ a) (s : Str) :
    find [c] (front ++ (a ++ c :: s)) front.length = some (front.length + a.length) := by
  have hfirst : findFirst [c] (c :: s) = some 0 := by simp [findFirst]
  rw [find, if_pos (by simp), List.drop_left, findFirst_append [] h, hfirst]
  simp [Nat.add_comm]

theorem findFirst_self (k : Char) (key s : Str) :
    findFirst (k :: key) (k :: key ++ s) = some 0 := by
  rw [List.cons_append, findFirst, if_pos]
  rw [List.isPrefixOf_iff_prefix, ← List.cons_append]
  exact List.prefix_append _ _

theorem subst_once {k : Char} (key value : Str) {a b : Str} (ha : k ∉ a) (hb : k ∉ b) :
    subst (k :: key) value (a ++ k :: key ++ b) (List.cons_ne_nil k key) = a ++ value ++ b := by
  have hfirst : find (k :: key) (a ++ k :: key ++ b) 0 = some a.length := by
    rw [find, if_pos (Nat.zero_le _), List.drop_zero, List.append_assoc, findFirst_append key ha,
      findFirst_self]
    simp
  have hform : (a ++ k :: key ++ b).take a.length ++ value ++
      (a ++ k :: key ++ b).drop (a.length + (k :: key).length) = a ++ value ++ b := by
    rw [← List.length_append, List.drop_left, List.append_assoc a, List.take_left]
  have hsecond : find (k :: key) (a ++ value ++ b) (a.length + value.length) = none := by
    rw [find, ← List.length_append, List.drop_left, findFirst_of_notMem key hb]
    simp
  rw [subst, substLoop]
  split
  · rename_i hnone
    rw [hfirst] at hnone
    cases hnone
  · rename_i i hi
    rw [hfirst] at hi
    cases hi
    rw [hform, substLoop]
    split
    · rfl
    · rename_i j hj
      rw [hsecond] at hj
      cases hj

def digitsValue (s : Str) : ℕ := s.foldl (fun n c => 10 * n + (c.toNat - '0'.toNat)) 0

def takeSign : Str → Bool × Str
  | '-' :: s => (true, s)
  | '+' :: s => (false, s)
  | s => (false, s)

/-- `strtol` with base ten, on 64 bits. -/
def strtol (s : Str) : ℤ :=
  let sign := takeSign ((cStr s).dropWhile isspace)
  let n : ℤ := digitsValue (sign.2.takeWhile Char.isDigit)
  max (-2 ^ 63) (min (2 ^ 63 - 1) (if sign.1 then -n else n))

/-- `atoi`: `(int)strtol`, on 32 bits. -/
def atoi (s : Str) : ℤ := (strtol s).bmod (2 ^ 32)

theorem digitsValue_toDigits (n : ℕ) : digitsValue (Nat.toDigits 10 n) = n := by
  have h := Nat.ofDigitChars_ten_toDigits (n := n)
  rw [Nat.ofDigitChars_eq_foldl] at h
  exact h

theorem decimal_natCast (n : ℕ) : decimal n = Nat.toDigits 10 n := by
  rw [decimal, Int.toString_eq_repr]
  exact Nat.toList_repr

theorem isspace_of_isDigit {c : Char} (h : c.isDigit = true) : isspace c = false := by
  by_contra hspace
  simp only [isspace, Bool.not_eq_false, Bool.or_eq_true, decide_eq_true_eq] at hspace
  rcases hspace with ((((rfl | rfl) | rfl) | rfl) | rfl) | rfl <;> exact absurd h (by decide)

theorem takeSign_of_isDigit {c : Char} (h : c.isDigit = true) (s : Str) :
    takeSign (c :: s) = (false, c :: s) := by
  unfold takeSign
  split
  · rename_i heq
    cases heq
    exact absurd h (by decide)
  · rename_i heq
    cases heq
    exact absurd h (by decide)
  · rfl

theorem atoi_decimal {n : ℕ} (hn : n < 2 ^ 31) {c : Char} (hc : c.isDigit = false) (s : Str) :
    atoi (decimal n ++ c :: s) = n := by
  have hdigits : ∀ a ∈ Nat.toDigits 10 n, a.isDigit = true := fun a ha =>
    Nat.isDigit_of_mem_toDigits (by norm_num) (by norm_num) ha
  have hcStr : cStr (Nat.toDigits 10 n ++ c :: s) = Nat.toDigits 10 n ++ cStr (c :: s) := by
    apply List.takeWhile_append_of_pos
    intro a ha
    rw [decide_eq_true_eq]
    rintro rfl
    exact absurd (hdigits _ ha) (by decide)
  have hrest : (cStr (c :: s)).takeWhile Char.isDigit = [] := by
    rw [cStr, List.takeWhile_cons]
    split_ifs
    · exact List.takeWhile_cons_of_neg (by simp [hc])
    · rfl
  obtain ⟨a, digits, ha⟩ := List.exists_cons_of_ne_nil (Nat.toDigits_ne_nil (n := n) (b := 10))
  have hfirst : a.isDigit = true := hdigits a (by simp [ha])
  have htake : (Nat.toDigits 10 n ++ cStr (c :: s)).takeWhile Char.isDigit =
      Nat.toDigits 10 n := by
    rw [List.takeWhile_append_of_pos hdigits, hrest, List.append_nil]
  have hstrtol : strtol (Nat.toDigits 10 n ++ c :: s) = n := by
    rw [strtol, hcStr]
    rw [ha, List.cons_append] at htake ⊢
    rw [List.dropWhile_cons_of_neg (by simp [isspace_of_isDigit hfirst]),
      takeSign_of_isDigit hfirst, htake, ← ha, digitsValue_toDigits]
    simp only [Bool.false_eq_true, if_false]
    omega
  rw [atoi, decimal_natCast, hstrtol, Int.bmod_def]
  omega

def exponentPart : Str → ℤ
  | c :: s =>
    let sign := takeSign s
    let digits := digitsValue (sign.2.takeWhile Char.isDigit)
    if c = 'e' ∨ c = 'E' then (if sign.1 then -(digits : ℤ) else digits) else 0
  | [] => 0

/-- `atof` on decimal numerals: white space, a sign, digits with a fraction, an exponent;
whatever follows is ignored and a string without digits is zero. Hexadecimal numerals and the
names of NaN and infinity are left out. -/
def atof (s : Str) : ℚ :=
  let sign := takeSign ((cStr s).dropWhile isspace)
  let whole := sign.2.takeWhile Char.isDigit
  let rest := sign.2.dropWhile Char.isDigit
  let point := rest.head? = some '.'
  let fraction := if point then rest.tail.takeWhile Char.isDigit else []
  let rest := if point then rest.tail.dropWhile Char.isDigit else rest
  if whole = [] ∧ fraction = [] then 0
  else
    let magnitude : ℚ := digitsValue (whole ++ fraction) / 10 ^ fraction.length *
      (10 : ℚ) ^ exponentPart rest
    if sign.1 then -magnitude else magnitude

example : atof " -12.50,3".toList = -25 / 2 := by decide +kernel

end Arm2D

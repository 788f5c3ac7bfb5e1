import Arm2D.Library.Words
import Arm2D.StaticUtils

/-! # Items of a text

`to_items` as the program runs it: a text is trimmed in its buffer, `split_string` sets the two
strings that it is handed, and the loop hands it the text that is left until that is empty. -/
namespace Arm2D
open Library

/-- `trim_front`: the buffer, and where its last character is. -/
def trimFront (buf : Str) : Str × ℕ :=
  let front := buf.dropWhile isspace
  (front, front.length - 1)

/-- `trim_from_end`: the terminator moves over white space to the front. What stands before the
buffer is not defined. -/
def trimFromEnd (tmp : Str) : ℕ → Option Str
  | 0 => if isspace (tmp.getD 0 '\x00') then none else some tmp
  | ender + 1 =>
    if isspace (tmp.getD (ender + 1) '\x00') then
      if ender = 0 then some (tmp.take (ender + 1)) else trimFromEnd (tmp.take (ender + 1)) ender
    else some tmp

def trimInPlace (buf : Str) : Option Str :=
  let (front, ender) := trimFront buf
  trimFromEnd front ender

/-- `split_string`: the strings that it leaves in `name_token` and in `accessor_token`. -/
def splitStringInto (data accessorToken : Str) (c : Char) : Option (Str × Str) := do
  let tmp ← trimInPlace (cStr data)
  if c = ' ' then
    match tmp.dropWhile (!isspace ·) with
    | [] => return (tmp, [])
    | _ :: next =>
      let next := next.dropWhile isspace
      -- Nothing is assigned where only white space stands behind the name.
      return (tmp.takeWhile (!isspace ·), if next = [] then accessorToken else next)
  else
    match tmp.dropWhile (· ≠ c) with
    | [] => return (tmp, [])
    | _ :: next => return (tmp.takeWhile (· ≠ c), next)

/-- The loop of `to_items`, in at most this number of passes. -/
def toItemsLoop (itemDel : Char) : ℕ → Str → List Str → Option (List Str)
  | 0, tokenStr, slist => if tokenStr = [] then some slist else none
  | passes + 1, tokenStr, slist =>
    if tokenStr = [] then some slist
    else do
      let (sToken, tokenStr) ← splitStringInto tokenStr tokenStr itemDel
      let sToken ← trimInPlace (cStr sToken)
      toItemsLoop itemDel passes tokenStr (slist ++ [sToken])

theorem trimFromEnd_letter {tmp : Str} {ender : ℕ} (h : isspace (tmp.getD ender '\x00') = false) :
    trimFromEnd tmp ender = some tmp := by
  cases ender with
  | zero => rw [trimFromEnd, h, if_neg Bool.false_ne_true]
  | succ ender => rw [trimFromEnd, h, if_neg Bool.false_ne_true]

theorem trimFromEnd_last {buf : Str} (h : ∀ c ∈ buf.head?, isspace c = false) :
    trimFromEnd buf (buf.length - 1) = some (buf.rdropWhile isspace) := by
  induction buf using List.reverseRecOn with
  | nil => rfl
  | append_singleton buf c ih =>
    have hlast : (buf ++ [c]).getD buf.length '\x00' = c := by simp
    rw [List.length_append, List.length_singleton, Nat.add_sub_cancel]
    cases hspace : isspace c with
    | false =>
      rw [List.rdropWhile_concat_neg _ _ _ (by simp [hspace])]
      exact trimFromEnd_letter (by rw [hlast, hspace])
    | true =>
      rw [List.rdropWhile_concat_pos _ _ _ hspace]
      cases buf with
      | nil => exact absurd (h c rfl) (by simp [hspace])
      | cons b buf =>
        have hb : isspace b = false := h b rfl
        have hfront := ih (by simpa using hb)
        have htake : (b :: buf ++ [c]).take (buf.length + 1) = b :: buf := by simp
        rw [List.length_cons] at hlast ⊢
        rw [List.length_cons, Nat.add_sub_cancel] at hfront
        rw [trimFromEnd, hlast, if_pos hspace, htake, hfront]
        -- With one letter left the loop stops, and that letter is no white space.
        cases buf with
        | nil => simp [List.rdropWhile_singleton, hb]
        | cons => rw [if_neg (by simp)]

theorem trimInPlace_eq (buf : Str) : trimInPlace buf = some (trim buf) := by
  unfold trimInPlace trimFront
  exact trimFromEnd_last fun _ => not_of_mem_head?_dropWhile

theorem splitStringInto_eq (data accessorToken : Str) (c : Char) :
    splitStringInto data accessorToken c = some (splitString data c) := by
  rw [splitStringInto, trimInPlace_eq, splitString]
  have hends := trimmed_trim (cStr data)
  generalize trim (cStr data) = tmp at hends
  dsimp only [Option.bind_eq_bind, Option.bind_some]
  split_ifs with hblank
  · have htmp := List.takeWhile_append_dropWhile (p := (!isspace ·)) (l := tmp)
    cases htail : tmp.dropWhile (!isspace ·) with
    | nil =>
      rw [htail, List.append_nil] at htmp
      rw [htmp]
      rfl
    | cons a next =>
      have ha : (!isspace a) = false :=
        not_of_mem_head?_dropWhile (p := (!isspace ·)) (s := tmp) (by rw [htail]; rfl)
      rw [Bool.not_eq_false'] at ha
      have hnext : next.dropWhile isspace ≠ [] := by
        intro hnil
        have hall : ∀ b ∈ a :: next, isspace b = true := by
          rw [List.forall_mem_cons]
          exact ⟨ha, List.dropWhile_eq_nil_iff.mp hnil⟩
        have hlast := List.getLast?_eq_some_getLast (List.cons_ne_nil a next)
        have hend := hends.2 _ (by rw [← htmp, htail, List.getLast?_append, hlast]; rfl)
        rw [hall _ (List.getLast_mem _)] at hend
        cases hend
      dsimp only
      rw [if_neg hnext, List.dropWhile_cons_of_pos ha]
      rfl
  · have htmp := List.takeWhile_append_dropWhile (p := (· ≠ c)) (l := tmp)
    cases htail : tmp.dropWhile (· ≠ c) with
    | nil =>
      rw [htail, List.append_nil] at htmp
      rw [htmp]
      rfl
    | cons => rfl

/-- A pass more than the text has characters is never made. -/
theorem toItemsLoop_eq (itemDel : Char) {passes : ℕ} {tokenStr : Str}
    (h : tokenStr.length ≤ passes) (slist : List Str) :
    toItemsLoop itemDel passes tokenStr slist = some (slist ++ toItems tokenStr itemDel) := by
  induction passes generalizing tokenStr slist with
  | zero =>
    obtain rfl := List.length_eq_zero_iff.mp (Nat.le_zero.mp h)
    rw [toItemsLoop, if_pos rfl, toItems, dif_pos rfl, List.append_nil]
  | succ passes ih =>
    rw [toItemsLoop, toItems]
    split_ifs with hempty
    · rw [List.append_nil]
    · have hless := splitString_accessor_lt hempty itemDel
      rw [splitStringInto_eq]
      dsimp only [Option.bind_eq_bind, Option.bind_some]
      rw [trimInPlace_eq, Option.bind_some, ih (by omega), List.append_assoc]
      rfl

def Blank (s : Str) : Prop := ∀ c ∈ s, isspace c = true

theorem trim_ne_nil {s : Str} (h : ¬ Blank s) : trim s ≠ [] := by
  intro hnil
  rw [trim, List.rdropWhile_eq_nil_iff] at hnil
  cases hfront : s.dropWhile isspace with
  | nil => exact h (List.dropWhile_eq_nil_iff.mp hfront)
  | cons c rest =>
    have hc : isspace c = false := not_of_mem_head?_dropWhile (s := s) (by rw [hfront]; rfl)
    rw [hnil c (hfront ▸ List.mem_cons_self)] at hc
    cases hc

theorem mem_getLast?_of_suffix {s t : Str} (h : t <:+ s) {c : Char} (hc : c ∈ t.getLast?) :
    c ∈ s.getLast? := by
  obtain ⟨front, rfl⟩ := h
  exact List.mem_getLast?_append_of_mem_getLast? hc

theorem trim_of_getLast {s : Str} (h : ∀ c ∈ s.getLast?, isspace c = false) :
    trim s = s.dropWhile isspace := by
  rw [trim, List.rdropWhile_eq_self_iff]
  intro hne
  rw [h _ (mem_getLast?_of_suffix (List.dropWhile_suffix _) (List.getLast?_eq_some_getLast hne))]
  exact Bool.false_ne_true

theorem splitString_trim {s : Str} (hnul : '\x00' ∉ s) (c : Char) :
    splitString (trim s) c = splitString s c :=
  splitString_congr (fun h => hnul (mem_of_mem_trim h)) hnul (trim_trim s) c

theorem toItems_trim {s : Str} (hnul : '\x00' ∉ s) (h : ¬ Blank s) (d : Char) :
    toItems (trim s) d = toItems s d := by
  have hne : s ≠ [] := by
    rintro rfl
    exact h (by simp [Blank])
  rw [toItems, dif_neg (trim_ne_nil h), toItems.eq_def s, dif_neg hne, splitString_trim hnul]

section pieces
variable {d : Char} (hd : isspace d = false)
include hd

theorem ne_blank : d ≠ ' ' := by
  rintro rfl
  exact absurd hd (by decide)

theorem splitString_first {name rest : Str} (hname : d ∉ name) (hnul : '\x00' ∉ name ++ d :: rest)
    (hend : ∀ c ∈ (name ++ d :: rest).getLast?, isspace c = false) :
    splitString (name ++ d :: rest) d = (name.dropWhile isspace, rest) := by
  have hfront : trim (name ++ d :: rest) = name.dropWhile isspace ++ d :: rest := by
    rw [trim_of_getLast hend, List.dropWhile_append]
    split_ifs with hblank
    · rw [List.isEmpty_iff.mp hblank, List.dropWhile_cons_of_neg (by simp [hd])]
      rfl
    · rfl
  rw [← splitString_trim hnul, hfront]
  refine splitString_append (ne_blank hd) (fun h => hname ?_) ?_ ?_
  · exact (List.dropWhile_suffix _).subset h
  · exact hfront ▸ fun h => hnul (mem_of_mem_trim h)
  · exact hfront ▸ trimmed_trim _

theorem splitString_only {s : Str} (hname : d ∉ s) (hnul : '\x00' ∉ s) :
    splitString s d = (trim s, []) := by
  rw [← splitString_trim hnul]
  exact splitString_of_notMem (ne_blank hd) (fun h => hname (mem_of_mem_trim h))
    (fun h => hnul (mem_of_mem_trim h)) (trimmed_trim s)

theorem toItems_of_blank {s : Str} (hne : s ≠ []) (h : Blank s) : toItems s d = [[]] := by
  have hnul : '\x00' ∉ s := fun hmem => absurd (h _ hmem) (by decide)
  have hname : d ∉ s := fun hmem => absurd (h d hmem) (by simp [hd])
  rw [toItems, dif_neg hne, splitString_only hd hname hnul, trim_of_space h, toItems, dif_pos rfl]
  rfl

theorem toItems_pieces {s : Str} (hnul : '\x00' ∉ s) (hne : s ≠ [])
    (hend : ∀ c ∈ s.getLast?, isspace c = false) :
    toItems s d = dropEmptyLast ((s.splitOn d).map trim) := by
  fun_induction toItems s d with
  | case1 => exact absurd rfl hne
  | case2 s _ ih =>
    by_cases hmem : d ∈ s
    · obtain ⟨name, rest, rfl, hname⟩ := List.eq_append_cons_of_mem hmem
      have hitem : trimString (name.dropWhile isspace) = trim name := by
        rw [trimString, cStr_of_notMem, trim, List.dropWhile_idempotent]
        · rfl
        · exact fun h => hnul (List.mem_append_left _ ((List.dropWhile_suffix _).subset h))
      rw [splitString_first hd hname hnul hend] at ih ⊢
      rw [List.splitOn_append_cons_self_of_not_mem hname, List.map_cons,
        dropEmptyLast_cons _ (by simp), hitem]
      cases rest with
      | nil =>
        rw [toItems, dif_pos rfl]
        rfl
      | cons a rest =>
        rw [ih]
        · exact fun h => hnul (List.mem_append_right _ (List.mem_cons_of_mem _ h))
        · exact List.cons_ne_nil a rest
        · have hsuffix : a :: rest <:+ name ++ d :: a :: rest := ⟨name ++ [d], by simp⟩
          exact fun c hc => hend c (mem_getLast?_of_suffix hsuffix hc)
    · have hblank : ¬ Blank s := by
        intro hblank
        have hletter := hend _ (List.getLast?_eq_some_getLast hne)
        rw [hblank _ (List.getLast_mem hne)] at hletter
        cases hletter
      have hkeep : dropEmptyLast [trim s] = [trim s] :=
        if_neg fun h => trim_ne_nil hblank (Option.some.inj h)
      rw [splitString_only hd hmem hnul, List.splitOn_eq_singleton hmem, List.map_singleton, hkeep,
        toItems, dif_pos rfl,
        trimString_of_trimmed (fun h => hnul (mem_of_mem_trim h)) (trimmed_trim s)]

/-- `to_items` finds the items that were joined. -/
theorem toItems_intercalate (hsep : d ≠ '\x00') {items : List Str}
    (h : ∀ t ∈ items, ItemText d t) : toItems ([d].intercalate items) d = items := by
  cases items with
  | nil => rw [List.intercalate_nil, toItems, dif_pos rfl]
  | cons t items =>
    obtain ⟨hne, htrimmed, hnul⟩ := intercalate_items hsep h
    have hpieces : ([d].intercalate (t :: items)).splitOn d = t :: items :=
      List.splitOn_intercalate d (fun u hu => (h u hu).separator) (List.cons_ne_nil t items)
    have hmap : (t :: items).map trim = t :: items := by
      refine (List.map_congr_left fun u hu => ?_).trans (List.map_id _)
      exact trim_of_trimmed (h u hu).trimmed
    have hkeep : dropEmptyLast (t :: items) = t :: items :=
      if_neg fun hlast => (h [] (List.mem_of_getLast? hlast)).ne_nil rfl
    rw [toItems_pieces hd hnul hne htrimmed.2, hpieces, hmap, hkeep]

end pieces

theorem splitString_word {s : Str} (hnul : '\x00' ∉ s) (hne : s ≠ []) (htrim : Trimmed s) :
    ∃ word tail, s = word ++ tail ∧ word ≠ [] ∧ (∀ c ∈ word, isspace c = false) ∧
      (∀ c ∈ tail.head?, isspace c = true) ∧
      splitString s ' ' = (word, tail.dropWhile isspace) := by
  refine ⟨s.takeWhile (!isspace ·), s.dropWhile (!isspace ·),
    List.takeWhile_append_dropWhile.symm, ?_, ?_, ?_, ?_⟩
  · obtain ⟨a, s, rfl⟩ := List.exists_cons_of_ne_nil hne
    rw [List.takeWhile_cons_of_pos (by simp [htrim.1 a rfl])]
    exact List.cons_ne_nil _ _
  · intro c hc
    simpa using List.mem_takeWhile_imp hc
  · intro c hc
    simpa using not_of_mem_head?_dropWhile hc
  · rw [splitString, cStr_of_notMem hnul, trim_of_trimmed htrim, if_pos rfl]

theorem toItems_wordCut {s : Str} (hnul : '\x00' ∉ s) (hne : s ≠ []) (htrim : Trimmed s) :
    WordCut isspace s (toItems s ' ') := by
  induction hn : s.length using Nat.strong_induction_on generalizing s with
  | _ n ih =>
    subst hn
    have hless := splitString_accessor_lt hne ' '
    obtain ⟨word, tail, rfl, hword, hletters, hend, hsplit⟩ := splitString_word hnul hne htrim
    rw [List.mem_append, not_or] at hnul
    rw [hsplit] at hless
    rw [toItems, dif_neg hne, hsplit, trimString_of_clean hnul.1 hletters]
    -- Behind the word the text is blank, or a gap stands before the next trimmed text.
    have hrest : WordCut isspace tail (toItems (tail.dropWhile isspace) ' ') := by
      by_cases hnil : tail.dropWhile isspace = []
      · rw [hnil, toItems, dif_pos rfl]
        exact .blank (List.dropWhile_eq_nil_iff.mp hnil)
      · have hsuffix := List.dropWhile_suffix isspace (l := tail)
        have hends : Trimmed (tail.dropWhile isspace) :=
          ⟨fun c => not_of_mem_head?_dropWhile, fun c hc => htrim.2 c
            (mem_getLast?_of_suffix (hsuffix.trans (List.suffix_append _ _)) hc)⟩
        have hcut := ih _ hless (fun h => hnul.2 (hsuffix.subset h)) hnil hends rfl
        have hgap := hcut.gap_append fun a (ha : a ∈ tail.takeWhile isspace) =>
          List.mem_takeWhile_imp ha
        rwa [List.takeWhile_append_dropWhile] at hgap
    exact .word (fun _ h => absurd h List.not_mem_nil) hword hletters hend hrest

theorem words_trim (s : Str) : words isspace (trim s) = words isspace s := by
  have hfront := List.takeWhile_append_dropWhile (p := isspace) (l := s)
  have hback := List.rdropWhile_append_rtakeWhile (p := isspace) (l := s.dropWhile isspace)
  rw [trim]
  nth_rewrite 2 [← hfront]
  rw [words_gap_append fun a => List.mem_takeWhile_imp]
  nth_rewrite 2 [← hback]
  rw [words_append_gap fun a => List.mem_rtakeWhile_imp]

/-- Until the text is empty the loop takes at most one pass for each of its characters. With a
separator that is no white space it keeps the pieces in between, trimmed, and leaves out the last
one where it is empty; with a blank it keeps the words. -/
theorem toItems_splits {s : Str} (hnul : '\x00' ∉ s) (d : Char) :
    ∃ items, (∀ passes, s.length ≤ passes → toItemsLoop d passes s [] = some items) ∧
      (isspace d = false →
        (s = [] → items = []) ∧
        (s ≠ [] → Blank s → items = [[]]) ∧
        (¬ Blank s → items = dropEmptyLast (((trim s).splitOn d).map trim))) ∧
      (d = ' ' → ¬ Blank s → items = words isspace s) := by
  refine ⟨toItems s d, fun passes h => toItemsLoop_eq d h [], fun hd => ⟨?_, ?_, ?_⟩, ?_⟩
  · rintro rfl
    rw [toItems, dif_pos rfl]
  · intro hne hblank
    exact toItems_of_blank hd hne hblank
  · intro hblank
    rw [← toItems_trim hnul hblank]
    exact toItems_pieces hd (fun h => hnul (mem_of_mem_trim h)) (trim_ne_nil hblank)
      (trimmed_trim s).2
  · rintro rfl hblank
    have hcut := toItems_wordCut (fun h => hnul (mem_of_mem_trim h)) (trim_ne_nil hblank)
      (trimmed_trim s)
    rw [← words_trim, ← hcut.eq_words, toItems_trim hnul hblank]

theorem toItems_splits_line :
    toItemsLoop ',' 10 " a,, b c, ".toList [] = some ["a".toList, [], "b c".toList] := by
  obtain ⟨items, hloop, hpieces, -⟩ :=
    toItems_splits (s := " a,, b c, ".toList) (by decide) ','
  have hletter : ¬ Blank " a,, b c, ".toList :=
    fun h => absurd (h 'a' (by simp)) (by decide)
  have htrim : trim " a,, b c, ".toList = "a,, b c,".toList := by decide
  rw [hloop 10 (by decide), (hpieces (by decide)).2.2 hletter, htrim]
  decide

end Arm2D

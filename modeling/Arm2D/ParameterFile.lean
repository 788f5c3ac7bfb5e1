import Arm2D.StaticUtils

/-! # The parameter file

`read_parameters` of parameters.h, as the program compiles it, and the line reader of
static_utils.h. A read of the line list past its end has no value. -/
namespace Arm2D

/-- A `map<string,string>`: it runs through its keys in lexicographic order. -/
abbrev ParameterMap := Std.TreeMap Str Str

def extractLine (text : Str) : Str × Str :=
  (text.takeWhile (· ≠ '\n'), (text.dropWhile (· ≠ '\n')).tail)

theorem extractLine_lt {text : Str} (h : text ≠ []) :
    (extractLine text).2.length < text.length := by
  have hpos := List.length_pos_iff.mpr h
  have hdrop := (List.dropWhile_suffix (l := text) (fun c => decide (c ≠ '\n'))).length_le
  rw [extractLine, List.length_tail]
  omega

/-- The loop of `to_no_empty_lines`. -/
def lineLoop (text : Str) : List Str :=
  if _h : text = [] then []
  else
    let line := trim (extractLine text).1
    if line ≠ [] then line :: lineLoop (extractLine text).2 else lineLoop (extractLine text).2
termination_by text.length
decreasing_by all_goals exact extractLine_lt _h

def toNoEmptyLines (page : Str) : List Str := lineLoop (cStr page)

/-- The inner loop of `read_parameters`: the term, and the lines behind the one it stops
at. -/
def blockLoop (term sep : Str) : List Str → Option (Str × List Str)
  | [] => none
  | line :: lit =>
    let line := trimString line
    if line.head? = some '#' then blockLoop term sep lit
    else if line ≠ ['\x7d'] then blockLoop (term ++ sep ++ line) [';'] lit
    else some (term, lit)

theorem blockLoop_length {term sep : Str} {lines : List Str} {r : Str × List Str}
    (h : blockLoop term sep lines = some r) : r.2.length < lines.length := by
  induction lines generalizing term sep with
  | nil => simp [blockLoop] at h
  | cons line lit ih =>
    rw [blockLoop] at h
    split_ifs at h
    · exact (ih h).trans (Nat.lt_succ_self _)
    · exact (ih h).trans (Nat.lt_succ_self _)
    · cases h
      exact Nat.lt_succ_self _

/-- The outer loop of `read_parameters`. -/
def parameterLoop (noComments : Bool) (serverParameters : ParameterMap) :
    List Str → Option ParameterMap
  | [] => some serverParameters
  | pardef :: lit =>
    if noComments && pardef.head? = some '#' then
      parameterLoop noComments serverParameters lit
    else
      let key := trimString (splitString pardef ':').1
      let term := trimString (splitString pardef ':').2
      if term ≠ ['\x7b'] then
        parameterLoop noComments (serverParameters.insert key term) lit
      else
        match _h : blockLoop [] [] lit with
        | none => none
        | some r => parameterLoop noComments (serverParameters.insert key r.1) r.2
termination_by lines => lines.length
decreasing_by
  · exact Nat.lt_succ_self _
  · exact Nat.lt_succ_self _
  · exact (blockLoop_length _h).trans (Nat.lt_succ_self _)

/-- The buffer that the file is read into: one `fread` of 20000 bytes, over NULs. -/
def filebuffer (file : Str) : Str :=
  file.take 20000 ++ List.replicate (20000 - file.length) '\x00'

/-- `none` is a file that cannot be opened; a buffer without a NUL is read past its end. -/
def readParameters (serverParameters : ParameterMap) (noComments : Bool) (file : Option Str) :
    Option ParameterMap :=
  match file with
  | none => some serverParameters
  | some file =>
    if '\x00' ∈ filebuffer file then
      parameterLoop noComments serverParameters (toNoEmptyLines (filebuffer file))
    else none

/-- The lines of a file, trimmed, without those that are then empty. -/
def fileLines (file : Str) : List Str := ((file.splitOn '\n').map trim).filter (· ≠ [])

theorem fileLines_singleton {line : Str} (h : '\n' ∉ line) :
    fileLines line = [trim line].filter (· ≠ []) := by
  rw [fileLines, List.splitOn_eq_singleton h, List.map_singleton]

theorem fileLines_append {line : Str} (h : '\n' ∉ line) (text : Str) :
    fileLines (line ++ '\n' :: text) = [trim line].filter (· ≠ []) ++ fileLines text := by
  rw [fileLines, List.splitOn_append_cons_self, List.map_append, List.filter_append,
    List.splitOn_eq_singleton h, List.map_singleton, fileLines]

theorem fileLines_extractLine (text : Str) :
    fileLines text =
      [trim (extractLine text).1].filter (· ≠ []) ++ fileLines (extractLine text).2 := by
  have hline : '\n' ∉ (extractLine text).1 := fun h => by
    simpa using List.mem_takeWhile_imp h
  rw [extractLine] at hline ⊢
  have happend := List.takeWhile_append_dropWhile (p := fun c => decide (c ≠ '\n')) (l := text)
  cases hrest : text.dropWhile (· ≠ '\n') with
  | nil =>
    rw [hrest, List.append_nil] at happend
    rw [happend] at hline ⊢
    rw [fileLines_singleton hline]
    simp [fileLines, trim_of_space]
  | cons c rest =>
    have hc : decide (c ≠ '\n') = false :=
      not_of_mem_head?_dropWhile (p := fun c => decide (c ≠ '\n')) (s := text) (by rw [hrest]; rfl)
    rw [decide_eq_false_iff_not, not_not] at hc
    rw [hrest, hc] at happend
    conv_lhs => rw [← happend]
    exact fileLines_append hline rest

theorem lineLoop_eq_fileLines (text : Str) : lineLoop text = fileLines text := by
  induction text using lineLoop.induct with
  | case1 =>
    rw [lineLoop, dif_pos rfl]
    simp [fileLines, trim_of_space]
  | case2 text h line hline ih =>
    rw [lineLoop, dif_neg h, if_pos hline, fileLines_extractLine text, ih,
      List.filter_cons_of_pos (by simpa using hline)]
    rfl
  | case3 text h line hline ih =>
    rw [lineLoop, dif_neg h, if_neg hline, fileLines_extractLine text, ih,
      List.filter_cons_of_neg (by simpa using hline)]
    rfl

theorem cStr_filebuffer {file : Str} (hnul : '\x00' ∉ file) (hsize : file.length < 20000) :
    cStr (filebuffer file) = file := by
  obtain ⟨n, hn⟩ := Nat.exists_eq_add_of_lt hsize
  have hrest : 20000 - file.length = n + 1 := by omega
  rw [filebuffer, List.take_of_length_le hsize.le, hrest, List.replicate_succ,
    cStr_append_nul hnul]

theorem readParameters_of_fits {file : Str} (hnul : '\x00' ∉ file) (hsize : file.length < 20000)
    (serverParameters : ParameterMap) (noComments : Bool) :
    readParameters serverParameters noComments (some file) =
      parameterLoop noComments serverParameters (fileLines file) := by
  have hmem : '\x00' ∈ filebuffer file := by
    rw [filebuffer, List.mem_append, List.mem_replicate]
    exact Or.inr ⟨by omega, rfl⟩
  rw [readParameters, if_pos hmem, toNoEmptyLines, cStr_filebuffer hnul hsize,
    lineLoop_eq_fileLines]

theorem nul_notMem_of_mem_fileLines {file line : Str} (hnul : '\x00' ∉ file)
    (h : line ∈ fileLines file) : '\x00' ∉ line := by
  obtain ⟨raw, hraw, rfl⟩ := List.mem_map.mp (List.mem_of_mem_filter h)
  intro hc
  apply hnul
  have hmem : '\x00' ∈ ['\n'].intercalate (file.splitOn '\n') :=
    mem_intercalate_of_mem hraw (mem_of_mem_trim hc)
  rwa [List.intercalate_splitOn] at hmem

theorem trimString_of_mem_fileLines {file line : Str} (hnul : '\x00' ∉ file)
    (h : line ∈ fileLines file) : trimString line = line := by
  have hline := nul_notMem_of_mem_fileLines hnul h
  obtain ⟨raw, -, rfl⟩ := List.mem_map.mp (List.mem_of_mem_filter h)
  exact trimString_of_trimmed hline (trimmed_trim raw)

/-- The line is no comment, and behind its first colon is nothing but an opening brace. -/
def Opens (line : Str) : Prop :=
  line.head? ≠ some '#' ∧ trimString (splitString line ':').2 = ['\x7b']

section steps
variable {serverParameters : ParameterMap} {pardef : Str} {lit : List Str}

theorem parameterLoop_of_comment (h : pardef.head? = some '#') :
    parameterLoop true serverParameters (pardef :: lit) =
      parameterLoop true serverParameters lit := by
  rw [parameterLoop, if_pos (by simp [h])]

theorem parameterLoop_of_plain (hcomment : pardef.head? ≠ some '#')
    (hterm : trimString (splitString pardef ':').2 ≠ ['\x7b']) :
    parameterLoop true serverParameters (pardef :: lit) =
      parameterLoop true (serverParameters.insert (trimString (splitString pardef ':').1)
        (trimString (splitString pardef ':').2)) lit := by
  rw [parameterLoop, if_neg (by simp [hcomment])]
  exact if_pos hterm

theorem parameterLoop_of_opens (h : Opens pardef) :
    parameterLoop true serverParameters (pardef :: lit) =
      (blockLoop [] [] lit).bind fun r => parameterLoop true
        (serverParameters.insert (trimString (splitString pardef ':').1) r.1) r.2 := by
  rw [parameterLoop, if_neg (by simp [h.1])]
  refine (if_neg (not_not.mpr h.2)).trans ?_
  split
  · rename_i hnone
    rw [hnone, Option.bind_none]
  · rename_i r hr
    rw [hr, Option.bind_some]

end steps

/-- Every line that opens a block has a closing line somewhere behind it. -/
def BlocksClose : List Str → Prop
  | [] => True
  | line :: lines => (Opens line → ['\x7d'] ∈ lines) ∧ BlocksClose lines

theorem not_opens_brace : ¬ Opens ['\x7d'] := by
  intro h
  have hterm : trimString (splitString ['\x7d'] ':').2 = [] := by decide
  rw [Opens, hterm] at h
  exact absurd h.2 (by simp)

theorem blocksClose_append_iff (block lines : List Str) :
    BlocksClose (block ++ ['\x7d'] :: lines) ↔ BlocksClose lines := by
  induction block with
  | nil => simp [BlocksClose, not_opens_brace]
  | cons line block ih => simp [BlocksClose, ih]

/-- Where a search for a closing line ends. -/
def EndsAtBrace (lines : List Str) : Option (Str × List Str) → Prop
  | none => ['\x7d'] ∉ lines
  | some r => ∃ block, lines = block ++ ['\x7d'] :: r.2

theorem EndsAtBrace.cons {line : Str} (hline : line ≠ ['\x7d']) {lines : List Str}
    {r : Option (Str × List Str)} (h : EndsAtBrace lines r) : EndsAtBrace (line :: lines) r := by
  cases r with
  | none => simpa [EndsAtBrace, hline.symm] using h
  | some r =>
    obtain ⟨block, rfl⟩ := h
    exact ⟨line :: block, rfl⟩

theorem blockLoop_endsAtBrace (term sep : Str) {lines : List Str}
    (htrim : ∀ line ∈ lines, trimString line = line) :
    EndsAtBrace lines (blockLoop term sep lines) := by
  induction lines generalizing term sep with
  | nil => simp [EndsAtBrace, blockLoop]
  | cons line lit ih =>
    have ih := fun term sep => ih term sep fun l hl => htrim l (List.mem_cons_of_mem line hl)
    rw [blockLoop, htrim line List.mem_cons_self]
    by_cases hbrace : line = ['\x7d']
    · rw [hbrace, if_neg (by simp), if_neg (by simp)]
      exact ⟨[], rfl⟩
    · rw [if_pos hbrace]
      split_ifs
      · exact (ih term sep).cons hbrace
      · exact (ih _ _).cons hbrace

/-- The way of the outer loop through trimmed lines: past a comment, past a line of its own, or
behind the block that a line opens, if that is closed. -/
theorem trimmedLines_induction {motive : List Str → Prop} (nil : motive [])
    (comment : ∀ pardef lit, pardef.head? = some '#' → motive lit → motive (pardef :: lit))
    (plain : ∀ pardef lit, pardef.head? ≠ some '#' →
      trimString (splitString pardef ':').2 ≠ ['\x7b'] → motive lit → motive (pardef :: lit))
    (block : ∀ pardef lit, Opens pardef → (∀ line ∈ lit, trimString line = line) →
      (∀ r, blockLoop [] [] lit = some r → motive r.2) → motive (pardef :: lit))
    {lines : List Str} (htrim : ∀ line ∈ lines, trimString line = line) : motive lines := by
  induction hn : lines.length using Nat.strong_induction_on generalizing lines with
  | _ n ih =>
    subst hn
    cases lines with
    | nil => exact nil
    | cons pardef lit =>
      have hlit : ∀ line ∈ lit, trimString line = line := fun l hl =>
        htrim l (List.mem_cons_of_mem pardef hl)
      have ihlit : motive lit := ih lit.length (Nat.lt_succ_self _) hlit rfl
      by_cases hcomment : pardef.head? = some '#'
      · exact comment pardef lit hcomment ihlit
      by_cases hterm : trimString (splitString pardef ':').2 = ['\x7b']
      · refine block pardef lit ⟨hcomment, hterm⟩ hlit fun r hr => ?_
        have hstop := blockLoop_endsAtBrace [] [] hlit
        rw [hr] at hstop
        obtain ⟨front, hfront⟩ := hstop
        refine ih r.2.length ?_ (fun l hl => hlit l (by rw [hfront]; simp [hl])) rfl
        exact (blockLoop_length hr).trans (Nat.lt_succ_self _)
      · exact plain pardef lit hcomment hterm ihlit

theorem parameterLoop_isSome_iff (serverParameters : ParameterMap) {lines : List Str}
    (htrim : ∀ line ∈ lines, trimString line = line) :
    (parameterLoop true serverParameters lines).isSome ↔ BlocksClose lines := by
  refine trimmedLines_induction
    (motive := fun lines => ∀ m, (parameterLoop true m lines).isSome ↔ BlocksClose lines)
    ?nil ?comment ?plain ?block htrim serverParameters
  case nil => simp [parameterLoop, BlocksClose]
  case comment =>
    intro pardef lit hcomment ih m
    have hopens : ¬ Opens pardef := fun h => h.1 hcomment
    simp [parameterLoop_of_comment hcomment, BlocksClose, ih, hopens]
  case plain =>
    intro pardef lit hcomment hterm ih m
    have hopens : ¬ Opens pardef := fun h => hterm h.2
    simp [parameterLoop_of_plain hcomment hterm, BlocksClose, ih, hopens]
  case block =>
    intro pardef lit hopens hlit ih m
    have hstop := blockLoop_endsAtBrace [] [] hlit
    rw [parameterLoop_of_opens hopens, BlocksClose]
    cases hblock : blockLoop [] [] lit with
    | none =>
      rw [hblock] at hstop
      have hbrace : ['\x7d'] ∉ lit := hstop
      simp [hopens, hbrace]
    | some r =>
      rw [hblock] at hstop
      obtain ⟨front, hfront⟩ := hstop
      rw [Option.bind_some, ih r hblock, hfront, blocksClose_append_iff]
      simp

/-- The reader stays inside the line list exactly when every block is closed. -/
theorem readParameters_isSome_iff (serverParameters : ParameterMap) {file : Str}
    (hnul : '\x00' ∉ file) (hsize : file.length < 20000) :
    (readParameters serverParameters true (some file)).isSome ↔ BlocksClose (fileLines file) := by
  rw [readParameters_of_fits hnul hsize]
  exact parameterLoop_isSome_iff serverParameters fun _ h => trimString_of_mem_fileLines hnul h

theorem readParameters_isSome_closed :
    (readParameters ∅ true (some "a: \x7b\nb\n\x7d\n".toList)).isSome := by
  have hlines : fileLines "a: \x7b\nb\n\x7d\n".toList =
      ["a: \x7b".toList, ['b'], ['\x7d']] := by decide
  rw [readParameters_isSome_iff ∅ (by decide) (by decide), hlines]
  simp [BlocksClose, not_opens_brace]

theorem readParameters_unclosed :
    '\x00' ∉ "a: \x7b\n".toList ∧ "a: \x7b\n".toList.length < 20000 ∧
      readParameters ∅ true (some "a: \x7b\n".toList) = none := by
  have hlines : fileLines "a: \x7b\n".toList = ["a: \x7b".toList] := by decide
  have hopens : Opens "a: \x7b".toList := ⟨by decide, by decide⟩
  refine ⟨by decide, by decide, ?_⟩
  rw [readParameters_of_fits (by decide) (by decide), hlines, parameterLoop_of_opens hopens]
  rfl

end Arm2D

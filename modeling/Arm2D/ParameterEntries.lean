import Arm2D.ParameterFile

/-! # Entries of the parameter file

`read_parameters` inverts the format: what it adds to the map are the entries that the
file was written from, whatever stands around and between them. -/
namespace Arm2D

structure Key where
  text : Str
  ne_nil : text ≠ []
  trimmed : Trimmed text
  colon : ':' ∉ text
  newline : '\n' ∉ text
  comment : text.head? ≠ some '#'

structure BlockLine where
  text : Str
  ne_nil : text ≠ []
  trimmed : Trimmed text
  newline : '\n' ∉ text
  comment : text.head? ≠ some '#'
  brace : text ≠ ['\x7d']

inductive Entry where
  | plain (key : Key) (value : Str) (trimmed : Trimmed value) (newline : '\n' ∉ value)
      (brace : value ≠ ['\x7b'])
  | block (key : Key) (lines : List BlockLine)

namespace Entry

def key : Entry → Str
  | plain key _ _ _ _ => key.text
  | block key _ => key.text

def value : Entry → Str
  | plain _ value _ _ _ => value
  | block _ lines => [';'].intercalate (lines.map BlockLine.text)

/-- How the entry is written, line by line. -/
def lines : Entry → List Str
  | plain key value _ _ _ => [key.text ++ ": ".toList ++ value]
  | block key lines =>
    (key.text ++ ": \x7b".toList) :: (lines.map BlockLine.text ++ [['\x7d']])

end Entry

/-- One line of a file: a line of an entry or a comment, with spaces and tabs around it,
or nothing but these. -/
inductive FileLine where
  | content (before text after : Str) (hbefore : ∀ c ∈ before, c = ' ' ∨ c = '\t')
      (hafter : ∀ c ∈ after, c = ' ' ∨ c = '\t')
  | comment (before text : Str) (hbefore : ∀ c ∈ before, c = ' ' ∨ c = '\t')
      (newline : '\n' ∉ text)
  | blank (space : Str) (h : ∀ c ∈ space, c = ' ' ∨ c = '\t')

namespace FileLine

def text : FileLine → Str
  | content before text after _ _ => before ++ text ++ after
  | comment before text _ _ => before ++ '#' :: text
  | blank space _ => space

def content? : FileLine → Option Str
  | content _ text _ _ _ => some text
  | comment _ _ _ _ => none
  | blank _ _ => none

end FileLine

/-- The file, with or without a final newline. -/
def fileText (file : List FileLine) (newline : Bool) : Str :=
  ['\n'].intercalate (file.map FileLine.text) ++ if newline then ['\n'] else []

section keyLine
variable {key value : Str} (hne : key ≠ []) (hkey : Trimmed key) (hvalue : Trimmed value)
include hne hkey hvalue

theorem trim_keyLine :
    trim (key ++ ": ".toList ++ value) =
        key ++ ':' :: (if value = [] then [] else ' ' :: value) ∧
      Trimmed (key ++ ':' :: (if value = [] then [] else ' ' :: value)) := by
  have hcolon : Trimmed [':'] := trimmed_of_clean (by simp [isspace])
  split_ifs with hnil
  · have htrimmed := trimmed_append hne (by simp) hkey hcolon []
    rw [List.append_nil] at htrimmed
    refine ⟨?_, htrimmed⟩
    have hblank : ∀ c ∈ [' '], isspace c = true := by simp [isspace]
    have hpad := trim_append_space hblank (key ++ [':'])
    rw [trim_of_trimmed htrimmed] at hpad
    rw [hnil, ← hpad]
    simp
  · have htrimmed := trimmed_append hne hnil hkey hvalue ": ".toList
    refine ⟨(trim_of_trimmed htrimmed).trans (by simp), ?_⟩
    simpa using htrimmed

theorem head?_trim_keyLine : (trim (key ++ ": ".toList ++ value)).head? = key.head? := by
  rw [(trim_keyLine hne hkey hvalue).1, List.head?_append_of_ne_nil _ hne]

theorem splitString_keyLine (hcolon : ':' ∉ key)
    (hnul : '\x00' ∉ trim (key ++ ": ".toList ++ value)) :
    trimString (splitString (trim (key ++ ": ".toList ++ value)) ':').1 = key ∧
      trimString (splitString (trim (key ++ ": ".toList ++ value)) ':').2 = value := by
  obtain ⟨htrim, htrimmed⟩ := trim_keyLine hne hkey hvalue
  rw [htrim] at hnul ⊢
  have hsplit := splitString_append (by decide) hcolon hnul htrimmed
  rw [List.mem_append, List.mem_cons, not_or, not_or] at hnul
  rw [hsplit]
  refine ⟨trimString_of_trimmed hnul.1 hkey, ?_⟩
  have hrest := hnul.2.2
  rw [trimString, cStr_of_notMem hrest]
  split_ifs with hnil
  · rw [hnil]
    exact trim_of_space (by simp)
  · have hblank : ∀ c ∈ [' '], isspace c = true := by simp [isspace]
    have hpad := trim_space_append hblank value
    rw [trim_of_trimmed hvalue] at hpad
    simpa using hpad

end keyLine

theorem blockLoop_lines (done : List Str) {block : List Str} (lit : List Str)
    (h : ∀ l ∈ block, (trimString l).head? ≠ some '#' ∧ trimString l ≠ ['\x7d']) :
    blockLoop ([';'].intercalate done) (if done = [] then [] else [';'])
        (block ++ ['\x7d'] :: lit) =
      some ([';'].intercalate (done ++ block.map trimString), lit) := by
  induction block generalizing done with
  | nil =>
    have hbrace : trimString ['\x7d'] = ['\x7d'] := by decide
    rw [List.nil_append, blockLoop, hbrace, List.map_nil, List.append_nil]
    rfl
  | cons l block ih =>
    obtain ⟨hcomment, hbrace⟩ := h l List.mem_cons_self
    have hih := ih (done ++ [trimString l]) fun k hk => h k (List.mem_cons_of_mem l hk)
    rw [if_neg (by simp), List.append_assoc] at hih
    rw [List.cons_append, blockLoop, if_neg hcomment, if_pos hbrace, ← intercalate_concat]
    exact hih

theorem parameterLoop_keyLine (serverParameters : ParameterMap) (key : Key) {value : Str}
    (trimmed : Trimmed value) (brace : value ≠ ['\x7b']) (lit : List Str)
    (hnul : '\x00' ∉ trim (key.text ++ ": ".toList ++ value)) :
    parameterLoop true serverParameters (trim (key.text ++ ": ".toList ++ value) :: lit) =
      parameterLoop true (serverParameters.insert key.text value) lit := by
  obtain ⟨hkey, hvalue⟩ := splitString_keyLine key.ne_nil key.trimmed trimmed key.colon hnul
  have hcomment := head?_trim_keyLine key.ne_nil key.trimmed trimmed ▸ key.comment
  rw [parameterLoop_of_plain hcomment (by rw [hvalue]; exact brace), hkey, hvalue]

theorem blockLoop_blockLines {lines : List BlockLine} (hnul : ∀ l ∈ lines, '\x00' ∉ l.text)
    (lit : List Str) :
    blockLoop [] [] (lines.map BlockLine.text ++ ['\x7d'] :: lit) =
      some ([';'].intercalate (lines.map BlockLine.text), lit) := by
  have hread : ∀ l ∈ lines, trimString l.text = l.text := fun l hl =>
    trimString_of_trimmed (hnul l hl) l.trimmed
  have hkept : ∀ t ∈ lines.map BlockLine.text,
      (trimString t).head? ≠ some '#' ∧ trimString t ≠ ['\x7d'] := by
    intro t ht
    obtain ⟨l, hl, rfl⟩ := List.mem_map.mp ht
    rw [hread l hl]
    exact ⟨l.comment, l.brace⟩
  have htexts : (lines.map BlockLine.text).map trimString = lines.map BlockLine.text := by
    rw [List.map_map]
    exact List.map_congr_left hread
  have hblock := blockLoop_lines [] lit hkept
  rw [if_pos rfl, List.intercalate_nil, List.nil_append, htexts] at hblock
  exact hblock

/-- The lines of an entry add the entry to the map. -/
theorem parameterLoop_entry (serverParameters : ParameterMap) (e : Entry) (lit : List Str)
    (hnul : ∀ l ∈ e.lines, '\x00' ∉ trim l) :
    parameterLoop true serverParameters (e.lines.map trim ++ lit) =
      parameterLoop true (serverParameters.insert e.key e.value) lit := by
  cases e with
  | plain key value trimmed newline brace =>
    rw [Entry.lines, List.map_singleton, List.singleton_append]
    exact parameterLoop_keyLine serverParameters key trimmed brace lit
      (hnul _ (by simp [Entry.lines]))
  | block key lines =>
    have hbrace : Trimmed ['\x7b'] := trimmed_of_clean (by simp [isspace])
    have hline : key.text ++ ": \x7b".toList = key.text ++ ": ".toList ++ ['\x7b'] := by simp
    obtain ⟨hkey, hvalue⟩ := splitString_keyLine key.ne_nil key.trimmed hbrace key.colon
      (hline ▸ hnul _ (by simp [Entry.lines]))
    have hcomment := head?_trim_keyLine key.ne_nil key.trimmed hbrace ▸ key.comment
    have hself : ∀ l : BlockLine, trim l.text = l.text := fun l => trim_of_trimmed l.trimmed
    have hlines : (lines.map BlockLine.text ++ [['\x7d']]).map trim ++ lit =
        lines.map BlockLine.text ++ ['\x7d'] :: lit := by
      have hclose : trim ['\x7d'] = ['\x7d'] := by decide
      simp [hself, hclose, Function.comp_def]
    have hnone : ∀ l ∈ lines, '\x00' ∉ l.text := by
      intro l hl
      have hmem : l.text ∈ (Entry.block key lines).lines := by
        simp only [Entry.lines, List.mem_cons, List.mem_append]
        exact Or.inr (Or.inl (List.mem_map_of_mem hl))
      have htrim := hnul _ hmem
      rwa [hself] at htrim
    rw [Entry.lines, List.map_cons, List.cons_append, hlines, hline,
      parameterLoop_of_opens ⟨hcomment, hvalue⟩, blockLoop_blockLines hnone, Option.bind_some,
      hkey]
    rfl

theorem parameterLoop_entries (serverParameters : ParameterMap) (entries : List Entry)
    (hnul : ∀ l ∈ entries.flatMap Entry.lines, '\x00' ∉ trim l) :
    parameterLoop true serverParameters ((entries.flatMap Entry.lines).map trim) =
      some (entries.foldl (fun m e => m.insert e.key e.value) serverParameters) := by
  induction entries generalizing serverParameters with
  | nil => simp [parameterLoop]
  | cons e entries ih =>
    rw [List.flatMap_cons] at hnul ⊢
    rw [List.map_append,
      parameterLoop_entry serverParameters e _ fun l hl => hnul l (List.mem_append_left _ hl),
      ih _ fun l hl => hnul l (List.mem_append_right _ hl)]
    rfl

theorem getElem?_foldl_insert (serverParameters : ParameterMap) (entries : List Entry)
    (key : Str) :
    (entries.foldl (fun m e => m.insert e.key e.value) serverParameters)[key]? =
      ((entries.reverse.find? (·.key = key)).map Entry.value).or serverParameters[key]? := by
  induction entries using List.reverseRecOn with
  | nil => simp
  | append_singleton entries e ih =>
    rw [List.foldl_append, List.reverse_append, List.foldl_cons, List.foldl_nil,
      Std.TreeMap.getElem?_insert, ih, List.reverse_singleton, List.singleton_append,
      List.find?_cons]
    by_cases h : e.key = key
    · simp [h]
    · simp [h]

def notComment (line : Str) : Bool := line.head? ≠ some '#'

theorem blockLoop_filter (term sep : Str) {lines : List Str}
    (htrim : ∀ line ∈ lines, trimString line = line) :
    blockLoop term sep (lines.filter notComment) =
      (blockLoop term sep lines).map fun r => (r.1, r.2.filter notComment) := by
  induction lines generalizing term sep with
  | nil => rfl
  | cons line lit ih =>
    have ih := fun term sep => ih term sep fun l hl => htrim l (List.mem_cons_of_mem line hl)
    have hline := htrim line List.mem_cons_self
    by_cases hcomment : line.head? = some '#'
    · rw [List.filter_cons_of_neg (by simp [notComment, hcomment]), blockLoop, hline,
        if_pos hcomment, ih]
    · rw [List.filter_cons_of_pos (by simp [notComment, hcomment]), blockLoop, blockLoop, hline,
        if_neg hcomment, if_neg hcomment]
      split_ifs
      · exact ih _ _
      · rfl

/-- The reader does not see comments, neither between entries nor inside blocks. -/
theorem parameterLoop_filter (serverParameters : ParameterMap) {lines : List Str}
    (htrim : ∀ line ∈ lines, trimString line = line) :
    parameterLoop true serverParameters (lines.filter notComment) =
      parameterLoop true serverParameters lines := by
  refine trimmedLines_induction (motive := fun lines => ∀ m,
    parameterLoop true m (lines.filter notComment) = parameterLoop true m lines)
    ?nil ?comment ?plain ?block htrim serverParameters
  case nil => exact fun _ => rfl
  case comment =>
    intro pardef lit hcomment ih m
    rw [List.filter_cons_of_neg (by simp [notComment, hcomment]), ih,
      parameterLoop_of_comment hcomment]
  case plain =>
    intro pardef lit hcomment hterm ih m
    rw [List.filter_cons_of_pos (by simp [notComment, hcomment]),
      parameterLoop_of_plain hcomment hterm, parameterLoop_of_plain hcomment hterm, ih]
  case block =>
    intro pardef lit hopens hlit ih m
    rw [List.filter_cons_of_pos (by simp [notComment, hopens.1]), parameterLoop_of_opens hopens,
      parameterLoop_of_opens hopens, blockLoop_filter [] [] hlit]
    cases hblock : blockLoop [] [] lit with
    | none => rfl
    | some r => exact ih r hblock _

theorem Entry.lines_spec (e : Entry) {line : Str} (h : line ∈ e.lines) :
    '\n' ∉ line ∧ trim line ≠ [] ∧ notComment (trim line) = true := by
  have hkeyLine : ∀ (key : Key) (value : Str), Trimmed value → '\n' ∉ value →
      '\n' ∉ key.text ++ ": ".toList ++ value ∧ trim (key.text ++ ": ".toList ++ value) ≠ [] ∧
        notComment (trim (key.text ++ ": ".toList ++ value)) = true := by
    intro key value htrimmed hnewline
    rw [notComment, head?_trim_keyLine key.ne_nil key.trimmed htrimmed,
      (trim_keyLine key.ne_nil key.trimmed htrimmed).1, decide_eq_true_eq]
    exact ⟨by simp [key.newline, hnewline], by simp, key.comment⟩
  have hblockLine : ∀ line : Str, line ≠ [] → Trimmed line → '\n' ∉ line →
      line.head? ≠ some '#' →
        '\n' ∉ line ∧ trim line ≠ [] ∧ notComment (trim line) = true := by
    intro line hne htrimmed hnewline hcomment
    rw [trim_of_trimmed htrimmed, notComment, decide_eq_true_eq]
    exact ⟨hnewline, hne, hcomment⟩
  cases e with
  | plain key value trimmed newline brace =>
    rw [Entry.lines, List.mem_singleton] at h
    rw [h]
    exact hkeyLine key value trimmed newline
  | block key lines =>
    rw [Entry.lines, List.mem_cons, List.mem_append, List.mem_singleton] at h
    rcases h with rfl | h | rfl
    · have hopen := hkeyLine key ['\x7b'] (trimmed_of_clean (by simp [isspace])) (by decide)
      simpa using hopen
    · obtain ⟨l, -, rfl⟩ := List.mem_map.mp h
      exact hblockLine _ l.ne_nil l.trimmed l.newline l.comment
    · exact hblockLine _ (by simp) (trimmed_of_clean (by simp [isspace])) (by decide) (by decide)

theorem fileLines_fileText {file : List FileLine} (h : ∀ l ∈ file, '\n' ∉ l.text)
    (newline : Bool) :
    fileLines (fileText file newline) =
      (file.map fun l => trim l.text).filter (· ≠ []) := by
  have hnil : trim [] = [] := trim_of_space (by simp)
  rcases file with _ | ⟨l, file⟩
  · cases newline <;> decide
  · have hsplit : (['\n'].intercalate ((l :: file).map FileLine.text)).splitOn '\n' =
        (l :: file).map FileLine.text := by
      apply List.splitOn_intercalate
      · intro text htext
        obtain ⟨k, hk, rfl⟩ := List.mem_map.mp htext
        exact h k hk
      · simp
    have hmap : ((l :: file).map FileLine.text).map trim =
        (l :: file).map fun l => trim l.text := List.map_map
    rw [fileText, fileLines]
    cases newline with
    | false => rw [if_neg Bool.false_ne_true, List.append_nil, hsplit, hmap]
    | true =>
      rw [if_pos rfl, List.splitOn_append_cons_self, hsplit, List.map_append, List.filter_append,
        hmap]
      simp [hnil]

theorem FileLine.read (l : FileLine)
    (h : ∀ line ∈ l.content?, '\n' ∉ line ∧ trim line ≠ [] ∧ notComment (trim line) = true) :
    '\n' ∉ l.text ∧
      ([trim l.text].filter (· ≠ [])).filter notComment = l.content?.toList.map trim := by
  have hspace : ∀ s : Str, (∀ c ∈ s, c = ' ' ∨ c = '\t') →
      '\n' ∉ s ∧ ∀ c ∈ s, isspace c = true := by
    intro s hs
    refine ⟨fun hc => ?_, fun c hc => ?_⟩
    · simpa using hs _ hc
    · rcases hs c hc with rfl | rfl <;> simp [isspace]
  cases l with
  | content before text after hbefore hafter =>
    obtain ⟨hnewline, hne, hcomment⟩ := h text rfl
    obtain ⟨hbefore, hbspace⟩ := hspace before hbefore
    obtain ⟨hafter, haspace⟩ := hspace after hafter
    have htrim : trim (before ++ text ++ after) = trim text := trim_pad hbspace haspace text
    refine ⟨by simp [FileLine.text, hbefore, hnewline, hafter], ?_⟩
    rw [FileLine.text, htrim, List.filter_cons_of_pos (by simpa using hne),
      List.filter_nil, List.filter_cons_of_pos hcomment]
    rfl
  | comment before text hbefore hnewline =>
    obtain ⟨hbefore, hbspace⟩ := hspace before hbefore
    refine ⟨by simp [FileLine.text, hbefore, hnewline], ?_⟩
    have hhead : (trim (before ++ '#' :: text)).head? = some '#' := by
      rw [trim_space_append hbspace, head?_trim_cons (by simp [isspace])]
    simp [FileLine.text, FileLine.content?, List.filter_cons, notComment, hhead]
  | blank space hblank =>
    obtain ⟨hnewline, hspace⟩ := hspace space hblank
    exact ⟨hnewline, by simp [FileLine.text, FileLine.content?, trim_of_space hspace]⟩

theorem filter_fileLines {file : List FileLine}
    (h : ∀ line ∈ file.filterMap FileLine.content?,
      '\n' ∉ line ∧ trim line ≠ [] ∧ notComment (trim line) = true) (newline : Bool) :
    (fileLines (fileText file newline)).filter notComment =
      (file.filterMap FileLine.content?).map trim := by
  have hread : ∀ l ∈ file, '\n' ∉ l.text ∧
      ([trim l.text].filter (· ≠ [])).filter notComment = l.content?.toList.map trim :=
    fun l hl => l.read fun line hline => h line (List.mem_filterMap.mpr ⟨l, hl, hline⟩)
  rw [fileLines_fileText (fun l hl => (hread l hl).1)]
  clear h
  induction file with
  | nil => rfl
  | cons l file ih =>
    have hl := (hread l List.mem_cons_self).2
    rw [List.map_cons, ← List.singleton_append, List.filter_append, List.filter_append, hl,
      ih fun k hk => hread k (List.mem_cons_of_mem l hk), List.filterMap_cons]
    cases l.content? <;> rfl

/-- Reading a file that was written from entries adds these entries to the map, a later one
for the same key instead of an earlier one, and nothing else. -/
theorem readParameters_fileText (serverParameters : ParameterMap) {entries : List Entry}
    {file : List FileLine} {newline : Bool}
    (hfile : file.filterMap FileLine.content? = entries.flatMap Entry.lines)
    (hnul : '\x00' ∉ fileText file newline) (hsize : (fileText file newline).length < 20000) :
    ∃ m, readParameters serverParameters true (some (fileText file newline)) = some m ∧
      ∀ key : Str, m[key]? =
        ((entries.reverse.find? (·.key = key)).map Entry.value).or serverParameters[key]? := by
  have hcontent : ∀ line ∈ file.filterMap FileLine.content?,
      '\n' ∉ line ∧ trim line ≠ [] ∧ notComment (trim line) = true := by
    intro line hline
    rw [hfile] at hline
    obtain ⟨e, -, he⟩ := List.mem_flatMap.mp hline
    exact e.lines_spec he
  have hlines := filter_fileLines hcontent newline
  have hentries : ∀ l ∈ entries.flatMap Entry.lines, '\x00' ∉ trim l := by
    intro l hl
    have htrim : trim l ∈ (fileLines (fileText file newline)).filter notComment := by
      rw [hlines, hfile]
      exact List.mem_map_of_mem hl
    exact nul_notMem_of_mem_fileLines hnul (List.mem_of_mem_filter htrim)
  refine ⟨_, ?_, getElem?_foldl_insert serverParameters entries⟩
  rw [readParameters_of_fits hnul hsize, ← parameterLoop_filter serverParameters
    fun line hline => trimString_of_mem_fileLines hnul hline, hlines, hfile,
    parameterLoop_entries serverParameters entries hentries]

theorem readParameters_fileText_gear :
    ∃ m, readParameters ∅ true
        (some " # gear\na: 1\n\t\nb: \x7b\n x \n#c\ny\n\x7d\na: 2".toList) = some m ∧
      m["a".toList]? = some "2".toList ∧ m["b".toList]? = some "x;y".toList := by
  let a : Key := ⟨['a'], by decide, trimmed_of_clean (by simp [isspace]), by decide, by decide,
    by decide⟩
  let b : Key := ⟨['b'], by decide, trimmed_of_clean (by simp [isspace]), by decide, by decide,
    by decide⟩
  let x : BlockLine := ⟨['x'], by decide, trimmed_of_clean (by simp [isspace]), by decide,
    by decide, by decide⟩
  let y : BlockLine := ⟨['y'], by decide, trimmed_of_clean (by simp [isspace]), by decide,
    by decide, by decide⟩
  let entries : List Entry :=
    [.plain a ['1'] (trimmed_of_clean (by simp [isspace])) (by decide) (by decide),
      .block b [x, y],
      .plain a ['2'] (trimmed_of_clean (by simp [isspace])) (by decide) (by decide)]
  let line := fun text : Str => FileLine.content [] text [] (by simp) (by simp)
  let file : List FileLine :=
    [.comment [' '] " gear".toList (by simp) (by decide), line "a: 1".toList,
      .blank ['\t'] (by simp), line "b: \x7b".toList,
      .content [' '] ['x'] [' '] (by simp) (by simp), .comment [] ['c'] (by simp) (by decide),
      line ['y'], line ['\x7d'], line "a: 2".toList]
  have hfile : file.filterMap FileLine.content? = entries.flatMap Entry.lines := by rfl
  have hnul : '\x00' ∉ fileText file false := by decide
  obtain ⟨m, hread, hm⟩ := readParameters_fileText ∅ hfile hnul (by decide)
  exact ⟨m, hread, (hm _).trans (by rfl), (hm _).trans (by rfl)⟩

end Arm2D

import Arm2D.MoveToPattern
import Arm2D.TargetReports
import Arm2D.ToItems

/-! # Commands that name a position

`move_to_position` reads one position from the operator, `move_to_position_list` reads several
from the parameters, and `move_relative_to_pattern` takes one from a pattern, relative to where
the arm was sent before. -/
namespace Arm2D
open Library

section program
variable {R : Type} [Field R]

/-- What `move_to_position` reads from the word `XY_pair`. -/
def positionOf (xyPair : Str) : Option (R × R) := do
  let xyPair ← if xyPair.head? = some '(' then substr xyPair 1 none else some xyPair
  let X : R := atof xyPair
  let xyPair ← substr xyPair (posAfter (find [','] xyPair 0)) none
  let Y : R := atof xyPair
  return (X, Y)

/-- One item of the list of `move_to_position_list`. -/
def listedPosition (coord : Str) : R × R :=
  let (xstr, ystr) := splitString coord ','
  (atof xstr, atof ystr)

/-- The point that belongs to a pattern, from the last point: its offset, and the offset to
the next one. -/
def relativeOffset (offsetTotal : ℕ → R × R) (p : SinkParameters) (t : ℕ) : Option (R × R) := do
  let (xHat, yHat) := offsetTotal t
  let nextTargetOffset := p.target t "travel_offset".toList
  let xystr ← substr nextTargetOffset 0 (find [','] nextTargetOffset 0)
  let offsetX : R := atof xystr
  let xystr ← substr nextTargetOffset (posAfter (find [','] nextTargetOffset 0)) none
  let offsetY : R := atof xystr
  return (xHat + offsetX, yHat + offsetY)

variable [LinearOrder R] [FloorRing R] [Libm R] [PiConstant R] {g : ArmParameters R}

def moveToPosition (fuel : ℕ) (s : System g) (xyPair : Str) : Option (System g) := do
  let (X, Y) ← positionOf xyPair
  s.moveByCommand fuel X Y

def moveToPositionList (fuel : ℕ) (s : System g) (serverParameters : ParameterMap) :
    Option (System g) :=
  let positions := serverParameter serverParameters "TEST_POSITIONS".toList
  s.moves fuel ((toItems positions ' ').map listedPosition)

/-- `move_relative_to_pattern`; what `fov_center_offset` computes is overwritten, but it
follows the pointer to the sensor. -/
def moveRelativeToPattern (w : PatternField R) (p : SinkParameters) (fuel : ℕ) (s : System g)
    (ts : Targets R) (patternId : Str) : Option (System g × Targets R) :=
  match ts.travelMap patternId with
  | none => some (s, ts)
  | some t => do
    let ts ← waitForPattern w.camera t fuel 0 ts
    let _ ← (ts.heap t).fovCenterOffset 0 0
    let (x, y) ← relativeOffset w.offsetTotal p t
    let s ← s.moveByCommand fuel (x + s.currentX) (y + s.currentY)
    return (s, ts)

end program

section stop
variable {p : Char → Bool} {c : Char} (hc : p c = false)
include hc

theorem takeWhile_append_stop (a b : Str) :
    (a ++ c :: b).takeWhile p = a.takeWhile p := by
  induction a with
  | nil => exact List.takeWhile_cons_of_neg (by simp [hc])
  | cons d a ih =>
    rw [List.cons_append, List.takeWhile_cons, List.takeWhile_cons, ih]

theorem dropWhile_append_stop (a b : Str) :
    (a ++ c :: b).dropWhile p = a.dropWhile p ++ c :: b := by
  induction a with
  | nil => exact List.dropWhile_cons_of_neg (by simp [hc])
  | cons d a ih =>
    rw [List.cons_append, List.dropWhile_cons, List.dropWhile_cons, ih]
    split_ifs <;> rfl

end stop

/-- A letter with which no number goes on or begins. -/
structure EndsNumber (c : Char) : Prop where
  digit : c.isDigit = false
  space : isspace c = false
  point : c ≠ '.'
  exponent : c ≠ 'e' ∧ c ≠ 'E'
  sign : c ≠ '-' ∧ c ≠ '+'
  nul : c ≠ '\x00'

theorem endsNumber_comma : EndsNumber ',' := by
  constructor <;> decide

theorem endsNumber_close : EndsNumber ')' := by
  constructor <;> decide

theorem takeSign_of_ne {c : Char} (hminus : c ≠ '-') (hplus : c ≠ '+') (s : Str) :
    takeSign (c :: s) = (false, c :: s) := by
  unfold takeSign
  split
  · rename_i heq
    exact absurd (List.cons.inj heq).1 hminus
  · rename_i heq
    exact absurd (List.cons.inj heq).1 hplus
  · rfl

section ends
variable {e : Char} (he : EndsNumber e)
include he

theorem takeSign_append_end (a b : Str) :
    takeSign (a ++ e :: b) = ((takeSign a).1, (takeSign a).2 ++ e :: b) := by
  cases a with
  | nil => exact takeSign_of_ne he.sign.1 he.sign.2 b
  | cons c a =>
    by_cases hminus : c = '-'
    · subst hminus
      rfl
    · by_cases hplus : c = '+'
      · subst hplus
        rfl
      · rw [List.cons_append, takeSign_of_ne hminus hplus, takeSign_of_ne hminus hplus,
          List.cons_append]

theorem exponentPart_append_end (a b : Str) :
    exponentPart (a ++ e :: b) = exponentPart a := by
  cases a with
  | nil => simp [exponentPart, he.exponent]
  | cons c a =>
    rw [List.cons_append, exponentPart, exponentPart, takeSign_append_end he,
      takeWhile_append_stop he.digit]

theorem atof_append_end {a : Str} (hnul : '\x00' ∉ a) (b : Str) :
    atof (a ++ e :: b) = atof a := by
  have hcStr : cStr (a ++ e :: b) = a ++ e :: cStr b := by
    rw [cStr, List.takeWhile_append_of_pos, List.takeWhile_cons_of_pos]
    · rfl
    · exact decide_eq_true he.nul
    · intro c hc
      rw [decide_eq_true_eq]
      rintro rfl
      exact hnul hc
  rw [atof, atof, hcStr, cStr_of_notMem hnul, dropWhile_append_stop he.space,
    takeSign_append_end he, takeWhile_append_stop he.digit, dropWhile_append_stop he.digit]
  generalize (takeSign (a.dropWhile isspace)).2.takeWhile Char.isDigit = whole
  generalize (takeSign (a.dropWhile isspace)).2.dropWhile Char.isDigit = rest
  cases rest with
  | nil =>
    have hexponent := exponentPart_append_end he [] (cStr b)
    simp only [List.nil_append] at hexponent ⊢
    simp [hexponent, he.point]
  | cons c rest =>
    have hexponent := exponentPart_append_end he (c :: rest) (cStr b)
    simp only [List.cons_append, List.head?_cons, List.tail_cons,
      takeWhile_append_stop he.digit, dropWhile_append_stop he.digit] at hexponent ⊢
    by_cases hpoint : c = '.'
    · simp only [hpoint, if_true, exponentPart_append_end he]
    · simp only [Option.some.injEq, hpoint, if_false, hexponent]

end ends

theorem toItems_eq_words {s : Str} (hnul : '\x00' ∉ s) (h : s = [] ∨ ¬ Blank s) :
    toItems s ' ' = words isspace s ∧ ∀ w ∈ words isspace s,
      w ≠ [] ∧ ∀ c ∈ w, isspace c = false ∧ c ≠ '\x00' := by
  rcases h with rfl | hletter
  · rw [toItems, dif_pos rfl, words_nil]
    exact ⟨rfl, fun w hw => absurd hw List.not_mem_nil⟩
  · have hcut := toItems_wordCut (fun h => hnul (mem_of_mem_trim h)) (trim_ne_nil hletter)
      (trimmed_trim s)
    have hwords : toItems s ' ' = words isspace s := by
      rw [← toItems_trim hnul hletter, hcut.eq_words, words_trim]
    refine ⟨hwords, fun w hw => ?_⟩
    rw [← hwords, ← toItems_trim hnul hletter] at hw
    obtain ⟨hne, hletters⟩ := hcut.of_mem hw
    refine ⟨hne, fun c hc => ⟨(hletters c hc).1, ?_⟩⟩
    rintro rfl
    exact hnul (mem_of_mem_trim (hletters _ hc).2)

section typed
variable {R : Type} [Field R]

theorem positionOf_eq_listedPosition {w : Str}
    (hword : ∀ c ∈ w, isspace c = false ∧ c ≠ '\x00') (hcomma : ',' ∈ w)
    (hopen : w.head? ≠ some '(') :
    positionOf w = some (listedPosition w : R × R) := by
  obtain ⟨a, b, rfl, ha⟩ := List.eq_append_cons_of_mem hcomma
  have hnul : '\x00' ∉ a ++ ',' :: b := fun h => (hword _ h).2 rfl
  have hsplit : splitString (a ++ ',' :: b) ',' = (a.dropWhile isspace, b) :=
    splitString_first (by decide) ha hnul fun c hc => (hword c (List.mem_of_getLast? hc)).1
  have hclean : a.dropWhile isspace = a := by
    rw [List.dropWhile_eq_self_iff]
    intro hne
    rw [(hword _ (List.mem_append_left _ (List.getElem_mem hne))).1]
    exact Bool.false_ne_true
  have hfind : find [','] (a ++ ',' :: b) 0 = some a.length := by
    simpa using find_append [] ha b
  rw [positionOf, if_neg hopen, listedPosition, hsplit, hclean]
  simp only [Option.bind_eq_bind, Option.bind_some, hfind, posAfter,
    atof_append_end endsNumber_comma fun h => hnul (List.mem_append_left _ h)]
  rw [substr_npos (by simp)]
  simp

variable [LinearOrder R] [FloorRing R] [Libm R] [PiConstant R] {g : ArmParameters R}

/-- The list does what the operator gets who types its words in, one by one. -/
theorem moveToPositionList_eq_typed (fuel : ℕ) (s : System g) (serverParameters : ParameterMap)
    (hnul : '\x00' ∉ serverParameter serverParameters "TEST_POSITIONS".toList)
    (hletter : serverParameter serverParameters "TEST_POSITIONS".toList = [] ∨
      ¬ Blank (serverParameter serverParameters "TEST_POSITIONS".toList))
    (hpairs : ∀ w ∈ words isspace (serverParameter serverParameters "TEST_POSITIONS".toList),
      ',' ∈ w ∧ w.head? ≠ some '(') :
    moveToPositionList fuel s serverParameters =
      (words isspace (serverParameter serverParameters "TEST_POSITIONS".toList)).foldlM
        (moveToPosition fuel) s := by
  obtain ⟨hitems, hwords⟩ := toItems_eq_words hnul hletter
  rw [moveToPositionList, hitems, System.moves, List.foldlM_map]
  clear hitems
  generalize words isspace (serverParameter serverParameters "TEST_POSITIONS".toList) = ws
    at hpairs hwords
  induction ws generalizing s with
  | nil => rfl
  | cons w ws ih =>
    obtain ⟨hcomma, hopen⟩ := hpairs w List.mem_cons_self
    have hread := positionOf_eq_listedPosition (R := R) (hwords w List.mem_cons_self).2 hcomma
      hopen
    have hmove : moveToPosition fuel s w =
        s.moveByCommand fuel (listedPosition w).1 (listedPosition w).2 := by
      rw [moveToPosition, hread]
      rfl
    rw [List.foldlM_cons, List.foldlM_cons, hmove]
    congr 1
    funext s'
    exact ih s' (fun w' hw' => hpairs w' (List.mem_cons_of_mem w hw'))
      fun w' hw' => hwords w' (List.mem_cons_of_mem w hw')

/-- A point with decimal coordinates. -/
structure WrittenPoint where
  x : Numeral
  y : Numeral

namespace WrittenPoint

def text (p : WrittenPoint) : Str := p.x.text ++ ',' :: p.y.text

def value (R : Type) [Field R] (p : WrittenPoint) : R × R := (p.x.value, p.y.value)

theorem nul_notMem_text (p : WrittenPoint) : '\x00' ∉ p.text := by
  simp [text, Numeral.nul_notMem_text]

theorem isspace_of_mem_text (p : WrittenPoint) {c : Char} (h : c ∈ p.text) :
    isspace c = false := by
  rcases List.mem_append.mp h with h | h
  · exact p.x.isspace_of_mem_text h
  · rcases List.mem_cons.mp h with rfl | h
    · decide
    · exact p.y.isspace_of_mem_text h

theorem head?_text (p : WrittenPoint) : p.text.head? ≠ some '(' := by
  rw [text, List.head?_append_of_ne_nil _ p.x.text_ne_nil]
  exact fun h => p.x.notMem_text (by decide) (by decide) (by decide) (by decide)
    (List.mem_of_head? h)

omit [LinearOrder R] [FloorRing R] [Libm R] [PiConstant R] in
theorem positionOf_text (p : WrittenPoint) : positionOf p.text = some (p.value R) := by
  have hsplit : splitString p.text ',' = (p.x.text, p.y.text) :=
    splitString_append (by decide) (comma_notMem_text p.x) p.nul_notMem_text
      (trimmed_of_clean fun c => p.isspace_of_mem_text)
  rw [positionOf_eq_listedPosition
    (fun c hc => ⟨p.isspace_of_mem_text hc, fun h => p.nul_notMem_text (h ▸ hc)⟩)
    (by simp [text]) p.head?_text, listedPosition, hsplit]
  simp only [Numeral.atof_text]
  rfl

omit [LinearOrder R] [FloorRing R] [Libm R] [PiConstant R] in
theorem positionOf_parenthesised (p : WrittenPoint) :
    positionOf ('(' :: (p.text ++ [')'])) = some (p.value R) := by
  have hfind : find [','] (p.text ++ [')']) 0 = some p.x.text.length := by
    have h := find_append [] (comma_notMem_text p.x) (p.y.text ++ [')'])
    simpa [text] using h
  have hx : atof (p.text ++ [')']) = p.x.value := by
    rw [text, List.append_assoc, List.cons_append,
      atof_append_end endsNumber_comma p.x.nul_notMem_text, Numeral.atof_text]
  have hy : (p.text ++ [')']).drop (p.x.text.length + 1) = p.y.text ++ [')'] := by
    simp [text]
  rw [positionOf, if_pos List.head?_cons, substr_npos (by simp)]
  simp only [List.drop_one, List.tail_cons, Option.bind_eq_bind, Option.bind_some, hfind,
    posAfter, hx]
  rw [substr_npos (by simp [text]), Option.bind_some, hy,
    atof_append_end endsNumber_close p.y.nul_notMem_text, Numeral.atof_text]
  rfl

end WrittenPoint

/-- Points that are written down are the points that the arm is sent to: in the list, however
its words are set apart, and when typed in, with parentheses or without. -/
theorem writtenPoints_commanded (fuel : ℕ) (s : System g) :
    (∀ (ps : List WrittenPoint) (serverParameters : ParameterMap),
      '\x00' ∉ serverParameter serverParameters "TEST_POSITIONS".toList →
      (serverParameter serverParameters "TEST_POSITIONS".toList = [] ∨
        ¬ Blank (serverParameter serverParameters "TEST_POSITIONS".toList)) →
      words isspace (serverParameter serverParameters "TEST_POSITIONS".toList) =
        ps.map WrittenPoint.text →
      moveToPositionList fuel s serverParameters =
        s.moves fuel (ps.map (WrittenPoint.value R))) ∧
    ∀ p : WrittenPoint,
      moveToPosition fuel s p.text = s.moveByCommand fuel p.x.value p.y.value ∧
      moveToPosition fuel s ('(' :: (p.text ++ [')'])) =
        s.moveByCommand fuel p.x.value p.y.value := by
  constructor
  · intro ps serverParameters hnul hletter hwords
    obtain ⟨hitems, -⟩ := toItems_eq_words hnul hletter
    rw [moveToPositionList, hitems, hwords, List.map_map]
    congr 1
    refine List.map_congr_left fun p _ => ?_
    have hread := positionOf_eq_listedPosition (R := R)
      (fun c hc => ⟨p.isspace_of_mem_text hc, fun h => p.nul_notMem_text (h ▸ hc)⟩)
      (by simp [WrittenPoint.text]) p.head?_text
    rw [p.positionOf_text] at hread
    exact (Option.some.inj hread).symm
  · intro p
    constructor
    · rw [moveToPosition, p.positionOf_text]
      rfl
    · rw [moveToPosition, p.positionOf_parenthesised]
      rfl

end typed

section relative
variable {R : Type} [Field R] [PiConstant R]

theorem waitForPattern_kept {camera : ℕ → List (Str × Str)} {t fuel looks : ℕ}
    {ts ts' : Targets R} (h : waitForPattern camera t fuel looks ts = some ts') :
    ts.Kept ts' := by
  induction fuel generalizing looks ts with
  | zero => cases h
  | succ fuel ih =>
    obtain ⟨ts₁, hreceive, h⟩ := Option.bind_eq_some_iff.mp h
    rw [acquiredTarget_eq] at h
    have htaken : ts₁.Kept { ts₁ with
        heap := Function.update ts₁.heap t (ts₁.heap t).setTargetNotAcquired } := by
      refine .taken [t] ts₁ fun i => ?_
      by_cases hi : i = t
      · subst hi
        simp
      · simp [hi]
    have hlook := (Targets.Kept.receive hreceive).trans htaken
    dsimp only at h
    split_ifs at h
    · cases h
      exact hlook
    · exact hlook.trans (ih h)

variable [LinearOrder R] [FloorRing R] [Libm R] {g : ArmParameters R}

theorem moveRelativeToPattern_spec {w : PatternField R} {p : SinkParameters} {fuel : ℕ}
    {s s' : System g} {ts ts' : Targets R} {patternId : Str}
    (h : moveRelativeToPattern w p fuel s ts patternId = some (s', ts')) :
    ts.Kept ts' ∧
      match ts.travelMap patternId with
      | none => s' = s
      | some t => ∃ d : R × R, relativeOffset w.offsetTotal p t = some d ∧
        s.moveByCommand fuel (d.1 + s.currentX) (d.2 + s.currentY) = some s' := by
  unfold moveRelativeToPattern at h
  cases htravel : ts.travelMap patternId with
  | none =>
    rw [htravel] at h
    cases h
    exact ⟨.refl ts, rfl⟩
  | some t =>
    rw [htravel] at h
    obtain ⟨ts₁, hwait, h⟩ := Option.bind_eq_some_iff.mp h
    obtain ⟨-, -, h⟩ := Option.bind_eq_some_iff.mp h
    obtain ⟨d, hd, h⟩ := Option.bind_eq_some_iff.mp h
    obtain ⟨s₁, hmove, h⟩ := Option.bind_eq_some_iff.mp h
    cases h
    exact ⟨waitForPattern_kept hwait, d, hd, hmove⟩

/-- Relative moves one after the other, each with what the camera reports meanwhile. -/
def relativeMoves (offsetTotal : ℕ → R × R) (p : SinkParameters) (fuel : ℕ) :
    System g × Targets R → List (Str × (ℕ → List (Str × Str))) → Option (System g × Targets R) :=
  List.foldlM fun r c => moveRelativeToPattern ⟨offsetTotal, c.2⟩ p fuel r.1 r.2 c.1

/-- The offsets that belong to a list of patterns; an unknown one moves nothing. -/
def tourOffsets (offsetTotal : ℕ → R × R) (p : SinkParameters) (travelMap : Str → Option ℕ)
    (patternIds : List Str) : List (R × R) :=
  (patternIds.filterMap travelMap).filterMap (relativeOffset offsetTotal p)

omit [PiConstant R] [LinearOrder R] [FloorRing R] [Libm R] in
theorem tourOffsets_cons (offsetTotal : ℕ → R × R) (p : SinkParameters)
    (travelMap : Str → Option ℕ) (patternId : Str) (patternIds : List Str) :
    tourOffsets offsetTotal p travelMap (patternId :: patternIds) =
      ((travelMap patternId).bind (relativeOffset offsetTotal p)).toList ++
        tourOffsets offsetTotal p travelMap patternIds := by
  unfold tourOffsets
  rw [List.filterMap_cons]
  cases travelMap patternId with
  | none => rfl
  | some t =>
    dsimp only
    rw [List.filterMap_cons, Option.bind_some]
    cases relativeOffset offsetTotal p t <;> rfl

/-- A tour of relative moves ends at the sum of their offsets from where it began, whatever the
camera reported on the way. -/
theorem relativeMoves_add_up (offsetTotal : ℕ → R × R) (p : SinkParameters) (fuel : ℕ)
    (tour : List (Str × (ℕ → List (Str × Str)))) {s s' : System g} {ts ts' : Targets R}
    (h : relativeMoves offsetTotal p fuel (s, ts) tour = some (s', ts')) :
    (s'.currentX, s'.currentY) = (s.currentX, s.currentY) +
      (tourOffsets offsetTotal p ts.travelMap (tour.map Prod.fst)).sum := by
  induction tour generalizing s ts with
  | nil =>
    cases h
    exact (add_zero _).symm
  | cons c tour ih =>
    rw [relativeMoves, List.foldlM_cons] at h
    obtain ⟨⟨s₁, ts₁⟩, hmove, h⟩ := Option.bind_eq_some_iff.mp h
    obtain ⟨hkept, hspec⟩ := moveRelativeToPattern_spec hmove
    rw [ih h, hkept.travelMap, List.map_cons, tourOffsets_cons, List.sum_append, ← add_assoc]
    congr 1
    cases htravel : ts.travelMap c.1 with
    | none =>
      rw [htravel] at hspec
      obtain rfl : s₁ = s := hspec
      exact (add_zero _).symm
    | some t =>
      rw [htravel] at hspec
      obtain ⟨d, hd, hmoved⟩ := hspec
      obtain ⟨-, hx, hy⟩ := System.moveByCommand_spec hmoved
      rw [Option.bind_some, hd, Option.toList_some, List.sum_singleton, hx, hy]
      exact Prod.ext (add_comm _ _) (add_comm _ _)

end relative

def listedPoints : ParameterMap :=
  (∅ : ParameterMap).insert "TEST_POSITIONS".toList "1,2  3,4".toList

theorem listedPoints_text :
    serverParameter listedPoints "TEST_POSITIONS".toList = "1,2  3,4".toList := by
  decide +kernel

theorem listedPoints_letter : ¬ Blank "1,2  3,4".toList :=
  fun h => absurd (h '1' (by simp)) (by decide)

theorem listedPoints_words :
    words isspace "1,2  3,4".toList = ["1,2".toList, "3,4".toList] := by
  decide +kernel

theorem moveToPositionList_eq_typed_two :
    moveToPositionList 0 armAtOrigin listedPoints =
      ["1,2".toList, "3,4".toList].foldlM (moveToPosition 0) armAtOrigin := by
  have h := moveToPositionList_eq_typed 0 armAtOrigin listedPoints
    (by rw [listedPoints_text]; decide)
    (by rw [listedPoints_text]; exact .inr listedPoints_letter)
    (by rw [listedPoints_text, listedPoints_words]; decide)
  rwa [listedPoints_text, listedPoints_words] at h

theorem writtenPoints_commanded_two :
    moveToPositionList 0 armAtOrigin listedPoints = armAtOrigin.moves 0 [(1, 2), (3, 4)] := by
  let p : WrittenPoint := ⟨Numeral.ofInt 1, Numeral.ofInt 2⟩
  let q : WrittenPoint := ⟨Numeral.ofInt 3, Numeral.ofInt 4⟩
  have hp : p.text = "1,2".toList := by decide +kernel
  have hq : q.text = "3,4".toList := by decide +kernel
  have h := (writtenPoints_commanded 0 armAtOrigin).1 [p, q] listedPoints
    (by rw [listedPoints_text]; decide)
    (by rw [listedPoints_text]; exact .inr listedPoints_letter)
    (by rw [listedPoints_text, listedPoints_words, List.map_cons, List.map_cons, hp, hq]; rfl)
  simpa [p, q, WrittenPoint.value, Numeral.ofInt_value] using h

def tenAndTwenty : SinkParameters := ⟨fun _ _ => "10,20".toList, fun _ => fieldParameter⟩

theorem relativeOffset_tenAndTwenty :
    relativeOffset (fun _ => ((0 : ℝ), (0 : ℝ))) tenAndTwenty 0 = some (10, 20) := by
  have hfind : find [','] "10,20".toList 0 = some 2 := by decide
  have hx : atof "10".toList = 10 := by decide +kernel
  have hy : atof "20".toList = 20 := by decide +kernel
  have hfirst : substr "10,20".toList 0 (some 2) = some "10".toList := by decide
  have hsecond : substr "10,20".toList 3 none = some "20".toList := by decide
  simp only [relativeOffset, tenAndTwenty, hfind, hfirst, posAfter, hsecond, hx, hy,
    Option.bind_eq_bind, Option.bind_some, Option.pure_def]
  norm_num

theorem relativeMoves_add_up_one :
    ∃ s' ts', relativeMoves (fun _ => ((0 : ℝ), (0 : ℝ))) tenAndTwenty 2
        (armAtOrigin, unseenPattern) [("A".toList, oneReport.camera), ("B".toList, fun _ => [])] =
          some (s', ts') ∧
      (s'.currentX, s'.currentY) = (10, 20) := by
  obtain ⟨seen, hseen, -⟩ := firstSeen_oneReport
  obtain ⟨s', hmove, -⟩ := System.exists_moveByCommand armAtOrigin_simulated 2
    (10 + armAtOrigin.currentX) (20 + armAtOrigin.currentY)
  let taken : Targets ℝ := { seen with
    heap := Function.update seen.heap 0 (seen.heap 0).setTargetNotAcquired }
  have hsensor : (taken.heap 0).sensor = some (.specialization fieldParameter) := by
    have hkept := (receive_sensor hseen.reported 0).trans unseenPattern_sensor
    simpa [taken, Target.setTargetNotAcquired] using hkept
  have hunknown : taken.travelMap "B".toList = none := by
    have hkept := (Targets.Kept.receive hseen.reported).travelMap
    change seen.travelMap _ = none
    rw [hkept]
    simp [unseenPattern]
  have hfirst : moveRelativeToPattern ⟨fun _ => ((0 : ℝ), (0 : ℝ)), oneReport.camera⟩
      tenAndTwenty 2 armAtOrigin unseenPattern "A".toList = some (s', taken) := by
    have hwait := waitForPattern_eq hseen Nat.one_lt_two
    simp only [moveRelativeToPattern, unseenPattern_travelMap, hwait, Option.bind_eq_bind,
      Option.bind_some, relativeOffset_tenAndTwenty, hmove, Option.pure_def]
    simp only [Target.fovCenterOffset, taken] at hsensor ⊢
    rw [hsensor]
    rfl
  have hsecond : moveRelativeToPattern ⟨fun _ => ((0 : ℝ), (0 : ℝ)), fun _ => []⟩
      tenAndTwenty 2 s' taken "B".toList = some (s', taken) := by
    rw [moveRelativeToPattern, hunknown]
  have hrun : relativeMoves (fun _ => ((0 : ℝ), (0 : ℝ))) tenAndTwenty 2
      (armAtOrigin, unseenPattern) [("A".toList, oneReport.camera), ("B".toList, fun _ => [])] =
        some (s', taken) := by
    rw [relativeMoves, List.foldlM_cons, hfirst, Option.bind_eq_bind, Option.bind_some,
      List.foldlM_cons, hsecond]
    rfl
  have hunknown₀ : unseenPattern.travelMap "B".toList = none := by
    simp [unseenPattern]
  refine ⟨s', taken, hrun, ?_⟩
  rw [relativeMoves_add_up _ _ _ _ hrun]
  simp only [List.map_cons, List.map_nil, tourOffsets_cons, unseenPattern_travelMap, hunknown₀,
    Option.bind_some, relativeOffset_tenAndTwenty]
  simp [tourOffsets, armAtOrigin]

end Arm2D

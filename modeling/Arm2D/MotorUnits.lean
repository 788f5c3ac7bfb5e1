import Arm2D.Drives
import Arm2D.StepCounts

/-! # Motor units

`check_vars` writes the arm's step counts into the macros that tell a drive where it is;
`step_n_motion` multiplies by the gear ratio what it asks for. -/
namespace Arm2D

theorem truncate_mul_eq_iff {R : Type} [Field R] [LinearOrder R] [IsStrictOrderedRing R]
    [FloorRing R] {g : R} (hg : 0 < g) (n : ℤ) :
    truncate ((n : R) * g) = n ↔ n = 0 ∨ (1 ≤ g ∧ |(n : R)| * (g - 1) < 1) := by
  unfold truncate
  rcases lt_trichotomy n 0 with hn | rfl | hn
  · have hn' : (n : R) < 0 := by exact_mod_cast hn
    rw [if_neg (not_le.mpr (mul_neg_of_neg_of_pos hn' hg)), Int.ceil_eq_iff, abs_of_neg hn']
    constructor
    · rintro ⟨hlo, hhi⟩
      refine Or.inr ⟨?_, by linarith⟩
      by_contra hlt
      have hmul := mul_lt_mul_of_neg_left (not_le.mp hlt) hn'
      linarith
    · rintro (h | ⟨hge, hlt⟩)
      · exact absurd h hn.ne
      · have hmul := mul_le_mul_of_nonpos_left hge hn'.le
        exact ⟨by linarith, by linarith⟩
  · simp
  · have hn' : (0 : R) < n := by exact_mod_cast hn
    rw [if_pos (mul_pos hn' hg).le, Int.floor_eq_iff, abs_of_pos hn']
    constructor
    · rintro ⟨hlo, hhi⟩
      refine Or.inr ⟨?_, by linarith⟩
      by_contra hlt
      have hmul := mul_lt_mul_of_pos_left (not_le.mp hlt) hn'
      linarith
    · rintro (h | ⟨hge, hlt⟩)
      · exact absurd h hn.ne'
      · have hmul := mul_le_mul_of_nonneg_left hge hn'.le
        exact ⟨by linarith, by linarith⟩

open MotorDriver

section check_vars
variable {R : Type} [Field R] [PiConstant R] {g : ArmParameters R}

def canisterMarker : Str := varMarker "CANISTER_STEPS".toList

def elbowMarker : Str := varMarker "ELBOW_STEPS".toList

def checkVars (c : ArmConfiguration g) (line : Str) : Str :=
  let line :=
    if strstr line canisterMarker then
      subst canisterMarker (decimal c.canisterCurrentSteps) line (varMarker_ne_nil _)
    else line
  if strstr line elbowMarker then
    subst elbowMarker (decimal c.elbowCurrentSteps) line (varMarker_ne_nil _)
  else line

/-- Text of a macro around a variable: no other variable, and no NUL. -/
structure Plain (s : Str) : Prop where
  brace : '\x7b' ∉ s
  nul : '\x00' ∉ s

theorem Plain.append {s t : Str} (hs : Plain s) (ht : Plain t) : Plain (s ++ t) where
  brace := by
    rw [List.mem_append, not_or]
    exact ⟨hs.brace, ht.brace⟩
  nul := by
    rw [List.mem_append, not_or]
    exact ⟨hs.nul, ht.nul⟩

theorem plain_decimal (n : ℤ) : Plain (decimal n) :=
  ⟨notMem_decimal (by decide) (by decide) n, notMem_decimal (by decide) (by decide) n⟩

theorem strstr_of_plain {s : Str} (h : Plain s) (var : Str) :
    strstr s (varMarker var) = false := by
  rw [strstr, cStr_of_notMem h.nul, varMarker, findFirst_of_notMem _ h.brace]
  rfl

theorem strstr_marker {a b var : Str} (ha : Plain a) (hb : Plain b) (hvar : '\x00' ∉ var) :
    strstr (a ++ varMarker var ++ b) (varMarker var) = true := by
  have hnul : '\x00' ∉ a ++ varMarker var ++ b := by
    simp only [varMarker, List.mem_append, List.mem_cons, List.not_mem_nil, or_false, not_or]
    exact ⟨⟨ha.nul, by decide, hvar, by decide⟩, hb.nul⟩
  rw [strstr, cStr_of_notMem hnul, varMarker, List.append_assoc, findFirst_append _ ha.brace,
    findFirst_self]
  rfl

theorem subst_marker {a b : Str} (ha : Plain a) (hb : Plain b) (var value : Str) :
    subst (varMarker var) value (a ++ varMarker var ++ b) (varMarker_ne_nil var) =
      a ++ value ++ b :=
  subst_once _ value ha.brace hb.brace

theorem checkVars_canister (c : ArmConfiguration g) {a b : Str} (ha : Plain a) (hb : Plain b) :
    checkVars c (a ++ canisterMarker ++ b) = a ++ decimal c.canisterCurrentSteps ++ b := by
  have hplain := (ha.append (plain_decimal c.canisterCurrentSteps)).append hb
  unfold checkVars canisterMarker elbowMarker
  simp only [strstr_marker ha hb (show '\x00' ∉ "CANISTER_STEPS".toList by decide),
    subst_marker ha hb, strstr_of_plain hplain, if_true, Bool.false_eq_true, if_false]

theorem strstr_canister_elbow {a b : Str} (ha : Plain a) (hb : Plain b) :
    strstr (a ++ elbowMarker ++ b) canisterMarker = false := by
  have hnul : '\x00' ∉ a ++ elbowMarker ++ b := by
    rw [List.mem_append, List.mem_append, not_or, not_or]
    exact ⟨⟨ha.nul, by decide⟩, hb.nul⟩
  have htail : '\x7b' ∉ elbowMarker.tail ++ b := by
    rw [List.mem_append, not_or]
    exact ⟨by decide, hb.brace⟩
  have hnone : findFirst canisterMarker (elbowMarker ++ b) = none := by
    have hhead : elbowMarker ++ b = '\x7b' :: (elbowMarker.tail ++ b) := rfl
    rw [hhead, findFirst, if_neg, canisterMarker, varMarker, findFirst_of_notMem _ htail,
      Option.map_none]
    rw [List.isPrefixOf_iff_prefix]
    rintro ⟨t, ht⟩
    have h1 := congrArg (·[1]?) ht
    simp [canisterMarker, elbowMarker, varMarker] at h1
  rw [strstr, cStr_of_notMem hnul, List.append_assoc]
  rw [canisterMarker, varMarker] at hnone ⊢
  rw [findFirst_append _ ha.brace, hnone]
  rfl

theorem checkVars_elbow (c : ArmConfiguration g) {a b : Str} (ha : Plain a) (hb : Plain b) :
    checkVars c (a ++ elbowMarker ++ b) = a ++ decimal c.elbowCurrentSteps ++ b := by
  unfold checkVars
  rw [strstr_canister_elbow ha hb]
  simp only [Bool.false_eq_true, if_false]
  unfold elbowMarker
  rw [strstr_marker ha hb (by decide), if_pos rfl, subst_marker ha hb]

end check_vars

def drive2 (gearRatio : ℝ) : MotorDriver ℝ :=
  { (construct 2 : MotorDriver ℝ).addParameter "single_motion_var".toList
      "ST;VE;FP{STEPS}".toList with
    gearRatio := gearRatio }

end Arm2D

import Arm2D.MotorUnits
import Arm2D.Numerals
import Arm2D.SentLines

/-! # From a command to the rotation that is asked for

`step_n_motion` multiplies by the gear ratio and cuts off, `current_rotation` divides what the
drive reports. Between them stand the text of the command and that of the reply. -/
namespace Arm2D
open Library

variable {R : Type} [Field R] [LinearOrder R] [IsStrictOrderedRing R] [FloorRing R]

/-- What is left of `n` after it went to a gear and back. -/
structure NearCommand (g : R) (n : ℤ) (v : R) : Prop where
  near : |v - n| < 1 / g
  sign : v = 0 ∨ SignType.sign v = SignType.sign (n : R)
  exact_of_integer : ∀ k : ℤ, n * g = k → v = n

theorem nearCommand_truncate {g : R} (hg : 0 < g) (n : ℤ) :
    NearCommand g n (truncate (n * g) / g) where
  near := by
    have hdiv : (truncate (n * g) : R) / g - n = ((truncate (n * g) : R) - n * g) / g := by
      field_simp
    rw [hdiv, abs_div, abs_of_pos hg]
    exact div_lt_div_of_pos_right (abs_truncate_sub_lt _) hg
  sign := by
    rcases lt_trichotomy n 0 with hn | rfl | hn
    · have hn' : (n : R) < 0 := by exact_mod_cast hn
      have hle : (truncate (n * g) : R) / g ≤ 0 := by
        apply div_nonpos_of_nonpos_of_nonneg _ hg.le
        have hlt : (n : R) * g < 1 := (mul_neg_of_neg_of_pos hn' hg).trans one_pos
        exact_mod_cast (truncate_nonpos_iff _).mpr hlt
      refine hle.eq_or_lt.imp_right fun hlt => ?_
      rw [sign_neg hlt, sign_neg hn']
    · left
      simp [truncate]
    · have hn' : (0 : R) < n := by exact_mod_cast hn
      have hge : 0 ≤ (truncate (n * g) : R) / g := by
        apply div_nonneg _ hg.le
        exact_mod_cast truncate_nonneg (mul_pos hn' hg).le
      refine hge.eq_or_lt.imp Eq.symm fun hlt => ?_
      rw [sign_pos hlt, sign_pos hn']
  exact_of_integer k hk := by
    rw [hk, truncate_intCast, ← hk, mul_div_cancel_right₀ _ hg.ne']

theorem splitString_append_space {s after : Str} (hnul : '\x00' ∉ s ++ after)
    (h : ∀ c ∈ after, isspace c = true) (c : Char) :
    splitString (s ++ after) c = splitString s c :=
  splitString_congr hnul (fun hs => hnul (List.mem_append_left _ hs)) (trim_append_space h s) c

def positionReply (index : Str) (p : Str) : Str := index ++ "SP=".toList ++ p ++ ['\r']

theorem atof_positionReply (index : ℕ) (p : ℤ) :
    atof (trimString (splitString (positionReply (decimal index) (decimal p)) '=').2) = p := by
  have hclean : ∀ k : ℤ, ∀ c ∈ decimal k, isspace c = false := by
    intro k c hc
    rw [← Numeral.ofInt_text] at hc
    exact Numeral.isspace_of_mem_text _ hc
  have hnul : ∀ k : ℤ, '\x00' ∉ decimal k := notMem_decimal (by decide) (by decide)
  have hequals : '=' ∉ decimal index := notMem_decimal (by decide) (by decide) index
  have hsplit : splitString (positionReply (decimal index) (decimal p)) '=' =
      (decimal index ++ "SP".toList, decimal p) := by
    have htext : positionReply (decimal index) (decimal p) =
        (decimal index ++ "SP".toList) ++ '=' :: decimal p ++ ['\r'] := by
      simp [positionReply]
    rw [htext, splitString_append_space (by simp [hnul]) (by simp [isspace])]
    apply splitString_append (by decide) (by simp [hequals]) (by simp [hnul])
    apply trimmed_of_clean
    intro c hc
    simp only [List.mem_append, List.mem_cons] at hc
    rcases hc with (hc | hc) | rfl | hc
    · exact hclean _ c hc
    · simp at hc
      rcases hc with rfl | rfl <;> simp [isspace]
    · simp [isspace]
    · exact hclean _ c hc
  rw [hsplit, trimString_of_clean (hnul p) (hclean p), atof_decimal]

namespace MotorDriver

omit [LinearOrder R] [IsStrictOrderedRing R] [FloorRing R] in
theorem currentRotation_reply {md : MotorDriver R} {port : SerialPort} {p : ℤ}
    (hreply : (md.currentRotation false port).log.getLast? =
      some (positionReply md.indexStr (decimal p))) :
    (md.currentRotation false port).val.1 = p / md.gearRatio := by
  rw [currentRotation_val, reportedAfter, hreply, indexStr]
  dsimp only
  rw [atof_positionReply, Rat.cast_intCast]

end MotorDriver

omit [IsStrictOrderedRing R] in
theorem Drives.stepNMotion_driver {d d' : Drives R} {motor : ℕ} {md : MotorDriver R} {n : ℤ}
    (hdriver : d.motorDriverArray (motor - 1) = some md) (hsent : d.stepNMotion motor n = some d') :
    d'.motorDriverArray (motor - 1) = some (md.runActionVar d.useSimulations d.serialPort
      "single_motion_var".toList "STEPS".toList (stepString md n)).val.1 := by
  have hmotor : (if motor > 0 then motor - 1 else motor) = motor - 1 := by
    split_ifs <;> omega
  rw [stepNMotion, hmotor, hdriver] at hsent
  cases hsent
  exact put_same _ _ _

omit [IsStrictOrderedRing R] in
theorem Drives.stepNMotion_writes_position {d d' : Drives R} {motor : ℕ} {md : MotorDriver R}
    {n : ℤ} (hdriver : d.motorDriverArray (motor - 1) = some md)
    (hidle : md.shortCommandList = []) {a b : Str} (ha : Plain a) (hb : Plain b)
    (hmotion : md.parameterAt "single_motion_var".toList =
      a ++ MotorDriver.varMarker "STEPS".toList ++ b)
    (hsent : d.stepNMotion motor n = some d') :
    MotorDriver.Sends ((toItems (a ++ stepString md n ++ b) ';').map fun item =>
      cStr (md.indexStr ++ item)) d.useSimulations d.serialPort d'.serialPort := by
  have hslot : slot motor = motor - 1 := by
    unfold slot
    split_ifs <;> omega
  have hempty : ∀ md' ∈ d.motorDriverArray (slot motor), md'.shortCommandList = [] := by
    intro md' h
    rw [hslot, hdriver, Option.mem_some_iff] at h
    rwa [← h]
  have hsends := stepNMotion_sends hempty hsent
  rw [hslot, motionLines, hdriver, Option.map_some, Option.getD_some, DriverCall.lines,
    DriverCall.items, MotorDriver.actionText, hmotion, subst_marker ha hb] at hsends
  exact hsends

/-- A geared drive is told to go to `n`: its position `p` is what the line on the wire has in
the place of the variable. When the drive reports `p`, in the last reply that is read or in one
whole line on the port, `current_rotation` returns `n` up to less than one step of the drive. -/
theorem gear_round_trip {md : MotorDriver R} {value : Str}
    (hvalue : md.parameters "gear_ratio".toList = some value) {d d' : Drives R} {motor : ℕ}
    (hdriver : d.motorDriverArray (motor - 1) = some md.specialization) {n : ℤ}
    (hsent : d.stepNMotion motor n = some d') {md' : MotorDriver R}
    (hdriver' : d'.motorDriverArray (motor - 1) = some md') :
    let p := Drives.stepString md.specialization n
    (∀ a b, Plain a → Plain b → md.shortCommandList = [] →
      md.parameterAt "single_motion_var".toList =
        a ++ MotorDriver.varMarker "STEPS".toList ++ b →
      MotorDriver.Sends ((toItems (a ++ p ++ b) ';').map fun item => cStr (md.indexStr ++ item))
        d.useSimulations d.serialPort d'.serialPort) ∧
    (∀ port, (md'.currentRotation false port).log.getLast? =
        some (positionReply md'.indexStr p) →
      NearCommand md.specialization.gearRatio n (md'.currentRotation false port).val.1) ∧
    ∀ (query : Item) (port : SerialPort) (rest : List (Option Char)),
      md.parameters "rotation_query".toList = some query.text →
      port.polls = (positionReply md'.indexStr p).map some ++ none :: rest →
      NearCommand md.specialization.gearRatio n (md'.currentRotation false port).val.1 := by
  intro p
  have hpos : 0 < md.specialization.gearRatio :=
    MotorDriver.specialization_gearRatio_pos fun hnone => by
      rw [hvalue] at hnone
      cases hnone
  have hleft := hdriver'
  rw [Drives.stepNMotion_driver hdriver hsent, Option.some_inj] at hleft
  have hgear : md'.gearRatio = md.specialization.gearRatio := by
    rw [← hleft]
    exact MotorDriver.runLines_gearRatio _ _ _
  have hlogged : ∀ port, (md'.currentRotation false port).log.getLast? =
      some (positionReply md'.indexStr p) →
      NearCommand md.specialization.gearRatio n (md'.currentRotation false port).val.1 := by
    intro port hecho
    rw [MotorDriver.currentRotation_reply hecho, hgear]
    exact nearCommand_truncate hpos n
  refine ⟨fun a b ha hb hidle hmotion => ?_, hlogged, fun query port rest hquery hport => ?_⟩
  · have hsends := Drives.stepNMotion_writes_position hdriver
      (md.specialization_shortCommandList.trans hidle) ha hb (by
        rw [MotorDriver.parameterAt, md.specialization_parameters]
        exact hmotion) hsent
    rwa [MotorDriver.indexStr, md.specialization_index] at hsends
  · have hidle' : md'.shortCommandList = [] := by
      rw [← hleft]
      exact MotorDriver.runLines_shortCommandList _ _ _
    have hquery' : md'.parameters "rotation_query".toList = some query.text := by
      rw [← hleft, ← hquery, ← md.specialization_parameters]
      exact congrFun (MotorDriver.runLines_parameters _ _ _) _
    have hcr : '\r' ∉ md'.indexStr ++ "SP=".toList ++ p := by
      simp only [List.mem_append, not_or]
      exact ⟨⟨notMem_decimal (by decide) (by decide) _, by decide⟩,
        notMem_decimal (by decide) (by decide) _⟩
    obtain ⟨hlog, -, -⟩ := MotorDriver.currentRotation_answered hidle' hquery' hcr hport
    exact hlogged port (by rw [hlog]; rfl)

theorem gear_round_trip_five_halves :
    let md : MotorDriver ℚ := (((MotorDriver.construct 2).addParameter "gear_ratio".toList
      "2.5".toList).addParameter "rotation_query".toList "IP".toList).addParameter
      "single_motion_var".toList "FP{STEPS}".toList
    let d : Drives ℚ := ⟨fun i => if i = 1 then some md.specialization else none, ⟨[], []⟩, false⟩
    let port : SerialPort := ⟨"2SP=7\r".toList.map some ++ [none], []⟩
    ∃ d' md', d.stepNMotion 2 3 = some d' ∧ d'.motorDriverArray 1 = some md' ∧
      MotorDriver.Sends ["2FP7".toList] false ⟨[], []⟩ d'.serialPort ∧
      NearCommand (5 / 2) 3 (md'.currentRotation false port).val.1 := by
  intro md d port
  have hvalue : md.parameters "gear_ratio".toList = some "2.5".toList := by
    simp [md, MotorDriver.addParameter]
  have hratio : md.specialization.gearRatio = 5 / 2 := by
    have hatof : atof "2.5".toList = 5 / 2 := by decide +kernel
    rw [MotorDriver.specialization, hvalue]
    simp only [hatof]
    norm_num
  have hdriver : d.motorDriverArray (2 - 1) = some md.specialization := rfl
  obtain ⟨d', hsent⟩ : ∃ d', d.stepNMotion 2 3 = some d' := ⟨_, rfl⟩
  obtain ⟨md', hmd'⟩ : ∃ md', d'.motorDriverArray (2 - 1) = some md' :=
    ⟨_, Drives.stepNMotion_driver hdriver hsent⟩
  have hindex : md'.index = 2 := by
    have hleft := hmd'
    rw [Drives.stepNMotion_driver hdriver hsent, Option.some_inj] at hleft
    rw [← hleft]
    exact (MotorDriver.runLines_index _ _ _).trans (md.specialization_index.trans rfl)
  have hstep : Drives.stepString md.specialization 3 = decimal 7 := by
    have hseven : truncate (((3 : ℤ) : ℚ) * (5 / 2)) = 7 := by
      rw [truncate_of_nonneg (by norm_num), Int.floor_eq_iff]
      norm_num
    rw [Drives.stepString, hratio, hseven]
  obtain ⟨hwritten, -, hechoed⟩ := gear_round_trip hvalue hdriver hsent hmd'
  rw [hstep] at hwritten hechoed
  rw [hratio] at hechoed
  let query : Item := ⟨"IP".toList, by decide, trimmed_of_clean (by simp [isspace]), by decide,
    by decide, by decide⟩
  have hplain : ∀ s : Str, '\x7b' ∉ s → '\x00' ∉ s → Plain s := fun s => Plain.mk
  have hitems : md.parameterAt "single_motion_var".toList =
      "FP".toList ++ MotorDriver.varMarker "STEPS".toList ++ [] := by
    simp [md, MotorDriver.parameterAt, MotorDriver.addParameter, MotorDriver.varMarker]
  have hline : ((toItems ("FP".toList ++ decimal 7 ++ []) ';').map fun item =>
      cStr (md.indexStr ++ item)) = ["2FP7".toList] := by decide +kernel
  have hport : port.polls = (positionReply md'.indexStr (decimal 7)).map some ++ none :: [] := by
    rw [MotorDriver.indexStr, hindex]
    rfl
  refine ⟨d', md', hsent, hmd', ?_, hechoed query port [] ?_ hport⟩
  · rw [← hline]
    exact hwritten "FP".toList [] (hplain _ (by decide) (by decide))
      (hplain _ (by decide) (by decide)) rfl hitems
  · simp [md, MotorDriver.addParameter, query]

end Arm2D

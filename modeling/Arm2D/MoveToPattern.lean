import Arm2D.CameraReports
import Arm2D.LocateInCell
import Arm2D.Motion

/-! # Moving to a pattern that is seen

`move_to_pattern` of arm_2d.cpp waits for a sighting of the pattern and moves the middle of
the field there. The pixel that it starts from is not that of the sighting: `X()` and `Y()`
give the target's configured offset, which the camera never writes. -/
namespace Arm2D
open Library

/-- What the command only reads: `X()` and `Y()` of each target, and the reports that come
between two of its questions. -/
structure PatternField (R : Type) where
  offsetTotal : ℕ → R × R
  camera : ℕ → List (Str × Str)

section program
variable {R : Type} [Field R] [PiConstant R]

/-- The waiting loop, for at most so many passes. -/
def waitForPattern (camera : ℕ → List (Str × Str)) (t : ℕ) :
    ℕ → ℕ → Targets R → Option (Targets R)
  | 0, _, _ => none
  | fuel + 1, looks, ts => do
    let ts ← receive (camera looks) ts
    let (acquired, target) := (ts.heap t).acquiredTarget
    let ts := { ts with heap := Function.update ts.heap t target }
    if acquired then return ts
    else waitForPattern camera t fuel (looks + 1) ts

variable [LinearOrder R] [FloorRing R] [Libm R] {g : ArmParameters R}

/-- `move_to_pattern` up to its motion, with the point that is commanded; an unknown pattern
is only reported. -/
def patternCommand (w : PatternField R) (fuel : ℕ) (s : System g) (ts : Targets R)
    (patternId : Str) : Option (Option (R × R) × Targets R) :=
  match ts.travelMap patternId with
  | none => some (none, ts)
  | some t => do
    let ts ← waitForPattern w.camera t fuel 0 ts
    let (x, y) := w.offsetTotal t
    let (x, y) ← (ts.heap t).fovCenterOffset x y
    return (some (x + s.currentX, y + s.currentY), ts)

def moveToPattern (w : PatternField R) (fuel : ℕ) (s : System g) (ts : Targets R)
    (patternId : Str) : Option (System g × Targets R) := do
  let (command, ts) ← patternCommand w fuel s ts patternId
  match command with
  | none => return (s, ts)
  | some (x, y) =>
    let s ← s.moveByCommand fuel x y
    return (s, ts)

end program

section waiting
variable {R : Type} [Field R] [PiConstant R]

theorem dataTest_sensor {t t' : Target R} {data : Str} (h : t.dataTest data = some t') :
    t'.sensor = t.sensor := by
  cases hscan : Target.hasEmptyField (cStr data) with
  | true =>
    rw [t.dataTest_of_hasEmptyField hscan] at h
    cases h
    rfl
  | false =>
    unfold Target.dataTest at h
    rw [if_neg (by rw [hscan]; exact Bool.false_ne_true)] at h
    simp only [substr_isSome (posAfter_find_le _ _ _), substr_isSome (Nat.zero_le _),
      Option.bind_eq_bind, Option.bind_some, Option.pure_def, Option.some_inj] at h
    rw [← h]

theorem receive_sensor {reports : List (Str × Str)} {ts ts' : Targets R}
    (h : receive reports ts = some ts') (i : ℕ) : (ts'.heap i).sensor = (ts.heap i).sensor := by
  refine foldlM_invariant (P := fun ts' => (ts'.heap i).sensor = (ts.heap i).sensor)
    (fun ts₁ report ts₂ hs hstep => ?_) rfl h
  dsimp only [emitToTarget] at hstep
  cases htarget : ts₁.targetMap report.1 with
  | none =>
    rw [htarget] at hstep
    cases hstep
    exact hs
  | some j =>
    rw [htarget] at hstep
    obtain ⟨t, ht, hstep⟩ := Option.bind_eq_some_iff.mp hstep
    cases hstep
    by_cases hij : i = j
    · subst hij
      simpa [dataTest_sensor ht] using hs
    · simpa [hij] using hs

theorem receive_append {reports reports' : List (Str × Str)} (ts : Targets R) :
    receive (reports ++ reports') ts = (receive reports ts).bind (receive reports') := by
  rw [receive, List.foldlM_append]
  rfl

/-- What the target objects are at the question after so many others, if none of these found
the target. -/
def reportedAt (camera : ℕ → List (Str × Str)) (looks n : ℕ) (ts : Targets R) :
    Option (Targets R) :=
  receive ((List.range' looks (n + 1)).flatMap camera) ts

theorem reportedAt_succ (camera : ℕ → List (Str × Str)) (looks n : ℕ) (ts : Targets R) :
    reportedAt camera looks (n + 1) ts =
      (receive (camera looks) ts).bind (reportedAt camera (looks + 1) n) := by
  unfold reportedAt
  rw [List.range'_succ, List.flatMap_cons, receive_append]

/-- The target is first present at the question after `n` others. -/
structure FirstSeen (camera : ℕ → List (Str × Str)) (t looks n : ℕ) (ts seen : Targets R) :
    Prop where
  reported : reportedAt camera looks n ts = some seen
  present : (seen.heap t).targetPresent = true
  absent : ∀ m < n, ∀ ts', reportedAt camera looks m ts = some ts' →
    (ts'.heap t).targetPresent = false

theorem waitForPattern_eq {camera : ℕ → List (Str × Str)} {t looks n fuel : ℕ}
    {ts seen : Targets R} (h : FirstSeen camera t looks n ts seen) (hfuel : n < fuel) :
    waitForPattern camera t fuel looks ts = some { seen with
      heap := Function.update seen.heap t (seen.heap t).setTargetNotAcquired } := by
  induction n generalizing fuel looks ts with
  | zero =>
    obtain ⟨fuel, rfl⟩ := Nat.exists_eq_add_of_le' hfuel
    have hreported := h.reported
    simp only [reportedAt, zero_add, List.range'_one, List.flatMap_cons, List.flatMap_nil,
      List.append_nil] at hreported
    simp [waitForPattern, hreported, acquiredTarget_eq, h.present]
  | succ n ih =>
    obtain ⟨fuel, rfl⟩ := Nat.exists_eq_add_of_le' (Nat.one_le_of_lt hfuel)
    have hreported := h.reported
    rw [reportedAt_succ] at hreported
    obtain ⟨ts₁, hts₁, hseen⟩ := Option.bind_eq_some_iff.mp hreported
    have habsent : (ts₁.heap t).targetPresent = false :=
      h.absent 0 (Nat.succ_pos n) ts₁ (by simpa [reportedAt] using hts₁)
    have hnext : FirstSeen camera t (looks + 1) n ts₁ seen := by
      refine ⟨hseen, h.present, fun m hm ts' hts' => h.absent (m + 1) (by omega) ts' ?_⟩
      rw [reportedAt_succ, hts₁]
      exact hts'
    have hsame : (ts₁.heap t).acquiredTarget = (false, ts₁.heap t) := by
      simp [Target.acquiredTarget, habsent]
    have hrest := ih hnext (Nat.lt_of_succ_lt_succ hfuel)
    simp only [waitForPattern, hts₁, hsame, Option.bind_eq_bind, Option.bind_some,
      Function.update_eq_self, Bool.false_eq_true, if_false]
    exact hrest

end waiting
variable {g : ArmParameters ℝ}

/-- The place in the plane at which the sensor, that looks at the recorded position, has seen
the pattern. -/
noncomputable def sightingPlace (parameter : Str → Str) (s : System g) (t : Target ℝ) : ℝ × ℝ :=
  let fovW : ℝ := atof (parameter "fov_w".toList)
  let fovH : ℝ := atof (parameter "fov_h".toList)
  let scaleX : ℝ := atof (parameter "scale_x".toList)
  let scaleY : ℝ := atof (parameter "scale_y".toList)
  (s.currentX + (t.fovX - fovW / 2) * scaleX / fovW,
    s.currentY + (fovH / 2 - t.fovY) * scaleY / fovH)

theorem patternCommand_eq (w : PatternField ℝ) (s : System g) {ts seen : Targets ℝ}
    {patternId : Str} {t n fuel : ℕ} {parameter : Str → Str}
    (htravel : ts.travelMap patternId = some t)
    (hsensor : (ts.heap t).sensor = some (.specialization parameter))
    (hseen : FirstSeen w.camera t 0 n ts seen) (hfuel : n < fuel) :
    ∃ ts', patternCommand w fuel s ts patternId = some (some
      (((w.offsetTotal t).1 - (atof (parameter "fov_w".toList) : ℝ) / 2) *
          (atof (parameter "scale_x".toList) / atof (parameter "fov_w".toList)) + s.currentX,
        ((atof (parameter "fov_h".toList) : ℝ) / 2 - (w.offsetTotal t).2) *
          (atof (parameter "scale_y".toList) / atof (parameter "fov_h".toList)) +
            s.currentY), ts') := by
  have hseenSensor : (seen.heap t).sensor = some (.specialization parameter) :=
    (receive_sensor hseen.reported t).trans hsensor
  simp [patternCommand, htravel, waitForPattern_eq hseen hfuel, Target.fovCenterOffset,
    Target.setTargetNotAcquired, hseenSensor, SensorController.specialization]

theorem moveToPattern_of_command {w : PatternField ℝ} {fuel : ℕ} {s : System g}
    {ts ts' : Targets ℝ} {patternId : Str} {command : ℝ × ℝ}
    (h : patternCommand w fuel s ts patternId = some (some command, ts')) :
    moveToPattern w fuel s ts patternId =
      (s.moveByCommand fuel command.1 command.2).map (fun s' => (s', ts')) := by
  simp only [moveToPattern, h, Option.bind_eq_bind, Option.bind_some]
  cases s.moveByCommand fuel command.1 command.2 <;> rfl

theorem offset_scaled_eq_iff {x x' c w : ℝ} (hw : w ≠ 0) (m : ℝ) :
    x * (m / w) + c = c + x' * m / w ↔ x = x' ∨ m = 0 := by
  rw [add_comm c, add_left_inj, mul_div_assoc, mul_eq_mul_right_iff, div_eq_zero_iff,
    or_iff_left hw]

/-- The one command goes to the place of the sighting exactly where the configured offset is
the sighting, up to a scale of zero. -/
theorem moveToPattern_iff (w : PatternField ℝ) (s : System g) {ts seen : Targets ℝ}
    {patternId : Str} {t n fuel : ℕ} {parameter : Str → Str}
    (htravel : ts.travelMap patternId = some t)
    (hsensor : (ts.heap t).sensor = some (.specialization parameter))
    (hw : 0 < atof (parameter "fov_w".toList)) (hh : 0 < atof (parameter "fov_h".toList))
    (hseen : FirstSeen w.camera t 0 n ts seen) (hfuel : n < fuel) :
    ∃ command ts', patternCommand w fuel s ts patternId = some (some command, ts') ∧
      moveToPattern w fuel s ts patternId =
        (s.moveByCommand fuel command.1 command.2).map (fun s' => (s', ts')) ∧
      (command = sightingPlace parameter s (seen.heap t) ↔
        ((w.offsetTotal t).1 = (seen.heap t).fovX ∨ atof (parameter "scale_x".toList) = 0) ∧
        ((w.offsetTotal t).2 = (seen.heap t).fovY ∨ atof (parameter "scale_y".toList) = 0)) := by
  obtain ⟨ts', hrun⟩ := patternCommand_eq w s htravel hsensor hseen hfuel
  have hw' : (atof (parameter "fov_w".toList) : ℝ) ≠ 0 := by exact_mod_cast hw.ne'
  have hh' : (atof (parameter "fov_h".toList) : ℝ) ≠ 0 := by exact_mod_cast hh.ne'
  refine ⟨_, ts', hrun, moveToPattern_of_command hrun, ?_⟩
  rw [sightingPlace, Prod.mk.injEq, offset_scaled_eq_iff hw', offset_scaled_eq_iff hh',
    sub_left_inj, sub_right_inj, Rat.cast_eq_zero, Rat.cast_eq_zero]

/-- The sighting of a pattern in the field of `fieldParameter`, off the centre. -/
def offCenter : Report :=
  ⟨Numeral.ofInt 400, Numeral.ofInt 200, Numeral.ofInt 0, Numeral.ofInt 90⟩

/-- One target that was not seen yet and has no configured offset. -/
noncomputable def unseenPattern : Targets ℝ where
  heap _ := { seenAt 0 0 with targetPresent := false }
  targetMap key := if key = "MT_A".toList then some 0 else none
  travelMap key := if key = "A".toList then some 0 else none

def oneReport : PatternField ℝ where
  offsetTotal _ := (0, 0)
  camera looks := if looks = 1 then [("MT_A".toList, offCenter.text)] else []

theorem firstSeen_oneReport :
    ∃ seen, FirstSeen oneReport.camera 0 0 1 unseenPattern seen ∧
      (seen.heap 0).fovX = 400 ∧ (seen.heap 0).fovY = 200 := by
  obtain ⟨t, ht, hpresent, hx, hy, -⟩ := dataTest_report (unseenPattern.heap 0) offCenter
  have hfirst : receive (oneReport.camera 0) unseenPattern = some unseenPattern := rfl
  have hregistered : unseenPattern.targetMap "MT_A".toList = some 0 := by
    simp [unseenPattern]
  have hemit : emitToTarget unseenPattern "MT_A".toList offCenter.text =
      some { unseenPattern with heap := Function.update unseenPattern.heap 0 t } := by
    rw [emitToTarget, hregistered]
    dsimp only
    rw [ht]
    rfl
  have hsecond : receive (oneReport.camera 1) unseenPattern =
      some { unseenPattern with heap := Function.update unseenPattern.heap 0 t } := by
    rw [← hemit]
    exact bind_pure _
  refine ⟨{ unseenPattern with heap := Function.update unseenPattern.heap 0 t },
    ⟨?_, ?_, ?_⟩, ?_⟩
  · rw [reportedAt_succ, hfirst, Option.bind_some, reportedAt]
    simpa using hsecond
  · simpa using hpresent
  · intro m hm ts' hts'
    obtain rfl : m = 0 := by omega
    obtain rfl : unseenPattern = ts' := by simpa [reportedAt, hfirst] using hts'
    rfl
  · simp [hx, hy, offCenter, Numeral.ofInt_value]

/-- The arm of links four and three at the origin, in a simulation. -/
noncomputable def armAtOrigin : System (⟨1, 3, 3, 20000, 20000⟩ : ArmParameters ℝ) :=
  ⟨ArmConfiguration.construct _ 0 0 2 0, Drives.allocate 2 ⟨[], []⟩ true, 0, 0⟩

theorem armAtOrigin_simulated : armAtOrigin.drives.Simulated :=
  Drives.simulated_allocate le_rfl _

theorem unseenPattern_sensor :
    (unseenPattern.heap 0).sensor = some (.specialization fieldParameter) := rfl

theorem unseenPattern_travelMap : unseenPattern.travelMap "A".toList = some 0 := by
  simp [unseenPattern]

theorem moveToPattern_iff_one_report :
    ∃ command ts', patternCommand oneReport 2 armAtOrigin unseenPattern "A".toList =
      some (some command, ts') ∧ command ≠ sightingPlace fieldParameter armAtOrigin
        (seenAt 400 200) := by
  obtain ⟨seen, hseen, hx, hy⟩ := firstSeen_oneReport
  obtain ⟨command, ts', hrun, -, hiff⟩ := moveToPattern_iff oneReport armAtOrigin
    unseenPattern_travelMap unseenPattern_sensor (by decide +kernel) (by decide +kernel)
    hseen Nat.one_lt_two
  refine ⟨command, ts', hrun, fun hplace => ?_⟩
  have hsame : sightingPlace fieldParameter armAtOrigin (seenAt 400 200) =
      sightingPlace fieldParameter armAtOrigin (seen.heap 0) := by
    simp [sightingPlace, hx, hy, seenAt]
  rcases (hiff.mp (hplace.trans hsame)).1 with hoffset | hscale
  · rw [hx] at hoffset
    norm_num [oneReport] at hoffset
  · exact absurd hscale (by decide +kernel)

theorem moveToPattern_ignores_sighting :
    (unseenPattern.heap 0).sensor = some (.specialization fieldParameter) ∧
    (∃ seen, FirstSeen oneReport.camera 0 0 1 unseenPattern seen ∧
      sightingPlace fieldParameter armAtOrigin (seen.heap 0) = (8, 4)) ∧
    ∃ s' ts', moveToPattern oneReport 2 armAtOrigin unseenPattern "A".toList = some (s', ts') ∧
      (s'.currentX, s'.currentY) = (-32, 24) := by
  obtain ⟨seen, hseen, hx, hy⟩ := firstSeen_oneReport
  obtain ⟨hw, hh⟩ := fieldParameter_size
  obtain ⟨hsx, hsy⟩ := fieldParameter_scale
  refine ⟨unseenPattern_sensor, ⟨seen, hseen, ?_⟩, ?_⟩
  · simp only [sightingPlace, hw, hh, hsx, hsy, hx, hy, armAtOrigin]
    norm_num
  · obtain ⟨ts', hrun⟩ := patternCommand_eq oneReport armAtOrigin unseenPattern_travelMap
      unseenPattern_sensor hseen Nat.one_lt_two
    obtain ⟨s', hmove, -⟩ := System.exists_moveByCommand armAtOrigin_simulated 2 (-32) 24
    have hoffset : oneReport.offsetTotal 0 = (0, 0) := rfl
    have hx₀ : armAtOrigin.currentX = 0 := rfl
    have hy₀ : armAtOrigin.currentY = 0 := rfl
    simp only [hw, hh, hsx, hsy, hoffset, hx₀, hy₀] at hrun
    norm_num at hrun
    refine ⟨s', ts', ?_, ?_⟩
    · rw [moveToPattern_of_command hrun, hmove]
      rfl
    · obtain ⟨-, hx', hy'⟩ := System.moveByCommand_spec hmove
      rw [hx', hy']

end Arm2D

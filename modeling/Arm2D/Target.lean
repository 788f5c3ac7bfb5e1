import Arm2D.Numbers
import Arm2D.StaticUtils

/-! # Targets

`class Target` with the sensor that sees it, and the maps through which the camera
thread and the arm find the same target object. -/
namespace Arm2D

variable {R : Type} [Field R] [PiConstant R]

/-- The part of `class SensorController` that places a pixel in the plane. -/
structure SensorController (R : Type) where
  scaleX : R
  scaleY : R
  fovCenterX : R
  fovCenterY : R

structure Target (R : Type) where
  sensor : Option (SensorController R)
  measurements : Str → Option R
  targetPresent : Bool
  fovX : R
  fovY : R
  fovTheta : R
  fovMatch : R
  goalX : R
  goalY : R

namespace Target

def goalOffset (t : Target R) : R × R := (t.goalX, t.goalY)

/-- `fov_center_offset`; without a sensor it follows a NULL pointer. -/
def fovCenterOffset (t : Target R) (x y : R) : Option (R × R) :=
  match t.sensor with
  | none => none
  | some s =>
    let xHat := x - s.fovCenterX
    let yHat := s.fovCenterY - y
    some (xHat * s.scaleX, yHat * s.scaleY)

/-- The scan of `data_test` for two consecutive commas. -/
def hasEmptyField : Str → Bool
  | ',' :: ',' :: _ => true
  | _ :: s => hasEmptyField s
  | [] => false

@[simp] theorem hasEmptyField_comma_comma (s : Str) :
    hasEmptyField (',' :: ',' :: s) = true := rfl

theorem hasEmptyField_cons {c : Char} (h : c ≠ ',') (s : Str) :
    hasEmptyField (c :: s) = hasEmptyField s := by
  rw [hasEmptyField]
  rintro _ rfl _
  exact h rfl

theorem hasEmptyField_comma {s : Str} (h : s.head? ≠ some ',') :
    hasEmptyField (',' :: s) = hasEmptyField s := by
  rw [hasEmptyField]
  rintro _ - rfl
  exact h rfl

theorem hasEmptyField_append {a : Str} (h : ',' ∉ a) (s : Str) :
    hasEmptyField (a ++ s) = hasEmptyField s := by
  induction a with
  | nil => rfl
  | cons c a ih =>
    rw [List.mem_cons, not_or] at h
    rw [List.cons_append, hasEmptyField_cons (fun hc => h.1 hc.symm), ih h.2]

/-- `data_test`; `none` is an exception of `substr`. -/
def dataTest (t : Target R) (data : Str) : Option (Target R) :=
  if hasEmptyField (cStr data) then some { t with targetPresent := false }
  else do
    let pair ← substr data (posAfter (find ['('] data 0)) (posBefore (find [')'] data 0))
    let xstr ← substr pair 0 (find [','] pair 0)
    let X : R := atof xstr
    let ystr ← substr pair (posAfter (find [','] pair 0)) none
    let Y : R := atof ystr
    let rest ← substr data (posAfter (find [','] data (posAfter (find [','] data 0)))) none
    let (rotation, percent) := splitString rest ','
    let THETA : R := atof rotation
    let MATCH : R := atof percent
    let update := Function.update
    return { t with
      targetPresent := true
      measurements := update (update (update (update t.measurements "X".toList X)
        "Y".toList Y) "THETA".toList THETA) "MATCH".toList MATCH
      fovX := X
      fovY := Y
      -- from degrees to radians
      fovTheta := THETA / 180 * PI
      fovMatch := MATCH }

/-- The assignments at the end of `data_test`. -/
def measure (t : Target R) (X Y THETA MATCH : R) : Target R :=
  let update := Function.update
  { t with
    targetPresent := true
    measurements := update (update (update (update t.measurements "X".toList X)
      "Y".toList Y) "THETA".toList THETA) "MATCH".toList MATCH
    fovX := X
    fovY := Y
    fovTheta := THETA / 180 * PI
    fovMatch := MATCH }

theorem dataTest_of_hasEmptyField (t : Target R) {data : Str}
    (h : hasEmptyField (cStr data) = true) :
    t.dataTest data = some { t with targetPresent := false } := by
  rw [dataTest, if_pos h]

theorem dataTest_of_not_hasEmptyField (t : Target R) {data : Str}
    (h : hasEmptyField (cStr data) = false) :
    ∃ t', t.dataTest data = some t' ∧ t'.targetPresent = true := by
  unfold dataTest
  rw [if_neg (by rw [h]; exact Bool.false_ne_true)]
  simp only [substr_isSome (posAfter_find_le _ _ _), substr_isSome (Nat.zero_le _),
    Option.bind_eq_bind, Option.bind_some, Option.pure_def]
  exact ⟨_, rfl, rfl⟩

end Target

/-- The target objects, and the maps that hold pointers to them. -/
structure Targets (R : Type) where
  heap : ℕ → Target R
  targetMap : Str → Option ℕ
  travelMap : Str → Option ℕ

/-- `emit_to_target`: the report goes to the target registered under the key. -/
def emitToTarget (ts : Targets R) (key data : Str) : Option (Targets R) :=
  match ts.targetMap key with
  | none => some ts
  | some i => do
    let t ← (ts.heap i).dataTest data
    return { ts with heap := Function.update ts.heap i t }

theorem emitToTarget_targetPresent (ts : Targets R) {key : Str} (data : Str) {i : ℕ}
    (hi : ts.targetMap key = some i) :
    ∃ ts', emitToTarget ts key data = some ts' ∧
      (ts'.heap i).targetPresent = !Target.hasEmptyField (cStr data) := by
  simp only [emitToTarget, hi]
  cases hscan : Target.hasEmptyField (cStr data) with
  | true =>
    rw [Target.dataTest_of_hasEmptyField _ hscan]
    exact ⟨_, rfl, by simp⟩
  | false =>
    obtain ⟨t, ht, hpresent⟩ := Target.dataTest_of_not_hasEmptyField (ts.heap i) hscan
    rw [ht]
    exact ⟨_, rfl, by simpa using hpresent⟩

end Arm2D

import Arm2D.BestSighting

/-! # The choice of the pattern to focus

`locate_in_cell` of arm_2d.cpp looks for the present target of a set that is nearest to the
middle of the field of view. What it takes for the middle is the corner `(fov_w, fov_h)`,
where `specialization` has the half of both. -/
namespace Arm2D
open Library

/-- The parameters of the target objects, and of the sensor that each of them has. -/
structure SinkParameters where
  target : ℕ → Str → Str
  sensor : ℕ → Str → Str

section program
variable {R : Type} [Field R]

/-- What `specialization` derives from a sensor's parameters. -/
def SensorController.specialization (parameter : Str → Str) : SensorController R :=
  let fovW : R := atof (parameter "fov_w".toList)
  let fovH : R := atof (parameter "fov_h".toList)
  { scaleX := atof (parameter "scale_x".toList) / fovW
    scaleY := atof (parameter "scale_y".toList) / fovH
    fovCenterX := fovW / 2
    fovCenterY := fovH / 2 }

structure CellScan (R : Type) where
  heap : ℕ → Target R
  distance : R
  newFocus : Option ℕ
  saveDelta : R × R

variable [LinearOrder R] [Libm R]

/-- The `dd` of the loop. -/
def Target.cellDistance (t : Target R) (midX midY : R) : R :=
  let deltaX := midX - t.fovX
  let deltaY := midY - t.fovY
  Libm.sqrt (deltaX * deltaX + deltaY * deltaY)

def CellScan.look (midX midY : R) (c : CellScan R) (pointer : ℕ) : CellScan R :=
  let (acquired, t) := (c.heap pointer).acquiredTarget
  let heap := Function.update c.heap pointer t
  let dd := t.cellDistance midX midY
  if acquired && dd < c.distance then
    ⟨heap, dd, some pointer, (midX - t.fovX, midY - t.fovY)⟩
  else { c with heap := heap }

/-- `locate_in_cell`. The set is gone through in the order of the pointers, and the entry of
the travel map that is looked up is not used. There is no result when a NULL target or
sensor is followed. -/
def locateInCell (p : SinkParameters) (currentTarget : Option ℕ) (tSet : Option (Finset ℕ))
    (xy : R × R) (ts : Targets R) : Option (Option ℕ × (R × R) × Targets R) :=
  match tSet with
  | none => some (none, xy, ts)
  | some tSet =>
    if tSet = ∅ then some (none, xy, ts)
    else do
      let current ← currentTarget
      let s ← (ts.heap current).sensor
      let midX : R := atof (p.sensor current "fov_w".toList)
      let midY : R := atof (p.sensor current "fov_h".toList)
      let scan := (tSet.sort).foldl (CellScan.look midX midY) ⟨ts.heap, 10000, none, (0, 0)⟩
      let t := scan.newFocus.getD current
      let xHat := ((scan.heap t).fovX + scan.saveDelta.1) * s.scaleX
      let yHat := ((scan.heap t).fovY + scan.saveDelta.2) * s.scaleY
      let nextTargetOffset := p.target t "travel_offset".toList
      let xystr ← substr nextTargetOffset 0 (find [','] nextTargetOffset 0)
      let offsetX : R := atof xystr
      let xystr ← substr nextTargetOffset (posAfter (find [','] nextTargetOffset 0)) none
      let offsetY : R := atof xystr
      return (some t, (xHat + offsetX, yHat + offsetY), { ts with heap := scan.heap })

/-- The `new_focus` of `locate_in_cell`, with which its loop ends. -/
def newFocus (p : SinkParameters) (current : ℕ) (tSet : Finset ℕ) (ts : Targets R) : Option ℕ :=
  let midX : R := atof (p.sensor current "fov_w".toList)
  let midY : R := atof (p.sensor current "fov_h".toList)
  ((tSet.sort).foldl (CellScan.look midX midY) ⟨ts.heap, 10000, none, (0, 0)⟩).newFocus

namespace CellScan
variable (midX midY : R)

theorem look_heap (c : CellScan R) (pointer : ℕ) :
    (c.look midX midY pointer).heap =
      Function.update c.heap pointer (c.heap pointer).setTargetNotAcquired := by
  rw [look, acquiredTarget_eq]
  dsimp only
  split_ifs <;> rfl

def selection (c : CellScan R) : Selection ℕ Rᵒᵈ :=
  ⟨fun i => (c.heap i).targetPresent, OrderDual.toDual c.distance, c.newFocus⟩

def key (heap : ℕ → Target R) (i : ℕ) : Rᵒᵈ :=
  OrderDual.toDual ((heap i).cellDistance midX midY)

theorem look_key (c : CellScan R) (pointer : ℕ) :
    key midX midY (c.look midX midY pointer).heap = key midX midY c.heap := by
  funext i
  rw [look_heap]
  by_cases hi : i = pointer
  · simp [key, hi, Target.setTargetNotAcquired, Target.cellDistance]
  · simp [key, hi]

theorem look_selection (c : CellScan R) (pointer : ℕ) :
    (c.look midX midY pointer).selection =
      c.selection.look (key midX midY c.heap) pointer := by
  have hdistance : (c.heap pointer).setTargetNotAcquired.cellDistance midX midY =
      (c.heap pointer).cellDistance midX midY := rfl
  rw [look, acquiredTarget_eq]
  simp only [Bool.and_eq_true, decide_eq_true_eq, hdistance]
  unfold selection Selection.look key
  simp only [OrderDual.toDual_lt_toDual]
  split_ifs <;> simp [update_targetPresent]

theorem foldl_look_selection (pointers : List ℕ) (c : CellScan R) :
    (pointers.foldl (look midX midY) c).selection =
      pointers.foldl (Selection.look (key midX midY c.heap)) c.selection := by
  induction pointers generalizing c with
  | nil => rfl
  | cons pointer pointers ih =>
    rw [List.foldl_cons, List.foldl_cons, ih, look_key, look_selection]

theorem foldl_look_heap (pointers : List ℕ) (c : CellScan R) :
    (pointers.foldl (look midX midY) c).heap = taken pointers c.heap := by
  funext i
  rw [taken_eq, ← foldl_update_idempotent setTargetNotAcquired_idempotent]
  exact congrFun (List.foldl_hom CellScan.heap fun c pointer =>
    (look_heap midX midY c pointer).symm).symm i

end CellScan

/-- The target was present, none of the present ones of the set is nearer to the point, and
those before it in the order of the set are farther. -/
def NearestTo (midX midY : R) (heap : ℕ → Target R) (tSet : Finset ℕ) (t : ℕ) : Prop :=
  t ∈ tSet ∧ (heap t).targetPresent = true ∧ ∀ q ∈ tSet, (heap q).targetPresent = true →
    (heap t).cellDistance midX midY ≤ (heap q).cellDistance midX midY ∧
    (q < t → (heap t).cellDistance midX midY < (heap q).cellDistance midX midY)

theorem CellScan.foldl_look_newFocus (midX midY bound : R) (heap : ℕ → Target R)
    (tSet : Finset ℕ) :
    let scan := (tSet.sort).foldl (CellScan.look midX midY) ⟨heap, bound, none, (0, 0)⟩
    (scan.newFocus = none ∧ ∀ q ∈ tSet, (heap q).targetPresent = true →
      bound ≤ (heap q).cellDistance midX midY) ∨
    ∃ t, scan.newFocus = some t ∧ NearestTo midX midY heap tSet t ∧
      (heap t).cellDistance midX midY < bound := by
  intro scan
  have hscan := Selection.foldl_look (key midX midY heap)
    (fun i => (heap i).targetPresent) (OrderDual.toDual bound) tSet.sort
  have hrefines := foldl_look_selection midX midY tSet.sort ⟨heap, bound, none, (0, 0)⟩
  dsimp only at hscan
  change scan.selection = tSet.sort.foldl (Selection.look (key midX midY heap))
    ⟨fun i => (heap i).targetPresent, OrderDual.toDual bound, none⟩ at hrefines
  rw [← hrefines] at hscan
  rcases hscan with ⟨hbest, -, hnone⟩ | ⟨t, hbest, -, ht⟩
  · refine .inl ⟨hbest, fun q hq hp => ?_⟩
    have hfar := hnone q ((Finset.mem_sort _).mpr hq)
    exact not_lt.mp fun hlt => hfar ⟨hp, hlt⟩
  · obtain ⟨hnearest, hbound⟩ := FirstGreatest.above_iff.mp ht
    rw [FirstGreatest.iff_of_sorted tSet.sortedLT_sort] at hnearest
    simp only [Finset.mem_sort] at hnearest
    exact .inr ⟨t, hbest, hnearest, hbound⟩

/-- What a call with a target in the set comes to. -/
theorem locateInCell_spec (p : SinkParameters) {current : ℕ} {s : SensorController R}
    {tSet : Finset ℕ} (xy : R × R) (ts : Targets R)
    (hsensor : (ts.heap current).sensor = some s) (hne : tSet.Nonempty) :
    let midX : R := atof (p.sensor current "fov_w".toList)
    let midY : R := atof (p.sensor current "fov_h".toList)
    ∃ t xy' ts', locateInCell p (some current) (some tSet) xy ts = some (some t, xy', ts') ∧
      ((t = current ∧ ∀ q ∈ tSet, (ts.heap q).targetPresent = true →
        10000 ≤ (ts.heap q).cellDistance midX midY) ∨
      NearestTo midX midY ts.heap tSet t ∧ (ts.heap t).cellDistance midX midY < 10000) := by
  intro midX midY
  have hscan := CellScan.foldl_look_newFocus midX midY 10000 ts.heap tSet
  unfold locateInCell
  simp only [hne.ne_empty, if_false, hsensor, Option.bind_eq_bind, Option.bind_some,
    substr_isSome (posAfter_find_le _ _ _), substr_isSome (Nat.zero_le _), Option.pure_def]
  refine ⟨_, _, _, rfl, ?_⟩
  rcases hscan with ⟨hnone, hfar⟩ | ⟨t, hfocus, ht⟩
  · exact .inl ⟨by rw [hnone, Option.getD_none], hfar⟩
  · exact .inr (by rwa [hfocus, Option.getD_some])

end program

def Central (s : SensorController ℝ) (tSet : Finset ℕ) (heap : ℕ → Target ℝ) (t : ℕ) : Prop :=
  ∀ q ∈ tSet, (heap q).targetPresent = true →
    (heap t).cellDistance s.fovCenterX s.fovCenterY ≤
      (heap q).cellDistance s.fovCenterX s.fovCenterY

/-- The target that is returned was present, and is the nearest to the centre. -/
def FocusesNearest (p : SinkParameters) (current : ℕ) (s : SensorController ℝ)
    (tSet : Finset ℕ) (xy : ℝ × ℝ) (ts : Targets ℝ) : Prop :=
  ∃ t xy' ts', locateInCell p (some current) (some tSet) xy ts = some (some t, xy', ts') ∧
    (ts.heap t).targetPresent = true ∧ Central s tSet ts.heap t

/-- The nearest present target to the corner is at less than the distance where the loop
begins, and is nearest to the centre as well. -/
def CornerAgrees (p : SinkParameters) (current : ℕ) (s : SensorController ℝ)
    (tSet : Finset ℕ) (heap : ℕ → Target ℝ) : Prop :=
  let midX : ℝ := atof (p.sensor current "fov_w".toList)
  let midY : ℝ := atof (p.sensor current "fov_h".toList)
  ∃ t, NearestTo midX midY heap tSet t ∧ (heap t).cellDistance midX midY < 10000 ∧
    Central s tSet heap t

/-- All present targets are far from the corner, and the current one was present and is the
nearest to the centre. -/
def CurrentAgrees (p : SinkParameters) (current : ℕ) (s : SensorController ℝ)
    (tSet : Finset ℕ) (heap : ℕ → Target ℝ) : Prop :=
  let midX : ℝ := atof (p.sensor current "fov_w".toList)
  let midY : ℝ := atof (p.sensor current "fov_h".toList)
  (∀ q ∈ tSet, (heap q).targetPresent = true → 10000 ≤ (heap q).cellDistance midX midY) ∧
    (heap current).targetPresent = true ∧ Central s tSet heap current

theorem NearestTo.unique {midX midY : ℝ} {heap : ℕ → Target ℝ} {tSet : Finset ℕ} {t t' : ℕ}
    (h : NearestTo midX midY heap tSet t) (h' : NearestTo midX midY heap tSet t') : t = t' := by
  obtain ⟨ht, hp, hle⟩ := h
  obtain ⟨ht', hp', hle'⟩ := h'
  rcases lt_trichotomy t t' with hlt | heq | hlt
  · exact absurd (hle t' ht' hp').1 (not_le.mpr ((hle' t ht hp).2 hlt))
  · exact heq
  · exact absurd (hle' t ht hp).1 (not_le.mpr ((hle t' ht' hp').2 hlt))

/-- The focus is right exactly where the corner and the centre agree on it. -/
theorem focusesNearest_iff (p : SinkParameters) {current : ℕ} {s : SensorController ℝ}
    {tSet : Finset ℕ} (xy : ℝ × ℝ) (ts : Targets ℝ)
    (hsensor : (ts.heap current).sensor = some s)
    (hpresent : ∃ q ∈ tSet, (ts.heap q).targetPresent = true) :
    FocusesNearest p current s tSet xy ts ↔
      CornerAgrees p current s tSet ts.heap ∨ CurrentAgrees p current s tSet ts.heap := by
  obtain ⟨q₀, hq₀, hp₀⟩ := hpresent
  obtain ⟨t, xy', ts', hrun, hchoice⟩ := locateInCell_spec p xy ts hsensor ⟨q₀, hq₀⟩
  have hfocus : FocusesNearest p current s tSet xy ts ↔
      (ts.heap t).targetPresent = true ∧ Central s tSet ts.heap t := by
    unfold FocusesNearest
    rw [hrun]
    constructor
    · rintro ⟨_, _, _, ⟨⟩, hfocus⟩
      exact hfocus
    · exact fun hfocus => ⟨t, xy', ts', rfl, hfocus⟩
  rw [hfocus]
  rcases hchoice with ⟨rfl, hfar⟩ | ⟨hnearest, hnear⟩
  · have hcorner : ¬ CornerAgrees p t s tSet ts.heap := by
      rintro ⟨t', ht', hlt, -⟩
      exact absurd (hfar t' ht'.1 ht'.2.1) (not_le.mpr hlt)
    rw [or_iff_right hcorner]
    exact ⟨fun h => ⟨hfar, h⟩, fun h => h.2⟩
  · have hcurrent : ¬ CurrentAgrees p current s tSet ts.heap := by
      rintro ⟨hfar, -⟩
      exact absurd (hfar t hnearest.1 hnearest.2.1) (not_le.mpr hnear)
    rw [or_iff_left hcurrent]
    constructor
    · exact fun h => ⟨t, hnearest, hnear, h.2⟩
    · rintro ⟨t', ht', -, hle⟩
      obtain rfl := hnearest.unique ht'
      exact ⟨hnearest.2.1, hle⟩

/-- A sensor of 640 by 480 pixels. -/
def fieldParameter (key : Str) : Str :=
  if key = "fov_w".toList then "640".toList
  else if key = "fov_h".toList then "480".toList
  else if key = "scale_x".toList then "64".toList
  else if key = "scale_y".toList then "48".toList
  else []

theorem fieldParameter_size :
    ((atof (fieldParameter "fov_w".toList) : ℚ) : ℝ) = 640 ∧
      ((atof (fieldParameter "fov_h".toList) : ℚ) : ℝ) = 480 := by
  have hw : atof (fieldParameter "fov_w".toList) = 640 := by decide +kernel
  have hh : atof (fieldParameter "fov_h".toList) = 480 := by decide +kernel
  rw [hw, hh]
  norm_num

theorem fieldParameter_scale :
    ((atof (fieldParameter "scale_x".toList) : ℚ) : ℝ) = 64 ∧
      ((atof (fieldParameter "scale_y".toList) : ℚ) : ℝ) = 48 := by
  have hx : atof (fieldParameter "scale_x".toList) = 64 := by decide +kernel
  have hy : atof (fieldParameter "scale_y".toList) = 48 := by decide +kernel
  rw [hx, hy]
  norm_num

noncomputable def fieldSensor : SensorController ℝ := .specialization fieldParameter

theorem fieldSensor_center :
    fieldSensor.fovCenterX = 320 ∧ fieldSensor.fovCenterY = 240 := by
  obtain ⟨hw, hh⟩ := fieldParameter_size
  simp only [fieldSensor, SensorController.specialization, hw, hh]
  norm_num

noncomputable def seenAt (x y : ℝ) : Target ℝ where
  sensor := some fieldSensor
  measurements _ := none
  targetPresent := true
  fovX := x
  fovY := y
  fovTheta := 0
  fovMatch := 100
  goalX := 0
  goalY := 0

theorem seenAt_cellDistance (x y midX midY : ℝ) :
    (seenAt x y).cellDistance midX midY =
      √((midX - x) * (midX - x) + (midY - y) * (midY - y)) := rfl

noncomputable def middleAnd (x y : ℝ) : Targets ℝ where
  heap i := if i = 0 then seenAt 320 240 else seenAt x y
  targetMap _ := none
  travelMap _ := none

theorem focusesNearest_iff_two_targets :
    (∀ q ∈ ({0, 1} : Finset ℕ), ((middleAnd 0 0).heap q).targetPresent = true) ∧
      FocusesNearest ⟨fun _ _ => [], fun _ => fieldParameter⟩ 1 fieldSensor {0, 1} (0, 0)
        (middleAnd 0 0) := by
  have hheap : (middleAnd 0 0).heap 0 = seenAt 320 240 ∧ (middleAnd 0 0).heap 1 = seenAt 0 0 :=
    ⟨rfl, rfl⟩
  obtain ⟨hw, hh⟩ := fieldParameter_size
  obtain ⟨hx, hy⟩ := fieldSensor_center
  have hmiddle : (seenAt 320 240).cellDistance 640 480 = 400 := by
    rw [seenAt_cellDistance, show (640 - 320 : ℝ) * (640 - 320) + (480 - 240) * (480 - 240) =
      400 * 400 by norm_num, Real.sqrt_mul_self (by norm_num)]
  have hzero : (seenAt 0 0).cellDistance 640 480 = 800 := by
    rw [seenAt_cellDistance, show (640 - 0 : ℝ) * (640 - 0) + (480 - 0) * (480 - 0) =
      800 * 800 by norm_num, Real.sqrt_mul_self (by norm_num)]
  have hcenter : (seenAt 320 240).cellDistance 320 240 = 0 := by
    rw [seenAt_cellDistance]
    norm_num
  refine ⟨by simp [hheap, seenAt], ?_⟩
  refine (focusesNearest_iff _ _ _ (by simp [hheap, seenAt])
    ⟨0, by simp, by simp [hheap, seenAt]⟩).mpr (Or.inl ⟨0, ⟨by simp, ?_, ?_⟩, ?_, ?_⟩)
  · simp [hheap, seenAt]
  · intro q hq _
    rw [hw, hh]
    rcases Finset.mem_insert.mp hq with rfl | hq
    · exact ⟨le_rfl, fun hlt => absurd hlt (lt_irrefl 0)⟩
    · rw [Finset.mem_singleton.mp hq, hheap.1, hheap.2, hmiddle, hzero]
      norm_num
  · rw [hw, hh, hheap.1, hmiddle]
    norm_num
  · intro q _ _
    rw [hheap.1, hx, hy, hcenter, Target.cellDistance]
    exact Real.sqrt_nonneg _

theorem locateInCell_takes_corner :
    let p : SinkParameters := ⟨fun _ _ => [], fun _ => fieldParameter⟩
    let ts := middleAnd 640 480
    (ts.heap 0).sensor = some fieldSensor ∧
      (∃ q ∈ ({0, 1} : Finset ℕ), (ts.heap q).targetPresent = true) ∧
      ¬ FocusesNearest p 0 fieldSensor {0, 1} (0, 0) ts := by
  intro p ts
  have hsensor : (ts.heap 0).sensor = some fieldSensor := by
    simp [ts, middleAnd, seenAt]
  have hzero : ts.heap 0 = seenAt 320 240 := rfl
  have hone : ts.heap 1 = seenAt 640 480 := rfl
  have hp : (ts.heap 1).targetPresent = true := rfl
  have hmem : 1 ∈ ({0, 1} : Finset ℕ) := by simp
  refine ⟨hsensor, ⟨1, hmem, hp⟩, fun hfocus => ?_⟩
  obtain ⟨t, xy', ts', hrun, hpresent, hle⟩ := hfocus
  obtain ⟨t', _, _, hrun', hchoice⟩ := locateInCell_spec p (0, 0) ts hsensor ⟨1, hmem⟩
  obtain ⟨hw, hh⟩ := fieldParameter_size
  have hcorner : (seenAt 640 480).cellDistance 640 480 = 0 := by
    rw [seenAt_cellDistance]
    norm_num
  have hmiddle : 0 < (seenAt 320 240).cellDistance 640 480 := by
    rw [seenAt_cellDistance]
    norm_num
  obtain rfl : t' = t := by
    rw [hrun'] at hrun
    cases hrun
    rfl
  have ht : t' = 1 := by
    simp only [p, hw, hh] at hchoice
    rcases hchoice with ⟨-, hfar⟩ | ⟨⟨ht, -, hnearest⟩, -⟩
    · have hten := hfar 1 hmem hp
      rw [hone, hcorner] at hten
      norm_num at hten
    · have hten := (hnearest 1 hmem hp).1
      rw [hone, hcorner] at hten
      rcases Finset.mem_insert.mp ht with rfl | ht
      · rw [hzero] at hten
        exact absurd hten (not_le.mpr hmiddle)
      · exact Finset.mem_singleton.mp ht
  -- The one in the middle is at the centre, that in the corner is not.
  subst ht
  have hcloser := hle 0 (by simp) rfl
  rw [hone, hzero, fieldSensor_center.1, fieldSensor_center.2, seenAt_cellDistance,
    seenAt_cellDistance] at hcloser
  norm_num at hcloser

end Arm2D

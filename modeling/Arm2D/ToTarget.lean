import Arm2D.Library.Endless
import Arm2D.MoveToPattern
import Arm2D.TargetReports

/-! # Going to the goal in stages

`to_target` of arm_2d.cpp with what it calls. It keeps a set of targets among which the next
one is looked for, and commands the arm to where this one is said to be, until it is at the
goal. What decides that is not written yet: `at_goal` never says so. -/
namespace Arm2D
open Library

/-- What `to_target` only reads. -/
structure TargetField where
  parameters : SinkParameters
  id : ℕ → Str
  level : ℕ → ℕ
  targetStorage : List ℕ

/-- The reports of each pass: those that come before the targets are looked through, and
those that come while the arm moves. -/
structure PassReports where
  seen : ℕ → List (Str × Str)
  moving : ℕ → List (Str × Str)

namespace TargetField

def findTarget (w : TargetField) (idMatch : Str) : Option ℕ :=
  w.targetStorage.find? fun t => w.id t = idMatch

def goalSetup (w : TargetField) : Option ℕ := w.findTarget "goal".toList

def perpareFirstTierTargets (w : TargetField) (tSet : Finset ℕ) : Finset ℕ :=
  w.targetStorage.foldl (fun tSet t => if w.level t = 1 then insert t tSet else tSet) tSet

/-- `init_target_list` of a new set, which is not NULL. -/
def initTargetList (w : TargetField) : Finset ℕ := w.perpareFirstTierTargets ∅

def scheduleRelativeTargets {R : Type} (w : TargetField) (heap : ℕ → Target R)
    (target : Option ℕ) (tSet : Finset ℕ) : Finset ℕ :=
  match target with
  | none => tSet
  | some _ => w.targetStorage.foldl
      (fun tSet t => if (heap t).targetPresent then insert t tSet else tSet) tSet

end TargetField

def atGoal (_goal currentTarget : Option ℕ) : Bool :=
  let foundGoal := false
  if currentTarget = none then false else foundGoal

def targetAccuracy (_currentTarget : Option ℕ) : Bool := true

def allignment (_goal : Option ℕ) : Bool := true

def engagement : Bool := true

def handoff : Bool := true

section program
variable {R : Type} [Field R] [LinearOrder R] [FloorRing R] [Libm R] [PiConstant R]

/-- The globals that `to_target` works on with its locals. It is counted how many times the
targets were looked through, and noted which of them were focused and where the arm was
sent. -/
structure Approach (g : ArmParameters R) where
  system : System g
  targets : Targets R
  tSet : Finset ℕ
  currentTarget : Option ℕ
  xy : R × R
  looks : ℕ
  foci : List (Option ℕ)
  commanded : List (R × R)

variable {g : ArmParameters R}

namespace Approach

def start (w : TargetField) (system : System g) (targets : Targets R) : Approach g where
  system := system
  targets := targets
  tSet := w.initTargetList
  currentTarget := none
  xy := (0, 0)
  looks := 0
  foci := []
  commanded := []

/-- One pass of the inner loop. -/
def locate (w : TargetField) (v : PassReports) (fuel : ℕ) (s : Approach g) :
    Option (Approach g) := do
  let targets ← receive (v.seen s.looks) s.targets
  let focus := s.currentTarget.bind fun current =>
    newFocus w.parameters current s.tSet targets
  let (currentTarget, xy, targets) ←
    locateInCell w.parameters s.currentTarget (some s.tSet) s.xy targets
  let system ← s.system.moveByCommand fuel xy.1 xy.2
  let targets ← receive (v.moving s.looks) targets
  return { s with
    system := system
    targets := targets
    currentTarget := currentTarget
    xy := xy
    looks := s.looks + 1
    foci := s.foci ++ [focus]
    commanded := s.commanded ++ [xy] }

/-- The inner loop, for at most so many passes. -/
def accuracyLoop (w : TargetField) (v : PassReports) (fuel : ℕ) :
    ℕ → Approach g → Option (Approach g)
  | 0, _ => none
  | passes + 1, s => do
    let s ← s.locate w v fuel
    if targetAccuracy s.currentTarget then return s else accuracyLoop w v fuel passes s

/-- One pass of the outer loop. -/
def pass (w : TargetField) (v : PassReports) (fuel goal : ℕ) (s : Approach g) :
    Option (Approach g) := do
  let s := if s.currentTarget = none then { s with currentTarget := some goal } else s
  let s ← s.accuracyLoop w v fuel (fuel + 1)
  return { s with
    tSet := w.scheduleRelativeTargets s.targets.heap s.currentTarget s.tSet }

def goalLoop (w : TargetField) (v : PassReports) (fuel goal : ℕ) :
    ℕ → Approach g → Option (Approach g)
  | 0, _ => none
  | passes + 1, s =>
    if atGoal (some goal) s.currentTarget then some s
    else do
      let s ← s.pass w v fuel goal
      goalLoop w v fuel goal passes s

/-- Where so many passes of the outer loop lead. -/
def passes (w : TargetField) (v : PassReports) (fuel goal n : ℕ) (s : Approach g) :
    Option (Approach g) :=
  (List.range n).foldlM (fun s _ => s.pass w v fuel goal) s

end Approach

/-- `to_target`; the set is never NULL. -/
def toTarget (w : TargetField) (v : PassReports) (fuel : ℕ) (system : System g)
    (targets : Targets R) : Option (Bool × System g × Targets R) :=
  let goal := w.goalSetup
  let status := allignment goal && engagement && handoff
  match goal with
  | none => some (status, system, targets)
  | some goal => do
    let s ← (Approach.start w system targets).goalLoop w v fuel goal fuel
    return (status, s.system, s.targets)

namespace TargetField
variable (w : TargetField)

theorem mem_foldl_insert {p : ℕ → Prop} [DecidablePred p] {storage : List ℕ} {tSet : Finset ℕ}
    {t : ℕ} : t ∈ storage.foldl (fun tSet t => if p t then insert t tSet else tSet) tSet ↔
      t ∈ tSet ∨ t ∈ storage ∧ p t := by
  induction storage generalizing tSet with
  | nil => simp
  | cons a storage ih =>
    rw [List.foldl_cons, ih]
    split_ifs with ha
    · rw [Finset.mem_insert, List.mem_cons]
      constructor
      · rintro ((rfl | ht) | ⟨ht, hp⟩)
        · exact Or.inr ⟨Or.inl rfl, ha⟩
        · exact Or.inl ht
        · exact Or.inr ⟨Or.inr ht, hp⟩
      · rintro (ht | ⟨rfl | ht, hp⟩)
        · exact Or.inl (Or.inr ht)
        · exact Or.inl (Or.inl rfl)
        · exact Or.inr ⟨ht, hp⟩
    · rw [List.mem_cons]
      constructor
      · rintro (ht | ⟨ht, hp⟩)
        · exact Or.inl ht
        · exact Or.inr ⟨Or.inr ht, hp⟩
      · rintro (ht | ⟨rfl | ht, hp⟩)
        · exact Or.inl ht
        · exact absurd hp ha
        · exact Or.inr ⟨ht, hp⟩

theorem mem_initTargetList {t : ℕ} :
    t ∈ w.initTargetList ↔ t ∈ w.targetStorage ∧ w.level t = 1 := by
  simp [initTargetList, perpareFirstTierTargets, mem_foldl_insert (p := fun t => w.level t = 1)]

omit [Field R] [LinearOrder R] [FloorRing R] [Libm R] [PiConstant R] in
theorem mem_scheduleRelativeTargets {heap : ℕ → Target R} {current t : ℕ} {tSet : Finset ℕ} :
    t ∈ w.scheduleRelativeTargets heap (some current) tSet ↔
      t ∈ tSet ∨ t ∈ w.targetStorage ∧ (heap t).targetPresent = true :=
  mem_foldl_insert

theorem goalSetup_eq_none : w.goalSetup = none ↔ ∀ t ∈ w.targetStorage, w.id t ≠ "goal".toList := by
  simp [goalSetup, findTarget]

theorem mem_of_goalSetup {goal : ℕ} (h : w.goalSetup = some goal) : goal ∈ w.targetStorage :=
  List.mem_of_find?_eq_some h

end TargetField

/-- What `travel_offset` says of a target. -/
def travelOffset (R : Type) [Field R] (p : SinkParameters) (t : ℕ) : R × R :=
  let offset := p.target t "travel_offset".toList
  (atof ((substr offset 0 (find [','] offset 0)).getD []),
    atof ((substr offset (posAfter (find [','] offset 0)) none).getD []))

def aimPoint (p : SinkParameters) (s : SensorController R) (current t : ℕ) : R × R :=
  (atof (p.sensor current "fov_w".toList) * s.scaleX + (travelOffset R p t).1,
    atof (p.sensor current "fov_h".toList) * s.scaleY + (travelOffset R p t).2)

def stalePoint (p : SinkParameters) (s : SensorController R) (current : ℕ) (t : Target R) :
    R × R :=
  (t.fovX * s.scaleX + (travelOffset R p current).1,
    t.fovY * s.scaleY + (travelOffset R p current).2)

namespace CellScan
variable (midX midY : R)

/-- What the loop saves is how far the focus is from the corner. -/
def Saved (c : CellScan R) : Prop :=
  match c.newFocus with
  | none => c.saveDelta = (0, 0)
  | some t => c.saveDelta = (midX - (c.heap t).fovX, midY - (c.heap t).fovY)

omit [FloorRing R] [PiConstant R] in
theorem look_saved {c : CellScan R} (h : c.Saved midX midY) (pointer : ℕ) :
    (c.look midX midY pointer).Saved midX midY := by
  unfold look Target.acquiredTarget
  split_ifs with hpresent
  all_goals dsimp only
  · split_ifs with hnear
    · simp [Saved]
    · unfold Saved at h ⊢
      dsimp only
      cases hfocus : c.newFocus with
      | none =>
        rw [hfocus] at h
        exact h
      | some t =>
        rw [hfocus] at h
        by_cases ht : t = pointer
        · subst ht
          simpa using h
        · simpa [ht] using h
  · simpa [Saved] using h

omit [FloorRing R] [PiConstant R] in
theorem foldl_look_saved (pointers : List ℕ) {c : CellScan R} (h : c.Saved midX midY) :
    (pointers.foldl (look midX midY) c).Saved midX midY := by
  induction pointers generalizing c with
  | nil => exact h
  | cons pointer pointers ih => exact ih (look_saved midX midY h pointer)

end CellScan

omit [FloorRing R] [PiConstant R] in
theorem locateInCell_focus {p : SinkParameters} {current t : ℕ} {s : SensorController R}
    {tSet : Finset ℕ} {ts : Targets R} (xy : R × R) (hsensor : (ts.heap current).sensor = some s)
    (hfocus : newFocus p current tSet ts = some t) :
    locateInCell p (some current) (some tSet) xy ts = some (some t, aimPoint p s current t,
      { ts with heap := taken tSet.sort ts.heap }) := by
  have hne : tSet ≠ ∅ := by
    rintro rfl
    simp [newFocus] at hfocus
  unfold newFocus at hfocus
  dsimp only at hfocus
  have hsaved := CellScan.foldl_look_saved (atof (p.sensor current "fov_w".toList) : R)
    (atof (p.sensor current "fov_h".toList)) tSet.sort (c := ⟨ts.heap, 10000, none, (0, 0)⟩) rfl
  unfold CellScan.Saved at hsaved
  rw [hfocus] at hsaved
  dsimp only at hsaved
  unfold locateInCell aimPoint travelOffset
  simp only [hne, if_false, hsensor, Option.bind_eq_bind, Option.bind_some, hfocus, hsaved,
    substr_isSome (posAfter_find_le _ _ _), substr_isSome (Nat.zero_le _), Option.pure_def,
    Option.getD_some, CellScan.foldl_look_heap, add_sub_cancel]

omit [FloorRing R] [PiConstant R] in
theorem locateInCell_unfocused {p : SinkParameters} {current : ℕ} {s : SensorController R}
    {tSet : Finset ℕ} {ts : Targets R} (xy : R × R) (hsensor : (ts.heap current).sensor = some s)
    (hne : tSet ≠ ∅) (hfocus : newFocus p current tSet ts = none) :
    locateInCell p (some current) (some tSet) xy ts = some (some current,
      stalePoint p s current (ts.heap current),
      { ts with heap := taken tSet.sort ts.heap }) := by
  unfold newFocus at hfocus
  dsimp only at hfocus
  have hsaved := CellScan.foldl_look_saved (atof (p.sensor current "fov_w".toList) : R)
    (atof (p.sensor current "fov_h".toList)) tSet.sort (c := ⟨ts.heap, 10000, none, (0, 0)⟩) rfl
  have hfov : (taken tSet.sort ts.heap current).fovX = (ts.heap current).fovX ∧
    (taken tSet.sort ts.heap current).fovY = (ts.heap current).fovY := ⟨rfl, rfl⟩
  unfold CellScan.Saved at hsaved
  rw [hfocus] at hsaved
  dsimp only at hsaved
  unfold locateInCell stalePoint travelOffset
  simp only [hne, if_false, hsensor, Option.bind_eq_bind, Option.bind_some, hfocus, hsaved,
    substr_isSome (posAfter_find_le _ _ _), substr_isSome (Nat.zero_le _), Option.pure_def,
    Option.getD_none, Option.getD_some, hfov.1, hfov.2, add_zero, CellScan.foldl_look_heap]

omit [FloorRing R] [PiConstant R] in
theorem mem_of_newFocus {p : SinkParameters} {current t : ℕ} {tSet : Finset ℕ} {ts : Targets R}
    (h : newFocus p current tSet ts = some t) : t ∈ tSet := by
  have hscan := CellScan.foldl_look_newFocus (atof (p.sensor current "fov_w".toList) : R)
    (atof (p.sensor current "fov_h".toList)) 10000 ts.heap tSet
  unfold newFocus at h
  rcases hscan with ⟨hnone, -⟩ | ⟨t', hfocus, hnearest, -⟩
  · rw [hnone] at h
    cases h
  · rw [hfocus, Option.some_inj] at h
    exact h ▸ hnearest.1

omit [FloorRing R] [PiConstant R] in
/-- All that a call with a current target can come to. -/
theorem locateInCell_cases {p : SinkParameters} {current : ℕ} {tSet : Finset ℕ} {xy xy' : R × R}
    {ts ts' : Targets R} {c : Option ℕ}
    (h : locateInCell p (some current) (some tSet) xy ts = some (c, xy', ts')) :
    (tSet = ∅ ∧ c = none ∧ xy' = xy ∧ ts' = ts) ∨
    ∃ s t, tSet ≠ ∅ ∧ (ts.heap current).sensor = some s ∧ c = some t ∧
      ts' = { ts with heap := taken tSet.sort ts.heap } ∧
      ((newFocus p current tSet ts = some t ∧ xy' = aimPoint p s current t) ∨
      (newFocus p current tSet ts = none ∧ t = current ∧
        xy' = stalePoint p s current (ts.heap current))) := by
  by_cases hne : tSet = ∅
  · subst hne
    cases h
    exact Or.inl ⟨rfl, rfl, rfl, rfl⟩
  · right
    cases hs : (ts.heap current).sensor with
    | none =>
      unfold locateInCell at h
      simp [hne, hs] at h
    | some s =>
      cases hfocus : newFocus p current tSet ts with
      | none =>
        rw [locateInCell_unfocused xy hs hne hfocus] at h
        cases h
        exact ⟨s, current, hne, rfl, rfl, rfl, Or.inr ⟨rfl, rfl, rfl⟩⟩
      | some t =>
        rw [locateInCell_focus xy hs hfocus] at h
        cases h
        exact ⟨s, t, hne, rfl, rfl, rfl, Or.inl ⟨rfl, rfl⟩⟩

namespace Approach
variable {w : TargetField} {v : PassReports} {fuel goal : ℕ} {s s' : Approach g}

def currentOr (s : Approach g) (goal : ℕ) : ℕ := s.currentTarget.getD goal

/-- What a pass does: `seen` are the targets when it looks through them. -/
structure Passed (w : TargetField) (v : PassReports) (fuel goal : ℕ) (s s' : Approach g)
    (seen located : Targets R) : Prop where
  receive_seen : receive (v.seen s.looks) s.targets = some seen
  locate : locateInCell w.parameters (some (s.currentOr goal)) (some s.tSet) s.xy seen =
    some (s'.currentTarget, s'.xy, located)
  move : s.system.moveByCommand fuel s'.xy.1 s'.xy.2 = some s'.system
  receive_moving : receive (v.moving s.looks) located = some s'.targets
  tSet : s'.tSet = w.scheduleRelativeTargets s'.targets.heap s'.currentTarget s.tSet
  looks : s'.looks = s.looks + 1
  foci : s'.foci = s.foci ++ [newFocus w.parameters (s.currentOr goal) s.tSet seen]
  commanded : s'.commanded = s.commanded ++ [s'.xy]

theorem pass_eq (w : TargetField) (v : PassReports) (fuel goal : ℕ) (s : Approach g) :
    s.pass w v fuel goal = (do
      let seen ← receive (v.seen s.looks) s.targets
      let (current, xy, located) ←
        locateInCell w.parameters (some (s.currentOr goal)) (some s.tSet) s.xy seen
      let system ← s.system.moveByCommand fuel xy.1 xy.2
      let targets ← receive (v.moving s.looks) located
      return {
        system := system
        targets := targets
        tSet := w.scheduleRelativeTargets targets.heap current s.tSet
        currentTarget := current
        xy := xy
        looks := s.looks + 1
        foci := s.foci ++ [newFocus w.parameters (s.currentOr goal) s.tSet seen]
        commanded := s.commanded ++ [xy] }) := by
  have hcurrent : (if s.currentTarget = none then { s with currentTarget := some goal } else s) =
      { s with currentTarget := some (s.currentOr goal) } := by
    unfold currentOr
    cases hs : s.currentTarget with
    | none => simp
    | some t =>
      have hsame : some (s.currentTarget.getD goal) = s.currentTarget := by simp [hs]
      rw [← hs, if_neg (by simp [hs]), hsame]
  unfold pass
  rw [hcurrent]
  simp only [accuracyLoop, locate, targetAccuracy, if_true, Option.bind_eq_bind,
    Option.bind_assoc, Option.pure_def, Option.bind_some]

theorem pass_passed (h : s.pass w v fuel goal = some s') :
    ∃ seen located, Passed w v fuel goal s s' seen located := by
  rw [pass_eq] at h
  obtain ⟨seen, hseen, h⟩ := Option.bind_eq_some_iff.mp h
  obtain ⟨⟨current, xy, located⟩, hlocate, h⟩ := Option.bind_eq_some_iff.mp h
  obtain ⟨system, hmove, h⟩ := Option.bind_eq_some_iff.mp h
  obtain ⟨targets, hmoving, h⟩ := Option.bind_eq_some_iff.mp h
  cases h
  exact ⟨seen, located, hseen, hlocate, hmove, hmoving, rfl, rfl, rfl, rfl⟩

omit [FloorRing R] [PiConstant R] in
theorem exists_locateInCell (p : SinkParameters) {current : ℕ} (tSet : Finset ℕ) (xy : R × R)
    {ts : Targets R} (hsensor : (ts.heap current).sensor.isSome) :
    ∃ r, locateInCell p (some current) (some tSet) xy ts = some r := by
  by_cases hne : tSet = ∅
  · exact ⟨(none, xy, ts), by simp [locateInCell, hne]⟩
  · obtain ⟨s, hs⟩ := Option.isSome_iff_exists.mp hsensor
    cases hfocus : newFocus p current tSet ts with
    | none => exact ⟨_, locateInCell_unfocused xy hs hne hfocus⟩
    | some t => exact ⟨_, locateInCell_focus xy hs hfocus⟩

theorem exists_pass (w : TargetField) (v : PassReports) (fuel : ℕ) {goal : ℕ} {s : Approach g}
    (hsim : s.system.drives.Simulated)
    (hsensor : (s.targets.heap (s.currentOr goal)).sensor.isSome) :
    ∃ s', s.pass w v fuel goal = some s' ∧ s'.system.drives.Simulated := by
  have hseen := receive_eq_touch (v.seen s.looks) s.targets
  have hkept := Targets.Kept.receive hseen
  rw [← hkept.sensor] at hsensor
  obtain ⟨⟨current, xy, located⟩, hlocate⟩ :=
    exists_locateInCell w.parameters s.tSet s.xy hsensor
  obtain ⟨system, hmove, hsystem⟩ := System.exists_moveByCommand hsim fuel xy.1 xy.2
  have hmoving := receive_eq_touch (v.moving s.looks) located
  suffices hreturns : ∃ s', s.pass w v fuel goal = some s' by
    obtain ⟨s', hpass⟩ := hreturns
    obtain ⟨seen', located', hp⟩ := pass_passed hpass
    obtain ⟨system', hmove', hsystem'⟩ := System.exists_moveByCommand hsim fuel s'.xy.1 s'.xy.2
    rw [hp.move, Option.some_inj] at hmove'
    exact ⟨s', hpass, hmove' ▸ hsystem'⟩
  rw [pass_eq, hseen, Option.bind_eq_bind, Option.bind_some, hlocate, Option.bind_eq_bind,
    Option.bind_some]
  dsimp only
  rw [hmove, Option.bind_eq_bind, Option.bind_some, hmoving]
  exact ⟨_, rfl⟩

/-- The set lies between the first tier and the storage, and the current target is in it,
or is the goal. -/
structure Scheduled (w : TargetField) (goal : ℕ) (s : Approach g) : Prop where
  firstTier : ∀ t ∈ w.targetStorage, w.level t = 1 → t ∈ s.tSet
  stored : ∀ t ∈ s.tSet, t ∈ w.targetStorage
  current : ∀ t, s.currentTarget = some t → t = goal ∨ t ∈ s.tSet

omit [LinearOrder R] [FloorRing R] [Libm R] in
theorem start_scheduled (w : TargetField) (goal : ℕ) (system : System g) (ts : Targets R) :
    Scheduled w goal (start w system ts) where
  firstTier _ ht hlevel := w.mem_initTargetList.mpr ⟨ht, hlevel⟩
  stored _ ht := (w.mem_initTargetList.mp ht).1
  current _ ht := by cases ht

variable {seen located : Targets R}

theorem Passed.kept (h : Passed w v fuel goal s s' seen located) :
    s.targets.Kept s'.targets := by
  have hlocated : seen.Kept located := by
    rcases locateInCell_cases h.locate with ⟨-, -, -, rfl⟩ | ⟨_, _, -, -, -, rfl, -⟩
    · exact .refl _
    · exact .taken s.tSet.sort seen fun i => taken_eq s.tSet.sort seen.heap i
  exact (Targets.Kept.receive h.receive_seen).trans
    (hlocated.trans (Targets.Kept.receive h.receive_moving))

/-- A pass adds to the set what is present when it ends, unless the set was empty. -/
theorem Passed.mem_tSet (h : Passed w v fuel goal s s' seen located) (t : ℕ) :
    t ∈ s'.tSet ↔ t ∈ s.tSet ∨ (s.tSet.Nonempty ∧ t ∈ w.targetStorage ∧
      (s'.targets.heap t).targetPresent = true) := by
  rw [h.tSet]
  rcases locateInCell_cases h.locate with ⟨hempty, hcurrent, -, -⟩ | ⟨_, t', hne, -, hcurrent, -⟩
  · rw [hcurrent, hempty]
    simp [TargetField.scheduleRelativeTargets]
  · rw [hcurrent, w.mem_scheduleRelativeTargets]
    simp [Finset.nonempty_iff_ne_empty.mpr hne]

theorem Passed.scheduled (h : Passed w v fuel goal s s' seen located) (hs : Scheduled w goal s) :
    Scheduled w goal s' where
  firstTier t ht hlevel := (h.mem_tSet t).mpr (Or.inl (hs.firstTier t ht hlevel))
  stored t ht := by
    rcases (h.mem_tSet t).mp ht with ht | ⟨-, ht, -⟩
    · exact hs.stored t ht
    · exact ht
  current t ht := by
    rcases locateInCell_cases h.locate with ⟨-, hnone, -, -⟩ | ⟨_, t', -, -, hcurrent, -, hfocus⟩
    · rw [hnone] at ht
      cases ht
    · rw [hcurrent, Option.some_inj] at ht
      subst ht
      rcases hfocus with ⟨hfocus, -⟩ | ⟨-, rfl, -⟩
      · exact Or.inr ((h.mem_tSet t').mpr (Or.inl (mem_of_newFocus hfocus)))
      · unfold currentOr
        cases hs' : s.currentTarget with
        | none => exact Or.inl rfl
        | some t =>
          rcases hs.current t hs' with hgoal | hmem
          · exact Or.inl hgoal
          · exact Or.inr ((h.mem_tSet t).mpr (Or.inl hmem))

omit [LinearOrder R] [FloorRing R] [Libm R] in
theorem Scheduled.currentOr_mem (hs : Scheduled w goal s) (hgoal : goal ∈ w.targetStorage) :
    s.currentOr goal ∈ w.targetStorage := by
  unfold currentOr
  cases hcurrent : s.currentTarget with
  | none => exact hgoal
  | some t =>
    rcases hs.current t hcurrent with rfl | hmem
    · exact hgoal
    · exact hs.stored t hmem

theorem goalLoop_eq_none (w : TargetField) (v : PassReports) (fuel goal n : ℕ) (s : Approach g) :
    s.goalLoop w v fuel goal n = none := by
  induction n generalizing s with
  | zero => rfl
  | succ n ih =>
    have hgoal : atGoal (some goal) s.currentTarget = false := by simp [atGoal]
    rw [goalLoop, hgoal, if_neg Bool.false_ne_true]
    exact Option.bind_eq_none_iff.mpr fun s' _ => ih s'

end Approach

/-- With a goal `to_target` never returns. Simulated, and with a sensor for every target, it
goes on for ever, whatever is reported: its set only grows, from the first tier up to one that
has every target of the storage that is ever present at the end of a pass, and the current
target never leaves this set and the goal. -/
theorem toTarget_endless (w : TargetField) (v : PassReports) {goal : ℕ}
    (hgoal : w.goalSetup = some goal) (system : System g) (targets : Targets R) (fuel : ℕ) :
    toTarget w v fuel system targets = none ∧
    (system.drives.Simulated → (∀ t ∈ w.targetStorage, (targets.heap t).sensor.isSome) →
      ∃ run : ℕ → Approach g, run 0 = Approach.start w system targets ∧
        (∀ n, (run n).pass w v fuel goal = some (run (n + 1)) ∧ (run n).Scheduled w goal ∧
          (run n).tSet ⊆ (run (n + 1)).tSet) ∧
        ∃ N final, (∀ n, N ≤ n → (run n).tSet = final) ∧ ∀ n, (run n).tSet ⊆ final ∧
          (final.Nonempty → ∀ t ∈ w.targetStorage,
            ((run (n + 1)).targets.heap t).targetPresent = true → t ∈ final)) := by
  constructor
  · unfold toTarget
    simp only [hgoal, Approach.goalLoop_eq_none, Option.bind_eq_bind, Option.bind_none]
  intro hsim hsensors
  have hstep : ∀ s : Approach g, (s.system.drives.Simulated ∧ s.Scheduled w goal ∧
      ∀ t ∈ w.targetStorage, (s.targets.heap t).sensor.isSome) →
      ∃ s', s.pass w v fuel goal = some s' ∧ s'.system.drives.Simulated ∧
        s'.Scheduled w goal ∧ ∀ t ∈ w.targetStorage, (s'.targets.heap t).sensor.isSome := by
    rintro s ⟨hsim, hscheduled, hsensors⟩
    have hcurrent := hscheduled.currentOr_mem (w.mem_of_goalSetup hgoal)
    obtain ⟨s', hpass, hsim'⟩ := Approach.exists_pass w v fuel hsim (hsensors _ hcurrent)
    obtain ⟨seen, located, hp⟩ := Approach.pass_passed hpass
    refine ⟨s', hpass, hsim', hp.scheduled hscheduled, fun t ht => ?_⟩
    rw [hp.kept.sensor]
    exact hsensors t ht
  obtain ⟨run, hzero, hrun⟩ := exists_endless hstep
    ⟨hsim, Approach.start_scheduled w goal system targets, hsensors⟩
  have hgrows : ∀ n, (run n).tSet ⊆ (run (n + 1)).tSet := by
    intro n t ht
    obtain ⟨seen, located, hp⟩ := Approach.pass_passed (hrun n).1
    exact (hp.mem_tSet t).mpr (Or.inl ht)
  refine ⟨run, hzero, fun n => ⟨(hrun n).1, (hrun n).2.2.1, hgrows n⟩, ?_⟩
  have hbound : ∀ n, (run n).tSet ⊆ w.targetStorage.toFinset := fun n t ht =>
    List.mem_toFinset.mpr ((hrun n).2.2.1.stored t ht)
  obtain ⟨N, hN⟩ := eventually_const hgrows hbound
  have hmono := monotone_nat_of_le_succ hgrows
  have hfinal : ∀ n, (run n).tSet ⊆ (run N).tSet := by
    intro n
    rcases le_total n N with hle | hle
    · exact hmono hle
    · rw [hN n hle]
  -- from an empty set no pass leads to another one
  have hfirst : ∀ n, (run n).tSet.Nonempty → (run 0).tSet.Nonempty := by
    intro n hne
    induction n with
    | zero => exact hne
    | succ n ih =>
      obtain ⟨seen, located, hp⟩ := Approach.pass_passed (hrun n).1
      obtain ⟨t, ht⟩ := hne
      rcases (hp.mem_tSet t).mp ht with ht | ⟨hne, -, -⟩
      · exact ih ⟨t, ht⟩
      · exact ih hne
  refine ⟨N, (run N).tSet, hN, fun n => ⟨hfinal n, fun hne t ht hpresent => ?_⟩⟩
  obtain ⟨seen, located, hp⟩ := Approach.pass_passed (hrun n).1
  have hnonempty : (run n).tSet.Nonempty := (hfirst N hne).mono (hmono (Nat.zero_le n))
  exact hfinal (n + 1) ((hp.mem_tSet t).mpr (Or.inr ⟨hnonempty, ht, hpresent⟩))

namespace Approach

theorem passes_succ (w : TargetField) (v : PassReports) (fuel goal n : ℕ) (s : Approach g) :
    s.passes w v fuel goal (n + 1) =
      (s.passes w v fuel goal n).bind fun s => s.pass w v fuel goal := by
  unfold passes
  rw [List.range_succ, List.foldlM_append]
  simp

end Approach

/-- The reports of the first passes, in their order. -/
def PassReports.upTo (v : PassReports) (n : ℕ) : List (Str × Str) :=
  (List.range n).flatMap fun k => v.seen k ++ v.moving k

/-- Where no stored target is of level 1, the set stays empty, no report is ever looked at,
and each pass sends the arm to the origin. -/
theorem passes_without_first_tier (w : TargetField) (v : PassReports)
    (hlevel : ∀ t ∈ w.targetStorage, w.level t ≠ 1) (fuel goal n : ℕ) (system : System g)
    (targets : Targets R) :
    (Approach.start w system targets).passes w v fuel goal n = (do
      let ts ← receive (v.upTo n) targets
      let system ← system.moves fuel (List.replicate n (0, 0))
      return { Approach.start w system ts with
        looks := n
        foci := List.replicate n none
        commanded := List.replicate n (0, 0) }) := by
  have hempty : w.initTargetList = ∅ :=
    Finset.eq_empty_of_forall_notMem fun t ht =>
      hlevel t (w.mem_initTargetList.mp ht).1 (w.mem_initTargetList.mp ht).2
  induction n with
  | zero => rfl
  | succ n ih =>
    have hnow := receive_eq_touch (v.upTo n) targets
    have hupTo : v.upTo (n + 1) = v.upTo n ++ (v.seen n ++ v.moving n) := by
      simp [PassReports.upTo, List.range_succ]
    have hmoves : system.moves fuel (List.replicate (n + 1) (0, 0)) =
        (system.moves fuel (List.replicate n (0, 0))).bind fun system =>
          system.moveByCommand fuel 0 0 := by
      unfold System.moves
      rw [List.replicate_succ', List.foldlM_append]
      simp
    rw [Approach.passes_succ, ih, hnow, hupTo, hmoves, receive_append, hnow]
    simp only [Option.bind_eq_bind, Option.bind_some, receive_append]
    cases hsystem : system.moves fuel (List.replicate n (0, 0)) with
    | none => simp [receive_eq_touch]
    | some arm =>
      simp only [Option.bind_some, Option.pure_def, Approach.pass_eq, Approach.start, hempty]
      simp [receive_eq_touch, locateInCell, newFocus, TargetField.scheduleRelativeTargets,
        List.replicate_succ']

namespace Approach
variable {w : TargetField} {v v' : PassReports} {fuel goal : ℕ} {s s' : Approach g}
variable {seen located : Targets R}

theorem Passed.aimed (h : Passed w v fuel goal s s' seen located) {t : ℕ}
    (hfocus : newFocus w.parameters (s.currentOr goal) s.tSet seen = some t) :
    ∃ sensor, (s.targets.heap (s.currentOr goal)).sensor = some sensor ∧
      s'.currentTarget = some t ∧
      s'.xy = aimPoint w.parameters sensor (s.currentOr goal) t := by
  have hkept := Targets.Kept.receive h.receive_seen
  rcases locateInCell_cases h.locate with ⟨hempty, -, -, -⟩ |
    ⟨sensor, t', -, hsensor, hcurrent, -, ⟨hfocus', hxy⟩ | ⟨hnone, -, -⟩⟩
  · rw [hempty] at hfocus
    simp [newFocus] at hfocus
  · rw [hkept.sensor] at hsensor
    rw [hfocus, Option.some_inj] at hfocus'
    subst hfocus'
    exact ⟨sensor, hsensor, hcurrent, hxy⟩
  · rw [hfocus] at hnone
    cases hnone

end Approach

/-- Two runs from one place, with different reports, in which every pass finds a focus and
the same one in both: the arm is sent to the same points. Of what the camera measures
nothing else has a part in where the arm goes. -/
theorem foci_determine_motion (w : TargetField) (v v' : PassReports) {fuel goal n : ℕ}
    {system : System g} {ts ts' : Targets R} (hkept : ts.Kept ts') {s s' : Approach g}
    (h : (Approach.start w system ts).passes w v fuel goal n = some s)
    (h' : (Approach.start w system ts').passes w v' fuel goal n = some s')
    (hfoci : s'.foci = s.foci) (hfound : none ∉ s.foci) :
    s'.system = s.system ∧ s'.commanded = s.commanded := by
  suffices hrun : s'.system = s.system ∧ s'.commanded = s.commanded ∧
      s'.currentTarget = s.currentTarget ∧ ts.Kept s.targets ∧ ts'.Kept s'.targets from
    ⟨hrun.1, hrun.2.1⟩
  induction n generalizing s s' with
  | zero =>
    cases h
    cases h'
    exact ⟨rfl, rfl, rfl, .refl ts, .refl ts'⟩
  | succ n ih =>
    rw [Approach.passes_succ] at h h'
    obtain ⟨s₁, hs₁, h⟩ := Option.bind_eq_some_iff.mp h
    obtain ⟨s₁', hs₁', h'⟩ := Option.bind_eq_some_iff.mp h'
    obtain ⟨seen, located, hp⟩ := Approach.pass_passed h
    obtain ⟨seen', located', hp'⟩ := Approach.pass_passed h'
    rw [hp.foci, hp'.foci] at hfoci
    rw [hp.foci, List.mem_append, List.mem_singleton, not_or] at hfound
    obtain ⟨hbefore, hfocus'⟩ := List.concat_inj.mp (by simpa using hfoci)
    obtain ⟨hsystem, hcommanded, hcurrent, hkept₁, hkept₁'⟩ := ih hs₁ hs₁' hbefore hfound.1
    obtain ⟨t, hfocus⟩ := Option.ne_none_iff_exists'.mp (Ne.symm hfound.2)
    have hor : s₁'.currentOr goal = s₁.currentOr goal := by
      unfold Approach.currentOr
      rw [hcurrent]
    obtain ⟨sensor, hsensor, ht, hxy⟩ := hp.aimed hfocus
    obtain ⟨sensor', hsensor', ht', hxy'⟩ := hp'.aimed (hfocus'.trans hfocus)
    have hsame : sensor' = sensor := by
      rw [hor, hkept₁'.sensor, hkept.sensor, ← hkept₁.sensor, hsensor] at hsensor'
      exact (Option.some.inj hsensor').symm
    have hpoint : s'.xy = s.xy := by rw [hxy, hxy', hor, hsame]
    have hmove := hp'.move
    rw [hpoint, hsystem, hp.move] at hmove
    refine ⟨(Option.some.inj hmove).symm, ?_, ht'.trans ht.symm, hkept₁.trans hp.kept,
      hkept₁'.trans hp'.kept⟩
    rw [hp.commanded, hp'.commanded, hcommanded, hpoint]

end program

def goalField (level : ℕ) : TargetField where
  parameters := ⟨fun _ _ => "0,0".toList, fun _ => fieldParameter⟩
  id _ := "goal".toList
  level _ := level
  targetStorage := [0]

theorem goalSetup_goalField (level : ℕ) : (goalField level).goalSetup = some 0 := by
  simp [TargetField.goalSetup, TargetField.findTarget, goalField]

def noReports : PassReports := ⟨fun _ => [], fun _ => []⟩

noncomputable def lastSeenAt (x y : ℝ) : Targets ℝ where
  heap _ := seenAt x y
  targetMap _ := none
  travelMap _ := none

theorem newFocus_lastSeenAt {x y : ℝ} (hx : 0 ≤ x ∧ x ≤ 640) (hy : 0 ≤ y ∧ y ≤ 480) :
    newFocus (goalField 1).parameters 0 {0} (lastSeenAt x y) = some 0 := by
  obtain ⟨hw, hh⟩ := fieldParameter_size
  have hscan := CellScan.foldl_look_newFocus 640 480 10000 (lastSeenAt x y).heap {0}
  unfold newFocus
  dsimp only [goalField]
  rw [hw, hh]
  rcases hscan with ⟨-, hfar⟩ | ⟨t, hfocus, hnearest, -⟩
  · have hdistance := hfar 0 (Finset.mem_singleton_self 0) rfl
    have hnear : (seenAt x y).cellDistance 640 480 ≤ √(800 * 800) := by
      rw [seenAt_cellDistance]
      exact Real.sqrt_le_sqrt (by nlinarith)
    rw [Real.sqrt_mul_self (by norm_num)] at hnear
    linarith [hdistance.trans hnear]
  · rw [hfocus, Finset.mem_singleton.mp hnearest.1]

theorem toTarget_endless_one_target :
    toTarget (goalField 1) noReports 2 armAtOrigin (lastSeenAt 0 0) = none ∧
      ∃ run : ℕ → Approach _, run 0 = Approach.start (goalField 1) armAtOrigin (lastSeenAt 0 0) ∧
        ∀ n, (run n).pass (goalField 1) noReports 2 0 = some (run (n + 1)) ∧
          (run n).tSet ⊆ (run (n + 1)).tSet := by
  have hsensors : ∀ t ∈ (goalField 1).targetStorage, ((lastSeenAt 0 0).heap t).sensor.isSome :=
    fun t _ => rfl
  obtain ⟨hnone, hendless⟩ := toTarget_endless (goalField 1) noReports (goalSetup_goalField 1)
    armAtOrigin (lastSeenAt 0 0) 2
  obtain ⟨run, hzero, hrun, -⟩ := hendless armAtOrigin_simulated hsensors
  exact ⟨hnone, run, hzero, fun n => ⟨(hrun n).1, (hrun n).2.2⟩⟩

theorem passes_without_first_tier_two :
    (Approach.start (goalField 2) armAtOrigin (lastSeenAt 320 240)).passes (goalField 2)
        noReports 2 0 2 = (do
      let ts ← receive (noReports.upTo 2) (lastSeenAt 320 240)
      let system ← armAtOrigin.moves 2 (List.replicate 2 (0, 0))
      return { Approach.start (goalField 2) system ts with
        looks := 2
        foci := List.replicate 2 none
        commanded := List.replicate 2 (0, 0) }) :=
  passes_without_first_tier (goalField 2) noReports (by simp [goalField]) 2 0 2 armAtOrigin
    (lastSeenAt 320 240)

theorem exists_passes_one {x y : ℝ} (hx : 0 ≤ x ∧ x ≤ 640) (hy : 0 ≤ y ∧ y ≤ 480) :
    ∃ s, (Approach.start (goalField 1) armAtOrigin (lastSeenAt x y)).passes (goalField 1)
      noReports 0 0 1 = some s ∧ s.foci = [some 0] := by
  let start := Approach.start (goalField 1) armAtOrigin (lastSeenAt x y)
  have hsensor : (start.targets.heap (start.currentOr 0)).sensor.isSome := rfl
  obtain ⟨s, hs, -⟩ := Approach.exists_pass (goalField 1) noReports 0 armAtOrigin_simulated
    hsensor
  obtain ⟨seen, located, hp⟩ := Approach.pass_passed hs
  have hseen : seen = lastSeenAt x y := (Option.some.inj hp.receive_seen).symm
  refine ⟨s, ?_, ?_⟩
  · rw [Approach.passes_succ]
    exact hs
  · rw [hp.foci, hseen]
    exact congrArg (fun f => [f]) (newFocus_lastSeenAt hx hy)

theorem foci_determine_motion_one_pass :
    ∃ s s', (Approach.start (goalField 1) armAtOrigin (lastSeenAt 320 240)).passes (goalField 1)
        noReports 0 0 1 = some s ∧
      (Approach.start (goalField 1) armAtOrigin (lastSeenAt 10 20)).passes (goalField 1)
        noReports 0 0 1 = some s' ∧ s'.system = s.system ∧ s'.commanded = s.commanded := by
  obtain ⟨s, hs, hfoci⟩ := exists_passes_one (x := 320) (y := 240) (by norm_num) (by norm_num)
  obtain ⟨s', hs', hfoci'⟩ := exists_passes_one (x := 10) (y := 20) (by norm_num) (by norm_num)
  have hkept : (lastSeenAt 320 240).Kept (lastSeenAt 10 20) :=
    ⟨rfl, rfl, fun _ => rfl, fun _ => rfl⟩
  exact ⟨s, s', hs, hs', foci_determine_motion (goalField 1) noReports noReports hkept hs hs'
    (hfoci'.trans hfoci.symm) (by simp [hfoci])⟩

end Arm2D

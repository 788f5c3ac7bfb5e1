import Arm2D.AnsweredMoves
import Arm2D.ForwardKinematics
import Arm2D.InverseKinematics
import Arm2D.MoveToPattern
import Arm2D.SentLines
import Arm2D.SweepMotions
import Arm2D.TargetReports

/-! # The scan with directed motion

`scan_for_pattern_with_directed_motion` of arm_2d.cpp: the arm goes out along the second
axis, from the start radius in steps of one, and at each stop the base turns half around
while the targets are looked through. Printing is left out. -/
namespace Arm2D
open Library

section program
variable {R : Type} [Field R] [LinearOrder R] [FloorRing R] [Libm R] [PiConstant R]
variable {g : ArmParameters R}

/-- The globals with the `t_acquired` of the scan. It is noted where the arm was sent. -/
structure EdgeScan (g : ArmParameters R) where
  scan : ScanState g
  tAcquired : Option ℕ
  points : List (R × R)

namespace ScanState

/-- The globals before a scan, with the pixel that is left in `x_hat`, `y_hat`. -/
def start (system : System g) (targets : Targets R) (hat : R × R) : ScanState g where
  system := system
  targets := targets
  errors := ⟨false, .none⟩
  hat := hat
  looks := 0
  commanded := []

/-- The waiting loop, for at most so many passes. -/
def directedLoop (w : Surroundings) : ℕ → ScanState g → Option (Option ℕ × ScanState g)
  | 0, _ => none
  | fuel + 1, s => do
    let (inMotion, drives) := s.system.drives.checkMotionStatus 1
    let (tAcquired, s) ← (s.withDrives drives).look w
    match tAcquired with
    | some t =>
      if inMotion then
        let drives ← s.system.drives.runAction 0 "stop_motion".toList
        return (some t, s.withDrives drives)
      else return (some t, s)
    | none => if inMotion then directedLoop w fuel s else return (none, s)

end ScanState

namespace EdgeScan

def moveByCommand (fuel : ℕ) (s : EdgeScan g) (x y : R) : Option (EdgeScan g) := do
  let system ← s.scan.system.moveByCommand fuel x y
  return { s with
    scan := { s.scan with system := system }
    points := s.points ++ [(x, y)] }

def goToMaxEdgeTest (fuel : ℕ) (s : EdgeScan g) (currentR : R) : Option (EdgeScan g) :=
  s.moveByCommand fuel 0 currentR

/-- One pass of the loop over the radii. -/
def edgePass (w : Surroundings) (fuel : ℕ) (baseSteps : ℤ) (s : EdgeScan g) (currentR : R) :
    Option (EdgeScan g) := do
  let s ← s.goToMaxEdgeTest fuel currentR
  let scan ← s.scan.stepNMotion 1 baseSteps
  if scan.system.drives.useSimulations then return { s with scan := scan }
  else
    let (tAcquired, scan) ← scan.directedLoop w fuel
    return { s with scan := scan, tAcquired := tAcquired }

/-- The loop over the radii, with the passes that are left. -/
def edgeLoop (w : Surroundings) (fuel : ℕ) (baseSteps : ℤ) :
    ℕ → R → EdgeScan g → Option (EdgeScan g)
  | 0, _, s => some s
  | passes + 1, currentR, s => do
    let s ← s.edgePass w fuel baseSteps currentR
    if s.tAcquired.isSome then return s
    else edgeLoop w fuel baseSteps passes (currentR + 1) s

/-- From the end of the loop on; the last look's pixel is added as it is. -/
def moveToScanned (fuel : ℕ) (s : EdgeScan g) : Option (EdgeScan g) := do
  let (rad1, drives) ← s.scan.system.drives.currentRotation 0
  let md1 ← drives.motorDriverArray 0
  let rad1 := rad1 * md1.gearRatio
  let (rad2, drives) ← drives.currentRotation 1
  let md2 ← drives.motorDriverArray 1
  let rad2 := rad2 * md2.gearRatio
  let (x, y) := s.scan.system.armConstruct.rotationToCartesian rad1 rad2
  let x := x + s.scan.hat.1
  let y := y + s.scan.hat.2
  { s with scan := s.scan.withDrives drives }.moveByCommand fuel x y

end EdgeScan

def ArmConfiguration.edgePasses (arm : ArmConfiguration g) : ℤ :=
  truncate (arm.maxR - arm.startRadius)

def halfTurn (g : ArmParameters R) : ℤ := truncate ((g.canisterStep : R) / 2)

/-- `scan_for_pattern_with_directed_motion`. -/
def scanForPatternWithDirectedMotion (w : Surroundings) (fuel : ℕ) (s : ScanState g) :
    Option (EdgeScan g) := do
  let arm := s.system.armConstruct
  let s : EdgeScan g := ⟨{ s with hat := (0, 0) }, none, []⟩
  let s ← s.edgeLoop w fuel (halfTurn g) arm.edgePasses.toNat arm.startRadius
  s.moveToScanned fuel

namespace ScanState

/-- A pass of either waiting loop, after the question that the drives answered with `r`. -/
def watchPass (w : Surroundings) (r : Bool × Drives R)
    (next : ScanState g → Option (Option ℕ × ScanState g)) (s : ScanState g) :
    Option (Option ℕ × ScanState g) :=
  ((s.withDrives r.2).look w).bind fun q =>
    match q.1 with
    | some t =>
      if r.1 then (q.2.system.drives.runAction 0 "stop_motion".toList).bind fun drives =>
        some (some t, q.2.withDrives drives)
      else some (some t, q.2)
    | none => if r.1 then next q.2 else some (none, q.2)

omit [FloorRing R] [Libm R] in
theorem directedLoop_succ (w : Surroundings) (fuel : ℕ) (s : ScanState g) :
    s.directedLoop w (fuel + 1) =
      s.watchPass w (s.system.drives.checkMotionStatus 1) (directedLoop w fuel) := rfl

omit [FloorRing R] [Libm R] in
theorem acquireLoop_succ (w : Surroundings) (motor fuel : ℕ) (s : ScanState g) :
    s.acquireLoop w motor (fuel + 1) =
      s.watchPass w (s.system.drives.checkMotionStatusQuiet motor) (acquireLoop w motor fuel) :=
  rfl

omit [Libm R] in
theorem directedLoop_follows {w : Surroundings} {fuel : ℕ} {s s' : ScanState g} {t : Option ℕ}
    (h : s.directedLoop w fuel = some (t, s')) :
    Follows s [] s' ∧
      s'.system.drives.useSimulations = s.system.drives.useSimulations := by
  induction fuel generalizing s with
  | zero => cases h
  | succ fuel ih =>
    rw [directedLoop_succ] at h
    obtain ⟨⟨t₁, s₁⟩, hlook, h⟩ := Option.bind_eq_some_iff.mp h
    obtain ⟨⟨harm, hcommanded, hlooks⟩, -⟩ := look_follows hlook
    have hs : Follows s [] s₁ := ⟨harm, hcommanded, hlooks⟩
    have hcall : Drives.Calls (fun _ _ => True) s.system.drives
        (s.system.drives.checkMotionStatusBody true 1).2 :=
      Drives.checkMotionStatusBody_calls trivial _
    have hcheck := hcall.configs.2
    have hsimulations : s₁.system.drives.useSimulations =
        s.system.drives.useSimulations := by
      obtain ⟨targets, -, hlook⟩ := Option.bind_eq_some_iff.mp hlook
      cases hlook
      exact hcheck
    dsimp only at h
    cases t₁ with
    | some t₁ =>
      dsimp only at h
      split_ifs at h
      · obtain ⟨drives, haction, h⟩ := Option.bind_eq_some_iff.mp h
        cases h
        have hstop := (Drives.runAction_calls (A := fun _ _ => True) trivial haction).configs.2
        exact ⟨hs.trans ⟨rfl, by simp [withDrives], le_rfl⟩, hstop.trans hsimulations⟩
      · cases h
        exact ⟨hs, hsimulations⟩
    | none =>
      dsimp only at h
      split_ifs at h
      · obtain ⟨hrest, hrest'⟩ := ih h
        exact ⟨hs.trans hrest, hrest'.trans hsimulations⟩
      · cases h
        exact ⟨hs, hsimulations⟩

end ScanState

namespace EdgeScan
variable {w : Surroundings} {fuel : ℕ} {baseSteps : ℤ} {currentR : R} {s s' : EdgeScan g}

structure Passed (baseSteps : ℤ) (currentR : R) (s s' : EdgeScan g) : Prop where
  points : s'.points = s.points ++ [(0, currentR)]
  commanded : s'.scan.commanded = s.scan.commanded ++ [(1, baseSteps)]
  arm : s'.scan.system.armConstruct = s.scan.system.armConstruct.setTarget 0 currentR
  simulations : s'.scan.system.drives.useSimulations = s.scan.system.drives.useSimulations
  unseen : s.scan.system.drives.useSimulations = true →
    s'.tAcquired = s.tAcquired ∧ s'.scan.targets = s.scan.targets ∧
      s'.scan.hat = s.scan.hat ∧ s'.scan.looks = s.scan.looks

theorem edgePass_passed (h : s.edgePass w fuel baseSteps currentR = some s') :
    Passed baseSteps currentR s s' := by
  obtain ⟨s₁, hmove, h⟩ := Option.bind_eq_some_iff.mp h
  obtain ⟨system, hsystem, hmove⟩ := Option.bind_eq_some_iff.mp hmove
  cases hmove
  obtain ⟨scan, hstep, h⟩ := Option.bind_eq_some_iff.mp h
  obtain ⟨harm, -, -⟩ := System.moveByCommand_spec hsystem
  have hmoved := (System.moveByCommand_calls (A := fun _ _ => True) trivial trivial
    (fun _ _ => trivial) hsystem).configs.2
  obtain ⟨harm₁, hcommanded₁, -⟩ := ScanState.stepNMotion_follows hstep
  obtain ⟨drives, hdrives, hscan⟩ := Option.bind_eq_some_iff.mp hstep
  have hstepped := (Drives.stepNMotion_calls (A := fun _ _ => True) trivial hdrives).configs.2
  have hsimulations : scan.system.drives.useSimulations =
      s.scan.system.drives.useSimulations := by
    cases hscan
    exact hstepped.trans hmoved
  have hunseen : scan.targets = s.scan.targets ∧ scan.hat = s.scan.hat ∧
      scan.looks = s.scan.looks := by
    cases hscan
    exact ⟨rfl, rfl, rfl⟩
  clear hscan hstep
  split_ifs at h with hsim
  · cases h
    exact ⟨rfl, hcommanded₁, harm₁.trans harm, hsimulations, fun _ => ⟨rfl, hunseen⟩⟩
  · obtain ⟨⟨t, scan'⟩, hloop, h⟩ := Option.bind_eq_some_iff.mp h
    cases h
    obtain ⟨⟨harm₂, hcommanded₂, -⟩, hsimulations₂⟩ := ScanState.directedLoop_follows hloop
    refine ⟨rfl, ?_, harm₂.trans (harm₁.trans harm), hsimulations₂.trans hsimulations,
      fun hsim' => absurd (hsimulations.trans hsim') hsim⟩
    rw [hcommanded₂, List.append_nil]
    exact hcommanded₁

/-- What the loop over the radii does, as so many passes from the first radius on. -/
structure Climbed (baseSteps : ℤ) (currentR : R) (k : ℕ) (s s' : EdgeScan g) : Prop where
  points : s'.points = s.points ++ (List.range k).map fun i : ℕ => (0, currentR + i)
  commanded : s'.scan.commanded = s.scan.commanded ++ List.replicate k (1, baseSteps)
  startRadius : s'.scan.system.armConstruct.startRadius =
    s.scan.system.armConstruct.startRadius
  simulations : s'.scan.system.drives.useSimulations = s.scan.system.drives.useSimulations
  unseen : s.scan.system.drives.useSimulations = true →
    s'.tAcquired = s.tAcquired ∧ s'.scan.targets = s.scan.targets ∧
      s'.scan.hat = s.scan.hat ∧ s'.scan.looks = s.scan.looks

/-- The states between the passes: with each but the last no target is acquired. -/
structure Stops (w : Surroundings) (fuel : ℕ) (baseSteps : ℤ) (currentR : R) (k : ℕ)
    (s s' : EdgeScan g) (stops : ℕ → EdgeScan g) : Prop where
  first : stops 0 = s
  last : stops k = s'
  passes : ∀ i < k, (stops i).tAcquired = none ∧
    (stops i).edgePass w fuel baseSteps (currentR + i) = some (stops (i + 1))

omit [LinearOrder R] [FloorRing R] [Libm R] [PiConstant R] in
theorem natCast_succ_shift (currentR : R) (i : ℕ) :
    currentR + 1 + (i : R) = currentR + ((i + 1 : ℕ) : R) := by
  rw [Nat.cast_succ, add_assoc, add_comm 1]

/-- The loop ends with the first stop that acquires a target, and after the last radius. -/
theorem edgeLoop_stops {passes : ℕ} (hnone : s.tAcquired = none)
    (h : edgeLoop w fuel baseSteps passes currentR s = some s') :
    ∃ k ≤ passes, (∃ stops, Stops w fuel baseSteps currentR k s s' stops) ∧
      (s'.tAcquired = none → k = passes) := by
  induction passes generalizing currentR s with
  | zero =>
    cases h
    exact ⟨0, le_rfl, ⟨fun _ => s', rfl, rfl, fun i hi => absurd hi (Nat.not_lt_zero i)⟩,
      fun _ => rfl⟩
  | succ passes ih =>
    obtain ⟨s₁, hpass, h⟩ := Option.bind_eq_some_iff.mp h
    split_ifs at h with hsome
    · cases h
      refine ⟨1, by omega, ⟨fun i => if i = 0 then s else s', rfl, rfl, fun i hi => ?_⟩,
        fun hnone' => ?_⟩
      · obtain rfl : i = 0 := by omega
        rw [Nat.cast_zero, add_zero]
        exact ⟨hnone, hpass⟩
      · rw [hnone'] at hsome
        cases hsome
    · have hnone₁ : s₁.tAcquired = none := by simpa using hsome
      obtain ⟨k, hk, ⟨stops, hfirst, hlast, hpasses⟩, hall⟩ := ih hnone₁ h
      refine ⟨k + 1, by omega, ⟨fun i => if i = 0 then s else stops (i - 1), rfl, ?_,
        fun i hi => ?_⟩, fun hnone' => by rw [hall hnone']⟩
      · exact hlast
      · cases i with
        | zero =>
          rw [Nat.cast_zero, add_zero]
          exact ⟨hnone, hpass.trans (congrArg some hfirst.symm)⟩
        | succ i =>
          rw [← natCast_succ_shift]
          exact hpasses i (by omega)

theorem Stops.climbed {k : ℕ} {stops : ℕ → EdgeScan g}
    (h : Stops w fuel baseSteps currentR k s s' stops) : Climbed baseSteps currentR k s s' := by
  induction k generalizing s' with
  | zero =>
    obtain rfl : s' = s := h.last.symm.trans h.first
    exact ⟨by simp, by simp, rfl, rfl, fun _ => ⟨rfl, rfl, rfl, rfl⟩⟩
  | succ k ih =>
    have hbefore := ih ⟨h.first, rfl, fun i hi => h.passes i (by omega)⟩
    have hpass := (h.passes k (by omega)).2
    rw [h.last] at hpass
    have hp := edgePass_passed hpass
    refine ⟨?_, ?_, ?_, hp.simulations.trans hbefore.simulations, fun hsim => ?_⟩
    · rw [hp.points, hbefore.points, List.range_succ, List.map_append, List.map_singleton,
        List.append_assoc]
    · rw [hp.commanded, hbefore.commanded, List.append_assoc, List.replicate_succ']
    · rw [hp.arm, ArmConfiguration.setTarget_startRadius, hbefore.startRadius]
    · obtain ⟨hacquired, htargets, hhat, hlooks⟩ := hbefore.unseen hsim
      obtain ⟨hacquired', htargets', hhat', hlooks'⟩ :=
        hp.unseen (hbefore.simulations.trans hsim)
      exact ⟨hacquired'.trans hacquired, htargets'.trans htargets, hhat'.trans hhat,
        hlooks'.trans hlooks⟩

theorem moveToScanned_spec (h : s.moveToScanned fuel = some s') :
    ∃ rad1 rad2, let p := s.scan.system.armConstruct.rotationToCartesian rad1 rad2
      s'.points = s.points ++ [(p.1 + s.scan.hat.1, p.2 + s.scan.hat.2)] ∧
      s'.scan.system.armConstruct =
        s.scan.system.armConstruct.setTarget (p.1 + s.scan.hat.1) (p.2 + s.scan.hat.2) ∧
      s'.tAcquired = s.tAcquired ∧ s'.scan.hat = s.scan.hat ∧
      s'.scan.commanded = s.scan.commanded := by
  obtain ⟨⟨rad1, d₁⟩, -, h⟩ := Option.bind_eq_some_iff.mp h
  obtain ⟨md1, -, h⟩ := Option.bind_eq_some_iff.mp h
  obtain ⟨⟨rad2, d₂⟩, -, h⟩ := Option.bind_eq_some_iff.mp h
  obtain ⟨md2, -, h⟩ := Option.bind_eq_some_iff.mp h
  obtain ⟨system, hsystem, h⟩ := Option.bind_eq_some_iff.mp h
  cases h
  exact ⟨rad1 * md1.gearRatio, rad2 * md2.gearRatio, rfl,
    (System.moveByCommand_spec hsystem).1, rfl, rfl, rfl⟩

/-- On the wire the last motion is that of both drives to the recorded steps, with nothing but
questions before and behind it. -/
theorem moveToScanned_sends (hidle : s.scan.system.drives.Idle)
    (h : s.moveToScanned fuel = some s') :
    let d := s.scan.system.drives
    let arm := s'.scan.system.armConstruct
    ∃ before after,
      MotorDriver.Writes (d.Line (operatorCall noSteps)) d.useSimulations d.serialPort before ∧
      MotorDriver.Sends (d.motionLines 0 arm.canisterCurrentSteps ++
        d.motionLines 1 arm.elbowCurrentSteps) d.useSimulations before after ∧
      MotorDriver.Writes (d.Line (operatorCall noSteps)) d.useSimulations after
        s'.scan.system.drives.serialPort := by
  obtain ⟨⟨rad1, d₁⟩, h₁, h⟩ := Option.bind_eq_some_iff.mp h
  obtain ⟨md1, -, h⟩ := Option.bind_eq_some_iff.mp h
  obtain ⟨⟨rad2, d₂⟩, h₂, h⟩ := Option.bind_eq_some_iff.mp h
  obtain ⟨md2, -, h⟩ := Option.bind_eq_some_iff.mp h
  obtain ⟨system, hmove, h⟩ := Option.bind_eq_some_iff.mp h
  cases h
  have hasked : Drives.Calls (operatorCall noSteps) s.scan.system.drives d₂ :=
    (Drives.currentRotation_calls Nat.zero_lt_two h₁).trans
      (Drives.currentRotation_calls Nat.one_lt_two h₂)
  obtain ⟨hconfigs, hsimulations⟩ := hasked.configs
  obtain ⟨port, hsends, hwrites⟩ := System.moveByCommand_sends (hasked.idle hidle) hmove
  change MotorDriver.Sends (d₂.motionLines 0 _ ++ d₂.motionLines 1 _) d₂.useSimulations _ _
    at hsends
  change MotorDriver.Writes (d₂.Line _) d₂.useSimulations _ _ at hwrites
  rw [Drives.motionLines_of_configs hconfigs, hsimulations] at hsends
  rw [hsimulations] at hwrites
  exact ⟨d₂.serialPort, port, hasked.writes hidle, hsends,
    hwrites.mono fun _ => Drives.Line.of_configs hconfigs⟩

theorem exists_edgeLoop (w : Surroundings) (fuel passes : ℕ) (baseSteps : ℤ) (currentR : R)
    (hs : s.scan.system.drives.Simulated) :
    ∃ s', edgeLoop w fuel baseSteps passes currentR s = some s' ∧
      s'.scan.system.drives.Simulated := by
  induction passes generalizing currentR s with
  | zero => exact ⟨s, rfl, hs⟩
  | succ passes ih =>
    obtain ⟨system, hmove, hsystem⟩ := System.exists_moveByCommand hs fuel 0 currentR
    obtain ⟨drives, hdrives, hdrives'⟩ := hsystem.stepNMotion Nat.zero_lt_two baseSteps
    rw [zero_add] at hdrives
    have hpass : ∃ s₁, s.edgePass w fuel baseSteps currentR = some s₁ ∧
        s₁.scan.system.drives.Simulated := by
      refine ⟨⟨⟨⟨system.armConstruct, drives, system.currentX, system.currentY⟩, s.scan.targets,
        s.scan.errors, s.scan.hat, s.scan.looks, s.scan.commanded ++ [(1, baseSteps)]⟩,
        s.tAcquired, s.points ++ [(0, currentR)]⟩, ?_, hdrives'⟩
      simp [edgePass, goToMaxEdgeTest, moveByCommand, hmove, ScanState.stepNMotion, hdrives,
        ScanState.withDrives, hdrives'.simulations]
    obtain ⟨s₁, hs₁, hsimulated⟩ := hpass
    obtain ⟨s', hrest, hs'⟩ := ih (currentR + 1) hsimulated
    cases hacquired : s₁.tAcquired with
    | none => exact ⟨s', by simp [edgeLoop, hs₁, hacquired, hrest], hs'⟩
    | some t => exact ⟨s₁, by simp [edgeLoop, hs₁, hacquired], hsimulated⟩

theorem exists_moveToScanned (fuel : ℕ) (hs : s.scan.system.drives.Simulated) :
    ∃ s', s.moveToScanned fuel = some s' := by
  obtain ⟨rad1, d₁, h₁, hs₁⟩ := hs.currentRotation Nat.zero_lt_two
  obtain ⟨rad2, d₂, h₂, hs₂⟩ := hs₁.currentRotation Nat.one_lt_two
  obtain ⟨md1, hmd1⟩ := Option.isSome_iff_exists.mp hs₁.driver1
  obtain ⟨md2, hmd2⟩ := Option.isSome_iff_exists.mp hs₂.driver2
  unfold moveToScanned moveByCommand
  simp only [h₁, hmd1, h₂, hmd2, Option.bind_eq_bind, Option.bind_some]
  obtain ⟨system, hmove, -⟩ := System.exists_moveByCommand
    (s := (s.scan.withDrives d₂).system) hs₂ fuel _ _
  rw [hmove]
  exact ⟨_, rfl⟩

end EdgeScan

end program

section reach
variable {g : ArmParameters ℝ}

theorem ArmConfiguration.edgePasses_inRange {c : ArmConfiguration g} (hstart : 0 ≤ c.startRadius)
    {i : ℕ} (hi : i < c.edgePasses.toNat) :
    clampedRadius c.startRadius 0 (c.startRadius + i) = c.startRadius + i ∧
      c.startRadius + i ≤ g.link1 + g.link2 - 1 := by
  have hnonneg : 0 ≤ c.startRadius + (i : ℝ) := by positivity
  have hradius : polarRadius 0 (c.startRadius + i) = c.startRadius + i := by
    rw [polarRadius_real, zero_pow two_ne_zero, zero_add, Real.sqrt_sq hnonneg]
  have hmax : c.maxR = g.link1 + g.link2 := by
    rw [c.maxR_eq, ArmParameters.link1, ArmParameters.link2, add_right_comm]
  have hlt : (i : ℤ) + 1 ≤ truncate (c.maxR - c.startRadius) := by
    unfold edgePasses at hi
    omega
  have hpos : 0 ≤ c.maxR - c.startRadius := by
    by_contra hneg
    have hle := (truncate_nonpos_iff (c.maxR - c.startRadius)).mpr (by linarith)
    omega
  rw [truncate_of_nonneg hpos, Int.le_floor] at hlt
  push_cast at hlt
  refine ⟨?_, by linarith⟩
  rw [clampedRadius_eq_max, hradius, max_eq_left]
  have hi0 : (0 : ℝ) ≤ i := Nat.cast_nonneg i
  linarith

end reach

noncomputable def scanFrom {g : ArmParameters ℝ} (system : System g) (hat : ℝ × ℝ) :
    ScanState g :=
  .start system unseenPattern hat

/-- The two real drives have no `rotation_query`, and answer the move. -/
theorem exists_moveToScanned_feeding (hat : ℝ × ℝ) :
    ∃ s', EdgeScan.moveToScanned 1 ⟨scanFrom armAtOrigin.feeding hat, some 0, []⟩ = some s' := by
  have hquery : ∀ {i : ℕ} {md : MotorDriver ℝ}, md.parameters = (feedingDriver i).parameters →
      md.parameters "rotation_query".toList = none := by
    intro i md hparameters
    rw [hparameters]
    rfl
  obtain ⟨md1, hmd1, hparameters1⟩ :=
    feedingDrives.feedingDriver_of_configs rfl Nat.zero_lt_two
  obtain ⟨rad1, st₁, h₁, harrivals₁, hconfigs₁⟩ :=
    feedingDrives.exists_currentRotation hmd1 (hquery hparameters1)
  obtain ⟨md2, hmd2, hparameters2⟩ := st₁.feedingDriver_of_configs hconfigs₁ Nat.one_lt_two
  obtain ⟨rad2, st₂, h₂, harrivals₂, hconfigs₂⟩ :=
    st₁.exists_currentRotation hmd2 (hquery hparameters2)
  have hconfigs := hconfigs₂.trans hconfigs₁
  obtain ⟨md1', hmd1', -⟩ := st₁.feedingDriver_of_configs hconfigs₁ Nat.zero_lt_two
  obtain ⟨md2', hmd2', -⟩ := st₂.feedingDriver_of_configs hconfigs Nat.one_lt_two
  unfold EdgeScan.moveToScanned EdgeScan.moveByCommand
  change ∃ s', (feedingDrives.drives.currentRotation 0).bind _ = some s'
  rw [h₁, Option.bind_some]
  simp only [hmd1', h₂, hmd2', Option.bind_eq_bind, Option.bind_some]
  obtain ⟨system, hmove⟩ := System.exists_feedingMove
    (s := ((scanFrom armAtOrigin.feeding hat).withDrives st₂.drives).system) st₂ rfl
    (harrivals₂.trans harrivals₁) hconfigs _ _
  rw [hmove]
  exact ⟨_, rfl⟩

end Arm2D

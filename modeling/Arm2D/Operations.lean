import Arm2D.DirectedScan
import Arm2D.PositionCommands
import Arm2D.StepBounds
import Arm2D.TargetTest
import Arm2D.WalkALine

/-! # What the operator's commands are made of

Whatever a command of the operator computes, on the globals of the arm it does two things:
calls to the drivers of the two motors, and `move_by_command`. On the targets it does what
`Targets.Kept` allows. What these keep, every command keeps. -/
namespace Arm2D
open Library Relation

section operations
variable {R : Type} [Field R] [LinearOrder R] [FloorRing R] [Libm R] [PiConstant R]
variable {g : ArmParameters R}

inductive Operation (S : ℕ → ℤ → Prop) : System g → System g → Prop
  | drive {s : System g} {d : Drives R} (h : Drives.Calls (operatorCall S) s.drives d) :
      Operation S s { s with drives := d }
  | move {s s' : System g} {fuel : ℕ} {x y : R} (h : s.moveByCommand fuel x y = some s') :
      Operation S s s'

def Operations (S : ℕ → ℤ → Prop) : System g → System g → Prop := ReflTransGen (Operation S)

/-- The steps of every target of an arm with this start radius. -/
def MovesWithin (g : ArmParameters R) (S : ℕ → ℤ → Prop) (startRadius : R) : Prop :=
  ∀ c : ArmConfiguration g, c.startRadius = startRadius → ∀ x y,
    S 0 (c.setTarget x y).canisterCurrentSteps ∧ S 1 (c.setTarget x y).elbowCurrentSteps

/-- The arm stands where it was recorded when it was last sent somewhere, if it was. -/
def Recorded (s s' : System g) : Prop :=
  (s'.armConstruct, s'.currentX, s'.currentY) = (s.armConstruct, s.currentX, s.currentY) ∨
    ∃ c : ArmConfiguration g, c.startRadius = s.armConstruct.startRadius ∧
      s'.armConstruct = c.setTarget s'.currentX s'.currentY

namespace Operations
variable {S : ℕ → ℤ → Prop} {s s' : System g}

theorem startRadius (h : Operations S s s') :
    s'.armConstruct.startRadius = s.armConstruct.startRadius := by
  induction h with
  | refl => rfl
  | tail _ hstep ih =>
    cases hstep with
    | drive => exact ih
    | move hmove =>
      rw [(System.moveByCommand_spec hmove).1, ArmConfiguration.setTarget_startRadius]
      exact ih

theorem calls (hS : MovesWithin g S s.armConstruct.startRadius) (h : Operations S s s') :
    Drives.Calls (operatorCall S) s.drives s'.drives := by
  induction h with
  | refl => exact .refl
  | @tail t _ hbefore hstep ih =>
    cases hstep with
    | drive hcalls => exact ih.trans hcalls
    | @move _ _ x y hmove =>
      obtain ⟨hcanister, helbow⟩ := hS t.armConstruct (startRadius hbefore) x y
      exact ih.trans (System.moveByCommand_calls ⟨Nat.zero_lt_two, hcanister⟩
        ⟨Nat.one_lt_two, helbow⟩ (fun _ hi => hi) hmove)

theorem recorded (h : Operations S s s') : Recorded s s' := by
  induction h with
  | refl => exact Or.inl rfl
  | tail hbefore hstep ih =>
    cases hstep with
    | drive => exact ih
    | move hmove =>
      obtain ⟨harm, hx, hy⟩ := System.moveByCommand_spec hmove
      exact Or.inr ⟨_, startRadius hbefore, by rw [harm, hx, hy]⟩

theorem of_calls {d : Drives R} (h : Drives.Calls (operatorCall S) s.drives d) :
    Operations S s { s with drives := d } := .single (.drive h)

theorem of_move {fuel : ℕ} {x y : R} (h : s.moveByCommand fuel x y = some s') :
    Operations S s s' := .single (.move h)

theorem of_moves {fuel : ℕ} {commands : List (R × R)} (h : s.moves fuel commands = some s') :
    Operations S s s' :=
  foldlM_invariant (P := fun t => Operations S s t)
    (fun _ _ _ ht hmove => ht.trans (of_move hmove)) .refl h

end Operations

/-- Operations of the arm, while the targets are kept. -/
structure Advance (S : ℕ → ℤ → Prop) (s : System g) (ts : Targets R) (s' : System g)
    (ts' : Targets R) : Prop where
  operations : Operations S s s'
  kept : ts.Kept ts'

namespace Advance
variable {S : ℕ → ℤ → Prop} {s s' s'' : System g} {ts ts' ts'' : Targets R}

theorem refl (s : System g) (ts : Targets R) : Advance S s ts s ts := ⟨.refl, .refl ts⟩

theorem trans (h : Advance S s ts s' ts') (h' : Advance S s' ts' s'' ts'') :
    Advance S s ts s'' ts'' :=
  ⟨h.operations.trans h'.operations, h.kept.trans h'.kept⟩

end Advance

variable {S : ℕ → ℤ → Prop}

theorem moveToPosition_operations {fuel : ℕ} {s s' : System g} {xyPair : Str}
    (h : moveToPosition fuel s xyPair = some s') : Operations S s s' := by
  obtain ⟨p, -, h⟩ := Option.bind_eq_some_iff.mp h
  exact .of_move h

theorem walkALine_operations {fuel : ℕ} {s s' : System g} {numStr testTrialsStr : Str}
    (h : walkALine fuel s numStr testTrialsStr = some s') : Operations S s s' := by
  rw [walkALine] at h
  split_ifs at h
  · cases h
    exact .refl
  · exact .of_moves h

theorem moveToPattern_advance {w : PatternField R} {fuel : ℕ} {s s' : System g}
    {ts ts' : Targets R} {patternId : Str}
    (h : moveToPattern w fuel s ts patternId = some (s', ts')) : Advance S s ts s' ts' := by
  obtain ⟨⟨command, ts₁⟩, hcommand, h⟩ := Option.bind_eq_some_iff.mp h
  have hkept : ts.Kept ts₁ := by
    unfold patternCommand at hcommand
    cases htravel : ts.travelMap patternId with
    | none =>
      rw [htravel] at hcommand
      cases hcommand
      exact .refl ts
    | some t =>
      rw [htravel] at hcommand
      obtain ⟨ts₂, hwait, hcommand⟩ := Option.bind_eq_some_iff.mp hcommand
      obtain ⟨_, -, hcommand⟩ := Option.bind_eq_some_iff.mp hcommand
      cases hcommand
      exact waitForPattern_kept hwait
  cases command with
  | none =>
    cases h
    exact ⟨.refl, hkept⟩
  | some p =>
    obtain ⟨s₁, hmove, h⟩ := Option.bind_eq_some_iff.mp h
    cases h
    exact ⟨.of_move hmove, hkept⟩

theorem moveRelativeToPattern_advance {w : PatternField R} {p : SinkParameters} {fuel : ℕ}
    {s s' : System g} {ts ts' : Targets R} {patternId : Str}
    (h : moveRelativeToPattern w p fuel s ts patternId = some (s', ts')) :
    Advance S s ts s' ts' := by
  obtain ⟨hkept, hspec⟩ := moveRelativeToPattern_spec h
  refine ⟨?_, hkept⟩
  cases htravel : ts.travelMap patternId with
  | none =>
    rw [htravel] at hspec
    subst hspec
    exact .refl
  | some t =>
    rw [htravel] at hspec
    obtain ⟨d, -, hmove⟩ := hspec
    exact .of_move hmove

namespace ScanState

def Advances (S : ℕ → ℤ → Prop) (s s' : ScanState g) : Prop :=
  Advance S s.system s.targets s'.system s'.targets

variable {w : Surroundings} {fuel : ℕ} {s s' : ScanState g}

theorem Advances.of_calls {drives : Drives R}
    (h : Drives.Calls (operatorCall S) s.system.drives drives) :
    s.Advances S (s.withDrives drives) := ⟨.of_calls h, .refl _⟩

theorem stepNMotion_advances {motor : ℕ} {steps : ℤ} (hmotor : Drives.slot motor < 2)
    (hsteps : S (Drives.slot motor) steps) (h : s.stepNMotion motor steps = some s') :
    s.Advances S s' := by
  obtain ⟨drives, hdrives, h⟩ := Option.bind_eq_some_iff.mp h
  cases h
  exact ⟨.of_calls (Drives.stepNMotion_calls ⟨hmotor, hsteps⟩ hdrives), .refl _⟩

theorem stepperByCommand_advances {motor : ℕ} {steps : ℤ} (hmotor : Drives.slot motor < 2)
    (hsteps : S (Drives.slot motor) steps) (h : s.stepperByCommand fuel motor steps = some s') :
    s.Advances S s' := by
  obtain ⟨s₁, hstep, h⟩ := Option.bind_eq_some_iff.mp h
  have hs₁ := stepNMotion_advances hmotor hsteps hstep
  split_ifs at h
  · cases h
    exact hs₁
  · obtain ⟨drives, hdrives, h⟩ := Option.bind_eq_some_iff.mp h
    cases h
    exact hs₁.trans (Advances.of_calls (Drives.stepperLoop_calls hmotor hdrives))

theorem look_advances {t : Option ℕ} (h : s.look w = some (t, s')) : s.Advances S s' := by
  obtain ⟨targets, hreceive, h⟩ := Option.bind_eq_some_iff.mp h
  have htaken : targets.Kept (pointInTimeBestMatch w.targetStorage targets s.hat).2.2 := by
    unfold pointInTimeBestMatch
    have hheap := BestMatch.foldl_look_taken w.targetStorage ⟨targets.heap, 0, none⟩
    dsimp only
    cases (w.targetStorage.foldl BestMatch.look ⟨targets.heap, 0, none⟩).best
    all_goals
      dsimp only
      rw [hheap]
      exact .taken w.targetStorage targets fun i => taken_eq w.targetStorage targets.heap i
  cases h
  exact ⟨.refl, (Targets.Kept.receive hreceive).trans htaken⟩

theorem watchPass_advances {r : Bool × Drives R} {t : Option ℕ}
    {next : ScanState g → Option (Option ℕ × ScanState g)}
    (hr : Drives.Calls (operatorCall S) s.system.drives r.2)
    (hnext : ∀ {s₁ : ScanState g}, next s₁ = some (t, s') → s₁.Advances S s')
    (h : s.watchPass w r next = some (t, s')) : s.Advances S s' := by
  obtain ⟨⟨t₁, s₁⟩, hlook, h⟩ := Option.bind_eq_some_iff.mp h
  have hs₁ : s.Advances S s₁ := (Advances.of_calls hr).trans (look_advances hlook)
  cases t₁ with
  | some t₁ =>
    dsimp only at h
    split_ifs at h
    · obtain ⟨drives, haction, h⟩ := Option.bind_eq_some_iff.mp h
      cases h
      exact hs₁.trans (Advances.of_calls (Drives.runAction_calls ⟨rfl, rfl⟩ haction))
    · cases h
      exact hs₁
  | none =>
    dsimp only at h
    split_ifs at h
    · exact hs₁.trans (hnext h)
    · cases h
      exact hs₁

theorem acquireLoop_advances {motor : ℕ} {t : Option ℕ} (hmotor : Drives.slot motor < 2)
    (h : s.acquireLoop w motor fuel = some (t, s')) : s.Advances S s' := by
  induction fuel generalizing s with
  | zero => cases h
  | succ fuel ih =>
    rw [acquireLoop_succ] at h
    exact watchPass_advances (Drives.checkMotionStatusBody_calls hmotor _) ih h

theorem directedLoop_advances {t : Option ℕ} (h : s.directedLoop w fuel = some (t, s')) :
    s.Advances S s' := by
  induction fuel generalizing s with
  | zero => cases h
  | succ fuel ih =>
    rw [directedLoop_succ] at h
    exact watchPass_advances
      (Drives.checkMotionStatusBody_calls Drives.slot_one_lt _) ih h

theorem stepperByCommandsAcquire_advances {motor : ℕ} {steps : ℤ} {t : Option ℕ}
    (hmotor : Drives.slot motor < 2) (hsteps : S (Drives.slot motor) steps)
    (h : s.stepperByCommandsAcquire w fuel motor steps = some (t, s')) : s.Advances S s' := by
  obtain ⟨s₁, hstep, h⟩ := Option.bind_eq_some_iff.mp h
  have hs₁ : s.Advances S s₁ := stepNMotion_advances hmotor hsteps hstep
  have hs₁' : s.Advances S { s₁ with hat := (0, 0) } := hs₁
  dsimp only at h
  split_ifs at h
  · cases h
    exact hs₁'
  · exact hs₁'.trans (acquireLoop_advances hmotor h)

section rotation
variable (hS : ∀ i n, S i n)
include hS

theorem sweepLoop_advances {more : ℤ → Bool} {delta stepPos stepPos' : ℤ} {passes : ℕ}
    {t : Option ℕ}
    (h : s.sweepLoop w fuel more delta passes stepPos = some (t, stepPos', s')) :
    s.Advances S s' := by
  induction passes generalizing s stepPos with
  | zero => cases h
  | succ passes ih =>
    rw [sweepLoop] at h
    split_ifs at h
    · obtain ⟨⟨t₁, s₁⟩, hacquire, h⟩ := Option.bind_eq_some_iff.mp h
      have hs₁ := stepperByCommandsAcquire_advances (S := S) Drives.slot_one_lt
        (hS _ _) hacquire
      dsimp only at h
      split_ifs at h
      · cases h
        exact hs₁
      · exact hs₁.trans (ih h)
    · cases h
      exact .refl _ _

theorem ringLoop_advances {plan : SweepPlan R} {passes i : ℕ} {stepPos : ℤ} {t : Option ℕ}
    (h : s.ringLoop w fuel plan passes i stepPos = some (t, s')) : s.Advances S s' := by
  induction passes generalizing s i stepPos with
  | zero => cases h
  | succ passes ih =>
    rw [ringLoop] at h
    split_ifs at h
    · obtain ⟨s₁, hopen, h⟩ := Option.bind_eq_some_iff.mp h
      obtain ⟨⟨t₂, p₂, s₂⟩, hdown, h⟩ := Option.bind_eq_some_iff.mp h
      have hs₁ := stepperByCommand_advances (S := S) Drives.slot_two_lt (hS _ _) hopen
      have hs₂ := hs₁.trans (sweepLoop_advances hS hdown)
      dsimp only at h
      split_ifs at h
      · cases h
        exact hs₂
      · obtain ⟨s₃, hopen', h⟩ := Option.bind_eq_some_iff.mp h
        obtain ⟨⟨t₄, p₄, s₄⟩, hup, h⟩ := Option.bind_eq_some_iff.mp h
        have hs₃ := stepperByCommand_advances (S := S) Drives.slot_two_lt (hS _ _)
          hopen'
        have hs₄ := hs₂.trans (hs₃.trans (sweepLoop_advances hS hup))
        dsimp only at h
        split_ifs at h
        · cases h
          exact hs₄
        · exact hs₄.trans (ih h)
    · cases h
      exact .refl _ _

theorem rotationSweep_advances {t : Option ℕ} (h : s.rotationSweep w fuel = some (t, s')) :
    s.Advances S s' := by
  obtain ⟨s₁, h₁, h⟩ := Option.bind_eq_some_iff.mp h
  obtain ⟨s₂, h₂, h⟩ := Option.bind_eq_some_iff.mp h
  obtain ⟨plan, -, h⟩ := Option.bind_eq_some_iff.mp h
  obtain ⟨s₃, h₃, h⟩ := Option.bind_eq_some_iff.mp h
  have hcleared : s.targets.Kept (clearTargets w.targetStorage s.targets) :=
    .taken w.targetStorage s.targets
      fun i => foldl_update_idempotent setTargetNotAcquired_idempotent _ _ i
  have hs₁ := stepperByCommand_advances (S := S) Drives.slot_one_lt (hS _ _) h₁
  have hs₂ := stepperByCommand_advances (S := S) Drives.slot_two_lt (hS _ _) h₂
  have hs₃ := stepperByCommand_advances (S := S) Drives.slot_one_lt (hS _ _) h₃
  have hfirst : s.Advances S { s with
      targets := clearTargets w.targetStorage s.targets, hat := (0, 0) } := ⟨.refl, hcleared⟩
  exact hfirst.trans (hs₁.trans (hs₂.trans (hs₃.trans (ringLoop_advances hS h))))

end rotation

theorem moveToRotation_advances {p : R × R} (h : s.moveToRotation fuel = some (p, s')) :
    s.Advances S s' := by
  obtain ⟨⟨rad1, d₁⟩, h₁, h⟩ := Option.bind_eq_some_iff.mp h
  obtain ⟨⟨rad2, d₂⟩, h₂, h⟩ := Option.bind_eq_some_iff.mp h
  obtain ⟨system, hmove, h⟩ := Option.bind_eq_some_iff.mp h
  cases h
  have hasked : s.Advances S (s.withDrives d₂) := .of_calls
    ((Drives.currentRotation_calls Nat.zero_lt_two h₁).trans
      (Drives.currentRotation_calls Nat.one_lt_two h₂))
  exact hasked.trans ⟨.of_move hmove, .refl _⟩

theorem moveToAcquired_advances {t : ℕ} {p : R × R}
    (h : s.moveToAcquired w fuel t p = some s') : s.Advances S s' := by
  obtain ⟨⟨q, errors⟩, -, h⟩ := Option.bind_eq_some_iff.mp h
  obtain ⟨system, hmove, h⟩ := Option.bind_eq_some_iff.mp h
  cases h
  exact ⟨.of_move hmove, .refl _⟩

end ScanState

theorem scanForPatternWithRotationMotion_advances (hS : ∀ i n, S i n) {w : Surroundings}
    {fuel : ℕ} {s s' : ScanState g}
    (h : scanForPatternWithRotationMotion w fuel s = some (.returned s')) : s.Advances S s' := by
  obtain ⟨⟨t, s₁⟩, hsweep, h⟩ := Option.bind_eq_some_iff.mp h
  obtain ⟨⟨p, s₂⟩, hrotation, h⟩ := Option.bind_eq_some_iff.mp h
  have hs₂ := (ScanState.rotationSweep_advances hS hsweep).trans
    (ScanState.moveToRotation_advances hrotation)
  cases t with
  | none => cases h
  | some t =>
    obtain ⟨s₃, hacquired, h⟩ := Option.bind_eq_some_iff.mp h
    cases h
    exact hs₂.trans (ScanState.moveToAcquired_advances hacquired)

namespace EdgeScan
variable {w : Surroundings} {fuel : ℕ} {s s' : EdgeScan g}

def Advances (S : ℕ → ℤ → Prop) (s s' : EdgeScan g) : Prop := s.scan.Advances S s'.scan

theorem moveByCommand_advances {x y : R} (h : s.moveByCommand fuel x y = some s') :
    s.Advances S s' := by
  obtain ⟨system, hmove, h⟩ := Option.bind_eq_some_iff.mp h
  cases h
  exact ⟨.of_move hmove, .refl _⟩

theorem edgePass_advances {baseSteps : ℤ} (hS : S 0 baseSteps) {currentR : R}
    (h : s.edgePass w fuel baseSteps currentR = some s') : s.Advances S s' := by
  obtain ⟨s₁, hmove, h⟩ := Option.bind_eq_some_iff.mp h
  obtain ⟨scan, hstep, h⟩ := Option.bind_eq_some_iff.mp h
  have hs₁ : s.Advances S s₁ := moveByCommand_advances hmove
  have hscan : s.scan.Advances S scan :=
    hs₁.trans (ScanState.stepNMotion_advances Drives.slot_one_lt hS hstep)
  dsimp only at h
  split_ifs at h
  · cases h
    exact hscan
  · obtain ⟨⟨t, scan'⟩, hloop, h⟩ := Option.bind_eq_some_iff.mp h
    cases h
    exact hscan.trans (ScanState.directedLoop_advances hloop)

theorem edgeLoop_advances {baseSteps : ℤ} (hS : S 0 baseSteps) {passes : ℕ} {currentR : R}
    (h : edgeLoop w fuel baseSteps passes currentR s = some s') : s.Advances S s' := by
  induction passes generalizing s currentR with
  | zero =>
    cases h
    exact .refl _ _
  | succ passes ih =>
    obtain ⟨s₁, hpass, h⟩ := Option.bind_eq_some_iff.mp h
    have hs₁ := edgePass_advances hS hpass
    split_ifs at h
    · cases h
      exact hs₁
    · exact hs₁.trans (ih h)

theorem moveToScanned_advances (h : s.moveToScanned fuel = some s') : s.Advances S s' := by
  obtain ⟨⟨rad1, d₁⟩, h₁, h⟩ := Option.bind_eq_some_iff.mp h
  obtain ⟨md1, -, h⟩ := Option.bind_eq_some_iff.mp h
  obtain ⟨⟨rad2, d₂⟩, h₂, h⟩ := Option.bind_eq_some_iff.mp h
  obtain ⟨md2, -, h⟩ := Option.bind_eq_some_iff.mp h
  have hasked : s.scan.Advances S (s.scan.withDrives d₂) := .of_calls
    ((Drives.currentRotation_calls Nat.zero_lt_two h₁).trans
      (Drives.currentRotation_calls Nat.one_lt_two h₂))
  exact hasked.trans (moveByCommand_advances h)

end EdgeScan

theorem scanForPatternWithDirectedMotion_advances (hS : S 0 (halfTurn g)) {w : Surroundings}
    {fuel : ℕ} {s : ScanState g} {s' : EdgeScan g}
    (h : scanForPatternWithDirectedMotion w fuel s = some s') : s.Advances S s'.scan := by
  obtain ⟨s₁, hloop, h⟩ := Option.bind_eq_some_iff.mp h
  exact (EdgeScan.edgeLoop_advances hS hloop).trans (EdgeScan.moveToScanned_advances h)

namespace TargetTest
variable {camera : ℕ → List (Str × Str)} {fuel : ℕ} {s s' : TargetTest g}

def Advances (S : ℕ → ℤ → Prop) (s s' : TargetTest g) : Prop :=
  Advance S s.system s.targets s'.system s'.targets

theorem setTestMeasurements_advances (s : TargetTest g) (t : ℕ) :
    s.Advances S (s.setTestMeasurements t) := by
  refine ⟨.refl, rfl, rfl, fun i => ?_, fun i => ?_⟩
  all_goals
    by_cases hi : i = t
    · subst hi
      simp [setTestMeasurements, Target.setTestMeasurements, Target.goalOffset]
    · simp [setTestMeasurements, hi]

theorem receive_advances (h : s.receive camera = some s') : s.Advances S s' := by
  obtain ⟨targets, hreceive, h⟩ := Option.bind_eq_some_iff.mp h
  cases h
  exact ⟨.refl, Targets.Kept.receive hreceive⟩

theorem take_advances (s : TargetTest g) (t : ℕ) :
    s.Advances S { s with targets := { s.targets with
      heap := Function.update s.targets.heap t (s.targets.heap t).acquiredTarget.2 } } := by
  refine ⟨.refl, .taken [t] s.targets fun i => ?_⟩
  rw [acquiredTarget_eq]
  by_cases hi : i = t
  · subst hi
    simp
  · simp [hi]

theorem closed_advances (S : ℕ → ℤ → Prop) (camera : ℕ → List (Str × Str)) (fuel : ℕ) :
    Closed camera fuel (Advances (g := g) S) where
  refl _ := .refl _ _
  trans h h' := Advance.trans h h'
  ask _ _ := .refl _ _
  askNumber _ := .refl _ _
  locals _ _ := .refl _ _
  setTestMeasurements := setTestMeasurements_advances
  receive h := receive_advances h
  take := take_advances
  move _ h := ⟨.of_move h, .refl _⟩

end TargetTest

theorem testTargetToArm_advances {camera : ℕ → List (Str × Str)} {fuel : ℕ}
    {s s' : TargetTest g} (h : testTargetToArm camera fuel s = some s') : s.Advances S s' :=
  (TargetTest.closed_advances S camera fuel).testTargetToArm h

end operations
end Arm2D

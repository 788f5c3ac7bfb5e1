import Arm2D.AnsweredMoves
import Arm2D.Definedness
import Arm2D.Operations
import Arm2D.ToTarget
import Arm2D.TransformationTests

/-! # The operator's session

`main` of arm_2d.cpp in its command mode: it reads a command and runs it, until the command
begins with a q. A session is what the operator types, with what the camera reports
meanwhile. -/
namespace Arm2D
open Library Relation

section program
variable {R : Type} [Field R] [LinearOrder R] [FloorRing R] [Libm R] [PiConstant R]

/-- What the commands only read. For each command `camera` has the reports that come before
each of its looks. -/
structure CommandField (R : Type) where
  serverParameters : ParameterMap
  targetStorage : List ℕ
  id : ℕ → Str
  level : ℕ → ℕ
  offsetTotal : ℕ → R × R
  parameters : SinkParameters
  camera : ℕ → ℕ → List (Str × Str)

/-- The globals with `sg_reporting`, the words that the operator still types, and the number
of commands so far. -/
structure Session (g : ArmParameters R) where
  system : System g
  targets : Targets R
  errors : ErrorState
  reporting : Bool
  words : List Str
  commands : ℕ

variable {g : ArmParameters R}

/-- `main` as it comes to its loop. -/
def Session.begin (system : System g) (targets : Targets R) (words : List Str) : Session g where
  system := system
  targets := targets
  errors := ⟨false, .none⟩
  reporting := false
  words := words
  commands := 0

namespace CommandField
variable (w : CommandField R)

def patternField (command : ℕ) : PatternField R := ⟨w.offsetTotal, w.camera command⟩

def surroundings (command : ℕ) : Surroundings :=
  ⟨w.serverParameters, w.targetStorage, w.id, w.camera command⟩

def targetField : TargetField := ⟨w.parameters, w.id, w.level, w.targetStorage⟩

def passReports (command : ℕ) : PassReports :=
  ⟨fun n => w.camera command (2 * n), fun n => w.camera command (2 * n + 1)⟩

end CommandField

namespace Session

def ask (s : Session g) : Str × Session g :=
  let (word, words) := readWord [] s.words
  (word, { s with words := words })

def withSystem (s : Session g) (system : System g) : Session g := { s with system := system }

def withGlobals (s : Session g) (r : System g × Targets R) : Session g :=
  { s with system := r.1, targets := r.2 }

/-- The globals as a scan finds them. -/
def scan (s : Session g) : ScanState g := ⟨s.system, s.targets, s.errors, (0, 0), 0, []⟩

def withScan (s : Session g) (scan : ScanState g) : Session g :=
  { s with system := scan.system, targets := scan.targets, errors := scan.errors }

def targetTest (s : Session g) : TargetTest g :=
  ⟨s.system, s.targets, s.errors, s.words, [], ⟨0, 0, 0, 0⟩, 0⟩

def withTargetTest (s : Session g) (test : TargetTest g) : Session g :=
  { s with
    system := test.system
    targets := test.targets
    errors := test.errors
    words := test.words }

def toggleSensorReports (s : Session g) : Session g := { s with reporting := !s.reporting }

def armToHome (w : CommandField R) (fuel : ℕ) (s : Session g) : Option (Session g) := do
  let scan : ScanState g :=
    { s.scan with targets := clearTargets w.targetStorage s.targets }
  let scan ← scan.stepperByCommand fuel 1 0
  let scan ← scan.stepperByCommand fuel 2 0
  return s.withScan scan

/-- `scan_for_pattern`. Where its wait comes to an end, `wait_for_any_pattern` ends without the
value that is then used. -/
def scanForPattern (_s : Session g) : Option (Session g) := none

/-- The branches of the command loop, on what the operator types after the command; another
word does nothing. -/
def perform (w : CommandField R) (fuel : ℕ) (command : Str) (s : Session g) :
    Option (Session g) :=
  if command = "MP".toList then
    let (patternId, s) := s.ask
    (moveToPattern (w.patternField s.commands) fuel s.system s.targets patternId).map
      s.withGlobals
  else if command = "MR".toList then
    let (patternId, s) := s.ask
    (moveRelativeToPattern (w.patternField s.commands) w.parameters fuel s.system s.targets
      patternId).map s.withGlobals
  else if command = "X".toList then some s
  else if command = "MV".toList then
    let (xyPair, s) := s.ask
    (moveToPosition fuel s.system xyPair).map s.withSystem
  else if command = "ML".toList then
    (moveToPositionList fuel s.system w.serverParameters).map s.withSystem
  else if command = "WL".toList then
    let (numStr, s) := s.ask
    if (numStr.head?.map isalpha).getD false then some s
    else
      let (testTrialsStr, s) := s.ask
      (walkALine fuel s.system numStr testTrialsStr).map s.withSystem
  else if command = "R".toList then some s.toggleSensorReports
  else if command = "T".toList then
    (toTarget w.targetField (w.passReports s.commands) fuel s.system s.targets).map fun r =>
      s.withGlobals r.2
  else if command = "S".toList then s.scanForPattern
  else if command = "SPD".toList then
    (scanForPatternWithDirectedMotion (w.surroundings s.commands) fuel s.scan).map fun r =>
      s.withScan r.scan
  else if command = "SPR".toList then
    (scanForPatternWithRotationMotion (w.surroundings s.commands) fuel s.scan).bind fun r =>
      match r with
      | .nullTarget => none
      | .returned scan => some (s.withScan scan)
  else if command = "TT".toList then
    let (xyPair, s) := s.ask
    let (pipart, s) := s.ask
    (transformationTests xyPair pipart : Option (PolarReport R × PolarReport R)).map fun _ => s
  else if command = "TA".toList then
    (testTargetToArm (w.camera s.commands) fuel s.targetTest).map s.withTargetTest
  else if command = "HOME".toList then s.armToHome w fuel
  else some s

/-- One pass of the command loop, and whether another one follows. -/
def pass (w : CommandField R) (fuel : ℕ) (s : Session g) : Option (Bool × Session g) := do
  let (command, s) := s.ask
  let s ← s.perform w fuel command
  let more := command.head? ≠ some 'q' && command.head? ≠ some 'Q'
  return (more, { s with commands := s.commands + 1 })

def commandLoop (w : CommandField R) (fuel : ℕ) : ℕ → Session g → Option (Session g)
  | 0, _ => none
  | passes + 1, s => do
    let (more, s) ← s.pass w fuel
    if more then commandLoop w fuel passes s else return s

end Session

variable {S : ℕ → ℤ → Prop}

namespace Session

def Advances (S : ℕ → ℤ → Prop) (s s' : Session g) : Prop :=
  Advance S s.system s.targets s'.system s'.targets

/-- The steps that the scans and the way home use, beside those of targets. -/
structure ScanSteps (g : ArmParameters R) (S : ℕ → ℤ → Prop) (command : Str) : Prop where
  home : command = "HOME".toList → S 0 0 ∧ S 1 0
  directed : command = "SPD".toList → S 0 (halfTurn g)
  rotation : command = "SPR".toList → ∀ i n, S i n

variable {w : CommandField R} {fuel : ℕ} {s s' : Session g}

theorem armToHome_advances (hhome : S 0 0 ∧ S 1 0) (h : s.armToHome w fuel = some s') :
    s.Advances S s' := by
  obtain ⟨scan₁, h₁, h⟩ := Option.bind_eq_some_iff.mp h
  obtain ⟨scan₂, h₂, h⟩ := Option.bind_eq_some_iff.mp h
  cases h
  have hcleared : s.targets.Kept (clearTargets w.targetStorage s.targets) :=
    .taken w.targetStorage s.targets
      fun i => foldl_update_idempotent setTargetNotAcquired_idempotent _ _ i
  have hs₁ := ScanState.stepperByCommand_advances (S := S) Drives.slot_one_lt
    hhome.1 h₁
  have hs₂ := ScanState.stepperByCommand_advances (S := S) Drives.slot_two_lt
    hhome.2 h₂
  have hfirst : Advance S s.system s.targets s.system
    (clearTargets w.targetStorage s.targets) := ⟨.refl, hcleared⟩
  exact hfirst.trans (hs₁.trans hs₂)

theorem toTarget_advances {w : TargetField} {v : PassReports} {system system' : System g}
    {ts ts' : Targets R} {status : Bool}
    (h : toTarget w v fuel system ts = some (status, system', ts')) :
    Advance S system ts system' ts' := by
  unfold toTarget at h
  cases hgoal : w.goalSetup with
  | none =>
    simp only [hgoal, Option.some.injEq, Prod.mk.injEq] at h
    obtain ⟨-, rfl, rfl⟩ := h
    exact .refl _ _
  | some goal =>
    simp [hgoal, Approach.goalLoop_eq_none] at h

theorem perform_advances {command : Str} (hS : ScanSteps g S command)
    (h : s.perform w fuel command = some s') : s.Advances S s' := by
  unfold perform at h
  rcases ite_eq_iff.mp h with ⟨-, h⟩ | ⟨-, h⟩ -- MP
  · obtain ⟨⟨system, targets⟩, hmove, rfl⟩ := Option.map_eq_some_iff.mp h
    exact moveToPattern_advance hmove
  rcases ite_eq_iff.mp h with ⟨-, h⟩ | ⟨-, h⟩ -- MR
  · obtain ⟨⟨system, targets⟩, hmove, rfl⟩ := Option.map_eq_some_iff.mp h
    exact moveRelativeToPattern_advance hmove
  rcases ite_eq_iff.mp h with ⟨-, h⟩ | ⟨-, h⟩ -- X
  · cases h
    exact .refl _ _
  rcases ite_eq_iff.mp h with ⟨-, h⟩ | ⟨-, h⟩ -- MV
  · obtain ⟨system, hmove, rfl⟩ := Option.map_eq_some_iff.mp h
    exact ⟨moveToPosition_operations hmove, .refl _⟩
  rcases ite_eq_iff.mp h with ⟨-, h⟩ | ⟨-, h⟩ -- ML
  · obtain ⟨system, hmoves, rfl⟩ := Option.map_eq_some_iff.mp h
    exact ⟨.of_moves hmoves, .refl _⟩
  rcases ite_eq_iff.mp h with ⟨-, h⟩ | ⟨-, h⟩ -- WL
  · rcases ite_eq_iff.mp h with ⟨-, h⟩ | ⟨-, h⟩
    · cases h
      exact .refl _ _
    · obtain ⟨system, hwalk, rfl⟩ := Option.map_eq_some_iff.mp h
      exact ⟨walkALine_operations hwalk, .refl _⟩
  rcases ite_eq_iff.mp h with ⟨-, h⟩ | ⟨-, h⟩ -- R
  · cases h
    exact .refl _ _
  rcases ite_eq_iff.mp h with ⟨-, h⟩ | ⟨-, h⟩ -- T
  · obtain ⟨⟨status, system, targets⟩, htarget, rfl⟩ := Option.map_eq_some_iff.mp h
    exact toTarget_advances htarget
  rcases ite_eq_iff.mp h with ⟨-, h⟩ | ⟨-, h⟩ -- S
  · cases h
  rcases ite_eq_iff.mp h with ⟨hSPD, h⟩ | ⟨-, h⟩ -- SPD
  · obtain ⟨scan, hscan, rfl⟩ := Option.map_eq_some_iff.mp h
    exact scanForPatternWithDirectedMotion_advances (hS.directed hSPD) hscan
  rcases ite_eq_iff.mp h with ⟨hSPR, h⟩ | ⟨-, h⟩ -- SPR
  · obtain ⟨r, hscan, h⟩ := Option.bind_eq_some_iff.mp h
    cases r with
    | nullTarget => cases h
    | returned scan =>
      cases h
      exact scanForPatternWithRotationMotion_advances (hS.rotation hSPR) hscan
  rcases ite_eq_iff.mp h with ⟨-, h⟩ | ⟨-, h⟩ -- TT
  · obtain ⟨reports, -, rfl⟩ := Option.map_eq_some_iff.mp h
    exact .refl _ _
  rcases ite_eq_iff.mp h with ⟨-, h⟩ | ⟨-, h⟩ -- TA
  · obtain ⟨test, htest, rfl⟩ := Option.map_eq_some_iff.mp h
    exact testTargetToArm_advances htest
  rcases ite_eq_iff.mp h with ⟨hHOME, h⟩ | ⟨-, h⟩ -- HOME
  · exact armToHome_advances (hS.home hHOME) h
  · cases h
    exact .refl _ _

theorem pass_eq (w : CommandField R) (fuel : ℕ) (s : Session g) :
    s.pass w fuel = (s.ask.2.perform w fuel s.ask.1).bind fun s₁ =>
      some (s.ask.1.head? ≠ some 'q' && s.ask.1.head? ≠ some 'Q',
        { s₁ with commands := s₁.commands + 1 }) := rfl

theorem commandLoop_succ (w : CommandField R) (fuel passes : ℕ) (s : Session g) :
    s.commandLoop w fuel (passes + 1) = (s.pass w fuel).bind fun r =>
      if r.1 then commandLoop w fuel passes r.2 else some r.2 := rfl

theorem ask_advances (s : Session g) : s.Advances S s.ask.2 := .refl _ _

/-- The command that the operator types next is one of these, and its pass returns. -/
def CommandStep (w : CommandField R) (allowed : Str → Prop) (s s' : Session g) : Prop :=
  allowed s.ask.1 ∧ ∃ fuel more, s.pass w fuel = some (more, s')

/-- What a session has come to after any number of such commands. -/
def Reaches (w : CommandField R) (allowed : Str → Prop) : Session g → Session g → Prop :=
  ReflTransGen (CommandStep w allowed)

theorem CommandStep.advances {allowed : Str → Prop} (h : CommandStep w allowed s s')
    (hS : ∀ command, allowed command → ScanSteps g S command) : s.Advances S s' := by
  obtain ⟨hallowed, fuel, more, hpass⟩ := h
  obtain ⟨s₁, hperform, hpass⟩ := Option.bind_eq_some_iff.mp hpass
  cases hpass
  have hs₁ : s.ask.2.Advances S s₁ := perform_advances (hS _ hallowed) hperform
  exact s.ask_advances.trans hs₁

theorem Reaches.advances {allowed : Str → Prop} (h : Reaches w allowed s s')
    (hS : ∀ command, allowed command → ScanSteps g S command) : s.Advances S s' := by
  induction h with
  | refl => exact .refl _ _
  | tail _ hstep ih => exact ih.trans (hstep.advances hS)

theorem reaches_of_commandLoop {passes : ℕ} (h : s.commandLoop w fuel passes = some s') :
    Reaches w (fun _ => True) s s' := by
  induction passes generalizing s with
  | zero => cases h
  | succ passes ih =>
    obtain ⟨⟨more, s₁⟩, hpass, h⟩ := Option.bind_eq_some_iff.mp h
    have hstep : CommandStep w (fun _ => True) s s₁ := ⟨trivial, fuel, more, hpass⟩
    dsimp only at h
    split_ifs at h
    · exact .head hstep (ih h)
    · cases h
      exact .single hstep

end Session

/-- All steps. -/
def anySteps (_motor : ℕ) (_steps : ℤ) : Prop := True

theorem movesWithin_anySteps (g : ArmParameters R) (startRadius : R) :
    MovesWithin g anySteps startRadius := fun _ _ _ _ => ⟨trivial, trivial⟩

omit [Libm R] [PiConstant R] in
theorem scanSteps_anySteps (g : ArmParameters R) (command : Str) :
    Session.ScanSteps g anySteps command :=
  ⟨fun _ => ⟨trivial, trivial⟩, fun _ => trivial, fun _ _ _ => trivial⟩

theorem Session.Reaches.configs {w : CommandField R} {allowed : Str → Prop} {s s' : Session g}
    (h : s.Reaches w allowed s') : s'.system.drives.configs = s.system.drives.configs := by
  have hadvance := h.advances fun command _ => scanSteps_anySteps g command
  exact (hadvance.operations.calls (movesWithin_anySteps g _)).configs.1

/-- Whatever the operator types and the camera reports, after every command the start radius,
the drivers' configuration and the targets' registration are what they were, no line waits for
a drive, and the arm's angles are those of the recorded position. -/
theorem session_keeps {w : CommandField R} {s s' : Session g}
    (h : s.Reaches w (fun _ => True) s') :
    s'.system.armConstruct.startRadius = s.system.armConstruct.startRadius ∧
      Recorded s.system s'.system ∧ s.targets.Kept s'.targets ∧
      s'.system.drives.configs = s.system.drives.configs ∧
      s'.system.drives.useSimulations = s.system.drives.useSimulations ∧
      (s.system.drives.Idle → s'.system.drives.Idle) := by
  obtain ⟨hoperations, hkept⟩ := h.advances fun command _ => scanSteps_anySteps g command
  have hcalls := hoperations.calls (movesWithin_anySteps g _)
  obtain ⟨hconfigs, hsimulations⟩ := hcalls.configs
  exact ⟨hoperations.startRadius, hoperations.recorded, hkept, hconfigs, hsimulations,
    hcalls.idle⟩

/-- All that a session writes are whole lines to the two drives, of the motion, of the stop of
the first one and of the two questions, as the drives are configured; a simulation writes
nothing. -/
theorem session_writes {w : CommandField R} {s s' : Session g}
    (h : s.Reaches w (fun _ => True) s') (hidle : s.system.drives.Idle) :
    MotorDriver.Writes (s.system.drives.Line (operatorCall anySteps))
      s.system.drives.useSimulations s.system.drives.serialPort
      s'.system.drives.serialPort :=
  Drives.Calls.writes ((h.advances fun command _ => scanSteps_anySteps g command).operations.calls
    (movesWithin_anySteps g _)) hidle

namespace Session
variable {w : CommandField R} {fuel : ℕ} {s s' : Session g}

omit [LinearOrder R] [FloorRing R] [Libm R] in
theorem ask_words (s : Session g) : s.ask.2.words <:+ s.words :=
  TargetTest.readWord_suffix [] s.words

theorem perform_words {command : Str} (h : s.perform w fuel command = some s') :
    s'.words <:+ s.words := by
  have hask := s.ask_words
  unfold perform at h
  rcases ite_eq_iff.mp h with ⟨-, h⟩ | ⟨-, h⟩ -- MP
  · obtain ⟨r, -, rfl⟩ := Option.map_eq_some_iff.mp h
    exact hask
  rcases ite_eq_iff.mp h with ⟨-, h⟩ | ⟨-, h⟩ -- MR
  · obtain ⟨r, -, rfl⟩ := Option.map_eq_some_iff.mp h
    exact hask
  rcases ite_eq_iff.mp h with ⟨-, h⟩ | ⟨-, h⟩ -- X
  · cases h
    exact List.suffix_refl _
  rcases ite_eq_iff.mp h with ⟨-, h⟩ | ⟨-, h⟩ -- MV
  · obtain ⟨r, -, rfl⟩ := Option.map_eq_some_iff.mp h
    exact hask
  rcases ite_eq_iff.mp h with ⟨-, h⟩ | ⟨-, h⟩ -- ML
  · obtain ⟨r, -, rfl⟩ := Option.map_eq_some_iff.mp h
    exact List.suffix_refl _
  rcases ite_eq_iff.mp h with ⟨-, h⟩ | ⟨-, h⟩ -- WL
  · rcases ite_eq_iff.mp h with ⟨-, h⟩ | ⟨-, h⟩
    · cases h
      exact hask
    · obtain ⟨r, -, rfl⟩ := Option.map_eq_some_iff.mp h
      exact s.ask.2.ask_words.trans hask
  rcases ite_eq_iff.mp h with ⟨-, h⟩ | ⟨-, h⟩ -- R
  · cases h
    exact List.suffix_refl _
  rcases ite_eq_iff.mp h with ⟨-, h⟩ | ⟨-, h⟩ -- T
  · obtain ⟨r, -, rfl⟩ := Option.map_eq_some_iff.mp h
    exact List.suffix_refl _
  rcases ite_eq_iff.mp h with ⟨-, h⟩ | ⟨-, h⟩ -- S
  · cases h
  rcases ite_eq_iff.mp h with ⟨-, h⟩ | ⟨-, h⟩ -- SPD
  · obtain ⟨r, -, rfl⟩ := Option.map_eq_some_iff.mp h
    exact List.suffix_refl _
  rcases ite_eq_iff.mp h with ⟨-, h⟩ | ⟨-, h⟩ -- SPR
  · obtain ⟨r, -, h⟩ := Option.bind_eq_some_iff.mp h
    cases r with
    | nullTarget => cases h
    | returned scan =>
      cases h
      exact List.suffix_refl _
  rcases ite_eq_iff.mp h with ⟨-, h⟩ | ⟨-, h⟩ -- TT
  · obtain ⟨r, -, rfl⟩ := Option.map_eq_some_iff.mp h
    exact s.ask.2.ask_words.trans hask
  rcases ite_eq_iff.mp h with ⟨-, h⟩ | ⟨-, h⟩ -- TA
  · obtain ⟨test, htest, rfl⟩ := Option.map_eq_some_iff.mp h
    exact (TargetTest.closed_words (w.camera s.commands) fuel).testTargetToArm htest
  rcases ite_eq_iff.mp h with ⟨-, h⟩ | ⟨-, h⟩ -- HOME
  · obtain ⟨scan₁, -, h⟩ := Option.bind_eq_some_iff.mp h
    obtain ⟨scan₂, -, h⟩ := Option.bind_eq_some_iff.mp h
    cases h
    exact List.suffix_refl _
  · cases h
    exact List.suffix_refl _

/-- The first letter with which a command ends the loop. -/
def Quits (command : Str) : Prop := command.head? = some 'q' ∨ command.head? = some 'Q'

theorem perform_of_quits {command : Str} (h : Quits command) (w : CommandField R) (fuel : ℕ)
    (s : Session g) : s.perform w fuel command = some s := by
  have hne : ∀ name : Str, name.head? ≠ some 'q' → name.head? ≠ some 'Q' → command ≠ name := by
    rintro name hq hQ rfl
    exact h.elim hq hQ
  unfold perform
  iterate 14 rw [if_neg (hne _ (by decide) (by decide))]

theorem pass_of_quits {command : Str} {rest : List Str} (hwords : s.words = command :: rest)
    (h : Quits command) (w : CommandField R) (fuel : ℕ) :
    s.pass w fuel = some (false, { s with words := rest, commands := s.commands + 1 }) := by
  have hask : s.ask = (command, { s with words := rest }) := by simp [ask, hwords, readWord]
  rw [pass_eq, hask, perform_of_quits h, Option.bind_some]
  rcases h with h | h <;> simp [h]

theorem pass_of_words_eq_nil (hwords : s.words = []) (w : CommandField R) (fuel : ℕ) :
    s.pass w fuel = some (true, { s with commands := s.commands + 1 }) := by
  have hask : s.ask = ([], s) := by
    obtain ⟨system, targets, errors, reporting, words, commands⟩ := s
    cases hwords
    rfl
  have hperform : s.perform w fuel [] = some s := by
    unfold perform
    iterate 14 rw [if_neg (by decide)]
  rw [pass_eq, hask, hperform]
  rfl

theorem pass_more {more : Bool} (h : s.pass w fuel = some (more, s')) :
    more = true ↔ ¬ Quits s.ask.1 := by
  obtain ⟨s₁, -, h⟩ := Option.bind_eq_some_iff.mp h
  obtain ⟨rfl, -⟩ := Prod.ext_iff.mp (Option.some.inj h)
  change (decide (s.ask.1.head? ≠ some 'q') && decide (s.ask.1.head? ≠ some 'Q')) = true ↔ _
  simp [Quits]

theorem pass_words {more : Bool} (h : s.pass w fuel = some (more, s')) :
    s'.words <:+ s.words := by
  obtain ⟨s₁, hperform, h⟩ := Option.bind_eq_some_iff.mp h
  cases h
  have hwords : s₁.words <:+ s.ask.2.words := perform_words hperform
  exact hwords.trans s.ask_words

theorem Reaches.words {allowed : Str → Prop} (h : s.Reaches w allowed s') :
    s'.words <:+ s.words := by
  induction h with
  | refl => exact List.suffix_refl _
  | tail _ hstep ih =>
    obtain ⟨-, fuel, more, hpass⟩ := hstep
    exact (pass_words hpass).trans ih

/-- The command loop ends on a word that begins with a q and that it reads as a command, with the
words behind it left over. -/
theorem commandLoop_ends {passes : ℕ} (h : s.commandLoop w fuel passes = some s') :
    ∃ s₁ command rest, s.Reaches w (¬ Quits ·) s₁ ∧ s₁.words = command :: rest ∧ Quits command ∧
      s' = { s₁ with words := rest, commands := s₁.commands + 1 } := by
  induction passes generalizing s with
  | zero => cases h
  | succ passes ih =>
    obtain ⟨⟨more, s₂⟩, hpass, h⟩ := Option.bind_eq_some_iff.mp h
    have hmore := pass_more hpass
    dsimp only at h
    cases more with
    | true =>
      obtain ⟨s₁, command, rest, hreaches, hlast⟩ := ih h
      exact ⟨s₁, command, rest, .head ⟨hmore.mp rfl, fuel, true, hpass⟩ hreaches, hlast⟩
    | false =>
      have hquits : Quits s.ask.1 := by simpa using hmore
      cases hwords : s.words with
      | nil =>
        have hempty : s.ask.1 = [] := by simp [ask, hwords, readWord]
        simp [Quits, hempty] at hquits
      | cons command rest =>
        have hcommand : s.ask.1 = command := by simp [ask, hwords, readWord]
        rw [hcommand] at hquits
        have hlast := Option.some.inj ((pass_of_quits hwords hquits w fuel).symm.trans hpass)
        cases h
        exact ⟨s, command, rest, .refl, hwords, hquits, (congrArg Prod.snd hlast).symm⟩

theorem step_of_words_eq_nil (hwords : s.words = []) (w : CommandField R) :
    CommandStep w (¬ Quits ·) s { s with commands := s.commands + 1 } := by
  have hempty : s.ask.1 = [] := by simp [ask, hwords, readWord]
  exact ⟨by simp [Quits, hempty], 0, true, pass_of_words_eq_nil hwords w 0⟩

theorem goes_on (hwords : s.words = []) (w : CommandField R) (passes : ℕ) :
    s.Reaches w (¬ Quits ·) { s with commands := s.commands + passes } ∧
      ∀ fuel, s.commandLoop w fuel passes = none := by
  induction passes generalizing s with
  | zero => exact ⟨.refl, fun fuel => rfl⟩
  | succ passes ih =>
    have hnext : ({ s with commands := s.commands + 1 } : Session g).words = [] := hwords
    obtain ⟨hreaches, hloop⟩ := ih hnext
    refine ⟨.head (step_of_words_eq_nil hwords w) ?_, fun fuel => ?_⟩
    · rwa [Nat.add_comm passes 1, ← Nat.add_assoc]
    · rw [commandLoop_succ, pass_of_words_eq_nil hwords w fuel, Option.bind_some, if_pos rfl]
      exact hloop fuel

end Session

end program

/-- A turn and a quarter back from zero and half a turn forth for the base, half a turn for the
elbow. -/
def boundedSteps (g : ArmParameters ℝ) (motor : ℕ) (steps : ℤ) : Prop :=
  (motor = 0 → -(5 * g.canisterStep : ℤ) ≤ 4 * steps ∧ 2 * steps ≤ g.canisterStep) ∧
    (motor = 1 → -(g.elbowStep : ℤ) ≤ 2 * steps ∧ steps ≤ 0)

theorem boundedSteps_fit {g : ArmParameters ℝ} (hcanister : g.canisterStep ≤ 2 ^ 30)
    (helbow : g.elbowStep ≤ 2 ^ 30) {motor : ℕ} (hmotor : motor < 2) {steps : ℤ}
    (h : boundedSteps g motor steps) : -2 ^ 31 ≤ steps ∧ steps < 2 ^ 31 := by
  obtain ⟨hbase, hforearm⟩ := h
  interval_cases motor
  · obtain ⟨hback, hforth⟩ := hbase rfl
    omega
  · obtain ⟨hback, hforth⟩ := hforearm rfl
    omega

theorem movesWithin_boundedSteps {g : ArmParameters ℝ} (h2 : 0 < g.link2)
    (h12 : g.link2 < g.link1) {startRadius : ℝ} (hs : g.link1 - g.link2 ≤ startRadius) :
    MovesWithin g (boundedSteps g) startRadius := by
  intro c hc x y
  have hbounded := ArmConfiguration.setTarget_stepsBounded h2 h12 (hc ▸ hs) x y
  have hcanister := Int.neg_nonneg.mp hbounded.canister_nonneg
  have hback : 4 * -((c.setTarget x y).canisterCurrentSteps : ℝ) ≤ 5 * g.canisterStep := by
    have hle := hbounded.canister_le
    push_cast at hle
    linarith
  have helbow : 2 * -((c.setTarget x y).elbowCurrentSteps : ℝ) ≤ g.elbowStep := by
    have hle := hbounded.elbow_le
    push_cast at hle
    linarith
  norm_cast at hback helbow
  refine ⟨⟨fun _ => ⟨by omega, by omega⟩, fun h => by omega⟩,
    fun h => by omega, fun _ => ⟨by omega, Int.neg_nonneg.mp hbounded.elbow_nonneg⟩⟩

theorem scanSteps_boundedSteps (g : ArmParameters ℝ) {command : Str}
    (h : command ≠ "SPR".toList) : Session.ScanSteps g (boundedSteps g) command := by
  have hhalf : (0 : ℝ) ≤ g.canisterStep / 2 := by positivity
  have hfloor : 2 * (halfTurn g : ℝ) ≤ g.canisterStep := by
    unfold halfTurn
    rw [truncate_of_nonneg hhalf]
    linarith [Int.floor_le ((g.canisterStep : ℝ) / 2)]
  norm_cast at hfloor
  have hnonneg : 0 ≤ halfTurn g := truncate_nonneg hhalf
  refine ⟨fun _ => ⟨?_, ?_⟩, fun _ => ?_, fun hSPR => absurd hSPR h⟩
  · exact ⟨fun _ => ⟨by omega, by omega⟩, fun h => by omega⟩
  · exact ⟨fun h => by omega, fun _ => ⟨by omega, le_refl 0⟩⟩
  · exact ⟨fun _ => ⟨by omega, hfloor⟩, fun h => by omega⟩

/-- The commands but the rotating scan, which widens its sweep by its parameters, and the walk
along a line, which may leave the circle of its radius. -/
def staysInReach (command : Str) : Prop := command ≠ "SPR".toList ∧ command ≠ "WL".toList

/-- The steps of a radian, by which the constructor divides. -/
theorem ArmConfiguration.deltas_ne_zero {g : ArmParameters ℝ} (c : ArmConfiguration g)
    (hcanister : 0 < g.canisterStep) (helbow : 0 < g.elbowStep) :
    c.canisterDelta ≠ 0 ∧ c.elbowDelta ≠ 0 := by
  rw [c.canisterDelta_eq, c.elbowDelta_eq, twoPi, pi_real]
  have hturn : 0 < Real.pi * 2 := Real.two_pi_pos.trans_eq (mul_comm 2 Real.pi)
  have hcanister' : (0 : ℝ) < g.canisterStep := Nat.cast_pos.mpr hcanister
  have helbow' : (0 : ℝ) < g.elbowStep := Nat.cast_pos.mpr helbow
  exact ⟨(div_pos hcanister' hturn).ne', (div_pos helbow' hturn).ne'⟩

/-- In a session of such commands no drive is sent farther than it has to be for some target, to
steps that fit an `int`, and `set_target` computes nothing that is not defined. -/
theorem session_bounded {g : ArmParameters ℝ} (h2 : 0 < g.link2) (h12 : g.link2 < g.link1)
    (hcanister : g.canisterStep ≤ 2 ^ 30) (helbow : g.elbowStep ≤ 2 ^ 30)
    {w : CommandField ℝ} {s s' : Session g}
    (hs : g.link1 - g.link2 ≤ s.system.armConstruct.startRadius)
    (h : s.Reaches w staysInReach s') (hidle : s.system.drives.Idle) :
    MotorDriver.Writes (s.system.drives.Line (operatorCall fun motor steps =>
        boundedSteps g motor steps ∧ -2 ^ 31 ≤ steps ∧ steps < 2 ^ 31))
      s.system.drives.useSimulations s.system.drives.serialPort
      s'.system.drives.serialPort ∧
    ∀ x y, (s'.system.armConstruct.setTargetLogged x y).All MathCall.Defined := by
  have hadvance := h.advances fun _ hcommand => scanSteps_boundedSteps g hcommand.1
  have hcalls := hadvance.operations.calls (movesWithin_boundedSteps h2 h12 hs)
  refine ⟨(hcalls.mono fun i c hc => ?_).writes hidle, fun x y => ?_⟩
  · cases c with
    | runAction actionKey => exact hc
    | stepNMotion nSteps => exact ⟨hc.1, hc.2, boundedSteps_fit hcanister helbow hc.1 hc.2⟩
    | checkStatus checkNoisy => exact hc
    | currentRotation => exact hc
  · refine ArmConfiguration.setTarget_calls_defined h2 h12 _ ?_ x y
    rwa [hadvance.operations.startRadius]

noncomputable def twoCommands {g : ArmParameters ℝ} (system : System g) : Session g :=
  .begin system unseenPattern ["MV".toList, "3,4".toList, "q".toList]

noncomputable def quietField : CommandField ℝ :=
  ⟨∅, [], fun _ => [], fun _ => 0, fun _ => (0, 0), ⟨fun _ _ => [], fun _ => fieldParameter⟩,
    fun _ _ => []⟩

theorem Session.pass_move {g : ArmParameters ℝ} {s : Session g} (p : WrittenPoint)
    {rest : List Str} (hwords : s.words = "MV".toList :: p.text :: rest) {fuel : ℕ}
    {system : System g}
    (hmove : s.system.moveByCommand fuel (p.value ℝ).1 (p.value ℝ).2 = some system)
    (w : CommandField ℝ) : s.pass w fuel =
      some (true, { s with system := system, words := rest, commands := s.commands + 1 }) := by
  have hask : s.ask = ("MV".toList, { s with words := p.text :: rest }) := by
    simp [ask, hwords, readWord]
  have hmv : moveToPosition fuel s.system p.text = some system := by
    unfold moveToPosition
    rw [WrittenPoint.positionOf_text]
    exact hmove
  have hperform : ({ s with words := p.text :: rest } : Session g).perform w fuel "MV".toList =
      some { s with system := system, words := rest } := by
    unfold perform
    rw [if_neg (by decide), if_neg (by decide), if_neg (by decide), if_pos rfl]
    change (moveToPosition fuel s.system p.text).map _ = _
    rw [hmv]
    rfl
  rw [pass_eq, hask, hperform]
  rfl

theorem pass_twoCommands {g : ArmParameters ℝ} {system system' : System g} {fuel : ℕ}
    (hmove : system.moveByCommand fuel 3 4 = some system') :
    (twoCommands system).pass quietField fuel = some (true,
      { twoCommands system with system := system', words := ["q".toList], commands := 1 }) := by
  let p : WrittenPoint := ⟨.ofInt 3, .ofInt 4⟩
  have htext : p.text = "3,4".toList := by decide +kernel
  have hwords : (twoCommands system).words = ["MV".toList, p.text, "q".toList] := by
    rw [htext]
    rfl
  exact Session.pass_move p hwords (by simpa [p, WrittenPoint.value, Numeral.ofInt_value]) _

theorem idle_twoCommands : (twoCommands armAtOrigin).system.drives.Idle :=
  Drives.idle_allocate _ _ _

theorem commandLoop_twoCommands {g : ArmParameters ℝ} {system system' : System g} {fuel : ℕ}
    (hmove : system.moveByCommand fuel 3 4 = some system') :
    ∃ s', (twoCommands system).commandLoop quietField fuel 2 = some s' ∧
      s'.system = system' := by
  let s₁ : Session g :=
    { twoCommands system with system := system', words := ["q".toList], commands := 1 }
  have hlast := s₁.pass_of_quits rfl (Or.inl rfl) quietField fuel
  refine ⟨{ s₁ with words := [], commands := 2 }, ?_, rfl⟩
  rw [Session.commandLoop_succ, pass_twoCommands hmove, Option.bind_some, if_pos rfl,
    Session.commandLoop_succ]
  change (s₁.pass quietField fuel).bind _ = _
  rw [hlast]
  rfl

theorem session_keeps_twoCommands :
    ∃ s', (twoCommands armAtOrigin).Reaches quietField (fun _ => True) s' ∧
      Recorded (twoCommands armAtOrigin).system s'.system ∧ s'.system.drives.Idle := by
  obtain ⟨system, hmove, -⟩ := System.exists_moveByCommand armAtOrigin_simulated 0 3 4
  obtain ⟨s', h, -⟩ := commandLoop_twoCommands hmove
  have hreaches := Session.reaches_of_commandLoop h
  obtain ⟨-, hrecorded, -, -, -, hidle⟩ := session_keeps hreaches
  exact ⟨s', hreaches, hrecorded, hidle idle_twoCommands⟩

theorem exists_move_feeding : ∃ system, armAtOrigin.feeding.moveByCommand 1 3 4 = some system :=
  System.exists_feedingMove feedingDrives rfl rfl rfl 3 4

theorem session_writes_twoCommands :
    ∃ s', (twoCommands armAtOrigin.feeding).Reaches quietField (fun _ => True) s' ∧
      MotorDriver.Writes (armAtOrigin.feeding.drives.Line (operatorCall anySteps)) false
        armAtOrigin.feeding.drives.serialPort s'.system.drives.serialPort ∧
      s'.system.drives.serialPort.written ≠ [] := by
  obtain ⟨system, hmove⟩ := exists_move_feeding
  obtain ⟨s', h, hsystem⟩ := commandLoop_twoCommands hmove
  have hreaches := Session.reaches_of_commandLoop h
  obtain ⟨port, hsends, hwrites⟩ := System.moveByCommand_sends armAtOrigin.idle_feeding hmove
  obtain ⟨out, hout, htranscript⟩ := hsends.transcript rfl
  obtain ⟨out', hout', -⟩ := hwrites.text
  have hdriver : armAtOrigin.feeding.drives.motorDriverArray 0 = some (feedingDriver 0) := rfl
  have hitems : (feedingDriver 0).parameterAt "single_motion_var".toList =
      macroText [feedToPosition] := rfl
  have hlines :=
    Drives.length_motionLines hdriver hitems system.armConstruct.canisterCurrentSteps
  have hne := htranscript.ne_nil (List.append_ne_nil_of_left_ne_nil
    (List.ne_nil_of_length_pos (hlines ▸ Nat.one_pos)) _)
  refine ⟨s', hreaches, session_writes hreaches armAtOrigin.idle_feeding, ?_⟩
  rw [hsystem, hout', hout]
  exact List.append_ne_nil_of_left_ne_nil (List.append_ne_nil_of_right_ne_nil _ hne) _

end Arm2D

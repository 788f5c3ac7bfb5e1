import Arm2D.RotationScan
import Arm2D.ToItems

/-! # Trying out a target

`test_target_to_arm` of arm_2d.cpp asks for a pattern, takes its measurements from the camera
or from the operator, and moves the arm to the goal; then it asks for other measurements and
moves again, until the operator says no more. -/
namespace Arm2D
open Library

/-- `cin >> word`; at the end of the input the word stays what it was. -/
def readWord (word : Str) : List Str → Str × List Str
  | [] => (word, [])
  | w :: words => (w, words)

section program
variable {R : Type} [Field R] [LinearOrder R] [FloorRing R] [Libm R] [PiConstant R]

/-- The four `test_` variables. -/
structure TestMeasurements (R : Type) where
  x : R
  y : R
  theta : R
  match_ : R

def Target.setTestMeasurements (t : Target R) (m : TestMeasurements R) : Target R :=
  { t with
    fovX := m.x
    fovY := m.y
    fovTheta := m.theta / (180 : ℕ) * PI
    fovMatch := m.match_ }

/-- The globals with the locals of the test. It is counted how often the camera's reports were
taken in. -/
structure TargetTest (g : ArmParameters R) where
  system : System g
  targets : Targets R
  errors : ErrorState
  words : List Str
  value : Str
  test : TestMeasurements R
  looks : ℕ

variable {g : ArmParameters R}

namespace TargetTest

/-- A word that the operator types; `word` is what the variable was. -/
def ask (s : TargetTest g) (word : Str) : Str × TargetTest g :=
  let (word, words) := readWord word s.words
  (word, { s with words := words })

def askNumber (s : TargetTest g) : R × TargetTest g :=
  let (value, s) := s.ask s.value
  (atof value, { s with value := value })

/-- `use_data`: only with motors the operator is asked. -/
def askUseData (s : TargetTest g) : Bool × TargetTest g :=
  if s.system.drives.useSimulations then (false, s)
  else
    let (answer, s) := s.ask []
    (answer.head? = some 'y', s)

def setTestMeasurements (s : TargetTest g) (t : ℕ) : TargetTest g :=
  { s with targets := { s.targets with
      heap := Function.update s.targets.heap t ((s.targets.heap t).setTestMeasurements s.test) } }

def askMeasurements (s : TargetTest g) : TargetTest g :=
  let (x, s) := s.askNumber
  let (y, s) := s.askNumber
  let (theta, s) := s.askNumber
  let (match_, s) := s.askNumber
  { s with test := ⟨x, y, theta, match_⟩ }

/-- For an item of the list of variables a number is asked for, whatever the item is. -/
def askVariable (s : TargetTest g) (var : Str) : TargetTest g :=
  let (value, s) := s.askNumber
  if var = "X".toList then { s with test := { s.test with x := value } }
  else if var = "Y".toList then { s with test := { s.test with y := value } }
  else if var = "T".toList then { s with test := { s.test with theta := value } }
  else if var = "M".toList then { s with test := { s.test with match_ := value } }
  else s

/-- What the camera has reported since it was last taken in. -/
def receive (camera : ℕ → List (Str × Str)) (s : TargetTest g) : Option (TargetTest g) := do
  let targets ← Arm2D.receive (camera s.looks) s.targets
  return { s with targets := targets, looks := s.looks + 1 }

/-- The first loop, for at most so many passes: it ends with the pattern and its target, or the
test is over. -/
def chooseLoop (camera : ℕ → List (Str × Str)) :
    ℕ → Str → TargetTest g → Option (Option (Str × ℕ) × TargetTest g)
  | 0, _, _ => none
  | fuel + 1, patternId, s =>
    let (patternId, s) := s.ask patternId
    match s.targets.travelMap patternId with
    | none =>
      let (answer, s) := s.ask []
      if answer.head? = some 'y' then chooseLoop camera fuel patternId s else some (none, s)
    | some t =>
      let (useData, s) := s.askUseData
      if useData then do
        let s ← s.receive camera
        let (acquired, target) := (s.targets.heap t).acquiredTarget
        let s := { s with targets := { s.targets with
          heap := Function.update s.targets.heap t target } }
        if acquired then return (some (patternId, t), s)
        else
          let (answer, s) := s.ask []
          -- the `continue` comes to the condition of the loop, and `t` is not NULL
          if answer.head? = some 'y' then return (some (patternId, t), s)
          else return (none, s)
      else some (some (patternId, t), s.askMeasurements.setTestMeasurements t)

/-- The second loop, for at most so many passes. -/
def repeatLoop (camera : ℕ → List (Str × Str)) (fuel : ℕ) (patternId : Str) (t : ℕ) :
    ℕ → Str → TargetTest g → Option (TargetTest g)
  | 0, _, _ => none
  | passes + 1, controller, s => do
    let s ← s.receive camera
    let ((x, y), errors) ← targetToArm s.system.armConstruct
      (s.system.currentX, s.system.currentY) s.targets s.errors patternId (0, 0)
    let system ← s.system.moveByCommand fuel x y
    let s := { s with system := system, errors := errors }
    let (controller, s) := s.ask controller
    if controller.head? = some 'q' then return s
    else
      let (useData, s) := s.askUseData
      if useData then repeatLoop camera fuel patternId t passes controller s
      else
        let (varSet, s) := s.ask []
        let s := ((toItems varSet ',').foldl askVariable s).setTestMeasurements t
        repeatLoop camera fuel patternId t passes controller s

end TargetTest

/-- `test_target_to_arm` on what the operator types in. -/
def testTargetToArm (camera : ℕ → List (Str × Str)) (fuel : ℕ) (s : TargetTest g) :
    Option (TargetTest g) := do
  let (chosen, s) ← s.chooseLoop camera fuel "alpha_Q".toList
  match chosen with
  | none => return s
  | some (patternId, t) => s.repeatLoop camera fuel patternId t fuel "yes".toList

end program

namespace TargetTest
section closed
variable {R : Type} [Field R] [LinearOrder R] [FloorRing R] [Libm R] [PiConstant R]
variable {g : ArmParameters R}

/-- A relation that every step of the test keeps. -/
structure Closed (camera : ℕ → List (Str × Str)) (fuel : ℕ)
    (Q : TargetTest g → TargetTest g → Prop) : Prop where
  refl : ∀ s, Q s s
  trans : ∀ {s s' s''}, Q s s' → Q s' s'' → Q s s''
  ask : ∀ s word, Q s (s.ask word).2
  askNumber : ∀ s, Q s s.askNumber.2
  locals : ∀ s m, Q s { s with test := m }
  setTestMeasurements : ∀ s t, Q s (s.setTestMeasurements t)
  receive : ∀ {s s'}, s.receive camera = some s' → Q s s'
  take : ∀ s t, Q s { s with targets := { s.targets with
    heap := Function.update s.targets.heap t (s.targets.heap t).acquiredTarget.2 } }
  move : ∀ {s : TargetTest g} {system x y} errors, s.system.moveByCommand fuel x y = some system →
    Q s { s with system := system, errors := errors }

namespace Closed
variable {camera : ℕ → List (Str × Str)} {fuel : ℕ} {Q : TargetTest g → TargetTest g → Prop}
variable (hQ : Closed camera fuel Q) {s s' : TargetTest g}
include hQ

theorem askUseData (s : TargetTest g) : Q s s.askUseData.2 := by
  unfold TargetTest.askUseData
  split_ifs
  · exact hQ.refl s
  · exact hQ.ask s []

theorem askMeasurements (s : TargetTest g) : Q s s.askMeasurements :=
  hQ.trans (hQ.askNumber s) (hQ.trans (hQ.askNumber _) (hQ.trans (hQ.askNumber _)
    (hQ.trans (hQ.askNumber _) (hQ.locals _ _))))

theorem askVariable (s : TargetTest g) (var : Str) : Q s (s.askVariable var) := by
  unfold TargetTest.askVariable
  dsimp only
  split_ifs
  · exact hQ.trans (hQ.askNumber s) (hQ.locals _ _)
  · exact hQ.trans (hQ.askNumber s) (hQ.locals _ _)
  · exact hQ.trans (hQ.askNumber s) (hQ.locals _ _)
  · exact hQ.trans (hQ.askNumber s) (hQ.locals _ _)
  · exact hQ.askNumber s

theorem foldl_askVariable (vars : List Str) (s : TargetTest g) :
    Q s (vars.foldl TargetTest.askVariable s) := by
  induction vars generalizing s with
  | nil => exact hQ.refl s
  | cons var vars ih => exact hQ.trans (hQ.askVariable s var) (ih _)

theorem chooseLoop {passes : ℕ} {patternId : Str} {chosen : Option (Str × ℕ)}
    (h : s.chooseLoop camera passes patternId = some (chosen, s')) : Q s s' := by
  induction passes generalizing s patternId with
  | zero => cases h
  | succ passes ih =>
    rw [TargetTest.chooseLoop] at h
    dsimp only at h
    have hpattern := hQ.ask s patternId
    generalize s.ask patternId = asked at h hpattern
    obtain ⟨patternId, s₁⟩ := asked
    dsimp only at h hpattern
    cases htravel : s₁.targets.travelMap patternId with
    | none =>
      rw [htravel] at h
      have hanswer := hQ.trans hpattern (hQ.ask s₁ [])
      generalize s₁.ask [] = asked at h hanswer
      obtain ⟨answer, s₂⟩ := asked
      dsimp only at h hanswer
      split_ifs at h
      · exact hQ.trans hanswer (ih h)
      · cases h
        exact hanswer
    | some t =>
      rw [htravel] at h
      have hasked := hQ.trans hpattern (hQ.askUseData s₁)
      generalize s₁.askUseData = asked at h hasked
      obtain ⟨useData, s₂⟩ := asked
      dsimp only at h hasked
      split_ifs at h
      · obtain ⟨s₃, hreceive, h⟩ := Option.bind_eq_some_iff.mp h
        have htaken := hQ.trans (hQ.trans hasked (hQ.receive hreceive)) (hQ.take s₃ t)
        generalize (s₃.targets.heap t).acquiredTarget = taken at h htaken
        obtain ⟨acquired, target⟩ := taken
        dsimp only at h htaken
        generalize ({ s₃ with targets := { s₃.targets with
          heap := Function.update s₃.targets.heap t target } } : TargetTest g) = s₄ at h htaken
        have hanswer := hQ.trans htaken (hQ.ask s₄ [])
        generalize s₄.ask [] = asked at h hanswer
        obtain ⟨answer, s₅⟩ := asked
        dsimp only at h hanswer
        split_ifs at h
        · cases h
          exact htaken
        · cases h
          exact hanswer
        · cases h
          exact hanswer
      · cases h
        exact hQ.trans hasked (hQ.trans (hQ.askMeasurements s₂) (hQ.setTestMeasurements _ t))

theorem repeatLoop {patternId controller : Str} {t passes : ℕ}
    (h : s.repeatLoop camera fuel patternId t passes controller = some s') : Q s s' := by
  induction passes generalizing s controller with
  | zero => cases h
  | succ passes ih =>
    rw [TargetTest.repeatLoop] at h
    obtain ⟨s₁, hreceive, h⟩ := Option.bind_eq_some_iff.mp h
    obtain ⟨⟨⟨x, y⟩, errors⟩, -, h⟩ := Option.bind_eq_some_iff.mp h
    obtain ⟨system, hmove, h⟩ := Option.bind_eq_some_iff.mp h
    have hmoved := hQ.trans (hQ.receive hreceive) (hQ.move errors hmove)
    dsimp only at h
    generalize ({ s₁ with system := system, errors := errors } : TargetTest g) = s₂ at h hmoved
    have hcontroller := hQ.trans hmoved (hQ.ask s₂ controller)
    generalize s₂.ask controller = asked at h hcontroller
    obtain ⟨controller, s₃⟩ := asked
    dsimp only at h hcontroller
    by_cases hquit : controller.head? = some 'q'
    · rw [if_pos hquit] at h
      cases h
      exact hcontroller
    · rw [if_neg hquit] at h
      have hasked := hQ.trans hcontroller (hQ.askUseData s₃)
      generalize s₃.askUseData = asked at h hasked
      obtain ⟨useData, s₄⟩ := asked
      dsimp only at h hasked
      split_ifs at h
      · exact hQ.trans hasked (ih h)
      · have hlisted := hQ.trans (hQ.trans hasked (hQ.ask s₄ []))
          (hQ.foldl_askVariable (toItems (s₄.ask []).1 ',') (s₄.ask []).2)
        exact hQ.trans (hQ.trans hlisted (hQ.setTestMeasurements _ t)) (ih h)

theorem testTargetToArm (h : testTargetToArm camera fuel s = some s') : Q s s' := by
  obtain ⟨⟨chosen, s₁⟩, hchoose, h⟩ := Option.bind_eq_some_iff.mp h
  have hs₁ := hQ.chooseLoop hchoose
  cases chosen with
  | none =>
    cases h
    exact hs₁
  | some c => exact hQ.trans hs₁ (hQ.repeatLoop h)

end Closed

theorem readWord_suffix (word : Str) (words : List Str) : (readWord word words).2 <:+ words := by
  cases words with
  | nil => exact List.suffix_refl _
  | cons w words => exact List.suffix_cons w words

theorem closed_words (camera : ℕ → List (Str × Str)) (fuel : ℕ) :
    Closed camera fuel (fun s s' : TargetTest g => s'.words <:+ s.words) where
  refl s := List.suffix_refl _
  trans h h' := h'.trans h
  ask s word := readWord_suffix word s.words
  askNumber s := readWord_suffix s.value s.words
  locals s _ := List.suffix_refl _
  setTestMeasurements s _ := List.suffix_refl _
  receive {s s'} h := by
    obtain ⟨targets, -, h⟩ := Option.bind_eq_some_iff.mp h
    cases h
    exact List.suffix_refl _
  take s _ := List.suffix_refl _
  move {s _ _ _} _ _ := List.suffix_refl s.words

end closed
end TargetTest
end Arm2D

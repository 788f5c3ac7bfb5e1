import Arm2D.Drives
import Arm2D.SetTarget

/-! # Moving the arm

The globals that a motion command works on, and `move_by_command`. -/
namespace Arm2D
open Library

variable {R : Type} [Field R] [LinearOrder R] [FloorRing R] [Libm R] [PiConstant R]

/-- `sg_arm_construct`, the drives, and the recorded position. -/
structure System (g : ArmParameters R) where
  armConstruct : ArmConfiguration g
  drives : Drives R
  currentX : R
  currentY : R

namespace System
variable {g : ArmParameters R}

/-- `move_by_command`. There is no result when a driver is NULL, or when the waiting loop
needs more than `fuel` passes. -/
def moveByCommand (fuel : ℕ) (s : System g) (x y : R) : Option (System g) := do
  let arm := s.armConstruct.setTarget x y
  let csteps := arm.canisterCurrentSteps
  let esteps := arm.elbowCurrentSteps
  let drives ← s.drives.stepNMotion 1 csteps
  let drives ← drives.stepNMotion 2 esteps
  let drives ← drives.waitForMotion fuel
  -- The position is recorded whatever became of the target.
  return { armConstruct := arm, drives := drives, currentX := x, currentY := y }

def moves (fuel : ℕ) (s : System g) (commands : List (R × R)) : Option (System g) :=
  commands.foldlM (fun s p => s.moveByCommand fuel p.1 p.2) s

theorem moveByCommand_spec {fuel : ℕ} {s s' : System g} {x y : R}
    (h : s.moveByCommand fuel x y = some s') :
    s'.armConstruct = s.armConstruct.setTarget x y ∧ s'.currentX = x ∧ s'.currentY = y := by
  obtain ⟨d₁, -, h⟩ := Option.bind_eq_some_iff.mp h
  obtain ⟨d₂, -, h⟩ := Option.bind_eq_some_iff.mp h
  obtain ⟨d₃, -, h⟩ := Option.bind_eq_some_iff.mp h
  cases h
  exact ⟨rfl, rfl, rfl⟩

theorem moveByCommand_mono {fuel fuel' : ℕ} (hle : fuel ≤ fuel') (s : System g) (x y : R) :
    ∀ s' ∈ s.moveByCommand fuel x y, s' ∈ s.moveByCommand fuel' x y := by
  intro s' h
  obtain ⟨d₁, h₁, h⟩ := Option.bind_eq_some_iff.mp h
  obtain ⟨d₂, h₂, h⟩ := Option.bind_eq_some_iff.mp h
  obtain ⟨d₃, h₃, h⟩ := Option.bind_eq_some_iff.mp h
  refine Option.bind_eq_some_iff.mpr ⟨d₁, h₁, Option.bind_eq_some_iff.mpr ⟨d₂, h₂, ?_⟩⟩
  exact Option.bind_eq_some_iff.mpr ⟨d₃, Drives.waitForMotion_mono hle d₂ d₃ h₃, h⟩

theorem moves_startRadius {fuel : ℕ} {s s' : System g} {commands : List (R × R)}
    (h : s.moves fuel commands = some s') :
    s'.armConstruct.startRadius = s.armConstruct.startRadius := by
  induction commands generalizing s with
  | nil =>
    cases h
    rfl
  | cons p commands ih =>
    rw [moves, List.foldlM_cons] at h
    obtain ⟨s₁, h₁, h⟩ := Option.bind_eq_some_iff.mp h
    rw [ih h, (moveByCommand_spec h₁).1]
    exact s.armConstruct.setTarget_startRadius p.1 p.2

/-- After a run the record is the last command's target, and the arm was sent to it. -/
theorem moves_concat {fuel : ℕ} {s s' : System g} {commands : List (R × R)} {p : R × R}
    (h : s.moves fuel (commands ++ [p]) = some s') :
    ∃ c : ArmConfiguration g, c.startRadius = s.armConstruct.startRadius ∧
      s'.armConstruct = c.setTarget p.1 p.2 ∧ (s'.currentX, s'.currentY) = p := by
  rw [moves, List.foldlM_append] at h
  obtain ⟨s₁, h₁, h⟩ := Option.bind_eq_some_iff.mp h
  rw [List.foldlM_cons] at h
  obtain ⟨s₂, h₂, h⟩ := Option.bind_eq_some_iff.mp h
  cases h
  obtain ⟨harm, hx, hy⟩ := moveByCommand_spec h₂
  exact ⟨s₁.armConstruct, moves_startRadius h₁, harm, Prod.ext hx hy⟩

theorem exists_moveByCommand {s : System g} (h : s.drives.Simulated) (fuel : ℕ) (x y : R) :
    ∃ s', s.moveByCommand fuel x y = some s' ∧ s'.drives.Simulated := by
  obtain ⟨d₁, h₁, hs₁⟩ := h.stepNMotion Nat.zero_lt_two
    (s.armConstruct.setTarget x y).canisterCurrentSteps
  obtain ⟨d₂, h₂, hs₂⟩ := hs₁.stepNMotion Nat.one_lt_two
    (s.armConstruct.setTarget x y).elbowCurrentSteps
  refine ⟨⟨s.armConstruct.setTarget x y, d₂, x, y⟩, ?_, hs₂⟩
  rw [zero_add] at h₁
  rw [one_add_one_eq_two] at h₂
  simp [moveByCommand, h₁, h₂, Drives.waitForMotion, hs₂.simulations]

theorem exists_moves {s : System g} (h : s.drives.Simulated) (fuel : ℕ)
    (commands : List (R × R)) : ∃ s', s.moves fuel commands = some s' := by
  induction commands generalizing s with
  | nil => exact ⟨s, rfl⟩
  | cons p commands ih =>
    obtain ⟨s₁, h₁, hs₁⟩ := exists_moveByCommand h fuel p.1 p.2
    obtain ⟨s', h'⟩ := ih hs₁
    refine ⟨s', ?_⟩
    rw [moves, List.foldlM_cons, h₁]
    exact h'

end System
end Arm2D

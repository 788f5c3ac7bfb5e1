import Arm2D.InverseKinematics
import Arm2D.Target
import Arm2D.Transformation

/-! # The camera's frame

The camera looks along the forearm. `target_to_arm` turns a sighting into the plane of
the shoulder with the two angles that `set_target` left. -/
namespace Arm2D
open Library

inductive SoftwareErrorType
  | none
  | nullPointer
  deriving DecidableEq, Repr

/-- `sg_error_is_soft` and `sg_soft_error`. -/
structure ErrorState where
  errorIsSoft : Bool
  softError : SoftwareErrorType
  deriving DecidableEq, Repr

def softwareError (sert : SoftwareErrorType) : ErrorState := ⟨true, sert⟩

section target_to_arm
variable {R : Type} [Field R] [LinearOrder R] [FloorRing R] [Libm R] [PiConstant R]
variable {g : ArmParameters R}

/-- The common body of `target_to_arm` and `target_to_arm_quiet`, which differ in what
they print. A failing `fov_center_offset` is a NULL sensor. -/
def targetToArmBody (c : ArmConfiguration g) (current : R × R) (ts : Targets R)
    (errors : ErrorState) (patternId : Str) (xy : R × R) : Option ((R × R) × ErrorState) :=
  match ts.travelMap patternId with
  | some i => do
    let t := ts.heap i
    let theta := t.fovTheta
    let p ← t.fovCenterOffset t.fovX t.fovY
    let coordRotate1 := PI - c.elbowAngle
    let p := rotate2d (-coordRotate1) p
    let coordRotate2 := PI / 2 - c.baseAngle
    let p := rotate2d (-coordRotate2) p
    let p := p + current
    let goal := t.goalOffset
    let goal := rotate2d theta goal
    let goal := rotate2d (-coordRotate1) goal
    let goal := rotate2d (-coordRotate2) goal
    return (p + goal, errors)
  | none => some (xy, softwareError .nullPointer)

def targetToArm (c : ArmConfiguration g) (current : R × R) (ts : Targets R)
    (errors : ErrorState) (patternId : Str) (xy : R × R) : Option ((R × R) × ErrorState) :=
  targetToArmBody c current ts errors patternId xy

def targetToArmQuiet (c : ArmConfiguration g) (current : R × R) (ts : Targets R)
    (errors : ErrorState) (patternId : Str) (xy : R × R) : Option ((R × R) × ErrorState) :=
  targetToArmBody c current ts errors patternId xy

end target_to_arm

theorem targetToArmBody_eq {g : ArmParameters ℝ} (c : ArmConfiguration g) (current : ℝ × ℝ)
    {ts : Targets ℝ} (errors : ErrorState) {patternId : Str} (xy : ℝ × ℝ) {i : ℕ}
    (hi : ts.travelMap patternId = some i) {offset : ℝ × ℝ}
    (hoffset : (ts.heap i).fovCenterOffset (ts.heap i).fovX (ts.heap i).fovY = some offset) :
    targetToArmBody c current ts errors patternId xy = some
      (current + alongFrame
        (-Real.sin (c.baseAngle + c.elbowAngle), Real.cos (c.baseAngle + c.elbowAngle))
        (offset + rotate2d (ts.heap i).fovTheta (ts.heap i).goalOffset), errors) := by
  have hbody : targetToArmBody c current ts errors patternId xy =
      (do
        let p ← (ts.heap i).fovCenterOffset (ts.heap i).fovX (ts.heap i).fovY
        return (rotate2d (-(PI / 2 - c.baseAngle)) (rotate2d (-(PI - c.elbowAngle)) p) +
          current + rotate2d (-(PI / 2 - c.baseAngle)) (rotate2d (-(PI - c.elbowAngle))
            (rotate2d (ts.heap i).fovTheta (ts.heap i).goalOffset)), errors)) := by
    unfold targetToArmBody
    rw [hi]
  simp only [hbody, hoffset, Option.bind_eq_bind, Option.bind_some, Option.pure_def,
    rotate2d_joints, alongFrame_add]
  rw [add_comm _ current, add_assoc]

theorem forearm_direction {g : ArmParameters ℝ} (h2 : 0 < g.link2) (h12 : g.link2 < g.link1)
    (c : ArmConfiguration g) (x y : ℝ)
    (hlo : g.link1 - g.link2 ≤ clampedRadius c.startRadius x y)
    (hhi : clampedRadius c.startRadius x y ≤ g.link1 + g.link2 - 0.005) :
    let c' := c.setTarget x y
    ((clampedPoint c.startRadius x y).1 - g.link1 * Real.cos c'.baseAngle) / g.link2 =
        -Real.cos (c'.baseAngle + c'.elbowAngle) ∧
      ((clampedPoint c.startRadius x y).2 - g.link1 * Real.sin c'.baseAngle) / g.link2 =
        -Real.sin (c'.baseAngle + c'.elbowAngle) := by
  intro c'
  have htip := ArmConfiguration.setTarget_tip h2 h12 c x y hlo hhi
  rw [← htip]
  constructor
  · rw [div_eq_iff h2.ne']
    simp only [TwoLink.tip, arm_l1, arm_l2, c']
    ring
  · rw [div_eq_iff h2.ne']
    simp only [TwoLink.tip, arm_l1, arm_l2, c']
    ring

/-- `target_to_arm` reads the sighting in the frame of the forearm that `set_target`
produced: ordinates along the forearm, abscissas across it. -/
theorem targetToArm_forearm_frame (g : ArmParameters ℝ) (h2 : 0 < g.link2)
    (h12 : g.link2 < g.link1) (c : ArmConfiguration g) (x₀ y₀ : ℝ)
    (hlo : g.link1 - g.link2 ≤ max (√(x₀ ^ 2 + y₀ ^ 2)) c.startRadius)
    (hhi : max (√(x₀ ^ 2 + y₀ ^ 2)) c.startRadius ≤ g.link1 + g.link2 - 0.005)
    (ts : Targets ℝ) (patternId : Str) (i : ℕ) (hi : ts.travelMap patternId = some i)
    (offset : ℝ × ℝ)
    (hoffset : (ts.heap i).fovCenterOffset (ts.heap i).fovX (ts.heap i).fovY = some offset)
    (current : ℝ × ℝ) (errors : ErrorState) (xy : ℝ × ℝ) :
    let c' := c.setTarget x₀ y₀
    let elbow := (g.link1 * Real.cos c'.baseAngle, g.link1 * Real.sin c'.baseAngle)
    let tip := clampedPoint c.startRadius x₀ y₀
    let u := ((tip.1 - elbow.1) / g.link2, (tip.2 - elbow.2) / g.link2)
    let w := (u.2, -u.1)
    let theta := (ts.heap i).fovTheta
    let goal := (ts.heap i).goalOffset
    let p := (offset.1 + (goal.1 * Real.cos theta - goal.2 * Real.sin theta),
      offset.2 + (goal.1 * Real.sin theta + goal.2 * Real.cos theta))
    u.1 ^ 2 + u.2 ^ 2 = 1 ∧
    targetToArm c' current ts errors patternId xy = some
      ((current.1 + p.1 * w.1 + p.2 * u.1, current.2 + p.1 * w.2 + p.2 * u.2), errors) ∧
    targetToArmQuiet c' current ts errors patternId xy = some
      ((current.1 + p.1 * w.1 + p.2 * u.1, current.2 + p.1 * w.2 + p.2 * u.2), errors) := by
  intro c' elbow tip u w theta goal p
  rw [← polarRadius_real, ← clampedRadius_eq_max] at hlo hhi
  obtain ⟨hu₁, hu₂⟩ := forearm_direction h2 h12 c x₀ y₀ hlo hhi
  have hu : u = (-Real.cos (c'.baseAngle + c'.elbowAngle),
      -Real.sin (c'.baseAngle + c'.elbowAngle)) := Prod.ext hu₁ hu₂
  have hbody := targetToArmBody_eq c' current errors xy hi hoffset
  have hpoint : current + alongFrame
      (-Real.sin (c'.baseAngle + c'.elbowAngle), Real.cos (c'.baseAngle + c'.elbowAngle))
      (offset + rotate2d theta goal) =
        (current.1 + p.1 * w.1 + p.2 * u.1, current.2 + p.1 * w.2 + p.2 * u.2) := by
    rw [rotate2d_eq]
    simp only [w, hu, alongFrame, p, libm_cos, libm_sin]
    ext
    · simp only [Prod.fst_add, Prod.snd_add]
      ring
    · simp only [Prod.fst_add, Prod.snd_add]
      ring
  rw [hpoint] at hbody
  refine ⟨?_, hbody, hbody⟩
  rw [hu]
  have := Real.sin_sq_add_cos_sq (c'.baseAngle + c'.elbowAngle)
  linear_combination this

theorem targetToArm_right_triangle :
    let g : ArmParameters ℝ := ⟨1, 3, 3, 20000, 20000⟩
    let c := (ArmConfiguration.construct g 0 0 2 0).setTarget 5 0
    let t : Target ℝ := ⟨some ⟨1, 1, 320, 240⟩, fun _ => none, true, 320, 240, 0, 1, 0, 1⟩
    let ts : Targets ℝ := ⟨fun _ => t, fun _ => none, fun _ => some 0⟩
    let u := ((5 - 4 * Real.cos c.baseAngle) / 3, (0 - 4 * Real.sin c.baseAngle) / 3)
    targetToArm c (5, 0) ts ⟨false, .none⟩ "alpha_Q".toList (0, 0) =
      some ((5 + u.1, 0 + u.2), ⟨false, .none⟩) := by
  intro g c t ts u
  have h1 : g.link1 = 4 := by norm_num [g, ArmParameters.link1]
  have h2 : g.link2 = 3 := rfl
  have hs : (ArmConfiguration.construct g 0 0 2 0).startRadius = 2 := rfl
  have hr : √((5 : ℝ) ^ 2 + 0 ^ 2) = 5 := by
    rw [← polarRadius_real, polarRadius_axis (by norm_num)]
  have hoffset : t.fovCenterOffset t.fovX t.fovY = some (0, 0) := by
    simp [Target.fovCenterOffset, t]
  have h := (targetToArm_forearm_frame g (by norm_num [h2]) (by norm_num [h1, h2])
    (ArmConfiguration.construct g 0 0 2 0) 5 0 (by norm_num [h1, h2, hr, hs])
    (by norm_num [h1, h2, hr, hs]) ts "alpha_Q".toList 0 rfl (0, 0) hoffset (5, 0)
    ⟨false, .none⟩ (0, 0)).2.1
  rw [clampedPoint_of_le (by norm_num [hr, hs]), h1, h2] at h
  simpa [u, ts, t, Target.goalOffset] using h

end Arm2D

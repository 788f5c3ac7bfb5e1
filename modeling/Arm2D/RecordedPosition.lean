import Arm2D.Motion
import Arm2D.StepAngle

/-! # The recorded position

`move_by_command` records its target, also where `set_target` moved the arm somewhere
else: onto the start radius, onto the inner circle, or back to the folded rest. -/
namespace Arm2D
open Library

namespace ArmConfiguration

/-- The tip of the two-link arm at the step counts. -/
noncomputable def stepTip {g : ArmParameters ℝ} (c : ArmConfiguration g) : ℝ × ℝ :=
  let t := -c.canisterCurrentSteps * (2 * Real.pi / g.canisterStep)
  let b := -c.elbowCurrentSteps * (2 * Real.pi / g.elbowStep)
  (g.link1 * Real.cos t - g.link2 * Real.cos (t + b),
    g.link1 * Real.sin t - g.link2 * Real.sin (t + b))

end ArmConfiguration

/-- Where a command sends an arm with a long forearm, apart from the rounding to steps. -/
noncomputable def sentTo (l1 l2 s : ℝ) (p : ℝ × ℝ) : ℝ × ℝ :=
  if clampedRadius s p.1 p.2 ≤ l1 + l2 - 0.005 then
    (max (clampedRadius s p.1 p.2) (l1 - l2) * Real.cos (polarAngle p.1 p.2),
      max (clampedRadius s p.1 p.2) (l1 - l2) * Real.sin (polarAngle p.1 p.2))
  else (l1 - l2, 0)

/-- The arm is sent to the target itself. -/
def SentExactly (l1 l2 s : ℝ) (p : ℝ × ℝ) : Prop :=
  (max s (l1 - l2) ≤ √(p.1 ^ 2 + p.2 ^ 2) ∧ √(p.1 ^ 2 + p.2 ^ 2) ≤ l1 + l2 - 0.005) ∨
    (l1 + l2 - 0.005 < √(p.1 ^ 2 + p.2 ^ 2) ∧ p = (l1 - l2, 0))

theorem polar_eq_iff {r : ℝ} (hr : 0 < r) (x y : ℝ) :
    (r * Real.cos (polarAngle x y), r * Real.sin (polarAngle x y)) = (x, y) ↔
      r = polarRadius x y := by
  obtain ⟨hx, hy⟩ := polar_coordinates x y
  constructor
  · intro h
    have hx' : r * Real.cos (polarAngle x y) = x := congrArg Prod.fst h
    have hy' : r * Real.sin (polarAngle x y) = y := congrArg Prod.snd h
    have hone := Real.sin_sq_add_cos_sq (polarAngle x y)
    have hsq : r ^ 2 = polarRadius x y ^ 2 := by
      calc r ^ 2 = (r * Real.cos (polarAngle x y)) ^ 2 + (r * Real.sin (polarAngle x y)) ^ 2 := by
            linear_combination (-r ^ 2) * hone
        _ = polarRadius x y ^ 2 := by rw [hx', hy', polarRadius_sq]
    exact (sq_eq_sq₀ hr.le (polarRadius_nonneg x y)).mp hsq
  · intro h
    rw [h, hx, hy]

theorem sentTo_eq_iff {l1 l2 s : ℝ} (hs : 0 < s) (hin : s < l1 + l2 - 0.005) (p : ℝ × ℝ) :
    sentTo l1 l2 s p = p ↔ SentExactly l1 l2 s p := by
  obtain ⟨x, y⟩ := p
  have hmax := clampedRadius_eq_max s x y
  unfold sentTo SentExactly
  simp only
  rw [← polarRadius_real]
  split_ifs with hrange
  · have hpos : 0 < max (clampedRadius s x y) (l1 - l2) := by
      rw [hmax]
      exact hs.trans_le ((le_max_right _ _).trans (le_max_left _ _))
    have hle : polarRadius x y ≤ l1 + l2 - 0.005 := by
      rw [hmax] at hrange
      exact (le_max_left _ _).trans hrange
    rw [polar_eq_iff hpos, hmax]
    constructor
    · intro h
      refine Or.inl ⟨?_, hle⟩
      rw [← h]
      exact max_le_max (le_max_right _ _) le_rfl
    · rintro (⟨h, -⟩ | ⟨h, -⟩)
      · rw [max_eq_left (le_of_max_le_left h), max_eq_left (le_of_max_le_right h)]
      · exact absurd hle (not_le.mpr h)
  · have hlt : l1 + l2 - 0.005 < polarRadius x y := by
      by_contra hle
      rw [hmax] at hrange
      exact hrange (max_le (not_lt.mp hle) hin.le)
    constructor
    · exact fun h => Or.inr ⟨hlt, h.symm⟩
    · rintro (⟨-, h⟩ | ⟨-, h⟩)
      · exact absurd h (not_le.mpr hlt)
      · exact h.symm

namespace ArmConfiguration
variable {g : ArmParameters ℝ}

theorem setTarget_folded (h12 : g.link2 < g.link1) (hlong : g.link1 ≤ 2 * g.link2)
    (c : ArmConfiguration g) (x y : ℝ)
    (hrange : clampedRadius c.startRadius x y ≤ g.link1 + g.link2 - 0.005)
    (hr : clampedRadius c.startRadius x y ≤ g.link1 - g.link2) :
    (c.setTarget x y).baseAngle = polarAngle x y ∧ (c.setTarget x y).elbowAngle = 0 := by
  have hsolve := solveTriangle_folded (c := c.aimed x y) h12
    (show clampedRadius c.startRadius x y ≤ g.link2 by linarith)
    (show g.link2 + clampedRadius c.startRadius x y ≤ g.link1 by linarith)
  rw [setTarget_inRange ((c.inRange_iff x y).mpr hrange), hsolve]
  exact ⟨zero_add _, rfl⟩

/-- Up to the rounding to steps, a target sends the tip to `sentTo`. -/
theorem planarDist_stepTip (h12 : g.link2 < g.link1) (hlong : g.link1 ≤ 2 * g.link2)
    (hm : 1 ≤ g.canisterStep) (hn : 1 ≤ g.elbowStep) (c : ArmConfiguration g) (p : ℝ × ℝ) :
    planarDist (c.setTarget p.1 p.2).stepTip (sentTo g.link1 g.link2 c.startRadius p) ≤
      stepError g := by
  have h2 : 0 < g.link2 := by linarith
  unfold sentTo
  split_ifs with hrange
  · have hin := (c.inRange_iff p.1 p.2).mpr hrange
    have hnear := (setTarget_stepsNear hm hn hin).planarDist_tip h2 h12
    rcases le_total (g.link1 - g.link2) (clampedRadius c.startRadius p.1 p.2) with hlo | hlo
    · rw [max_eq_left hlo, ← clampedPoint_eq_polar, ← setTarget_tip h2 h12 c p.1 p.2 hlo hrange]
      exact hnear
    · obtain ⟨hbase, helbow⟩ := setTarget_folded h12 hlong c p.1 p.2 hrange hlo
      rw [hbase, helbow, TwoLink.tip_folded] at hnear
      rw [max_eq_right hlo]
      exact hnear
  · have htip : (c.setTarget p.1 p.2).stepTip = (g.link1 - g.link2, 0) := by
      rw [setTarget_outOfRange (fun h => hrange ((c.inRange_iff p.1 p.2).mp h))]
      simp [stepTip, handlePointOutOfRange]
    rw [htip, planarDist_eq_zero.mpr rfl]
    exact (stepError_pos h2 h12 hm hn).le

end ArmConfiguration

/-- What a run leaves: the record is the last target, the tip is near where it was sent. -/
theorem System.moves_stepTip {g : ArmParameters ℝ} (h12 : g.link2 < g.link1)
    (hlong : g.link1 ≤ 2 * g.link2) (hm : 1 ≤ g.canisterStep) (hn : 1 ≤ g.elbowStep)
    {fuel : ℕ} {sys sys' : System g} {commands : List (ℝ × ℝ)} {p : ℝ × ℝ}
    (hrun : sys.moves fuel (commands ++ [p]) = some sys') :
    (sys'.currentX, sys'.currentY) = p ∧ planarDist sys'.armConstruct.stepTip
      (sentTo g.link1 g.link2 sys.armConstruct.startRadius p) ≤ stepError g := by
  obtain ⟨c, hc, harm, hrecord⟩ := moves_concat hrun
  have htip := c.planarDist_stepTip h12 hlong hm hn p
  rw [hc, ← harm] at htip
  exact ⟨hrecord, htip⟩

/-- On all motors, the record of a run that returns is within the step error of the tip
at the steps last commanded exactly when the last target was one that the arm is sent
to; otherwise all fine enough motors miss. -/
theorem recorded_position_iff (g : ArmParameters ℝ) (h12 : g.link2 < g.link1)
    (hlong : g.link1 ≤ 2 * g.link2) (s : ℝ) (hs : 0 < s)
    (hin : s < g.link1 + g.link2 - 0.005) (commands : List (ℝ × ℝ)) (p : ℝ × ℝ) :
    ((∀ m n : ℕ, 1 ≤ m → 1 ≤ n → ∀ (fuel : ℕ) (sys sys' : System (g.withSteps m n)),
        sys.armConstruct.startRadius = s → sys.moves fuel (commands ++ [p]) = some sys' →
          planarDist (sys'.currentX, sys'.currentY) sys'.armConstruct.stepTip ≤
            (g.link1 + g.link2) * (2 * Real.pi / m) + g.link2 * (2 * Real.pi / n)) ↔
      SentExactly g.link1 g.link2 s p) ∧
    (¬ SentExactly g.link1 g.link2 s p → ∃ N : ℕ, 1 ≤ N ∧ ∀ m n, N ≤ m → N ≤ n →
      ∀ (fuel : ℕ) (sys sys' : System (g.withSteps m n)),
        sys.armConstruct.startRadius = s → sys.moves fuel (commands ++ [p]) = some sys' →
          (g.link1 + g.link2) * (2 * Real.pi / m) + g.link2 * (2 * Real.pi / n) <
            planarDist (sys'.currentX, sys'.currentY) sys'.armConstruct.stepTip) := by
  have h2 : 0 < g.link2 := by linarith
  have hiff := sentTo_eq_iff hs hin p
  have hnear : ∀ m n : ℕ, 1 ≤ m → 1 ≤ n → ∀ (fuel : ℕ) (sys sys' : System (g.withSteps m n)),
      sys.armConstruct.startRadius = s → sys.moves fuel (commands ++ [p]) = some sys' →
        (sys'.currentX, sys'.currentY) = p ∧ planarDist sys'.armConstruct.stepTip
          (sentTo g.link1 g.link2 s p) ≤ stepError (g.withSteps m n) := by
    intro m n hm hn fuel sys sys' hstart hrun
    subst hstart
    exact System.moves_stepTip (g := g.withSteps m n) h12 hlong hm hn hrun
  have hmiss : ¬ SentExactly g.link1 g.link2 s p → ∃ N : ℕ, 1 ≤ N ∧ ∀ m n, N ≤ m → N ≤ n →
      ∀ (fuel : ℕ) (sys sys' : System (g.withSteps m n)),
        sys.armConstruct.startRadius = s → sys.moves fuel (commands ++ [p]) = some sys' →
          stepError (g.withSteps m n) <
            planarDist (sys'.currentX, sys'.currentY) sys'.armConstruct.stepTip := by
    intro hfar
    have hpos : 0 < planarDist p (sentTo g.link1 g.link2 s p) :=
      (planarDist_nonneg _ _).lt_of_ne'
        (fun h => hfar (hiff.mp (planarDist_eq_zero.mp h).symm))
    obtain ⟨N, hN, hsmall⟩ := stepError_small g h2 h12 (half_pos hpos)
    refine ⟨N, hN, fun m n hm hn fuel sys sys' hstart hrun => ?_⟩
    obtain ⟨hrecord, htip⟩ := hnear m n (hN.trans hm) (hN.trans hn) fuel sys sys' hstart hrun
    have htri := planarDist_triangle p sys'.armConstruct.stepTip (sentTo g.link1 g.link2 s p)
    have hlt := hsmall m n hm hn
    rw [hrecord]
    linarith
  refine ⟨⟨fun hall => ?_, fun hsent m n hm hn fuel sys sys' hstart hrun => ?_⟩, hmiss⟩
  · by_contra hfar
    obtain ⟨N, hN, hrunMisses⟩ := hmiss hfar
    let sys : System (g.withSteps N N) :=
      ⟨ArmConfiguration.construct _ 0 0 s 0, Drives.allocate 2 ⟨[], []⟩ true, 0, 0⟩
    obtain ⟨sys', hrun⟩ := System.exists_moves (s := sys)
      (Drives.simulated_allocate le_rfl _) 0 (commands ++ [p])
    exact (hrunMisses N N le_rfl le_rfl 0 sys sys' rfl hrun).not_ge
      (hall N N hN hN 0 sys sys' rfl hrun)
  · obtain ⟨hrecord, htip⟩ := hnear m n hm hn fuel sys sys' hstart hrun
    rw [hiff.mpr hsent, planarDist_comm] at htip
    rw [hrecord]
    exact htip

/-- Links of four and three, the target `(100,0)`: the arm goes to its rest at `(1,0)`,
and `(100,0)` is recorded. -/
theorem recorded_position_out_of_range :
    let g : ArmParameters ℝ := ⟨1, 3, 3, 20000, 20000⟩
    let c := (ArmConfiguration.construct g 0 0 0 0).setMininumRadius 2
    let sys : System g := ⟨c, Drives.allocate 2 ⟨[], []⟩ true, 0, 0⟩
    (g.link2 < g.link1 ∧ g.link1 ≤ 2 * g.link2 ∧ (2 : ℝ) < g.link1 + g.link2 - 0.005) ∧
    ∃ sys', sys.moves 0 [(100, 0)] = some sys' ∧
      (sys'.currentX, sys'.currentY) = (100, 0) ∧ sys'.armConstruct.stepTip = (1, 0) ∧
      (g.link1 + g.link2) * (2 * Real.pi / g.canisterStep) +
        g.link2 * (2 * Real.pi / g.elbowStep) <
          planarDist (sys'.currentX, sys'.currentY) sys'.armConstruct.stepTip := by
  intro g c sys
  have h1 : g.link1 = 4 := by norm_num [g, ArmParameters.link1]
  have h2 : g.link2 = 3 := rfl
  have hm : (g.canisterStep : ℝ) = 20000 := by norm_num [g]
  refine ⟨by norm_num [h1, h2], ?_⟩
  obtain ⟨sys', hrun⟩ := System.exists_moves (s := sys)
    (Drives.simulated_allocate le_rfl _) 0 ([] ++ [(100, 0)])
  obtain ⟨c', hc', harm, hrecord⟩ := System.moves_concat hrun
  have hs : c'.startRadius = 2 := hc'.trans (ArmConfiguration.setTarget_startRadius _ _ _)
  have hout : ¬ c'.InRange 100 0 := by
    rw [c'.inRange_iff, clampedRadius_eq_max, polarRadius_axis (by norm_num), hs, h1, h2]
    norm_num
  have htip : sys'.armConstruct.stepTip = (1, 0) := by
    rw [harm, ArmConfiguration.setTarget_outOfRange hout]
    norm_num [ArmConfiguration.stepTip, ArmConfiguration.handlePointOutOfRange, h1, h2]
  refine ⟨sys', hrun, hrecord, htip, ?_⟩
  have hdist : planarDist ((100 : ℝ), (0 : ℝ)) (1, 0) = 99 := by
    norm_num [planarDist]
  have hpi := Real.pi_lt_four
  rw [hrecord, htip, hdist, h1, h2, hm]
  linarith

theorem recorded_position_in_reach :
    let g : ArmParameters ℝ := ⟨1, 3, 3, 20000, 20000⟩
    let sys : System g :=
      ⟨ArmConfiguration.construct g 0 0 2 0, Drives.allocate 2 ⟨[], []⟩ true, 0, 0⟩
    ∃ sys', sys.moves 0 [(100, 0), (5, 0)] = some sys' ∧
      planarDist (sys'.currentX, sys'.currentY) sys'.armConstruct.stepTip ≤
        (4 + 3) * (2 * Real.pi / 20000) + 3 * (2 * Real.pi / 20000) := by
  intro g sys
  have h1 : g.link1 = 4 := by norm_num [g, ArmParameters.link1]
  have h2 : g.link2 = 3 := rfl
  obtain ⟨sys', hrun⟩ := System.exists_moves (s := sys)
    (Drives.simulated_allocate le_rfl _) 0 [(100, 0), (5, 0)]
  have hr : √((5 : ℝ) ^ 2 + 0 ^ 2) = 5 := by
    rw [← polarRadius_real, polarRadius_axis (by norm_num)]
  have hsent : SentExactly g.link1 g.link2 2 (5, 0) := by
    refine Or.inl ?_
    norm_num [h1, h2, hr]
  have h := ((recorded_position_iff g (by norm_num [h1, h2]) (by norm_num [h1, h2]) 2
    (by norm_num) (by norm_num [h1, h2]) [(100, 0)] (5, 0)).1.mpr hsent) 20000 20000
    (by norm_num) (by norm_num) 0 sys sys' rfl hrun
  rw [h1, h2] at h
  exact ⟨sys', hrun, by exact_mod_cast h⟩

end Arm2D

import Arm2D.Descriptions
import Arm2D.Motion

/-! # Walking a line

`walk_a_line` of arm_2d.cpp moves along the horizontal line at a height, from the circle of
the start radius outwards. Where the line begins, it takes the root of `R*R - y*y`, for every
height that is not above the maximal radius. -/
namespace Arm2D

section program
variable {R : Type} [Field R] [LinearOrder R] [FloorRing R] [Libm R] [PiConstant R]
variable {g : ArmParameters R}

/-- `TEST2_TRIALS`, `sg_test_start_x` and `sg_test_delta_x`, with the height. -/
structure LineWalk (R : Type) where
  trials : ℕ
  startX : R
  deltaX : R
  y : R

/-- The argument of the root. -/
def lineRadicand (c : ArmConfiguration g) (y : R) : R := c.startRadius * c.startRadius - y * y

def lineWalk (c : ArmConfiguration g) (y : R) (trials : ℕ) : LineWalk R :=
  let endX := c.maxR
  if y > endX then ⟨trials, 0, 0, y⟩
  else
    let x := Libm.sqrt (lineRadicand c y)
    let endX := if y ≠ 0 then x / c.startRadius * endX else endX
    ⟨trials, x, (endX - x) / trials, y⟩

def LineWalk.point (w : LineWalk R) (trial : ℕ) : R × R := (w.startX + trial * w.deltaX, w.y)

/-- The points that the loop commands from a trial on; it is left at half of the trials. -/
def LineWalk.commandsFrom (w : LineWalk R) (trial : ℕ) : List (R × R) :=
  if trial < w.trials then
    if trial ≥ w.trials >>> 1 then []
    else w.point trial :: w.commandsFrom (trial + 1)
  else []
termination_by w.trials - trial

/-- The number of trials that is typed in; for zero it is thirty. -/
def lineTrials (testTrialsStr : Str) : ℕ :=
  let trials := unsignedInt (atoi testTrialsStr)
  if trials = 0 then 30 else trials

/-- `walk_a_line` on what the operator types in. -/
def walkALine (fuel : ℕ) (s : System g) (numStr testTrialsStr : Str) : Option (System g) :=
  if (numStr.head?.map isalpha).getD false then some s
  else s.moves fuel
    ((lineWalk s.armConstruct (atof numStr) (lineTrials testTrialsStr)).commandsFrom 0)

end program

theorem LineWalk.commandsFrom_eq {R : Type} [Field R] (w : LineWalk R) (trial : ℕ) :
    w.commandsFrom trial = (List.range' trial (w.trials / 2 - trial)).map w.point := by
  fun_induction commandsFrom w trial with
  | case1 trial hlt hhalf =>
    have hzero : w.trials / 2 - trial = 0 := by
      rw [Nat.shiftRight_one] at hhalf
      omega
    rw [hzero]
    rfl
  | case2 trial hlt hhalf ih =>
    have hsucc : w.trials / 2 - trial = w.trials / 2 - (trial + 1) + 1 := by
      rw [Nat.shiftRight_one] at hhalf
      omega
    rw [hsucc, List.range'_succ, List.map_cons, ih]
  | case3 trial hlt =>
    have hzero : w.trials / 2 - trial = 0 := by omega
    rw [hzero]
    rfl

theorem LineWalk.mem_commandsFrom {R : Type} [Field R] (w : LineWalk R) {p : R × R} :
    p ∈ w.commandsFrom 0 ↔ ∃ trial < w.trials / 2, p = w.point trial := by
  rw [commandsFrom_eq]
  simp [eq_comm]

section ring
variable {g : ArmParameters ℝ} (c : ArmConfiguration g)

/-- The root has an argument that is not negative, and the points stay in the ring between the
two radii. -/
structure StaysInRing (y : ℝ) (trials : ℕ) : Prop where
  radicand : 0 ≤ lineRadicand c y
  points : ∀ p ∈ (lineWalk c y trials).commandsFrom 0,
    c.startRadius ≤ √(p.1 ^ 2 + p.2 ^ 2) ∧ √(p.1 ^ 2 + p.2 ^ 2) ≤ c.maxR

@[simp] theorem lineWalk_trials (y : ℝ) (trials : ℕ) :
    (lineWalk c y trials).trials = trials := by
  unfold lineWalk
  dsimp only
  split_ifs <;> rfl

variable {c} (hstart : 0 < c.startRadius)
include hstart

theorem lineRadicand_nonneg_iff (y : ℝ) : 0 ≤ lineRadicand c y ↔ |y| ≤ c.startRadius := by
  rw [lineRadicand, sub_nonneg, ← sq, ← sq, sq_le_sq, abs_of_pos hstart]

/-- On the circle of the start radius the walk begins, on that of the maximal radius, at the
same angle, it would end. -/
theorem lineWalk_eq {y : ℝ} (hy : y ≤ c.maxR) (trials : ℕ) :
    let x := √(lineRadicand c y)
    lineWalk c y trials = ⟨trials, x, (x / c.startRadius * c.maxR - x) / trials, y⟩ := by
  intro x
  have hend : (if y ≠ 0 then x / c.startRadius * c.maxR else c.maxR) =
      x / c.startRadius * c.maxR := by
    split_ifs with hzero
    · rfl
    · have hx : x = c.startRadius := by
        simp [x, lineRadicand, not_not.mp hzero, Real.sqrt_mul_self hstart.le]
      rw [hx, div_self hstart.ne', one_mul]
  rw [lineWalk, if_neg (not_lt.mpr hy)]
  dsimp only
  rw [libm_sqrt, hend]

theorem lineWalk_point_bounds {y : ℝ} (hy : y ≤ c.maxR) (hmax : c.startRadius ≤ c.maxR)
    {trials trial : ℕ} (htrial : trial < trials / 2) :
    let x := √(lineRadicand c y)
    x ≤ ((lineWalk c y trials).point trial).1 ∧
      ((lineWalk c y trials).point trial).1 ≤ x / c.startRadius * c.maxR := by
  intro x
  have htrials : (0 : ℝ) < trials := by
    exact_mod_cast (by omega : 0 < trials)
  have hle : (trial : ℝ) ≤ trials := by
    exact_mod_cast (by omega : trial ≤ trials)
  have hx : 0 ≤ x := Real.sqrt_nonneg _
  have hlength : 0 ≤ x / c.startRadius * c.maxR - x := by
    have hratio : x / c.startRadius * c.startRadius = x := div_mul_cancel₀ x hstart.ne'
    have hgrows := mul_le_mul_of_nonneg_left hmax (div_nonneg hx hstart.le)
    linarith
  rw [lineWalk_eq hstart hy]
  change x ≤ x + trial * ((x / c.startRadius * c.maxR - x) / trials) ∧
    x + trial * ((x / c.startRadius * c.maxR - x) / trials) ≤ x / c.startRadius * c.maxR
  have hstep : trial * ((x / c.startRadius * c.maxR - x) / trials) =
      (trial / trials : ℝ) * (x / c.startRadius * c.maxR - x) := by ring
  have hpart : (trial / trials : ℝ) ≤ 1 := (div_le_one htrials).mpr hle
  have hpart₀ : (0 : ℝ) ≤ trial / trials := by positivity
  rw [hstep]
  constructor
  · have hmoved := mul_nonneg hpart₀ hlength
    linarith
  · have hmoved := mul_le_of_le_one_left hlength hpart
    linarith

theorem staysInRing_of_abs_le {y : ℝ} (hmax : c.startRadius ≤ c.maxR)
    (hy : |y| ≤ c.startRadius) (trials : ℕ) : StaysInRing c y trials := by
  have hymax : y ≤ c.maxR := (le_abs_self y).trans (hy.trans hmax)
  have hradicand := (lineRadicand_nonneg_iff hstart y).mpr hy
  refine ⟨hradicand, fun p hp => ?_⟩
  obtain ⟨trial, htrial, rfl⟩ := (LineWalk.mem_commandsFrom _).mp hp
  rw [lineWalk_trials] at htrial
  obtain ⟨hlo, hhi⟩ := lineWalk_point_bounds hstart hymax hmax htrial
  have hheight : ((lineWalk c y trials).point trial).2 = y := by
    rw [lineWalk_eq hstart hymax]
    rfl
  rw [hheight]
  generalize ((lineWalk c y trials).point trial).1 = x' at hlo hhi
  have hx₀ := Real.sqrt_nonneg (lineRadicand c y)
  have hsq : √(lineRadicand c y) ^ 2 = c.startRadius ^ 2 - y ^ 2 := by
    rw [Real.sq_sqrt hradicand, lineRadicand]
    ring
  constructor
  · rw [Real.le_sqrt hstart.le (by positivity)]
    have hout := pow_le_pow_left₀ hx₀ hlo 2
    linarith
  · -- At the ratio of the two radii, both coordinates are largest.
    have hratio : 1 ≤ c.maxR / c.startRadius := (one_le_div hstart).mpr hmax
    have hx : x' ^ 2 ≤ (√(lineRadicand c y) ^ 2) * (c.maxR / c.startRadius) ^ 2 := by
      rw [← mul_pow, mul_div_assoc', mul_div_right_comm]
      exact pow_le_pow_left₀ (hx₀.trans hlo) hhi 2
    have hy' : y ^ 2 ≤ y ^ 2 * (c.maxR / c.startRadius) ^ 2 :=
      le_mul_of_one_le_right (sq_nonneg y) (one_le_pow₀ hratio)
    have hsum : c.startRadius ^ 2 * (c.maxR / c.startRadius) ^ 2 = c.maxR ^ 2 := by
      field_simp
    rw [Real.sqrt_le_iff]
    refine ⟨hstart.le.trans hmax, ?_⟩
    calc x' ^ 2 + y ^ 2
        ≤ (√(lineRadicand c y) ^ 2) * (c.maxR / c.startRadius) ^ 2 +
            y ^ 2 * (c.maxR / c.startRadius) ^ 2 := add_le_add hx hy'
      _ = c.startRadius ^ 2 * (c.maxR / c.startRadius) ^ 2 := by rw [hsq]; ring
      _ = c.maxR ^ 2 := hsum

/-- A line at a height up to the maximal radius is walked in the ring exactly when it meets
the circle of the start radius. -/
theorem walkALine_stays_iff (hmax : c.startRadius ≤ c.maxR) (y : ℝ) (trials : ℕ) :
    (y ≤ c.maxR → StaysInRing c y trials) ↔ c.maxR < y ∨ |y| ≤ c.startRadius := by
  constructor
  · intro h
    rcases lt_or_ge c.maxR y with hlt | hge
    · exact .inl hlt
    · exact .inr ((lineRadicand_nonneg_iff hstart y).mp (h hge).radicand)
  · rintro (hlt | hy) hle
    · exact absurd hle (not_le.mpr hlt)
    · exact staysInRing_of_abs_le hstart hmax hy trials

end ring

theorem walkALine_stays_iff_below :
    let c := ArmConfiguration.construct (⟨1, 3, 3, 20000, 20000⟩ : ArmParameters ℝ) 0 0 5 0
    StaysInRing c (-3) 30 := by
  intro c
  have hmax : c.maxR = 7 := by
    rw [c.maxR_eq]
    norm_num
  have hstart : c.startRadius = 5 := rfl
  refine (walkALine_stays_iff (by norm_num [hstart]) (by norm_num [hstart, hmax]) (-3) 30).mpr
    (.inr ?_) (by norm_num [hmax])
  rw [hstart, abs_neg, abs_of_pos] <;> norm_num

theorem walkALine_leaves_ring :
    let c := ArmConfiguration.construct (⟨1, 3, 3, 20000, 20000⟩ : ArmParameters ℝ) 0 0 5 0
    (0 < c.startRadius ∧ c.startRadius ≤ c.maxR ∧ 6 ≤ c.maxR) ∧ lineRadicand c 6 = -11 ∧
      ¬ StaysInRing c 6 30 := by
  intro c
  have hmax : c.maxR = 7 := by
    rw [c.maxR_eq]
    norm_num
  have hstart : c.startRadius = 5 := rfl
  have hradicand : lineRadicand c 6 = -11 := by
    norm_num [lineRadicand, hstart]
  refine ⟨by norm_num [hstart, hmax], hradicand, fun h => ?_⟩
  have hnonneg := h.radicand
  rw [hradicand] at hnonneg
  norm_num at hnonneg

end Arm2D

import Arm2D.Library.Sweeps
import Arm2D.RotationScan

/-! # The arc of the base

The positions to which a sweep sends the base lie on a lattice below its start. -/
namespace Arm2D
open Library

namespace SweepPlan
variable {R : Type}

/-- The passes of an inner loop. -/
def passes (plan : SweepPlan R) : ℕ :=
  ((2 * plan.baseSteps + plan.baseStepsDelta - 1) / plan.baseStepsDelta).toNat

/-- Where the base is at the end of the rings that go down. -/
def farEnd (plan : SweepPlan R) : ℤ := plan.baseSteps - plan.passes * plan.baseStepsDelta

/-- The positions to which the base is sent on a ring. -/
def basePositions (plan : SweepPlan R) (i : ℕ) : List ℤ :=
  if i % 2 = 0 then arc plan.baseSteps (-plan.baseStepsDelta) plan.passes
  else arc plan.farEnd plan.baseStepsDelta plan.passes

/-- What lets the inner loops come to their ends: steps that lead on, or nowhere to go. -/
def Ends (plan : SweepPlan R) : Prop :=
  1 ≤ plan.baseSteps ∧ 1 ≤ plan.baseStepsDelta ∨ plan.baseSteps = 0 ∧ plan.baseStepsDelta = 0

variable {plan : SweepPlan R}

theorem passes_spec (hbase : 1 ≤ plan.baseSteps) (hdelta : 1 ≤ plan.baseStepsDelta) :
    1 ≤ plan.passes ∧ ((plan.passes : ℤ) - 1) * plan.baseStepsDelta < 2 * plan.baseSteps ∧
      2 * plan.baseSteps ≤ plan.passes * plan.baseStepsDelta := by
  have hmul := Int.ediv_mul_le (2 * plan.baseSteps + plan.baseStepsDelta - 1)
    (show plan.baseStepsDelta ≠ 0 by omega)
  have hlt := Int.lt_ediv_add_one_mul_self (2 * plan.baseSteps + plan.baseStepsDelta - 1)
    (show 0 < plan.baseStepsDelta by omega)
  have hone : 1 ≤ (2 * plan.baseSteps + plan.baseStepsDelta - 1) / plan.baseStepsDelta :=
    (Int.le_ediv_iff_mul_le (by omega)).mpr (by omega)
  have hpasses : (plan.passes : ℤ) =
      (2 * plan.baseSteps + plan.baseStepsDelta - 1) / plan.baseStepsDelta :=
    Int.toNat_of_nonneg (by omega)
  rw [← hpasses] at hmul hlt hone
  refine ⟨by omega, ?_, ?_⟩ <;> linarith

theorem Ends.before (h : plan.Ends) {j : ℕ} (hj : j < plan.passes) :
    0 < plan.baseStepsDelta ∧ (j : ℤ) * plan.baseStepsDelta < 2 * plan.baseSteps := by
  obtain ⟨hbase, hdelta⟩ | ⟨-, hdelta⟩ := h
  · obtain ⟨-, hbefore, -⟩ := passes_spec hbase hdelta
    have hle : (j : ℤ) * plan.baseStepsDelta ≤ (plan.passes - 1) * plan.baseStepsDelta :=
      mul_le_mul_of_nonneg_right (by omega) (by omega)
    constructor <;> linarith
  · simp [passes, hdelta] at hj

theorem Ends.after (h : plan.Ends) :
    2 * plan.baseSteps ≤ plan.passes * plan.baseStepsDelta := by
  obtain ⟨hbase, hdelta⟩ | ⟨hbase, hdelta⟩ := h
  · exact (passes_spec hbase hdelta).2.2
  · simp [hbase, hdelta]

/-- Where the base is when a ring begins. -/
def ringStart (plan : SweepPlan R) (i : ℕ) : ℤ :=
  if i % 2 = 0 then plan.baseSteps else plan.farEnd

/-- What the base does on the rings of a plan. -/
structure CoversArc (plan : SweepPlan R) : Prop where
  down : ∀ i, i % 2 = 0 → plan.basePositions i =
    (List.range plan.passes).map fun j : ℕ => plan.baseSteps - (j + 1) * plan.baseStepsDelta
  up : ∀ i, i % 2 = 0 → plan.ringStart (i + 1) :: plan.basePositions (i + 1) =
    (plan.ringStart i :: plan.basePositions i).reverse
  bounds : ∀ i, ∀ p ∈ plan.basePositions i,
    -plan.baseSteps - plan.baseStepsDelta < p ∧ p ≤ plan.baseSteps
  steps : (plan.baseSteps :: (List.range plan.n.toNat).flatMap plan.basePositions).IsChain
    fun p q => |q - p| = plan.baseStepsDelta
  near : ∀ i, ∀ x : ℝ, -(plan.baseSteps : ℝ) ≤ x → x ≤ plan.baseSteps →
    ∃ p ∈ plan.ringStart i :: plan.basePositions i, |x - p| ≤ plan.baseStepsDelta
  back : ∀ i, i % 2 = 0 → (plan.basePositions (i + 1)).getLast? = some plan.baseSteps

theorem basePositions_down {i : ℕ} (h : i % 2 = 0) :
    plan.basePositions i = arc plan.baseSteps (-plan.baseStepsDelta) plan.passes := if_pos h

theorem basePositions_up {i : ℕ} (h : i % 2 = 1) :
    plan.basePositions i = arc plan.farEnd plan.baseStepsDelta plan.passes :=
  if_neg (by omega)

theorem farEnd_eq (plan : SweepPlan R) :
    plan.farEnd = plan.baseSteps + plan.passes * -plan.baseStepsDelta := by
  rw [farEnd]
  ring

/-- An odd ring goes through the points of an even one backwards. -/
theorem ring_reverse {i j : ℕ} (hi : i % 2 = 0) (hj : j % 2 = 1) :
    plan.ringStart j :: plan.basePositions j =
      (plan.ringStart i :: plan.basePositions i).reverse := by
  rw [basePositions_down hi, basePositions_up hj, ringStart, ringStart, if_pos hi,
    if_neg (show ¬ j % 2 = 0 by omega), reverse_arc, ← farEnd_eq, neg_neg]

section geometry
variable (hbase : 1 ≤ plan.baseSteps) (hdelta : 1 ≤ plan.baseStepsDelta)
include hbase hdelta

theorem basePositions_bounds {i : ℕ} {p : ℤ} (hp : p ∈ plan.basePositions i) :
    -plan.baseSteps - plan.baseStepsDelta < p ∧ p ≤ plan.baseSteps := by
  obtain ⟨-, hbefore, -⟩ := passes_spec hbase hdelta
  have hbetween : ∃ j : ℕ, j ≤ plan.passes ∧ p = plan.baseSteps - j * plan.baseStepsDelta := by
    rcases Nat.mod_two_eq_zero_or_one i with hi | hi
    · rw [basePositions_down hi, mem_arc] at hp
      obtain ⟨j, -, hj, rfl⟩ := hp
      exact ⟨j, hj, by ring⟩
    · rw [basePositions_up hi, mem_arc, farEnd] at hp
      obtain ⟨j, -, hj, rfl⟩ := hp
      refine ⟨plan.passes - j, by omega, ?_⟩
      rw [Nat.cast_sub hj]
      ring
  obtain ⟨j, hj, rfl⟩ := hbetween
  have hle : (j : ℤ) * plan.baseStepsDelta ≤ plan.passes * plan.baseStepsDelta :=
    mul_le_mul_of_nonneg_right (by omega) (by omega)
  have hnonneg : 0 ≤ (j : ℤ) * plan.baseStepsDelta := mul_nonneg (by omega) (by omega)
  constructor <;> linarith

omit hbase in
theorem isChain_rings {i : ℕ} (hi : i % 2 = 0) (N : ℕ) :
    (plan.baseSteps :: (List.range' i (2 * N)).flatMap plan.basePositions).IsChain
      fun p q => |q - p| = plan.baseStepsDelta := by
  induction N generalizing i with
  | zero => simp
  | succ N ih =>
    have hstep : ∀ delta : ℤ, |delta| = plan.baseStepsDelta →
        ∀ a : ℤ, |a + delta - a| = plan.baseStepsDelta := by
      intro delta h a
      rw [add_sub_cancel_left, h]
    have hback : plan.farEnd + plan.passes * plan.baseStepsDelta = plan.baseSteps := by
      rw [farEnd]
      ring
    rw [show 2 * (N + 1) = 2 * N + 1 + 1 by omega, List.range'_succ, List.range'_succ,
      List.flatMap_cons, List.flatMap_cons, basePositions_down hi,
      basePositions_up (i := i + 1) (by omega)]
    refine isChain_arc_append (hstep _ (by rw [abs_neg, abs_of_pos (by omega)])) ?_
    rw [← farEnd_eq]
    refine isChain_arc_append (hstep _ (abs_of_pos (by omega))) ?_
    rw [hback]
    exact ih (by omega)

theorem exists_near {i : ℕ} {x : ℝ} (hlo : -(plan.baseSteps : ℝ) ≤ x)
    (hhi : x ≤ plan.baseSteps) :
    ∃ p ∈ plan.ringStart i :: plan.basePositions i, |x - p| ≤ plan.baseStepsDelta := by
  obtain ⟨-, -, hafter⟩ := passes_spec hbase hdelta
  have hafter' : 2 * (plan.baseSteps : ℝ) ≤ plan.passes * plan.baseStepsDelta := by
    exact_mod_cast hafter
  have heven : ∃ p ∈ plan.ringStart 0 :: plan.basePositions 0, |x - p| ≤ plan.baseStepsDelta :=
    exists_mem_arc_near (p := plan.baseSteps) (by omega) (by linarith) hhi
  rcases Nat.mod_two_eq_zero_or_one i with hi | hi
  · have hsame : plan.ringStart i :: plan.basePositions i =
        plan.ringStart 0 :: plan.basePositions 0 := by
      rw [ringStart, if_pos hi, basePositions_down hi]
      rfl
    rw [hsame]
    exact heven
  · obtain ⟨p, hp, hnear⟩ := heven
    refine ⟨p, ?_, hnear⟩
    rw [ring_reverse (i := 0) rfl hi, List.mem_reverse]
    exact hp

theorem getLast?_basePositions {i : ℕ} (hi : i % 2 = 1) :
    (plan.basePositions i).getLast? = some plan.baseSteps := by
  obtain ⟨k, hk⟩ := Nat.exists_eq_add_of_le' (passes_spec hbase hdelta).1
  rw [basePositions_up hi, farEnd, hk, arc_concat, List.getLast?_concat, Option.some_inj]
  push_cast
  ring

theorem coversArc {N : ℕ} (hn : plan.n.toNat = 2 * N) : plan.CoversArc where
  down i hi := by
    rw [basePositions_down hi, arc]
    apply List.map_congr_left
    intro j _
    ring
  up i hi := ring_reverse hi (by omega)
  bounds i p hp := basePositions_bounds hbase hdelta hp
  steps := by
    rw [hn, List.range_eq_range']
    exact isChain_rings hdelta rfl N
  near i x hlo hhi := exists_near hbase hdelta hlo hhi
  back i hi := getLast?_basePositions hbase hdelta (by omega)

end geometry

end SweepPlan

end Arm2D

import Mathlib

/-! # Sweeps over a lattice

A sweep goes through the points of an arithmetic progression and stops at the first hit.
Without a hit it passes all of them. -/
namespace Arm2D.Library

section missed
variable {T α β : Type}

/-- The result of a search that found nothing. -/
def missed : Option (Option T × α) → Option α
  | some (none, a) => some a
  | _ => none

@[simp] theorem missed_none : missed (none : Option (Option T × α)) = none := rfl

@[simp] theorem missed_some_none (a : α) : missed (some ((none : Option T), a)) = some a := rfl

@[simp] theorem missed_some_some (t : T) (a : α) : missed (some (some t, a)) = none := rfl

theorem missed_eq_some {x : Option (Option T × α)} {a : α} :
    missed x = some a ↔ x = some (none, a) := by
  rcases x with _ | ⟨_ | t, b⟩ <;> simp

theorem missed_bind (x : Option (Option T × α)) {k : Option T × α → Option (Option T × β)}
    (hk : ∀ t a, missed (k (some t, a)) = none) :
    missed (x.bind k) = (missed x).bind fun a => missed (k (none, a)) := by
  rcases x with _ | ⟨_ | t, a⟩
  · rfl
  · rfl
  · exact hk t a

theorem missed_map (x : Option α) (k : α → Option (Option T × β)) :
    missed (x.bind k) = x.bind fun a => missed (k a) := by
  cases x <;> rfl

end missed

/-- The `k` points after `p`, each `delta` further. -/
def arc (p delta : ℤ) (k : ℕ) : List ℤ :=
  (List.range k).map fun j : ℕ => p + ((j : ℤ) + 1) * delta

theorem arc_succ (p delta : ℤ) (k : ℕ) :
    arc p delta (k + 1) = (p + delta) :: arc (p + delta) delta k := by
  rw [arc, List.range_succ_eq_map, List.map_cons, List.map_map, arc]
  congr 1
  · simp
  · apply List.map_congr_left
    intro j _
    simp only [Function.comp_apply, Nat.cast_succ]
    ring

theorem arc_concat (p delta : ℤ) (k : ℕ) :
    arc p delta (k + 1) = arc p delta k ++ [p + ((k : ℤ) + 1) * delta] := by
  rw [arc, List.range_succ, List.map_append, List.map_singleton, arc]

theorem mem_arc {p delta q : ℤ} {k : ℕ} :
    q ∈ arc p delta k ↔ ∃ j : ℕ, 1 ≤ j ∧ j ≤ k ∧ q = p + j * delta := by
  rw [arc, List.mem_map]
  constructor
  · rintro ⟨j, hj, rfl⟩
    have hlt := List.mem_range.mp hj
    exact ⟨j + 1, by omega, by omega, by push_cast; ring⟩
  · rintro ⟨j, h1, hk, rfl⟩
    refine ⟨j - 1, List.mem_range.mpr (by omega), ?_⟩
    have hcast : ((j - 1 : ℕ) : ℤ) = j - 1 := by omega
    rw [hcast]
    ring

theorem reverse_arc (p delta : ℤ) (k : ℕ) :
    (p :: arc p delta k).reverse = (p + k * delta) :: arc (p + k * delta) (-delta) k := by
  induction k with
  | zero => simp [arc]
  | succ k ih =>
    rw [arc_concat, ← List.cons_append, List.reverse_append, ih, List.reverse_singleton,
      List.singleton_append, arc_succ]
    have hback : p + ((k + 1 : ℕ) : ℤ) * delta + -delta = p + k * delta := by
      push_cast
      ring
    rw [hback]
    push_cast
    rfl

theorem isChain_arc_append {rel : ℤ → ℤ → Prop} {p delta : ℤ} (hrel : ∀ a, rel a (a + delta))
    {k : ℕ} {rest : List ℤ} (h : ((p + k * delta) :: rest).IsChain rel) :
    (p :: (arc p delta k ++ rest)).IsChain rel := by
  induction k generalizing p with
  | zero => simpa [arc] using h
  | succ k ih =>
    rw [arc_succ, List.cons_append]
    refine List.IsChain.cons_cons (hrel p) (ih ?_)
    have hend : p + delta + k * delta = p + ((k + 1 : ℕ) : ℤ) * delta := by
      push_cast
      ring
    rw [hend]
    exact h

theorem exists_mem_arc_near {p delta : ℤ} (hdelta : 0 < delta) {k : ℕ} {x : ℝ}
    (hlo : (p : ℝ) - k * delta ≤ x) (hhi : x ≤ p) :
    ∃ q ∈ p :: arc p (-delta) k, |x - q| ≤ delta := by
  have hpos : (0 : ℝ) < delta := by exact_mod_cast hdelta
  have hnonneg : 0 ≤ ((p : ℝ) - x) / delta := div_nonneg (by linarith) hpos.le
  let j := ⌊((p : ℝ) - x) / delta⌋₊
  have hfloor : (j : ℝ) * delta ≤ p - x := (le_div_iff₀ hpos).mp (Nat.floor_le hnonneg)
  have hnext : (p : ℝ) - x < (j + 1) * delta :=
    (div_lt_iff₀ hpos).mp (Nat.lt_floor_add_one _)
  have hjk : j ≤ k := by
    have hle : (j : ℝ) * delta ≤ k * delta := by linarith
    exact_mod_cast le_of_mul_le_mul_right hle hpos
  refine ⟨p + j * -delta, ?_, ?_⟩
  · rcases Nat.eq_zero_or_pos j with hzero | hj
    · simp [hzero]
    · exact List.mem_cons_of_mem p (mem_arc.mpr ⟨j, hj, hjk, rfl⟩)
  · push_cast
    rw [abs_le]
    constructor <;> linarith

end Arm2D.Library

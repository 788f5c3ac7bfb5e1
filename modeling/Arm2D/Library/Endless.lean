import Mathlib

/-! # Runs without an end

A deterministic step that an invariant keeps from failing runs for ever. What grows along
such a run within a finite bound stops growing. -/
namespace Arm2D.Library

variable {σ α : Type*} {step : σ → Option σ} {P : σ → Prop}

theorem exists_endless (hstep : ∀ s, P s → ∃ s', step s = some s' ∧ P s') {s : σ} (hs : P s) :
    ∃ run : ℕ → σ, run 0 = s ∧ ∀ n, step (run n) = some (run (n + 1)) ∧ P (run n) := by
  choose next hnext hkept using hstep
  let run (n : ℕ) : { s // P s } := (fun t => ⟨next t.1 t.2, hkept t.1 t.2⟩)^[n] ⟨s, hs⟩
  refine ⟨fun n => (run n).1, rfl, fun n => ⟨?_, (run n).2⟩⟩
  have hrun : run (n + 1) = ⟨next (run n).1 (run n).2, hkept (run n).1 (run n).2⟩ :=
    Function.iterate_succ_apply' _ n _
  dsimp only
  rw [hrun]
  exact hnext (run n).1 (run n).2

theorem eventually_const {f : ℕ → Finset α} {S : Finset α} (hmono : ∀ n, f n ⊆ f (n + 1))
    (hbound : ∀ n, f n ⊆ S) : ∃ N, ∀ n, N ≤ n → f n = f N := by
  let bounded (n : ℕ) : { s // s ∈ S.powerset } := ⟨f n, Finset.mem_powerset.mpr (hbound n)⟩
  have hbounded : Monotone bounded := monotone_nat_of_le_succ fun n => hmono n
  obtain ⟨N, hN⟩ := WellFoundedGT.monotone_chain_condition ⟨bounded, hbounded⟩
  exact ⟨N, fun n hn => (congrArg Subtype.val (hN n hn)).symm⟩

end Arm2D.Library

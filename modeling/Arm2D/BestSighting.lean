import Arm2D.CameraLooks

/-! # Which sighting a look chooses

The loop of `point_in_time_best_match` takes every sighting that it comes to and keeps the
best of them. A target that occupies several slots is looked at in each of them, but has
been taken after the first. -/
namespace Arm2D
open Library

variable {R : Type}

def taken (targetStorage : List ℕ) (heap : ℕ → Target R) (i : ℕ) : Target R :=
  { heap i with targetPresent := (heap i).targetPresent && decide (i ∉ targetStorage) }

theorem taken_eq (targetStorage : List ℕ) (heap : ℕ → Target R) (i : ℕ) :
    taken targetStorage heap i =
      if i ∈ targetStorage then (heap i).setTargetNotAcquired else heap i := by
  unfold taken Target.setTargetNotAcquired
  split_ifs with hi <;> simp [hi]

namespace BestMatch
variable [LinearOrder R]

theorem foldl_look_taken (targetStorage : List ℕ) (b : BestMatch R) :
    (targetStorage.foldl look b).heap = taken targetStorage b.heap := by
  funext i
  rw [foldl_look_heap, taken_eq]

end BestMatch

variable [Field R] [LinearOrder R]

/-- The result is the first of the best stored sightings, its place is handed out, and of
every target object nothing but the presence of the stored ones has changed. -/
theorem pointInTimeBestMatch_result (targetStorage : List ℕ) (ts : Targets R) (hat : R × R) :
    let r := pointInTimeBestMatch targetStorage ts hat
    (r.1 = none ↔ ∀ i ∈ targetStorage, ¬ (ts.heap i).Sighted) ∧
      (r.1 = none → r.2.1 = hat) ∧
      (∀ best, r.1 = some best →
        FirstGreatest (fun i => (ts.heap i).targetPresent = true)
          (fun i => (ts.heap i).fovMatch) targetStorage best ∧
        r.2.1 = ((ts.heap best).fovX, (ts.heap best).fovY)) ∧
      r.2.2 = { ts with heap := taken targetStorage ts.heap } ∧
      ∀ i ∈ targetStorage, (r.2.2.heap i).targetPresent = false := by
  have hfound := BestMatch.foldl_look_best targetStorage ts.heap
  have hheap := BestMatch.foldl_look_taken targetStorage ⟨ts.heap, 0, none⟩
  have hpresent : ∀ i ∈ targetStorage, (taken targetStorage ts.heap i).targetPresent = false := by
    intro i hi
    simp [taken, hi]
  unfold pointInTimeBestMatch
  generalize targetStorage.foldl BestMatch.look ⟨ts.heap, 0, none⟩ = b at hfound hheap ⊢
  obtain ⟨heap, percentMatch, best⟩ := b
  dsimp only at hheap
  subst hheap
  rcases hfound with ⟨hbest, hnone⟩ | ⟨m, hbest, hm⟩
  · obtain rfl : best = none := hbest
    exact ⟨iff_of_true rfl hnone, fun _ => rfl, by simp, rfl, hpresent⟩
  · obtain rfl : best = some m := hbest
    have hsighted : ¬ ∀ i ∈ targetStorage, ¬ (ts.heap i).Sighted :=
      fun hnone => hnone m hm.mem hm.holds
    refine ⟨iff_of_false (by simp) hsighted, by simp, ?_, rfl, hpresent⟩
    rintro _ ⟨⟩
    exact ⟨(FirstGreatest.above_iff.mp hm).1, rfl⟩

end Arm2D

import Mathlib

/-! # Terminated strings in a memory

A memory is read at any address. What stands behind the terminator of a string is unknown,
and a reader of the string should not look there. -/
namespace Arm2D.Library

variable {α : Type*} {terminator : α}

/-- The memory holds the list from the address on, and the terminator behind it. -/
def Holds (terminator : α) (mem : ℕ → α) : ℕ → List α → Prop
  | p, [] => mem p = terminator
  | p, c :: s => mem p = c ∧ Holds terminator mem (p + 1) s

def memoryOf (terminator : α) (s : List α) (i : ℕ) : α := s.getD i terminator

namespace Holds
variable {mem : ℕ → α} {p : ℕ} {c : α} {s : List α}

@[simp] theorem nil_iff : Holds terminator mem p [] ↔ mem p = terminator := Iff.rfl

@[simp] theorem cons_iff :
    Holds terminator mem p (c :: s) ↔ mem p = c ∧ Holds terminator mem (p + 1) s := Iff.rfl

end Holds

theorem holds_memoryOf (s : List α) : Holds terminator (memoryOf terminator s) 0 s := by
  suffices h : ∀ front back, Holds terminator (memoryOf terminator (front ++ back))
      front.length back from h [] s
  intro front back
  induction back generalizing front with
  | nil => simp [memoryOf]
  | cons c back ih =>
    refine ⟨by simp [memoryOf], ?_⟩
    simpa using ih (front ++ [c])

theorem update_memoryOf (s : List α) (c : α) :
    Function.update (memoryOf terminator s) s.length c = memoryOf terminator (s ++ [c]) := by
  funext i
  unfold memoryOf
  rcases lt_trichotomy i s.length with h | h | h
  · rw [Function.update_of_ne h.ne, List.getD_append _ _ _ _ h]
  · subst h
    simp
  · rw [Function.update_of_ne h.ne', List.getD_eq_default _ _ h.le,
      List.getD_eq_default _ _ (by simpa using h)]

theorem memoryOf_terminator (s : List α) :
    memoryOf terminator (s ++ [terminator]) = memoryOf terminator s := by
  rw [← update_memoryOf]
  funext i
  by_cases h : i = s.length
  · simp [h, memoryOf]
  · rw [Function.update_of_ne h]

theorem map_memoryOf_range {s : List α} {n : ℕ} (h : s.length ≤ n) :
    (List.range n).map (memoryOf terminator s) =
      s ++ List.replicate (n - s.length) terminator := by
  apply List.ext_getElem
  · simp [h]
  · intro i hi _
    simp only [List.getElem_map, List.getElem_range, memoryOf]
    rcases Nat.lt_or_ge i s.length with hlt | hge
    · rw [List.getD_eq_getElem _ _ hlt, List.getElem_append_left hlt]
    · rw [List.getD_eq_default _ _ hge, List.getElem_append_right hge, List.getElem_replicate]

end Arm2D.Library

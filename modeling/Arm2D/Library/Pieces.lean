import Arm2D.Library.Replace

/-! # Cutting a text at a word

The text is cut at the occurrences of a word that are met from the left and do not overlap.
Replacing the word by a value joins the pieces with the value. -/
namespace Arm2D.Library

variable {α : Type*} {key : List α}

/-- The pieces of the text: each cut is at the leftmost occurrence in what is left, and in
the last piece there is none. -/
inductive LeftmostCut (key : List α) : List α → List (List α) → Prop
  | last {s : List α} : ¬ key <:+: s → LeftmostCut key s [s]
  | cut {piece rest : List α} {pieces : List (List α)} :
      (∀ i < piece.length, ¬ key <+: (piece ++ (key ++ rest)).drop i) →
      LeftmostCut key rest pieces →
      LeftmostCut key (piece ++ (key ++ rest)) (piece :: pieces)

namespace LeftmostCut

theorem cons {a : α} {s piece : List α} {pieces : List (List α)} (h : ¬ key <+: a :: s)
    (hcut : LeftmostCut key s (piece :: pieces)) :
    LeftmostCut key (a :: s) ((a :: piece) :: pieces) := by
  cases hcut with
  | last hnone => exact .last (by rw [List.infix_cons_iff, not_or]; exact ⟨h, hnone⟩)
  | @cut _ rest _ hleft hrest =>
    change LeftmostCut key ((a :: piece) ++ (key ++ rest)) _
    refine .cut (fun i hi => ?_) hrest
    cases i with
    | zero => exact h
    | succ i => exact hleft i (Nat.lt_of_succ_lt_succ hi)

theorem length_le {piece rest piece' rest' : List α}
    (heq : piece ++ (key ++ rest) = piece' ++ (key ++ rest'))
    (hleft : ∀ i < piece.length, ¬ key <+: (piece ++ (key ++ rest)).drop i) :
    piece.length ≤ piece'.length := by
  by_contra hlt
  refine hleft piece'.length (not_le.mp hlt) ?_
  rw [heq, List.drop_left]
  exact List.prefix_append key rest'

/-- There is one way only to cut the text. -/
theorem unique {s : List α} {pieces pieces' : List (List α)} (h : LeftmostCut key s pieces)
    (h' : LeftmostCut key s pieces') : pieces = pieces' := by
  have hoccurs : ∀ piece rest : List α, key <:+: piece ++ (key ++ rest) :=
    fun piece rest => ⟨piece, rest, by rw [List.append_assoc]⟩
  induction h generalizing pieces' with
  | @last s hnone =>
    cases h' with
    | last => rfl
    | cut => exact absurd (hoccurs _ _) hnone
  | @cut piece rest pieces hleft hrest ih =>
    generalize hs : piece ++ (key ++ rest) = s at h'
    cases h' with
    | last hnone => exact absurd (hs ▸ hoccurs _ _) hnone
    | @cut piece' rest' pieces' hleft' hrest' =>
      have hlength := le_antisymm (length_le hs hleft) (length_le hs.symm hleft')
      obtain ⟨rfl, hkey⟩ := List.append_inj hs hlength
      rw [ih (List.append_cancel_left hkey ▸ hrest')]

end LeftmostCut

variable [DecidableEq α]

def cutAll (key : List α) : List α → List (List α)
  | [] => [[]]
  | a :: s =>
    if key <+: a :: s then [] :: cutAll key (s.drop (key.length - 1))
    else (cutAll key s).modifyHead (a :: ·)
termination_by s => s.length
decreasing_by
  · simp only [List.length_drop, List.length_cons]
    omega
  · exact Nat.lt_succ_self _

theorem exists_cutAll (key s : List α) : ∃ piece pieces, cutAll key s = piece :: pieces := by
  fun_induction cutAll key s with
  | case1 => exact ⟨[], [], rfl⟩
  | case2 => exact ⟨_, _, rfl⟩
  | case3 a s h ih =>
    obtain ⟨piece, pieces, hpieces⟩ := ih
    exact ⟨a :: piece, pieces, by rw [hpieces]; rfl⟩

theorem leftmostCut_cutAll (hkey : key ≠ []) (s : List α) :
    LeftmostCut key s (cutAll key s) := by
  fun_induction cutAll key s with
  | case1 => exact .last fun h => hkey (List.infix_nil.mp h)
  | case2 a s h ih =>
    obtain ⟨rest, hrest⟩ := h
    have hdrop : s.drop (key.length - 1) = rest := by
      obtain ⟨k, key, rfl⟩ := List.exists_cons_of_ne_nil hkey
      obtain ⟨-, rfl⟩ := List.cons.inj hrest
      simp
    rw [hdrop] at ih ⊢
    have hcut : LeftmostCut key ([] ++ (key ++ rest)) ([] :: cutAll key rest) :=
      .cut (by simp) ih
    rwa [List.nil_append, hrest] at hcut
  | case3 a s h ih =>
    obtain ⟨piece, pieces, hpieces⟩ := exists_cutAll key s
    rw [hpieces] at ih ⊢
    exact ih.cons h

theorem replaceAll_eq_intercalate (key value s : List α) :
    replaceAll key value s = value.intercalate (cutAll key s) := by
  fun_induction cutAll key s with
  | case1 => simp
  | case2 a s h ih =>
    obtain ⟨piece, pieces, hpieces⟩ := exists_cutAll key (s.drop (key.length - 1))
    rw [replaceAll_prefix_cons h, ih, hpieces, List.intercalate_cons_cons, List.nil_append]
  | case3 a s h ih =>
    obtain ⟨piece, pieces, hpieces⟩ := exists_cutAll key s
    rw [replaceAll_cons h, ih, hpieces, List.modifyHead_cons]
    cases pieces with
    | nil => simp
    | cons => rw [List.intercalate_cons_cons, List.intercalate_cons_cons]; rfl

/-- Replacing a word joins the pieces between its leftmost occurrences. -/
theorem replaceAll_joins (hkey : key ≠ []) (s : List α) :
    ∃! pieces, LeftmostCut key s pieces ∧
      ∀ value, replaceAll key value s = value.intercalate pieces :=
  ⟨cutAll key s, ⟨leftmostCut_cutAll hkey s, fun value => replaceAll_eq_intercalate key value s⟩,
    fun _ h => h.1.unique (leftmostCut_cutAll hkey s)⟩

end Arm2D.Library

import Mathlib

/-! # Words

Some letters stand between words. The words of a text are its longest runs of the others. Where a
single letter ends each piece of a text, nothing behind the last one is no piece. -/
namespace Arm2D.Library

variable {α : Type*} {between : α → Bool}

/-- The text is cut into its words: before each is a gap, which may be empty before the first,
and each goes on up to the next gap or the end. -/
inductive WordCut (between : α → Bool) : List α → List (List α) → Prop
  | blank {gap : List α} (hgap : ∀ a ∈ gap, between a = true) : WordCut between gap []
  | word {gap word rest : List α} {others : List (List α)}
      (hgap : ∀ a ∈ gap, between a = true) (hne : word ≠ [])
      (hword : ∀ a ∈ word, between a = false) (hend : ∀ a ∈ rest.head?, between a = true)
      (hrest : WordCut between rest others) :
      WordCut between (gap ++ (word ++ rest)) (word :: others)

/-- The words, computed: of the pieces between two such letters those with a letter in them. -/
def words (between : α → Bool) (s : List α) : List (List α) :=
  (s.splitOnP between).filter (!·.isEmpty)

theorem words_append_cons {a : α} (ha : between a = true) (s t : List α) :
    words between (s ++ a :: t) = words between s ++ words between t := by
  rw [words, List.splitOnP_append_cons s t ha, List.filter_append]
  rfl

@[simp] theorem words_nil : words between [] = [] := rfl

theorem words_cons {a : α} (ha : between a = true) (s : List α) :
    words between (a :: s) = words between s := by
  have h := words_append_cons ha [] s
  rwa [words_nil, List.nil_append, List.nil_append] at h

theorem words_single {word : List α} (hne : word ≠ [])
    (hword : ∀ a ∈ word, between a = false) : words between word = [word] := by
  rw [words, List.splitOnP_eq_singleton hword]
  simp [hne]

theorem words_gap_append {gap : List α} (hgap : ∀ a ∈ gap, between a = true) (s : List α) :
    words between (gap ++ s) = words between s := by
  induction gap with
  | nil => rfl
  | cons a gap ih =>
    rw [List.forall_mem_cons] at hgap
    rw [List.cons_append, words_cons hgap.1, ih hgap.2]

theorem words_append_gap {gap : List α} (hgap : ∀ a ∈ gap, between a = true) (s : List α) :
    words between (s ++ gap) = words between s := by
  cases gap with
  | nil => rw [List.append_nil]
  | cons a gap =>
    rw [List.forall_mem_cons] at hgap
    have hrest := words_gap_append hgap.2 []
    rw [List.append_nil, words_nil] at hrest
    rw [words_append_cons hgap.1, hrest, List.append_nil]

namespace WordCut

theorem gap_append {gap s : List α} {ws : List (List α)} (hgap : ∀ a ∈ gap, between a = true)
    (h : WordCut between s ws) : WordCut between (gap ++ s) ws := by
  have hboth : ∀ {more : List α}, (∀ a ∈ more, between a = true) →
      ∀ a ∈ gap ++ more, between a = true := by
    intro more hmore a ha
    exact (List.mem_append.mp ha).elim (hgap a) (hmore a)
  cases h with
  | blank hmore => exact .blank (hboth hmore)
  | word hmore hne hword hend hrest =>
    rw [← List.append_assoc]
    exact .word (hboth hmore) hne hword hend hrest

/-- There is one way only to cut a text into words. -/
theorem eq_words {s : List α} {ws : List (List α)} (h : WordCut between s ws) :
    ws = words between s := by
  induction h with
  | @blank gap hgap =>
    have h := words_gap_append hgap []
    rw [List.append_nil, words_nil] at h
    exact h.symm
  | @word gap word rest others hgap hne hword hend hrest ih =>
    rw [words_gap_append hgap]
    cases rest with
    | nil => rw [List.append_nil, words_single hne hword, ih, words_nil]
    | cons a rest =>
      have ha : between a = true := hend a rfl
      rw [words_append_cons ha, words_single hne hword, ih, words_cons ha]
      rfl

theorem of_mem {s : List α} {ws : List (List α)} (h : WordCut between s ws) {w : List α}
    (hw : w ∈ ws) : w ≠ [] ∧ ∀ a ∈ w, between a = false ∧ a ∈ s := by
  induction h with
  | blank hgap => exact absurd hw List.not_mem_nil
  | @word gap word rest others hgap hne hword hend hrest ih =>
    rcases List.mem_cons.mp hw with rfl | hw
    · exact ⟨hne, fun a ha => ⟨hword a ha, by simp [ha]⟩⟩
    · obtain ⟨hne', hletters⟩ := ih hw
      refine ⟨hne', fun a ha => ⟨(hletters a ha).1, ?_⟩⟩
      simp [(hletters a ha).2]

end WordCut

/-- The pieces without the last one, where that is empty. -/
def dropEmptyLast [DecidableEq α] (pieces : List (List α)) : List (List α) :=
  if pieces.getLast? = some [] then pieces.dropLast else pieces

theorem dropEmptyLast_cons [DecidableEq α] (piece : List α) {pieces : List (List α)}
    (h : pieces ≠ []) : dropEmptyLast (piece :: pieces) = piece :: dropEmptyLast pieces := by
  rw [dropEmptyLast, dropEmptyLast, List.getLast?_cons_of_ne_nil h]
  split_ifs
  · exact List.dropLast_cons_of_ne_nil h
  · rfl

end Arm2D.Library

import Mathlib

/-! # Replacing a word in a text

The occurrences are taken from the left and do not overlap. A separator that is not in
the word cuts the replacement into the replacements of the parts. -/
namespace Arm2D.Library

variable {α : Type*} [DecidableEq α]

/-- The text with the occurrences of a word replaced. -/
def replaceAll (key value : List α) : List α → List α
  | [] => []
  | a :: s =>
    if key <+: a :: s then value ++ replaceAll key value (s.drop (key.length - 1))
    else a :: replaceAll key value s
termination_by s => s.length
decreasing_by
  · simp only [List.length_drop, List.length_cons]
    omega
  · exact Nat.lt_succ_self _

variable {key value : List α}

@[simp] lemma replaceAll_nil : replaceAll key value [] = [] := by
  rw [replaceAll]

lemma replaceAll_prefix_cons {a : α} {s : List α} (h : key <+: a :: s) :
    replaceAll key value (a :: s) =
      value ++ replaceAll key value (s.drop (key.length - 1)) := by
  rw [replaceAll, if_pos h]

lemma replaceAll_cons {a : α} {s : List α} (h : ¬ key <+: a :: s) :
    replaceAll key value (a :: s) = a :: replaceAll key value s := by
  rw [replaceAll, if_neg h]

theorem mem_replaceAll {s : List α} {a : α} (h : a ∈ replaceAll key value s) :
    a ∈ value ∨ a ∈ s := by
  fun_induction replaceAll key value s with
  | case1 => simp at h
  | case2 b s hb ih =>
    rcases List.mem_append.mp h with h | h
    · exact Or.inl h
    · exact (ih h).imp_right fun hs => List.mem_cons_of_mem b (List.mem_of_mem_drop hs)
  | case3 b s hb ih =>
    rcases List.mem_cons.mp h with rfl | h
    · exact Or.inr List.mem_cons_self
    · exact (ih h).imp_right (List.mem_cons_of_mem b)

theorem replaceAll_ne_nil (hvalue : value ≠ []) {s : List α} (hs : s ≠ []) :
    replaceAll key value s ≠ [] := by
  fun_cases replaceAll key value s with
  | case1 => exact hs
  | case2 => simp [hvalue]
  | case3 => simp

theorem mem_head?_replaceAll (hvalue : value ≠ []) {s : List α} {a : α}
    (h : a ∈ (replaceAll key value s).head?) : a ∈ value.head? ∨ a ∈ s.head? := by
  fun_cases replaceAll key value s with
  | case1 => simp at h
  | case2 =>
    rw [replaceAll_prefix_cons (by assumption), List.head?_append_of_ne_nil _ hvalue] at h
    exact Or.inl h
  | case3 =>
    rw [replaceAll_cons (by assumption)] at h
    exact Or.inr h

theorem mem_getLast?_replaceAll (hvalue : value ≠ []) {s : List α} {a : α}
    (h : a ∈ (replaceAll key value s).getLast?) : a ∈ value.getLast? ∨ a ∈ s.getLast? := by
  fun_induction replaceAll key value s with
  | case1 => simp at h
  | case2 b s hb ih =>
    rw [List.getLast?_append, Option.mem_def, Option.or_eq_some_iff] at h
    rcases h with h | ⟨-, h⟩
    · refine (ih h).imp_right fun hs => List.mem_getLast?_cons ?_
      rw [List.getLast?_drop] at hs
      split_ifs at hs
      · simp at hs
      · exact hs
    · exact Or.inl h
  | case3 b s hb ih =>
    cases s with
    | nil => exact Or.inr (by simpa using h)
    | cons c s =>
      have hne : replaceAll key value (c :: s) ≠ [] :=
        replaceAll_ne_nil hvalue (List.cons_ne_nil c s)
      obtain ⟨d, r, hr⟩ := List.exists_cons_of_ne_nil hne
      rw [hr, List.getLast?_cons_cons, ← hr] at h
      rw [List.getLast?_cons_cons]
      exact ih h

omit [DecidableEq α] in
theorem prefix_append_cons_iff {sep : α} (h : sep ∉ key) (s t : List α) :
    key <+: s ++ sep :: t ↔ key <+: s := by
  constructor
  · intro hkey
    rcases Nat.lt_or_ge s.length key.length with hlt | hle
    · exfalso
      apply h
      have hsep : s ++ [sep] <+: key := by
        apply List.prefix_of_prefix_length_le _ hkey
        · simpa using hlt
        · exact ⟨t, by simp⟩
      exact hsep.subset (by simp)
    · exact List.prefix_of_prefix_length_le hkey (List.prefix_append _ _) hle
  · exact fun hkey => hkey.trans (List.prefix_append _ _)

theorem replaceAll_append_cons {sep : α} (hkey : key ≠ []) (hsep : sep ∉ key) (s t : List α) :
    replaceAll key value (s ++ sep :: t) =
      replaceAll key value s ++ sep :: replaceAll key value t := by
  fun_induction replaceAll key value s with
  | case1 =>
    apply replaceAll_cons
    intro h
    have hnil := (prefix_append_cons_iff hsep [] t).mp h
    exact hkey (List.prefix_nil.mp hnil)
  | case2 a s h ih =>
    have hle : key.length - 1 ≤ s.length := by
      have := h.length_le
      rw [List.length_cons] at this
      omega
    have h' : key <+: a :: (s ++ sep :: t) := h.trans (List.prefix_append (a :: s) _)
    rw [List.cons_append, replaceAll_prefix_cons h', List.drop_append_of_le_length hle, ih,
      List.append_assoc]
  | case3 a s h ih =>
    have h' : ¬ key <+: a :: (s ++ sep :: t) := by
      rw [← List.cons_append, prefix_append_cons_iff hsep]
      exact h
    rw [List.cons_append, replaceAll_cons h', ih, List.cons_append]

theorem replaceAll_intercalate {sep : α} (hkey : key ≠ []) (hsep : sep ∉ key)
    (l : List (List α)) :
    replaceAll key value ([sep].intercalate l) =
      [sep].intercalate (l.map (replaceAll key value)) := by
  induction l with
  | nil => simp
  | cons s l ih =>
    cases l with
    | nil => simp
    | cons t l =>
      simp only [List.map_cons, List.intercalate_cons_cons, List.append_assoc,
        List.singleton_append] at ih ⊢
      rw [replaceAll_append_cons hkey hsep, ih]

end Arm2D.Library

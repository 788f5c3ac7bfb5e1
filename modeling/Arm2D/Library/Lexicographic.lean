import Mathlib

/-! # Keys in lexicographic order

What the beginning of a key says about its place among the others. -/
namespace Arm2D.Library

variable {α : Type*} [Ord α] [Std.LawfulEqOrd α]

theorem compare_append_left (front l l' : List α) :
    compare (front ++ l) (front ++ l') = compare l l' := by
  induction front with
  | nil => rfl
  | cons a front ih =>
    have hself : compare a a = .eq := Std.ReflCmp.compare_self
    rw [List.cons_append, List.cons_append, List.compare_cons_cons, hself, ih]
    rfl

theorem compare_of_not_prefix {front l rest : List α} (h : compare (front ++ rest) l = .lt)
    (hnot : ¬ front <+: l) (x y : List α) : compare (front ++ x) (l ++ y) = .lt := by
  induction front generalizing l with
  | nil => exact absurd List.nil_prefix hnot
  | cons a front ih =>
    cases l with
    | nil =>
      rw [List.cons_append, List.compare_cons_nil] at h
      cases h
    | cons b l =>
      rw [List.cons_append, List.compare_cons_cons] at h
      rw [List.cons_append, List.cons_append, List.compare_cons_cons]
      cases hab : compare a b with
      | lt => rfl
      | gt =>
        rw [hab] at h
        cases h
      | eq =>
        rw [hab] at h
        have heq : a = b := Std.LawfulEqOrd.eq_of_compare hab
        exact ih h fun hprefix => hnot (heq ▸ List.cons_prefix_cons.mpr ⟨rfl, hprefix⟩)

omit [Ord α] [Std.LawfulEqOrd α] in
theorem filter_append_filter_not {p : α → Bool} {l : List α}
    (h : l.Pairwise fun a b => p b = true → p a = true) :
    l.filter p ++ l.filter (fun a => !p a) = l := by
  induction l with
  | nil => rfl
  | cons a l ih =>
    rw [List.pairwise_cons] at h
    cases hpa : p a with
    | true => simp [hpa, ih h.2]
    | false =>
      have hnone : l.filter p = [] := by
        rw [List.filter_eq_nil_iff]
        intro b hb hpb
        rw [h.1 b hb hpb] at hpa
        cases hpa
      rw [List.filter_cons_of_neg (by simp [hpa]), hnone, List.filter_cons_of_pos (by simp [hpa])]
      have hrest := ih h.2
      rw [hnone] at hrest
      simpa using hrest

end Arm2D.Library

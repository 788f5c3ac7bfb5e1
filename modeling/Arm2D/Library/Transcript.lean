import Mathlib

/-! # Transcripts

A writer closes each of its messages with a delimiter, and may send more delimiters behind
it. Who cuts the line at the delimiters and drops what is empty gets the messages back, in
their order. -/
namespace Arm2D.Library

variable {α : Type*} {d : α}

/-- The messages that were sent, and what is on the line. -/
inductive Transcript (d : α) : List (List α) → List α → Prop
  | nil : Transcript d [] []
  | delimiter {messages : List (List α)} {out : List α} :
      Transcript d messages out → Transcript d messages (out ++ [d])
  | message {messages : List (List α)} {out : List α} (m : List α) :
      Transcript d messages out → Transcript d (messages ++ [m]) (out ++ (m ++ [d]))

namespace Transcript

theorem append {ms ms' : List (List α)} {out out' : List α} (h : Transcript d ms out)
    (h' : Transcript d ms' out') : Transcript d (ms ++ ms') (out ++ out') := by
  induction h' with
  | nil => simpa using h
  | delimiter _ ih =>
    rw [← List.append_assoc]
    exact ih.delimiter
  | message m _ ih =>
    rw [← List.append_assoc, ← List.append_assoc]
    exact ih.message m

theorem delimiters (d : α) (k : ℕ) : Transcript d [] (List.replicate k d) := by
  induction k with
  | zero => exact .nil
  | succ k ih =>
    rw [List.replicate_succ']
    exact ih.delimiter

theorem ne_nil {ms : List (List α)} {out : List α} (h : Transcript d ms out) (hms : ms ≠ []) :
    out ≠ [] := by
  cases h with
  | nil => exact absurd rfl hms
  | delimiter _ => simp
  | message m _ => simp

variable [DecidableEq α]

theorem split_append {ms : List (List α)} {out : List α} (h : Transcript d ms out)
    (hms : ∀ m ∈ ms, m ≠ [] ∧ d ∉ m) (rest : List α) :
    ((out ++ rest).splitOn d).filter (· ≠ []) = ms ++ (rest.splitOn d).filter (· ≠ []) := by
  induction h generalizing rest with
  | nil => simp
  | delimiter _ ih =>
    have hcut := List.splitOn_append_cons_self (a := d) [] rest
    rw [List.nil_append] at hcut
    rw [List.append_assoc, List.singleton_append, ih hms, hcut]
    simp
  | message m _ ih =>
    obtain ⟨hne, hd⟩ := hms m (by simp)
    rw [List.append_assoc, List.append_assoc, List.singleton_append,
      ih fun m hm => hms m (by simp [hm]), List.splitOn_append_cons_self,
      List.splitOn_eq_singleton hd]
    simp [hne]

theorem split {ms : List (List α)} {out : List α} (h : Transcript d ms out)
    (hms : ∀ m ∈ ms, m ≠ [] ∧ d ∉ m) : (out.splitOn d).filter (· ≠ []) = ms := by
  simpa using h.split_append hms []

end Transcript
end Arm2D.Library

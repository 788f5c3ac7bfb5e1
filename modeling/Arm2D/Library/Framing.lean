import Mathlib

/-! # Frames from a polled line

A line is polled: each time it has nothing or the next symbol. A reader collects symbols
until a delimiter or until nothing is there, and gives up after some tries in vain. What
it collects are the frames of the stream exactly when no block of symbols that it reads
is cut inside a frame. -/
namespace Arm2D.Library

variable {α β : Type*}

/-- The symbols of a schedule, whenever they come. -/
def symbols (polls : List (Option α)) : List α := polls.reduceOption

@[simp] lemma symbols_none (polls : List (Option α)) :
    symbols (none :: polls) = symbols polls := rfl

@[simp] lemma symbols_some (a : α) (polls : List (Option α)) :
    symbols (some a :: polls) = a :: symbols polls := rfl

def available : List (Option α) → List α
  | some a :: polls => a :: available polls
  | _ => []

@[simp] lemma available_some (a : α) (polls : List (Option α)) :
    available (some a :: polls) = a :: available polls := rfl

/-- The first block of symbols that a reader with this many tries finds. -/
def firstBlock : ℕ → List (Option α) → List α
  | _, [] => []
  | _, some a :: polls => a :: available polls
  | 0, none :: _ => []
  | tries + 1, none :: polls => firstBlock tries polls

@[simp] lemma firstBlock_nil (tries : ℕ) : firstBlock tries ([] : List (Option α)) = [] := by
  cases tries <;> rfl

@[simp] lemma firstBlock_some (tries : ℕ) (a : α) (polls : List (Option α)) :
    firstBlock tries (some a :: polls) = available (some a :: polls) := by
  cases tries <;> rfl

lemma firstBlock_zero (polls : List (Option α)) : firstBlock 0 polls = available polls := by
  rcases polls with _ | ⟨_ | a, polls⟩ <;> rfl

variable (d : α)

def Framed (s : List α) : Prop := ∀ a ∈ s.getLast?, a = d

lemma framed_nil : Framed d ([] : List α) := by simp [Framed]

lemma framed_cons_cons (a b : α) (s : List α) : Framed d (a :: b :: s) ↔ Framed d (b :: s) := by
  simp [Framed, List.getLast?_cons_cons]

lemma Framed.of_cons {a : α} {s : List α} (h : Framed d (a :: s)) : Framed d s := by
  cases s with
  | nil => exact framed_nil d
  | cons b s => exact (framed_cons_cons d a b s).mp h

lemma framed_append_iff {s : List α} (hs : s.getLast? = some d) (t : List α) :
    Framed d (s ++ t) ↔ Framed d t := by
  unfold Framed
  rw [List.getLast?_append, hs]
  cases t.getLast? <;> simp

lemma Framed.mem {s : List α} (h : Framed d s) (hne : s ≠ []) : d ∈ s := by
  have hlast := h _ (List.getLast?_eq_some_getLast hne)
  rw [← hlast]
  exact List.getLast_mem hne

variable [DecidableEq α]

/-- Read until the delimiter, or until nothing is there. -/
def readUntil : List (Option α) → List α × List (Option α)
  | [] => ([], [])
  | none :: polls => ([], polls)
  | some a :: polls =>
    if a = d then ([a], polls) else (a :: (readUntil polls).1, (readUntil polls).2)

/-- The complete frames of a stream, each with its delimiter. -/
def frames : List α → List (List α)
  | [] => []
  | a :: s =>
    if a = d then [a] :: frames s
    else match frames s with
      | [] => []
      | f :: fs => (a :: f) :: fs

lemma frames_ne_nil {s : List α} (h : d ∈ s) : frames d s ≠ [] := by
  induction s with
  | nil => exact absurd h List.not_mem_nil
  | cons a s ih =>
    rw [frames]
    split_ifs with ha
    · exact List.cons_ne_nil _ _
    · have hs := ih ((List.mem_cons.mp h).resolve_left (Ne.symm ha))
      cases hf : frames d s with
      | nil => exact absurd hf hs
      | cons f fs => exact List.cons_ne_nil _ _

theorem getLast?_of_mem_frames {s f : List α} (h : f ∈ frames d s) : f.getLast? = some d := by
  induction s generalizing f with
  | nil => exact absurd h List.not_mem_nil
  | cons a s ih =>
    rw [frames] at h
    split_ifs at h with ha
    · rcases List.mem_cons.mp h with rfl | h
      · rw [List.getLast?_singleton, ha]
      · exact ih h
    · cases hf : frames d s with
      | nil =>
        rw [hf] at h
        exact absurd h List.not_mem_nil
      | cons f' fs =>
        rw [hf] at h ih
        rcases List.mem_cons.mp h with rfl | h
        · have hlast := ih List.mem_cons_self
          rw [List.getLast?_cons, hlast]
          rfl
        · exact ih (List.mem_cons_of_mem _ h)

theorem frames_append {s : List α} (h : Framed d s) (t : List α) :
    frames d (s ++ t) = frames d s ++ frames d t := by
  induction s with
  | nil => rfl
  | cons a s ih =>
    have ih := ih h.of_cons
    rw [List.cons_append, frames, frames]
    split_ifs with ha
    · rw [ih, List.cons_append]
    · have hs : s ≠ [] := by
        rintro rfl
        exact ha (h a (by simp))
      have hne := frames_ne_nil d (h.of_cons.mem d hs)
      rw [ih]
      cases hf : frames d s with
      | nil => exact absurd hf hne
      | cons f fs => rfl

theorem readUntil_length_le (polls : List (Option α)) :
    (readUntil d polls).2.length ≤ polls.length := by
  induction polls with
  | nil => exact le_rfl
  | cons o polls ih =>
    cases o with
    | none => exact Nat.le_succ _
    | some a =>
      rw [readUntil]
      split_ifs
      · exact Nat.le_succ _
      · exact ih.trans (Nat.le_succ _)

theorem readUntil_length_lt {polls : List (Option α)} (h : (readUntil d polls).1 ≠ []) :
    (readUntil d polls).2.length < polls.length := by
  rcases polls with _ | ⟨_ | a, polls⟩
  · exact absurd rfl h
  · exact absurd rfl h
  · rw [readUntil]
    split_ifs
    · exact Nat.lt_succ_self _
    · exact Nat.lt_succ_of_le (readUntil_length_le d polls)

theorem readUntil_symbols (polls : List (Option α)) :
    symbols polls = (readUntil d polls).1 ++ symbols (readUntil d polls).2 := by
  induction polls with
  | nil => rfl
  | cons o polls ih =>
    cases o with
    | none => rfl
    | some a =>
      rw [readUntil, symbols_some]
      split_ifs
      · rfl
      · rw [ih, List.cons_append]

theorem readUntil_of_mem {polls : List (Option α)} (h : d ∈ available polls) :
    (readUntil d polls).1.getLast? = some d ∧
      available polls = (readUntil d polls).1 ++ available (readUntil d polls).2 ∧
      frames d (available polls) =
        (readUntil d polls).1 :: frames d (available (readUntil d polls).2) := by
  induction polls with
  | nil => exact absurd h List.not_mem_nil
  | cons o polls ih =>
    cases o with
    | none => exact absurd h List.not_mem_nil
    | some a =>
      rw [available_some] at h ⊢
      rw [readUntil, frames]
      split_ifs with ha
      · exact ⟨by rw [List.getLast?_singleton, ha], rfl, rfl⟩
      · obtain ⟨hlast, happ, hframes⟩ := ih ((List.mem_cons.mp h).resolve_left (Ne.symm ha))
        refine ⟨?_, congrArg (a :: ·) happ, by rw [hframes]⟩
        rw [List.getLast?_cons, hlast]
        rfl

theorem readUntil_of_notMem {polls : List (Option α)} (h : d ∉ available polls) :
    (readUntil d polls).1 = available polls := by
  induction polls with
  | nil => rfl
  | cons o polls ih =>
    cases o with
    | none => rfl
    | some a =>
      rw [available_some, List.mem_cons, not_or] at h
      rw [readUntil, if_neg (Ne.symm h.1), ih h.2, available_some]

/-- Read until nothing comes for more than the tries left; a frame leaves no more tries. -/
def poll (tries : ℕ) (polls : List (Option α)) : List (List α) × List (Option α) :=
  let r := readUntil d polls
  if h : r.1 ≠ [] then
    let rest := poll 0 r.2
    (r.1 :: rest.1, rest.2)
  else if 0 < tries then poll (tries - 1) r.2
  else ([], r.2)
termination_by polls.length + tries
decreasing_by
  · have := readUntil_length_lt d h
    omega
  · have := readUntil_length_le d polls
    omega

theorem poll_of_ne_nil {tries : ℕ} {polls : List (Option α)}
    (h : (readUntil d polls).1 ≠ []) :
    poll d tries polls = ((readUntil d polls).1 :: (poll d 0 (readUntil d polls).2).1,
      (poll d 0 (readUntil d polls).2).2) := by
  rw [poll, dif_pos h]

@[simp] theorem poll_nil (tries : ℕ) : poll d tries ([] : List (Option α)) = ([], []) := by
  induction tries with
  | zero => simp [poll, readUntil]
  | succ n ih => simp [poll, readUntil, ih]

@[simp] theorem poll_zero_none (polls : List (Option α)) :
    poll d 0 (none :: polls) = ([], polls) := by
  simp [poll, readUntil]

@[simp] theorem poll_succ_none (n : ℕ) (polls : List (Option α)) :
    poll d (n + 1) (none :: polls) = poll d n polls := by
  rw [poll]
  simp [readUntil]

theorem readUntil_some_ne_nil (a : α) (polls : List (Option α)) :
    (readUntil d (some a :: polls)).1 ≠ [] := by
  rw [readUntil]
  split_ifs <;> exact List.cons_ne_nil _ _

/-- A reader that finds a framed block returns its frames and consumes it. -/
theorem poll_of_framed (tries : ℕ) (polls : List (Option α))
    (h : Framed d (firstBlock tries polls)) :
    (poll d tries polls).1 = frames d (firstBlock tries polls) ∧
      symbols polls = firstBlock tries polls ++ symbols (poll d tries polls).2 := by
  induction hn : polls.length using Nat.strong_induction_on generalizing tries polls with
  | _ n ih =>
    subst hn
    rcases polls with _ | ⟨_ | a, polls⟩
    · simp [frames]
    · cases tries with
      | zero => simp [firstBlock, frames]
      | succ tries =>
        have hrest := ih polls.length (by simp) tries polls h rfl
        simpa [firstBlock] using hrest
    · rw [firstBlock_some] at h
      have hne := readUntil_some_ne_nil d a polls
      have hmem : d ∈ available (some a :: polls) := h.mem d (List.cons_ne_nil _ _)
      obtain ⟨hlast, happ, hframes⟩ := readUntil_of_mem d hmem
      rw [poll_of_ne_nil d hne, firstBlock_some]
      have hblock : Framed d (firstBlock 0 (readUntil d (some a :: polls)).2) := by
        rw [firstBlock_zero, ← framed_append_iff d hlast, ← happ]
        exact h
      obtain ⟨hlog, hsym⟩ := ih _ (readUntil_length_lt d hne) 0 _ hblock rfl
      rw [firstBlock_zero] at hlog hsym
      constructor
      · rw [hframes, hlog]
      · rw [happ, List.append_assoc, ← hsym]
        exact readUntil_symbols d _

theorem poll_of_not_framed (tries : ℕ) (polls : List (Option α))
    (h : ¬ Framed d (firstBlock tries polls)) :
    ∃ f ∈ (poll d tries polls).1, f.getLast? ≠ some d := by
  induction hn : polls.length using Nat.strong_induction_on generalizing tries polls with
  | _ n ih =>
    subst hn
    rcases polls with _ | ⟨_ | a, polls⟩
    · exact absurd (framed_nil d) (by rwa [firstBlock_nil] at h)
    · cases tries with
      | zero => exact absurd (framed_nil d) h
      | succ tries =>
        rw [poll_succ_none]
        exact ih polls.length (by simp) tries polls h rfl
    · rw [firstBlock_some] at h
      have hne := readUntil_some_ne_nil d a polls
      rw [poll_of_ne_nil d hne]
      by_cases hmem : d ∈ available (some a :: polls)
      · obtain ⟨hlast, happ, -⟩ := readUntil_of_mem d hmem
        have hblock : ¬ Framed d (firstBlock 0 (readUntil d (some a :: polls)).2) := by
          rw [firstBlock_zero, ← framed_append_iff d hlast, ← happ]
          exact h
        obtain ⟨f, hf, hcut⟩ := ih _ (readUntil_length_lt d hne) 0 _ hblock rfl
        exact ⟨f, List.mem_cons_of_mem _ hf, hcut⟩
      · refine ⟨_, List.mem_cons_self, fun hlast => h ?_⟩
        rw [readUntil_of_notMem d hmem] at hlast
        intro b hb
        rw [hlast] at hb
        exact (Option.some.inj hb).symm

def pollRun : List ℕ → List (Option α) → List (List α)
  | [], _ => []
  | tries :: ts, polls => (poll d tries polls).1 ++ pollRun ts (poll d tries polls).2

/-- Every reader of the run finds a framed block. -/
def AllFramed : List ℕ → List (Option α) → Prop
  | [], _ => True
  | tries :: ts, polls =>
    Framed d (firstBlock tries polls) ∧ AllFramed ts (poll d tries polls).2

theorem pollRun_of_allFramed (ts : List ℕ) (polls : List (Option α)) (h : AllFramed d ts polls) :
    pollRun d ts polls <+: frames d (symbols polls) := by
  induction ts generalizing polls with
  | nil => exact List.nil_prefix
  | cons tries ts ih =>
    obtain ⟨hframes, hsym⟩ := poll_of_framed d tries polls h.1
    rw [pollRun, hsym, frames_append d h.1, hframes]
    exact List.prefix_append_right_inj _ |>.mpr (ih _ h.2)

/-- What a run of readers returns are frames of the stream, in order and none twice,
exactly when every block that is read is framed. -/
theorem pollRun_sublist_iff (ts : List ℕ) (polls : List (Option α)) :
    (pollRun d ts polls).Sublist (frames d (symbols polls)) ↔ AllFramed d ts polls := by
  constructor
  · intro h
    induction ts generalizing polls with
    | nil => trivial
    | cons tries ts ih =>
      have hblock : Framed d (firstBlock tries polls) := by
        by_contra hcut
        obtain ⟨f, hf, hlast⟩ := poll_of_not_framed d tries polls hcut
        exact hlast (getLast?_of_mem_frames d (h.subset (List.mem_append_left _ hf)))
      obtain ⟨hframes, hsym⟩ := poll_of_framed d tries polls hblock
      refine ⟨hblock, ih _ ?_⟩
      rw [pollRun, hsym, frames_append d hblock, hframes] at h
      exact (List.append_sublist_append_left _).mp h
  · exact fun h => (pollRun_of_allFramed d ts polls h).sublist

section whole
variable (text : β → List α)

def expand : List (Option β) → List (Option α)
  | [] => []
  | none :: arrivals => none :: expand arrivals
  | some b :: arrivals => (text b).map some ++ expand arrivals

/-- The frames that a reader takes from such a schedule, and what it leaves. -/
def pollWhole : ℕ → List (Option β) → List β × List (Option β)
  | _, [] => ([], [])
  | 0, none :: arrivals => ([], arrivals)
  | tries + 1, none :: arrivals => pollWhole tries arrivals
  | _, some b :: arrivals => (b :: (pollWhole 0 arrivals).1, (pollWhole 0 arrivals).2)

theorem readUntil_frame {body : List α} (h : d ∉ body) (polls : List (Option α)) :
    readUntil d ((body ++ [d]).map some ++ polls) = (body ++ [d], polls) := by
  induction body with
  | nil => simp [readUntil]
  | cons a body ih =>
    rw [List.mem_cons, not_or] at h
    have hrest := ih h.2
    rw [List.cons_append, List.map_cons, List.cons_append, readUntil, if_neg (Ne.symm h.1), hrest]

theorem poll_expand (htext : ∀ b, ∃ body, text b = body ++ [d] ∧ d ∉ body) (tries : ℕ)
    (arrivals : List (Option β)) :
    poll d tries (expand text arrivals) =
      ((pollWhole tries arrivals).1.map text, expand text (pollWhole tries arrivals).2) := by
  induction arrivals generalizing tries with
  | nil => simp [expand, pollWhole]
  | cons o arrivals ih =>
    cases o with
    | none =>
      cases tries with
      | zero => simp [expand, pollWhole]
      | succ n => simp [expand, pollWhole, ih n]
    | some b =>
      obtain ⟨body, hb, hd⟩ := htext b
      have hread : readUntil d (expand text (some b :: arrivals)) =
          (text b, expand text arrivals) := by
        rw [expand, hb, readUntil_frame d hd]
      have hne : (readUntil d (expand text (some b :: arrivals))).1 ≠ [] := by
        simp [hread, hb]
      rw [poll_of_ne_nil d hne, hread, ih 0]
      simp [pollWhole]

end whole
end Arm2D.Library

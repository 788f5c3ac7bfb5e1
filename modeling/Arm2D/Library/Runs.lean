import Mathlib

/-! # Runs of a deterministic system

A run is a list of inputs folded over a state; the states that it reaches are those of
its prefixes. -/
namespace Arm2D.Library

variable {σ α : Type*} {step : σ → α → σ} {P : σ → Prop} {C : σ → α → Prop}

/-- Every state of the run satisfies `P`. -/
def Always (step : σ → α → σ) (P : σ → Prop) (s : σ) (inputs : List α) : Prop :=
  ∀ pre, pre <+: inputs → P (pre.foldl step s)

/-- Every step of the run meets `C` in the state before it. -/
def EachStep (step : σ → α → σ) (C : σ → α → Prop) (s : σ) (inputs : List α) : Prop :=
  ∀ pre a, pre ++ [a] <+: inputs → C (pre.foldl step s) a

theorem always_of_step (hstep : ∀ s a, P s → P (step s a)) {s : σ} (hs : P s)
    (inputs : List α) : Always step P s inputs := by
  intro pre hpre
  clear hpre
  induction pre using List.reverseRecOn with
  | nil => exact hs
  | append_singleton pre a ih =>
    rw [List.foldl_append]
    exact hstep _ a ih

/-- What a step keeps exactly when it meets `C`, a run keeps exactly when all its steps do. -/
theorem always_iff_eachStep (hstep : ∀ s a, P s → (P (step s a) ↔ C s a)) {s : σ} (hs : P s)
    (inputs : List α) : Always step P s inputs ↔ EachStep step C s inputs := by
  have hbefore : ∀ {pre : List α} {a : α}, pre ++ [a] <+: inputs → pre <+: inputs :=
    fun hpre => (List.prefix_append _ _).trans hpre
  constructor
  · intro h pre a hpre
    have hP := h _ hpre
    rw [List.foldl_append, List.foldl_cons, List.foldl_nil] at hP
    exact (hstep _ _ (h pre (hbefore hpre))).mp hP
  · intro h pre hpre
    induction pre using List.reverseRecOn with
    | nil => exact hs
    | append_singleton pre a ih =>
      rw [List.foldl_append, List.foldl_cons, List.foldl_nil]
      exact (hstep _ _ (ih (hbefore hpre))).mpr (h pre a hpre)

section partialRuns
variable {step : σ → α → Option σ} {ok : α → Prop}

/-- What no step that succeeds breaks, no run that succeeds breaks. -/
theorem foldlM_invariant (hstep : ∀ s a s', P s → step s a = some s' → P s') {s s' : σ}
    {inputs : List α} (hs : P s) (h : inputs.foldlM step s = some s') : P s' := by
  induction inputs generalizing s with
  | nil =>
    cases h
    exact hs
  | cons a inputs ih =>
    rw [List.foldlM_cons] at h
    obtain ⟨t, ht, h⟩ := Option.bind_eq_some_iff.mp h
    exact ih (hstep s a t hs ht) h

/-- Where the invariant makes success a property of the input alone, a run succeeds exactly
when all its inputs have it. -/
theorem foldlM_isSome_iff (hstep : ∀ s a s', P s → step s a = some s' → P s')
    (hok : ∀ s a, P s → ((step s a).isSome ↔ ok a)) {s : σ} (hs : P s) (inputs : List α) :
    (inputs.foldlM step s).isSome ↔ ∀ a ∈ inputs, ok a := by
  induction inputs generalizing s with
  | nil => simp
  | cons a inputs ih =>
    rw [List.foldlM_cons, List.forall_mem_cons, ← hok s a hs]
    cases h : step s a with
    | none => simp
    | some t => simpa using ih (hstep s a t hs h)

theorem foldlM_returns (hstep : ∀ s a, P s → ok a → ∃ s', step s a = some s' ∧ P s') {s : σ}
    (hs : P s) {inputs : List α} (hok : ∀ a ∈ inputs, ok a) :
    ∃ s', inputs.foldlM step s = some s' ∧ P s' := by
  induction inputs generalizing s with
  | nil => exact ⟨s, rfl, hs⟩
  | cons a inputs ih =>
    obtain ⟨t, ht, hPt⟩ := hstep s a hs (hok a List.mem_cons_self)
    obtain ⟨s', hrun, hP⟩ := ih hPt fun b hb => hok b (List.mem_cons_of_mem a hb)
    refine ⟨s', ?_, hP⟩
    rw [List.foldlM_cons, ht]
    exact hrun

theorem foldlM_prefixes {P : List α → σ → Prop} {inputs : List α}
    (hstep : ∀ pre a s, pre ++ [a] <+: inputs → P pre s →
      ∃ s', step s a = some s' ∧ P (pre ++ [a]) s') {s : σ} (hs : P [] s) :
    ∃ s', inputs.foldlM step s = some s' ∧ P inputs s' := by
  suffices h : ∀ pre, pre <+: inputs → ∃ s', pre.foldlM step s = some s' ∧ P pre s' from
    h inputs List.prefix_rfl
  intro pre hpre
  induction pre using List.reverseRecOn with
  | nil => exact ⟨s, rfl, hs⟩
  | append_singleton pre a ih =>
    obtain ⟨t, ht, hPt⟩ := ih ((List.prefix_append pre [a]).trans hpre)
    obtain ⟨s', hs', hP⟩ := hstep pre a t hpre hPt
    refine ⟨s', ?_, hP⟩
    rw [List.foldlM_append, ht]
    simpa using hs'

end partialRuns

/-- More fuel changes nothing for a loop that has come to its end, when no pass can tell
what the passes behind it have left over. -/
theorem loop_mono {τ : Type*} {loop : ℕ → σ → Option τ} {pass : (σ → Option τ) → σ → Option τ}
    (hzero : ∀ s, loop 0 s = none) (hsucc : ∀ n s, loop (n + 1) s = pass (loop n) s)
    (hpass : ∀ k k' : σ → Option τ, (∀ s, ∀ r ∈ k s, r ∈ k' s) →
      ∀ s, ∀ r ∈ pass k s, r ∈ pass k' s)
    {n n' : ℕ} (hle : n ≤ n') : ∀ s, ∀ r ∈ loop n s, r ∈ loop n' s := by
  induction n generalizing n' with
  | zero =>
    intro s r hr
    rw [hzero] at hr
    cases hr
  | succ n ih =>
    obtain ⟨m, rfl⟩ := Nat.exists_eq_add_of_le' (Nat.one_le_of_lt hle)
    intro s r hr
    rw [hsucc] at hr ⊢
    exact hpass _ _ (ih (by omega)) s r hr

theorem foldl_update_idempotent {ι β : Type*} [DecidableEq ι] {f : β → β}
    (hf : ∀ b, f (f b) = f b) (places : List ι) (store : ι → β) (i : ι) :
    places.foldl (fun store j => Function.update store j (f (store j))) store i =
      if i ∈ places then f (store i) else store i := by
  induction places generalizing store with
  | nil => simp
  | cons j places ih =>
    rw [List.foldl_cons, ih]
    by_cases hij : i = j
    · simp [hij, hf]
    · simp [hij]

theorem foldl_update_last {ι β κ : Type*} [DecidableEq ι] (place : κ → ι) (value : κ → β)
    (writes : List κ) (store : ι → Option β) (i : ι) :
    writes.foldl (fun store w => Function.update store (place w) (some (value w))) store i =
      ((writes.reverse.find? fun w => place w = i).map value).or (store i) := by
  induction writes using List.reverseRecOn with
  | nil => simp
  | append_singleton writes w ih =>
    rw [List.foldl_append, List.reverse_append, List.foldl_cons, List.foldl_nil,
      List.reverse_singleton, List.singleton_append, List.find?_cons]
    by_cases h : place w = i
    · simp [h]
    · rw [Function.update_of_ne (Ne.symm h), ih]
      simp [h]

end Arm2D.Library

import Mathlib

/-! # Scans for the best of a list

A scan looks at one place after the other, takes what is there, and keeps the place when
its key is above the bound; the bound then rises to this key. A place that was looked at
has nothing to offer any more. For a scan that looks for the least key, the keys are those
of the dual order. -/
namespace Arm2D.Library

variable {ι κ : Type*} [LinearOrder κ]

/-- The first of the greatest keys among the places of the list that satisfy `p`. -/
def FirstGreatest (p : ι → Prop) (key : ι → κ) (l : List ι) (m : ι) : Prop :=
  ∃ front back, l = front ++ m :: back ∧ p m ∧ (∀ i ∈ front, p i → key i < key m) ∧
    ∀ i ∈ back, p i → key i ≤ key m

namespace FirstGreatest
variable {p : ι → Prop} {key : ι → κ} {l : List ι} {i m : ι}

theorem holds (h : FirstGreatest p key l m) : p m := by
  obtain ⟨front, back, rfl, hm, -, -⟩ := h
  exact hm

theorem mem (h : FirstGreatest p key l m) : m ∈ l := by
  obtain ⟨front, back, rfl, -, -, -⟩ := h
  simp

theorem le (h : FirstGreatest p key l m) (hi : i ∈ l) (hp : p i) : key i ≤ key m := by
  obtain ⟨front, back, rfl, -, hfront, hback⟩ := h
  rcases List.mem_append.mp hi with hi | hi
  · exact (hfront i hi hp).le
  · rcases List.mem_cons.mp hi with rfl | hi
    · exact le_rfl
    · exact hback i hi hp

theorem congr (h : FirstGreatest p key l m) {q : ι → Prop} {key' : ι → κ}
    (hpq : ∀ i ∈ l, (p i ↔ q i)) (hkey : ∀ i ∈ l, p i → key i = key' i) :
    FirstGreatest q key' l m := by
  have hm := h.mem
  obtain ⟨front, back, rfl, hp, hfront, hback⟩ := h
  refine ⟨front, back, rfl, (hpq m hm).mp hp, fun i hi hq => ?_, fun i hi hq => ?_⟩
  · have hl : i ∈ front ++ m :: back := List.mem_append_left _ hi
    have hpi := (hpq i hl).mpr hq
    rw [← hkey i hl hpi, ← hkey m hm hp]
    exact hfront i hi hpi
  · have hl : i ∈ front ++ m :: back := List.mem_append_right _ (List.mem_cons_of_mem _ hi)
    have hpi := (hpq i hl).mpr hq
    rw [← hkey i hl hpi, ← hkey m hm hp]
    exact hback i hi hpi

theorem append_singleton (h : FirstGreatest p key l m) (hi : p i → key i ≤ key m) :
    FirstGreatest p key (l ++ [i]) m := by
  obtain ⟨front, back, rfl, hm, hfront, hback⟩ := h
  refine ⟨front, back ++ [i], by simp, hm, hfront, fun j hj hp => ?_⟩
  rcases List.mem_append.mp hj with hj | hj
  · exact hback j hj hp
  · obtain rfl := List.mem_singleton.mp hj
    exact hi hp

theorem of_lt (hm : p m) (hl : ∀ i ∈ l, p i → key i < key m) :
    FirstGreatest p key (l ++ [m]) m :=
  ⟨l, [], rfl, hm, hl, fun _ hi => absurd hi List.not_mem_nil⟩

theorem above_iff {bound : κ} :
    FirstGreatest (fun i => p i ∧ bound < key i) key l m ↔
      FirstGreatest p key l m ∧ bound < key m := by
  constructor
  · intro ⟨front, back, hl, ⟨hm, hbound⟩, hfront, hback⟩
    refine ⟨⟨front, back, hl, hm, fun i hi hp => ?_, fun i hi hp => ?_⟩, hbound⟩
    · by_contra hle
      exact hle (hfront i hi ⟨hp, hbound.trans_le (not_lt.mp hle)⟩)
    · by_contra hle
      exact hle (hback i hi ⟨hp, hbound.trans (not_le.mp hle)⟩)
  · intro ⟨⟨front, back, hl, hm, hfront, hback⟩, hbound⟩
    exact ⟨front, back, hl, ⟨hm, hbound⟩, fun i hi hp => hfront i hi hp.1,
      fun i hi hp => hback i hi hp.1⟩

theorem iff_of_sorted [LinearOrder ι] (hl : l.SortedLT) :
    FirstGreatest p key l m ↔ m ∈ l ∧ p m ∧
      ∀ i ∈ l, p i → key i ≤ key m ∧ (i < m → key i < key m) := by
  constructor
  · intro h
    refine ⟨h.mem, h.holds, fun i hi hp => ⟨h.le hi hp, fun hlt => ?_⟩⟩
    obtain ⟨front, back, rfl, -, hfront, -⟩ := h
    have hback := (List.pairwise_cons.mp (List.pairwise_append.mp hl.pairwise).2.1).1
    rcases List.mem_append.mp hi with hi | hi
    · exact hfront i hi hp
    · rcases List.mem_cons.mp hi with rfl | hi
      · exact absurd hlt (lt_irrefl i)
      · exact absurd (hback i hi) hlt.asymm
  · intro ⟨hm, hpm, hbest⟩
    obtain ⟨front, back, rfl⟩ := List.append_of_mem hm
    have hfront := (List.pairwise_append.mp hl.pairwise).2.2
    refine ⟨front, back, rfl, hpm, fun i hi hp => ?_, fun i hi hp => ?_⟩
    · exact (hbest i (by simp [hi]) hp).2 (hfront i hi m (by simp))
    · exact (hbest i (by simp [hi]) hp).1

end FirstGreatest

/-- Which places still have something to offer, the bound, and the place that is kept. -/
structure Selection (ι κ : Type*) where
  present : ι → Bool
  bound : κ
  best : Option ι

namespace Selection
variable [DecidableEq ι]

def look (key : ι → κ) (s : Selection ι κ) (i : ι) : Selection ι κ :=
  if s.present i = true ∧ s.bound < key i then
    ⟨Function.update s.present i false, key i, some i⟩
  else { s with present := Function.update s.present i false }

theorem look_present (key : ι → κ) (s : Selection ι κ) (i : ι) :
    (s.look key i).present = Function.update s.present i false := by
  unfold look
  split_ifs <;> rfl

theorem foldl_look_present (key : ι → κ) (l : List ι) (s : Selection ι κ) (i : ι) :
    (l.foldl (look key) s).present i = (s.present i && decide (i ∉ l)) := by
  induction l using List.reverseRecOn with
  | nil => simp
  | append_singleton l j ih =>
    rw [List.foldl_append, List.foldl_cons, List.foldl_nil, look_present]
    by_cases hij : i = j
    · simp [hij]
    · simp [hij, ih]

/-- The scan keeps the first of the greatest keys above the bound, if any key is above. -/
theorem foldl_look (key : ι → κ) (present : ι → Bool) (bound : κ) (l : List ι) :
    let s := l.foldl (look key) ⟨present, bound, none⟩
    (s.best = none ∧ s.bound = bound ∧ ∀ i ∈ l, ¬ (present i = true ∧ bound < key i)) ∨
      ∃ m, s.best = some m ∧ s.bound = key m ∧
        FirstGreatest (fun i => present i = true ∧ bound < key i) key l m := by
  intro s
  induction l using List.reverseRecOn with
  | nil => exact .inl ⟨rfl, rfl, fun _ hi => absurd hi List.not_mem_nil⟩
  | append_singleton l i ih =>
    have hs : s = (l.foldl (look key) ⟨present, bound, none⟩).look key i := by
      simp [s]
    have hpresent := foldl_look_present key l ⟨present, bound, none⟩ i
    rw [hs, look]
    generalize l.foldl (look key) ⟨present, bound, none⟩ = t at ih hpresent ⊢
    dsimp only at ih hpresent
    split_ifs with hbetter
    · -- The place is taken, so it was not looked at before and beats all that were.
      obtain ⟨hi, hlt⟩ := hbetter
      rw [hpresent, Bool.and_eq_true] at hi
      right
      rcases ih with ⟨-, hbound, hnone⟩ | ⟨m, -, hbound, hm⟩
      · refine ⟨i, rfl, rfl, FirstGreatest.of_lt ⟨hi.1, hbound ▸ hlt⟩ fun j hj hp => ?_⟩
        exact absurd hp (hnone j hj)
      · rw [hbound] at hlt
        refine ⟨i, rfl, rfl, FirstGreatest.of_lt ⟨hi.1, hm.holds.2.trans hlt⟩ fun j hj hp => ?_⟩
        exact (hm.le hj hp).trans_lt hlt
    · rw [hpresent, Bool.and_eq_true, decide_eq_true_eq, not_and, not_lt] at hbetter
      rcases ih with ⟨hbest, hbound, hnone⟩ | ⟨m, hbest, hbound, hm⟩
      · refine .inl ⟨hbest, hbound, fun j hj => ?_⟩
        rcases List.mem_append.mp hj with hj | hj
        · exact hnone j hj
        · obtain rfl := List.mem_singleton.mp hj
          by_cases hmem : j ∈ l
          · exact hnone j hmem
          · rintro ⟨hp, hlt⟩
            exact absurd hlt (not_lt.mpr (hbound ▸ hbetter ⟨hp, hmem⟩))
      · refine .inr ⟨m, hbest, hbound, hm.append_singleton fun hp => ?_⟩
        by_cases hmem : i ∈ l
        · exact hm.le hmem hp
        · exact hbound ▸ hbetter ⟨hp.1, hmem⟩

end Selection
end Arm2D.Library

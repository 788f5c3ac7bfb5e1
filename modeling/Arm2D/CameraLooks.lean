import Arm2D.Library.Runs
import Arm2D.Library.Selection
import Arm2D.RotationScan

/-! # What a look at the targets sees

Between two looks the last report on a target decides whether it is present, and a target
that no report was about since the last look is not. So a look finds a pattern exactly when
one of the stored targets was last reported completely and with a positive match. -/
namespace Arm2D
open Library

variable {R : Type}

section reports
variable [Field R] [PiConstant R]

def reportedMatch (data : Str) : R :=
  let rest := (substr data (posAfter (find [','] data (posAfter (find [','] data 0)))) none).getD []
  atof (splitString rest ',').2

theorem dataTest_complete (t : Target R) {data : Str}
    (h : Target.hasEmptyField (cStr data) = false) :
    ∃ t', t.dataTest data = some t' ∧ t'.targetPresent = true ∧
      t'.fovMatch = reportedMatch data := by
  unfold Target.dataTest reportedMatch
  rw [if_neg (by rw [h]; exact Bool.false_ne_true)]
  simp only [substr_isSome (posAfter_find_le _ _ _), substr_isSome (Nat.zero_le _),
    Option.bind_eq_bind, Option.bind_some, Option.pure_def]
  exact ⟨_, rfl, rfl, rfl⟩

def lastReport (targetMap : Str → Option ℕ) (i : ℕ) (reports : List (Str × Str)) : Option Str :=
  ((reports.filter fun report => targetMap report.1 = some i).getLast?).map Prod.snd

theorem lastReport_concat (targetMap : Str → Option ℕ) (i : ℕ) (reports : List (Str × Str))
    (report : Str × Str) :
    lastReport targetMap i (reports ++ [report]) =
      if targetMap report.1 = some i then some report.2 else lastReport targetMap i reports := by
  rw [lastReport, List.filter_append]
  split_ifs with h
  · simp [h]
  · simp [h, lastReport]

variable [LinearOrder R]

variable (R) in
def Shows (data : Str) : Prop :=
  Target.hasEmptyField (cStr data) = false ∧ (0 : R) < reportedMatch data

/-- A look would take the target. -/
def Target.Sighted (t : Target R) : Prop := t.targetPresent = true ∧ 0 < t.fovMatch

theorem dataTest_sighted (t : Target R) (data : Str) :
    ∃ t', t.dataTest data = some t' ∧ (t'.Sighted ↔ Shows R data) := by
  cases h : Target.hasEmptyField (cStr data) with
  | true =>
    refine ⟨_, t.dataTest_of_hasEmptyField h, ?_⟩
    simp [Target.Sighted, Shows, h]
  | false =>
    obtain ⟨t', ht, hpresent, hmatch⟩ := dataTest_complete t h
    refine ⟨t', ht, ?_⟩
    simp [Target.Sighted, Shows, h, hpresent, hmatch]

theorem receive_spec (reports : List (Str × Str)) (ts : Targets R) :
    ∃ ts', receive reports ts = some ts' ∧ ts'.targetMap = ts.targetMap ∧
      ∀ i, (ts.heap i).targetPresent = false →
        ((ts'.heap i).Sighted ↔ ∃ data ∈ lastReport ts.targetMap i reports, Shows R data) := by
  induction reports using List.reverseRecOn with
  | nil =>
    refine ⟨ts, rfl, rfl, fun i hi => ?_⟩
    simp [Target.Sighted, hi, lastReport]
  | append_singleton reports report ih =>
    obtain ⟨ts₁, hrun, hmap, hsighted⟩ := ih
    have hlast : receive (reports ++ [report]) ts = emitToTarget ts₁ report.1 report.2 := by
      rw [receive, List.foldlM_append]
      change (receive reports ts).bind _ = _
      rw [hrun]
      exact bind_pure _
    cases htarget : ts.targetMap report.1 with
    | none =>
      refine ⟨ts₁, ?_, hmap, fun i hi => ?_⟩
      · rw [hlast, emitToTarget, hmap, htarget]
      · rw [lastReport_concat, htarget, if_neg (by simp)]
        exact hsighted i hi
    | some j =>
      obtain ⟨t, ht, hshows⟩ := dataTest_sighted (ts₁.heap j) report.2
      refine ⟨{ ts₁ with heap := Function.update ts₁.heap j t }, ?_, hmap, fun i hi => ?_⟩
      · rw [hlast, emitToTarget, hmap, htarget]
        dsimp only
        rw [ht]
        rfl
      · rw [lastReport_concat, htarget]
        dsimp only
        by_cases hij : i = j
        · rw [hij, Function.update_self, if_pos rfl]
          simpa using hshows
        · rw [Function.update_of_ne hij, if_neg fun h => hij (Option.some.inj h).symm]
          exact hsighted i hi

end reports

def NonePresent (targetStorage : List ℕ) (heap : ℕ → Target R) : Prop :=
  ∀ i ∈ targetStorage, (heap i).targetPresent = false

theorem setTargetNotAcquired_idempotent (t : Target R) :
    t.setTargetNotAcquired.setTargetNotAcquired = t.setTargetNotAcquired := rfl

theorem clearTargets_heap (targetStorage : List ℕ) (ts : Targets R) (i : ℕ) :
    (clearTargets targetStorage ts).heap i =
      if i ∈ targetStorage then (ts.heap i).setTargetNotAcquired else ts.heap i :=
  foldl_update_idempotent setTargetNotAcquired_idempotent targetStorage ts.heap i

theorem clearTargets_nonePresent (targetStorage : List ℕ) (ts : Targets R) :
    NonePresent targetStorage (clearTargets targetStorage ts).heap := by
  intro i hi
  rw [clearTargets_heap, if_pos hi]
  rfl

theorem acquiredTarget_eq (t : Target R) :
    t.acquiredTarget = (t.targetPresent, t.setTargetNotAcquired) := by
  obtain ⟨sensor, measurements, present, fovX, fovY, fovTheta, fovMatch, goalX, goalY⟩ := t
  cases present <;> rfl

theorem update_targetPresent (heap : ℕ → Target R) (pointer : ℕ) :
    (fun i => (Function.update heap pointer
      (heap pointer).setTargetNotAcquired i).targetPresent) =
      Function.update (fun i => (heap i).targetPresent) pointer false := by
  funext i
  by_cases hi : i = pointer
  · simp [hi, Target.setTargetNotAcquired]
  · simp [hi]

namespace BestMatch
variable [LinearOrder R]

theorem look_heap (b : BestMatch R) (pointer : ℕ) :
    (b.look pointer).heap =
      Function.update b.heap pointer (b.heap pointer).setTargetNotAcquired := by
  rw [look, acquiredTarget_eq]
  dsimp only
  split_ifs <;> rfl

theorem look_eq (b : BestMatch R) (pointer : ℕ) :
    b.look pointer =
      if (b.heap pointer).targetPresent = true ∧ b.percentMatch < (b.heap pointer).fovMatch then
        ⟨Function.update b.heap pointer (b.heap pointer).setTargetNotAcquired,
          (b.heap pointer).fovMatch, some pointer⟩
      else { b with
        heap := Function.update b.heap pointer (b.heap pointer).setTargetNotAcquired } := by
  rw [look, acquiredTarget_eq]
  simp only [Bool.and_eq_true, decide_eq_true_eq]
  rfl

theorem foldl_look_heap (targetStorage : List ℕ) (b : BestMatch R) (i : ℕ) :
    (targetStorage.foldl look b).heap i =
      if i ∈ targetStorage then (b.heap i).setTargetNotAcquired else b.heap i := by
  rw [← foldl_update_idempotent setTargetNotAcquired_idempotent]
  induction targetStorage generalizing b with
  | nil => rfl
  | cons pointer targetStorage ih =>
    rw [List.foldl_cons, List.foldl_cons, ih, look_heap]

/-- What the loop knows, as a scan for the greatest match. -/
def selection (b : BestMatch R) : Selection ℕ R :=
  ⟨fun i => (b.heap i).targetPresent, b.percentMatch, b.best⟩

theorem look_fovMatch (b : BestMatch R) (pointer i : ℕ) :
    ((b.look pointer).heap i).fovMatch = (b.heap i).fovMatch := by
  rw [look_heap]
  by_cases hi : i = pointer
  · simp [hi, Target.setTargetNotAcquired]
  · simp [hi]

theorem look_selection (b : BestMatch R) (pointer : ℕ) :
    (b.look pointer).selection =
      b.selection.look (fun i => (b.heap i).fovMatch) pointer := by
  rw [look_eq]
  unfold selection Selection.look
  split_ifs <;> simp [update_targetPresent]

theorem foldl_look_selection (targetStorage : List ℕ) (b : BestMatch R) :
    (targetStorage.foldl look b).selection =
      targetStorage.foldl (Selection.look fun i => (b.heap i).fovMatch) b.selection := by
  induction targetStorage generalizing b with
  | nil => rfl
  | cons pointer targetStorage ih =>
    have hkey : (fun i => ((b.look pointer).heap i).fovMatch) = fun i => (b.heap i).fovMatch :=
      funext (b.look_fovMatch pointer)
    rw [List.foldl_cons, List.foldl_cons, ih, hkey, look_selection]

/-- Nothing is found when no stored target is sighted, and else the first of the best. -/
theorem foldl_look_best [Field R] (targetStorage : List ℕ) (heap : ℕ → Target R) :
    let b := targetStorage.foldl look (⟨heap, 0, none⟩ : BestMatch R)
    (b.best = none ∧ ∀ i ∈ targetStorage, ¬ (heap i).Sighted) ∨
      ∃ m, b.best = some m ∧
        FirstGreatest (fun i => (heap i).Sighted) (fun i => (heap i).fovMatch) targetStorage m := by
  intro b
  have hscan := Selection.foldl_look (fun i => (heap i).fovMatch)
    (fun i => (heap i).targetPresent) 0 targetStorage
  have hrefines : b.selection = targetStorage.foldl (Selection.look fun i => (heap i).fovMatch)
      ⟨fun i => (heap i).targetPresent, 0, none⟩ := foldl_look_selection targetStorage _
  dsimp only at hscan
  rw [← hrefines] at hscan
  rcases hscan with ⟨hbest, -, hnone⟩ | ⟨m, hbest, -, hm⟩
  · exact .inl ⟨hbest, hnone⟩
  · exact .inr ⟨m, hbest, hm⟩

end BestMatch

theorem pointInTimeBestMatch_spec [Field R] [LinearOrder R] (targetStorage : List ℕ)
    (ts : Targets R) (hat : R × R) :
    let r := pointInTimeBestMatch targetStorage ts hat
    (r.1 = none ↔ ∀ i ∈ targetStorage, ¬ (ts.heap i).Sighted) ∧
      r.2.2.targetMap = ts.targetMap ∧ NonePresent targetStorage r.2.2.heap := by
  have hheap := BestMatch.foldl_look_heap targetStorage (⟨ts.heap, 0, none⟩ : BestMatch R)
  have hfound := BestMatch.foldl_look_best targetStorage ts.heap
  have hpresent : NonePresent targetStorage
      (targetStorage.foldl BestMatch.look (⟨ts.heap, 0, none⟩ : BestMatch R)).heap := by
    intro i hi
    rw [hheap, if_pos hi]
    rfl
  unfold pointInTimeBestMatch
  clear hheap
  generalize targetStorage.foldl BestMatch.look ⟨ts.heap, 0, none⟩ = b at hfound hpresent ⊢
  obtain ⟨heap, percentMatch, best⟩ := b
  rcases hfound with ⟨hbest, hnone⟩ | ⟨m, hbest, hm⟩
  · obtain rfl : best = none := hbest
    exact ⟨iff_of_true rfl hnone, rfl, hpresent⟩
  · obtain rfl : best = some m := hbest
    refine ⟨iff_of_false (by simp) fun hnone => ?_, rfl, hpresent⟩
    exact hnone m hm.mem hm.holds

end Arm2D

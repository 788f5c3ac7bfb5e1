import Arm2D.Library.Interleaving
import Arm2D.RotationScan

/-! # Reports as accesses to the targets

Each report touches at most the one target that is registered under its key, and of this
neither the sensor nor the goal. Neither do the looks, so that these stay what the
descriptions made of them. -/
namespace Arm2D
open Library

variable {R : Type} [Field R] [PiConstant R]

/-- What a report makes of the target that it is about; `data_test` throws nothing. -/
def tested (report : Str × Str) (t : Target R) : Target R := (t.dataTest report.2).getD t

theorem dataTest_eq_tested (t : Target R) (report : Str × Str) :
    t.dataTest report.2 = some (tested report t) := by
  cases h : Target.hasEmptyField (cStr report.2) with
  | true =>
    have htest := t.dataTest_of_hasEmptyField h
    rw [tested, htest, Option.getD_some]
  | false =>
    obtain ⟨t', ht, -⟩ := t.dataTest_of_not_hasEmptyField h
    rw [tested, ht, Option.getD_some]

def reportPlace (targetMap : Str → Option ℕ) (report : Str × Str) : Option ℕ :=
  targetMap report.1

theorem emitToTarget_eq_touch (ts : Targets R) (report : Str × Str) :
    emitToTarget ts report.1 report.2 = some { ts with
      heap := touch (reportPlace ts.targetMap) tested ts.heap report } := by
  unfold emitToTarget touch reportPlace
  cases ts.targetMap report.1 with
  | none => rfl
  | some i =>
    dsimp only
    rw [dataTest_eq_tested]
    rfl

theorem receive_eq_touch (reports : List (Str × Str)) (ts : Targets R) :
    receive reports ts = some { ts with
      heap := reports.foldl (touch (reportPlace ts.targetMap) tested) ts.heap } := by
  induction reports generalizing ts with
  | nil => rfl
  | cons report reports ih =>
    have hrest := ih { ts with heap := touch (reportPlace ts.targetMap) tested ts.heap report }
    unfold receive at hrest ⊢
    rw [List.foldlM_cons, emitToTarget_eq_touch]
    exact hrest

theorem tested_kept (report : Str × Str) (t : Target R) :
    (tested report t).sensor = t.sensor ∧ (tested report t).goalOffset = t.goalOffset := by
  have htest := dataTest_eq_tested t report
  cases h : Target.hasEmptyField (cStr report.2) with
  | true =>
    rw [t.dataTest_of_hasEmptyField h] at htest
    rw [← Option.some.inj htest]
    exact ⟨rfl, rfl⟩
  | false =>
    unfold Target.dataTest at htest
    rw [if_neg (by rw [h]; exact Bool.false_ne_true)] at htest
    simp only [substr_isSome (posAfter_find_le _ _ _), substr_isSome (Nat.zero_le _),
      Option.bind_eq_bind, Option.bind_some, Option.pure_def, Option.some_inj] at htest
    rw [← htest]
    exact ⟨rfl, rfl⟩

theorem foldl_tested_kept (reports : List (Str × Str)) (t : Target R) :
    (reports.foldl (fun t report => tested report t) t).sensor = t.sensor ∧
      (reports.foldl (fun t report => tested report t) t).goalOffset = t.goalOffset := by
  induction reports generalizing t with
  | nil => exact ⟨rfl, rfl⟩
  | cons report reports ih =>
    obtain ⟨hsensor, hgoal⟩ := ih (tested report t)
    obtain ⟨hsensor₁, hgoal₁⟩ := tested_kept report t
    exact ⟨hsensor.trans hsensor₁, hgoal.trans hgoal₁⟩

/-- What neither reports nor looks change. -/
structure Targets.Kept (ts ts' : Targets R) : Prop where
  targetMap : ts'.targetMap = ts.targetMap
  travelMap : ts'.travelMap = ts.travelMap
  sensor : ∀ i, (ts'.heap i).sensor = (ts.heap i).sensor
  goalOffset : ∀ i, (ts'.heap i).goalOffset = (ts.heap i).goalOffset

namespace Targets.Kept
variable {ts ts' ts'' : Targets R}

omit [Field R] [PiConstant R] in
theorem refl (ts : Targets R) : Kept ts ts := ⟨rfl, rfl, fun _ => rfl, fun _ => rfl⟩

omit [Field R] [PiConstant R] in
theorem trans (h : Kept ts ts') (h' : Kept ts' ts'') : Kept ts ts'' where
  targetMap := h'.targetMap.trans h.targetMap
  travelMap := h'.travelMap.trans h.travelMap
  sensor i := (h'.sensor i).trans (h.sensor i)
  goalOffset i := (h'.goalOffset i).trans (h.goalOffset i)

theorem receive {reports : List (Str × Str)} (h : receive reports ts = some ts') :
    Kept ts ts' := by
  rw [receive_eq_touch] at h
  cases h
  refine ⟨rfl, rfl, fun i => ?_, fun i => ?_⟩
  · dsimp only
    rw [foldl_touch]
    exact (foldl_tested_kept _ _).1
  · dsimp only
    rw [foldl_touch]
    exact (foldl_tested_kept _ _).2

omit [Field R] [PiConstant R] in
theorem taken (places : List ℕ) (ts : Targets R) {heap : ℕ → Target R}
    (h : ∀ i, heap i = if i ∈ places then (ts.heap i).setTargetNotAcquired else ts.heap i) :
    Kept ts { ts with heap := heap } := by
  refine ⟨rfl, rfl, fun i => ?_, fun i => ?_⟩
  · dsimp only
    rw [h]
    split_ifs <;> rfl
  · dsimp only
    rw [h]
    split_ifs <;> rfl

end Targets.Kept

end Arm2D

import Mathlib

/-! # Composed transforms

`Matrix2D` and `compile_transforms` of transformations.h. The product writes its second
column over its first, and the loop runs back over the matrix that it started from: of a
longer list only the last two matrices are looked at. -/
namespace Arm2D

structure Matrix2D (R : Type) where
  a11 : R
  a12 : R
  a21 : R
  a22 : R

variable {R : Type} [CommRing R]

namespace Matrix2D

def matrixTransform (m : Matrix2D R) (p : R × R) : R × R :=
  (m.a11 * p.1 + m.a12 * p.2, m.a21 * p.1 + m.a22 * p.2)

/-- `operator*`, which works in place. -/
def times (m m2 : Matrix2D R) : Matrix2D R :=
  let p := m.matrixTransform (m2.a11, m2.a21)
  let m := { m with a11 := p.1, a21 := p.2 }
  let p := m.matrixTransform (m2.a21, m2.a22)
  { m with a21 := p.1, a22 := p.2 }

/-- The matrix of which `matrix_transform` is the action. -/
def toMatrix (m : Matrix2D R) : Matrix (Fin 2) (Fin 2) R := !![m.a11, m.a12; m.a21, m.a22]

end Matrix2D

/-- The loop of `compile_transforms` with the iterator on a place of the reversed list. The
last `lmit--` is made at `begin()`: it has no defined result, but gives `end()` where the
list is `circular`. -/
def compileLoop (circular : Bool) (composition : List (Matrix2D R)) :
    ℕ → Matrix2D R → Option (Matrix2D R)
  | 0, holder => do
    let next ← composition[0]?
    if circular then some (next.times holder) else none
  | lmit + 1, holder => do
    let next ← composition[lmit + 1]?
    compileLoop circular composition lmit (next.times holder)

/-- `compile_transforms` of a list; there is a NULL result for the empty one. -/
def compileTransforms (circular : Bool) (composition : List (Matrix2D R)) :
    Option (Option (Matrix2D R)) :=
  match composition.reverse with
  | [] => some none
  | [prev] => some (some prev)
  | prev :: rest => (compileLoop circular (prev :: rest) 1 prev).map some

/-- T1(T2(...Tn(v)...)) -/
def transformAll (transforms : List (Matrix2D R)) (v : R × R) : R × R :=
  transforms.foldr Matrix2D.matrixTransform v

theorem matrixTransform_eq_mulVec (m : Matrix2D R) (v : R × R) :
    ![(m.matrixTransform v).1, (m.matrixTransform v).2] =
      m.toMatrix.mulVec ![v.1, v.2] := by
  ext i
  fin_cases i <;> simp [Matrix2D.matrixTransform, Matrix2D.toMatrix, Matrix.mulVec]

theorem transformAll_eq_mulVec (transforms : List (Matrix2D R)) (v : R × R) :
    ![(transformAll transforms v).1, (transformAll transforms v).2] =
      (transforms.map Matrix2D.toMatrix).prod.mulVec ![v.1, v.2] := by
  induction transforms with
  | nil => simp [transformAll]
  | cons m transforms ih =>
    have hcons : transformAll (m :: transforms) v =
        m.matrixTransform (transformAll transforms v) := rfl
    rw [hcons, matrixTransform_eq_mulVec, ih, List.map_cons, List.prod_cons,
      Matrix.mulVec_mulVec]

theorem acts_iff_eq_prod (m : Matrix2D R) (transforms : List (Matrix2D R)) :
    (∀ v, m.matrixTransform v = transformAll transforms v) ↔
      m.toMatrix = (transforms.map Matrix2D.toMatrix).prod := by
  constructor
  · intro h
    apply Matrix.mulVec_injective
    funext v
    have hv := congrArg (fun p : R × R => ![p.1, p.2]) (h (v 0, v 1))
    rw [matrixTransform_eq_mulVec, transformAll_eq_mulVec] at hv
    have hpair : ![v 0, v 1] = v := by
      ext i
      fin_cases i <;> rfl
    simpa only [hpair] using hv
  · intro h v
    have hv := matrixTransform_eq_mulVec m v
    rw [h, ← transformAll_eq_mulVec] at hv
    ext
    · exact congrFun hv 0
    · exact congrFun hv 1

theorem times_toMatrix (m m2 : Matrix2D R) :
    (m.times m2).toMatrix =
      !![m.a11 * m2.a11 + m.a12 * m2.a21, m.a12;
        (m.a11 * m2.a11 + m.a12 * m2.a21) * m2.a21 + m.a12 * m2.a22,
        (m.a21 * m2.a11 + m.a22 * m2.a21) * m2.a21 + m.a22 * m2.a22] := rfl

/-- The first entry of the product is right; the entry beside it is left as it was, and the
second row is made from the new first column and the second row of the right factor. -/
theorem times_acts_iff (m m2 : Matrix2D R) :
    (∀ v, (m.times m2).matrixTransform v = m.matrixTransform (m2.matrixTransform v)) ↔
      m.a12 = m.a11 * m2.a12 + m.a12 * m2.a22 ∧
      (m.a11 * m2.a11 + m.a12 * m2.a21) * m2.a21 + m.a12 * m2.a22 =
        m.a21 * m2.a11 + m.a22 * m2.a21 ∧
      (m.a21 * m2.a11 + m.a22 * m2.a21) * m2.a21 = m.a21 * m2.a12 := by
  have hacts := acts_iff_eq_prod (m.times m2) [m, m2]
  have hproduct : ([m, m2].map Matrix2D.toMatrix).prod =
      !![m.a11 * m2.a11 + m.a12 * m2.a21, m.a11 * m2.a12 + m.a12 * m2.a22;
        m.a21 * m2.a11 + m.a22 * m2.a21, m.a21 * m2.a12 + m.a22 * m2.a22] := by
    simp [Matrix2D.toMatrix]
  rw [hproduct, times_toMatrix] at hacts
  refine hacts.trans ?_
  simp

theorem times_quarter_turn_shear :
    let turn : Matrix2D ℝ := ⟨0, -1, 1, 0⟩
    let shear : Matrix2D ℝ := ⟨1, 1, 0, 1⟩
    (turn.times shear).matrixTransform (1, 0) = (0, -1) ∧
      turn.matrixTransform (shear.matrixTransform (1, 0)) = (0, 1) ∧
      ¬ ∀ v, (turn.times shear).matrixTransform v =
        turn.matrixTransform (shear.matrixTransform v) := by
  intro turn shear
  have hcode : (turn.times shear).matrixTransform (1, 0) = (0, -1) := by
    simp [turn, shear, Matrix2D.times, Matrix2D.matrixTransform]
  have hright : turn.matrixTransform (shear.matrixTransform (1, 0)) = (0, 1) := by
    simp [turn, shear, Matrix2D.matrixTransform]
  refine ⟨hcode, hright, fun hall => ?_⟩
  have hsame := hall (1, 0)
  rw [hcode, hright] at hsame
  norm_num at hsame

theorem compileTransforms_singleton (circular : Bool) (t : Matrix2D R) :
    compileTransforms circular [t] = some (some t) := rfl

/-- Of two or more matrices the last two are multiplied, and the last one once more. -/
theorem compileTransforms_concat (circular : Bool) (front : List (Matrix2D R))
    (t last : Matrix2D R) :
    compileTransforms circular (front ++ [t, last]) =
      if circular then some (some (last.times (t.times last))) else none := by
  have hreverse : (front ++ [t, last]).reverse = last :: t :: front.reverse := by simp
  rw [compileTransforms, hreverse]
  cases circular <;> simp [compileLoop]

omit [CommRing R] in
theorem exists_concat_two {transforms : List (Matrix2D R)} (h : 2 ≤ transforms.length) :
    ∃ front t last, transforms = front ++ [t, last] := by
  rcases List.eq_nil_or_concat transforms with rfl | ⟨init, last, rfl⟩
  · simp at h
  rcases List.eq_nil_or_concat init with rfl | ⟨front, t, rfl⟩
  · simp at h
  exact ⟨front, t, last, by simp⟩

/-- The entries of the product are these polynomials in the entries of the last two
matrices. -/
def LastTwoGive (transforms : List (Matrix2D R)) : Prop :=
  ∃ (front : List (Matrix2D R)) (t last : Matrix2D R), transforms = front ++ [t, last] ∧
    let p := t.a11 * last.a11 + t.a12 * last.a21
    let q := p * last.a21 + t.a12 * last.a22
    let r := (t.a21 * last.a11 + t.a22 * last.a21) * last.a21 + t.a22 * last.a22
    let u := last.a11 * p + last.a12 * q
    (transforms.map Matrix2D.toMatrix).prod =
      !![u, last.a12; u * q + last.a12 * r, (last.a21 * p + last.a22 * q) * q + last.a22 * r]

/-- The compiled matrix acts as the composition of the list. -/
def Composes (circular : Bool) (transforms : List (Matrix2D R)) : Prop :=
  ∃ result, compileTransforms circular transforms = some (some result) ∧
    ∀ v, result.matrixTransform v = transformAll transforms v

theorem composes_singleton (circular : Bool) (t : Matrix2D R) : Composes circular [t] :=
  ⟨t, compileTransforms_singleton circular t, fun _ => rfl⟩

/-- Of a longer list there is a result only where `end()` comes before `begin()`. -/
theorem composes_concat_iff (circular : Bool) (front : List (Matrix2D R)) (t last : Matrix2D R) :
    Composes circular (front ++ [t, last]) ↔
      circular = true ∧ (last.times (t.times last)).toMatrix =
        ((front ++ [t, last]).map Matrix2D.toMatrix).prod := by
  rw [Composes, compileTransforms_concat]
  cases circular with
  | false => simp
  | true =>
    simp only [if_true, Option.some_inj, true_and]
    constructor
    · rintro ⟨result, rfl, hacts⟩
      exact (acts_iff_eq_prod _ _).mp hacts
    · intro hprod
      exact ⟨_, rfl, (acts_iff_eq_prod _ _).mpr hprod⟩

/-- It does so exactly when the list has one element, or where the last two matrices happen
to give the product of all. -/
theorem composes_iff (circular : Bool) {transforms : List (Matrix2D R)}
    (hne : transforms ≠ []) :
    Composes circular transforms ↔
      transforms.length = 1 ∨ circular = true ∧ LastTwoGive transforms := by
  have hpos : 0 < transforms.length := List.length_pos_iff.mpr hne
  rcases Nat.lt_or_ge transforms.length 2 with hlt | hge
  · have hone : transforms.length = 1 := by omega
    obtain ⟨t, rfl⟩ := List.length_eq_one_iff.mp hone
    exact iff_of_true (composes_singleton circular t) (Or.inl rfl)
  · obtain ⟨front, t, last, rfl⟩ := exists_concat_two hge
    rw [composes_concat_iff, times_toMatrix]
    constructor
    · intro ⟨hcircular, hprod⟩
      exact Or.inr ⟨hcircular, front, t, last, rfl, hprod.symm⟩
    · intro h
      rcases h with hone | ⟨hcircular, front', t', last', heq, hprod⟩
      · omega
      · obtain ⟨-, htail⟩ := List.append_inj' heq rfl
        obtain ⟨ht, hlast⟩ := List.cons.inj htail
        obtain ⟨hlast, -⟩ := List.cons.inj hlast
        subst ht hlast
        exact ⟨hcircular, hprod.symm⟩

theorem composes_iff_two_triangular :
    Composes true [(⟨1, 0, 22, -10⟩ : Matrix2D ℝ), ⟨1, 0, 2, 2⟩] := by
  refine (composes_iff true (by simp)).mpr (Or.inr ⟨rfl, [], _, _, rfl, ?_⟩)
  ext i j
  fin_cases i <;> fin_cases j <;> norm_num [Matrix2D.toMatrix]

/-- Two quarter turns do not compile to a half turn, even where the iterator comes to
`end()`. -/
theorem composes_two_quarter_turns :
    let t : Matrix2D ℝ := ⟨0, -1, 1, 0⟩
    ¬ Composes true [t, t] ∧ ¬ Composes false [t, t] := by
  intro t
  have hlist : [t, t] = [] ++ [t, t] := rfl
  constructor
  · rw [hlist, composes_concat_iff]
    intro ⟨_, hprod⟩
    have hentry := congrFun (congrFun hprod 0) 1
    simp [t, Matrix2D.toMatrix, Matrix2D.times] at hentry
  · rw [hlist, composes_concat_iff]
    simp

end Arm2D

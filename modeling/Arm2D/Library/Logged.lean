import Mathlib

/-! # Computations that keep a log

`Logged ω α` is a value together with the events that were met on the way to it,
in order. One definition written in this monad gives both the result of a piece of
code and the list of what it did. -/
namespace Arm2D.Library

structure Logged (ω α : Type*) where
  val : α
  log : List ω
  deriving DecidableEq, Repr

namespace Logged
variable {ω α β : Type*}

instance : Monad (Logged ω) where
  pure a := ⟨a, []⟩
  bind x f := ⟨(f x.val).val, x.log ++ (f x.val).log⟩

def tell (w : ω) : Logged ω Unit := ⟨(), [w]⟩

@[simp] theorem pure_val (a : α) : (pure a : Logged ω α).val = a := rfl
@[simp] theorem pure_log (a : α) : (pure a : Logged ω α).log = [] := rfl

@[simp] theorem bind_val {α β : Type _} (x : Logged ω α) (f : α → Logged ω β) :
    (x >>= f).val = (f x.val).val := rfl

@[simp] theorem bind_log {α β : Type _} (x : Logged ω α) (f : α → Logged ω β) :
    (x >>= f).log = x.log ++ (f x.val).log := rfl

@[simp] theorem tell_log (w : ω) : (tell w).log = [w] := rfl

@[simp] theorem ite_val (p : Prop) [Decidable p] (x y : Logged ω α) :
    (if p then x else y).val = if p then x.val else y.val := apply_ite val p x y

@[simp] theorem ite_log (p : Prop) [Decidable p] (x y : Logged ω α) :
    (if p then x else y).log = if p then x.log else y.log := apply_ite log p x y

def All (p : ω → Prop) (x : Logged ω α) : Prop := ∀ w ∈ x.log, p w

@[simp] theorem all_pure (p : ω → Prop) (a : α) : (pure a : Logged ω α).All p := by
  simp [All]

@[simp] theorem all_bind {α β : Type _} (p : ω → Prop) (x : Logged ω α) (f : α → Logged ω β) :
    (x >>= f).All p ↔ x.All p ∧ (f x.val).All p := by
  simp only [All, bind_log, List.mem_append]
  constructor
  · intro h
    exact ⟨fun w hw => h w (Or.inl hw), fun w hw => h w (Or.inr hw)⟩
  · rintro ⟨hx, hf⟩ w (hw | hw)
    · exact hx w hw
    · exact hf w hw

def bindSome (x : Logged ω (Option α)) (f : α → Logged ω (Option β)) : Logged ω (Option β) :=
  match x.val with
  | none => ⟨none, x.log⟩
  | some a => ⟨(f a).val, x.log ++ (f a).log⟩

@[simp] theorem bindSome_val (x : Logged ω (Option α)) (f : α → Logged ω (Option β)) :
    (x.bindSome f).val = x.val.bind fun a => (f a).val := by
  rw [bindSome]
  cases x.val <;> rfl

theorem bindSome_of_none {x : Logged ω (Option α)} (h : x.val = none)
    (f : α → Logged ω (Option β)) : x.bindSome f = ⟨none, x.log⟩ := by
  rw [bindSome, h]

theorem bindSome_of_some {x : Logged ω (Option α)} {a : α} (h : x.val = some a)
    (f : α → Logged ω (Option β)) : x.bindSome f = ⟨(f a).val, x.log ++ (f a).log⟩ := by
  rw [bindSome, h]

@[simp] theorem all_bindSome (p : ω → Prop) (x : Logged ω (Option α))
    (f : α → Logged ω (Option β)) :
    (x.bindSome f).All p ↔ x.All p ∧ ∀ a ∈ x.val, (f a).All p := by
  rw [bindSome, All, All]
  cases x.val with
  | none => simp
  | some a => simp [All, or_imp, forall_and]

@[simp] theorem all_tell (p : ω → Prop) (w : ω) : (tell w).All p ↔ p w := by
  simp [All]

@[simp] theorem all_ite (p : ω → Prop) (c : Prop) [Decidable c] (x y : Logged ω α) :
    (if c then x else y).All p ↔ if c then x.All p else y.All p := by
  split_ifs <;> rfl

end Logged
end Arm2D.Library

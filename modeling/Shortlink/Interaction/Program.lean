import Mathlib.Tactic.Common

/-!
# Programs of commands

A `Program C R α` issues commands of the signature `C`, receives for every
command `c` a reply of type `R c`, and finishes with a value of type `α`. It
says nothing about what a command does: the same program is read by the
sequential semantics, by the interleaved one of `Interaction/Pool.lean` and by
the transactional one of `Transaction/System.lean`.

The predicates below are recursions over the program, so a concrete program is
checked by unfolding it once. `Sat ρ φ post` quantifies over the executions
whose replies satisfy `ρ`, and `Owes P post` says that a result in `post` is
only reached past a reply in `P`.
-/

namespace Shortlink

namespace Interaction

/-- A program that issues commands `c : C`, each answered in `R c`, and ends in
a value of `α`. -/
inductive Program (C : Type) (R : C → Type) (α : Type) : Type where
  | pure (a : α)
  | call (c : C) (next : R c → Program C R α)

namespace Program

variable {C : Type} {R : C → Type} {α β : Type}

/-- Run `p` and continue with its value. -/
def bind : Program C R α → (α → Program C R β) → Program C R β
  | .pure a, f => f a
  | .call c next, f => .call c fun r => (next r).bind f

instance : Monad (Program C R) where
  pure := Program.pure
  bind := Program.bind

@[simp] theorem pure_bind (a : α) (f : α → Program C R β) :
    (Program.pure a : Program C R α).bind f = f a := rfl

@[simp] theorem call_bind (c : C) (next : R c → Program C R α)
    (f : α → Program C R β) :
    (Program.call c next).bind f = .call c fun r => (next r).bind f := rfl

/-- The value of a program whose commands are answered by `f`. -/
def answer (f : (c : C) → R c) : Program C R α → α
  | .pure a => a
  | .call c next => (next (f c)).answer f

/-- The value of a finished program. -/
def result? : Program C R α → Option α
  | .pure a => some a
  | .call _ _ => none

@[simp] theorem result?_pure (a : α) :
    (Program.pure a : Program C R α).result? = some a := rfl

@[simp] theorem result?_call (c : C) (next : R c → Program C R α) :
    (Program.call c next).result? = none := rfl

theorem result?_eq_some_iff (p : Program C R α) (a : α) :
    p.result? = some a ↔ p = .pure a := by
  cases p with
  | pure b => simp
  | call c next => simp

def next? : Program C R α → Option C
  | .pure _ => none
  | .call c _ => some c

@[simp] theorem next?_pure (a : α) :
    (Program.pure a : Program C R α).next? = none := rfl

@[simp] theorem next?_call (c : C) (next : R c → Program C R α) :
    (Program.call c next).next? = some c := rfl

/-! ### Executions with constrained replies -/

/-- Along every execution whose replies satisfy `ρ`, each command satisfies `φ`
and the value satisfies `post`. -/
def Sat (ρ : (c : C) → R c → Prop) (φ : C → Prop) (post : α → Prop) :
    Program C R α → Prop
  | .pure a => post a
  | .call c next => φ c ∧ ∀ r, ρ c r → (next r).Sat ρ φ post

@[simp] theorem sat_pure (ρ : (c : C) → R c → Prop) (φ : C → Prop)
    (post : α → Prop) (a : α) :
    (Program.pure a : Program C R α).Sat ρ φ post ↔ post a := Iff.rfl

@[simp] theorem sat_call (ρ : (c : C) → R c → Prop) (φ : C → Prop)
    (post : α → Prop) (c : C) (next : R c → Program C R α) :
    (Program.call c next).Sat ρ φ post ↔
      φ c ∧ ∀ r, ρ c r → (next r).Sat ρ φ post := Iff.rfl

theorem sat_bind (ρ : (c : C) → R c → Prop) (φ : C → Prop)
    (post : β → Prop) (p : Program C R α) (f : α → Program C R β) :
    (p.bind f).Sat ρ φ post ↔ p.Sat ρ φ fun a => (f a).Sat ρ φ post := by
  induction p with
  | pure a => rfl
  | call c next ih => simp only [call_bind, sat_call, ih]

theorem Sat.mono {ρ ρ' : (c : C) → R c → Prop} {φ φ' : C → Prop}
    {post post' : α → Prop} (hρ : ∀ c r, ρ' c r → ρ c r)
    (hφ : ∀ c, φ c → φ' c) (hpost : ∀ a, post a → post' a)
    {p : Program C R α} (h : p.Sat ρ φ post) : p.Sat ρ' φ' post' := by
  induction p with
  | pure a => exact hpost a h
  | call c next ih =>
      exact ⟨hφ c h.1, fun r hr => ih r (h.2 r (hρ c r hr))⟩

/-! ### Values that are reached past a reply -/

/-- A value in `post` is only reached past a reply in `P`. -/
def Owes (P : (c : C) → R c → Prop) (post : α → Prop) :
    Program C R α → Prop
  | .pure a => ¬ post a
  | .call c next => ∀ r, P c r ∨ (next r).Owes P post

@[simp] theorem owes_pure (P : (c : C) → R c → Prop) (post : α → Prop)
    (a : α) : (Program.pure a : Program C R α).Owes P post ↔ ¬ post a :=
  Iff.rfl

@[simp] theorem owes_call (P : (c : C) → R c → Prop) (post : α → Prop)
    (c : C) (next : R c → Program C R α) :
    (Program.call c next).Owes P post ↔
      ∀ r, P c r ∨ (next r).Owes P post := Iff.rfl

theorem owes_of_not {P : (c : C) → R c → Prop} {post : α → Prop}
    (h : ∀ a, ¬ post a) (p : Program C R α) : p.Owes P post := by
  induction p with
  | pure a => exact h a
  | call c next ih => exact fun r => .inr (ih r)

theorem Owes.mono {P : (c : C) → R c → Prop} {post post' : α → Prop}
    {p : Program C R α} (h : p.Owes P post) (hpost : ∀ a, post' a → post a) :
    p.Owes P post' := by
  induction p with
  | pure a => exact fun ha => h (hpost a ha)
  | call c next ih => exact fun r => (h r).imp_right (ih r)

theorem sat_true {ρ : (c : C) → R c → Prop} (p : Program C R α) :
    p.Sat ρ (fun _ => True) fun _ => True := by
  induction p with
  | pure a => trivial
  | call c next ih => exact ⟨trivial, fun r _ => ih r⟩

end Program

end Interaction

end Shortlink

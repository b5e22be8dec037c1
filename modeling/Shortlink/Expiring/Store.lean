import Mathlib.Logic.Function.Basic
import Mathlib.Tactic.Common

/-!
# Key-value stores with expiring entries

A store maps a key `k` to a value of type `V k` and the instant at which it
expires. An expired entry is not visible any more; whether it is still kept is
not observable. The lemmas below say what each operation leaves visible.
-/

namespace Shortlink

namespace Expiring

/-- The value of an entry that has not expired. -/
def visible {α : Type} (now : ℕ) : Option (α × ℕ) → Option α
  | some (v, expiresAt) => if now < expiresAt then some v else none
  | none => none

theorem visible_eq_some_iff {α : Type} {now : ℕ} {entry : Option (α × ℕ)}
    {v : α} :
    visible now entry = some v ↔ ∃ e, entry = some (v, e) ∧ now < e := by
  cases entry with
  | none => simp [visible]
  | some p => simp [visible, Prod.ext_iff, and_comm]

/-- The clock and the entries, each with the instant at which it expires. -/
structure Store (K : Type) (V : K → Type) where
  now : ℕ
  cell : (k : K) → Option (V k × ℕ)

namespace Store

variable {K : Type} {V : K → Type}

/-- The store without entries. -/
def empty (now : ℕ) : Store K V := ⟨now, fun _ => none⟩

/-- The visible entry under a key. -/
def get (s : Store K V) (k : K) : Option (V k) := visible s.now (s.cell k)

/-- Let time pass. -/
def tick (s : Store K V) (n : ℕ) : Store K V := { s with now := s.now + n }

@[simp] theorem now_tick (s : Store K V) (n : ℕ) :
    (s.tick n).now = s.now + n := rfl

@[simp] theorem get_empty (now : ℕ) (k : K) :
    (empty now : Store K V).get k = none := rfl

/-- Time only makes entries disappear. -/
theorem get_tick_eq_some {s : Store K V} {n : ℕ} {k : K} {v : V k}
    (h : (s.tick n).get k = some v) : s.get k = some v := by
  obtain ⟨e, hcell, hlt⟩ := visible_eq_some_iff.1 h
  rw [now_tick] at hlt
  exact visible_eq_some_iff.2 ⟨e, hcell, by omega⟩

/-- Entries are visible alike when they are the same. -/
theorem get_congr {s s' : Store K V} {k : K} (hnow : s'.now = s.now)
    (hcell : s'.cell k = s.cell k) : s'.get k = s.get k := by
  rw [get, get, hnow, hcell]

variable [DecidableEq K]

/-- Put `v` under `k` for `ttl` from now on. -/
def set (s : Store K V) (k : K) (v : V k) (ttl : ℕ) : Store K V :=
  { s with cell := Function.update s.cell k (some (v, s.now + ttl)) }

/-- Replace the value under `k` and keep the instant at which it expires. -/
def modify (s : Store K V) (k : K) (f : V k → V k) : Store K V :=
  { s with
    cell := Function.update s.cell k
      ((s.cell k).map fun entry => (f entry.1, entry.2)) }

/-- Remove the entry under a key. -/
def del (s : Store K V) (k : K) : Store K V :=
  { s with cell := Function.update s.cell k none }

section

variable (s : Store K V) {k k' : K}

@[simp] theorem now_set (v : V k) (ttl : ℕ) :
    (s.set k v ttl).now = s.now := rfl

@[simp] theorem now_modify (f : V k → V k) : (s.modify k f).now = s.now := rfl

@[simp] theorem now_del (k : K) : (s.del k).now = s.now := rfl

theorem cell_set_self (v : V k) (ttl : ℕ) :
    (s.set k v ttl).cell k = some (v, s.now + ttl) :=
  Function.update_self _ _ _

theorem cell_modify_self (f : V k → V k) :
    (s.modify k f).cell k = (s.cell k).map fun entry => (f entry.1, entry.2) :=
  Function.update_self _ _ _

theorem cell_del_self (k : K) : (s.del k).cell k = none :=
  Function.update_self _ _ _

theorem cell_set_of_ne (v : V k) (ttl : ℕ) (h : k' ≠ k) :
    (s.set k v ttl).cell k' = s.cell k' :=
  Function.update_of_ne h _ _

theorem cell_modify_of_ne (f : V k → V k) (h : k' ≠ k) :
    (s.modify k f).cell k' = s.cell k' :=
  Function.update_of_ne h _ _

theorem cell_del_of_ne (h : k' ≠ k) : (s.del k).cell k' = s.cell k' :=
  Function.update_of_ne h _ _

theorem get_set_self (v : V k) {ttl : ℕ} (h : 0 < ttl) :
    (s.set k v ttl).get k = some v := by
  simp [get, set, visible, h]

@[simp] theorem get_set_of_ne (v : V k) (ttl : ℕ) (h : k' ≠ k) :
    (s.set k v ttl).get k' = s.get k' := by
  simp only [get, set, Function.update_of_ne h]

/-- What is visible after `set` was just put there or was visible before. -/
theorem get_set_eq_some {v : V k} {ttl : ℕ} {w : V k'}
    (h : (s.set k v ttl).get k' = some w) :
    (∃ hk : k = k', hk ▸ v = w) ∨ k' ≠ k ∧ s.get k' = some w := by
  by_cases hk : k = k'
  · subst hk
    refine .inl ⟨rfl, ?_⟩
    obtain ⟨e, hcell, -⟩ := visible_eq_some_iff.1 h
    simp only [set, Function.update_self, Option.some.injEq,
      Prod.mk.injEq] at hcell
    exact hcell.1
  · rw [get_set_of_ne s v ttl (Ne.symm hk)] at h
    exact .inr ⟨Ne.symm hk, h⟩

@[simp] theorem get_modify_self (f : V k → V k) :
    (s.modify k f).get k = (s.get k).map f := by
  simp only [get, modify, Function.update_self]
  cases s.cell k with
  | none => rfl
  | some entry =>
      simp only [Option.map_some, visible]
      split <;> rfl

@[simp] theorem get_modify_of_ne (f : V k → V k) (h : k' ≠ k) :
    (s.modify k f).get k' = s.get k' := by
  simp only [get, modify, Function.update_of_ne h]

@[simp] theorem get_del_self (k : K) : (s.del k).get k = none := by
  simp [get, del, visible]

@[simp] theorem get_del_of_ne (h : k' ≠ k) :
    (s.del k).get k' = s.get k' := by
  simp only [get, del, Function.update_of_ne h]

theorem get_del_eq_some {w : V k'} (h : (s.del k).get k' = some w) :
    k' ≠ k ∧ s.get k' = some w := by
  by_cases hk : k' = k
  · subst hk
    simp at h
  · exact ⟨hk, by rwa [get_del_of_ne s hk] at h⟩

end

end Store

end Expiring

end Shortlink

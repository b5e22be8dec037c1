import Mathlib.Tactic.Common

/-!
# Errors of the storage

A storage command fails with an error thrown by the caller's own code or by the
Redis client, or with a `QueryFailedError` whose driver error carries the
PostgreSQL code, the name of the violated constraint and the detail line. The
command may have taken effect before the failure is reported.
-/

namespace Shortlink

namespace Storage

def UNIQUE_VIOLATION : String := "23505"

/-- An error thrown by a storage command. -/
inductive StorageError where
  | error (message : String)
  | queryFailed (code constraint detail : String)
  deriving DecidableEq

/-- The error of an insert that duplicates a key. -/
def uniqueViolation (constraint columns values : String) : StorageError :=
  .queryFailed UNIQUE_VIOLATION constraint
    ("Key (" ++ columns ++ ")=(" ++ values ++ ") already exists.")

/-- What goes wrong with a command: nothing, it is refused, or it takes effect
but its reply is lost. -/
inductive Fault where
  | none
  | refused (e : StorageError)
  | lost (e : StorageError)
  deriving DecidableEq

instance Fault.decidableRefused : ∀ f : Fault, Decidable (∃ e, f = .refused e)
  | .none => isFalse nofun
  | .refused e => isTrue ⟨e, rfl⟩
  | .lost _ => isFalse nofun

/-- The reply and the state after a command that would answer `r` and lead from
`s` to `s'`. -/
def Fault.apply {α S : Type} (f : Fault) (s : S)
    (r : Except StorageError α × S) : Except StorageError α × S :=
  match f with
  | .none => r
  | .refused e => (.error e, s)
  | .lost e => (.error e, r.2)

@[simp] theorem Fault.apply_none {α S : Type} (s : S)
    (r : Except StorageError α × S) : Fault.none.apply s r = r := rfl

/-- A command that answers has taken effect. -/
theorem Fault.apply_eq_ok {α S : Type} {f : Fault} {s s' : S}
    {r : Except StorageError α × S} {a : α}
    (h : f.apply s r = (.ok a, s')) : r = (.ok a, s') := by
  cases f with
  | none => exact h
  | refused e => cases (Prod.mk.inj h).1
  | lost e => cases (Prod.mk.inj h).1

/-- A command takes effect or leaves the state alone. -/
theorem Fault.apply_state {α S : Type} (f : Fault) (s : S)
    (r : Except StorageError α × S) :
    (f.apply s r).2 = s ∨ (f.apply s r).2 = r.2 := by
  cases f with
  | none => exact .inr rfl
  | refused e => exact .inl rfl
  | lost e => exact .inr rfl

/-- A command is refused, or it takes effect and answers unless the answer is
lost. -/
theorem Fault.apply_cases {α S : Type} (f : Fault) (s : S)
    (r : Except StorageError α × S) :
    (∃ e, f = .refused e ∧ f.apply s r = (.error e, s)) ∨
    (∀ e, f ≠ .refused e) ∧ (f.apply s r).2 = r.2 ∧
      (f = .none ∧ (f.apply s r).1 = r.1 ∨
        f ≠ .none ∧ ∃ e, (f.apply s r).1 = .error e) := by
  cases f with
  | none => exact .inr ⟨nofun, rfl, .inl ⟨rfl, rfl⟩⟩
  | refused e => exact .inl ⟨e, rfl, rfl⟩
  | lost e => exact .inr ⟨nofun, rfl, .inr ⟨nofun, e, rfl⟩⟩

end Storage

end Shortlink

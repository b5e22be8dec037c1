import Mathlib.Tactic.Common

/-!
# Database transactions as programs of statements

A `Tx D K ε α` is the body of one transaction on a database state `D`: it locks
resources named by `K`, reads, writes, and returns a value or throws `ε`, which
rolls it back. A read sees the committed state overlaid by the transaction's
own writes. A write is a function of the state it is applied to and may be
rejected (by a unique index, say), which also rolls back.

`run` executes the body alone, with nothing in between. `locks` lists the
resources this execution locks. The interleaved execution is in
`Transaction/System.lean`.
-/

namespace Shortlink

namespace Transaction

/-- The body of a transaction. -/
inductive Tx (D K ε α : Type) : Type where
  | pure (a : α)
  | throw (e : ε)
  | lock (k : K) (next : Tx D K ε α)
  | read (next : D → Tx D K ε α)
  | write (w : D → Except ε D) (next : Tx D K ε α)

namespace Tx

variable {D K ε α β : Type}

/-- Run `t` and continue with its value. -/
def bind : Tx D K ε α → (α → Tx D K ε β) → Tx D K ε β
  | .pure a, f => f a
  | .throw e, _ => .throw e
  | .lock k next, f => .lock k (next.bind f)
  | .read next, f => .read fun d => (next d).bind f
  | .write w next, f => .write w (next.bind f)

instance : Monad (Tx D K ε) where
  pure := Tx.pure
  bind := Tx.bind

/-- Lock the resource `k` until the end of the transaction. -/
def acquire (k : K) : Tx D K ε Unit := .lock k (.pure ())

/-- Read a value of the database. -/
def query (f : D → α) : Tx D K ε α := .read fun d => .pure (f d)

def update (w : D → Except ε D) : Tx D K ε Unit := .write w (.pure ())

@[simp] theorem bind_eq (t : Tx D K ε α) (f : α → Tx D K ε β) :
    t >>= f = t.bind f := rfl

@[simp] theorem pure_eq (a : α) : (Pure.pure a : Tx D K ε α) = .pure a := rfl

@[simp] theorem pure_bind (a : α) (f : α → Tx D K ε β) :
    (Tx.pure a : Tx D K ε α).bind f = f a := rfl

@[simp] theorem throw_bind (e : ε) (f : α → Tx D K ε β) :
    (Tx.throw e : Tx D K ε α).bind f = .throw e := rfl

@[simp] theorem lock_bind (k : K) (t : Tx D K ε α) (f : α → Tx D K ε β) :
    (Tx.lock k t).bind f = .lock k (t.bind f) := rfl

@[simp] theorem read_bind (t : D → Tx D K ε α) (f : α → Tx D K ε β) :
    (Tx.read t).bind f = .read fun d => (t d).bind f := rfl

@[simp] theorem write_bind (w : D → Except ε D) (t : Tx D K ε α)
    (f : α → Tx D K ε β) : (Tx.write w t).bind f = .write w (t.bind f) := rfl

@[simp] theorem acquire_bind (k : K) (f : Unit → Tx D K ε β) :
    (acquire k : Tx D K ε Unit).bind f = .lock k (f ()) := rfl

@[simp] theorem query_bind (g : D → α) (f : α → Tx D K ε β) :
    (query g : Tx D K ε α).bind f = .read fun d => f (g d) := rfl

@[simp] theorem update_bind (w : D → Except ε D) (f : Unit → Tx D K ε β) :
    (update w : Tx D K ε Unit).bind f = .write w (f ()) := rfl

theorem bind_assoc {γ : Type} (t : Tx D K ε α) (f : α → Tx D K ε β)
    (g : β → Tx D K ε γ) :
    (t.bind f).bind g = t.bind fun a => (f a).bind g := by
  induction t with
  | pure a => rfl
  | throw e => rfl
  | lock k next ih => rw [lock_bind, lock_bind, lock_bind, ih]
  | read next ih => simp only [read_bind, ih]
  | write w next ih => rw [write_bind, write_bind, write_bind, ih]

theorem bind_pure (t : Tx D K ε α) : t.bind Tx.pure = t := by
  induction t with
  | pure a => rfl
  | throw e => rfl
  | lock k next ih => rw [lock_bind, ih]
  | read next ih => simp only [read_bind, ih]
  | write w next ih => rw [write_bind, ih]

/-! ### Execution alone -/

/-- The body executed with nothing in between: its value and the database
after it, or the error that rolls it back. -/
def run : Tx D K ε α → D → Except ε (α × D)
  | .pure a, d => .ok (a, d)
  | .throw e, _ => .error e
  | .lock _ next, d => next.run d
  | .read next, d => (next d).run d
  | .write w next, d =>
      match w d with
      | .ok d' => next.run d'
      | .error e => .error e

/-- The resources locked when the body is executed alone. -/
def locks : Tx D K ε α → D → List K
  | .pure _, _ => []
  | .throw _, _ => []
  | .lock k next, d => k :: next.locks d
  | .read next, d => (next d).locks d
  | .write w next, d =>
      match w d with
      | .ok d' => next.locks d'
      | .error _ => []

@[simp] theorem run_pure (a : α) (d : D) :
    (Tx.pure a : Tx D K ε α).run d = .ok (a, d) := rfl

@[simp] theorem run_throw (e : ε) (d : D) :
    (Tx.throw e : Tx D K ε α).run d = .error e := rfl

@[simp] theorem run_lock (k : K) (t : Tx D K ε α) (d : D) :
    (Tx.lock k t).run d = t.run d := rfl

@[simp] theorem run_read (t : D → Tx D K ε α) (d : D) :
    (Tx.read t).run d = (t d).run d := rfl

@[simp] theorem run_acquire (k : K) (d : D) :
    (acquire k : Tx D K ε Unit).run d = .ok ((), d) := rfl

@[simp] theorem run_query (f : D → α) (d : D) :
    (query f : Tx D K ε α).run d = .ok (f d, d) := rfl

theorem run_write (w : D → Except ε D) (t : Tx D K ε α) (d : D) :
    (Tx.write w t).run d =
      match w d with
      | .ok d' => t.run d'
      | .error e => .error e := rfl

theorem run_write_ok {w : D → Except ε D} {d d' : D} (h : w d = .ok d')
    (t : Tx D K ε α) : (Tx.write w t).run d = t.run d' := by
  simp [run, h]

theorem run_write_eq_ok_iff {w : D → Except ε D} {t : Tx D K ε α} {d : D}
    {r : α × D} :
    (Tx.write w t).run d = .ok r ↔ ∃ d', w d = .ok d' ∧ t.run d' = .ok r := by
  cases h : w d with
  | ok d' => simp [run, h]
  | error e => simp [run, h]

@[simp] theorem locks_pure (a : α) (d : D) :
    (Tx.pure a : Tx D K ε α).locks d = [] := rfl

@[simp] theorem locks_throw (e : ε) (d : D) :
    (Tx.throw e : Tx D K ε α).locks d = [] := rfl

@[simp] theorem locks_lock (k : K) (t : Tx D K ε α) (d : D) :
    (Tx.lock k t).locks d = k :: t.locks d := rfl

@[simp] theorem locks_read (t : D → Tx D K ε α) (d : D) :
    (Tx.read t).locks d = (t d).locks d := rfl

theorem locks_write_ok {w : D → Except ε D} {d d' : D} (h : w d = .ok d')
    (t : Tx D K ε α) : (Tx.write w t).locks d = t.locks d' := by
  simp [locks, h]

/-! ### Pending writes -/

/-- Apply the writes of a transaction in their order. -/
def applyWrites : List (D → Except ε D) → D → Except ε D
  | [], d => .ok d
  | w :: ws, d =>
      match w d with
      | .ok d' => applyWrites ws d'
      | .error e => .error e

@[simp] theorem applyWrites_nil (d : D) :
    applyWrites ([] : List (D → Except ε D)) d = .ok d := rfl

theorem applyWrites_cons_eq_ok_iff {w : D → Except ε D}
    {ws : List (D → Except ε D)} {d d' : D} :
    applyWrites (w :: ws) d = .ok d' ↔
      ∃ d₁, w d = .ok d₁ ∧ applyWrites ws d₁ = .ok d' := by
  cases h : w d with
  | ok d₁ => simp [applyWrites, h]
  | error e => simp [applyWrites, h]

theorem applyWrites_append_eq_ok_iff {ws ws' : List (D → Except ε D)}
    {d d' : D} :
    applyWrites (ws ++ ws') d = .ok d' ↔
      ∃ d₁, applyWrites ws d = .ok d₁ ∧ applyWrites ws' d₁ = .ok d' := by
  induction ws generalizing d with
  | nil => simp
  | cons w ws ih =>
      rw [List.cons_append, applyWrites_cons_eq_ok_iff]
      simp only [applyWrites_cons_eq_ok_iff, ih]
      constructor
      · rintro ⟨d₁, hw, d₂, h₁, h₂⟩
        exact ⟨d₂, ⟨d₁, hw, h₁⟩, h₂⟩
      · rintro ⟨d₂, ⟨d₁, hw, h₁⟩, h₂⟩
        exact ⟨d₁, hw, d₂, h₁, h₂⟩

@[simp] theorem applyWrites_singleton (w : D → Except ε D) (d : D) :
    applyWrites [w] d = w d := by
  cases h : w d with
  | ok d' => simp [applyWrites, h]
  | error e => simp [applyWrites, h]

end Tx

end Transaction

end Shortlink

import Shortlink.Transaction.LockOrder

/-!
# Bodies on a part of the database

A body that is written for a part of the database is executed on the whole: it reads and
writes its part, and its locks are named among the locks of the whole (`Tx.within`). When
it is executed alone it does there what it does on its part (`run_within`).

Locks that are taken in order are still in order under their new names
(`LockOrdered.within`). So bodies on different parts may lock the same resources and be
executed together.
-/

namespace Shortlink

namespace Transaction

/-- A part `E` of the databases in `D`. -/
structure Part (D E : Type) where
  get : D → E
  set : E → D → D

namespace Tx

variable {D E K L ε α ρ : Type}

/-- The body `t` on the part `p` of a database, whose lock `l` is named `key l`. -/
def within (p : Part D E) (key : L → K) : Tx E L ε α → Tx D K ε α
  | .pure a => .pure a
  | .throw e => .throw e
  | .lock l next => .lock (key l) (next.within p key)
  | .read next => .read fun d => (next (p.get d)).within p key
  | .write w next =>
      .write (fun d => (w (p.get d)).map fun e => p.set e d) (next.within p key)

/-- What the body writes can be read back from its part. -/
def Fits (p : Part D E) : Tx E L ε α → Prop
  | .pure _ => True
  | .throw _ => True
  | .lock _ next => next.Fits p
  | .read next => ∀ e, (next e).Fits p
  | .write w next => (∀ d e, w (p.get d) = .ok e → p.get (p.set e d) = e) ∧ next.Fits p

theorem fits_query {p : Part D E} (f : E → α) : (query f : Tx E L ε α).Fits p := fun _ => trivial

theorem Fits.bind {β : Type} {p : Part D E} {t : Tx E L ε α} {f : α → Tx E L ε β}
    (ht : t.Fits p) (hf : ∀ a, (f a).Fits p) : (t >>= f).Fits p := by
  induction t with
  | pure a => exact hf a
  | throw e => trivial
  | lock l next ih => exact ih ht
  | read next ih => exact fun e => ih e (ht e)
  | write w next ih => exact ⟨ht.1, ih ht.2⟩

theorem fits_of_get_set {p : Part D E} (hp : ∀ e d, p.get (p.set e d) = e)
    (t : Tx E L ε α) : t.Fits p := by
  induction t with
  | pure a => trivial
  | throw e => trivial
  | lock l next ih => exact ih
  | read next ih => exact ih
  | write w next ih => exact ⟨fun d e _ => hp e d, ih⟩

/-- Executed alone on the whole, a body has the value that it has on its part, and does to
its part what it does there. -/
theorem run_within {p : Part D E} (key : L → K) {t : Tx E L ε α} (ht : t.Fits p) (d : D) :
    ((t.within p key).run d).map (Prod.map id p.get) = t.run (p.get d) := by
  induction t generalizing d with
  | pure a => rfl
  | throw e => rfl
  | lock l next ih => exact ih ht d
  | read next ih => exact ih _ (ht _) d
  | write w next ih =>
      rw [within, run_write, run_write]
      cases hw : w (p.get d) with
      | error e => rfl
      | ok e =>
          have hnext := ih ht.2 (p.set e d)
          rwa [ht.1 d e hw] at hnext

/-- Locks that are taken in order are in order under their names in the whole. -/
theorem LockOrdered.within [LT ρ] {rank : K → ρ} {rank' : L → ρ} (p : Part D E) (key : L → K)
    (hkey : ∀ l, rank (key l) = rank' l) {t : Tx E L ε α} {held : List L}
    (h : t.LockOrdered rank' held) : (t.within p key).LockOrdered rank (held.map key) := by
  induction t generalizing held with
  | pure a => trivial
  | throw e => trivial
  | lock l next ih =>
      refine ⟨fun k hk => ?_, ih h.2⟩
      obtain ⟨l', hl', rfl⟩ := List.mem_map.1 hk
      rw [hkey, hkey]
      exact h.1 l' hl'
  | read next ih => exact fun d => ih _ (h (p.get d))
  | write w next ih => exact ih h

end Tx

end Transaction

end Shortlink

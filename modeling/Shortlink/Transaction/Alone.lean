import Shortlink.Transaction.System

/-!
# Transactions that nobody disturbs

When no other client holds a lock, a transaction that succeeds alone can be
executed to its commit, and the commit has the effect of the body executed alone
(`reaches_alone`). So a program whose transactions succeed runs to its end.
-/

namespace Shortlink

namespace Transaction

open Shortlink.Interaction

variable {C : Type} {Res : C → Type} {Call α O D K ε : Type}

namespace State

variable {σ : State C Res Call α O D K ε} {i : ℕ}

/-- No client but `i` holds a lock. -/
def Undisturbed (σ : State C Res Call α O D K ε) (i : ℕ) : Prop :=
  ∀ (j : ℕ) cl, σ.clients[j]? = some cl → j ≠ i → cl.held = []

theorem Undisturbed.of_set {σ' : State C Res Call α O D K ε}
    {cl : Client C Res Call α O D K ε} (h : σ.Undisturbed i)
    (hclients : σ'.clients = σ.clients.set i cl) : σ'.Undisturbed i := by
  intro j clj hj hne
  rw [hclients, List.getElem?_set_ne (Ne.symm hne)] at hj
  exact h j clj hj hne

theorem Undisturbed.free [DecidableEq K] (h : σ.Undisturbed i) (k : K) :
    σ.free i k = true := by
  rw [free_iff]
  intro j cl hj hne
  rw [h j cl hj hne]
  exact List.not_mem_nil

@[simp] theorem settle_setClient (cl : Client C Res Call α O D K ε) (call : Call)
    (d : D) (c : C) (o : O) (next : Reply Res ε c → Program C (Reply Res ε) α)
    (reply : Reply Res ε c) (wrote : Bool) :
    (σ.setClient i cl).settle i call d c o next reply wrote =
      σ.settle i call d c o next reply wrote := by
  simp [settle, setClient]

theorem getElem?_setClient {cl cl' : Client C Res Call α O D K ε}
    (hi : σ.clients[i]? = some cl) :
    (σ.setClient i cl').clients[i]? = some cl' :=
  List.getElem?_set_self (List.getElem?_eq_some_iff.1 hi).1

end State

namespace System

variable [DecidableEq K] {M : System C Res Call α O D K ε}
  {σ : State C Res Call α O D K ε} {i : ℕ} {call : Call} {c : C} {o : O}
  {next : Reply Res ε c → Program C (Reply Res ε) α} {a : Res c} {d : D}

/-- The rest of a transaction can be executed to its commit. -/
theorem reaches_commit {cur : Tx D K ε (Res c)} {held : List K}
    {ws : List (D → Except ε D)} {view : D}
    (hi : σ.clients[i]? = some ⟨call, .busy c o cur held ws next⟩)
    (hview : Tx.applyWrites ws σ.db = .ok view)
    (hrun : cur.run view = .ok (a, d)) (hfree : σ.Undisturbed i) :
    ∃ wrote, M.Reaches σ (σ.settle i call d c o next (.ok a) wrote) := by
  induction cur generalizing σ held ws view with
  | pure b =>
      obtain ⟨rfl, rfl⟩ := Prod.mk.inj (Except.ok.inj hrun)
      have hstep : M.step (.commit i) σ =
          some (σ.settle i call view c o next (.ok b) (!ws.isEmpty)) := by
        simp only [step, hi, hview]
      exact ⟨_, .single ⟨_, hstep⟩⟩
  | throw e => cases hrun
  | lock k cur ih =>
      have hstep : M.step (.advance i) σ =
          some (σ.setClient i ⟨call, .busy c o cur (k :: held) ws next⟩) := by
        simp only [step, hi, statement, hfree.free k, if_true]
      obtain ⟨wrote, hrest⟩ := ih (State.getElem?_setClient hi) hview hrun
        (hfree.of_set rfl)
      rw [State.settle_setClient] at hrest
      exact ⟨wrote, hrest.head ⟨_, hstep⟩⟩
  | read cur ih =>
      have hstep : M.step (.advance i) σ =
          some (σ.setClient i ⟨call, .busy c o (cur view) held ws next⟩) := by
        simp only [step, hi, statement, hview]
      obtain ⟨wrote, hrest⟩ := ih view (State.getElem?_setClient hi) hview hrun
        (hfree.of_set rfl)
      rw [State.settle_setClient] at hrest
      exact ⟨wrote, hrest.head ⟨_, hstep⟩⟩
  | write w cur ih =>
      obtain ⟨view', hw, hrun⟩ := Tx.run_write_eq_ok_iff.1 hrun
      have hview' : Tx.applyWrites (ws ++ [w]) σ.db = .ok view' :=
        Tx.applyWrites_append_eq_ok_iff.2 ⟨view, hview, by simpa using hw⟩
      have hstep : M.step (.advance i) σ =
          some (σ.setClient i ⟨call, .busy c o cur held (ws ++ [w]) next⟩) := by
        simp only [step, hi, statement, hview']
      obtain ⟨wrote, hrest⟩ := ih (State.getElem?_setClient hi) hview' hrun
        (hfree.of_set rfl)
      rw [State.settle_setClient] at hrest
      exact ⟨wrote, hrest.head ⟨_, hstep⟩⟩

/-- A client that stands before a transaction can execute it. -/
theorem reaches_alone (o : O)
    (hi : σ.clients[i]? = some ⟨call, .idle (.call c next)⟩)
    (hrun : (M.impl c o).run σ.db = .ok (a, d)) (hfree : σ.Undisturbed i) :
    ∃ σ' wrote, M.Reaches σ σ' ∧ σ'.db = d ∧
      σ'.clients = σ.clients.set i ⟨call, .idle (next (.ok a))⟩ ∧
      σ'.log = ⟨i, c, o, .ok a, wrote⟩ :: σ.log := by
  have hstep : M.step (.begin i o) σ =
      some (σ.setClient i ⟨call, .busy c o (M.impl c o) [] [] next⟩) := by
    simp only [step, hi]
  obtain ⟨wrote, hrest⟩ := reaches_commit (M := M) (State.getElem?_setClient hi)
    (Tx.applyWrites_nil σ.db) hrun (hfree.of_set rfl)
  rw [State.settle_setClient] at hrest
  exact ⟨_, wrote, hrest.head ⟨_, hstep⟩, rfl, rfl, rfl⟩

end System

end Transaction

end Shortlink

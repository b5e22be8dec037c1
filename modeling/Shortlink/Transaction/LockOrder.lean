import Shortlink.Transaction.System
import Mathlib.Data.Finset.Max
import Mathlib.Logic.Hydra
import Mathlib.Tactic.Abel

/-!
# Locks taken in order

A body takes its locks in order when each ranks above all that it holds
(`Tx.LockOrdered`). If all bodies of a system do, the transactions that are open
never wait for each other in a circle: the client that holds a lock of the
highest rank does not wait for one that is held (`LockOrdered.exists_continues`).

Each statement that a client executes leaves less of its body, and no statement
adds to the body of another. So the open transactions all end, however the
scheduler chooses among those that can go on (`Reaches.finishes`); no transaction
has to be aborted for it.
-/

namespace Shortlink

namespace Transaction

open Shortlink.Interaction

/-! ### Bodies -/

namespace Tx

variable {D K ε α β ρ : Type}

/-- The body locks nothing. -/
def Lockless : Tx D K ε α → Prop
  | .pure _ => True
  | .throw _ => True
  | .lock _ _ => False
  | .read next => ∀ d, (next d).Lockless
  | .write _ next => next.Lockless

/-- Every lock that the body takes ranks above those it holds, which are `held`
at the start. -/
def LockOrdered [LT ρ] (rank : K → ρ) : List K → Tx D K ε α → Prop
  | _, .pure _ => True
  | _, .throw _ => True
  | held, .lock k next =>
      (∀ k' ∈ held, rank k' < rank k) ∧ next.LockOrdered rank (k :: held)
  | held, .read next => ∀ d, (next d).LockOrdered rank held
  | held, .write _ next => next.LockOrdered rank held

theorem lockless_query (f : D → α) : (query f : Tx D K ε α).Lockless := fun _ => trivial

theorem lockless_update (w : D → Except ε D) : (update w : Tx D K ε Unit).Lockless := trivial

theorem Lockless.bind {t : Tx D K ε α} {f : α → Tx D K ε β} (ht : t.Lockless)
    (hf : ∀ a, (f a).Lockless) : (t >>= f).Lockless := by
  induction t with
  | pure a => exact hf a
  | throw e => trivial
  | lock k next ih => exact ht.elim
  | read next ih => exact fun d => ih d (ht d)
  | write w next ih => exact ih ht

variable [LT ρ] {rank : K → ρ} {held : List K} {t : Tx D K ε α}
  {f : α → Tx D K ε β}

theorem Lockless.bind_lockOrdered (ht : t.Lockless)
    (hf : ∀ a, (f a).LockOrdered rank held) : (t >>= f).LockOrdered rank held := by
  induction t with
  | pure a => exact hf a
  | throw e => trivial
  | lock k next ih => exact ht.elim
  | read next ih => exact fun d => ih d (ht d)
  | write w next ih => exact ih ht

theorem Lockless.lockOrdered (ht : t.Lockless) : t.LockOrdered rank held := by
  rw [← bind_pure t]
  exact ht.bind_lockOrdered fun _ => trivial

theorem lockOrdered_acquire {k : K} {f : Unit → Tx D K ε β}
    (hk : ∀ k' ∈ held, rank k' < rank k) (hf : (f ()).LockOrdered rank (k :: held)) :
    (acquire k >>= f).LockOrdered rank held := ⟨hk, hf⟩

theorem LockOrdered.bind_lockless (ht : t.LockOrdered rank held) (hf : ∀ a, (f a).Lockless) :
    (t >>= f).LockOrdered rank held := by
  induction t generalizing held with
  | pure a => exact (hf a).lockOrdered
  | throw e => trivial
  | lock k next ih => exact ⟨ht.1, ih ht.2⟩
  | read next ih => exact fun d => ih d (ht d)
  | write w next ih => exact ih ht

/-- `t` is what is left of a body after one of its statements. -/
inductive Rest {C : Type} {Res : C → Type} :
    ((c : C) × Tx D K ε (Res c)) → ((c : C) × Tx D K ε (Res c)) → Prop
  | lock (c : C) (k : K) (next : Tx D K ε (Res c)) :
      Rest ⟨c, next⟩ ⟨c, .lock k next⟩
  | read (c : C) (next : D → Tx D K ε (Res c)) (d : D) :
      Rest ⟨c, next d⟩ ⟨c, .read next⟩
  | write (c : C) (w : D → Except ε D) (next : Tx D K ε (Res c)) :
      Rest ⟨c, next⟩ ⟨c, .write w next⟩

/-- A body has no infinite execution. -/
theorem rest_wellFounded {C : Type} {Res : C → Type} :
    WellFounded (fun body' body : (c : C) × Tx D K ε (Res c) => Rest body' body) := by
  refine ⟨fun body => ?_⟩
  obtain ⟨c, t⟩ := body
  induction t with
  | pure a => exact ⟨_, fun body' h => by cases h⟩
  | throw e => exact ⟨_, fun body' h => by cases h⟩
  | lock k next ih =>
      refine ⟨_, fun body' h => ?_⟩
      cases h
      exact ih
  | read next ih =>
      refine ⟨_, fun body' h => ?_⟩
      cases h
      exact ih _
  | write w next ih =>
      refine ⟨_, fun body' h => ?_⟩
      cases h
      exact ih

end Tx

/-! ### Open transactions -/

section

variable {C : Type} {Res : C → Type} {Call α O D K ε : Type}

/-- What is left of the transaction of a client, when it is in one. -/
def Client.body? (cl : Client C Res Call α O D K ε) :
    Option ((c : C) × Tx D K ε (Res c)) :=
  match cl.progress with
  | .idle _ => none
  | .busy c _ cur _ _ _ => some ⟨c, cur⟩

namespace State

/-- What is left of the open transactions. -/
def bodies (σ : State C Res Call α O D K ε) :
    Multiset ((c : C) × Tx D K ε (Res c)) :=
  ↑(σ.clients.filterMap Client.body?)

/-- The body of one client and those of the others. -/
theorem bodies_split (l₁ l₂ : List (Client C Res Call α O D K ε))
    (cl : Client C Res Call α O D K ε) :
    (↑((l₁ ++ cl :: l₂).filterMap Client.body?) : Multiset ((c : C) × Tx D K ε (Res c))) =
      ↑cl.body?.toList + ↑((l₁ ++ l₂).filterMap Client.body?) := by
  rw [Multiset.coe_add, Multiset.coe_eq_coe]
  refine (List.perm_middle.filterMap _).trans ?_
  cases hbody : cl.body? <;> simp [hbody]

/-- Client `i` is inside a transaction. -/
def Busy (σ : State C Res Call α O D K ε) (i : ℕ) : Prop :=
  ∃ call c o cur held ws next,
    σ.clients[i]? = some ⟨call, .busy c o cur held ws next⟩

/-- Some transaction is open. -/
def Open (σ : State C Res Call α O D K ε) : Prop := ∃ i, σ.Busy i

/-- The next statement of client `i` is to lock `k`. -/
def Requests (σ : State C Res Call α O D K ε) (i : ℕ) (k : K) : Prop :=
  ∃ call c o cur held ws next,
    σ.clients[i]? = some ⟨call, .busy c o (.lock k cur) held ws next⟩

/-- Client `i` holds `k`. -/
def Holds (σ : State C Res Call α O D K ε) (i : ℕ) (k : K) : Prop :=
  ∃ cl, σ.clients[i]? = some cl ∧ k ∈ cl.held

theorem Holds.busy {σ : State C Res Call α O D K ε} {i : ℕ} {k : K}
    (h : σ.Holds i k) : σ.Busy i := by
  obtain ⟨cl, hi, hk⟩ := h
  obtain ⟨call, progress⟩ := cl
  cases progress with
  | idle rest => simp at hk
  | busy c o cur held ws next => exact ⟨call, c, o, cur, held, ws, next, hi⟩

end State

namespace System

/-- Some client executes the next statement of its transaction, or commits it. -/
def Continues [DecidableEq K] (M : System C Res Call α O D K ε)
    (σ σ' : State C Res Call α O D K ε) : Prop :=
  ∃ i, M.step (.advance i) σ = some σ' ∨ M.step (.commit i) σ = some σ'

/-- However it goes on, every transaction that is open ends: while one is open
some client can continue, and no sequence of continuations is infinite. -/
inductive Finishes [DecidableEq K] (M : System C Res Call α O D K ε) :
    State C Res Call α O D K ε → Prop where
  | intro (σ : State C Res Call α O D K ε)
      (hprogress : σ.Open → ∃ σ', M.Continues σ σ')
      (hrest : ∀ σ', M.Continues σ σ' → Finishes M σ') : Finishes M σ

/-! ### The bodies shrink -/

section

variable [DecidableEq K] {M : System C Res Call α O D K ε}
  {σ σ' : State C Res Call α O D K ε}

theorem step_advance {i : ℕ} {call : Call} {c : C} {o : O} {cur : Tx D K ε (Res c)}
    {held : List K} {ws : List (D → Except ε D)}
    {next : Reply Res ε c → Program C (Reply Res ε) α}
    (hi : σ.clients[i]? = some ⟨call, .busy c o cur held ws next⟩)
    (h : statement σ i call c o held ws next cur = some σ') :
    M.step (.advance i) σ = some σ' := by
  simpa only [step, hi] using h

theorem Continues.steps (h : M.Continues σ σ') : M.Steps σ σ' := by
  obtain ⟨i, hadvance | hcommit⟩ := h
  · exact ⟨.advance i, hadvance⟩
  · exact ⟨.commit i, hcommit⟩

/-- The client that continues has less of its body left, or has left its
transaction; the others are where they were. -/
theorem Continues.client (h : M.Continues σ σ') :
    ∃ (i : ℕ) (cl cl' : Client C Res Call α O D K ε) (body : (c : C) × Tx D K ε (Res c)),
      σ.clients[i]? = some cl ∧ cl.body? = some body ∧
        σ'.clients = σ.clients.set i cl' ∧ ∀ body' ∈ cl'.body?, Tx.Rest body' body := by
  obtain ⟨i, hadvance | hcommit⟩ := h
  · simp only [step] at hadvance
    split at hadvance
    · rename_i call c o cur held ws next hi
      cases cur with
      | pure a => cases hadvance
      | throw e =>
          obtain rfl := Option.some.inj hadvance
          exact ⟨i, _, _, _, hi, rfl, rfl, fun body' hbody => by cases hbody⟩
      | lock k next =>
          simp only [statement] at hadvance
          split at hadvance
          · obtain rfl := Option.some.inj hadvance
            refine ⟨i, _, _, _, hi, rfl, rfl, fun body' hbody => ?_⟩
            obtain rfl := Option.some.inj hbody
            exact .lock c k next
          · cases hadvance
      | read next =>
          simp only [statement] at hadvance
          split at hadvance
          · obtain rfl := Option.some.inj hadvance
            refine ⟨i, _, _, _, hi, rfl, rfl, fun body' hbody => ?_⟩
            obtain rfl := Option.some.inj hbody
            exact .read c next _
          · obtain rfl := Option.some.inj hadvance
            exact ⟨i, _, _, _, hi, rfl, rfl, fun body' hbody => by cases hbody⟩
      | write w next =>
          simp only [statement] at hadvance
          split at hadvance
          · obtain rfl := Option.some.inj hadvance
            refine ⟨i, _, _, _, hi, rfl, rfl, fun body' hbody => ?_⟩
            obtain rfl := Option.some.inj hbody
            exact .write c w next
          · obtain rfl := Option.some.inj hadvance
            exact ⟨i, _, _, _, hi, rfl, rfl, fun body' hbody => by cases hbody⟩
    · cases hadvance
  · simp only [step] at hcommit
    split at hcommit
    · rename_i call c o a held ws next hi
      split at hcommit
      · obtain rfl := Option.some.inj hcommit
        exact ⟨i, _, _, _, hi, rfl, rfl, fun body' hbody => by cases hbody⟩
      · obtain rfl := Option.some.inj hcommit
        exact ⟨i, _, _, _, hi, rfl, rfl, fun body' hbody => by cases hbody⟩
    · cases hcommit

theorem Continues.cutExpand (h : M.Continues σ σ') :
    Relation.CutExpand Tx.Rest σ'.bodies σ.bodies := by
  obtain ⟨i, cl, cl', body, hi, hbody, hclients, hrest⟩ := h.client
  obtain ⟨hlt, hcl⟩ := List.getElem?_eq_some_iff.1 hi
  have hsplit : σ.clients = σ.clients.take i ++ cl :: σ.clients.drop (i + 1) := by
    rw [← hcl, List.getElem_cons_drop, List.take_append_drop]
  have hset : σ'.clients = σ.clients.take i ++ cl' :: σ.clients.drop (i + 1) := by
    rw [hclients, List.set_eq_take_append_cons_drop, if_pos hlt]
  have hbodies : σ.bodies = {body} +
      ↑((σ.clients.take i ++ σ.clients.drop (i + 1)).filterMap Client.body?) := by
    have hsum := State.bodies_split (σ.clients.take i) (σ.clients.drop (i + 1)) cl
    rw [← hsplit, hbody] at hsum
    exact hsum
  refine ⟨↑cl'.body?.toList, body, fun body' h' => hrest body' (by simpa using h'), ?_⟩
  rw [hbodies, State.bodies, hset, State.bodies_split]
  abel

theorem continues_acc (σ : State C Res Call α O D K ε) :
    Acc (fun σ₂ σ₁ => M.Continues σ₁ σ₂) σ :=
  Subrelation.accessible (fun h => h.cutExpand)
    (InvImage.accessible State.bodies (Tx.rest_wellFounded.cutExpand.apply σ.bodies))

end

end System

/-! ### Somebody can go on -/

section

variable [DecidableEq K] {ρ : Type} {rank : K → ρ} {M : System C Res Call α O D K ε}
  {σ σ' : State C Res Call α O D K ε}

/-- What is left of the body of a client takes its locks in order. -/
def Client.LockOrdered [LT ρ] (rank : K → ρ) (cl : Client C Res Call α O D K ε) : Prop :=
  match cl.progress with
  | .idle _ => True
  | .busy _ _ cur held _ _ => cur.LockOrdered rank held

/-- All clients take their locks in order. -/
def State.LockOrdered [LT ρ] (rank : K → ρ) (σ : State C Res Call α O D K ε) : Prop :=
  ∀ (i : ℕ) (cl : Client C Res Call α O D K ε),
    σ.clients[i]? = some cl → cl.LockOrdered rank

namespace State.LockOrdered

omit [DecidableEq K] in
theorem set [LT ρ] (hσ : σ.LockOrdered rank) {i : ℕ} {cl : Client C Res Call α O D K ε}
    (hclients : σ'.clients = σ.clients.set i cl) (hcl : cl.LockOrdered rank) :
    σ'.LockOrdered rank := by
  intro j cl' hj
  rw [hclients] at hj
  by_cases hij : i = j
  · subst hij
    obtain ⟨hlt, rfl⟩ := List.getElem?_eq_some_iff.1 hj
    rwa [List.getElem_set_self]
  · exact hσ j cl' (by rwa [List.getElem?_set_ne hij] at hj)

theorem change [LT ρ] (hM : ∀ c o, (M.impl c o).LockOrdered rank [])
    (hσ : σ.LockOrdered rank) (h : M.Change σ σ') : σ'.LockOrdered rank := by
  cases h with
  | spawn call =>
      intro j cl hj
      rw [List.getElem?_append] at hj
      split at hj
      · exact hσ j cl hj
      · obtain ⟨hlt, rfl⟩ := List.getElem?_eq_some_iff.1 hj
        rw [List.getElem_singleton]
        trivial
  | begin i o call c next hi => exact hσ.set rfl (hM c o)
  | lock i call c o k cur held ws next hi hfree => exact hσ.set rfl (hσ i _ hi).2
  | read i call c o cur held ws next view hi hview => exact hσ.set rfl (hσ i _ hi view)
  | write i call c o w cur held ws next view hi hview =>
      have hcur : cur.LockOrdered rank held := hσ i _ hi
      exact hσ.set rfl hcur
  | fail i call c o cur held ws next e hi => exact hσ.set rfl trivial
  | commit i call c o a held ws next d hi hd => exact hσ.set rfl trivial

omit [DecidableEq K] in
/-- A requested lock ranks above those that its client holds. -/
theorem rank_lt [LT ρ] (hσ : σ.LockOrdered rank) {i : ℕ} {k k' : K}
    (hk : σ.Holds i k) (hk' : σ.Requests i k') : rank k < rank k' := by
  obtain ⟨cl, hi, hmem⟩ := hk
  obtain ⟨call, c, o, cur, held, ws, next, hi'⟩ := hk'
  obtain rfl := Option.some.inj (hi.symm.trans hi')
  exact (hσ i _ hi).1 k hmem

/-- A client inside a transaction can go on, or requests a lock that another
holds. -/
theorem continues_or_requests {i : ℕ} (h : σ.Busy i) :
    (∃ σ', M.Continues σ σ') ∨ ∃ j k, σ.Requests i k ∧ σ.Holds j k := by
  obtain ⟨call, c, o, cur, held, ws, next, hi⟩ := h
  cases cur with
  | pure a =>
      refine .inl ?_
      cases hd : Tx.applyWrites ws σ.db with
      | ok d => exact ⟨_, i, .inr (by simp only [System.step, hi, hd]; rfl)⟩
      | error e => exact ⟨_, i, .inr (by simp only [System.step, hi, hd]; rfl)⟩
  | throw e => exact .inl ⟨_, i, .inl (System.step_advance hi rfl)⟩
  | lock k cur =>
      by_cases hfree : σ.free i k = true
      · exact .inl ⟨_, i, .inl (System.step_advance hi (if_pos hfree))⟩
      · rw [σ.free_iff] at hfree
        push Not at hfree
        obtain ⟨j, cl, hj, -, hk⟩ := hfree
        exact .inr ⟨j, k, ⟨call, c, o, cur, held, ws, next, hi⟩, cl, hj, hk⟩
  | read cur =>
      refine .inl ?_
      cases hview : Tx.applyWrites ws σ.db with
      | ok view =>
          exact ⟨_, i, .inl (System.step_advance hi
            (by simp only [System.statement, hview]; rfl))⟩
      | error e =>
          exact ⟨_, i, .inl (System.step_advance hi
            (by simp only [System.statement, hview]; rfl))⟩
  | write w cur =>
      refine .inl ?_
      cases hview : Tx.applyWrites (ws ++ [w]) σ.db with
      | ok view =>
          exact ⟨_, i, .inl (System.step_advance hi
            (by simp only [System.statement, hview]; rfl))⟩
      | error e =>
          exact ⟨_, i, .inl (System.step_advance hi
            (by simp only [System.statement, hview]; rfl))⟩

/-- While a transaction is open, some client can go on: one that holds a lock of
the highest rank. -/
theorem exists_continues [LinearOrder ρ] (hσ : σ.LockOrdered rank) (hopen : σ.Open) :
    ∃ σ', M.Continues σ σ' := by
  by_contra hstuck
  have hwaits : ∀ i, σ.Busy i → ∃ j k, σ.Requests i k ∧ σ.Holds j k := fun i hi =>
    (continues_or_requests hi).resolve_left hstuck
  -- all locks that are held
  let held : Multiset K := ↑(σ.clients.flatMap Client.held)
  have hheld : ∀ k, k ∈ held ↔ ∃ j, σ.Holds j k := by
    intro k
    simp only [held, Multiset.mem_coe, List.mem_flatMap, State.Holds]
    simp only [List.mem_iff_getElem? (l := σ.clients)]
    constructor
    · rintro ⟨cl, ⟨j, hj⟩, hk⟩
      exact ⟨j, cl, hj, hk⟩
    · rintro ⟨j, cl, hj, hk⟩
      exact ⟨cl, ⟨j, hj⟩, hk⟩
  obtain ⟨i, hi⟩ := hopen
  obtain ⟨j, k, -, hk⟩ := hwaits i hi
  have hne : held ≠ 0 := fun h => by simpa [h] using (hheld k).2 ⟨j, hk⟩
  obtain ⟨top, htop, hmax⟩ := Multiset.exists_max_image rank hne
  obtain ⟨holder, hholds⟩ := (hheld top).1 htop
  obtain ⟨j', k', hrequests, hholds'⟩ := hwaits holder hholds.busy
  exact absurd (hmax k' ((hheld k').2 ⟨j', hholds'⟩)) (not_le.2 (hσ.rank_lt hholds hrequests))

end State.LockOrdered

namespace System

/-- If all bodies take their locks in order, then in every reachable state the
open transactions all end, however they go on. -/
theorem Reaches.finishes [LinearOrder ρ] {d : D} (hM : ∀ c o, (M.impl c o).LockOrdered rank [])
    (h : M.Reaches (State.init d) σ) : M.Finishes σ := by
  have hσ : σ.LockOrdered rank := by
    induction h with
    | refl => exact fun i cl hi => by simp [State.init] at hi
    | tail _ hstep ih => exact ih.change hM hstep.change
  clear h
  induction continues_acc (M := M) σ with
  | intro σ _ ih =>
      exact ⟨σ, hσ.exists_continues, fun σ' hσ' => ih σ' hσ' (hσ.change hM hσ'.steps.change)⟩

end System

end

end

end Transaction

end Shortlink

import Shortlink.Interaction.Program
import Shortlink.Transaction.Basic
import Mathlib.Data.List.Basic
import Mathlib.Logic.Relation

/-!
# Interleaved transactions

Clients run programs whose commands are transactions. A command `c` is executed
statement by statement by the body `impl c o`, where `o` holds the values the
transaction takes from outside the database (the clock, generated identifiers).
Between two statements of one client any others may execute theirs.

A lock is granted when no other client holds it, and is held to the end of the
transaction. Writes are kept by the client and applied to the committed state
at commit, all at once; a write that the state reached meanwhile rejects rolls
the transaction back. A transaction may be aborted at any point.

`log` lists the finished transactions, the most recent first.
-/

namespace Shortlink

namespace Transaction

open Shortlink.Interaction

/-- The reply to a transaction: its value or the error that rolled it back. -/
abbrev Reply {C : Type} (Res : C → Type) (ε : Type) (c : C) : Type :=
  Except ε (Res c)

/-- The programs of the calls and the bodies of their transactions. -/
structure System (C : Type) (Res : C → Type) (Call α O D K ε : Type) where
  body : Call → Program C (Reply Res ε) α
  impl : (c : C) → O → Tx D K ε (Res c)

/-- Where a client is: between transactions, or inside one with the rest of its
body, the locks it holds and the writes it has made. -/
inductive Progress (C : Type) (Res : C → Type) (α O D K ε : Type) where
  | idle (rest : Program C (Reply Res ε) α)
  | busy (c : C) (o : O) (cur : Tx D K ε (Res c)) (held : List K)
      (writes : List (D → Except ε D))
      (next : Reply Res ε c → Program C (Reply Res ε) α)

structure Client (C : Type) (Res : C → Type) (Call α O D K ε : Type) where
  call : Call
  progress : Progress C Res α O D K ε

/-- A finished transaction. -/
structure Record (C : Type) (Res : C → Type) (O ε : Type) where
  client : ℕ
  command : C
  outside : O
  reply : Reply Res ε command
  wrote : Bool

/-- The committed database, the clients in the order they were started, and
the finished transactions, the most recent first. -/
structure State (C : Type) (Res : C → Type) (Call α O D K ε : Type) where
  db : D
  clients : List (Client C Res Call α O D K ε)
  log : List (Record C Res O ε)

/-- One step of a schedule. -/
inductive Action (Call O ε : Type) where
  | spawn (call : Call)
  | begin (i : ℕ) (o : O)
  | advance (i : ℕ)
  | commit (i : ℕ)
  | abort (i : ℕ) (e : ε)

variable {C : Type} {Res : C → Type} {Call α O D K ε : Type}

/-- The locks a client holds. -/
def Client.held (cl : Client C Res Call α O D K ε) : List K :=
  match cl.progress with
  | .idle _ => []
  | .busy _ _ _ held _ _ => held

@[simp] theorem Client.held_idle (call : Call)
    (rest : Program C (Reply Res ε) α) :
    (⟨call, .idle rest⟩ : Client C Res Call α O D K ε).held = [] := rfl

@[simp] theorem Client.held_busy (call : Call) (c : C) (o : O)
    (cur : Tx D K ε (Res c)) (held : List K) (ws : List (D → Except ε D))
    (next : Reply Res ε c → Program C (Reply Res ε) α) :
    (⟨call, .busy c o cur held ws next⟩ :
      Client C Res Call α O D K ε).held = held := rfl

namespace State

/-- The state in which nothing has been started. -/
def init (d : D) : State C Res Call α O D K ε := ⟨d, [], []⟩

/-- The value of client `i`, once it has finished. -/
def result? (σ : State C Res Call α O D K ε) (i : ℕ) : Option α :=
  match σ.clients[i]? with
  | some ⟨_, .idle rest⟩ => rest.result?
  | _ => none

/-- No client but `i` holds the lock `k`. -/
def free [DecidableEq K] (σ : State C Res Call α O D K ε) (i : ℕ) (k : K) :
    Bool :=
  (List.range σ.clients.length).all fun j =>
    j == i || (σ.clients[j]?.all fun cl => decide (k ∉ cl.held))

theorem free_iff [DecidableEq K] (σ : State C Res Call α O D K ε) (i : ℕ)
    (k : K) :
    σ.free i k = true ↔
      ∀ j cl, σ.clients[j]? = some cl → j ≠ i → k ∉ cl.held := by
  constructor
  · intro h j cl hj hne
    have hlt : j < σ.clients.length := (List.getElem?_eq_some_iff.1 hj).1
    have hj' := List.all_eq_true.1 h j (List.mem_range.2 hlt)
    simpa [hne, hj] using hj'
  · intro h
    refine List.all_eq_true.2 fun j hj => ?_
    have hlt : j < σ.clients.length := List.mem_range.1 hj
    by_cases hne : j = i
    · simp [hne]
    · have hnot := h j _ (List.getElem?_eq_getElem hlt) hne
      simp [hlt, hnot]

/-- Client `i` becomes `cl`. -/
def setClient (σ : State C Res Call α O D K ε) (i : ℕ)
    (cl : Client C Res Call α O D K ε) : State C Res Call α O D K ε :=
  { σ with clients := σ.clients.set i cl }

/-- Client `i` leaves its transaction: the database becomes `d` and the
transaction is recorded. -/
def settle (σ : State C Res Call α O D K ε) (i : ℕ) (call : Call) (d : D)
    (c : C) (o : O) (next : Reply Res ε c → Program C (Reply Res ε) α)
    (reply : Reply Res ε c) (wrote : Bool) : State C Res Call α O D K ε :=
  { db := d
    clients := σ.clients.set i ⟨call, .idle (next reply)⟩
    log := ⟨i, c, o, reply, wrote⟩ :: σ.log }

end State

namespace System

/-- The next statement of client `i`, whose rest of the body is `cur`. -/
def statement [DecidableEq K] (σ : State C Res Call α O D K ε) (i : ℕ)
    (call : Call) (c : C) (o : O) (held : List K)
    (ws : List (D → Except ε D))
    (next : Reply Res ε c → Program C (Reply Res ε) α) :
    Tx D K ε (Res c) → Option (State C Res Call α O D K ε)
  | .pure _ => none
  | .throw e => some (σ.settle i call σ.db c o next (.error e) false)
  | .lock k cur =>
      if σ.free i k then
        some (σ.setClient i ⟨call, .busy c o cur (k :: held) ws next⟩)
      else none
  | .read cur =>
      match Tx.applyWrites ws σ.db with
      | .ok view =>
          some (σ.setClient i ⟨call, .busy c o (cur view) held ws next⟩)
      | .error e => some (σ.settle i call σ.db c o next (.error e) false)
  | .write w cur =>
      match Tx.applyWrites (ws ++ [w]) σ.db with
      | .ok _ =>
          some (σ.setClient i ⟨call, .busy c o cur held (ws ++ [w]) next⟩)
      | .error e => some (σ.settle i call σ.db c o next (.error e) false)

/-- The state after an action, when the action is possible. -/
def step [DecidableEq K] (M : System C Res Call α O D K ε) :
    Action Call O ε → State C Res Call α O D K ε →
      Option (State C Res Call α O D K ε)
  | .spawn call, σ =>
      some { σ with clients := σ.clients ++ [⟨call, .idle (M.body call)⟩] }
  | .begin i o, σ =>
      match σ.clients[i]? with
      | some ⟨call, .idle (.call c next)⟩ =>
          some (σ.setClient i ⟨call, .busy c o (M.impl c o) [] [] next⟩)
      | _ => none
  | .advance i, σ =>
      match σ.clients[i]? with
      | some ⟨call, .busy c o cur held ws next⟩ =>
          statement σ i call c o held ws next cur
      | _ => none
  | .commit i, σ =>
      match σ.clients[i]? with
      | some ⟨call, .busy c o (.pure a) _ ws next⟩ =>
          match Tx.applyWrites ws σ.db with
          | .ok d => some (σ.settle i call d c o next (.ok a) (!ws.isEmpty))
          | .error e => some (σ.settle i call σ.db c o next (.error e) false)
      | _ => none
  | .abort i e, σ =>
      match σ.clients[i]? with
      | some ⟨call, .busy c o _ _ _ next⟩ =>
          some (σ.settle i call σ.db c o next (.error e) false)
      | _ => none

/-- One step of some action. -/
def Steps [DecidableEq K] (M : System C Res Call α O D K ε)
    (σ σ' : State C Res Call α O D K ε) : Prop :=
  ∃ e, M.step e σ = some σ'

def Reaches [DecidableEq K] (M : System C Res Call α O D K ε) :
    State C Res Call α O D K ε → State C Res Call α O D K ε → Prop :=
  Relation.ReflTransGen M.Steps

/-- The state after a schedule; an impossible action is skipped. -/
def after [DecidableEq K] (M : System C Res Call α O D K ε) :
    List (Action Call O ε) → State C Res Call α O D K ε →
      State C Res Call α O D K ε
  | [], σ => σ
  | e :: es, σ => M.after es ((M.step e σ).getD σ)

theorem reaches_after [DecidableEq K] (M : System C Res Call α O D K ε)
    (es : List (Action Call O ε)) (σ : State C Res Call α O D K ε) :
    M.Reaches σ (M.after es σ) := by
  induction es generalizing σ with
  | nil => exact .refl
  | cons e es ih =>
      cases hstep : M.step e σ with
      | none => simpa [after, hstep] using ih σ
      | some σ' =>
          have hrun : M.Reaches σ (M.after es σ') :=
            Relation.ReflTransGen.head ⟨e, hstep⟩ (ih σ')
          simpa [after, hstep] using hrun

/-- What one step can do: start a client, open a transaction, execute a
statement that leaves the client inside it, finish without effect, or commit. -/
inductive Change [DecidableEq K] (M : System C Res Call α O D K ε)
    (σ : State C Res Call α O D K ε) :
    State C Res Call α O D K ε → Prop where
  | spawn (call : Call) :
      Change M σ
        { σ with clients := σ.clients ++ [⟨call, .idle (M.body call)⟩] }
  | begin (i : ℕ) (o : O) (call : Call) (c : C)
      (next : Reply Res ε c → Program C (Reply Res ε) α)
      (hi : σ.clients[i]? = some ⟨call, .idle (.call c next)⟩) :
      Change M σ (σ.setClient i ⟨call, .busy c o (M.impl c o) [] [] next⟩)
  | lock (i : ℕ) (call : Call) (c : C) (o : O) (k : K)
      (cur : Tx D K ε (Res c)) (held : List K) (ws : List (D → Except ε D))
      (next : Reply Res ε c → Program C (Reply Res ε) α)
      (hi : σ.clients[i]? =
        some ⟨call, .busy c o (.lock k cur) held ws next⟩)
      (hfree : ∀ j cl, σ.clients[j]? = some cl → j ≠ i → k ∉ cl.held) :
      Change M σ (σ.setClient i ⟨call, .busy c o cur (k :: held) ws next⟩)
  | read (i : ℕ) (call : Call) (c : C) (o : O) (cur : D → Tx D K ε (Res c))
      (held : List K) (ws : List (D → Except ε D))
      (next : Reply Res ε c → Program C (Reply Res ε) α) (view : D)
      (hi : σ.clients[i]? = some ⟨call, .busy c o (.read cur) held ws next⟩)
      (hview : Tx.applyWrites ws σ.db = .ok view) :
      Change M σ (σ.setClient i ⟨call, .busy c o (cur view) held ws next⟩)
  | write (i : ℕ) (call : Call) (c : C) (o : O) (w : D → Except ε D)
      (cur : Tx D K ε (Res c)) (held : List K) (ws : List (D → Except ε D))
      (next : Reply Res ε c → Program C (Reply Res ε) α) (view : D)
      (hi : σ.clients[i]? =
        some ⟨call, .busy c o (.write w cur) held ws next⟩)
      (hview : Tx.applyWrites (ws ++ [w]) σ.db = .ok view) :
      Change M σ
        (σ.setClient i ⟨call, .busy c o cur held (ws ++ [w]) next⟩)
  | fail (i : ℕ) (call : Call) (c : C) (o : O) (cur : Tx D K ε (Res c))
      (held : List K) (ws : List (D → Except ε D))
      (next : Reply Res ε c → Program C (Reply Res ε) α) (e : ε)
      (hi : σ.clients[i]? = some ⟨call, .busy c o cur held ws next⟩) :
      Change M σ (σ.settle i call σ.db c o next (.error e) false)
  | commit (i : ℕ) (call : Call) (c : C) (o : O) (a : Res c)
      (held : List K) (ws : List (D → Except ε D))
      (next : Reply Res ε c → Program C (Reply Res ε) α) (d : D)
      (hi : σ.clients[i]? = some ⟨call, .busy c o (.pure a) held ws next⟩)
      (hd : Tx.applyWrites ws σ.db = .ok d) :
      Change M σ (σ.settle i call d c o next (.ok a) (!ws.isEmpty))

theorem statement_change [DecidableEq K] {M : System C Res Call α O D K ε}
    {σ σ' : State C Res Call α O D K ε} {i : ℕ} {call : Call} {c : C} {o : O}
    {cur : Tx D K ε (Res c)} {held : List K} {ws : List (D → Except ε D)}
    {next : Reply Res ε c → Program C (Reply Res ε) α}
    (hi : σ.clients[i]? = some ⟨call, .busy c o cur held ws next⟩)
    (h : statement σ i call c o held ws next cur = some σ') :
    Change M σ σ' := by
  cases cur with
  | pure a => cases h
  | throw e =>
      obtain rfl := Option.some.inj h
      exact .fail i call c o _ held ws next e hi
  | lock k cur =>
      simp only [statement] at h
      split at h
      · rename_i hfree
        obtain rfl := Option.some.inj h
        exact .lock i call c o k cur held ws next hi
          ((σ.free_iff i k).1 hfree)
      · cases h
  | read cur =>
      simp only [statement] at h
      split at h
      · rename_i view hview
        obtain rfl := Option.some.inj h
        exact .read i call c o cur held ws next view hi hview
      · rename_i e _
        obtain rfl := Option.some.inj h
        exact .fail i call c o _ held ws next e hi
  | write w cur =>
      simp only [statement] at h
      split at h
      · rename_i view hview
        obtain rfl := Option.some.inj h
        exact .write i call c o w cur held ws next view hi hview
      · rename_i e _
        obtain rfl := Option.some.inj h
        exact .fail i call c o _ held ws next e hi

/-- Every step is one of the changes. -/
theorem Steps.change [DecidableEq K] {M : System C Res Call α O D K ε}
    {σ σ' : State C Res Call α O D K ε} (h : M.Steps σ σ') :
    Change M σ σ' := by
  obtain ⟨e, hstep⟩ := h
  cases e with
  | spawn call =>
      obtain rfl := Option.some.inj hstep
      exact .spawn call
  | begin i o =>
      simp only [step] at hstep
      split at hstep
      · rename_i call c next hi
        obtain rfl := Option.some.inj hstep
        exact .begin i o call c next hi
      · cases hstep
  | advance i =>
      simp only [step] at hstep
      split at hstep
      · rename_i call c o cur held ws next hi
        exact statement_change hi hstep
      · cases hstep
  | commit i =>
      simp only [step] at hstep
      split at hstep
      · rename_i call c o a held ws next hi
        split at hstep
        · rename_i d hd
          obtain rfl := Option.some.inj hstep
          exact .commit i call c o a held ws next d hi hd
        · rename_i e _
          obtain rfl := Option.some.inj hstep
          exact .fail i call c o _ held ws next e hi
      · cases hstep
  | abort i e =>
      simp only [step] at hstep
      split at hstep
      · rename_i call c o cur held ws next hi
        obtain rfl := Option.some.inj hstep
        exact .fail i call c o cur held ws next e hi
      · cases hstep

end System

end Transaction

end Shortlink

import Shortlink.Transaction.Atomicity

/-!
# Which client issued a transaction

A client executes the transactions of its own call and no others. When the
programs of the calls only issue commands that `may` allows, so does every
client, and every finished transaction was issued by a call that may
(`Reaches.issued`). A client stays the same call (`Reaches.call`). A value that a
program reaches only past certain replies is that of a client with a finished
transaction that got one (`Reaches.owes`).
-/

namespace Shortlink

namespace Transaction

open Shortlink.Interaction

variable {C : Type} {Res : C → Type} {Call α O D K ε : Type}

/-- What is left of a client only issues commands that `may` allows its call. -/
def Client.Issues (may : Call → C → Prop) (cl : Client C Res Call α O D K ε) :
    Prop :=
  match cl.progress with
  | .idle rest =>
      rest.Sat (fun _ _ => True) (may cl.call) fun _ => True
  | .busy c _ _ _ _ next =>
      may cl.call c ∧ ∀ reply,
        (next reply).Sat (fun _ _ => True) (may cl.call) fun _ => True

/-- Every client issues what its call may, and so did the clients of the finished
transactions. -/
structure Issued (may : Call → C → Prop) (σ : State C Res Call α O D K ε) :
    Prop where
  clients : ∀ (i : ℕ) cl, σ.clients[i]? = some cl → cl.Issues may
  log : ∀ r ∈ σ.log, ∃ cl, σ.clients[r.client]? = some cl ∧
    may cl.call r.command

namespace Issued

variable {may : Call → C → Prop} {σ : State C Res Call α O D K ε}

theorem init (d : D) :
    Issued may (State.init d : State C Res Call α O D K ε) where
  clients i cl hi := by simp [State.init] at hi
  log r hr := by simp [State.init] at hr

/-- A started client is still there, with the same call, after one of them has
moved. -/
theorem exists_set {i : ℕ} {call : Call} {p : Progress C Res α O D K ε}
    (p' : Progress C Res α O D K ε) (hi : σ.clients[i]? = some ⟨call, p⟩) {j : ℕ}
    {cl : Client C Res Call α O D K ε} (hj : σ.clients[j]? = some cl) :
    ∃ cl', (σ.clients.set i ⟨call, p'⟩)[j]? = some cl' ∧ cl'.call = cl.call := by
  by_cases hij : i = j
  · subst hij
    obtain rfl := Option.some.inj (hi.symm.trans hj)
    exact ⟨_, List.getElem?_set_self (List.getElem?_eq_some_iff.1 hi).1, rfl⟩
  · exact ⟨cl, by rwa [List.getElem?_set_ne hij], rfl⟩

theorem setClient (h : Issued may σ) {i : ℕ} {call : Call}
    {p p' : Progress C Res α O D K ε} (hi : σ.clients[i]? = some ⟨call, p⟩)
    (hcl : Client.Issues may (⟨call, p'⟩ : Client C Res Call α O D K ε)) :
    Issued may (σ.setClient i ⟨call, p'⟩) where
  clients j clj hj := by
    have hmem : clj ∈ σ.clients.set i ⟨call, p'⟩ := List.mem_of_getElem? hj
    rcases List.mem_or_eq_of_mem_set hmem with hold | rfl
    · obtain ⟨k, hk⟩ := List.mem_iff_getElem?.1 hold
      exact h.clients k clj hk
    · exact hcl
  log r hr := by
    obtain ⟨clj, hj, hmay⟩ := h.log r hr
    obtain ⟨cl₁, h₁, hcall₁⟩ := exists_set p' hi hj
    exact ⟨cl₁, h₁, hcall₁ ▸ hmay⟩

theorem settle (h : Issued may σ) {i : ℕ} {call : Call} {c : C} {o : O}
    {cur : Tx D K ε (Res c)} {held : List K} {ws : List (D → Except ε D)}
    {next : Reply Res ε c → Program C (Reply Res ε) α} {d : D}
    {reply : Reply Res ε c} {wrote : Bool}
    (hi : σ.clients[i]? = some ⟨call, .busy c o cur held ws next⟩) :
    Issued may (σ.settle i call d c o next reply wrote) := by
  obtain ⟨hc, hnext⟩ := h.clients i _ hi
  have hset : Issued may (σ.setClient i ⟨call, .idle (next reply)⟩) :=
    h.setClient hi (hnext reply)
  refine ⟨hset.clients, fun r hr => ?_⟩
  rcases List.mem_cons.1 hr with rfl | hr
  · exact ⟨_, List.getElem?_set_self (List.getElem?_eq_some_iff.1 hi).1, hc⟩
  · exact hset.log r hr

/-- One step keeps it. -/
theorem change [DecidableEq K] {M : System C Res Call α O D K ε}
    (hbody : ∀ call, (M.body call).Sat (fun _ _ => True) (may call) fun _ => True)
    (h : Issued may σ) {σ' : State C Res Call α O D K ε}
    (hstep : System.Change M σ σ') : Issued may σ' := by
  cases hstep with
  | spawn call =>
      refine ⟨fun i cl hi => ?_, fun r hr => ?_⟩
      · rcases List.mem_append.1 (List.mem_of_getElem? hi) with hold | hnew
        · obtain ⟨k, hk⟩ := List.mem_iff_getElem?.1 hold
          exact h.clients k cl hk
        · obtain rfl := List.mem_singleton.1 hnew
          exact hbody call
      · obtain ⟨cl, hcl, hmay⟩ := h.log r hr
        exact ⟨cl, (List.getElem?_append_left
          (List.getElem?_eq_some_iff.1 hcl).1).trans hcl, hmay⟩
  | begin i o call c next hi =>
      have hcl := h.clients i _ hi
      exact h.setClient hi ⟨hcl.1, fun r => hcl.2 r trivial⟩
  | lock i call c o k cur held ws next hi _ =>
      have hcl := h.clients i _ hi
      exact h.setClient hi ⟨hcl.1, hcl.2⟩
  | read i call c o cur held ws next view hi _ =>
      have hcl := h.clients i _ hi
      exact h.setClient hi ⟨hcl.1, hcl.2⟩
  | write i call c o w cur held ws next view hi _ =>
      have hcl := h.clients i _ hi
      exact h.setClient hi ⟨hcl.1, hcl.2⟩
  | fail i call c o cur held ws next e hi => exact h.settle hi
  | commit i call c o a held ws next d hi _ => exact h.settle hi

end Issued

/-- Every finished transaction was issued by a call that may. -/
theorem System.Reaches.issued [DecidableEq K] {M : System C Res Call α O D K ε}
    (may : Call → C → Prop)
    (hbody : ∀ call, (M.body call).Sat (fun _ _ => True) (may call) fun _ => True)
    {σ σ' : State C Res Call α O D K ε} (h : M.Reaches σ σ')
    (hσ : Issued may σ) : Issued may σ' := by
  induction h with
  | refl => exact hσ
  | tail _ hstep ih => exact ih.change hbody hstep.change

/-- A started client stays the same call. -/
theorem System.Change.call [DecidableEq K] {M : System C Res Call α O D K ε}
    {σ σ' : State C Res Call α O D K ε} (h : System.Change M σ σ') {j : ℕ}
    {cl : Client C Res Call α O D K ε} (hj : σ.clients[j]? = some cl) :
    ∃ cl', σ'.clients[j]? = some cl' ∧ cl'.call = cl.call := by
  cases h with
  | spawn call =>
      exact ⟨cl, (List.getElem?_append_left
        (List.getElem?_eq_some_iff.1 hj).1).trans hj, rfl⟩
  | begin i o call c next hi => exact Issued.exists_set _ hi hj
  | lock i call c o k cur held ws next hi _ => exact Issued.exists_set _ hi hj
  | read i call c o cur held ws next view hi _ => exact Issued.exists_set _ hi hj
  | write i call c o w cur held ws next view hi _ =>
      exact Issued.exists_set _ hi hj
  | fail i call c o cur held ws next e hi => exact Issued.exists_set _ hi hj
  | commit i call c o a held ws next d hi _ => exact Issued.exists_set _ hi hj

theorem System.Reaches.call [DecidableEq K] {M : System C Res Call α O D K ε}
    {σ σ' : State C Res Call α O D K ε} (h : M.Reaches σ σ') {j : ℕ}
    {cl : Client C Res Call α O D K ε} (hj : σ.clients[j]? = some cl) :
    ∃ cl', σ'.clients[j]? = some cl' ∧ cl'.call = cl.call := by
  induction h with
  | refl => exact ⟨cl, hj, rfl⟩
  | tail _ hstep ih =>
      obtain ⟨cl₁, h₁, hcall₁⟩ := ih
      obtain ⟨cl₂, h₂, hcall₂⟩ := hstep.change.call h₁
      exact ⟨cl₂, h₂, hcall₂.trans hcall₁⟩

/-! ### Values that a transaction has led to -/

/-- What is left of a client reaches a value in `post` only past a reply in `P`. -/
def Client.Owes (P : (c : C) → Reply Res ε c → Prop) (post : α → Prop)
    (cl : Client C Res Call α O D K ε) : Prop :=
  match cl.progress with
  | .idle rest => rest.Owes P post
  | .busy c _ _ _ _ next => ∀ reply, P c reply ∨ (next reply).Owes P post

/-- A client owes a reply in `P`, or has a finished transaction that got one. -/
def Paid (P : (c : C) → Reply Res ε c → Prop) (post : α → Prop)
    (σ : State C Res Call α O D K ε) : Prop :=
  ∀ (i : ℕ) cl, σ.clients[i]? = some cl →
    cl.Owes P post ∨ ∃ r ∈ σ.log, r.client = i ∧ P r.command r.reply

namespace Paid

variable {P : (c : C) → Reply Res ε c → Prop} {post : α → Prop}
  {σ : State C Res Call α O D K ε}

theorem init (d : D) : Paid P post (State.init d : State C Res Call α O D K ε) := by
  intro i cl hi
  simp [State.init] at hi

theorem setClient (h : Paid P post σ) {i : ℕ} {call : Call}
    {p p' : Progress C Res α O D K ε} (hi : σ.clients[i]? = some ⟨call, p⟩)
    (hcl : Client.Owes P post (⟨call, p⟩ : Client C Res Call α O D K ε) →
      Client.Owes P post (⟨call, p'⟩ : Client C Res Call α O D K ε)) :
    Paid P post (σ.setClient i ⟨call, p'⟩) := by
  intro j cl hj
  have hj' : (σ.clients.set i ⟨call, p'⟩)[j]? = some cl := hj
  rcases getElem?_set_cases hj' with ⟨rfl, rfl⟩ | ⟨-, hold⟩
  · exact (h j _ hi).imp_left hcl
  · exact h j cl hold

theorem settle (h : Paid P post σ) {i : ℕ} {call : Call} {c : C} {o : O}
    {cur : Tx D K ε (Res c)} {held : List K} {ws : List (D → Except ε D)}
    {next : Reply Res ε c → Program C (Reply Res ε) α} {d : D}
    {reply : Reply Res ε c} {wrote : Bool}
    (hi : σ.clients[i]? = some ⟨call, .busy c o cur held ws next⟩) :
    Paid P post (σ.settle i call d c o next reply wrote) := by
  intro j cl hj
  have hj' : (σ.clients.set i ⟨call, .idle (next reply)⟩)[j]? = some cl := hj
  have hlog : ∀ {k}, (∃ r ∈ σ.log, r.client = k ∧ P r.command r.reply) →
      ∃ r ∈ (σ.settle i call d c o next reply wrote).log, r.client = k ∧
        P r.command r.reply :=
    fun ⟨r, hr, hk⟩ => ⟨r, List.mem_cons_of_mem _ hr, hk⟩
  rcases getElem?_set_cases hj' with ⟨rfl, rfl⟩ | ⟨-, hold⟩
  · rcases h j _ hi with howes | hpaid
    · rcases howes reply with hP | hnext
      · exact .inr ⟨_, List.mem_cons_self, rfl, hP⟩
      · exact .inl hnext
    · exact .inr (hlog hpaid)
  · exact (h j cl hold).imp_right hlog

theorem change [DecidableEq K] {M : System C Res Call α O D K ε}
    (hbody : ∀ call, (M.body call).Owes P post) (h : Paid P post σ)
    {σ' : State C Res Call α O D K ε} (hstep : System.Change M σ σ') : Paid P post σ' := by
  cases hstep with
  | spawn call =>
      intro i cl hi
      by_cases hlen : i < σ.clients.length
      · exact h i cl ((List.getElem?_append_left hlen).symm.trans hi)
      · have hnew : [(⟨call, .idle (M.body call)⟩ : Client C Res Call α O D K ε)][
            i - σ.clients.length]? = some cl :=
          (List.getElem?_append_right (Nat.le_of_not_lt hlen)).symm.trans hi
        obtain rfl := List.mem_singleton.1 (List.mem_of_getElem? hnew)
        exact .inl (hbody call)
  | begin i o call c next hi => exact h.setClient hi id
  | lock i call c o k cur held ws next hi _ => exact h.setClient hi id
  | read i call c o cur held ws next view hi _ => exact h.setClient hi id
  | write i call c o w cur held ws next view hi _ => exact h.setClient hi id
  | fail i call c o cur held ws next e hi => exact h.settle hi
  | commit i call c o a held ws next d hi _ => exact h.settle hi

end Paid

/-- A client that has finished with a value in `post` has a transaction with a reply
in `P`. -/
theorem System.Reaches.owes [DecidableEq K] {M : System C Res Call α O D K ε}
    {P : (c : C) → Reply Res ε c → Prop} {post : α → Prop}
    (hbody : ∀ call, (M.body call).Owes P post) {d : D} {σ : State C Res Call α O D K ε}
    (h : M.Reaches (State.init d) σ) {i : ℕ} {v : α} (hi : σ.result? i = some v)
    (hv : post v) : ∃ r ∈ σ.log, r.client = i ∧ P r.command r.reply := by
  have hpaid : Paid P post σ := by
    clear hi
    induction h with
    | refl => exact .init d
    | tail _ hstep ih => exact ih.change hbody hstep.change
  rw [State.result?] at hi
  split at hi
  · rename_i call rest hclient
    refine (hpaid i _ hclient).resolve_left fun howes => ?_
    cases rest with
    | pure a => exact howes (Option.some.inj hi ▸ hv)
    | call c next => cases hi
  · cases hi

end Transaction

end Shortlink

import Shortlink.Interaction.Pool

/-!
# Runs of a pool

What a run tells about one of its calls. `Fires M ok e σ σ'` is the step that
adds the entry `e` to the history; `Reaches.split` finds this step for every
entry. `Reaches.owes` finds the step a call must have made before it finished
with a given value, `Reaches.sat` carries a predicate on executions from the
programs of the calls to what is left of them.
-/

namespace Shortlink

namespace Interaction

variable {C : Type} {R : C → Type} {Call α S O X : Type}

/-- The call started as number `k`. -/
def Pool.call? (σ : Pool C R Call α S) (k : ℕ) : Option Call :=
  σ.threads[k]?.map fun th => th.call

namespace Semantics

variable {M : Semantics C R Call α S O X}
  {ok : Pool C R Call α S → Event Call O X → Prop}

/-- The step of a run that adds `e` to the history. -/
structure Fires (M : Semantics C R Call α S O X)
    (ok : Pool C R Call α S → Event Call O X → Prop) (e : Entry C R)
    (σ σ' : Pool C R Call α S) : Prop where
  exec : ∃ o, ok σ (.exec e.thread o) ∧
    M.exec e.command o σ.shared = some (e.reply, σ'.shared)
  thread : ∃ call next,
    σ.threads[e.thread]? = some ⟨call, .call e.command next⟩ ∧
      σ'.threads = σ.threads.set e.thread ⟨call, next e.reply⟩
  history : σ'.history = e :: σ.history

theorem Fires.steps {e : Entry C R} {σ σ' : Pool C R Call α S}
    (h : M.Fires ok e σ σ') : M.Steps ok σ σ' := by
  obtain ⟨⟨o, hok, hexec⟩, ⟨call, next, hi, hthreads⟩, hhistory⟩ := h
  refine ⟨.exec e.thread o, hok, ?_⟩
  rw [step_exec_iff]
  refine ⟨call, e.command, next, e.reply, σ'.shared, hi, hexec, ?_⟩
  cases σ'
  simp_all

theorem Fires.mono {ok' : Pool C R Call α S → Event Call O X → Prop}
    (hok : ∀ σ e, ok σ e → ok' σ e) {e : Entry C R} {σ σ' : Pool C R Call α S}
    (h : M.Fires ok e σ σ') : M.Fires ok' e σ σ' :=
  ⟨h.exec.imp fun _ ho => ⟨hok _ _ ho.1, ho.2⟩, h.thread, h.history⟩

/-- What one step does to the calls and to the history. -/
inductive Moves (M : Semantics C R Call α S O X)
    (ok : Pool C R Call α S → Event Call O X → Prop)
    (σ σ' : Pool C R Call α S) : Prop where
  | spawn (call : Call) (hok : ok σ (.spawn call))
      (hshared : σ'.shared = σ.shared)
      (hthreads : σ'.threads = σ.threads ++ [⟨call, M.body call⟩])
      (hhistory : σ'.history = σ.history)
  | exec (e : Entry C R) (h : M.Fires ok e σ σ')
  | environment (x : X) (hok : ok σ (.environment x))
      (hshared : σ'.shared = M.environment x σ.shared)
      (hthreads : σ'.threads = σ.threads) (hhistory : σ'.history = σ.history)

theorem Steps.moves {σ σ' : Pool C R Call α S} (h : M.Steps ok σ σ') :
    M.Moves ok σ σ' := by
  obtain ⟨e, hok, hstep⟩ := h
  cases e with
  | spawn call =>
      obtain rfl := Option.some.inj hstep
      exact .spawn call hok rfl rfl rfl
  | exec i o =>
      obtain ⟨call, c, next, r, s, hi, hexec, rfl⟩ :=
        (M.step_exec_iff i o σ σ').1 hstep
      exact .exec ⟨i, c, r⟩ ⟨⟨o, hok, hexec⟩, ⟨call, next, hi, rfl⟩, rfl⟩
  | environment x =>
      obtain rfl := Option.some.inj hstep
      exact .environment x hok rfl rfl rfl

/-- Where a call of the later pool comes from: it was just started, it just
executed its next command, or it has not moved. -/
theorem Moves.thread {σ σ' : Pool C R Call α S} (h : M.Moves ok σ σ') {k : ℕ}
    {call : Call} {rest : Program C R α}
    (hk : σ'.threads[k]? = some ⟨call, rest⟩) :
    k = σ.threads.length ∧ rest = M.body call ∧ ok σ (.spawn call) ∨
      (∃ c r next, M.Fires ok ⟨k, c, r⟩ σ σ' ∧
        σ.threads[k]? = some ⟨call, .call c next⟩ ∧ rest = next r) ∨
      σ.threads[k]? = some ⟨call, rest⟩ := by
  cases h with
  | spawn call' hok hshared hthreads hhistory =>
      rw [hthreads, List.getElem?_append] at hk
      split at hk
      · exact .inr (.inr hk)
      · rename_i hge
        have hlt := (List.getElem?_eq_some_iff.1 hk).1
        have hmem := List.mem_singleton.1 (List.mem_of_getElem? hk)
        simp only [List.length_singleton] at hlt
        cases hmem
        exact .inl ⟨by omega, rfl, hok⟩
  | exec e he =>
      obtain ⟨i, c, r⟩ := e
      obtain ⟨call', next, hi, hthreads⟩ := he.thread
      rw [hthreads] at hk
      by_cases hik : i = k
      · subst hik
        have hlt : i < σ.threads.length := (List.getElem?_eq_some_iff.1 hi).1
        rw [List.getElem?_set_self hlt] at hk
        cases hk
        exact .inr (.inl ⟨c, r, next, he, hi, rfl⟩)
      · rw [List.getElem?_set_ne hik] at hk
        exact .inr (.inr hk)
  | environment x hok hshared hthreads hhistory =>
      rw [hthreads] at hk
      exact .inr (.inr hk)

/-- A started call stays the same call. -/
theorem Reaches.call {σ σ' : Pool C R Call α S} (h : M.Reaches ok σ σ')
    {k : ℕ} {th : Thread C R Call α} (hk : σ.threads[k]? = some th) :
    ∃ rest, σ'.threads[k]? = some ⟨th.call, rest⟩ := by
  induction h with
  | refl => exact ⟨th.rest, hk⟩
  | tail _ hstep ih =>
      obtain ⟨rest, hrest⟩ := ih
      cases hstep.moves with
      | spawn call' hok hshared hthreads hhistory =>
          refine ⟨rest, ?_⟩
          rw [hthreads, List.getElem?_append_left
            (List.getElem?_eq_some_iff.1 hrest).1]
          exact hrest
      | exec e he =>
          obtain ⟨call', next, hi, hthreads⟩ := he.thread
          rw [hthreads]
          by_cases hik : e.thread = k
          · rw [hik] at hi ⊢
            rw [hrest] at hi
            cases hi
            exact ⟨next e.reply, List.getElem?_set_self
              (List.getElem?_eq_some_iff.1 hrest).1⟩
          · exact ⟨rest, by rw [List.getElem?_set_ne hik]; exact hrest⟩
      | environment x hok hshared hthreads hhistory =>
          exact ⟨rest, by rw [hthreads]; exact hrest⟩

theorem Reaches.call? {σ σ' : Pool C R Call α S} (h : M.Reaches ok σ σ') {k : ℕ}
    {call : Call} (hk : σ.call? k = some call) : σ'.call? k = some call := by
  obtain ⟨th, hth, rfl⟩ := Option.map_eq_some_iff.1 hk
  obtain ⟨rest, hrest⟩ := h.call hth
  rw [Pool.call?, hrest]
  rfl

/-- A call that is not in the earlier pool was started in between. -/
theorem Reaches.spawned {σ σ' : Pool C R Call α S} (h : M.Reaches ok σ σ')
    {k : ℕ} {call : Call} {rest : Program C R α}
    (hk : σ'.threads[k]? = some ⟨call, rest⟩) (hnew : σ.threads.length ≤ k) :
    ∃ σ₁, ok σ₁ (.spawn call) := by
  induction h generalizing rest with
  | refl =>
      have := (List.getElem?_eq_some_iff.1 hk).1
      omega
  | @tail σ₁ σ₂ hrun hstep ih =>
      rcases hstep.moves.thread hk with
        ⟨-, -, hok⟩ | ⟨c, r, next, -, hnext, -⟩ | hold
      · exact ⟨σ₁, hok⟩
      · exact ih hnext
      · exact ih hold

theorem Reaches.length_le {σ σ' : Pool C R Call α S} (h : M.Reaches ok σ σ') :
    σ.threads.length ≤ σ'.threads.length := by
  by_contra hlt
  have hlt' : σ'.threads.length < σ.threads.length := by omega
  obtain ⟨rest, hrest⟩ := h.call (List.getElem?_eq_getElem hlt')
  have := (List.getElem?_eq_some_iff.1 hrest).1
  omega

/-- The step that added an entry of the history. -/
theorem Reaches.split {σ σ' : Pool C R Call α S} (h : M.Reaches ok σ σ')
    {e : Entry C R} {l₁ l₂ : List (Entry C R)}
    (hl : σ'.history = l₂ ++ e :: l₁) (hl₁ : σ.history <:+ l₁) :
    ∃ σ₁ σ₂, M.Reaches ok σ σ₁ ∧ M.Fires ok e σ₁ σ₂ ∧ σ₁.history = l₁ ∧
      M.Reaches ok σ₂ σ' := by
  induction h generalizing l₂ with
  | refl =>
      have hlen := hl₁.length_le
      rw [hl] at hlen
      simp only [List.length_append, List.length_cons] at hlen
      omega
  | @tail σ₁ σ₂ hrun hstep ih =>
      have hkeep : σ₂.history = σ₁.history →
          ∃ τ₁ τ₂, M.Reaches ok σ τ₁ ∧ M.Fires ok e τ₁ τ₂ ∧ τ₁.history = l₁ ∧
            M.Reaches ok τ₂ σ₂ := by
        intro heq
        obtain ⟨τ₁, τ₂, h₁, h₂, h₃, h₄⟩ := ih (heq ▸ hl)
        exact ⟨τ₁, τ₂, h₁, h₂, h₃, h₄.tail hstep⟩
      cases hstep.moves with
      | spawn call' hok hshared hthreads hhistory => exact hkeep hhistory
      | environment x hok hshared hthreads hhistory => exact hkeep hhistory
      | exec e' he =>
          have heq := he.history
          rw [hl] at heq
          cases l₂ with
          | nil =>
              simp only [List.nil_append, List.cons.injEq] at heq
              obtain ⟨rfl, rfl⟩ := heq
              exact ⟨σ₁, σ₂, hrun, he, rfl, .refl⟩
          | cons e₂ l₂ =>
              simp only [List.cons_append, List.cons.injEq] at heq
              obtain ⟨τ₁, τ₂, h₁, h₂, h₃, h₄⟩ := ih heq.2.symm
              exact ⟨τ₁, τ₂, h₁, h₂, h₃, h₄.tail hstep⟩

/-- A call that finishes with a value in `post` has made a step in `P`. -/
theorem Reaches.owes (P : Call → (c : C) → R c → Prop)
    (post : Call → α → Prop)
    (hbody : ∀ call, (M.body call).Owes (P call) (post call))
    {σ σ' : Pool C R Call α S} (h : M.Reaches ok σ σ') {k : ℕ} {call : Call}
    {rest : Program C R α} (hnew : σ.threads.length ≤ k)
    (hk : σ'.threads[k]? = some ⟨call, rest⟩) :
    rest.Owes (P call) (post call) ∨
      ∃ c r σ₁ σ₂, P call c r ∧ M.Reaches ok σ σ₁ ∧
        M.Fires ok ⟨k, c, r⟩ σ₁ σ₂ ∧ M.Reaches ok σ₂ σ' := by
  induction h generalizing rest with
  | refl =>
      have := (List.getElem?_eq_some_iff.1 hk).1
      omega
  | @tail σ₁ σ₂ hrun hstep ih =>
      have hkeep : ∀ rest', σ₁.threads[k]? = some ⟨call, rest'⟩ →
          rest'.Owes (P call) (post call) ∨
            ∃ c r τ₁ τ₂, P call c r ∧ M.Reaches ok σ τ₁ ∧
              M.Fires ok ⟨k, c, r⟩ τ₁ τ₂ ∧ M.Reaches ok τ₂ σ₂ := by
        intro rest' hrest'
        rcases ih hrest' with howes | ⟨c, r, τ₁, τ₂, hP, h₁, h₂, h₃⟩
        · exact .inl howes
        · exact .inr ⟨c, r, τ₁, τ₂, hP, h₁, h₂, h₃.tail hstep⟩
      rcases hstep.moves.thread hk with
        ⟨-, rfl, -⟩ | ⟨c, r, next, hfires, hnext, rfl⟩ | hold
      · exact .inl (hbody call)
      · rcases hkeep _ hnext with howes | hmade
        · rcases howes r with hP | howes
          · exact .inr ⟨c, r, σ₁, σ₂, hP, hrun, hfires, .refl⟩
          · exact .inl howes
        · exact .inr hmade
      · exact hkeep rest hold

/-- When the replies given to the calls from number `n` on satisfy `ρ`, what is
left of them satisfies what their programs do. -/
theorem Reaches.sat (ρ : Call → (c : C) → R c → Prop) (φ : Call → C → Prop)
    (post : Call → α → Prop) {n : ℕ} {σ σ' : Pool C R Call α S}
    (hbody : ∀ σ call, ok σ (.spawn call) →
      (M.body call).Sat (ρ call) (φ call) (post call))
    (hreply : ∀ σ₁ σ₂ k call c r next, M.Reaches ok σ σ₁ → n ≤ k →
      σ₁.threads[k]? = some ⟨call, .call c next⟩ →
      M.Fires ok ⟨k, c, r⟩ σ₁ σ₂ → φ call c → ρ call c r)
    (hσ : ∀ k call rest, n ≤ k → σ.threads[k]? = some ⟨call, rest⟩ →
      rest.Sat (ρ call) (φ call) (post call))
    (h : M.Reaches ok σ σ') {k : ℕ} {call : Call} {rest : Program C R α}
    (hn : n ≤ k) (hk : σ'.threads[k]? = some ⟨call, rest⟩) :
    rest.Sat (ρ call) (φ call) (post call) := by
  induction h generalizing rest with
  | refl => exact hσ k call rest hn hk
  | @tail σ₁ σ₂ hrun hstep ih =>
      rcases hstep.moves.thread hk with
        ⟨-, rfl, hok⟩ | ⟨c, r, next, hfires, hnext, rfl⟩ | hold
      · exact hbody σ₁ call hok
      · obtain ⟨hc, hrest⟩ := ih hnext
        exact hrest r (hreply σ₁ σ₂ k call c r next hrun hn hnext hfires hc)
      · exact ih hold

/-- What every command and the environment keep of the shared state holds along a
run. -/
theorem Reaches.shared {P : S → Prop}
    (hexec : ∀ c o s r s', P s → M.exec c o s = some (r, s') → P s')
    (henv : ∀ x s, P s → P (M.environment x s)) {σ σ' : Pool C R Call α S}
    (h : M.Reaches ok σ σ') (hσ : P σ.shared) : P σ'.shared := by
  induction h with
  | refl => exact hσ
  | tail _ hstep ih =>
      cases hstep.moves with
      | spawn call hok hshared hthreads hhistory => exact hshared ▸ ih
      | exec e he =>
          obtain ⟨o, -, he⟩ := he.exec
          exact hexec _ o _ _ _ ih he
      | environment x hok hshared hthreads hhistory => exact hshared ▸ henv x _ ih

/-- Entries of the history belong to started calls. -/
theorem Reaches.thread_lt {s : S} {σ : Pool C R Call α S}
    (h : M.Reaches ok (Pool.init s) σ) {e : Entry C R} (he : e ∈ σ.history) :
    e.thread < σ.threads.length := by
  induction h with
  | refl => simp [Pool.init] at he
  | @tail σ₁ σ₂ hrun hstep ih =>
      have hlen := Reaches.length_le (.single hstep)
      cases hstep.moves with
      | spawn call' hok hshared hthreads hhistory =>
          exact Nat.lt_of_lt_of_le (ih (hhistory ▸ he)) hlen
      | environment x hok hshared hthreads hhistory =>
          exact Nat.lt_of_lt_of_le (ih (hhistory ▸ he)) hlen
      | exec e' he' =>
          rw [he'.history] at he
          rcases List.mem_cons.1 he with rfl | he
          · obtain ⟨call, next, hi, -⟩ := he'.thread
            exact Nat.lt_of_lt_of_le (List.getElem?_eq_some_iff.1 hi).1 hlen
          · exact Nat.lt_of_lt_of_le (ih he) hlen

end Semantics

end Interaction

end Shortlink

import Shortlink.Interaction.Run

/-!
# Traces of a call

What a call does depends on nothing but the replies it has been given. Its
trace is the list of its commands with their replies, the most recent first.
`Obeys may ends` says of a program which command it may issue after which trace,
and with which value it may end. `Reaches.obeys` finds the trace in the history
of a run, and `Reaches.allowed` says that every entry of the history was allowed
by the trace before it: the reply that made a call issue a command stands
earlier in the history.
-/

namespace Shortlink

namespace Interaction

/-- A command with its reply. -/
abbrev Exchange (C : Type) (R : C → Type) : Type := (c : C) × R c

variable {C : Type} {R : C → Type} {Call α β S O X : Type}

namespace Program

/-- Every command is one that `may` allows after the trace so far, and every
value one that `ends` allows. -/
def Obeys (may : List (Exchange C R) → C → Prop)
    (ends : List (Exchange C R) → α → Prop) :
    List (Exchange C R) → Program C R α → Prop
  | trace, .pure a => ends trace a
  | trace, .call c next =>
      may trace c ∧ ∀ r, Obeys may ends (⟨c, r⟩ :: trace) (next r)

variable {may : List (Exchange C R) → C → Prop}
  {ends : List (Exchange C R) → α → Prop} {trace : List (Exchange C R)}

@[simp] theorem obeys_pure (a : α) :
    Obeys may ends trace (.pure a) ↔ ends trace a := Iff.rfl

@[simp] theorem obeys_call (c : C) (next : R c → Program C R α) :
    Obeys may ends trace (.call c next) ↔
      may trace c ∧ ∀ r, Obeys may ends (⟨c, r⟩ :: trace) (next r) := Iff.rfl

theorem obeys_bind {ends : List (Exchange C R) → β → Prop}
    (p : Program C R α) (f : α → Program C R β) :
    Obeys may ends trace (p.bind f) ↔
      Obeys may (fun trace a => Obeys may ends trace (f a)) trace p := by
  induction p generalizing trace with
  | pure a => rfl
  | call c next ih => simp only [call_bind, obeys_call, ih]

theorem Obeys.mono {may' : List (Exchange C R) → C → Prop}
    {ends' : List (Exchange C R) → α → Prop}
    (hmay : ∀ trace c, may trace c → may' trace c)
    (hends : ∀ trace a, ends trace a → ends' trace a) {p : Program C R α}
    (h : Obeys may ends trace p) : Obeys may' ends' trace p := by
  induction p generalizing trace with
  | pure a => exact hends trace a h
  | call c next ih => exact ⟨hmay trace c h.1, fun r => ih r (h.2 r)⟩

theorem Obeys.and_suffix {p : Program C R α} (h : Obeys may ends trace p) :
    Obeys may (fun trace' a => trace <:+ trace' ∧ ends trace' a) trace p := by
  induction p generalizing trace with
  | pure a => exact ⟨List.suffix_refl trace, h⟩
  | call c next ih =>
      refine ⟨h.1, fun r => (ih r (h.2 r)).mono (fun _ _ hc => hc) fun trace' a ha => ?_⟩
      exact ⟨(List.suffix_cons _ _).trans ha.1, ha.2⟩

theorem obeys_of_append (h : ∀ l a, ends (l ++ trace) a)
    {p : Program C R α} : Obeys (fun _ _ => True) ends trace p := by
  induction p generalizing trace with
  | pure a => exact h [] a
  | call c next ih =>
      refine ⟨trivial, fun r => ih r fun l a => ?_⟩
      rw [List.append_cons]
      exact h _ a

/-- A program whose commands are always allowed obeys, when its values are allowed
whatever the replies. -/
theorem obeys_of_sat {φ : C → Prop} {p : Program C R α}
    (hp : p.Sat (fun _ _ => True) φ fun _ => True) (hmay : ∀ trace c, φ c → may trace c)
    (hends : ∀ l a, (∀ x ∈ l, φ x.1) → ends (l ++ trace) a) :
    Obeys may ends trace p := by
  induction p generalizing trace with
  | pure a => exact hends [] a nofun
  | call c next ih =>
      refine ⟨hmay trace c hp.1, fun r => ih r (hp.2 r trivial) fun l a hl => ?_⟩
      rw [List.append_cons]
      refine hends _ a fun x hx => ?_
      rcases List.mem_append.1 hx with hx | hx
      · exact hl x hx
      · rw [List.mem_singleton.1 hx]
        exact hp.1

/-- The commands of a program that are allowed after each other. -/
theorem Sat.obeys {φ : C → Prop} {p : Program C R α}
    (hp : p.Sat (fun _ _ => True) φ fun _ => True)
    (hmay : ∀ trace c, (∀ x ∈ trace, φ x.1) → φ c → may trace c)
    (htrace : ∀ x ∈ trace, φ x.1) :
    Obeys may (fun trace _ => ∀ x ∈ trace, φ x.1) trace p := by
  induction p generalizing trace with
  | pure a => exact htrace
  | call c next ih =>
      exact ⟨hmay trace c htrace hp.1, fun r => ih r (hp.2 r trivial)
        (List.forall_mem_cons.2 ⟨hp.1, htrace⟩)⟩

/-- What is allowed after some trace is what the program issues. -/
theorem Obeys.sat {φ : C → Prop} {p : Program C R α} (h : Obeys may ends trace p)
    (hφ : ∀ trace c, may trace c → φ c) : p.Sat (fun _ _ => True) φ fun _ => True := by
  induction p generalizing trace with
  | pure a => trivial
  | call c next ih => exact ⟨hφ trace c h.1, fun r _ => ih r (h.2 r)⟩

end Program

/-- The trace of the call started as number `k`. -/
def traceOf (history : List (Entry C R)) (k : ℕ) : List (Exchange C R) :=
  history.filterMap fun e =>
    if e.thread = k then some ⟨e.command, e.reply⟩ else none

@[simp] theorem traceOf_nil (k : ℕ) :
    traceOf ([] : List (Entry C R)) k = [] := rfl

theorem traceOf_cons_self (e : Entry C R) (history : List (Entry C R)) :
    traceOf (e :: history) e.thread =
      ⟨e.command, e.reply⟩ :: traceOf history e.thread := by
  simp [traceOf]

theorem traceOf_cons_of_ne {e : Entry C R} {k : ℕ} (h : e.thread ≠ k)
    (history : List (Entry C R)) :
    traceOf (e :: history) k = traceOf history k := by
  simp [traceOf, h]

theorem mem_traceOf_of_suffix {l₁ l₂ : List (Entry C R)} (h : l₁ <:+ l₂) {k : ℕ}
    {x : Exchange C R} (hx : x ∈ traceOf l₁ k) : x ∈ traceOf l₂ k :=
  (List.IsSuffix.filterMap _ h).mem hx

theorem mem_traceOf {history : List (Entry C R)} {k : ℕ} {c : C} {r : R c} :
    (⟨c, r⟩ : Exchange C R) ∈ traceOf history k ↔
      (⟨k, c, r⟩ : Entry C R) ∈ history := by
  simp only [traceOf, List.mem_filterMap]
  constructor
  · rintro ⟨⟨i, c', r'⟩, he, heq⟩
    split at heq
    · rename_i hi
      cases hi
      cases heq
      exact he
    · cases heq
  · intro he
    exact ⟨_, he, if_pos rfl⟩

theorem exists_of_traceOf_eq {history : List (Entry C R)} {k : ℕ} {c : C}
    {r : R c} {l₁ l₂ : List (Exchange C R)}
    (h : traceOf history k = l₂ ++ ⟨c, r⟩ :: l₁) :
    ∃ h₂ h₁, history = h₂ ++ ⟨k, c, r⟩ :: h₁ ∧ traceOf h₁ k = l₁ := by
  obtain ⟨a₂, a₁, rfl, -, h₁⟩ := List.filterMap_eq_append_iff.1 h
  obtain ⟨b₂, ⟨i, c', r'⟩, b₁, rfl, -, he, hl₁⟩ := List.filterMap_eq_cons_iff.1 h₁
  split at he
  · rename_i hi
    cases hi
    cases he
    exact ⟨a₂ ++ b₂, b₁, by simp, hl₁⟩
  · cases he

theorem suffix_of_not_mem {β : Type} {l a b : List β} {x : β}
    (h : l <:+ a ++ x :: b) (hx : x ∉ l) : l <:+ b := by
  induction a with
  | nil =>
      rcases List.suffix_cons_iff.1 h with rfl | h
      · simp at hx
      · exact h
  | cons y a ih =>
      rcases List.suffix_cons_iff.1 h with rfl | h
      · simp at hx
      · exact ih h

namespace Semantics

variable {M : Semantics C R Call α S O X}
  {ok : Pool C R Call α S → Event Call O X → Prop}

/-- The step of a call that was started after `σ`. -/
theorem Reaches.split_new {ok₀ : Pool C R Call α S → Event Call O X → Prop}
    {s : S} {σ σ' : Pool C R Call α S}
    (h₀ : M.Reaches ok₀ (Pool.init s) σ) (h : M.Reaches ok σ σ') {e : Entry C R}
    {l₁ l₂ : List (Entry C R)} (hl : σ'.history = l₂ ++ e :: l₁)
    (hnew : σ.threads.length ≤ e.thread) :
    ∃ σ₁ σ₂, M.Reaches ok σ σ₁ ∧ M.Fires ok e σ₁ σ₂ ∧ σ₁.history = l₁ ∧
      M.Reaches ok σ₂ σ' := by
  refine h.split hl (suffix_of_not_mem (hl ▸ h.history_suffix) fun he => ?_)
  have := h₀.thread_lt he
  omega

/-- What is left of a call obeys what its program obeys. -/
theorem Reaches.obeys (may : Call → List (Exchange C R) → C → Prop)
    (ends : Call → List (Exchange C R) → α → Prop) {s : S}
    {σ : Pool C R Call α S} (h : M.Reaches ok (Pool.init s) σ)
    (hbody : ∀ σ call, ok σ (.spawn call) →
      (M.body call).Obeys (may call) (ends call) [])
    {k : ℕ} {call : Call} {rest : Program C R α}
    (hk : σ.threads[k]? = some ⟨call, rest⟩) :
    rest.Obeys (may call) (ends call) (traceOf σ.history k) := by
  induction h generalizing rest with
  | refl => simp [Pool.init] at hk
  | @tail σ₁ σ₂ hrun hstep ih =>
      have hmoves := hstep.moves
      rcases hmoves.thread hk with
        ⟨rfl, rfl, hok⟩ | ⟨c, r, next, hfires, hnext, rfl⟩ | hold
      · have hnone : traceOf σ₂.history σ₁.threads.length = [] := by
          rw [List.eq_nil_iff_forall_not_mem]
          rintro ⟨c, r⟩ hmem
          have he := mem_traceOf.1 hmem
          cases hmoves with
          | spawn call' hok' hshared hthreads hhistory =>
              exact absurd (Reaches.thread_lt hrun (hhistory ▸ he)) (Nat.lt_irrefl _)
          | environment x hok' hshared hthreads hhistory =>
              exact absurd (Reaches.thread_lt hrun (hhistory ▸ he)) (Nat.lt_irrefl _)
          | exec e hfires =>
              obtain ⟨call', next, -, hthreads⟩ := hfires.thread
              rw [hthreads] at hk
              have := (List.getElem?_eq_some_iff.1 hk).1
              simp at this
        rw [hnone]
        exact hbody σ₁ call hok
      · have htrace : traceOf σ₂.history k = ⟨c, r⟩ :: traceOf σ₁.history k := by
          rw [hfires.history]
          exact traceOf_cons_self ⟨k, c, r⟩ σ₁.history
        rw [htrace]
        exact (ih hnext).2 r
      · cases hmoves with
        | spawn call' hok' hshared hthreads hhistory =>
            rw [hhistory]
            exact ih hold
        | environment x hok' hshared hthreads hhistory =>
            rw [hhistory]
            exact ih hold
        | exec e hfires =>
            obtain ⟨call', next, hi, hthreads⟩ := hfires.thread
            by_cases hik : e.thread = k
            · subst hik
              have hcall : call' = call :=
                (Thread.mk.inj (Option.some.inj (hi.symm.trans hold))).1
              subst hcall
              rw [hthreads, List.getElem?_set_self
                (List.getElem?_eq_some_iff.1 hold).1] at hk
              obtain ⟨-, rfl⟩ := Thread.mk.inj (Option.some.inj hk)
              rw [hfires.history, traceOf_cons_self]
              exact (ih hi).2 e.reply
            · rw [hfires.history, traceOf_cons_of_ne hik]
              exact ih hold

/-- The command that a step executes is allowed after the trace so far. -/
theorem Fires.allowed (may : Call → List (Exchange C R) → C → Prop)
    (ends : Call → List (Exchange C R) → α → Prop) {s : S}
    {σ σ' : Pool C R Call α S} {e : Entry C R} (he : M.Fires ok e σ σ')
    (h : M.Reaches ok (Pool.init s) σ)
    (hbody : ∀ σ call, ok σ (.spawn call) →
      (M.body call).Obeys (may call) (ends call) []) :
    ∃ call rest, σ.threads[e.thread]? = some ⟨call, rest⟩ ∧
      may call (traceOf σ.history e.thread) e.command := by
  obtain ⟨call, next, hi, -⟩ := he.thread
  exact ⟨call, _, hi, (h.obeys may ends hbody hi).1⟩

/-- Every entry of the history was allowed by the trace before it. -/
theorem Reaches.allowed (may : Call → List (Exchange C R) → C → Prop)
    (ends : Call → List (Exchange C R) → α → Prop) {s : S}
    {σ : Pool C R Call α S} (h : M.Reaches ok (Pool.init s) σ)
    (hbody : ∀ σ call, ok σ (.spawn call) →
      (M.body call).Obeys (may call) (ends call) [])
    {e : Entry C R} {l₁ l₂ : List (Entry C R)}
    (hl : σ.history = l₂ ++ e :: l₁) :
    ∃ call rest, σ.threads[e.thread]? = some ⟨call, rest⟩ ∧
      may call (traceOf l₁ e.thread) e.command := by
  obtain ⟨σ₁, σ₂, h₁, he, rfl, h₂⟩ := h.split hl (List.nil_suffix)
  obtain ⟨call, rest, hi, hmay⟩ := he.allowed may ends h₁ hbody
  obtain ⟨rest', hrest'⟩ := Reaches.call ((Relation.ReflTransGen.single
    he.steps).trans h₂) hi
  exact ⟨call, rest', hrest', hmay⟩

/-- A command that is allowed only while the call has issued none of its kind is executed
once. -/
theorem Reaches.eq_of_once (p : C → Bool) (may : Call → List (Exchange C R) → C → Prop)
    (ends : Call → List (Exchange C R) → α → Prop) {s : S}
    {σ : Pool C R Call α S} (h : M.Reaches ok (Pool.init s) σ)
    (hbody : ∀ σ call, ok σ (.spawn call) →
      (M.body call).Obeys (may call) (ends call) [])
    (honce : ∀ call trace c, may call trace c → p c = true →
      ∀ x ∈ trace, p x.1 = false) {k : ℕ} {x y : Exchange C R}
    (hx : x ∈ traceOf σ.history k) (hy : y ∈ traceOf σ.history k)
    (hpx : p x.1 = true) (hpy : p y.1 = true) : x = y := by
  obtain ⟨cx, rx⟩ := x
  obtain ⟨cy, ry⟩ := y
  -- an entry of the kind finds none before itself
  have hfirst : ∀ (c : C) (r : R c), p c = true → ∀ l₂ l₁,
      σ.history = l₂ ++ ⟨k, c, r⟩ :: l₁ → ∀ w ∈ traceOf l₁ k, p w.1 = false := by
    intro c r hc l₂ l₁ hl
    obtain ⟨call, rest, -, hmay⟩ := h.allowed may ends hbody hl
    exact honce call _ c hmay hc
  obtain ⟨l₂, l₁, hl⟩ := List.append_of_mem (mem_traceOf.1 hx)
  have hmem := mem_traceOf.1 hy
  rw [hl] at hmem
  rcases List.mem_append.1 hmem with hmem | hmem
  · obtain ⟨a, b, rfl⟩ := List.append_of_mem hmem
    have hlater := hfirst cy ry hpy a (b ++ ⟨k, cx, rx⟩ :: l₁) (by rw [hl]; simp) ⟨cx, rx⟩
      (mem_traceOf.2 (List.mem_append_right b List.mem_cons_self))
    rw [hpx] at hlater
    cases hlater
  · rcases List.mem_cons.1 hmem with heq | hmem
    · cases heq
      rfl
    · have hlater := hfirst cx rx hpx l₂ l₁ hl ⟨cy, ry⟩ (mem_traceOf.2 hmem)
      rw [hpy] at hlater
      cases hlater

end Semantics

end Interaction

end Shortlink

import Shortlink.Interaction.Throwing

/-!
# The exchanges of a program

`Follows p trace rest` says that `rest` is left of `p` after the exchanges of `trace`, the
first one first. A program has no choice: what is left depends on the replies alone
(`Follows.unique`). `Reaches.follows` finds the trace of a call in the history.
-/

namespace Shortlink

namespace Interaction

variable {C : Type} {R : C → Type} {Call α β S O X : Type}

namespace Program

theorem bind_assoc {γ : Type} (p : Program C R α) (f : α → Program C R β)
    (g : β → Program C R γ) : (p.bind f).bind g = p.bind fun a => (f a).bind g := by
  induction p with
  | pure a => rfl
  | call c next ih => simp only [call_bind, ih]

inductive Follows : Program C R α → List (Exchange C R) → Program C R α → Prop
  | nil (p : Program C R α) : Follows p [] p
  | cons {c : C} {next : R c → Program C R α} {r : R c} {trace : List (Exchange C R)}
      {rest : Program C R α} (h : Follows (next r) trace rest) :
      Follows (.call c next) (⟨c, r⟩ :: trace) rest

variable {p rest rest' : Program C R α} {trace trace' : List (Exchange C R)}

@[simp] theorem follows_pure {a : α} :
    (Program.pure a : Program C R α).Follows trace rest ↔ trace = [] ∧ rest = .pure a := by
  constructor
  · intro h
    cases h with
    | nil => exact ⟨rfl, rfl⟩
  · rintro ⟨rfl, rfl⟩
    exact .nil _

@[simp] theorem follows_call {c : C} {next : R c → Program C R α} :
    (Program.call c next).Follows trace rest ↔
      trace = [] ∧ rest = .call c next ∨
        ∃ r t, trace = ⟨c, r⟩ :: t ∧ (next r).Follows t rest := by
  constructor
  · intro h
    cases h with
    | nil => exact .inl ⟨rfl, rfl⟩
    | cons h => exact .inr ⟨_, _, rfl, h⟩
  · rintro (⟨rfl, rfl⟩ | ⟨r, t, rfl, h⟩)
    · exact .nil _
    · exact .cons h

namespace Follows

theorem unique (h : p.Follows trace rest) (h' : p.Follows trace rest') : rest = rest' := by
  induction h with
  | nil p =>
      cases h' with
      | nil => rfl
  | cons h ih =>
      cases h' with
      | cons h' => exact ih h'

/-- One more exchange. -/
theorem snoc {c : C} {next : R c → Program C R α} (h : p.Follows trace (.call c next))
    (r : R c) : p.Follows (trace ++ [⟨c, r⟩]) (next r) := by
  generalize hrest : Program.call c next = rest at h
  induction h with
  | nil p =>
      subst hrest
      exact .cons (.nil _)
  | cons h ih => exact .cons (ih hrest)

/-- The commands are those that the program issues. -/
theorem sat (φ : C → Prop) (h : p.Follows trace rest)
    (hp : p.Sat (fun _ _ => True) φ fun _ => True) : ∀ x ∈ trace, φ x.1 := by
  induction h with
  | nil p => simp
  | cons h ih => exact List.forall_mem_cons.2 ⟨hp.1, ih (hp.2 _ trivial)⟩

/-- A trace of two programs in sequence is one of the first, or a whole one of the first
and one of the second. -/
theorem of_bind {p : Program C R α} {f : α → Program C R β} {rest : Program C R β}
    (h : (p.bind f).Follows trace rest) :
    (∃ p', p.Follows trace p' ∧ rest = p'.bind f) ∨
      ∃ t₁ t₂ a, trace = t₁ ++ t₂ ∧ p.Follows t₁ (.pure a) ∧ (f a).Follows t₂ rest := by
  induction p generalizing trace with
  | pure a => exact .inr ⟨[], trace, a, rfl, .nil _, h⟩
  | call c next ih =>
      rcases follows_call.1 h with ⟨rfl, rfl⟩ | ⟨r, t, rfl, hnext⟩
      · exact .inl ⟨_, .nil _, rfl⟩
      · rcases ih r hnext with ⟨p', hp', rfl⟩ | ⟨t₁, t₂, a, rfl, ha, hrest⟩
        · exact .inl ⟨p', .cons hp', rfl⟩
        · exact .inr ⟨⟨c, r⟩ :: t₁, t₂, a, rfl, .cons ha, hrest⟩

end Follows

/-- A trace of a program that is read in another signature is a trace there. -/
theorem Follows.of_embed {C' : Type} {R' : C' → Type} {f : C → C'}
    {g : (c : C) → R' (f c) → R c} {p : Program C R α} {trace : List (Exchange C' R')}
    {rest : Program C' R' α} (h : (p.embed f g).Follows trace rest) :
    ∃ own rest', p.Follows own rest' ∧ rest = rest'.embed f g ∧
      List.Forall₂ (fun (x : Exchange C' R') (y : Exchange C R) =>
        ∃ r, x = ⟨f y.1, r⟩ ∧ y.2 = g y.1 r) trace own := by
  induction p generalizing trace with
  | pure a =>
      obtain ⟨rfl, rfl⟩ := follows_pure.1 h
      exact ⟨[], .pure a, .nil _, rfl, .nil⟩
  | call c next ih =>
      rcases follows_call.1 h with ⟨rfl, rfl⟩ | ⟨r, t, rfl, hnext⟩
      · exact ⟨[], .call c next, .nil _, rfl, .nil⟩
      · obtain ⟨own, rest', hown, rfl, hsame⟩ := ih _ hnext
        exact ⟨⟨c, g c r⟩ :: own, rest', .cons hown, rfl, .cons ⟨r, rfl, rfl⟩ hsame⟩

/-- What is left of a program obeys to issue what the program goes on with. -/
theorem Follows.obeys {q : Program C R α} (h : p.Follows trace.reverse q) :
    q.Obeys (fun t c => ∃ next, p.Follows t.reverse (.call c next))
      (fun t a => p.Follows t.reverse (.pure a)) trace := by
  induction q generalizing trace with
  | pure a => exact h
  | call c next ih =>
      refine ⟨⟨next, h⟩, fun r => ih r ?_⟩
      rw [List.reverse_cons]
      exact h.snoc r

end Program

/-- The history has a trace of every call that was started. -/
theorem Semantics.Reaches.follows {M : Semantics C R Call α S O X}
    {ok : Pool C R Call α S → Event Call O X → Prop} {s : S} {σ : Pool C R Call α S}
    (h : M.Reaches ok (Pool.init s) σ) {k : ℕ} {call : Call} {rest : Program C R α}
    (hk : σ.threads[k]? = some ⟨call, rest⟩) :
    ∃ rest', (M.body call).Follows (traceOf σ.history k).reverse rest' ∧
      ∀ a, rest = .pure a → rest' = .pure a := by
  have hstart : ∀ call, (M.body call).Follows ([] : List (Exchange C R)).reverse (M.body call) :=
    fun call => .nil _
  have hobeys := h.obeys
    (fun call t c => ∃ next, (M.body call).Follows t.reverse (.call c next))
    (fun call t a => (M.body call).Follows t.reverse (.pure a))
    (fun _ call _ => (hstart call).obeys) hk
  cases rest with
  | pure a => exact ⟨.pure a, hobeys, fun b hb => hb⟩
  | call c next =>
      obtain ⟨next', hnext⟩ := hobeys.1
      exact ⟨.call c next', hnext, fun a ha => by cases ha⟩

end Interaction

end Shortlink

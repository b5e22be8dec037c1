import Shortlink.Interaction.Throwing
import Mathlib.Data.List.Forall2

/-!
# Two runs side by side

A property of two runs compares what an observer sees of them. `Shows` is a run of calls
as the observer makes them: each call is executed at one instant, and between two calls
the state may change in any way that shows what the observer is told. When related states
give related answers and show the same afterwards, two runs with the same inputs give
related answers from first to last (`Shows.forall₂`).
-/

namespace Shortlink

namespace Interaction

variable {C : Type} {R : C → Type} {Call α β ε S O X V : Type}

/-- The observer makes a call, or the state changes and shows `v`. -/
inductive Input (Call V : Type) where
  | call (call : Call)
  | between (v : V)

/-- A call of a run: the state before it, its answer and the state after it. -/
structure Answered (α S : Type) where
  before : S
  answer : α
  after : S

namespace Semantics

/-! ### Calls at one instant -/

/-- The semantics in which nothing happens during a call. -/
def still (M : Semantics C R Call α S O X) : Semantics C R Call α S O Empty where
  body := M.body
  exec := M.exec
  environment x := x.elim

section

variable {M : Semantics C R Call α S O X} {ok : C → O → S → Prop} {s s' : S}

theorem still_idles : M.still.Idles s s' ↔ s' = s := by
  constructor
  · intro h
    exact h.invariant (P := fun s' => s' = s) (fun x => x.elim) rfl
  · rintro rfl
    exact .refl

theorem still_ensures_pure {ends : List (C × O) → β → S → Prop} {b : β} :
    M.still.Ensures ok ends (.pure b) s ↔ ends [] b s := by
  simp [ensures_pure, still_idles]

theorem still_ensures_call {ends : List (C × O) → β → S → Prop} {c : C}
    {next : R c → Program C R β} :
    M.still.Ensures ok ends (.call c next) s ↔
      ∀ o r s', ok c o s → M.exec c o s = some (r, s') →
        M.still.Ensures ok (fun es => ends ((c, o) :: es)) (next r) s' := by
  rw [ensures_call]
  constructor
  · exact fun h o r s' => h s o r s' (still_idles.2 rfl)
  · intro h s₁ o r s' hidle
    obtain rfl := still_idles.1 hidle
    exact h o r s'

end

/-! ### What an observer sees -/

/-- The run from `s` with these inputs, and the calls that it answers. The states between
two calls are `good`. -/
inductive Shows (M : Semantics C R Call α S O X) (start : S → Call → Prop)
    (ok : C → O → S → Prop) (good : S → Prop) (observe : S → V) :
    S → List (Input Call V) → List (Answered α S) → Prop where
  | nil (s : S) : Shows M start ok good observe s [] []
  | call {s s' : S} {call : Call} {es : List (C × O)} {a : α}
      {inputs : List (Input Call V)} {answers : List (Answered α S)}
      (hstart : start s call) (hrun : M.still.Executes ok (M.body call) s es a s')
      (hrest : Shows M start ok good observe s' inputs answers) :
      Shows M start ok good observe s (.call call :: inputs) (⟨s, a, s'⟩ :: answers)
  | between {s s' : S} {inputs : List (Input Call V)} {answers : List (Answered α S)}
      (hgood : good s') (hrest : Shows M start ok good observe s' inputs answers) :
      Shows M start ok good observe s (.between (observe s') :: inputs) answers

/-- The answers of two runs are related when those of their calls are, and when the calls
show the same afterwards. -/
theorem Shows.forall₂ {M : Semantics C R Call α S O X} {start : S → Call → Prop}
    {ok : C → O → S → Prop} {good : S → Prop} {observe : S → V}
    (related : Answered α S → Answered α S → Prop)
    (hcall : ∀ call s t es es' a b s' t', good s → good t → observe s = observe t →
      start s call → start t call → M.still.Executes ok (M.body call) s es a s' →
        M.still.Executes ok (M.body call) t es' b t' →
          related ⟨s, a, s'⟩ ⟨t, b, t'⟩ ∧ good s' ∧ good t' ∧ observe s' = observe t')
    {inputs : List (Input Call V)} {s t : S} {l l' : List (Answered α S)}
    (h : M.Shows start ok good observe s inputs l)
    (h' : M.Shows start ok good observe t inputs l') (hs : good s) (ht : good t)
    (hst : observe s = observe t) : List.Forall₂ related l l' := by
  induction h generalizing t l' with
  | nil s =>
      cases h'
      exact .nil
  | call hstart hrun _ ih =>
      cases h' with
      | call hstart' hrun' hrest' =>
          obtain ⟨hrelated, hs', ht', hst'⟩ :=
            hcall _ _ _ _ _ _ _ _ _ hs ht hst hstart hstart' hrun hrun'
          exact .cons hrelated (ih hrest' hs' ht' hst')
  | @between s s₁ inputs answers hgood _ ih =>
      generalize hv : observe s₁ = v at h'
      cases h' with
      | between hgood' hrest' => exact ih hrest' hgood hgood' hv

/-- The answers to calls that are made one after another, each with the outcomes of its
commands. -/
def showCalls (M : Semantics C R Call α S O X) (start : S → Call → Prop)
    (ok : C → O → S → Prop) [∀ s call, Decidable (start s call)]
    [∀ c o s, Decidable (ok c o s)] :
    List (Call × List O) → S → Option (List (Answered α S))
  | [], _ => some []
  | (call, os) :: calls, s =>
      if start s call then
        (M.still.perform ok (M.body call) os s).bind fun ran =>
          (M.showCalls start ok calls ran.2.2).map fun answers =>
            ⟨s, ran.2.1, ran.2.2⟩ :: answers
      else none

theorem shows_of_showCalls {M : Semantics C R Call α S O X} {start : S → Call → Prop}
    {ok : C → O → S → Prop} [∀ s call, Decidable (start s call)]
    [∀ c o s, Decidable (ok c o s)] {good : S → Prop} {observe : S → V}
    (calls : List (Call × List O)) {s : S} {answers : List (Answered α S)}
    (h : M.showCalls start ok calls s = some answers) :
    M.Shows start ok good observe s (calls.map fun call => .call call.1) answers := by
  induction calls generalizing s answers with
  | nil =>
      cases h
      exact .nil s
  | cons call calls ih =>
      obtain ⟨call, os⟩ := call
      simp only [showCalls] at h
      split at h
      · rename_i hstart
        obtain ⟨⟨es, a, s'⟩, hrun, h⟩ := Option.bind_eq_some_iff.1 h
        obtain ⟨later, hlater, rfl⟩ := Option.map_eq_some_iff.1 h
        exact .call hstart (executes_of_perform os hrun) (ih hlater)
      · cases h

end Semantics

/-! ### Throwing programs at one instant -/

namespace Throwing

variable {M : Semantics C R Call α S O X} {ok : C → O → S → Prop} {s : S}

/-- Every execution of the program at one instant ends as `ends` says. -/
def Yields (M : Semantics C R Call α S O X) (ok : C → O → S → Prop)
    (ends : Except ε β → S → Prop) (p : Throwing C R ε β) (s : S) : Prop :=
  M.still.Ensures ok (fun _ => ends) p.run s

theorem yields_pure {ends : Except ε β → S → Prop} {b : β} :
    Yields M ok ends (pure b : Throwing C R ε β) s ↔ ends (.ok b) s :=
  Semantics.still_ensures_pure

theorem yields_throw {ends : Except ε β → S → Prop} {e : ε} :
    Yields M ok ends (throw e : Throwing C R ε β) s ↔ ends (.error e) s :=
  Semantics.still_ensures_pure

theorem Yields.mono {ends ends' : Except ε β → S → Prop} {p : Throwing C R ε β}
    (h : Yields M ok ends p s) (hends : ∀ r s', ends r s' → ends' r s') :
    Yields M ok ends' p s :=
  Semantics.Ensures.mono h fun _ => hends

/-- After the first program its error is passed on, or its value goes into the second. -/
theorem yields_bind {γ : Type} {ends : Except ε γ → S → Prop} {p : Throwing C R ε β}
    {f : β → Throwing C R ε γ} :
    Yields M ok ends (p >>= f) s ↔
      Yields M ok (fun r s' => match r with
        | .ok b => Yields M ok ends (f b) s'
        | .error e => ends (.error e) s') p s := by
  refine Semantics.ensures_bind.trans ⟨fun h => ?_, fun h => ?_⟩
  · refine Semantics.Ensures.mono h fun es r s' hr => ?_
    cases r with
    | ok b => exact hr
    | error e => exact Semantics.still_ensures_pure.1 hr
  · refine Semantics.Ensures.mono h fun es r s' hr => ?_
    cases r with
    | ok b => exact hr
    | error e => exact Semantics.still_ensures_pure.2 hr

theorem yields_map {γ : Type} {ends : Except ε γ → S → Prop} {f : β → γ}
    {p : Throwing C R ε β} :
    Yields M ok ends (f <$> p) s ↔ Yields M ok (fun r => ends (r.map f)) p s := by
  refine Semantics.ensures_bind.trans ⟨fun h => ?_, fun h => ?_⟩
  · refine Semantics.Ensures.mono h fun es r s' hr => ?_
    cases r <;> exact Semantics.still_ensures_pure.1 hr
  · refine Semantics.Ensures.mono h fun es r s' hr => ?_
    cases r <;> exact Semantics.still_ensures_pure.2 hr

theorem yields_ite {c : Prop} [Decidable c] {ends : Except ε β → S → Prop}
    {p q : Throwing C R ε β} :
    Yields M ok ends (if c then p else q) s ↔
      (c → Yields M ok ends p s) ∧ (¬ c → Yields M ok ends q s) := by
  split <;> simp [*]

/-- The value is passed on, or the error is handled. -/
theorem yields_tryCatch {ends : Except ε β → S → Prop} {p : Throwing C R ε β}
    {handle : ε → Throwing C R ε β} :
    Yields M ok ends (tryCatch p handle) s ↔
      Yields M ok (fun r s' => match r with
        | .ok b => ends (.ok b) s'
        | .error e => Yields M ok ends (handle e) s') p s := by
  refine Semantics.ensures_bind.trans ⟨fun h => ?_, fun h => ?_⟩
  · refine Semantics.Ensures.mono h fun es r s' hr => ?_
    cases r with
    | ok b => exact Semantics.still_ensures_pure.1 hr
    | error e => exact hr
  · refine Semantics.Ensures.mono h fun es r s' hr => ?_
    cases r with
    | ok b => exact Semantics.still_ensures_pure.2 hr
    | error e => exact hr

end Throwing

end Interaction

end Shortlink

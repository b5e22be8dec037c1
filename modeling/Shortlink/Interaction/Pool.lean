import Shortlink.Interaction.Program
import Mathlib.Logic.Relation

/-!
# Pools of interleaved programs

A `Semantics` gives every call its program, every command its atomic effect on
a shared state, and the environment its own actions. A `Pool` is a shared state
together with the calls started so far; one step starts a call, lets one call
execute its next command, or lets the environment act. The outcome a command
takes from outside the shared state (a random identifier, a failure) is the
argument `o` of the event, so a schedule is a list of events and is executable.

The commands executed so far are kept in `history`, the most recent first. The
order of two steps is their order there.

`Annotation.Valid.reaches` is the proof rule: an assertion about the shared
state and one assertion per call, each preserved by the call's own steps and by
the steps of the others.
-/

namespace Shortlink

namespace Interaction

/-- What calls do: their programs, the atomic effect of a command, and the
actions of the environment. `exec c o s = none` when the outcome `o` is not one
the command can have in `s`. -/
structure Semantics (C : Type) (R : C → Type) (Call α S O X : Type) where
  body : Call → Program C R α
  exec : (c : C) → O → S → Option (R c × S)
  environment : X → S → S

/-- A call and what is left of its program. -/
structure Thread (C : Type) (R : C → Type) (Call α : Type) where
  call : Call
  rest : Program C R α

/-- A command executed by a call, with its reply. -/
structure Entry (C : Type) (R : C → Type) where
  thread : ℕ
  command : C
  reply : R command

/-- The shared state, the calls started so far in their order, and the commands
executed so far, the most recent first. -/
structure Pool (C : Type) (R : C → Type) (Call α S : Type) where
  shared : S
  threads : List (Thread C R Call α)
  history : List (Entry C R)

/-- One step of a schedule. -/
inductive Event (Call O X : Type) where
  | spawn (call : Call)
  | exec (i : ℕ) (o : O)
  | environment (x : X)

variable {C : Type} {R : C → Type} {Call α S O X : Type}

namespace Pool

/-- The pool in which nothing has been started. -/
def init (s : S) : Pool C R Call α S := ⟨s, [], []⟩

/-- The value of the call started as number `i`, once it has finished. -/
def result? (σ : Pool C R Call α S) (i : ℕ) : Option α :=
  σ.threads[i]?.bind fun th => th.rest.result?

/-- The command that the call started as number `i` executes next. -/
def next? (σ : Pool C R Call α S) (i : ℕ) : Option C :=
  σ.threads[i]?.bind fun th => th.rest.next?

theorem result?_eq_some_iff (σ : Pool C R Call α S) (i : ℕ) (a : α) :
    σ.result? i = some a ↔
      ∃ call, σ.threads[i]? = some ⟨call, .pure a⟩ := by
  constructor
  · intro h
    obtain ⟨⟨call, rest⟩, hth, ha⟩ := Option.bind_eq_some_iff.1 h
    rw [Program.result?_eq_some_iff] at ha
    exact ⟨call, by rw [hth]; simp_all⟩
  · rintro ⟨call, h⟩
    simp [result?, h]

end Pool

namespace Semantics

/-- The pool after an event, when the event is possible. -/
def step (M : Semantics C R Call α S O X) :
    Event Call O X → Pool C R Call α S → Option (Pool C R Call α S)
  | .spawn call, σ =>
      some { σ with threads := σ.threads ++ [⟨call, M.body call⟩] }
  | .exec i o, σ =>
      match σ.threads[i]? with
      | some ⟨call, .call c next⟩ =>
          (M.exec c o σ.shared).map fun rs =>
            { shared := rs.2
              threads := σ.threads.set i ⟨call, next rs.1⟩
              history := ⟨i, c, rs.1⟩ :: σ.history }
      | _ => none
  | .environment x, σ => some { σ with shared := M.environment x σ.shared }

/-- One step under the restriction `ok` on the events of a run. -/
def Steps (M : Semantics C R Call α S O X)
    (ok : Pool C R Call α S → Event Call O X → Prop)
    (σ σ' : Pool C R Call α S) : Prop :=
  ∃ e, ok σ e ∧ M.step e σ = some σ'

/-- A run whose events all satisfy `ok`. -/
def Reaches (M : Semantics C R Call α S O X)
    (ok : Pool C R Call α S → Event Call O X → Prop) :
    Pool C R Call α S → Pool C R Call α S → Prop :=
  Relation.ReflTransGen (M.Steps ok)

/-- An executed command, taken apart. -/
theorem step_exec_iff (M : Semantics C R Call α S O X) (i : ℕ) (o : O)
    (σ σ' : Pool C R Call α S) :
    M.step (.exec i o) σ = some σ' ↔
      ∃ call c next r s, σ.threads[i]? = some ⟨call, .call c next⟩ ∧
        M.exec c o σ.shared = some (r, s) ∧
        σ' = { shared := s
               threads := σ.threads.set i ⟨call, next r⟩
               history := ⟨i, c, r⟩ :: σ.history } := by
  constructor
  · intro h
    simp only [step] at h
    split at h
    · rename_i call c next hth
      obtain ⟨⟨r, s⟩, hexec, rfl⟩ := Option.map_eq_some_iff.1 h
      exact ⟨call, c, next, r, s, hth, hexec, rfl⟩
    · cases h
  · rintro ⟨call, c, next, r, s, hth, hexec, rfl⟩
    simp [step, hth, hexec]

/-! ### Running a schedule -/

/-- The pool after a schedule; an impossible event is skipped. -/
def after (M : Semantics C R Call α S O X) :
    List (Event Call O X) → Pool C R Call α S → Pool C R Call α S
  | [], σ => σ
  | e :: es, σ => M.after es ((M.step e σ).getD σ)

/-- Every event of the schedule satisfies `ok` where it happens. -/
def Admits (M : Semantics C R Call α S O X)
    (ok : Pool C R Call α S → Event Call O X → Prop) :
    List (Event Call O X) → Pool C R Call α S → Prop
  | [], _ => True
  | e :: es, σ => ok σ e ∧ M.Admits ok es ((M.step e σ).getD σ)

instance decidableAdmits (M : Semantics C R Call α S O X)
    (ok : Pool C R Call α S → Event Call O X → Prop)
    [h : ∀ σ e, Decidable (ok σ e)] :
    ∀ es σ, Decidable (M.Admits ok es σ)
  | [], _ => isTrue trivial
  | e :: es, σ =>
      @instDecidableAnd _ _ (h σ e)
        (decidableAdmits M ok es ((M.step e σ).getD σ))

theorem reaches_after (M : Semantics C R Call α S O X)
    {ok : Pool C R Call α S → Event Call O X → Prop}
    {es : List (Event Call O X)} {σ : Pool C R Call α S}
    (h : M.Admits ok es σ) : M.Reaches ok σ (M.after es σ) := by
  induction es generalizing σ with
  | nil => exact .refl
  | cons e es ih =>
      have hrest := ih h.2
      cases hstep : M.step e σ with
      | none => simpa [after, hstep] using hrest
      | some σ' =>
          rw [hstep] at hrest
          have hhead : M.Steps ok σ σ' := ⟨e, h.1, hstep⟩
          have hrun : M.Reaches ok σ (M.after es σ') :=
            Relation.ReflTransGen.head hhead hrest
          simpa [after, hstep] using hrun

/-! ### What every run preserves -/

theorem Reaches.mono {M : Semantics C R Call α S O X}
    {ok ok' : Pool C R Call α S → Event Call O X → Prop}
    (hok : ∀ σ e, ok σ e → ok' σ e) {σ σ' : Pool C R Call α S}
    (h : M.Reaches ok σ σ') : M.Reaches ok' σ σ' :=
  Relation.ReflTransGen.mono
    (fun _ _ ⟨e, he, hs⟩ => ⟨e, hok _ e he, hs⟩) _ _ h

/-- A finished call keeps its value. -/
theorem Steps.finished {M : Semantics C R Call α S O X}
    {ok : Pool C R Call α S → Event Call O X → Prop}
    {σ σ' : Pool C R Call α S} (h : M.Steps ok σ σ') {i : ℕ} {call : Call}
    {a : α} (hi : σ.threads[i]? = some ⟨call, .pure a⟩) :
    σ'.threads[i]? = some ⟨call, .pure a⟩ := by
  obtain ⟨e, -, hstep⟩ := h
  cases e with
  | spawn call' =>
      obtain rfl := Option.some.inj hstep
      have hlt : i < σ.threads.length := (List.getElem?_eq_some_iff.1 hi).1
      simpa [List.getElem?_append_left hlt] using hi
  | exec j o =>
      obtain ⟨call', c, next, r, s, hj, -, rfl⟩ :=
        (M.step_exec_iff j o σ σ').1 hstep
      have hne : j ≠ i := by
        rintro rfl
        rw [hi] at hj
        cases hj
      simpa [List.getElem?_set_ne hne] using hi
  | environment x =>
      obtain rfl := Option.some.inj hstep
      exact hi

theorem Reaches.result? {M : Semantics C R Call α S O X}
    {ok : Pool C R Call α S → Event Call O X → Prop}
    {σ σ' : Pool C R Call α S} (h : M.Reaches ok σ σ') {i : ℕ} {a : α}
    (hi : σ.result? i = some a) : σ'.result? i = some a := by
  induction h with
  | refl => exact hi
  | tail _ hstep ih =>
      obtain ⟨call, hcall⟩ := (Pool.result?_eq_some_iff _ i a).1 ih
      exact (Pool.result?_eq_some_iff _ i a).2 ⟨call, hstep.finished hcall⟩

theorem Steps.history_suffix {M : Semantics C R Call α S O X}
    {ok : Pool C R Call α S → Event Call O X → Prop}
    {σ σ' : Pool C R Call α S} (h : M.Steps ok σ σ') :
    σ.history <:+ σ'.history := by
  obtain ⟨e, -, hstep⟩ := h
  cases e with
  | spawn call =>
      obtain rfl := Option.some.inj hstep
      exact List.suffix_refl _
  | exec i o =>
      obtain ⟨call, c, next, r, s, -, -, rfl⟩ :=
        (M.step_exec_iff i o σ σ').1 hstep
      exact List.suffix_cons _ _
  | environment x =>
      obtain rfl := Option.some.inj hstep
      exact List.suffix_refl _

theorem Reaches.history_suffix {M : Semantics C R Call α S O X}
    {ok : Pool C R Call α S → Event Call O X → Prop}
    {σ σ' : Pool C R Call α S} (h : M.Reaches ok σ σ') :
    σ.history <:+ σ'.history := by
  induction h with
  | refl => exact List.suffix_refl _
  | tail _ hstep ih => exact ih.trans hstep.history_suffix

end Semantics

/-! ### The proof rule -/

/-- An assertion about the shared state and the history, and one about each
call, given its number, itself and what is left of it. -/
structure Annotation (C : Type) (R : C → Type) (Call α S : Type) where
  shared : S → List (Entry C R) → Prop
  thread : S → List (Entry C R) → ℕ → Call → Program C R α → Prop

namespace Annotation

/-- The annotation holds of a pool. -/
structure Holds (A : Annotation C R Call α S) (σ : Pool C R Call α S) :
    Prop where
  shared : A.shared σ.shared σ.history
  thread : ∀ i call rest, σ.threads[i]? = some ⟨call, rest⟩ →
    A.thread σ.shared σ.history i call rest

/-- Every step of a run under `ok` preserves the annotation: the assertion of
the executing call by `own`, those of the others by `other`. -/
structure Valid (A : Annotation C R Call α S)
    (M : Semantics C R Call α S O X)
    (ok : Pool C R Call α S → Event Call O X → Prop) : Prop where
  spawn : ∀ σ call, A.Holds σ → ok σ (.spawn call) →
    A.thread σ.shared σ.history σ.threads.length call (M.body call)
  own : ∀ σ i o call c next r s, A.Holds σ → ok σ (.exec i o) →
    σ.threads[i]? = some ⟨call, .call c next⟩ →
    M.exec c o σ.shared = some (r, s) →
      A.shared s (⟨i, c, r⟩ :: σ.history) ∧
        A.thread s (⟨i, c, r⟩ :: σ.history) i call (next r)
  other : ∀ σ i o call c next r s, A.Holds σ → ok σ (.exec i o) →
    σ.threads[i]? = some ⟨call, .call c next⟩ →
    M.exec c o σ.shared = some (r, s) →
      ∀ j call' rest, j ≠ i → σ.threads[j]? = some ⟨call', rest⟩ →
        A.thread s (⟨i, c, r⟩ :: σ.history) j call' rest
  environment : ∀ σ x, A.Holds σ → ok σ (.environment x) →
    A.shared (M.environment x σ.shared) σ.history ∧
      ∀ j call rest, σ.threads[j]? = some ⟨call, rest⟩ →
        A.thread (M.environment x σ.shared) σ.history j call rest

theorem holds_init {A : Annotation C R Call α S} {s : S} (h : A.shared s []) :
    A.Holds (Pool.init s) :=
  ⟨h, fun i call rest hi => by simp [Pool.init] at hi⟩

theorem Valid.step {A : Annotation C R Call α S}
    {M : Semantics C R Call α S O X}
    {ok : Pool C R Call α S → Event Call O X → Prop} (hA : A.Valid M ok)
    {σ σ' : Pool C R Call α S} (h : M.Steps ok σ σ') (hσ : A.Holds σ) :
    A.Holds σ' := by
  obtain ⟨e, hok, hstep⟩ := h
  cases e with
  | spawn call =>
      obtain rfl := Option.some.inj hstep
      refine ⟨hσ.shared, ?_⟩
      intro i call' rest hi
      rcases Nat.lt_or_ge i σ.threads.length with hlt | hge
      · have hi' : σ.threads[i]? = some ⟨call', rest⟩ := by
          simpa [List.getElem?_append_left hlt] using hi
        exact hσ.thread i call' rest hi'
      · have hlast := hi
        simp only [List.getElem?_append_right hge] at hlast
        obtain ⟨hz, heq⟩ := List.getElem?_eq_some_iff.1 hlast
        have hi0 : i = σ.threads.length := by
          simp only [List.length_singleton] at hz
          omega
        subst hi0
        simp only [Nat.sub_self, List.getElem_cons_zero, Thread.mk.injEq] at heq
        obtain ⟨rfl, rfl⟩ := heq
        exact hA.spawn σ _ hσ hok
  | exec i o =>
      obtain ⟨call, c, next, r, s, hi, hexec, rfl⟩ :=
        (M.step_exec_iff i o σ σ').1 hstep
      obtain ⟨hshared, hown⟩ :=
        hA.own σ i o call c next r s hσ hok hi hexec
      refine ⟨hshared, ?_⟩
      intro j call' rest hj
      by_cases hji : j = i
      · subst hji
        have hlt : j < σ.threads.length := (List.getElem?_eq_some_iff.1 hi).1
        rw [List.getElem?_set_self hlt] at hj
        cases hj
        exact hown
      · have hj' : σ.threads[j]? = some ⟨call', rest⟩ := by
          simpa [List.getElem?_set_ne (Ne.symm hji)] using hj
        exact hA.other σ i o call c next r s hσ hok hi hexec j call' rest hji hj'
  | environment x =>
      obtain rfl := Option.some.inj hstep
      obtain ⟨hshared, hthread⟩ := hA.environment σ x hσ hok
      exact ⟨hshared, hthread⟩

/-- A valid annotation is preserved by every run. -/
theorem Valid.reaches {A : Annotation C R Call α S}
    {M : Semantics C R Call α S O X}
    {ok : Pool C R Call α S → Event Call O X → Prop} (hA : A.Valid M ok)
    {σ σ' : Pool C R Call α S} (h : M.Reaches ok σ σ') (hσ : A.Holds σ) :
    A.Holds σ' := by
  induction h with
  | refl => exact hσ
  | tail _ hstep ih => exact hA.step hstep ih

end Annotation

end Interaction

end Shortlink

import Shortlink.Interaction.Pool

/-!
# Calls executed one after another

The sequential reading of a `Semantics`: a program is executed to its end before
another call starts, and only the environment acts in between. `Executes` lists
the commands with the outcomes they took, the first one first, so a statement can
speak about the failures that a call met.

`Ensures` is the weakest precondition of a program under this reading; its lemmas
follow the program, and `Ensures.mono` weakens what is asked at the end.
`Serially` is a run of completed calls.
-/

namespace Shortlink

namespace Interaction

variable {C : Type} {R : C → Type} {Call α β γ S O X : Type}

namespace Semantics

/-- The environment acts any number of times. -/
def Idles (M : Semantics C R Call α S O X) : S → S → Prop :=
  Relation.ReflTransGen fun s s' => ∃ x, s' = M.environment x s

/-- The program is executed from `s` to its end in `s'`, every command satisfying
`ok` with its outcome in the state where it is executed. -/
inductive Executes (M : Semantics C R Call α S O X) (ok : C → O → S → Prop) :
    Program C R β → S → List (C × O) → β → S → Prop where
  | pure {s s' : S} (b : β) (hidle : M.Idles s s') :
      Executes M ok (.pure b) s [] b s'
  | call {c : C} {next : R c → Program C R β} {s s₁ s₂ s' : S} {o : O} {r : R c}
      {es : List (C × O)} {b : β} (hidle : M.Idles s s₁) (hok : ok c o s₁)
      (hexec : M.exec c o s₁ = some (r, s₂))
      (hrest : Executes M ok (next r) s₂ es b s') :
      Executes M ok (.call c next) s ((c, o) :: es) b s'

section

variable {M : Semantics C R Call α S O X} {ok ok' : C → O → S → Prop}
  {s s₁ s' : S} {es : List (C × O)} {b : β}

/-- The environment may act before the first command. -/
theorem Executes.idle {p : Program C R β} (h : M.Executes ok p s₁ es b s')
    (hidle : M.Idles s s₁) : M.Executes ok p s es b s' := by
  cases h with
  | pure b hidle' => exact .pure b (hidle.trans hidle')
  | call hidle' hok hexec hrest => exact .call (hidle.trans hidle') hok hexec hrest

/-- The environment may act after the last command. -/
theorem Executes.idle_after {p : Program C R β} (h : M.Executes ok p s es b s₁)
    (hidle : M.Idles s₁ s') : M.Executes ok p s es b s' := by
  induction h with
  | pure b hidle' => exact .pure b (hidle'.trans hidle)
  | call hidle' hok hexec _ ih => exact .call hidle' hok hexec (ih hidle)

theorem Executes.mono (hok : ∀ c o s, ok c o s → ok' c o s) {p : Program C R β}
    (h : M.Executes ok p s es b s') : M.Executes ok' p s es b s' := by
  induction h with
  | pure b hidle => exact .pure b hidle
  | call hidle hok' hexec _ ih => exact .call hidle (hok _ _ _ hok') hexec ih

/-- What a program may issue is what it issues here. -/
theorem Executes.sat {φ : C → Prop} {post : β → Prop} {p : Program C R β}
    (h : M.Executes ok p s es b s') (hp : p.Sat (fun _ _ => True) φ post) :
    ∀ e ∈ es, φ e.1 := by
  induction h with
  | pure b hidle => exact nofun
  | call hidle hok hexec _ ih =>
      intro e he
      rcases List.mem_cons.1 he with rfl | he
      · exact hp.1
      · exact ih (hp.2 _ trivial) e he

end

/-- A program whose commands can all be executed has an execution. -/
theorem exists_executes (M : Semantics C R Call α S O X) {ok : C → O → S → Prop}
    (choose : C → S → O) (hok : ∀ c s, ok c (choose c s) s)
    (hexec : ∀ c s, ∃ r s', M.exec c (choose c s) s = some (r, s')) (p : Program C R β)
    (s : S) : ∃ es b s', M.Executes ok p s es b s' ∧ ∀ e ∈ es, ∃ s, e.2 = choose e.1 s := by
  induction p generalizing s with
  | pure b => exact ⟨[], b, s, .pure b .refl, nofun⟩
  | call c next ih =>
      obtain ⟨r, s₁, hc⟩ := hexec c s
      obtain ⟨es, b, s', hrest, hes⟩ := ih r s₁
      refine ⟨_, b, s', .call .refl (hok c s) hc hrest, fun e he => ?_⟩
      rcases List.mem_cons.1 he with rfl | he
      · exact ⟨s, rfl⟩
      · exact hes e he

/-! ### What an execution ensures -/

/-- Every execution of `p` from `s` ends as `ends` says. -/
def Ensures (M : Semantics C R Call α S O X) (ok : C → O → S → Prop)
    (ends : List (C × O) → β → S → Prop) (p : Program C R β) (s : S) : Prop :=
  ∀ es b s', M.Executes ok p s es b s' → ends es b s'

section

variable {M : Semantics C R Call α S O X} {ok : C → O → S → Prop}

theorem ensures_pure {ends : List (C × O) → β → S → Prop} {b : β} {s : S} :
    M.Ensures ok ends (.pure b) s ↔ ∀ s', M.Idles s s' → ends [] b s' := by
  constructor
  · exact fun h s' hidle => h [] b s' (.pure b hidle)
  · rintro h es b' s' (⟨_, hidle⟩ | _)
    exact h s' hidle

theorem ensures_call {ends : List (C × O) → β → S → Prop} {c : C}
    {next : R c → Program C R β} {s : S} :
    M.Ensures ok ends (.call c next) s ↔
      ∀ s₁ o r s₂, M.Idles s s₁ → ok c o s₁ → M.exec c o s₁ = some (r, s₂) →
        M.Ensures ok (fun es => ends ((c, o) :: es)) (next r) s₂ := by
  constructor
  · exact fun h s₁ o r s₂ hidle hok hexec es b s' hrest =>
      h _ b s' (.call hidle hok hexec hrest)
  · rintro h _ b s' (_ | ⟨hidle, hok, hexec, hrest⟩)
    exact h _ _ _ _ hidle hok hexec _ b s' hrest

theorem Ensures.mono {ends ends' : List (C × O) → β → S → Prop}
    {p : Program C R β} {s : S} (h : M.Ensures ok ends p s)
    (hends : ∀ es b s', ends es b s' → ends' es b s') : M.Ensures ok ends' p s :=
  fun es b s' hp => hends es b s' (h es b s' hp)

/-- The environment may act first. -/
theorem Ensures.idle {ends : List (C × O) → β → S → Prop} {p : Program C R β}
    {s s₁ : S} (h : M.Ensures ok ends p s) (hidle : M.Idles s s₁) :
    M.Ensures ok ends p s₁ :=
  fun es b s' hp => h es b s' (hp.idle hidle)

/-- What is executed after a program starts from where it ended. -/
theorem ensures_bind {ends : List (C × O) → γ → S → Prop} {p : Program C R β}
    {f : β → Program C R γ} {s : S} :
    M.Ensures ok ends (p.bind f) s ↔
      M.Ensures ok (fun es b s₁ => M.Ensures ok (fun es' => ends (es ++ es')) (f b) s₁)
        p s := by
  induction p generalizing ends s with
  | pure b =>
      rw [ensures_pure, Program.pure_bind]
      exact ⟨fun h s₁ hidle => h.idle hidle, fun h => h s .refl⟩
  | call c next ih =>
      rw [ensures_call, Program.call_bind, ensures_call]
      simp only [ih, List.cons_append]

end

/-! ### Runs of completed calls -/

/-- One step of a serial run: the environment acts, or a call that `start` admits
is executed to its end. -/
inductive SerialStep (M : Semantics C R Call α S O X) (start : S → Call → Prop)
    (ok : Call → C → O → S → Prop) (s : S) : S → Prop where
  | environment (x : X) : SerialStep M start ok s (M.environment x s)
  | call (call : Call) (es : List (C × O)) (a : α) (s' : S)
      (hstart : start s call)
      (h : M.Executes (ok call) (M.body call) s es a s') :
      SerialStep M start ok s s'

/-- A run of calls executed one after another. -/
def Serially (M : Semantics C R Call α S O X) (start : S → Call → Prop)
    (ok : Call → C → O → S → Prop) : S → S → Prop :=
  Relation.ReflTransGen (M.SerialStep start ok)

section

variable {M : Semantics C R Call α S O X} {start : S → Call → Prop}
  {ok : Call → C → O → S → Prop}

theorem Serially.mono {ok' : Call → C → O → S → Prop}
    (hok : ∀ call c o s, ok call c o s → ok' call c o s) {s s' : S}
    (h : M.Serially start ok s s') : M.Serially start ok' s s' := by
  refine Relation.ReflTransGen.mono (fun s s' hstep => ?_) _ _ h
  cases hstep with
  | environment x => exact .environment x
  | call call es a _ hstart h => exact .call call es a s' hstart (h.mono (hok call))

/-- What the environment and every call keep holds along a serial run. -/
theorem Serially.invariant {P : S → Prop}
    (henv : ∀ x s, P s → P (M.environment x s))
    (hcall : ∀ s call, P s → start s call →
      M.Ensures (ok call) (fun _ _ => P) (M.body call) s)
    {s s' : S} (h : M.Serially start ok s s') (hs : P s) : P s' := by
  induction h with
  | refl => exact hs
  | tail _ hstep ih =>
      cases hstep with
      | environment x => exact henv x _ ih
      | call call es a _ hstart h => exact hcall _ call ih hstart es a _ h

theorem Idles.invariant {P : S → Prop} (henv : ∀ x s, P s → P (M.environment x s))
    {s s' : S} (h : M.Idles s s') (hs : P s) : P s' := by
  induction h with
  | refl => exact hs
  | tail _ hstep ih =>
      obtain ⟨x, rfl⟩ := hstep
      exact henv x _ ih

/-- When the commands that satisfy `φ` keep `P` and are answered as `ρ` says, the
program keeps `P` and ends as it does under `ρ`. -/
theorem Executes.invariant {P : S → Prop} {ρ : (c : C) → R c → Prop} {φ : C → Prop}
    {post : β → Prop} {ok : C → O → S → Prop} {p : Program C R β} {s s' : S}
    {es : List (C × O)} {b : β}
    (henv : ∀ x s, P s → P (M.environment x s))
    (hstep : ∀ c o s r s', P s → φ c → ok c o s → M.exec c o s = some (r, s') →
      ρ c r ∧ P s')
    (h : M.Executes ok p s es b s') (hp : p.Sat ρ φ post) (hs : P s) :
    P s' ∧ post b ∧ ∀ e ∈ es, φ e.1 := by
  induction h with
  | pure b hidle => exact ⟨hidle.invariant henv hs, hp, nofun⟩
  | call hidle hok hexec _ ih =>
      obtain ⟨hr, hs₂⟩ := hstep _ _ _ _ _ (hidle.invariant henv hs) hp.1 hok hexec
      obtain ⟨hs', hb, hes⟩ := ih (hp.2 _ hr) hs₂
      refine ⟨hs', hb, fun e he => ?_⟩
      rcases List.mem_cons.1 he with rfl | he
      · exact hp.1
      · exact hes e he

end

/-- What the environment and every command keep holds along a serial run. -/
theorem Serially.invariant_of_exec {M : Semantics C R Call α S O X}
    {start : S → Call → Prop} {ok : Call → C → O → S → Prop} {P : S → Prop}
    (henv : ∀ x s, P s → P (M.environment x s))
    (hexec : ∀ call c o s r s', P s → ok call c o s → M.exec c o s = some (r, s') → P s')
    {s s' : S} (h : M.Serially start ok s s') (hs : P s) : P s' :=
  h.invariant henv (fun _ call hs _ _ _ _ hrun => (hrun.invariant henv
    (fun c o s r s' hs _ hok hstep => ⟨trivial, hexec call c o s r s' hs hok hstep⟩)
    (Program.sat_true _) hs).1) hs

/-! ### Running a serial schedule -/

/-- The execution of a program whose commands take the given outcomes, while the
environment does nothing. -/
def perform (M : Semantics C R Call α S O X) (ok : C → O → S → Prop)
    [∀ c o s, Decidable (ok c o s)] :
    Program C R β → List O → S → Option (List (C × O) × β × S)
  | .pure b, [], s => some ([], b, s)
  | .pure _, _ :: _, _ => none
  | .call _ _, [], _ => none
  | .call c next, o :: os, s =>
      if ok c o s then
        (M.exec c o s).bind fun rs =>
          (M.perform ok (next rs.1) os rs.2).map fun ebs => ((c, o) :: ebs.1, ebs.2)
      else none

theorem executes_of_perform {M : Semantics C R Call α S O X} {ok : C → O → S → Prop}
    [∀ c o s, Decidable (ok c o s)] {p : Program C R β} (os : List O) {s s' : S}
    {es : List (C × O)} {b : β} (h : M.perform ok p os s = some (es, b, s')) :
    M.Executes ok p s es b s' := by
  induction p generalizing os s es with
  | pure _ =>
      cases os with
      | nil =>
          cases h
          exact .pure _ .refl
      | cons o os => cases h
  | call c next ih =>
      cases os with
      | nil => cases h
      | cons o os =>
          simp only [perform] at h
          split at h
          · rename_i hok
            obtain ⟨⟨r, s₁⟩, hexec, h⟩ := Option.bind_eq_some_iff.1 h
            obtain ⟨⟨es', b', s₂⟩, hrest, heq⟩ := Option.map_eq_some_iff.1 h
            cases heq
            exact .call .refl hok hexec (ih r os hrest)
          · cases h

inductive SerialEvent (Call O X : Type) where
  | call (call : Call) (outcomes : List O)
  | environment (x : X)

/-- The state after a serial schedule; a call that cannot be executed with its
outcomes is skipped. -/
def serialAfter (M : Semantics C R Call α S O X) (start : S → Call → Prop)
    (ok : Call → C → O → S → Prop) [∀ s call, Decidable (start s call)]
    [∀ call c o s, Decidable (ok call c o s)] : List (SerialEvent Call O X) → S → S
  | [], s => s
  | .environment x :: es, s => M.serialAfter start ok es (M.environment x s)
  | .call call os :: es, s =>
      match M.perform (ok call) (M.body call) os s with
      | some (_, _, s') =>
          if start s call then M.serialAfter start ok es s'
          else M.serialAfter start ok es s
      | none => M.serialAfter start ok es s

theorem serially_after {M : Semantics C R Call α S O X} {start : S → Call → Prop}
    {ok : Call → C → O → S → Prop} [∀ s call, Decidable (start s call)]
    [∀ call c o s, Decidable (ok call c o s)] (es : List (SerialEvent Call O X))
    (s : S) : M.Serially start ok s (M.serialAfter start ok es s) := by
  induction es generalizing s with
  | nil => exact .refl
  | cons e es ih =>
      cases e with
      | environment x =>
          exact Relation.ReflTransGen.head (SerialStep.environment x) (ih _)
      | call call os =>
          simp only [serialAfter]
          split
          · rename_i hrun
            split
            · rename_i hstart
              exact Relation.ReflTransGen.head
                (SerialStep.call call _ _ _ hstart (executes_of_perform os hrun)) (ih _)
            · exact ih s
          · exact ih s

end Semantics

/-! ### Leaving commands out -/

namespace Program

/-- The commands that `f` answers are not issued. -/
def answered (f : (c : C) → Option (R c)) : Program C R β → Program C R β
  | .pure b => .pure b
  | .call c next =>
      match f c with
      | some r => (next r).answered f
      | none => .call c fun r => (next r).answered f

end Program

namespace Semantics

/-- When the commands that `f` answers were answered so and do not matter to the
others, the program has the same execution without them. `K` relates the states
of the two executions. -/
theorem Executes.answered {M : Semantics C R Call α S O X}
    {ok : C → O → S → Prop} (ok' : C → O → S → Prop) (f : (c : C) → Option (R c))
    (K : S → S → Prop) (good : C × O → Prop)
    (henv : ∀ x s t, K s t → K (M.environment x s) t)
    (hanswered : ∀ c o s t r r' s', K s t → ok c o s → good (c, o) →
      f c = some r → M.exec c o s = some (r', s') → r' = r ∧ K s' t)
    (hissued : ∀ c o s t r s', K s t → ok c o s → f c = none →
      M.exec c o s = some (r, s') →
        ok' c o t ∧ ∃ t', M.exec c o t = some (r, t') ∧ K s' t')
    {p : Program C R β} {s s' t : S} {es : List (C × O)} {b : β}
    (h : M.Executes ok p s es b s') (hgood : ∀ e ∈ es, good e) (ht : K s t) :
    ∃ t', M.Executes ok' (p.answered f) t
      (es.filter fun e => (f e.1).isNone) b t' ∧ K s' t' := by
  have hidles : ∀ {s s₁ t}, M.Idles s s₁ → K s t → K s₁ t := fun hidle =>
    hidle.invariant (P := fun s => K s _) fun x s => henv x s _
  induction h generalizing t with
  | pure b hidle => exact ⟨t, .pure b .refl, hidles hidle ht⟩
  | @call c next s s₁ s₂ s' o r es b hidle hok hexec hrest ih =>
      have ht₁ := hidles hidle ht
      have hgood' : ∀ e ∈ es, good e :=
        fun e he => hgood e (List.mem_cons_of_mem _ he)
      simp only [Program.answered]
      cases hf : f c with
      | some r' =>
          obtain ⟨rfl, ht₂⟩ := hanswered c o s₁ t r' r s₂ ht₁ hok
            (hgood _ List.mem_cons_self) hf hexec
          simpa [hf] using ih hgood' ht₂
      | none =>
          obtain ⟨hok', t₂, hexec', ht₂⟩ := hissued c o s₁ t r s₂ ht₁ hok hf hexec
          obtain ⟨t', hrest', ht'⟩ := ih hgood' ht₂
          refine ⟨t', ?_, ht'⟩
          have hcall : M.Executes ok' (.call c fun r => (next r).answered f) t
              ((c, o) :: es.filter fun e => (f e.1).isNone) b t' :=
            .call .refl hok' hexec' hrest'
          simpa [hf] using hcall

end Semantics

end Interaction

end Shortlink

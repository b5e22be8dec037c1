import Shortlink.Interaction.Serial
import Shortlink.Interaction.Trace

/-!
# Programs that throw

A program over `ExceptT` ends with a value or an error. The rules below are those
of `Serial.lean` for the operations of `ExceptT`: an error skips what follows, and
a handler is entered with it.

`Proceeds` is `Obeys` for a program whose errors do not matter: it says past which answers a
value is reached.

A program of one signature is also one of a larger signature. When the larger
semantics does with its commands what the smaller one does on a part of the state,
every execution there is one of the smaller semantics (`Executes.of_embed`).
-/

namespace Shortlink

namespace Interaction

variable {C : Type} {R : C → Type} {Call α β γ ε S O X : Type}

/-- A program that ends with a value or an error. -/
abbrev Throwing (C : Type) (R : C → Type) (ε α : Type) : Type := ExceptT ε (Program C R) α

namespace Throwing

/-! ### What an execution ensures -/

section

variable {M : Semantics C R Call γ S O X} {ok : C → O → S → Prop} {s : S}

/-- After the first program its error is passed on, or its value goes into the
second. -/
theorem ensures_bind {ends : List (C × O) → Except ε β → S → Prop}
    {mid : List (C × O) → Except ε α → S → Prop} {p : Throwing C R ε α}
    {f : α → Throwing C R ε β} (hp : M.Ensures ok mid p.run s)
    (hvalue : ∀ es a s₁, mid es (.ok a) s₁ →
      M.Ensures ok (fun es' => ends (es ++ es')) (f a).run s₁)
    (herror : ∀ es e s₁, mid es (.error e) s₁ → ends es (.error e) s₁) :
    M.Ensures ok ends (p >>= f).run s := by
  refine Semantics.ensures_bind.2 fun es r s₁ hrun => ?_
  cases r with
  | ok a => exact hvalue es a s₁ (hp es _ s₁ hrun)
  | error e =>
      refine Semantics.ensures_pure.2 fun s' hidle => ?_
      rw [List.append_nil]
      exact herror es e s' (hp es _ s' (hrun.idle_after hidle))

theorem ensures_map {ends : List (C × O) → Except ε β → S → Prop} {f : α → β}
    {p : Throwing C R ε α}
    (hp : M.Ensures ok (fun es r s' => ends es (Except.map f r) s') p.run s) :
    M.Ensures ok ends (f <$> p).run s := by
  refine Semantics.ensures_bind.2 fun es r s₁ hrun => ?_
  cases r with
  | ok a =>
      refine Semantics.ensures_pure.2 fun s' hidle => ?_
      rw [List.append_nil]
      exact hp es _ s' (hrun.idle_after hidle)
  | error e =>
      refine Semantics.ensures_pure.2 fun s' hidle => ?_
      rw [List.append_nil]
      exact hp es _ s' (hrun.idle_after hidle)

/-- The value is passed on, or the error is handled. -/
theorem ensures_tryCatch {ends mid : List (C × O) → Except ε α → S → Prop}
    {p : Throwing C R ε α} {handle : ε → Throwing C R ε α}
    (hp : M.Ensures ok mid p.run s)
    (hvalue : ∀ es a s₁, mid es (.ok a) s₁ → ends es (.ok a) s₁)
    (herror : ∀ es e s₁, mid es (.error e) s₁ →
      M.Ensures ok (fun es' => ends (es ++ es')) (handle e).run s₁) :
    M.Ensures ok ends (tryCatch p handle).run s := by
  refine Semantics.ensures_bind.2 fun es r s₁ hrun => ?_
  cases r with
  | ok a =>
      refine Semantics.ensures_pure.2 fun s' hidle => ?_
      rw [List.append_nil]
      exact hvalue es a s' (hp es _ s' (hrun.idle_after hidle))
  | error e => exact herror es e s₁ (hp es _ s₁ hrun)

/-- The value is passed on, or another error is thrown. -/
theorem ensures_rethrow {ends : List (C × O) → Except ε α → S → Prop}
    {p : Throwing C R ε α} {handle : ε → Throwing C R ε α} (g : ε → ε)
    (hhandle : ∀ e, handle e = throw (g e))
    (hp : M.Ensures ok (fun es r s' => ends es (r.mapError g) s') p.run s) :
    M.Ensures ok ends (tryCatch p handle).run s := by
  refine Semantics.ensures_bind.2 fun es r s₁ hrun => ?_
  cases r with
  | ok a =>
      refine Semantics.ensures_pure.2 fun s' hidle => ?_
      rw [List.append_nil]
      exact hp es _ s' (hrun.idle_after hidle)
  | error e =>
      have hthrow : M.Ensures ok (fun es' => ends (es ++ es')) (handle e).run s₁ := by
        rw [hhandle]
        refine Semantics.ensures_pure.2 fun s' hidle => ?_
        rw [List.append_nil]
        exact hp es _ s' (hrun.idle_after hidle)
      exact hthrow

end

/-! ### The commands of a program -/

section

variable {φ : C → Prop}

/-- All commands of the program satisfy `φ`, however they are answered. -/
def Issues (φ : C → Prop) (p : Throwing C R ε α) : Prop :=
  Program.Sat (fun _ _ => True) φ (fun _ => True) p.run

theorem Issues.bind {p : Throwing C R ε α} {f : α → Throwing C R ε β} (hp : p.Issues φ)
    (hf : ∀ a, (f a).Issues φ) : Issues φ (p >>= f) := by
  refine (Program.sat_bind _ _ _ _ _).2
    (Program.Sat.mono (fun _ _ h => h) (fun _ h => h) ?_ hp)
  intro r _
  cases r with
  | ok a => exact hf a
  | error e => trivial

theorem Issues.tryCatch {p : Throwing C R ε α} {handle : ε → Throwing C R ε α}
    (hp : p.Issues φ) (hhandle : ∀ e, (handle e).Issues φ) :
    Issues φ (MonadExcept.tryCatch p handle) := by
  refine (Program.sat_bind _ _ _ _ _).2
    (Program.Sat.mono (fun _ _ h => h) (fun _ h => h) ?_ hp)
  intro r _
  cases r with
  | ok a => trivial
  | error e => exact hhandle e

theorem issues_map {f : α → β} {p : Throwing C R ε α} :
    Issues φ (f <$> p) ↔ p.Issues φ := by
  refine (Program.sat_bind _ _ _ _ _).trans
    ⟨Program.Sat.mono (fun _ _ h => h) (fun _ h => h) fun _ _ => trivial,
      Program.Sat.mono (fun _ _ h => h) (fun _ h => h) fun r _ => ?_⟩
  cases r <;> trivial

theorem Issues.mono {ψ : C → Prop} {p : Throwing C R ε α} (hp : p.Issues φ)
    (h : ∀ c, φ c → ψ c) : p.Issues ψ :=
  Program.Sat.mono (fun _ _ h => h) h (fun _ h => h) hp

/-- What follows a program whose commands are allowed after each other. -/
theorem Issues.obeys_bind {may : List (Exchange C R) → C → Prop}
    {ends : List (Exchange C R) → Except ε β → Prop} {trace : List (Exchange C R)}
    {p : Throwing C R ε α} {f : α → Throwing C R ε β} (hp : p.Issues φ)
    (hmay : ∀ trace c, (∀ x ∈ trace, φ x.1) → φ c → may trace c)
    (htrace : ∀ x ∈ trace, φ x.1)
    (hvalue : ∀ trace a, (∀ x ∈ trace, φ x.1) → (f a).run.Obeys may ends trace)
    (herror : ∀ trace e, (∀ x ∈ trace, φ x.1) → ends trace (.error e)) :
    (p >>= f).run.Obeys may ends trace := by
  refine (Program.obeys_bind _ _).2 ((Program.Sat.obeys hp hmay htrace).mono
    (fun _ _ h => h) fun trace r h => ?_)
  cases r with
  | ok a => exact hvalue trace a h
  | error e => exact herror trace e h

end

/-! ### What a value is reached past -/

section

variable {φ : C → Prop} {may : List (Exchange C R) → C → Prop} {trace : List (Exchange C R)}

/-- Every command is one that `may` allows after the trace so far, and every value one that
`post` allows; an error may end the program anywhere. -/
def Proceeds (p : Throwing C R ε α) (may : List (Exchange C R) → C → Prop)
    (post : List (Exchange C R) → α → Prop) (trace : List (Exchange C R)) : Prop :=
  p.run.Obeys may (fun trace r => ∀ a, r = .ok a → post trace a) trace

theorem proceeds_pure {post : List (Exchange C R) → α → Prop} {a : α} (h : post trace a) :
    Proceeds (pure a : Throwing C R ε α) may post trace := by
  intro b hb
  obtain rfl := Except.ok.inj hb
  exact h

theorem proceeds_throw {post : List (Exchange C R) → α → Prop} (e : ε) :
    Proceeds (throw e : Throwing C R ε α) may post trace := by
  intro a ha
  cases ha

theorem Proceeds.mono {post post' : List (Exchange C R) → α → Prop} {p : Throwing C R ε α}
    (h : p.Proceeds may post trace) (hpost : ∀ trace a, post trace a → post' trace a) :
    p.Proceeds may post' trace :=
  Program.Obeys.mono (fun _ _ hc => hc) (fun trace _ hr a ha => hpost trace a (hr a ha)) h

theorem Proceeds.bind {post : List (Exchange C R) → β → Prop} {p : Throwing C R ε α}
    {f : α → Throwing C R ε β}
    (h : p.Proceeds may (fun trace a => (f a).Proceeds may post trace) trace) :
    (p >>= f).Proceeds may post trace := by
  refine (Program.obeys_bind _ _).2 (Program.Obeys.mono (fun _ _ hc => hc) ?_ h)
  intro trace r hr
  cases r with
  | ok a => exact hr a rfl
  | error e => exact fun a ha => by cases ha

theorem Proceeds.map {post : List (Exchange C R) → β → Prop} {p : Throwing C R ε α}
    {f : α → β} (h : p.Proceeds may (fun trace a => post trace (f a)) trace) :
    (f <$> p).Proceeds may post trace := by
  refine (Program.obeys_bind _ _).2 (Program.Obeys.mono (fun _ _ hc => hc) ?_ h)
  intro trace r hr
  cases r with
  | ok a =>
      intro b hb
      obtain rfl := Except.ok.inj hb
      exact hr a rfl
  | error e => exact fun a ha => by cases ha

/-- An error is replaced by another one. -/
theorem Proceeds.rethrow {post : List (Exchange C R) → α → Prop} {p : Throwing C R ε α}
    {handle : ε → Throwing C R ε α} (hhandle : ∀ e, ∃ e', handle e = throw e')
    (h : p.Proceeds may post trace) : (tryCatch p handle).Proceeds may post trace := by
  refine (Program.obeys_bind _ _).2 (Program.Obeys.mono (fun _ _ hc => hc) ?_ h)
  intro trace r hr
  cases r with
  | ok a => exact hr
  | error e =>
      obtain ⟨e', he'⟩ := hhandle e
      change Program.Obeys _ _ _ (handle e).run
      rw [he']
      exact proceeds_throw e'

/-- A program whose commands are always allowed. -/
theorem Issues.proceeds {p : Throwing C R ε α} (hp : p.Issues φ)
    (hmay : ∀ trace c, φ c → may trace c) :
    p.Proceeds may (fun trace' _ => trace <:+ trace') trace :=
  Program.obeys_of_sat hp hmay fun l _ _ _ _ => List.suffix_append l trace

/-- What follows a program whose commands are always allowed. -/
theorem Issues.then_proceeds {post : List (Exchange C R) → β → Prop} {p : Throwing C R ε α}
    {f : α → Throwing C R ε β} (hp : p.Issues φ) (hmay : ∀ trace c, φ c → may trace c)
    (hf : ∀ trace' a, trace <:+ trace' → (f a).Proceeds may post trace') :
    (p >>= f).Proceeds may post trace :=
  .bind ((hp.proceeds hmay).mono hf)

end

end Throwing

/-! ### Programs of a smaller signature -/

variable {C' : Type} {R' : C' → Type} {Call' γ' S' O' X' : Type}

/-- The program with its commands read in another signature. -/
def Program.embed (f : C → C') (g : (c : C) → R' (f c) → R c) :
    Program C R β → Program C' R' β
  | .pure b => .pure b
  | .call c next => .call (f c) fun r => (next (g c r)).embed f g

theorem Program.embed_sat {f : C → C'} {g : (c : C) → R' (f c) → R c} {φ : C' → Prop}
    {post : β → Prop} {p : Program C R β}
    (h : p.Sat (fun _ _ => True) (fun c => φ (f c)) post) :
    (p.embed f g).Sat (fun _ _ => True) φ post := by
  induction p with
  | pure b => exact h
  | call c next ih => exact ⟨h.1, fun r _ => ih _ (h.2 _ trivial)⟩

/-- The program obeys what it obeys in its own signature; `own` is the part of a trace
that it sees there. -/
theorem Program.embed_obeys {f : C → C'} {g : (c : C) → R' (f c) → R c}
    (own : List (Exchange C' R') → List (Exchange C R))
    (hown : ∀ c r trace, own (⟨f c, r⟩ :: trace) = ⟨c, g c r⟩ :: own trace)
    {may : List (Exchange C R) → C → Prop} {ends : List (Exchange C R) → β → Prop}
    {p : Program C R β} {trace : List (Exchange C' R')}
    (h : Program.Obeys may ends (own trace) p) :
    Program.Obeys (fun trace c' => ∃ c, c' = f c ∧ may (own trace) c)
      (fun trace b => ends (own trace) b) trace (p.embed f g) := by
  induction p generalizing trace with
  | pure b => exact h
  | call c next ih =>
      refine ⟨⟨c, rfl, h.1⟩, fun r => ih _ ?_⟩
      rw [hown]
      exact h.2 _

/-- An execution in the larger semantics `M'` is one in `M`, which sees `π s` of a
state and `o` of an outcome. -/
theorem Semantics.Executes.of_embed {M : Semantics C R Call γ S O X}
    {M' : Semantics C' R' Call' γ' S' O' X'} {ok : C → O → S → Prop}
    {ok' : C' → O' → S' → Prop} {f : C → C'} {g : (c : C) → R' (f c) → R c}
    (π : S' → S) (o : O' → O)
    (henv : ∀ x s, M.Idles (π s) (π (M'.environment x s)))
    (hok : ∀ c out s, ok' (f c) out s → ok c (o out) (π s))
    (hexec : ∀ c out s r s', M'.exec (f c) out s = some (r, s') →
      M.exec c (o out) (π s) = some (g c r, π s'))
    {p : Program C R β} {s s' : S'} {es : List (C' × O')} {b : β}
    (h : M'.Executes ok' (p.embed f g) s es b s') :
    ∃ es', M.Executes ok p (π s) es' b (π s') ∧
      es.map (fun e => (e.1, o e.2)) = es'.map fun e => (f e.1, e.2) := by
  have hidles : ∀ {s s'}, M'.Idles s s' → M.Idles (π s) (π s') := by
    intro s s' hidle
    induction hidle with
    | refl => exact .refl
    | tail _ hstep ih =>
        obtain ⟨x, rfl⟩ := hstep
        exact ih.trans (henv x _)
  induction p generalizing s es with
  | pure b =>
      cases h with
      | pure b hidle => exact ⟨[], .pure b (hidles hidle), rfl⟩
  | call c next ih =>
      cases h with
      | call hidle hok' hexec' hrest =>
          obtain ⟨es', hrest', hes⟩ := ih _ hrest
          exact ⟨_, .call (hidles hidle) (hok _ _ _ hok') (hexec _ _ _ _ _ hexec') hrest',
            by rw [List.map_cons, List.map_cons, hes]⟩

end Interaction

end Shortlink

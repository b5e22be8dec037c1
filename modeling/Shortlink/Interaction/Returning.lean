import Shortlink.Interaction.Throwing

/-!
# Calls that succeed

`Returns` is the reading of `Ensures` for a program that must not fail: every execution ends
with a value, and the postcondition is about what the program has put out, the value, and the
state up to what the environment does afterwards. Its rules follow the program.

`withEnvironment` replaces what may happen between the steps.
-/

namespace Shortlink

namespace Interaction

variable {C : Type} {R : C → Type} {Call α β γ ε E S O X X' : Type}

/-- The same calls and commands, in another environment. -/
def Semantics.withEnvironment (M : Semantics C R Call γ S O X) (env : X' → S → S) :
    Semantics C R Call γ S O X' :=
  { M with environment := env }

/-- What a log has put out. -/
def outputs (out : C → List E) (es : List (C × O)) : List E := es.flatMap fun e => out e.1

@[simp] theorem outputs_nil (out : C → List E) :
    outputs out ([] : List (C × O)) = [] := rfl

@[simp] theorem outputs_cons (out : C → List E) (e : C × O) (es : List (C × O)) :
    outputs out (e :: es) = out e.1 ++ outputs out es := rfl

@[simp] theorem outputs_append (out : C → List E) (es es' : List (C × O)) :
    outputs out (es ++ es') = outputs out es ++ outputs out es' :=
  List.flatMap_append

namespace Throwing

/-- Every execution of the program returns a value. -/
def Returns (M : Semantics C R Call γ S O X) (ok : C → O → S → Prop) (out : C → List E)
    (post : List E → α → S → Prop) (p : Throwing C R ε α) (s : S) : Prop :=
  M.Ensures ok (fun es r s' => ∃ a s₁, r = .ok a ∧ post (outputs out es) a s₁ ∧ M.Idles s₁ s')
    p.run s

section

variable {M : Semantics C R Call γ S O X} {ok : C → O → S → Prop} {out : C → List E} {s : S}

theorem Returns.mono {post post' : List E → α → S → Prop} {p : Throwing C R ε α}
    (h : Returns M ok out post p s) (hpost : ∀ outs a s', post outs a s' → post' outs a s') :
    Returns M ok out post' p s := by
  refine Semantics.Ensures.mono h fun es r s' hr => ?_
  obtain ⟨a, s₁, hr, ha, hidle⟩ := hr
  exact ⟨a, s₁, hr, hpost _ a s₁ ha, hidle⟩

/-- The environment may act first. -/
theorem Returns.idle {post : List E → α → S → Prop} {p : Throwing C R ε α} {s₁ : S}
    (h : Returns M ok out post p s) (hidle : M.Idles s s₁) : Returns M ok out post p s₁ :=
  Semantics.Ensures.idle h hidle

theorem returns_pure {post : List E → α → S → Prop} {a : α} (h : post [] a s) :
    Returns M ok out post (pure a : Throwing C R ε α) s :=
  Semantics.ensures_pure.2 fun _ hidle => ⟨a, s, rfl, h, hidle⟩

/-- The second program starts from where the first one has ended. -/
theorem Returns.bind {post : List E → β → S → Prop} {mid : List E → α → S → Prop}
    {p : Throwing C R ε α} {f : α → Throwing C R ε β} (hp : Returns M ok out mid p s)
    (hf : ∀ outs a s₁, mid outs a s₁ →
      Returns M ok out (fun outs' => post (outs ++ outs')) (f a) s₁) :
    Returns M ok out post (p >>= f) s := by
  refine ensures_bind hp (fun es a s₁ ha => ?_) fun es e s₁ he => ?_
  · obtain ⟨a', s₂, hr, hmid, hidle⟩ := ha
    cases hr
    refine Semantics.Ensures.mono ((hf _ a s₂ hmid).idle hidle) fun es' r s' hr => ?_
    obtain ⟨b, s₃, hr, hb, hidle'⟩ := hr
    refine ⟨b, s₃, hr, ?_, hidle'⟩
    rw [outputs_append]
    exact hb
  · obtain ⟨a', s₂, hr, -⟩ := he
    cases hr

theorem Returns.map {post : List E → β → S → Prop} {f : α → β} {p : Throwing C R ε α}
    (h : Returns M ok out (fun outs a => post outs (f a)) p s) :
    Returns M ok out post (f <$> p) s := by
  refine ensures_map (Semantics.Ensures.mono h fun es r s' hr => ?_)
  obtain ⟨a, s₁, rfl, ha, hidle⟩ := hr
  exact ⟨f a, s₁, rfl, ha, hidle⟩

theorem Returns.tryCatch {post : List E → α → S → Prop} {p : Throwing C R ε α}
    {handle : ε → Throwing C R ε α} (h : Returns M ok out post p s) :
    Returns M ok out post (tryCatch p handle) s := by
  refine ensures_tryCatch h (fun _ _ _ ha => ha) fun es e s₁ he => ?_
  obtain ⟨a, s₂, hr, -⟩ := he
  cases hr

/-- A command whose reply is turned into a value. -/
theorem returns_call {post : List E → α → S → Prop} {c : C} {g : R c → Except ε α}
    (h : ∀ s₁ o r s₂, M.Idles s s₁ → ok c o s₁ → M.exec c o s₁ = some (r, s₂) →
      ∃ a, g r = .ok a ∧ post (out c) a s₂) :
    Returns M ok out post
      (ExceptT.mk (.call c fun r => .pure (g r)) : Throwing C R ε α) s := by
  refine Semantics.ensures_call.2 fun s₁ o r s₂ hidle hok hexec => ?_
  obtain ⟨a, hr, ha⟩ := h s₁ o r s₂ hidle hok hexec
  refine Semantics.ensures_pure.2 fun s' hidle' => ⟨a, s₂, hr, ?_, hidle'⟩
  rw [outputs_cons, outputs_nil, List.append_nil]
  exact ha

end

end Throwing

end Interaction

end Shortlink

import Shortlink.Interaction.Run
import Shortlink.Interaction.Throwing

/-!
# Rely and guarantee

A `Contract` says what the calls of a pool may rely on between their own commands, what
each call guarantees for its own, and what it ends with. `Guarantees` follows the program:
every command is executed in a state that the others have reached by `rely`, and is a step
that `guar` allows. When the guarantees are within what the others rely on, every run keeps
the contract (`Contract.Met`).
-/

namespace Shortlink

namespace Interaction

variable {C C' : Type} {R : C → Type} {R' : C' → Type} {Call Call' α β γ γ' S S' O O' X X' : Type}

namespace Semantics

/-- While the others do what `rely` allows, the program does what `guar` allows, and ends in
a value of which `post` holds from then on. -/
def Guarantees (M : Semantics C R Call γ S O X) (rely guar : S → S → Prop)
    (post : S → α → Prop) : Program C R α → S → Prop
  | .pure a, s => ∀ s', rely s s' → post s' a
  | .call c next, s => ∀ s₁ o r s₂, rely s s₁ → M.exec c o s₁ = some (r, s₂) →
      guar s₁ s₂ ∧ M.Guarantees rely guar post (next r) s₂

section

variable {M : Semantics C R Call γ S O X} {rely guar : S → S → Prop} {post : S → α → Prop}

/-- What the others do does not invalidate it. -/
theorem Guarantees.later (htrans : ∀ s₁ s₂ s₃, rely s₁ s₂ → rely s₂ s₃ → rely s₁ s₃)
    {p : Program C R α} {s s' : S} (h : M.Guarantees rely guar post p s) (hs : rely s s') :
    M.Guarantees rely guar post p s' := by
  cases p with
  | pure a => exact fun s'' hs' => h s'' (htrans _ _ _ hs hs')
  | call c next =>
      exact fun s₁ o r s₂ hs' hexec => h s₁ o r s₂ (htrans _ _ _ hs hs') hexec

/-- The value is passed on through a function. -/
theorem Guarantees.map {post' : S → β → Prop} (f : α → β)
    (hpost : ∀ s a, post s a → post' s (f a)) {p : Program C R α} {s : S}
    (h : M.Guarantees rely guar post p s) :
    M.Guarantees rely guar post' (p.bind fun a => .pure (f a)) s := by
  induction p generalizing s with
  | pure a => exact fun s' hs => hpost s' a (h s' hs)
  | call c next ih =>
      intro s₁ o r s₂ hs hexec
      obtain ⟨hstep, hrest⟩ := h s₁ o r s₂ hs hexec
      exact ⟨hstep, ih r hrest⟩

/-- The one program ends where the other may begin. -/
theorem Guarantees.bind {post' : S → β → Prop} {f : α → Program C R β}
    (hrefl : ∀ s, rely s s) {p : Program C R α} {s : S}
    (h : M.Guarantees rely guar post p s)
    (hf : ∀ s a, post s a → M.Guarantees rely guar post' (f a) s) :
    M.Guarantees rely guar post' (p.bind f) s := by
  induction p generalizing s with
  | pure a => exact hf s a (h s (hrefl s))
  | call c next ih =>
      intro s₁ o r s₂ hs hexec
      obtain ⟨hstep, hrest⟩ := h s₁ o r s₂ hs hexec
      exact ⟨hstep, ih r hrest⟩

theorem Guarantees.of_sat {φ : C → Prop} {p : Program C R α}
    (hp : p.Sat (fun _ _ => True) φ fun _ => True)
    (hφ : ∀ c o s r s', φ c → M.exec c o s = some (r, s') → guar s s') (s : S) :
    M.Guarantees rely guar (fun _ _ => True) p s := by
  induction p generalizing s with
  | pure a => exact fun _ _ => trivial
  | call c next ih =>
      intro s₁ o r s₂ _ hexec
      exact ⟨hφ c o s₁ r s₂ hp.1 hexec, ih r (hp.2 r trivial) s₂⟩

/-- A program of a part of the state guarantees the same of the whole. -/
theorem Guarantees.embed {M' : Semantics C' R' Call' γ' S' O' X'} {part : S' → S} {f : C → C'}
    {g : (c : C) → R' (f c) → R c}
    (hexec : ∀ c o s r s', M'.exec (f c) o s = some (r, s') →
      ∃ o', M.exec c o' (part s) = some (g c r, part s'))
    {p : Program C R α} {s : S'} (h : M.Guarantees rely guar post p (part s)) :
    M'.Guarantees (fun s s' => rely (part s) (part s')) (fun s s' => guar (part s) (part s'))
      (fun s => post (part s)) (p.embed f g) s := by
  induction p generalizing s with
  | pure a => exact fun s' hs => h _ hs
  | call c next ih =>
      intro s₁ o r s₂ hs hr
      obtain ⟨o', hc⟩ := hexec c o s₁ r s₂ hr
      obtain ⟨hstep, hrest⟩ := h _ o' _ _ hs hc
      exact ⟨hstep, ih _ hrest⟩

end

end Semantics

/-- What the calls rely on, guarantee and end with. -/
structure Contract (Call α S : Type) where
  rely : S → S → Prop
  guar : Call → S → S → Prop
  post : Call → S → α → Prop

/-- The calls meet the contract from every state of `inv`. -/
structure Contract.Met (K : Contract Call α S) (M : Semantics C R Call α S O X)
    (inv : S → Prop) : Prop where
  refl : ∀ s, K.rely s s
  trans : ∀ s₁ s₂ s₃, K.rely s₁ s₂ → K.rely s₂ s₃ → K.rely s₁ s₃
  keeps : ∀ s s', inv s → K.rely s s' → inv s'
  guar : ∀ call s s', inv s → K.guar call s s' → K.rely s s'
  environment : ∀ x s, inv s → K.rely s (M.environment x s)
  body : ∀ call s, inv s →
    M.Guarantees K.rely (K.guar call) (K.post call) (M.body call) s

/-- The invariant holds, and every call still guarantees what it has to. -/
structure Contract.Kept (K : Contract Call α S) (M : Semantics C R Call α S O X) (inv : S → Prop)
    (σ : Pool C R Call α S) : Prop where
  holds : inv σ.shared
  threads : ∀ (k : ℕ) call rest, σ.threads[k]? = some ⟨call, rest⟩ →
    M.Guarantees K.rely (K.guar call) (K.post call) rest σ.shared

namespace Contract.Met

variable {K : Contract Call α S} {M : Semantics C R Call α S O X} {inv : S → Prop}
  {ok : Pool C R Call α S → Event Call O X → Prop} {σ σ' : Pool C R Call α S}

/-- The step of a call is one that it guarantees. -/
theorem fires (hK : K.Met M inv) (hσ : K.Kept M inv σ) {e : Entry C R}
    (h : M.Fires ok e σ σ') {call : Call} (hcall : σ.call? e.thread = some call) :
    K.guar call σ.shared σ'.shared := by
  obtain ⟨⟨o, -, hexec⟩, ⟨call', next, hi, -⟩, -⟩ := h
  rw [Pool.call?, hi] at hcall
  obtain rfl := Option.some.inj hcall
  exact (hσ.threads _ _ _ hi _ o _ _ (hK.refl _) hexec).1

theorem step (hK : K.Met M inv) (hσ : K.Kept M inv σ) (h : M.Steps ok σ σ') :
    K.rely σ.shared σ'.shared ∧ K.Kept M inv σ' := by
  have hmoves := h.moves
  have hrely : K.rely σ.shared σ'.shared := by
    cases hmoves with
    | spawn call hok hshared hthreads hhistory => exact hshared ▸ hK.refl _
    | environment x hok hshared hthreads hhistory =>
        exact hshared ▸ hK.environment x _ hσ.holds
    | exec e he =>
        obtain ⟨call, next, hi, -⟩ := he.thread
        have hcall : σ.call? e.thread = some call := by
          rw [Pool.call?, hi]
          rfl
        exact hK.guar call _ _ hσ.holds (hK.fires hσ he hcall)
  have hinv := hK.keeps _ _ hσ.holds hrely
  refine ⟨hrely, hinv, fun k call rest hk => ?_⟩
  obtain ⟨-, rfl, -⟩ | ⟨c, r, next, hfires, hi, rfl⟩ | hold := hmoves.thread hk
  · exact hK.body call _ hinv
  · obtain ⟨o, -, hexec⟩ := hfires.exec
    exact (hσ.threads k call _ hi _ o _ _ (hK.refl _) hexec).2
  · exact (hσ.threads k call rest hold).later hK.trans hrely

theorem reaches (hK : K.Met M inv) (hσ : K.Kept M inv σ) (h : M.Reaches ok σ σ') :
    K.rely σ.shared σ'.shared ∧ K.Kept M inv σ' := by
  induction h with
  | refl => exact ⟨hK.refl _, hσ⟩
  | tail _ hstep ih =>
      obtain ⟨hrely, hkept⟩ := hK.step ih.2 hstep
      exact ⟨hK.trans _ _ _ ih.1 hrely, hkept⟩

theorem init {s : S} (hs : inv s) : K.Kept M inv (Pool.init s) :=
  ⟨hs, fun k call rest hk => by simp [Pool.init] at hk⟩

/-- A call that has finished has ended as the contract says. -/
theorem result (hK : K.Met M inv) (hσ : K.Kept M inv σ) {k : ℕ} {call : Call} {a : α}
    (hcall : σ.call? k = some call) (ha : σ.result? k = some a) : K.post call σ.shared a := by
  obtain ⟨call', hi⟩ := (Pool.result?_eq_some_iff σ k a).1 ha
  rw [Pool.call?, hi] at hcall
  obtain rfl := Option.some.inj hcall
  exact hσ.threads k _ _ hi _ (hK.refl _)

end Contract.Met

end Interaction

end Shortlink

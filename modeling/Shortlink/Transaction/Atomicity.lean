import Shortlink.Transaction.System

/-!
# Atomicity under a locking discipline

A `Discipline` says what the committed database satisfies (`Inv`), how it may
change over time (`Evolves`), and what stays the same as long as nobody commits
under the lock `k` (`Frame k`). `Tracks t cur held ws d` says that a
transaction with body `t`, which still has to execute `cur`, holds `held` and
has made the writes `ws`, will at its commit have the effect of `t` executed
alone on the state it commits to, whatever the others commit in between.

When every body tracks itself from the start, interleaved transactions are
serializable: `Good.reaches` shows that the committed states are those of the
logged transactions executed one after another, that a transaction without
writes returns what its body returns alone in some state of that history, and
that no two clients hold the same lock.
-/

namespace Shortlink

namespace Transaction

open Shortlink.Interaction

variable {C : Type} {Res : C → Type} {Call α O D K ε : Type}

/-- An invariant, a notion of evolution, and what each lock protects. -/
structure Discipline (D K : Type) where
  Inv : D → Prop
  Evolves : D → D → Prop
  Frame : K → D → D → Prop
  evolves_refl : ∀ d, Evolves d d
  evolves_trans : ∀ d₁ d₂ d₃, Evolves d₁ d₂ → Evolves d₂ d₃ → Evolves d₁ d₃
  frame_refl : ∀ k d, Frame k d d
  frame_trans : ∀ k d₁ d₂ d₃, Frame k d₁ d₂ → Frame k d₂ d₃ → Frame k d₁ d₃

namespace Discipline

/-- What the others may do to the committed database while the locks `H` are
held. -/
structure Env (G : Discipline D K) (H : List K) (d d' : D) : Prop where
  inv : G.Inv d'
  evolves : G.Evolves d d'
  frame : ∀ k ∈ H, G.Frame k d d'

theorem env_refl {G : Discipline D K} {H : List K} {d : D} (h : G.Inv d) :
    G.Env H d d :=
  ⟨h, G.evolves_refl d, fun k _ => G.frame_refl k d⟩

theorem Env.trans {G : Discipline D K} {H : List K} {d₁ d₂ d₃ : D}
    (h₁ : G.Env H d₁ d₂) (h₂ : G.Env H d₂ d₃) : G.Env H d₁ d₃ :=
  ⟨h₂.inv, G.evolves_trans _ _ _ h₁.evolves h₂.evolves,
    fun k hk => G.frame_trans k _ _ _ (h₁.frame k hk) (h₂.frame k hk)⟩

/-- Holding fewer locks allows the others more. -/
theorem Env.mono {G : Discipline D K} {H H' : List K} {d d' : D}
    (h : G.Env H d d') (hH : ∀ k ∈ H', k ∈ H) : G.Env H' d d' :=
  ⟨h.inv, h.evolves, fun k hk => h.frame k (hH k hk)⟩

/-- The rest `cur` of a transaction with body `t` commits to what `t` does
alone. -/
def Tracks {β : Type} (G : Discipline D K) (t : Tx D K ε β) :
    Tx D K ε β → List K → List (D → Except ε D) → D → Prop
  | .pure a, _, [], d => t.run d = .ok (a, d)
  | .pure a, H, w :: ws, d =>
      ∀ d' d'', G.Env H d d' → Tx.applyWrites (w :: ws) d' = .ok d'' →
        t.run d' = .ok (a, d'') ∧ ∀ k ∈ t.locks d', k ∈ H
  | .throw _, _, _, _ => True
  | .lock k cur, H, ws, d => ∀ d', G.Env H d d' → G.Tracks t cur (k :: H) ws d'
  | .read cur, H, ws, d =>
      ∀ d' view, G.Env H d d' → Tx.applyWrites ws d' = .ok view →
        G.Tracks t (cur view) H ws d'
  | .write w cur, H, ws, d =>
      ∀ d' view, G.Env H d d' → Tx.applyWrites (ws ++ [w]) d' = .ok view →
        G.Tracks t cur H (ws ++ [w]) d'

/-- Executing a body alone preserves the invariant and the frame of every lock
it does not take, and every body tracks itself. -/
structure Valid (G : Discipline D K) (M : System C Res Call α O D K ε) :
    Prop where
  guarantee : ∀ c o d a d', G.Inv d → (M.impl c o).run d = .ok (a, d') →
    G.Inv d' ∧ G.Evolves d d' ∧
      ∀ k, k ∉ (M.impl c o).locks d → G.Frame k d d'
  tracks : ∀ c o d, G.Inv d → G.Tracks (M.impl c o) (M.impl c o) [] [] d

/-- Tracking survives what the others do, as long as there is a statement or a
commit of writes still to come. -/
theorem Tracks.env {G : Discipline D K} {β : Type} {t cur : Tx D K ε β}
    {H : List K} {ws : List (D → Except ε D)} {d d' : D}
    (h : G.Tracks t cur H ws d) (henv : G.Env H d d') :
    G.Tracks t cur H ws d' ∨ ws = [] ∧ ∃ a, cur = .pure a := by
  cases cur with
  | pure a =>
      cases ws with
      | nil => exact .inr ⟨rfl, a, rfl⟩
      | cons w ws =>
          exact .inl fun d₁ d₂ h₁ h₂ => h d₁ d₂ (henv.trans h₁) h₂
  | throw e => exact .inl trivial
  | lock k cur => exact .inl fun d₁ h₁ => h d₁ (henv.trans h₁)
  | read cur => exact .inl fun d₁ v h₁ => h d₁ v (henv.trans h₁)
  | write w cur => exact .inl fun d₁ v h₁ => h d₁ v (henv.trans h₁)

/-! ### Bodies whose reads are protected -/

/-- Executing `t` alone on any later state comes to executing `cur` on that
state overlaid by the writes made so far. -/
def Follows {β : Type} (G : Discipline D K) (t cur : Tx D K ε β) (H : List K)
    (ws : List (D → Except ε D)) (d : D) : Prop :=
  ∀ d' view, G.Env H d d' → Tx.applyWrites ws d' = .ok view →
    t.run d' = cur.run view ∧ ∀ k ∈ t.locks d', k ∈ H ∨ k ∈ cur.locks view

/-- Every read of `cur` continues the same way on all later states. -/
def Stable {β : Type} (G : Discipline D K) :
    Tx D K ε β → List K → List (D → Except ε D) → D → Prop
  | .pure _, _, _, _ => True
  | .throw _, _, _, _ => True
  | .lock k cur, H, ws, d => ∀ d', G.Env H d d' → G.Stable cur (k :: H) ws d'
  | .read cur, H, ws, d =>
      ∀ d' view, G.Env H d d' → Tx.applyWrites ws d' = .ok view →
        (∀ d'' view', G.Env H d' d'' → Tx.applyWrites ws d'' = .ok view' →
          cur view' = cur view) ∧ G.Stable (cur view) H ws d'
  | .write w cur, H, ws, d =>
      ∀ d' view, G.Env H d d' → Tx.applyWrites (ws ++ [w]) d' = .ok view →
        G.Stable cur H (ws ++ [w]) d'

theorem follows_self {β : Type} (G : Discipline D K) (t : Tx D K ε β) (d : D) :
    G.Follows t t [] [] d := by
  intro d' view _ hview
  obtain rfl := Except.ok.inj hview
  exact ⟨rfl, fun k hk => .inr hk⟩

/-- A body that follows its execution alone and whose reads are protected
tracks it. -/
theorem Stable.tracks {G : Discipline D K} {β : Type} {t cur : Tx D K ε β} {H : List K}
    {ws : List (D → Except ε D)} {d : D} (hstable : G.Stable cur H ws d)
    (hfollows : G.Follows t cur H ws d) (hd : G.Inv d) :
    G.Tracks t cur H ws d := by
  induction cur generalizing H ws d with
  | pure a =>
      cases ws with
      | nil => exact (hfollows d d (env_refl hd) rfl).1
      | cons w ws =>
          intro d' d'' henv hws
          obtain ⟨hrun, hlocks⟩ := hfollows d' d'' henv hws
          exact ⟨hrun, fun k hk => (hlocks k hk).resolve_right (by simp)⟩
  | throw e => trivial
  | lock k cur ih =>
      intro d' henv
      refine ih (hstable d' henv) ?_ henv.inv
      intro d₁ view henv₁ hws
      have henv₂ : G.Env H d' d₁ :=
        henv₁.mono fun k' hk' => List.mem_cons_of_mem k hk'
      obtain ⟨hrun, hlocks⟩ := hfollows d₁ view (henv.trans henv₂) hws
      refine ⟨hrun, fun k' hk' => ?_⟩
      rcases hlocks k' hk' with hH | hcur
      · exact .inl (List.mem_cons_of_mem k hH)
      · rcases List.mem_cons.1 hcur with rfl | hcur
        · exact .inl List.mem_cons_self
        · exact .inr hcur
  | read cur ih =>
      intro d' view henv hws
      obtain ⟨hsame, hrest⟩ := hstable d' view henv hws
      refine ih view hrest ?_ henv.inv
      intro d₁ view₁ henv₁ hws₁
      obtain ⟨hrun, hlocks⟩ := hfollows d₁ view₁ (henv.trans henv₁) hws₁
      simp only [Tx.run_read, Tx.locks_read,
        hsame d₁ view₁ henv₁ hws₁] at hrun hlocks
      exact ⟨hrun, hlocks⟩
  | write w cur ih =>
      intro d' view henv hws
      refine ih (hstable d' view henv hws) ?_ henv.inv
      intro d₁ view₁ henv₁ hws₁
      obtain ⟨view₂, hws₂, hw⟩ := Tx.applyWrites_append_eq_ok_iff.1 hws₁
      rw [Tx.applyWrites_singleton] at hw
      obtain ⟨hrun, hlocks⟩ := hfollows d₁ view₂ (henv.trans henv₁) hws₂
      rw [Tx.run_write_ok hw] at hrun
      rw [Tx.locks_write_ok hw] at hlocks
      exact ⟨hrun, hlocks⟩

/-- A query whose answer the locks protect. -/
theorem stable_query_bind {β γ : Type} {G : Discipline D K} {f : D → γ}
    {rest : γ → Tx D K ε β} {H : List K} {d : D}
    (hsame : ∀ d₁ d₂, G.Env H d d₁ → G.Env H d₁ d₂ → f d₂ = f d₁)
    (hrest : ∀ d₁, G.Env H d d₁ → G.Stable (rest (f d₁)) H [] d₁) :
    G.Stable ((Tx.query f).bind rest) H [] d := by
  intro d₁ view henv hview
  obtain rfl := Except.ok.inj hview
  refine ⟨fun d₂ view' henv' hview' => ?_, hrest d₁ henv⟩
  obtain rfl := Except.ok.inj hview'
  exact congrArg rest (hsame d₁ d₂ henv henv')

/-- A body whose first query is not protected by a lock: either it ends with
the answer, or what the answer leads to is protected and agrees with what every
later answer leads to. -/
theorem tracks_query_bind {β γ : Type} {G : Discipline D K} {f : D → γ}
    {rest : γ → Tx D K ε β} {d : D}
    (h : ∀ d₁, G.Env [] d d₁ → (∃ a, rest (f d₁) = .pure a) ∨
      (∃ e, rest (f d₁) = .throw e) ∨
      (∀ d₂, G.Env [] d₁ d₂ →
        (rest (f d₂)).run d₂ = (rest (f d₁)).run d₂ ∧
          ∀ k ∈ (rest (f d₂)).locks d₂, k ∈ (rest (f d₁)).locks d₂) ∧
        G.Stable (rest (f d₁)) [] [] d₁) :
    G.Tracks ((Tx.query f).bind rest) ((Tx.query f).bind rest) [] [] d := by
  intro d₁ view henv hview
  obtain rfl := Except.ok.inj hview
  rcases h d₁ henv with ⟨a, ha⟩ | ⟨e, he⟩ | ⟨hsame, hstable⟩
  · simp only [Tx.query_bind, Tx.pure_bind, ha, Tracks, Tx.run_read,
      Tx.run_pure]
  · simp only [Tx.query_bind, Tx.pure_bind, he, Tracks]
  · refine Stable.tracks hstable ?_ henv.inv
    intro d₂ view henv₂ hview
    obtain rfl := Except.ok.inj hview
    obtain ⟨hrun, hlocks⟩ := hsame d₂ henv₂
    exact ⟨hrun, fun k hk => .inr (hlocks k hk)⟩

end Discipline

/-! ### Serial histories -/

/-- The log `l` extends `l₀`, and executing its writing transactions one after
another on `d₀` gives `d`. -/
inductive Serial (M : System C Res Call α O D K ε) (d₀ : D)
    (l₀ : List (Record C Res O ε)) : List (Record C Res O ε) → D → Prop where
  | base : Serial M d₀ l₀ l₀ d₀
  | commit {l : List (Record C Res O ε)} {d d' : D} {i : ℕ} {c : C} {o : O}
      {a : Res c} (h : Serial M d₀ l₀ l d)
      (hrun : (M.impl c o).run d = .ok (a, d')) :
      Serial M d₀ l₀ (⟨i, c, o, .ok a, true⟩ :: l) d'
  | quiet {l : List (Record C Res O ε)} {d : D} (r : Record C Res O ε)
      (h : Serial M d₀ l₀ l d) (hr : r.wrote = false) :
      Serial M d₀ l₀ (r :: l) d

theorem Serial.suffix {M : System C Res Call α O D K ε} {d₀ d : D}
    {l₀ l : List (Record C Res O ε)} (h : Serial M d₀ l₀ l d) :
    l₀ <:+ l := by
  induction h with
  | base => exact List.suffix_refl _
  | commit _ _ ih => exact ih.trans (List.suffix_cons _ _)
  | quiet _ _ _ ih => exact ih.trans (List.suffix_cons _ _)

theorem Serial.trans {M : System C Res Call α O D K ε} {d₀ d₁ d₂ : D}
    {l₀ l₁ l₂ : List (Record C Res O ε)} (h₁ : Serial M d₀ l₀ l₁ d₁)
    (h₂ : Serial M d₁ l₁ l₂ d₂) : Serial M d₀ l₀ l₂ d₂ := by
  induction h₂ with
  | base => exact h₁
  | commit _ hrun ih => exact ih.commit hrun
  | quiet r _ hr ih => exact ih.quiet r hr

/-- A property of the database kept by every transaction executed alone holds
along a serial history. -/
theorem Serial.invariant {M : System C Res Call α O D K ε} {P : D → Prop}
    (hP : ∀ c o d a d', P d → (M.impl c o).run d = .ok (a, d') → P d')
    {d₀ d : D} {l₀ l : List (Record C Res O ε)} (h : Serial M d₀ l₀ l d)
    (h₀ : P d₀) : P d := by
  induction h with
  | base => exact h₀
  | commit _ hrun ih => exact hP _ _ _ _ _ ih hrun
  | quiet _ _ _ ih => exact ih

/-- A preorder respected by every transaction executed alone relates the ends
of a serial history. -/
theorem Serial.relates {M : System C Res Call α O D K ε} {P : D → Prop}
    {R : D → D → Prop}
    (hP : ∀ c o d a d', P d → (M.impl c o).run d = .ok (a, d') → P d')
    (hrefl : ∀ d, R d d) (htrans : ∀ d₁ d₂ d₃, R d₁ d₂ → R d₂ d₃ → R d₁ d₃)
    (hR : ∀ c o d a d', P d → (M.impl c o).run d = .ok (a, d') → R d d')
    {d₀ d : D} {l₀ l : List (Record C Res O ε)} (h : Serial M d₀ l₀ l d)
    (h₀ : P d₀) : R d₀ d := by
  induction h with
  | base => exact hrefl d₀
  | commit hs hrun ih =>
      exact htrans _ _ _ ih (hR _ _ _ _ _ (hs.invariant hP h₀) hrun)
  | quiet _ _ _ ih => exact ih

/-- A writing transaction of the extension was executed alone on some state of
the history. -/
theorem Serial.exists_run {M : System C Res Call α O D K ε} {d₀ d : D}
    {l₀ l : List (Record C Res O ε)} (h : Serial M d₀ l₀ l d)
    {l₁ l₂ : List (Record C Res O ε)} {r : Record C Res O ε}
    (hl : l = l₂ ++ r :: l₁) (hl₁ : l₀ <:+ l₁) (hr : r.wrote = true) :
    ∃ d₁ d₂ a, r.reply = .ok a ∧ Serial M d₀ l₀ l₁ d₁ ∧
      (M.impl r.command r.outside).run d₁ = .ok (a, d₂) ∧
      Serial M d₂ (r :: l₁) l d := by
  induction h generalizing l₂ with
  | base =>
      have hlen := hl₁.length_le
      rw [hl] at hlen
      simp only [List.length_append, List.length_cons] at hlen
      omega
  | @commit l d d' i c o a hs hrun ih =>
      cases l₂ with
      | nil =>
          simp only [List.nil_append, List.cons.injEq] at hl
          obtain ⟨rfl, rfl⟩ := hl
          exact ⟨d, d', a, rfl, hs, hrun, .base⟩
      | cons r₂ l₂ =>
          simp only [List.cons_append, List.cons.injEq] at hl
          obtain ⟨rfl, hl⟩ := hl
          obtain ⟨d₁, d₂, b, hb, h₁, h₂, h₃⟩ := ih hl
          exact ⟨d₁, d₂, b, hb, h₁, h₂, h₃.commit hrun⟩
  | quiet r' hs hr' ih =>
      cases l₂ with
      | nil =>
          simp only [List.nil_append, List.cons.injEq] at hl
          obtain ⟨rfl, rfl⟩ := hl
          rw [hr] at hr'
          cases hr'
      | cons r₂ l₂ =>
          simp only [List.cons_append, List.cons.injEq] at hl
          obtain ⟨rfl, hl⟩ := hl
          obtain ⟨d₁, d₂, b, hb, h₁, h₂, h₃⟩ := ih hl
          exact ⟨d₁, d₂, b, hb, h₁, h₂, h₃.quiet r' hr'⟩

/-- Nothing has happened. -/
theorem Serial.same {M : System C Res Call α O D K ε} {d d' : D}
    {l : List (Record C Res O ε)} (h : Serial M d l l d') : d' = d := by
  cases h with
  | base => rfl
  | commit hs hrun =>
      have hlen := hs.suffix.length_le
      simp only [List.length_cons] at hlen
      omega
  | quiet r hs hr =>
      have hlen := hs.suffix.length_le
      simp only [List.length_cons] at hlen
      omega

/-- One more record: it committed, executed alone, or the database is as
before. -/
theorem Serial.of_cons {M : System C Res Call α O D K ε} {d₀ d : D}
    {l : List (Record C Res O ε)} {r : Record C Res O ε}
    (h : Serial M d₀ l (r :: l) d) :
    d = d₀ ∧ r.wrote = false ∨ ∃ a, r.reply = .ok a ∧
      (M.impl r.command r.outside).run d₀ = .ok (a, d) := by
  generalize hl : r :: l = l' at h
  cases h with
  | base =>
      have hlen := congrArg List.length hl
      simp at hlen
  | commit hs hrun =>
      obtain ⟨rfl, rfl⟩ := List.cons.inj hl
      obtain rfl := hs.same
      exact .inr ⟨_, rfl, hrun⟩
  | quiet r' hs hr' =>
      obtain ⟨rfl, rfl⟩ := List.cons.inj hl
      exact .inl ⟨hs.same, hr'⟩

/-- The state after a part of the log is passed by the serial history of the
whole log. -/
theorem Serial.split {M : System C Res Call α O D K ε} {d₀ d d₁ : D}
    {l₀ l l₁ : List (Record C Res O ε)} (h : Serial M d₀ l₀ l d)
    (h₁ : Serial M d₀ l₀ l₁ d₁) (hl : l₁ <:+ l) : Serial M d₁ l₁ l d := by
  induction h generalizing l₁ d₁ with
  | base =>
      obtain rfl := h₁.suffix.eq_of_length
        (Nat.le_antisymm h₁.suffix.length_le hl.length_le)
      obtain rfl := h₁.same
      exact .base
  | commit hs hrun ih =>
      rcases List.suffix_cons_iff.1 hl with rfl | hl
      · cases h₁ with
        | base =>
            have hlen := hs.suffix.length_le
            simp only [List.length_cons] at hlen
            omega
        | commit hs' hrun' =>
            obtain rfl := (ih hs' (List.suffix_refl _)).same
            obtain rfl := (Prod.mk.inj (Except.ok.inj
              (hrun'.symm.trans hrun))).2
            exact .base
        | quiet r hs' hr => cases hr
      · exact (ih h₁ hl).commit hrun
  | quiet r hs hr ih =>
      rcases List.suffix_cons_iff.1 hl with rfl | hl
      · cases h₁ with
        | base =>
            have hlen := hs.suffix.length_le
            simp only [List.length_cons] at hlen
            omega
        | commit hs' hrun' => cases hr
        | quiet r' hs' hr' =>
            obtain rfl := (ih hs' (List.suffix_refl _)).same
            exact .base
      · exact (ih h₁ hl).quiet r hr

/-- The body of a transaction, executed alone on a state of the history that
led to `l`, returns `a` and writes nothing. -/
def ReadPoint (M : System C Res Call α O D K ε) (d₀ : D)
    (l : List (Record C Res O ε)) (c : C) (o : O) (a : Res c) : Prop :=
  ∃ l₁ d₁, l₁ <:+ l ∧ Serial M d₀ [] l₁ d₁ ∧
    (M.impl c o).run d₁ = .ok (a, d₁)

theorem ReadPoint.mono {M : System C Res Call α O D K ε} {d₀ : D}
    {l l' : List (Record C Res O ε)} {c : C} {o : O} {a : Res c}
    (h : ReadPoint M d₀ l c o a) (hl : l <:+ l') :
    ReadPoint M d₀ l' c o a := by
  obtain ⟨l₁, d₁, h₁, h₂, h₃⟩ := h
  exact ⟨l₁, d₁, h₁.trans hl, h₂, h₃⟩

/-! ### Runs of the system are serializable -/

/-- Where a client stands with respect to its transaction. -/
def ClientOk (G : Discipline D K) (M : System C Res Call α O D K ε) (d₀ : D)
    (σ : State C Res Call α O D K ε) :
    Client C Res Call α O D K ε → Prop
  | ⟨_, .idle _⟩ => True
  | ⟨_, .busy c o cur held ws _⟩ =>
      G.Tracks (M.impl c o) cur held ws σ.db ∨
        ws = [] ∧ ∃ a, cur = .pure a ∧ ReadPoint M d₀ σ.log c o a

/-- What holds in every state of a run that starts from `d₀`. -/
structure Good (G : Discipline D K) (M : System C Res Call α O D K ε) (d₀ : D)
    (σ : State C Res Call α O D K ε) : Prop where
  inv : G.Inv σ.db
  serial : Serial M d₀ [] σ.log σ.db
  reads : ∀ l₁ l₂ r a, σ.log = l₂ ++ r :: l₁ → r.wrote = false →
    r.reply = .ok a → ReadPoint M d₀ l₁ r.command r.outside a
  clients : ∀ (i : ℕ) cl, σ.clients[i]? = some cl → ClientOk G M d₀ σ cl
  exclusive : ∀ (i j : ℕ) cl cl' k, σ.clients[i]? = some cl →
    σ.clients[j]? = some cl' → i ≠ j → k ∈ cl.held → k ∉ cl'.held

theorem good_init {G : Discipline D K} {M : System C Res Call α O D K ε}
    {d₀ : D} (h : G.Inv d₀) : Good G M d₀ (State.init d₀) where
  inv := h
  serial := .base
  reads l₁ l₂ r a hl := by simp [State.init] at hl
  clients i cl hi := by simp [State.init] at hi
  exclusive i j cl cl' k hi := by simp [State.init] at hi

/-- A client that reached the end of a body without writes has its read
point now. -/
theorem clientOk_of_tracks {G : Discipline D K}
    {M : System C Res Call α O D K ε} {d₀ : D}
    {σ : State C Res Call α O D K ε} (hs : Serial M d₀ [] σ.log σ.db)
    {c : C} {o : O} {cur : Tx D K ε (Res c)} {H : List K}
    {ws : List (D → Except ε D)}
    (h : G.Tracks (M.impl c o) cur H ws σ.db) :
    G.Tracks (M.impl c o) cur H ws σ.db ∧
      ∀ a, cur = .pure a → ws = [] → ReadPoint M d₀ σ.log c o a := by
  refine ⟨h, ?_⟩
  rintro a rfl rfl
  exact ⟨σ.log, σ.db, List.suffix_refl _, hs, h⟩

/-- A client is not disturbed by a change of the database that respects its
locks. -/
theorem ClientOk.transfer {G : Discipline D K}
    {M : System C Res Call α O D K ε} {d₀ : D}
    {σ σ' : State C Res Call α O D K ε} (hs : Serial M d₀ [] σ.log σ.db)
    (hlog : σ.log <:+ σ'.log) {cl : Client C Res Call α O D K ε}
    (henv : G.Env cl.held σ.db σ'.db) (h : ClientOk G M d₀ σ cl) :
    ClientOk G M d₀ σ' cl := by
  obtain ⟨call, _ | ⟨c, o, cur, held, ws, next⟩⟩ := cl
  · trivial
  rcases h with h | ⟨hws, a, hcur, hread⟩
  · rcases h.env henv with h' | ⟨hws, a, hcur⟩
    · exact .inl h'
    · have hread := (clientOk_of_tracks hs h).2 a hcur hws
      exact .inr ⟨hws, a, hcur, hread.mono hlog⟩
  · exact .inr ⟨hws, a, hcur, hread.mono hlog⟩

theorem getElem?_set_cases {β : Type} {l : List β} {i j : ℕ} {x y : β}
    (h : (l.set i x)[j]? = some y) : j = i ∧ y = x ∨ j ≠ i ∧ l[j]? = some y := by
  by_cases hij : i = j
  · subst hij
    have hlt : i < l.length := by
      have := (List.getElem?_eq_some_iff.1 h).1
      simpa using this
    rw [List.getElem?_set_self hlt] at h
    exact .inl ⟨rfl, (Option.some.inj h).symm⟩
  · rw [List.getElem?_set_ne hij] at h
    exact .inr ⟨Ne.symm hij, h⟩

namespace Good

variable {G : Discipline D K} {M : System C Res Call α O D K ε} {d₀ : D}
  {σ : State C Res Call α O D K ε}

/-- A statement that leaves client `i` inside its transaction. -/
theorem setClient (h : Good G M d₀ σ) {i : ℕ}
    {cl : Client C Res Call α O D K ε} (hcl : ClientOk G M d₀ σ cl)
    (hheld : ∀ (j : ℕ) cl', σ.clients[j]? = some cl' → j ≠ i →
      ∀ k ∈ cl.held, k ∉ cl'.held) :
    Good G M d₀ (σ.setClient i cl) where
  inv := h.inv
  serial := h.serial
  reads := h.reads
  clients j cl' hj := by
    rcases getElem?_set_cases hj with ⟨-, rfl⟩ | ⟨-, hj⟩
    · exact hcl
    · exact h.clients j cl' hj
  exclusive j j' cl₁ cl₂ k h₁ h₂ hne hk := by
    rcases getElem?_set_cases h₁ with ⟨rfl, rfl⟩ | ⟨hji, hold₁⟩
    · rcases getElem?_set_cases h₂ with ⟨rfl, -⟩ | ⟨hji, hold₂⟩
      · exact absurd rfl hne
      · exact hheld j' cl₂ hold₂ hji k hk
    · rcases getElem?_set_cases h₂ with ⟨rfl, rfl⟩ | ⟨-, hold₂⟩
      · exact fun hk' => hheld j cl₁ hold₁ hji k hk' hk
      · exact h.exclusive j j' cl₁ cl₂ k hold₁ hold₂ hne hk

/-- A transaction that ends. -/
theorem settle (h : Good G M d₀ σ) {i : ℕ} {call : Call}
    {d : D} {c : C} {o : O} {next : Reply Res ε c → Program C (Reply Res ε) α}
    {reply : Reply Res ε c} {wrote : Bool} (hinv : G.Inv d)
    (hserial : Serial M d₀ [] (⟨i, c, o, reply, wrote⟩ :: σ.log) d)
    (hread : ∀ a, wrote = false → reply = .ok a →
      ReadPoint M d₀ σ.log c o a)
    (henv : ∀ (j : ℕ) cl, σ.clients[j]? = some cl → j ≠ i →
      G.Env cl.held σ.db d) :
    Good G M d₀ (σ.settle i call d c o next reply wrote) where
  inv := hinv
  serial := hserial
  reads l₁ l₂ r a hl hr ha := by
    cases l₂ with
    | nil =>
        simp only [State.settle, List.nil_append, List.cons.injEq] at hl
        obtain ⟨rfl, rfl⟩ := hl
        exact hread a hr ha
    | cons r₂ l₂ =>
        simp only [State.settle, List.cons_append, List.cons.injEq] at hl
        exact h.reads l₁ l₂ r a hl.2 hr ha
  clients j cl hj := by
    rcases getElem?_set_cases hj with ⟨-, rfl⟩ | ⟨hji, hj⟩
    · trivial
    · exact (h.clients j cl hj).transfer h.serial (List.suffix_cons _ _)
        (henv j cl hj hji)
  exclusive j j' cl₁ cl₂ k h₁ h₂ hne hk := by
    rcases getElem?_set_cases h₁ with ⟨-, rfl⟩ | ⟨-, hold₁⟩
    · simp at hk
    · rcases getElem?_set_cases h₂ with ⟨-, rfl⟩ | ⟨-, hold₂⟩
      · simp
      · exact h.exclusive j j' cl₁ cl₂ k hold₁ hold₂ hne hk

/-- One step keeps everything, and extends the serial history. -/
theorem change [DecidableEq K] (hG : G.Valid M) (h : Good G M d₀ σ)
    {σ' : State C Res Call α O D K ε} (hstep : System.Change M σ σ') :
    Good G M d₀ σ' ∧ Serial M σ.db σ.log σ'.log σ'.db := by
  cases hstep with
  | spawn call =>
      refine ⟨⟨h.inv, h.serial, h.reads, ?_, ?_⟩, .base⟩
      · intro i cl hi
        rw [List.getElem?_append] at hi
        split at hi
        · exact h.clients i cl hi
        · obtain rfl := List.mem_singleton.1 (List.mem_of_getElem? hi)
          trivial
      · intro i j cl cl' k hi hj hne hk
        rw [List.getElem?_append] at hi hj
        split at hi
        · split at hj
          · exact h.exclusive i j cl cl' k hi hj hne hk
          · have hcl' := List.mem_singleton.1 (List.mem_of_getElem? hj)
            simp [hcl']
        · have hcl := List.mem_singleton.1 (List.mem_of_getElem? hi)
          simp [hcl] at hk
  | begin i o call c next hi =>
      refine ⟨h.setClient (.inl (hG.tracks c o σ.db h.inv)) ?_, .base⟩
      intro j cl' _ _ k hk
      simp at hk
  | lock i call c o k cur held ws next hi hfree =>
      have hcl := h.clients i _ hi
      have henv : G.Env held σ.db σ.db := Discipline.env_refl h.inv
      refine ⟨h.setClient ?_ ?_, .base⟩
      · rcases hcl with htr | ⟨-, a, hcur, -⟩
        · exact .inl (htr σ.db henv)
        · cases hcur
      · intro j cl' hj hne k' hk'
        rcases List.mem_cons.1 hk' with rfl | hk'
        · exact hfree j cl' hj hne
        · exact h.exclusive i j _ cl' k' hi hj (Ne.symm hne) hk'
  | read i call c o cur held ws next view hi hview =>
      have hcl := h.clients i _ hi
      have henv : G.Env held σ.db σ.db := Discipline.env_refl h.inv
      refine ⟨h.setClient ?_ ?_, .base⟩
      · rcases hcl with htr | ⟨-, a, hcur, -⟩
        · exact .inl (htr σ.db view henv hview)
        · cases hcur
      · intro j cl' hj hne k' hk'
        exact h.exclusive i j _ cl' k' hi hj (Ne.symm hne) hk'
  | write i call c o w cur held ws next view hi hview =>
      have hcl := h.clients i _ hi
      have henv : G.Env held σ.db σ.db := Discipline.env_refl h.inv
      refine ⟨h.setClient ?_ ?_, .base⟩
      · rcases hcl with htr | ⟨-, a, hcur, -⟩
        · exact .inl (htr σ.db view henv hview)
        · cases hcur
      · intro j cl' hj hne k' hk'
        exact h.exclusive i j _ cl' k' hi hj (Ne.symm hne) hk'
  | fail i call c o cur held ws next e hi =>
      have hserial : Serial M σ.db σ.log
          (⟨i, c, o, .error e, false⟩ :: σ.log) σ.db := Serial.base.quiet _ rfl
      refine ⟨settle h h.inv (h.serial.trans hserial) ?_ ?_, hserial⟩
      · intro a _ ha
        cases ha
      · exact fun j cl _ _ => Discipline.env_refl h.inv
  | commit i call c o a held ws next d hi hd =>
      have hcl := h.clients i _ hi
      cases ws with
      | nil =>
          obtain rfl := Except.ok.inj hd
          have hserial : Serial M σ.db σ.log
              (⟨i, c, o, .ok a, false⟩ :: σ.log) σ.db :=
            Serial.base.quiet _ rfl
          refine ⟨settle h h.inv (h.serial.trans hserial) ?_ ?_, hserial⟩
          · intro b _ hb
            obtain rfl := Except.ok.inj hb
            rcases hcl with htr | ⟨-, a', hcur, hread⟩
            · exact (clientOk_of_tracks h.serial htr).2 a rfl rfl
            · obtain rfl := Tx.pure.inj hcur
              exact hread
          · exact fun j cl _ _ => Discipline.env_refl h.inv
      | cons w ws =>
          rcases hcl with htr | ⟨hws, -⟩
          · obtain ⟨hrun, hlocks⟩ :=
              htr σ.db d (Discipline.env_refl h.inv) hd
            obtain ⟨hinv, hevolves, hframe⟩ :=
              hG.guarantee c o σ.db a d h.inv hrun
            have hserial : Serial M σ.db σ.log
                (⟨i, c, o, .ok a, true⟩ :: σ.log) d := Serial.base.commit hrun
            refine ⟨settle h hinv (h.serial.trans hserial) ?_ ?_, hserial⟩
            · intro b hb
              cases hb
            · intro j cl hj hne
              refine ⟨hinv, hevolves, fun k hk => hframe k fun hk' => ?_⟩
              exact h.exclusive j i cl _ k hj hi hne hk (hlocks k hk')
          · cases hws

/-- Every run from a good state ends in a good state and extends the serial
history. -/
theorem reaches [DecidableEq K] (hG : G.Valid M) (h : Good G M d₀ σ)
    {σ' : State C Res Call α O D K ε} (hrun : M.Reaches σ σ') :
    Good G M d₀ σ' ∧ Serial M σ.db σ.log σ'.log σ'.db := by
  induction hrun with
  | refl => exact ⟨h, .base⟩
  | tail _ hstep ih =>
      obtain ⟨hgood, hserial⟩ := ih
      obtain ⟨hgood', hserial'⟩ := hgood.change hG hstep.change
      exact ⟨hgood', hserial.trans hserial'⟩

end Good

end Transaction

end Shortlink

import Shortlink.Auth.Run
import Shortlink.Interaction.Returning

/-!
# Auth programs while nothing fails

The auth services between whose steps only time passes, with steps that do not fail, are
executed before a deadline and draw what has not been drawn before (`Smooth`). Each rule says
what a step returns then.
-/

namespace Shortlink

namespace Auth

open Shortlink.Storage Shortlink.Transaction Shortlink.Interaction Shortlink.Expiring

/-- The auth services while Redis keeps its entries. -/
def calmAuthService (config : AuthConfig) :
    Semantics AuthStep AuthStep.Reply AuthCall AuthResult AuthState AuthOutside ℕ :=
  (authService config).withEnvironment fun n s => environment (.tick n) s

/-- A step that does not fail, is executed before the deadline and draws new ids and new
secrets. -/
structure Smooth (config : AuthConfig) (deadline : ℕ) (c : AuthStep) (o : AuthOutside)
    (s : AuthState) : Prop where
  fault : o.fault = .none
  time : s.redis.now < deadline
  generated : o.generated ≠ ""
  tokenHash : ∀ t ∈ s.db.refreshTokens, t.tokenHash ≠ config.hashToken o.generated
  sessionId : ∀ t ∈ s.db.sessions, t.id ≠ o.stamp.sessionId
  tokenId : ∀ t ∈ s.db.refreshTokens, t.id ≠ o.stamp.tokenId

/-- The jobs and the mails of a step. -/
def AuthStep.output : AuthStep → List AuthStep
  | .enqueue job => [.enqueue job]
  | .sendMail mail => [.sendMail mail]
  | _ => []

/-- The tables are the same, and so are the entries under these keys. -/
structure Carries (keys : RedisKey → Prop) (s s' : AuthState) : Prop where
  db : s'.db = s.db
  cell : ∀ key, keys key → s'.redis.cell key = s.redis.cell key
  now : s.redis.now ≤ s'.redis.now

/-- Only time has passed. -/
abbrev Waited (s s' : AuthState) : Prop := Carries (fun _ => True) s s'

namespace Carries

variable {keys keys' : RedisKey → Prop} {s s₁ s₂ : AuthState} {key : RedisKey}

theorem refl (s : AuthState) : Carries keys s s := ⟨rfl, fun _ _ => rfl, Nat.le_refl _⟩

theorem trans (h₁ : Carries keys s s₁) (h₂ : Carries keys s₁ s₂) : Carries keys s s₂ :=
  ⟨h₂.db.trans h₁.db, fun key hkey => (h₂.cell key hkey).trans (h₁.cell key hkey),
    Nat.le_trans h₁.now h₂.now⟩

theorem mono (h : Carries keys s s₁) (hkeys : ∀ key, keys' key → keys key) :
    Carries keys' s s₁ :=
  ⟨h.db, fun key hkey => h.cell key (hkeys key hkey), h.now⟩

theorem of_waited (h : Waited s s₁) : Carries keys s s₁ := h.mono fun _ _ => trivial

/-- An entry that is not visible does not come back. -/
theorem get_eq_none (h : Carries keys s s₁) (hkey : keys key)
    (hnone : s.redis.get key = none) : s₁.redis.get key = none := by
  cases hget : s₁.redis.get key with
  | none => rfl
  | some v =>
      obtain ⟨e, hcell, hlt⟩ := visible_eq_some_iff.1 hget
      rw [h.cell key hkey] at hcell
      have hvisible : s.redis.get key = some v :=
        visible_eq_some_iff.2 ⟨e, hcell, Nat.lt_of_le_of_lt h.now hlt⟩
      rw [hnone] at hvisible
      cases hvisible

/-- A counter that is still there is as high as before. -/
theorem count_le {key : CounterKey} {limit : ℕ} (h : Carries keys s s₁)
    (hkey : keys (.counter key)) (hcount : ∀ n, s.redis.count key = some n → n < limit) :
    ∀ n, s₁.redis.count key = some n → n < limit := by
  intro n hn
  obtain ⟨e, hcell, hlt⟩ := visible_eq_some_iff.1 hn
  rw [h.cell _ hkey] at hcell
  exact hcount n (visible_eq_some_iff.2 ⟨e, hcell, Nat.lt_of_le_of_lt h.now hlt⟩)

end Carries

/-- The entry under a key until the deadline. -/
def Holds (deadline : ℕ) (s : AuthState) (key : RedisKey) (v : key.Value) : Prop :=
  ∃ e, s.redis.cell key = some (v, e) ∧ deadline ≤ e

namespace Holds

variable {deadline : ℕ} {s s₁ : AuthState} {key : RedisKey} {v : key.Value}

theorem get (h : Holds deadline s key v) (htime : s.redis.now < deadline) :
    s.redis.get key = some v := by
  obtain ⟨e, hcell, he⟩ := h
  exact visible_eq_some_iff.2 ⟨e, hcell, Nat.lt_of_lt_of_le htime he⟩

theorem carried {keys : RedisKey → Prop} (h : Holds deadline s key v)
    (hcarries : Carries keys s s₁) (hkey : keys key) : Holds deadline s₁ key v := by
  obtain ⟨e, hcell, he⟩ := h
  exact ⟨e, (hcarries.cell key hkey).trans hcell, he⟩

end Holds

variable {config : AuthConfig} {deadline : ℕ} {s : AuthState}

theorem carries_of_idles {keys : RedisKey → Prop} {s' : AuthState}
    (h : (calmAuthService config).Idles s s') : Carries keys s s' :=
  h.invariant (P := Carries keys s) (fun n _ h₁ =>
    h₁.trans ⟨rfl, fun _ _ => rfl, Nat.le_add_right _ n⟩) (.refl s)

theorem carries_apply (s : AuthState) (c : RedisCommand) :
    Carries (fun key => ¬ c.Writes key) s { s with redis := (c.apply s.redis).2 } :=
  ⟨rfl, fun _ hkey => RedisCommand.cell_apply_of_not_writes s.redis hkey,
    Nat.le_of_eq (c.apply_now s.redis).symm⟩

namespace AuthProgram

variable {α β : Type}

/-- The program returns a value, and what it has put out, the value and the state satisfy
`post`. -/
abbrev Returns (config : AuthConfig) (deadline : ℕ)
    (post : List AuthStep → α → AuthState → Prop) (p : AuthProgram α) (s : AuthState) : Prop :=
  Throwing.Returns (calmAuthService config) (Smooth config deadline) AuthStep.output post p s

theorem now_returns : now.Returns config deadline
    (fun outs now s₁ => outs = [] ∧ now = s₁.redis.now ∧ now < deadline ∧ Waited s s₁) s := by
  refine Throwing.returns_call fun s₁ o r s₂ hidle hok hexec => ?_
  cases hexec
  exact ⟨_, rfl, rfl, rfl, hok.time, carries_of_idles hidle⟩

theorem generate_returns {secret : Secret} : (generate secret).Returns config deadline
    (fun outs value s₁ => outs = [] ∧ value ≠ "" ∧
      (∀ t ∈ s₁.db.refreshTokens, t.tokenHash ≠ config.hashToken value) ∧ Waited s s₁) s := by
  refine Throwing.returns_call fun s₁ o r s₂ hidle hok hexec => ?_
  cases hexec
  exact ⟨_, rfl, rfl, hok.generated, hok.tokenHash, carries_of_idles hidle⟩

theorem returns_redis {c : RedisCommand} {post : List AuthStep → c.Res → AuthState → Prop}
    (h : ∀ s₁, Waited s s₁ → s₁.redis.now < deadline →
      post [] (c.apply s₁.redis).1 { s₁ with redis := (c.apply s₁.redis).2 }) :
    Returns config deadline post (redis c) s := by
  refine Throwing.returns_call fun s₁ o r s₂ hidle hok hexec => ?_
  obtain ⟨hr, hs⟩ := Prod.mk.inj (Option.some.inj hexec)
  rw [hok.fault] at hr hs
  subst hr hs
  exact ⟨_, rfl, h s₁ (carries_of_idles hidle) hok.time⟩

theorem returns_authRepository {c : AuthCommand}
    {post : List AuthStep → c.Res → AuthState → Prop}
    (h : ∀ s₁ stamp, Waited s s₁ →
      (∀ t ∈ s₁.db.sessions, t.id ≠ stamp.sessionId) →
      (∀ t ∈ s₁.db.refreshTokens, t.id ≠ stamp.tokenId) →
        ∃ a db', (c.impl stamp).run s₁.db = .ok (a, db') ∧ post [] a { s₁ with db := db' }) :
    Returns config deadline post (authRepository c) s := by
  refine Throwing.returns_call fun s₁ o r s₂ hidle hok hexec => ?_
  obtain ⟨a, db', hrun, hpost⟩ := h s₁ o.stamp (carries_of_idles hidle) hok.sessionId hok.tokenId
  rcases exec_repository_of_none hok.fault hexec with ⟨a', hrun', rfl⟩ | ⟨e, hrun', -⟩
  · have hredis := (exec_repository_ok hexec).2
    rw [hrun] at hrun'
    obtain ⟨rfl, hdb⟩ := Prod.mk.inj (Except.ok.inj hrun')
    refine ⟨a, rfl, ?_⟩
    rw [hdb, ← hredis] at hpost
    exact hpost
  · rw [hrun] at hrun'
    cases hrun'

theorem returns_query {c : AuthCommand} {q : AuthDb → c.Res}
    {post : List AuthStep → c.Res → AuthState → Prop}
    (hc : ∀ stamp, c.impl stamp = Tx.query q)
    (h : ∀ s₁, Waited s s₁ → post [] (q s₁.db) s₁) :
    Returns config deadline post (authRepository c) s := by
  refine returns_authRepository fun s₁ stamp hs₁ _ _ => ⟨q s₁.db, s₁.db, ?_, h s₁ hs₁⟩
  rw [hc stamp, Tx.run_query]

theorem findAccountByEmail_returns {email : String} :
    (authRepository (.findAccountByEmail email)).Returns config deadline
      (fun outs (account : Option AccountRecord) s₁ => outs = [] ∧
        account = s.db.findAccountByEmail email ∧ Waited s s₁) s :=
  returns_query (c := .findAccountByEmail email) (fun _ => rfl)
    fun _ hs₁ => ⟨rfl, congrArg (AuthDb.findAccountByEmail email) hs₁.db, hs₁⟩

theorem findAccountById_returns {id : String} :
    (authRepository (.findAccountById id)).Returns config deadline
      (fun outs (account : Option AccountRecord) s₁ => outs = [] ∧
        account = s.db.findAccountById id ∧ Waited s s₁) s :=
  returns_query (c := .findAccountById id) (fun _ => rfl)
    fun _ hs₁ => ⟨rfl, congrArg (AuthDb.findAccountById id) hs₁.db, hs₁⟩

theorem enqueue_returns {job : SendVerificationCodeJobData} :
    (enqueue job).Returns config deadline
      (fun outs _ s₁ => outs = [.enqueue job] ∧ Waited s s₁) s := by
  refine Throwing.returns_call fun s₁ o r s₂ hidle hok hexec => ?_
  obtain ⟨hr, hs⟩ := Prod.mk.inj (Option.some.inj hexec)
  rw [hok.fault] at hr hs
  subst hr hs
  exact ⟨(), rfl, rfl, carries_of_idles hidle⟩

theorem sendMail_returns {mail : Mail} : (sendMail mail).Returns config deadline
    (fun outs _ s₁ => outs = [.sendMail mail] ∧ Waited s s₁) s := by
  refine Throwing.returns_call fun s₁ o r s₂ hidle hok hexec => ?_
  obtain ⟨hr, hs⟩ := Prod.mk.inj (Option.some.inj hexec)
  rw [hok.fault] at hr hs
  subst hr hs
  exact ⟨(), rfl, rfl, carries_of_idles hidle⟩

theorem audit_returns {event : RecordAuthAuditEventInput} : (audit event).Returns config deadline
    (fun outs _ s₁ => outs = [] ∧ Waited s s₁) s := by
  refine Throwing.returns_call fun s₁ o r s₂ hidle hok hexec => ?_
  obtain ⟨hr, hs⟩ := Prod.mk.inj (Option.some.inj hexec)
  rw [hok.fault] at hr hs
  subst hr hs
  exact ⟨(), rfl, rfl, carries_of_idles hidle⟩

end AuthProgram

end Auth

end Shortlink

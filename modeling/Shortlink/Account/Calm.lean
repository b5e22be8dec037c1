import Shortlink.Account.Run
import Shortlink.Auth.Calm

/-!
# Account programs while nothing fails

The rules of `Auth.Calm` for the account programs. An auth program returns here what it
returns there, and the activation entries stay the same (`ofAuth_returns`).
-/

namespace Shortlink

namespace Account

open Shortlink.Storage Shortlink.Transaction Shortlink.Interaction
open Shortlink.Expiring Shortlink.Auth

/-- The account services while Redis keeps its entries. -/
def calmAccountService (config : AccountConfig) :
    Semantics AccountStep AccountStep.Reply AccountCall AuthResult AccountState
      AccountOutside ℕ :=
  (accountService config).withEnvironment fun n s => environment (.tick n) s

/-- A stamp with a new id, from before the deadline. -/
structure FreshStamp (deadline : ℕ) (s : AccountState) (stamp : AccountStamp) : Prop where
  id : stamp.id ≠ ""
  accountId : ∀ a ∈ s.auth.db.users, a.id ≠ stamp.id
  tokenId : ∀ t ∈ s.passwordResetTokens, t.id ≠ stamp.id
  unlocked : s.auth.redis.get (.loginLock stamp.id) = none
  checkedAt : stamp.checkedAt < deadline
  lockedAt : stamp.lockedAt < deadline

/-- A step that does not fail, is executed before the deadline and draws what is new; a hash
that is drawn for a password is one that matches the password. -/
structure Smooth (config : AccountConfig) (deadline : ℕ) (c : AccountStep)
    (o : AccountOutside) (s : AccountState) : Prop where
  auth : ∀ step, Auth.Smooth config.auth deadline step o.auth s.auth
  time : s.entries.now < deadline
  stamp : FreshStamp deadline s o.stamp
  tokenHash : ∀ t ∈ s.passwordResetTokens, t.tokenHash ≠ config.auth.hashToken o.auth.generated
  pattern : ∀ password, c = .hash password →
    matchesBcryptHashPattern o.auth.generated.toList = true
  hashed : ∀ password, c = .hash password →
    config.auth.compare password o.auth.generated = true

/-- The jobs and the mails of a step. -/
def AccountStep.output : AccountStep → List AccountStep
  | .auth c => c.output.map .auth
  | .enqueuePasswordReset job => [.enqueuePasswordReset job]
  | _ => []

/-- The activation entries and the reset tokens are the same. -/
structure Untouched (s s' : AccountState) : Prop where
  tokens : s'.passwordResetTokens = s.passwordResetTokens
  cell : ∀ key, s'.entries.cell key = s.entries.cell key
  now : s.entries.now ≤ s'.entries.now

/-- The activation entries and all tables are the same, and so are the entries of the auth
services under these keys. -/
structure Keeps (keys : RedisKey → Prop) (s s' : AccountState) : Prop extends Untouched s s' where
  auth : Carries keys s.auth s'.auth

namespace Untouched

theorem refl (s : AccountState) : Untouched s s := ⟨rfl, fun _ => rfl, Nat.le_refl _⟩

theorem trans {s s₁ s₂ : AccountState} (h₁ : Untouched s s₁) (h₂ : Untouched s₁ s₂) :
    Untouched s s₂ :=
  ⟨h₂.tokens.trans h₁.tokens, fun key => (h₂.cell key).trans (h₁.cell key),
    Nat.le_trans h₁.now h₂.now⟩

end Untouched

namespace Keeps

variable {keys keys' : RedisKey → Prop} {s s₁ s₂ : AccountState}

theorem refl (s : AccountState) : Keeps keys s s := ⟨.refl s, .refl s.auth⟩

theorem trans (h₁ : Keeps keys s s₁) (h₂ : Keeps keys s₁ s₂) : Keeps keys s s₂ :=
  ⟨h₁.toUntouched.trans h₂.toUntouched, h₁.auth.trans h₂.auth⟩

theorem mono (h : Keeps keys s s₁) (hkeys : ∀ key, keys' key → keys key) : Keeps keys' s s₁ :=
  ⟨h.toUntouched, h.auth.mono hkeys⟩

theorem of_waited (h : Keeps (fun _ => True) s s₁) : Keeps keys s s₁ := h.mono fun _ _ => trivial

theorem of_auth {sa : AuthState} (h : Carries keys s.auth sa) (hwait : Waited sa s₁.auth)
    (huntouched : Untouched s s₁) : Keeps keys s s₁ :=
  ⟨huntouched, h.trans (.of_waited hwait)⟩

end Keeps

variable {config : AccountConfig} {deadline : ℕ} {s : AccountState}

theorem keeps_tick (n : ℕ) (s : AccountState) :
    Keeps (fun _ => True) s (environment (.tick n) s) :=
  ⟨⟨rfl, fun _ => rfl, Nat.le_add_right _ n⟩, ⟨rfl, fun _ _ => rfl, Nat.le_add_right _ n⟩⟩

theorem keeps_of_idles {s' : AccountState} (h : (calmAccountService config).Idles s s') :
    Keeps (fun _ => True) s s' :=
  h.invariant (P := Keeps (fun _ => True) s) (fun n s₁ h₁ => h₁.trans (keeps_tick n s₁)) (.refl s)

namespace AccountProgram

variable {α : Type}

/-- The program returns a value, and what it has put out, the value and the state satisfy
`post`. -/
abbrev Returns (config : AccountConfig) (deadline : ℕ)
    (post : List AccountStep → α → AccountState → Prop) (p : AccountProgram α)
    (s : AccountState) : Prop :=
  Throwing.Returns (calmAccountService config) (Smooth config deadline) AccountStep.output post
    p s

theorem outputs_auth {es : AccountLog} {es' : AuthLog}
    (h : es.map (fun e => (e.1, e.2.auth)) = es'.map (fun e => (.auth e.1, e.2))) :
    outputs AccountStep.output es = (outputs AuthStep.output es').map .auth := by
  calc outputs AccountStep.output es
      = (es.map (fun e => (e.1, e.2.auth))).flatMap (fun e => e.1.output) := by
        rw [List.flatMap_map]
        rfl
    _ = (outputs AuthStep.output es').map .auth := by
        rw [h, List.flatMap_map, outputs, List.map_flatMap]
        rfl

theorem ofAuth_returns {p : AuthProgram α} {post : List AuthStep → α → AuthState → Prop}
    (hp : p.Returns config.auth deadline post s.auth) :
    (ofAuth p).Returns config deadline (fun outs a s₁ => ∃ outs' sa, outs = outs'.map .auth ∧
      post outs' a sa ∧ Waited sa s₁.auth ∧ Untouched s s₁) s := by
  intro es r s' hrun
  obtain ⟨es', hexec, hes⟩ := Semantics.Executes.of_embed (M := calmAuthService config.auth)
    AccountState.auth AccountOutside.auth (fun n _ => .single ⟨n, rfl⟩)
    (fun c _ _ hok => hok.auth c) (fun _ _ _ _ _ hexec => (exec_auth hexec).1) hrun
  have hissues : (ofAuth p).Issues AccountStep.IsAuth :=
    ofAuth_issues (Program.Sat.mono (fun _ _ h => h) (fun _ _ => trivial)
      (fun _ _ => trivial) (Program.sat_true _))
  have huntouched := hrun.invariant (P := Untouched s)
    (fun n s₁ h₁ => h₁.trans (keeps_tick n s₁).toUntouched)
    (fun c o s₁ r s₂ h₁ hc _ hexec => by
      cases c with
      | auth c =>
          obtain ⟨ra, -, heq⟩ := Option.map_eq_some_iff.1 hexec
          cases heq
          exact ⟨trivial, ⟨h₁.tokens, h₁.cell, h₁.now⟩⟩
      | hash password => exact hc.elim
      | repository c => exact hc.elim
      | redis c => exact hc.elim
      | enqueuePasswordReset job => exact hc.elim) hissues (.refl s)
  obtain ⟨a, sa, hr, hpost, hidle⟩ := hp es' r s'.auth hexec
  exact ⟨a, s', hr, ⟨_, sa, outputs_auth hes, hpost, carries_of_idles hidle, huntouched.1⟩,
    .refl⟩

theorem generate_returns {secret : Secret} :
    (ofAuth (AuthProgram.generate secret)).Returns config deadline
      (fun outs value s₁ => outs = [] ∧
        (∀ t ∈ s₁.passwordResetTokens, t.tokenHash ≠ config.auth.hashToken value) ∧
        Keeps (fun _ => True) s s₁) s := by
  refine Throwing.returns_call (c := AccountStep.auth (.generate secret))
    fun s₁ o r s₂ hidle hok hexec => ?_
  cases hexec
  exact ⟨_, rfl, rfl, hok.tokenHash, keeps_of_idles hidle⟩

theorem hash_returns {password : String} : (hash password).Returns config deadline
    (fun outs value s₁ => outs = [] ∧ matchesBcryptHashPattern value.toList = true ∧
      config.auth.compare password value = true ∧ Keeps (fun _ => True) s s₁) s := by
  refine Throwing.returns_call fun s₁ o r s₂ hidle hok hexec => ?_
  cases hexec
  exact ⟨_, rfl, rfl, hok.pattern password rfl, hok.hashed password rfl, keeps_of_idles hidle⟩

theorem returns_activations {c : ActivationCommand}
    {post : List AccountStep → c.Res → AccountState → Prop}
    (h : ∀ s₁, Keeps (fun _ => True) s s₁ → s₁.entries.now < deadline →
      post [] (c.apply s₁.entries).1 { s₁ with entries := (c.apply s₁.entries).2 }) :
    Returns config deadline post (activations c) s := by
  refine Throwing.returns_call fun s₁ o r s₂ hidle hok hexec => ?_
  obtain ⟨hr, hs⟩ := Prod.mk.inj (Option.some.inj hexec)
  rw [(hok.auth .now).fault] at hr hs
  subst hr hs
  exact ⟨_, rfl, h s₁ (keeps_of_idles hidle) hok.time⟩

theorem returns_accountRepository {c : AccountCommand}
    {post : List AccountStep → c.Res → AccountState → Prop}
    (h : ∀ s₁ stamp, Keeps (fun _ => True) s s₁ → FreshStamp deadline s₁ stamp →
      ∃ a db', (c.impl stamp).run s₁.db = .ok (a, db') ∧ post [] a (s₁.setDb db')) :
    Returns config deadline post (accountRepository c) s := by
  refine Throwing.returns_call fun s₁ o r s₂ hidle hok hexec => ?_
  obtain ⟨a, db', hrun, hpost⟩ := h s₁ o.stamp (keeps_of_idles hidle) hok.stamp
  obtain ⟨hr, hs⟩ := Prod.mk.inj (Option.some.inj hexec)
  rw [(hok.auth .now).fault] at hr hs
  simp only [execTransaction, hrun] at hr hs
  subst hr hs
  exact ⟨a, rfl, hpost⟩

theorem enqueuePasswordReset_returns {job : SendPasswordResetJobData} :
    (enqueuePasswordReset job).Returns config deadline
      (fun outs _ s₁ => outs = [.enqueuePasswordReset job] ∧ Keeps (fun _ => True) s s₁) s := by
  refine Throwing.returns_call fun s₁ o r s₂ hidle hok hexec => ?_
  obtain ⟨hr, hs⟩ := Prod.mk.inj (Option.some.inj hexec)
  rw [(hok.auth .now).fault] at hr hs
  subst hr hs
  exact ⟨(), rfl, rfl, keeps_of_idles hidle⟩

end AccountProgram

end Account

end Shortlink

import Shortlink.Account.Service
import Shortlink.Auth.Serial

/-!
# Account programs executed alone

The rules of `Throwing.lean` for the account programs. A program of the auth
services ensures here what it ensures there, and the reset tokens stay the same
(`Ensures.ofAuth`).
-/

namespace Shortlink

namespace Account

open Shortlink.Storage Shortlink.Transaction Shortlink.Interaction
open Shortlink.Expiring Shortlink.Auth

/-- What the environment may have done. -/
structure Idled (s s' : AccountState) : Prop where
  auth : Auth.Idled s.auth s'.auth
  tokens : s'.passwordResetTokens = s.passwordResetTokens

theorem Idled.refl (s : AccountState) : Idled s s := ⟨.refl _, rfl⟩

theorem Idled.trans {s₁ s₂ s₃ : AccountState} (h₁ : Idled s₁ s₂) (h₂ : Idled s₂ s₃) :
    Idled s₁ s₃ :=
  ⟨h₁.auth.trans h₂.auth, h₂.tokens.trans h₁.tokens⟩

theorem Idled.db {s s' : AccountState} (h : Idled s s') : s'.db = s.db := by
  rw [AccountState.db, AccountState.db, h.auth.db, h.tokens]

theorem environment_idled (x : AccountEnvironment) (s : AccountState) :
    Idled s (environment x s) := by
  cases x with
  | tick n => exact ⟨Auth.environment_idled (.tick n) s.auth, rfl⟩
  | evict key => exact ⟨Auth.environment_idled (.evict key) s.auth, rfl⟩
  | evictActivation key => exact ⟨.refl _, rfl⟩

theorem environment_idles (config : AuthConfig) (x : AccountEnvironment)
    (s : AccountState) : (authService config).Idles s.auth (environment x s).auth := by
  cases x with
  | tick n => exact .single ⟨.tick n, rfl⟩
  | evict key => exact .single ⟨.evict key, rfl⟩
  | evictActivation key => exact .refl

variable {config : AccountConfig}

theorem idled_of_idles {s s' : AccountState} (h : (accountService config).Idles s s') :
    Idled s s' :=
  h.invariant (P := Idled s) (fun x s₁ h₁ => h₁.trans (environment_idled x s₁))
    (.refl s)

theorem exec_auth {c : AuthStep} {o : AccountOutside} {s s' : AccountState} {r : c.Reply}
    (h : exec (.auth c) o s = some (r, s')) :
    Auth.exec c o.auth s.auth = some (r, s'.auth) ∧
      s'.passwordResetTokens = s.passwordResetTokens := by
  obtain ⟨⟨r', a⟩, hexec, heq⟩ := Option.map_eq_some_iff.1 h
  cases heq
  exact ⟨hexec, rfl⟩

def AccountStep.IsAuth : AccountStep → Prop
  | .auth _ => True
  | _ => False

namespace AccountProgram

variable {α β : Type} {ok : AccountStep → AccountOutside → AccountState → Prop}
  {s : AccountState}

/-- Every execution of the program from `s` ends as `ends` says. -/
def Ensures (config : AccountConfig)
    (ok : AccountStep → AccountOutside → AccountState → Prop)
    (ends : AccountLog → Except AuthError α → AccountState → Prop) (p : AccountProgram α)
    (s : AccountState) : Prop :=
  (accountService config).Ensures ok ends p.run s

theorem Ensures.mono {ends ends' : AccountLog → Except AuthError α → AccountState → Prop}
    {p : AccountProgram α} (h : p.Ensures config ok ends s)
    (hends : ∀ es r s', ends es r s' → ends' es r s') : p.Ensures config ok ends' s :=
  Semantics.Ensures.mono h hends

theorem Ensures.of_pure {ends : AccountLog → Except AuthError α → AccountState → Prop}
    {a : α} (h : ∀ s', Idled s s' → ends [] (.ok a) s') :
    Ensures config ok ends (pure a) s :=
  Semantics.ensures_pure.2 fun s' hidle => h s' (idled_of_idles hidle)

theorem Ensures.of_throw {ends : AccountLog → Except AuthError α → AccountState → Prop}
    {e : AuthError} (h : ∀ s', Idled s s' → ends [] (.error e) s') :
    Ensures config ok ends (throw e) s :=
  Semantics.ensures_pure.2 fun s' hidle => h s' (idled_of_idles hidle)

/-- After the first program its error is passed on, or its value goes into the
second. -/
theorem Ensures.bind {ends : AccountLog → Except AuthError β → AccountState → Prop}
    {mid : AccountLog → Except AuthError α → AccountState → Prop}
    {p : AccountProgram α} {f : α → AccountProgram β} (hp : p.Ensures config ok mid s)
    (hvalue : ∀ es a s₁, mid es (.ok a) s₁ →
      (f a).Ensures config ok (fun es' => ends (es ++ es')) s₁)
    (herror : ∀ es e s₁, mid es (.error e) s₁ → ends es (.error e) s₁) :
    (p >>= f).Ensures config ok ends s :=
  Throwing.ensures_bind hp hvalue herror

theorem Ensures.map {ends : AccountLog → Except AuthError β → AccountState → Prop}
    {f : α → β} {p : AccountProgram α}
    (hp : p.Ensures config ok (fun es r s' => ends es (Except.map f r) s') s) :
    (f <$> p).Ensures config ok ends s :=
  Throwing.ensures_map hp

theorem Ensures.of_hash {password : String}
    {ends : AccountLog → Except AuthError String → AccountState → Prop}
    (h : ∀ o s', Idled s s' → ends [(.hash password, o)] (.ok o.auth.generated) s') :
    (hash password).Ensures config ok ends s := by
  refine Semantics.ensures_call.2 fun s₁ o r s₂ hidle _ hexec => ?_
  cases hexec
  exact Semantics.ensures_pure.2 fun s' hidle' =>
    h o s' ((idled_of_idles hidle).trans (idled_of_idles hidle'))

theorem Ensures.of_accountRepository {c : AccountCommand}
    {ends : AccountLog → Except AuthError c.Res → AccountState → Prop}
    (h : ∀ s₁ o (r : Except StorageError c.Res) s₂ s', Idled s s₁ →
      ok (.repository c) o s₁ → exec (.repository c) o s₁ = some (r, s₂) →
      Idled s₂ s' → ends [(.repository c, o)] (r.mapError .storage) s') :
    (accountRepository c).Ensures config ok ends s :=
  Semantics.ensures_call.2 fun s₁ o r s₂ hidle hok hexec =>
    Semantics.ensures_pure.2 fun s' hidle' =>
      h s₁ o r s₂ s' (idled_of_idles hidle) hok hexec (idled_of_idles hidle')

/-! ### The steps of a program -/

section

variable {φ : AccountStep → Prop}

theorem issues_pure (a : α) : Throwing.Issues φ (pure a : AccountProgram α) := trivial

theorem issues_throw (e : AuthError) : Throwing.Issues φ (throw e : AccountProgram α) :=
  trivial

theorem issues_hash {password : String} (h : φ (.hash password)) :
    (AccountProgram.hash password).Issues φ := ⟨h, fun _ _ => trivial⟩

theorem issues_accountRepository {c : AccountCommand} (h : φ (.repository c)) :
    (accountRepository c).Issues φ := ⟨h, fun _ _ => trivial⟩

theorem issues_activations {c : ActivationCommand} (h : φ (.redis c)) :
    (activations c).Issues φ := ⟨h, fun _ _ => trivial⟩

theorem issues_enqueuePasswordReset {job : SendPasswordResetJobData}
    (h : φ (.enqueuePasswordReset job)) : (enqueuePasswordReset job).Issues φ :=
  ⟨h, fun _ _ => trivial⟩

theorem ofAuth_issues {p : AuthProgram α} (hp : p.Issues fun c => φ (.auth c)) :
    (ofAuth p).Issues φ :=
  Program.embed_sat hp

end

theorem Ensures.ofAuth {ok' : AuthStep → AuthOutside → AuthState → Prop}
    {ends : AccountLog → Except AuthError α → AccountState → Prop}
    {mid : AuthLog → Except AuthError α → AuthState → Prop} {p : AuthProgram α}
    (hok : ∀ c o s, ok (.auth c) o s → ok' c o.auth s.auth)
    (hp : p.Ensures config.auth ok' mid s.auth)
    (hends : ∀ es es' r s', mid es' r s'.auth →
      es.map (fun e => (e.1, e.2.auth)) = es'.map (fun e => (.auth e.1, e.2)) →
      s'.passwordResetTokens = s.passwordResetTokens → ends es r s') :
    (ofAuth p).Ensures config ok ends s := by
  intro es r s' hrun
  obtain ⟨es', hexec, hes⟩ := Semantics.Executes.of_embed AccountState.auth
    AccountOutside.auth (fun x s => environment_idles config.auth x s) hok
    (fun c o s r s' h => (exec_auth h).1) hrun
  have hissues : (Account.ofAuth p).Issues AccountStep.IsAuth :=
    ofAuth_issues (Program.Sat.mono (fun _ _ h => h) (fun _ _ => trivial)
      (fun _ _ => trivial) (Program.sat_true _))
  have htokens := hrun.invariant
    (P := fun s₁ => s₁.passwordResetTokens = s.passwordResetTokens)
    (fun x s₁ h => (environment_idled x s₁).tokens.trans h)
    (fun c o s₁ r s₂ h hc _ hexec => by
      cases c with
      | auth c => exact ⟨trivial, (exec_auth hexec).2.trans h⟩
      | hash password => exact hc.elim
      | repository c => exact hc.elim
      | redis c => exact hc.elim
      | enqueuePasswordReset job => exact hc.elim) hissues rfl
  exact hends es es' r s' (hp es' r s'.auth hexec) hes htokens.1

end AccountProgram

end Account

end Shortlink

import Shortlink.Auth.Revocation
import Shortlink.Interaction.Throwing

/-!
# Auth programs executed alone

What an auth program ensures when its steps are executed without other calls in
between, while time passes and Redis evicts entries. The lemmas follow the
program; in between two steps the state is only `Idled`.
-/

namespace Shortlink

namespace Auth

open Shortlink.Storage Shortlink.Transaction Shortlink.Interaction
open Shortlink.Expiring

abbrev AuthLog : Type := List (AuthStep × AuthOutside)

/-- What the environment may have done: it keeps the tables, removes entries from
Redis and lets time pass. -/
structure Idled (s s' : AuthState) : Prop where
  db : s'.db = s.db
  entry : ∀ k v, s'.redis.get k = some v → s.redis.get k = some v
  now : s.redis.now ≤ s'.redis.now

theorem Idled.refl (s : AuthState) : Idled s s :=
  ⟨rfl, fun _ _ h => h, Nat.le_refl _⟩

theorem Idled.trans {s₁ s₂ s₃ : AuthState} (h₁ : Idled s₁ s₂) (h₂ : Idled s₂ s₃) :
    Idled s₁ s₃ :=
  ⟨h₂.db.trans h₁.db, fun k v h => h₁.entry k v (h₂.entry k v h),
    Nat.le_trans h₁.now h₂.now⟩

theorem environment_idled (x : AuthEnvironment) (s : AuthState) :
    Idled s (environment x s) := by
  cases x with
  | tick n =>
      exact ⟨rfl, fun _ _ h => Store.get_tick_eq_some h, Nat.le_add_right _ n⟩
  | evict key =>
      exact ⟨rfl, fun _ _ h => (Store.get_del_eq_some _ h).2, Nat.le_refl _⟩

variable {config : AuthConfig}

theorem idled_of_idles {s s' : AuthState} (h : (authService config).Idles s s') :
    Idled s s' :=
  h.invariant (P := Idled s) (fun x s₁ h₁ => h₁.trans (environment_idled x s₁))
    (.refl s)

section

variable {β : Type} {ok : AuthStep → AuthOutside → AuthState → Prop}
  {p : Program AuthStep AuthStep.Reply β} {s s' : AuthState} {es : AuthLog} {b : β}

theorem executes_clock (h : (authService config).Executes ok p s es b s') :
    s.redis.now ≤ s'.redis.now := by
  induction h with
  | pure b hidle => exact (idled_of_idles hidle).now
  | call hidle hok hexec _ ih =>
      refine Nat.le_trans (idled_of_idles hidle).now (Nat.le_trans ?_ ih)
      cases exec_acts hexec with
      | idle c => exact Nat.le_refl _
      | committed c stamp a db hrun => exact Nat.le_refl _
      | executed c => exact Nat.le_of_eq (c.apply_now _).symm

theorem executes_since (h : (authService config).Executes ok p s es b s')
    (hs : Sound s.db) : Sound s'.db ∧ Since s s' := by
  have hidled : ∀ {s s' : AuthState}, Idled s s' → Sound s.db →
      Sound s'.db ∧ Since s s' := fun hidle hs =>
    ⟨hidle.db ▸ hs, hidle.db ▸ .refl _, by rw [hidle.db], hidle.now⟩
  induction h with
  | pure b hidle => exact hidled (idled_of_idles hidle) hs
  | call hidle hok hexec _ ih =>
      obtain ⟨hs₁, hsince₁⟩ := hidled (idled_of_idles hidle) hs
      obtain ⟨hs₂, hsince₂⟩ := (exec_acts hexec).since hs₁
      obtain ⟨hs', hsince'⟩ := ih hs₂
      exact ⟨hs', (hsince₁.trans hsince₂).trans hsince'⟩

end

/-- The translation of errors by `withSecurityStorage`. -/
def AuthError.unavailable : AuthError → AuthError
  | .storageUnavailable => securityStorageUnavailableException
  | e => e

/-- The translation of errors by `AuthService.refresh`. -/
def AuthError.invalidSession : AuthError → AuthError
  | .refreshTokenReuse | .invalidRefreshToken => sessionInvalidException
  | e => e

namespace AuthProgram

variable {α β : Type} {ok : AuthStep → AuthOutside → AuthState → Prop} {s : AuthState}

/-- Every execution of the program from `s` ends as `ends` says. -/
def Ensures (config : AuthConfig) (ok : AuthStep → AuthOutside → AuthState → Prop)
    (ends : AuthLog → Except AuthError α → AuthState → Prop) (p : AuthProgram α)
    (s : AuthState) : Prop :=
  (authService config).Ensures ok ends p.run s

theorem Ensures.mono {ends ends' : AuthLog → Except AuthError α → AuthState → Prop}
    {p : AuthProgram α} (h : p.Ensures config ok ends s)
    (hends : ∀ es r s', ends es r s' → ends' es r s') : p.Ensures config ok ends' s :=
  Semantics.Ensures.mono h hends

theorem Ensures.of_pure {ends : AuthLog → Except AuthError α → AuthState → Prop} {a : α}
    (h : ∀ s', Idled s s' → ends [] (.ok a) s') :
    Ensures config ok ends (pure a) s :=
  Semantics.ensures_pure.2 fun s' hidle => h s' (idled_of_idles hidle)

theorem Ensures.of_throw {ends : AuthLog → Except AuthError α → AuthState → Prop}
    {e : AuthError} (h : ∀ s', Idled s s' → ends [] (.error e) s') :
    Ensures config ok ends (throw e) s :=
  Semantics.ensures_pure.2 fun s' hidle => h s' (idled_of_idles hidle)

theorem Ensures.and {ends ends' : AuthLog → Except AuthError α → AuthState → Prop}
    {p : AuthProgram α} (h : p.Ensures config ok ends s)
    (h' : p.Ensures config ok ends' s) :
    p.Ensures config ok (fun es r s' => ends es r s' ∧ ends' es r s') s :=
  fun es r s' hrun => ⟨h es r s' hrun, h' es r s' hrun⟩

/-- After the first program its error is passed on, or its value goes into the
second. -/
theorem Ensures.bind {ends : AuthLog → Except AuthError β → AuthState → Prop}
    {mid : AuthLog → Except AuthError α → AuthState → Prop}
    {p : AuthProgram α} {f : α → AuthProgram β} (hp : p.Ensures config ok mid s)
    (hvalue : ∀ es a s₁, mid es (.ok a) s₁ →
      (f a).Ensures config ok (fun es' => ends (es ++ es')) s₁)
    (herror : ∀ es e s₁, mid es (.error e) s₁ → ends es (.error e) s₁) :
    (p >>= f).Ensures config ok ends s :=
  Throwing.ensures_bind hp hvalue herror

theorem Ensures.map {ends : AuthLog → Except AuthError β → AuthState → Prop}
    {f : α → β} {p : AuthProgram α}
    (hp : p.Ensures config ok (fun es r s' => ends es (Except.map f r) s') s) :
    (f <$> p).Ensures config ok ends s :=
  Throwing.ensures_map hp

/-- The value is passed on, or the error is handled. -/
theorem Ensures.tryCatch {ends : AuthLog → Except AuthError α → AuthState → Prop}
    {mid : AuthLog → Except AuthError α → AuthState → Prop}
    {p : AuthProgram α} {handle : AuthError → AuthProgram α}
    (hp : p.Ensures config ok mid s)
    (hvalue : ∀ es a s₁, mid es (.ok a) s₁ → ends es (.ok a) s₁)
    (herror : ∀ es e s₁, mid es (.error e) s₁ →
      (handle e).Ensures config ok (fun es' => ends (es ++ es')) s₁) :
    (MonadExcept.tryCatch p handle : AuthProgram α).Ensures config ok ends s :=
  Throwing.ensures_tryCatch hp hvalue herror

/-- The value is passed on, or another error is thrown. -/
theorem Ensures.rethrow {ends : AuthLog → Except AuthError α → AuthState → Prop}
    {p : AuthProgram α} {handle : AuthError → AuthProgram α} (g : AuthError → AuthError)
    (hhandle : ∀ e, handle e = throw (g e))
    (hp : p.Ensures config ok (fun es r s' => ends es (r.mapError g) s') s) :
    (MonadExcept.tryCatch p handle : AuthProgram α).Ensures config ok ends s :=
  Throwing.ensures_rethrow g hhandle hp

theorem Ensures.of_now {ends : AuthLog → Except AuthError ℕ → AuthState → Prop}
    (h : ∀ s₁ o s', Idled s s₁ → Idled s₁ s' →
      ends [(.now, o)] (.ok s₁.redis.now) s') :
    now.Ensures config ok ends s := by
  refine Semantics.ensures_call.2 fun s₁ o r s₂ hidle _ hexec => ?_
  cases hexec
  exact Semantics.ensures_pure.2 fun s' hidle' =>
    h s₁ o s' (idled_of_idles hidle) (idled_of_idles hidle')

theorem Ensures.of_generate {ends : AuthLog → Except AuthError String → AuthState → Prop}
    {secret : Secret}
    (h : ∀ o s', Idled s s' → ends [(.generate secret, o)] (.ok o.generated) s') :
    (generate secret).Ensures config ok ends s := by
  refine Semantics.ensures_call.2 fun s₁ o r s₂ hidle _ hexec => ?_
  cases hexec
  exact Semantics.ensures_pure.2 fun s' hidle' =>
    h o s' ((idled_of_idles hidle).trans (idled_of_idles hidle'))

theorem Ensures.of_authRepository {c : AuthCommand}
    {ends : AuthLog → Except AuthError c.Res → AuthState → Prop}
    (h : ∀ s₁ o (r : Except StorageError c.Res) s₂ s', Idled s s₁ →
      ok (.repository c) o s₁ → exec (.repository c) o s₁ = some (r, s₂) →
      Idled s₂ s' → ends [(.repository c, o)] (r.mapError .storage) s') :
    (authRepository c).Ensures config ok ends s :=
  Semantics.ensures_call.2 fun s₁ o r s₂ hidle hok hexec =>
    Semantics.ensures_pure.2 fun s' hidle' =>
      h s₁ o r s₂ s' (idled_of_idles hidle) hok hexec (idled_of_idles hidle')

theorem Ensures.of_redis {c : RedisCommand}
    {ends : AuthLog → Except AuthError c.Res → AuthState → Prop}
    (h : ∀ s₁ o (r : Except StorageError c.Res) s₂ s', Idled s s₁ →
      ok (.redis c) o s₁ → exec (.redis c) o s₁ = some (r, s₂) →
      Idled s₂ s' →
        ends [(.redis c, o)] (r.mapError fun _ => .storageUnavailable) s') :
    (redis c).Ensures config ok ends s :=
  Semantics.ensures_call.2 fun s₁ o r s₂ hidle hok hexec =>
    Semantics.ensures_pure.2 fun s' hidle' =>
      h s₁ o r s₂ s' (idled_of_idles hidle) hok hexec (idled_of_idles hidle')

theorem Ensures.of_audit {event : RecordAuthAuditEventInput}
    {ends : AuthLog → Except AuthError Unit → AuthState → Prop}
    (h : ∀ o (r : Except StorageError Unit) s', Idled s s' →
      (o.fault = .none ↔ r = .ok ()) →
        ends [(.audit event, o)] (r.mapError .storage) s') :
    (audit event).Ensures config ok ends s := by
  refine Semantics.ensures_call.2 fun s₁ o r s₂ hidle _ hexec =>
    Semantics.ensures_pure.2 fun s' hidle' => ?_
  obtain ⟨hr, hs⟩ := Prod.mk.inj (Option.some.inj hexec)
  have hsame : s₂ = s₁ := by
    rcases o.fault.apply_state s₁ ((.ok () : Except StorageError Unit), s₁) with h' | h' <;>
      exact hs.symm.trans h'
  subst hsame
  refine h o r s' ((idled_of_idles hidle).trans (idled_of_idles hidle')) ?_
  rw [← hr]
  cases o.fault <;> simp

/-- The clock does not go back. -/
theorem Ensures.clock (p : AuthProgram α) :
    p.Ensures config ok (fun _ _ s' => s.redis.now ≤ s'.redis.now) s :=
  fun _ _ _ hrun => executes_clock hrun

/-- The tables stay sound. -/
theorem Ensures.sound (p : AuthProgram α) (hs : Sound s.db) :
    p.Ensures config ok (fun _ _ s' => Sound s'.db) s :=
  fun _ _ _ hrun => (executes_since hrun hs).1

/-! ### The steps of a program -/

/-- All steps of the program satisfy `φ`, however they are answered. -/
abbrev Issues (φ : AuthStep → Prop) (p : AuthProgram α) : Prop := Throwing.Issues φ p

section

variable {φ : AuthStep → Prop}

theorem issues_pure (a : α) : Issues φ (pure a) := trivial

theorem issues_throw (e : AuthError) : Issues φ (throw e : AuthProgram α) := trivial

theorem Issues.bind {p : AuthProgram α} {f : α → AuthProgram β} (hp : p.Issues φ)
    (hf : ∀ a, (f a).Issues φ) : (p >>= f).Issues φ :=
  Throwing.Issues.bind hp hf

theorem Issues.tryCatch {p : AuthProgram α} {handle : AuthError → AuthProgram α}
    (hp : p.Issues φ) (hhandle : ∀ e, (handle e).Issues φ) :
    (MonadExcept.tryCatch p handle : AuthProgram α).Issues φ :=
  Throwing.Issues.tryCatch hp hhandle

theorem Issues.mono {ψ : AuthStep → Prop} {p : AuthProgram α} (hp : p.Issues φ)
    (h : ∀ c, φ c → ψ c) : p.Issues ψ :=
  Throwing.Issues.mono hp h

theorem issues_now (h : φ .now) : now.Issues φ := ⟨h, fun _ _ => trivial⟩

theorem issues_generate {secret : Secret} (h : φ (.generate secret)) :
    (generate secret).Issues φ := ⟨h, fun _ _ => trivial⟩

theorem issues_authRepository {c : AuthCommand} (h : φ (.repository c)) :
    (authRepository c).Issues φ := ⟨h, fun _ _ => trivial⟩

theorem issues_redis {c : RedisCommand} (h : φ (.redis c)) : (redis c).Issues φ :=
  ⟨h, fun _ _ => trivial⟩

theorem issues_enqueue {job : SendVerificationCodeJobData} (h : φ (.enqueue job)) :
    (enqueue job).Issues φ := ⟨h, fun _ _ => trivial⟩

theorem issues_sendMail {mail : Mail} (h : φ (.sendMail mail)) :
    (sendMail mail).Issues φ := ⟨h, fun _ _ => trivial⟩

theorem issues_audit {event : RecordAuthAuditEventInput} (h : φ (.audit event)) :
    (audit event).Issues φ := ⟨h, fun _ _ => trivial⟩

end

end AuthProgram

/-! ### Quiet programs -/

/-- A step that changes no session and writes no session entry. -/
def AuthStep.Quiet (c : AuthStep) : Prop := c.Reads ∧ c.cached? = none

open AuthProgram

theorem AuthProgram.Issues.reads {α : Type} {p : AuthProgram α}
    (hp : p.Issues AuthStep.Quiet) : p.Issues AuthStep.Reads :=
  hp.mono fun _ hc => hc.1

theorem isLoginLocked_quiet (userId : String) :
    (RedisAuthStateService.isLoginLocked userId).Issues AuthStep.Quiet :=
  issues_redis (c := .existsKey (.loginLock userId)) ⟨trivial, rfl⟩

theorem rejectLogin_quiet {α : Type} (userId : String) :
    (AuthService.rejectLogin userId : AuthProgram α).Issues AuthStep.Quiet := by
  have hincrement : (RedisAuthStateService.incrementFailedLogin userId).Issues
      AuthStep.Quiet := issues_redis (c := .incrementFailedLogin userId) ⟨trivial, rfl⟩
  refine .bind (.bind hincrement fun failure => .bind (issues_audit ⟨trivial, rfl⟩)
    fun _ => issues_pure failure) fun failure => ?_
  split <;> exact issues_throw _

theorem findLoginChallengeUserId_quiet (challengeId : String) :
    (RedisAuthStateService.findLoginChallengeUserId challengeId).Issues
      AuthStep.Quiet := by
  have hget : (redis (.get (.loginChallenge challengeId))).Issues AuthStep.Quiet :=
    issues_redis ⟨trivial, rfl⟩
  refine .bind hget fun (payload : Option LoginChallengePayload) => ?_
  rcases payload with _ | payload
  · exact issues_pure _
  · dsimp only
    split
    · exact issues_pure _
    split
    · exact issues_pure _
    · exact .bind (issues_now ⟨trivial, rfl⟩) fun _ => issues_pure _

theorem consumeLoginChallenge_quiet (challengeId code : String) :
    (RedisAuthStateService.consumeLoginChallenge config challengeId code).Issues
      AuthStep.Quiet := by
  have hconsume : ∀ nowMs, (redis (.consumeLoginChallenge challengeId
      (config.hmac code) nowMs)).Issues AuthStep.Quiet := fun _ => issues_redis ⟨trivial, rfl⟩
  exact .bind (issues_now ⟨trivial, rfl⟩) fun nowMs => .bind (hconsume nowMs)
    fun result => issues_pure (α := ConsumeLoginChallengeResult) _

theorem withSecurityStorage_quiet {α : Type} {p : AuthProgram α}
    (hp : p.Issues AuthStep.Quiet) :
    (AuthService.withSecurityStorage p).Issues AuthStep.Quiet := by
  refine .tryCatch hp fun e => ?_
  cases e <;> exact issues_throw _

theorem parseEmail_issues {φ : AuthStep → Prop} (raw : String) :
    (AuthService.parseEmail config raw).Issues φ := by
  rw [AuthService.parseEmail]
  split
  · exact issues_throw _
  · exact issues_pure _

theorem incrementRateLimit_quiet (operation : String) (dimension : RateLimitDimension)
    (hash : String) (ttlSeconds : ℕ) :
    (RedisAuthStateService.incrementRateLimit operation dimension hash ttlSeconds).Issues
      AuthStep.Quiet :=
  issues_redis (c := .incrementRateLimit operation dimension hash ttlSeconds)
    ⟨trivial, rfl⟩

theorem isCurrentIssuance_quiet (purpose : AuthIssuancePurpose)
    (subjectId issuanceId : String) :
    (RedisAuthStateService.isCurrentIssuance purpose subjectId issuanceId).Issues
      AuthStep.Quiet :=
  .bind (issues_redis (c := .get (.issuance purpose subjectId)) ⟨trivial, rfl⟩)
    fun _ => issues_pure _

theorem startLogin_quiet (input : LoginDto) (clientIp : String) :
    (AuthService.startLogin config input clientIp).Issues AuthStep.Quiet := by
  have hlimit : ∀ email, (AuthService.assertLoginRateLimit config email clientIp).Issues
      AuthStep.Quiet := by
    intro email
    refine withSecurityStorage_quiet (.bind (incrementRateLimit_quiet _ _ _ _)
      fun count => ?_)
    split
    · exact issues_throw _
    · exact issues_pure _
  have hissue : ∀ userId, (AuthService.issueLoginChallenge config userId).Issues
      AuthStep.Quiet := fun userId =>
    .bind (issues_generate ⟨trivial, rfl⟩) fun challengeId =>
      .bind (issues_generate ⟨trivial, rfl⟩) fun issuanceId =>
        .bind (issues_now ⟨trivial, rfl⟩) fun now =>
          .bind (issues_generate ⟨trivial, rfl⟩) fun placeholderCode =>
            .bind (issues_redis (c := .createLoginChallenge _ _ _) ⟨trivial, rfl⟩) fun _ =>
              .bind (issues_redis (c := .set (.issuance _ _) _ _) ⟨trivial, rfl⟩) fun _ =>
                .bind (issues_enqueue ⟨trivial, rfl⟩) fun _ => issues_pure _
  refine .bind (parseEmail_issues _) fun email => .bind (hlimit email) fun _ =>
    withSecurityStorage_quiet (.bind (issues_authRepository ⟨trivial, rfl⟩)
      fun account => ?_)
  rcases account with _ | account
  · exact issues_throw _
  · dsimp only
    split
    · exact rejectLogin_quiet account.id
    split
    · exact issues_throw _
    refine .bind (isLoginLocked_quiet account.id) fun locked => ?_
    split
    · exact issues_throw _
    · exact hissue account.id

theorem processLogin_quiet (data : SendVerificationCodeJobData) :
    (EmailProcessor.processLogin config data).Issues AuthStep.Quiet := by
  have hissue : ∀ challengeId issuanceId userId account, (EmailProcessor.issueLoginCode
      config challengeId issuanceId userId account).Issues AuthStep.Quiet := by
    intro challengeId issuanceId userId account
    refine .bind (issues_generate ⟨trivial, rfl⟩) fun code =>
      .bind (issues_now ⟨trivial, rfl⟩) fun now =>
        .bind (issues_redis (c := .createLoginChallenge _ _ _) ⟨trivial, rfl⟩) fun _ =>
          .bind (isCurrentIssuance_quiet .login challengeId issuanceId)
            fun stillCurrent => ?_
    split
    · exact issues_sendMail ⟨trivial, rfl⟩
    · exact issues_pure _
  rw [EmailProcessor.processLogin]
  split
  · exact issues_pure _
  rename_i challengeId _
  split
  · exact issues_pure _
  refine .bind (isCurrentIssuance_quiet .login challengeId data.issuanceId) fun current => ?_
  split
  · exact issues_pure _
  refine .bind (findLoginChallengeUserId_quiet challengeId) fun userId => ?_
  rcases userId with _ | userId
  · exact issues_pure _
  · refine .bind (issues_authRepository ⟨trivial, rfl⟩) fun account => ?_
    rcases account with _ | account
    · exact issues_pure _
    · exact hissue challengeId data.issuanceId userId account

/-! ### Deletions of session entries -/

/-- The loop over the revoked sessions keeps the tables and ignores failures. -/
theorem ensures_deletions {ok : AuthStep → AuthOutside → AuthState → Prop}
    {s : AuthState} (ids : List String) :
    (AuthSessionService.deleteSessionCaches ids).Ensures config ok
      (fun es r s' => r = .ok () ∧ s'.db = s.db ∧
        ∀ e ∈ es, ∃ id, e.1 = .redis (.del (.session id))) s := by
  induction ids generalizing s with
  | nil =>
      exact .of_pure fun s' hidle => ⟨rfl, hidle.db, fun e he => absurd he List.not_mem_nil⟩
  | cons id ids ih =>
      have hredis : (RedisAuthStateService.deleteSessionCache id).Ensures config ok
          (fun es r s' => (∀ e ∈ es, ∃ id, e.1 = .redis (.del (.session id))) ∧
            s'.db = s.db ∧ ∀ e, r = .error e → e = .storageUnavailable) s := by
        refine Ensures.of_redis (c := .del (.session id))
          fun s₁ o r s₂ s' hidle _ hexec hidle' => ⟨fun e he => ?_, ?_, fun e he => ?_⟩
        · exact ⟨id, by rw [List.mem_singleton.1 he]⟩
        · have hreads : (AuthStep.redis (.del (.session id))).Reads := trivial
          exact (hidle'.db.trans (hreads.exec hexec)).trans hidle.db
        · rcases r with e' | a
          · cases he
            rfl
          · cases he
      have hfirst : (AuthSessionService.deleteSessionCacheBestEffort id).Ensures config ok
          (fun es r s' => r = .ok () ∧ s'.db = s.db ∧
            ∀ e ∈ es, ∃ id, e.1 = .redis (.del (.session id))) s := by
        refine .tryCatch hredis (fun es a s₁ h₁ => ⟨rfl, h₁.2.1, h₁.1⟩)
          fun es e s₁ h₁ => ?_
        obtain rfl := h₁.2.2 e rfl
        refine .of_pure fun s' hidle => ?_
        rw [List.append_nil]
        exact ⟨rfl, hidle.db.trans h₁.2.1, h₁.1⟩
      refine .bind hfirst (fun es a s₁ h₁ => ?_) fun _ _ _ h₁ => by cases h₁.1
      refine ih.mono fun es' r s' h₂ => ⟨h₂.1, h₂.2.1.trans h₁.2.1, fun e he => ?_⟩
      exact (List.mem_append.1 he).elim (h₁.2.2 e) (h₂.2.2 e)

end Auth

end Shortlink

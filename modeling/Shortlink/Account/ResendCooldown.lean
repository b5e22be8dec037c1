import Shortlink.Account.Issuance

/-!
# The cooldown between two activation mails

`enqueueActivationIfAllowed` tests the cooldown of the account and starts it in another
command, after it has set the issuance. Two calls can both find no cooldown before either of
them has started one, and then both issue at once (`concurrent_resends_issue_twice`).

While the calls test the cooldown in turn, two issuances are sixty seconds apart
(`issuances_spaced_of_testsInTurn`). A call is `underway` from its test until it starts the
cooldown. The invariant is `CooledSince`: the call of the last issuance is underway or the
cooldown lasts until sixty seconds after it, and no other call is underway before that.
-/

namespace Shortlink

namespace Account

open Shortlink.Storage Shortlink.Transaction Shortlink.Interaction
open Shortlink.Expiring Shortlink.Auth AccountProgram

/-! ### The steps on the cooldown -/

abbrev cooldownKey (userId : String) : ActivationKey := .resend ACTIVATION_RESEND_PURPOSE userId

/-- The step sets the activation issuance of the account. -/
def AccountStep.issuesTo (userId : String) : AccountStep → Bool
  | .auth (.redis (.set (.issuance .activation subjectId) _ _)) => subjectId = userId
  | _ => false

def AccountStep.testsCooldown (userId : String) : AccountStep → Bool
  | .redis (.existsKey key) => key = cooldownKey userId
  | _ => false

def AccountStep.startsCooldown (userId : String) : AccountStep → Bool
  | .redis (.set key _ _) => key = cooldownKey userId
  | _ => false

/-- The test has found no cooldown. -/
def foundNone (userId : String) : Exchange AccountStep AccountStep.Reply → Bool
  | ⟨.redis (.existsKey key), Except.ok false⟩ => key = cooldownKey userId
  | _ => false

/-- The call has found no cooldown and has not started one since. -/
def underway (userId : String) (trace : List (Exchange AccountStep AccountStep.Reply)) : Bool :=
  trace.any (foundNone userId) && trace.all fun x => !x.1.startsCooldown userId

/-- A call that tests the cooldown sets the issuance once, between the test and the start of
the cooldown, which lasts sixty seconds. -/
structure CooldownMay (userId : String) (trace : List (Exchange AccountStep AccountStep.Reply))
    (c : AccountStep) : Prop where
  issues : c.issuesTo userId = true → (∃ x ∈ trace, x.1.testsCooldown userId = true) →
    underway userId trace = true ∧ ∀ x ∈ trace, x.1.issuesTo userId = false
  starts : ∀ value ttlSeconds, c = .redis (.set (cooldownKey userId) value ttlSeconds) →
    ttlSeconds = TTL_RESEND_COOLDOWN_SECONDS

/-- The step has nothing to do with the cooldown. -/
def AccountStep.Uncooled (userId : String) (c : AccountStep) : Prop :=
  c.testsCooldown userId = false ∧ c.startsCooldown userId = false

/-- Nor does it set the issuance. -/
def AccountStep.Unrelated (userId : String) (c : AccountStep) : Prop :=
  c.Uncooled userId ∧ c.issuesTo userId = false

section

variable {α : Type} {config : AccountConfig} {userId : String}
  {trace : List (Exchange AccountStep AccountStep.Reply)}

theorem AccountStep.Uncooled.may {c : AccountStep} (hc : c.Uncooled userId)
    (htrace : ∀ x ∈ trace, x.1.Uncooled userId) : CooldownMay userId trace c := by
  refine ⟨fun _ htested => ?_, fun value ttlSeconds heq => ?_⟩
  · obtain ⟨x, hx, htests⟩ := htested
    rw [(htrace x hx).1] at htests
    cases htests
  · subst heq
    simpa [AccountStep.startsCooldown] using hc.2

theorem AccountStep.Unrelated.may {c : AccountStep} (hc : c.Unrelated userId)
    (htrace : ∀ x ∈ trace, x.1.Unrelated userId) : CooldownMay userId trace c :=
  hc.1.may fun x hx => (htrace x hx).1

theorem auth_uncooled (c : AuthStep) : (AccountStep.auth c).Uncooled userId := ⟨rfl, rfl⟩

theorem ofAuth_uncooled (p : AuthProgram α) : (ofAuth p).Issues (AccountStep.Uncooled userId) :=
  ofAuth_issues (Program.Sat.mono (fun _ _ h => h) (fun c _ => auth_uncooled c)
    (fun _ _ => trivial) (Program.sat_true _))

/-! ### The calls -/

/-- A step that neither issues to the account nor starts its cooldown. -/
theorem CooldownMay.of_not {c : AccountStep} (hissues : c.issuesTo userId = false)
    (hstarts : c.startsCooldown userId = false) : CooldownMay userId trace c := by
  refine ⟨fun h => absurd h (by simp [hissues]), fun value ttlSeconds heq => ?_⟩
  subst heq
  simp [AccountStep.startsCooldown] at hstarts

theorem enqueueActivation_may {owner : String}
    (hissues : ∀ x ∈ trace, x.1.issuesTo userId = false)
    (hstarts : ∀ x ∈ trace, x.1.startsCooldown userId = false)
    (hfound : (∃ x ∈ trace, x.1.testsCooldown userId = true) → owner = userId →
      trace.any (foundNone userId) = true) :
    (AuthService.enqueueActivation owner).run.Obeys (CooldownMay userId)
      (fun _ _ => True) trace := by
  have hsets : ∀ issuanceId : String, CooldownMay userId
      (⟨.auth (.generate .challengeId), issuanceId⟩ :: trace)
      (.auth (.redis (.set (.issuance .activation owner) issuanceId TTL_ONE_HOUR_SECONDS))) := by
    intro issuanceId
    refine ⟨fun howner htested => ?_, fun value ttlSeconds heq => by cases heq⟩
    have howner : owner = userId := by simpa [AccountStep.issuesTo] using howner
    have hfound := hfound (by simpa [AccountStep.testsCooldown] using htested) howner
    refine ⟨?_, List.forall_mem_cons.2 ⟨rfl, hissues⟩⟩
    rw [underway, List.any_cons, hfound, Bool.or_true, Bool.true_and, List.all_eq_true]
    exact List.forall_mem_cons.2 ⟨rfl, fun x hx => by rw [hstarts x hx]; rfl⟩
  refine ⟨.of_not rfl rfl, fun issuanceId => ⟨hsets issuanceId, fun r => ?_⟩⟩
  cases r with
  | error e => trivial
  | ok a =>
      refine ⟨⟨fun h => absurd h Bool.false_ne_true, fun value ttlSeconds heq => ?_⟩, fun r => ?_⟩
      · cases heq
        rfl
      cases r with
      | error e => trivial
      | ok a =>
          refine ⟨.of_not rfl rfl, fun r => ?_⟩
          cases r <;> trivial

theorem enqueueActivationIfAllowed_may {owner : String}
    (htrace : ∀ x ∈ trace, x.1.Unrelated userId) :
    (AuthService.enqueueActivationIfAllowed owner).run.Obeys (CooldownMay userId)
      (fun _ _ => True) trace := by
  refine ⟨.of_not rfl rfl, fun r => ?_⟩
  cases r with
  | error e => trivial
  | ok coolingDown =>
      cases coolingDown with
      | true => trivial
      | false =>
          refine enqueueActivation_may (List.forall_mem_cons.2 ⟨rfl, fun x hx => (htrace x hx).2⟩)
            (List.forall_mem_cons.2 ⟨rfl, fun x hx => (htrace x hx).1.2⟩) fun _ howner => ?_
          subst howner
          simp [foundNone]

theorem withSecurityStorage_obeys {may : List (Exchange AccountStep AccountStep.Reply) →
      AccountStep → Prop} {p : AccountProgram α}
    (hp : p.run.Obeys may (fun _ _ => True) trace) :
    (AuthService.withSecurityStorage p).run.Obeys may (fun _ _ => True) trace := by
  refine (Program.obeys_bind _ _).2 (hp.mono (fun _ _ h => h) fun trace r _ => ?_)
  cases r with
  | ok a => trivial
  | error e => cases e <;> trivial

/-- What follows a program that has nothing to do with the cooldown. -/
theorem Throwing.Issues.then_may {β : Type} {p : AccountProgram α} {f : α → AccountProgram β}
    (hp : p.Issues (AccountStep.Unrelated userId))
    (htrace : ∀ x ∈ trace, x.1.Unrelated userId)
    (hvalue : ∀ trace a, (∀ x ∈ trace, x.1.Unrelated userId) →
      (f a).run.Obeys (CooldownMay userId) (fun _ _ => True) trace) :
    (p >>= f).run.Obeys (CooldownMay userId) (fun _ _ => True) trace :=
  Interaction.Throwing.Issues.obeys_bind hp (fun _ _ htrace hc => hc.may htrace) htrace hvalue
    fun _ _ _ => trivial

theorem findAccountByEmail_unrelated (email : String) :
    (ofAuth (AuthProgram.authRepository (.findAccountByEmail email))).Issues
      (AccountStep.Unrelated userId) :=
  ofAuth_issues (AuthProgram.issues_authRepository ⟨auth_uncooled _, rfl⟩)

theorem register_may (input : RegisterDto) (clientIp : String) :
    (AuthService.register config input clientIp).run.Obeys (CooldownMay userId)
      (fun _ _ => True) [] := by
  refine Throwing.Issues.then_may (ofAuth_issues (parseEmail_issues _)) (List.forall_mem_nil _)
    fun _ email h₁ => ?_
  refine Throwing.Issues.then_may (parsePassword_issues _) h₁ fun _ _ h₂ => ?_
  refine Throwing.Issues.then_may (assertPasswordConfirmation_issues _ _) h₂ fun _ _ h₃ => ?_
  refine Throwing.Issues.then_may (assertWithinRateLimits_issues
    (fun _ _ _ => ⟨auth_uncooled _, rfl⟩) _ _) h₃ fun _ _ h₄ => withSecurityStorage_obeys ?_
  refine Throwing.Issues.then_may (findAccountByEmail_unrelated email) h₄
    fun _ (existing : Option AccountRecord) h₅ => ?_
  rcases existing with _ | existing
  · refine Throwing.Issues.then_may (issues_hash ⟨⟨rfl, rfl⟩, rfl⟩) h₅ fun _ passwordHash h₆ => ?_
    refine Throwing.Issues.then_may (issues_accountRepository ⟨⟨rfl, rfl⟩, rfl⟩) h₆
      fun _ account h₇ => ?_
    refine enqueueActivation_may (fun x hx => (h₇ x hx).2) (fun x hx => (h₇ x hx).1.2)
      fun htested => ?_
    obtain ⟨x, hx, htests⟩ := htested
    rw [(h₇ x hx).1.1] at htests
    cases htests
  · change Program.Obeys _ _ _ (ExceptT.run (if _ then _ else _))
    split
    · trivial
    · exact enqueueActivationIfAllowed_may h₅

theorem resendEmailVerification_may (input : EmailDto) (clientIp : String) :
    (AuthService.resendEmailVerification config input clientIp).run.Obeys
      (CooldownMay userId) (fun _ _ => True) [] := by
  refine Throwing.Issues.then_may (ofAuth_issues (parseEmail_issues _)) (List.forall_mem_nil _)
    fun _ email h₁ => ?_
  refine Throwing.Issues.then_may (assertWithinRateLimits_issues
    (fun _ _ _ => ⟨auth_uncooled _, rfl⟩) _ _) h₁ fun _ _ h₂ => withSecurityStorage_obeys ?_
  refine Throwing.Issues.then_may (findAccountByEmail_unrelated email) h₂
    fun _ (existing : Option AccountRecord) h₃ => ?_
  rcases existing with _ | existing
  · trivial
  · change Program.Obeys _ _ _ (ExceptT.run (if _ then _ else _))
    split
    · trivial
    · exact enqueueActivationIfAllowed_may h₃

theorem verifyEmail_uncooled (input : VerifyEmailDto) :
    (AuthService.verifyEmail config input).Issues (AccountStep.Uncooled userId) := by
  refine .bind (ofAuth_uncooled _) fun email => withSecurityStorage_issues
    (.bind (ofAuth_uncooled _) fun (account : Option AccountRecord) => ?_)
  rcases account with _ | account
  · exact issues_throw _
  · dsimp only
    split
    · exact issues_throw _
    refine .bind (issues_activations (c := .consumeActivation account.id
      (config.auth.hmac input.code)) ⟨rfl, rfl⟩) fun (result : ConsumeActivationResult) => ?_
    split
    · exact issues_throw _
    · exact .bind (issues_accountRepository ⟨rfl, rfl⟩) fun _ => issues_pure _

theorem requestPasswordReset_uncooled (input : EmailDto) (clientIp : String) :
    (AuthService.requestPasswordReset config input clientIp).Issues
      (AccountStep.Uncooled userId) := by
  refine .bind (ofAuth_uncooled _) fun email =>
    .bind (assertWithinRateLimits_issues (fun _ _ _ => auth_uncooled _) _ _) fun _ =>
      withSecurityStorage_issues (.bind (ofAuth_uncooled _)
        fun (account : Option AccountRecord) => ?_)
  rcases account with _ | account
  · exact issues_pure _
  · dsimp only
    split
    · exact issues_pure _
    · exact .bind (ofAuth_uncooled _) fun _ => .bind (ofAuth_uncooled _) fun _ =>
        .bind (issues_enqueuePasswordReset ⟨rfl, rfl⟩) fun _ => ofAuth_uncooled _

theorem resetPassword_uncooled (input : ResetPasswordDto) :
    (AuthService.resetPassword config input).Issues (AccountStep.Uncooled userId) := by
  refine .bind (parsePassword_issues _) fun _ =>
    .bind (assertPasswordConfirmation_issues _ _) fun _ =>
      .bind (issues_accountRepository ⟨rfl, rfl⟩)
        fun (consumed : Option PasswordResetTokenRecord) => ?_
  rcases consumed with _ | consumed
  · exact issues_throw _
  · exact .bind (issues_hash ⟨rfl, rfl⟩) fun _ => .bind (issues_accountRepository ⟨rfl, rfl⟩)
      fun _ => .bind (ofAuth_uncooled _) fun _ => ofAuth_uncooled _

theorem processActivation_uncooled (data : SendVerificationCodeJobData) :
    (EmailProcessor.processActivation config data).Issues (AccountStep.Uncooled userId) := by
  have hstore : ∀ owner (payload : ActivationPayload) ttlSeconds,
      (AccountStep.redis (.set (.activation owner) payload ttlSeconds)).Uncooled userId := by
    intro owner payload ttlSeconds
    exact ⟨rfl, by simp [AccountStep.startsCooldown]⟩
  rw [EmailProcessor.processActivation]
  split
  · exact issues_pure _
  split
  · exact issues_pure _
  refine .bind (ofAuth_uncooled _) fun current => ?_
  split
  · exact issues_pure _
  refine .bind (ofAuth_uncooled _) fun (account : Option AccountRecord) => ?_
  rcases account with _ | account
  · exact issues_pure _
  refine .bind (ofAuth_uncooled _) fun _ => .bind (ofAuth_uncooled _) fun _ =>
    .bind (issues_activations (hstore _ _ _)) fun _ =>
      .bind (ofAuth_uncooled _) fun stillCurrent => ?_
  split
  · exact ofAuth_uncooled _
  · exact issues_pure _

theorem processPasswordReset_uncooled (data : SendPasswordResetJobData) :
    (EmailProcessor.processPasswordReset config data).Issues (AccountStep.Uncooled userId) := by
  refine .bind (ofAuth_uncooled _) fun current => ?_
  split
  · exact issues_pure _
  refine .bind (ofAuth_uncooled _) fun (account : Option AccountRecord) => ?_
  rcases account with _ | account
  · exact issues_pure _
  refine .bind (ofAuth_uncooled _) fun _ => .bind (ofAuth_uncooled _) fun _ =>
    .bind (issues_accountRepository ⟨rfl, rfl⟩) fun _ =>
      .bind (ofAuth_uncooled _) fun stillCurrent => ?_
  split
  · exact ofAuth_uncooled _
  · exact issues_pure _

theorem body_may (call : AccountCall) :
    ((accountService config).body call).Obeys (CooldownMay userId) (fun _ _ => True) [] := by
  have huncooled : ∀ {p : AccountProgram AuthValue}, p.Issues (AccountStep.Uncooled userId) →
      p.run.Obeys (CooldownMay userId) (fun _ _ => True) [] := fun hp =>
    (Program.Sat.obeys hp (fun _ _ htrace hc => hc.may htrace)
      (List.forall_mem_nil _)).mono (fun _ _ h => h)
      fun _ _ _ => trivial
  have hmap : ∀ {p : AccountProgram Unit}, p.run.Obeys (CooldownMay userId) (fun _ _ => True) [] →
      ((fun _ => AuthValue.done) <$> p : AccountProgram AuthValue).run.Obeys
        (CooldownMay userId) (fun _ _ => True) [] := fun hp =>
    (Program.obeys_bind _ _).2 (hp.mono (fun _ _ h => h) fun _ r _ => by cases r <;> trivial)
  cases call with
  | auth call => exact huncooled (ofAuth_uncooled _)
  | register input clientIp => exact hmap (register_may input clientIp)
  | verifyEmail input => exact huncooled (Throwing.issues_map.2 (verifyEmail_uncooled input))
  | resendEmailVerification input clientIp =>
      exact hmap (resendEmailVerification_may input clientIp)
  | requestPasswordReset input clientIp =>
      exact huncooled (Throwing.issues_map.2 (requestPasswordReset_uncooled input clientIp))
  | resetPassword input => exact huncooled (Throwing.issues_map.2 (resetPassword_uncooled input))
  | processVerificationCode data =>
      refine huncooled (Throwing.issues_map.2 ?_)
      rw [EmailProcessor.processVerificationCode]
      split
      · exact processActivation_uncooled data
      · exact ofAuth_uncooled _
  | processPasswordReset data =>
      exact huncooled (Throwing.issues_map.2 (processPasswordReset_uncooled data))

end

/-! ### What a step does to the cooldown -/

section

variable {userId : String} {s s' : AccountState} {c : AccountStep} {o : AccountOutside}
  {r : c.Reply}

/-- The cooldown stays as it is unless a step starts it. -/
theorem exec_cooldown (h : exec c o s = some (r, s')) :
    s'.entries.now = s.entries.now ∧ ∀ userId, c.startsCooldown userId = false →
      s'.entries.cell (cooldownKey userId) = s.entries.cell (cooldownKey userId) := by
  cases c with
  | auth c =>
      obtain ⟨⟨r', a⟩, -, heq⟩ := Option.map_eq_some_iff.1 h
      cases heq
      exact ⟨rfl, fun _ _ => rfl⟩
  | hash password =>
      cases h
      exact ⟨rfl, fun _ _ => rfl⟩
  | repository c =>
      obtain ⟨rfl, -⟩ | ⟨a, db', -, -, rfl, -⟩ := exec_repository_cases h <;>
        exact ⟨rfl, fun _ _ => rfl⟩
  | enqueuePasswordReset job =>
      have hstate : (o.auth.fault.apply s ((.ok () : Except StorageError Unit), s)).2 = s' :=
        (Prod.mk.inj (Option.some.inj h)).2
      rcases o.auth.fault.apply_state s ((.ok () : Except StorageError Unit), s) with
        hs | hs <;> rw [← hstate, hs] <;> exact ⟨rfl, fun _ _ => rfl⟩
  | redis c =>
      have hstate : (o.auth.fault.apply s (execActivations c s)).2 = s' :=
        (Prod.mk.inj (Option.some.inj h)).2
      rcases o.auth.fault.apply_state s (execActivations c s) with hs | hs <;>
        rw [← hstate, hs]
      · exact ⟨rfl, fun _ _ => rfl⟩
      cases c with
      | existsKey key => exact ⟨rfl, fun _ _ => rfl⟩
      | set key value ttlSeconds =>
          exact ⟨rfl, fun _ hkey => Store.cell_set_of_ne s.entries _ _
            (Ne.symm (by simpa [AccountStep.startsCooldown] using hkey))⟩
      | consumeActivation owner codeHmac =>
          have hne : ∀ userId, cooldownKey userId ≠ .activation owner :=
            fun userId heq => by cases heq
          change (CONSUME_ACTIVATION_LUA owner codeHmac s.entries).2.now = _ ∧
            ∀ userId, _ → (CONSUME_ACTIVATION_LUA owner codeHmac s.entries).2.cell
              (cooldownKey userId) = _
          unfold CONSUME_ACTIVATION_LUA
          split
          · exact ⟨rfl, fun _ _ => rfl⟩
          split
          · exact ⟨rfl, fun userId _ => Store.cell_del_of_ne s.entries (hne userId)⟩
          · exact ⟨rfl, fun userId _ => Store.cell_modify_of_ne (k := .activation owner) s.entries
              (fun payload : ActivationPayload =>
                { payload with attempts := payload.attempts + 1 }) (hne userId)⟩

/-- A call that finds no cooldown finds none. -/
theorem exec_foundNone (h : exec c o s = some (r, s')) (hfault : o.auth.fault = .none)
    (hfound : foundNone userId ⟨c, r⟩ = true) :
    c.testsCooldown userId = true ∧ s.entries.get (cooldownKey userId) = none := by
  cases c with
  | redis c =>
      cases c with
      | existsKey key =>
          have hreply : (Except.ok (s.entries.get key).isSome :
              Except StorageError Bool) = r := by
            have := (Prod.mk.inj (Option.some.inj h)).1
            rwa [hfault] at this
          subst hreply
          cases hget : s.entries.get key with
          | some value => simp [foundNone, hget] at hfound
          | none =>
              have hkey : key = cooldownKey userId := by
                simpa [foundNone, hget] using hfound
              subst hkey
              exact ⟨by simp [AccountStep.testsCooldown], hget⟩
      | set key value ttlSeconds => cases hfound
      | consumeActivation owner codeHmac => cases hfound
  | auth c => cases hfound
  | hash password => cases hfound
  | repository c => cases hfound
  | enqueuePasswordReset job => cases hfound

/-- A cooldown that is started lasts sixty seconds. -/
theorem exec_startsCooldown {trace : List (Exchange AccountStep AccountStep.Reply)}
    (h : exec c o s = some (r, s')) (hfault : o.auth.fault = .none)
    (hmay : CooldownMay userId trace c) (hstarts : c.startsCooldown userId = true) :
    s'.entries.cell (cooldownKey userId) = some ((), s.entries.now + 60000) := by
  cases c with
  | redis c =>
      cases c with
      | set key value ttlSeconds =>
          have hkey : key = cooldownKey userId := by
            simpa [AccountStep.startsCooldown] using hstarts
          subst hkey
          have hstate := (Prod.mk.inj (Option.some.inj h)).2
          rw [hfault] at hstate
          rw [← hstate, hmay.starts value ttlSeconds rfl]
          exact Store.cell_set_self s.entries _ _
      | existsKey key => cases hstarts
      | consumeActivation owner codeHmac => cases hstarts
  | auth c => cases hstarts
  | hash password => cases hstarts
  | repository c => cases hstarts
  | enqueuePasswordReset job => cases hstarts

end

/-! ### Runs -/

/-- The cooldown disappears only by its TTL, and there is no storage failure. -/
def CooldownKept (userId : String) : AccountEvent → Prop
  | .exec _ o => o.auth.fault = .none
  | .environment (.evictActivation key) => key ≠ cooldownKey userId
  | _ => True

/-- A call that finds the cooldown inactive is the only one that has still to start it. -/
def TestsInTurn (userId : String) (σ : AccountPool) : AccountEvent → Prop
  | .exec j _ => ∀ c ∈ σ.next? j, c.testsCooldown userId = true →
      σ.shared.entries.get (cooldownKey userId) = none →
        ∀ i < σ.threads.length, i ≠ j → underway userId (traceOf σ.history i) = false
  | _ => True

/-- Call `k` sets the activation issuance after it has tested the cooldown, and in the end
its job is enqueued. -/
structure IssuesIfAllowed (config : AccountConfig)
    (ok : AccountPool → AccountEvent → Prop) (userId : String) (k : ℕ)
    (σ₁ σ₂ σ : AccountPool) : Prop where
  issued : ∃ issuanceId, (accountService config).Fires ok
      ⟨k, .auth (.redis (.set (.issuance .activation userId) issuanceId
        TTL_ONE_HOUR_SECONDS)), Except.ok ()⟩ σ₁ σ₂ ∧
    (⟨k, .auth (.enqueue ⟨.activation, issuanceId, some userId, none⟩), Except.ok ()⟩ :
      Entry AccountStep AccountStep.Reply) ∈ σ.history
  tested : ∃ x ∈ traceOf σ₁.history k, x.1.testsCooldown userId = true

/-- Two issuances after a test of the cooldown are sixty seconds apart. -/
def IssuancesSpaced (config : AccountConfig) (ok : AccountPool → AccountEvent → Prop)
    (userId : String) (s : AccountState) : Prop :=
  ∀ i j σ₁ σ₂ σ₃ σ₄ σ, (accountService config).Reaches ok (Pool.init s) σ₁ →
    IssuesIfAllowed config ok userId i σ₁ σ₂ σ →
    (accountService config).Reaches ok σ₂ σ₃ →
    IssuesIfAllowed config ok userId j σ₃ σ₄ σ →
    (accountService config).Reaches ok σ₄ σ →
    σ₁.shared.entries.now + 60000 ≤ σ₃.shared.entries.now

/-! ### Two resends at once -/

/-- Only registrations and resends, while the cooldown is kept. -/
def ResendRun (userId : String) : AccountEvent → Prop
  | .spawn (.register _ _) => True
  | .spawn (.resendEmailVerification _ _) => True
  | .spawn _ => False
  | x => CooldownKept userId x

instance decidableCooldownKept (userId : String) : ∀ x, Decidable (CooldownKept userId x)
  | .spawn _ => isTrue trivial
  | .exec _ o => inferInstanceAs (Decidable (o.auth.fault = .none))
  | .environment (.evictActivation key) => inferInstanceAs (Decidable (key ≠ cooldownKey userId))
  | .environment (.tick _) => isTrue trivial
  | .environment (.evict _) => isTrue trivial

instance decidableTestsInTurn (userId : String) (σ : AccountPool) :
    ∀ x, Decidable (TestsInTurn userId σ x)
  | .spawn _ => isTrue trivial
  | .exec j _ => inferInstanceAs (Decidable (∀ c ∈ σ.next? j, c.testsCooldown userId = true →
      σ.shared.entries.get (cooldownKey userId) = none →
        ∀ i < σ.threads.length, i ≠ j → underway userId (traceOf σ.history i) = false))
  | .environment _ => isTrue trivial

instance decidableResendRun (userId : String) : ∀ x, Decidable (ResendRun userId x)
  | .spawn (.register _ _) => isTrue trivial
  | .spawn (.resendEmailVerification _ _) => isTrue trivial
  | .spawn (.auth _) => isFalse id
  | .spawn (.verifyEmail _) => isFalse id
  | .spawn (.requestPasswordReset _ _) => isFalse id
  | .spawn (.resetPassword _) => isFalse id
  | .spawn (.processVerificationCode _) => isFalse id
  | .spawn (.processPasswordReset _) => isFalse id
  | .exec i o => decidableCooldownKept userId (.exec i o)
  | .environment x => decidableCooldownKept userId (.environment x)

/-- The account has not been activated. -/
def unverifiedUser : AccountRecord := { exampleUser with status := .pending }

/-- A resend is started as call `k` and has drawn its id. -/
def resendTested (k : ℕ) (id : String) : List AccountEvent :=
  .spawn (.resendEmailVerification ⟨"u@example.com"⟩ "") :: accountSteps k id 5

/-- Two resends have found no cooldown. -/
def bothTested : AccountPool :=
  (accountService exampleAccounts).after (resendTested 0 "i" ++ resendTested 1 "j")
    (Pool.init (AccountState.init [unverifiedUser]))

def firstIssued : AccountPool :=
  (accountService exampleAccounts).after (accountSteps 0 "i" 1) bothTested

/-- It starts the cooldown and enqueues its job. -/
def firstEnqueued : AccountPool :=
  (accountService exampleAccounts).after (accountSteps 0 "i" 2) firstIssued

def secondIssued : AccountPool :=
  (accountService exampleAccounts).after (accountSteps 1 "j" 1) firstEnqueued

def secondEnqueued : AccountPool :=
  (accountService exampleAccounts).after (accountSteps 1 "j" 2) secondIssued

set_option maxRecDepth 4000 in
/-- Two resends that both find no cooldown issue at once. -/
theorem concurrent_resends_issue_twice :
    ¬ IssuancesSpaced exampleAccounts (fun _ => ResendRun "u") "u"
      (AccountState.init [unverifiedUser]) := by
  intro h
  have hlate := h 0 1 bothTested firstIssued firstEnqueued secondIssued secondEnqueued
    (Semantics.reaches_after _ (by decide +kernel))
    ⟨⟨"i", ⟨⟨accountOutcome "i" .none, by decide, rfl⟩, ⟨_, _, rfl, rfl⟩, rfl⟩,
      List.mem_iff_getElem?.2 ⟨3, rfl⟩⟩, by decide +kernel⟩
    (Semantics.reaches_after _ (by decide +kernel))
    ⟨⟨"j", ⟨⟨accountOutcome "j" .none, by decide, rfl⟩, ⟨_, _, rfl, rfl⟩, rfl⟩,
      List.mem_iff_getElem?.2 ⟨0, rfl⟩⟩, by decide +kernel⟩
    (Semantics.reaches_after _ (by decide +kernel))
  exact absurd hlate (by decide +kernel)

/-! ### Tests in turn -/

/-- What holds after call `k` has set the issuance at `instant`. -/
structure CooledSince (userId : String) (k instant : ℕ) (σ : AccountPool) : Prop where
  later : instant ≤ σ.shared.entries.now
  cooled : underway userId (traceOf σ.history k) = true ∨ ∃ expiresAt,
    σ.shared.entries.cell (cooldownKey userId) = some ((), expiresAt) ∧
      instant + 60000 ≤ expiresAt
  others : ∀ j, j ≠ k → underway userId (traceOf σ.history j) = true →
    instant + 60000 ≤ σ.shared.entries.now

section

variable {config : AccountConfig} {ok : AccountPool → AccountEvent → Prop}
  {userId : String} {s : AccountState} {σ σ' : AccountPool}
  {e : Entry AccountStep AccountStep.Reply}

theorem underway_lt (h : (accountService config).Reaches ok (Pool.init s) σ) {j : ℕ}
    (hj : underway userId (traceOf σ.history j) = true) : j < σ.threads.length := by
  rw [underway, Bool.and_eq_true, List.any_eq_true] at hj
  obtain ⟨⟨c, r⟩, hx, -⟩ := hj.1
  exact h.thread_lt (mem_traceOf.1 hx)

theorem fires_now (he : (accountService config).Fires ok e σ σ') :
    σ'.shared.entries.now = σ.shared.entries.now := by
  obtain ⟨o, -, hexec⟩ := he.exec
  exact (exec_cooldown hexec).1

/-- A call comes underway by a test only. -/
theorem underway_cons {j : ℕ} (history : List (Entry AccountStep AccountStep.Reply))
    (h : underway userId (traceOf (e :: history) j) = true) :
    underway userId (traceOf history j) = true ∨
      j = e.thread ∧ foundNone userId ⟨e.command, e.reply⟩ = true := by
  by_cases hj : e.thread = j
  · subst hj
    rw [traceOf_cons_self, underway, List.any_cons, List.all_cons, Bool.and_eq_true,
      Bool.or_eq_true, Bool.and_eq_true] at h
    obtain ⟨hfound | hfound, -, hstarts⟩ := h
    · exact .inr ⟨rfl, hfound⟩
    · exact .inl (by rw [underway, hfound, hstarts]; rfl)
  · rw [traceOf_cons_of_ne hj] at h
    exact .inl h

/-- A call stays underway until it starts the cooldown. -/
theorem underway_of_not_starts {k : ℕ}
    (history : List (Entry AccountStep AccountStep.Reply))
    (hstarts : e.command.startsCooldown userId = false)
    (h : underway userId (traceOf history k) = true) :
    underway userId (traceOf (e :: history) k) = true := by
  by_cases hk : e.thread = k
  · subst hk
    rw [underway, Bool.and_eq_true] at h
    rw [traceOf_cons_self, underway, List.any_cons, List.all_cons, h.1, h.2, hstarts,
      Bool.or_true]
    rfl
  · rwa [traceOf_cons_of_ne hk]

variable (hok : ∀ σ x, ok σ x → CooldownKept userId x ∧ TestsInTurn userId σ x)

include hok

/-- The step of a run that brings a call underway. -/
theorem fires_underway (h : (accountService config).Reaches ok (Pool.init s) σ)
    (he : (accountService config).Fires ok e σ σ') {j : ℕ}
    (hj : underway userId (traceOf σ'.history j) = true) :
    underway userId (traceOf σ.history j) = true ∨
      j = e.thread ∧ σ.shared.entries.get (cooldownKey userId) = none ∧
        ∀ i, i ≠ j → underway userId (traceOf σ.history i) = false := by
  rw [he.history] at hj
  obtain hold | ⟨rfl, hfound⟩ := underway_cons _ hj
  · exact .inl hold
  obtain ⟨o, hoko, hexec⟩ := he.exec
  obtain ⟨call, next, hi, -⟩ := he.thread
  obtain ⟨hkept, hturn⟩ := hok _ _ hoko
  obtain ⟨htests, hget⟩ := exec_foundNone hexec hkept hfound
  have hnext : σ.next? e.thread = some e.command := by
    rw [Pool.next?, hi]
    rfl
  refine .inr ⟨rfl, hget, fun i hne => ?_⟩
  by_contra hi
  rw [Bool.not_eq_false] at hi
  have hnot := hturn e.command hnext htests hget i (underway_lt h hi) hne
  rw [hi] at hnot
  cases hnot

theorem underway_unique (h : (accountService config).Reaches ok (Pool.init s) σ) {i j : ℕ}
    (hi : underway userId (traceOf σ.history i) = true)
    (hj : underway userId (traceOf σ.history j) = true) : i = j := by
  induction h with
  | refl => cases hi
  | @tail σ₁ σ₂ hrun hstep ih =>
      cases hstep.moves with
      | spawn call hspawn hshared hthreads hhistory =>
          rw [hhistory] at hi hj
          exact ih hi hj
      | environment x henv hshared hthreads hhistory =>
          rw [hhistory] at hi hj
          exact ih hi hj
      | exec e he =>
          by_contra hne
          obtain hi | ⟨hi, -, hnone⟩ := fires_underway hok hrun he hi
          · obtain hj | ⟨-, -, hnone⟩ := fires_underway hok hrun he hj
            · exact hne (ih hi hj)
            · rw [hnone i hne] at hi
              cases hi
          · obtain hj | ⟨hj, -⟩ := fires_underway hok hrun he hj
            · rw [hnone j (Ne.symm hne)] at hj
              cases hj
            · exact hne (hi.trans hj.symm)

theorem CooledSince.step (h : (accountService config).Reaches ok (Pool.init s) σ)
    (hstep : (accountService config).Steps ok σ σ') {k instant : ℕ}
    (hσ : CooledSince userId k instant σ) : CooledSince userId k instant σ' := by
  obtain ⟨hlater, hcooled, hothers⟩ := hσ
  cases hstep.moves with
  | spawn call hspawn hshared hthreads hhistory =>
      refine ⟨hshared ▸ hlater, ?_, ?_⟩
      · rw [hhistory, hshared]
        exact hcooled
      · rw [hhistory, hshared]
        exact hothers
  | environment x henv hshared hthreads hhistory =>
      have hkept := (hok _ _ henv).1
      have hnow : σ.shared.entries.now ≤ σ'.shared.entries.now := by
        rw [hshared]
        cases x with
        | tick n => exact Nat.le_add_right _ n
        | evict key => exact Nat.le_refl _
        | evictActivation key => exact Nat.le_refl _
      have hcell : σ'.shared.entries.cell (cooldownKey userId) =
          σ.shared.entries.cell (cooldownKey userId) := by
        rw [hshared]
        cases x with
        | tick n => rfl
        | evict key => rfl
        | evictActivation key => exact Store.cell_del_of_ne _ (Ne.symm hkept)
      refine ⟨hlater.trans hnow, ?_, fun j hne hj => ?_⟩
      · rw [hhistory, hcell]
        exact hcooled
      · rw [hhistory] at hj
        exact (hothers j hne hj).trans hnow
  | exec e he =>
      obtain ⟨o, hoko, hexec⟩ := he.exec
      have hfault : o.auth.fault = .none := (hok _ _ hoko).1
      obtain ⟨hnow, hcell⟩ := exec_cooldown hexec
      refine ⟨hnow ▸ hlater, ?_, fun j hne hj => ?_⟩
      · cases hstarts : e.command.startsCooldown userId with
        | true =>
            obtain ⟨call, rest, -, hmay⟩ := he.allowed (fun _ => CooldownMay userId)
              (fun _ _ _ => True) h fun _ call _ => body_may call
            exact .inr ⟨_, exec_startsCooldown hexec hfault hmay hstarts,
              Nat.add_le_add_right hlater _⟩
        | false =>
            rw [hcell userId hstarts, he.history]
            exact hcooled.imp_left (underway_of_not_starts _ hstarts)
      · rw [hnow]
        obtain hj | ⟨-, hget, hnone⟩ := fires_underway hok h he hj
        · exact hothers j hne hj
        -- the cooldown that the issuance has started is over
        obtain hk | ⟨expiresAt, hentry, hle⟩ := hcooled
        · rw [hnone k (Ne.symm hne)] at hk
          cases hk
        · by_contra hlt
          have hvisible : σ.shared.entries.get (cooldownKey userId) = some () :=
            visible_eq_some_iff.2 ⟨expiresAt, hentry, by omega⟩
          rw [hvisible] at hget
          cases hget

theorem CooledSince.reaches (h : (accountService config).Reaches ok (Pool.init s) σ)
    (hrun : (accountService config).Reaches ok σ σ') {k instant : ℕ}
    (hσ : CooledSince userId k instant σ) : CooledSince userId k instant σ' := by
  induction hrun with
  | refl => exact hσ
  | tail hrun hstep ih => exact CooledSince.step hok (h.trans hrun) hstep ih

omit hok

/-- The call that issues after a test is underway, and it has not issued before. -/
theorem IssuesIfAllowed.may (h : (accountService config).Reaches ok (Pool.init s) σ)
    {k : ℕ} {τ : AccountPool} (hissue : IssuesIfAllowed config ok userId k σ σ' τ) :
    underway userId (traceOf σ.history k) = true ∧
      ∀ x ∈ traceOf σ.history k, x.1.issuesTo userId = false := by
  obtain ⟨⟨issuanceId, he, -⟩, htested⟩ := hissue
  obtain ⟨call, rest, -, hmay⟩ := he.allowed (fun _ => CooldownMay userId)
    (fun _ _ _ => True) h fun _ call _ => body_may call
  exact hmay.issues (by simp [AccountStep.issuesTo]) htested

include hok

/-- What holds right after an issuance. -/
theorem IssuesIfAllowed.cooledSince (h : (accountService config).Reaches ok (Pool.init s) σ)
    {k : ℕ} {τ : AccountPool} (hissue : IssuesIfAllowed config ok userId k σ σ' τ) :
    CooledSince userId k σ.shared.entries.now σ' := by
  have hunderway := (hissue.may h).1
  obtain ⟨⟨issuanceId, he, -⟩, -⟩ := hissue
  have hnow := fires_now he
  have hafter : underway userId (traceOf σ'.history k) = true := by
    rw [he.history]
    exact underway_of_not_starts _ rfl hunderway
  exact ⟨hnow ▸ Nat.le_refl _, .inl hafter, fun j hne hj =>
    absurd (underway_unique hok (h.tail he.steps) hj hafter) hne⟩

end

/-- While the calls test the cooldown in turn, the issuances that it has allowed are sixty
seconds apart. -/
theorem issuances_spaced_of_testsInTurn (config : AccountConfig) (userId : String)
    (s : AccountState) :
    IssuancesSpaced config (fun σ x => CooldownKept userId x ∧ TestsInTurn userId σ x)
      userId s := by
  intro i j σ₁ σ₂ σ₃ σ₄ σ h₁ hi h₂ hj h₃
  have hok : ∀ (σ : AccountPool) x, CooldownKept userId x ∧ TestsInTurn userId σ x →
      CooldownKept userId x ∧ TestsInTurn userId σ x := fun _ _ h => h
  obtain ⟨issuanceId, he, -⟩ := hi.issued
  have hrun := (h₁.tail he.steps).trans h₂
  have hsince : CooledSince userId i σ₁.shared.entries.now σ₃ :=
    CooledSince.reaches hok (h₁.tail he.steps) h₂ (hi.cooledSince hok h₁)
  obtain ⟨hunderway, hfirst⟩ := hj.may hrun
  refine hsince.others j (fun heq => ?_) hunderway
  -- a call issues once
  subst heq
  have hissued := mem_traceOf.2 (h₂.history_suffix.mem (he.history ▸ List.mem_cons_self))
  simpa [AccountStep.issuesTo] using hfirst _ hissued

/-- A resend has found no cooldown. -/
def resendAllowed : AccountPool :=
  (accountService exampleAccounts).after (resendTested 0 "i")
    (Pool.init (AccountState.init [unverifiedUser]))

def resendIssued : AccountPool :=
  (accountService exampleAccounts).after (accountSteps 0 "i" 1) resendAllowed

/-- A minute later another one has found none either. -/
def laterAllowed : AccountPool :=
  (accountService exampleAccounts).after
    (accountSteps 0 "i" 2 ++ .environment (.tick 60000) :: resendTested 1 "j") resendIssued

def laterIssued : AccountPool :=
  (accountService exampleAccounts).after (accountSteps 1 "j" 1) laterAllowed

def laterEnqueued : AccountPool :=
  (accountService exampleAccounts).after (accountSteps 1 "j" 2) laterIssued

set_option maxRecDepth 4000 in
theorem later_resend_spaced :
    resendAllowed.shared.entries.now + 60000 ≤ laterAllowed.shared.entries.now :=
  issuances_spaced_of_testsInTurn exampleAccounts "u" (AccountState.init [unverifiedUser])
    0 1 resendAllowed resendIssued laterAllowed laterIssued laterEnqueued
    (Semantics.reaches_after _ (by decide +kernel))
    ⟨⟨"i", ⟨⟨accountOutcome "i" .none, by decide +kernel, rfl⟩, ⟨_, _, rfl, rfl⟩, rfl⟩,
      List.mem_iff_getElem?.2 ⟨8, rfl⟩⟩, by decide +kernel⟩
    (Semantics.reaches_after _ (by decide +kernel))
    ⟨⟨"j", ⟨⟨accountOutcome "j" .none, by decide +kernel, rfl⟩, ⟨_, _, rfl, rfl⟩, rfl⟩,
      List.mem_iff_getElem?.2 ⟨0, rfl⟩⟩, by decide +kernel⟩
    (Semantics.reaches_after _ (by decide +kernel))

end Account

end Shortlink

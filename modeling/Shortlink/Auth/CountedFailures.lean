import Shortlink.Auth.Guessing

/-!
# Failures that are counted

A call that has found a password or the code of a live challenge to be wrong has counted a
failure of the account when it answers, unless it answers that the storage is unavailable;
and a call that logs an account in has found it not to be locked (`body_attempt`).
-/

namespace Shortlink

namespace Auth

open Shortlink.Interaction Shortlink.Expiring AuthProgram AuthService RedisAuthStateService

/-- The challenge that the call has looked up is one of the account, and it has not expired
when the call reads the clock. -/
def LooksUpLive (trace : AuthTrace) (challengeId userId : String) : Prop :=
  ∃ payload : LoginChallengePayload,
    Replied trace (.get (.loginChallenge challengeId)) (some payload) ∧
      payload.userId = userId ∧ userId ≠ "" ∧ payload.used = false ∧
      ∀ now : ℕ, (⟨.now, now⟩ : Exchange AuthStep AuthStep.Reply) ∈ trace →
        now ≤ payload.expiresAtMs

/-- The call has found the password of the account to be wrong, or the code of a live
challenge of it. -/
def FoundWrong (config : AuthConfig) (trace : AuthTrace) (userId : String) :
    AuthCall → Prop
  | .startLogin input _ => ∃ email account,
      Found trace (.findAccountByEmail email) (some account) ∧ account.id = userId ∧
        passwordMatchesAccount config input.password account.passwordHash = false
  | .completeLogin input => LooksUpLive trace input.challengeId userId ∧
      ∃ now, Replied trace (.consumeLoginChallenge input.challengeId (config.hmac input.code)
        now) .invalid
  | _ => False

/-- The call is a login of the account: the account of the e-mail, or of the challenge that
has been consumed. -/
def LogsIn (config : AuthConfig) (trace : AuthTrace) (userId : String) : AuthCall → Prop
  | .startLogin _ _ => ∃ email account,
      Found trace (.findAccountByEmail email) (some account) ∧ account.id = userId
  | .completeLogin input => ∃ now, Replied trace (.consumeLoginChallenge input.challengeId
      (config.hmac input.code) now) (.consumed userId)
  | _ => False

/-- What a call has done when it answers. -/
structure AttemptEnds (config : AuthConfig) (call : AuthCall) (trace : AuthTrace)
    (r : AuthResult) : Prop where
  counted : ∀ userId, FoundWrong config trace userId call →
    r ≠ .error securityStorageUnavailableException →
      ∃ failure, Replied trace (.incrementFailedLogin userId) failure
  unlocked : ∀ userId value, LogsIn config trace userId call → r = .ok value →
    Replied trace (.existsKey (.loginLock userId)) false

def AuthStep.Rejects : AuthStep → Prop
  | .redis (.incrementFailedLogin _) => True
  | .audit _ => True
  | _ => False

abbrev anyStep (_ : AuthTrace) (_ : AuthStep) : Prop := True

section

variable {α : Type} {config : AuthConfig} {call : AuthCall} {trace : AuthTrace}

theorem withSecurityStorage_ends {p : AuthProgram α} {ends : AuthTrace → Except AuthError α → Prop}
    (hp : p.Obeys anyStep (either (fun trace a => ends trace (.ok a)) fun trace e =>
      ends trace (.error securityStorageUnavailableException) ∧
        (e ≠ .storageUnavailable → ends trace (.error e))) trace) :
    (withSecurityStorage p).Obeys anyStep ends trace := by
  rw [withSecurityStorage, obeys_tryCatch]
  refine hp.mono fun trace r hr => ?_
  cases r with
  | ok a => exact hr
  | error e =>
      cases e with
      | storageUnavailable => exact hr.1
      | _ => exact hr.2 (by simp)

/-- A call that finds the storage unavailable owes nothing. -/
theorem AttemptEnds.unavailable :
    AttemptEnds config call trace (.error securityStorageUnavailableException) :=
  ⟨fun _ _ h => absurd rfl h, nofun⟩

/-- A call that has counted the failures that it has found may fail. -/
theorem AttemptEnds.of_error {e : AuthError}
    (h : ∀ userId, FoundWrong config trace userId call →
      ∃ failure, Replied trace (.incrementFailedLogin userId) failure) :
    AttemptEnds config call trace (.error e) :=
  ⟨fun userId hwrong _ => h userId hwrong, nofun⟩

theorem obeys_incrementFailedLogin {may : AuthTrace → AuthStep → Prop} (userId : String)
    {ends : AuthTrace → Except AuthError FailedLoginResult → Prop} :
    (incrementFailedLogin userId).Obeys may ends trace ↔
      may trace (.redis (.incrementFailedLogin userId)) ∧
        (∀ e, ends (⟨.redis (.incrementFailedLogin userId), .error e⟩ :: trace)
          (.error .storageUnavailable)) ∧
        ∀ failure : FailedLoginResult, ends (⟨.redis (.incrementFailedLogin userId),
          .ok failure⟩ :: trace) (.ok failure) :=
  obeys_redis _

/-- A program ends with what is allowed after its steps. -/
theorem AuthProgram.Issues.ends {φ : AuthStep → Prop} {p : AuthProgram α} (hp : p.Issues φ)
    {ends : AuthTrace → Except AuthError α → Prop}
    (hends : ∀ l r, (∀ x ∈ l, φ x.1) → ends (l ++ trace) r) : p.Obeys anyStep ends trace :=
  Program.obeys_of_sat hp (fun _ _ _ => trivial) hends

theorem rejectLogin_ends {userId : String} {ends : AuthTrace → Except AuthError α → Prop}
    (hfailed : ∀ e, ends (⟨.redis (.incrementFailedLogin userId), .error e⟩ :: trace)
      (.error .storageUnavailable))
    (hcounted : ∀ l e failure, (∀ x ∈ l, x.1.Rejects) →
      Replied (l ++ trace) (.incrementFailedLogin userId) failure →
        ends (l ++ trace) (.error e)) :
    (rejectLogin userId).Obeys anyStep ends trace := by
  refine (obeys_bind _ _).2 ((obeys_bind _ _).2 ((obeys_incrementFailedLogin _).2
    ⟨trivial, hfailed, fun failure => ?_⟩))
  refine (obeys_bind _ _).2 (AuthProgram.Issues.ends (issues_audit (φ := AuthStep.Rejects)
    trivial) fun l r hl => ?_)
  have hends : ∀ e, ends (l ++ ⟨.redis (.incrementFailedLogin userId), .ok failure⟩ :: trace)
      (.error e) := by
    intro e
    rw [List.append_cons]
    refine hcounted (l ++ [_]) e failure (fun x hx => ?_) ?_
    · rcases List.mem_append.1 hx with hx | hx
      · exact hl x hx
      · rw [List.mem_singleton.1 hx]
        trivial
    · rw [← List.append_cons]
      exact List.mem_append_right l List.mem_cons_self
  cases r with
  | error e => exact hends e
  | ok _ =>
      refine (either_ok _ _ _).2 ((obeys_pure _).2 ((either_ok _ _ _).2 ?_))
      exact (obeys_ite _ _ _).2 ⟨fun _ => hends _, fun _ => hends _⟩

/-! ### `startLogin` -/

/-- The step looks no account up by its e-mail. -/
def AuthStep.FindsNone (c : AuthStep) : Prop :=
  ∀ email, c ≠ .repository (.findAccountByEmail email)

theorem found_of_append {l : AuthTrace} (hl : ∀ x ∈ l, x.1.FindsNone) {email : String}
    {account : Option AccountRecord}
    (h : Found (l ++ trace) (.findAccountByEmail email) account) :
    Found trace (.findAccountByEmail email) account :=
  (List.mem_append.1 h).resolve_left fun hmem => hl _ hmem email rfl

theorem AuthStep.Rejects.findsNone {c : AuthStep} (h : c.Rejects) : c.FindsNone := by
  intro email heq
  subst heq
  exact h

theorem assertLoginRateLimit_findsNone (email clientIp : String) :
    (assertLoginRateLimit config email clientIp).Issues AuthStep.FindsNone := by
  have hincrement : ∀ hash, (incrementRateLimit LOGIN_RATE_OPERATION .email hash
      LOGIN_RATE_LIMIT_TTL_SECONDS).Issues AuthStep.FindsNone := fun hash =>
    issues_redis (c := .incrementRateLimit LOGIN_RATE_OPERATION .email hash
      LOGIN_RATE_LIMIT_TTL_SECONDS) nofun
  refine .tryCatch (.bind (hincrement _) fun count => ?_) fun e => ?_
  · split
    · exact issues_throw _
    · exact issues_pure _
  · cases e <;> exact issues_throw _

theorem issueLoginChallenge_findsNone (userId : String) :
    (issueLoginChallenge config userId).Issues AuthStep.FindsNone :=
  .bind (issues_generate nofun) fun _ => .bind (issues_generate nofun) fun _ =>
    .bind (issues_now nofun) fun _ => .bind (issues_generate nofun) fun _ =>
      .bind (issues_redis (c := .createLoginChallenge _ _ _) nofun) fun _ =>
        .bind (issues_redis (c := .set (.issuance _ _) _ _) nofun) fun _ =>
          .bind (issues_enqueue nofun) fun _ => issues_pure _

theorem startLogin_attempt (config : AuthConfig) (input : LoginDto) (clientIp : String) :
    Program.Obeys anyStep (AttemptEnds config (.startLogin input clientIp)) []
      ((authService config).body (.startLogin input clientIp)) := by
  refine (obeys_map _ _).2 ((obeys_bind _ _).2 ?_)
  have hnone : ∀ l : AuthTrace, (∀ x ∈ l, x.1.FindsNone) → ∀ email account,
      ¬ Found l (.findAccountByEmail email) account := fun l hl email account hfound =>
    hl _ hfound email rfl
  have herror : ∀ (l : AuthTrace) e, (∀ x ∈ l, x.1.FindsNone) →
      AttemptEnds config (.startLogin input clientIp) l (.error e) := fun l e hl =>
    .of_error fun userId h => by
      obtain ⟨email, account, hfound, -⟩ := h
      exact absurd hfound (hnone l hl _ _)
  rw [parseEmail]
  cases createEmail config.toLowerCase input.email with
  | none => exact herror [] _ (List.forall_mem_nil _)
  | some email =>
      refine (obeys_pure email).2 ((either_ok _ _ _).2 ((obeys_bind _ _).2
        ((assertLoginRateLimit_findsNone email clientIp).ends fun l r hl => ?_)))
      rw [List.append_nil]
      cases r with
      | error e => exact herror l e hl
      | ok _ =>
          refine withSecurityStorage_ends ((obeys_bind _ _).2 ((obeys_authRepository _).2
            ⟨trivial, fun e => ⟨.unavailable, fun _ => ?_⟩,
              fun (account : Option AccountRecord) => ?_⟩))
          · refine .of_error fun userId h => ?_
            obtain ⟨email', account, hfound, -⟩ := h
            rcases List.mem_cons.1 hfound with heq | hmem
            · cases heq
            · exact absurd hmem (hnone l hl _ _)
          -- the account that the call has looked up is the only one
          have honly : ∀ l', (∀ x ∈ l', x.1.FindsNone) → ∀ email' a,
              Found (l' ++ ⟨.repository (.findAccountByEmail email), .ok account⟩ :: l)
                (.findAccountByEmail email') (some a) → account = some a := by
            intro l' hl' email' a hfound
            rcases List.mem_cons.1 (found_of_append hl' hfound) with heq | hmem
            · cases heq
              rfl
            · exact absurd hmem (hnone l hl _ _)
          rcases account with _ | account
          · refine ⟨.unavailable, fun _ => .of_error fun userId h => ?_⟩
            obtain ⟨email', a, hfound, -⟩ := h
            cases honly [] (List.forall_mem_nil _) email' a hfound
          · refine (obeys_ite _ _ _).2 ⟨fun _ => ?_, fun hpassword => (obeys_ite _ _ _).2
              ⟨fun _ => ?_, fun _ => ?_⟩⟩
            · refine rejectLogin_ends (fun e => ⟨.unavailable, fun h => absurd rfl h⟩)
                fun l' e failure hl' hreplied => ⟨.unavailable, fun _ => ?_⟩
              refine .of_error fun userId h => ?_
              obtain ⟨email', a, hfound, howner, -⟩ := h
              cases honly l' (fun x hx => (hl' x hx).findsNone) email' a hfound
              exact ⟨failure, howner ▸ hreplied⟩
            all_goals
              have hmatch : ∀ l', (∀ x ∈ l', x.1.FindsNone) → ∀ e, AttemptEnds config
                  (.startLogin input clientIp) (l' ++ ⟨.repository
                    (.findAccountByEmail email), .ok (some account)⟩ :: l) (.error e) := by
                intro l' hl' e
                refine .of_error fun userId h => ?_
                obtain ⟨email', a, hfound, -, hwrong⟩ := h
                cases honly l' hl' email' a hfound
                rw [hwrong] at hpassword
                exact absurd (fun heq => by cases heq) hpassword
            · exact ⟨.unavailable, fun _ => hmatch [] (List.forall_mem_nil _) _⟩
            · have hlook : ∀ r, ∀ x ∈ ([⟨.redis (.existsKey (.loginLock account.id)), r⟩] :
                  AuthTrace), x.1.FindsNone := fun r x hx => by
                rw [List.mem_singleton.1 hx]
                exact fun _ h => by cases h
              refine (obeys_bind _ _).2 ((obeys_isLoginLocked _).2 ⟨trivial,
                fun e => ⟨.unavailable, fun _ => hmatch [_] (hlook _) _⟩, fun locked => ?_⟩)
              refine (either_ok _ _ _).2 ((obeys_ite _ _ _).2
                ⟨fun _ => ⟨.unavailable, fun _ => hmatch [_] (hlook _) _⟩, fun hlocked => ?_⟩)
              rw [Bool.not_eq_true] at hlocked
              subst hlocked
              refine (issueLoginChallenge_findsNone account.id).ends fun l' r hl' => ?_
              rw [List.append_cons]
              have hl'' : ∀ x ∈ l' ++ [⟨.redis (.existsKey (.loginLock account.id)),
                  .ok false⟩], x.1.FindsNone := fun x hx =>
                (List.mem_append.1 hx).elim (hl' x) (hlook _ x)
              cases r with
              | error e => exact ⟨.unavailable, fun _ => hmatch _ hl'' e⟩
              | ok challenge =>
                  refine ⟨fun userId hwrong hr => (hmatch _ hl'' .storageUnavailable).counted
                    userId hwrong (fun h => by cases h), fun userId value hlogin _ => ?_⟩
                  obtain ⟨email', a, hfound, rfl⟩ := hlogin
                  cases honly _ hl'' email' a hfound
                  rw [← List.append_cons]
                  exact List.mem_append_right l' List.mem_cons_self

/-! ### `completeLogin` -/

theorem LooksUpLive.of_append {l : AuthTrace} {challengeId userId : String}
    (hl : ∀ x ∈ l, x.1 ≠ .redis (.get (.loginChallenge challengeId)))
    (h : LooksUpLive (l ++ trace) challengeId userId) :
    LooksUpLive trace challengeId userId := by
  obtain ⟨payload, hreplied, howner, hid, hused, hclock⟩ := h
  exact ⟨payload, (List.mem_append.1 hreplied).resolve_left fun hmem => hl _ hmem rfl, howner,
    hid, hused, fun now hnow => hclock now (List.mem_append_right l hnow)⟩

/-- A live challenge is found with its account. -/
theorem findLoginChallengeUserId_ends {challengeId : String}
    {ends : AuthTrace → Except AuthError (Option String) → Prop}
    (hvalue : ∀ l userId?, (∀ x ∈ l, x.1.consumesChallenge = false) →
      (∀ userId, LooksUpLive l challengeId userId → userId? = some userId) →
        ends l (.ok userId?))
    (herror : ∀ l, ends l (.error .storageUnavailable)) :
    (findLoginChallengeUserId challengeId).Obeys anyStep ends [] := by
  -- what the call has looked up is the answer to its only `GET`
  have hraw : ∀ {raw : Option LoginChallengePayload} (l : AuthTrace)
      {payload : LoginChallengePayload}, (∀ x ∈ l,
        x.1 ≠ .redis (.get (.loginChallenge challengeId))) → Replied (l ++
          [⟨.redis (.get (.loginChallenge challengeId)), .ok raw⟩])
            (.get (.loginChallenge challengeId)) (some payload) → raw = some payload := by
    intro raw l payload hl hreplied
    rcases List.mem_append.1 hreplied with hmem | hmem
    · exact absurd rfl (hl _ hmem)
    · cases List.mem_singleton.1 hmem
      rfl
  refine (obeys_bind _ _).2 ((obeys_redis (.get (.loginChallenge challengeId))).2
    ⟨trivial, fun e => herror _, fun (raw : Option LoginChallengePayload) => ?_⟩)
  rcases raw with _ | payload
  · refine hvalue _ none (by simp [AuthStep.consumesChallenge]) fun userId hlive => ?_
    obtain ⟨payload, hreplied, -⟩ := hlive
    cases hraw [] (List.forall_mem_nil _) hreplied
  · refine (obeys_ite _ _ _).2 ⟨fun hnone => ?_, fun hsome => (obeys_ite _ _ _).2
      ⟨fun _ => ?_, fun hexpires => ?_⟩⟩
    · refine hvalue _ none (by simp [AuthStep.consumesChallenge]) fun userId hlive => ?_
      obtain ⟨payload', hreplied, rfl, hid, hused, -⟩ := hlive
      cases hraw [] (List.forall_mem_nil _) hreplied
      rcases hnone with hempty | hused'
      · exact absurd hempty hid
      · rw [hused] at hused'
        cases hused'
    · refine hvalue _ _ (by simp [AuthStep.consumesChallenge]) fun userId hlive => ?_
      obtain ⟨payload', hreplied, rfl, -⟩ := hlive
      cases hraw [] (List.forall_mem_nil _) hreplied
      rfl
    · refine (obeys_bind _ _).2 (obeys_now.2 ⟨trivial, fun now => ?_⟩)
      refine hvalue _ _ (by simp [AuthStep.consumesChallenge]) fun userId hlive => ?_
      obtain ⟨payload', hreplied, rfl, hid, hused, hclock⟩ := hlive
      cases hraw [_] (by simp) hreplied
      exact if_neg (Nat.not_lt.2 (hclock now List.mem_cons_self))

theorem createSessionAfterLogin_consumesNone (userId role : String) :
    (AuthSessionService.createSessionAfterLogin config userId role).Issues
      fun c => c.consumesChallenge = false :=
  .bind (issues_generate rfl) fun _ => .bind (issues_generate rfl) fun _ =>
    .bind (issues_now rfl) fun _ =>
      .bind (issues_authRepository (c := .createExclusiveSession _ _) rfl) fun _ =>
        (sessionCreated_ofSessions _ _ _ _ _).mono fun _ h => h.consumesChallenge

/-- A login whose code has been consumed fails, or it has found the account not to be
locked. -/
theorem loginConsumed_ends {owner : String}
    {ends : AuthTrace → Except AuthError CompletedLogin → Prop}
    (herror : ∀ l e, (∀ x ∈ l, x.1.consumesChallenge = false) → ends (l ++ trace) (.error e))
    (hvalue : ∀ l login, (∀ x ∈ l, x.1.consumesChallenge = false) →
      Replied (l ++ trace) (.existsKey (.loginLock owner)) false →
        ends (l ++ trace) (.ok login)) :
    (loginConsumed config owner).Obeys anyStep ends trace := by
  have hlook : ∀ r, ∀ x ∈ ([⟨.redis (.existsKey (.loginLock owner)), r⟩] : AuthTrace),
      x.1.consumesChallenge = false := fun r x hx => by
    rw [List.mem_singleton.1 hx]
    rfl
  refine (obeys_bind _ _).2 ((obeys_isLoginLocked _).2 ⟨trivial,
    fun e => herror [_] _ (hlook _), fun locked => ?_⟩)
  refine (either_ok _ _ _).2 ((obeys_ite _ _ _).2
    ⟨fun _ => herror [_] _ (hlook _), fun hlocked => ?_⟩)
  rw [Bool.not_eq_true] at hlocked
  subst hlocked
  refine AuthProgram.Issues.ends (φ := fun c => c.consumesChallenge = false) ?_
    fun l r hl => ?_
  · refine .bind (issues_authRepository (c := .findAccountById owner) rfl)
      fun (account : Option AccountRecord) => ?_
    rcases account with _ | account
    · exact issues_throw _
    · dsimp only
      split
      · exact issues_throw _
      · exact .bind (createSessionAfterLogin_consumesNone _ _) fun _ =>
          .bind (issues_audit rfl) fun _ => issues_pure _
  · rw [List.append_cons]
    have hl' : ∀ x ∈ l ++ [⟨.redis (.existsKey (.loginLock owner)), .ok false⟩],
        x.1.consumesChallenge = false := fun x hx =>
      (List.mem_append.1 hx).elim (hl x) (hlook _ x)
    cases r with
    | error e => exact herror _ e hl'
    | ok login =>
        refine hvalue _ login hl' ?_
        rw [← List.append_cons]
        exact List.mem_append_right l List.mem_cons_self

theorem replied_consume {l : AuthTrace} {challengeId codeHmac codeHmac' : String} {now now' : ℕ}
    {result result' : ConsumeLoginChallengeResult}
    (hl : ∀ x ∈ l, x.1.consumesChallenge = false)
    (hfirst : ∀ x ∈ trace, x.1.consumesChallenge = false)
    (h : Replied (l ++ ⟨.redis (.consumeLoginChallenge challengeId codeHmac now),
        .ok result⟩ :: trace) (.consumeLoginChallenge challengeId codeHmac' now') result') :
    result = result' := by
  rcases List.mem_append.1 h with hmem | hmem
  · cases hl _ hmem
  rcases List.mem_cons.1 hmem with heq | hmem
  · cases heq
    rfl
  · cases hfirst _ hmem

theorem verifyChallenge_attempt {input : VerifyLoginDto} {challengeUserId : Option String}
    (hfirst : ∀ x ∈ trace, x.1.consumesChallenge = false)
    (hlive : ∀ userId, LooksUpLive trace input.challengeId userId →
      challengeUserId = some userId) :
    (verifyChallenge config input challengeUserId).Obeys anyStep
      (either (fun trace a => AttemptEnds config (.completeLogin input) trace
          (.ok (.completed a)))
        fun trace e => AttemptEnds config (.completeLogin input) trace
            (.error securityStorageUnavailableException) ∧
          (e ≠ .storageUnavailable → AttemptEnds config (.completeLogin input) trace
            (.error e))) trace := by
  refine (obeys_bind _ _).2 ((obeys_bind _ _).2 (obeys_now.2 ⟨trivial, fun now => ?_⟩))
  have hbefore : ∀ x ∈ (⟨.now, now⟩ :: trace : AuthTrace), x.1.consumesChallenge = false := by
    simpa [AuthStep.consumesChallenge] using hfirst
  refine (obeys_bind _ _).2 ((obeys_redis (.consumeLoginChallenge input.challengeId
    (config.hmac input.code) now)).2 ⟨trivial, fun e => ⟨.unavailable, fun h => absurd rfl h⟩,
      fun (result : ConsumeLoginChallengeResult) => ?_⟩)
  -- a wrong code of a live challenge is one of the account that has been looked up
  have hwrong : ∀ l, (∀ x ∈ l, x.1.Rejects) → ∀ userId, FoundWrong config (l ++
      ⟨.redis (.consumeLoginChallenge input.challengeId (config.hmac input.code) now),
        .ok result⟩ :: ⟨.now, now⟩ :: trace) userId (.completeLogin input) →
          challengeUserId = some userId := by
    intro l hl userId h
    refine hlive userId (LooksUpLive.of_append (l := l ++ [_, _]) (fun x hx => ?_)
      (by rw [List.append_assoc]; exact h.1))
    simp only [List.mem_append, List.mem_cons, List.not_mem_nil, or_false] at hx
    rcases hx with hx | rfl | rfl
    · intro heq
      have hrejects := hl x hx
      rw [heq] at hrejects
      exact hrejects
    · exact fun h => by cases h
    · exact fun h => by cases h
  have hreject : Obeys (challengeUserId.elim
      (throw invalidCredentialsException) rejectLogin) anyStep
      (either (fun trace a => AttemptEnds config (.completeLogin input) trace
          (.ok (.completed a)))
        fun trace e => AttemptEnds config (.completeLogin input) trace
            (.error securityStorageUnavailableException) ∧
          (e ≠ .storageUnavailable → AttemptEnds config (.completeLogin input) trace
            (.error e)))
      (⟨.redis (.consumeLoginChallenge input.challengeId (config.hmac input.code) now),
        .ok result⟩ :: ⟨.now, now⟩ :: trace) := by
    cases challengeUserId with
    | none =>
        refine ⟨.unavailable, fun _ => .of_error fun userId h => ?_⟩
        cases hwrong [] (List.forall_mem_nil _) userId h
    | some owner =>
        refine rejectLogin_ends (fun e => ⟨.unavailable, fun h => absurd rfl h⟩)
          fun l e failure hl hreplied => ⟨.unavailable, fun _ => .of_error fun userId h => ?_⟩
        obtain rfl := Option.some.inj (hwrong l hl userId h)
        exact ⟨failure, hreplied⟩
  refine (either_ok _ _ _).2 ((obeys_pure _).2 ((either_ok _ _ _).2 ?_))
  split_ifs with hempty
  · cases challengeUserId <;> exact hreject
  rcases result with owner | _ | _
  · have hnone : ∀ l, (∀ x ∈ l, x.1.consumesChallenge = false) → ∀ e,
        AttemptEnds config (.completeLogin input) (l ++ ⟨.redis (.consumeLoginChallenge
          input.challengeId (config.hmac input.code) now), .ok (.consumed owner)⟩ ::
            ⟨.now, now⟩ :: trace) (.error e) := fun l hl e =>
      .of_error fun userId h => by
        obtain ⟨-, now', hinvalid⟩ := h
        cases replied_consume hl hbefore hinvalid
    refine loginConsumed_ends (fun l e hl => ⟨.unavailable, fun _ => hnone l hl e⟩)
      fun l login hl hreplied => ⟨fun userId h hr => (hnone l hl .storageUnavailable).counted
        userId h (fun h => by cases h), fun userId value hlogin _ => ?_⟩
    obtain ⟨now', hconsumed⟩ := hlogin
    cases replied_consume hl hbefore hconsumed
    exact hreplied
  · cases challengeUserId <;> exact hreject
  · cases challengeUserId <;> exact hreject

theorem completeLogin_attempt (config : AuthConfig) (input : VerifyLoginDto) :
    Program.Obeys anyStep (AttemptEnds config (.completeLogin input)) []
      ((authService config).body (.completeLogin input)) := by
  refine (obeys_map _ _).2 (withSecurityStorage_ends ((obeys_bind _ _).2
    (findLoginChallengeUserId_ends (fun l userId? hl hlive => ?_)
      fun l => ⟨.unavailable, fun h => absurd rfl h⟩)))
  rcases userId? with _ | userId
  · exact verifyChallenge_attempt hl hlive
  · refine (either_ok _ _ _).2 ((obeys_bind _ _).2 ((obeys_isLoginLocked _).2 ⟨trivial,
      fun e => ⟨.unavailable, fun h => absurd rfl h⟩, fun locked => ?_⟩))
    have hl' : ∀ x ∈ (⟨.redis (.existsKey (.loginLock userId)), .ok locked⟩ :: l : AuthTrace),
        x.1.consumesChallenge = false := by
      simpa [AuthStep.consumesChallenge] using hl
    refine (either_ok _ _ _).2 ((obeys_ite _ _ _).2 ⟨fun _ => ⟨.unavailable, fun _ => ?_⟩,
      fun _ => verifyChallenge_attempt hl' fun owner h => ?_⟩)
    · refine .of_error fun owner h => ?_
      obtain ⟨-, now, hinvalid⟩ := h
      cases hl' _ hinvalid
    · exact hlive owner (h.of_append (l := [_]) (by simp))

end

/-- A step that writes a failure counter or a lock counts a failure. -/
def AuthStep.CountsOnly (c : AuthStep) : Prop :=
  ∀ (command : RedisCommand) (userId : String), c = .redis command →
    command.Writes (.loginLock userId) ∨ command.Writes (.counter (.failedLogin userId)) →
      command = .incrementFailedLogin userId

theorem program_countsOnly (config : AuthConfig) (call : AuthCall) :
    (call.program config).Issues AuthStep.CountsOnly := by
  refine (body_course config call).sat fun trace c hmay => ?_
  rintro command userId rfl hwrites
  exact hmay.eq_increment hwrites

theorem INCREMENT_FAILED_LOGIN_LUA_counts (userId : String) (redis : Redis) :
    (INCREMENT_FAILED_LOGIN_LUA userId redis).2.failures userId =
      redis.failures userId + 1 := by
  have hnow : (INCREMENT_FAILED_LOGIN_LUA userId redis).2.now = redis.now :=
    RedisCommand.apply_now (.incrementFailedLogin userId) redis
  have hcell := @INCREMENT_FAILED_LOGIN_LUA_cell_counter redis userId
  cases hcount : redis.count (.failedLogin userId) with
  | none =>
      rw [Redis.cell_incrEx_of_none _ hcount] at hcell
      have hone : (INCREMENT_FAILED_LOGIN_LUA userId redis).2.count (.failedLogin userId) =
          some 1 := visible_eq_some_iff.2 ⟨_, hcell, by
        rw [hnow]
        exact Nat.lt_add_of_pos_right (by decide)⟩
      rw [Redis.failures, Redis.failures, hone, hcount]
      rfl
  | some count =>
      obtain ⟨expiresAt, hbefore, hlt⟩ := visible_eq_some_iff.1 hcount
      rw [Redis.cell_incrEx_of_some _ hcount hbefore] at hcell
      have hmore : (INCREMENT_FAILED_LOGIN_LUA userId redis).2.count (.failedLogin userId) =
          some (count + 1) := visible_eq_some_iff.2 ⟨expiresAt, hcell, hnow ▸ hlt⟩
      rw [Redis.failures, Redis.failures, hmore, hcount]
      rfl

theorem RedisCommand.failures_le {c : RedisCommand} {userId : String}
    (hc : c.Writes (.counter (.failedLogin userId)) → c = .incrementFailedLogin userId)
    (redis : Redis) : redis.failures userId ≤ (c.apply redis).2.failures userId := by
  by_cases hwrites : c.Writes (.counter (.failedLogin userId))
  · rw [hc hwrites]
    have hcounts := INCREMENT_FAILED_LOGIN_LUA_counts userId redis
    exact hcounts ▸ Nat.le_succ _
  · have hcount : (c.apply redis).2.count (.failedLogin userId) =
        redis.count (.failedLogin userId) := RedisCommand.get_apply_of_not_writes redis hwrites
    exact Nat.le_of_eq (by rw [Redis.failures, Redis.failures, hcount])

/-- What a call has counted, and found, when it answers. -/
theorem body_attempt (config : AuthConfig) (call : AuthCall) :
    Program.Obeys anyStep (AttemptEnds config call) [] ((authService config).body call) := by
  have hother : (∀ trace userId, ¬ FoundWrong config trace userId call) →
      (∀ trace userId, ¬ LogsIn config trace userId call) →
        Program.Obeys anyStep (AttemptEnds config call) []
          ((authService config).body call) := fun hwrong hlogin =>
    Program.obeys_of_append fun l r => ⟨fun userId h => absurd h (hwrong _ userId),
      fun userId _ h => absurd h (hlogin _ userId)⟩
  cases call with
  | startLogin input clientIp => exact startLogin_attempt config input clientIp
  | completeLogin input => exact completeLogin_attempt config input
  | _ => exact hother (fun _ _ h => h) fun _ _ h => h

end Auth

end Shortlink

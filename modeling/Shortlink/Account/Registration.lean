import Shortlink.Account.FailureLimit

/-!
# Concurrent registrations

`register` looks an address up and inserts an account when there is none. The unique index on
the e-mail lets only one of several inserts through, and the others end with the error of the
storage instead of the generic answer (`concurrent_registration_fails`).

While every insert still finds no account of its e-mail, every registration ends generically,
and afterwards there is one account with the password hash of one of them
(`registrations_invisible_of_insertsInTurn`). The invariant is `Registering`: what a call has
been told of an account is true, and the hash of the account has been drawn for a call.
-/

namespace Shortlink

namespace Account

open Shortlink.Storage Shortlink.Table Shortlink.Transaction Shortlink.Interaction
open Shortlink.Expiring Shortlink.Auth AccountProgram

/-! ### The steps of a registration -/

def requestLimit : RateLimitDimension → ℕ
  | .email => EMAIL_RATE_LIMIT
  | .ip => IP_RATE_LIMIT

/-- The step has taken effect, and a count is within its limit. -/
def Answered : Exchange AccountStep AccountStep.Reply → Prop
  | ⟨.auth (.redis (.incrementRateLimit _ dimension _ _)), r⟩ =>
      ∃ n : ℕ, r = Except.ok n ∧ n ≤ requestLimit dimension
  | ⟨.auth (.redis _), r⟩ => ∃ a, r = Except.ok a
  | ⟨.auth (.repository _), r⟩ => ∃ a, r = Except.ok a
  | ⟨.auth (.enqueue _), r⟩ => ∃ a, r = Except.ok a
  | ⟨.auth (.sendMail _), r⟩ => ∃ a, r = Except.ok a
  | ⟨.auth (.audit _), r⟩ => ∃ a, r = Except.ok a
  | ⟨.auth .now, _⟩ => True
  | ⟨.auth (.generate _), _⟩ => True
  | ⟨.hash _, _⟩ => True
  | ⟨.repository _, r⟩ => ∃ a, r = Except.ok a
  | ⟨.redis _, r⟩ => ∃ a, r = Except.ok a
  | ⟨.enqueuePasswordReset _, r⟩ => ∃ a, r = Except.ok a

/-- The exchange tells that there is an account with the e-mail. -/
def tellsAccount (email : String) : Exchange AccountStep AccountStep.Reply → Bool
  | ⟨.auth (.repository (.findAccountByEmail address)), Except.ok (some _)⟩ => address = email
  | ⟨.repository (.createPendingAccount input), Except.ok _⟩ => input.email = email
  | _ => false

/-- The most steps that a registration takes. -/
def REGISTER_STEPS : ℕ := 9

/-- What a registration does next: of the tables it only looks its e-mail up and inserts an
account with the hash of its password. -/
def RegistrationMay (email password : String) (trace : AccountTrace) (c : AccountStep) : Prop :=
  trace.length < REGISTER_STEPS ∧ match c with
  | .auth (.repository c) => c = .findAccountByEmail email
  | .repository (.createPendingAccount input) => input.email = email ∧
      (⟨.hash password, input.passwordHash⟩ : Exchange AccountStep AccountStep.Reply) ∈ trace
  | .repository _ => False
  | _ => True

/-- A value is as `post` says, and before an error a step has failed. -/
def Settled {α : Type} (post : AccountTrace → α → Prop) (trace : AccountTrace) :
    Except AuthError α → Prop
  | .ok a => post trace a
  | .error _ => ∃ x ∈ trace, ¬ Answered x

section

variable {α β : Type} {config : AccountConfig} {email password : String}
  {may : AccountTrace → AccountStep → Prop} {trace : AccountTrace}

theorem settled_bind {post : AccountTrace → β → Prop} {p : AccountProgram α}
    {f : α → AccountProgram β}
    (hp : p.run.Obeys may (Settled fun trace a => (f a).run.Obeys may (Settled post) trace)
      trace) :
    (p >>= f).run.Obeys may (Settled post) trace := by
  refine (Program.obeys_bind _ _).2 (hp.mono (fun _ _ h => h) fun trace r hr => ?_)
  cases r with
  | ok a => exact hr
  | error e => exact hr

theorem settled_mono {post post' : AccountTrace → α → Prop} {p : AccountProgram α}
    (hp : p.run.Obeys may (Settled post) trace)
    (hpost : ∀ trace a, post trace a → post' trace a) :
    p.run.Obeys may (Settled post') trace := by
  refine hp.mono (fun _ _ h => h) fun trace r hr => ?_
  cases r with
  | ok a => exact hpost trace a hr
  | error e => exact hr

theorem settled_withSecurityStorage {post : AccountTrace → α → Prop} {p : AccountProgram α}
    (hp : p.run.Obeys may (Settled post) trace) :
    (AuthService.withSecurityStorage p).run.Obeys may (Settled post) trace := by
  refine (Program.obeys_bind _ _).2 (hp.mono (fun _ _ h => h) fun trace r hr => ?_)
  cases r with
  | ok a => exact hr
  | error e => cases e <;> exact hr

theorem settled_pure {post : AccountTrace → α → Prop} {a : α} (h : post trace a) :
    (pure a : AccountProgram α).run.Obeys may (Settled post) trace := h

theorem not_ok {e : StorageError} :
    ¬ ∃ a : α, (Except.error e : Except StorageError α) = .ok a := by
  rintro ⟨a, h⟩
  cases h

theorem settled_generate {secret : Secret} {post : AccountTrace → String → Prop}
    (hmay : may trace (.auth (.generate secret)))
    (hpost : ∀ r : String, post (⟨.auth (.generate secret), r⟩ :: trace) r) :
    (ofAuth (AuthProgram.generate secret)).run.Obeys may (Settled post) trace :=
  ⟨hmay, hpost⟩

theorem settled_hash {post : AccountTrace → String → Prop}
    (hmay : may trace (.hash password))
    (hpost : ∀ r : String, post (⟨.hash password, r⟩ :: trace) r) :
    (AccountProgram.hash password).run.Obeys may (Settled post) trace :=
  ⟨hmay, hpost⟩

theorem settled_authRepository {c : AuthCommand} {post : AccountTrace → c.Res → Prop}
    (hmay : may trace (.auth (.repository c)))
    (hpost : ∀ a, post (⟨.auth (.repository c), Except.ok a⟩ :: trace) a) :
    (ofAuth (AuthProgram.authRepository c)).run.Obeys may (Settled post) trace := by
  refine ⟨hmay, fun r => ?_⟩
  cases r with
  | ok a => exact hpost a
  | error e => exact ⟨_, List.mem_cons_self, not_ok⟩

theorem settled_accountRepository {c : AccountCommand} {post : AccountTrace → c.Res → Prop}
    (hmay : may trace (.repository c))
    (hpost : ∀ a, post (⟨.repository c, Except.ok a⟩ :: trace) a) :
    (accountRepository c).run.Obeys may (Settled post) trace := by
  refine ⟨hmay, fun r => ?_⟩
  cases r with
  | ok a => exact hpost a
  | error e => exact ⟨_, List.mem_cons_self, not_ok⟩

theorem settled_activations {c : ActivationCommand} {post : AccountTrace → c.Res → Prop}
    (hmay : may trace (.redis c))
    (hpost : ∀ a, post (⟨.redis c, Except.ok a⟩ :: trace) a) :
    (activations c).run.Obeys may (Settled post) trace := by
  refine ⟨hmay, fun r => ?_⟩
  cases r with
  | ok a => exact hpost a
  | error e => exact ⟨_, List.mem_cons_self, not_ok⟩

theorem settled_enqueue {job : SendVerificationCodeJobData}
    {post : AccountTrace → Unit → Prop} (hmay : may trace (.auth (.enqueue job)))
    (hpost : post (⟨.auth (.enqueue job), Except.ok ()⟩ :: trace) ()) :
    (ofAuth (AuthProgram.enqueue job)).run.Obeys may (Settled post) trace := by
  refine ⟨hmay, fun r => ?_⟩
  cases r with
  | ok a => exact hpost
  | error e => exact ⟨_, List.mem_cons_self, not_ok⟩

theorem settled_setIssuance {purpose : AuthIssuancePurpose} {subjectId issuanceId : String}
    {post : AccountTrace → Unit → Prop}
    (hmay : may trace (.auth (.redis (.set (.issuance purpose subjectId) issuanceId
      TTL_ONE_HOUR_SECONDS))))
    (hpost : post (⟨.auth (.redis (.set (.issuance purpose subjectId) issuanceId
      TTL_ONE_HOUR_SECONDS)), Except.ok ()⟩ :: trace) ()) :
    (ofAuth (Auth.RedisAuthStateService.setIssuance purpose subjectId issuanceId)).run.Obeys
      may (Settled post) trace := by
  refine ⟨hmay, fun r => ?_⟩
  cases r with
  | ok a => exact hpost
  | error e => exact ⟨_, List.mem_cons_self, not_ok⟩

theorem settled_incrementRateLimit {operation hash : String} {dimension : RateLimitDimension}
    {ttlSeconds : ℕ} {post : AccountTrace → ℕ → Prop}
    (hmay : may trace (.auth (.redis (.incrementRateLimit operation dimension hash
      ttlSeconds))))
    (hpost : ∀ n : ℕ, post (⟨.auth (.redis (.incrementRateLimit operation dimension hash
      ttlSeconds)), (Except.ok n : Except StorageError ℕ)⟩ :: trace) n) :
    (ofAuth (Auth.RedisAuthStateService.incrementRateLimit operation dimension hash
      ttlSeconds)).run.Obeys may (Settled post) trace := by
  refine ⟨hmay, fun r => ?_⟩
  cases r with
  | ok a => exact hpost a
  | error e =>
      refine ⟨_, List.mem_cons_self, fun h => ?_⟩
      obtain ⟨n, h, -⟩ := h
      cases h

/-! ### The program of `register` -/

theorem settled_refuse {operation hash : String} {dimension : RateLimitDimension}
    {ttlSeconds n : ℕ} {post : AccountTrace → α → Prop} {p : AccountProgram α}
    (hcount : (⟨.auth (.redis (.incrementRateLimit operation dimension hash ttlSeconds)),
      (Except.ok n : Except StorageError ℕ)⟩ : Exchange AccountStep AccountStep.Reply) ∈ trace)
    (hp : p.run.Obeys may (Settled post) trace) :
    (if n > requestLimit dimension then throw rateLimitedException
      else p : AccountProgram α).run.Obeys may (Settled post) trace := by
  split
  · rename_i hlimit
    refine ⟨_, hcount, fun h => ?_⟩
    obtain ⟨m, heq, hle⟩ := h
    cases heq
    exact absurd hlimit (Nat.not_lt.2 hle)
  · exact hp

theorem assertWithinRateLimits_settled (operation address clientIp : String) :
    (AuthService.assertWithinRateLimits config operation address clientIp).run.Obeys
      (RegistrationMay email password) (Settled fun trace _ => trace.length = 2) [] := by
  refine settled_withSecurityStorage (settled_bind (settled_incrementRateLimit
    ⟨by simp [REGISTER_STEPS], trivial⟩ fun n => ?_))
  refine settled_refuse List.mem_cons_self (settled_bind (settled_incrementRateLimit
    ⟨by simp [REGISTER_STEPS], trivial⟩ fun n => ?_))
  exact settled_refuse List.mem_cons_self (settled_pure rfl)

/-- An account is activated in four steps. -/
theorem enqueueActivation_settled {userId : String} (hsteps : trace.length ≤ 5)
    (htold : trace.any (tellsAccount email) = true) :
    (AuthService.enqueueActivation userId).run.Obeys (RegistrationMay email password)
      (Settled fun trace _ => trace.any (tellsAccount email) = true) trace := by
  refine settled_bind (settled_generate ⟨by simp [REGISTER_STEPS]; omega, trivial⟩
    fun issuanceId => ?_)
  refine settled_bind (settled_setIssuance ⟨by simp [REGISTER_STEPS]; omega, trivial⟩ ?_)
  refine settled_bind (settled_activations ⟨by simp [REGISTER_STEPS]; omega, trivial⟩
    fun _ => ?_)
  refine settled_enqueue ⟨by simp [REGISTER_STEPS]; omega, trivial⟩ ?_
  simp [htold]

theorem enqueueActivationIfAllowed_settled {userId : String} (hsteps : trace.length ≤ 4)
    (htold : trace.any (tellsAccount email) = true) :
    (AuthService.enqueueActivationIfAllowed userId).run.Obeys (RegistrationMay email password)
      (Settled fun trace _ => trace.any (tellsAccount email) = true) trace := by
  refine settled_bind (settled_activations ⟨by simp [REGISTER_STEPS]; omega, trivial⟩
    fun (coolingDown : Bool) => ?_)
  have htold' : ∀ x, List.any (x :: trace) (tellsAccount email) = true := by
    intro x
    rw [List.any_cons, htold, Bool.or_true]
  cases coolingDown with
  | true => exact settled_pure (htold' _)
  | false => exact enqueueActivation_settled (Nat.succ_le_succ hsteps) (htold' _)

/-- The input passes the checks of `register`, and its e-mail is this one. -/
structure ValidRegistration (config : AccountConfig) (email : String) (input : RegisterDto) :
    Prop where
  email : createEmail config.auth.toLowerCase input.email = some email
  password : meetsPolicy input.password.toList = true
  confirmation : input.passwordConfirmation = input.password

theorem register_settled {input : RegisterDto} (hinput : ValidRegistration config email input)
    (clientIp : String) :
    (AuthService.register config input clientIp).run.Obeys
      (RegistrationMay email input.password)
      (Settled fun trace _ => trace.any (tellsAccount email) = true) [] := by
  have hemail : Auth.AuthService.parseEmail config.auth input.email = pure email := by
    rw [Auth.AuthService.parseEmail, hinput.email]
  have hpassword : AuthService.parsePassword input.password = pure () :=
    if_pos hinput.password
  have hconfirmation : AuthService.assertPasswordConfirmation input.password
      input.passwordConfirmation = pure () := if_neg (not_not_intro hinput.confirmation.symm)
  rw [AuthService.register, hemail, hpassword, hconfirmation]
  refine settled_bind (settled_pure (a := email) (settled_bind (settled_pure
    (settled_bind (settled_pure ?_)))))
  refine settled_bind (settled_mono (assertWithinRateLimits_settled _ _ _)
    fun trace _ hsteps => settled_withSecurityStorage ?_)
  refine settled_bind (settled_authRepository ⟨by simp [REGISTER_STEPS, hsteps], rfl⟩
    fun (existing : Option AccountRecord) => ?_)
  rcases existing with _ | existing
  · refine settled_bind (settled_hash ⟨by simp [REGISTER_STEPS, hsteps], trivial⟩
      fun passwordHash => ?_)
    refine settled_bind (settled_accountRepository
      ⟨by simp [REGISTER_STEPS, hsteps], rfl, List.mem_cons_self⟩ fun account => ?_)
    exact enqueueActivation_settled (by simp [hsteps]) (by simp [tellsAccount])
  · have htold : tellsAccount email ⟨.auth (.repository (.findAccountByEmail email)),
        Except.ok (some existing)⟩ = true := decide_eq_true rfl
    dsimp only
    split
    · exact settled_pure (by rw [List.any_cons, htold, Bool.true_or])
    · exact enqueueActivationIfAllowed_settled (by simp [hsteps])
        (by rw [List.any_cons, htold, Bool.true_or])

end

/-- What the steps of a call may be in a run of registrations. -/
def AccountCall.registrationMay (email : String) :
    AccountCall → AccountTrace → AccountStep → Prop
  | .register input _ => RegistrationMay email input.password
  | _ => fun _ _ => True

/-- A registration that has ended without an error knows an account of the e-mail. -/
def RegistrationEnds (email : String) : AccountTrace → AuthResult → Prop :=
  Settled fun trace value => value = .done ∧ trace.any (tellsAccount email) = true

theorem body_settled {config : AccountConfig} {email : String} {input : RegisterDto}
    (hinput : ValidRegistration config email input) (clientIp : String) :
    ((accountService config).body (.register input clientIp)).Obeys
      ((AccountCall.register input clientIp).registrationMay email)
      (RegistrationEnds email) [] :=
  settled_bind (settled_mono (register_settled hinput clientIp)
    fun _ _ htold => settled_pure ⟨rfl, htold⟩)

/-! ### What a step does to the accounts -/

def AccountStep.request? : AccountStep → Option (RateLimitDimension × CounterKey)
  | .auth (.redis (.incrementRateLimit operation dimension key _)) =>
      some (dimension, .rate operation dimension key)
  | _ => none

def AccountStep.inserts? : AccountStep → Option CreatePendingAccountInput
  | .repository (.createPendingAccount input) => some input
  | _ => none

/-- Nothing fails, the request is within its limit, and the id of a new account is fresh. -/
structure AccountStep.Regular (c : AccountStep) (o : AccountOutside) (s : AccountState) :
    Prop where
  fault : o.auth.fault = .none
  within : ∀ request ∈ c.request?,
    (s.auth.redis.count request.2).getD 0 < requestLimit request.1
  fresh : c.inserts?.isSome = true → ∀ a ∈ s.auth.db.users, a.id ≠ o.stamp.id

/-- An account is inserted only when its e-mail has none. -/
def AccountStep.InsertsFirst (s : AccountState) (c : AccountStep) : Prop :=
  ∀ input ∈ c.inserts?, ∀ a ∈ s.auth.db.users, a.email ≠ input.email

theorem incrEx_fst (redis : Redis) (key : CounterKey) (ttlSeconds : ℕ) :
    (redis.incrEx key ttlSeconds).1 = (redis.count key).getD 0 + 1 := by
  rw [Redis.incrEx]
  split
  · rename_i count hcount
    rw [hcount]
    rfl
  · rename_i hcount
    rw [hcount]
    rfl

def pendingAccount (input : CreatePendingAccountInput) (stamp : AccountStamp) :
    AccountRecord :=
  { id := stamp.id, email := input.email, status := .pending, role := .user
    passwordHash := input.passwordHash
    createdAt := stamp.createdAt, updatedAt := stamp.createdAt }

theorem createPendingAccountTx_ok {input : CreatePendingAccountInput} {stamp : AccountStamp}
    {db : AccountDb} (hid : ∀ a ∈ db.auth.users, a.id ≠ stamp.id)
    (hemail : ∀ a ∈ db.auth.users, a.email ≠ input.email) :
    (createPendingAccountTx input stamp).run db = .ok (pendingAccount input stamp,
      { db with auth := { db.auth with
          users := db.auth.users ++ [pendingAccount input stamp] } }) := by
  have hinsert : AccountDb.insertAccount (pendingAccount input stamp) db =
      .ok { db with auth := { db.auth with
        users := db.auth.users ++ [pendingAccount input stamp] } } := by
    rw [AccountDb.insertAccount, if_neg, if_neg]
    · simpa [pendingAccount] using hemail
    · simpa [pendingAccount] using hid
  exact Tx.run_write_eq_ok_iff.2 ⟨_, hinsert, rfl⟩

section

variable {email password : String} {trace : AccountTrace} {c : AccountStep}
  {o : AccountOutside} {s s' : AccountState} {r : c.Reply}

/-- What a step of a registration does: the accounts stay as they are and what it tells is
true, or the account of the e-mail is inserted with the hash of the password. -/
inductive Enrols (email password : String) (trace : AccountTrace)
    (x : Exchange AccountStep AccountStep.Reply) (users users' : List AccountRecord) : Prop where
  | same (husers : users' = users)
      (htells : tellsAccount email x = true → ∃ a ∈ users, a.email = email)
  | first (account : AccountRecord) (husers : users' = users ++ [account])
      (hemail : account.email = email) (hnone : ∀ a ∈ users, a.email ≠ email)
      (hhash : (⟨.hash password, account.passwordHash⟩ :
        Exchange AccountStep AccountStep.Reply) ∈ trace)

/-- A Redis command is answered, and a count that was below its limit does not exceed it. -/
theorem exec_redis_answered {c : RedisCommand} {a a' : AuthState} {o : AuthOutside}
    {r : AuthStep.Reply (.redis c)} (hfault : o.fault = .none)
    (h : Auth.exec (.redis c) o a = some (r, a'))
    (hcount : ∀ operation dimension key ttlSeconds,
      c = .incrementRateLimit operation dimension key ttlSeconds →
        (a.redis.count (.rate operation dimension key)).getD 0 < requestLimit dimension) :
    Answered ⟨.auth (.redis c), r⟩ := by
  have hr := (exec_redis_of_none hfault h).1
  cases c with
  | incrementRateLimit operation dimension key ttlSeconds =>
      refine ⟨_, hr, ?_⟩
      change (a.redis.incrEx (.rate operation dimension key) ttlSeconds).1 ≤ _
      rw [incrEx_fst]
      exact hcount _ _ _ _ rfl
  | _ => exact ⟨_, hr⟩

/-- What is no method of the repository keeps the tables. -/
theorem Acts.db_of_not_repository {c : AuthStep} {a a' : AuthState} (h : Acts a c a')
    (hc : ∀ cmd, c ≠ .repository cmd) : a'.db = a.db := by
  cases h with
  | idle c => rfl
  | committed c stamp r db hrun => exact absurd rfl (hc c)
  | executed c => rfl

/-- A step that tells nothing of an account and keeps the tables. -/
theorem Enrols.of_quiet {x : Exchange AccountStep AccountStep.Reply} {db db' : AuthDb}
    (htells : tellsAccount email x = false) (hdb : db' = db) :
    Enrols email password trace x db.users db'.users := by
  refine .same (by rw [hdb]) fun h => ?_
  rw [htells] at h
  cases h

theorem exec_auth_enrols {c : AuthStep} {r : c.Reply}
    (hmay : RegistrationMay email password trace (.auth c))
    (h : exec (.auth c) o s = some (r, s')) (hregular : (AccountStep.auth c).Regular o s) :
    Answered ⟨.auth c, r⟩ ∧
      Enrols email password trace ⟨.auth c, r⟩ s.auth.db.users s'.auth.db.users := by
  have hfault := hregular.fault
  have hexec := (exec_auth h).1
  have hdb := Acts.db_of_not_repository (exec_acts hexec)
  have hanswered : ∀ {r : Except StorageError Unit},
      o.auth.fault.apply s.auth ((.ok () : Except StorageError Unit), s.auth) = (r, s'.auth) →
      ∃ a, r = .ok a := fun hr => ⟨(), (Prod.mk.inj (by rwa [hfault] at hr)).1.symm⟩
  cases c with
  | now => exact ⟨trivial, .of_quiet rfl (hdb fun _ h => by cases h)⟩
  | generate secret => exact ⟨trivial, .of_quiet rfl (hdb fun _ h => by cases h)⟩
  | repository c =>
      obtain rfl : c = .findAccountByEmail email := hmay.2
      obtain ⟨account, hrun, rfl⟩ | ⟨e, hrun, -⟩ := exec_repository_of_none hfault hexec
      · have hfound : s.auth.db.findAccountByEmail email = account ∧ s.auth.db = s'.auth.db :=
          Prod.mk.inj (Except.ok.inj hrun)
        refine ⟨⟨account, rfl⟩, .same (by rw [hfound.2]) fun htells => ?_⟩
        cases account with
        | none => cases htells
        | some account =>
            exact ⟨account, List.mem_of_find?_eq_some hfound.1,
              by simpa using List.find?_some hfound.1⟩
      · cases hrun
  | redis c =>
      refine ⟨exec_redis_answered hfault hexec fun operation dimension key ttlSeconds hc => ?_,
        .of_quiet rfl (hdb fun _ h => by cases h)⟩
      subst hc
      exact hregular.within _ rfl
  | enqueue job =>
      exact ⟨hanswered (Option.some.inj hexec), .of_quiet rfl (hdb fun _ h => by cases h)⟩
  | sendMail mail =>
      exact ⟨hanswered (Option.some.inj hexec), .of_quiet rfl (hdb fun _ h => by cases h)⟩
  | audit event =>
      exact ⟨hanswered (Option.some.inj hexec), .of_quiet rfl (hdb fun _ h => by cases h)⟩

theorem exec_enrols (hmay : RegistrationMay email password trace c)
    (h : exec c o s = some (r, s')) (hregular : c.Regular o s) (hfirst : c.InsertsFirst s) :
    Answered ⟨c, r⟩ ∧
      Enrols email password trace ⟨c, r⟩ s.auth.db.users s'.auth.db.users := by
  cases c with
  | auth c => exact exec_auth_enrols hmay h hregular
  | hash password' =>
      cases h
      exact ⟨trivial, .of_quiet rfl rfl⟩
  | repository c =>
      cases c with
      | createPendingAccount input =>
          obtain ⟨hemail, hhash⟩ := hmay.2
          obtain ⟨hfault, -, hid⟩ := hregular
          have hfirst := hfirst input rfl
          have hrun : (createPendingAccountTx input o.stamp).run s.db = _ :=
            createPendingAccountTx_ok (hid rfl) hfirst
          obtain ⟨-, -, ⟨e, hrefused⟩ | ⟨e, hfailed⟩⟩ |
            ⟨a, db', -, hcommitted, rfl, ⟨-, rfl⟩ | ⟨hfault', -⟩⟩ := exec_repository_cases h
          · rw [hfault] at hrefused
            cases hrefused
          · cases hrun.symm.trans hfailed
          · cases hrun.symm.trans hcommitted
            exact ⟨⟨_, rfl⟩, .first (pendingAccount input o.stamp) rfl hemail
              (fun a ha => hemail ▸ hfirst a ha) hhash⟩
          · exact absurd hfault hfault'
      | _ => exact hmay.2.elim
  | redis c =>
      have hreply := Option.some.inj h
      rw [hregular.fault] at hreply
      obtain ⟨rfl, rfl⟩ := Prod.mk.inj hreply
      exact ⟨⟨_, rfl⟩, .of_quiet rfl rfl⟩
  | enqueuePasswordReset job =>
      have hreply := Option.some.inj h
      rw [hregular.fault] at hreply
      obtain ⟨rfl, rfl⟩ := Prod.mk.inj hreply
      exact ⟨⟨_, rfl⟩, .of_quiet rfl rfl⟩

end

theorem exec_isSome (c : AccountStep) (o : AccountOutside) (s : AccountState) :
    (exec c o s).isSome = true := by
  cases c with
  | auth c => cases c <;> rfl
  | _ => rfl

/-! ### Runs -/

/-- Only valid registrations of the e-mail, within the limits and without a failure. -/
def RegistrationRun (config : AccountConfig) (email : String) (σ : AccountPool) :
    AccountEvent → Prop
  | .spawn (.register input _) => ValidRegistration config email input
  | .spawn _ => False
  | .exec j o => ∀ c ∈ σ.next? j, c.Regular o σ.shared
  | .environment _ => True

/-- Every insert of an account finds none of its e-mail. -/
def InsertsInTurn (σ : AccountPool) : AccountEvent → Prop
  | .exec j _ => ∀ c ∈ σ.next? j, c.InsertsFirst σ.shared
  | _ => True

/-- The accounts of an e-mail. -/
def accountsOf (email : String) (users : List AccountRecord) : List AccountRecord :=
  users.filter fun a => a.email == email

/-- A registration that has not ended can go on and takes `REGISTER_STEPS` steps at most, and
its answer is the generic one. There is one account once a registration has ended, never more
than one, and its password hash has been drawn for one of the registrations. -/
structure RegisteredOnce (config : AccountConfig) (email : String) (σ : AccountPool) :
    Prop where
  generic : ∀ k r, σ.result? k = some r → r = .ok .done
  goesOn : ∀ k < σ.threads.length, σ.result? k = none →
    ∀ o, ((accountService config).step (.exec k o) σ).isSome = true
  steps : ∀ k, (traceOf σ.history k).length ≤ REGISTER_STEPS
  unique : (accountsOf email σ.shared.auth.db.users).length ≤ 1
  registered : ∀ k r, σ.result? k = some r →
    (accountsOf email σ.shared.auth.db.users).length = 1
  hashed : ∀ a ∈ accountsOf email σ.shared.auth.db.users, ∃ k input clientIp,
    σ.call? k = some (.register input clientIp) ∧
      (⟨k, .hash input.password, a.passwordHash⟩ : Entry AccountStep AccountStep.Reply) ∈
        σ.history

/-- Concurrent registrations of an e-mail are invisible to the clients. -/
def RegistrationsInvisible (config : AccountConfig)
    (ok : AccountPool → AccountEvent → Prop) (email : String) (s : AccountState) : Prop :=
  ∀ σ, (accountService config).Reaches ok (Pool.init s) σ → RegisteredOnce config email σ

/-! ### Two registrations at once -/

instance decidableValidRegistration (config : AccountConfig) (email : String)
    (input : RegisterDto) : Decidable (ValidRegistration config email input) :=
  decidable_of_iff (createEmail config.auth.toLowerCase input.email = some email ∧
      meetsPolicy input.password.toList = true ∧
      input.passwordConfirmation = input.password)
    ⟨fun h => ⟨h.1, h.2.1, h.2.2⟩, fun h => ⟨h.email, h.password, h.confirmation⟩⟩

instance decidableRegular (c : AccountStep) (o : AccountOutside) (s : AccountState) :
    Decidable (c.Regular o s) :=
  decidable_of_iff (o.auth.fault = .none ∧
      (∀ request ∈ c.request?,
        (s.auth.redis.count request.2).getD 0 < requestLimit request.1) ∧
      (c.inserts?.isSome = true → ∀ a ∈ s.auth.db.users, a.id ≠ o.stamp.id))
    ⟨fun h => ⟨h.1, h.2.1, h.2.2⟩, fun h => ⟨h.fault, h.within, h.fresh⟩⟩

instance decidableRegistrationRun (config : AccountConfig) (email : String)
    (σ : AccountPool) : ∀ x, Decidable (RegistrationRun config email σ x)
  | .spawn (.register input _) => decidableValidRegistration config email input
  | .spawn (.auth _) => isFalse id
  | .spawn (.verifyEmail _) => isFalse id
  | .spawn (.resendEmailVerification _ _) => isFalse id
  | .spawn (.requestPasswordReset _ _) => isFalse id
  | .spawn (.resetPassword _) => isFalse id
  | .spawn (.processVerificationCode _) => isFalse id
  | .spawn (.processPasswordReset _) => isFalse id
  | .exec j o => inferInstanceAs (Decidable (∀ c ∈ σ.next? j, c.Regular o σ.shared))
  | .environment _ => isTrue trivial

instance decidableInsertsInTurn (σ : AccountPool) : ∀ x, Decidable (InsertsInTurn σ x)
  | .spawn _ => isTrue trivial
  | .exec j _ => inferInstanceAs (Decidable (∀ c ∈ σ.next? j, ∀ input ∈ c.inserts?,
      ∀ a ∈ σ.shared.auth.db.users, a.email ≠ input.email))
  | .environment _ => isTrue trivial

/-- A registration is started as call `k`, and has hashed its password. -/
def registrationHashed (k : ℕ) (id : String) : List AccountEvent :=
  .spawn (.register ⟨"u@example.com", "Secret-1", "Secret-1"⟩ "") :: accountSteps k id 4

/-- Two registrations have found no account before either inserts its own. -/
def concurrentRegistrations : List AccountEvent :=
  registrationHashed 0 "a" ++ registrationHashed 1 "b" ++ accountSteps 0 "a" 5 ++
    accountSteps 1 "b" 1

set_option maxRecDepth 4000 in
/-- The insert of the second one violates the unique index. -/
theorem concurrent_registration_fails :
    ¬ RegistrationsInvisible exampleAccounts
      (RegistrationRun exampleAccounts "u@example.com") "u@example.com"
      (AccountState.init []) := by
  intro h
  have hrun : (accountService exampleAccounts).Reaches
      (RegistrationRun exampleAccounts "u@example.com") (Pool.init (AccountState.init []))
      ((accountService exampleAccounts).after concurrentRegistrations
        (Pool.init (AccountState.init []))) :=
    Semantics.reaches_after _ (by decide +kernel)
  have hgeneric := (h _ hrun).generic 1 (.error (.storage (uniqueViolation
    "IDX_97672ac88f789774dd47f7c8be" "email" "u@example.com"))) (by decide +kernel)
  cases hgeneric

/-! ### Inserts in turn -/

/-- What holds of the accounts and of the entries of the history. -/
structure Registering (email : String) (σ : AccountPool) : Prop where
  answered : ∀ e ∈ σ.history, Answered ⟨e.command, e.reply⟩
  told : ∀ e ∈ σ.history, tellsAccount email ⟨e.command, e.reply⟩ = true →
    ∃ a ∈ σ.shared.auth.db.users, a.email = email
  unique : (accountsOf email σ.shared.auth.db.users).length ≤ 1
  hashed : ∀ a ∈ accountsOf email σ.shared.auth.db.users, ∃ k input clientIp,
    σ.call? k = some (.register input clientIp) ∧
      (⟨k, .hash input.password, a.passwordHash⟩ : Entry AccountStep AccountStep.Reply) ∈
        σ.history
  steps : ∀ k, (traceOf σ.history k).length ≤ REGISTER_STEPS

section

variable {config : AccountConfig} {ok : AccountPool → AccountEvent → Prop}
  {email : String} {s : AccountState} {σ σ' : AccountPool}

theorem accountsOf_append_first {users : List AccountRecord} {a : AccountRecord}
    (ha : a.email = email) (hnone : ∀ b ∈ users, b.email ≠ email) :
    accountsOf email (users ++ [a]) = [a] := by
  have hfilter : accountsOf email users = [] :=
    List.filter_eq_nil_iff.2 fun b hb => by simpa using hnone b hb
  rw [accountsOf, List.filter_append, ← accountsOf, hfilter]
  simp [ha]

variable (hok : ∀ σ x, ok σ x → RegistrationRun config email σ x ∧ InsertsInTurn σ x)

include hok

theorem spawn_obeys (σ : AccountPool) (call : AccountCall) (h : ok σ (.spawn call)) :
    ((accountService config).body call).Obeys (call.registrationMay email)
      (RegistrationEnds email) [] := by
  have hrun := (hok σ _ h).1
  cases call with
  | register input clientIp => exact body_settled hrun clientIp
  | _ => exact hrun.elim

theorem call_register (h : (accountService config).Reaches ok (Pool.init s) σ) {k : ℕ}
    {call : AccountCall} {rest : Program AccountStep AccountStep.Reply AuthResult}
    (hk : σ.threads[k]? = some ⟨call, rest⟩) :
    ∃ input clientIp, call = .register input clientIp := by
  obtain ⟨σ₁, hspawn⟩ := h.spawned hk (Nat.zero_le k)
  have hrun := (hok σ₁ _ hspawn).1
  cases call with
  | register input clientIp => exact ⟨input, clientIp, rfl⟩
  | _ => exact hrun.elim

theorem fires_enrols (h : (accountService config).Reaches ok (Pool.init s) σ)
    {e : Entry AccountStep AccountStep.Reply}
    (he : (accountService config).Fires ok e σ σ') :
    ∃ input clientIp, σ.call? e.thread = some (.register input clientIp) ∧
      (traceOf σ.history e.thread).length < REGISTER_STEPS ∧ Answered ⟨e.command, e.reply⟩ ∧
      Enrols email input.password (traceOf σ.history e.thread) ⟨e.command, e.reply⟩
        σ.shared.auth.db.users σ'.shared.auth.db.users := by
  obtain ⟨call, rest, hi, hmay⟩ := he.allowed (AccountCall.registrationMay email)
    (fun _ => RegistrationEnds email) h (spawn_obeys hok)
  obtain ⟨input, clientIp, rfl⟩ := call_register hok h hi
  obtain ⟨o, hoko, hexec⟩ := he.exec
  have hnext : σ.next? e.thread = some e.command := by
    obtain ⟨call, next, hi, -⟩ := he.thread
    rw [Pool.next?, hi]
    rfl
  obtain ⟨hrun, hturn⟩ := hok _ _ hoko
  obtain ⟨hanswered, henrols⟩ := exec_enrols hmay hexec (hrun _ hnext) (hturn _ hnext)
  refine ⟨input, clientIp, ?_, hmay.1, hanswered, henrols⟩
  rw [Pool.call?, hi]
  rfl

omit hok

theorem Registering.congr (hσ : Registering email σ)
    (husers : σ'.shared.auth.db.users = σ.shared.auth.db.users)
    (hhistory : σ'.history = σ.history)
    (hcall : ∀ k call, σ.call? k = some call → σ'.call? k = some call) :
    Registering email σ' := by
  refine ⟨?_, ?_, ?_, fun a ha => ?_, ?_⟩
  · rw [hhistory]
    exact hσ.answered
  · rw [hhistory, husers]
    exact hσ.told
  · rw [husers]
    exact hσ.unique
  · rw [husers] at ha
    obtain ⟨k, input, clientIp, hk, hmem⟩ := hσ.hashed a ha
    exact ⟨k, input, clientIp, hcall k _ hk, hhistory ▸ hmem⟩
  · rw [hhistory]
    exact hσ.steps

/-- A step that is answered and enrols at most the account of the e-mail. -/
theorem Registering.fires (hσ : Registering email σ) {e : Entry AccountStep AccountStep.Reply}
    {input : RegisterDto} {clientIp : String} (hhistory : σ'.history = e :: σ.history)
    (hcall : ∀ k call, σ.call? k = some call → σ'.call? k = some call)
    (hk : σ.call? e.thread = some (.register input clientIp))
    (hsteps : (traceOf σ.history e.thread).length < REGISTER_STEPS)
    (hanswered : Answered ⟨e.command, e.reply⟩)
    (henrols : Enrols email input.password (traceOf σ.history e.thread)
      ⟨e.command, e.reply⟩ σ.shared.auth.db.users σ'.shared.auth.db.users) :
    Registering email σ' := by
  have hanswered' : ∀ e' ∈ σ'.history, Answered ⟨e'.command, e'.reply⟩ := by
    rw [hhistory]
    exact List.forall_mem_cons.2 ⟨hanswered, hσ.answered⟩
  have hsteps' : ∀ k, (traceOf σ'.history k).length ≤ REGISTER_STEPS := by
    intro k
    rw [hhistory]
    by_cases hthread : e.thread = k
    · subst hthread
      rw [traceOf_cons_self]
      exact hsteps
    · rw [traceOf_cons_of_ne hthread]
      exact hσ.steps k
  cases henrols with
  | same husers htells =>
      refine ⟨hanswered', ?_, husers ▸ hσ.unique, fun a ha => ?_, hsteps'⟩
      · rw [hhistory, husers]
        exact List.forall_mem_cons.2 ⟨htells, hσ.told⟩
      · rw [husers] at ha
        obtain ⟨k, input', clientIp', hk', hmem⟩ := hσ.hashed a ha
        exact ⟨k, input', clientIp', hcall k _ hk', hhistory ▸ List.mem_cons_of_mem _ hmem⟩
  | first account husers hemail hnone hhash =>
      have haccounts : accountsOf email σ'.shared.auth.db.users = [account] := by
        rw [husers]
        exact accountsOf_append_first hemail hnone
      refine ⟨hanswered', fun _ _ _ => ⟨account, ?_, hemail⟩, ?_, fun a ha => ?_, hsteps'⟩
      · rw [husers]
        exact List.mem_append_right _ List.mem_cons_self
      · rw [haccounts]
        exact Nat.le_refl 1
      · rw [haccounts] at ha
        obtain rfl := List.mem_singleton.1 ha
        exact ⟨e.thread, input, clientIp, hcall _ _ hk,
          hhistory ▸ List.mem_cons_of_mem _ (mem_traceOf.1 hhash)⟩

include hok

theorem Registering.step (h : (accountService config).Reaches ok (Pool.init s) σ)
    (hstep : (accountService config).Steps ok σ σ') (hσ : Registering email σ) :
    Registering email σ' := by
  have hcall : ∀ k call, σ.call? k = some call → σ'.call? k = some call :=
    fun _ _ hk => Semantics.Reaches.call? (.single hstep) hk
  cases hstep.moves with
  | spawn call hspawn hshared hthreads hhistory =>
      exact hσ.congr (by rw [hshared]) hhistory hcall
  | environment x henv hshared hthreads hhistory =>
      refine hσ.congr ?_ hhistory hcall
      rw [hshared]
      exact congrArg AuthDb.users (environment_idled x σ.shared).auth.db
  | exec e he =>
      obtain ⟨input, clientIp, hk, hsteps, hanswered, henrols⟩ := fires_enrols hok h he
      exact hσ.fires he.history hcall hk hsteps hanswered henrols

theorem Registering.reaches (hnone : ∀ a ∈ s.auth.db.users, a.email ≠ email)
    (h : (accountService config).Reaches ok (Pool.init s) σ) : Registering email σ := by
  induction h with
  | refl =>
      have haccounts : accountsOf email s.auth.db.users = [] :=
        List.filter_eq_nil_iff.2 fun a ha => by simpa using hnone a ha
      refine ⟨List.forall_mem_nil _, List.forall_mem_nil _, ?_, fun a ha => ?_,
        fun k => Nat.zero_le _⟩
      · exact (congrArg List.length haccounts).le.trans (Nat.zero_le 1)
      · exact absurd (haccounts ▸ ha : a ∈ []) List.not_mem_nil
  | tail hrun hstep ih => exact Registering.step hok hrun hstep ih

/-- A registration that has ended was answered generically and knows an account. -/
theorem Registering.ends (hσ : Registering email σ)
    (h : (accountService config).Reaches ok (Pool.init s) σ) {k : ℕ} {r : AuthResult}
    (hr : σ.result? k = some r) :
    r = .ok .done ∧ ∃ a ∈ σ.shared.auth.db.users, a.email = email := by
  obtain ⟨call, hk⟩ := (Pool.result?_eq_some_iff σ k r).1 hr
  have hends : RegistrationEnds email (traceOf σ.history k) r :=
    h.obeys (AccountCall.registrationMay email) (fun _ => RegistrationEnds email)
      (spawn_obeys hok) hk
  cases r with
  | error e =>
      obtain ⟨⟨c, r⟩, hx, hnot⟩ := hends
      exact absurd (hσ.answered _ (mem_traceOf.1 hx)) hnot
  | ok value =>
      obtain ⟨rfl, htold⟩ := hends
      obtain ⟨⟨c, r⟩, hx, htells⟩ := List.any_eq_true.1 htold
      exact ⟨rfl, hσ.told _ (mem_traceOf.1 hx) htells⟩

end

/-- A call that has not ended can execute its next step, whatever the outcome. -/
theorem step_isSome (config : AccountConfig) {σ : AccountPool} {k : ℕ}
    (hlt : k < σ.threads.length) (hr : σ.result? k = none) (o : AccountOutside) :
    ((accountService config).step (.exec k o) σ).isSome = true := by
  have hk := List.getElem?_eq_getElem hlt
  obtain ⟨call, rest, hth⟩ : ∃ call rest, σ.threads[k] = ⟨call, rest⟩ := ⟨_, _, rfl⟩
  rw [hth] at hk
  cases rest with
  | pure a => simp [Pool.result?, hk] at hr
  | call c next =>
      obtain ⟨⟨r, s'⟩, hexec⟩ := Option.isSome_iff_exists.1 (exec_isSome c o σ.shared)
      exact Option.isSome_iff_exists.2 ⟨_, ((accountService config).step_exec_iff k o σ _).2
        ⟨call, c, next, r, s', hk, hexec, rfl⟩⟩

/-- While every insert of an account finds none of its e-mail, concurrent registrations are
invisible to the clients. -/
theorem registrations_invisible_of_insertsInTurn (config : AccountConfig) (email : String)
    (s : AccountState) (hnone : ∀ a ∈ s.auth.db.users, a.email ≠ email) :
    RegistrationsInvisible config
      (fun σ x => RegistrationRun config email σ x ∧ InsertsInTurn σ x) email s := by
  intro σ h
  have hok : ∀ (σ : AccountPool) x, RegistrationRun config email σ x ∧ InsertsInTurn σ x →
      RegistrationRun config email σ x ∧ InsertsInTurn σ x := fun _ _ h => h
  have hσ : Registering email σ := Registering.reaches hok hnone h
  refine ⟨fun k r hr => (hσ.ends hok h hr).1, fun k hlt hr => step_isSome config hlt hr,
    hσ.steps, hσ.unique, fun k r hr => Nat.le_antisymm hσ.unique ?_, hσ.hashed⟩
  obtain ⟨a, ha, hemail⟩ := (hσ.ends hok h hr).2
  exact List.length_pos_of_mem (List.mem_filter.2 ⟨ha, by simpa using hemail⟩)

/-- A registration has ended before another one looks the e-mail up. -/
def laterRegistration : AccountPool :=
  (accountService exampleAccounts).after
    (registrationHashed 0 "a" ++ accountSteps 0 "a" 5 ++
      .spawn (.register ⟨"u@example.com", "Secret-2", "Secret-2"⟩ "") :: accountSteps 1 "b" 4)
    (Pool.init (AccountState.init []))

set_option maxRecDepth 4000 in
theorem later_registration_invisible :
    (laterRegistration.result? 0 = some (.ok .done) ∧
        laterRegistration.result? 1 = some (.ok .done)) ∧
      RegisteredOnce exampleAccounts "u@example.com" laterRegistration :=
  ⟨⟨by decide +kernel, by decide +kernel⟩,
    registrations_invisible_of_insertsInTurn exampleAccounts "u@example.com"
      (AccountState.init []) (List.forall_mem_nil _) laterRegistration
      (Semantics.reaches_after _ (by decide +kernel))⟩

end Account

end Shortlink

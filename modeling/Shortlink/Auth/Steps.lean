import Shortlink.Auth.Redis
import Shortlink.Auth.Repository
import Shortlink.Interaction.Trace

/-!
# The steps of the auth services

A call of the auth services is a program of steps: it reads the clock, draws a
secret, calls a method of the repository, issues a Redis command, puts a job on
the mail queue, hands a mail to the SMTP server or records an audit event. A
repository step executes its transaction alone; `Isolation.lean` says why this is
what the interleaved statements amount to.

The programs throw and catch errors as the services do, and the lemmas below say
how `Obeys` passes through the steps. Log lines are left out.
-/

namespace Shortlink

namespace Auth

open Shortlink.Storage Shortlink.Transaction Shortlink.Interaction
open Shortlink.Expiring

/-- The methods of the crypto service that draw random values. -/
inductive Secret where
  | verificationCode
  | challengeId
  | csrfToken
  | refreshToken
  | opaqueToken
  deriving DecidableEq

structure SendVerificationCodeJobData where
  purpose : AuthIssuancePurpose
  issuanceId : String
  userId : Option String
  challengeId : Option String
  deriving DecidableEq

structure Mail where
  recipient : String
  subject : String
  text : String
  html : String
  deriving DecidableEq

inductive AuthAuditEventType where
  | sessionCreated
  | loginLocked
  | loginFailure
  | passwordResetRequested
  | passwordResetCompleted
  deriving DecidableEq

structure RecordAuthAuditEventInput where
  type : AuthAuditEventType
  userId : String
  sessionId : Option String
  failures : Option ℕ
  deriving DecidableEq

inductive AuthStep where
  | now
  | generate (secret : Secret)
  | repository (c : AuthCommand)
  | redis (c : RedisCommand)
  | enqueue (job : SendVerificationCodeJobData)
  | sendMail (mail : Mail)
  | audit (event : RecordAuthAuditEventInput)

def AuthStep.Reply : AuthStep → Type
  | .now => ℕ
  | .generate _ => String
  | .repository c => Except StorageError c.Res
  | .redis c => Except StorageError c.Res
  | .enqueue _ => Except StorageError Unit
  | .sendMail _ => Except StorageError Unit
  | .audit _ => Except StorageError Unit

/-- The errors that the services throw: an HTTP exception with its body,
`AuthSecurityStorageUnavailableError`, `RefreshTokenReuseError`,
`InvalidRefreshTokenError`, or an error of the storage. -/
inductive AuthError where
  | http (status : ℕ) (code message : String) (retryAfter : Option ℕ)
      (errors : List (String × List String))
  | storageUnavailable
  | refreshTokenReuse
  | invalidRefreshToken
  | storage (e : StorageError)
  deriving DecidableEq

/-- A program of the services that ends with a value or an error. -/
abbrev AuthProgram (α : Type) : Type :=
  ExceptT AuthError (Program AuthStep AuthStep.Reply) α

abbrev AuthTrace : Type := List (Exchange AuthStep AuthStep.Reply)

/-- What the answers of the repository in a trace tell. -/
def told {β : Type} (f : (c : AuthCommand) → c.Res → List β) :
    AuthTrace → List β
  | [] => []
  | ⟨.repository c, Except.ok a⟩ :: trace => f c a ++ told f trace
  | _ :: trace => told f trace

theorem exists_of_mem_told {β : Type} {f : (c : AuthCommand) → c.Res → List β}
    {b : β} {trace : AuthTrace} (h : b ∈ told f trace) :
    ∃ c a, (⟨.repository c, .ok a⟩ : Exchange AuthStep AuthStep.Reply) ∈ trace ∧
      b ∈ f c a := by
  induction trace with
  | nil => cases h
  | cons x trace ih =>
      have hskip : b ∈ told f trace → ∃ c a, (⟨.repository c, .ok a⟩ :
          Exchange AuthStep AuthStep.Reply) ∈ x :: trace ∧ b ∈ f c a := by
        intro h
        obtain ⟨c, a, hmem, hb⟩ := ih h
        exact ⟨c, a, List.mem_cons_of_mem _ hmem, hb⟩
      match x with
      | ⟨.repository c, .ok a⟩ =>
          rcases List.mem_append.1 h with h | h
          · exact ⟨c, a, List.mem_cons_self, h⟩
          · exact hskip h
      | ⟨.repository c, .error e⟩ => exact hskip h
      | ⟨.now, t⟩ => exact hskip h
      | ⟨.generate secret, v⟩ => exact hskip h
      | ⟨.redis c, r⟩ => exact hskip h
      | ⟨.enqueue job, r⟩ => exact hskip h
      | ⟨.sendMail mail, r⟩ => exact hskip h
      | ⟨.audit event, r⟩ => exact hskip h

theorem mem_told {β : Type} {f : (c : AuthCommand) → c.Res → List β}
    {b : β} {trace : AuthTrace} {c : AuthCommand} {a : c.Res}
    (h : (⟨.repository c, .ok a⟩ : Exchange AuthStep AuthStep.Reply) ∈ trace)
    (hb : b ∈ f c a) : b ∈ told f trace := by
  induction trace with
  | nil => cases h
  | cons x trace ih =>
      rcases List.mem_cons.1 h with rfl | h
      · exact List.mem_append_left _ hb
      · have hrest := ih h
        match x with
        | ⟨.repository c, .ok a⟩ => exact List.mem_append_right _ hrest
        | ⟨.repository c, .error e⟩ => exact hrest
        | ⟨.now, t⟩ => exact hrest
        | ⟨.generate secret, v⟩ => exact hrest
        | ⟨.redis c, r⟩ => exact hrest
        | ⟨.enqueue job, r⟩ => exact hrest
        | ⟨.sendMail mail, r⟩ => exact hrest
        | ⟨.audit event, r⟩ => exact hrest

namespace AuthProgram

/-- `Date.now()`. -/
def now : AuthProgram ℕ :=
  ExceptT.mk (.call .now fun t => .pure (.ok t))

def generate (secret : Secret) : AuthProgram String :=
  ExceptT.mk (.call (.generate secret) fun value => .pure (.ok value))

def authRepository (c : AuthCommand) : AuthProgram c.Res :=
  ExceptT.mk (.call (.repository c) fun reply =>
    .pure (Except.mapError .storage reply))

/-- A Redis command under `safe`. -/
def redis (c : RedisCommand) : AuthProgram c.Res :=
  ExceptT.mk (.call (.redis c) fun reply =>
    .pure (Except.mapError (fun _ => .storageUnavailable) reply))

def enqueue (job : SendVerificationCodeJobData) : AuthProgram Unit :=
  ExceptT.mk (.call (.enqueue job) fun reply =>
    .pure (Except.mapError .storage reply))

def sendMail (mail : Mail) : AuthProgram Unit :=
  ExceptT.mk (.call (.sendMail mail) fun reply =>
    .pure (Except.mapError .storage reply))

def audit (event : RecordAuthAuditEventInput) : AuthProgram Unit :=
  ExceptT.mk (.call (.audit event) fun reply =>
    .pure (Except.mapError .storage reply))

section

variable {α β : Type} {may : AuthTrace → AuthStep → Prop}

/-- The program only issues steps that `may` allows, and ends as `ends`
allows. -/
def Obeys (p : AuthProgram α) (may : AuthTrace → AuthStep → Prop)
    (ends : AuthTrace → Except AuthError α → Prop) (trace : AuthTrace) : Prop :=
  Program.Obeys may ends trace p.run

variable {ends : AuthTrace → Except AuthError α → Prop} {trace : AuthTrace}

@[simp] theorem obeys_pure (a : α) :
    Obeys (pure a) may ends trace ↔ ends trace (.ok a) := Iff.rfl

@[simp] theorem obeys_throw (e : AuthError) :
    Obeys (throw e) may ends trace ↔ ends trace (.error e) := Iff.rfl

/-- A value ends as `value` allows, an error as `error` allows. -/
def either (value : AuthTrace → α → Prop) (error : AuthTrace → AuthError → Prop) :
    AuthTrace → Except AuthError α → Prop
  | trace, .ok a => value trace a
  | trace, .error e => error trace e

@[simp] theorem either_ok (value : AuthTrace → α → Prop)
    (error : AuthTrace → AuthError → Prop) (a : α) :
    either value error trace (.ok a) ↔ value trace a := Iff.rfl

@[simp] theorem either_error (value : AuthTrace → α → Prop)
    (error : AuthTrace → AuthError → Prop) (e : AuthError) :
    either value error trace (.error e : Except AuthError α) ↔
      error trace e := Iff.rfl

theorem Obeys.mono {ends' : AuthTrace → Except AuthError α → Prop}
    (hends : ∀ trace r, ends trace r → ends' trace r) {p : AuthProgram α}
    (h : p.Obeys may ends trace) : p.Obeys may ends' trace :=
  Program.Obeys.mono (fun _ _ hc => hc) hends h

@[simp] theorem obeys_bind {ends : AuthTrace → Except AuthError β → Prop}
    (p : AuthProgram α) (f : α → AuthProgram β) :
    Obeys (p >>= f) may ends trace ↔
      p.Obeys may (either (fun trace a => (f a).Obeys may ends trace)
        fun trace e => ends trace (.error e)) trace := by
  refine (Program.obeys_bind _ _).trans
    ⟨Obeys.mono fun trace r hr => ?_, Obeys.mono fun trace r hr => ?_⟩
  all_goals cases r <;> exact hr

@[simp] theorem obeys_map {ends : AuthTrace → Except AuthError β → Prop}
    (f : α → β) (p : AuthProgram α) :
    Obeys (f <$> p) may ends trace ↔
      p.Obeys may (either (fun trace a => ends trace (.ok (f a)))
        fun trace e => ends trace (.error e)) trace := by
  refine (Program.obeys_bind _ _).trans
    ⟨Obeys.mono fun trace r hr => ?_, Obeys.mono fun trace r hr => ?_⟩
  all_goals cases r <;> exact hr

@[simp] theorem obeys_tryCatch (p : AuthProgram α)
    (handle : AuthError → AuthProgram α) :
    Obeys (tryCatch p handle) may ends trace ↔
      p.Obeys may (either (fun trace a => ends trace (.ok a))
        fun trace e => (handle e).Obeys may ends trace) trace := by
  refine (Program.obeys_bind _ _).trans
    ⟨Obeys.mono fun trace r hr => ?_, Obeys.mono fun trace r hr => ?_⟩
  all_goals cases r <;> exact hr

@[simp] theorem obeys_ite (c : Prop) [Decidable c] (p q : AuthProgram α) :
    Obeys (if c then p else q) may ends trace ↔
      (c → p.Obeys may ends trace) ∧ (¬ c → q.Obeys may ends trace) := by
  split <;> simp_all

@[simp] theorem obeys_now {ends : AuthTrace → Except AuthError ℕ → Prop} :
    now.Obeys may ends trace ↔
      may trace .now ∧ ∀ t : ℕ, ends (⟨.now, t⟩ :: trace) (.ok t) := Iff.rfl

@[simp] theorem obeys_generate
    {ends : AuthTrace → Except AuthError String → Prop} (secret : Secret) :
    (generate secret).Obeys may ends trace ↔
      may trace (.generate secret) ∧
        ∀ v : String, ends (⟨.generate secret, v⟩ :: trace) (.ok v) := Iff.rfl

@[simp] theorem obeys_authRepository (c : AuthCommand)
    {ends : AuthTrace → Except AuthError c.Res → Prop} :
    (authRepository c).Obeys may ends trace ↔
      may trace (.repository c) ∧
        (∀ e, ends (⟨.repository c, .error e⟩ :: trace)
          (.error (.storage e))) ∧
        ∀ a, ends (⟨.repository c, .ok a⟩ :: trace) (.ok a) := by
  refine and_congr Iff.rfl ⟨fun h => ⟨fun e => h (.error e), fun a => h (.ok a)⟩,
    fun h r => ?_⟩
  match r with
  | .error e => exact h.1 e
  | .ok a => exact h.2 a

@[simp] theorem obeys_redis (c : RedisCommand)
    {ends : AuthTrace → Except AuthError c.Res → Prop} :
    (redis c).Obeys may ends trace ↔
      may trace (.redis c) ∧
        (∀ e, ends (⟨.redis c, .error e⟩ :: trace)
          (.error .storageUnavailable)) ∧
        ∀ a, ends (⟨.redis c, .ok a⟩ :: trace) (.ok a) := by
  refine and_congr Iff.rfl ⟨fun h => ⟨fun e => h (.error e), fun a => h (.ok a)⟩,
    fun h r => ?_⟩
  match r with
  | .error e => exact h.1 e
  | .ok a => exact h.2 a

end

end AuthProgram

/-! ### Redis and PostgreSQL -/

/-- The tables and the entries in Redis. Its clock is the clock of the calls. -/
structure AuthState where
  db : AuthDb
  redis : Redis

/-- The state of a fresh installation with these accounts. -/
def AuthState.init (users : List AccountRecord) : AuthState :=
  ⟨⟨users, [], []⟩, Store.empty 0⟩

/-- What a step takes from outside. -/
structure AuthOutside where
  stamp : Stamp
  generated : String
  fault : Fault

/-- What happens without a call: time passes, Redis evicts an entry. -/
inductive AuthEnvironment where
  | tick (milliseconds : ℕ)
  | evict (key : RedisKey)

/-- A method of the repository: its transaction, executed alone. -/
def execTransaction (c : AuthCommand) (stamp : Stamp) (s : AuthState) :
    Except StorageError c.Res × AuthState :=
  match (c.impl stamp).run s.db with
  | .ok (a, db) => (.ok a, { s with db })
  | .error e => (.error e, s)

def execRedis (c : RedisCommand) (s : AuthState) :
    Except StorageError c.Res × AuthState :=
  let (reply, redis) := c.apply s.redis
  (.ok reply, { s with redis })

def exec : (c : AuthStep) → AuthOutside → AuthState →
    Option (c.Reply × AuthState)
  | .now, _, s => some (s.redis.now, s)
  | .generate _, o, s => some (o.generated, s)
  | .repository c, o, s => some (o.fault.apply s (execTransaction c o.stamp s))
  | .redis c, o, s => some (o.fault.apply s (execRedis c s))
  | .enqueue _, o, s => some (o.fault.apply s (.ok (), s))
  | .sendMail _, o, s => some (o.fault.apply s (.ok (), s))
  | .audit _, o, s => some (o.fault.apply s (.ok (), s))

def environment : AuthEnvironment → AuthState → AuthState
  | .tick n, s => { s with redis := s.redis.tick n }
  | .evict key, s => { s with redis := s.redis.del key }

/-- Calls with these programs, executed concurrently. -/
def concurrently {Call α : Type} (body : Call → Program AuthStep AuthStep.Reply α) :
    Semantics AuthStep AuthStep.Reply Call α AuthState AuthOutside AuthEnvironment where
  body := body
  exec := exec
  environment := environment

end Auth

end Shortlink

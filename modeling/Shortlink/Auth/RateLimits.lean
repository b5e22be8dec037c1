import Shortlink.Auth.Service
import Shortlink.Interaction.TwoRuns

/-!
# Rate limits

The rate counters are a part of Redis that only the rate limits read and write: what
`incrementRateLimit` answers and leaves behind depends on this part alone
(`rateLimits_increment`). The rules in front of it follow a program whose steps do not
fail, each call at one instant.
-/

namespace Shortlink

namespace Auth

open Shortlink.Storage Shortlink.Transaction Shortlink.Interaction Shortlink.Expiring

/-! ### Steps that do not fail -/

def storageWorks (_ : AuthStep) (o : AuthOutside) (_ : AuthState) : Prop := o.fault = .none

/-- The error that `withSecurityStorage` throws. -/
def secured : AuthError → AuthError
  | .storageUnavailable => securityStorageUnavailableException
  | e => e

namespace AuthProgram

variable {α : Type} {config : AuthConfig} {s : AuthState}

/-- Every execution of the program at one instant ends as `ends` says. -/
def Yields (config : AuthConfig) (ends : Except AuthError α → AuthState → Prop)
    (p : AuthProgram α) (s : AuthState) : Prop :=
  Throwing.Yields (authService config) storageWorks ends p s

theorem yields_step {β : Type} {p : AuthProgram β} (c : AuthStep)
    {g : c.Reply → Except AuthError β} (hp : p.run = .call c fun r => .pure (g r))
    {f : β → AuthProgram α} {ends : Except AuthError α → AuthState → Prop}
    (h : ∀ o r s', o.fault = .none → exec c o s = some (r, s') →
      match g r with
      | .ok b => (f b).Yields config ends s'
      | .error e => ends (.error e) s') : (p >>= f).Yields config ends s := by
  refine Throwing.yields_bind.2 ?_
  rw [Throwing.Yields, hp]
  refine Semantics.still_ensures_call.2 fun o r s' hok hexec =>
    Semantics.still_ensures_pure.2 ?_
  have hr := h o r s' hok hexec
  generalize g r = b at hr
  cases b <;> exact hr

variable {ends : Except AuthError α → AuthState → Prop}

theorem yields_withSecurityStorage {p : AuthProgram α} :
    (AuthService.withSecurityStorage p).Yields config ends s ↔
      p.Yields config (fun r => ends (r.mapError secured)) s := by
  refine Throwing.yields_tryCatch.trans ⟨fun h => h.mono fun r s' hr => ?_,
    fun h => Throwing.Yields.mono h fun r s' hr => ?_⟩
  · cases r with
    | ok a => exact hr
    | error e => cases e <;> exact Throwing.yields_throw.1 hr
  · cases r with
    | ok a => exact hr
    | error e => cases e <;> exact Throwing.yields_throw.2 hr

theorem yields_generate {secret : Secret} {f : String → AuthProgram α}
    (h : ∀ value, (f value).Yields config ends s) :
    (generate secret >>= f).Yields config ends s :=
  yields_step (.generate secret) rfl fun o r s' _ hexec => by
    cases hexec
    exact h _

theorem yields_redis {c : RedisCommand} {f : c.Res → AuthProgram α}
    (h : (f (c.apply s.redis).1).Yields config ends
      { s with redis := (c.apply s.redis).2 }) :
    (redis c >>= f).Yields config ends s :=
  yields_step (.redis c) rfl fun o r s' hok hexec => by
    obtain ⟨stamp, generated, fault⟩ := o
    obtain rfl : fault = .none := hok
    cases hexec
    exact h

theorem yields_incrementRateLimit {operation : String} {dimension : RateLimitDimension}
    {hash : String} {ttlSeconds : ℕ} {f : ℕ → AuthProgram α}
    (h : (f (INCREMENT_RATE_LIMIT_LUA operation dimension hash ttlSeconds
      s.redis).1).Yields config ends { s with redis :=
        (INCREMENT_RATE_LIMIT_LUA operation dimension hash ttlSeconds s.redis).2 }) :
    (RedisAuthStateService.incrementRateLimit operation dimension hash ttlSeconds >>=
      f).Yields config ends s :=
  yields_redis h

theorem yields_incrementFailedLogin {userId : String} {f : FailedLoginResult → AuthProgram α}
    (h : (f (INCREMENT_FAILED_LOGIN_LUA userId s.redis).1).Yields config ends
      { s with redis := (INCREMENT_FAILED_LOGIN_LUA userId s.redis).2 }) :
    (RedisAuthStateService.incrementFailedLogin userId >>= f).Yields config ends s :=
  yields_redis h

theorem yields_findAccountByEmail {email : String} {f : Option AccountRecord → AuthProgram α}
    (h : (f (s.db.findAccountByEmail email)).Yields config ends s) :
    (authRepository (.findAccountByEmail email) >>= f).Yields config ends s :=
  yields_step (.repository (.findAccountByEmail email)) rfl fun o r s' hok hexec => by
    obtain ⟨stamp, generated, fault⟩ := o
    obtain rfl : fault = .none := hok
    cases hexec
    exact h

theorem yields_audit {event : RecordAuthAuditEventInput} {f : Unit → AuthProgram α}
    (h : (f ()).Yields config ends s) : (audit event >>= f).Yields config ends s :=
  yields_step (.audit event) rfl fun o r s' hok hexec => by
    obtain ⟨stamp, generated, fault⟩ := o
    obtain rfl : fault = .none := hok
    cases hexec
    exact h

end AuthProgram

/-! ### The rate counters -/

def RedisKey.isRate : RedisKey → Bool
  | .counter (.rate _ _ _) => true
  | _ => false

/-- The rate counters and the clock. -/
def Redis.rateLimits (redis : Redis) : Redis :=
  { redis with cell := fun key => if key.isRate then redis.cell key else none }

section

variable {redis redis' : Redis}

theorem Redis.rateLimits_congr (hnow : redis'.now = redis.now)
    (h : ∀ key : RedisKey, key.isRate = true → redis'.cell key = redis.cell key) :
    redis'.rateLimits = redis.rateLimits := by
  rw [Redis.rateLimits, Redis.rateLimits, hnow]
  congr 1
  funext key
  split
  · exact h key ‹_›
  · rfl

theorem RedisCommand.rateLimits_apply {c : RedisCommand}
    (hc : ∀ key : RedisKey, key.isRate = true → ¬ c.Writes key) :
    (c.apply redis).2.rateLimits = redis.rateLimits :=
  Redis.rateLimits_congr (c.apply_now redis) fun key hkey =>
    RedisCommand.cell_apply_of_not_writes redis (hc key hkey)

/-- A rate counter is counted up among the rate counters. -/
theorem rateLimits_increment (operation : String) (dimension : RateLimitDimension)
    (hash : String) (ttlSeconds : ℕ) (redis : Redis) :
    INCREMENT_RATE_LIMIT_LUA operation dimension hash ttlSeconds redis.rateLimits =
      ((INCREMENT_RATE_LIMIT_LUA operation dimension hash ttlSeconds redis).1,
        (INCREMENT_RATE_LIMIT_LUA operation dimension hash ttlSeconds redis).2.rateLimits) := by
  have hcount : redis.rateLimits.count (.rate operation dimension hash) =
      redis.count (.rate operation dimension hash) := rfl
  have hcell : ∀ entry, (⟨redis.now, Function.update redis.rateLimits.cell
      (.counter (.rate operation dimension hash)) entry⟩ : Redis) =
        Redis.rateLimits ⟨redis.now, Function.update redis.cell
          (.counter (.rate operation dimension hash)) entry⟩ := by
    intro entry
    simp only [Redis.rateLimits]
    congr 1
    funext key
    by_cases hkey : key = .counter (.rate operation dimension hash)
    · subst hkey
      simp [RedisKey.isRate]
    · simp [Function.update_of_ne hkey]
  simp only [INCREMENT_RATE_LIMIT_LUA, Redis.incrEx, hcount]
  cases redis.count (.rate operation dimension hash) with
  | none => exact Prod.ext rfl (hcell _)
  | some count => exact Prod.ext rfl (hcell _)

end

end Auth

end Shortlink

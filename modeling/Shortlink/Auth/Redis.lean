import Shortlink.Expiring.Store

/-!
# The auth state in Redis

The entries of `redis-auth-state.service.ts`, the commands it issues and its Lua
scripts, each of them atomic. A key is named by the function that builds its
text and by the arguments of this function.
-/

namespace Shortlink

namespace Auth

open Shortlink.Expiring

inductive AuthIssuancePurpose where
  | activation
  | login
  | reset
  deriving DecidableEq

inductive RateLimitDimension where
  | email
  | ip
  deriving DecidableEq

structure LoginChallengePayload where
  userId : String
  codeHmac : String
  expiresAtMs : ℕ
  used : Bool
  deriving DecidableEq

/-- `SessionCacheRecord`; the entry `SessionCachePayload` has the same fields. -/
structure SessionCacheRecord where
  sessionId : String
  userId : String
  role : String
  expiresAt : ℕ
  active : Bool
  deriving DecidableEq

inductive ConsumeLoginChallengeResult where
  | consumed (userId : String)
  | invalid
  | missing
  deriving DecidableEq

structure FailedLoginResult where
  failures : ℕ
  locked : Bool
  deriving DecidableEq

def TTL_ONE_HOUR_SECONDS : ℕ := 3600

def MAX_FAILED_LOGINS : ℕ := 5

/-- The keys of the entries that `INCR` counts up. -/
inductive CounterKey where
  | failedLogin (userId : String)
  | rate (operation : String) (dimension : RateLimitDimension) (hash : String)
  deriving DecidableEq

inductive RedisKey where
  | issuance (purpose : AuthIssuancePurpose) (subjectId : String)
  | loginChallenge (challengeId : String)
  | loginChallengeAccount (userId : String)
  | counter (key : CounterKey)
  | loginLock (userId : String)
  | session (sessionId : String)
  deriving DecidableEq

namespace RedisKey

def Value : RedisKey → Type
  | .issuance _ _ => String
  | .loginChallenge _ => LoginChallengePayload
  | .loginChallengeAccount _ => String
  | .counter _ => ℕ
  | .loginLock _ => Unit
  | .session _ => SessionCacheRecord

end RedisKey

instance decidableNeLoginLock (key : RedisKey) : Decidable (∀ userId, key ≠ .loginLock userId) :=
  match key with
  | .loginLock owner => isFalse fun h => h owner rfl
  | .issuance _ _ => isTrue fun _ => of_decide_eq_false rfl
  | .loginChallenge _ => isTrue fun _ => of_decide_eq_false rfl
  | .loginChallengeAccount _ => isTrue fun _ => of_decide_eq_false rfl
  | .counter _ => isTrue fun _ => of_decide_eq_false rfl
  | .session _ => isTrue fun _ => of_decide_eq_false rfl

abbrev Redis : Type := Store RedisKey RedisKey.Value

/-- `SET key value EX ttlSeconds`. -/
def Redis.setEx (redis : Redis) (key : RedisKey) (value : key.Value)
    (ttlSeconds : ℕ) : Redis :=
  redis.set key value (ttlSeconds * 1000)

/-- `GET` of a counter. -/
def Redis.count (redis : Redis) (key : CounterKey) : Option ℕ :=
  redis.get (.counter key)

/-- `INCR`, followed by `EXPIRE` when the counter has just been created. -/
def Redis.incrEx (redis : Redis) (key : CounterKey) (ttlSeconds : ℕ) :
    ℕ × Redis :=
  match redis.count key with
  | some count =>
      (count + 1, redis.modify (.counter key) fun count : ℕ => count + 1)
  | none => (1, redis.setEx (.counter key) (1 : ℕ) ttlSeconds)

/-- A pending challenge of the account is deleted, and the new one takes its
place. -/
def CREATE_LOGIN_CHALLENGE_LUA (userId challengeId : String)
    (payload : LoginChallengePayload) (redis : Redis) : Redis :=
  let cleared : Redis := match redis.get (.loginChallengeAccount userId) with
    | some previousChallengeId => redis.del (.loginChallenge previousChallengeId)
    | none => redis
  (cleared.setEx (.loginChallenge challengeId) payload
    TTL_ONE_HOUR_SECONDS).setEx (.loginChallengeAccount userId) challengeId
      TTL_ONE_HOUR_SECONDS

def CONSUME_LOGIN_CHALLENGE_LUA (challengeId codeHmac : String) (nowMs : ℕ)
    (redis : Redis) : ConsumeLoginChallengeResult × Redis :=
  match redis.get (.loginChallenge challengeId) with
  | none => (.missing, redis)
  | some payload =>
      if payload.used then (.missing, redis)
      else if payload.codeHmac ≠ codeHmac then (.invalid, redis)
      else if nowMs > payload.expiresAtMs then
        (.missing, redis.del (.loginChallenge challengeId))
      else
        (.consumed payload.userId, redis.del (.loginChallenge challengeId))

def INCREMENT_FAILED_LOGIN_LUA (userId : String) (redis : Redis) :
    FailedLoginResult × Redis :=
  let (failures, counted) :=
    redis.incrEx (.failedLogin userId) TTL_ONE_HOUR_SECONDS
  if failures ≥ MAX_FAILED_LOGINS then
    (⟨failures, true⟩,
      counted.setEx (.loginLock userId) () TTL_ONE_HOUR_SECONDS)
  else
    (⟨failures, false⟩, counted)

def INCREMENT_RATE_LIMIT_LUA (operation : String)
    (dimension : RateLimitDimension) (hash : String) (ttlSeconds : ℕ)
    (redis : Redis) : ℕ × Redis :=
  redis.incrEx (.rate operation dimension hash) ttlSeconds

/-- The commands of the service, each a Redis command or a script. -/
inductive RedisCommand where
  | get (key : RedisKey)
  | existsKey (key : RedisKey)
  | set (key : RedisKey) (value : key.Value) (ttlSeconds : ℕ)
  | del (key : RedisKey)
  | createLoginChallenge (userId challengeId : String)
      (payload : LoginChallengePayload)
  | consumeLoginChallenge (challengeId codeHmac : String) (nowMs : ℕ)
  | incrementFailedLogin (userId : String)
  | incrementRateLimit (operation : String) (dimension : RateLimitDimension)
      (hash : String) (ttlSeconds : ℕ)

namespace RedisCommand

def Res : RedisCommand → Type
  | .get key => Option key.Value
  | .existsKey _ => Bool
  | .set _ _ _ => Unit
  | .del _ => Unit
  | .createLoginChallenge _ _ _ => Unit
  | .consumeLoginChallenge _ _ _ => ConsumeLoginChallengeResult
  | .incrementFailedLogin _ => FailedLoginResult
  | .incrementRateLimit _ _ _ _ => ℕ

/-- The reply and the entries after a command. -/
def apply : (c : RedisCommand) → Redis → c.Res × Redis
  | .get key, redis => (redis.get key, redis)
  | .existsKey key, redis => ((redis.get key).isSome, redis)
  | .set key value ttlSeconds, redis =>
      ((), redis.setEx key value ttlSeconds)
  | .del key, redis => ((), redis.del key)
  | .createLoginChallenge userId challengeId payload, redis =>
      ((), CREATE_LOGIN_CHALLENGE_LUA userId challengeId payload redis)
  | .consumeLoginChallenge challengeId codeHmac nowMs, redis =>
      CONSUME_LOGIN_CHALLENGE_LUA challengeId codeHmac nowMs redis
  | .incrementFailedLogin userId, redis =>
      INCREMENT_FAILED_LOGIN_LUA userId redis
  | .incrementRateLimit operation dimension hash ttlSeconds, redis =>
      INCREMENT_RATE_LIMIT_LUA operation dimension hash ttlSeconds redis

/-- The entries that a command may write or delete. -/
def Writes : RedisCommand → RedisKey → Prop
  | .get _, _ => False
  | .existsKey _, _ => False
  | .set key _ _, k => k = key
  | .del key, k => k = key
  | .createLoginChallenge userId _ _, k =>
      (∃ challengeId, k = .loginChallenge challengeId) ∨
        k = .loginChallengeAccount userId
  | .consumeLoginChallenge challengeId _ _, k => k = .loginChallenge challengeId
  | .incrementFailedLogin userId, k =>
      k = .counter (.failedLogin userId) ∨ k = .loginLock userId
  | .incrementRateLimit operation dimension hash _, k =>
      k = .counter (.rate operation dimension hash)

end RedisCommand

/-! ### What a command leaves alone -/

theorem CREATE_LOGIN_CHALLENGE_LUA_now (userId challengeId : String)
    (payload : LoginChallengePayload) (redis : Redis) :
    (CREATE_LOGIN_CHALLENGE_LUA userId challengeId payload redis).now =
      redis.now := by
  simp only [CREATE_LOGIN_CHALLENGE_LUA, Redis.setEx]
  split <;> rfl

theorem Redis.incrEx_now (redis : Redis) (key : CounterKey) (ttlSeconds : ℕ) :
    (redis.incrEx key ttlSeconds).2.now = redis.now := by
  simp only [Redis.incrEx]
  split <;> rfl

theorem RedisCommand.apply_now (c : RedisCommand) (redis : Redis) :
    (c.apply redis).2.now = redis.now := by
  cases c with
  | get key => rfl
  | existsKey key => rfl
  | set key value ttlSeconds => rfl
  | del key => rfl
  | createLoginChallenge userId challengeId payload =>
      exact CREATE_LOGIN_CHALLENGE_LUA_now userId challengeId payload redis
  | consumeLoginChallenge challengeId codeHmac nowMs =>
      simp only [RedisCommand.apply, CONSUME_LOGIN_CHALLENGE_LUA]
      split
      · rfl
      · split <;> [rfl; split <;> [rfl; split <;> rfl]]
  | incrementFailedLogin userId =>
      have hnow := redis.incrEx_now (.failedLogin userId) TTL_ONE_HOUR_SECONDS
      simp only [RedisCommand.apply, INCREMENT_FAILED_LOGIN_LUA]
      split <;> exact hnow
  | incrementRateLimit operation dimension hash ttlSeconds =>
      exact redis.incrEx_now (.rate operation dimension hash) ttlSeconds

theorem Redis.get_setEx_of_ne (redis : Redis) {key k : RedisKey}
    (value : key.Value) (ttlSeconds : ℕ) (h : k ≠ key) :
    (redis.setEx key value ttlSeconds).get k = redis.get k :=
  Store.get_set_of_ne redis value _ h

theorem Redis.cell_setEx_of_ne (redis : Redis) {key k : RedisKey}
    (value : key.Value) (ttlSeconds : ℕ) (h : k ≠ key) :
    (redis.setEx key value ttlSeconds).cell k = redis.cell k :=
  Store.cell_set_of_ne redis value _ h

theorem Redis.cell_incrEx_of_ne (redis : Redis) {key : CounterKey} {k : RedisKey}
    (ttlSeconds : ℕ) (h : k ≠ .counter key) :
    (redis.incrEx key ttlSeconds).2.cell k = redis.cell k := by
  simp only [Redis.incrEx]
  split
  · exact Store.cell_modify_of_ne redis _ h
  · exact redis.cell_setEx_of_ne _ _ h

theorem Redis.cell_incrEx_of_none {redis : Redis} {key : CounterKey} (ttlSeconds : ℕ)
    (h : redis.count key = none) :
    (redis.incrEx key ttlSeconds).2.cell (.counter key) =
      some ((1 : ℕ), redis.now + ttlSeconds * 1000) := by
  rw [Redis.incrEx, h]
  exact Store.cell_set_self redis _ _

theorem Redis.cell_incrEx_of_some {redis : Redis} {key : CounterKey} {count expiresAt : ℕ}
    (ttlSeconds : ℕ) (h : redis.count key = some count)
    (hcell : redis.cell (.counter key) = some (count, expiresAt)) :
    (redis.incrEx key ttlSeconds).2.cell (.counter key) =
      some (count + 1, expiresAt) := by
  rw [Redis.incrEx, h]
  refine (Store.cell_modify_self redis _).trans ?_
  rw [hcell]
  rfl

theorem CONSUME_LOGIN_CHALLENGE_LUA_cell_of_ne (redis : Redis) {k : RedisKey}
    {challengeId : String} (codeHmac : String) (nowMs : ℕ)
    (h : k ≠ .loginChallenge challengeId) :
    (CONSUME_LOGIN_CHALLENGE_LUA challengeId codeHmac nowMs redis).2.cell k =
      redis.cell k := by
  simp only [CONSUME_LOGIN_CHALLENGE_LUA]
  split
  · rfl
  split
  · rfl
  split
  · rfl
  split <;> exact Store.cell_del_of_ne redis h

theorem RedisCommand.cell_apply_of_not_writes {c : RedisCommand} {k : RedisKey}
    (redis : Redis) (h : ¬ c.Writes k) :
    (c.apply redis).2.cell k = redis.cell k := by
  cases c with
  | get key => rfl
  | existsKey key => rfl
  | set key value ttlSeconds => exact redis.cell_setEx_of_ne value ttlSeconds h
  | del key => exact Store.cell_del_of_ne redis h
  | createLoginChallenge userId challengeId payload =>
      simp only [RedisCommand.Writes, not_or, not_exists] at h
      refine (Redis.cell_setEx_of_ne _ _ _ h.2).trans
        ((Redis.cell_setEx_of_ne _ _ _ (h.1 challengeId)).trans ?_)
      split
      · exact Store.cell_del_of_ne redis (h.1 _)
      · rfl
  | consumeLoginChallenge challengeId codeHmac nowMs =>
      exact CONSUME_LOGIN_CHALLENGE_LUA_cell_of_ne redis codeHmac nowMs h
  | incrementFailedLogin userId =>
      simp only [RedisCommand.Writes, not_or] at h
      simp only [RedisCommand.apply, INCREMENT_FAILED_LOGIN_LUA]
      split
      · exact (Redis.cell_setEx_of_ne _ _ _ h.2).trans
          (redis.cell_incrEx_of_ne _ h.1)
      · exact redis.cell_incrEx_of_ne _ h.1
  | incrementRateLimit operation dimension hash ttlSeconds =>
      exact redis.cell_incrEx_of_ne _ h

theorem RedisCommand.get_apply_of_not_writes {c : RedisCommand} {k : RedisKey}
    (redis : Redis) (h : ¬ c.Writes k) :
    (c.apply redis).2.get k = redis.get k :=
  Store.get_congr (c.apply_now redis) (RedisCommand.cell_apply_of_not_writes redis h)

end Auth

end Shortlink

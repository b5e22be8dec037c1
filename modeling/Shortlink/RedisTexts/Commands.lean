import Shortlink.Account.RedisKeys
import Shortlink.Expiring.Keyspace
import Shortlink.Links.Service
import Shortlink.RedisTexts.Payload

/-!
# The Redis commands on texts

The commands of `redis-auth-state.service.ts` and `redis-link-resolution-cache.service.ts` as
the server executes them: keys and values are texts, and a script works on the decoded JSON
of an entry. A command is `none` when the server answers with an error or the service throws.

The JSON functions and `tostring` of the server's Lua are parameters. An entry that is no
object is an error of a script, and the coercions of Lua between texts and numbers are left
out.
-/

namespace Shortlink

namespace RedisTexts

open Shortlink.Json Shortlink.Expiring Shortlink.Auth Shortlink.Account Shortlink.Links

/-- Numbers below this one keep all their digits in Lua's `%.14g`. -/
def LUA_LIMIT : ℕ := 10 ^ 14

/-- `cjson.decode`, `cjson.encode` of a table and `tostring` of a number. A table has no
order, so its text may have its members in any order. -/
structure LuaRuntime where
  decode : String → Option Value
  encode : List (String × Value) → String
  tostring : ℚ → String
  decode_of_parse : ∀ text v, parse text = some v → decode text = some v
  parse_encode : ∀ (fields : Record) (members : List (String × Value)),
    members.Perm fields.members → (fields.map (·.1)).Nodup →
      (∀ name n, (name, Scalar.number n) ∈ fields → n < LUA_LIMIT) →
        ∃ members' : List (String × Value), members'.Perm fields.members ∧
          parse (encode members) = some (.object members')
  tostring_natural : ∀ n < LUA_LIMIT, tostring n = Nat.repr n

/-! ### Scripts -/

/-- Whether a condition of Lua takes the value for true. -/
def truthy : Option Value → Bool
  | none => false
  | some (.bool b) => b
  | some _ => true

/-- `value == text`. -/
def equalsText (value : Option Value) (text : String) : Bool := string? value = some text

/-- `(value or 0) + 1`. -/
def countUp : Option Value → Option ℚ
  | none | some (.bool false) => some 1
  | some (.number q) => some (q + 1)
  | some _ => none

/-- Whether `nowMs > tonumber(value)` for a value that is there. -/
def isPast (nowMs : ℕ) : Option Value → Option Bool
  | none | some (.bool false) => some false
  | some (.number q) => some (q < nowMs)
  | some _ => none

def setMember (name : String) (value : Value) (members : List (String × Value)) :
    List (String × Value) :=
  if members.any (fun member => member.1 == name) then
    members.map fun member => if member.1 = name then (name, value) else member
  else members ++ [(name, value)]

def decodeTable (lua : LuaRuntime) (raw : String) : Option (List (String × Value)) :=
  match lua.decode raw with
  | some (.object members) => some members
  | _ => none

def CONSUME_ACTIVATION_LUA (lua : LuaRuntime) (key codeHmac : String) (texts : Keyspace) :
    Option (List String × Keyspace) :=
  match texts.get key with
  | none => some (["missing"], texts)
  | some raw => do
      let payload ← decodeTable lua raw
      if equalsText ((Value.object payload).get? "codeHmac") codeHmac then
        return (["consumed"], texts.del key)
      else
        let attempts ← countUp ((Value.object payload).get? "attempts")
        let payload := setMember "attempts" (.number attempts) payload
        return (["invalid", lua.tostring attempts], texts.setKeepTtl key (lua.encode payload))

def CONSUME_LOGIN_CHALLENGE_LUA (lua : LuaRuntime) (key codeHmac : String) (nowMs : ℕ)
    (texts : Keyspace) : Option (List String × Keyspace) :=
  match texts.get key with
  | none => some (["missing"], texts)
  | some raw => do
      let payload ← decodeTable lua raw
      if truthy ((Value.object payload).get? "used") then return (["missing"], texts)
      else if ¬ equalsText ((Value.object payload).get? "codeHmac") codeHmac then
        return (["invalid"], texts)
      else
        let past ← isPast nowMs ((Value.object payload).get? "expiresAtMs")
        if past then return (["missing"], texts.del key)
        else return ("consumed" :: (string? ((Value.object payload).get? "userId")).toList,
          texts.del key)

def CREATE_LOGIN_CHALLENGE_LUA (accountKey challengeKey payload : String) (ttlSeconds : ℕ)
    (challengeId keyPrefix : String) (texts : Keyspace) : Option Keyspace := do
  let cleared := match texts.get accountKey with
    | some previousChallengeId => texts.del (keyPrefix ++ previousChallengeId)
    | none => texts
  let stored ← cleared.setEx challengeKey payload ttlSeconds
  stored.setEx accountKey challengeId ttlSeconds

/-- `INCR`, followed by `EXPIRE` when the count is one. -/
def incrementExpiring (key : String) (ttlSeconds : ℕ) (texts : Keyspace) :
    Option (ℕ × Keyspace) := do
  let (count, texts) ← texts.incr key
  return (count, if count = 1 then texts.expire key ttlSeconds else texts)

def INCREMENT_FAILED_LOGIN_LUA (failedLoginKey loginLockKey : String)
    (ttlSeconds maxFailedLogins : ℕ) (texts : Keyspace) : Option ((ℕ × ℕ) × Keyspace) := do
  let (failures, texts) ← incrementExpiring failedLoginKey ttlSeconds texts
  if failures ≥ maxFailedLogins then do
    let texts ← texts.setEx loginLockKey "1" ttlSeconds
    return ((failures, 1), texts)
  else return ((failures, 0), texts)

def INCREMENT_RATE_LIMIT_LUA (key : String) (ttlSeconds : ℕ) (texts : Keyspace) :
    Option (ℕ × Keyspace) :=
  incrementExpiring key ttlSeconds texts

/-! ### The auth state -/

def authKey (key : RedisKey) : String := (StateKey.auth key).text

def activationsKey (key : ActivationKey) : String := (StateKey.activations key).text

/-- The text that a value is stored as. -/
def authValue : (key : RedisKey) → key.Value → String
  | .issuance _ _, (issuanceId : String) => issuanceId
  | .loginChallenge _, payload => stringify (challengeRecord payload)
  | .loginChallengeAccount _, (challengeId : String) => challengeId
  | .counter _, (count : ℕ) => Nat.repr count
  | .loginLock _, _ => "1"
  | .session _, session => stringify (sessionRecord session)

def readAuthValue : (key : RedisKey) → String → Option key.Value
  | .issuance _ _, raw => some raw
  | .loginChallenge _, raw => readChallenge raw
  | .loginChallengeAccount _, raw => some raw
  | .counter _, raw => Keyspace.natural? raw
  | .loginLock _, _ => some ()
  | .session _, raw => readSession raw

/-- What `consumeLoginChallenge` makes of the answer of the script. -/
def consumeLoginChallengeReply : List String → ConsumeLoginChallengeResult
  | [status, userId] =>
      if status = "consumed" ∧ userId ≠ "" then .consumed userId
      else if status = "invalid" then .invalid else .missing
  | status :: _ => if status = "invalid" then .invalid else .missing
  | [] => .missing

/-- What `consumeActivationCode` makes of the answer of the script. -/
def consumeActivationReply : List String → Option ConsumeActivationResult
  | [status, attempts] =>
      if status = "consumed" then some .consumed
      else if status = "invalid" then (Keyspace.natural? attempts).map .invalid
      else some .missing
  | status :: _ =>
      if status = "consumed" then some .consumed
      else if status = "invalid" then none else some .missing
  | [] => some .missing

/-- A command of the auth state on the server. -/
def authCommand (lua : LuaRuntime) : (c : RedisCommand) → Keyspace → Option (c.Res × Keyspace)
  | .get key, texts =>
      match texts.get (authKey key) with
      | none => some (none, texts)
      | some raw => (readAuthValue key raw).map fun v => (some v, texts)
  | .existsKey key, texts => some ((texts.get (authKey key)).isSome, texts)
  | .set key value ttlSeconds, texts =>
      (texts.setEx (authKey key) (authValue key value) ttlSeconds).map fun texts => ((), texts)
  | .del key, texts => some ((), texts.del (authKey key))
  | .createLoginChallenge userId challengeId payload, texts =>
      (CREATE_LOGIN_CHALLENGE_LUA (loginChallengeAccountKey userId)
        (loginChallengeKey challengeId) (stringify (challengeRecord payload))
        TTL_ONE_HOUR_SECONDS challengeId (Account.KEY_PREFIX ++ "login-challenge:") texts).map
        fun texts => ((), texts)
  | .consumeLoginChallenge challengeId codeHmac nowMs, texts =>
      (CONSUME_LOGIN_CHALLENGE_LUA lua (loginChallengeKey challengeId) codeHmac nowMs texts).map
        fun (reply, texts) => (consumeLoginChallengeReply reply, texts)
  | .incrementFailedLogin userId, texts =>
      (INCREMENT_FAILED_LOGIN_LUA (failedLoginKey userId) (loginLockKey userId)
        TTL_ONE_HOUR_SECONDS MAX_FAILED_LOGINS texts).map
        fun ((failures, locked), texts) => (⟨failures, locked == 1⟩, texts)
  | .incrementRateLimit operation dimension hash ttlSeconds, texts =>
      INCREMENT_RATE_LIMIT_LUA (rateKey operation dimension hash) ttlSeconds texts

/-- The text of an activation entry. -/
def activationsValue : (key : ActivationKey) → key.Value → String
  | .activation _, payload => stringify (activationRecord payload)
  | .resend _ _, _ => "1"

def activationsCommand (lua : LuaRuntime) :
    (c : ActivationCommand) → Keyspace → Option (c.Res × Keyspace)
  | .set key value ttlSeconds, texts =>
      (texts.setEx (activationsKey key) (activationsValue key value) ttlSeconds).map
        fun texts => ((), texts)
  | .existsKey key, texts => some ((texts.get (activationsKey key)).isSome, texts)
  | .consumeActivation userId codeHmac, texts => do
      let (reply, texts) ← CONSUME_ACTIVATION_LUA lua (activationKey userId) codeHmac texts
      let result ← consumeActivationReply reply
      return (result, texts)

/-! ### The link cache -/

/-- The methods of `RedisLinkResolutionCache`. -/
inductive CacheCommand where
  | get (shortCode : String)
  | set (shortCode : String) (resolved : ResolvedLink) (ttlSeconds : ℕ)
  | invalidate (shortCode : String)

abbrev LinkCache : Type := Store String fun _ => ResolvedLink

namespace CacheCommand

def Res : CacheCommand → Type
  | .get _ => Option ResolvedLink
  | .set _ _ _ => Unit
  | .invalidate _ => Unit

/-- The reply and the entries after a command, as `LinksService.exec` has them. -/
def apply : (c : CacheCommand) → LinkCache → c.Res × LinkCache
  | .get shortCode, cache => (cache.get (resolutionKey shortCode), cache)
  | .set shortCode resolved ttlSeconds, cache =>
      ((), cache.set (resolutionKey shortCode) resolved (ttlSeconds * 1000))
  | .invalidate shortCode, cache => ((), cache.del (resolutionKey shortCode))

end CacheCommand

def cacheCommand : (c : CacheCommand) → Keyspace → Option (c.Res × Keyspace)
  | .get shortCode, texts =>
      some ((texts.get (resolutionKey shortCode)).bind parseResolvedLink, texts)
  | .set shortCode resolved ttlSeconds, texts =>
      (texts.setEx (resolutionKey shortCode) (stringify (resolvedRecord resolved))
        ttlSeconds).map fun texts => ((), texts)
  | .invalidate shortCode, texts => some ((), texts.del (resolutionKey shortCode))

/-! ### Runs -/

/-- The stores of the model. In Redis they are one. -/
structure TypedRedis where
  auth : Redis
  activations : Activations
  links : LinkCache

def TypedRedis.empty (now : ℕ) : TypedRedis := ⟨Store.empty now, Store.empty now, Store.empty now⟩

inductive EntryKey where
  | state (key : StateKey)
  | link (shortCode : String)

def EntryKey.text : EntryKey → String
  | .state key => key.text
  | .link shortCode => resolutionKey shortCode

/-- A command, the passing of time, the eviction of an entry, or a command of another client
of the server. -/
inductive RedisEvent where
  | auth (c : RedisCommand)
  | activations (c : ActivationCommand)
  | links (c : CacheCommand)
  | tick (milliseconds : ℕ)
  | evict (key : EntryKey)
  | foreign (key : String) (entry : Option (String × Option ℕ))

namespace RedisEvent

def Res : RedisEvent → Type
  | .auth c => c.Res
  | .activations c => c.Res
  | .links c => c.Res
  | .tick _ => Unit
  | .evict _ => Unit
  | .foreign _ _ => Unit

/-- What an event does to the stores of the model. -/
def typed : (e : RedisEvent) → TypedRedis → e.Res × TypedRedis
  | .auth c, s => ((c.apply s.auth).1, { s with auth := (c.apply s.auth).2 })
  | .activations c, s =>
      ((c.apply s.activations).1, { s with activations := (c.apply s.activations).2 })
  | .links c, s => ((c.apply s.links).1, { s with links := (c.apply s.links).2 })
  | .tick n, s => ((), ⟨s.auth.tick n, s.activations.tick n, s.links.tick n⟩)
  | .evict (.state (.auth key)), s => ((), { s with auth := s.auth.del key })
  | .evict (.state (.activations key)), s =>
      ((), { s with activations := s.activations.del key })
  | .evict (.link shortCode), s => ((), { s with links := s.links.del (resolutionKey shortCode) })
  | .foreign _ _, s => ((), s)

/-- What an event does on the server. -/
def onTexts (lua : LuaRuntime) : (e : RedisEvent) → Keyspace → Option (e.Res × Keyspace)
  | .auth c, texts => authCommand lua c texts
  | .activations c, texts => activationsCommand lua c texts
  | .links c, texts => cacheCommand c texts
  | .tick n, texts => some ((), texts.tick n)
  | .evict key, texts => some ((), texts.del key.text)
  | .foreign key entry, texts => some ((), texts.put key entry)

abbrev Replied : Type := (e : RedisEvent) × e.Res

/-- The replies and the stores after the events. -/
def typedRun : List RedisEvent → TypedRedis → List Replied × TypedRedis
  | [], s => ([], s)
  | e :: es, s =>
      let (reply, s) := e.typed s
      let (replies, s) := typedRun es s
      (⟨e, reply⟩ :: replies, s)

/-- The replies and the entries of the server after the events. -/
def textsRun (lua : LuaRuntime) : List RedisEvent → Keyspace → Option (List Replied × Keyspace)
  | [], texts => some ([], texts)
  | e :: es, texts => do
      let (reply, texts) ← e.onTexts lua texts
      let (replies, texts) ← textsRun lua es texts
      return (⟨e, reply⟩ :: replies, texts)

end RedisEvent

end RedisTexts

end Shortlink

import Shortlink.Account.Service

/-!
# The texts of the Redis keys

The typed keys of the auth state stand for texts, which the key builders of
`redis-auth-state.service.ts` make of their arguments. The fields of a text are read back
by splitting it at the colons, so two keys have the same text only if they are the same,
and the typed stores say what a store of texts says.
-/

namespace Shortlink

namespace Account

open Shortlink.Expiring Shortlink.Auth

def KEY_PREFIX : String := "shortlink:auth:"

/-! ### The key builders -/

def activationKey (userId : String) : String :=
  KEY_PREFIX ++ "verification:activation:" ++ userId

def issuanceKey : AuthIssuancePurpose → String → String
  | .reset, subjectId => KEY_PREFIX ++ "reset-issuance:" ++ subjectId
  | .login, subjectId => KEY_PREFIX ++ "verification-issuance:login:" ++ subjectId
  | .activation, subjectId => KEY_PREFIX ++ "verification-issuance:activation:" ++ subjectId

def loginChallengeKey (challengeId : String) : String :=
  KEY_PREFIX ++ "login-challenge:" ++ challengeId

def loginChallengeAccountKey (userId : String) : String :=
  KEY_PREFIX ++ "login-challenge:account:" ++ userId

def resendKey (purpose userId : String) : String :=
  KEY_PREFIX ++ "resend:" ++ purpose ++ ":" ++ userId

def failedLoginKey (userId : String) : String :=
  KEY_PREFIX ++ "failed-login:" ++ userId

def loginLockKey (userId : String) : String :=
  KEY_PREFIX ++ "login-lock:" ++ userId

def dimensionText : RateLimitDimension → String
  | .email => "email"
  | .ip => "ip"

def rateKey (operation : String) (dimension : RateLimitDimension) (hash : String) : String :=
  KEY_PREFIX ++ "rate:" ++ operation ++ ":" ++ dimensionText dimension ++ ":" ++ hash

def sessionKey (sessionId : String) : String :=
  KEY_PREFIX ++ "session:" ++ sessionId

/-- A key builder and its arguments. -/
inductive StateKey where
  | auth (key : RedisKey)
  | activations (key : ActivationKey)
  deriving DecidableEq

namespace StateKey

/-- The text that the builder makes of its arguments. -/
def text : StateKey → String
  | .activations (.activation userId) => activationKey userId
  | .activations (.resend purpose userId) => resendKey purpose userId
  | .auth (.issuance purpose subjectId) => issuanceKey purpose subjectId
  | .auth (.loginChallenge challengeId) => loginChallengeKey challengeId
  | .auth (.loginChallengeAccount userId) => loginChallengeAccountKey userId
  | .auth (.counter (.failedLogin userId)) => failedLoginKey userId
  | .auth (.counter (.rate operation dimension hash)) => rateKey operation dimension hash
  | .auth (.loginLock userId) => loginLockKey userId
  | .auth (.session sessionId) => sessionKey sessionId

/-- The fields between the colons of the text, behind the prefix. -/
def fields : StateKey → List String
  | .activations (.activation userId) => ["verification", "activation", userId]
  | .activations (.resend purpose userId) => ["resend", purpose, userId]
  | .auth (.issuance .reset subjectId) => ["reset-issuance", subjectId]
  | .auth (.issuance .login subjectId) => ["verification-issuance", "login", subjectId]
  | .auth (.issuance .activation subjectId) =>
      ["verification-issuance", "activation", subjectId]
  | .auth (.loginChallenge challengeId) => ["login-challenge", challengeId]
  | .auth (.loginChallengeAccount userId) => ["login-challenge", "account", userId]
  | .auth (.counter (.failedLogin userId)) => ["failed-login", userId]
  | .auth (.counter (.rate operation dimension hash)) =>
      ["rate", operation, dimensionText dimension, hash]
  | .auth (.loginLock userId) => ["login-lock", userId]
  | .auth (.session sessionId) => ["session", sessionId]

/-- The builder of the fields and its arguments. -/
def ofFields : List String → Option StateKey
  | ["verification", "activation", userId] => some (.activations (.activation userId))
  | ["resend", purpose, userId] => some (.activations (.resend purpose userId))
  | ["reset-issuance", subjectId] => some (.auth (.issuance .reset subjectId))
  | ["verification-issuance", "login", subjectId] => some (.auth (.issuance .login subjectId))
  | ["verification-issuance", "activation", subjectId] =>
      some (.auth (.issuance .activation subjectId))
  | ["login-challenge", challengeId] => some (.auth (.loginChallenge challengeId))
  | ["login-challenge", "account", userId] => some (.auth (.loginChallengeAccount userId))
  | ["failed-login", userId] => some (.auth (.counter (.failedLogin userId)))
  | ["rate", operation, "email", hash] => some (.auth (.counter (.rate operation .email hash)))
  | ["rate", operation, "ip", hash] => some (.auth (.counter (.rate operation .ip hash)))
  | ["login-lock", userId] => some (.auth (.loginLock userId))
  | ["session", sessionId] => some (.auth (.session sessionId))
  | _ => none

theorem ofFields_fields (key : StateKey) : ofFields key.fields = some key := by
  rcases key with (⟨_ | _ | _, _⟩ | _ | _ | (_ | ⟨_, _ | _, _⟩) | _ | _) | (_ | _)
  all_goals rfl

theorem toList_text (key : StateKey) :
    key.text.toList = [':'].intercalate
      ("shortlink".toList :: "auth".toList :: key.fields.map String.toList) := by
  rcases key with (⟨_ | _ | _, _⟩ | _ | _ | (_ | _) | _ | _) | (_ | _) <;>
    simp [text, fields, activationKey, issuanceKey, loginChallengeKey,
      loginChallengeAccountKey, resendKey, failedLoginKey, loginLockKey, rateKey, sessionKey,
      KEY_PREFIX]

end StateKey

/-! ### The arguments -/

structure IsUuid (text : String) : Prop where
  groups : (text.toList.splitOn '-').map List.length = [8, 4, 4, 4, 12]
  digits : text.toList.all (fun c => c == '-' || c.isHexDigit) = true

/-- The form of a digest in hexadecimal. -/
def IsHex (text : String) : Prop := ∀ c ∈ text.toList, c.isHexDigit = true

/-- The operations whose requests are counted. -/
def rateOperations : List String :=
  [REGISTER_RATE_OPERATION, RESEND_RATE_OPERATION, FORGOT_PASSWORD_RATE_OPERATION,
    LOGIN_RATE_OPERATION]

/-- The arguments that the callers pass to a builder. -/
def StateKey.Admissible : StateKey → Prop
  | .activations (.activation userId) => IsUuid userId
  | .activations (.resend purpose userId) =>
      purpose = ACTIVATION_RESEND_PURPOSE ∧ IsUuid userId
  | .auth (.issuance _ subjectId) => IsUuid subjectId
  | .auth (.loginChallenge challengeId) => IsUuid challengeId
  | .auth (.loginChallengeAccount userId) => IsUuid userId
  | .auth (.counter (.failedLogin userId)) => IsUuid userId
  | .auth (.counter (.rate operation _ hash)) => operation ∈ rateOperations ∧ IsHex hash
  | .auth (.loginLock userId) => IsUuid userId
  | .auth (.session sessionId) => IsUuid sessionId

theorem IsUuid.no_colon {text : String} (h : IsUuid text) : ':' ∉ text.toList :=
  fun hmem => absurd (List.all_eq_true.1 h.digits _ hmem) (by decide)

theorem IsHex.no_colon {text : String} (h : IsHex text) : ':' ∉ text.toList :=
  fun hmem => absurd (h _ hmem) (by decide)

namespace StateKey

/-- A field of a key that the callers use contains no colon. -/
theorem Admissible.no_colon {key : StateKey} (h : key.Admissible) :
    ∀ field ∈ key.fields, ':' ∉ field.toList := by
  rcases key with (⟨_ | _ | _, _⟩ | _ | _ | (_ | ⟨operation, dimension, hash⟩) | _ | _) |
    (_ | ⟨purpose, userId⟩)
  case auth.counter.rate =>
    obtain ⟨hoperation, hhash⟩ := h
    have hname : ':' ∉ operation.toList := by
      revert operation
      decide
    cases dimension with
    | email => simp [fields, dimensionText, hname, hhash.no_colon]
    | ip => simp [fields, dimensionText, hname, hhash.no_colon]
  case activations.resend =>
    obtain ⟨rfl, huser⟩ := h
    simp [fields, ACTIVATION_RESEND_PURPOSE, huser.no_colon]
  all_goals simp [fields, IsUuid.no_colon h]

def ofText (text : String) : Option StateKey :=
  match (text.toList.splitOn ':').map String.ofList with
  | "shortlink" :: "auth" :: fields => ofFields fields
  | _ => none

theorem Admissible.ofText_text {key : StateKey} (h : key.Admissible) :
    ofText key.text = some key := by
  have hcolon : ∀ field ∈ "shortlink".toList :: "auth".toList :: key.fields.map String.toList,
      ':' ∉ field := by
    simp only [List.forall_mem_cons, List.forall_mem_map]
    exact ⟨by decide, by decide, h.no_colon⟩
  have hfields : (key.text.toList.splitOn ':').map String.ofList =
      "shortlink" :: "auth" :: key.fields := by
    rw [toList_text, List.splitOn_intercalate ':' hcolon (List.cons_ne_nil _ _)]
    simp [Function.comp_def]
  rw [ofText, hfields]
  exact ofFields_fields key

theorem Admissible.text_inj {key key' : StateKey} (h : key.Admissible) (h' : key'.Admissible) :
    key.text = key'.text ↔ key = key' := by
  refine ⟨fun htext => ?_, fun heq => by rw [heq]⟩
  have hkey := h.ofText_text
  rw [htext, h'.ofText_text] at hkey
  exact (Option.some.inj hkey).symm

end StateKey

/-! ### The script of the challenges -/

/-- Redis as it is: keys and values are texts. -/
abbrev Texts : Type := Store String fun _ => String

/-- What a script has Redis do. -/
inductive TextCommand where
  | del (key : String)
  | setEx (key value : String) (ttlSeconds : ℕ)
  deriving DecidableEq

def TextCommand.apply : TextCommand → Texts → Texts
  | .del key, texts => texts.del key
  | .setEx key value ttlSeconds, texts => texts.set key value (ttlSeconds * 1000)

namespace Texts

/-- The commands of the script behind its `GET`, by the keys and the arguments it is given. -/
def CREATE_LOGIN_CHALLENGE_LUA (accountKey challengeKey payload : String) (ttlSeconds : ℕ)
    (challengeId keyPrefix : String) (previousChallengeId : Option String) : List TextCommand :=
  (match previousChallengeId with
    | some previousChallengeId => [.del (keyPrefix ++ previousChallengeId)]
    | none => []) ++
    [.setEx challengeKey payload ttlSeconds, .setEx accountKey challengeId ttlSeconds]

/-- What `createLoginChallenge` has Redis do. -/
def createLoginChallenge (userId challengeId payload : String) (texts : Texts) :
    List TextCommand :=
  CREATE_LOGIN_CHALLENGE_LUA (loginChallengeAccountKey userId) (loginChallengeKey challengeId)
    payload TTL_ONE_HOUR_SECONDS challengeId (KEY_PREFIX ++ "login-challenge:")
    (texts.get (loginChallengeAccountKey userId))

/-- The entries after a list of commands. -/
def run (commands : List TextCommand) (texts : Texts) : Texts :=
  commands.foldl (fun texts command => command.apply texts) texts

theorem deleted_key {userId challengeId payload key : String} {texts : Texts}
    (h : .del key ∈ createLoginChallenge userId challengeId payload texts) :
    ∃ id, texts.get (loginChallengeAccountKey userId) = some id ∧ key = loginChallengeKey id := by
  simp only [createLoginChallenge, CREATE_LOGIN_CHALLENGE_LUA] at h
  cases hprevious : texts.get (loginChallengeAccountKey userId) with
  | none => simp [hprevious] at h
  | some id => exact ⟨id, rfl, by simpa [hprevious, loginChallengeKey] using h⟩

end Texts

/-- Two keys that the callers use have the same text only if they are the same, and the
script deletes no key but that of the challenge it has found. -/
theorem redis_keys_never_alias :
    (∀ key key' : StateKey, key.Admissible → key'.Admissible → key.text = key'.text →
      key = key') ∧
    ∀ (userId challengeId payload key : String) (texts : Texts),
      .del key ∈ Texts.createLoginChallenge userId challengeId payload texts →
        ∃ id, texts.get (loginChallengeAccountKey userId) = some id ∧
          key = loginChallengeKey id :=
  ⟨fun _ _ h h' htext => (h.text_inj h').1 htext, fun _ _ _ _ _ h => Texts.deleted_key h⟩

/-- The account key of a user and the key of a challenge with its id are apart. -/
theorem account_key_ne_challenge_key :
    loginChallengeAccountKey "0b0e3c4a-9d1f-4f6e-8a35-2c7d9e1f0a5b" ≠
      loginChallengeKey "0b0e3c4a-9d1f-4f6e-8a35-2c7d9e1f0a5b" := by
  have huuid : IsUuid "0b0e3c4a-9d1f-4f6e-8a35-2c7d9e1f0a5b" :=
    ⟨by decide +kernel, by decide +kernel⟩
  intro htext
  cases redis_keys_never_alias.1 (.auth (.loginChallengeAccount _)) (.auth (.loginChallenge _))
    huuid huuid htext

/-! ### The typed entries -/

/-- The texts of the values. The id of a challenge is stored as it is. -/
structure Encoding where
  value : (key : RedisKey) → key.Value → String
  challengeId : ∀ userId (id : String), value (.loginChallengeAccount userId) id = id

/-- The texts hold the typed entries. -/
structure Represents (encoding : Encoding) (texts : Texts) (redis : Redis) : Prop where
  now : texts.now = redis.now
  cell : ∀ key : RedisKey, (StateKey.auth key).Admissible →
    texts.cell (StateKey.auth key).text =
      (redis.cell key).map fun entry => (encoding.value key entry.1, entry.2)

namespace Represents

variable {encoding : Encoding} {texts : Texts} {redis : Redis}

theorem get (h : Represents encoding texts redis) (key : RedisKey)
    (hkey : (StateKey.auth key).Admissible) :
    texts.get (StateKey.auth key).text = (redis.get key).map (encoding.value key) := by
  rw [Store.get, Store.get, h.now, h.cell key hkey]
  cases redis.cell key with
  | none => rfl
  | some entry =>
      by_cases hnow : redis.now < entry.2
      · simp [visible, hnow]
      · simp [visible, hnow]

/-- A key that is written leaves the texts of all other keys alone. -/
theorem text_ne {key key' : RedisKey} (hkey : (StateKey.auth key).Admissible)
    (hkey' : (StateKey.auth key').Admissible) (hne : key' ≠ key) :
    (StateKey.auth key').text ≠ (StateKey.auth key).text :=
  fun htext => hne (StateKey.auth.inj ((hkey'.text_inj hkey).1 htext))

theorem setEx (h : Represents encoding texts redis) (key : RedisKey)
    (hkey : (StateKey.auth key).Admissible) (value : key.Value) (ttlSeconds : ℕ) :
    Represents encoding
      ((TextCommand.setEx (StateKey.auth key).text (encoding.value key value) ttlSeconds).apply
        texts) (redis.setEx key value ttlSeconds) where
  now := h.now
  cell key' hkey' := by
    by_cases heq : key' = key
    · subst heq
      simp only [TextCommand.apply, Redis.setEx, Store.cell_set_self, h.now, Option.map_some]
    · simp only [TextCommand.apply, Redis.setEx, Store.cell_set_of_ne _ _ _ heq,
        Store.cell_set_of_ne _ _ _ (text_ne hkey hkey' heq), h.cell key' hkey']

theorem del (h : Represents encoding texts redis) (key : RedisKey)
    (hkey : (StateKey.auth key).Admissible) :
    Represents encoding ((TextCommand.del (StateKey.auth key).text).apply texts)
      (redis.del key) where
  now := h.now
  cell key' hkey' := by
    by_cases heq : key' = key
    · subst heq
      simp only [TextCommand.apply, Store.cell_del_self, Option.map_none]
    · simp only [TextCommand.apply, Store.cell_del_of_ne _ heq,
        Store.cell_del_of_ne _ (text_ne hkey hkey' heq), h.cell key' hkey']

theorem createLoginChallenge (h : Represents encoding texts redis) {userId challengeId : String}
    (huser : IsUuid userId) (hid : IsUuid challengeId)
    (hstored : ∀ id : String, redis.get (.loginChallengeAccount userId) = some id → IsUuid id)
    (payload : LoginChallengePayload) :
    Represents encoding
      (Texts.run (Texts.createLoginChallenge userId challengeId
        (encoding.value (.loginChallenge challengeId) payload) texts) texts)
      (CREATE_LOGIN_CHALLENGE_LUA userId challengeId payload redis) := by
  have hprevious : texts.get (loginChallengeAccountKey userId) =
      redis.get (.loginChallengeAccount userId) := by
    refine (h.get (.loginChallengeAccount userId) huser).trans ?_
    exact (congrFun (congrArg _ (funext (encoding.challengeId userId))) _).trans Option.map_id'
  have hwritten : ∀ {texts' : Texts} {redis' : Redis}, Represents encoding texts' redis' → _ :=
    fun h' => (h'.setEx (.loginChallenge challengeId) hid payload TTL_ONE_HOUR_SECONDS).setEx
      (.loginChallengeAccount userId) huser challengeId TTL_ONE_HOUR_SECONDS
  simp only [encoding.challengeId] at hwritten
  simp only [CREATE_LOGIN_CHALLENGE_LUA, Texts.createLoginChallenge,
    Texts.CREATE_LOGIN_CHALLENGE_LUA, hprevious]
  cases hget : redis.get (.loginChallengeAccount userId) with
  | none => exact hwritten h
  | some id => exact hwritten (h.del (.loginChallenge id) (hstored id hget))

end Represents

end Account

end Shortlink

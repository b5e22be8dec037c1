import Shortlink.Account.Service
import Shortlink.Calendar.Iso
import Shortlink.Json.RoundTrip
import Shortlink.Links.Types

/-!
# The texts of the Redis values

What `redis-auth-state.service.ts` and `redis-link-resolution-cache.service.ts` store under a
key, and how they read it. An instant that is stored in digits is below `10 ^ 14`, which is in
the year 5138, and so is one that is stored as a date.
-/

namespace Shortlink

namespace RedisTexts

open Shortlink.Json Shortlink.Calendar Shortlink.Auth Shortlink.Account Shortlink.Links

/-! ### Writing -/

def activationRecord (payload : ActivationPayload) : Record :=
  [("codeHmac", .string payload.codeHmac), ("attempts", .number payload.attempts),
    ("resendAvailableAt", .number payload.resendAvailableAt)]

def challengeRecord (payload : LoginChallengePayload) : Record :=
  [("userId", .string payload.userId), ("codeHmac", .string payload.codeHmac),
    ("expiresAtMs", .number payload.expiresAtMs), ("used", .bool payload.used)]

/-- The `SessionCachePayload` of a session. -/
def sessionRecord (session : SessionCacheRecord) : Record :=
  [("sessionId", .string session.sessionId), ("userId", .string session.userId),
    ("role", .string session.role),
    ("expiresAt", .string (String.ofList (EcmaDate.toISOString session.expiresAt))),
    ("active", .bool session.active)]

def resolvedRecord (resolved : ResolvedLink) : Record :=
  [("linkId", .string resolved.linkId), ("destinationUrl", .string resolved.destinationUrl)]

/-! ### Reading -/

def string? : Option Value → Option String
  | some (.string s) => some s
  | _ => none

def bool? : Option Value → Option Bool
  | some (.bool b) => some b
  | _ => none

def natural? : Option Value → Option ℕ
  | some (.number q) => if q.den = 1 ∧ 0 ≤ q.num then some q.num.toNat else none
  | _ => none

/-- `JSON.parse(raw) as LoginChallengePayload`. -/
def readChallenge (raw : String) : Option LoginChallengePayload := do
  let payload ← parse raw
  let userId ← string? (payload.get? "userId")
  let codeHmac ← string? (payload.get? "codeHmac")
  let expiresAtMs ← natural? (payload.get? "expiresAtMs")
  let used ← bool? (payload.get? "used")
  return { userId, codeHmac, expiresAtMs, used }

/-- `JSON.parse(raw) as SessionCachePayload` with the date that `expiresAt` is the text of. -/
def readSession (raw : String) : Option SessionCacheRecord := do
  let payload ← parse raw
  let sessionId ← string? (payload.get? "sessionId")
  let userId ← string? (payload.get? "userId")
  let role ← string? (payload.get? "role")
  let expiresAt ← string? (payload.get? "expiresAt")
  let active ← bool? (payload.get? "active")
  let instant ← EcmaDate.parse expiresAt.toList
  return { sessionId, userId, role, expiresAt := instant.toNat, active }

/-- `parseResolvedLink`; `none` is `null`. -/
def parseResolvedLink (raw : String) : Option ResolvedLink := do
  let parsed ← parse raw
  let linkId ← string? (parsed.get? "linkId")
  let destinationUrl ← string? (parsed.get? "destinationUrl")
  return { linkId, destinationUrl }

/-! ### Reading what was written -/

/-- Instants below this one are stored exactly. -/
def INSTANT_LIMIT : ℕ := 10 ^ 14

theorem civil_fourDigits {t : ℕ} (h : t < INSTANT_LIMIT) : (EcmaDate.civil t).FourDigits := by
  have hday : (EcmaDate.civil t).dayNumber = (t : ℤ) / 86400000 := EcmaDate.dayNumber_civil t
  have hlimit : (t : ℤ) < 10 ^ 14 := by
    rw [INSTANT_LIMIT] at h
    omega
  constructor
  · by_contra hyear
    have hbefore := (EcmaDate.civil t).dayNumber_lt
    have hfirst := dayFromYear_le (show (EcmaDate.civil t).year + 1 ≤ 0 by omega)
    have hzero : dayFromYear 0 < 0 := by decide
    omega
  · by_contra hyear
    have hafter : dayFromYear (EcmaDate.civil t).year ≤ (EcmaDate.civil t).dayNumber := by
      rw [CivilDate.dayNumber]
      omega
    have hlast := dayFromYear_le (show 10000 ≤ (EcmaDate.civil t).year by omega)
    have hlarge : (10 ^ 14 : ℤ) / 86400000 < dayFromYear 10000 := by decide
    omega

@[simp] theorem natural?_natural (n : ℕ) : natural? (some (.number n)) = some n := by
  simp [natural?]

theorem get?_record {fields : Record} (hnodup : (fields.map (·.1)).Nodup) (name : String)
    (s : Scalar) (h : (name, s) ∈ fields) :
    (Value.object fields.members).get? name = some s.value :=
  get?_of_perm (List.Perm.refl _) hnodup name s h

theorem readChallenge_stringify (payload : LoginChallengePayload) :
    readChallenge (stringify (challengeRecord payload)) = some payload := by
  have hnodup : ((challengeRecord payload).map (·.1)).Nodup := by simp [challengeRecord]
  have hget := get?_record hnodup
  rw [readChallenge, parse_stringify]
  simp only [Option.bind_eq_bind, Option.bind_some]
  rw [hget "userId" (.string payload.userId) (by simp [challengeRecord]),
    hget "codeHmac" (.string payload.codeHmac) (by simp [challengeRecord]),
    hget "expiresAtMs" (.number payload.expiresAtMs) (by simp [challengeRecord]),
    hget "used" (.bool payload.used) (by simp [challengeRecord])]
  simp [string?, bool?, Scalar.value]

theorem readSession_stringify {session : SessionCacheRecord}
    (h : session.expiresAt < INSTANT_LIMIT) :
    readSession (stringify (sessionRecord session)) = some session := by
  have hnodup : ((sessionRecord session).map (·.1)).Nodup := by simp [sessionRecord]
  have hget := get?_record hnodup
  have hinstant := EcmaDate.parse_toISOString (civil_fourDigits h)
  rw [readSession, parse_stringify]
  simp only [Option.bind_eq_bind, Option.bind_some]
  rw [hget "sessionId" (.string session.sessionId) (by simp [sessionRecord]),
    hget "userId" (.string session.userId) (by simp [sessionRecord]),
    hget "role" (.string session.role) (by simp [sessionRecord]),
    hget "expiresAt" (.string (String.ofList (EcmaDate.toISOString session.expiresAt)))
      (by simp [sessionRecord]),
    hget "active" (.bool session.active) (by simp [sessionRecord])]
  simp [string?, bool?, Scalar.value, hinstant]

theorem parseResolvedLink_stringify (resolved : ResolvedLink) :
    parseResolvedLink (stringify (resolvedRecord resolved)) = some resolved := by
  have hnodup : ((resolvedRecord resolved).map (·.1)).Nodup := by simp [resolvedRecord]
  have hget := get?_record hnodup
  rw [parseResolvedLink, parse_stringify]
  simp only [Option.bind_eq_bind, Option.bind_some]
  rw [hget "linkId" (.string resolved.linkId) (by simp [resolvedRecord]),
    hget "destinationUrl" (.string resolved.destinationUrl) (by simp [resolvedRecord])]
  simp [string?, Scalar.value]

end RedisTexts

end Shortlink

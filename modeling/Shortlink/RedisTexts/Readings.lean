import Shortlink.RedisTexts.Commands

/-!
# How the texts of the entries read

The keys of the three stores have texts of their own, and a text under a key reads as one
value (`AuthReads`, `ActivationReads`, `LinkReads`): the one that the service reads from it.
A counter or a number of attempts is at most the number of commands so far, which keeps it in
the range in which Redis and Lua count exactly.
-/

namespace Shortlink

namespace RedisTexts

open Shortlink.Json Shortlink.Expiring Shortlink.Auth Shortlink.Account Shortlink.Links

/-! ### Keys -/

def AuthUsed (key : RedisKey) : Prop := (StateKey.auth key).Admissible

def ActivationsUsed (key : ActivationKey) : Prop := (StateKey.activations key).Admissible

/-- The texts of the keys of the link cache. -/
def LinkUsed (key : String) : Prop := ∃ shortCode, key = resolutionKey shortCode

def IsAuthKey (text : String) : Prop := ∃ key, AuthUsed key ∧ authKey key = text

def IsActivationsKey (text : String) : Prop := ∃ key, ActivationsUsed key ∧
  activationsKey key = text

theorem authKey_inj (key key' : RedisKey) (h : AuthUsed key) (h' : AuthUsed key')
    (heq : authKey key = authKey key') : key = key' :=
  StateKey.auth.inj ((StateKey.Admissible.text_inj h h').1 heq)

theorem activationsKey_inj (key key' : ActivationKey) (h : ActivationsUsed key)
    (h' : ActivationsUsed key') (heq : activationsKey key = activationsKey key') : key = key' :=
  StateKey.activations.inj ((StateKey.Admissible.text_inj h h').1 heq)

theorem authKey_ne_activationsKey {key : RedisKey} {key' : ActivationKey} (h : AuthUsed key)
    (h' : ActivationsUsed key') : authKey key ≠ activationsKey key' :=
  fun heq => by cases (StateKey.Admissible.text_inj h h').1 heq

/-- The letter behind `shortlink:` tells the keys of the auth state from the others. -/
theorem text_ne_resolutionKey (key : StateKey) (shortCode : String) :
    key.text ≠ resolutionKey shortCode := by
  intro heq
  have hletter : key.text.toList[10]? = some 'a' := by
    rw [StateKey.toList_text]
    cases key.fields <;> rfl
  have hletter' : (resolutionKey shortCode).toList[10]? = some 'l' := by
    rw [resolutionKey, String.toList_append]
    rfl
  rw [heq, hletter'] at hletter
  cases hletter

/-! ### Values -/

theorem uuid_ne_empty {text : String} (h : IsUuid text) : text ≠ "" := by
  rintro rfl
  exact absurd h.groups (by decide)

/-- How a text under a key of the auth state reads, after at most `n` commands. -/
def AuthReads (n : ℕ) : (key : RedisKey) → String → key.Value → Prop
  | .issuance _ _, text, (issuanceId : String) => text = issuanceId
  | .loginChallenge _, text, payload =>
      text = stringify (challengeRecord payload) ∧ IsUuid payload.userId
  | .loginChallengeAccount _, text, (challengeId : String) =>
      text = challengeId ∧ IsUuid challengeId
  | .counter _, text, (count : ℕ) => text = Nat.repr count ∧ 0 < count ∧ count ≤ n
  | .loginLock _, text, _ => text = "1"
  | .session _, text, session =>
      text = stringify (sessionRecord session) ∧ session.expiresAt < INSTANT_LIMIT

/-- A script of the server may have stored the members in any order. -/
def ActivationReads (n : ℕ) : (key : ActivationKey) → String → key.Value → Prop
  | .activation _, text, payload =>
      (∃ members : List (String × Value), members.Perm (activationRecord payload).members ∧
        parse text = some (.object members)) ∧
      payload.attempts ≤ n ∧ payload.resendAvailableAt < INSTANT_LIMIT
  | .resend _ _, text, _ => text = "1"

def LinkReads (_ : String) (text : String) (resolved : ResolvedLink) : Prop :=
  text = stringify (resolvedRecord resolved)

theorem AuthReads.mono {n m : ℕ} (h : n ≤ m) (key : RedisKey) (text : String)
    (v : key.Value) (hreads : AuthReads n key text v) : AuthReads m key text v := by
  cases key with
  | counter key => exact ⟨hreads.1, hreads.2.1, Nat.le_trans hreads.2.2 h⟩
  | _ => exact hreads

theorem ActivationReads.mono {n m : ℕ} (h : n ≤ m) (key : ActivationKey) (text : String)
    (v : key.Value) (hreads : ActivationReads n key text v) :
    ActivationReads m key text v := by
  cases key with
  | activation userId => exact ⟨hreads.1, Nat.le_trans hreads.2.1 h, hreads.2.2⟩
  | resend purpose userId => exact hreads

/-- What the callers store under a key of the auth state. -/
def Storable : (key : RedisKey) → key.Value → Prop
  | .issuance _ _, _ => True
  | .loginChallenge _, payload => IsUuid payload.userId ∧ payload.expiresAtMs < INSTANT_LIMIT
  | .loginChallengeAccount _, (challengeId : String) => IsUuid challengeId
  | .counter _, _ => False
  | .loginLock _, _ => True
  | .session _, session => session.expiresAt < INSTANT_LIMIT

theorem authReads_authValue (n : ℕ) {key : RedisKey} {v : key.Value} (h : Storable key v) :
    AuthReads n key (authValue key v) v := by
  cases key with
  | issuance purpose subjectId => rfl
  | loginChallenge challengeId => exact ⟨rfl, h.1⟩
  | loginChallengeAccount userId => exact ⟨rfl, h⟩
  | counter key => exact h.elim
  | loginLock userId => rfl
  | session sessionId => exact ⟨rfl, h⟩

theorem readAuthValue_of_reads {n : ℕ} {key : RedisKey} {text : String} {v : key.Value}
    (h : AuthReads n key text v) : readAuthValue key text = some v := by
  cases key with
  | issuance purpose subjectId => exact congrArg some h
  | loginChallenge challengeId =>
      obtain ⟨rfl, -⟩ := h
      exact readChallenge_stringify v
  | loginChallengeAccount userId => exact congrArg some h.1
  | counter key =>
      obtain ⟨rfl, -⟩ := h
      exact Keyspace.natural?_repr _
  | loginLock userId => rfl
  | session sessionId =>
      obtain ⟨rfl, hinstant⟩ := h
      exact readSession_stringify hinstant

/-- What the callers store under a key of the activations. -/
def ActivationStorable : (key : ActivationKey) → key.Value → Prop
  | .activation _, payload => payload.attempts = 0 ∧ payload.resendAvailableAt < INSTANT_LIMIT
  | .resend _ _, _ => True

theorem activationReads_activationsValue (n : ℕ) {key : ActivationKey} {v : key.Value}
    (h : ActivationStorable key v) : ActivationReads n key (activationsValue key v) v := by
  cases key with
  | activation userId =>
      exact ⟨⟨_, List.Perm.refl _, parse_stringify _⟩, by rw [h.1]; exact Nat.zero_le n, h.2⟩
  | resend purpose userId => rfl

end RedisTexts

end Shortlink

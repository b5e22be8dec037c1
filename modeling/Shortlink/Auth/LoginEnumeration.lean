import Shortlink.Auth.CountedFailures
import Shortlink.Auth.RateLimits

/-!
# What a failed login reveals

A login with a wrong password answers alike whether or not the e-mail has an account, as
long as the failures of the account stay below the limit of the lock. A locked account
answers so (`failed_logins_alike`).
-/

namespace Shortlink

namespace Auth

open Shortlink.Storage Shortlink.Transaction Shortlink.Interaction Shortlink.Expiring
open AuthProgram AuthService RedisAuthStateService

/-- A login for the e-mail with a password that is not the one of its account. -/
def WrongLogin (config : AuthConfig) (email : String) (s : AuthState) : AuthCall → Prop
  | .startLogin input _ => createEmail config.toLowerCase input.email = some email ∧
      ∀ account ∈ s.db.findAccountByEmail email,
        passwordMatchesAccount config input.password account.passwordHash = false
  | _ => False

/-- Five failures of the account of the e-mail have been counted in the current window. -/
def FailuresReached (email : String) (s : AuthState) : Prop :=
  ∃ account ∈ s.db.findAccountByEmail email,
    MAX_FAILED_LOGINS ≤ s.redis.failures account.id

/-- The first call is answered that the account is locked, with five failures counted,
and the second one as if there was no account. -/
def RevealsLock (email : String) (x y : Answered AuthResult AuthState) : Prop :=
  x.answer = .error accountTemporarilyLockedException ∧ FailuresReached email x.after ∧
    y.answer = .error invalidCredentialsException

/-- The answers are the same, or one of them reveals the lock. -/
def SameOrLocked (email : String) (x y : Answered AuthResult AuthState) : Prop :=
  x.answer = y.answer ∨ RevealsLock email x y ∨ RevealsLock email y x

section

variable {α : Type} {config : AuthConfig} {email : String} {s : AuthState}

def loginCount (config : AuthConfig) (email clientIp : String) (redis : Redis) : ℕ × Redis :=
  INCREMENT_RATE_LIMIT_LUA LOGIN_RATE_OPERATION .email
    (config.hashRateLimitValue ((if clientIp = "" then "unknown" else clientIp) ++ "|" ++ email))
    LOGIN_RATE_LIMIT_TTL_SECONDS redis

/-- What a login with a wrong password does: it is counted, and refused when it is one too
many; otherwise it counts a failure of the account, if there is one. -/
structure Rejected (config : AuthConfig) (email clientIp : String) (s : AuthState)
    (r : Except AuthError LoginChallenge) (s' : AuthState) : Prop where
  limits : s'.redis.rateLimits = (loginCount config email clientIp s.redis).2.rateLimits
  limited : LOGIN_RATE_LIMIT < (loginCount config email clientIp s.redis).1 →
    r = .error rateLimitedException
  locked : ¬ LOGIN_RATE_LIMIT < (loginCount config email clientIp s.redis).1 →
    FailuresReached email s' → r = .error accountTemporarilyLockedException
  wrong : ¬ LOGIN_RATE_LIMIT < (loginCount config email clientIp s.redis).1 →
    ¬ FailuresReached email s' → r = .error invalidCredentialsException

/-- The fifth failure and later ones lock the account. -/
theorem INCREMENT_FAILED_LOGIN_LUA_locked (userId : String) (redis : Redis) :
    (INCREMENT_FAILED_LOGIN_LUA userId redis).1.locked =
      decide (MAX_FAILED_LOGINS ≤
        (INCREMENT_FAILED_LOGIN_LUA userId redis).2.failures userId) := by
  have hfailures : (INCREMENT_FAILED_LOGIN_LUA userId redis).1.failures =
      (INCREMENT_FAILED_LOGIN_LUA userId redis).2.failures userId := by
    rw [INCREMENT_FAILED_LOGIN_LUA_counts, INCREMENT_FAILED_LOGIN_LUA_failures,
      Redis.incrEx, Redis.failures]
    cases redis.count (.failedLogin userId) <;> rfl
  rw [← hfailures]
  simp only [INCREMENT_FAILED_LOGIN_LUA]
  split <;> simp [*]

theorem rateLimits_incrementFailedLogin (userId : String) (redis : Redis) :
    (INCREMENT_FAILED_LOGIN_LUA userId redis).2.rateLimits = redis.rateLimits := by
  refine RedisCommand.rateLimits_apply (c := .incrementFailedLogin userId)
    fun key hkey hwrites => ?_
  rcases hwrites with rfl | rfl <;> cases hkey

theorem startLogin_yields {input : LoginDto} {clientIp : String}
    (h : WrongLogin config email s (.startLogin input clientIp)) :
    (startLogin config input clientIp).Yields config (Rejected config email clientIp s) s := by
  obtain ⟨hemail, hwrong⟩ := h
  refine Throwing.yields_bind.2 ?_
  rw [parseEmail, hemail]
  refine Throwing.yields_pure.2 (Throwing.yields_bind.2 (yields_withSecurityStorage.2
    (yields_incrementRateLimit (Throwing.yields_ite.2
      ⟨fun (hlimit : LOGIN_RATE_LIMIT < (loginCount config email clientIp s.redis).1) =>
          Throwing.yields_throw.2 ⟨rfl, fun _ => rfl, absurd hlimit, absurd hlimit⟩,
        fun (hlimit : ¬ LOGIN_RATE_LIMIT <
          (loginCount config email clientIp s.redis).1) => ?_⟩))))
  refine Throwing.yields_pure.2 (yields_withSecurityStorage.2 (yields_findAccountByEmail ?_))
  cases hfound : s.db.findAccountByEmail email with
  | none =>
      refine Throwing.yields_throw.2 ⟨rfl, fun h => absurd h hlimit, fun _ hreached => ?_,
        fun _ _ => rfl⟩
      obtain ⟨account, haccount, -⟩ := hreached
      cases hfound.symm.trans haccount
  | some account =>
      have hmatch : ¬ passwordMatchesAccount config input.password account.passwordHash =
          true := by
        rw [hwrong account hfound]
        exact Bool.false_ne_true
      have hreached : ∀ redis, FailuresReached email { s with redis } ↔
          MAX_FAILED_LOGINS ≤ redis.failures account.id := by
        intro redis
        constructor
        · rintro ⟨a, ha, h⟩
          exact Option.some.inj (hfound.symm.trans ha) ▸ h
        · exact fun h => ⟨account, hfound, h⟩
      dsimp only
      rw [if_pos hmatch]
      have hlocked := INCREMENT_FAILED_LOGIN_LUA_locked account.id
        (loginCount config email clientIp s.redis).2
      have hlimits := rateLimits_incrementFailedLogin account.id
        (loginCount config email clientIp s.redis).2
      refine Throwing.yields_bind.2 (yields_incrementFailedLogin (yields_audit
        (Throwing.yields_pure.2 (Throwing.yields_ite.2 ⟨fun hlock => ?_, fun hlock => ?_⟩))))
      · have hfifth := of_decide_eq_true (hlocked.symm.trans hlock)
        exact Throwing.yields_throw.2 ⟨hlimits, fun h => absurd h hlimit, fun _ _ => rfl,
          fun _ h => absurd ((hreached _).2 hfifth) h⟩
      · have hfifth := of_decide_eq_false (hlocked.symm.trans (Bool.not_eq_true _ ▸ hlock))
        exact Throwing.yields_throw.2 ⟨hlimits, fun h => absurd h hlimit,
          fun _ h => absurd ((hreached _).1 h) hfifth, fun _ _ => rfl⟩

/-- Two logins that are counted alike are rejected alike, up to the lock. -/
theorem Rejected.alike {clientIp : String} {t s' t' : AuthState}
    {r r' : Except AuthError LoginChallenge}
    (h : Rejected config email clientIp s r s') (h' : Rejected config email clientIp t r' t')
    (hst : s.redis.rateLimits = t.redis.rateLimits) :
    SameOrLocked email ⟨s, r.map .challenge, s'⟩ ⟨t, r'.map .challenge, t'⟩ ∧
      s'.redis.rateLimits = t'.redis.rateLimits := by
  have hcount : ∀ redis : Redis, loginCount config email clientIp redis.rateLimits =
      ((loginCount config email clientIp redis).1,
        (loginCount config email clientIp redis).2.rateLimits) :=
    rateLimits_increment _ _ _ _
  have hsame := (hcount s.redis).symm.trans ((congrArg _ hst).trans (hcount t.redis))
  obtain ⟨hone, htwo⟩ := Prod.mk.inj hsame
  refine ⟨?_, h.limits.trans (htwo.trans h'.limits.symm)⟩
  by_cases hlimit : LOGIN_RATE_LIMIT < (loginCount config email clientIp s.redis).1
  · rw [h.limited hlimit, h'.limited (hone ▸ hlimit)]
    exact .inl rfl
  · have hlimit' : ¬ LOGIN_RATE_LIMIT < (loginCount config email clientIp t.redis).1 :=
      hone ▸ hlimit
    by_cases hs : FailuresReached email s' <;> by_cases ht : FailuresReached email t'
    · rw [h.locked hlimit hs, h'.locked hlimit' ht]
      exact .inl rfl
    · rw [h.locked hlimit hs, h'.wrong hlimit' ht]
      exact .inr (.inl ⟨rfl, hs, rfl⟩)
    · rw [h.wrong hlimit hs, h'.locked hlimit' ht]
      exact .inr (.inr ⟨rfl, ht, rfl⟩)
    · rw [h.wrong hlimit hs, h'.wrong hlimit' ht]
      exact .inl rfl

end

/-- Of two stores with the same rate counters, every sequence of logins with wrong passwords
for an e-mail gets the same answers, except that an account whose failures have reached the
limit answers that it is locked. -/
theorem failed_logins_alike (config : AuthConfig) (email : String) {s t : AuthState}
    {inputs : List (Input AuthCall Redis)} {l l' : List (Answered AuthResult AuthState)}
    (hst : s.redis.rateLimits = t.redis.rateLimits)
    (h : (authService config).Shows (WrongLogin config email) storageWorks (fun _ => True)
      (fun s => s.redis.rateLimits) s inputs l)
    (h' : (authService config).Shows (WrongLogin config email) storageWorks (fun _ => True)
      (fun s => s.redis.rateLimits) t inputs l') :
    List.Forall₂ (SameOrLocked email) l l' := by
  refine h.forall₂ (SameOrLocked email) ?_ h' trivial trivial hst
  intro call s t es es' a b s' t' _ _ hst hstart hstart' hrun hrun'
  cases call with
  | startLogin input clientIp =>
      have hs : Throwing.Yields (authService config) storageWorks
          (fun a s' => ∃ r, a = Except.map .challenge r ∧ Rejected config email clientIp s r s')
          (AuthCall.program config (.startLogin input clientIp)) s :=
        Throwing.yields_map.2 ((startLogin_yields hstart).mono fun r s' hr => ⟨r, rfl, hr⟩)
      have ht : Throwing.Yields (authService config) storageWorks
          (fun a s' => ∃ r, a = Except.map .challenge r ∧ Rejected config email clientIp t r s')
          (AuthCall.program config (.startLogin input clientIp)) t :=
        Throwing.yields_map.2 ((startLogin_yields hstart').mono fun r s' hr => ⟨r, rfl, hr⟩)
      obtain ⟨r, rfl, hr⟩ := hs _ _ _ hrun
      obtain ⟨r', rfl, hr'⟩ := ht _ _ _ hrun'
      obtain ⟨hsame, hlimits⟩ := hr.alike hr' hst
      exact ⟨hsame, trivial, trivial, hlimits⟩
  | _ => exact hstart.elim

/-! ### Five failures -/

instance decidableWrongLogin (config : AuthConfig) (email : String) (s : AuthState) :
    ∀ call, Decidable (WrongLogin config email s call)
  | .startLogin input _ => inferInstanceAs (Decidable
      (createEmail config.toLowerCase input.email = some email ∧
        ∀ account ∈ s.db.findAccountByEmail email,
          passwordMatchesAccount config input.password account.passwordHash = false))
  | .createSessionAfterLogin _ _ | .sessionRefresh _ | .logout _ | .revokeAll _ _
  | .validateSession _ | .refresh _ | .completeLogin _ | .processLogin _ => isFalse id

instance decidableStorageWorks (c : AuthStep) (o : AuthOutside) (s : AuthState) :
    Decidable (storageWorks c o s) := inferInstanceAs (Decidable (o.fault = .none))

/-- The next call is a login with a wrong password that makes `n` steps. -/
def wrongLogin (n : ℕ) : AuthCall × List AuthOutside :=
  (.startLogin ⟨"u@example.com", "wrong"⟩ "",
    List.replicate n ⟨⟨1, 1, 1, "x", "x"⟩, "x", .none⟩)

/-- Five logins with a wrong password. -/
def fiveLogins : List (Input AuthCall Redis) :=
  List.replicate 5 (.call (wrongLogin 0).1)

def fiveRejections (last : AuthError) : List AuthResult :=
  List.replicate 4 (.error invalidCredentialsException) ++ [.error last]

set_option maxRecDepth 4000 in
theorem five_logins_alike : ∃ l l',
    List.Forall₂ (SameOrLocked "u@example.com") l l' ∧
      l.map Answered.answer = fiveRejections accountTemporarilyLockedException ∧
      l'.map Answered.answer = fiveRejections invalidCredentialsException :=
  ⟨_, _, failed_logins_alike exampleConfig "u@example.com" (s := AuthState.init [passwordUser])
    (t := AuthState.init []) rfl
    (Semantics.shows_of_showCalls (List.replicate 5 (wrongLogin 4)) rfl)
    (Semantics.shows_of_showCalls (List.replicate 5 (wrongLogin 2)) rfl), rfl, rfl⟩

set_option maxRecDepth 4000 in
/-- With the account in the store the fifth answer is another one than without it. -/
theorem fifth_login_reveals_account : ∃ l l',
    (AuthState.init [passwordUser]).redis.rateLimits = (AuthState.init []).redis.rateLimits ∧
      (authService exampleConfig).Shows (WrongLogin exampleConfig "u@example.com")
        storageWorks (fun _ => True) (fun s => s.redis.rateLimits)
        (AuthState.init [passwordUser]) fiveLogins l ∧
      (authService exampleConfig).Shows (WrongLogin exampleConfig "u@example.com")
        storageWorks (fun _ => True) (fun s => s.redis.rateLimits)
        (AuthState.init []) fiveLogins l' ∧
      l.map Answered.answer = fiveRejections accountTemporarilyLockedException ∧
      l'.map Answered.answer = fiveRejections invalidCredentialsException ∧
      l.map Answered.answer ≠ l'.map Answered.answer := by
  refine ⟨_, _, rfl,
    Semantics.shows_of_showCalls (List.replicate 5 (wrongLogin 4)) rfl,
    Semantics.shows_of_showCalls (List.replicate 5 (wrongLogin 2)) rfl, ?_, ?_, ?_⟩
  · rfl
  · rfl
  · exact of_decide_eq_true rfl

end Auth

end Shortlink

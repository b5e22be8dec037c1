import Shortlink.Auth.TwoFactors

/-!
# The login lock

A fifth failure sets the lock of the account for an hour. Only another failure writes
this entry, with an expiry that is later still, so the lock stands for the hour whatever
the calls do (`lockedUntil_reaches`), and a login that starts and ends in this time finds
it (`login_lock_holds`).
-/

namespace Shortlink

namespace Auth

open Shortlink.Storage Shortlink.Transaction Shortlink.Interaction
open Shortlink.Expiring

/-- Locks disappear by their TTL only. -/
def KeepsLocks (_ : AuthPool) : AuthEvent → Prop
  | .environment (.evict (.loginLock _)) => False
  | _ => True

/-- A call of `incrementFailedLogin` between two states counts a fifth or later failure
of the account, whether or not its answer arrives. -/
structure CountsFifth (config : AuthConfig) (ok : AuthPool → AuthEvent → Prop)
    (σ σ' : AuthPool) (userId : String) : Prop where
  fires : ∃ k r, (authService config).Fires ok ⟨k, .redis (.incrementFailedLogin userId), r⟩
    σ σ'
  counted : σ'.shared.redis = (INCREMENT_FAILED_LOGIN_LUA userId σ.shared.redis).2
  fifth : MAX_FAILED_LOGINS ≤ (INCREMENT_FAILED_LOGIN_LUA userId σ.shared.redis).1.failures

/-- The call is a login of the account: the e-mail that a `startLogin` presents is the one
of the account, and the challenge that a `completeLogin` has consumed is one of it. -/
def LoginOf (config : AuthConfig) (σ : AuthPool) (k : ℕ) (userId : String) :
    AuthCall → Prop
  | .startLogin input _ => ∃ email account,
      createEmail config.toLowerCase input.email = some email ∧
        σ.shared.db.findAccountByEmail email = some account ∧ account.id = userId
  | .completeLogin input => ∃ now, Replied (traceOf σ.history k)
      (.consumeLoginChallenge input.challengeId (config.hmac input.code) now)
      (.consumed userId)
  | _ => False

/-- The lock of the account is there, and does not expire before `t`. -/
def LockedUntil (redis : Redis) (userId : String) (t : ℕ) : Prop :=
  ∃ expiresAt, redis.cell (.loginLock userId) = some ((), expiresAt) ∧ t ≤ expiresAt

section

variable {redis : Redis} {userId : String} {t : ℕ}

theorem LockedUntil.get (h : LockedUntil redis userId t) (hlt : redis.now < t) :
    redis.get (.loginLock userId) = some () := by
  obtain ⟨expiresAt, hcell, hle⟩ := h
  exact visible_eq_some_iff.2 ⟨expiresAt, hcell, Nat.lt_of_lt_of_le hlt hle⟩

theorem INCREMENT_FAILED_LOGIN_LUA_failures :
    (INCREMENT_FAILED_LOGIN_LUA userId redis).1.failures =
      (redis.incrEx (.failedLogin userId) TTL_ONE_HOUR_SECONDS).1 := by
  simp only [INCREMENT_FAILED_LOGIN_LUA]
  split <;> rfl

theorem INCREMENT_FAILED_LOGIN_LUA_cell_lock
    (h : MAX_FAILED_LOGINS ≤ (INCREMENT_FAILED_LOGIN_LUA userId redis).1.failures) :
    (INCREMENT_FAILED_LOGIN_LUA userId redis).2.cell (.loginLock userId) =
      some ((), redis.now + TTL_ONE_HOUR_SECONDS * 1000) := by
  rw [INCREMENT_FAILED_LOGIN_LUA_failures] at h
  rw [← redis.incrEx_now (.failedLogin userId) TTL_ONE_HOUR_SECONDS]
  simp only [INCREMENT_FAILED_LOGIN_LUA]
  split
  · exact Store.cell_set_self _ _ _
  · rename_i hlt
    exact absurd h hlt

/-- Earlier failures leave it alone. -/
theorem INCREMENT_FAILED_LOGIN_LUA_cell_lock_of_lt
    (h : (INCREMENT_FAILED_LOGIN_LUA userId redis).1.failures < MAX_FAILED_LOGINS) :
    (INCREMENT_FAILED_LOGIN_LUA userId redis).2.cell (.loginLock userId) =
      redis.cell (.loginLock userId) := by
  have hkey : RedisKey.loginLock userId ≠ .counter (.failedLogin userId) := nofun
  rw [INCREMENT_FAILED_LOGIN_LUA_failures] at h
  simp only [INCREMENT_FAILED_LOGIN_LUA]
  split
  · rename_i hfifth
    exact absurd h (Nat.not_lt.2 hfifth)
  · exact redis.cell_incrEx_of_ne TTL_ONE_HOUR_SECONDS hkey

theorem LockedUntil.increment (h : LockedUntil redis userId t)
    (ht : t ≤ redis.now + TTL_ONE_HOUR_SECONDS * 1000) :
    LockedUntil (INCREMENT_FAILED_LOGIN_LUA userId redis).2 userId t := by
  rw [LockedUntil]
  rcases Nat.lt_or_ge (INCREMENT_FAILED_LOGIN_LUA userId redis).1.failures
    MAX_FAILED_LOGINS with hlt | hfifth
  · rwa [INCREMENT_FAILED_LOGIN_LUA_cell_lock_of_lt hlt]
  · rw [INCREMENT_FAILED_LOGIN_LUA_cell_lock hfifth]
    exact ⟨_, rfl, ht⟩

/-- What the calls do to a failure counter and to a lock. -/
theorem LoginMay.eq_increment {config : AuthConfig} {call : AuthCall} {trace : AuthTrace}
    {c : RedisCommand} (hmay : LoginMay config call trace (.redis c))
    (hwrites : c.Writes (.loginLock userId) ∨ c.Writes (.counter (.failedLogin userId))) :
    c = .incrementFailedLogin userId := by
  cases c with
  | get key => exact hwrites.elim nofun nofun
  | existsKey key => exact hwrites.elim nofun nofun
  | set key value ttlSeconds =>
      cases key <;> first | exact hmay.elim | exact hwrites.elim nofun nofun
  | del key => cases key <;> first | exact hmay.elim | exact hwrites.elim nofun nofun
  | createLoginChallenge owner challengeId payload =>
      rcases hwrites with (⟨_, heq⟩ | heq) | (⟨_, heq⟩ | heq) <;> cases heq
  | consumeLoginChallenge challengeId codeHmac nowMs =>
      rcases hwrites with heq | heq <;> cases heq
  | incrementFailedLogin owner =>
      rcases hwrites with (heq | heq) | (heq | heq) <;> cases heq <;> rfl
  | incrementRateLimit operation dimension hash ttlSeconds =>
      rcases hwrites with heq | heq <;> cases heq

end

section

variable {config : AuthConfig} {users : List AccountRecord}
  {ok : AuthPool → AuthEvent → Prop} {σ σ' σ₁ : AuthPool} {userId : String} {t k : ℕ}

/-- The step lemma: the lock is written by another failure only. -/
theorem LockedUntil.step (h : (authService config).Reaches KeepsLocks
      (Pool.init (AuthState.init users)) σ)
    (hσ : LockedUntil σ.shared.redis userId t)
    (ht : t ≤ σ.shared.redis.now + TTL_ONE_HOUR_SECONDS * 1000)
    (hstep : (authService config).Steps KeepsLocks σ σ') :
    LockedUntil σ'.shared.redis userId t := by
  cases hstep.moves with
  | spawn call hok hshared hthreads hhistory => rwa [hshared]
  | environment x hok hshared hthreads hhistory =>
      rw [hshared]
      cases x with
      | tick n => exact hσ
      | evict key =>
          have hkey : RedisKey.loginLock userId ≠ key := by
            rintro rfl
            exact hok
          obtain ⟨expiresAt, hcell, hle⟩ := hσ
          exact ⟨expiresAt, (Store.cell_del_of_ne _ hkey).trans hcell, hle⟩
  | exec e he =>
      obtain ⟨call, rest, -, hmay⟩ := he.allowed (LoginMay config) (LoginEnds config) h
        fun _ call _ => body_course config call
      obtain ⟨o, -, hexec⟩ := he.exec
      rcases (exec_acts hexec).redis with hredis | ⟨c, hc, hredis⟩
      · rwa [hredis]
      · rw [hc] at hmay
        rw [hredis]
        by_cases hwrites : c.Writes (.loginLock userId)
        · obtain rfl := LoginMay.eq_increment hmay (.inl hwrites)
          exact hσ.increment ht
        · obtain ⟨expiresAt, hcell, hle⟩ := hσ
          exact ⟨expiresAt, (RedisCommand.cell_apply_of_not_writes _ hwrites).trans hcell,
            hle⟩

theorem lockedUntil_reaches (h : (authService config).Reaches KeepsLocks
      (Pool.init (AuthState.init users)) σ)
    (hσ : LockedUntil σ.shared.redis userId t)
    (ht : t ≤ σ.shared.redis.now + TTL_ONE_HOUR_SECONDS * 1000)
    (hrun : (authService config).Reaches KeepsLocks σ σ') :
    LockedUntil σ'.shared.redis userId t := by
  induction hrun with
  | refl => exact hσ
  | tail hrun hstep ih =>
      have hnow := (reaches_since hrun (reaches_sound h)).2.now
      exact ih.step (h.trans hrun) (Nat.le_trans ht (Nat.add_le_add_right hnow _)) hstep

theorem CountsFifth.lockedUntil (h : CountsFifth config ok σ σ' userId) :
    LockedUntil σ'.shared.redis userId
      (σ'.shared.redis.now + TTL_ONE_HOUR_SECONDS * 1000) := by
  have hnow : σ'.shared.redis.now = σ.shared.redis.now := by
    rw [h.counted]
    exact RedisCommand.apply_now (.incrementFailedLogin userId) σ.shared.redis
  rw [LockedUntil, hnow, h.counted, INCREMENT_FAILED_LOGIN_LUA_cell_lock h.fifth]
  exact ⟨_, rfl, Nat.le_refl _⟩

/-- A call that was started after `σ` and has found no lock, has found none in between. -/
theorem unlocked_between (h : (authService config).Reaches ok
      (Pool.init (AuthState.init users)) σ)
    (hrun : (authService config).Reaches ok σ σ') (hk : σ.threads.length ≤ k)
    (hreplied : Replied (traceOf σ'.history k) (.existsKey (.loginLock userId)) false) :
    ∃ σ₁, (authService config).Reaches ok σ σ₁ ∧ (authService config).Reaches ok σ₁ σ' ∧
      σ₁.shared.redis.get (.loginLock userId) = none := by
  obtain ⟨l₂, l₁, hl⟩ := List.append_of_mem (mem_traceOf.1 hreplied)
  obtain ⟨σ₁, σ₂, h₁, he, -, h₂⟩ := Semantics.Reaches.split_new h hrun hl hk
  obtain ⟨o, -, hexec⟩ := he.exec
  have hsome : (σ₁.shared.redis.get (.loginLock userId)).isSome = false :=
    (Prod.mk.inj (exec_redis_ok (c := .existsKey (.loginLock userId)) hexec).1).1
  refine ⟨σ₁, h₁, (Relation.ReflTransGen.single he.steps).trans h₂, ?_⟩
  exact Option.isNone_iff_eq_none.1 (by rw [← Option.not_isSome, hsome]; rfl)

/-- The account of an answer of `findAccountByEmail` is the one in the table. -/
theorem found_by_email (h : (authService config).Reaches ok
      (Pool.init (AuthState.init users)) σ) {email : String} {account : Option AccountRecord}
    (hfound : Found (traceOf σ.history k) (.findAccountByEmail email) account) :
    σ.shared.db.findAccountByEmail email = account := by
  obtain ⟨stamp, db, db', hrun, husers⟩ := found_run h hfound
  have hfind : db.findAccountByEmail email = account :=
    (Prod.mk.inj (Except.ok.inj hrun)).1
  rw [← hfind, AuthDb.findAccountByEmail, AuthDb.findAccountByEmail, husers,
    (reaches_since h (sound_init users)).2.users]
  rfl

/-- A call consumes at most one challenge. -/
theorem consumed_once (h : (authService config).Reaches ok
      (Pool.init (AuthState.init users)) σ) {x y : Exchange AuthStep AuthStep.Reply}
    (hx : x ∈ traceOf σ.history k) (hy : y ∈ traceOf σ.history k)
    (hcx : x.1.consumesChallenge = true) (hcy : y.1.consumesChallenge = true) : x = y := by
  refine h.eq_of_once AuthStep.consumesChallenge (LoginMay config) (LoginEnds config)
    (fun _ call _ => body_course config call) (fun call trace c hmay hc => ?_) hx hy hcx hcy
  cases c with
  | redis c =>
      cases c with
      | consumeLoginChallenge challengeId codeHmac now => exact hmay.1
      | _ => cases hc
  | _ => cases hc

end

/-- A fifth failure locks the account: for an hour the lock is there, and no login of the
account that starts and ends in this hour returns a challenge or tokens. -/
theorem login_lock_holds (config : AuthConfig) (users : List AccountRecord)
    {σ₀ σ₁ σ₂ : AuthPool} {userId : String}
    (h : (authService config).Reaches KeepsLocks (Pool.init (AuthState.init users)) σ₀)
    (hfifth : CountsFifth config KeepsLocks σ₀ σ₁ userId)
    (hrun : (authService config).Reaches KeepsLocks σ₁ σ₂)
    (hwithin : σ₂.shared.redis.now < σ₁.shared.redis.now + TTL_ONE_HOUR_SECONDS * 1000) :
    σ₂.shared.redis.get (.loginLock userId) = some () ∧
      ∀ k call, σ₁.threads.length ≤ k → σ₂.call? k = some call →
        LoginOf config σ₂ k userId call →
          (∀ challenge, σ₂.result? k ≠ some (.ok (.challenge challenge))) ∧
            ∀ login, σ₂.result? k ≠ some (.ok (.completed login)) := by
  obtain ⟨i, r, hfires⟩ := hfifth.fires
  have h₁ : (authService config).Reaches KeepsLocks (Pool.init (AuthState.init users)) σ₁ :=
    h.tail hfires.steps
  have hlocked : ∀ σ, (authService config).Reaches KeepsLocks σ₁ σ →
      (authService config).Reaches KeepsLocks σ σ₂ →
        σ.shared.redis.get (.loginLock userId) = some () := by
    intro σ hσ hσ₂
    have hnow := (reaches_since hσ₂ (reaches_sound (h₁.trans hσ))).2.now
    exact (lockedUntil_reaches h₁ hfifth.lockedUntil (Nat.le_refl _) hσ).get
      (Nat.lt_of_le_of_lt hnow hwithin)
  have hunlocked : ∀ k, σ₁.threads.length ≤ k →
      ¬ Replied (traceOf σ₂.history k) (.existsKey (.loginLock userId)) false := by
    intro k hk hreplied
    obtain ⟨σ, hσ, hσ₂, hnone⟩ := unlocked_between h₁ hrun hk hreplied
    rw [hlocked σ hσ hσ₂] at hnone
    cases hnone
  have h₂ : (authService config).Reaches KeepsLocks (Pool.init (AuthState.init users)) σ₂ :=
    h₁.trans hrun
  refine ⟨hlocked σ₂ hrun .refl, fun k call hk hcall hlogin => ⟨fun challenge ha => ?_,
    fun login ha => ?_⟩⟩
  · obtain ⟨call', hthread⟩ := (Pool.result?_eq_some_iff σ₂ k _).1 ha
    rw [Pool.call?, hthread] at hcall
    obtain rfl := Option.some.inj hcall
    obtain ⟨input, clientIp, account, payload, rfl, hauth, -⟩ :=
      h₂.obeys (LoginMay config) (LoginEnds config) (fun _ call _ => body_course config call)
        hthread
    obtain ⟨email, hemail, hfound⟩ := hauth.found
    obtain ⟨email', account', hemail', haccount, rfl⟩ := hlogin
    obtain rfl := Option.some.inj (hemail.symm.trans hemail')
    obtain rfl := Option.some.inj ((found_by_email h₂ hfound).symm.trans haccount)
    exact hunlocked k hk hauth.unlocked
  · obtain ⟨call', hthread⟩ := (Pool.result?_eq_some_iff σ₂ k _).1 ha
    rw [Pool.call?, hthread] at hcall
    obtain rfl := Option.some.inj hcall
    obtain ⟨input, owner, rfl, later, earlier, now, htrace, hreplied⟩ :=
      h₂.obeys (LoginMay config) (LoginEnds config) (fun _ call _ => body_course config call)
        hthread
    obtain ⟨now', hconsumed⟩ := hlogin
    have hmem : Replied (traceOf σ₂.history k) (.consumeLoginChallenge input.challengeId
        (config.hmac input.code) now) (.consumed owner) :=
      htrace ▸ List.mem_append_right _ List.mem_cons_self
    cases consumed_once h₂ hmem hconsumed rfl rfl
    exact hunlocked k hk (htrace ▸ List.mem_append_left _ hreplied)

/-! ### A locked account -/

/-- A `startLogin` with a wrong password is started as call `k` and makes `n` steps. -/
def failingLogin (k n : ℕ) : List AuthEvent :=
  .spawn (.startLogin ⟨"u@example.com", "wrong"⟩ "") :: steps k "x" n

/-- The fifth of five failures is counted with the third step of its call. -/
def fifthFailure (n : ℕ) : AuthPool :=
  (authService exampleConfig).after
    (failingLogin 0 4 ++ failingLogin 1 4 ++ failingLogin 2 4 ++ failingLogin 3 4 ++
      failingLogin 4 n)
    (Pool.init (AuthState.init [passwordUser]))

/-- A login with the right password behind them. -/
def lockedLogin : AuthPool :=
  (authService exampleConfig).after
    (.spawn (.startLogin ⟨"u@example.com", examplePassword⟩ "") :: steps 5 "x" 3)
    (fifthFailure 3)

instance decidableKeepsLocks : ∀ σ e, Decidable (KeepsLocks σ e)
  | _, .environment (.evict (.loginLock _)) => isFalse nofun
  | _, .environment (.evict (.issuance _ _)) => isTrue trivial
  | _, .environment (.evict (.loginChallenge _)) => isTrue trivial
  | _, .environment (.evict (.loginChallengeAccount _)) => isTrue trivial
  | _, .environment (.evict (.counter _)) => isTrue trivial
  | _, .environment (.evict (.session _)) => isTrue trivial
  | _, .environment (.tick _) => isTrue trivial
  | _, .exec _ _ => isTrue trivial
  | _, .spawn _ => isTrue trivial

set_option maxRecDepth 4000 in
theorem locked_login_is_refused :
    lockedLogin.result? 5 = some (.error accountTemporarilyLockedException) ∧
      lockedLogin.shared.redis.get (.loginLock "u") = some () ∧
      ∀ challenge, lockedLogin.result? 5 ≠ some (.ok (.challenge challenge)) := by
  have hbefore : (authService exampleConfig).Reaches KeepsLocks
      (Pool.init (AuthState.init [passwordUser])) (fifthFailure 2) :=
    Semantics.reaches_after _ (by decide +kernel)
  have hfifth : CountsFifth exampleConfig KeepsLocks (fifthFailure 2) (fifthFailure 3) "u" :=
    ⟨⟨4, .ok ⟨5, true⟩, ⟨⟨⟨1, 1, 1, "x", "x"⟩, "x", .none⟩, trivial, rfl⟩, ⟨_, _, rfl, rfl⟩, rfl⟩,
      rfl, by decide +kernel⟩
  have hrun : (authService exampleConfig).Reaches KeepsLocks (fifthFailure 3) lockedLogin :=
    Semantics.reaches_after _ (by decide +kernel)
  obtain ⟨hlock, hrefused⟩ := login_lock_holds exampleConfig [passwordUser] hbefore hfifth hrun
    (by decide +kernel)
  refine ⟨by decide +kernel, hlock, (hrefused 5 (.startLogin ⟨"u@example.com", examplePassword⟩
    "") (by decide +kernel) (by decide +kernel) ?_).1⟩
  exact ⟨"u@example.com", passwordUser, by decide, by decide +kernel, rfl⟩

end Auth

end Shortlink

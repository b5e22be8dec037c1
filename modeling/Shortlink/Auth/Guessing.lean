import Shortlink.Auth.LoginLock

/-!
# Guessing in parallel

`completeLogin` compares a code, counts a wrong one and looks at the lock in separate
commands. Five wrong codes stop a later call only if they have been counted when it looks
at the lock: then the lock covers what is left of the failure window (`LockCovers`), and the
call is refused (`late_guess_refused`).
-/

namespace Shortlink

namespace Auth

open Shortlink.Storage Shortlink.Transaction Shortlink.Interaction
open Shortlink.Expiring

/-- The entry compares a code with the challenge and finds it wrong. -/
def findsWrong (challengeId : String) : AuthEntry → Bool
  | ⟨_, .redis (.consumeLoginChallenge id _ _), .ok .invalid⟩ => id == challengeId
  | _ => false

/-- How many calls have had their code compared with the challenge and found wrong since
`σ₀`; a call compares once (`consumed_once`). -/
def wrongCodes (σ₀ σ : AuthPool) (challengeId : String) : ℕ :=
  σ.history.countP (findsWrong challengeId) - σ₀.history.countP (findsWrong challengeId)

def AuthStep.looksAtLock (userId : String) : AuthStep → Bool
  | .redis (.existsKey (.loginLock id)) => id == userId
  | _ => false

/-- The failures counted in the current window of the account. -/
def Redis.failures (redis : Redis) (userId : String) : ℕ :=
  (redis.count (.failedLogin userId)).getD 0

/-- The failure window of the account does not end: its counter does not expire. Keys
disappear by their TTL only. -/
def InFailureWindow (userId : String) (σ : AuthPool) : AuthEvent → Prop
  | .environment (.tick n) => (σ.shared.redis.count (.failedLogin userId)).isSome →
      Redis.count (σ.shared.redis.tick n) (.failedLogin userId) ≠ none
  | .environment (.evict key) => key ≠ .counter (.failedLogin userId) ∧
      ∀ userId, key ≠ .loginLock userId
  | _ => True

/-- When the call looks at the lock of the account, as many failures have been counted as
codes have been compared with the challenge and found wrong since `σ₀`, or five. -/
def CaughtUp (σ₀ : AuthPool) (challengeId userId : String) (k : ℕ) (σ : AuthPool) :
    AuthEvent → Prop
  | .exec i _ => i = k → (σ.next? k).any (AuthStep.looksAtLock userId) = true →
      min (wrongCodes σ₀ σ challengeId) MAX_FAILED_LOGINS ≤ σ.shared.redis.failures userId
  | _ => True

/-- What is left of the failure window of the account is locked from the fifth failure
on. -/
def LockCovers (redis : Redis) (userId : String) : Prop :=
  ∀ (failures : ℕ) (expiresAt : ℕ),
    redis.cell (.counter (.failedLogin userId)) = some (failures, expiresAt) →
      expiresAt ≤ redis.now + TTL_ONE_HOUR_SECONDS * 1000 ∧
        (redis.now < expiresAt → MAX_FAILED_LOGINS ≤ failures →
          LockedUntil redis userId expiresAt)

theorem InFailureWindow.keepsLocks {userId : String} {σ : AuthPool} {e : AuthEvent}
    (h : InFailureWindow userId σ e) : KeepsLocks σ e := by
  cases e with
  | environment x =>
      cases x with
      | tick n => trivial
      | evict key =>
          cases key with
          | loginLock owner => exact h.2 owner rfl
          | _ => trivial
  | _ => trivial

theorem wrongCodes_mono {M : Semantics AuthStep AuthStep.Reply AuthCall AuthResult AuthState
      AuthOutside AuthEnvironment} {ok : AuthPool → AuthEvent → Prop} {σ₀ σ σ' : AuthPool}
    (h : M.Reaches ok σ σ') (challengeId : String) :
    wrongCodes σ₀ σ challengeId ≤ wrongCodes σ₀ σ' challengeId :=
  Nat.sub_le_sub_right (h.history_suffix.sublist.countP_le) _

section

variable {redis redis' : Redis} {userId : String}

theorem LockCovers.get (h : LockCovers redis userId)
    (hfifth : MAX_FAILED_LOGINS ≤ redis.failures userId) :
    redis.get (.loginLock userId) = some () := by
  cases hcount : redis.count (.failedLogin userId) with
  | none =>
      rw [Redis.failures, hcount] at hfifth
      exact absurd hfifth (by decide)
  | some failures =>
      rw [Redis.failures, hcount] at hfifth
      obtain ⟨expiresAt, hcell, hlt⟩ := visible_eq_some_iff.1 hcount
      exact ((h failures expiresAt hcell).2 hlt hfifth).get hlt

/-- Time passes, and other entries change. -/
theorem LockCovers.congr (h : LockCovers redis userId) (hnow : redis.now ≤ redis'.now)
    (hcounter : ∀ entry, redis'.cell (.counter (.failedLogin userId)) = some entry →
      redis.cell (.counter (.failedLogin userId)) = some entry)
    (hlock : redis'.cell (.loginLock userId) = redis.cell (.loginLock userId)) :
    LockCovers redis' userId := by
  intro failures expiresAt hcell
  obtain ⟨hle, hcovers⟩ := h failures expiresAt (hcounter _ hcell)
  refine ⟨Nat.le_trans hle (Nat.add_le_add_right hnow _), fun hlt hfifth => ?_⟩
  obtain ⟨lockedUntil, hlocked, hle'⟩ := hcovers (Nat.lt_of_le_of_lt hnow hlt) hfifth
  exact ⟨lockedUntil, hlock.trans hlocked, hle'⟩

theorem INCREMENT_FAILED_LOGIN_LUA_cell_counter :
    (INCREMENT_FAILED_LOGIN_LUA userId redis).2.cell (.counter (.failedLogin userId)) =
      (redis.incrEx (.failedLogin userId) TTL_ONE_HOUR_SECONDS).2.cell
        (.counter (.failedLogin userId)) := by
  have hkey : RedisKey.counter (.failedLogin userId) ≠ .loginLock userId := nofun
  simp only [INCREMENT_FAILED_LOGIN_LUA]
  split
  · exact Redis.cell_setEx_of_ne _ _ _ hkey
  · rfl

/-- A counter that is incremented keeps its expiry. -/
theorem LockCovers.increment (h : LockCovers redis userId) :
    LockCovers (INCREMENT_FAILED_LOGIN_LUA userId redis).2 userId := by
  have hnow : (INCREMENT_FAILED_LOGIN_LUA userId redis).2.now = redis.now :=
    RedisCommand.apply_now (.incrementFailedLogin userId) redis
  intro failures expiresAt hcell
  rw [INCREMENT_FAILED_LOGIN_LUA_cell_counter] at hcell
  rw [hnow]
  cases hcount : redis.count (.failedLogin userId) with
  | none =>
      rw [Redis.cell_incrEx_of_none _ hcount] at hcell
      obtain ⟨rfl, rfl⟩ := Prod.mk.inj (Option.some.inj hcell)
      exact ⟨Nat.le_refl _, fun _ hfifth => absurd hfifth (by decide)⟩
  | some count =>
      obtain ⟨expires, hbefore, hlt⟩ := visible_eq_some_iff.1 hcount
      have hle := (h count expires hbefore).1
      rw [Redis.cell_incrEx_of_some _ hcount hbefore] at hcell
      obtain ⟨rfl, rfl⟩ := Prod.mk.inj (Option.some.inj hcell)
      refine ⟨hle, fun _ hfifth => ?_⟩
      have hfailures : (INCREMENT_FAILED_LOGIN_LUA userId redis).1.failures = count + 1 := by
        rw [INCREMENT_FAILED_LOGIN_LUA_failures, Redis.incrEx, hcount]
      exact ⟨_, INCREMENT_FAILED_LOGIN_LUA_cell_lock (hfailures ▸ hfifth), hle⟩

theorem LockCovers.command (h : LockCovers redis userId) {c : RedisCommand}
    (hc : c.Writes (.loginLock userId) ∨ c.Writes (.counter (.failedLogin userId)) →
      c = .incrementFailedLogin userId) : LockCovers (c.apply redis).2 userId := by
  by_cases hwrites : c.Writes (.loginLock userId) ∨ c.Writes (.counter (.failedLogin userId))
  · obtain rfl := hc hwrites
    exact h.increment
  · rw [not_or] at hwrites
    refine h.congr (Nat.le_of_eq (c.apply_now _).symm) (fun entry hentry => ?_)
      (RedisCommand.cell_apply_of_not_writes _ hwrites.1)
    exact (RedisCommand.cell_apply_of_not_writes _ hwrites.2).symm.trans hentry

theorem LockCovers.environment {s : AuthState} (h : LockCovers s.redis userId)
    {x : AuthEnvironment} (hx : ∀ owner, x ≠ .evict (.loginLock owner)) :
    LockCovers (Auth.environment x s).redis userId := by
  cases x with
  | tick n => exact h.congr (Nat.le_add_right _ _) (fun _ h => h) rfl
  | evict key =>
      have hkey : RedisKey.loginLock userId ≠ key := fun heq => hx userId (heq ▸ rfl)
      refine h.congr (Nat.le_refl _) (fun entry hentry => ?_) (Store.cell_del_of_ne _ hkey)
      by_cases hcounter : RedisKey.counter (.failedLogin userId) = key
      · subst hcounter
        cases (Store.cell_del_self _ _).symm.trans hentry
      · exact (Store.cell_del_of_ne _ hcounter).symm.trans hentry

end

section

variable {config : AuthConfig} {users : List AccountRecord} {σ σ' : AuthPool}
  {userId : String}

theorem LockCovers.step (h : (authService config).Reaches KeepsLocks
      (Pool.init (AuthState.init users)) σ) (hσ : LockCovers σ.shared.redis userId)
    (hstep : (authService config).Steps KeepsLocks σ σ') :
    LockCovers σ'.shared.redis userId := by
  cases hstep.moves with
  | spawn call hok hshared hthreads hhistory => rwa [hshared]
  | environment x hok hshared hthreads hhistory =>
      rw [hshared]
      refine hσ.environment fun owner hx => ?_
      subst hx
      exact hok
  | exec e he =>
      obtain ⟨call, rest, -, hmay⟩ := he.allowed (LoginMay config) (LoginEnds config) h
        fun _ call _ => body_course config call
      obtain ⟨o, -, hexec⟩ := he.exec
      rcases (exec_acts hexec).redis with hredis | ⟨c, hc, hredis⟩
      · rwa [hredis]
      · rw [hc] at hmay
        rw [hredis]
        exact hσ.command hmay.eq_increment

theorem lockCovers (h : (authService config).Reaches KeepsLocks
      (Pool.init (AuthState.init users)) σ) : LockCovers σ.shared.redis userId := by
  induction h with
  | refl => exact nofun
  | tail hrun hstep ih => exact ih.step hrun hstep

theorem history_behind_comparison {ok : AuthPool → AuthEvent → Prop} {σ₁ : AuthPool} {k : ℕ}
    {challengeId codeHmac : String} {now : ℕ}
    {r : AuthStep.Reply (.redis (.consumeLoginChallenge challengeId codeHmac now))}
    {x : Exchange AuthStep AuthStep.Reply} {later earlier : AuthTrace}
    (h : (authService config).Reaches ok (Pool.init (AuthState.init users)) σ)
    (hcompare : (authService config).Fires ok
      ⟨k, .redis (.consumeLoginChallenge challengeId codeHmac now), r⟩ σ σ₁)
    (hrun : (authService config).Reaches ok σ₁ σ')
    (htrace : traceOf σ'.history k = later ++
      ⟨.redis (.consumeLoginChallenge challengeId codeHmac now), r⟩ :: earlier)
    (hx : x ∈ later) :
    ∃ l₂ l₁, σ'.history = l₂ ++ ⟨k, x.1, x.2⟩ :: l₁ ∧ σ₁.history <:+ l₁ := by
  obtain ⟨a, b, rfl⟩ := List.append_of_mem hx
  rw [List.append_assoc, List.cons_append] at htrace
  obtain ⟨l₂, l₁, hl, hl₁⟩ := exists_of_traceOf_eq (c := x.1) (r := x.2) htrace
  refine ⟨l₂, l₁, hl, ?_⟩
  have hsuffix : l₁ <:+ σ'.history :=
    hl ▸ (List.suffix_cons _ _).trans (List.suffix_append _ _)
  rcases List.suffix_or_suffix_of_suffix hrun.history_suffix hsuffix with hle | hge
  · exact hle
  rw [hcompare.history] at hge ⊢
  rcases List.suffix_cons_iff.1 hge with heq | hbefore
  · exact heq ▸ List.suffix_refl _
  -- otherwise the call had compared a code before
  obtain ⟨call, rest, -, hmay⟩ := hcompare.allowed (LoginMay config) (LoginEnds config) h
    fun _ call _ => body_course config call
  have hmem := mem_traceOf_of_suffix hbefore
    (hl₁ ▸ List.mem_append_right b List.mem_cons_self)
  cases hmay.1 _ hmem

end

/-- When five codes have been compared with a challenge and found wrong in a failure window,
no call that compares a code later in this window returns tokens, provided that the failures
have been counted when it looks at the lock. -/
theorem late_guess_refused (config : AuthConfig) (users : List AccountRecord)
    {σ₀ σ σ₁ σ₂ : AuthPool} {userId challengeId codeHmac : String} {k now : ℕ}
    {r : AuthStep.Reply (.redis (.consumeLoginChallenge challengeId codeHmac now))}
    (h : (authService config).Reaches KeepsLocks (Pool.init (AuthState.init users)) σ₀)
    (hwindow : (authService config).Reaches (InFailureWindow userId) σ₀ σ)
    (hwrong : MAX_FAILED_LOGINS ≤ wrongCodes σ₀ σ challengeId)
    (howner : ∀ payload : LoginChallengePayload,
      σ.shared.redis.get (.loginChallenge challengeId) = some payload →
        payload.userId = userId)
    (hcompare : (authService config).Fires (InFailureWindow userId)
      ⟨k, .redis (.consumeLoginChallenge challengeId codeHmac now), r⟩ σ σ₁)
    (hrun : (authService config).Reaches (fun σ e => InFailureWindow userId σ e ∧
      CaughtUp σ₀ challengeId userId k σ e) σ₁ σ₂)
    (login : CompletedLogin) : σ₂.result? k ≠ some (.ok (.completed login)) := by
  intro hresult
  have hkeeps : ∀ σ e, InFailureWindow userId σ e → KeepsLocks σ e :=
    fun _ _ => InFailureWindow.keepsLocks
  have hcompare' : (authService config).Fires KeepsLocks _ σ σ₁ :=
    hcompare.mono hkeeps
  have hσ : (authService config).Reaches KeepsLocks (Pool.init (AuthState.init users)) σ :=
    h.trans (Semantics.Reaches.mono hkeeps hwindow)
  have hrun' : (authService config).Reaches KeepsLocks σ₁ σ₂ :=
    Semantics.Reaches.mono (fun σ e he => hkeeps σ e he.1) hrun
  have hσ₁ : (authService config).Reaches KeepsLocks (Pool.init (AuthState.init users)) σ₁ :=
    hσ.tail hcompare'.steps
  have hσ₂ : (authService config).Reaches KeepsLocks (Pool.init (AuthState.init users)) σ₂ :=
    hσ₁.trans hrun'
  obtain ⟨call, hthread⟩ := (Pool.result?_eq_some_iff σ₂ k _).1 hresult
  obtain ⟨input, owner, rfl, later, earlier, now', htrace, hreplied⟩ :=
    hσ₂.obeys (LoginMay config) (LoginEnds config) (fun _ call _ => body_course config call)
      hthread
  -- the comparison of the call is the consumption that its tokens need
  have hmem : (⟨.redis (.consumeLoginChallenge challengeId codeHmac now), r⟩ :
      Exchange AuthStep AuthStep.Reply) ∈ traceOf σ₂.history k := by
    refine mem_traceOf.2 (hrun'.history_suffix.mem ?_)
    rw [hcompare.history]
    exact List.mem_cons_self
  cases consumed_once hσ₂ hmem (htrace ▸ List.mem_append_right _ List.mem_cons_self) rfl rfl
  obtain ⟨o, -, hexec⟩ := hcompare.exec
  obtain ⟨payload, hvisible, rfl, -⟩ := CONSUME_LOGIN_CHALLENGE_LUA_consumed
    (Prod.mk.inj (exec_redis_ok (c := .consumeLoginChallenge input.challengeId
      (config.hmac input.code) now) hexec).1).1
  obtain rfl := howner payload hvisible
  -- behind it the call looks at the lock
  obtain ⟨l₂, l₁, hl, hsuffix⟩ := history_behind_comparison hσ hcompare' hrun' htrace hreplied
  obtain ⟨τ, τ', hτ, hlook, -, -⟩ := hrun.split hl hsuffix
  obtain ⟨o', ⟨-, hcaught⟩, hexec'⟩ := hlook.exec
  obtain ⟨call', next, hnext, -⟩ := hlook.thread
  have hnext' : (τ.next? k).any (AuthStep.looksAtLock payload.userId) = true := by
    rw [Pool.next?, hnext]
    simp [AuthStep.looksAtLock, Program.next?]
  have hfifth : MAX_FAILED_LOGINS ≤ τ.shared.redis.failures payload.userId := by
    refine Nat.le_trans (Nat.le_min.2 ⟨?_, Nat.le_refl _⟩) (hcaught rfl hnext')
    exact Nat.le_trans hwrong (wrongCodes_mono
      ((Relation.ReflTransGen.single hcompare'.steps).trans
        (Semantics.Reaches.mono (fun σ e he => hkeeps σ e he.1) hτ)) _)
  have hlocked := (lockCovers (hσ₁.trans
    (Semantics.Reaches.mono (fun σ e he => hkeeps σ e he.1) hτ))).get hfifth
  have hnone : (τ.shared.redis.get (.loginLock payload.userId)).isSome = false :=
    (Prod.mk.inj (exec_redis_ok (c := .existsKey (.loginLock payload.userId)) hexec').1).1
  rw [hlocked] at hnone
  cases hnone

/-! ### Five guesses -/

/-- A login has created the challenge `c`, whose code is `c`. -/
def challenged : AuthPool :=
  (authService exampleConfig).after
    (.spawn (.startLogin ⟨"u@example.com", examplePassword⟩ "") :: steps 0 "c" 10)
    (Pool.init (AuthState.init [passwordUser]))

/-- A `completeLogin` with this code is started as call `k` and makes `n` steps. -/
def guess (code : String) (k n : ℕ) : List AuthEvent :=
  .spawn (.completeLogin ⟨"c", code⟩) :: steps k "x" n

/-- Five wrong guesses make `n` steps each: five before they count their failures, and
seven altogether. -/
def wrongGuesses (k n : ℕ) : List AuthEvent :=
  guess "x" k n ++ guess "x" (k + 1) n ++ guess "x" (k + 2) n ++ guess "x" (k + 3) n ++
    guess "x" (k + 4) n

/-- The right code is presented behind wrong ones that have not been counted. -/
def uncounted (n : ℕ) : AuthPool :=
  (authService exampleConfig).after (wrongGuesses 1 5 ++ guess "c" 6 n) challenged

/-- A call with the right code has looked at the lock when the wrong ones are counted. -/
def counted (n : ℕ) : AuthPool :=
  (authService exampleConfig).after
    (guess "c" 1 4 ++ wrongGuesses 2 7 ++ steps 1 "x" n) challenged

/-- The comparison of the right code. -/
def rightCode (k : ℕ) : AuthEntry :=
  ⟨k, .redis (.consumeLoginChallenge "c" "#c" 0), Except.ok (.consumed "u")⟩

instance decidableInFailureWindow (userId : String) :
    ∀ σ e, Decidable (InFailureWindow userId σ e)
  | σ, .environment (.tick n) => inferInstanceAs (Decidable
      ((σ.shared.redis.count (.failedLogin userId)).isSome →
        Redis.count (σ.shared.redis.tick n) (.failedLogin userId) ≠ none))
  | _, .environment (.evict key) => inferInstanceAs (Decidable
      (key ≠ .counter (.failedLogin userId) ∧ ∀ userId, key ≠ .loginLock userId))
  | _, .exec _ _ => isTrue trivial
  | _, .spawn _ => isTrue trivial

instance decidableCaughtUp (σ₀ : AuthPool) (challengeId userId : String) (k : ℕ) :
    ∀ σ e, Decidable (CaughtUp σ₀ challengeId userId k σ e)
  | σ, .exec i _ => inferInstanceAs (Decidable (i = k →
      (σ.next? k).any (AuthStep.looksAtLock userId) = true →
        min (wrongCodes σ₀ σ challengeId) MAX_FAILED_LOGINS ≤
          σ.shared.redis.failures userId))
  | _, .environment _ => isTrue trivial
  | _, .spawn _ => isTrue trivial

theorem challenged_reached : (authService exampleConfig).Reaches KeepsLocks
    (Pool.init (AuthState.init [passwordUser])) challenged :=
  Semantics.reaches_after _ (by decide +kernel)

set_option maxRecDepth 4000 in
theorem counted_guess_is_refused :
    (counted 2).result? 1 = some (.error accountTemporarilyLockedException) ∧
      ∀ login, (counted 2).result? 1 ≠ some (.ok (.completed login)) := by
  have hwindow : (authService exampleConfig).Reaches (InFailureWindow "u") challenged
      (counted 0) := Semantics.reaches_after _ (by decide +kernel)
  have hcompare : (authService exampleConfig).Fires (InFailureWindow "u") (rightCode 1)
      (counted 0) (counted 1) :=
    ⟨⟨⟨⟨1, 1, 1, "x", "x"⟩, "x", .none⟩, trivial, rfl⟩, ⟨_, _, rfl, rfl⟩, rfl⟩
  have hrun : (authService exampleConfig).Reaches (fun σ e => InFailureWindow "u" σ e ∧
      CaughtUp challenged "c" "u" 1 σ e) (counted 1)
        ((authService exampleConfig).after (steps 1 "x" 1) (counted 1)) :=
    Semantics.reaches_after _ (by decide +kernel)
  have hlive : Option.map LoginChallengePayload.userId
      ((counted 0).shared.redis.get (.loginChallenge "c")) = some "u" := by
    decide +kernel
  refine ⟨by decide +kernel, late_guess_refused exampleConfig [passwordUser] challenged_reached
    hwindow (by decide +kernel) (fun payload h => ?_) hcompare hrun⟩
  rw [h] at hlive
  exact Option.some.inj hlive

set_option maxRecDepth 4000 in
/-- Five wrong codes have been compared and none has been counted: the right code gets
tokens. -/
theorem uncounted_guesses_do_not_lock :
    (authService exampleConfig).Reaches KeepsLocks (Pool.init (AuthState.init [passwordUser]))
        challenged ∧
      (authService exampleConfig).Reaches (InFailureWindow "u") challenged (uncounted 4) ∧
      wrongCodes challenged (uncounted 4) "c" = 5 ∧
      (authService exampleConfig).Fires (InFailureWindow "u") (rightCode 6) (uncounted 4)
        (uncounted 5) ∧
      (authService exampleConfig).Reaches (InFailureWindow "u") (uncounted 5)
        ((authService exampleConfig).after (steps 6 "x" 10) (uncounted 5)) ∧
      ∃ login, ((authService exampleConfig).after (steps 6 "x" 10) (uncounted 5)).result? 6 =
        some (.ok (.completed login)) :=
  ⟨challenged_reached, Semantics.reaches_after _ (by decide +kernel), by decide +kernel,
    ⟨⟨⟨⟨1, 1, 1, "x", "x"⟩, "x", .none⟩, trivial, rfl⟩, ⟨_, _, rfl, rfl⟩, rfl⟩,
    Semantics.reaches_after _ (by decide +kernel), ⟨"x", 900, "x", "x"⟩, by decide +kernel⟩

end Auth

end Shortlink

import Shortlink.Account.Issuance
import Shortlink.Auth.CountedFailures

/-!
# The failure limit

Wrong passwords and wrong login codes are counted together, and the fifth of them in a
failure window locks the account (`fifth_login_failure_locks`). `verifyEmail` neither
counts a wrong activation code nor looks at the lock: such codes lock nothing
(`wrong_activation_codes_do_not_lock`).
-/

namespace Shortlink

namespace Account

open Shortlink.Storage Shortlink.Transaction Shortlink.Interaction Shortlink.Expiring
open Shortlink.Auth AccountProgram

abbrev AccountTrace : Type := List (Exchange AccountStep AccountStep.Reply)

/-- What a trace has of the auth services. -/
def authTrace : AccountTrace → AuthTrace
  | [] => []
  | ⟨.auth c, r⟩ :: trace => ⟨c, r⟩ :: authTrace trace
  | _ :: trace => authTrace trace

/-- The call has found a secret of the account to be wrong: its password, the code of a
live challenge, or the code of its pending activation. -/
def Mistaken (config : AccountConfig) (trace : AccountTrace) (userId : String) :
    AccountCall → Prop
  | .auth call => FoundWrong config.auth (authTrace trace) userId call
  | .verifyEmail input => ∃ attempts, (⟨.redis (.consumeActivation userId
      (config.auth.hmac input.code)), .ok (.invalid attempts)⟩ :
        Exchange AccountStep AccountStep.Reply) ∈ trace
  | _ => False

/-- The call is an attempt on the account: a login of it, or an activation with the code
that is stored for it. -/
def Attempts (config : AccountConfig) (trace : AccountTrace) (userId : String) :
    AccountCall → Prop
  | .auth call => LogsIn config.auth (authTrace trace) userId call
  | .verifyEmail input => (⟨.redis (.consumeActivation userId
      (config.auth.hmac input.code)), .ok .consumed⟩ :
        Exchange AccountStep AccountStep.Reply) ∈ trace
  | _ => False

/-- The call is a failed attempt on the account. A call that found the storage to be
unavailable is none. -/
def Failed (config : AccountConfig) (σ : AccountPool) (userId : String) (k : ℕ) : Prop :=
  ∃ call r, σ.call? k = some call ∧ σ.result? k = some r ∧
    r ≠ .error securityStorageUnavailableException ∧
    Mistaken config (traceOf σ.history k) userId call

/-- The call is one of the auth services, such as `startLogin` and `completeLogin`. -/
def AccountCall.isAuth : AccountCall → Bool
  | .auth _ => true
  | _ => false

/-- Locks disappear by their TTL only. -/
def KeepsLocks (_ : AccountPool) : AccountEvent → Prop
  | .environment (.evict (.loginLock _)) => False
  | _ => True

/-- The failure window of the account does not end: its counter does not expire. Keys
disappear by their TTL only. -/
def InFailureWindow (userId : String) (σ : AccountPool) : AccountEvent → Prop
  | .environment (.tick n) => (σ.shared.auth.redis.count (.failedLogin userId)).isSome →
      Redis.count (σ.shared.auth.redis.tick n) (.failedLogin userId) ≠ none
  | .environment (.evict key) => key ≠ .counter (.failedLogin userId) ∧
      ∀ userId, key ≠ .loginLock userId
  | _ => True

theorem InFailureWindow.keepsLocks {userId : String} {σ : AccountPool} {e : AccountEvent}
    (h : InFailureWindow userId σ e) : KeepsLocks σ e := by
  cases e with
  | environment x =>
      cases x with
      | evict key =>
          cases key with
          | loginLock owner => exact h.2 owner rfl
          | _ => trivial
      | _ => trivial
  | _ => trivial

/-! ### The steps of the calls -/

/-- A step that writes a failure counter or a lock counts a failure. -/
def AccountStep.CountsOnly : AccountStep → Prop
  | .auth c => c.CountsOnly
  | _ => True

theorem AccountStep.Plain.countsOnly {c : AccountStep} (h : c.Plain) : c.CountsOnly := by
  cases c with
  | auth c =>
      rintro command userId rfl hwrites
      cases command with
      | get key => exact hwrites.elim nofun nofun
      | set key value ttlSeconds =>
          cases key <;> first | exact h.elim | exact hwrites.elim nofun nofun
      | incrementRateLimit operation dimension hash ttlSeconds =>
          rcases hwrites with heq | heq <;> cases heq
      | _ => exact h.elim
  | _ => trivial

section

variable {α : Type} {config : AccountConfig}

theorem modest_countsOnly {p : AccountProgram α} (hp : p.Issues AccountStep.Modest) :
    p.Issues AccountStep.CountsOnly :=
  hp.mono fun _ h => h.plain.countsOnly

theorem plain_countsOnly {p : AccountProgram α} (hp : p.Issues AccountStep.Plain) :
    p.Issues AccountStep.CountsOnly :=
  hp.mono fun _ h => h.countsOnly

theorem resetPassword_countsOnly (input : ResetPasswordDto) :
    (AuthService.resetPassword config input).Issues AccountStep.CountsOnly := by
  refine .bind (parsePassword_issues _) fun _ =>
    .bind (assertPasswordConfirmation_issues _ _) fun _ =>
      .bind (issues_accountRepository trivial)
        fun (consumed : Option PasswordResetTokenRecord) => ?_
  rcases consumed with _ | consumed
  · exact issues_throw _
  · exact .bind (issues_hash trivial) fun _ => .bind (issues_accountRepository trivial)
      fun _ => .bind (ofAuth_issues (Throwing.issues_map.1
        (program_countsOnly config.auth (.revokeAll consumed.userId .passwordReset)))) fun _ =>
          ofAuth_issues (AuthProgram.issues_audit nofun)

theorem call_countsOnly (call : AccountCall) :
    (call.program config).Issues AccountStep.CountsOnly := by
  cases call with
  | auth call => exact ofAuth_issues (program_countsOnly config.auth call)
  | register input clientIp =>
      exact Throwing.issues_map.2 (modest_countsOnly (register_modest input clientIp))
  | verifyEmail input =>
      exact Throwing.issues_map.2 (modest_countsOnly (verifyEmail_modest input))
  | resendEmailVerification input clientIp =>
      exact Throwing.issues_map.2
        (modest_countsOnly (resendEmailVerification_modest input clientIp))
  | requestPasswordReset input clientIp =>
      exact Throwing.issues_map.2
        (modest_countsOnly (requestPasswordReset_modest input clientIp))
  | resetPassword input => exact Throwing.issues_map.2 (resetPassword_countsOnly input)
  | processVerificationCode data =>
      refine Throwing.issues_map.2 ?_
      rw [EmailProcessor.processVerificationCode]
      split
      · exact plain_countsOnly (processActivation_plain data)
      · exact ofAuth_issues
          (Throwing.issues_map.1 (program_countsOnly config.auth (.processLogin data)))
  | processPasswordReset data =>
      exact Throwing.issues_map.2 (modest_countsOnly (processPasswordReset_modest data))

end

/-! ### Counting -/

def countsFailure (userId : String) : Entry AccountStep AccountStep.Reply → Bool
  | ⟨_, .auth (.redis (.incrementFailedLogin id)), .ok _⟩ => id == userId
  | _ => false

section

variable {config : AccountConfig} {users : List AccountRecord}
  {ok : AccountPool → AccountEvent → Prop} {σ σ' σ₀ : AccountPool} {userId : String}

theorem fires_redis (h : (accountService config).Reaches ok
      (Pool.init (AccountState.init users)) σ) {e : Entry AccountStep AccountStep.Reply}
    (he : (accountService config).Fires ok e σ σ') :
    σ'.shared.auth.redis = σ.shared.auth.redis ∨
      ∃ command : RedisCommand,
        σ'.shared.auth.redis = (command.apply σ.shared.auth.redis).2 ∧
        ∀ userId, command.Writes (.loginLock userId) ∨
          command.Writes (.counter (.failedLogin userId)) →
            command = .incrementFailedLogin userId := by
  obtain ⟨call, rest, -, hmay⟩ := he.allowed (fun _ _ c => c.CountsOnly)
    (fun _ _ _ => True) h fun _ call _ => Program.obeys_of_sat (call_countsOnly call)
      (fun _ _ hc => hc) fun _ _ _ => trivial
  obtain ⟨o, -, hexec⟩ := he.exec
  by_cases hc : e.command.IsAuth
  · obtain ⟨k, c, r⟩ := e
    cases c with
    | auth c =>
        rcases (exec_acts (exec_auth hexec).1).redis with hredis | ⟨command, rfl, hredis⟩
        · exact .inl hredis
        · exact .inr ⟨command, hredis, fun userId => hmay command userId rfl⟩
    | _ => exact hc.elim
  · exact .inl (exec_keeps hc hexec).2

/-- The lock covers the rest of the failure window in every reachable state. -/
theorem lockCovers (h : (accountService config).Reaches KeepsLocks
      (Pool.init (AccountState.init users)) σ) : LockCovers σ.shared.auth.redis userId := by
  induction h with
  | refl => exact nofun
  | @tail σ₁ σ₂ hrun hstep ih =>
      cases hstep.moves with
      | spawn call hok hshared hthreads hhistory => rwa [hshared]
      | environment x hok hshared hthreads hhistory =>
          rw [hshared]
          cases x with
          | tick n => exact ih.environment (x := .tick n) nofun
          | evict key =>
              refine ih.environment (x := .evict key) fun owner hx => ?_
              cases hx
              exact hok
          | evictActivation key => exact ih
      | exec e he =>
          rcases fires_redis hrun he with hredis | ⟨command, hredis, hcounts⟩
          · rwa [hredis]
          · rw [hredis]
            exact ih.command (hcounts userId)

theorem countsFailure_eq {e : Entry AccountStep AccountStep.Reply}
    (h : countsFailure userId e = true) : ∃ (k : ℕ) (failure : FailedLoginResult),
      e = ⟨k, .auth (.redis (.incrementFailedLogin userId)), Except.ok failure⟩ := by
  unfold countsFailure at h
  split at h
  · rw [eq_of_beq h]
    exact ⟨_, _, rfl⟩
  · cases h

/-- A step that counts a failure makes one more, and no step forgets one. -/
theorem failures_fires (h : (accountService config).Reaches ok
      (Pool.init (AccountState.init users)) σ) {e : Entry AccountStep AccountStep.Reply}
    (he : (accountService config).Fires ok e σ σ') :
    σ.shared.auth.redis.failures userId + [e].countP (countsFailure userId) ≤
      σ'.shared.auth.redis.failures userId := by
  by_cases hcounts : countsFailure userId e = true
  · rw [List.countP_singleton, if_pos hcounts]
    obtain ⟨k, failure, rfl⟩ := countsFailure_eq hcounts
    obtain ⟨o, -, hexec⟩ := he.exec
    have hexec' : exec (.auth (.redis (.incrementFailedLogin userId))) o σ.shared =
        some (Except.ok failure, σ'.shared) := hexec
    have happly := (exec_redis_ok (exec_auth hexec').1).1
    have hredis : (INCREMENT_FAILED_LOGIN_LUA userId σ.shared.auth.redis).2 =
        σ'.shared.auth.redis := congrArg Prod.snd happly
    exact Nat.le_of_eq (hredis ▸ (INCREMENT_FAILED_LOGIN_LUA_counts userId _).symm)
  · rw [List.countP_singleton, if_neg hcounts, Nat.add_zero]
    rcases fires_redis h he with hredis | ⟨command, hredis, hcounts⟩
    · exact Nat.le_of_eq (congrArg (fun redis : Redis => redis.failures userId) hredis.symm)
    · rw [hredis]
      exact command.failures_le (fun hwrites => hcounts userId (.inr hwrites)) _

/-- While the window lasts the environment forgets no failure. -/
theorem failures_environment {x : AccountEnvironment}
    (hx : InFailureWindow userId σ (.environment x)) :
    σ.shared.auth.redis.failures userId ≤
      (environment x σ.shared).auth.redis.failures userId := by
  cases x with
  | tick n =>
      cases hcount : σ.shared.auth.redis.count (.failedLogin userId) with
      | none =>
          rw [Redis.failures, hcount]
          exact Nat.zero_le _
      | some failures =>
          obtain ⟨later, hlater⟩ := Option.ne_none_iff_exists'.1 (hx (hcount ▸ rfl))
          have hsame := (Store.get_tick_eq_some hlater).symm.trans hcount
          have hcount' : (environment (.tick n) σ.shared).auth.redis.count
              (.failedLogin userId) = some failures := hlater.trans hsame
          exact Nat.le_of_eq (by rw [Redis.failures, Redis.failures, hcount, hcount'])
  | evict key =>
      have hcount : (environment (.evict key) σ.shared).auth.redis.count
          (.failedLogin userId) = σ.shared.auth.redis.count (.failedLogin userId) :=
        Store.get_del_of_ne _ (Ne.symm hx.1)
      exact Nat.le_of_eq (by rw [Redis.failures, Redis.failures, hcount])
  | evictActivation key => exact Nat.le_refl _

/-- While the window lasts, the counter of the account grows by what is counted. -/
theorem failures_reaches (h : (accountService config).Reaches KeepsLocks
      (Pool.init (AccountState.init users)) σ)
    (hwindow : (accountService config).Reaches (InFailureWindow userId) σ σ') :
    σ.shared.auth.redis.failures userId + σ'.history.countP (countsFailure userId) ≤
      σ.history.countP (countsFailure userId) + σ'.shared.auth.redis.failures userId := by
  induction hwindow with
  | refl => exact Nat.le_of_eq (Nat.add_comm _ _)
  | @tail σ₁ σ₂ hrun hstep ih =>
      have h₁ := h.trans (Semantics.Reaches.mono
        (fun _ _ => InFailureWindow.keepsLocks) hrun)
      cases hstep.moves with
      | spawn call hok hshared hthreads hhistory => rwa [hshared, hhistory]
      | environment x hok hshared hthreads hhistory =>
          have hkeeps := failures_environment hok
          rw [hshared, hhistory]
          exact Nat.le_trans ih (Nat.add_le_add_left hkeeps _)
      | exec e he =>
          have hmore : σ₁.shared.auth.redis.failures userId +
              [e].countP (countsFailure userId) ≤ σ₂.shared.auth.redis.failures userId :=
            failures_fires h₁ (he.mono fun _ _ => InFailureWindow.keepsLocks)
          rw [he.history, ← List.singleton_append, List.countP_append]
          omega

theorem failures_mono (h : (accountService config).Reaches KeepsLocks
      (Pool.init (AccountState.init users)) σ)
    (hwindow : (accountService config).Reaches (InFailureWindow userId) σ σ') :
    σ.shared.auth.redis.failures userId ≤ σ'.shared.auth.redis.failures userId := by
  have hcounted := failures_reaches h hwindow
  have hmono : σ.history.countP (countsFailure userId) ≤
      σ'.history.countP (countsFailure userId) :=
    hwindow.history_suffix.sublist.countP_le
  omega

/-! ### Failed attempts -/

/-- What a call of the auth services has counted, and found, when it answers. -/
def AccountEnds (config : AccountConfig) :
    AccountCall → AccountTrace → AuthResult → Prop
  | .auth call, trace, r => AttemptEnds config.auth call (authTrace trace) r
  | _, _, _ => True

theorem body_ends (config : AccountConfig) (call : AccountCall) :
    Program.Obeys (fun _ _ => True) (AccountEnds config call) []
      ((accountService config).body call) := by
  cases call with
  | auth call =>
      exact (Program.embed_obeys authTrace (fun _ _ _ => rfl)
        (body_attempt config.auth call)).mono (fun _ _ _ => trivial) fun _ _ h => h
  | _ => exact Program.obeys_of_append fun _ _ => trivial

theorem mem_of_authTrace {trace : AccountTrace} {c : AuthStep} {r : c.Reply}
    (h : (⟨c, r⟩ : Exchange AuthStep AuthStep.Reply) ∈ authTrace trace) :
    (⟨.auth c, r⟩ : Exchange AccountStep AccountStep.Reply) ∈ trace := by
  induction trace with
  | nil => cases h
  | cons x trace ih =>
      obtain ⟨c', r'⟩ := x
      cases c' with
      | auth c' =>
          rcases List.mem_cons.1 h with heq | hmem
          · cases heq
            exact List.mem_cons_self
          · exact List.mem_cons_of_mem _ (ih hmem)
      | _ => exact List.mem_cons_of_mem _ (ih h)

/-- A failed attempt to log in has been counted. -/
theorem Failed.counted {k : ℕ} (h : (accountService config).Reaches ok
      (Pool.init (AccountState.init users)) σ) (hfailed : Failed config σ userId k)
    (hauth : (σ.call? k).any AccountCall.isAuth = true) :
    ∃ e ∈ σ.history, e.thread = k ∧ countsFailure userId e = true := by
  obtain ⟨call, r, hcall, hresult, hr, hmistaken⟩ := hfailed
  obtain ⟨call', hthread⟩ := (Pool.result?_eq_some_iff σ k r).1 hresult
  rw [hcall] at hauth
  rw [Pool.call?, hthread] at hcall
  obtain rfl := Option.some.inj hcall
  cases call' with
  | auth call =>
      have hends : AttemptEnds config.auth call (authTrace (traceOf σ.history k)) r :=
        h.obeys (fun _ _ _ => True) (AccountEnds config) (fun _ call _ => body_ends config call)
          hthread
      obtain ⟨failure, hcounted⟩ := hends.counted userId hmistaken hr
      exact ⟨_, mem_traceOf.1 (mem_of_authTrace hcounted), rfl, beq_self_eq_true userId⟩
  | _ => cases hauth

theorem length_le_countP {β γ : Type} {p : β → Bool} {f : β → γ} {l : List β} {ks : List γ}
    (hnodup : ks.Nodup) (h : ∀ k ∈ ks, ∃ x ∈ l, f x = k ∧ p x = true) :
    ks.length ≤ l.countP p := by
  have hsubset : ks ⊆ (l.filter p).map f := by
    intro k hk
    obtain ⟨x, hx, rfl, hp⟩ := h k hk
    exact List.mem_map_of_mem (List.mem_filter.2 ⟨hx, hp⟩)
  rw [List.countP_eq_length_filter, ← List.length_map f]
  exact List.Nodup.length_le_of_subset hnodup hsubset

/-- The failed logins in a window are among the failures of the counter. -/
theorem failed_le_failures {ks : List ℕ} (h : (accountService config).Reaches KeepsLocks
      (Pool.init (AccountState.init users)) σ₀)
    (hwindow : (accountService config).Reaches (InFailureWindow userId) σ₀ σ)
    (hnodup : ks.Nodup)
    (hfailed : ∀ k ∈ ks, σ₀.threads.length ≤ k ∧ Failed config σ userId k) :
    ks.countP (fun k => (σ.call? k).any AccountCall.isAuth) ≤
      σ.shared.auth.redis.failures userId := by
  have hσ := h.trans (Semantics.Reaches.mono (fun _ _ => InFailureWindow.keepsLocks) hwindow)
  obtain ⟨later, hlater⟩ := hwindow.history_suffix
  have hcounted : ks.countP (fun k => (σ.call? k).any AccountCall.isAuth) ≤
      later.countP (countsFailure userId) := by
    rw [List.countP_eq_length_filter]
    refine length_le_countP (f := Entry.thread) (hnodup.filter _) fun k hk => ?_
    obtain ⟨hk, hauth⟩ := List.mem_filter.1 hk
    obtain ⟨hnew, hk⟩ := hfailed k hk
    obtain ⟨e, he, rfl, hcounts⟩ := hk.counted hσ hauth
    refine ⟨e, (List.mem_append.1 (hlater ▸ he)).resolve_right fun hold => ?_, rfl, hcounts⟩
    exact absurd (h.thread_lt hold) (Nat.not_lt.2 hnew)
  have hgrown := failures_reaches h hwindow
  rw [← hlater, List.countP_append] at hgrown
  omega

/-- A call that was started after `σ` and has found no lock, has found none in between. -/
theorem unlocked_between {ok₀ : AccountPool → AccountEvent → Prop} {k : ℕ}
    (h : (accountService config).Reaches ok₀ (Pool.init (AccountState.init users)) σ)
    (hrun : (accountService config).Reaches ok σ σ') (hk : σ.threads.length ≤ k)
    (hreplied : Replied (authTrace (traceOf σ'.history k)) (.existsKey (.loginLock userId))
      false) :
    ∃ σ₁, (accountService config).Reaches ok σ σ₁ ∧
      σ₁.shared.auth.redis.get (.loginLock userId) = none := by
  obtain ⟨l₂, l₁, hl⟩ := List.append_of_mem (mem_traceOf.1 (mem_of_authTrace hreplied))
  obtain ⟨σ₁, σ₂, h₁, he, -, -⟩ := Semantics.Reaches.split_new h hrun hl hk
  obtain ⟨o, -, hexec⟩ := he.exec
  have hexec' : exec (.auth (.redis (.existsKey (.loginLock userId)))) o σ₁.shared =
      some (Except.ok false, σ₂.shared) := hexec
  have hsome : (σ₁.shared.auth.redis.get (.loginLock userId)).isSome = false :=
    (Prod.mk.inj (exec_redis_ok (exec_auth hexec').1).1).1
  exact ⟨σ₁, h₁, Option.isNone_iff_eq_none.1 (by rw [← Option.not_isSome, hsome]; rfl)⟩

end

/-- When five attempts to log in have failed in a failure window, the account is locked,
and no attempt to log in that starts behind them in the window succeeds. -/
theorem fifth_login_failure_locks (config : AccountConfig) (users : List AccountRecord)
    {σ₀ σ σ' : AccountPool} {userId : String} {ks : List ℕ}
    (h : (accountService config).Reaches KeepsLocks (Pool.init (AccountState.init users)) σ₀)
    (hwindow : (accountService config).Reaches (InFailureWindow userId) σ₀ σ)
    (hnodup : ks.Nodup)
    (hfailed : ∀ k ∈ ks, σ₀.threads.length ≤ k ∧ Failed config σ userId k)
    (hfive : MAX_FAILED_LOGINS ≤
      ks.countP fun k => (σ.call? k).any AccountCall.isAuth)
    (hlater : (accountService config).Reaches (InFailureWindow userId) σ σ') :
    σ.shared.auth.redis.get (.loginLock userId) = some () ∧
      ∀ k call, σ.threads.length ≤ k → σ'.call? k = some call → call.isAuth = true →
        Attempts config (traceOf σ'.history k) userId call →
          ∀ value, σ'.result? k ≠ some (.ok value) := by
  have hkeeps : ∀ σ e, InFailureWindow userId σ e → KeepsLocks σ e :=
    fun _ _ => InFailureWindow.keepsLocks
  have hσ : (accountService config).Reaches KeepsLocks
      (Pool.init (AccountState.init users)) σ := h.trans (Semantics.Reaches.mono hkeeps hwindow)
  have hσ' : (accountService config).Reaches KeepsLocks
      (Pool.init (AccountState.init users)) σ' := hσ.trans (Semantics.Reaches.mono hkeeps hlater)
  have hlocked : ∀ τ, (accountService config).Reaches (InFailureWindow userId) σ τ →
      τ.shared.auth.redis.get (.loginLock userId) = some () := fun τ hτ =>
    (lockCovers (hσ.trans (Semantics.Reaches.mono hkeeps hτ))).get
      (Nat.le_trans hfive (Nat.le_trans (failed_le_failures h hwindow hnodup hfailed)
        (failures_mono hσ hτ)))
  refine ⟨hlocked σ .refl, fun k call hk hcall hauth hattempts value hresult => ?_⟩
  obtain ⟨call', hthread⟩ := (Pool.result?_eq_some_iff σ' k _).1 hresult
  rw [Pool.call?, hthread] at hcall
  obtain rfl := Option.some.inj hcall
  cases call' with
  | auth call =>
      have hends : AttemptEnds config.auth call (authTrace (traceOf σ'.history k))
          (.ok value) := hσ'.obeys (fun _ _ _ => True) (AccountEnds config)
        (fun _ call _ => body_ends config call) hthread
      -- a login that succeeds has found no lock
      obtain ⟨τ, hτ, hnone⟩ := unlocked_between hσ hlater hk
        (hends.unlocked userId value hattempts rfl)
      rw [hlocked τ hτ] at hnone
      cases hnone
  | _ => cases hauth

/-! ### Wrong passwords and wrong activation codes -/

/-- A `startLogin` is started as call `k` and makes `n` steps. -/
def loginAttempt (password : String) (k n : ℕ) : List AccountEvent :=
  .spawn (.auth (.startLogin ⟨"u@example.com", password⟩ "")) :: accountSteps k "x" n

/-- Five logins with a wrong password. -/
def wrongPasswords : AccountPool :=
  (accountService exampleAccounts).after
    (loginAttempt "wrong" 0 4 ++ loginAttempt "wrong" 1 4 ++ loginAttempt "wrong" 2 4 ++
      loginAttempt "wrong" 3 4 ++ loginAttempt "wrong" 4 4)
    (Pool.init (AccountState.init [passwordUser]))

/-- A login with the right one behind them. -/
def rightPassword : AccountPool :=
  (accountService exampleAccounts).after (loginAttempt examplePassword 5 3) wrongPasswords

/-- The account has not been activated. -/
def pendingUser : AccountRecord := { passwordUser with status := .pending }

/-- A `verifyEmail` is started as call `k` and makes `n` steps. -/
def activation (code : String) (k n : ℕ) : List AccountEvent :=
  .spawn (.verifyEmail ⟨"u@example.com", code⟩) :: accountSteps k "x" n

/-- An activation code has been requested, stored and sent. -/
def activationSent : AccountPool :=
  (accountService exampleAccounts).after
    (.spawn (.resendEmailVerification ⟨"u@example.com"⟩ "") :: accountSteps 0 "i" 8 ++
      .spawn (.processVerificationCode ⟨.activation, "i", some "u", none⟩) ::
        accountSteps 1 "c" 7)
    (Pool.init (AccountState.init [pendingUser]))

/-- Five activations with a wrong code. -/
def wrongActivations : AccountPool :=
  (accountService exampleAccounts).after
    (activation "x" 2 2 ++ activation "x" 3 2 ++ activation "x" 4 2 ++ activation "x" 5 2 ++
      activation "x" 6 2) activationSent

/-- An activation with the right one behind them. -/
def rightActivation : AccountPool :=
  (accountService exampleAccounts).after (activation "c" 7 3) wrongActivations

instance decidableKeepsLocks : ∀ σ e, Decidable (KeepsLocks σ e)
  | _, .environment (.evict (.loginLock _)) => isFalse nofun
  | _, .environment (.evict (.issuance _ _)) => isTrue trivial
  | _, .environment (.evict (.loginChallenge _)) => isTrue trivial
  | _, .environment (.evict (.loginChallengeAccount _)) => isTrue trivial
  | _, .environment (.evict (.counter _)) => isTrue trivial
  | _, .environment (.evict (.session _)) => isTrue trivial
  | _, .environment (.evictActivation _) => isTrue trivial
  | _, .environment (.tick _) => isTrue trivial
  | _, .exec _ _ => isTrue trivial
  | _, .spawn _ => isTrue trivial

instance decidableInFailureWindow (userId : String) :
    ∀ σ e, Decidable (InFailureWindow userId σ e)
  | σ, .environment (.tick n) => inferInstanceAs (Decidable
      ((σ.shared.auth.redis.count (.failedLogin userId)).isSome →
        Redis.count (σ.shared.auth.redis.tick n) (.failedLogin userId) ≠ none))
  | _, .environment (.evict key) => inferInstanceAs (Decidable
      (key ≠ .counter (.failedLogin userId) ∧ ∀ userId, key ≠ .loginLock userId))
  | _, .environment (.evictActivation _) => isTrue trivial
  | _, .exec _ _ => isTrue trivial
  | _, .spawn _ => isTrue trivial

set_option maxRecDepth 4000 in
theorem wrongPasswords_failed : ∀ k ∈ [0, 1, 2, 3, 4],
    0 ≤ k ∧ Failed exampleAccounts wrongPasswords "u" k := by
  intro k hk
  simp only [List.mem_cons, List.not_mem_nil, or_false] at hk
  rcases hk with rfl | rfl | rfl | rfl | rfl
  all_goals exact ⟨Nat.zero_le _, .auth (.startLogin ⟨"u@example.com", "wrong"⟩ ""), _, rfl,
    rfl, nofun, "u@example.com", passwordUser, List.mem_iff_getElem?.2 ⟨2, rfl⟩, rfl,
    by decide +kernel⟩

set_option maxRecDepth 4000 in
theorem wrongActivations_failed : ∀ k ∈ [2, 3, 4, 5, 6],
    activationSent.threads.length ≤ k ∧ Failed exampleAccounts wrongActivations "u" k := by
  intro k hk
  simp only [List.mem_cons, List.not_mem_nil, or_false] at hk
  rcases hk with rfl | rfl | rfl | rfl | rfl
  all_goals exact ⟨by decide +kernel, .verifyEmail ⟨"u@example.com", "x"⟩, _, rfl, rfl, nofun, _,
    List.mem_iff_getElem?.2 ⟨0, rfl⟩⟩

set_option maxRecDepth 4000 in
theorem sixth_login_is_refused :
    rightPassword.result? 5 = some (.error accountTemporarilyLockedException) ∧
      wrongPasswords.shared.auth.redis.get (.loginLock "u") = some () ∧
      ∀ value, rightPassword.result? 5 ≠ some (.ok value) := by
  have hwindow : (accountService exampleAccounts).Reaches (InFailureWindow "u")
      (Pool.init (AccountState.init [passwordUser])) wrongPasswords :=
    Semantics.reaches_after _ (by decide +kernel)
  have hlater : (accountService exampleAccounts).Reaches (InFailureWindow "u") wrongPasswords
      rightPassword := Semantics.reaches_after _ (by decide +kernel)
  obtain ⟨hlock, hrefused⟩ := fifth_login_failure_locks exampleAccounts [passwordUser] .refl
    hwindow (by decide) wrongPasswords_failed (by decide +kernel) hlater
  refine ⟨by decide +kernel, hlock, hrefused 5 _ (by decide +kernel) rfl rfl ?_⟩
  exact ⟨"u@example.com", passwordUser, List.mem_iff_getElem?.2 ⟨1, rfl⟩, rfl⟩

set_option maxRecDepth 4000 in
/-- Five activations with a wrong code have failed: the account is not locked, and the next
one, with the right code, succeeds. -/
theorem wrong_activation_codes_do_not_lock :
    (accountService exampleAccounts).Reaches KeepsLocks
        (Pool.init (AccountState.init [pendingUser])) activationSent ∧
      (accountService exampleAccounts).Reaches (InFailureWindow "u") activationSent
        wrongActivations ∧
      [2, 3, 4, 5, 6].Nodup ∧
      (∀ k ∈ [2, 3, 4, 5, 6], activationSent.threads.length ≤ k ∧
        Failed exampleAccounts wrongActivations "u" k) ∧
      wrongActivations.shared.auth.redis.get (.loginLock "u") = none ∧
      (accountService exampleAccounts).Reaches (InFailureWindow "u") wrongActivations
        rightActivation ∧
      Attempts exampleAccounts (traceOf rightActivation.history 7) "u"
        (.verifyEmail ⟨"u@example.com", "c"⟩) ∧
      rightActivation.call? 7 = some (.verifyEmail ⟨"u@example.com", "c"⟩) ∧
      rightActivation.result? 7 = some (.ok .done) :=
  ⟨Semantics.reaches_after _ (by decide +kernel), Semantics.reaches_after _ (by decide +kernel),
    by decide, wrongActivations_failed, by decide +kernel,
    Semantics.reaches_after _ (by decide +kernel), List.mem_iff_getElem?.2 ⟨1, rfl⟩,
    by decide +kernel, by decide +kernel⟩

end Account

end Shortlink

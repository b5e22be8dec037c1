import Shortlink.Auth.Rotation

/-!
# Simultaneous refreshes with one token

Several refreshes present the current token of an active session at once. The
property wanted is that at most one of them is answered with tokens, the others
are told that the session is invalid, and the session is revoked. It holds
exactly of the runs in which the token is rotated by one call only and some call
looks the token up after that (`InOrder`).
-/

namespace Shortlink

namespace Auth

open Shortlink.Storage Shortlink.Table Shortlink.Transaction
open Shortlink.Interaction AuthProgram

/-! ### Transactions that throw -/

section

variable {sessionId : String} {stamp : Stamp} {db : AuthDb} {e : StorageError}

/-- What `rotateRefreshToken` throws once its checks have been passed is an
error of the database. -/
theorem rotateRefreshTokenTx_error {input : RotateRefreshTokenInput}
    {session : AuthSessionRecord} {token : SessionRefreshTokenRecord}
    (h : (rotateRefreshTokenTx sessionId input stamp).run db = .error e)
    (hfind : db.findSession sessionId = some session)
    (hactive : session.revokedAt = none)
    (haccount : (db.findAccountById session.userId).isSome)
    (hcurrent : session.refreshTokenHash = input.currentTokenHash)
    (hunused : db.findUnusedToken sessionId input.currentTokenHash = some token) :
    ∃ code constraint detail, e = .queryFailed code constraint detail := by
  simp only [rotateRefreshTokenTx, rotateRefreshTokenTx.locked, Tx.bind_eq,
    Tx.query_bind, Tx.run_read, hfind, hactive, Option.isSome_none,
    Bool.false_eq_true, if_false, lockAccount_bind_run haccount, hcurrent,
    ne_eq, not_true_eq_false, hunused, Tx.update_bind, Tx.run_write,
    AuthDb.insertRefreshToken] at h
  split at h
  · cases h
  · rename_i e' herror
    cases h
    split at herror
    · exact ⟨_, _, _, (Except.error.inj herror).symm⟩
    split at herror
    · exact ⟨_, _, _, (Except.error.inj herror).symm⟩
    · cases herror

/-- `revokeSession` throws only when the account is missing. -/
theorem revokeSessionTx_error {reason : SessionRevocationReason}
    (h : (revokeSessionTx sessionId reason stamp).run db = .error e) :
    ∃ session, db.findSession sessionId = some session ∧
      db.findAccountById session.userId = none := by
  simp only [revokeSessionTx, revokeSessionTx.locked, Tx.bind_eq, Tx.query_bind,
    Tx.run_read] at h
  cases hfind : db.findSession sessionId with
  | none =>
      simp only [hfind] at h
      cases h
  | some session =>
      refine ⟨session, rfl, ?_⟩
      simp only [hfind] at h
      split at h
      · cases h
      rename_i hactive
      by_contra haccount
      rw [lockAccount_bind_run (Option.isSome_iff_ne_none.2 haccount)] at h
      simp only [Tx.run_read, hfind, if_neg hactive] at h
      cases h

end

/-! ### The runs -/

/-- Whether a step looks a token row up. -/
def AuthStep.looksUp : AuthStep → Bool
  | .repository (.findRefreshTokenHistoryByHash _) => true
  | _ => false

/-- No error of the database, such as a violated unique index. -/
def noQueryFailure (σ : AuthPool) : AuthEvent → Bool
  | .exec i o =>
      match σ.next? i with
      | some (.repository c) =>
          match (c.impl o.stamp).run σ.shared.db with
          | .error (.queryFailed _ _ _) => false
          | _ => true
      | _ => true
  | _ => true

/-- The refreshes with one token that are started when `n` calls have been
started, without a failure of the storage. -/
def simultaneous (n : ℕ) (refreshToken : String) (σ : AuthPool) :
    AuthEvent → Bool
  | .spawn call => call = .refresh refreshToken
  | .exec i o => n ≤ i && noFailure (.exec i o) && noQueryFailure σ (.exec i o)
  | .environment _ => true

/-- A run in which two or more refreshes present the current token of an active
session that does not expire meanwhile, and finish. -/
structure SimultaneousRefresh (config : AuthConfig) (users : List AccountRecord)
    (refreshToken : String) (session : AuthSessionRecord) (σ₀ σ : AuthPool) :
    Prop where
  start : (authService config).Reaches (fun _ _ => True)
    (Pool.init (AuthState.init users)) σ₀
  stored : session ∈ σ₀.shared.db.sessions
  active : session.revokedAt = none
  current : session.refreshTokenHash = config.hashToken refreshToken
  run : (authService config).Reaches
    (fun σ e => simultaneous σ₀.threads.length refreshToken σ e = true) σ₀ σ
  unexpired : σ.shared.redis.now < session.expiresAt
  several : σ₀.threads.length + 2 ≤ σ.threads.length
  finished : ∀ k, σ₀.threads.length ≤ k → k < σ.threads.length →
    (σ.result? k).isSome

/-- At most one of the calls from `n` on ended with tokens, every other one with
`SESSION_INVALID`, and the session is revoked. -/
structure TreatedAsReuse (n : ℕ) (sessionId : String) (σ : AuthPool) : Prop where
  one : ∀ i j a b, n ≤ i → n ≤ j → σ.result? i = some (.ok a) →
    σ.result? j = some (.ok b) → i = j
  others : ∀ i e, n ≤ i → σ.result? i = some (.error e) →
    e = sessionInvalidException
  revoked : Ended σ.shared.db sessionId

/-- A call has looked the token up after a rotation was executed. -/
def LookedUpLate (n : ℕ) (history : List AuthEntry) : Prop :=
  ∃ l₂ e l₁, history = l₂ ++ e :: l₁ ∧ n ≤ e.thread ∧
    e.command.looksUp = true ∧ ∃ e' ∈ l₁, n ≤ e'.thread ∧
      e'.command.rotates = true

/-- The token is rotated by one call only, and looked up after that. -/
structure InOrder (n : ℕ) (history : List AuthEntry) : Prop where
  once : ∀ l₂ e l₁, history = l₂ ++ e :: l₁ → n ≤ e.thread →
    e.command.rotates = true → ∀ e' ∈ l₁, n ≤ e'.thread →
      e'.command.rotates = false
  late : LookedUpLate n history

theorem LookedUpLate.mono {n : ℕ} {history history' : List AuthEntry}
    (h : LookedUpLate n history) (hsuffix : history <:+ history') :
    LookedUpLate n history' := by
  obtain ⟨l₂, e, l₁, rfl, hrest⟩ := h
  obtain ⟨l, rfl⟩ := hsuffix
  exact ⟨l ++ l₂, e, l₁, by simp, hrest⟩

theorem refreshCall_obeys (config : AuthConfig) (refreshToken : String) :
    Program.Obeys (RefreshMay (config.hashToken refreshToken))
      (fun trace v => ∃ r : Except AuthError IssuedSessionTokens,
        v = AuthValue.refreshed <$> refreshAnswer r ∧
          RefreshEnds (config.hashToken refreshToken) trace r) []
      ((authService config).body (.refresh refreshToken)) := by
  refine (obeys_map _ _).2 ((serviceRefresh_course config refreshToken).mono ?_)
  rintro trace answer ⟨r, hanswer, hr⟩
  cases answer with
  | ok session => exact ⟨r, by rw [← hanswer]; rfl, hr⟩
  | error e => exact ⟨r, by rw [← hanswer]; rfl, hr⟩

theorem SessionRevoked.refreshTokens {sessionId : String}
    {reason : SessionRevocationReason} {stamp : Stamp} {db db' : AuthDb}
    (h : SessionRevoked sessionId reason stamp db db') :
    db'.refreshTokens = db.refreshTokens := by
  cases h <;> rfl

/-- A step of a refresh rotates, revokes or leaves the tables alone. -/
theorem RefreshMay.acts {tokenHash : String} {trace : AuthTrace} {c : AuthStep}
    {s s' : AuthState} (hmay : RefreshMay tokenHash trace c)
    (h : Acts s c s') :
    c.rotates = true ∨ s'.db = s.db ∨ ∃ sessionId reason stamp,
      c = .repository (.revokeSession sessionId reason) ∧
        SessionRevoked sessionId reason stamp s.db s'.db := by
  cases h with
  | idle c => exact .inr (.inl rfl)
  | executed c => exact .inr (.inl rfl)
  | committed c stamp a db hrun =>
      cases c with
      | createExclusiveSession userId sessionData => exact hmay.elim
      | revokeAllSessions userId reason => exact hmay.elim
      | rotateRefreshToken sessionId input => exact .inl rfl
      | revokeSession sessionId reason =>
          exact .inr (.inr ⟨sessionId, reason, stamp, rfl,
            revokeSessionTx_run hrun⟩)
      | _ =>
          cases hrun
          exact .inr (.inl rfl)

theorem Acts.rotate_ended {c : AuthStep} {s s' : AuthState} {sessionId : String}
    (h : Acts s c s') (hrotates : c.rotates = true)
    (hended : Ended s'.db sessionId) : Ended s.db sessionId := by
  cases h with
  | idle c => exact hended
  | executed c => cases hrotates
  | committed c stamp a db hrun =>
      cases c with
      | rotateRefreshToken id input =>
          obtain ⟨session, token, hrot⟩ := rotateRefreshTokenTx_run hrun
          obtain rfl := hrot.result
          obtain ⟨s, hs, hid, hrevoked⟩ := hended
          obtain ⟨s₀, hs₀, rfl⟩ := mem_updateWhere.1 hs
          refine ⟨s₀, hs₀, ?_, ?_⟩
          · split at hid <;> exact hid
          · split at hrevoked <;> exact hrevoked
      | _ => cases hrotates

section

variable {config : AuthConfig} {users : List AccountRecord}
  {refreshToken : String} {σ₀ τ τ' : AuthPool}
  (h₀ : (authService config).Reaches (fun _ _ => True)
    (Pool.init (AuthState.init users)) σ₀)
  (h : (authService config).Reaches
    (fun σ e => simultaneous σ₀.threads.length refreshToken σ e = true) σ₀ τ)

include h₀ h

theorem simultaneous_reaches : (authService config).Reaches (fun _ _ => True)
    (Pool.init (AuthState.init users)) τ :=
  Relation.ReflTransGen.trans h₀ (Semantics.Reaches.mono (fun _ _ _ => trivial) h)

/-- What is left of one of the refreshes follows their course. -/
theorem simultaneous_obeys {k : ℕ} {call : AuthCall}
    {rest : Program AuthStep AuthStep.Reply AuthResult}
    (hk : τ.threads[k]? = some ⟨call, rest⟩) (hnew : σ₀.threads.length ≤ k) :
    rest.Obeys (RefreshMay (config.hashToken refreshToken))
      (fun trace v => ∃ r : Except AuthError IssuedSessionTokens,
        v = AuthValue.refreshed <$> refreshAnswer r ∧
          RefreshEnds (config.hashToken refreshToken) trace r)
      (traceOf τ.history k) := by
  obtain ⟨σ₁, hspawn⟩ := h.spawned hk hnew
  obtain rfl : call = .refresh refreshToken := by
    simpa [simultaneous] using hspawn
  have hbody : ∀ (σ : AuthPool) (call : AuthCall), True →
      Program.Obeys (fun trace c => call = .refresh refreshToken →
          RefreshMay (config.hashToken refreshToken) trace c)
        (fun trace v => call = .refresh refreshToken →
          ∃ r : Except AuthError IssuedSessionTokens,
            v = AuthValue.refreshed <$> refreshAnswer r ∧
              RefreshEnds (config.hashToken refreshToken) trace r) []
        ((authService config).body call) := by
    intro σ call _
    by_cases hcall : call = .refresh refreshToken
    · subst hcall
      exact (refreshCall_obeys config refreshToken).mono
        (fun _ _ hc _ => hc) fun _ _ hv _ => hv
    · exact (Program.obeys_of_append fun _ _ h => absurd h hcall).mono
        (fun _ _ _ h => absurd h hcall) fun _ _ hv => hv
  exact ((simultaneous_reaches h₀ h).obeys _ _ hbody hk).mono
    (fun _ _ hc => hc rfl) fun _ _ hv => hv rfl

/-- A step of the run is a step of one of the refreshes. -/
theorem simultaneous_fires {e : AuthEntry}
    (he : (authService config).Fires
      (fun σ e => simultaneous σ₀.threads.length refreshToken σ e = true) e τ τ') :
    σ₀.threads.length ≤ e.thread ∧
      RefreshMay (config.hashToken refreshToken) (traceOf τ.history e.thread)
        e.command ∧
      ∃ o, o.fault = .none ∧ noQueryFailure τ (.exec e.thread o) = true ∧
        exec e.command o τ.shared = some (e.reply, τ'.shared) := by
  obtain ⟨o, hok, hexec⟩ := he.exec
  obtain ⟨call, next, hk, -⟩ := he.thread
  simp only [simultaneous, noFailure, Bool.and_eq_true, decide_eq_true_eq,
    beq_iff_eq] at hok
  exact ⟨hok.1.1, (simultaneous_obeys h₀ h hk hok.1.1).1, o, hok.1.2, hok.2, hexec⟩

/-- A token that was unused at the start has been rotated meanwhile when it is
used up. -/
theorem usedUp_rotated
    (hfresh : ¬ UsedUp σ₀.shared.db (config.hashToken refreshToken))
    (hused : UsedUp τ.shared.db (config.hashToken refreshToken)) :
    ∃ e ∈ τ.history, σ₀.threads.length ≤ e.thread ∧
      e.command.rotates = true := by
  induction h with
  | refl => exact absurd hused hfresh
  | @tail τ₁ τ₂ hrun hstep ih =>
      have hold : UsedUp τ₁.shared.db (config.hashToken refreshToken) →
          ∃ e ∈ τ₂.history, σ₀.threads.length ≤ e.thread ∧
            e.command.rotates = true := by
        intro hused
        obtain ⟨e, he, hrest⟩ := ih hused
        exact ⟨e, hstep.history_suffix.subset he, hrest⟩
      cases hstep.moves with
      | spawn call hok hshared hthreads hhistory => exact hold (hshared ▸ hused)
      | environment x hok hshared hthreads hhistory =>
          refine hold ?_
          rw [hshared] at hused
          cases x <;> exact hused
      | exec e he =>
          obtain ⟨hnew, hmay, o, -, -, hexec⟩ := simultaneous_fires h₀ hrun he
          rcases hmay.acts (exec_acts hexec) with
            hrotates | hsame | ⟨s, reason, stamp, -, hrevoked⟩
          · exact ⟨e, he.history ▸ List.mem_cons_self, hnew, hrotates⟩
          · exact hold (hsame ▸ hused)
          · exact hold (by simpa only [UsedUp, hrevoked.refreshTokens] using hused)

/-- A refresh that has found a used row has found it after a rotation. -/
theorem reused_late
    (hfresh : ¬ UsedUp σ₀.shared.db (config.hashToken refreshToken)) {k : ℕ}
    {sessionId : String} (hnew : σ₀.threads.length ≤ k)
    (hs : sessionId ∈ told AuthCommand.reused (traceOf τ.history k)) :
    LookedUpLate σ₀.threads.length τ.history ∧
      ∃ t ∈ τ.shared.db.refreshTokens,
        t.tokenHash = config.hashToken refreshToken ∧
          t.sessionId = sessionId := by
  obtain ⟨c, a, hmem, hs⟩ := exists_of_mem_told hs
  obtain ⟨l₂, l₁, hl⟩ := List.append_of_mem (mem_traceOf.1 hmem)
  obtain ⟨ρ₁, ρ₂, hρ, he, rfl, hafter⟩ := h₀.split_new h hl hnew
  obtain ⟨-, hmay, o, -, -, hexec⟩ := simultaneous_fires h₀ hρ he
  have hsound := reaches_sound (simultaneous_reaches h₀ (hρ.tail he.steps))
  obtain ⟨-, hsince⟩ := reaches_since hafter hsound
  cases c with
  | findRefreshTokenHistoryByHash hash =>
      obtain rfl : hash = config.hashToken refreshToken := hmay
      obtain ⟨hrun, -⟩ := exec_repository_ok hexec
      obtain ⟨rfl, hdb⟩ := Prod.mk.inj (Except.ok.inj hrun)
      obtain ⟨t, ht, hsession⟩ :=
        Option.map_eq_some_iff.1 (Option.mem_toList.1 hs)
      obtain ⟨hfind, hused⟩ := Option.filter_eq_some_iff.1 ht
      obtain ⟨hmem, hhash⟩ := AuthDb.mem_of_findRefreshTokenHistoryByHash hfind
      obtain ⟨e', he', hnew', hrotates⟩ :=
        usedUp_rotated h₀ hρ hfresh ⟨t, hmem, hhash, hused⟩
      rw [hdb] at hmem
      obtain ⟨t', ht', -, hsession', hhash', -⟩ := hsince.later.token t hmem
      exact ⟨⟨l₂, _, _, hl, hnew, rfl, e', he', hnew', hrotates⟩, t', ht',
        hhash'.trans hhash, hsession'.trans hsession⟩
  | _ => cases hs

/-- Until the token is rotated the tables stay as they were. -/
theorem unrotated_db
    (hfresh : ¬ UsedUp σ₀.shared.db (config.hashToken refreshToken))
    (hnone : ∀ e ∈ τ.history, σ₀.threads.length ≤ e.thread →
      e.command.rotates = false) : τ.shared.db = σ₀.shared.db := by
  induction h with
  | refl => rfl
  | @tail τ₁ τ₂ hrun hstep ih =>
      have hnone₁ : ∀ e ∈ τ₁.history, σ₀.threads.length ≤ e.thread →
          e.command.rotates = false :=
        fun e he => hnone e (hstep.history_suffix.subset he)
      cases hstep.moves with
      | spawn call hok hshared hthreads hhistory =>
          rw [hshared]
          exact ih hnone₁
      | environment x hok hshared hthreads hhistory =>
          rw [hshared]
          cases x <;> exact ih hnone₁
      | exec e he =>
          obtain ⟨hnew, hmay, o, -, -, hexec⟩ := simultaneous_fires h₀ hrun he
          rcases hmay.acts (exec_acts hexec) with
            hrotates | hsame | ⟨s, reason, stamp, hc, -⟩
          · rw [hnone e (he.history ▸ List.mem_cons_self) hnew] at hrotates
            cases hrotates
          · exact hsame.trans (ih hnone₁)
          · rw [hc] at hmay
            obtain ⟨⟨l₂, _, l₁, hl, -, -, e', he', hnew', hrotates⟩, -⟩ :=
              reused_late h₀ hrun hfresh hnew hmay
            rw [hnone₁ e' (by simp [hl, he']) hnew'] at hrotates
            cases hrotates

/-- A session that was active has been revoked by a refresh that looked the
token up after a rotation. -/
theorem ended_late
    (hfresh : ¬ UsedUp σ₀.shared.db (config.hashToken refreshToken))
    {sessionId : String} (hactive : ¬ Ended σ₀.shared.db sessionId)
    (hended : Ended τ.shared.db sessionId) :
    LookedUpLate σ₀.threads.length τ.history := by
  induction h with
  | refl => exact absurd hended hactive
  | @tail τ₁ τ₂ hrun hstep ih =>
      have hold : Ended τ₁.shared.db sessionId →
          LookedUpLate σ₀.threads.length τ₂.history :=
        fun hended => (ih hended).mono hstep.history_suffix
      cases hstep.moves with
      | spawn call hok hshared hthreads hhistory => exact hold (hshared ▸ hended)
      | environment x hok hshared hthreads hhistory =>
          refine hold ?_
          rw [hshared] at hended
          cases x <;> exact hended
      | exec e he =>
          obtain ⟨hnew, hmay, o, -, -, hexec⟩ := simultaneous_fires h₀ hrun he
          have hacts := exec_acts hexec
          rcases hmay.acts hacts with hrotates | hsame | ⟨s, reason, stamp, hc, -⟩
          · exact hold (hacts.rotate_ended hrotates hended)
          · exact hold (hsame ▸ hended)
          · rw [hc] at hmay
            exact (reused_late h₀ hrun hfresh hnew hmay).1.mono
              hstep.history_suffix

theorem rotation_succeeds (hkeys : Keys σ₀.shared.db)
    (hchain : TokenChain σ₀.shared.db)
    (hfresh : ¬ UsedUp σ₀.shared.db (config.hashToken refreshToken)) {k : ℕ}
    {sessionId : String} {input : RotateRefreshTokenInput}
    {r : Except StorageError CreateExclusiveSessionResult}
    (he : (authService config).Fires
      (fun σ e => simultaneous σ₀.threads.length refreshToken σ e = true)
      ⟨k, .repository (.rotateRefreshToken sessionId input), r⟩ τ τ')
    (hnone : ∀ e ∈ τ.history, σ₀.threads.length ≤ e.thread →
      e.command.rotates = false) : ∃ a, r = .ok a := by
  obtain ⟨hnew, hmay, o, hfault, hquery, hexec⟩ := simultaneous_fires h₀ h he
  obtain ⟨hcurrent, hinput, -⟩ := hmay
  have hdb := unrotated_db h₀ h hfresh hnone
  -- the check read the session as it was at the start
  obtain ⟨session, hstored, hid, hactive, hhash⟩ : ∃ session ∈
      σ₀.shared.db.sessions, session.id = sessionId ∧
        session.revokedAt = none ∧
        session.refreshTokenHash = config.hashToken refreshToken := by
    obtain ⟨c, a, hmem, hc⟩ := exists_of_mem_told hcurrent
    obtain ⟨l₂, l₁, hl⟩ := List.append_of_mem (mem_traceOf.1 hmem)
    obtain ⟨ρ₁, ρ₂, hρ, hfires, rfl, -⟩ := h₀.split_new h hl hnew
    obtain ⟨-, -, o', -, -, hexec'⟩ := simultaneous_fires h₀ hρ hfires
    have hdb' := unrotated_db h₀ hρ hfresh fun e he =>
      hnone e (by simp [hl, he])
    cases c with
    | findActiveSessionById id =>
        obtain ⟨hrun, -⟩ := exec_repository_ok hexec'
        obtain ⟨rfl, -⟩ := Prod.mk.inj (Except.ok.inj hrun)
        obtain ⟨session, hsession, hid⟩ :=
          Option.map_eq_some_iff.1 (Option.mem_toList.1 hc)
        obtain ⟨hfind, hhash⟩ := Option.filter_eq_some_iff.1 hsession
        rw [hdb'] at hfind
        have hboth := List.find?_some hfind
        simp only [Bool.and_eq_true, Option.isNone_iff_eq_none] at hboth
        exact ⟨session, List.mem_of_find?_eq_some hfind, hid, hboth.2,
          of_decide_eq_true hhash⟩
    | _ => cases hc
  subst hid
  obtain ⟨t, ht, hcurrentHash⟩ := hchain.current session hstored
  rcases exec_repository_of_none hfault hexec with ⟨a, -, rfl⟩ | ⟨e, hrun, -, -⟩
  · exact ⟨a, rfl⟩
  exfalso
  have hnext : τ.next? k =
      some (.repository (.rotateRefreshToken session.id input)) := by
    obtain ⟨call, next, hi, -⟩ := he.thread
    simp [Pool.next?, hi]
  obtain ⟨token, hunused⟩ : ∃ token, σ₀.shared.db.findUnusedToken session.id
      input.currentTokenHash = some token := by
    have hmem : t ∈ σ₀.shared.db.refreshTokens.filter
        (fun t => t.sessionId == session.id && t.usedAt.isNone) := by simp [ht]
    obtain ⟨htoken, hopen⟩ := List.mem_filter.1 hmem
    rw [← Option.isSome_iff_exists, AuthDb.findUnusedToken, List.find?_isSome]
    exact ⟨t, htoken, by
      simpa [hcurrentHash, hhash, hinput] using hopen⟩
  have hrun' : (rotateRefreshTokenTx session.id input o.stamp).run
      σ₀.shared.db = .error e := hdb ▸ hrun
  obtain ⟨code, constraint, detail, rfl⟩ := rotateRefreshTokenTx_error hrun'
    (AuthDb.findSession_of_mem hkeys.sessionIds hstored) hactive
    (hkeys.accounts session hstored) (hhash.trans hinput.symm) hunused
  simp [noQueryFailure, hnext, hrun] at hquery

/-- While the token is rotated by one call only no step fails. -/
theorem no_failure (hkeys : Keys σ₀.shared.db) (hchain : TokenChain σ₀.shared.db)
    (hfresh : ¬ UsedUp σ₀.shared.db (config.hashToken refreshToken))
    (honce : ∀ l₂ e l₁, τ.history = l₂ ++ e :: l₁ →
      σ₀.threads.length ≤ e.thread → e.command.rotates = true →
        ∀ e' ∈ l₁, σ₀.threads.length ≤ e'.thread → e'.command.rotates = false)
    {k : ℕ} (hnew : σ₀.threads.length ≤ k) {x : Exchange AuthStep AuthStep.Reply}
    (hx : x ∈ traceOf τ.history k) : failure? x = none := by
  obtain ⟨c, r⟩ := x
  obtain ⟨l₂, l₁, hl⟩ := List.append_of_mem (mem_traceOf.1 hx)
  obtain ⟨ρ₁, ρ₂, hρ, he, hhistory, -⟩ := h₀.split_new h hl hnew
  obtain ⟨-, hmay, o, hfault, -, hexec⟩ := simultaneous_fires h₀ hρ he
  cases c with
  | redis cmd =>
      obtain rfl : r = .ok (cmd.apply ρ₁.shared.redis).1 :=
        (exec_redis_of_none hfault hexec).1
      rfl
  | repository cmd =>
      rcases exec_repository_of_none hfault hexec with
        ⟨a, -, hr⟩ | ⟨e, hrun, hr, -⟩
      · obtain rfl : r = .ok a := hr
        rfl
      exfalso
      have hr : r = .error e := hr
      cases cmd with
      | rotateRefreshToken sessionId input =>
          obtain ⟨a, ha⟩ := rotation_succeeds h₀ hρ hkeys hchain hfresh he
            (hhistory ▸ honce l₂ _ l₁ hl hnew rfl)
          cases hr.symm.trans ha
      | revokeSession sessionId reason =>
          obtain ⟨session, hfind, hnone⟩ := revokeSessionTx_error hrun
          have haccounts := (reaches_sound (simultaneous_reaches h₀ hρ)).keys.accounts
          have haccount := haccounts session (AuthDb.mem_of_findSession hfind).1
          rw [hnone] at haccount
          cases haccount
      | createExclusiveSession userId sessionData => exact hmay
      | revokeAllSessions userId reason => exact hmay
      | _ => cases hrun
  | _ => rfl

end

theorem TokenChain.current_row {db : AuthDb} (h : TokenChain db)
    {s : AuthSessionRecord} (hs : s ∈ db.sessions) :
    ∃ t ∈ db.refreshTokens, t.tokenHash = s.refreshTokenHash ∧
      t.sessionId = s.id ∧ t.usedAt = none := by
  obtain ⟨t, ht, hhash⟩ := h.current s hs
  have hmem : t ∈ db.refreshTokens.filter
      (fun t => t.sessionId == s.id && t.usedAt.isNone) := by simp [ht]
  obtain ⟨htoken, hopen⟩ := List.mem_filter.1 hmem
  simp only [Bool.and_eq_true, beq_iff_eq, Option.isNone_iff_eq_none] at hopen
  exact ⟨t, htoken, hhash, hopen⟩

theorem refreshAnswer_of_no_failure {tokenHash : String} {trace : AuthTrace}
    {r : Except AuthError IssuedSessionTokens} {e : AuthError}
    (hr : RefreshEnds tokenHash trace r)
    (hnone : ∀ x ∈ trace, failure? x = none)
    (he : refreshAnswer r = .error e) : e = sessionInvalidException := by
  cases r with
  | ok tokens => cases he
  | error e' =>
      rcases hr.error e' rfl with rfl | rfl | ⟨x, hx, hsome⟩
      · exact (Except.error.inj he).symm
      · exact (Except.error.inj he).symm
      · rw [hnone x hx] at hsome
        cases hsome

section

variable {config : AuthConfig} {users : List AccountRecord}
  {refreshToken : String} {session : AuthSessionRecord} {σ₀ σ : AuthPool}

namespace SimultaneousRefresh

variable (h : SimultaneousRefresh config users refreshToken session σ₀ σ)

include h

theorem fresh : ¬ UsedUp σ₀.shared.db (config.hashToken refreshToken) := by
  have hsound := reaches_sound h.start
  rintro ⟨t, ht, hhash, hused⟩
  obtain ⟨t₀, ht₀, hhash₀, -, hopen⟩ := hsound.chain.current_row h.stored
  obtain rfl := List.inj_on_of_nodup_map hsound.chain.hashes ht ht₀
    (hhash.trans (h.current.symm.trans hhash₀.symm))
  rw [hopen] at hused
  cases hused

theorem not_ended : ¬ Ended σ₀.shared.db session.id := by
  rintro ⟨s, hs, hid, hrevoked⟩
  obtain rfl := List.inj_on_of_nodup_map (reaches_sound h.start).keys.sessionIds
    hs h.stored hid
  rw [h.active] at hrevoked
  cases hrevoked

/-- The course that a refresh with this result has taken. -/
theorem course {k : ℕ} {v : AuthResult} (hnew : σ₀.threads.length ≤ k)
    (hv : σ.result? k = some v) :
    ∃ r : Except AuthError IssuedSessionTokens,
      v = AuthValue.refreshed <$> refreshAnswer r ∧
        RefreshEnds (config.hashToken refreshToken) (traceOf σ.history k) r := by
  obtain ⟨call, hcall⟩ := (Pool.result?_eq_some_iff σ k v).1 hv
  exact simultaneous_obeys h.start h.run hcall hnew

/-- In an orderly run every refresh that ends with an error is told that the
session is invalid. -/
theorem invalid_of_inOrder
    (hord : InOrder σ₀.threads.length σ.history) {k : ℕ} {e : AuthError}
    (hnew : σ₀.threads.length ≤ k) (hv : σ.result? k = some (.error e)) :
    e = sessionInvalidException := by
  obtain ⟨r, hr, hends⟩ := h.course hnew hv
  have hsound := reaches_sound h.start
  cases hanswer : refreshAnswer r with
  | ok answer =>
      rw [hanswer] at hr
      cases hr
  | error e' =>
      rw [hanswer] at hr
      cases hr
      exact refreshAnswer_of_no_failure hends (fun x hx => no_failure h.start
        h.run hsound.keys hsound.chain h.fresh hord.once hnew hx) hanswer

/-- In an orderly run the session is revoked in the end. -/
theorem revoked_of_inOrder (hord : InOrder σ₀.threads.length σ.history) :
    Ended σ.shared.db session.id := by
  have hsound := reaches_sound h.start
  have hreach := simultaneous_reaches h.start h.run
  have hfail : ∀ {k x}, σ₀.threads.length ≤ k → x ∈ traceOf σ.history k →
      failure? x = none := fun hnew hx => no_failure h.start h.run hsound.keys
    hsound.chain h.fresh hord.once hnew hx
  obtain ⟨l₂, ⟨k, c, reply⟩, l₁, hl, hnew, hlooks, ⟨k', c', reply'⟩, he', hnew',
    hrotates⟩ := hord.late
  obtain ⟨ρ₁, ρ₂, hρ, hfires, rfl, -⟩ := h.start.split_new h.run hl hnew
  obtain ⟨-, hmay, o, hfault, -, hexec⟩ := simultaneous_fires h.start hρ hfires
  have hreachρ := simultaneous_reaches h.start hρ
  -- the rotation succeeded, so the token was used up when it was looked up
  have hused : UsedUp ρ₁.shared.db (config.hashToken refreshToken) := by
    obtain ⟨l₄, l₃, hl'⟩ := List.append_of_mem he'
    obtain ⟨π₁, π₂, hπ, hfires', -, -⟩ := h.start.split_new hρ hl' hnew'
    obtain ⟨-, hmay', -⟩ := simultaneous_fires h.start hπ hfires'
    have hok := hfail hnew' (mem_traceOf.2
      (hl ▸ List.mem_append_right _ (List.mem_cons_of_mem _ he')))
    cases c' with
    | repository cmd =>
        cases cmd with
        | rotateRefreshToken s input =>
            cases reply' with
            | ok a => exact hmay'.2.1 ▸ rotated_usedUp hreachρ he'
            | error e => cases hok
        | _ => cases hrotates
    | _ => cases hrotates
  -- the call that looked it up found the used row
  obtain ⟨t, htoken⟩ : ∃ t : SessionRefreshTokenRecord,
      t.sessionId ∈ told AuthCommand.reused (traceOf σ.history k) := by
    cases c with
    | repository cmd =>
        cases cmd with
        | findRefreshTokenHistoryByHash hash =>
            obtain rfl : hash = config.hashToken refreshToken := hmay
            obtain ⟨t, ht, hhash, hsome⟩ := hused
            have hfind : ρ₁.shared.db.findRefreshTokenHistoryByHash
                (config.hashToken refreshToken) = some t :=
              hhash ▸ find?_key (reaches_sound hreachρ).chain.hashes ht
            rcases exec_repository_of_none hfault hexec with
              ⟨a, hrun, hr⟩ | ⟨e, hrun, -⟩
            · obtain ⟨rfl, -⟩ := Prod.mk.inj (Except.ok.inj hrun)
              obtain rfl : reply = .ok _ := hr
              refine ⟨t, mem_told (mem_traceOf.2 (hl ▸ List.mem_append_right _
                List.mem_cons_self)) ?_⟩
              simp [AuthCommand.reused, hfind, Option.filter, hsome]
            · cases hrun
        | _ => cases hlooks
    | _ => cases hlooks
  -- so it revoked the session
  have hlt : k < σ.threads.length :=
    Semantics.Reaches.thread_lt hreach (hl ▸ List.mem_append_right _ List.mem_cons_self)
  obtain ⟨v, hv⟩ := Option.isSome_iff_exists.1 (h.finished k hnew hlt)
  obtain ⟨r, -, hends⟩ := h.course hnew hv
  have hrevoked : t.sessionId ∈ told AuthCommand.revoked (traceOf σ.history k) := by
    refine (hends.reused _ htoken).resolve_right ?_
    rintro ⟨x, hx, hsome⟩
    rw [hfail hnew hx] at hsome
    cases hsome
  obtain ⟨c₂, a, hmem, ha⟩ := exists_of_mem_told hrevoked
  obtain ⟨l₄, l₃, hl₂⟩ := List.append_of_mem (mem_traceOf.1 hmem)
  obtain ⟨π₁, π₂, hπ, hfires₂, -, hafter⟩ := h.start.split_new h.run hl₂ hnew
  obtain ⟨-, hmay₂, o₂, -, -, hexec₂⟩ := simultaneous_fires h.start hπ hfires₂
  have hreachπ := simultaneous_reaches h.start hπ
  have hsoundπ := reaches_sound hreachπ
  cases c₂ with
  | revokeSession id reason =>
      -- and this is the session whose token it is
      obtain ⟨-, t', ht', hhash', hid'⟩ :=
        reused_late h.start hπ h.fresh hnew hmay₂
      obtain ⟨s, hs, hsid⟩ := hsoundπ.chain.owned t' ht'
      obtain ⟨t₀, ht₀, hhash₀, hid₀, -⟩ := hsound.chain.current_row h.stored
      obtain ⟨t₁, ht₁, -, hid₁, hhash₁, -⟩ :=
        (reaches_since hπ hsound).2.later.token t₀ ht₀
      obtain rfl := List.inj_on_of_nodup_map hsoundπ.chain.hashes ht' ht₁
        (hhash'.trans (h.current.symm.trans (hhash₀.symm.trans hhash₁.symm)))
      have hsession : id = session.id := hid'.symm.trans (hid₁.trans hid₀)
      have hrun := (exec_repository_ok hexec₂).1
      have hended : Ended π₂.shared.db id := (revokeSessionTx_run hrun).ended
        hsoundπ.keys ⟨s, hs, hsid.trans hid'⟩
      have hsince := (reaches_since hafter
        (reaches_sound (simultaneous_reaches h.start (hπ.tail hfires₂.steps)))).2
      exact hsession ▸ hsince.ended hended
  | createExclusiveSession userId sessionData => exact hmay₂.elim
  | revokeAllSessions userId reason => exact hmay₂.elim
  | _ => cases ha

/-- When the refreshes are treated as reuse, every rotation has succeeded. -/
theorem rotation_of_treatedAsReuse
    (hreuse : TreatedAsReuse σ₀.threads.length session.id σ) {e : AuthEntry}
    (he : e ∈ σ.history) (hnew : σ₀.threads.length ≤ e.thread)
    (hrotates : e.command.rotates = true) :
    ∃ s input a,
      e = ⟨e.thread, .repository (.rotateRefreshToken s input), .ok a⟩ ∧
        input.currentTokenHash = config.hashToken refreshToken := by
  obtain ⟨l₂, l₁, hl⟩ := List.append_of_mem he
  obtain ⟨ρ₁, ρ₂, hρ, hfires, -, -⟩ := h.start.split_new h.run hl hnew
  obtain ⟨-, hmay, -⟩ := simultaneous_fires h.start hρ hfires
  have hlt := Semantics.Reaches.thread_lt (simultaneous_reaches h.start h.run) he
  obtain ⟨k, c, reply⟩ := e
  cases c with
  | repository cmd =>
      cases cmd with
      | rotateRefreshToken s input =>
          cases reply with
          | ok a => exact ⟨s, input, a, rfl, hmay.2.1⟩
          | error err =>
              obtain ⟨v, hv⟩ := Option.isSome_iff_exists.1 (h.finished k hnew hlt)
              obtain ⟨r, rfl, hends⟩ := h.course hnew hv
              obtain rfl := hends.rejected err (mem_rejections (mem_traceOf.2 he))
              cases hreuse.others k _ hnew hv
      | _ => cases hrotates
  | _ => cases hrotates

end SimultaneousRefresh

/-- Simultaneous refreshes are treated as reuse in the runs in which the token is
rotated by one call only and looked up after that, and in no others. -/
theorem treatedAsReuse_iff_inOrder
    (h : SimultaneousRefresh config users refreshToken session σ₀ σ) :
    TreatedAsReuse σ₀.threads.length session.id σ ↔
      InOrder σ₀.threads.length σ.history := by
  have hreach := simultaneous_reaches h.start h.run
  constructor
  · intro hreuse
    refine ⟨fun l₂ e l₁ hl hnew hrotates e' he' hnew' => ?_,
      ended_late h.start h.run h.fresh h.not_ended hreuse.revoked⟩
    by_contra hrotates'
    rw [Bool.not_eq_false] at hrotates'
    -- both rotations succeeded, since a failed one is not answered as invalid
    obtain ⟨s₂, input₂, a₂, heq₂, hhash₂⟩ :=
      h.rotation_of_treatedAsReuse hreuse
        (hl ▸ List.mem_append_right _ List.mem_cons_self) hnew hrotates
    obtain ⟨s₁, input₁, a₁, heq₁, hhash₁⟩ :=
      h.rotation_of_treatedAsReuse hreuse
        (hl ▸ List.mem_append_right _ (List.mem_cons_of_mem _ he')) hnew' hrotates'
    rw [heq₂] at hl
    rw [heq₁] at he'
    exact not_rotated_again hreach hl he' (hhash₁.trans hhash₂.symm)
  · intro hord
    refine ⟨fun i j a b hi hj ha hb => ?_, fun i e hi he =>
      h.invalid_of_inOrder hord hi he, h.revoked_of_inOrder hord⟩
    have hexchanged : ∀ {k a}, σ₀.threads.length ≤ k →
        σ.result? k = some (.ok a) → config.hashToken refreshToken ∈
          told AuthCommand.exchanged (traceOf σ.history k) := by
      intro k a hnew hv
      obtain ⟨r, hr, hends⟩ := h.course hnew hv
      cases hanswer : refreshAnswer r with
      | ok answer =>
          obtain ⟨tokens, htokens⟩ := refreshAnswer_eq_ok hanswer
          exact hends.exchanged tokens htokens
      | error e =>
          rw [hanswer] at hr
          cases hr
    exact exchanged_once hreach (hexchanged hi ha) (hexchanged hj hb)

end

/-! ### Two runs -/

/-- An account has logged in. -/
def firstLogin : AuthPool :=
  (authService exampleConfig).after
    (.spawn (.createSessionAfterLogin "u" "USER") :: steps 0 "a" 7)
    (Pool.init (AuthState.init [exampleUser]))

def loginSession : AuthSessionRecord :=
  ⟨"a", "u", "#a", "#a", SESSION_TTL_MS, none, none, 1, 1⟩

/-- Two refreshes are started; the second looks the token up when the first has
finished. -/
def afterReuse : AuthPool :=
  (authService exampleConfig).after
    (.spawn (.refresh "a") :: .spawn (.refresh "a") :: steps 1 "b" 10 ++
      steps 2 "c" 3) firstLogin

/-- A schedule of refreshes that follow the login. -/
theorem simultaneousRefresh_after {events : List AuthEvent} {σ : AuthPool}
    (hσ : σ = (authService exampleConfig).after events firstLogin)
    (h : (authService exampleConfig).Admits
      (fun σ e => simultaneous 1 "a" σ e = true) events firstLogin)
    (hnow : σ.shared.redis.now = 0) (hseveral : 3 ≤ σ.threads.length)
    (hfinished : ∀ k < σ.threads.length, 1 ≤ k → (σ.result? k).isSome) :
    SimultaneousRefresh exampleConfig [exampleUser] "a" loginSession firstLogin
      σ where
  start := Semantics.reaches_after _ (by decide)
  stored := by decide
  active := rfl
  current := rfl
  run := hσ ▸ Semantics.reaches_after _ h
  unexpired := hnow ▸ by decide
  several := hseveral
  finished k hk hlt := hfinished k hlt hk

theorem secondRefresh_isReuse :
    afterReuse.result? 2 = some (.error sessionInvalidException) ∧
      (TreatedAsReuse 1 "a" afterReuse ↔ InOrder 1 afterReuse.history) :=
  ⟨by decide, treatedAsReuse_iff_inOrder (simultaneousRefresh_after rfl
    (by decide) (by decide) (by decide) (by decide))⟩

/-- Both refreshes pass their checks before the first one rotates. -/
def afterRace : AuthPool :=
  (authService exampleConfig).after
    (.spawn (.refresh "a") :: .spawn (.refresh "a") :: steps 1 "b" 5 ++
      steps 2 "c" 5 ++ steps 1 "b" 5 ++ steps 2 "c" 3) firstLogin

/-- The loser of a race is answered with another error than `SESSION_INVALID`,
and the session stays active. -/
theorem race_not_treatedAsReuse :
    SimultaneousRefresh exampleConfig [exampleUser] "a" loginSession firstLogin
        afterRace ∧
      ¬ TreatedAsReuse firstLogin.threads.length loginSession.id afterRace := by
  refine ⟨simultaneousRefresh_after rfl (by decide) (by decide) (by decide)
    (by decide), fun h => ?_⟩
  cases h.others 2 _ (by decide) rfl

end Auth

end Shortlink

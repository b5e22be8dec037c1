import Shortlink.Auth.Revocation

/-!
# The exchange of a refresh token

A refresh ends with tokens only when its rotation has been committed, and the
rotation of a token uses its row up. The hashes of the rows are unique and a
used row stays used, so a token is exchanged once.
-/

namespace Shortlink

namespace Auth

open Shortlink.Storage Shortlink.Table Shortlink.Transaction
open Shortlink.Interaction AuthProgram

/-! ### The course of a refresh -/

/-- The hash that a method exchanges. -/
def AuthCommand.exchanged : (c : AuthCommand) → c.Res → List String
  | .rotateRefreshToken _ input, _ => [input.currentTokenHash]
  | _, _ => []

/-- The session of a used row that a method finds. -/
def AuthCommand.reused : (c : AuthCommand) → c.Res → List String
  | .findRefreshTokenHistoryByHash _, token =>
      ((Option.filter (fun t => t.usedAt.isSome) token).map (·.sessionId)).toList
  | _, _ => []

/-- The session that a method finds, when its current token has this hash. -/
def AuthCommand.current (tokenHash : String) :
    (c : AuthCommand) → c.Res → List String
  | .findActiveSessionById _, session =>
      ((Option.filter (fun s => s.refreshTokenHash = tokenHash) session).map
        (·.id)).toList
  | _, _ => []

/-- Whether a step rotates a refresh token. -/
def AuthStep.rotates : AuthStep → Bool
  | .repository (.rotateRefreshToken _ _) => true
  | _ => false

/-- The error with which a step was answered. -/
def failure? : Exchange AuthStep AuthStep.Reply → Option StorageError
  | ⟨.repository _, Except.error e⟩ => some e
  | ⟨.redis _, Except.error e⟩ => some e
  | _ => none

/-- The errors with which rotations were answered. -/
def rejections : AuthTrace → List StorageError
  | [] => []
  | ⟨.repository (.rotateRefreshToken _ _), Except.error e⟩ :: trace =>
      e :: rejections trace
  | _ :: trace => rejections trace

theorem mem_rejections {trace : AuthTrace} {sessionId : String}
    {input : RotateRefreshTokenInput} {e : StorageError}
    (h : (⟨.repository (.rotateRefreshToken sessionId input), .error e⟩ :
      Exchange AuthStep AuthStep.Reply) ∈ trace) : e ∈ rejections trace := by
  induction trace with
  | nil => cases h
  | cons x trace ih =>
      rcases List.mem_cons.1 h with rfl | h
      · exact List.mem_cons_self
      · have hrest := ih h
        unfold rejections
        split
        · rename_i heq
          cases heq
        · rename_i heq
          cases heq
          exact List.mem_cons_of_mem _ hrest
        · rename_i heq
          cases heq
          exact hrest

def RefreshMay (tokenHash : String) (trace : AuthTrace) : AuthStep → Prop
  | .repository (.rotateRefreshToken sessionId input) =>
      sessionId ∈ told (AuthCommand.current tokenHash) trace ∧
        input.currentTokenHash = tokenHash ∧ ∀ x ∈ trace, x.1.rotates = false
  | .repository (.revokeSession sessionId _) =>
      sessionId ∈ told AuthCommand.reused trace
  | .repository (.findRefreshTokenHistoryByHash hash) => hash = tokenHash
  | .repository (.createExclusiveSession _ _) => False
  | .repository (.revokeAllSessions _ _) => False
  | _ => True

/-- How a refresh ends: with tokens only after the rotation; with another error
than the two of `auth-session.service.ts` only after a failed step, which is the
rotation if that failed; and after it has seen a used row only with an error,
once it has revoked the session. -/
structure RefreshEnds {α : Type} (tokenHash : String) (trace : AuthTrace)
    (r : Except AuthError α) : Prop where
  exchanged : ∀ a, r = .ok a → tokenHash ∈ told AuthCommand.exchanged trace
  error : ∀ e, r = .error e → e = .refreshTokenReuse ∨
    e = .invalidRefreshToken ∨ ∃ x ∈ trace, (failure? x).isSome
  rejected : ∀ e ∈ rejections trace, r = .error (.storage e)
  reused : ∀ sessionId ∈ told AuthCommand.reused trace,
    sessionId ∈ told AuthCommand.revoked trace ∨
      ∃ x ∈ trace, (failure? x).isSome

open AuthSessionService RedisAuthStateService

theorem rotate_course (config : AuthConfig) (tokenHash : String)
    (session : AuthSessionRecord) (account : AccountRecord) {trace : AuthTrace}
    (hcurrent : session.id ∈ told (AuthCommand.current tokenHash) trace)
    (hrotates : ∀ x ∈ trace, x.1.rotates = false)
    (hrejections : rejections trace = [])
    (hreused : told AuthCommand.reused trace = []) :
    (rotate config tokenHash session account).Obeys (RefreshMay tokenHash)
      (RefreshEnds tokenHash) trace := by
  simp only [rotate, sessionRotated, issueTokens, obeys_bind, obeys_generate,
    obeys_now, obeys_authRepository, obeys_setSessionCache, obeys_pure, either_ok,
    either_error]
  refine ⟨trivial, fun v => ⟨trivial, fun t => ⟨⟨?_, rfl, ?_⟩, fun e => ?_,
    fun (rotated : CreateExclusiveSessionResult) => ⟨trivial, fun t' =>
      ⟨trivial, fun e => ?_, fun a => ⟨trivial, fun t'' => ?_⟩⟩⟩⟩⟩⟩
  · simpa [told] using hcurrent
  · simpa [AuthStep.rotates] using hrotates
  all_goals
    constructor <;> simp [told, rejections, failure?, AuthCommand.reused,
      AuthCommand.exchanged, hrejections, hreused]

theorem refresh_course (config : AuthConfig) (refreshToken : String) :
    (AuthSessionService.refresh config refreshToken).Obeys
      (RefreshMay (config.hashToken refreshToken))
      (RefreshEnds (config.hashToken refreshToken)) [] := by
  simp only [AuthSessionService.refresh, obeys_bind, obeys_authRepository,
    either_ok, either_error]
  refine ⟨rfl, fun e => ?_, fun a => ?_⟩
  · constructor <;> simp [told, rejections, failure?]
  rcases a with _ | history
  · constructor <;> simp [told, rejections, failure?,
      AuthCommand.reused]
  · refine (obeys_ite _ _ _).2 ⟨fun hused => ?_, fun hunused => ?_⟩
    · simp only [refreshReused, obeys_bind, obeys_authRepository,
        obeys_deleteSessionCache, obeys_throw, either_ok, either_error]
      refine ⟨?_, fun e => ?_, fun (a : Unit) => ⟨trivial, fun e => ?_, fun a => ?_⟩⟩
      · simp [RefreshMay, told, AuthCommand.reused, Option.filter, hused]
      all_goals
        constructor <;> simp [told, rejections, failure?,
          AuthCommand.reused, AuthCommand.revoked, Option.filter, hused]
    · simp only [refreshUnused, obeys_bind, obeys_authRepository, either_ok,
        either_error]
      refine ⟨trivial, fun e => ?_, fun a => ?_⟩
      · constructor <;> simp [told, rejections, failure?,
          AuthCommand.reused, Option.filter, hunused]
      rcases a with _ | session
      · constructor <;> simp [told, rejections, failure?,
          AuthCommand.reused, Option.filter, hunused]
      · simp only [obeys_bind, obeys_now, obeys_ite, obeys_throw,
          obeys_authRepository, either_ok, either_error]
        refine ⟨trivial, fun t => ⟨fun _ => ?_, fun hlive => ⟨trivial,
          fun e => ?_, fun a => ?_⟩⟩⟩
        · constructor <;> simp [told, rejections, failure?,
            AuthCommand.reused, Option.filter, hunused]
        · constructor <;> simp [told, rejections, failure?,
            AuthCommand.reused, Option.filter, hunused]
        rcases a with _ | account
        · constructor <;> simp [told, rejections, failure?,
            AuthCommand.reused, Option.filter, hunused]
        · refine rotate_course config _ session account ?_ ?_ ?_ ?_
          · have hhash : session.refreshTokenHash =
                config.hashToken refreshToken :=
              not_not.1 fun hne => hlive (.inr hne)
            simp [told, AuthCommand.current, Option.filter, hhash]
          · simp [AuthStep.rotates]
          · simp [rejections]
          · simp [told, AuthCommand.reused, Option.filter, hunused]

/-- How `AuthService.refresh` answers what `AuthSessionService.refresh` ends
with. -/
def refreshAnswer : Except AuthError IssuedSessionTokens →
    Except AuthError RefreshedSession
  | .ok tokens => .ok ⟨tokens.accessToken, tokens.expiresIn, tokens.refreshToken⟩
  | .error .refreshTokenReuse => .error sessionInvalidException
  | .error .invalidRefreshToken => .error sessionInvalidException
  | .error .storageUnavailable => .error securityStorageUnavailableException
  | .error e => .error e

theorem serviceRefresh_course (config : AuthConfig) (refreshToken : String) :
    (AuthService.refresh config refreshToken).Obeys
      (RefreshMay (config.hashToken refreshToken))
      (fun trace answer => ∃ r, answer = refreshAnswer r ∧
        RefreshEnds (config.hashToken refreshToken) trace r) [] := by
  simp only [AuthService.refresh, AuthService.withSecurityStorage,
    obeys_tryCatch, obeys_bind, obeys_pure]
  refine (refresh_course config refreshToken).mono fun trace r hr => ?_
  rcases r with e | tokens
  · cases e <;> exact ⟨_, rfl, hr⟩
  · exact ⟨_, rfl, hr⟩

/-- The refresh token that a call presents. -/
def AuthCall.presented : AuthCall → Option String
  | .sessionRefresh refreshToken => some refreshToken
  | .refresh refreshToken => some refreshToken
  | _ => none

theorem refreshAnswer_eq_ok {r : Except AuthError IssuedSessionTokens}
    {answer : RefreshedSession} (h : refreshAnswer r = .ok answer) :
    ∃ tokens, r = .ok tokens := by
  rcases r with e | tokens
  · cases e <;> cases h
  · exact ⟨tokens, rfl⟩

/-- A refresh that ends with tokens has rotated its token. -/
theorem presented_obeys {config : AuthConfig} {call : AuthCall}
    {refreshToken : String} (h : call.presented = some refreshToken) :
    Program.Obeys (fun _ _ => True)
      (fun trace v => ∀ a, v = .ok a →
        config.hashToken refreshToken ∈ told AuthCommand.exchanged trace) []
      ((authService config).body call) := by
  cases call with
  | sessionRefresh tok =>
      obtain rfl : tok = refreshToken := Option.some.inj h
      refine (obeys_map _ _).2 (Program.Obeys.mono (fun _ _ _ => trivial)
        (fun trace r hr => ?_) (refresh_course config tok))
      cases r with
      | ok tokens => exact fun _ _ => hr.exchanged tokens rfl
      | error e => exact nofun
  | refresh tok =>
      obtain rfl : tok = refreshToken := Option.some.inj h
      refine (obeys_map _ _).2 (Program.Obeys.mono (fun _ _ _ => trivial)
        ?_ (serviceRefresh_course config tok))
      rintro trace answer ⟨r, hanswer, hr⟩
      cases answer with
      | ok session =>
          obtain ⟨tokens, htokens⟩ := refreshAnswer_eq_ok hanswer.symm
          exact fun _ _ => hr.exchanged tokens htokens
      | error e => exact nofun
  | _ => cases h

/-! ### Rotations in a run -/

def UsedUp (db : AuthDb) (tokenHash : String) : Prop :=
  ∃ t ∈ db.refreshTokens, t.tokenHash = tokenHash ∧ t.usedAt.isSome

theorem Later.usedUp {db db' : AuthDb} (h : Later db db') {tokenHash : String}
    (hused : UsedUp db tokenHash) : UsedUp db' tokenHash := by
  obtain ⟨t, ht, rfl, hsome⟩ := hused
  obtain ⟨t', ht', -, -, -, hkeep⟩ := h.token t ht
  obtain rfl := hkeep hsome
  exact ⟨t', ht', rfl, hsome⟩

section

variable {sessionId : String} {input : RotateRefreshTokenInput} {stamp : Stamp}
  {db db' : AuthDb} {r : CreateExclusiveSessionResult}
  {session : AuthSessionRecord} {token : SessionRefreshTokenRecord}

theorem TokenRotated.usedUp
    (h : TokenRotated sessionId input stamp db r db' session token) :
    UsedUp db' input.currentTokenHash := by
  obtain ⟨hmem, -, hhash, -⟩ := AuthDb.mem_of_findUnusedToken h.unused
  obtain rfl := h.result
  exact ⟨_, List.mem_append_left _ (mem_updateWhere_of hmem (beq_self_eq_true _)),
    hhash, rfl⟩

theorem TokenRotated.not_usedUp
    (h : TokenRotated sessionId input stamp db r db' session token)
    (hdb : TokenChain db) : ¬ UsedUp db input.currentTokenHash := by
  rintro ⟨t, ht, hhash, hused⟩
  obtain ⟨hmem, -, htoken, hunused⟩ := AuthDb.mem_of_findUnusedToken h.unused
  obtain rfl := List.inj_on_of_nodup_map hdb.hashes ht hmem
    (hhash.trans htoken.symm)
  rw [hunused] at hused
  cases hused

end

variable {config : AuthConfig} {ok : AuthPool → AuthEvent → Prop}
  {users : List AccountRecord} {σ : AuthPool}

theorem rotated_usedUp
    (h : (authService config).Reaches ok (Pool.init (AuthState.init users)) σ)
    {k : ℕ} {sessionId : String} {input : RotateRefreshTokenInput}
    {a : CreateExclusiveSessionResult}
    (hmem : (⟨k, .repository (.rotateRefreshToken sessionId input), .ok a⟩ :
      AuthEntry) ∈ σ.history) : UsedUp σ.shared.db input.currentTokenHash := by
  obtain ⟨l₂, l₁, hl⟩ := List.append_of_mem hmem
  obtain ⟨σ₁, σ₂, stamp, -, -, -, -, hrun, hsince⟩ := answered h hl
  obtain ⟨session, token, hrot⟩ := rotateRefreshTokenTx_run hrun
  exact hsince.later.usedUp hrot.usedUp

theorem not_rotated_again
    (h : (authService config).Reaches ok (Pool.init (AuthState.init users)) σ)
    {i j : ℕ} {s₁ s₂ : String} {input₁ input₂ : RotateRefreshTokenInput}
    {a₁ a₂ : CreateExclusiveSessionResult} {l₁ l₂ : List AuthEntry}
    (hl : σ.history = l₂ ++
      ⟨j, .repository (.rotateRefreshToken s₂ input₂), .ok a₂⟩ :: l₁)
    (hmem : (⟨i, .repository (.rotateRefreshToken s₁ input₁), .ok a₁⟩ :
      AuthEntry) ∈ l₁) :
    input₁.currentTokenHash ≠ input₂.currentTokenHash := by
  intro heq
  obtain ⟨σ₁, σ₂, stamp, h₁, -, rfl, hsound, hrun, -⟩ := answered h hl
  obtain ⟨session, token, hrot⟩ := rotateRefreshTokenTx_run hrun
  exact hrot.not_usedUp hsound.chain (heq ▸ rotated_usedUp h₁ hmem)

theorem exchanged_once
    (h : (authService config).Reaches ok (Pool.init (AuthState.init users)) σ)
    {i j : ℕ} {tokenHash : String}
    (hi : tokenHash ∈ told AuthCommand.exchanged (traceOf σ.history i))
    (hj : tokenHash ∈ told AuthCommand.exchanged (traceOf σ.history j)) :
    i = j := by
  have hrotation : ∀ {k}, tokenHash ∈
      told AuthCommand.exchanged (traceOf σ.history k) → ∃ s input a,
        (⟨k, .repository (.rotateRefreshToken s input), .ok a⟩ : AuthEntry) ∈
          σ.history ∧ input.currentTokenHash = tokenHash := by
    intro k hk
    obtain ⟨c, a, hmem, hc⟩ := exists_of_mem_told hk
    cases c with
    | rotateRefreshToken s input =>
        exact ⟨s, input, a, mem_traceOf.1 hmem, (List.mem_singleton.1 hc).symm⟩
    | _ => cases hc
  obtain ⟨s₁, input₁, a₁, hmem₁, hhash₁⟩ := hrotation hi
  obtain ⟨s₂, input₂, a₂, hmem₂, hhash₂⟩ := hrotation hj
  have heq := hhash₁.trans hhash₂.symm
  obtain ⟨l₂, l₁, hl⟩ := List.append_of_mem hmem₁
  rw [hl] at hmem₂
  rcases List.mem_append.1 hmem₂ with hlater | hrest
  · obtain ⟨l₄, l₃, rfl⟩ := List.append_of_mem hlater
    rw [List.append_assoc, List.cons_append] at hl
    exact absurd heq (not_rotated_again h hl
      (List.mem_append_right _ List.mem_cons_self))
  · rcases List.mem_cons.1 hrest with hsame | hearlier
    · exact (congrArg Entry.thread hsame).symm
    · exact absurd heq.symm (not_rotated_again h hl hearlier)

/-- In every state reached by interleaving the steps of the repository's
transactions each session has one unused token row, which has the hash that the
session records; the hashes of the rows are unique, and a used row never changes
again. In every run of the services at most one call that presents a given
refresh token ends with new tokens. -/
theorem refresh_token_exchanged_once (config : AuthConfig)
    (users : List AccountRecord) {σ σ' : AuthTxState} {τ : AuthPool}
    (h : repository.Reaches (State.init ⟨users, [], []⟩) σ)
    (h' : repository.Reaches σ σ')
    (hrun : (authService config).Reaches (fun _ _ => True)
      (Pool.init (AuthState.init users)) τ) :
    (∀ s ∈ σ.db.sessions, ∃ t,
      σ.db.refreshTokens.filter
          (fun t => t.sessionId == s.id && t.usedAt.isNone) = [t] ∧
        t.tokenHash = s.refreshTokenHash) ∧
    (σ.db.refreshTokens.map (·.tokenHash)).Nodup ∧
    (∀ t ∈ σ.db.refreshTokens, t.usedAt.isSome →
      t ∈ σ'.db.refreshTokens ∧
        ∀ t' ∈ σ'.db.refreshTokens, t'.id = t.id → t' = t) ∧
    ∀ (refreshToken : String) (i j : ℕ) (call call' : AuthCall)
      (a b : AuthValue), call.presented = some refreshToken →
        call'.presented = some refreshToken →
        τ.threads[i]? = some ⟨call, .pure (.ok a)⟩ →
        τ.threads[j]? = some ⟨call', .pure (.ok b)⟩ → i = j := by
  have hsound := repository_sound h
  have hkeys := (repository_sound (Relation.ReflTransGen.trans h h')).keys
  refine ⟨hsound.chain.current, hsound.chain.hashes, fun t ht hused => ?_,
    fun refreshToken i j call call' a b hcall hcall' hi hj => ?_⟩
  · obtain ⟨t₁, ht₁, -, -, -, hkeep⟩ := (repository_later h h').token t ht
    obtain rfl := hkeep hused
    exact ⟨ht₁, fun t' ht' hid =>
      List.inj_on_of_nodup_map hkeys.tokenIds ht' ht₁ hid⟩
  · have hexchanged : ∀ {k : ℕ} {call : AuthCall} {a : AuthValue},
        call.presented = some refreshToken →
        τ.threads[k]? = some ⟨call, .pure (.ok a)⟩ →
        config.hashToken refreshToken ∈
          told AuthCommand.exchanged (traceOf τ.history k) := by
      intro k call a hcall hk
      refine hrun.obeys (fun _ _ _ => True)
        (fun call trace v => call.presented = some refreshToken →
          ∀ a, v = .ok a → config.hashToken refreshToken ∈
            told AuthCommand.exchanged trace)
        (fun σ call _ => ?_) hk hcall a rfl
      by_cases h : call.presented = some refreshToken
      · exact (presented_obeys h).mono (fun _ _ h => h) fun _ _ hv _ => hv
      · exact Program.obeys_of_append fun _ _ hcall => absurd hcall h
    exact exchanged_once hrun (hexchanged hcall hi) (hexchanged hcall' hj)

/-- An account logs in; its refresh token is presented twice at once, and the
second call is overtaken by the first. -/
def afterTwoRefreshes : AuthPool :=
  (authService exampleConfig).after
    (.spawn (.createSessionAfterLogin "u" "USER") :: steps 0 "a" 7 ++
      .spawn (.refresh "a") :: .spawn (.refresh "a") :: steps 2 "c" 2 ++
      steps 1 "b" 12 ++ steps 2 "c" 6)
    (Pool.init (AuthState.init [exampleUser]))

theorem firstRefresh_wins :
    (∃ session, afterTwoRefreshes.threads[1]? =
        some ⟨.refresh "a", .pure (.ok (.refreshed session))⟩) ∧
      ∀ (j : ℕ) (call : AuthCall) (b : AuthValue),
        call.presented = some "a" →
        afterTwoRefreshes.threads[j]? = some ⟨call, .pure (.ok b)⟩ → 1 = j :=
  ⟨⟨_, rfl⟩, fun j call b hcall hj =>
    (refresh_token_exchanged_once exampleConfig [exampleUser]
      (repository.reaches_after concurrentLogins _)
      (repository.reaches_after lateRotation _)
      (Semantics.reaches_after _ (by decide))).2.2.2
      "a" 1 j _ call _ b rfl hcall rfl hj⟩

end Auth

end Shortlink

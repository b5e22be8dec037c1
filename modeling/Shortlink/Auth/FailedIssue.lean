import Shortlink.Auth.SessionCache

/-!
# Session issues that fail

`refresh` and `completeLogin` change the credentials in one transaction and have
more steps to go when it is committed. The tables are kept by a call that fails
exactly when no failure hits the committed transaction or a later step.
-/

namespace Shortlink

namespace Auth

open Shortlink.Storage Shortlink.Transaction Shortlink.Interaction AuthProgram

/-- The sessions and the refresh tokens are the same. -/
def SameCredentials (db db' : AuthDb) : Prop :=
  db'.sessions = db.sessions ∧ db'.refreshTokens = db.refreshTokens

theorem SameCredentials.of_eq {db db' : AuthDb} (h : db' = db) :
    SameCredentials db db' := by
  subst h
  exact ⟨rfl, rfl⟩

/-- Every step may fail. -/
def anyFault (_ : AuthStep) (_ : AuthOutside) (_ : AuthState) : Prop := True

/-- The calls that issue tokens to a client. -/
def AuthCall.issues : AuthCall → Bool
  | .refresh _ | .completeLogin _ => true
  | _ => false

/-- The error by which a used refresh token is refused. -/
def DetectedReuse (config : AuthConfig) (db : AuthDb) : AuthCall → AuthError → Prop
  | .refresh refreshToken, e => e = sessionInvalidException ∧ ∃ history,
      db.findRefreshTokenHistoryByHash (config.hashToken refreshToken) = some history ∧
        history.usedAt.isSome
  | _, _ => False

/-- A call that fails has kept the credentials, unless it detects reuse. -/
def KeepsCredentials (config : AuthConfig) (call : AuthCall) (s : AuthState)
    (r : AuthResult) (s' : AuthState) : Prop :=
  ∀ e, r = .error e → ¬ DetectedReuse config s.db call e →
    SameCredentials s.db s'.db

/-- The steps whose failure ends a call. A failed deletion of a cache entry does
not end a login. -/
def AuthCall.fatal : AuthCall → AuthStep → Bool
  | _, .now | _, .generate _ => false
  | .completeLogin _, .redis (.del _) => false
  | _, _ => true

/-- The step commits a transaction that changes the credentials of `db`. -/
def Commits (db : AuthDb) : AuthStep × AuthOutside → Prop
  | (.repository c, o) => (∀ e, o.fault ≠ .refused e) ∧
      ∃ a db', (c.impl o.stamp).run db = .ok (a, db') ∧ ¬ SameCredentials db db'
  | _ => False

/-- A step that ends the call fails. -/
def AuthCall.Fails (call : AuthCall) (es : AuthLog) : Prop :=
  ∃ e ∈ es, call.fatal e.1 = true ∧ e.2.fault ≠ .none

/-- The answer to a commit is lost, or a step behind the commit fails. -/
def Interrupted (call : AuthCall) (db : AuthDb) : AuthLog → Prop
  | [] => False
  | e :: es => Commits db e ∧ (e.2.fault ≠ .none ∨ call.Fails es) ∨
      Interrupted call db es

/-! ### Commits in a log -/

section

variable {c : AuthCommand} {o : AuthOutside} {s s' : AuthState} {db : AuthDb}
  {call : AuthCall} {es es' : AuthLog}

theorem AuthStep.Reads.not_commits {e : AuthStep × AuthOutside} (he : e.1.Reads)
    (db : AuthDb) : ¬ Commits db e := by
  obtain ⟨c, o⟩ := e
  cases c with
  | repository c =>
      rintro ⟨-, a, db', hrun, hdiff⟩
      exact hdiff (.of_eq (AuthCommand.impl_reads he hrun))
  | now => exact id
  | generate secret => exact id
  | redis c => exact id
  | enqueue job => exact id
  | sendMail mail => exact id
  | audit event => exact id

theorem not_interrupted (h : ∀ e ∈ es, ¬ Commits db e) :
    ¬ Interrupted call db es := by
  induction es with
  | nil => exact id
  | cons e es ih =>
      rintro (⟨hcommits, -⟩ | hlater)
      · exact h e List.mem_cons_self hcommits
      · exact ih (fun e he => h e (List.mem_cons_of_mem _ he)) hlater

theorem fails_append : call.Fails (es ++ es') ↔ call.Fails es ∨ call.Fails es' := by
  constructor
  · rintro ⟨e, he, hfails⟩
    exact (List.mem_append.1 he).imp (fun he => ⟨e, he, hfails⟩)
      fun he => ⟨e, he, hfails⟩
  · rintro (⟨e, he, hfails⟩ | ⟨e, he, hfails⟩)
    · exact ⟨e, List.mem_append_left _ he, hfails⟩
    · exact ⟨e, List.mem_append_right _ he, hfails⟩

theorem interrupted_append_of_not_commits (h : ∀ e ∈ es, ¬ Commits db e) :
    Interrupted call db (es ++ es') ↔ Interrupted call db es' := by
  induction es with
  | nil => rfl
  | cons e es ih =>
      rw [List.cons_append, Interrupted,
        ih fun e he => h e (List.mem_cons_of_mem _ he)]
      exact or_iff_right fun hcommits => h e List.mem_cons_self hcommits.1

/-- What follows the commit interrupts the call by failing. -/
theorem interrupted_append_reads (h : ∀ e ∈ es', e.1.Reads) :
    Interrupted call db (es ++ es') ↔ Interrupted call db es ∨
      (∃ e ∈ es, Commits db e) ∧ call.Fails es' := by
  induction es with
  | nil =>
      rw [List.nil_append, iff_false_intro
        (not_interrupted fun e he => (h e he).not_commits db)]
      simp [Interrupted]
  | cons e es ih =>
      rw [List.cons_append, Interrupted, Interrupted, fails_append, ih]
      simp only [List.mem_cons, exists_eq_or_imp]
      tauto

/-- A repository step keeps the credentials, or it commits and answers unless it
fails. -/
theorem exec_repository_commits {r : AuthStep.Reply (.repository c)}
    (h : exec (.repository c) o s = some (r, s')) :
    SameCredentials s.db s'.db ∧ ¬ Commits s.db (.repository c, o) ∨
    ¬ SameCredentials s.db s'.db ∧ Commits s.db (.repository c, o) ∧
      (o.fault = .none ∧ (∃ a, r = .ok a) ∨ o.fault ≠ .none ∧ ∃ e, r = .error e) := by
  rcases exec_repository_cases h with
    ⟨rfl, -, hnot⟩ | ⟨a, db', hfault, hrun, rfl, hreply⟩
  · refine .inl ⟨.of_eq rfl, fun ⟨hfault, a, db', hrun, _⟩ => ?_⟩
    rcases hnot with ⟨e, hrefused⟩ | ⟨e, hthrow⟩
    · exact hfault e hrefused
    · cases hthrow.symm.trans hrun
  · by_cases hsame : SameCredentials s.db db'
    · refine .inl ⟨hsame, fun ⟨_, a', db'', hrun', hdiff⟩ => ?_⟩
      cases hrun.symm.trans hrun'
      exact hdiff hsame
    · refine .inr ⟨hsame, ⟨hfault, a, db', hrun, hsame⟩, hreply.imp ?_ id⟩
      exact fun hr => ⟨hr.1, a, hr.2⟩

end

/-! ### What the parts of a call do -/

/-- The errors that a failing step of the storage leads to. -/
def AuthError.IsStorage : AuthError → Prop
  | .storage _ | .storageUnavailable => True
  | _ => False

/-- What follows the commit: it keeps the tables, and it fails when one of its
steps does. When reuse has been detected, it may say so instead. -/
structure Tail (call : AuthCall) (reused : Prop) (s : AuthState) {α : Type}
    (es : AuthLog) (r : Except AuthError α) (s' : AuthState) : Prop where
  tables : s'.db = s.db
  reads : ∀ e ∈ es, e.1.Reads
  error : ∀ e, r = .error e → e.IsStorage ∨ reused ∧ e = .refreshTokenReuse
  failed : (∃ e, r = .error e ∧ e.IsStorage) ↔ call.Fails es

/-- A part of a call that starts with the tables `db`: it has kept the
credentials, or it has committed a change and fails when it is interrupted. -/
inductive Outcome (call : AuthCall) (reused : Prop) (db : AuthDb) {α : Type}
    (es : AuthLog) (r : Except AuthError α) (s' : AuthState) : Prop
  | kept (htables : SameCredentials db s'.db) (hes : ∀ e ∈ es, ¬ Commits db e)
  | changed (htables : ¬ SameCredentials db s'.db) (hcommits : ∃ e ∈ es, Commits db e)
      (herror : ∀ e, r = .error e → e.IsStorage ∨ reused ∧ e = .refreshTokenReuse)
      (hfailed : (∃ e, r = .error e ∧ e.IsStorage) ↔ Interrupted call db es)

/-- A part of a call that keeps the tables, whatever happens. -/
structure Head (db : AuthDb) (es : AuthLog) (s' : AuthState) : Prop where
  tables : s'.db = db
  reads : ∀ e ∈ es, e.1.Reads

section

variable {α β : Type} {config : AuthConfig} {call : AuthCall} {reused : Prop}
  {s : AuthState} {db : AuthDb}

theorem Head.outcome {es : AuthLog} {r : Except AuthError α} {s' : AuthState}
    (h : Head db es s') : Outcome call reused db es r s' :=
  .kept (.of_eq h.tables) fun e he => (h.reads e he).not_commits db

/-- A program that only reads keeps the tables. -/
theorem ensures_head {p : AuthProgram α}
    (hp : p.Issues AuthStep.Reads) (h : s.db = db) :
    p.Ensures config anyFault (fun es _ s' => Head db es s') s := by
  intro es r s' hrun
  obtain ⟨hdb, -, hreads⟩ := hrun.invariant (P := fun s₁ : AuthState => s₁.db = db)
    (fun x s₁ h₁ => (environment_idled x s₁).db.trans h₁)
    (fun _ _ _ _ _ h₁ hc _ hexec => ⟨trivial, (AuthStep.Reads.exec hc hexec).trans h₁⟩)
    hp h
  exact ⟨hdb, hreads⟩

/-- After a part that keeps the tables and answers as `Q` says. -/
theorem Outcome.bind {Q : Except AuthError α → Prop} {p : AuthProgram α}
    {f : α → AuthProgram β}
    (hp : p.Ensures config anyFault (fun es r s' => Head db es s' ∧ Q r) s)
    (hf : ∀ a s₁, Q (.ok a) → s₁.db = db →
      (f a).Ensures config anyFault (Outcome call reused db) s₁) :
    (p >>= f).Ensures config anyFault (Outcome call reused db) s := by
  refine .bind hp (fun es a s₁ ⟨hhead, ha⟩ => ?_)
    fun _ _ _ ⟨hhead, _⟩ => hhead.outcome
  have hes : ∀ e ∈ es, ¬ Commits db e := fun e he => (hhead.reads e he).not_commits db
  refine (hf a s₁ ha hhead.tables).mono fun es' r s' hrest => ?_
  cases hrest with
  | kept htables hes' =>
      refine .kept htables fun e he => ?_
      exact (List.mem_append.1 he).elim (hes e) (hes' e)
  | changed htables hcommits herror hfailed =>
      obtain ⟨e, he, hcommit⟩ := hcommits
      exact .changed htables ⟨e, List.mem_append_right _ he, hcommit⟩ herror
        (hfailed.trans (interrupted_append_of_not_commits hes).symm)

theorem Outcome.bind_head {p : AuthProgram α} {f : α → AuthProgram β}
    (hp : p.Issues AuthStep.Reads) (h : s.db = db)
    (hf : ∀ a s₁, s₁.db = db →
      (f a).Ensures config anyFault (Outcome call reused db) s₁) :
    (p >>= f).Ensures config anyFault (Outcome call reused db) s :=
  Outcome.bind (Q := fun _ => True)
    ((ensures_head hp h).mono fun _ _ _ h => ⟨h, trivial⟩) fun a s₁ _ => hf a s₁

theorem Outcome.bind_tail {p : AuthProgram α} {f : α → AuthProgram β}
    (hp : p.Ensures config anyFault (Outcome call reused db) s)
    (hf : ∀ a s₁, (f a).Ensures config anyFault (Tail call reused s₁) s₁) :
    (p >>= f).Ensures config anyFault (Outcome call reused db) s := by
  refine .bind hp (fun es a s₁ hfirst => ?_) fun es e s₁ hfirst => ?_
  · refine (hf a s₁).mono fun es' r s' htail => ?_
    have hdb : s'.db = s₁.db := htail.tables
    cases hfirst with
    | kept htables hes =>
        refine .kept (hdb ▸ htables) fun e he => ?_
        exact (List.mem_append.1 he).elim (hes e) fun he =>
          (htail.reads e he).not_commits db
    | changed htables hcommits herror hfailed =>
        obtain ⟨e, he, hcommit⟩ := hcommits
        have hnot : ¬ Interrupted call db es := fun h => by
          obtain ⟨e', he', -⟩ := hfailed.2 h
          cases he'
        refine .changed (hdb ▸ htables) ⟨e, List.mem_append_left _ he, hcommit⟩
          htail.error ?_
        rw [htail.failed, interrupted_append_reads htail.reads, or_iff_right hnot,
          and_iff_right ⟨e, he, hcommit⟩]
  · cases hfirst with
    | kept htables hes => exact .kept htables hes
    | changed htables hcommits herror hfailed =>
        exact .changed htables hcommits (fun e' he' => by cases he'; exact herror e rfl)
          ((by simp : (∃ e', (.error e : Except AuthError β) = .error e' ∧ e'.IsStorage) ↔
            ∃ e', (.error e : Except AuthError α) = .error e' ∧ e'.IsStorage).trans hfailed)

theorem outcome_authRepository (c : AuthCommand) (h : s.db = db) :
    (authRepository c).Ensures config anyFault (Outcome call reused db) s := by
  refine .of_authRepository fun s₁ o r s₂ s' hidle _ hexec hidle' => ?_
  have hdb : s₁.db = db := hidle.db.trans h
  have hcases := exec_repository_commits hexec
  rw [hdb, ← hidle'.db] at hcases
  rcases hcases with ⟨hsame, hnot⟩ | ⟨hdiff, hcommits, hreply⟩
  · refine .kept hsame fun e he => ?_
    rw [List.mem_singleton] at he
    exact he ▸ hnot
  · refine .changed hdiff ⟨_, List.mem_singleton_self _, hcommits⟩ ?_ ?_
    · intro e he
      rcases r with e' | a
      · cases he; exact .inl trivial
      · cases he
    · have hint : Interrupted call db [(AuthStep.repository c, o)] ↔ o.fault ≠ .none := by
        simp [Interrupted, AuthCall.Fails, hcommits]
      rw [hint]
      rcases hreply with ⟨hfault, a, rfl⟩ | ⟨hfault, e, rfl⟩
      · refine iff_of_false ?_ fun h => h hfault
        rintro ⟨e, he, -⟩
        cases he
      · exact iff_of_true ⟨_, rfl, trivial⟩ hfault

theorem Tail.refl {s s' : AuthState} (hidle : Idled s s') {r : Except AuthError α}
    (hr : ∀ e, r = .error e → reused ∧ e = .refreshTokenReuse) :
    Tail call reused s [] r s' := by
  refine ⟨hidle.db, fun e he => absurd he List.not_mem_nil,
    fun e he => .inr (hr e he), ?_⟩
  refine iff_of_false ?_ fun ⟨e, he, _⟩ => nomatch he
  rintro ⟨e, he, hstorage⟩
  obtain ⟨-, rfl⟩ := hr e he
  exact hstorage

theorem tail_pure (a : α) :
    Ensures config anyFault (Tail call reused s) (pure a) s :=
  .of_pure fun _ hidle => .refl hidle nofun

theorem tail_now : now.Ensures config anyFault (Tail call reused s) s := by
  refine .of_now fun s₁ o s' hidle hidle' => ?_
  refine ⟨(hidle.trans hidle').db, fun e he => ?_, nofun, ?_⟩
  · rw [List.mem_singleton.1 he]
    trivial
  · refine iff_of_false (fun ⟨e, he, _⟩ => by cases he) ?_
    rintro ⟨e, he, hfatal, -⟩
    rw [List.mem_singleton.1 he] at hfatal
    cases call <;> cases hfatal

theorem Tail.bind {p : AuthProgram α} {f : α → AuthProgram β}
    (hp : p.Ensures config anyFault (Tail call reused s) s)
    (hf : ∀ a s₁, (f a).Ensures config anyFault (Tail call reused s₁) s₁) :
    (p >>= f).Ensures config anyFault (Tail call reused s) s := by
  refine .bind hp (fun es a s₁ hfirst => ?_) fun es e s₁ hfirst => ?_
  · have hnot : ¬ call.Fails es := fun h => by
      obtain ⟨e, he, -⟩ := hfirst.failed.2 h
      cases he
    refine (hf a s₁).mono fun es' r s' hrest => ⟨hrest.tables.trans hfirst.tables,
      fun e he => (List.mem_append.1 he).elim (hfirst.reads e) (hrest.reads e),
      hrest.error, ?_⟩
    rw [hrest.failed, fails_append, or_iff_right hnot]
  · refine ⟨hfirst.tables, hfirst.reads, fun e' he' => ?_, ?_⟩
    · cases he'
      exact hfirst.error e rfl
    · rw [← hfirst.failed]
      simp

theorem tail_redis (c : RedisCommand) (hfatal : call.fatal (.redis c) = true) :
    (redis c).Ensures config anyFault (Tail call reused s) s := by
  refine .of_redis fun s₁ o r s₂ s' hidle _ hexec hidle' => ?_
  have hreads : (AuthStep.redis c).Reads := trivial
  refine ⟨(hidle'.db.trans (hreads.exec hexec)).trans hidle.db, fun e he => ?_,
    fun e he => ?_, ?_⟩
  · rw [List.mem_singleton.1 he]
    trivial
  · rcases r with e' | a
    · cases he; exact .inl trivial
    · cases he
  · have hfails : call.Fails [(AuthStep.redis c, o)] ↔ o.fault ≠ .none := by
      simp [AuthCall.Fails, hfatal]
    rw [hfails]
    have hexec : o.fault.apply s₁ (execRedis c s₁) = (r, s₂) := Option.some.inj hexec
    rcases o.fault.apply_cases s₁ (execRedis c s₁) with
      ⟨e, hfault, happly⟩ | ⟨-, -, ⟨hfault, hreply⟩ | ⟨hfault, e, hreply⟩⟩
    · rw [hexec] at happly
      obtain ⟨rfl, -⟩ := Prod.mk.inj happly
      exact iff_of_true ⟨_, rfl, trivial⟩ (by rw [hfault]; nofun)
    · rw [hexec] at hreply
      obtain rfl : r = _ := hreply
      refine iff_of_false ?_ fun h => h hfault
      rintro ⟨e, he, -⟩
      cases he
    · rw [hexec] at hreply
      obtain rfl : r = _ := hreply
      exact iff_of_true ⟨_, rfl, trivial⟩ hfault

theorem tail_audit (event : RecordAuthAuditEventInput)
    (hfatal : call.fatal (.audit event) = true) :
    (audit event).Ensures config anyFault (Tail call reused s) s := by
  refine .of_audit fun o r s' hidle hr => ?_
  refine ⟨hidle.db, fun e he => ?_, fun e he => ?_, ?_⟩
  · rw [List.mem_singleton.1 he]
    trivial
  · rcases r with e' | a
    · cases he; exact .inl trivial
    · cases he
  · have hfails : call.Fails [(AuthStep.audit event, o)] ↔ o.fault ≠ .none := by
      simp [AuthCall.Fails, hfatal]
    rw [hfails, ne_eq, hr]
    rcases r with e | _
    · exact iff_of_true ⟨_, rfl, trivial⟩ nofun
    · refine iff_of_false ?_ (absurd rfl)
      rintro ⟨e, he, -⟩
      cases he

/-- `completeLogin` goes on when an entry cannot be deleted. -/
theorem tail_deleteSessionCaches {input : VerifyLoginDto} (ids : List String) :
    (AuthSessionService.deleteSessionCaches ids).Ensures config anyFault
      (Tail (.completeLogin input) reused s) s := by
  refine (ensures_deletions ids).mono fun es r s' h => ?_
  obtain ⟨rfl, hdb, hdeletions⟩ := h
  refine ⟨hdb, fun e he => ?_, nofun, ?_⟩
  · obtain ⟨id, hid⟩ := hdeletions e he
    rw [hid]
    trivial
  · refine iff_of_false (fun ⟨e, he, _⟩ => nomatch he) ?_
    rintro ⟨e, he, hfatal, -⟩
    obtain ⟨id, hid⟩ := hdeletions e he
    rw [hid] at hfatal
    cases hfatal

theorem tail_setSessionCache (session : SessionCacheRecord) :
    (RedisAuthStateService.setSessionCache session).Ensures config anyFault
      (Tail call reused s) s := by
  refine Tail.bind tail_now fun now s₁ =>
    tail_redis (RedisAuthStateService.cacheWrite session now) ?_
  cases call <;> rfl

theorem tail_issueTokens (claims : AccessTokenClaims)
    (refreshToken csrfToken : String) :
    (AuthSessionService.issueTokens config claims refreshToken csrfToken).Ensures config
      anyFault (Tail call reused s) s :=
  Tail.bind tail_now fun _ _ => tail_pure _

/-! ### The calls -/

theorem createSessionAfterLogin_outcome (input : VerifyLoginDto) (userId role : String)
    (h : s.db = db) :
    (AuthSessionService.createSessionAfterLogin config userId role).Ensures config
      anyFault (Outcome (.completeLogin input) False db) s := by
  refine Outcome.bind_head (issues_generate trivial) h fun refreshToken s₁ h₁ => ?_
  refine Outcome.bind_head (issues_generate trivial) h₁ fun csrfToken s₂ h₂ => ?_
  refine Outcome.bind_head (issues_now trivial) h₂ fun now s₃ h₃ => ?_
  refine Outcome.bind_tail (outcome_authRepository _ h₃) fun created s₄ => ?_
  refine Tail.bind (tail_deleteSessionCaches _) fun _ s₅ => ?_
  exact Tail.bind (tail_setSessionCache _) fun _ s₆ => tail_issueTokens _ _ _

theorem loginConsumed_outcome (input : VerifyLoginDto) (userId : String)
    (h : s.db = db) :
    (AuthService.loginConsumed config userId).Ensures config anyFault
      (Outcome (.completeLogin input) False db) s := by
  refine Outcome.bind_head (isLoginLocked_quiet userId).reads h fun locked s₁ h₁ => ?_
  split
  · exact (ensures_head (issues_throw _) h₁).mono fun _ _ _ h => h.outcome
  refine Outcome.bind_head (issues_authRepository trivial) h₁ fun account s₂ h₂ => ?_
  rcases account with _ | account
  · exact (ensures_head (issues_throw _) h₂).mono fun _ _ _ h => h.outcome
  · dsimp only
    split
    · exact (ensures_head (issues_throw _) h₂).mono fun _ _ _ h => h.outcome
    refine Outcome.bind_tail (createSessionAfterLogin_outcome input _ _ h₂)
      fun tokens s₃ => ?_
    exact Tail.bind (tail_audit _ rfl) fun _ _ => tail_pure _

theorem verifyChallenge_outcome (input : VerifyLoginDto) (challengeUserId : Option String)
    (h : s.db = db) :
    (AuthService.verifyChallenge config input challengeUserId).Ensures config anyFault
      (Outcome (.completeLogin input) False db) s := by
  refine Outcome.bind_head (consumeLoginChallenge_quiet _ _).reads h fun consumed s₁ h₁ => ?_
  have hrejected : ∀ p : AuthProgram CompletedLogin, p.Issues AuthStep.Reads →
      p.Ensures config anyFault (Outcome (.completeLogin input) False db) s₁ :=
    fun p hp => (ensures_head hp h₁).mono fun _ _ _ h => h.outcome
  cases consumed with
  | consumed userId => exact loginConsumed_outcome input userId h₁
  | invalid =>
      cases challengeUserId with
      | none => exact hrejected _ (issues_throw _)
      | some userId => exact hrejected _ (rejectLogin_quiet userId).reads
  | missing =>
      cases challengeUserId with
      | none => exact hrejected _ (issues_throw _)
      | some userId => exact hrejected _ (rejectLogin_quiet userId).reads

/-- `completeLogin` before its errors are translated. -/
theorem completeLogin_outcome (input : VerifyLoginDto) (h : s.db = db) :
    ((do
      let challengeUserId ←
        RedisAuthStateService.findLoginChallengeUserId input.challengeId
      match challengeUserId with
      | none => AuthService.verifyChallenge config input none
      | some userId =>
          let locked ← RedisAuthStateService.isLoginLocked userId
          if locked then throw accountTemporarilyLockedException
          else AuthService.verifyChallenge config input (some userId) :
        AuthProgram CompletedLogin)).Ensures config anyFault
      (Outcome (.completeLogin input) False db) s := by
  refine Outcome.bind_head (findLoginChallengeUserId_quiet _).reads h
    fun challengeUserId s₁ h₁ => ?_
  rcases challengeUserId with _ | userId
  · exact verifyChallenge_outcome input none h₁
  · refine Outcome.bind_head (isLoginLocked_quiet userId).reads h₁ fun locked s₂ h₂ => ?_
    split
    · exact (ensures_head (issues_throw _) h₂).mono fun _ _ _ h => h.outcome
    · exact verifyChallenge_outcome input (some userId) h₂

/-- The token has been exchanged before. -/
def Exchanged (db : AuthDb) (tokenHash : String) : Prop :=
  ∃ history, db.findRefreshTokenHistoryByHash tokenHash = some history ∧
    history.usedAt.isSome

theorem refreshReused_outcome (refreshToken : String)
    (history : SessionRefreshTokenRecord) (hreused : reused) (h : s.db = db) :
    (AuthSessionService.refreshReused history).Ensures config anyFault
      (Outcome (.refresh refreshToken) reused db) s := by
  refine Outcome.bind_tail (outcome_authRepository _ h) fun _ s₁ => ?_
  refine Tail.bind (tail_redis (.del (.session history.sessionId)) rfl) fun _ s₂ => ?_
  refine .of_throw fun s' hidle => .refl hidle fun e he => ?_
  cases he
  exact ⟨hreused, rfl⟩

theorem refreshUnused_outcome (refreshToken tokenHash : String)
    (history : SessionRefreshTokenRecord) (h : s.db = db) :
    (AuthSessionService.refreshUnused config tokenHash history).Ensures config anyFault
      (Outcome (.refresh refreshToken) reused db) s := by
  have hthrow : ∀ s₁ : AuthState, s₁.db = db →
      (throw .invalidRefreshToken : AuthProgram IssuedSessionTokens).Ensures config
        anyFault (Outcome (.refresh refreshToken) reused db) s₁ :=
    fun s₁ h₁ => (ensures_head (issues_throw _) h₁).mono fun _ _ _ h => h.outcome
  refine Outcome.bind_head (issues_authRepository trivial) h fun session s₁ h₁ => ?_
  rcases session with _ | session
  · exact hthrow s₁ h₁
  · refine Outcome.bind_head (issues_now trivial) h₁ fun now s₂ h₂ => ?_
    split
    · exact hthrow s₂ h₂
    refine Outcome.bind_head (issues_authRepository trivial) h₂ fun account s₃ h₃ => ?_
    rcases account with _ | account
    · exact hthrow s₃ h₃
    · refine Outcome.bind_head (issues_generate trivial) h₃ fun token s₄ h₄ => ?_
      refine Outcome.bind_head (issues_now trivial) h₄ fun now s₅ h₅ => ?_
      refine Outcome.bind_tail (outcome_authRepository _ h₅) fun rotated s₆ => ?_
      exact Tail.bind (tail_setSessionCache _) fun _ s₇ => tail_issueTokens _ _ _

theorem sessionRefresh_outcome (refreshToken : String) (h : s.db = db) :
    (AuthSessionService.refresh config refreshToken).Ensures config anyFault
      (Outcome (.refresh refreshToken) (Exchanged db (config.hashToken refreshToken))
        db) s := by
  have hreads : (authRepository (.findRefreshTokenHistoryByHash
      (config.hashToken refreshToken))).Issues AuthStep.Reads :=
    issues_authRepository trivial
  have hanswer : (authRepository (.findRefreshTokenHistoryByHash
      (config.hashToken refreshToken))).Ensures config anyFault
      (fun _ r _ => ∀ history, r = .ok history →
        history = db.findRefreshTokenHistoryByHash (config.hashToken refreshToken)) s := by
    refine Ensures.of_authRepository
      (c := .findRefreshTokenHistoryByHash (config.hashToken refreshToken))
      fun s₁ o r s₂ s' hidle _ hexec _ => ?_
    intro (history : Option SessionRefreshTokenRecord) hr
    rcases r with e | found
    · cases hr
    · cases hr
      have hrun := (exec_repository_ok hexec).1
      rw [hidle.db, h] at hrun
      exact (Prod.mk.inj (Except.ok.inj hrun)).1.symm
  refine Outcome.bind
    (Q := fun r : Except AuthError (Option SessionRefreshTokenRecord) =>
      ∀ history, r = .ok history →
        history = db.findRefreshTokenHistoryByHash (config.hashToken refreshToken))
    ((ensures_head hreads h).and hanswer) fun history s₁ hhistory h₁ => ?_
  rcases history with _ | history
  · exact (ensures_head (issues_throw _) h₁).mono fun _ _ _ h => h.outcome
  · have hfound := (hhistory _ rfl).symm
    dsimp only
    split
    · rename_i hused
      exact refreshReused_outcome _ history ⟨history, hfound, hused⟩ h₁
    · exact refreshUnused_outcome _ _ history h₁

end

/-! ### Failed issues -/

section

variable {config : AuthConfig} {s s' : AuthState} {es : AuthLog}

/-- How the answer of a call follows from the outcome of its parts. -/
theorem Outcome.keeps {α : Type} {call : AuthCall} {reused : Prop}
    {r : Except AuthError α} {answer : AuthResult}
    (h : Outcome call reused s.db es r s')
    (hvalue : ∀ a, r = .ok a → ∃ v, answer = .ok v)
    (hstorage : ∀ e, r = .error e → e.IsStorage →
      ∃ e', answer = .error e' ∧ ¬ DetectedReuse config s.db call e')
    (hreuse : reused → r = .error .refreshTokenReuse →
      ∃ e', answer = .error e' ∧ DetectedReuse config s.db call e') :
    KeepsCredentials config call s answer s' ↔ ¬ Interrupted call s.db es := by
  cases h with
  | kept htables hes => exact iff_of_true (fun _ _ _ => htables) (not_interrupted hes)
  | changed htables hcommits herror hfailed =>
      rw [← hfailed]
      constructor
      · rintro hkeeps ⟨e, he, hisStorage⟩
        obtain ⟨e', hanswer, hother⟩ := hstorage e he hisStorage
        exact htables (hkeeps e' hanswer hother)
      · intro hnot e hanswer hother
        cases r with
        | ok a =>
            obtain ⟨v, hv⟩ := hvalue a rfl
            cases hanswer.symm.trans hv
        | error e' =>
            rcases herror e' rfl with hisStorage | ⟨hreused, rfl⟩
            · exact absurd ⟨e', rfl, hisStorage⟩ hnot
            · obtain ⟨e'', hanswer', hdetected⟩ := hreuse hreused rfl
              cases hanswer.symm.trans hanswer'
              exact absurd hdetected hother

theorem refresh_keeps (config : AuthConfig) (refreshToken : String) (s : AuthState) :
    (AuthCall.program config (.refresh refreshToken)).Ensures config anyFault
      (fun es r s' => KeepsCredentials config (.refresh refreshToken) s r s' ↔
        ¬ Interrupted (.refresh refreshToken) s.db es) s := by
  refine .map (.rethrow AuthError.unavailable (fun e => by cases e <;> rfl)
    (.rethrow AuthError.invalidSession (fun e => by cases e <;> rfl) ?_))
  refine (Outcome.bind_tail (sessionRefresh_outcome refreshToken rfl)
    fun tokens s₁ => tail_pure _).mono fun es r s' h => ?_
  refine h.keeps (fun a ha => ?_) (fun e he hstorage => ?_) fun hreused he => ?_
  · subst ha
    exact ⟨_, rfl⟩
  · subst he
    refine ⟨_, rfl, fun hdetected => ?_⟩
    cases e with
    | storage e => cases hdetected.1
    | storageUnavailable => cases hdetected.1
    | http status code message retryAfter errors => exact hstorage
    | refreshTokenReuse => exact hstorage
    | invalidRefreshToken => exact hstorage
  · subst he
    exact ⟨_, rfl, rfl, hreused⟩

theorem completeLogin_keeps (config : AuthConfig) (input : VerifyLoginDto)
    (s : AuthState) :
    (AuthCall.program config (.completeLogin input)).Ensures config anyFault
      (fun es r s' => KeepsCredentials config (.completeLogin input) s r s' ↔
        ¬ Interrupted (.completeLogin input) s.db es) s := by
  refine .map (.rethrow AuthError.unavailable (fun e => by cases e <;> rfl) ?_)
  refine (completeLogin_outcome input rfl).mono fun es r s' h => ?_
  refine h.keeps (fun a ha => ?_) (fun e he _ => ?_) nofun
  · subst ha
    exact ⟨_, rfl⟩
  · subst he
    exact ⟨_, rfl, id⟩

/-- A failed issue keeps the credentials exactly when no failure hits the
committed transaction or a later step. -/
theorem failed_issue_keeps_credentials_iff (config : AuthConfig) {call : AuthCall}
    (hcall : call.issues = true) {r : AuthResult}
    (h : (authService config).Executes anyFault ((authService config).body call) s es r
      s') :
    KeepsCredentials config call s r s' ↔ ¬ Interrupted call s.db es := by
  cases call with
  | refresh refreshToken => exact refresh_keeps config refreshToken s es r s' h
  | completeLogin input => exact completeLogin_keeps config input s es r s' h
  | createSessionAfterLogin userId role => cases hcall
  | sessionRefresh refreshToken => cases hcall
  | logout refreshToken => cases hcall
  | revokeAll userId reason => cases hcall
  | validateSession sessionId => cases hcall
  | startLogin input clientIp => cases hcall
  | processLogin data => cases hcall

end

instance decidableAnyFault (c : AuthStep) (o : AuthOutside) (s : AuthState) :
    Decidable (anyFault c o s) := isTrue trivial

/-- The token is rotated, then the cache entry cannot be written. -/
def unwrittenOutcomes : List AuthOutside :=
  List.replicate 8 (outcome "b" .none) ++ [outcome "b" (.refused (.error "down"))]

/-- A refresh that rotates the token fails because Redis refuses one command. -/
theorem refused_cache_write_loses_token :
    (authService exampleConfig).Serially (fun _ _ => True) (fun _ => anyFault)
        (AuthState.init [exampleUser]) afterLogin ∧
      ∃ es r s', (authService exampleConfig).Executes anyFault
          ((authService exampleConfig).body (.refresh "a")) afterLogin es r s' ∧
        (es.filter fun e => e.2.fault ≠ .none).length = 1 ∧
        r = .error securityStorageUnavailableException ∧
        afterLogin.db.sessions.map (·.refreshTokenHash) = ["#a"] ∧
        s'.db.sessions.map (·.refreshTokenHash) = ["#b"] ∧
        ¬ KeepsCredentials exampleConfig (.refresh "a") afterLogin r s' := by
  refine ⟨(Semantics.serially_after _ _).mono fun _ _ _ _ _ => trivial, _, _, _,
    Semantics.executes_of_perform unwrittenOutcomes rfl, by decide, by decide, by decide,
    by decide, fun hkeeps => ?_⟩
  have hsame := (hkeeps _ rfl fun h => by cases h.1).1
  exact absurd (congrArg (List.map (·.refreshTokenHash)) hsame) (by decide)

theorem refused_cache_write_interrupts :
    (AuthCall.refresh "a").issues = true ∧ ∃ es r s',
      (KeepsCredentials exampleConfig (.refresh "a") afterLogin r s' ↔
        ¬ Interrupted (.refresh "a") afterLogin.db es) :=
  ⟨rfl, _, _, _, failed_issue_keeps_credentials_iff exampleConfig rfl
    (Semantics.executes_of_perform unwrittenOutcomes rfl)⟩

end Auth

end Shortlink

import Shortlink.Account.Run
import Shortlink.Auth.FailedIssue

/-!
# Password resets

`resetPassword` consumes the token in one transaction and has four more steps to go
when it is committed. It changes nothing or everything exactly when no failure hits
the consumption after its commit or a later step; the deletions of cache entries do
not count.
-/

namespace Shortlink

namespace Account

open Shortlink.Storage Shortlink.Table Shortlink.Transaction Shortlink.Interaction
open Shortlink.Auth AccountProgram

/-- A reset with this token is accepted at this instant. -/
def AccountDb.Accepts (db : AccountDb) (tokenHash : String) (now : ℕ) : Prop :=
  ∃ token, db.findPasswordResetToken tokenHash = some token ∧ token.Usable now

/-- The accounts, the sessions and the accepted tokens are the same. -/
structure AsBefore (db db' : AccountDb) : Prop where
  users : db'.auth.users = db.auth.users
  sessions : db'.auth.sessions = db.auth.sessions
  tokens : ∀ tokenHash now, db'.Accepts tokenHash now ↔ db.Accepts tokenHash now

/-- The password of the token's account is the new one, the token is used and the
account has no session that is not revoked. -/
structure Completed (config : AccountConfig) (input : ResetPasswordDto) (db : AccountDb)
    (es : AccountLog) (db' : AccountDb) (token : PasswordResetTokenRecord) : Prop where
  found : db.findPasswordResetToken (config.auth.hashToken input.token) = some token
  used : ∃ now, db'.findPasswordResetToken (config.auth.hashToken input.token) =
    some { token with usedAt := some now }
  password : ∃ o, (.hash input.password, o) ∈ es ∧
    (db'.auth.findAccountById token.userId).map (·.passwordHash) = some o.auth.generated
  sessions : ∀ row ∈ db'.auth.sessions, row.userId = token.userId → row.revokedAt.isSome

/-- The call has done everything and succeeds, or nothing and fails. -/
def AllOrNothing (config : AccountConfig) (input : ResetPasswordDto) (s : AccountState)
    (es : AccountLog) (r : AuthResult) (s' : AccountState) : Prop :=
  match r with
  | .ok _ => ∃ token, Completed config input s.db es s'.db token
  | .error _ => AsBefore s.db s'.db

/-- The steps whose failure ends the call. A failed deletion of a cache entry does
not. -/
def AccountStep.fatal : AccountStep → Bool
  | .repository _ | .auth (.repository _) | .auth (.audit _) => true
  | _ => false

/-- A step that ends the call fails. -/
def Fails (es : AccountLog) : Prop :=
  ∃ e ∈ es, e.1.fatal = true ∧ e.2.auth.fault ≠ .none

/-- The step commits the consumption of a token of `db`. -/
def Consumes (db : AccountDb) : AccountStep × AccountOutside → Prop
  | (.repository (.consumePasswordResetToken tokenHash), o) =>
      (∀ e, o.auth.fault ≠ .refused e) ∧ ∃ token db',
        (consumePasswordResetTokenTx tokenHash o.stamp).run db = .ok (some token, db')
  | _ => False

/-- The answer to the commit of the consumption is lost, or a later step fails. -/
def Interrupted (db : AccountDb) (es : AccountLog) : Prop :=
  ∃ e later, es = e :: later ∧ Consumes db e ∧ (e.2.auth.fault ≠ .none ∨ Fails later)

/-- A call without a failure is not interrupted. -/
theorem not_interrupted {db : AccountDb} {es : AccountLog}
    (h : ∀ e ∈ es, e.2.auth.fault = .none) : ¬ Interrupted db es := by
  rintro ⟨e, later, rfl, -, hfault | ⟨e', he', -, hfault⟩⟩
  · exact hfault (h e List.mem_cons_self)
  · exact hfault (h e' (List.mem_cons_of_mem _ he'))

/-- Every step may fail. -/
abbrev anyOutcome (_ : AccountStep) (_ : AccountOutside) (_ : AccountState) : Prop := True

/-! ### The tables -/

section

variable {db db' : AccountDb} {userId tokenHash : String}

theorem AsBefore.of_eq (h : db' = db) : AsBefore db db' := by
  subst h
  exact ⟨rfl, rfl, fun _ _ => .rfl⟩

theorem AccountDb.findPasswordResetToken_saveUsed (db : AccountDb) (ids : List String) (now : ℕ) :
    (db.saveUsed ids now).findPasswordResetToken tokenHash =
      (db.findPasswordResetToken tokenHash).map fun t =>
        if t.id ∈ ids then { t with usedAt := some now } else t := by
  rw [AccountDb.findPasswordResetToken, AccountDb.saveUsed, updateWhere, List.find?_map]
  have hhash : ((fun t : PasswordResetTokenRecord => decide (t.tokenHash = tokenHash)) ∘
      fun t => if decide (t.id ∈ ids) then { t with usedAt := some now } else t) =
      fun t => decide (t.tokenHash = tokenHash) := by
    funext t
    simp only [Function.comp_apply]
    split <;> rfl
  rw [hhash]
  simp only [decide_eq_true_eq]
  rfl

theorem findAccountById_savePasswordHash {passwordHash : String} (now : ℕ)
    (h : (db.auth.findAccountById userId).isSome) :
    ((db.savePasswordHash userId passwordHash now).auth.findAccountById userId).map
      (·.passwordHash) = some passwordHash := by
  obtain ⟨account, haccount⟩ := Option.isSome_iff_exists.1 h
  have hid : account.id = userId := by simpa using List.find?_some haccount
  rw [AuthDb.findAccountById, AccountDb.savePasswordHash, updateWhere, List.find?_map]
  have hkeep : ((fun a : AccountRecord => decide (a.id = userId)) ∘ fun a =>
      if a.id == userId && decide (a.passwordHash ≠ passwordHash) then
        { a with passwordHash, updatedAt := now } else a) =
      fun a => decide (a.id = userId) := by
    funext a
    simp only [Function.comp_apply]
    split <;> rfl
  rw [hkeep]
  have hfind : db.auth.users.find? (fun a => decide (a.id = userId)) = some account :=
    haccount
  rw [hfind]
  simp only [Option.map_some, Option.some.injEq, hid, beq_self_eq_true, Bool.true_and,
    decide_eq_true_eq]
  split
  · rfl
  · rename_i hsame
    exact not_not.1 hsame

/-- `revokeAllSessions` leaves the account without sessions that are not revoked. -/
theorem revokeActive_revoked {db : AuthDb} (now : ℕ) (reason : SessionRevocationReason) :
    ∀ row ∈ (db.revokeActive userId now reason).sessions, row.userId = userId →
      row.revokedAt.isSome := by
  intro row hrow howner
  obtain ⟨old, hold, rfl⟩ := mem_updateWhere.1 hrow
  split
  · rfl
  · rename_i hnot
    rw [if_neg hnot] at howner
    by_contra hactive
    refine hnot (decide_eq_true (List.mem_map_of_mem (List.mem_filter.2 ⟨hold, ?_⟩)))
    simpa [AuthDb.activeOf, howner] using hactive

theorem revokeAllSessionsTx_of_account {db : AuthDb} {reason : SessionRevocationReason}
    {stamp : Stamp} (h : (db.findAccountById userId).isSome) :
    ∃ ids, (revokeAllSessionsTx userId reason stamp).run db =
      .ok (ids, db.revokeActive userId stamp.revokedAt reason) := by
  rw [revokeAllSessionsTx, Tx.bind_eq, lockAccount_bind_run h,
    ← Tx.bind_pure (revokeActiveSessions userId reason stamp)]
  exact ⟨_, (revokeActiveSessions_run rfl).symm⟩

@[simp] theorem AccountState.setDb_db (s : AccountState) (db : AccountDb) :
    (s.setDb db).db = db := rfl

/-- A repository step leaves the state alone and fails, or it commits and answers
unless it fails. -/
theorem exec_repository_cases {c : AccountCommand} {o : AccountOutside}
    {s s' : AccountState} {r : AccountStep.Reply (.repository c)}
    (h : exec (.repository c) o s = some (r, s')) :
    s' = s ∧ (∃ e, r = .error e) ∧ ((∃ e, o.auth.fault = .refused e) ∨
        ∃ e, (c.impl o.stamp).run s.db = .error e) ∨
    ∃ a db', (∀ e, o.auth.fault ≠ .refused e) ∧
      (c.impl o.stamp).run s.db = .ok (a, db') ∧ s' = s.setDb db' ∧
      (o.auth.fault = .none ∧ r = .ok a ∨ o.auth.fault ≠ .none ∧ ∃ e, r = .error e) := by
  have hexec : o.auth.fault.apply s (execTransaction c o.stamp s) = (r, s') :=
    Option.some.inj h
  rcases o.auth.fault.apply_cases s (execTransaction c o.stamp s) with
    ⟨e, hfault, happly⟩ | ⟨hfault, hstate, hreply⟩
  · obtain ⟨rfl, rfl⟩ := Prod.mk.inj (hexec.symm.trans happly)
    exact .inl ⟨rfl, ⟨e, rfl⟩, .inl ⟨e, hfault⟩⟩
  rw [hexec] at hstate hreply
  dsimp only at hstate hreply
  cases hrun : (c.impl o.stamp).run s.db with
  | error e =>
      have htransaction : execTransaction c o.stamp s = (.error e, s) := by
        rw [execTransaction, hrun]
      rw [htransaction] at hstate hreply
      refine .inl ⟨hstate, ?_, .inr ⟨e, rfl⟩⟩
      exact hreply.elim (fun hr => ⟨e, hr.2⟩) fun hr => hr.2
  | ok p =>
      have htransaction : execTransaction c o.stamp s = (.ok p.1, s.setDb p.2) := by
        rw [execTransaction, hrun]
      rw [htransaction] at hstate hreply
      exact .inr ⟨p.1, p.2, hfault, rfl, hstate, hreply⟩

end

/-! ### The steps behind the commit -/

/-- A part of the call behind the commit: it keeps the tokens, it ends with an error
exactly when a step fails, and otherwise as `ends` says. -/
structure Tail {α : Type} (s : AccountState) (ends : AccountLog → α → AccountState → Prop)
    (es : AccountLog) (r : Except AuthError α) (s' : AccountState) : Prop where
  tokens : s'.passwordResetTokens = s.passwordResetTokens
  failed : (∃ e, r = .error e) ↔ Fails es
  value : ∀ a, r = .ok a → ends es a s'

section

variable {α β : Type} {config : AccountConfig} {s : AccountState} {userId : String}

theorem fails_append {es es' : AccountLog} : Fails (es ++ es') ↔ Fails es ∨ Fails es' := by
  simp only [Fails, List.mem_append, or_and_right, exists_or]

theorem Tail.bind {mid : AccountLog → α → AccountState → Prop}
    {ends : AccountLog → β → AccountState → Prop} {p : AccountProgram α}
    {f : α → AccountProgram β} (hp : p.Ensures config anyOutcome (Tail s mid) s)
    (hf : ∀ es a s₁, mid es a s₁ → (f a).Ensures config anyOutcome
      (Tail s₁ fun es' => ends (es ++ es')) s₁) :
    (p >>= f).Ensures config anyOutcome (Tail s ends) s := by
  refine .bind hp (fun es a s₁ hfirst => ?_) fun es e s₁ hfirst => ?_
  · have hnot : ¬ Fails es := fun h => by
      obtain ⟨e, he⟩ := hfirst.failed.2 h
      cases he
    refine (hf es a s₁ (hfirst.value a rfl)).mono fun es' r s' hrest =>
      ⟨hrest.tokens.trans hfirst.tokens, ?_, hrest.value⟩
    rw [hrest.failed, fails_append, or_iff_right hnot]
  · refine ⟨hfirst.tokens, ?_, nofun⟩
    rw [← hfirst.failed]
    simp

theorem tail_hash (password : String) :
    (AccountProgram.hash password).Ensures config anyOutcome
      (Tail s fun es value s' => s'.db = s.db ∧
        ∃ o : AccountOutside, (.hash password, o) ∈ es ∧ value = o.auth.generated) s := by
  refine .of_hash fun o s' hidle => ⟨hidle.tokens, ?_, fun a ha => ⟨hidle.db, o, ?_⟩⟩
  · refine iff_of_false (fun ⟨e, he⟩ => by cases he) ?_
    rintro ⟨e, he, hfatal, -⟩
    rw [List.mem_singleton.1 he] at hfatal
    cases hfatal
  · cases ha
    exact ⟨List.mem_singleton_self _, rfl⟩

/-- Whether a log of one step, whose failure ends the call, has a failure. -/
theorem fails_singleton {e : AccountStep × AccountOutside} (h : e.1.fatal = true) :
    Fails [e] ↔ e.2.auth.fault ≠ .none := by
  simp [Fails, h]

theorem tail_updatePasswordHash (passwordHash : String)
    (haccount : (s.db.auth.findAccountById userId).isSome) :
    (accountRepository (.updatePasswordHash userId passwordHash)).Ensures config anyOutcome
      (Tail s fun _ _ s' => (s'.db.auth.findAccountById userId).map (·.passwordHash) =
        some passwordHash) s := by
  refine Ensures.of_accountRepository (c := .updatePasswordHash userId passwordHash)
    fun s₁ o r s₂ s' hidle _ hexec hidle' => ?_
  have haccount₁ : (s₁.db.auth.findAccountById userId).isSome := hidle.db ▸ haccount
  have hrun : (updatePasswordHashTx userId passwordHash o.stamp).run s₁.db =
      .ok ((), s₁.db.savePasswordHash userId passwordHash o.stamp.createdAt) :=
    updatePasswordHashTx_run.trans (if_pos haccount₁)
  have hfails := fails_singleton (e := (.repository (.updatePasswordHash userId
    passwordHash), o)) rfl
  rcases exec_repository_cases hexec with
    ⟨rfl, ⟨e, rfl⟩, ⟨e', hfault⟩ | ⟨e', hthrow⟩⟩ | ⟨a, db', hcommit, hok, rfl, hreply⟩
  · refine ⟨hidle'.tokens.trans hidle.tokens, ?_, nofun⟩
    exact iff_of_true ⟨_, rfl⟩ (hfails.2 (by rw [hfault]; nofun))
  · cases hthrow.symm.trans hrun
  · obtain ⟨-, rfl⟩ := Prod.mk.inj (Except.ok.inj (hok.symm.trans hrun))
    refine ⟨hidle'.tokens.trans hidle.tokens, ?_, fun _ _ => ?_⟩
    · rw [hfails]
      rcases hreply with ⟨hfault, rfl⟩ | ⟨hfault, e, rfl⟩
      · exact iff_of_false (fun ⟨e, he⟩ => by cases he) fun h => h hfault
      · exact iff_of_true ⟨_, rfl⟩ hfault
    · rw [hidle'.db]
      exact findAccountById_savePasswordHash _ haccount₁

def AuthFails (es : AuthLog) : Prop :=
  ∃ e ∈ es, (AccountStep.auth e.1).fatal = true ∧ e.2.fault ≠ .none

theorem fails_iff_authFails {es : AccountLog} {es' : AuthLog}
    (h : es.map (fun e => (e.1, e.2.auth)) = es'.map fun e => (.auth e.1, e.2)) :
    Fails es ↔ AuthFails es' := by
  constructor
  · rintro ⟨e, he, hfails⟩
    obtain ⟨e', he', heq⟩ := List.mem_map.1 (h ▸ List.mem_map_of_mem he)
    obtain ⟨hstep, hout⟩ := Prod.mk.inj heq
    exact ⟨e', he', hstep ▸ hfails.1, hout ▸ hfails.2⟩
  · rintro ⟨e', he', hfails⟩
    obtain ⟨e, he, heq⟩ := List.mem_map.1 (h ▸ List.mem_map_of_mem he')
    obtain ⟨hstep, hout⟩ := Prod.mk.inj heq
    exact ⟨e, he, hstep ▸ hfails.1, hout ▸ hfails.2⟩

theorem revokeAll_ensures {config : AuthConfig} {s : AuthState}
    (reason : SessionRevocationReason) (haccount : (s.db.findAccountById userId).isSome) :
    (AuthSessionService.revokeAll userId reason).Ensures config anyFault
      (fun es r s' => ((∃ e, r = .error e) ↔ AuthFails es) ∧
        ∀ u, r = .ok u → ∃ now, s'.db = s.db.revokeActive userId now reason) s := by
  have hrevoke : (AuthProgram.authRepository
      (.revokeAllSessions userId reason)).Ensures config anyFault
      (fun es r s' => ((∃ e, r = .error e) ↔ AuthFails es) ∧
        ∀ ids, r = .ok ids → ∃ now, s'.db = s.db.revokeActive userId now reason) s := by
    refine AuthProgram.Ensures.of_authRepository (c := .revokeAllSessions userId reason)
      fun s₁ o r s₂ s' hidle _ hexec hidle' => ?_
    have hfails : AuthFails [(.repository (.revokeAllSessions userId reason), o)] ↔
        o.fault ≠ .none := by
      simp [AuthFails, AccountStep.fatal]
    have haccount₁ : (s₁.db.findAccountById userId).isSome := hidle.db ▸ haccount
    obtain ⟨ids, hrun⟩ : ∃ ids, (revokeAllSessionsTx userId reason o.stamp).run s₁.db =
        .ok (ids, s₁.db.revokeActive userId o.stamp.revokedAt reason) :=
      revokeAllSessionsTx_of_account haccount₁
    rw [hfails]
    rcases Auth.exec_repository_cases hexec with
      ⟨rfl, ⟨e, rfl⟩, ⟨e', hfault⟩ | ⟨e', hthrow⟩⟩ | ⟨a, db', -, hok, rfl, hreply⟩
    · exact ⟨iff_of_true ⟨_, rfl⟩ (by rw [hfault]; nofun), nofun⟩
    · cases hthrow.symm.trans hrun
    · obtain ⟨-, rfl⟩ := Prod.mk.inj (Except.ok.inj (hok.symm.trans hrun))
      refine ⟨?_, fun _ _ => ⟨o.stamp.revokedAt, ?_⟩⟩
      · rcases hreply with ⟨hfault, rfl⟩ | ⟨hfault, e, rfl⟩
        · exact iff_of_false (fun ⟨e, he⟩ => by cases he) fun h => h hfault
        · exact iff_of_true ⟨_, rfl⟩ hfault
      · rw [hidle'.db, ← hidle.db]
  refine .bind hrevoke (fun es ids s₁ h₁ => ?_) fun es e s₁ h₁ => ?_
  · have hnot : ¬ AuthFails es := fun h => by
      obtain ⟨e, he⟩ := h₁.1.2 h
      cases he
    refine (ensures_deletions ids).mono fun es' r s' h₂ => ?_
    obtain ⟨rfl, hdb, hdeletions⟩ := h₂
    refine ⟨iff_of_false (fun ⟨e, he⟩ => by cases he) ?_, fun _ _ => ?_⟩
    · rintro ⟨e, he, hfatal, hfault⟩
      rcases List.mem_append.1 he with he | he
      · exact hnot ⟨e, he, hfatal, hfault⟩
      · obtain ⟨id, hid⟩ := hdeletions e he
        rw [hid] at hfatal
        cases hfatal
    · rw [hdb]
      exact h₁.2 ids rfl
  · refine ⟨?_, nofun⟩
    rw [← h₁.1]
    simp

theorem tail_revokeAll (reason : SessionRevocationReason)
    (haccount : (s.db.auth.findAccountById userId).isSome) :
    (ofAuth (AuthSessionService.revokeAll userId reason)).Ensures config anyOutcome
      (Tail s fun _ _ s' => ∃ now,
        s'.db.auth = s.db.auth.revokeActive userId now reason) s :=
  .ofAuth (fun _ _ _ _ => trivial) (revokeAll_ensures reason haccount)
    fun _ _ _ _ h hes htokens =>
      ⟨htokens, h.1.trans (fails_iff_authFails hes).symm, h.2⟩

theorem tail_audit (event : RecordAuthAuditEventInput) :
    (ofAuth (AuthProgram.audit event)).Ensures config anyOutcome
      (Tail s fun _ _ s' => s'.db.auth = s.db.auth) s := by
  have haudit : (AuthProgram.audit event).Ensures config.auth anyFault
      (fun es r s' => ((∃ e, r = .error e) ↔ AuthFails es) ∧ s'.db = s.auth.db) s.auth := by
    refine .of_audit fun o r s' hidle hr => ⟨?_, hidle.db⟩
    have hfails : AuthFails [(.audit event, o)] ↔ o.fault ≠ .none := by
      simp [AuthFails, AccountStep.fatal]
    rw [hfails, ne_eq, hr]
    rcases r with e | _
    · exact iff_of_true ⟨_, rfl⟩ nofun
    · exact iff_of_false (fun ⟨e, he⟩ => by cases he) (absurd rfl)
  exact .ofAuth (fun _ _ _ _ => trivial) haudit fun _ _ _ _ h hes htokens =>
    ⟨htokens, h.1.trans (fails_iff_authFails hes).symm, fun _ _ => h.2⟩

/-- What follows the consumption of the token. -/
theorem tail_replacePassword (password : String)
    (haccount : (s.db.auth.findAccountById userId).isSome) :
    (AuthService.replacePassword userId password).Ensures config anyOutcome
      (Tail s fun es _ s' =>
        (∃ o : AccountOutside, (.hash password, o) ∈ es ∧
          (s'.db.auth.findAccountById userId).map (·.passwordHash) =
            some o.auth.generated) ∧
        ∀ row ∈ s'.db.auth.sessions, row.userId = userId → row.revokedAt.isSome) s := by
  refine Tail.bind (tail_hash password) fun es value s₁ ⟨hdb, o, ho, hvalue⟩ => ?_
  refine Tail.bind (tail_updatePasswordHash value (hdb ▸ haccount))
    fun es₂ _ s₂ hpassword => ?_
  have haccount₂ : (s₂.db.auth.findAccountById userId).isSome := by
    rw [← Option.isSome_map, hpassword]
    rfl
  refine Tail.bind (tail_revokeAll .passwordReset haccount₂) fun es₃ _ s₃ ⟨now, hrevoke⟩ => ?_
  refine (tail_audit _).mono fun es₄ r s₄ h => ⟨h.tokens, h.failed, fun a ha => ?_⟩
  rw [h.value a ha, hrevoke]
  refine ⟨⟨o, List.mem_append_left _ ho, ?_⟩, revokeActive_revoked now .passwordReset⟩
  rw [← hvalue]
  exact hpassword

/-! ### The consumption -/

/-- The state behind a consumption that has been committed at the instant `now`. -/
structure Consumed (db db' : AccountDb) (tokenHash : String)
    (token : PasswordResetTokenRecord) (now : ℕ) : Prop where
  found : db.findPasswordResetToken tokenHash = some token
  usable : ∃ checkedAt, token.Usable checkedAt
  account : (db.auth.findAccountById token.userId).isSome
  result : db' = db.saveUsed [token.id] now

theorem Consumed.not_asBefore {db db' db'' : AccountDb} {tokenHash : String}
    {token : PasswordResetTokenRecord} {now : ℕ} (h : Consumed db db' tokenHash token now)
    (htokens : db''.passwordResetTokens = db'.passwordResetTokens) :
    ¬ AsBefore db db'' := by
  intro hbefore
  obtain ⟨checkedAt, husable⟩ := h.usable
  obtain ⟨token', hfind, husable'⟩ :=
    (hbefore.tokens tokenHash checkedAt).2 ⟨token, h.found, husable⟩
  rw [AccountDb.findPasswordResetToken, htokens, h.result] at hfind
  have hused := (db.findPasswordResetToken_saveUsed [token.id] now).symm.trans hfind
  rw [h.found, Option.map_some, if_pos (List.mem_singleton_self _)] at hused
  cases hused
  cases husable'.1

theorem Consumed.used {db db' db'' : AccountDb} {tokenHash : String}
    {token : PasswordResetTokenRecord} {now : ℕ} (h : Consumed db db' tokenHash token now)
    (htokens : db''.passwordResetTokens = db'.passwordResetTokens) :
    db''.findPasswordResetToken tokenHash = some { token with usedAt := some now } := by
  rw [AccountDb.findPasswordResetToken, htokens, h.result]
  refine (db.findPasswordResetToken_saveUsed [token.id] now).trans ?_
  rw [h.found, Option.map_some, if_pos (List.mem_singleton_self _)]

/-- The consumption keeps the tables and gives no token, or it is committed and
answers unless it fails. -/
theorem consume_ensures (tokenHash : String) {db : AccountDb} (hdb : s.db = db) :
    (accountRepository (.consumePasswordResetToken tokenHash)).Ensures config anyOutcome
      (fun es r s' => ∃ o : AccountOutside,
        es = [(.repository (.consumePasswordResetToken tokenHash), o)] ∧
        (s'.db = db ∧ ¬ Consumes db (.repository (.consumePasswordResetToken tokenHash), o) ∧
            (∀ token, r ≠ .ok (some token)) ∨
          ∃ token now, Consumed db s'.db tokenHash token now ∧
            Consumes db (.repository (.consumePasswordResetToken tokenHash), o) ∧
            (o.auth.fault = .none ∧ r = .ok (some { token with usedAt := some now }) ∨
              o.auth.fault ≠ .none ∧ ∃ e, r = .error e))) s := by
  refine Ensures.of_accountRepository (c := .consumePasswordResetToken tokenHash)
    fun s₁ o r s₂ s' hidle _ hexec hidle' => ⟨o, rfl, ?_⟩
  have hdb₁ : s₁.db = db := hidle.db.trans hdb
  rw [hidle'.db]
  rcases exec_repository_cases hexec with
    ⟨rfl, ⟨e, rfl⟩, hnot⟩ | ⟨a, db', hfault, hrun, rfl, hreply⟩
  · refine .inl ⟨hdb₁, fun ⟨hfault, token, db', hrun⟩ => ?_, nofun⟩
    rcases hnot with ⟨e', hrefused⟩ | ⟨e', hthrow⟩
    · exact hfault e' hrefused
    · rw [hdb₁] at hthrow
      cases hthrow.symm.trans hrun
  · rw [hdb₁] at hrun
    have hrun : (consumePasswordResetTokenTx tokenHash o.stamp).run db = .ok (a, db') := hrun
    rcases consumePasswordResetTokenTx_run hrun with
      ⟨rfl, rfl⟩ | ⟨token, hfind, husable, -, haccount, rfl, rfl⟩
    · refine .inl ⟨rfl, fun ⟨_, token, db', hrun'⟩ => ?_, fun token hr => ?_⟩
      · cases hrun.symm.trans hrun'
      · rcases hreply with ⟨-, rfl⟩ | ⟨-, e, rfl⟩ <;> cases hr
    · refine .inr ⟨token, o.stamp.usedAt, ⟨hfind, ⟨_, husable⟩, haccount, rfl⟩,
        ⟨hfault, _, _, hrun⟩, hreply.imp ?_ ?_⟩
      · rintro ⟨hnone, rfl⟩
        exact ⟨hnone, rfl⟩
      · rintro ⟨hsome, e, rfl⟩
        exact ⟨hsome, _, rfl⟩

/-! ### The call -/

/-- A call that commits no consumption changes nothing and fails. -/
theorem allOrNothing_of_error {input : ResetPasswordDto} {s' : AccountState}
    {es : AccountLog} {r : AuthResult} (hr : ∃ e, r = .error e) (hdb : s'.db = s.db)
    (hes : ¬ Interrupted s.db es) :
    AllOrNothing config input s es r s' ↔ ¬ Interrupted s.db es := by
  obtain ⟨e, rfl⟩ := hr
  exact iff_of_true (AsBefore.of_eq hdb) hes

theorem consumeReset_all_or_nothing (config : AccountConfig) (input : ResetPasswordDto)
    {s₁ : AccountState} (hdb : s₁.db = s.db) :
    (AuthService.consumeReset config input).Ensures config anyOutcome
      (fun es r s' => AllOrNothing config input s es (r.map fun _ => .done) s' ↔
        ¬ Interrupted s.db es) s₁ := by
  refine .bind (consume_ensures _ hdb) (fun es consumed s₂ h₂ => ?_)
    fun es e s₂ h₂ => ?_
  · obtain ⟨o, rfl, ⟨hdb₂, hnot, hnone⟩ | ⟨token, now, hconsumed, hcommit, hreply⟩⟩ := h₂
    · have hnot' : ∀ es', ¬ Interrupted s.db ([(.repository (.consumePasswordResetToken
          (config.auth.hashToken input.token)), o)] ++ es') := by
        rintro es' ⟨e, later, heq, hcommit, -⟩
        cases heq
        exact hnot hcommit
      cases consumed with
      | none =>
          exact .of_throw fun s' hidle =>
            allOrNothing_of_error ⟨_, rfl⟩ (hidle.db.trans hdb₂) (hnot' [])
      | some token => exact absurd rfl (hnone token)
    · rcases hreply with ⟨hfault, hr⟩ | ⟨-, e, he⟩
      · cases hr
        have haccount : (s₂.db.auth.findAccountById token.userId).isSome := by
          rw [hconsumed.result]
          exact hconsumed.account
        refine (tail_replacePassword input.password haccount).mono fun es' r s' htail => ?_
        have hinterrupted : Interrupted s.db ([(.repository (.consumePasswordResetToken
            (config.auth.hashToken input.token)), o)] ++ es') ↔ Fails es' := by
          constructor
          · rintro ⟨e, later, heq, -, hfails⟩
            cases heq
            exact hfails.resolve_left fun h => h hfault
          · exact fun hfails => ⟨_, es', rfl, hcommit, .inr hfails⟩
        rw [hinterrupted, ← htail.failed]
        cases r with
        | ok u =>
            refine iff_of_true ?_ fun ⟨e, he⟩ => by cases he
            obtain ⟨⟨o', ho', hpassword⟩, hsessions⟩ := htail.value u rfl
            exact ⟨token, hconsumed.found, ⟨now, hconsumed.used htail.tokens⟩,
              ⟨o', List.mem_cons_of_mem _ ho', hpassword⟩, hsessions⟩
        | error e =>
            exact iff_of_false (hconsumed.not_asBefore htail.tokens) fun h => h ⟨e, rfl⟩
      · cases he
  · obtain ⟨o, rfl, ⟨hdb₂, hnot, -⟩ | ⟨token, now, hconsumed, hcommit, hreply⟩⟩ := h₂
    · refine allOrNothing_of_error ⟨_, rfl⟩ hdb₂ ?_
      rintro ⟨e, later, heq, hcommit, -⟩
      cases heq
      exact hnot hcommit
    · rcases hreply with ⟨-, hr⟩ | ⟨hfault, -⟩
      · cases hr
      · exact iff_of_false (hconsumed.not_asBefore rfl) fun h =>
          h ⟨_, [], rfl, hcommit, .inl hfault⟩

/-- A check of the input passes, or the call has changed nothing and fails. -/
theorem check_all_or_nothing {input : ResetPasswordDto} {s₁ : AccountState}
    (hdb : s₁.db = s.db) {p : AccountProgram Unit} {f : Unit → AccountProgram Unit}
    (hp : p = pure () ∨ ∃ e, p = throw e)
    (hf : (f ()).Ensures config anyOutcome
      (fun es r s' => AllOrNothing config input s es (r.map fun _ => .done) s' ↔
        ¬ Interrupted s.db es) s₁) :
    (p >>= f).Ensures config anyOutcome
      (fun es r s' => AllOrNothing config input s es (r.map fun _ => .done) s' ↔
        ¬ Interrupted s.db es) s₁ := by
  rcases hp with rfl | ⟨e, rfl⟩
  · exact hf
  · refine .of_throw fun s' hidle => ?_
    exact allOrNothing_of_error ⟨e, rfl⟩ (hidle.db.trans hdb) fun ⟨_, _, he, _⟩ => by
      cases he

/-- A reset does everything or nothing exactly when no failure hits the consumption of
the token after its commit, nor a later step that ends the call. -/
theorem reset_all_or_nothing_iff (config : AccountConfig) (input : ResetPasswordDto)
    {s s' : AccountState} {es : AccountLog} {r : AuthResult}
    (h : (accountService config).Executes anyOutcome
      ((accountService config).body (.resetPassword input)) s es r s') :
    AllOrNothing config input s es r s' ↔ ¬ Interrupted s.db es := by
  have hpassword : AuthService.parsePassword input.password = pure () ∨
      ∃ e, AuthService.parsePassword input.password = throw e := by
    rw [AuthService.parsePassword]
    split
    · exact .inl rfl
    · exact .inr ⟨_, rfl⟩
  have hconfirmation : AuthService.assertPasswordConfirmation input.password
      input.passwordConfirmation = pure () ∨
      ∃ e, AuthService.assertPasswordConfirmation input.password
        input.passwordConfirmation = throw e := by
    rw [AuthService.assertPasswordConfirmation]
    split
    · exact .inr ⟨_, rfl⟩
    · exact .inl rfl
  have hcall : (AccountCall.program config (.resetPassword input)).Ensures config anyOutcome
      (fun es r s' => AllOrNothing config input s es r s' ↔ ¬ Interrupted s.db es) s :=
    .map (check_all_or_nothing rfl hpassword (check_all_or_nothing rfl hconfirmation
      (consumeReset_all_or_nothing config input rfl)))
  exact hcall es r s' h

end

def exampleAccounts : AccountConfig := ⟨exampleConfig, "/reset"⟩

/-- The outcome of a step, with `id` for every id and secret. -/
def accountOutcome (id : String) (fault : Fault) : AccountOutside :=
  ⟨outcome id fault, ⟨id, 1, 1, 1, 1⟩⟩

def exampleReset : ResetPasswordDto := ⟨"t", "Secret-1", "Secret-1"⟩

def noFaults (_ : AccountStep) (o : AccountOutside) (_ : AccountState) : Prop :=
  o.auth.fault = .none

instance decidableNoFaults (c : AccountStep) (o : AccountOutside) (s : AccountState) :
    Decidable (noFaults c o s) := inferInstanceAs (Decidable (o.auth.fault = .none))

/-- The account has logged in and requested a reset, and the mail has been sent. -/
def afterResetMail : AccountState :=
  (accountService exampleAccounts).serialAfter (fun _ _ => True) (fun _ => noFaults)
    [.call (.auth (.createSessionAfterLogin "u" "USER"))
        (List.replicate 7 (accountOutcome "a" .none)),
      .call (.requestPasswordReset ⟨"u@example.com"⟩ "")
        (List.replicate 7 (accountOutcome "i" .none)),
      .call (.processPasswordReset ⟨"u", "i"⟩)
        (List.replicate 7 (accountOutcome "t" .none))]
    (AccountState.init [exampleUser])

/-- The token is consumed, then the password cannot be written. -/
def unwrittenPassword : List AccountOutside :=
  List.replicate 2 (accountOutcome "h" .none) ++
    [accountOutcome "h" (.refused (.error "down"))]

/-- A reset fails because one statement fails, and its token is lost. -/
theorem refused_update_loses_reset_token :
    (accountService exampleAccounts).Serially (fun _ _ => True) (fun _ => anyOutcome)
        (AccountState.init [exampleUser]) afterResetMail ∧
      ∃ es r s', (accountService exampleAccounts).Executes anyOutcome
          ((accountService exampleAccounts).body (.resetPassword exampleReset))
          afterResetMail es r s' ∧
        (es.filter fun e => e.2.auth.fault ≠ .none).length = 1 ∧
        r = .error (.storage (.error "down")) ∧
        afterResetMail.passwordResetTokens.map (·.usedAt) = [none] ∧
        s'.passwordResetTokens.map (·.usedAt) = [some 1] ∧
        s'.auth.db.users.map (·.passwordHash) = ["hash"] ∧
        s'.auth.db.sessions.map (·.revokedAt) = [none] ∧
        ¬ AllOrNothing exampleAccounts exampleReset afterResetMail es r s' := by
  refine ⟨(Semantics.serially_after _ _).mono fun _ _ _ _ _ => trivial, _, _, _,
    Semantics.executes_of_perform unwrittenPassword rfl, by decide, rfl, by decide,
    by decide, by decide, by decide, fun hreset => ?_⟩
  have hbefore : AsBefore afterResetMail.db _ := hreset
  obtain ⟨token, hfind, hused, -⟩ := (hbefore.tokens "#t" 0).2 ⟨_, rfl, rfl, by decide⟩
  cases hfind
  cases hused

/-- The reset that fails at a statement is neither done nor undone; without a failure it is
done. -/
theorem refused_update_interrupts :
    (∃ es r s', (accountService exampleAccounts).Executes anyOutcome
        ((accountService exampleAccounts).body (.resetPassword exampleReset))
        afterResetMail es r s' ∧
      Interrupted afterResetMail.db es ∧
      ¬ AllOrNothing exampleAccounts exampleReset afterResetMail es r s') ∧
    ∃ es a s', (accountService exampleAccounts).Executes anyOutcome
        ((accountService exampleAccounts).body (.resetPassword exampleReset))
        afterResetMail es (.ok a) s' ∧
      AllOrNothing exampleAccounts exampleReset afterResetMail es (.ok a) s' := by
  constructor
  · have hrefused : ∃ es r s', (accountService exampleAccounts).Executes anyOutcome
        ((accountService exampleAccounts).body (.resetPassword exampleReset))
        afterResetMail es r s' ∧ Interrupted afterResetMail.db es := by
      refine ⟨_, _, _, Semantics.executes_of_perform unwrittenPassword rfl, ?_⟩
      exact ⟨_, _, rfl, ⟨nofun, _, _, rfl⟩, .inr ⟨_, .tail _ (.head _), rfl, nofun⟩⟩
    obtain ⟨es, r, s', hrun, hinterrupted⟩ := hrefused
    exact ⟨es, r, s', hrun, hinterrupted, fun hreset =>
      (reset_all_or_nothing_iff exampleAccounts exampleReset hrun).1 hreset hinterrupted⟩
  · refine ⟨_, _, _, Semantics.executes_of_perform
      (List.replicate 6 (accountOutcome "h" .none)) rfl, ?_⟩
    refine (reset_all_or_nothing_iff exampleAccounts exampleReset (Semantics.executes_of_perform
      (List.replicate 6 (accountOutcome "h" .none)) rfl)).2 (not_interrupted ?_)
    decide

end Account

end Shortlink

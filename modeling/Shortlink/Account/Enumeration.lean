import Shortlink.Account.Observation
import Shortlink.Account.FailureLimit

/-!
# Accounts cannot be enumerated

Two stores that differ only in the account of one e-mail answer every sequence of calls
that need no login alike, as long as nobody presents the activation code of this account
(`accounts_cannot_be_enumerated`).
-/

namespace Shortlink

namespace Account

open Shortlink.Storage Shortlink.Table Shortlink.Transaction Shortlink.Interaction
open Shortlink.Expiring Shortlink.Auth

/-- Hide the account of an e-mail. -/
def Observed.without (email : String) (o : Observed) : Observed := o.withAccount email none

/-- The call presents the activation code of the pending account of the e-mail. -/
def PresentsCode (config : AccountConfig) (email : String) (s : AccountState) :
    AccountCall → Prop
  | .verifyEmail input => createEmail config.auth.toLowerCase input.email = some email ∧
      ∃ account ∈ s.auth.db.findAccountByEmail email, account.status = .pending ∧
        ∃ payload ∈ pendingActivation s.entries account.id,
          payload.codeHmac = config.auth.hmac input.code
  | _ => False

/-- A call of somebody who needs no login and does not know the code. -/
def VisitorCall (config : AccountConfig) (email : String) (s : AccountState)
    (call : AccountCall) : Prop :=
  call.Public ∧ ¬ PresentsCode config email s call

namespace Observed

variable {config : AccountConfig} {o o' : Observed} {email email' : String}

theorem without_eq (h : o.without email = o'.without email) :
    o.now = o'.now ∧ o.limits = o'.limits ∧
      ∀ e, e ≠ email → o.accounts e = o'.accounts e := by
  have hnow : (o.without email).now = (o'.without email).now := congrArg _ h
  have hlimits : (o.without email).limits = (o'.without email).limits := congrArg _ h
  refine ⟨hnow, hlimits, fun e he => ?_⟩
  have haccounts := congrFun (congrArg Observed.accounts h) e
  simpa [without, withAccount, Function.update_of_ne he] using haccounts

theorem without_of (hnow : o.now = o'.now) (hlimits : o.limits = o'.limits)
    (haccounts : ∀ e, e ≠ email → o.accounts e = o'.accounts e) :
    o.without email = o'.without email := by
  have hupdate : Function.update o.accounts email none =
      Function.update o'.accounts email none := by
    funext e
    by_cases he : e = email
    · rw [he, Function.update_self, Function.update_self]
    · rw [Function.update_of_ne he, Function.update_of_ne he, haccounts e he]
  rw [without, withAccount, hnow, hlimits, hupdate]
  rfl

/-- What is put under an e-mail is the same in both, or it is hidden. -/
theorem without_withAccount {account account' : Option AccountView}
    (h : o.without email = o'.without email) (heq : email' ≠ email → account = account') :
    (o.withAccount email' account).without email =
      (o'.withAccount email' account').without email := by
  obtain ⟨hnow, hlimits, haccounts⟩ := without_eq h
  refine without_of hnow hlimits fun e he => ?_
  by_cases he' : e = email'
  · subst he'
    simp [withAccount, heq he]
  · simp [withAccount, Function.update_of_ne he', haccounts e he]

/-- The answers are the same, and what can be told behind them without the account. -/
def Alike {α : Type} (email : String) (x y : α × Observed) : Prop :=
  x.1 = y.1 ∧ x.2.without email = y.2.without email

theorem alike_countRequest (config : AccountConfig) (email' operation clientIp : String)
    (h : o.without email = o'.without email) :
    Alike email (o.countRequest config operation email' clientIp)
      (o'.countRequest config operation email' clientIp) := by
  obtain ⟨hnow, hlimits, haccounts⟩ := without_eq h
  simp only [countRequest, hlimits]
  split
  · exact ⟨rfl, without_of hnow rfl haccounts⟩
  · exact ⟨rfl, without_of hnow rfl haccounts⟩

theorem alike_request (operation clientIp : String)
    (found : Option AccountView → Option AccountView)
    (h : o.without email = o'.without email) :
    Alike email (o.request config operation email' clientIp found)
      (o'.request config operation email' clientIp found) := by
  obtain ⟨hwithin, hcounted⟩ :=
    alike_countRequest config email' operation clientIp h
  rw [request, request]
  generalize o.countRequest config operation email' clientIp = x at *
  generalize o'.countRequest config operation email' clientIp = y at *
  obtain ⟨within, o⟩ := x
  obtain ⟨within', o'⟩ := y
  obtain rfl : within = within' := hwithin
  cases within with
  | false => exact ⟨rfl, hcounted⟩
  | true =>
      refine ⟨rfl, without_withAccount hcounted fun he => ?_⟩
      exact congrArg found ((without_eq hcounted).2.2 email' he)

/-- The code is accepted in both or in none, unless it is for the hidden account. -/
theorem accepts_eq {code : String} (h : o.without email = o'.without email)
    (he : email' ≠ email) :
    o.accepts config email' code = o'.accepts config email' code := by
  obtain ⟨hnow, -, haccounts⟩ := without_eq h
  rw [accepts, accepts, haccounts email' he, hnow]

/-- No call is answered by the account of the e-mail, unless it presents the code. -/
theorem alike_respond (config : AccountConfig) (call : AccountCall)
    (h : o.without email = o'.without email)
    (hcode : ∀ input, call = .verifyEmail input →
      createEmail config.auth.toLowerCase input.email = some email →
        o.accepts config email input.code = false ∧
          o'.accepts config email input.code = false) :
    Alike email (o.respond config call) (o'.respond config call) := by
  cases call with
  | register input clientIp =>
      rw [respond, respond]
      cases createEmail config.auth.toLowerCase input.email with
      | none => exact ⟨rfl, h⟩
      | some email' =>
          dsimp only
          split
          · exact ⟨rfl, h⟩
          split
          · exact ⟨rfl, h⟩
          · exact alike_request _ _ _ h
  | resendEmailVerification input clientIp =>
      rw [respond, respond]
      cases createEmail config.auth.toLowerCase input.email with
      | none => exact ⟨rfl, h⟩
      | some email' => exact alike_request _ _ _ h
  | requestPasswordReset input clientIp =>
      rw [respond, respond]
      cases createEmail config.auth.toLowerCase input.email with
      | none => exact ⟨rfl, h⟩
      | some email' => exact alike_request _ _ _ h
  | verifyEmail input =>
      rw [respond, respond]
      cases hemail : createEmail config.auth.toLowerCase input.email with
      | none => exact ⟨rfl, h⟩
      | some email' =>
          dsimp only
          have haccepts : o.accepts config email' input.code =
              o'.accepts config email' input.code := by
            by_cases he : email' = email
            · subst he
              obtain ⟨hleft, hright⟩ := hcode input rfl hemail
              rw [hleft, hright]
            · exact accepts_eq h he
          rw [haccepts]
          split
          · exact ⟨rfl, without_withAccount h fun _ => rfl⟩
          · exact ⟨rfl, h⟩
  | _ => exact ⟨rfl, h⟩

end Observed

theorem presentsCode_of_accepts {config : AccountConfig} {email : String} {s : AccountState}
    {input : VerifyEmailDto}
    (hemail : createEmail config.auth.toLowerCase input.email = some email)
    (haccepts : s.observed.accepts config email input.code = true) :
    PresentsCode config email s (.verifyEmail input) := by
  refine ⟨hemail, ?_⟩
  cases hfound : s.auth.db.findAccountByEmail email with
  | none =>
      have hview : s.observed.accounts email = none := view_of_not_found hfound
      rw [Observed.accepts, hview] at haccepts
      cases haccepts
  | some account =>
      have hview : s.observed.accounts email = some ⟨account.status, s.code account.id⟩ :=
        view_of_found hfound
      rw [Observed.accepts, hview] at haccepts
      cases hstatus : account.status with
      | active =>
          rw [hstatus] at haccepts
          cases haccepts
      | pending =>
          rw [hstatus, AccountState.code] at haccepts
          cases hcell : s.entries.cell (.activation account.id) with
          | none =>
              rw [hcell] at haccepts
              cases haccepts
          | some entry =>
              rw [hcell] at haccepts
              obtain ⟨hcode, hlive⟩ := of_decide_eq_true haccepts
              exact ⟨account, rfl, hstatus, entry.1,
                visible_eq_some_iff.2 ⟨entry.2, hcell, hlive⟩, hcode⟩

/-! ### The stores of the service -/

section

variable {config : AccountConfig} {s s' : AccountState}

def AccountStep.StoresNoCode (c : AccountStep) : Prop :=
  ∀ userId, c.stores? ≠ some (.activation, userId)

theorem AccountStep.Modest.storesNoCode {c : AccountStep} (h : c.Modest) :
    c.StoresNoCode := by
  intro userId hstores
  cases c with
  | redis c =>
      cases c with
      | set key value ttlSeconds =>
          cases key with
          | activation owner => exact h
          | resend purpose owner => cases hstores
      | _ => cases hstores
  | repository c => cases c <;> cases hstores
  | _ => cases hstores

theorem modest_storesNoCode {α : Type} {p : AccountProgram α}
    (hp : p.Issues AccountStep.Modest) : p.Issues AccountStep.StoresNoCode :=
  hp.mono fun _ h => h.storesNoCode

theorem ofAuth_storesNoCode {α : Type} (p : AuthProgram α) :
    (ofAuth p).Issues AccountStep.StoresNoCode :=
  AccountProgram.ofAuth_issues (Program.Sat.mono (fun _ _ h => h) (fun _ _ => nofun)
    (fun _ _ => trivial) (Program.sat_true _))

def FoundById (trace : AccountTrace) (userId : String) : Prop :=
  ∃ account, (⟨.auth (.repository (.findAccountById userId)), Except.ok (some account)⟩ :
    Exchange AccountStep AccountStep.Reply) ∈ trace

/-- A code is stored for an account that has been found. -/
def StoresFound (_ : AccountCall) (trace : AccountTrace) (c : AccountStep) : Prop :=
  ∀ userId, c.stores? = some (.activation, userId) → FoundById trace userId

theorem obeys_storesFound {α : Type} {p : AccountProgram α} (call : AccountCall)
    (hp : p.Issues AccountStep.StoresNoCode) (trace : AccountTrace) :
    p.run.Obeys (StoresFound call) (fun _ _ => True) trace :=
  Program.obeys_of_sat hp (fun _ _ hc userId h => absurd h (hc userId)) fun _ _ _ => trivial

/-- What stores codes for one account may do so once the account has been found. -/
theorem obeys_of_found {α : Type} {p : Program AccountStep AccountStep.Reply α}
    (call : AccountCall) {userId : String} {trace : AccountTrace}
    (hp : p.Sat (fun _ _ => True)
      (fun c => ∀ owner, c.stores? = some (.activation, owner) → owner = userId)
      fun _ => True) (hfound : FoundById trace userId) :
    p.Obeys (StoresFound call) (fun _ _ => True) trace := by
  induction p generalizing trace with
  | pure a => trivial
  | call c next ih =>
      refine ⟨fun owner howner => hp.1 owner howner ▸ hfound, fun r => ih r (hp.2 r trivial) ?_⟩
      exact hfound.imp fun _ => List.mem_cons_of_mem _

theorem issueActivationCode_stores (config : AccountConfig) (userId issuanceId : String)
    (account : AccountRecord) :
    (EmailProcessor.issueActivationCode config userId issuanceId account).Issues
      fun c => ∀ owner, c.stores? = some (.activation, owner) → owner = userId := by
  have hauth : ∀ {α : Type} (p : AuthProgram α), (ofAuth p).Issues
      fun c => ∀ owner, c.stores? = some (.activation, owner) → owner = userId :=
    fun p => (ofAuth_storesNoCode p).mono fun _ hc owner h => absurd h (hc owner)
  refine .bind (hauth _) fun code => .bind (hauth _) fun now => .bind ?_ fun _ =>
    .bind (hauth _) fun stillCurrent => ?_
  · exact AccountProgram.issues_activations fun owner h => by
      cases h
      rfl
  · split
    · exact hauth _
    · exact AccountProgram.issues_pure _

theorem processActivation_obeys (config : AccountConfig) (data : SendVerificationCodeJobData) :
    (EmailProcessor.processActivation config data).run.Obeys
      (StoresFound (.processVerificationCode data)) (fun _ _ => True) [] := by
  rw [EmailProcessor.processActivation]
  split
  · trivial
  split
  · trivial
  rename_i userId _ _
  refine ⟨fun _ h => (by cases h), fun current => ?_⟩
  cases current with
  | error e => trivial
  | ok current =>
      dsimp only
      change Program.Obeys _ _ _ (ExceptT.run (if _ then _ else _))
      split
      · trivial
      · refine ⟨fun _ h => (by cases h), fun account => ?_⟩
        rcases account with e | _ | account
        · trivial
        · trivial
        · exact obeys_of_found _ (issueActivationCode_stores config userId _ account)
            ⟨account, List.mem_cons_self⟩

theorem resetPassword_storesNoCode (input : ResetPasswordDto) :
    (AuthService.resetPassword config input).Issues AccountStep.StoresNoCode := by
  refine .bind (parsePassword_issues _) fun _ =>
    .bind (assertPasswordConfirmation_issues _ _) fun _ =>
      .bind (AccountProgram.issues_accountRepository nofun)
        fun (consumed : Option PasswordResetTokenRecord) => ?_
  rcases consumed with _ | consumed
  · exact AccountProgram.issues_throw _
  · exact .bind (AccountProgram.issues_hash nofun) fun _ =>
      .bind (AccountProgram.issues_accountRepository nofun) fun _ =>
        .bind (ofAuth_storesNoCode _) fun _ => ofAuth_storesNoCode _

theorem call_storesFound (call : AccountCall) :
    (call.program config).run.Obeys (StoresFound call) (fun _ _ => True) [] := by
  have hmodest : ∀ {p : AccountProgram Unit}, p.Issues AccountStep.Modest →
      ((fun _ => AuthValue.done) <$> p : AccountProgram AuthValue).run.Obeys
        (StoresFound call) (fun _ _ => True) [] := fun hp =>
    obeys_storesFound call (Throwing.issues_map.2 (modest_storesNoCode hp)) []
  cases call with
  | auth call => exact obeys_storesFound _ (ofAuth_storesNoCode _) []
  | register input clientIp => exact hmodest (register_modest input clientIp)
  | verifyEmail input => exact hmodest (verifyEmail_modest input)
  | resendEmailVerification input clientIp =>
      exact hmodest (resendEmailVerification_modest input clientIp)
  | requestPasswordReset input clientIp =>
      exact hmodest (requestPasswordReset_modest input clientIp)
  | resetPassword input =>
      exact obeys_storesFound _ (Throwing.issues_map.2 (resetPassword_storesNoCode input)) []
  | processVerificationCode data =>
      have hprocess : (EmailProcessor.processVerificationCode config data).run.Obeys
          (StoresFound (.processVerificationCode data)) (fun _ _ => True) [] := by
        rw [EmailProcessor.processVerificationCode]
        split
        · exact processActivation_obeys config data
        · exact obeys_storesFound _ (ofAuth_storesNoCode _) []
      refine (Program.obeys_bind _ _).2 (hprocess.mono (fun _ _ h => h) fun trace r _ => ?_)
      cases r <;> trivial
  | processPasswordReset data => exact hmodest (processPasswordReset_modest data)

/-! ### Every store is well formed -/

/-- The keys and the codes are what they were. -/
theorem WellFormed.of_map (hs : WellFormed s)
    (hids : s'.auth.db.users.map AccountRecord.id = s.auth.db.users.map AccountRecord.id)
    (hemails : s'.auth.db.users.map AccountRecord.email =
      s.auth.db.users.map AccountRecord.email)
    (hcodes : ∀ userId, s'.code userId ≠ none → ∃ a ∈ s.auth.db.users, a.id = userId) :
    WellFormed s' := by
  refine ⟨hids ▸ hs.ids, hemails ▸ hs.emails, fun userId hcode => ?_⟩
  obtain ⟨a, ha, rfl⟩ := hcodes userId hcode
  have hmem : a.id ∈ s.auth.db.users.map AccountRecord.id := List.mem_map_of_mem ha
  exact List.mem_map.1 (hids ▸ hmem)

theorem wellFormed_repository {c : AccountCommand} {stamp : AccountStamp} {a : c.Res}
    {db' : AccountDb} (hs : WellFormed s) (h : (c.impl stamp).run s.db = .ok (a, db')) :
    WellFormed (s.setDb db') := by
  cases c with
  | createPendingAccount input => exact (observed_created hs h).1
  | activateAccount userId =>
      obtain rfl := activateAccountTx_run h
      exact hs.of_map (map_updateWhere fun _ _ => rfl) (map_updateWhere fun _ _ => rfl) hs.owned
  | updatePasswordHash userId passwordHash =>
      have hrun := updatePasswordHashTx_run.symm.trans h
      split at hrun
      · cases hrun
        exact hs.of_map (map_updateWhere fun _ _ => rfl) (map_updateWhere fun _ _ => rfl)
          hs.owned
      · cases hrun
  | createPasswordResetToken userId input =>
      obtain ⟨-, -, rfl⟩ := createPasswordResetTokenTx_run h
      exact hs.congr rfl fun _ => rfl
  | consumePasswordResetToken tokenHash =>
      rcases consumePasswordResetTokenTx_run h with ⟨-, rfl⟩ | ⟨-, -, -, -, -, -, rfl⟩
      · exact hs.congr rfl fun _ => rfl
      · exact hs.congr rfl fun _ => rfl

/-- A command on the entries stores a code only where it is said to. -/
theorem code_apply {c : ActivationCommand} {userId : String}
    (h : ({ s with entries := (c.apply s.entries).2 } : AccountState).code userId ≠ none) :
    s.code userId ≠ none ∨
      (AccountStep.redis c).stores? = some (.activation, userId) := by
  cases c with
  | set key value ttlSeconds =>
      cases key with
      | activation owner =>
          by_cases hid : userId = owner
          · exact .inr (hid ▸ rfl)
          · exact .inl fun hnone => h ((code_congr (Store.cell_set_of_ne s.entries _ _
              fun hkey => hid (ActivationKey.activation.inj hkey))).trans hnone)
      | resend purpose owner =>
          exact .inl fun hnone =>
            h (((Unseen.of_set_resend purpose owner value ttlSeconds).codes userId).trans hnone)
  | existsKey key => exact .inl h
  | consumeActivation owner codeHmac =>
      refine .inl fun hnone => h ?_
      have hconsume : (ActivationCommand.apply (.consumeActivation owner codeHmac)
        s.entries).2 = (CONSUME_ACTIVATION_LUA owner codeHmac s.entries).2 := rfl
      rw [hconsume]
      unfold CONSUME_ACTIVATION_LUA
      split
      · exact hnone
      split
      · by_cases hid : userId = owner
        · subst hid
          rw [AccountState.code, Store.cell_del_self]
          rfl
        · exact (code_congr (Store.cell_del_of_ne s.entries
            fun hkey => hid (ActivationKey.activation.inj hkey))).trans hnone
      · exact ((Unseen.of_modify owner
          (f := fun payload => { payload with attempts := payload.attempts + 1 })
            fun _ => rfl).codes userId).trans hnone

theorem isSome_findAccountById {db : AuthDb} {id : String} :
    (db.findAccountById id).isSome ↔ ∃ a ∈ db.users, a.id = id := by
  simp [AuthDb.findAccountById, List.find?_isSome]

/-- A step that stores a code only for an account keeps the store well formed, and no
account is lost. -/
theorem exec_wellFormed {c : AccountStep} {o : AccountOutside} {r : c.Reply}
    (hs : WellFormed s) (hsound : Sound s.auth.db)
    (hstores : ∀ userId, c.stores? = some (.activation, userId) →
      (s.auth.db.findAccountById userId).isSome)
    (hexec : exec c o s = some (r, s')) :
    WellFormed s' ∧ ∀ id, (s.auth.db.findAccountById id).isSome →
      (s'.auth.db.findAccountById id).isSome := by
  cases c with
  | auth c =>
      obtain ⟨⟨r', a⟩, hauth, heq⟩ := Option.map_eq_some_iff.1 hexec
      cases heq
      have husers : a.db.users = s.auth.db.users := ((exec_acts hauth).since hsound).2.users
      refine ⟨hs.congr husers fun _ => rfl, fun id hid => ?_⟩
      rwa [AuthDb.findAccountById, husers]
  | hash password =>
      cases hexec
      exact ⟨hs, fun id hid => hid⟩
  | repository c =>
      rcases exec_repository_cases hexec with ⟨rfl, -⟩ | ⟨a, db', -, hrun, rfl, -⟩
      · exact ⟨hs, fun id hid => hid⟩
      · exact ⟨wellFormed_repository hs hrun, (c.impl_keeps hrun).accounts⟩
  | redis c =>
      have hstate : (o.auth.fault.apply s (execActivations c s)).2 = s' :=
        (Prod.mk.inj (Option.some.inj hexec)).2
      rcases o.auth.fault.apply_state s (execActivations c s) with heq | heq <;>
        rw [← hstate, heq]
      · exact ⟨hs, fun id hid => hid⟩
      · refine ⟨hs.of_map rfl rfl fun userId hcode => ?_, fun id hid => hid⟩
        rcases code_apply hcode with hold | hnew
        · exact hs.owned userId hold
        · exact isSome_findAccountById.1 (hstores userId hnew)
  | enqueuePasswordReset job =>
      have hstate : (o.auth.fault.apply s ((.ok () : Except StorageError Unit), s)).2 = s' :=
        (Prod.mk.inj (Option.some.inj hexec)).2
      rcases o.auth.fault.apply_state s ((.ok () : Except StorageError Unit), s) with
        heq | heq <;> rw [← hstate, heq] <;> exact ⟨hs, fun id hid => hid⟩

theorem environment_wellFormed (x : AccountEnvironment) (hs : WellFormed s) :
    WellFormed (environment x s) := by
  cases x with
  | tick n => exact hs.congr rfl fun _ => rfl
  | evict key => exact hs.congr rfl fun _ => rfl
  | evictActivation key =>
      refine hs.of_map rfl rfl fun userId hcode => hs.owned userId fun hnone => hcode ?_
      by_cases hkey : key = .activation userId
      · subst hkey
        have hdel := Store.cell_del_self s.entries (.activation userId)
        rw [AccountState.code, environment, hdel]
        rfl
      · exact (code_congr (Store.cell_del_of_ne s.entries (Ne.symm hkey))).trans hnone

/-- What the database answers to the query for an account. -/
theorem exec_findAccountById {userId : String} {o : AccountOutside}
    {account : Option AccountRecord}
    (h : exec (.auth (.repository (.findAccountById userId))) o s =
      some ((.ok account : Except StorageError (Option AccountRecord)), s')) :
    s.auth.db.findAccountById userId = account := by
  have hrun := (exec_repository_ok (c := .findAccountById userId) (exec_auth h).1).1
  exact (Prod.mk.inj (Except.ok.inj hrun)).1

theorem wellFormed_init {users : List AccountRecord}
    (hids : (users.map AccountRecord.id).Nodup)
    (hemails : (users.map AccountRecord.email).Nodup) :
    WellFormed (AccountState.init users) :=
  ⟨hids, hemails, fun _ hcode => absurd rfl hcode⟩

/-- In every run the store is well formed, and an account that has been found is there. -/
theorem reachable_wellFormed (config : AccountConfig) {users : List AccountRecord}
    {ok : AccountPool → AccountEvent → Prop} {σ : AccountPool}
    (hids : (users.map AccountRecord.id).Nodup)
    (hemails : (users.map AccountRecord.email).Nodup)
    (h : (accountService config).Reaches ok (Pool.init (AccountState.init users)) σ) :
    WellFormed σ.shared ∧ ∀ k userId, FoundById (traceOf σ.history k) userId →
      (σ.shared.auth.db.findAccountById userId).isSome := by
  induction h with
  | refl => exact ⟨wellFormed_init hids hemails, fun _ _ ⟨_, hmem⟩ => nomatch hmem⟩
  | @tail σ₁ σ₂ hrun hstep ih =>
      obtain ⟨hs, hfound⟩ := ih
      cases hstep.moves with
      | spawn call hok hshared hthreads hhistory =>
          rw [hshared, hhistory]
          exact ⟨hs, hfound⟩
      | environment x hok hshared hthreads hhistory =>
          rw [hshared, hhistory]
          refine ⟨environment_wellFormed x hs, fun k userId hf => ?_⟩
          have hdb : ((accountService config).environment x σ₁.shared).auth.db =
            σ₁.shared.auth.db := (environment_idled x σ₁.shared).auth.db
          rw [hdb]
          exact hfound k userId hf
      | exec e he =>
          obtain ⟨call, rest, -, hmay⟩ := he.allowed StoresFound (fun _ _ _ => True) hrun
            fun _ call _ => call_storesFound call
          obtain ⟨o, -, hexec⟩ := he.exec
          obtain ⟨hs', hkept⟩ := exec_wellFormed hs (reaches_sound hrun)
            (fun userId hstores => hfound _ userId (hmay userId hstores)) hexec
          refine ⟨hs', fun k userId ⟨account, hmem⟩ => ?_⟩
          have hentry := mem_traceOf.1 hmem
          rw [he.history] at hentry
          rcases List.mem_cons.1 hentry with rfl | hold
          · refine hkept userId ?_
            rw [exec_findAccountById hexec]
            rfl
          · exact hkept userId (hfound k userId ⟨account, mem_traceOf.2 hold⟩)

end

/-- Of two stores that differ only in the account of one e-mail, and that count the same
requests, every sequence of calls without a login gets the same answers while nobody
presents the code of this account. -/
theorem accounts_cannot_be_enumerated (config : AccountConfig) (email : String)
    {s t : AccountState} {inputs : List (Input AccountCall Observed)}
    {l l' : List (Answered AuthResult AccountState)} (hs : WellFormed s) (ht : WellFormed t)
    (hst : s.observed.without email = t.observed.without email)
    (h : (accountService config).Shows (VisitorCall config email) storageWorks WellFormed
      (fun s => s.observed.without email) s inputs l)
    (h' : (accountService config).Shows (VisitorCall config email) storageWorks WellFormed
      (fun s => s.observed.without email) t inputs l') :
    l.map Answered.answer = l'.map Answered.answer := by
  have hanswers : List.Forall₂ (fun x y => x.answer = y.answer) l l' := by
    refine h.forall₂ (fun x y => x.answer = y.answer) ?_ h' hs ht hst
    intro call s t es es' a b s' t' hs ht hst hstart hstart' hrun hrun'
    obtain ⟨hs', ha⟩ := call_responds hstart.1 hs es a s' hrun
    obtain ⟨ht', hb⟩ := call_responds hstart'.1 ht es' b t' hrun'
    obtain ⟨hanswer, hafter⟩ := Observed.alike_respond config call hst
      fun input hcall hemail => ⟨Bool.eq_false_iff.2 fun haccepts =>
          hstart.2 (hcall ▸ presentsCode_of_accepts hemail haccepts),
        Bool.eq_false_iff.2 fun haccepts =>
          hstart'.2 (hcall ▸ presentsCode_of_accepts hemail haccepts)⟩
    rw [← ha, ← hb] at hanswer hafter
    exact ⟨hanswer, hs', ht', hafter⟩
  have hmapped : List.Forall₂ (· = ·) (l.map Answered.answer) (l'.map Answered.answer) :=
    List.forall₂_map_left_iff.2 (List.forall₂_map_right_iff.2 hanswers)
  rwa [List.forall₂_eq_eq_eq] at hmapped

/-! ### A pending account and none -/

instance decidablePublic : ∀ call : AccountCall, Decidable call.Public
  | .register _ _ | .verifyEmail _ | .resendEmailVerification _ _
  | .requestPasswordReset _ _ => isTrue trivial
  | .auth _ | .resetPassword _ | .processVerificationCode _ | .processPasswordReset _ =>
      isFalse id

instance decidablePresentsCode (config : AccountConfig) (email : String) (s : AccountState) :
    ∀ call, Decidable (PresentsCode config email s call)
  | .verifyEmail input => inferInstanceAs (Decidable
      (createEmail config.auth.toLowerCase input.email = some email ∧
        ∃ account ∈ s.auth.db.findAccountByEmail email, account.status = .pending ∧
          ∃ payload ∈ pendingActivation s.entries account.id,
            payload.codeHmac = config.auth.hmac input.code))
  | .register _ _ | .resendEmailVerification _ _ | .requestPasswordReset _ _ | .auth _
  | .resetPassword _ | .processVerificationCode _ | .processPasswordReset _ => isFalse id

instance decidableVisitorCall (config : AccountConfig) (email : String) (s : AccountState)
    (call : AccountCall) : Decidable (VisitorCall config email s call) :=
  inferInstanceAs (Decidable (call.Public ∧ ¬ PresentsCode config email s call))

instance decidableReturns {α ε : Type} : ∀ r : Except ε α, Decidable (∃ a, r = .ok a)
  | .ok a => isTrue ⟨a, rfl⟩
  | .error _ => isFalse nofun

instance decidableStorageWorks : ∀ c o s, Decidable (storageWorks c o s)
  | .repository c, o, s => inferInstanceAs (Decidable
      (o.auth.fault = .none ∧ ∃ r, (c.impl o.stamp).run s.db = .ok r))
  | .auth _, o, _ => inferInstanceAs (Decidable (o.auth.fault = .none))
  | .hash _, o, _ => inferInstanceAs (Decidable (o.auth.fault = .none))
  | .redis _, o, _ => inferInstanceAs (Decidable (o.auth.fault = .none))
  | .enqueuePasswordReset _, o, _ => inferInstanceAs (Decidable (o.auth.fault = .none))

/-- A visitor registers, asks for another code and for a reset, and guesses a code. -/
def visit : List AccountCall :=
  [.register ⟨"u@example.com", examplePassword, examplePassword⟩ "",
    .resendEmailVerification ⟨"u@example.com"⟩ "", .requestPasswordReset ⟨"u@example.com"⟩ "",
    .verifyEmail ⟨"u@example.com", "guess"⟩]

/-- The calls with the outcomes of their steps. -/
def visitWith (lengths : List ℕ) : List (AccountCall × List AccountOutside) :=
  visit.zip (lengths.map fun n => List.replicate n (accountOutcome "new" .none))

set_option maxRecDepth 4000 in
theorem pending_account_hidden : ∃ l l' : List (Answered AuthResult AccountState),
    l.map Answered.answer = l'.map Answered.answer ∧
      l.map Answered.answer = [.ok .done, .ok .done, .ok .done,
        .error invalidVerificationException] :=
  ⟨_, _, accounts_cannot_be_enumerated exampleAccounts "u@example.com"
    (s := AccountState.init [pendingUser]) (t := AccountState.init [])
    (wellFormed_init (by decide) (by decide)) (wellFormed_init (by decide) (by decide))
    (Observed.without_of rfl rfl fun e he => view_of_not_found (List.find?_eq_none.2
      fun a ha => by
        rw [List.mem_singleton.1 ha]
        exact fun hfound => he (of_decide_eq_true hfound).symm))
    (Semantics.shows_of_showCalls (visitWith [8, 4, 3, 2]) rfl)
    (Semantics.shows_of_showCalls (visitWith [9, 4, 3, 2]) rfl), rfl⟩

end Account

end Shortlink

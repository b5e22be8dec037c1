import Shortlink.Auth.Challenges

/-!
# No session without both factors

A session is created by a `completeLogin` that has consumed a challenge with a code
that was drawn for it. Whatever challenge is visible in Redis was created first by a
`startLogin` that has checked the password (`Vouched`); the worker only overwrites a
challenge that it has seen. The invariant is kept by every step, and the consumption
reads it off.

The code can be consumed before `startLogin` has returned the challenge
(`code_before_challenge_returned`).
-/

namespace Shortlink

namespace Auth

open Shortlink.Storage Shortlink.Table Shortlink.Transaction Shortlink.Interaction
open Shortlink.Expiring AuthProgram

/-! ### Sessions and their owners -/

def AuthDb.owners (db : AuthDb) : List (String × String) :=
  db.sessions.map fun s => (s.id, s.userId)

/-- Only `createExclusiveSession` adds a session, with an id of its own. -/
theorem AuthCommand.impl_owners {c : AuthCommand} {stamp : Stamp} {db db' : AuthDb}
    {a : c.Res} (h : (c.impl stamp).run db = .ok (a, db')) :
    db'.owners = db.owners ∨ ∃ userId sessionData id,
      c = .createExclusiveSession userId sessionData ∧ (∀ x ∈ db.owners, x.1 ≠ id) ∧
        db'.owners = db.owners ++ [(id, userId)] := by
  rcases AuthCommand.impl_sessions (f := fun s => (s.id, s.userId)) (fun _ _ _ => rfl)
    (fun _ _ _ _ => rfl) h with hkeep | ⟨userId, sessionData, session, hc, rfl, hfresh, hadd⟩
  · exact .inl hkeep
  · refine .inr ⟨session.userId, sessionData, session.id, hc, fun x hx => ?_, hadd⟩
    obtain ⟨s, hs, rfl⟩ := List.mem_map.1 hx
    exact hfresh s hs

/-! ### Challenges and where they come from -/

/-- The call `j` has drawn the code and written it into the challenge. -/
structure Wrote (config : AuthConfig) (σ : AuthPool) (j : ℕ)
    (userId challengeId code : String) : Prop where
  drew : Drew (traceOf σ.history j) .verificationCode code
  wrote : ∃ payload r, payload.codeHmac = config.hmac code ∧
    (⟨.redis (.createLoginChallenge userId challengeId payload), r⟩ :
      Exchange AuthStep AuthStep.Reply) ∈ traceOf σ.history j

/-- The call `j` is a `startLogin` in which the account `userId` was active and its
stored password hash matched the password, and it has drawn and written the
challenge. -/
structure Started (config : AuthConfig) (users : List AccountRecord) (σ : AuthPool) (j : ℕ)
    (userId challengeId : String) : Prop where
  started : ∃ input clientIp account, σ.call? j = some (.startLogin input clientIp) ∧
    account ∈ users ∧ account.id = userId ∧
    Authenticated config input account (traceOf σ.history j)
  drew : Drew (traceOf σ.history j) .challengeId challengeId
  wrote : ∃ code, Wrote config σ j userId challengeId code

/-- The challenge of `userId` was started with the password. -/
def PasswordChecked (config : AuthConfig) (users : List AccountRecord) (σ : AuthPool)
    (userId challengeId : String) : Prop :=
  ∃ j, Started config users σ j userId challengeId

/-- A challenge was started with the password, and some call has written its code. -/
structure Vouched (config : AuthConfig) (users : List AccountRecord) (σ : AuthPool)
    (challengeId : String) (payload : LoginChallengePayload) : Prop where
  password : PasswordChecked config users σ payload.userId challengeId
  code : ∃ j code, Wrote config σ j payload.userId challengeId code ∧
    payload.codeHmac = config.hmac code

/-- Every challenge that is visible, or that a call has seen, is vouched for. -/
structure ChallengesVouched (config : AuthConfig) (users : List AccountRecord)
    (σ : AuthPool) : Prop where
  visible : ∀ challengeId (payload : LoginChallengePayload),
    σ.shared.redis.get (.loginChallenge challengeId) = some payload →
      Vouched config users σ challengeId payload
  seen : ∀ k challengeId (payload : LoginChallengePayload),
    Replied (traceOf σ.history k) (.get (.loginChallenge challengeId)) (some payload) →
      PasswordChecked config users σ payload.userId challengeId

section

variable {config : AuthConfig} {users : List AccountRecord}
  {ok : AuthPool → AuthEvent → Prop} {σ σ' : AuthPool} {j : ℕ}
  {userId challengeId code : String} {payload : LoginChallengePayload}

theorem Wrote.reaches (h : Wrote config σ j userId challengeId code)
    (hrun : (authService config).Reaches ok σ σ') :
    Wrote config σ' j userId challengeId code where
  drew := mem_traceOf_of_suffix hrun.history_suffix h.drew
  wrote := by
    obtain ⟨payload, r, hhmac, hmem⟩ := h.wrote
    exact ⟨payload, r, hhmac, mem_traceOf_of_suffix hrun.history_suffix hmem⟩

theorem Authenticated.mono {input : LoginDto} {account : AccountRecord}
    {trace trace' : AuthTrace} (h : Authenticated config input account trace)
    (htrace : ∀ x ∈ trace, x ∈ trace') : Authenticated config input account trace' :=
  ⟨h.password, h.active, h.found.imp fun _ hfound => ⟨hfound.1, htrace _ hfound.2⟩,
    htrace _ h.unlocked⟩

theorem PasswordChecked.reaches (h : PasswordChecked config users σ userId challengeId)
    (hrun : (authService config).Reaches ok σ σ') :
    PasswordChecked config users σ' userId challengeId := by
  obtain ⟨j, ⟨input, clientIp, account, hcall, haccount, hid, hauth⟩, hdrew, code, hwrote⟩ :=
    h
  have hmono : ∀ x ∈ traceOf σ.history j, x ∈ traceOf σ'.history j :=
    fun x hx => mem_traceOf_of_suffix hrun.history_suffix hx
  exact ⟨j, ⟨input, clientIp, account, hrun.call? hcall, haccount, hid, hauth.mono hmono⟩,
    hmono _ hdrew, code, hwrote.reaches hrun⟩

theorem Vouched.reaches (h : Vouched config users σ challengeId payload)
    (hrun : (authService config).Reaches ok σ σ') :
    Vouched config users σ' challengeId payload := by
  obtain ⟨j, code, hwrote, hhmac⟩ := h.code
  exact ⟨h.password.reaches hrun, j, code, hwrote.reaches hrun, hhmac⟩

/-- An answer of the repository was given by a transaction on some state of the run. -/
theorem found_run (h : (authService config).Reaches ok
      (Pool.init (AuthState.init users)) σ) {c : AuthCommand} {a : c.Res}
    (hfound : Found (traceOf σ.history j) c a) :
    ∃ stamp db db', (c.impl stamp).run db = .ok (a, db') ∧ db.users = users := by
  obtain ⟨l₂, l₁, hl⟩ := List.append_of_mem (mem_traceOf.1 hfound)
  obtain ⟨σ₁, σ₂, stamp, h₁, -, -, -, hrun, -⟩ := answered h hl
  exact ⟨stamp, _, _, hrun, (reaches_since h₁ (sound_init users)).2.users⟩

/-- A call that creates a challenge was entitled to by the password, itself or the call
that has started the challenge. -/
theorem vouched_of_creates (h : (authService config).Reaches ok
      (Pool.init (AuthState.init users)) σ) (hσ : ChallengesVouched config users σ)
    {r : AuthStep.Reply (.redis (.createLoginChallenge userId challengeId payload))}
    (he : (authService config).Fires ok
      ⟨j, .redis (.createLoginChallenge userId challengeId payload), r⟩ σ σ') :
    Vouched config users σ' challengeId payload := by
  obtain ⟨call, rest, hthread, hmay⟩ := he.allowed (LoginMay config) (LoginEnds config) h
    fun _ call _ => body_course config call
  obtain ⟨-, rfl, ⟨code, hdrew, hhmac⟩, hcreate⟩ := hmay
  have hsteps : (authService config).Reaches ok σ σ' := .single he.steps
  have hmono : ∀ x ∈ traceOf σ.history j, x ∈ traceOf σ'.history j :=
    fun x hx => mem_traceOf_of_suffix hsteps.history_suffix hx
  have hwrote : Wrote config σ' j payload.userId challengeId code := by
    refine ⟨hmono _ hdrew, payload, r, hhmac, mem_traceOf.2 ?_⟩
    rw [he.history]
    exact List.mem_cons_self
  refine ⟨?_, j, code, hwrote, hhmac⟩
  cases call with
  | startLogin input clientIp =>
      obtain ⟨account, hauth, hid, hchallenge⟩ := hcreate
      have hcall : σ.call? j = some (.startLogin input clientIp) := by
        rw [Pool.call?, hthread]
        rfl
      refine ⟨j, ⟨input, clientIp, account, hsteps.call? hcall, ?_, hid, hauth.mono hmono⟩,
        hmono _ hchallenge, code, hwrote⟩
      obtain ⟨email, -, hfound⟩ := hauth.found
      obtain ⟨stamp, db, db', hrun, hdb⟩ := found_run h hfound
      have hfind : db.findAccountByEmail email = some account :=
        (Prod.mk.inj (Except.ok.inj hrun)).1
      exact hdb ▸ List.mem_of_find?_eq_some hfind
  | processLogin data =>
      obtain ⟨-, seen, hseen, hid⟩ := hcreate
      exact hid ▸ (hσ.seen j challengeId seen hseen).reaches hsteps
  | _ => exact hcreate.elim

/-- The commands of the calls write no challenge except by creating it. -/
theorem sets_no_challenge {e : AuthEntry} (h : (authService config).Reaches ok
      (Pool.init (AuthState.init users)) σ) (he : (authService config).Fires ok e σ σ')
    {c : RedisCommand} (hc : e.command = .redis c) :
    ∀ id p ttlSeconds, c ≠ .set (.loginChallenge id) p ttlSeconds := by
  rintro id p ttlSeconds rfl
  obtain ⟨call, rest, -, hmay⟩ := he.allowed (LoginMay config) (LoginEnds config) h
    fun _ call _ => body_course config call
  rw [hc] at hmay
  exact hmay

theorem ChallengesVouched.step (h : (authService config).Reaches ok
      (Pool.init (AuthState.init users)) σ) (hσ : ChallengesVouched config users σ)
    (hstep : (authService config).Steps ok σ σ') : ChallengesVouched config users σ' := by
  have hsteps : (authService config).Reaches ok σ σ' := .single hstep
  -- what was visible or has been seen before
  have hvisible : ∀ id (p : LoginChallengePayload),
      σ.shared.redis.get (.loginChallenge id) = some p → Vouched config users σ' id p :=
    fun id p hp => (hσ.visible id p hp).reaches hsteps
  have hkeep : σ'.history = σ.history → ∀ k id (p : LoginChallengePayload),
      Replied (traceOf σ'.history k) (.get (.loginChallenge id)) (some p) →
        PasswordChecked config users σ' p.userId id := by
    intro hhistory k id p hp
    rw [hhistory] at hp
    exact (hσ.seen k id p hp).reaches hsteps
  cases hstep.moves with
  | spawn call hok hshared hthreads hhistory =>
      refine ⟨fun id p hp => hvisible id p ?_, hkeep hhistory⟩
      rwa [hshared] at hp
  | environment x hok hshared hthreads hhistory =>
      refine ⟨fun id p hp => hvisible id p ?_, hkeep hhistory⟩
      rw [hshared] at hp
      cases x with
      | tick n => exact Store.get_tick_eq_some hp
      | evict key => exact (Store.get_del_eq_some σ.shared.redis hp).2
  | exec e he =>
      obtain ⟨k, c, r⟩ := e
      obtain ⟨o, -, hexec⟩ := he.exec
      refine ⟨fun id p hp => ?_, fun i id p hp => ?_⟩
      · rcases (exec_acts hexec).redis with hredis | ⟨cmd, hcmd, hredis⟩
        · rw [hredis] at hp
          exact hvisible id p hp
        · rw [hredis] at hp
          rcases RedisCommand.get_challenge_apply (sets_no_challenge h he hcmd) hp with
            hold | ⟨userId, rfl⟩
          · exact hvisible id p hold
          · obtain rfl : c = _ := hcmd
            exact vouched_of_creates h hσ he
      · have hmem := mem_traceOf.1 hp
        rw [he.history] at hmem
        rcases List.mem_cons.1 hmem with heq | hmem
        · cases heq
          have happly := (exec_redis_ok (c := .get (.loginChallenge id)) hexec).1
          exact (hvisible id p (Prod.mk.inj happly).1).password
        · exact (hσ.seen i id p (mem_traceOf.2 hmem)).reaches hsteps

theorem challengesVouched (h : (authService config).Reaches ok
    (Pool.init (AuthState.init users)) σ) : ChallengesVouched config users σ := by
  induction h with
  | refl => exact ⟨nofun, nofun⟩
  | tail hrun hstep ih => exact ih.step hrun hstep

/-- A call creates at most one challenge. -/
theorem created_once (h : (authService config).Reaches ok
      (Pool.init (AuthState.init users)) σ) {x y : Exchange AuthStep AuthStep.Reply}
    (hx : x ∈ traceOf σ.history j) (hy : y ∈ traceOf σ.history j)
    (hcx : x.1.createsChallenge = true) (hcy : y.1.createsChallenge = true) : x = y := by
  refine h.eq_of_once AuthStep.createsChallenge (LoginMay config) (LoginEnds config)
    (fun _ call _ => body_course config call) (fun call trace c hmay hc => ?_) hx hy hcx hcy
  cases c with
  | redis c =>
      cases c with
      | createLoginChallenge userId challengeId payload => exact hmay.1
      | _ => cases hc
  | _ => cases hc

/-- The challenge that a `startLogin` returns is the one that it has started. -/
theorem Started.returns (hstarted : Started config users σ j userId challengeId)
    (h : (authService config).Reaches ok (Pool.init (AuthState.init users)) σ)
    {challenge : LoginChallenge} (ha : σ.result? j = some (.ok (.challenge challenge))) :
    challenge.challengeId = challengeId := by
  obtain ⟨call, hthread⟩ := (Pool.result?_eq_some_iff σ j _).1 ha
  obtain ⟨input, clientIp, account, payload, -, -, hreturned⟩ :=
    h.obeys (LoginMay config) (LoginEnds config) (fun _ call _ => body_course config call)
      hthread
  obtain ⟨code, -, started, r, -, hwrote⟩ := hstarted.wrote
  cases created_once h hreturned hwrote rfl rfl
  rfl

end

/-! ### The session and its cause -/

/-- The challenge was started with the password by some `startLogin`, and the call `k`,
a `completeLogin`, has consumed it between `σ₁` and `σ₂` with a code that was drawn and
written into it before. -/
structure ConsumedBy (config : AuthConfig) (users : List AccountRecord)
    (ok : AuthPool → AuthEvent → Prop) (σ₁ σ₂ : AuthPool) (input : VerifyLoginDto)
    (userId : String) (k : ℕ) : Prop where
  reached : (authService config).Reaches ok (Pool.init (AuthState.init users)) σ₁
  password : PasswordChecked config users σ₁ userId input.challengeId
  code : ∃ j, Wrote config σ₁ j userId input.challengeId input.code
  consumes : ∃ now, (authService config).Fires ok
    ⟨k, .redis (.consumeLoginChallenge input.challengeId (config.hmac input.code) now),
      .ok (.consumed userId)⟩ σ₁ σ₂

/-- The session `id` of `userId` was created by the call `k`, a `completeLogin` that had
consumed a challenge of `userId`. -/
def OpenedBy (config : AuthConfig) (users : List AccountRecord)
    (ok : AuthPool → AuthEvent → Prop) (σ : AuthPool) (id userId : String) (k : ℕ) : Prop :=
  ∃ input σ₁ σ₂ σ₃ σ₄ sessionData r, σ.call? k = some (.completeLogin input) ∧
    ConsumedBy config users ok σ₁ σ₂ input userId k ∧
    (authService config).Reaches ok σ₂ σ₃ ∧
    (authService config).Fires ok
      ⟨k, .repository (.createExclusiveSession userId sessionData), r⟩ σ₃ σ₄ ∧
    (id, userId) ∉ σ₃.shared.db.owners ∧ (id, userId) ∈ σ₄.shared.db.owners ∧
    (authService config).Reaches ok σ₄ σ

/-- The calls of the service; `createSessionAfterLogin` is not one by itself. -/
def StartsService (_ : AuthPool) : AuthEvent → Prop
  | .spawn (.createSessionAfterLogin _ _) => False
  | _ => True

section

variable {config : AuthConfig} {users : List AccountRecord}
  {ok : AuthPool → AuthEvent → Prop} {σ σ' : AuthPool} {id userId : String} {k : ℕ}

theorem OpenedBy.step (h : OpenedBy config users ok σ id userId k)
    (hstep : (authService config).Steps ok σ σ') :
    OpenedBy config users ok σ' id userId k := by
  obtain ⟨input, σ₁, σ₂, σ₃, σ₄, sessionData, r, hcall, hconsumed, h₂, hcreate, hbefore,
    hafter, h₃⟩ := h
  exact ⟨input, σ₁, σ₂, σ₃, σ₄, sessionData, r,
    Semantics.Reaches.call? (.single hstep) hcall, hconsumed, h₂, hcreate, hbefore, hafter,
    h₃.tail hstep⟩

/-- The call that opened a session has executed the method that creates it. -/
theorem OpenedBy.created (h : OpenedBy config users ok σ id userId k) :
    ∃ x ∈ traceOf σ.history k, x.1.createsSession = true := by
  obtain ⟨input, σ₁, σ₂, σ₃, σ₄, sessionData, r, -, -, -, hcreate, -, -, h₃⟩ := h
  refine ⟨⟨_, r⟩, mem_traceOf.2 (h₃.history_suffix.mem ?_), rfl⟩
  rw [hcreate.history]
  exact List.mem_cons_self

/-- A call that has consumed a challenge was entitled to. -/
theorem consumedBy_of_consumed (hhmac : Function.Injective config.hmac)
    (h : (authService config).Reaches ok (Pool.init (AuthState.init users)) σ)
    {input : VerifyLoginDto} (hconsumed : Consumed config input userId (traceOf σ.history k)) :
    ∃ σ₁ σ₂, ConsumedBy config users ok σ₁ σ₂ input userId k ∧
      (authService config).Reaches ok σ₂ σ := by
  obtain ⟨later, earlier, now, htrace, -⟩ := hconsumed
  obtain ⟨l₂, l₁, hl, -⟩ := exists_of_traceOf_eq htrace
  obtain ⟨σ₁, σ₂, h₁, he, -, h₂⟩ := h.split hl List.nil_suffix
  obtain ⟨o, -, hexec⟩ := he.exec
  have happly := (exec_redis_ok (c := .consumeLoginChallenge input.challengeId
    (config.hmac input.code) now) hexec).1
  obtain ⟨payload, hvisible, rfl, hcode, -⟩ :=
    CONSUME_LOGIN_CHALLENGE_LUA_consumed (Prod.mk.inj happly).1
  have hvouched := (challengesVouched h₁).visible _ _ hvisible
  refine ⟨σ₁, σ₂, ⟨h₁, hvouched.password, ?_, now, he⟩, h₂⟩
  obtain ⟨j, code, hwrote, hhmac'⟩ := hvouched.code
  obtain rfl : code = input.code := hhmac (hhmac'.symm.trans hcode)
  exact ⟨j, hwrote⟩

theorem openedBy_of_added (hhmac : Function.Injective config.hmac)
    (h : (authService config).Reaches StartsService (Pool.init (AuthState.init users)) σ)
    {sessionData : CreateExclusiveSessionInput}
    {r : AuthStep.Reply (.repository (.createExclusiveSession userId sessionData))}
    (he : (authService config).Fires StartsService
      ⟨k, .repository (.createExclusiveSession userId sessionData), r⟩ σ σ')
    (hbefore : (id, userId) ∉ σ.shared.db.owners)
    (hafter : (id, userId) ∈ σ'.shared.db.owners) :
    OpenedBy config users StartsService σ' id userId k ∧
      ∀ x ∈ traceOf σ.history k, x.1.createsSession = false := by
  obtain ⟨call, rest, hthread, hmay⟩ := he.allowed (LoginMay config) (LoginEnds config) h
    fun _ call _ => body_course config call
  have hcall : σ.call? k = some call := by
    rw [Pool.call?, hthread]
    rfl
  rcases hmay with ⟨role, rfl⟩ | ⟨input, challengeUserId, account, rfl, hconsumed, hfound,
    rfl, hnew⟩
  · obtain ⟨σ₁, hspawn⟩ := h.spawned hthread (Nat.zero_le _)
    exact hspawn.elim
  · refine ⟨?_, hnew⟩
    obtain ⟨stamp, db, db', hrun, -⟩ := found_run h hfound
    have hfind : db.findAccountById challengeUserId = some account :=
      (Prod.mk.inj (Except.ok.inj hrun)).1
    have hid : account.id = challengeUserId := by simpa using List.find?_some hfind
    obtain ⟨σ₁, σ₂, hby, h₂⟩ := consumedBy_of_consumed hhmac h (hid ▸ hconsumed)
    exact ⟨input, σ₁, σ₂, σ, σ', sessionData, r,
      Semantics.Reaches.call? (.single he.steps) hcall, hid ▸ hby, h₂, he, hbefore, hafter, .refl⟩

/-- The rows with their owners after a step are those before it, or a call has created
one more. -/
theorem owners_step (hstep : (authService config).Steps ok σ σ') :
    σ'.shared.db.owners = σ.shared.db.owners ∨
      ∃ k userId sessionData id,
        ∃ r : AuthStep.Reply (.repository (.createExclusiveSession userId sessionData)),
        (authService config).Fires ok
          ⟨k, .repository (.createExclusiveSession userId sessionData), r⟩ σ σ' ∧
        (∀ x ∈ σ.shared.db.owners, x.1 ≠ id) ∧
        σ'.shared.db.owners = σ.shared.db.owners ++ [(id, userId)] := by
  cases hstep.moves with
  | spawn call hok hshared hthreads hhistory => exact .inl (by rw [hshared])
  | environment x hok hshared hthreads hhistory =>
      rw [hshared]
      cases x <;> exact .inl rfl
  | exec e he =>
      obtain ⟨i, c, r⟩ := e
      obtain ⟨o, -, hexec⟩ := he.exec
      generalize hs : σ.shared = s at hexec
      generalize hs' : σ'.shared = s' at hexec
      cases exec_acts hexec with
      | idle c => exact .inl rfl
      | executed c => exact .inl rfl
      | committed c stamp a db hrun =>
          rcases AuthCommand.impl_owners hrun with hkeep | ⟨userId, sessionData, id, rfl,
            hfresh, hadd⟩
          · exact .inl hkeep
          · exact .inr ⟨i, userId, sessionData, id, r, he, hfresh, hadd⟩

/-- The rows of a run have been opened, each by a call of its own. -/
theorem exists_opener (hhmac : Function.Injective config.hmac)
    (h : (authService config).Reaches StartsService (Pool.init (AuthState.init users)) σ) :
    ∃ opener : String → ℕ,
      (∀ x ∈ σ.shared.db.owners, OpenedBy config users StartsService σ x.1 x.2
        (opener x.1)) ∧
      ∀ x ∈ σ.shared.db.owners, ∀ y ∈ σ.shared.db.owners,
        opener x.1 = opener y.1 → x.1 = y.1 := by
  induction h with
  | refl => exact ⟨fun _ => 0, nofun, nofun⟩
  | @tail σ₁ σ₂ hrun hstep ih =>
      obtain ⟨opener, hopened, hinj⟩ := ih
      rcases owners_step hstep with hkeep | ⟨k, userId, sessionData, id, r, he, hfresh, hadd⟩
      · rw [hkeep]
        exact ⟨opener, fun x hx => (hopened x hx).step hstep, hinj⟩
      have hbefore : (id, userId) ∉ σ₁.shared.db.owners := fun hmem => hfresh _ hmem rfl
      have hafter : (id, userId) ∈ σ₂.shared.db.owners := by simp [hadd]
      obtain ⟨hby, hnew⟩ := openedBy_of_added hhmac hrun he hbefore hafter
      -- the call that has just created its first session opened none before
      have hfree : ∀ x ∈ σ₁.shared.db.owners, opener x.1 ≠ k := by
        rintro x hx rfl
        obtain ⟨y, hy, hcreates⟩ := (hopened x hx).created
        rw [hnew y hy] at hcreates
        cases hcreates
      refine ⟨Function.update opener id k, fun x hx => ?_, fun x hx y hy => ?_⟩
      · rcases List.mem_append.1 (hadd ▸ hx) with hx | hx
        · rw [Function.update_of_ne (hfresh x hx)]
          exact (hopened x hx).step hstep
        · obtain rfl := List.mem_singleton.1 hx
          rw [Function.update_self]
          exact hby
      · rcases List.mem_append.1 (hadd ▸ hx) with hx | hx <;>
          rcases List.mem_append.1 (hadd ▸ hy) with hy | hy
        · rw [Function.update_of_ne (hfresh x hx), Function.update_of_ne (hfresh y hy)]
          exact hinj x hx y hy
        · obtain rfl := List.mem_singleton.1 hy
          rw [Function.update_of_ne (hfresh x hx), Function.update_self]
          exact fun heq => absurd heq (hfree x hx)
        · obtain rfl := List.mem_singleton.1 hx
          rw [Function.update_of_ne (hfresh y hy), Function.update_self]
          exact fun heq => absurd heq.symm (hfree y hy)
        · rw [List.mem_singleton.1 hx, List.mem_singleton.1 hy]
          exact fun _ => rfl

/-- In every run each session row of `u` has been opened by a `completeLogin` that had
consumed a challenge of `u`, with a code that was drawn and written into the challenge,
started with the password of `u` while `u` was active; different rows were opened by
different calls, so by different consumptions. The `startLogin` that has started a
challenge returns no other one. -/
theorem session_needs_both_factors (config : AuthConfig) (users : List AccountRecord)
    (hhmac : Function.Injective config.hmac) {σ : AuthPool}
    (h : (authService config).Reaches StartsService (Pool.init (AuthState.init users)) σ) :
    (∃ opener : String → ℕ,
      (∀ s ∈ σ.shared.db.sessions, OpenedBy config users StartsService σ s.id s.userId
        (opener s.id)) ∧
      ∀ s ∈ σ.shared.db.sessions, ∀ s' ∈ σ.shared.db.sessions,
        opener s.id = opener s'.id → s.id = s'.id) ∧
    ∀ j userId challengeId challenge, Started config users σ j userId challengeId →
      σ.result? j = some (.ok (.challenge challenge)) →
        challenge.challengeId = challengeId := by
  refine ⟨?_, fun j userId challengeId challenge hstarted => hstarted.returns h⟩
  obtain ⟨opener, hopened, hinj⟩ := exists_opener hhmac h
  have howner : ∀ s ∈ σ.shared.db.sessions, (s.id, s.userId) ∈ σ.shared.db.owners :=
    fun s hs => List.mem_map_of_mem hs
  exact ⟨opener, fun s hs => hopened _ (howner s hs),
    fun s hs s' hs' => hinj _ (howner s hs) _ (howner s' hs')⟩

end

/-! ### Two runs -/

/-- A hash, which `exampleConfig` compares with the password itself. -/
def examplePassword : String :=
  "$2b$10$AAAAAAAAAAAAAAAAAAAAAAAAAAAAAAAAAAAAAAAAAAAAAAAAAAAAA"

def passwordUser : AccountRecord := { exampleUser with passwordHash := examplePassword }

/-- A login with the password and the code of its own draw, when `n` steps of its first
half have been made. -/
def loginAfter (n : ℕ) : AuthPool :=
  (authService exampleConfig).after
    (.spawn (.startLogin ⟨"u@example.com", examplePassword⟩ "") :: steps 0 "c" n ++
      .spawn (.completeLogin ⟨"c", "c"⟩) :: steps 1 "c" 11)
    (Pool.init (AuthState.init [passwordUser]))

/-- Whether the event starts a call that is not `createSessionAfterLogin`. -/
instance decidableStartsService : ∀ σ e, Decidable (StartsService σ e)
  | _, .spawn (.createSessionAfterLogin _ _) => isFalse nofun
  | _, .spawn (.sessionRefresh _) => isTrue trivial
  | _, .spawn (.logout _) => isTrue trivial
  | _, .spawn (.revokeAll _ _) => isTrue trivial
  | _, .spawn (.validateSession _) => isTrue trivial
  | _, .spawn (.refresh _) => isTrue trivial
  | _, .spawn (.startLogin _ _) => isTrue trivial
  | _, .spawn (.completeLogin _) => isTrue trivial
  | _, .spawn (.processLogin _) => isTrue trivial
  | _, .exec _ _ => isTrue trivial
  | _, .environment _ => isTrue trivial

theorem hmac_injective : Function.Injective exampleConfig.hmac :=
  fun _ _ h => String.append_right_inj _ |>.1 h

set_option maxRecDepth 4000 in
/-- The session of a login that has returned its challenge. -/
theorem login_opens_session : (loginAfter 10).shared.db.owners = [("c", "u")] ∧
    ∃ opener : String → ℕ, ∀ s ∈ (loginAfter 10).shared.db.sessions,
      OpenedBy exampleConfig [passwordUser] StartsService (loginAfter 10) s.id s.userId
        (opener s.id) :=
  ⟨by decide +kernel, (session_needs_both_factors exampleConfig [passwordUser] hmac_injective
    (Semantics.reaches_after _ (by decide +kernel))).1.imp fun _ h => h.1⟩

set_option maxRecDepth 4000 in
/-- A challenge is consumed as soon as it is in Redis, when `startLogin` has not returned
it yet. -/
theorem session_before_challenge_returned :
    (authService exampleConfig).Reaches StartsService
        (Pool.init (AuthState.init [passwordUser])) (loginAfter 8) ∧
      (∃ s ∈ (loginAfter 8).shared.db.sessions, s.userId = "u") ∧
      ∀ k challenge, (loginAfter 8).result? k ≠ some (.ok (.challenge challenge)) := by
  refine ⟨Semantics.reaches_after _ (by decide +kernel), by decide +kernel,
    fun k challenge h => ?_⟩
  have hcalls : (loginAfter 8).threads.length = 2 := by decide +kernel
  obtain ⟨call, hthread⟩ := (Pool.result?_eq_some_iff _ k _).1 h
  have hk := (List.getElem?_eq_some_iff.1 hthread).1
  rw [hcalls] at hk
  have hnone : (loginAfter 8).result? 0 = none ∧ (loginAfter 8).result? 1 = none := by
    decide +kernel
  rcases k with _ | _ | k
  · cases hnone.1.symm.trans h
  · cases hnone.2.symm.trans h
  · omega

end Auth

end Shortlink

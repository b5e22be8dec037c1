import Shortlink.Auth.TwoFactors

/-!
# Challenges that have been consumed or superseded

`dead` reads off the history whether a challenge has been consumed, or whether a later
`startLogin` of the account has created a newer one. `CREATE_LOGIN_CHALLENGE_LUA` does
not ask: the worker brings a dead challenge back to life when it rewrites it. While it
rewrites a challenge only as long as that is alive, the challenge stays dead once it is
(`dead_challenges_stay_dead`).
-/

namespace Shortlink

namespace Auth

open Shortlink.Storage Shortlink.Transaction Shortlink.Interaction
open Shortlink.Expiring

/-! ### What the history tells about challenges -/

/-- The id that the entry draws, with the call that draws it. -/
def drewId? : AuthEntry → Option (ℕ × String)
  | ⟨k, .generate .challengeId, id⟩ => some (k, id)
  | _ => none

/-- The ids drawn so far. -/
def drawnIds (history : List AuthEntry) : List (ℕ × String) :=
  history.filterMap drewId?

/-- The challenge that the entry starts, with its account: it creates it with an id
that the same call has drawn before. -/
def starts? (earlier : List AuthEntry) : AuthEntry → Option (String × String)
  | ⟨k, .redis (.createLoginChallenge userId challengeId _), .ok _⟩ =>
      if (k, challengeId) ∈ drawnIds earlier then some (userId, challengeId) else none
  | _ => none

/-- The challenges started so far with their accounts, the most recent first. -/
def started : List AuthEntry → List (String × String)
  | [] => []
  | e :: earlier => (starts? earlier e).toList ++ started earlier

def consumed? : AuthEntry → Option String
  | ⟨_, .redis (.consumeLoginChallenge challengeId _ _), .ok (.consumed _)⟩ =>
      some challengeId
  | _ => none

/-- The newest challenge of an account. -/
def newest (history : List AuthEntry) (userId : String) : Option String :=
  ((started history).find? fun x => x.1 == userId).map Prod.snd

/-- The challenge is not the newest one of its account any more. -/
def superseded (history : List AuthEntry) (challengeId : String) : Bool :=
  (started history).any fun x =>
    x.2 == challengeId && newest history x.1 != some challengeId

def dead (history : List AuthEntry) (challengeId : String) : Bool :=
  history.any (fun e => consumed? e == some challengeId) ||
    superseded history challengeId

def AuthStep.drawsId : AuthStep → Bool
  | .generate .challengeId => true
  | _ => false

def AuthStep.created? : AuthStep → Option String
  | .redis (.createLoginChallenge _ challengeId _) => some challengeId
  | _ => none

/-- The challenge that the call rewrites next, when it is an attempt of the worker. -/
def rewrites? (σ : AuthPool) (k : ℕ) : Option String :=
  match σ.call? k with
  | some (.processLogin _) => (σ.next? k).bind AuthStep.created?
  | _ => none

/-- Ids are drawn once, and Redis does not evict the record that the challenge is the
current one of an account. -/
def FreshIds (challengeId : String) (σ : AuthPool) : AuthEvent → Prop
  | .exec k o => (σ.next? k).any AuthStep.drawsId = true →
      ∀ x ∈ drawnIds σ.history, x.2 ≠ o.generated
  | .environment (.evict (.loginChallengeAccount userId)) =>
      σ.shared.redis.currentChallenge userId ≠ some challengeId
  | _ => True

/-- An attempt of the worker does not rewrite the challenge once it is dead, unless Redis
refuses. -/
def RewritesLive (challengeId : String) (σ : AuthPool) : AuthEvent → Prop
  | .exec k o => (¬ ∃ e, o.fault = .refused e) → rewrites? σ k = some challengeId →
      dead σ.history challengeId = false
  | _ => True

def AuthCall.worksFor (challengeId : String) : AuthCall → Prop
  | .processLogin data => data.challengeId = some challengeId
  | .completeLogin input => input.challengeId = challengeId
  | _ => False

section

variable {history : List AuthEntry} {e : AuthEntry} {k : ℕ}
  {userId challengeId newer : String}

theorem drewId?_eq_some (h : drewId? e = some (k, challengeId)) :
    e = ⟨k, .generate .challengeId, challengeId⟩ := by
  obtain ⟨i, c, r⟩ := e
  match c with
  | .generate .challengeId =>
      cases h
      rfl

theorem consumed?_eq_some (h : consumed? e = some challengeId) :
    ∃ codeHmac now userId, e = ⟨e.thread, .redis (.consumeLoginChallenge challengeId codeHmac
      now), Except.ok (.consumed userId)⟩ := by
  obtain ⟨i, c, r⟩ := e
  match c, r with
  | .redis (.consumeLoginChallenge id codeHmac now), .ok (.consumed userId) =>
      cases h
      exact ⟨codeHmac, now, userId, rfl⟩

theorem mem_drawnIds :
    (k, challengeId) ∈ drawnIds history ↔
      Drew (traceOf history k) .challengeId challengeId := by
  refine (List.mem_filterMap).trans (Iff.trans ?_ mem_traceOf.symm)
  constructor
  · rintro ⟨e, he, hdrew⟩
    exact drewId?_eq_some hdrew ▸ he
  · intro he
    exact ⟨_, he, rfl⟩

theorem starts?_eq_some (h : starts? history e = some (userId, challengeId)) :
    (e.thread, challengeId) ∈ drawnIds history ∧
      ∃ payload, e = ⟨e.thread, .redis (.createLoginChallenge userId challengeId payload),
        Except.ok ()⟩ := by
  obtain ⟨i, c, r⟩ := e
  match c, r with
  | .redis (.createLoginChallenge u id payload), .ok () =>
      simp only [starts?] at h
      split_ifs at h with hdrew
      cases h
      exact ⟨hdrew, payload, rfl⟩

/-- A started challenge was created by the call that had drawn its id. -/
theorem exists_of_mem_started (h : (userId, challengeId) ∈ started history) :
    ∃ k payload, Drew (traceOf history k) .challengeId challengeId ∧
      Replied (traceOf history k) (.createLoginChallenge userId challengeId payload) () := by
  induction history with
  | nil => cases h
  | cons e history ih =>
      rcases List.mem_append.1 h with h | h
      · obtain ⟨hdrew, payload, he⟩ := starts?_eq_some (Option.mem_toList.1 h)
        have hsuffix : history <:+ e :: history := List.suffix_cons _ _
        refine ⟨e.thread, payload, mem_traceOf_of_suffix hsuffix (mem_drawnIds.1 hdrew),
          mem_traceOf.2 ?_⟩
        rw [← he]
        exact List.mem_cons_self
      · obtain ⟨k, payload, hdrew, hreplied⟩ := ih h
        have hsuffix : history <:+ e :: history := List.suffix_cons _ _
        exact ⟨k, payload, mem_traceOf_of_suffix hsuffix hdrew,
          mem_traceOf_of_suffix hsuffix hreplied⟩

theorem newest_cons_of_none (h : starts? history e = none) :
    newest (e :: history) = newest history := by
  funext userId
  simp [newest, started, h]

theorem newest_cons_of_some (h : starts? history e = some (userId, newer)) (id : String) :
    newest (e :: history) id = if userId = id then some newer else newest history id := by
  by_cases hid : userId = id
  · simp [newest, started, h, hid]
  · simp [newest, started, h, hid]

/-- A challenge dies when an entry consumes it or starts a newer one of its account. -/
theorem dead_cons (h : dead (e :: history) challengeId = true) :
    dead history challengeId = true ∨ consumed? e = some challengeId ∨
      ∃ userId newer, starts? history e = some (userId, newer) ∧ newer ≠ challengeId ∧
        (userId, challengeId) ∈ started history := by
  rw [dead, List.any_cons, Bool.or_assoc, Bool.or_eq_true, Bool.or_eq_true] at h
  rcases h with h | h | h
  · exact .inr (.inl (beq_iff_eq.1 h))
  · exact .inl (Bool.or_eq_true _ _ ▸ .inl h)
  obtain ⟨⟨owner, id⟩, hstarted, hx⟩ := List.any_eq_true.1 h
  simp only [Bool.and_eq_true, beq_iff_eq, bne_iff_ne] at hx
  obtain ⟨rfl, hnewest⟩ := hx
  -- the challenge was started before and was superseded already
  have hbefore : (owner, id) ∈ started history → newest history owner ≠ some id →
      dead history id = true := by
    intro hmem hne
    rw [dead, Bool.or_eq_true]
    exact .inr (List.any_eq_true.2 ⟨_, hmem, by simpa using hne⟩)
  cases hstarts : starts? history e with
  | none =>
      rw [newest_cons_of_none hstarts] at hnewest
      refine .inl (hbefore ?_ hnewest)
      simpa [started, hstarts] using hstarted
  | some x =>
      obtain ⟨userId, newer⟩ := x
      rw [newest_cons_of_some hstarts] at hnewest
      have hold : (owner, id) ∈ started history := by
        rw [started, hstarts] at hstarted
        rcases List.mem_cons.1 hstarted with heq | hmem
        · obtain ⟨rfl, rfl⟩ := Prod.mk.inj heq
          exact absurd (if_pos rfl) hnewest
        · exact hmem
      by_cases howner : userId = owner
      · rw [if_pos howner] at hnewest
        exact .inr (.inr ⟨userId, newer, rfl, fun heq => hnewest (congrArg some heq),
          howner ▸ hold⟩)
      · rw [if_neg howner] at hnewest
        exact .inl (hbefore hold hnewest)

end

/-! ### The entries behind a command -/

section

variable {redis : Redis} {userId challengeId : String} {payload : LoginChallengePayload}

theorem CREATE_LOGIN_CHALLENGE_LUA_cell_challenge :
    (CREATE_LOGIN_CHALLENGE_LUA userId challengeId payload redis).cell
      (.loginChallenge challengeId) =
        some (payload, redis.now + TTL_ONE_HOUR_SECONDS * 1000) := by
  have hkey : RedisKey.loginChallenge challengeId ≠ .loginChallengeAccount userId := nofun
  refine (Redis.cell_setEx_of_ne _ _ _ hkey).trans ((Store.cell_set_self _ _ _).trans ?_)
  cases redis.get (.loginChallengeAccount userId) <;> rfl

theorem CREATE_LOGIN_CHALLENGE_LUA_cell_account :
    (CREATE_LOGIN_CHALLENGE_LUA userId challengeId payload redis).cell
      (.loginChallengeAccount userId) =
        some (challengeId, redis.now + TTL_ONE_HOUR_SECONDS * 1000) := by
  refine (Store.cell_set_self _ _ _).trans ?_
  cases redis.get (.loginChallengeAccount userId) <;> rfl

/-- Of the other challenges it keeps those that are not recorded for the account. -/
theorem CREATE_LOGIN_CHALLENGE_LUA_cell_of_ne {id : String} (hid : id ≠ challengeId)
    {entry : LoginChallengePayload × ℕ}
    (h : (CREATE_LOGIN_CHALLENGE_LUA userId challengeId payload redis).cell
      (.loginChallenge id) = some entry) :
    redis.cell (.loginChallenge id) = some entry ∧
      redis.currentChallenge userId ≠ some id := by
  have hkey : RedisKey.loginChallenge id ≠ .loginChallengeAccount userId := nofun
  have hkey' : RedisKey.loginChallenge id ≠ .loginChallenge challengeId :=
    fun heq => hid (RedisKey.loginChallenge.inj heq)
  have h := (Redis.cell_setEx_of_ne _ _ _ hkey').symm.trans
    ((Redis.cell_setEx_of_ne _ _ _ hkey).symm.trans h)
  by_cases hcurrent : redis.currentChallenge userId = some id
  · rw [show redis.get (.loginChallengeAccount userId) = _ from hcurrent] at h
    cases (Store.cell_del_self _ _).symm.trans h
  · refine ⟨?_, hcurrent⟩
    cases hprevious : redis.get (.loginChallengeAccount userId) with
    | none =>
        rw [hprevious] at h
        exact h
    | some previous =>
        rw [hprevious] at h
        refine (Store.cell_del_of_ne redis fun heq => hcurrent (hprevious.trans ?_)).symm.trans h
        exact congrArg some (RedisKey.loginChallenge.inj heq).symm

/-- What a command that creates no challenge keeps: it makes challenges disappear at
most, and keeps the record of the account whose current challenge this is. -/
structure Redis.KeepsChallenges (challengeId : String) (redis redis' : Redis) : Prop where
  now : redis.now ≤ redis'.now
  challenge : ∀ id entry, redis'.cell (.loginChallenge id) = some entry →
    redis.cell (.loginChallenge id) = some entry
  account : ∀ userId, redis.currentChallenge userId = some challengeId →
    redis'.cell (.loginChallengeAccount userId) = redis.cell (.loginChallengeAccount userId)

theorem Redis.KeepsChallenges.refl : redis.KeepsChallenges challengeId redis :=
  ⟨Nat.le_refl _, fun _ _ h => h, fun _ _ => rfl⟩

theorem Redis.KeepsChallenges.del {key : RedisKey}
    (hkey : ∀ userId, key = .loginChallengeAccount userId →
      redis.currentChallenge userId ≠ some challengeId) :
    redis.KeepsChallenges challengeId (redis.del key) := by
  refine ⟨Nat.le_refl _, fun id entry h => ?_, fun userId hcurrent =>
    Store.cell_del_of_ne redis fun heq => hkey userId heq.symm hcurrent⟩
  by_cases hid : RedisKey.loginChallenge id = key
  · subst hid
    cases (Store.cell_del_self _ _).symm.trans h
  · exact (Store.cell_del_of_ne redis hid).symm.trans h

theorem RedisCommand.Ordinary.not_writes_challenge {c : RedisCommand} (hc : c.Ordinary)
    (id : String) : ¬ c.Writes (.loginChallenge id) := by
  cases c with
  | set key value ttlSeconds => cases key <;> first | exact hc.elim | nofun
  | del key => cases key <;> first | exact hc.elim | nofun
  | createLoginChallenge userId challengeId payload => exact hc.elim
  | consumeLoginChallenge challengeId codeHmac nowMs => exact hc.elim
  | incrementFailedLogin userId => exact fun h => h.elim nofun nofun
  | _ => nofun

theorem RedisCommand.Ordinary.not_writes_account {c : RedisCommand} (hc : c.Ordinary)
    (userId : String) : ¬ c.Writes (.loginChallengeAccount userId) := by
  cases c with
  | set key value ttlSeconds => cases key <;> first | exact hc.elim | nofun
  | del key => cases key <;> first | exact hc.elim | nofun
  | createLoginChallenge userId challengeId payload => exact hc.elim
  | consumeLoginChallenge challengeId codeHmac nowMs => exact hc.elim
  | incrementFailedLogin userId => exact fun h => h.elim nofun nofun
  | _ => nofun

theorem RedisCommand.Ordinary.keepsChallenges {c : RedisCommand} (hc : c.Ordinary) :
    redis.KeepsChallenges challengeId (c.apply redis).2 := by
  refine ⟨Nat.le_of_eq (c.apply_now redis).symm, fun id entry h => ?_, fun userId _ =>
    RedisCommand.cell_apply_of_not_writes redis (hc.not_writes_account userId)⟩
  exact (RedisCommand.cell_apply_of_not_writes redis (hc.not_writes_challenge id)).symm.trans h

theorem CONSUME_LOGIN_CHALLENGE_LUA_keepsChallenges (id codeHmac : String) (nowMs : ℕ) :
    redis.KeepsChallenges challengeId
      (CONSUME_LOGIN_CHALLENGE_LUA id codeHmac nowMs redis).2 := by
  simp only [CONSUME_LOGIN_CHALLENGE_LUA]
  split
  · exact .refl
  split
  · exact .refl
  split
  · exact .refl
  split <;> exact .del (by simp)

end

/-! ### What a run keeps -/

/-- The state in which the challenge is what it should be: it is visible only while it is
the recorded one of its account, and not when it is dead. -/
structure ChallengeSound (challengeId : String) (σ : AuthPool) : Prop where
  fresh : ∀ i j id, (i, id) ∈ drawnIds σ.history → (j, id) ∈ drawnIds σ.history → i = j
  recorded : ∀ (payload : LoginChallengePayload) expiresAt,
    σ.shared.redis.cell (.loginChallenge challengeId) = some (payload, expiresAt) →
      σ.shared.redis.now < expiresAt → ∃ expiresAt', expiresAt ≤ expiresAt' ∧
        σ.shared.redis.cell (.loginChallengeAccount payload.userId) =
          some (challengeId, expiresAt')
  alive : ∀ payload : LoginChallengePayload,
    σ.shared.redis.get (.loginChallenge challengeId) = some payload →
      dead σ.history challengeId = false

section

variable {config : AuthConfig} {users : List AccountRecord}
  {ok : AuthPool → AuthEvent → Prop} {σ σ' : AuthPool} {k : ℕ}
  {userId challengeId : String} {payload : LoginChallengePayload}

theorem ChallengeSound.current (hσ : ChallengeSound challengeId σ)
    (h : σ.shared.redis.get (.loginChallenge challengeId) = some payload) :
    σ.shared.redis.currentChallenge payload.userId = some challengeId := by
  obtain ⟨expiresAt, hcell, hlt⟩ := visible_eq_some_iff.1 h
  obtain ⟨expiresAt', hle, haccount⟩ := hσ.recorded _ _ hcell hlt
  exact visible_eq_some_iff.2 ⟨expiresAt', haccount, Nat.lt_of_lt_of_le hlt hle⟩

/-- A challenge was started for one account only. -/
theorem PasswordChecked.unique (h : (authService config).Reaches ok
      (Pool.init (AuthState.init users)) σ) (hσ : ChallengeSound challengeId σ) {owner : String}
    (h₁ : PasswordChecked config users σ userId challengeId)
    (h₂ : PasswordChecked config users σ owner challengeId) : userId = owner := by
  obtain ⟨i, -, hi, -, -, p₁, r₁, -, hwrote₁⟩ := h₁
  obtain ⟨j, -, hj, -, -, p₂, r₂, -, hwrote₂⟩ := h₂
  obtain rfl := hσ.fresh i j challengeId (mem_drawnIds.2 hi) (mem_drawnIds.2 hj)
  cases created_once h hwrote₁ hwrote₂ rfl rfl
  rfl

/-- A challenge that some call has created was started with the password. -/
theorem checked_of_created (h : (authService config).Reaches ok
      (Pool.init (AuthState.init users)) σ) {r : Except StorageError Unit}
    (hcreated : (⟨.redis (.createLoginChallenge userId challengeId payload), r⟩ :
      Exchange AuthStep AuthStep.Reply) ∈ traceOf σ.history k) :
    PasswordChecked config users σ userId challengeId := by
  obtain ⟨l₂, l₁, hl⟩ := List.append_of_mem (mem_traceOf.1 hcreated)
  obtain ⟨σ₁, σ₂, h₁, he, -, h₂⟩ := h.split hl List.nil_suffix
  obtain ⟨call, rest, -, hmay⟩ := he.allowed (LoginMay config) (LoginEnds config) h₁
    fun _ call _ => body_course config call
  obtain ⟨-, rfl, -⟩ := hmay
  exact (vouched_of_creates h₁ (challengesVouched h₁) he).password.reaches h₂

/-- A challenge that has been consumed was started with the password. -/
theorem checked_of_consumed (h : (authService config).Reaches ok
      (Pool.init (AuthState.init users)) σ) {e : AuthEntry} (he : e ∈ σ.history)
    (hconsumed : consumed? e = some challengeId) :
    ∃ userId, PasswordChecked config users σ userId challengeId := by
  obtain ⟨codeHmac, now, userId, heq⟩ := consumed?_eq_some hconsumed
  obtain ⟨l₂, l₁, hl⟩ := List.append_of_mem he
  obtain ⟨σ₁, σ₂, h₁, he', -, h₂⟩ := h.split hl List.nil_suffix
  obtain ⟨o, -, hexec⟩ := he'.exec
  rw [heq] at hexec
  have happly := (exec_redis_ok (c := .consumeLoginChallenge challengeId codeHmac now) hexec).1
  obtain ⟨payload, hvisible, -⟩ :=
    CONSUME_LOGIN_CHALLENGE_LUA_consumed (Prod.mk.inj happly).1
  exact ⟨_, ((challengesVouched h₁).visible _ _ hvisible).password.reaches
    ((Relation.ReflTransGen.single he'.steps).trans h₂)⟩

/-- A call that starts a challenge has drawn its id by itself, so nothing has happened
with the id before. -/
theorem not_dead_of_startLogin (h : (authService config).Reaches ok
      (Pool.init (AuthState.init users)) σ) (hσ : ChallengeSound challengeId σ)
    (hdrew : Drew (traceOf σ.history k) .challengeId challengeId)
    (hnew : ∀ x ∈ traceOf σ.history k, x.1.createsChallenge = false) :
    dead σ.history challengeId = false := by
  have hunchecked : ∀ owner, ¬ PasswordChecked config users σ owner challengeId := by
    rintro owner ⟨j, -, hj, -, -, p, r, -, hwrote⟩
    obtain rfl := hσ.fresh k j challengeId (mem_drawnIds.2 hdrew) (mem_drawnIds.2 hj)
    cases hnew _ hwrote
  by_contra hdead
  rw [Bool.not_eq_false, dead, Bool.or_eq_true] at hdead
  rcases hdead with hdead | hdead
  · obtain ⟨e, he, hconsumed⟩ := List.any_eq_true.1 hdead
    obtain ⟨owner, hchecked⟩ := checked_of_consumed h he (beq_iff_eq.1 hconsumed)
    exact hunchecked owner hchecked
  · obtain ⟨⟨owner, id⟩, hstarted, hx⟩ := List.any_eq_true.1 hdead
    simp only [Bool.and_eq_true, beq_iff_eq] at hx
    obtain ⟨rfl, -⟩ := hx
    obtain ⟨j, p, -, hreplied⟩ := exists_of_mem_started hstarted
    exact hunchecked owner (checked_of_created h hreplied)

theorem rewrites?_eq_some {e : AuthEntry} {data : SendVerificationCodeJobData}
    (hcall : σ.call? e.thread = some (.processLogin data))
    (he : (authService config).Fires ok e σ σ')
    (hcreated : e.command.created? = some challengeId) :
    rewrites? σ e.thread = some challengeId := by
  obtain ⟨call, next, hnext, -⟩ := he.thread
  rw [rewrites?, hcall, Pool.next?, hnext]
  exact hcreated

theorem not_dead_of_creates {r : AuthStep.Reply (.redis (.createLoginChallenge userId
      challengeId payload))} {o : AuthOutside}
    (h : (authService config).Reaches ok (Pool.init (AuthState.init users)) σ)
    (hσ : ChallengeSound challengeId σ)
    (he : (authService config).Fires ok
      ⟨k, .redis (.createLoginChallenge userId challengeId payload), r⟩ σ σ')
    (hlive : RewritesLive challengeId σ (.exec k o)) (heffect : ¬ ∃ e, o.fault = .refused e) :
    dead σ.history challengeId = false := by
  obtain ⟨call, rest, hthread, hmay⟩ := he.allowed (LoginMay config) (LoginEnds config) h
    fun _ call _ => body_course config call
  obtain ⟨hnew, -, -, hcreate⟩ := hmay
  cases call with
  | startLogin input clientIp =>
      obtain ⟨account, -, -, hdrew⟩ := hcreate
      exact not_dead_of_startLogin h hσ hdrew hnew
  | processLogin data =>
      have hcall : σ.call? k = some (.processLogin data) := by
        rw [Pool.call?, hthread]
        rfl
      exact hlive heffect (rewrites?_eq_some hcall he rfl)
  | _ => exact hcreate.elim

/-- A step makes challenges disappear at most, or it creates one. -/
theorem challenges_step (challengeId : String) (h : (authService config).Reaches ok
      (Pool.init (AuthState.init users)) σ) {e : AuthEntry}
    (he : (authService config).Fires ok e σ σ') :
    σ.shared.redis.KeepsChallenges challengeId σ'.shared.redis ∨
      ∃ o userId id payload, ok σ (.exec e.thread o) ∧ (¬ ∃ e, o.fault = .refused e) ∧
        e.command = .redis (.createLoginChallenge userId id payload) ∧
        payload.userId = userId ∧ σ'.shared.redis =
          CREATE_LOGIN_CHALLENGE_LUA userId id payload σ.shared.redis := by
  obtain ⟨call, rest, -, hmay⟩ := he.allowed (LoginMay config) (LoginEnds config) h
    fun _ call _ => body_course config call
  obtain ⟨o, ho, hexec⟩ := he.exec
  rcases (exec_acts hexec).redis with hredis | ⟨c, hc, hredis⟩
  · rw [hredis]
    exact .inl .refl
  by_cases hrefused : ∃ e, o.fault = .refused e
  · rw [exec_refused hrefused hexec]
    exact .inl .refl
  · rw [hredis]
    rw [hc] at hmay ⊢
    cases c with
    | createLoginChallenge userId id payload =>
        exact .inr ⟨o, userId, id, payload, ho, hrefused, rfl, hmay.2.1, rfl⟩
    | consumeLoginChallenge id codeHmac nowMs =>
        exact .inl (CONSUME_LOGIN_CHALLENGE_LUA_keepsChallenges id codeHmac nowMs)
    | _ => exact .inl (RedisCommand.Ordinary.keepsChallenges hmay)

/-- A challenge that stays visible does not die. -/
theorem alive_of_visible (h : (authService config).Reaches ok
      (Pool.init (AuthState.init users)) σ) (hσ : ChallengeSound challengeId σ) {e : AuthEntry}
    (he : (authService config).Fires ok e σ σ') {payload' : LoginChallengePayload}
    (hbefore : σ.shared.redis.get (.loginChallenge challengeId) = some payload)
    (hafter : σ'.shared.redis.get (.loginChallenge challengeId) = some payload') :
    dead (e :: σ.history) challengeId = false := by
  by_contra hdead
  rw [Bool.not_eq_false] at hdead
  obtain ⟨o, -, hexec⟩ := he.exec
  rcases dead_cons hdead with hdead | hconsumed | ⟨userId, newer, hstarts, hne, hstarted⟩
  · rw [hσ.alive _ hbefore] at hdead
    cases hdead
  · obtain ⟨codeHmac, now, owner, hentry⟩ := consumed?_eq_some hconsumed
    rw [hentry] at hexec
    obtain ⟨hreply, hredis⟩ := Prod.mk.inj (exec_redis_ok
      (c := .consumeLoginChallenge challengeId codeHmac now) hexec).1
    obtain ⟨-, -, -, -, hdel⟩ := CONSUME_LOGIN_CHALLENGE_LUA_consumed hreply
    have hnone : σ'.shared.redis.get (.loginChallenge challengeId) = none := by
      rw [← hredis]
      exact (congrArg (fun redis : Redis => redis.get _) hdel).trans (Store.get_del_self _ _)
    cases hnone.symm.trans hafter
  · obtain ⟨-, p, hentry⟩ := starts?_eq_some hstarts
    rw [hentry] at hexec
    have happly := (exec_redis_ok (c := .createLoginChallenge userId newer p) hexec).1
    obtain ⟨k, p', -, hreplied⟩ := exists_of_mem_started hstarted
    obtain rfl : userId = payload.userId := PasswordChecked.unique h hσ
      (checked_of_created h hreplied) ((challengesVouched h).visible _ _ hbefore).password
    have hnone : σ'.shared.redis.get (.loginChallenge challengeId) = none := by
      rw [← (Prod.mk.inj happly).2]
      exact (CREATE_LOGIN_CHALLENGE_LUA_get_of_ne hne.symm).trans
        (if_pos (hσ.current hbefore))
    cases hnone.symm.trans hafter

theorem ChallengeSound.recorded_keeps (hσ : ChallengeSound challengeId σ) {redis' : Redis}
    (hkeeps : σ.shared.redis.KeepsChallenges challengeId redis') {expiresAt : ℕ}
    (hcell : redis'.cell (.loginChallenge challengeId) = some (payload, expiresAt))
    (hlt : redis'.now < expiresAt) : ∃ expiresAt', expiresAt ≤ expiresAt' ∧
      redis'.cell (.loginChallengeAccount payload.userId) =
        some (challengeId, expiresAt') := by
  have hbefore := hkeeps.challenge _ _ hcell
  have hlt' := Nat.lt_of_le_of_lt hkeeps.now hlt
  rw [hkeeps.account _ (hσ.current (visible_eq_some_iff.2 ⟨_, hbefore, hlt'⟩))]
  exact hσ.recorded _ _ hbefore hlt'

/-- A challenge that is visible later on was visible before. -/
theorem Redis.KeepsChallenges.get {redis redis' : Redis}
    (hkeeps : redis.KeepsChallenges challengeId redis')
    (h : redis'.get (.loginChallenge challengeId) = some payload) :
    redis.get (.loginChallenge challengeId) = some payload := by
  obtain ⟨expiresAt, hcell, hlt⟩ := visible_eq_some_iff.1 h
  exact visible_eq_some_iff.2 ⟨expiresAt, hkeeps.challenge _ _ hcell,
    Nat.lt_of_le_of_lt hkeeps.now hlt⟩

/-- Ids are drawn once. -/
theorem ChallengeSound.fresh_step (hσ : ChallengeSound challengeId σ)
    (hok : ∀ σ e, ok σ e → FreshIds challengeId σ e) {e : AuthEntry}
    (he : (authService config).Fires ok e σ σ') (i j : ℕ) (id : String)
    (hi : (i, id) ∈ drawnIds (e :: σ.history)) (hj : (j, id) ∈ drawnIds (e :: σ.history)) :
    i = j := by
  have hnew : ∀ i id, drewId? e = some (i, id) → ∀ x ∈ drawnIds σ.history, x.2 ≠ id := by
    intro i id hdrew
    obtain rfl := drewId?_eq_some hdrew
    obtain ⟨o, ho, hexec⟩ := he.exec
    obtain ⟨call, next, hnext, -⟩ := he.thread
    have hgenerated : o.generated = id := (Prod.mk.inj (Option.some.inj hexec)).1
    rw [← hgenerated]
    refine hok _ _ ho ?_
    rw [Pool.next?, hnext]
    rfl
  simp only [drawnIds, List.filterMap_cons] at hi hj
  cases hdrew : drewId? e with
  | none =>
      rw [hdrew] at hi hj
      exact hσ.fresh i j id hi hj
  | some x =>
      rw [hdrew] at hi hj
      rcases List.mem_cons.1 hi with rfl | hi' <;> rcases List.mem_cons.1 hj with hj' | hj'
      · exact (Prod.mk.inj hj').1.symm
      · exact absurd rfl (hnew i id hdrew _ hj')
      · subst hj'
        exact absurd rfl (hnew j id hdrew _ hi')
      · exact hσ.fresh i j id hi' hj'

/-- After a challenge `id` has been created, the challenge is recorded for its account if
it is visible. -/
theorem ChallengeSound.recorded_creates (hσ : ChallengeSound challengeId σ) {id : String}
    {p : LoginChallengePayload} {expiresAt : ℕ} (howner : payload.userId = userId)
    (hcell : (CREATE_LOGIN_CHALLENGE_LUA userId id payload σ.shared.redis).cell
      (.loginChallenge challengeId) = some (p, expiresAt))
    (hlt : σ.shared.redis.now < expiresAt) : ∃ expiresAt', expiresAt ≤ expiresAt' ∧
      (CREATE_LOGIN_CHALLENGE_LUA userId id payload σ.shared.redis).cell
        (.loginChallengeAccount p.userId) = some (challengeId, expiresAt') := by
  by_cases hid : challengeId = id
  · subst hid
    obtain ⟨rfl, rfl⟩ :=
      Prod.mk.inj (Option.some.inj (CREATE_LOGIN_CHALLENGE_LUA_cell_challenge.symm.trans hcell))
    exact ⟨_, Nat.le_refl _, howner ▸ CREATE_LOGIN_CHALLENGE_LUA_cell_account⟩
  · obtain ⟨hbefore, hcurrent⟩ := CREATE_LOGIN_CHALLENGE_LUA_cell_of_ne hid hcell
    obtain ⟨expiresAt', hle, haccount⟩ := hσ.recorded _ _ hbefore hlt
    have hne : p.userId ≠ userId := by
      rintro rfl
      exact hcurrent (hσ.current (visible_eq_some_iff.2 ⟨_, hbefore, hlt⟩))
    have hkey : ¬ (RedisCommand.createLoginChallenge userId id payload).Writes
        (.loginChallengeAccount p.userId) := by
      rintro (⟨_, heq⟩ | heq)
      · cases heq
      · exact hne (RedisKey.loginChallengeAccount.inj heq)
    exact ⟨expiresAt', hle,
      (RedisCommand.cell_apply_of_not_writes σ.shared.redis hkey).trans haccount⟩

/-- After a command the challenge is alive if it is visible. -/
theorem ChallengeSound.alive_fires (h : (authService config).Reaches ok
      (Pool.init (AuthState.init users)) σ) (hσ : ChallengeSound challengeId σ)
    (hlive : ∀ σ e, ok σ e → RewritesLive challengeId σ e) {e : AuthEntry}
    (he : (authService config).Fires ok e σ σ')
    (hvisible : σ'.shared.redis.get (.loginChallenge challengeId) = some payload) :
    dead (e :: σ.history) challengeId = false := by
  rcases challenges_step challengeId h he with
    hkeeps | ⟨o, userId, id, p, ho, heffect, hc, -, hredis⟩
  · exact alive_of_visible h hσ he (hkeeps.get hvisible) hvisible
  · by_cases hid : challengeId = id
    · subst hid
      obtain ⟨k, c, r⟩ := e
      obtain rfl : c = _ := hc
      by_contra hdead
      rw [Bool.not_eq_false] at hdead
      rcases dead_cons hdead with hdead | hconsumed | ⟨owner, newer, hstarts, hne, -⟩
      · rw [not_dead_of_creates h hσ he (hlive _ _ ho) heffect] at hdead
        cases hdead
      · cases hconsumed
      · obtain ⟨-, p', hentry⟩ := starts?_eq_some hstarts
        cases hentry
        exact hne rfl
    · obtain ⟨expiresAt, hcell, hlt⟩ := visible_eq_some_iff.1 hvisible
      rw [hredis] at hcell hlt
      rw [CREATE_LOGIN_CHALLENGE_LUA_now] at hlt
      exact alive_of_visible h hσ he (visible_eq_some_iff.2
        ⟨expiresAt, (CREATE_LOGIN_CHALLENGE_LUA_cell_of_ne hid hcell).1, hlt⟩) hvisible

/-- The step lemma. -/
theorem ChallengeSound.step (h : (authService config).Reaches ok
      (Pool.init (AuthState.init users)) σ) (hσ : ChallengeSound challengeId σ)
    (hfresh : ∀ σ e, ok σ e → FreshIds challengeId σ e)
    (hlive : ∀ σ e, ok σ e → RewritesLive challengeId σ e)
    (hstep : (authService config).Steps ok σ σ') : ChallengeSound challengeId σ' := by
  cases hstep.moves with
  | spawn call hok hshared hthreads hhistory =>
      refine ⟨?_, ?_, ?_⟩
      · rw [hhistory]
        exact hσ.fresh
      · rw [hshared]
        exact hσ.recorded
      · rw [hshared, hhistory]
        exact hσ.alive
  | environment x hok hshared hthreads hhistory =>
      have hkeeps : σ.shared.redis.KeepsChallenges challengeId σ'.shared.redis := by
        rw [hshared]
        cases x with
        | tick n => exact ⟨Nat.le_add_right _ _, fun _ _ h => h, fun _ _ => rfl⟩
        | evict key =>
            refine .del ?_
            rintro userId rfl
            exact hfresh _ _ hok
      refine ⟨?_, fun _ _ => hσ.recorded_keeps hkeeps, ?_⟩
      · rw [hhistory]
        exact hσ.fresh
      · rw [hhistory]
        exact fun p hp => hσ.alive p (hkeeps.get hp)
  | exec e he =>
      refine ⟨?_, fun p expiresAt hcell hlt => ?_, ?_⟩
      · rw [he.history]
        exact hσ.fresh_step hfresh he
      · rcases challenges_step challengeId h he with
          hkeeps | ⟨o, userId, id, payload, -, -, -, howner, hredis⟩
        · exact hσ.recorded_keeps hkeeps hcell hlt
        · rw [hredis] at hcell hlt ⊢
          exact hσ.recorded_creates howner hcell (CREATE_LOGIN_CHALLENGE_LUA_now _ _ _ _ ▸ hlt)
      · rw [he.history]
        exact fun p hp => hσ.alive_fires h hlive he hp

theorem challengeSound (hfresh : ∀ σ e, ok σ e → FreshIds challengeId σ e)
    (hlive : ∀ σ e, ok σ e → RewritesLive challengeId σ e)
    (h : (authService config).Reaches ok (Pool.init (AuthState.init users)) σ) :
    ChallengeSound challengeId σ := by
  induction h with
  | refl => exact ⟨nofun, nofun, nofun⟩
  | tail hrun hstep ih => exact ih.step hrun hfresh hlive hstep

end

/-- What the steps of a run may be when the worker rewrites the challenge only while it is
alive. -/
def KeepsDead (challengeId : String) (σ : AuthPool) (e : AuthEvent) : Prop :=
  FreshIds challengeId σ e ∧ RewritesLive challengeId σ e

/-- The work for a dead challenge leaves the others alone. -/
theorem leaves_other_challenges {config : AuthConfig} {σ σ' : AuthPool} {challengeId id : String}
    {e : AuthEntry} {call : AuthCall} (hdead : dead σ.history challengeId = true)
    (he : (authService config).Fires (KeepsDead challengeId) e σ σ')
    (hcall : σ.call? e.thread = some call)
    (hmay : LoginMay config call (traceOf σ.history e.thread) e.command)
    (hworks : call.worksFor challengeId) (hid : id ≠ challengeId) :
    σ'.shared.redis.get (.loginChallenge id) = σ.shared.redis.get (.loginChallenge id) := by
  obtain ⟨o, ho, hexec⟩ := he.exec
  rcases (exec_acts hexec).redis with hredis | ⟨c, hc, hredis⟩
  · rw [hredis]
  by_cases hrefused : ∃ e, o.fault = .refused e
  · rw [exec_refused hrefused hexec]
  rw [hredis]
  rw [hc] at hmay
  refine RedisCommand.get_apply_of_not_writes σ.shared.redis ?_
  cases c with
  | createLoginChallenge userId rewritten payload =>
      cases call with
      | processLogin data =>
          obtain ⟨-, -, -, hdata, -⟩ := hmay
          obtain rfl := Option.some.inj (hdata.symm.trans hworks)
          have hcreated : e.command.created? = some rewritten := by rw [hc]; rfl
          rw [ho.2 hrefused (rewrites?_eq_some hcall he hcreated)] at hdead
          cases hdead
      | completeLogin input => exact hmay.2.2.2.elim
      | _ => exact hworks.elim
  | consumeLoginChallenge consumed codeHmac nowMs =>
      obtain ⟨-, input, rfl, rfl, -⟩ := hmay
      obtain rfl : input.challengeId = challengeId := hworks
      exact fun heq => hid (RedisKey.loginChallenge.inj heq)
  | _ =>
      refine RedisCommand.Ordinary.not_writes_challenge ?_ id
      exact hmay

/-- A step does not start the challenge again once it is dead. -/
theorem dead_step {config : AuthConfig} {users : List AccountRecord} {σ σ' : AuthPool}
    {challengeId : String}
    (h : (authService config).Reaches (KeepsDead challengeId) (Pool.init (AuthState.init users)) σ)
    (hdead : dead σ.history challengeId = true) {e : AuthEntry}
    (he : (authService config).Fires (KeepsDead challengeId) e σ σ') :
    dead (e :: σ.history) challengeId = true := by
  have hσ := challengeSound (fun _ _ h => h.1) (fun _ _ h => h.2) h
  rw [dead, Bool.or_eq_true] at hdead
  rw [dead, Bool.or_eq_true]
  rcases hdead with hconsumed | hsuperseded
  · exact .inl (by rw [List.any_cons, hconsumed, Bool.or_true])
  obtain ⟨⟨owner, id⟩, hstarted, hx⟩ := List.any_eq_true.1 hsuperseded
  simp only [Bool.and_eq_true, beq_iff_eq, bne_iff_ne] at hx
  obtain ⟨rfl, hnewest⟩ := hx
  refine .inr (List.any_eq_true.2 ⟨(owner, id), List.mem_append_right _ hstarted, ?_⟩)
  simp only [Bool.and_eq_true, beq_iff_eq, bne_iff_ne, true_and]
  cases hstarts : starts? σ.history e with
  | none => rwa [newest_cons_of_none hstarts]
  | some x =>
      obtain ⟨userId, newer⟩ := x
      rw [newest_cons_of_some hstarts]
      split
      · rintro ⟨⟩
        obtain ⟨-, payload, hentry⟩ := starts?_eq_some hstarts
        obtain ⟨o, ho, hexec⟩ := he.exec
        rw [hentry] at he hexec
        have heffect : ¬ ∃ e, o.fault = .refused e := by
          rintro ⟨fault, hfault⟩
          have hreply : (o.fault.apply σ.shared (execRedis
              (.createLoginChallenge userId id payload) σ.shared)).1 = .ok () :=
            (Prod.mk.inj (Option.some.inj hexec)).1
          rw [hfault] at hreply
          cases hreply
        have halive := not_dead_of_creates h hσ he ho.2 heffect
        rw [dead, hsuperseded, Bool.or_true] at halive
        cases halive
      · exact hnewest

theorem dead_reaches {config : AuthConfig} {users : List AccountRecord} {σ σ' : AuthPool}
    {challengeId : String}
    (h : (authService config).Reaches (KeepsDead challengeId) (Pool.init (AuthState.init users)) σ)
    (hdead : dead σ.history challengeId = true)
    (hlater : (authService config).Reaches (KeepsDead challengeId) σ σ') :
    dead σ'.history challengeId = true := by
  induction hlater with
  | refl => exact hdead
  | tail hrun hstep ih =>
      cases hstep.moves with
      | spawn call hok hshared hthreads hhistory => rwa [hhistory]
      | environment x hok hshared hthreads hhistory => rwa [hhistory]
      | exec e he =>
          rw [he.history]
          exact dead_step (h.trans hrun) ih he

/-- While the worker rewrites a challenge only as long as it is alive, the challenge is
never consumed again once it has been consumed or superseded, and the calls that work
for it leave every other challenge alone. -/
theorem dead_challenges_stay_dead (config : AuthConfig) (users : List AccountRecord)
    {σ₁ σ σ' : AuthPool} {challengeId : String} {e : AuthEntry}
    (h₁ : (authService config).Reaches (KeepsDead challengeId)
      (Pool.init (AuthState.init users)) σ₁)
    (hdead : dead σ₁.history challengeId = true)
    (hlater : (authService config).Reaches (KeepsDead challengeId) σ₁ σ)
    (he : (authService config).Fires (KeepsDead challengeId) e σ σ') :
    consumed? e ≠ some challengeId ∧
      ∀ call, σ.call? e.thread = some call → call.worksFor challengeId →
        ∀ id ≠ challengeId,
          σ'.shared.redis.get (.loginChallenge id) = σ.shared.redis.get (.loginChallenge id) := by
  have h := h₁.trans hlater
  have hdead := dead_reaches h₁ hdead hlater
  have hσ := challengeSound (fun _ _ h => h.1) (fun _ _ h => h.2) h
  obtain ⟨call, rest, hthread, hmay⟩ := he.allowed (LoginMay config) (LoginEnds config) h
    fun _ call _ => body_course config call
  obtain ⟨o, -, hexec⟩ := he.exec
  constructor
  · intro hconsumed
    obtain ⟨codeHmac, now, userId, hentry⟩ := consumed?_eq_some hconsumed
    rw [hentry] at hexec
    obtain ⟨payload, hvisible, -⟩ := CONSUME_LOGIN_CHALLENGE_LUA_consumed
      (Prod.mk.inj (exec_redis_ok (c := .consumeLoginChallenge challengeId codeHmac now)
        hexec).1).1
    rw [hσ.alive _ hvisible] at hdead
    cases hdead
  · intro call' hcall hworks id hid
    have hcall' := hcall
    rw [Pool.call?, hthread] at hcall
    obtain rfl : call = call' := Option.some.inj hcall
    exact leaves_other_challenges hdead he hcall' hmay hworks hid

/-! ### Two runs -/

/-- A step of call `k`, which draws `id` when it draws. -/
def drawing (k : ℕ) (id : String) : AuthEvent := .exec k ⟨⟨1, 1, 1, id, id⟩, id, .none⟩

/-- A login of `u` that draws the challenge `id` and the issuance `issuance`, started as
call `k`. -/
def loginEvents (k : ℕ) (id issuance : String) : List AuthEvent :=
  .spawn (.startLogin ⟨"u@example.com", examplePassword⟩ "") :: steps k id 4 ++
    drawing k issuance :: steps k id 5

/-- Two logins, one after the other. -/
def twoLogins : AuthPool :=
  (authService exampleConfig).after (loginEvents 0 "a" "i" ++ loginEvents 1 "b" "j")
    (Pool.init (AuthState.init [passwordUser]))

/-- The worker takes up the job of the first login before the second one starts. -/
def overtakenAttempt : AuthPool :=
  (authService exampleConfig).after
    (loginEvents 0 "a" "i" ++
      .spawn (.processLogin ⟨.login, "i", none, some "a"⟩) :: steps 1 "code" 6 ++
      loginEvents 2 "b" "j")
    (Pool.init (AuthState.init [passwordUser]))

instance decidableFreshIds (challengeId : String) : ∀ σ e, Decidable (FreshIds challengeId σ e)
  | σ, .exec k o => inferInstanceAs (Decidable ((σ.next? k).any AuthStep.drawsId = true →
      ∀ x ∈ drawnIds σ.history, x.2 ≠ o.generated))
  | σ, .environment (.evict (.loginChallengeAccount userId)) =>
      inferInstanceAs (Decidable (σ.shared.redis.currentChallenge userId ≠ some challengeId))
  | _, .environment (.evict (.issuance _ _)) => isTrue trivial
  | _, .environment (.evict (.loginChallenge _)) => isTrue trivial
  | _, .environment (.evict (.counter _)) => isTrue trivial
  | _, .environment (.evict (.loginLock _)) => isTrue trivial
  | _, .environment (.evict (.session _)) => isTrue trivial
  | _, .environment (.tick _) => isTrue trivial
  | _, .spawn _ => isTrue trivial

instance decidableRewritesLive (challengeId : String) :
    ∀ σ e, Decidable (RewritesLive challengeId σ e)
  | σ, .exec k o => inferInstanceAs (Decidable ((¬ ∃ e, o.fault = .refused e) →
      rewrites? σ k = some challengeId → dead σ.history challengeId = false))
  | _, .environment _ => isTrue trivial
  | _, .spawn _ => isTrue trivial

instance decidableKeepsDead (challengeId : String) (σ : AuthPool) (e : AuthEvent) :
    Decidable (KeepsDead challengeId σ e) := inferInstanceAs (Decidable (_ ∧ _))

/-- A `completeLogin` that consumes the first challenge is started as call `k` and makes
`n` steps. -/
def consuming (k n : ℕ) (σ : AuthPool) : AuthPool :=
  (authService exampleConfig).after (.spawn (.completeLogin ⟨"a", "code"⟩) :: steps k "x" n) σ

def consumption (k : ℕ) (result : ConsumeLoginChallengeResult) : AuthEntry :=
  ⟨k, .redis (.consumeLoginChallenge "a" "#code" 0), Except.ok result⟩

set_option maxRecDepth 4000 in
theorem superseded_challenge_is_refused :
    (authService exampleConfig).Fires (KeepsDead "a") (consumption 2 .missing)
        (consuming 2 2 twoLogins) (consuming 2 3 twoLogins) ∧
      dead twoLogins.history "a" = true ∧
      (consuming 2 3 twoLogins).shared.redis.get (.loginChallenge "b") =
        (consuming 2 2 twoLogins).shared.redis.get (.loginChallenge "b") := by
  have hok : KeepsDead "a" (consuming 2 2 twoLogins)
      (.exec 2 ⟨⟨1, 1, 1, "x", "x"⟩, "x", .none⟩) := by
    decide +kernel
  have hfires : (authService exampleConfig).Fires (KeepsDead "a") (consumption 2 .missing)
      (consuming 2 2 twoLogins) (consuming 2 3 twoLogins) :=
    ⟨⟨_, hok, rfl⟩, ⟨_, _, rfl, rfl⟩, rfl⟩
  have hdead : dead twoLogins.history "a" = true := by decide +kernel
  have hlogins : (authService exampleConfig).Reaches (KeepsDead "a")
      (Pool.init (AuthState.init [passwordUser])) twoLogins :=
    Semantics.reaches_after _ (by decide +kernel)
  have hlater : (authService exampleConfig).Reaches (KeepsDead "a") twoLogins
      (consuming 2 2 twoLogins) := Semantics.reaches_after _ (by decide +kernel)
  exact ⟨hfires, hdead, (dead_challenges_stay_dead exampleConfig [passwordUser] hlogins hdead
    hlater hfires).2 (.completeLogin ⟨"a", "code"⟩) (by decide +kernel) rfl "b" (by decide)⟩

/-- The attempt rewrites the first challenge. -/
def afterRewrite : AuthPool :=
  (authService exampleConfig).after (steps 1 "code" 1) overtakenAttempt

set_option maxRecDepth 4000 in
/-- The first challenge is superseded while an attempt of the worker is under way: the
attempt deletes the newer challenge, which the second login has returned, and the first
one is consumed after all. -/
theorem overtaken_attempt_revives_challenge :
    (authService exampleConfig).Reaches (FreshIds "a") (Pool.init (AuthState.init [passwordUser]))
        overtakenAttempt ∧
      overtakenAttempt.result? 2 = some (.ok (.challenge ⟨"b", 3600000⟩)) ∧
      dead overtakenAttempt.history "a" = true ∧
      (authService exampleConfig).Reaches (FreshIds "a") overtakenAttempt afterRewrite ∧
      (overtakenAttempt.shared.redis.get (.loginChallenge "b")).isSome ∧
      afterRewrite.shared.redis.get (.loginChallenge "b") = none ∧
      (authService exampleConfig).Reaches (FreshIds "a") afterRewrite (consuming 3 4 afterRewrite) ∧
      (authService exampleConfig).Fires (FreshIds "a") (consumption 3 (.consumed "u"))
        (consuming 3 4 afterRewrite) (consuming 3 5 afterRewrite) := by
  have hok : FreshIds "a" (consuming 3 4 afterRewrite)
      (.exec 3 ⟨⟨1, 1, 1, "x", "x"⟩, "x", .none⟩) := by
    decide +kernel
  exact ⟨Semantics.reaches_after _ (by decide +kernel), by decide +kernel, by decide +kernel,
    Semantics.reaches_after _ (by decide +kernel), by decide +kernel, rfl,
    Semantics.reaches_after _ (by decide +kernel), ⟨⟨_, hok, rfl⟩, ⟨_, _, rfl, rfl⟩, rfl⟩⟩

end Auth

end Shortlink

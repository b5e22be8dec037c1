import Shortlink.Auth.DeadChallenges
import Shortlink.Expiring.History

/-!
# One live login challenge

A challenge and the key of its account expire at the same instant (`Named`), so the script
that creates a challenge finds the live one of the account and deletes it. A consumed
challenge is gone until it is created again.
-/

namespace Shortlink

namespace Auth

open Shortlink.Expiring

/-- The methods on challenges execute these commands, a challenge id always for one user.
Other commands leave the entries of the challenges alone. -/
def RedisCommand.UsesChallenges (owner : String → String) : RedisCommand → Prop
  | .createLoginChallenge userId challengeId payload =>
      payload.userId = userId ∧ owner challengeId = userId
  | .consumeLoginChallenge _ _ _ => True
  | c => c.Ordinary

theorem RedisCommand.UsesChallenges.of_create {owner : String → String}
    {userId challengeId : String} {payload : LoginChallengePayload}
    (hpayload : payload.userId = userId) (howner : owner challengeId = userId) :
    (RedisCommand.createLoginChallenge userId challengeId payload).UsesChallenges owner :=
  ⟨hpayload, howner⟩

/-- `createLoginChallenge` is such a command for the owner of the challenge. -/
theorem createLoginChallenge_eq (config : AuthConfig) (userId challengeId code : String)
    (expiresAt : ℕ) : ∃ payload,
      RedisAuthStateService.createLoginChallenge config userId challengeId code expiresAt =
        AuthProgram.redis (.createLoginChallenge userId challengeId payload) ∧
      ∀ owner, owner challengeId = userId →
        (RedisCommand.createLoginChallenge userId challengeId payload).UsesChallenges owner :=
  ⟨_, rfl, fun _ howner => .of_create rfl howner⟩

/-- A live challenge is one of its owner, and it is named by the key of the account. -/
def Named (owner : String → String) (redis : Redis) : Prop :=
  ∀ challengeId (payload : LoginChallengePayload) expiresAt,
    redis.cell (.loginChallenge challengeId) = some (payload, expiresAt) →
      redis.now < expiresAt → payload.userId = owner challengeId ∧
        redis.cell (.loginChallengeAccount payload.userId) = some (challengeId, expiresAt)

def consumes (challengeId : String) : Executed RedisCommand RedisCommand.Res → Bool
  | ⟨_, .consumeLoginChallenge id _ _, .consumed _⟩ => id == challengeId
  | _ => false

def creates (challengeId : String) : Executed RedisCommand RedisCommand.Res → Bool
  | ⟨_, .createLoginChallenge _ id _, _⟩ => id == challengeId
  | _ => false

section

variable {owner : String → String} {redis redis' : Redis} {c : RedisCommand}
  {l : List (Executed RedisCommand RedisCommand.Res)}

theorem Named.keeps (h : Named owner redis)
    (hkeeps : ∀ challengeId, redis.KeepsChallenges challengeId redis') :
    Named owner redis' := by
  intro challengeId payload expiresAt hcell hlive
  have hlive' := Nat.lt_of_le_of_lt (hkeeps challengeId).now hlive
  obtain ⟨howner, haccount⟩ := h challengeId payload expiresAt
    ((hkeeps challengeId).challenge challengeId _ hcell) hlive'
  have hcurrent : redis.currentChallenge payload.userId = some challengeId :=
    visible_eq_some_iff.2 ⟨expiresAt, haccount, hlive'⟩
  exact ⟨howner, ((hkeeps challengeId).account payload.userId hcurrent).trans haccount⟩

/-- A command that creates no challenge lets challenges disappear at most. -/
theorem RedisCommand.UsesChallenges.keepsChallenges (hc : c.UsesChallenges owner)
    (hcreate : ∀ userId challengeId payload,
      c ≠ .createLoginChallenge userId challengeId payload) (id : String) :
    redis.KeepsChallenges id (c.apply redis).2 := by
  cases c with
  | createLoginChallenge userId challengeId payload => exact absurd rfl (hcreate _ _ _)
  | consumeLoginChallenge challengeId codeHmac nowMs =>
      exact CONSUME_LOGIN_CHALLENGE_LUA_keepsChallenges challengeId codeHmac nowMs
  | _ => exact RedisCommand.Ordinary.keepsChallenges hc

theorem Named.create (h : Named owner redis) {userId challengeId : String}
    {payload : LoginChallengePayload} (hpayload : payload.userId = userId)
    (howner : owner challengeId = userId) :
    Named owner (CREATE_LOGIN_CHALLENGE_LUA userId challengeId payload redis) := by
  intro id p expiresAt hcell hlive
  rw [CREATE_LOGIN_CHALLENGE_LUA_now] at hlive
  by_cases hid : id = challengeId
  · subst hid
    obtain ⟨rfl, rfl⟩ := Prod.mk.inj
      (Option.some.inj (CREATE_LOGIN_CHALLENGE_LUA_cell_challenge.symm.trans hcell))
    exact ⟨hpayload.trans howner.symm, hpayload ▸ CREATE_LOGIN_CHALLENGE_LUA_cell_account⟩
  · -- an older challenge that is still there is not the one the account names
    obtain ⟨hold, hcurrent⟩ := CREATE_LOGIN_CHALLENGE_LUA_cell_of_ne hid hcell
    obtain ⟨hid', haccount⟩ := h id p expiresAt hold hlive
    have hne : p.userId ≠ userId := fun heq =>
      hcurrent (visible_eq_some_iff.2 ⟨expiresAt, heq ▸ haccount, hlive⟩)
    refine ⟨hid', (RedisCommand.cell_apply_of_not_writes
      (c := .createLoginChallenge userId challengeId payload) redis ?_).trans haccount⟩
    rintro (⟨id', hkey⟩ | hkey)
    · cases hkey
    · exact hne (RedisKey.loginChallengeAccount.inj hkey)

/-- Every command keeps the live challenges named. -/
theorem Named.exec (h : Named owner redis) (hc : c.UsesChallenges owner) :
    Named owner (c.apply redis).2 := by
  by_cases hcreate : ∃ userId challengeId payload,
      c = .createLoginChallenge userId challengeId payload
  · obtain ⟨userId, challengeId, payload, rfl⟩ := hcreate
    exact h.create hc.1 hc.2
  · exact h.keeps (hc.keepsChallenges fun userId challengeId payload heq =>
      hcreate ⟨userId, challengeId, payload, heq⟩)

theorem consumes_eq {challengeId : String} {e : Executed RedisCommand RedisCommand.Res}
    (h : consumes challengeId e = true) : ∃ time codeHmac nowMs userId,
      e = ⟨time, .consumeLoginChallenge challengeId codeHmac nowMs,
        ConsumeLoginChallengeResult.consumed userId⟩ := by
  unfold consumes at h
  split at h
  · rw [eq_of_beq h]
    exact ⟨_, _, _, _, rfl⟩
  · cases h

theorem consumes_visible {challengeId : String}
    (h : consumes challengeId ⟨redis.now, c, (c.apply redis).1⟩ = true) :
    redis.get (.loginChallenge challengeId) ≠ none ∧
      (c.apply redis).2.get (.loginChallenge challengeId) = none := by
  obtain ⟨time, codeHmac, nowMs, userId, heq⟩ := consumes_eq h
  obtain rfl : c = .consumeLoginChallenge challengeId codeHmac nowMs :=
    congrArg Executed.command heq
  have hconsumed := eq_of_heq (Executed.mk.inj heq).2.2
  obtain ⟨payload, hget, -, -, hdel⟩ := CONSUME_LOGIN_CHALLENGE_LUA_consumed hconsumed
  refine ⟨hget ▸ nofun, ?_⟩
  exact (congrArg (fun redis : Redis => redis.get (.loginChallenge challengeId)) hdel).trans
    (Store.get_del_self redis _)

/-- The challenge has been consumed and not been created again. -/
def Spent (challengeId : String) (l : List (Executed RedisCommand RedisCommand.Res)) : Prop :=
  ∃ l₁ e l₂, l = l₁ ++ e :: l₂ ∧ consumes challengeId e = true ∧
    ∀ e' ∈ l₂, creates challengeId e' = false

/-- What has been consumed is not visible. -/
def SpentGone (l : List (Executed RedisCommand RedisCommand.Res)) (redis : Redis) : Prop :=
  ∀ challengeId, Spent challengeId l → redis.get (.loginChallenge challengeId) = none

theorem SpentGone.exec (h : SpentGone l redis) (hc : c.UsesChallenges owner) :
    SpentGone (l ++ [⟨redis.now, c, (c.apply redis).1⟩]) (c.apply redis).2 := by
  rintro challengeId ⟨l₁, e, l₂, hl, he, hlater⟩
  rcases List.eq_nil_or_concat l₂ with rfl | ⟨l₂, x, rfl⟩
  · obtain ⟨-, hx⟩ := List.append_inj' hl rfl
    obtain rfl := (List.cons.inj hx).1
    exact (consumes_visible he).2
  · rw [List.concat_eq_append] at hl hlater
    rw [← List.cons_append, ← List.append_assoc] at hl
    obtain ⟨rfl, hx⟩ := List.append_inj' hl rfl
    obtain rfl := (List.cons.inj hx).1
    have hgone := h challengeId ⟨l₁, e, l₂, rfl, he, fun e' he' =>
      hlater e' (List.mem_append_left _ he')⟩
    have hset : ∀ id p ttlSeconds, c ≠ .set (.loginChallenge id) p ttlSeconds := by
      rintro id p ttlSeconds rfl
      exact hc
    refine Option.eq_none_iff_forall_ne_some.2 fun payload hget => ?_
    rcases RedisCommand.get_challenge_apply hset hget with hold | ⟨userId, rfl⟩
    · exact nomatch hgone.symm.trans hold
    · have hcreates : (challengeId == challengeId) = false :=
        hlater _ (List.mem_append_right _ List.mem_cons_self)
      rw [beq_self_eq_true] at hcreates
      cases hcreates

end

/-- However challenges are created, consumed and expire, each user has at most one that is
live, which the key of the account names, and a challenge is consumed once before it is
created again. -/
theorem one_live_challenge (owner : String → String) (start : ℕ)
    (moments : List (Moment RedisCommand))
    (hmay : ∀ c, .exec c ∈ moments → c.UsesChallenges owner) :
    (∀ challengeId (payload : LoginChallengePayload),
      (after RedisCommand.apply moments (Store.empty start)).get (.loginChallenge challengeId) =
        some payload → payload.userId = owner challengeId ∧
          Redis.currentChallenge (after RedisCommand.apply moments (Store.empty start))
            payload.userId = some challengeId) ∧
    (∀ id id' (payload payload' : LoginChallengePayload),
      (after RedisCommand.apply moments (Store.empty start)).get (.loginChallenge id) =
        some payload →
      (after RedisCommand.apply moments (Store.empty start)).get (.loginChallenge id') =
        some payload' → payload.userId = payload'.userId → id = id') ∧
    ∀ challengeId l₁ e l₂ e' l₃,
      log RedisCommand.apply moments (Store.empty start) = l₁ ++ e :: (l₂ ++ e' :: l₃) →
        consumes challengeId e = true → consumes challengeId e' = true →
          ∃ e'' ∈ l₂, creates challengeId e'' = true := by
  have hnamed : Named owner (after RedisCommand.apply moments (Store.empty start)) :=
    log_invariant (P := fun _ redis => Named owner redis) (fun _ _ _ hcell => nomatch hcell)
      (fun _ redis n h =>
        h.keeps fun _ => ⟨Nat.le_add_right _ n, fun _ _ h => h, fun _ _ => rfl⟩)
      (fun _ _ _ hc h => h.exec hc) hmay
  have hcurrent : ∀ challengeId (payload : LoginChallengePayload),
      (after RedisCommand.apply moments (Store.empty start)).get (.loginChallenge challengeId) =
        some payload → payload.userId = owner challengeId ∧
          Redis.currentChallenge (after RedisCommand.apply moments (Store.empty start))
            payload.userId = some challengeId := by
    intro challengeId payload hget
    obtain ⟨expiresAt, hcell, hlive⟩ := visible_eq_some_iff.1 hget
    obtain ⟨howner, haccount⟩ := hnamed challengeId payload expiresAt hcell hlive
    exact ⟨howner, visible_eq_some_iff.2 ⟨expiresAt, haccount, hlive⟩⟩
  refine ⟨hcurrent, fun id id' payload payload' hget hget' huser => ?_,
    fun challengeId l₁ e l₂ e' l₃ hlog he he' => ?_⟩
  · have hid := (hcurrent id payload hget).2
    rw [huser] at hid
    exact Option.some.inj (hid.symm.trans (hcurrent id' payload' hget').2)
  · by_contra hnone
    have hspent : Spent challengeId (l₁ ++ e :: l₂) := ⟨l₁, e, l₂, rfl, he, fun e'' he'' =>
      Bool.eq_false_iff.2 fun hcreates => hnone ⟨e'', he'', hcreates⟩⟩
    have hsplit : log RedisCommand.apply moments (Store.empty start) =
        (l₁ ++ e :: l₂) ++ e' :: l₃ := by
      rw [hlog]
      simp
    obtain ⟨redis, hgone, -, htime, hreply⟩ := log_entry
      (P := fun l redis => SpentGone l redis) (fun _ ⟨l₁, _, _, hl, _⟩ => by cases l₁ <;> cases hl)
      (fun _ _ n h challengeId hspent => Option.eq_none_iff_forall_ne_some.2 fun payload hlater =>
        nomatch (h challengeId hspent).symm.trans (Store.get_tick_eq_some hlater))
      (fun _ _ _ hc h => h.exec hc) hmay hsplit
    obtain ⟨time, c, r⟩ := e'
    obtain rfl : time = redis.now := htime
    obtain rfl : r = (c.apply redis).1 := hreply
    exact (consumes_visible he').1 (hgone challengeId hspent)

/-- A challenge of a user is created, and another one. -/
def challengesOfUser : List (Moment RedisCommand) :=
  [.exec (.createLoginChallenge "u" "a" ⟨"u", "#1", 600000, false⟩), .tick 1000,
    .exec (.createLoginChallenge "u" "b" ⟨"u", "#2", 601000, false⟩)]

theorem second_challenge_live :
    Redis.currentChallenge (after RedisCommand.apply challengesOfUser (Store.empty 0)) "u" =
      some "b" := by
  have huses : ∀ c, .exec c ∈ challengesOfUser → c.UsesChallenges fun _ => "u" := by
    intro c hc
    simp only [challengesOfUser, List.mem_cons, Moment.exec.injEq, reduceCtorEq, false_or,
      List.not_mem_nil, or_false] at hc
    obtain heq | heq := hc
    · rw [heq]
      exact .of_create rfl rfl
    · rw [heq]
      exact .of_create rfl rfl
  have hlive : (after RedisCommand.apply challengesOfUser (Store.empty 0)).get
      (.loginChallenge "b") = some ⟨"u", "#2", 601000, false⟩ := by
    simp only [challengesOfUser, after, RedisCommand.apply]
    exact CREATE_LOGIN_CHALLENGE_LUA_get_self
  exact ((one_live_challenge (fun _ => "u") 0 challengesOfUser huses).1 "b" _ hlive).2

end Auth

end Shortlink

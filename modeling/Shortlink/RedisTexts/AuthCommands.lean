import Mathlib.Algebra.Order.Field.Rat
import Mathlib.Data.Nat.Cast.Order.Ring
import Shortlink.RedisTexts.Readings

/-!
# The auth state on texts

Each command of the auth state does on the texts what it does on the typed entries
(`authCommand_simulates`).
-/

namespace Shortlink

namespace RedisTexts

open Shortlink.Json Shortlink.Expiring Shortlink.Auth Shortlink.Account

section

variable {n : ℕ} {texts : Keyspace} {redis : Redis}

abbrev AuthTexts (n : ℕ) (texts : Keyspace) (redis : Redis) : Prop :=
  Represents authKey AuthUsed (AuthReads n) texts redis

theorem AuthTexts.later (h : AuthTexts n texts redis) : AuthTexts (n + 1) texts redis :=
  h.mono fun key text v hreads => AuthReads.mono (Nat.le_succ n) key text v hreads

theorem isAuthKey_authKey {key : RedisKey} (h : AuthUsed key) : IsAuthKey (authKey key) :=
  ⟨key, h, rfl⟩

/-- A value is stored as a text that reads as it. -/
theorem AuthTexts.setEx (h : AuthTexts n texts redis) {key : RedisKey} (hkey : AuthUsed key)
    {text : String} {v : key.Value} (hreads : AuthReads n key text v) {ttlSeconds : ℕ}
    (httl : 0 < ttlSeconds) :
    ∃ texts', texts.setEx (authKey key) text ttlSeconds = some texts' ∧
      AuthTexts n texts' (redis.setEx key v ttlSeconds) ∧
      Keyspace.ChangesOnly IsAuthKey texts texts' := by
  obtain ⟨texts', hset, h'⟩ := Expiring.Represents.setEx authKey_inj h hkey hreads httl
  exact ⟨texts', hset, h', Keyspace.changesOnly_setEx (isAuthKey_authKey hkey) hset⟩

theorem AuthTexts.del (h : AuthTexts n texts redis) {key : RedisKey} (hkey : AuthUsed key) :
    AuthTexts n (texts.del (authKey key)) (redis.del key) ∧
      Keyspace.ChangesOnly IsAuthKey texts (texts.del (authKey key)) :=
  ⟨Expiring.Represents.del authKey_inj h hkey,
    Keyspace.changesOnly_put (isAuthKey_authKey hkey)⟩

/-! ### Reading -/

theorem get_simulates (h : AuthTexts n texts redis) {key : RedisKey} (hkey : AuthUsed key) :
    (match texts.get (authKey key) with
      | none => some (none, texts)
      | some raw => (readAuthValue key raw).map fun v => (some v, texts)) =
      some (redis.get key, texts) := by
  cases hget : redis.get key with
  | none => rw [h.get_eq_none hkey hget]
  | some v =>
      obtain ⟨text, htext, hreads⟩ := h.get_eq_some hkey hget
      rw [htext]
      simp only [readAuthValue_of_reads hreads, Option.map_some]

/-! ### Counters -/

theorem incrementExpiring_simulates (h : AuthTexts n texts redis) {key : CounterKey}
    (hkey : AuthUsed (.counter key)) (hn : n < Keyspace.INCR_LIMIT) (ttlSeconds : ℕ) :
    Keyspace.Simulates (AuthTexts (n + 1)) IsAuthKey texts
      (incrementExpiring (authKey (.counter key)) ttlSeconds texts)
      (redis.incrEx key ttlSeconds) := by
  rw [Redis.incrEx]
  cases hcount : redis.count key with
  | none =>
      have hget := h.get_eq_none hkey hcount
      refine ⟨texts.put (authKey (.counter key)) (some ("1", some (texts.now + ttlSeconds * 1000))),
        ?_, ?_, Keyspace.changesOnly_put (isAuthKey_authKey hkey)⟩
      · rw [incrementExpiring, Keyspace.incr, hget]
        have hnew : (texts.put (authKey (.counter key)) (some ("1", none))).get
            (authKey (.counter key)) = some "1" := by
          rw [Keyspace.get, Keyspace.cell_put_self]
        simp only [Option.bind_eq_bind, Option.bind_some, if_true, Keyspace.expire, hnew,
          Keyspace.put_put, Keyspace.now_put, Option.pure_def]
      · refine (AuthTexts.later h).put authKey_inj hkey rfl ?_ fun _ hne =>
          redis.cell_set_of_ne _ _ hne
        have hcell := redis.cell_set_self (k := .counter key) (1 : ℕ) (ttlSeconds * 1000)
        have hone : "1" = Nat.repr 1 := by decide
        rw [← h.now] at hcell
        exact hcell ▸ .some ⟨⟨hone, Nat.one_pos, Nat.le_add_left 1 n⟩, rfl⟩
  | some count =>
      obtain ⟨text, hget, rfl, hpos, hle⟩ := h.get_eq_some hkey hcount
      refine ⟨texts.setKeepTtl (authKey (.counter key)) (Nat.repr (count + 1)), ?_, ?_,
        Keyspace.changesOnly_put (isAuthKey_authKey hkey)⟩
      · have hlt : count < Keyspace.INCR_LIMIT := Nat.lt_of_le_of_lt hle hn
        have hone : ¬ count + 1 = 1 := by omega
        rw [incrementExpiring, Keyspace.incr, hget]
        simp only [Option.bind_eq_bind, Option.bind_some, Keyspace.natural?_repr, if_pos hlt,
          if_neg hone, Option.pure_def]
      · exact (AuthTexts.later h).setKeepTtl authKey_inj hkey hcount
          ⟨rfl, Nat.succ_pos count, Nat.succ_le_succ hle⟩

theorem incrementFailedLogin_simulates (h : AuthTexts n texts redis) {userId : String}
    (huser : IsUuid userId) (hn : n < Keyspace.INCR_LIMIT) (lua : LuaRuntime) :
    Keyspace.Simulates (AuthTexts (n + 1)) IsAuthKey texts
      (authCommand lua (.incrementFailedLogin userId) texts)
      (Auth.INCREMENT_FAILED_LOGIN_LUA userId redis) := by
  have hcounter : AuthUsed (.counter (.failedLogin userId)) := huser
  have hlock : AuthUsed (.loginLock userId) := huser
  obtain ⟨counted, hcounted, hafter, hchange⟩ :=
    incrementExpiring_simulates h hcounter hn TTL_ONE_HOUR_SECONDS
  have hscript : incrementExpiring (failedLoginKey userId) TTL_ONE_HOUR_SECONDS texts =
      some ((redis.incrEx (.failedLogin userId) TTL_ONE_HOUR_SECONDS).1, counted) := hcounted
  simp only [authCommand, RedisTexts.INCREMENT_FAILED_LOGIN_LUA, hscript, Option.bind_eq_bind,
    Option.bind_some, Auth.INCREMENT_FAILED_LOGIN_LUA]
  split
  · obtain ⟨locked, hset, hlocked, hchange'⟩ := hafter.setEx hlock
      (v := ()) rfl (show 0 < TTL_ONE_HOUR_SECONDS by decide)
    have hset' : counted.setEx (loginLockKey userId) "1" TTL_ONE_HOUR_SECONDS = some locked :=
      hset
    refine ⟨locked, ?_, hlocked, hchange.trans hchange'⟩
    simp only [hset', Option.bind_some, Option.pure_def, Option.map_some]
    rfl
  · exact ⟨counted, rfl, hafter, hchange⟩

/-! ### Challenges -/

theorem createLoginChallenge_simulates (h : AuthTexts n texts redis)
    {userId challengeId : String} {payload : LoginChallengePayload} (huser : IsUuid userId)
    (hchallenge : IsUuid challengeId) (hpayload : IsUuid payload.userId) (lua : LuaRuntime) :
    Keyspace.Simulates (AuthTexts n) IsAuthKey texts
      (authCommand lua (.createLoginChallenge userId challengeId payload) texts)
      ((), Auth.CREATE_LOGIN_CHALLENGE_LUA userId challengeId payload redis) := by
  have hstored : ∀ {cleared : Keyspace} {redis' : Redis}, AuthTexts n cleared redis' →
      Keyspace.ChangesOnly IsAuthKey texts cleared →
      Keyspace.Simulates (AuthTexts n) IsAuthKey texts
        ((do
          let stored ← cleared.setEx (loginChallengeKey challengeId)
            (stringify (challengeRecord payload)) TTL_ONE_HOUR_SECONDS
          stored.setEx (loginChallengeAccountKey userId) challengeId TTL_ONE_HOUR_SECONDS).map
          fun texts => ((), texts))
        ((), (redis'.setEx (.loginChallenge challengeId) payload TTL_ONE_HOUR_SECONDS).setEx
          (.loginChallengeAccount userId) challengeId TTL_ONE_HOUR_SECONDS) := by
    intro cleared redis' hcleared hchange
    have httl : 0 < TTL_ONE_HOUR_SECONDS := by decide
    have hkey : AuthUsed (.loginChallenge challengeId) := hchallenge
    have hkey' : AuthUsed (.loginChallengeAccount userId) := huser
    obtain ⟨stored, hset, hstored, hchange'⟩ := hcleared.setEx
      hkey (v := payload) ⟨rfl, hpayload⟩ httl
    obtain ⟨both, hset', hboth, hchange''⟩ := hstored.setEx
      hkey' (v := challengeId) ⟨rfl, hchallenge⟩ httl
    have hfirst : cleared.setEx (loginChallengeKey challengeId)
      (stringify (challengeRecord payload)) TTL_ONE_HOUR_SECONDS = some stored := hset
    have hsecond : stored.setEx (loginChallengeAccountKey userId) challengeId
      TTL_ONE_HOUR_SECONDS = some both := hset'
    refine ⟨both, ?_, hboth, (hchange.trans hchange').trans hchange''⟩
    simp only [hfirst, hsecond, Option.bind_eq_bind, Option.bind_some, Option.map_some]
  rw [authCommand, RedisTexts.CREATE_LOGIN_CHALLENGE_LUA, Auth.CREATE_LOGIN_CHALLENGE_LUA]
  have hkey : AuthUsed (.loginChallengeAccount userId) := huser
  cases hget : redis.get (.loginChallengeAccount userId) with
  | none =>
      have htext : texts.get (loginChallengeAccountKey userId) = none := h.get_eq_none hkey hget
      rw [htext]
      exact hstored h (Keyspace.ChangesOnly.refl texts)
  | some previous =>
      obtain ⟨text, htext, rfl, hprevious⟩ := h.get_eq_some hkey hget
      have htext' : texts.get (loginChallengeAccountKey userId) = some text := htext
      rw [htext']
      have hcleared := h.del (show AuthUsed (.loginChallenge text) from hprevious)
      exact hstored hcleared.1 hcleared.2

/-- What a script sees of a stored record. -/
theorem decodeTable_stringify (lua : LuaRuntime) (fields : Record) :
    decodeTable lua (stringify fields) = some fields.members := by
  rw [decodeTable, lua.decode_of_parse _ _ (parse_stringify fields)]

theorem get?_challengeRecord (payload : LoginChallengePayload) (name : String) (s : Scalar)
    (h : (name, s) ∈ challengeRecord payload) :
    (Value.object (challengeRecord payload).members).get? name = some s.value :=
  get?_record (by simp [challengeRecord]) name s h

theorem consumeLoginChallenge_simulates (h : AuthTexts n texts redis) {challengeId : String}
    (hchallenge : IsUuid challengeId) (lua : LuaRuntime) (codeHmac : String) (nowMs : ℕ) :
    Keyspace.Simulates (AuthTexts n) IsAuthKey texts
      (authCommand lua (.consumeLoginChallenge challengeId codeHmac nowMs) texts)
      (Auth.CONSUME_LOGIN_CHALLENGE_LUA challengeId codeHmac nowMs redis) := by
  have hkey : AuthUsed (.loginChallenge challengeId) := hchallenge
  obtain ⟨hdel, hdel'⟩ := h.del hkey
  have hsame : Keyspace.ChangesOnly IsAuthKey texts texts := Keyspace.ChangesOnly.refl texts
  rw [authCommand, RedisTexts.CONSUME_LOGIN_CHALLENGE_LUA, Auth.CONSUME_LOGIN_CHALLENGE_LUA]
  cases hget : redis.get (.loginChallenge challengeId) with
  | none =>
      have htext : texts.get (loginChallengeKey challengeId) = none :=
        h.get_eq_none hkey hget
      rw [htext]
      exact ⟨texts, rfl, h, hsame⟩
  | some payload =>
      obtain ⟨text, htext, rfl, huser⟩ := h.get_eq_some hkey hget
      have htext' : texts.get (loginChallengeKey challengeId) =
        some (stringify (challengeRecord payload)) := htext
      have hused := get?_challengeRecord payload "used" (.bool payload.used)
        (by simp [challengeRecord])
      have hcode := get?_challengeRecord payload "codeHmac" (.string payload.codeHmac)
        (by simp [challengeRecord])
      have hexpires := get?_challengeRecord payload "expiresAtMs"
        (.number payload.expiresAtMs) (by simp [challengeRecord])
      have hid := get?_challengeRecord payload "userId" (.string payload.userId)
        (by simp [challengeRecord])
      have hne : payload.userId ≠ "" := uuid_ne_empty huser
      rw [htext']
      simp only [decodeTable_stringify, Option.bind_eq_bind, Option.bind_some, hused, hcode,
        hexpires, hid, Scalar.value, truthy, equalsText, isPast, string?, Option.some.injEq,
        decide_eq_true_eq, Option.pure_def, Nat.cast_lt]
      by_cases hspent : payload.used = true
      · rw [if_pos hspent, if_pos hspent]
        exact ⟨texts, rfl, h, hsame⟩
      rw [if_neg hspent, if_neg hspent]
      by_cases hwrong : payload.codeHmac ≠ codeHmac
      · rw [if_pos hwrong, if_pos hwrong]
        exact ⟨texts, rfl, h, hsame⟩
      rw [if_neg hwrong, if_neg hwrong]
      by_cases hpast : payload.expiresAtMs < nowMs
      · rw [if_pos hpast, if_pos hpast]
        exact ⟨_, rfl, hdel, hdel'⟩
      rw [if_neg hpast, if_neg hpast]
      refine ⟨texts.del (loginChallengeKey challengeId), ?_, hdel, hdel'⟩
      simp [consumeLoginChallengeReply, hne]

/-! ### All commands -/

/-- The arguments that the callers pass to a command. -/
def AuthAdmissible : RedisCommand → Prop
  | .get key => AuthUsed key
  | .existsKey key => AuthUsed key
  | .set key value ttlSeconds => AuthUsed key ∧ Storable key value ∧ 0 < ttlSeconds
  | .del key => AuthUsed key
  | .createLoginChallenge userId challengeId payload =>
      IsUuid userId ∧ IsUuid challengeId ∧ Storable (.loginChallenge challengeId) payload
  | .consumeLoginChallenge challengeId _ _ => IsUuid challengeId
  | .incrementFailedLogin userId => IsUuid userId
  | .incrementRateLimit operation _ hash _ => operation ∈ rateOperations ∧ IsHex hash

theorem authCommand_simulates (h : AuthTexts n texts redis) (lua : LuaRuntime)
    {c : RedisCommand} (hc : AuthAdmissible c) (hn : n < Keyspace.INCR_LIMIT) :
    Keyspace.Simulates (AuthTexts (n + 1)) IsAuthKey texts (authCommand lua c texts)
      (c.apply redis) := by
  have hlater := h.later
  cases c with
  | get key =>
      exact ⟨texts, get_simulates h hc, hlater, Keyspace.ChangesOnly.refl texts⟩
  | existsKey key =>
      refine ⟨texts, ?_, hlater, Keyspace.ChangesOnly.refl texts⟩
      rw [authCommand, h.isSome_get hc]
      rfl
  | set key value ttlSeconds =>
      obtain ⟨hkey, hvalue, httl⟩ := hc
      obtain ⟨texts', hset, h', hchange⟩ :=
        hlater.setEx hkey (authReads_authValue (n + 1) hvalue) httl
      refine ⟨texts', ?_, h', hchange⟩
      rw [authCommand, hset]
      rfl
  | del key => exact ⟨_, rfl, (hlater.del hc).1, (hlater.del hc).2⟩
  | createLoginChallenge userId challengeId payload =>
      exact createLoginChallenge_simulates hlater hc.1 hc.2.1 hc.2.2.1 lua
  | consumeLoginChallenge challengeId codeHmac nowMs =>
      exact consumeLoginChallenge_simulates hlater hc lua codeHmac nowMs
  | incrementFailedLogin userId => exact incrementFailedLogin_simulates h hc hn lua
  | incrementRateLimit operation dimension hash ttlSeconds =>
      have hcounter : AuthUsed (.counter (.rate operation dimension hash)) := hc
      exact incrementExpiring_simulates h hcounter hn ttlSeconds

end

end RedisTexts

end Shortlink

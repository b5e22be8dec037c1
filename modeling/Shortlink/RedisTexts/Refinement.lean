import Shortlink.RedisTexts.AuthCommands

/-!
# The texts behave as the typed stores

Every run of the Redis commands on texts gives the replies of the typed stores
(`texts_refine`): what is stored is read back as it was written, no command touches an entry
of another kind, and entries expire alike. So what is proved over the typed stores holds of
the server.
-/

namespace Shortlink

namespace RedisTexts

open Shortlink.Json Shortlink.Expiring Shortlink.Auth Shortlink.Account Shortlink.Links

/-! ### Activations -/

section

variable {n : ℕ} {texts : Keyspace} {entries : Activations}

abbrev ActivationTexts (n : ℕ) (texts : Keyspace) (entries : Activations) : Prop :=
  Expiring.Represents activationsKey ActivationsUsed (ActivationReads n) texts entries

theorem ActivationTexts.later (h : ActivationTexts n texts entries) :
    ActivationTexts (n + 1) texts entries :=
  h.mono fun key text v hreads => ActivationReads.mono (Nat.le_succ n) key text v hreads

theorem map_setMember {name : String} (value : Value) {members : List (String × Value)}
    (hmem : name ∈ members.map (·.1)) :
    setMember name value members =
      members.map fun member => if member.1 = name then (name, value) else member := by
  obtain ⟨member, hmember, hname⟩ := List.mem_map.1 hmem
  have hany : members.any (fun member => member.1 == name) = true :=
    List.any_eq_true.2 ⟨member, hmember, by rw [hname]; exact beq_self_eq_true name⟩
  rw [setMember, if_pos hany]

/-- The script counts the attempts of an entry and leaves its other members alone. -/
theorem setMember_perm {payload : ActivationPayload} {members : List (String × Value)}
    (h : members.Perm (activationRecord payload).members) :
    (setMember "attempts" (.number (payload.attempts + 1 : ℕ)) members).Perm
      (activationRecord { payload with attempts := payload.attempts + 1 }).members := by
  have hmem : "attempts" ∈ members.map (·.1) :=
    (h.map (·.1)).symm.subset (by simp [activationRecord, Record.members])
  rw [map_setMember _ hmem]
  exact h.map _

theorem consumeActivation_simulates (h : ActivationTexts n texts entries) {userId : String}
    (huser : IsUuid userId) (hn : n + 1 < LUA_LIMIT) (lua : LuaRuntime) (codeHmac : String) :
    Keyspace.Simulates (ActivationTexts (n + 1)) IsActivationsKey texts
      (activationsCommand lua (.consumeActivation userId codeHmac) texts)
      (Account.CONSUME_ACTIVATION_LUA userId codeHmac entries) := by
  have hkey : ActivationsUsed (.activation userId) := huser
  have hmine : IsActivationsKey (activationKey userId) := ⟨_, hkey, rfl⟩
  rw [activationsCommand, RedisTexts.CONSUME_ACTIVATION_LUA, Account.CONSUME_ACTIVATION_LUA,
    pendingActivation]
  cases hget : entries.get (.activation userId) with
  | none =>
      have htext : texts.get (activationKey userId) = none := h.get_eq_none hkey hget
      rw [htext]
      exact ⟨texts, rfl, h.later, Keyspace.ChangesOnly.refl texts⟩
  | some payload =>
      obtain ⟨text, htext, ⟨members, hperm, hparse⟩, hattempts, hinstant⟩ :=
        h.get_eq_some hkey hget
      have htext' : texts.get (activationKey userId) = some text := htext
      have hnodup : ((activationRecord payload).map (·.1)).Nodup := by simp [activationRecord]
      have hcode := get?_of_perm hperm hnodup "codeHmac" (.string payload.codeHmac)
        (by simp [activationRecord])
      have hcount := get?_of_perm hperm hnodup "attempts" (.number payload.attempts)
        (by simp [activationRecord])
      have hdecode : decodeTable lua text = some members := by
        rw [decodeTable, lua.decode_of_parse _ _ hparse]
      have hcounted : countUp (some (Scalar.number payload.attempts).value) =
          some ((payload.attempts + 1 : ℕ) : ℚ) := by
        rw [Scalar.value, countUp, Nat.cast_succ]
      rw [htext']
      simp only [hdecode, Option.bind_eq_bind, Option.bind_some, hcode, hcount, hcounted]
      simp only [Scalar.value, equalsText, string?, Option.some.injEq, decide_eq_true_eq]
      by_cases hmatch : payload.codeHmac = codeHmac
      · rw [if_pos hmatch, if_pos hmatch]
        exact ⟨_, rfl, Expiring.Represents.del activationsKey_inj h.later hkey,
          Keyspace.changesOnly_put hmine⟩
      rw [if_neg hmatch, if_neg hmatch]
      have hrange : payload.attempts + 1 < LUA_LIMIT :=
        Nat.lt_of_le_of_lt (Nat.succ_le_succ hattempts) hn
      obtain ⟨members', hperm', hparse'⟩ := lua.parse_encode
        (activationRecord { payload with attempts := payload.attempts + 1 }) _
        (setMember_perm hperm) (by simp [activationRecord]) (by
          intro name m hm
          simp only [activationRecord, List.mem_cons, Prod.mk.injEq, Scalar.number.injEq,
            reduceCtorEq, and_false, false_or, List.not_mem_nil, or_false] at hm
          rcases hm with ⟨-, rfl⟩ | ⟨-, rfl⟩
          · exact hrange
          · exact hinstant)
      refine ⟨texts.setKeepTtl (activationKey userId) (lua.encode
        (setMember "attempts" (.number (payload.attempts + 1 : ℕ)) members)), ?_, ?_,
        Keyspace.changesOnly_put hmine⟩
      · simp only [lua.tostring_natural _ hrange, Option.pure_def, Option.bind_some,
          consumeActivationReply, Keyspace.natural?_repr, Option.map_some]
        rfl
      · exact Expiring.Represents.setKeepTtl activationsKey_inj h.later hkey
          (f := fun payload : ActivationPayload =>
            { payload with attempts := payload.attempts + 1 }) hget
          ⟨⟨members', hperm', hparse'⟩, Nat.succ_le_succ hattempts, hinstant⟩

/-- The arguments that the callers pass to a command. -/
def ActivationAdmissible : ActivationCommand → Prop
  | .set key value ttlSeconds =>
      ActivationsUsed key ∧ ActivationStorable key value ∧ 0 < ttlSeconds
  | .existsKey key => ActivationsUsed key
  | .consumeActivation userId _ => IsUuid userId

theorem activationsCommand_simulates (h : ActivationTexts n texts entries) (lua : LuaRuntime)
    {c : ActivationCommand} (hc : ActivationAdmissible c) (hn : n + 1 < LUA_LIMIT) :
    Keyspace.Simulates (ActivationTexts (n + 1)) IsActivationsKey texts
      (activationsCommand lua c texts) (c.apply entries) := by
  have hlater := h.later
  cases c with
  | set key value ttlSeconds =>
      obtain ⟨hkey, hvalue, httl⟩ := hc
      obtain ⟨texts', hset, h'⟩ := Expiring.Represents.setEx activationsKey_inj hlater hkey
        (activationReads_activationsValue (n + 1) hvalue) httl
      refine ⟨texts', ?_, h', Keyspace.changesOnly_setEx ⟨key, hkey, rfl⟩ hset⟩
      rw [activationsCommand, hset]
      rfl
  | existsKey key =>
      refine ⟨texts, ?_, hlater, Keyspace.ChangesOnly.refl texts⟩
      rw [activationsCommand, h.isSome_get hc]
      rfl
  | consumeActivation userId codeHmac =>
      exact consumeActivation_simulates h hc hn lua codeHmac

end

/-! ### The link cache -/

section

variable {texts : Keyspace} {cache : LinkCache}

abbrev LinkTexts (texts : Keyspace) (cache : LinkCache) : Prop :=
  Expiring.Represents id LinkUsed LinkReads texts cache

def CacheAdmissible : CacheCommand → Prop
  | .set _ _ ttlSeconds => 0 < ttlSeconds
  | _ => True

theorem cacheCommand_simulates (h : LinkTexts texts cache) {c : CacheCommand}
    (hc : CacheAdmissible c) :
    Keyspace.Simulates LinkTexts LinkUsed texts (cacheCommand c texts) (c.apply cache) := by
  have hname : ∀ key key' : String, LinkUsed key → LinkUsed key' → id key = id key' →
    key = key' := fun _ _ _ _ heq => heq
  cases c with
  | get shortCode =>
      refine ⟨texts, ?_, h, Keyspace.ChangesOnly.refl texts⟩
      have hkey : LinkUsed (resolutionKey shortCode) := ⟨shortCode, rfl⟩
      rw [cacheCommand, CacheCommand.apply]
      cases hget : cache.get (resolutionKey shortCode) with
      | none =>
          have htext : texts.get (resolutionKey shortCode) = none := h.get_eq_none hkey hget
          rw [htext]
          rfl
      | some resolved =>
          obtain ⟨text, htext, rfl⟩ := h.get_eq_some hkey hget
          have htext' : texts.get (resolutionKey shortCode) =
            some (stringify (resolvedRecord resolved)) := htext
          rw [htext', Option.bind_some, parseResolvedLink_stringify]
  | set shortCode resolved ttlSeconds =>
      have hkey : LinkUsed (resolutionKey shortCode) := ⟨shortCode, rfl⟩
      obtain ⟨texts', hset, h'⟩ := Expiring.Represents.setEx hname h hkey
        (v := resolved) rfl (show 0 < ttlSeconds from hc)
      have hset' : texts.setEx (resolutionKey shortCode) (stringify (resolvedRecord resolved))
        ttlSeconds = some texts' := hset
      refine ⟨texts', ?_, h', Keyspace.changesOnly_setEx hkey hset'⟩
      rw [cacheCommand, hset']
      rfl
  | invalidate shortCode =>
      have hkey : LinkUsed (resolutionKey shortCode) := ⟨shortCode, rfl⟩
      exact ⟨_, rfl, Expiring.Represents.del hname h hkey, Keyspace.changesOnly_put hkey⟩

end

/-! ### Runs -/

def EntryKey.Used : EntryKey → Prop
  | .state key => key.Admissible
  | .link _ => True

/-- A command has the arguments that the callers pass to it, and the other clients of the
server use keys of their own. -/
def RedisEvent.Admissible : RedisEvent → Prop
  | .auth c => AuthAdmissible c
  | .activations c => ActivationAdmissible c
  | .links c => CacheAdmissible c
  | .tick _ => True
  | .evict key => key.Used
  | .foreign key _ => ∀ k : EntryKey, k.Used → key ≠ k.text

/-- The entries of the three stores are held as texts. -/
structure Agree (n : ℕ) (texts : Keyspace) (s : TypedRedis) : Prop where
  auth : AuthTexts n texts s.auth
  activations : ActivationTexts n texts s.activations
  links : LinkTexts texts s.links

section

variable {n : ℕ} {texts texts' : Keyspace} {s : TypedRedis}

theorem Agree.later (h : Agree n texts s) : Agree (n + 1) texts s :=
  ⟨h.auth.later, h.activations.later, h.links⟩

theorem authKey_not_activationsKey {key : RedisKey} (h : AuthUsed key) :
    ¬ IsActivationsKey (authKey key) := by
  rintro ⟨key', h', heq⟩
  exact authKey_ne_activationsKey h h' heq.symm

theorem activationsKey_not_authKey {key : ActivationKey} (h : ActivationsUsed key) :
    ¬ IsAuthKey (activationsKey key) := by
  rintro ⟨key', h', heq⟩
  exact authKey_ne_activationsKey h' h heq

theorem text_not_linkUsed (key : StateKey) : ¬ LinkUsed key.text := by
  rintro ⟨shortCode, heq⟩
  exact text_ne_resolutionKey key shortCode heq

theorem linkUsed_not_authKey {key : String} (h : LinkUsed key) : ¬ IsAuthKey key := by
  obtain ⟨shortCode, rfl⟩ := h
  rintro ⟨key, -, heq⟩
  exact text_ne_resolutionKey (.auth key) shortCode heq

theorem linkUsed_not_activationsKey {key : String} (h : LinkUsed key) :
    ¬ IsActivationsKey key := by
  obtain ⟨shortCode, rfl⟩ := h
  rintro ⟨key, -, heq⟩
  exact text_ne_resolutionKey (.activations key) shortCode heq

/-- A change of other entries than those of the stores. -/
theorem Agree.frame (h : Agree n texts s) {keys : String → Prop}
    (hchange : Keyspace.ChangesOnly keys texts texts')
    (hkeys : ∀ k : EntryKey, k.Used → ¬ keys k.text) : Agree n texts' s where
  auth := h.auth.frame hchange fun key hkey => hkeys (.state (.auth key)) hkey
  activations := h.activations.frame hchange fun key hkey =>
    hkeys (.state (.activations key)) hkey
  links := h.links.frame hchange fun key hkey => by
    obtain ⟨shortCode, rfl⟩ := hkey
    exact hkeys (.link shortCode) trivial

theorem Agree.auth_step (h : Agree n texts s) {redis : Redis}
    (hauth : AuthTexts n texts' redis) (hchange : Keyspace.ChangesOnly IsAuthKey texts texts') :
    Agree n texts' { s with auth := redis } where
  auth := hauth
  activations := h.activations.frame hchange fun _ hkey => activationsKey_not_authKey hkey
  links := h.links.frame hchange fun _ hkey => linkUsed_not_authKey hkey

theorem Agree.activations_step (h : Agree n texts s) {entries : Activations}
    (hentries : ActivationTexts n texts' entries)
    (hchange : Keyspace.ChangesOnly IsActivationsKey texts texts') :
    Agree n texts' { s with activations := entries } where
  auth := h.auth.frame hchange fun _ hkey => authKey_not_activationsKey hkey
  activations := hentries
  links := h.links.frame hchange fun _ hkey => linkUsed_not_activationsKey hkey

theorem Agree.links_step (h : Agree n texts s) {cache : LinkCache}
    (hcache : LinkTexts texts' cache) (hchange : Keyspace.ChangesOnly LinkUsed texts texts') :
    Agree n texts' { s with links := cache } where
  auth := h.auth.frame hchange fun key _ => text_not_linkUsed (.auth key)
  activations := h.activations.frame hchange fun key _ => text_not_linkUsed (.activations key)
  links := hcache

/-- One event. -/
theorem onTexts_agrees (h : Agree n texts s) (lua : LuaRuntime) {e : RedisEvent}
    (he : e.Admissible) (hn : n + 1 < LUA_LIMIT) :
    ∃ texts', e.onTexts lua texts = some ((e.typed s).1, texts') ∧
      Agree (n + 1) texts' (e.typed s).2 := by
  have hlater := h.later
  have hincr : n < Keyspace.INCR_LIMIT := by
    have hlimit : LUA_LIMIT < Keyspace.INCR_LIMIT := by decide
    omega
  cases e with
  | auth c =>
      obtain ⟨texts', hrun, hauth, hchange⟩ := authCommand_simulates h.auth lua he hincr
      exact ⟨texts', hrun, hlater.auth_step hauth hchange⟩
  | activations c =>
      obtain ⟨texts', hrun, hentries, hchange⟩ :=
        activationsCommand_simulates h.activations lua he hn
      exact ⟨texts', hrun, hlater.activations_step hentries hchange⟩
  | links c =>
      obtain ⟨texts', hrun, hcache, hchange⟩ := cacheCommand_simulates h.links he
      exact ⟨texts', hrun, hlater.links_step hcache hchange⟩
  | tick milliseconds =>
      exact ⟨_, rfl, hlater.auth.tick milliseconds, hlater.activations.tick milliseconds,
        hlater.links.tick milliseconds⟩
  | evict key =>
      refine ⟨_, rfl, ?_⟩
      rcases key with (key | key) | shortCode
      · exact hlater.auth_step (hlater.auth.del he).1 (hlater.auth.del he).2
      · exact hlater.activations_step
          (Expiring.Represents.del activationsKey_inj hlater.activations he)
          (Keyspace.changesOnly_put ⟨key, he, rfl⟩)
      · have hdel := cacheCommand_simulates hlater.links (c := .invalidate shortCode) trivial
        obtain ⟨texts', hrun, hcache, hchange⟩ := hdel
        cases hrun
        exact hlater.links_step hcache hchange
  | foreign key entry =>
      have hchange : Keyspace.ChangesOnly (fun text => text = key) texts (texts.put key entry) :=
        Keyspace.changesOnly_put rfl
      exact ⟨_, rfl, hlater.frame hchange fun k hk heq => he k hk heq.symm⟩

theorem textsRun_agrees (lua : LuaRuntime) {events : List RedisEvent}
    (hevents : ∀ e ∈ events, e.Admissible) (hn : n + events.length < LUA_LIMIT)
    (h : Agree n texts s) :
    ∃ texts', RedisEvent.textsRun lua events texts =
        some ((RedisEvent.typedRun events s).1, texts') ∧
      Agree (n + events.length) texts' (RedisEvent.typedRun events s).2 := by
  induction events generalizing n texts s with
  | nil => exact ⟨texts, rfl, h⟩
  | cons e events ih =>
      rw [List.length_cons] at hn
      have hfirst : n + 1 < LUA_LIMIT := by omega
      have hrest : n + 1 + events.length < LUA_LIMIT := by omega
      obtain ⟨texts₁, hstep, h₁⟩ :=
        onTexts_agrees h lua (hevents e List.mem_cons_self) hfirst
      obtain ⟨texts₂, hrun, h₂⟩ :=
        ih (fun e' he' => hevents e' (List.mem_cons_of_mem e he')) hrest h₁
      refine ⟨texts₂, ?_, ?_⟩
      · simp only [RedisEvent.textsRun, hstep, Option.bind_eq_bind, Option.bind_some, hrun]
        rfl
      · rw [List.length_cons, Nat.add_comm events.length 1, ← Nat.add_assoc]
        exact h₂

end

/-- The server and the typed stores answer a run alike, from empty ones on. -/
theorem texts_refine (lua : LuaRuntime) (now : ℕ) (events : List RedisEvent)
    (hevents : ∀ e ∈ events, e.Admissible) (hlength : events.length < LUA_LIMIT) :
    ∃ texts, RedisEvent.textsRun lua events (Keyspace.empty now) =
        some ((RedisEvent.typedRun events (TypedRedis.empty now)).1, texts) ∧
      Agree events.length texts (RedisEvent.typedRun events (TypedRedis.empty now)).2 := by
  have hempty : Agree 0 (Keyspace.empty now) (TypedRedis.empty now) :=
    ⟨Expiring.Represents.init now, Expiring.Represents.init now, Expiring.Represents.init now⟩
  have h := textsRun_agrees lua hevents (by rwa [Nat.zero_add]) hempty
  rwa [Nat.zero_add] at h

/-! ### A runtime -/

def scalar? : Value → Option Scalar
  | .string s => some (.string s)
  | .bool b => some (.bool b)
  | .number q => (natural? (some (.number q))).map .number
  | _ => none

theorem scalar?_value (s : Scalar) : scalar? s.value = some s := by
  cases s with
  | string s => rfl
  | number n => simp [Scalar.value, scalar?]
  | bool b => rfl

/-- The members that are no arrays or objects. -/
def scalarMembers (members : List (String × Value)) : Record :=
  members.filterMap fun member => (scalar? member.2).map (Prod.mk member.1)

theorem scalarMembers_members (fields : Record) : scalarMembers fields.members = fields := by
  rw [scalarMembers, Record.members, List.filterMap_map]
  refine (List.filterMap_congr fun field _ => ?_).trans List.filterMap_some
  rw [Function.comp_apply, scalar?_value]
  rfl

/-- A Lua runtime that reads and writes JSON as JavaScript does. -/
def jsonRuntime : LuaRuntime where
  decode := parse
  encode members := stringify (scalarMembers members)
  tostring q := Nat.repr q.num.toNat
  decode_of_parse _ _ h := h
  parse_encode fields members hperm _ _ := by
    refine ⟨(scalarMembers members).members, ?_, parse_stringify _⟩
    have hscalars := hperm.filterMap fun member => (scalar? member.2).map (Prod.mk member.1)
    have hfields : (scalarMembers members).Perm fields := by
      refine hscalars.trans ?_
      rw [← scalarMembers, scalarMembers_members]
    exact hfields.map _
  tostring_natural n _ := by rw [Rat.num_natCast, Int.toNat_natCast]

theorem head_text (key : EntryKey) : key.text.toList.head? = some 's' := by
  cases key with
  | state key =>
      rw [EntryKey.text, StateKey.toList_text]
      cases key.fields <;> rfl
  | link shortCode =>
      rw [EntryKey.text, resolutionKey, String.toList_append]
      rfl

def exampleUserId : String := "7d4f0c2a-9b1e-4c53-8f60-2e1d3a5b7c90"

def exampleChallengeId : String := "03f2b6d8-51ca-47e9-a0bd-9c8e7f6a5b41"

def exampleSessionId : String := "c81e728d-9d4c-4f63-8f06-7f89cc14862c"

def exampleSession? (redis : Redis) : Option SessionCacheRecord :=
  redis.get (.session exampleSessionId)

def exampleEvents : List RedisEvent :=
  [.activations (.set (.activation exampleUserId)
      (⟨"5e88", 0, 60000⟩ : ActivationPayload) TTL_ONE_HOUR_SECONDS),
    .activations (.consumeActivation exampleUserId "d748"),
    .tick 1000,
    .activations (.consumeActivation exampleUserId "5e88"),
    .auth (.createLoginChallenge exampleUserId exampleChallengeId
      ⟨exampleUserId, "a1\"b2", 601000, false⟩),
    .foreign "bull:email:1" (some ("{}", none)),
    .auth (.consumeLoginChallenge exampleChallengeId "a1\"b2" 1000),
    .auth (.incrementFailedLogin exampleUserId),
    .auth (.incrementFailedLogin exampleUserId),
    .auth (.set (.session exampleSessionId)
      (⟨exampleSessionId, exampleUserId, "USER", 604800000, true⟩ : SessionCacheRecord) 604800),
    .auth (.get (.session exampleSessionId)),
    .links (.set "AB12CD" ⟨exampleChallengeId, "https://example.com/a?b=\\"⟩ 300),
    .evict (.link "AB12CD")]

theorem exampleEvents_admissible : ∀ e ∈ exampleEvents, e.Admissible := by
  have huser : IsUuid exampleUserId := ⟨by decide, by decide⟩
  have hchallenge : IsUuid exampleChallengeId := ⟨by decide, by decide⟩
  have hsession : IsUuid exampleSessionId := ⟨by decide, by decide⟩
  simp only [exampleEvents, List.forall_mem_cons]
  refine ⟨⟨huser, ⟨rfl, by decide⟩, by decide⟩, huser, trivial, huser,
    ⟨huser, hchallenge, huser, by decide⟩, ?_, hchallenge, huser, huser,
    ⟨hsession, (by decide : 604800000 < INSTANT_LIMIT), by decide⟩, hsession,
    (by decide : 0 < 300), trivial, fun _ h => by cases h⟩
  intro key _ heq
  have hhead := head_text key
  rw [← heq] at hhead
  exact absurd hhead (by decide)

/-- The failures are counted, and the session is read as it was written. -/
theorem texts_refine_example :
    (∃ texts, RedisEvent.textsRun jsonRuntime exampleEvents (Keyspace.empty 0) =
        some ((RedisEvent.typedRun exampleEvents (TypedRedis.empty 0)).1, texts) ∧
      Agree exampleEvents.length texts
        (RedisEvent.typedRun exampleEvents (TypedRedis.empty 0)).2) ∧
    Redis.count (RedisEvent.typedRun exampleEvents (TypedRedis.empty 0)).2.auth
        (.failedLogin exampleUserId) = some 2 ∧
      exampleSession? (RedisEvent.typedRun exampleEvents (TypedRedis.empty 0)).2.auth =
        some ⟨exampleSessionId, exampleUserId, "USER", 604800000, true⟩ :=
  ⟨texts_refine jsonRuntime 0 exampleEvents exampleEvents_admissible (by decide),
    by decide +kernel, by decide +kernel⟩

end RedisTexts

end Shortlink

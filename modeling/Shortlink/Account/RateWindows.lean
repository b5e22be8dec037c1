import Shortlink.Account.Reset
import Shortlink.Expiring.History
import Shortlink.Expiring.FixedWindow

/-!
# Rate limits over time

A counter of `INCREMENT_RATE_LIMIT_LUA` counts the requests of a window that its first
request has opened (`CounterState`), so what a limit lets pass is bounded in every window and
in every interval of the same length. A request that is counted twice is refused by its
e-mail before its IP is counted.
-/

namespace Shortlink

namespace Account

open Shortlink.Expiring Shortlink.Interaction Shortlink.Storage Shortlink.Auth

/-! ### The counter -/

section

variable {operation hash : String} {dimension : RateLimitDimension} {ttlSeconds : ℕ}
  {l : List (Executed RedisCommand RedisCommand.Res)} {redis : Redis}

/-- A request that is counted for this key, with its count. -/
def request? (operation : String) (dimension : RateLimitDimension) (hash : String) :
    Executed RedisCommand RedisCommand.Res → Option (ℕ × ℕ)
  | ⟨time, .incrementRateLimit op d h _, count⟩ =>
      if op = operation ∧ d = dimension ∧ h = hash then some (time, count) else none
  | _ => none

/-- The requests of a history that are counted for this key. -/
def requests (operation : String) (dimension : RateLimitDimension) (hash : String)
    (l : List (Executed RedisCommand RedisCommand.Res)) : List (ℕ × ℕ) :=
  l.filterMap (request? operation dimension hash)

/-- The counter of the window, which is gone when the window is over. -/
inductive CounterState (T : ℕ) (key : CounterKey) : Option Window → Redis → Prop where
  | live {redis : Redis} (w : Window) (hlive : redis.now < w.opened + T)
      (hcell : redis.cell (.counter key) = some ((w.count : ℕ), w.opened + T)) :
      CounterState T key (some w) redis
  | gone {redis : Redis} (w : Option Window) (hover : ∀ v ∈ w, v.opened + T ≤ redis.now)
      (hcount : redis.count key = none) : CounterState T key w redis

theorem CounterState.tick {T : ℕ} {key : CounterKey} {w : Option Window}
    (h : CounterState T key w redis) (n : ℕ) : CounterState T key w (redis.tick n) := by
  cases h with
  | live w hlive hcell =>
      by_cases hover : redis.now + n < w.opened + T
      · exact .live w hover hcell
      · refine .gone (some w) (fun v hv => ?_) ?_
        · cases hv
          exact Nat.not_lt.1 hover
        · refine Option.eq_none_iff_forall_ne_some.2 fun count hcount => ?_
          obtain ⟨e, hcell', hlive'⟩ := visible_eq_some_iff.1 hcount
          have he := (Prod.mk.inj (Option.some.inj (hcell'.symm.trans hcell))).2
          exact hover (he ▸ hlive')
  | gone w hover hcount =>
      refine .gone w (fun v hv => Nat.le_trans (hover v hv) (Nat.le_add_right _ n)) ?_
      exact Option.eq_none_iff_forall_ne_some.2 fun count hlater =>
        nomatch hcount.symm.trans (Store.get_tick_eq_some hlater)

theorem CounterState.congr {T : ℕ} {key : CounterKey} {w : Option Window} {redis' : Redis}
    (h : CounterState T key w redis) (hnow : redis'.now = redis.now)
    (hcell : redis'.cell (.counter key) = redis.cell (.counter key)) :
    CounterState T key w redis' := by
  cases h with
  | live w hlive hstored => exact .live w (hnow ▸ hlive) (hcell.trans hstored)
  | gone w hover hcount =>
      exact .gone w (hnow ▸ hover) ((Store.get_congr hnow hcell).trans hcount)

/-- A request gets the count of the next window, which the counter has then. -/
theorem CounterState.request {key : CounterKey} {w : Option Window}
    (h : CounterState (ttlSeconds * 1000) key w redis) (hT : 0 < ttlSeconds) :
    (redis.incrEx key ttlSeconds).1 = (Window.next (ttlSeconds * 1000) redis.now w).count ∧
      CounterState (ttlSeconds * 1000) key
        (some (Window.next (ttlSeconds * 1000) redis.now w)) (redis.incrEx key ttlSeconds).2 := by
  have hnow := redis.incrEx_now key ttlSeconds
  cases h with
  | live w hlive hcell =>
      have hcount : redis.count key = some w.count :=
        visible_eq_some_iff.2 ⟨_, hcell, hlive⟩
      rw [Window.next, if_pos hlive]
      refine ⟨by rw [Redis.incrEx, hcount], .live _ (hnow ▸ hlive) ?_⟩
      exact Redis.cell_incrEx_of_some ttlSeconds hcount hcell
  | gone w hover hcount =>
      have hnext : Window.next (ttlSeconds * 1000) redis.now w = ⟨redis.now, 1⟩ := by
        cases w with
        | none => rfl
        | some v => exact if_neg (Nat.not_lt.2 (hover v rfl))
      rw [hnext]
      refine ⟨by rw [Redis.incrEx, hcount], .live _ ?_ ?_⟩
      · rw [hnow]
        dsimp only
        omega
      · exact Redis.cell_incrEx_of_none ttlSeconds hcount

/-! ### The requests of a history -/

/-- The requests are counted in the order of time, and the counter is the last window. -/
structure Counted (operation : String) (dimension : RateLimitDimension) (hash : String)
    (T : ℕ) (l : List (Executed RedisCommand RedisCommand.Res)) (redis : Redis) : Prop where
  counts : requests operation dimension hash l =
    counts T none ((requests operation dimension hash l).map Prod.fst)
  sorted : ((requests operation dimension hash l).map Prod.fst).Pairwise (· ≤ ·)
  past : ∀ t ∈ (requests operation dimension hash l).map Prod.fst, t ≤ redis.now
  state : CounterState T (.rate operation dimension hash)
    (Window.last T none ((requests operation dimension hash l).map Prod.fst)) redis

theorem Counted.tick {T : ℕ} (h : Counted operation dimension hash T l redis) (n : ℕ) :
    Counted operation dimension hash T l (redis.tick n) :=
  ⟨h.counts, h.sorted, fun t ht => Nat.le_trans (h.past t ht) (Nat.le_add_right _ n),
    h.state.tick n⟩

/-- The counter is written by the requests only, each with the same window. -/
def WritesByRequest (operation : String) (dimension : RateLimitDimension) (hash : String)
    (ttlSeconds : ℕ) (c : RedisCommand) : Prop :=
  c.Writes (.counter (.rate operation dimension hash)) →
    c = .incrementRateLimit operation dimension hash ttlSeconds

theorem Counted.exec (h : Counted operation dimension hash (ttlSeconds * 1000) l redis)
    (hT : 0 < ttlSeconds) {c : RedisCommand}
    (hc : WritesByRequest operation dimension hash ttlSeconds c) :
    Counted operation dimension hash (ttlSeconds * 1000)
      (l ++ [⟨redis.now, c, (c.apply redis).1⟩]) (c.apply redis).2 := by
  have happend : ∀ e, requests operation dimension hash (l ++ [e]) =
      requests operation dimension hash l ++
        (request? operation dimension hash e).toList := by
    intro e
    rw [requests, List.filterMap_append]
    cases he : request? operation dimension hash e <;> simp [requests, he]
  by_cases hwrites : c.Writes (.counter (.rate operation dimension hash))
  · obtain rfl := hc hwrites
    obtain ⟨hcount, hstate⟩ := h.state.request hT
    have hrequests : requests operation dimension hash (l ++ [⟨redis.now, .incrementRateLimit
        operation dimension hash ttlSeconds, (RedisCommand.apply (.incrementRateLimit operation
          dimension hash ttlSeconds) redis).1⟩]) = requests operation dimension hash l ++
        [(redis.now, (Window.next (ttlSeconds * 1000) redis.now (Window.last (ttlSeconds * 1000)
          none ((requests operation dimension hash l).map Prod.fst))).count)] := by
      rw [happend, ← hcount, request?, if_pos ⟨rfl, rfl, rfl⟩]
      rfl
    refine ⟨?_, ?_, ?_, ?_⟩ <;> rw [hrequests, List.map_append, List.map_singleton]
    · rw [counts_append, ← h.counts]
      rfl
    · refine List.pairwise_append.2 ⟨h.sorted, List.pairwise_singleton _ _, fun t ht t' ht' => ?_⟩
      rw [List.mem_singleton.1 ht']
      exact h.past t ht
    · intro t ht
      rw [RedisCommand.apply_now]
      rcases List.mem_append.1 ht with ht | ht
      · exact h.past t ht
      · exact Nat.le_of_eq (List.mem_singleton.1 ht)
    · rw [Window.last_append]
      exact hstate
  · have hrequests : requests operation dimension hash
        (l ++ [⟨redis.now, c, (c.apply redis).1⟩]) = requests operation dimension hash l := by
      rw [happend]
      cases c with
      | incrementRateLimit op d k ttl =>
          rw [request?, if_neg fun ⟨hop, hd, hk⟩ => hwrites (by rw [hop, hd, hk]; rfl)]
          exact List.append_nil _
      | _ => exact List.append_nil _
    refine ⟨?_, ?_, ?_, ?_⟩ <;> rw [hrequests]
    · exact h.counts
    · exact h.sorted
    · rw [RedisCommand.apply_now]
      exact h.past
    · exact h.state.congr (c.apply_now redis) (RedisCommand.cell_apply_of_not_writes redis hwrites)

end

/-! ### The limits of a call -/

/-- The request that a call has counted for its e-mail. -/
def emailRequest (config : AccountConfig) (operation email : String) : AccountStep :=
  .auth (.redis (.incrementRateLimit operation .email (config.auth.hashRateLimitValue email)
    RATE_LIMIT_TTL_SECONDS))

/-- The request that a call has counted for its IP. -/
def ipRequest (config : AccountConfig) (operation clientIp : String) : AccountStep :=
  .auth (.redis (.incrementRateLimit operation .ip (config.auth.hashRateLimitValue
    (if clientIp = "" then "unknown" else clientIp)) RATE_LIMIT_TTL_SECONDS))

abbrev countedAs (operation : String) (dimension : RateLimitDimension) (hash : String)
    (ttlSeconds n : ℕ) : Exchange AccountStep AccountStep.Reply :=
  ⟨.auth (.redis (.incrementRateLimit operation dimension hash ttlSeconds)),
    (.ok n : Except StorageError ℕ)⟩

/-- The IP is counted once the e-mail has been counted within its limit. -/
def CountsInOrder (config : AccountConfig) (operation email clientIp : String)
    (trace : List (Exchange AccountStep AccountStep.Reply)) (c : AccountStep) : Prop :=
  c = emailRequest config operation email ∧ trace = [] ∨
    c = ipRequest config operation clientIp ∧ ∃ n, n ≤ EMAIL_RATE_LIMIT ∧
      trace = [countedAs operation .email (config.auth.hashRateLimitValue email)
        RATE_LIMIT_TTL_SECONDS n]

/-- A call passes when both counts are within their limits. -/
def PassesWithin (config : AccountConfig) (operation email clientIp : String)
    (trace : List (Exchange AccountStep AccountStep.Reply)) (r : Except AuthError Unit) : Prop :=
  r = .ok () ↔ ∃ n m, n ≤ EMAIL_RATE_LIMIT ∧ m ≤ IP_RATE_LIMIT ∧
    trace = [countedAs operation .ip (config.auth.hashRateLimitValue
        (if clientIp = "" then "unknown" else clientIp)) RATE_LIMIT_TTL_SECONDS m,
      countedAs operation .email (config.auth.hashRateLimitValue email)
        RATE_LIMIT_TTL_SECONDS n]

theorem assertWithinRateLimits_obeys (config : AccountConfig)
    (operation email clientIp : String) :
    (AuthService.assertWithinRateLimits config operation email clientIp).run.Obeys
      (CountsInOrder config operation email clientIp)
      (PassesWithin config operation email clientIp) [] := by
  refine ⟨.inl ⟨rfl, rfl⟩, fun r => ?_⟩
  cases r with
  | error e => exact ⟨nofun, fun ⟨n, m, _, _, h⟩ => nomatch (List.cons.inj h).2⟩
  | ok n =>
      change ℕ at n
      refine (Program.obeys_bind _ _).2 ?_
      change Program.Obeys _ _ _ (ExceptT.run (if n > EMAIL_RATE_LIMIT then throw _ else _ >>= _))
      split
      · exact ⟨nofun, fun ⟨n, m, _, _, h⟩ => nomatch (List.cons.inj h).2⟩
      · rename_i hemail
        refine ⟨.inr ⟨rfl, n, Nat.not_lt.1 hemail, rfl⟩, fun r => ?_⟩
        cases r with
        | error e =>
            refine ⟨nofun, fun ⟨n', m', _, _, h⟩ => ?_⟩
            cases h
        | ok m =>
            change ℕ at m
            change Program.Obeys _ _ _
              (ExceptT.run (if m > IP_RATE_LIMIT then throw _ else pure ()))
            by_cases hip : m > IP_RATE_LIMIT
            · rw [if_pos hip]
              refine ⟨nofun, fun ⟨n', m', _, hm, h⟩ => ?_⟩
              cases h
              exact absurd hip (Nat.not_lt.2 hm)
            · rw [if_neg hip]
              exact ⟨fun _ => ⟨n, m, Nat.not_lt.1 hemail, Nat.not_lt.1 hip, rfl⟩, fun _ => rfl⟩

/-- The request that a login has counted for its e-mail and IP. -/
abbrev loginCountedAs (config : AuthConfig) (email clientIp : String) (n : ℕ) :
    Exchange AuthStep AuthStep.Reply :=
  ⟨.redis (.incrementRateLimit LOGIN_RATE_OPERATION .email (config.hashRateLimitValue
    ((if clientIp = "" then "unknown" else clientIp) ++ "|" ++ email))
    LOGIN_RATE_LIMIT_TTL_SECONDS), (.ok n : Except StorageError ℕ)⟩

/-- A login passes when its count is within the limit. -/
def LoginPassesWithin (config : AuthConfig) (email clientIp : String) (trace : AuthTrace)
    (r : Except AuthError Unit) : Prop :=
  r = .ok () ↔ ∃ n, n ≤ LOGIN_RATE_LIMIT ∧ trace = [loginCountedAs config email clientIp n]

theorem assertLoginRateLimit_obeys (config : AuthConfig) (email clientIp : String) :
    (Auth.AuthService.assertLoginRateLimit config email clientIp).run.Obeys (fun _ _ => True)
      (LoginPassesWithin config email clientIp) [] := by
  refine ⟨trivial, fun r => ?_⟩
  cases r with
  | error e =>
      refine ⟨nofun, fun ⟨n, _, h⟩ => ?_⟩
      cases h
  | ok n =>
      change ℕ at n
      refine (Program.obeys_bind _ _).2 ?_
      change Program.Obeys _ _ _ (ExceptT.run (if n > LOGIN_RATE_LIMIT then throw _ else pure ()))
      by_cases hlimit : n > LOGIN_RATE_LIMIT
      · rw [if_pos hlimit]
        refine ⟨nofun, fun ⟨n', hn, h⟩ => ?_⟩
        cases h
        exact absurd hlimit (Nat.not_lt.2 hn)
      · rw [if_neg hlimit]
        exact ⟨fun _ => ⟨n, Nat.not_lt.1 hlimit, rfl⟩, fun _ => rfl⟩

/-- What a limit lets pass: at most so many requests between the first one of a window and
its end, at most twice as many in any interval of this length, and again after each window,
which refused requests do not prolong. A call with two limits counts its IP only within the
limit of its e-mail, and passes only within both. -/
theorem rate_limits_over_time (config : AccountConfig) (operation hash : String)
    (dimension : RateLimitDimension) (ttlSeconds limit : ℕ) (redis : Redis)
    (moments : List (Moment RedisCommand)) (hT : 0 < ttlSeconds) (hlimit : 0 < limit)
    (hnone : redis.count (.rate operation dimension hash) = none)
    (hmay : ∀ c, .exec c ∈ moments → WritesByRequest operation dimension hash ttlSeconds c) :
    Limited (ttlSeconds * 1000) limit
        (requests operation dimension hash (log RedisCommand.apply moments redis)) ∧
      (∀ email clientIp,
        (AuthService.assertWithinRateLimits config operation email clientIp).run.Obeys
          (CountsInOrder config operation email clientIp)
          (PassesWithin config operation email clientIp) []) ∧
      ∀ email clientIp,
        (Auth.AuthService.assertLoginRateLimit config.auth email clientIp).run.Obeys
          (fun _ _ => True) (LoginPassesWithin config.auth email clientIp) [] := by
  refine ⟨?_, assertWithinRateLimits_obeys config operation,
    assertLoginRateLimit_obeys config.auth⟩
  have hcounted : Counted operation dimension hash (ttlSeconds * 1000)
      (log RedisCommand.apply moments redis) (after RedisCommand.apply moments redis) :=
    log_invariant (P := fun l redis => Counted operation dimension hash (ttlSeconds * 1000) l redis)
      ⟨rfl, List.Pairwise.nil, nofun, .gone none nofun hnone⟩ (fun _ _ n h => h.tick n)
      (fun _ _ _ hc h => h.exec hT hc) hmay
  rw [hcounted.counts]
  exact limited_counts (Nat.mul_pos hT (by decide)) hlimit hcounted.sorted

/-- Four requests in a window, and one at its end. -/
def fiveRequests : List (Moment RedisCommand) :=
  List.replicate 4 (.exec (.incrementRateLimit "register" .email "#u" 3600)) ++
    [.tick 3600000, .exec (.incrementRateLimit "register" .email "#u" 3600)]

theorem fourth_request_refused :
    requests "register" .email "#u" (log RedisCommand.apply fiveRequests (Store.empty 0)) =
        [(0, 1), (0, 2), (0, 3), (0, 4), (3600000, 1)] ∧
      Limited 3600000 3 [(0, 1), (0, 2), (0, 3), (0, 4), (3600000, 1)] :=
  ⟨rfl, (rate_limits_over_time exampleAccounts "register" "#u" .email 3600 3 (Store.empty 0)
    fiveRequests (by decide) (by decide) rfl fun c hc _ => by
      simpa [fiveRequests] using hc).1⟩

end Account

end Shortlink

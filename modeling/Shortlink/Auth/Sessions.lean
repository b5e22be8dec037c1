import Shortlink.Auth.Isolation

/-!
# Sessions and their token rows

The invariants of the committed tables under any interleaving of the
repository's transactions: an account has at most one active session, a
revocation is final, and the token rows of a session form a chain of used rows
that ends in one unused row, the current token.
-/

namespace Shortlink

namespace Auth

open Shortlink.Storage Shortlink.Table Shortlink.Transaction
open Shortlink.Interaction

/-- An account has at most one active session. -/
def Exclusive (db : AuthDb) : Prop :=
  ∀ userId, db.sessions.countP (AuthDb.activeOf userId) ≤ 1

/-- What the tables keep over time: the sessions with their owners, the token
rows with their sessions and hashes, revocations and used rows. -/
structure Later (db db' : AuthDb) : Prop where
  session : ∀ s ∈ db.sessions, ∃ s' ∈ db'.sessions, s'.id = s.id ∧
    s'.userId = s.userId ∧ (s.revokedAt.isSome →
      s'.revokedAt = s.revokedAt ∧ s'.revocationReason = s.revocationReason)
  token : ∀ t ∈ db.refreshTokens, ∃ t' ∈ db'.refreshTokens, t'.id = t.id ∧
    t'.sessionId = t.sessionId ∧ t'.tokenHash = t.tokenHash ∧
      (t.usedAt.isSome → t' = t)

theorem Later.refl (db : AuthDb) : Later db db :=
  ⟨fun s hs => ⟨s, hs, rfl, rfl, fun _ => ⟨rfl, rfl⟩⟩,
    fun t ht => ⟨t, ht, rfl, rfl, rfl, fun _ => rfl⟩⟩

theorem Later.trans {db₁ db₂ db₃ : AuthDb} (h₁ : Later db₁ db₂)
    (h₂ : Later db₂ db₃) : Later db₁ db₃ := by
  refine ⟨fun s hs => ?_, fun t ht => ?_⟩
  · obtain ⟨s', hs', hid, howner, hrevoked⟩ := h₁.session s hs
    obtain ⟨s'', hs'', hid', howner', hrevoked'⟩ := h₂.session s' hs'
    refine ⟨s'', hs'', hid'.trans hid, howner'.trans howner, fun h => ?_⟩
    obtain ⟨hat, hreason⟩ := hrevoked h
    obtain ⟨hat', hreason'⟩ := hrevoked' (hat ▸ h)
    exact ⟨hat'.trans hat, hreason'.trans hreason⟩
  · obtain ⟨t', ht', hid, hsession, hhash, hused⟩ := h₁.token t ht
    obtain ⟨t'', ht'', hid', hsession', hhash', hused'⟩ := h₂.token t' ht'
    refine ⟨t'', ht'', hid'.trans hid, hsession'.trans hsession,
      hhash'.trans hhash, fun h => ?_⟩
    have heq := hused h
    rw [hused' (heq ▸ h), heq]

theorem AuthCommand.impl_later {c : AuthCommand} {stamp : Stamp}
    {db db' : AuthDb} {a : c.Res} (hdb : Keys db)
    (h : (c.impl stamp).run db = .ok (a, db')) : Later db db' := by
  rcases c.impl_effect hdb h with rfl | ⟨userId, -, heffect⟩
  · exact .refl _
  · exact ⟨fun s hs => heffect.persist hdb.sessionIds hs,
      fun t ht => heffect.persistToken hdb.tokenIds ht⟩

theorem AuthCommand.impl_keys {c : AuthCommand} {stamp : Stamp}
    {db db' : AuthDb} {a : c.Res} (hdb : Keys db)
    (h : (c.impl stamp).run db = .ok (a, db')) : Keys db' := by
  rcases c.impl_effect hdb h with rfl | ⟨userId, -, heffect⟩
  · exact hdb
  · exact heffect.keys hdb

/-! ### At most one active session -/

theorem countP_activeOf_eq_zero {db : AuthDb} {userId : String}
    (hdb : (db.sessions.map (·.id)).Nodup) (now : ℕ)
    (reason : SessionRevocationReason) :
    (db.revokeActive userId now reason).sessions.countP
      (AuthDb.activeOf userId) = 0 := by
  rw [List.countP_eq_zero]
  intro s hs
  obtain ⟨s₀, hs₀, rfl⟩ := mem_updateWhere.1 hs
  split
  · simp [AuthDb.activeOf]
  · rename_i hids
    rw [decide_eq_true_eq, AuthDb.mem_activeIds_iff hdb hs₀] at hids
    simpa [AuthDb.activeOf] using hids

theorem Effect.exclusive {userId : String} {db db' : AuthDb}
    (h : Effect userId db db') (hdb : Keys db) (hone : Exclusive db) :
    Exclusive db' := by
  intro u
  have hrevoke : ∀ (ids : List String) (now : ℕ)
      (reason : SessionRevocationReason),
      (db.saveRevoked ids now reason).sessions.countP (AuthDb.activeOf u) ≤
        1 := by
    intro ids now reason
    refine Nat.le_trans (countP_updateWhere_le fun s _ _ hq => ?_) (hone u)
    simp [AuthDb.activeOf] at hq
  cases h with
  | revoked ids now reason hids => exact hrevoke ids now reason
  | created sessionData stamp r _ h =>
      obtain rfl := h.result
      simp only [List.countP_append, List.countP_singleton]
      by_cases hu : u = userId
      · subst hu
        rw [countP_activeOf_eq_zero hdb.sessionIds]
        split <;> omega
      · have hnew : AuthDb.activeOf u r.session = false := by
          simp [AuthDb.activeOf, h.session, Ne.symm hu]
        rw [hnew, if_neg Bool.false_ne_true]
        exact hrevoke _ stamp.revokedAt .newLogin
  | rotated sessionId input stamp r _ session token h howner =>
      obtain rfl := h.result
      refine Nat.le_trans (countP_updateWhere_le fun s _ _ hq => ?_) (hone u)
      exact hq

theorem rotateRefreshTokenTx_active {db db' : AuthDb} {sessionId : String}
    {input : RotateRefreshTokenInput} {stamp : Stamp}
    {r : CreateExclusiveSessionResult}
    (h : (rotateRefreshTokenTx sessionId input stamp).run db = .ok (r, db'))
    (hdb : (db.sessions.map (·.id)).Nodup) {s : AuthSessionRecord}
    (hs : s ∈ db.sessions) (hid : s.id = sessionId) : s.revokedAt = none := by
  obtain ⟨session, token, hrot⟩ := rotateRefreshTokenTx_run h
  obtain ⟨hmem, hid'⟩ := AuthDb.mem_of_findSession hrot.find
  obtain rfl := List.inj_on_of_nodup_map hdb hs hmem (hid.trans hid'.symm)
  exact hrot.active

theorem rotateRefreshTokenTx_length {db db' : AuthDb} {sessionId : String}
    {input : RotateRefreshTokenInput} {stamp : Stamp}
    {r : CreateExclusiveSessionResult}
    (h : (rotateRefreshTokenTx sessionId input stamp).run db = .ok (r, db')) :
    db'.refreshTokens.length = db.refreshTokens.length + 1 := by
  obtain ⟨session, token, hrot⟩ := rotateRefreshTokenTx_run h
  simp [hrot.result, AuthDb.saveUsed, updateWhere]

/-! ### The chain of token rows -/

/-- Hashes are unique, every row belongs to a session, and the unused rows of a
session are one row, with the hash the session records. -/
structure TokenChain (db : AuthDb) : Prop where
  hashes : (db.refreshTokens.map (·.tokenHash)).Nodup
  owned : ∀ t ∈ db.refreshTokens, ∃ s ∈ db.sessions, s.id = t.sessionId
  current : ∀ s ∈ db.sessions, ∃ t,
    db.refreshTokens.filter
        (fun t => t.sessionId == s.id && t.usedAt.isNone) = [t] ∧
      t.tokenHash = s.refreshTokenHash

theorem TokenChain.revoked {db : AuthDb} (h : TokenChain db)
    (ids : List String) (now : ℕ) (reason : SessionRevocationReason) :
    TokenChain (db.saveRevoked ids now reason) where
  hashes := h.hashes
  owned t ht := by
    obtain ⟨s, hs, hid⟩ := h.owned t ht
    obtain ⟨s', hs', rfl⟩ := AuthDb.mem_saveRevoked ids now reason hs
    exact ⟨_, hs', by split <;> exact hid⟩
  current s hs := by
    obtain ⟨s₀, hs₀, rfl⟩ := mem_updateWhere.1 hs
    split <;> exact h.current s₀ hs₀

theorem TokenChain.created {userId : String}
    {sessionData : CreateExclusiveSessionInput} {stamp : Stamp}
    {db db' : AuthDb} {r : CreateExclusiveSessionResult} (h : TokenChain db)
    (hcreated : SessionCreated userId sessionData stamp db r db') :
    TokenChain db' := by
  obtain rfl := hcreated.result
  have hrevoked := h.revoked ((db.findActiveSessions userId).map (·.id))
    stamp.revokedAt .newLogin
  have hid : r.refreshToken.sessionId = r.session.id := by
    rw [hcreated.refreshToken, hcreated.session]
  have hforeign : ∀ t ∈ db.refreshTokens, t.sessionId ≠ r.session.id := by
    intro t ht heq
    obtain ⟨s, hs, hsid⟩ := h.owned t ht
    exact hcreated.freshSession s hs (hsid.trans heq)
  refine ⟨?_, fun t ht => ?_, fun s hs => ?_⟩
  · simpa [List.nodup_append] using ⟨h.hashes, hcreated.freshHash⟩
  · rcases List.mem_append.1 ht with ht | ht
    · obtain ⟨s, hs, hsid⟩ := hrevoked.owned t ht
      exact ⟨s, List.mem_append_left _ hs, hsid⟩
    · obtain rfl := List.mem_singleton.1 ht
      exact ⟨r.session, List.mem_append_right _ (List.mem_singleton_self _),
        hid.symm⟩
  · rcases List.mem_append.1 hs with hs | hs
    · obtain ⟨t, ht, hhash⟩ := hrevoked.current s hs
      have hne : (r.refreshToken.sessionId == s.id) = false := by
        obtain ⟨s₀, hs₀, rfl⟩ := mem_updateWhere.1 hs
        have := hcreated.freshSession s₀ hs₀
        rw [hid]
        split <;> simpa using this.symm
      refine ⟨t, ?_, hhash⟩
      simp only [List.filter_append, List.filter_singleton, hne,
        Bool.false_and, cond_false, List.append_nil]
      exact ht
    · obtain rfl := List.mem_singleton.1 hs
      refine ⟨r.refreshToken, ?_, ?_⟩
      · have hnil : db.refreshTokens.filter (fun t =>
            t.sessionId == r.session.id && t.usedAt.isNone) = [] := by
          rw [List.filter_eq_nil_iff]
          intro t ht
          simp [hforeign t ht]
        have hunused : r.refreshToken.usedAt = none := by
          rw [hcreated.refreshToken]
        rw [List.filter_append, hnil]
        simp [hid, hunused]
      · rw [hcreated.refreshToken, hcreated.session]

theorem TokenChain.rotated {sessionId : String}
    {input : RotateRefreshTokenInput} {stamp : Stamp} {db db' : AuthDb}
    {r : CreateExclusiveSessionResult} {session : AuthSessionRecord}
    {token : SessionRefreshTokenRecord} (h : TokenChain db) (hdb : Keys db)
    (hrot : TokenRotated sessionId input stamp db r db' session token) :
    TokenChain db' := by
  obtain rfl := hrot.result
  obtain ⟨hmem, hid⟩ := AuthDb.mem_of_findSession hrot.find
  obtain ⟨htmem, htsession, hthash, htunused⟩ :=
    AuthDb.mem_of_findUnusedToken hrot.unused
  have hnewId : r.refreshToken.sessionId = sessionId := by
    rw [hrot.refreshToken]
  have hsessionId : r.session.id = session.id := by rw [hrot.session]
  refine ⟨?_, fun t ht => ?_, fun s hs => ?_⟩
  · have hold : (db.saveUsed token.id stamp.now).refreshTokens.map
        (·.tokenHash) = db.refreshTokens.map (·.tokenHash) :=
      map_updateWhere fun _ _ => rfl
    rw [List.map_append, hold]
    simpa [List.nodup_append] using ⟨h.hashes, hrot.freshHash⟩
  · have hsession : ∃ s ∈ db.sessions, s.id = t.sessionId := by
      rcases List.mem_append.1 ht with ht | ht
      · obtain ⟨t₀, ht₀, rfl⟩ := mem_updateWhere.1 ht
        split <;> exact h.owned t₀ ht₀
      · obtain rfl := List.mem_singleton.1 ht
        exact ⟨session, hmem, hid.trans hnewId.symm⟩
    obtain ⟨s, hs, hsid⟩ := hsession
    obtain ⟨s', hs', rfl⟩ := AuthDb.mem_saveRotated r.session hs
    exact ⟨_, hs', by split <;> exact hsid⟩
  · obtain ⟨s₀, hs₀, rfl⟩ := mem_updateWhere.1 hs
    by_cases hs₀id : s₀.id = session.id
    · -- the rotated session: the used row leaves, the new row joins
      obtain rfl := List.inj_on_of_nodup_map hdb.sessionIds hs₀ hmem hs₀id
      obtain ⟨t, ht, -⟩ := h.current s₀ hmem
      have htoken : token = t := by
        have : token ∈ db.refreshTokens.filter
            (fun t => t.sessionId == s₀.id && t.usedAt.isNone) :=
          List.mem_filter.2 ⟨htmem, by simp [htsession, hid, htunused]⟩
        rw [ht] at this
        exact List.mem_singleton.1 this
      have hnil : (db.saveUsed token.id stamp.now).refreshTokens.filter
          (fun t => t.sessionId == s₀.id && t.usedAt.isNone) = [] := by
        rw [List.filter_eq_nil_iff]
        intro t' ht' hunused
        obtain ⟨t₀, ht₀, rfl⟩ := mem_updateWhere.1 ht'
        split at hunused
        · simp at hunused
        · rename_i hne
          have : t₀ ∈ db.refreshTokens.filter
              (fun t => t.sessionId == s₀.id && t.usedAt.isNone) :=
            List.mem_filter.2 ⟨ht₀, hunused⟩
          rw [ht] at this
          rw [List.mem_singleton.1 this, ← htoken] at hne
          simp at hne
      have hunused : r.refreshToken.usedAt = none := by rw [hrot.refreshToken]
      refine ⟨r.refreshToken, ?_, ?_⟩
      · rw [List.filter_append]
        simp only [hsessionId, beq_self_eq_true, if_true]
        rw [hnil]
        simp [hnewId, hid, hunused]
      · simp only [beq_self_eq_true, if_true, hrot.session,
          hrot.refreshToken]
    · have hother : (s₀.id == r.session.id) = false := by
        simpa [hsessionId] using hs₀id
      rw [hother]
      obtain ⟨t, ht, hhash⟩ := h.current s₀ hs₀
      refine ⟨t, ?_, hhash⟩
      have hne : (r.refreshToken.sessionId == s₀.id) = false := by
        simpa [hnewId, ← hid] using Ne.symm hs₀id
      rw [List.filter_append, List.filter_singleton]
      simp only [Bool.false_eq_true, if_false, hne, Bool.false_and, cond_false,
        List.append_nil]
      rw [← ht]
      refine filter_updateWhere fun t' ht' hid' => ?_
      obtain rfl := List.inj_on_of_nodup_map hdb.tokenIds ht' htmem
        (by simpa using hid')
      have hfar : (t'.sessionId == s₀.id) = false := by
        simpa [htsession, ← hid] using Ne.symm hs₀id
      simp [hfar]

theorem Effect.tokenChain {userId : String} {db db' : AuthDb}
    (h : Effect userId db db') (hdb : Keys db) (hchain : TokenChain db) :
    TokenChain db' := by
  cases h with
  | revoked ids now reason hids => exact hchain.revoked ids now reason
  | created sessionData stamp r _ h => exact hchain.created h
  | rotated sessionId input stamp r _ session token h howner =>
      exact hchain.rotated hdb h

/-! ### Runs of the repository -/

/-- What holds of the tables of every run. -/
structure Sound (db : AuthDb) : Prop where
  keys : Keys db
  exclusive : Exclusive db
  chain : TokenChain db

theorem Sound.run {c : AuthCommand} {stamp : Stamp} {db db' : AuthDb}
    {a : c.Res} (h : Sound db) (hrun : (c.impl stamp).run db = .ok (a, db')) :
    Sound db' := by
  rcases c.impl_effect h.keys hrun with rfl | ⟨userId, -, heffect⟩
  · exact h
  · exact ⟨heffect.keys h.keys, heffect.exclusive h.keys h.exclusive,
      heffect.tokenChain h.keys h.chain⟩

theorem sound_init (users : List AccountRecord) : Sound ⟨users, [], []⟩ where
  keys := ⟨List.nodup_nil, List.nodup_nil, nofun⟩
  exclusive _ := Nat.zero_le _
  chain := ⟨List.nodup_nil, nofun, nofun⟩

abbrev AuthTxState : Type :=
  State AuthCommand AuthCommand.Res AuthCommand AuthReply Stamp AuthDb String
    StorageError

/-- Every state reached by interleaving the transactions' steps is sound. -/
theorem repository_sound {users : List AccountRecord} {σ : AuthTxState}
    (h : repository.Reaches (State.init ⟨users, [], []⟩) σ) : Sound σ.db := by
  have hinit := sound_init users
  obtain ⟨-, hserial⟩ := (good_init hinit.keys).reaches discipline_valid h
  exact hserial.invariant (fun _ _ _ _ _ hd hrun => hd.run hrun) hinit

/-- Transactions that are executed one after the other make the tables older. -/
theorem serial_later {db db' : AuthDb}
    {l l' : List (Record AuthCommand AuthCommand.Res Stamp StorageError)}
    (h : Serial repository db l l' db') (hdb : Keys db) : Later db db' :=
  h.relates (fun c _ _ _ _ hd hrun => AuthCommand.impl_keys (c := c) hd hrun)
    Later.refl (fun _ _ _ h₁ h₂ => h₁.trans h₂)
    (fun c _ _ _ _ hd hrun => AuthCommand.impl_later (c := c) hd hrun) hdb

theorem repository_later {users : List AccountRecord} {σ σ' : AuthTxState}
    (h : repository.Reaches (State.init ⟨users, [], []⟩) σ)
    (h' : repository.Reaches σ σ') : Later σ.db σ'.db := by
  obtain ⟨hgood, -⟩ :=
    (good_init (sound_init users).keys).reaches discipline_valid h
  obtain ⟨-, hserial⟩ := hgood.reaches discipline_valid h'
  exact serial_later hserial (repository_sound h).keys

/-- In every state reached by interleaving the steps of the repository's
transactions an account has at most one active session. A revoked session keeps
its revocation in every later state, and no rotation of it commits any more. -/
theorem exclusive_and_revocation_final (users : List AccountRecord)
    {σ σ' : AuthTxState}
    (h : repository.Reaches (State.init ⟨users, [], []⟩) σ)
    (h' : repository.Reaches σ σ') :
    (∀ userId, σ.db.sessions.countP (AuthDb.activeOf userId) ≤ 1) ∧
      ∀ s ∈ σ.db.sessions, s.revokedAt.isSome →
        (∃ s', σ'.db.findSession s.id = some s' ∧
          s'.revokedAt = s.revokedAt ∧
          s'.revocationReason = s.revocationReason) ∧
        ∀ l, σ'.log = l ++ σ.log → ∀ r ∈ l, ∀ input,
          r.command = .rotateRefreshToken s.id input →
            ∃ e, r.reply = .error e := by
  have hinit := sound_init users
  obtain ⟨hgood, -⟩ := (good_init hinit.keys).reaches discipline_valid h
  obtain ⟨hgood', hserial'⟩ := hgood.reaches discipline_valid h'
  have hsound := repository_sound h
  refine ⟨hsound.exclusive, fun s hs hrevoked => ⟨?_, ?_⟩⟩
  · obtain ⟨s', hs', hid, -, hkeep⟩ := (repository_later h h').session s hs
    have hkeys' : Keys σ'.db := hgood'.inv
    exact ⟨s', hid ▸ AuthDb.findSession_of_mem hkeys'.sessionIds hs',
      hkeep hrevoked⟩
  · intro l hl r hr input hcommand
    obtain ⟨l₂, l₁, rfl⟩ := List.append_of_mem hr
    have hlog : σ'.log = l₂ ++ r :: (l₁ ++ σ.log) := by simp [hl]
    obtain ⟨i, c, o, reply, wrote⟩ := r
    obtain rfl : c = .rotateRefreshToken s.id input := hcommand
    cases reply with
    | error e => exact ⟨e, rfl⟩
    | ok a =>
        exfalso
        cases wrote with
        | true =>
            obtain ⟨d₁, d₂, a', ha, hs₁, hrun, -⟩ := hserial'.exists_run hlog
              (List.suffix_append _ _) rfl
            obtain ⟨s', hs', hid, -, hkeep⟩ := (serial_later hs₁ hsound.keys).session s hs
            have hkeys₁ : Keys d₁ := hs₁.invariant (P := Keys)
              (fun c _ _ _ _ hd hrun => AuthCommand.impl_keys (c := c) hd hrun)
              hsound.keys
            have hactive := rotateRefreshTokenTx_active hrun hkeys₁.sessionIds
              hs' hid
            rw [← (hkeep hrevoked).1, hactive] at hrevoked
            cases hrevoked
        | false =>
            obtain ⟨l₀, d₁, -, -, hrun⟩ := hgood'.reads _ _ _ a hlog rfl rfl
            have := rotateRefreshTokenTx_length hrun
            omega

/-- An account logs in twice at once; the second transaction waits for the lock
of the first and revokes its session. -/
def concurrentLogins : List (Action AuthCommand Stamp StorageError) :=
  [.spawn (.createExclusiveSession "u" ⟨"h0", "c0", 100⟩),
    .spawn (.createExclusiveSession "u" ⟨"h1", "c1", 100⟩),
    .begin 0 ⟨1, 1, 1, "s0", "t0"⟩, .begin 1 ⟨2, 2, 2, "s1", "t1"⟩,
    .advance 0, .advance 1, .advance 0, .advance 0, .advance 0, .advance 0,
    .commit 0, .advance 1, .advance 1, .advance 1, .advance 1, .advance 1,
    .advance 1, .commit 1]

/-- A rotation of the first session, attempted afterwards. -/
def lateRotation : List (Action AuthCommand Stamp StorageError) :=
  [.spawn (.rotateRefreshToken "s0" ⟨"h0", "h2", 200⟩),
    .begin 2 ⟨3, 3, 3, "s2", "t2"⟩, .advance 2, .advance 2]

def exampleUser : AccountRecord :=
  ⟨"u", "u@example.com", .active, .user, "hash", 0, 0⟩

def afterLogins : AuthTxState :=
  repository.after concurrentLogins (State.init ⟨[exampleUser], [], []⟩)

theorem concurrentLogins_exclusive :
    afterLogins.db.sessions.map (fun s => (s.id, s.revokedAt)) =
        [("s0", some 2), ("s1", none)] ∧
      (∀ userId, afterLogins.db.sessions.countP
        (AuthDb.activeOf userId) ≤ 1) ∧
      ∀ s ∈ afterLogins.db.sessions, s.revokedAt.isSome →
        (∃ s', (repository.after lateRotation afterLogins).db.findSession
            s.id = some s' ∧ s'.revokedAt = s.revokedAt ∧
          s'.revocationReason = s.revocationReason) ∧
        ∀ l, (repository.after lateRotation afterLogins).log =
            l ++ afterLogins.log → ∀ r ∈ l, ∀ input,
          r.command = .rotateRefreshToken s.id input →
            ∃ e, r.reply = .error e :=
  ⟨by decide, exclusive_and_revocation_final [exampleUser]
    (repository.reaches_after concurrentLogins _)
    (repository.reaches_after lateRotation _)⟩

end Auth

end Shortlink

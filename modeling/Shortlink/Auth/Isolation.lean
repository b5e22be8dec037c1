import Shortlink.Auth.Repository
import Shortlink.Transaction.Atomicity

/-!
# The account row lock

Every transaction on sessions takes the lock of the account that owns them. It
protects the sessions of the account and the token rows of these sessions. The
read before the lock, in `rotateRefreshToken` and `revokeSession`, chooses the
account; a session keeps its owner, so the choice is right for every later
state, and the session is read again behind the lock.
-/

namespace Shortlink

namespace Auth

open Shortlink.Storage Shortlink.Table Shortlink.Transaction
open Shortlink.Interaction

/-- What a committed transaction of the account `userId` may have done. -/
inductive Effect (userId : String) (db : AuthDb) : AuthDb → Prop
  | revoked (ids : List String) (now : ℕ) (reason : SessionRevocationReason)
      (hids : ∀ s ∈ db.sessions, s.id ∈ ids →
        s.userId = userId ∧ s.revokedAt = none) :
      Effect userId db (db.saveRevoked ids now reason)
  | created (sessionData : CreateExclusiveSessionInput) (stamp : Stamp)
      (r : CreateExclusiveSessionResult) (db' : AuthDb)
      (h : SessionCreated userId sessionData stamp db r db') :
      Effect userId db db'
  | rotated (sessionId : String) (input : RotateRefreshTokenInput)
      (stamp : Stamp) (r : CreateExclusiveSessionResult) (db' : AuthDb)
      (session : AuthSessionRecord) (token : SessionRefreshTokenRecord)
      (h : TokenRotated sessionId input stamp db r db' session token)
      (howner : session.userId = userId) :
      Effect userId db db'

/-- Session and token ids are unique, and every session has its account. -/
structure Keys (db : AuthDb) : Prop where
  sessionIds : (db.sessions.map (·.id)).Nodup
  tokenIds : (db.refreshTokens.map (·.id)).Nodup
  accounts : ∀ s ∈ db.sessions, (db.findAccountById s.userId).isSome

namespace AuthDb

variable {db : AuthDb}

theorem mem_of_findSession {sessionId : String} {s : AuthSessionRecord}
    (h : db.findSession sessionId = some s) :
    s ∈ db.sessions ∧ s.id = sessionId :=
  ⟨List.mem_of_find?_eq_some h, by simpa using List.find?_some h⟩

theorem mem_of_findUnusedToken {sessionId hash : String}
    {t : SessionRefreshTokenRecord}
    (h : db.findUnusedToken sessionId hash = some t) :
    t ∈ db.refreshTokens ∧ t.sessionId = sessionId ∧ t.tokenHash = hash ∧
      t.usedAt = none := by
  refine ⟨List.mem_of_find?_eq_some h, ?_⟩
  have := List.find?_some h
  simpa [and_assoc] using this

theorem mem_of_findRefreshTokenHistoryByHash {hash : String}
    {t : SessionRefreshTokenRecord}
    (h : db.findRefreshTokenHistoryByHash hash = some t) :
    t ∈ db.refreshTokens ∧ t.tokenHash = hash :=
  ⟨List.mem_of_find?_eq_some h, by simpa using List.find?_some h⟩

theorem findSession_of_mem (h : (db.sessions.map (·.id)).Nodup)
    {s : AuthSessionRecord} (hs : s ∈ db.sessions) :
    db.findSession s.id = some s :=
  find?_key h hs

/-- The ids of the active sessions of an account mark exactly these. -/
theorem mem_activeIds_iff (h : (db.sessions.map (·.id)).Nodup)
    {userId : String} {s : AuthSessionRecord} (hs : s ∈ db.sessions) :
    s.id ∈ (db.findActiveSessions userId).map (·.id) ↔
      s.userId = userId ∧ s.revokedAt = none := by
  rw [List.mem_map]
  constructor
  · rintro ⟨s', hs', hid⟩
    obtain ⟨hmem, hactive⟩ := List.mem_filter.1 hs'
    obtain rfl := List.inj_on_of_nodup_map h hmem hs hid
    simpa [activeOf] using hactive
  · rintro ⟨howner, hactive⟩
    exact ⟨s, List.mem_filter.2 ⟨hs, by simp [activeOf, howner, hactive]⟩, rfl⟩

@[simp] theorem saveRevoked_ids (ids : List String) (now : ℕ)
    (reason : SessionRevocationReason) :
    (db.saveRevoked ids now reason).sessions.map (·.id) =
      db.sessions.map (·.id) :=
  map_updateWhere fun _ _ => rfl

@[simp] theorem revokeActive_ids (userId : String) (now : ℕ)
    (reason : SessionRevocationReason) :
    (db.revokeActive userId now reason).sessions.map (·.id) =
      db.sessions.map (·.id) :=
  saveRevoked_ids _ _ _

@[simp] theorem saveRotated_ids (session : AuthSessionRecord) :
    (db.saveRotated session).sessions.map (·.id) = db.sessions.map (·.id) :=
  map_updateWhere fun _ _ => rfl

@[simp] theorem saveUsed_ids (tokenId : String) (now : ℕ) :
    (db.saveUsed tokenId now).refreshTokens.map (·.id) =
      db.refreshTokens.map (·.id) :=
  map_updateWhere fun _ _ => rfl

theorem mem_saveRevoked (ids : List String) (now : ℕ)
    (reason : SessionRevocationReason) {s : AuthSessionRecord}
    (hs : s ∈ db.sessions) :
    ∃ s' ∈ (db.saveRevoked ids now reason).sessions,
      s' = if s.id ∈ ids then
        { s with revokedAt := some now, revocationReason := some reason }
      else s :=
  ⟨_, List.mem_map_of_mem hs, by simp⟩

theorem mem_saveRotated (session : AuthSessionRecord) {s : AuthSessionRecord}
    (hs : s ∈ db.sessions) :
    ∃ s' ∈ (db.saveRotated session).sessions,
      s' = if s.id = session.id then { s with
        refreshTokenHash := session.refreshTokenHash
        expiresAt := session.expiresAt
        lastRotatedAt := session.lastRotatedAt }
      else s :=
  ⟨_, List.mem_map_of_mem hs, by simp⟩

end AuthDb

theorem mem_of_findActiveSessionById {db : AuthDb} {sessionId : String}
    {row : AuthSessionRecord} (h : db.findActiveSessionById sessionId = some row) :
    row ∈ db.sessions ∧ row.id = sessionId ∧ row.revokedAt = none := by
  refine ⟨List.mem_of_find?_eq_some h, ?_⟩
  simpa using List.find?_some h

theorem lockAccount_locks {β : Type} (userId : String) (rest : Unit → AuthTx β)
    (db : AuthDb) : userId ∈ ((lockAccount userId).bind rest).locks db := by
  simp [lockAccount]

theorem rotateRefreshTokenTx_locks {sessionId : String}
    {input : RotateRefreshTokenInput} {stamp : Stamp} {db : AuthDb}
    {session : AuthSessionRecord}
    (hfind : db.findSession sessionId = some session)
    (hactive : session.revokedAt = none) :
    session.userId ∈
      (rotateRefreshTokenTx sessionId input stamp).locks db := by
  simp only [rotateRefreshTokenTx, Tx.bind_eq, Tx.query_bind, Tx.locks_read,
    hfind, hactive]
  exact lockAccount_locks _ _ db

theorem revokeSessionTx_locks {sessionId : String}
    {reason : SessionRevocationReason} {stamp : Stamp} {db : AuthDb}
    {session : AuthSessionRecord}
    (hfind : db.findSession sessionId = some session)
    (hactive : session.revokedAt = none) :
    session.userId ∈ (revokeSessionTx sessionId reason stamp).locks db := by
  simp only [revokeSessionTx, Tx.bind_eq, Tx.query_bind, Tx.locks_read,
    hfind, hactive]
  exact lockAccount_locks _ _ db

/-- A committed transaction changes nothing, or has an effect on the sessions
of an account that it has locked. -/
theorem AuthCommand.impl_effect {c : AuthCommand} {stamp : Stamp}
    {db db' : AuthDb} {a : c.Res} (hdb : Keys db)
    (h : (c.impl stamp).run db = .ok (a, db')) :
    db' = db ∨ ∃ userId ∈ (c.impl stamp).locks db, Effect userId db db' := by
  cases c with
  | createExclusiveSession userId sessionData =>
      exact .inr ⟨userId, lockAccount_locks userId _ db,
        .created sessionData stamp a db' (createExclusiveSessionTx_run h)⟩
  | rotateRefreshToken sessionId input =>
      obtain ⟨session, token, hrot⟩ := rotateRefreshTokenTx_run h
      exact .inr ⟨session.userId,
        rotateRefreshTokenTx_locks hrot.find hrot.active,
        .rotated sessionId input stamp a db' session token hrot rfl⟩
  | revokeSession sessionId reason =>
      cases revokeSessionTx_run h with
      | missing hfind => exact .inl rfl
      | already session hfind hrevoked => exact .inl rfl
      | revoked session hfind hactive =>
          obtain ⟨hmem, hid⟩ := AuthDb.mem_of_findSession hfind
          refine .inr ⟨session.userId, revokeSessionTx_locks hfind hactive,
            .revoked _ _ reason fun s hs hids => ?_⟩
          obtain rfl := List.inj_on_of_nodup_map hdb.sessionIds hs hmem
            (List.mem_singleton.1 hids)
          exact ⟨rfl, hactive⟩
  | revokeAllSessions userId reason =>
      obtain ⟨-, rfl⟩ := revokeAllSessionsTx_run h
      refine .inr ⟨userId, lockAccount_locks userId _ db,
        .revoked _ _ reason fun s hs hids => ?_⟩
      exact (AuthDb.mem_activeIds_iff hdb.sessionIds hs).1 hids
  | findAccountByEmail email =>
      exact .inl (Prod.mk.inj (Except.ok.inj h)).2.symm
  | findAccountById id => exact .inl (Prod.mk.inj (Except.ok.inj h)).2.symm
  | findActiveSessionById sessionId =>
      exact .inl (Prod.mk.inj (Except.ok.inj h)).2.symm
  | findSessionByRefreshTokenHash hash =>
      exact .inl (Prod.mk.inj (Except.ok.inj h)).2.symm
  | findRefreshTokenHistoryByHash hash =>
      exact .inl (Prod.mk.inj (Except.ok.inj h)).2.symm

/-! ### What an effect keeps -/

namespace Effect

variable {userId : String} {db db' : AuthDb}

theorem users (h : Effect userId db db') : db'.users = db.users := by
  cases h with
  | revoked ids now reason hids => rfl
  | created sessionData stamp r _ h => rw [h.result]
  | rotated sessionId input stamp r _ session token h howner => rw [h.result]

theorem keys (h : Effect userId db db') (hdb : Keys db) : Keys db' := by
  have haccount : ∀ id, db'.findAccountById id = db.findAccountById id :=
    fun id => by rw [AuthDb.findAccountById, h.users, AuthDb.findAccountById]
  cases h with
  | revoked ids now reason hids =>
      refine ⟨by simpa using hdb.sessionIds, hdb.tokenIds, fun s hs => ?_⟩
      obtain ⟨s₀, hs₀, rfl⟩ := mem_updateWhere.1 hs
      rw [haccount]
      split <;> exact hdb.accounts s₀ hs₀
  | created sessionData stamp r _ h =>
      obtain rfl := h.result
      refine ⟨?_, ?_, fun s hs => ?_⟩
      · simp only [List.map_append, AuthDb.revokeActive_ids, List.map_cons,
          List.map_nil]
        simpa [List.nodup_append] using ⟨hdb.sessionIds, h.freshSession⟩
      · simpa [List.nodup_append] using ⟨hdb.tokenIds, h.freshToken⟩
      · rw [haccount]
        rcases List.mem_append.1 hs with hs | hs
        · obtain ⟨s₀, hs₀, rfl⟩ := mem_updateWhere.1 hs
          split <;> exact hdb.accounts s₀ hs₀
        · obtain rfl := List.mem_singleton.1 hs
          rw [h.session]
          exact h.account
  | rotated sessionId input stamp r _ session token h howner =>
      obtain rfl := h.result
      refine ⟨by simpa using hdb.sessionIds, ?_, fun s hs => ?_⟩
      · simp only [List.map_append, AuthDb.saveUsed_ids, List.map_cons,
          List.map_nil]
        simpa [List.nodup_append] using ⟨hdb.tokenIds, h.freshToken⟩
      · obtain ⟨s₀, hs₀, rfl⟩ := mem_updateWhere.1 hs
        rw [haccount]
        split <;> exact hdb.accounts s₀ hs₀

/-- Sessions persist with their id and owner, and a revoked session keeps its
revocation. -/
theorem persist (h : Effect userId db db')
    (hdb : (db.sessions.map (·.id)).Nodup) {s : AuthSessionRecord}
    (hs : s ∈ db.sessions) :
    ∃ s' ∈ db'.sessions, s'.id = s.id ∧ s'.userId = s.userId ∧
      (s.revokedAt.isSome → s'.revokedAt = s.revokedAt ∧
        s'.revocationReason = s.revocationReason) := by
  have hrevoke : ∀ (ids : List String) (now : ℕ)
      (reason : SessionRevocationReason), (s.id ∈ ids → s.revokedAt = none) →
      ∃ s' ∈ (db.saveRevoked ids now reason).sessions, s'.id = s.id ∧
        s'.userId = s.userId ∧ (s.revokedAt.isSome →
          s'.revokedAt = s.revokedAt ∧
            s'.revocationReason = s.revocationReason) := by
    intro ids now reason hactive
    obtain ⟨s', hs', rfl⟩ := AuthDb.mem_saveRevoked ids now reason hs
    refine ⟨_, hs', ?_⟩
    split
    · rename_i hmem
      exact ⟨rfl, rfl, fun h => by simp [hactive hmem] at h⟩
    · exact ⟨rfl, rfl, fun _ => ⟨rfl, rfl⟩⟩
  cases h with
  | revoked ids now reason hids =>
      exact hrevoke ids now reason fun hmem => (hids s hs hmem).2
  | created sessionData stamp r _ h =>
      obtain rfl := h.result
      obtain ⟨s', hs', h'⟩ := hrevoke _ stamp.revokedAt .newLogin fun hmem =>
        ((AuthDb.mem_activeIds_iff hdb hs).1 hmem).2
      exact ⟨s', List.mem_append_left _ hs', h'⟩
  | rotated sessionId input stamp r _ session token h howner =>
      obtain rfl := h.result
      obtain ⟨s', hs', rfl⟩ := AuthDb.mem_saveRotated r.session hs
      refine ⟨_, hs', ?_⟩
      split <;> exact ⟨rfl, rfl, fun _ => ⟨rfl, rfl⟩⟩

/-- Token rows persist with their session and hash, and a used row stays as it
is. -/
theorem persistToken (h : Effect userId db db')
    (hdb : (db.refreshTokens.map (·.id)).Nodup)
    {t : SessionRefreshTokenRecord} (ht : t ∈ db.refreshTokens) :
    ∃ t' ∈ db'.refreshTokens, t'.id = t.id ∧ t'.sessionId = t.sessionId ∧
      t'.tokenHash = t.tokenHash ∧ (t.usedAt.isSome → t' = t) := by
  cases h with
  | revoked ids now reason hids => exact ⟨t, ht, rfl, rfl, rfl, fun _ => rfl⟩
  | created sessionData stamp r _ h =>
      obtain rfl := h.result
      exact ⟨t, List.mem_append_left _ ht, rfl, rfl, rfl, fun _ => rfl⟩
  | rotated sessionId input stamp r _ session token h howner =>
      obtain rfl := h.result
      obtain ⟨hmem, -, -, hunused⟩ := AuthDb.mem_of_findUnusedToken h.unused
      cases hid : t.id == token.id with
      | false =>
          exact ⟨t, List.mem_append_left _ (mem_updateWhere_of_not ht hid), rfl,
            rfl, rfl, fun _ => rfl⟩
      | true =>
          refine ⟨_, List.mem_append_left _ (mem_updateWhere_of ht hid), rfl,
            rfl, rfl, fun hused => ?_⟩
          obtain rfl := List.inj_on_of_nodup_map hdb ht hmem (by simpa using hid)
          simp [hunused] at hused

/-- The sessions of the other accounts are not touched. -/
theorem frameSessions (h : Effect userId db db')
    (hdb : (db.sessions.map (·.id)).Nodup) {other : String}
    (hne : other ≠ userId) :
    db'.sessions.filter (·.userId == other) =
      db.sessions.filter (·.userId == other) := by
  cases h with
  | revoked ids now reason hids =>
      refine filter_updateWhere fun s hs hmem => ?_
      simp [(hids s hs (by simpa using hmem)).1, hne.symm]
  | created sessionData stamp r _ h =>
      obtain rfl := h.result
      have hnew : (r.session.userId == other) = false := by
        simp [h.session, hne.symm]
      simp only [List.filter_append, List.filter_singleton, hnew,
        cond_false, List.append_nil]
      refine filter_updateWhere fun s hs hmem => ?_
      have howner := ((AuthDb.mem_activeIds_iff hdb hs).1
        (of_decide_eq_true hmem)).1
      simp [howner, hne.symm]
  | rotated sessionId input stamp r _ session token h howner =>
      obtain rfl := h.result
      obtain ⟨hmem, -⟩ := AuthDb.mem_of_findSession h.find
      refine filter_updateWhere fun s hs hid => ?_
      obtain rfl := List.inj_on_of_nodup_map hdb hs hmem
        (by simpa [h.session] using hid)
      simp [howner, hne.symm]

/-- The token rows of the sessions of the other accounts are not touched. -/
theorem frameTokens (h : Effect userId db db') (hdb : Keys db)
    {s : AuthSessionRecord} (hs : s ∈ db.sessions) (hne : s.userId ≠ userId) :
    db'.refreshTokens.filter (·.sessionId == s.id) =
      db.refreshTokens.filter (·.sessionId == s.id) := by
  cases h with
  | revoked ids now reason hids => rfl
  | created sessionData stamp r _ h =>
      obtain rfl := h.result
      have hnew : (r.refreshToken.sessionId == s.id) = false := by
        have := h.freshSession s hs
        rw [h.session] at this
        simpa [h.refreshToken] using Ne.symm this
      simp [hnew]
  | rotated sessionId input stamp r _ session token h howner =>
      obtain rfl := h.result
      obtain ⟨hmem, hid⟩ := AuthDb.mem_of_findSession h.find
      obtain ⟨htmem, htsession, -, -⟩ := AuthDb.mem_of_findUnusedToken h.unused
      have hother : sessionId ≠ s.id := by
        rintro rfl
        obtain rfl := List.inj_on_of_nodup_map hdb.sessionIds hmem hs hid
        exact hne howner
      have hnew : (r.refreshToken.sessionId == s.id) = false := by
        simpa [h.refreshToken] using hother
      simp only [List.filter_append, List.filter_singleton, hnew,
        cond_false, List.append_nil]
      refine filter_updateWhere fun t ht hid => ?_
      obtain rfl := List.inj_on_of_nodup_map hdb.tokenIds ht htmem
        (by simpa using hid)
      simp [htsession, hother]

end Effect

/-! ### The discipline -/

/-- Sessions keep their id and owner, and the lock of an account protects its
sessions and their token rows. -/
def discipline : Discipline AuthDb String where
  Inv := Keys
  Evolves db db' := db'.users = db.users ∧ ∀ s ∈ db.sessions,
    ∃ s' ∈ db'.sessions, s'.id = s.id ∧ s'.userId = s.userId
  Frame userId db db' :=
    db'.sessions.filter (·.userId == userId) =
      db.sessions.filter (·.userId == userId) ∧
    ∀ s ∈ db.sessions, s.userId = userId →
      db'.refreshTokens.filter (·.sessionId == s.id) =
        db.refreshTokens.filter (·.sessionId == s.id)
  evolves_refl db := ⟨rfl, fun s hs => ⟨s, hs, rfl, rfl⟩⟩
  evolves_trans db₁ db₂ db₃ h₁ h₂ := by
    refine ⟨h₂.1.trans h₁.1, fun s hs => ?_⟩
    obtain ⟨s', hs', hid, howner⟩ := h₁.2 s hs
    obtain ⟨s'', hs'', hid', howner'⟩ := h₂.2 s' hs'
    exact ⟨s'', hs'', hid'.trans hid, howner'.trans howner⟩
  frame_refl _ _ := ⟨rfl, fun _ _ _ => rfl⟩
  frame_trans userId db₁ db₂ db₃ h₁ h₂ := by
    refine ⟨h₂.1.trans h₁.1, fun s hs howner => ?_⟩
    have hmem : s ∈ db₂.sessions.filter (·.userId == userId) := by
      rw [h₁.1]
      exact List.mem_filter.2 ⟨hs, by simpa using howner⟩
    exact (h₂.2 s (List.mem_filter.1 hmem).1 howner).trans (h₁.2 s hs howner)

section Lock

variable {userId : String} {H : List String} {db db' : AuthDb}

theorem account_env (h : discipline.Env H db db') (id : String) :
    db'.findAccountById id = db.findAccountById id := by
  rw [AuthDb.findAccountById, h.evolves.1, AuthDb.findAccountById]

theorem findActiveSessions_env (h : discipline.Env H db db')
    (hH : userId ∈ H) :
    db'.findActiveSessions userId = db.findActiveSessions userId := by
  have hfilter : ∀ d : AuthDb, d.findActiveSessions userId =
      (d.sessions.filter (·.userId == userId)).filter
        (·.revokedAt.isNone) := by
    intro d
    rw [List.filter_filter]
    refine List.filter_congr fun s _ => ?_
    simp [AuthDb.activeOf, Bool.and_comm]
  rw [hfilter, hfilter, (h.frame userId hH).1]

/-- The owner of a session is the same in every later state. -/
theorem findSession_owner_env (h : discipline.Env H db db')
    {sessionId : String} {s : AuthSessionRecord}
    (hfind : db.findSession sessionId = some s) :
    ∃ s', db'.findSession sessionId = some s' ∧ s'.userId = s.userId := by
  obtain ⟨hmem, rfl⟩ := AuthDb.mem_of_findSession hfind
  obtain ⟨s', hs', hid, howner⟩ := h.evolves.2 s hmem
  exact ⟨s', hid ▸ AuthDb.findSession_of_mem h.inv.sessionIds hs', howner⟩

/-- Behind its owner's lock, a session is the same in every later state. -/
theorem findSession_env (h : discipline.Env H db db') (hH : userId ∈ H)
    {sessionId : String} {s : AuthSessionRecord}
    (hfind : db.findSession sessionId = some s) (howner : s.userId = userId) :
    db'.findSession sessionId = some s := by
  obtain ⟨hmem, rfl⟩ := AuthDb.mem_of_findSession hfind
  have hframe : s ∈ db'.sessions.filter (·.userId == userId) := by
    rw [(h.frame userId hH).1]
    exact List.mem_filter.2 ⟨hmem, by simpa using howner⟩
  exact AuthDb.findSession_of_mem h.inv.sessionIds (List.mem_filter.1 hframe).1

/-- Behind its owner's lock, the token rows of a session are the same. -/
theorem findUnusedToken_env (h : discipline.Env H db db') (hH : userId ∈ H)
    {sessionId : String} {s : AuthSessionRecord}
    (hfind : db.findSession sessionId = some s) (howner : s.userId = userId)
    (hash : String) :
    db'.findUnusedToken sessionId hash = db.findUnusedToken sessionId hash := by
  obtain ⟨hmem, rfl⟩ := AuthDb.mem_of_findSession hfind
  have hfilter : ∀ d : AuthDb, d.findUnusedToken s.id hash =
      (d.refreshTokens.filter (·.sessionId == s.id)).find?
        fun t => t.tokenHash == hash && t.usedAt.isNone := by
    intro d
    rw [List.find?_filter, AuthDb.findUnusedToken]
    congr 1
    funext t
    rw [Bool.decide_and, Bool.decide_eq_true, Bool.decide_eq_true,
      Bool.and_assoc]
  rw [hfilter, hfilter, (h.frame userId hH).2 s hmem howner]

/-- A body that starts with `lockAccount` needs to be protected only behind
the lock. -/
theorem lockAccount_stable {β : Type} {rest : AuthTx β}
    (hrest : ∀ d, discipline.Env H db d →
      discipline.Stable rest (userId :: H) [] d) :
    discipline.Stable ((lockAccount userId).bind fun _ => rest) H [] db := by
  have hbind : (lockAccount userId).bind (fun _ => rest) =
      .lock userId ((Tx.query (AuthDb.findAccountById userId)).bind
        fun account => account.elim (Tx.throw (.error "Account not found.")) fun _ => rest) := by
    simp only [lockAccount, Tx.bind_eq, Tx.acquire_bind, Tx.lock_bind,
      Tx.bind_assoc]
    congr 2
    funext account
    cases account <;> rfl
  rw [hbind]
  intro d₁ henv₁
  refine Discipline.stable_query_bind
    (fun d₂ d₃ _ henv₃ => account_env henv₃ userId) fun d₂ henv₂ => ?_
  cases haccount : d₂.findAccountById userId with
  | none => trivial
  | some account =>
      have henv₂' : discipline.Env H d₁ d₂ :=
        henv₂.mono fun k hk => List.mem_cons_of_mem userId hk
      exact hrest d₂ (henv₁.trans henv₂')

theorem revokeActiveSessions_stable {β : Type}
    {rest : List String → AuthTx β} {reason : SessionRevocationReason}
    {stamp : Stamp} (hH : userId ∈ H)
    (hrest : ∀ ids ws d, discipline.Stable (rest ids) H ws d) :
    discipline.Stable
      ((revokeActiveSessions userId reason stamp).bind rest) H [] db := by
  rw [revokeActiveSessions, Tx.bind_eq, Tx.bind_assoc]
  refine Discipline.stable_query_bind
    (fun d₁ d₂ _ henv => findActiveSessions_env henv hH) fun d₁ _ => ?_
  split
  · exact hrest _ _ _
  · exact fun _ _ _ _ => hrest _ _ _

end Lock

theorem createExclusiveSessionTx_stable (userId : String)
    (sessionData : CreateExclusiveSessionInput) (stamp : Stamp) (db : AuthDb) :
    discipline.Stable (createExclusiveSessionTx userId sessionData stamp)
      [] [] db := by
  refine lockAccount_stable fun d _ => ?_
  refine revokeActiveSessions_stable List.mem_cons_self fun ids ws d => ?_
  exact fun _ _ _ _ _ _ _ _ => trivial

theorem revokeAllSessionsTx_stable (userId : String)
    (reason : SessionRevocationReason) (stamp : Stamp) (db : AuthDb) :
    discipline.Stable (revokeAllSessionsTx userId reason stamp) [] [] db := by
  refine lockAccount_stable fun d _ => ?_
  rw [← Tx.bind_pure (revokeActiveSessions userId reason stamp)]
  exact revokeActiveSessions_stable List.mem_cons_self fun _ _ _ => trivial

/-- The part of `rotateRefreshToken` behind the choice of the account. -/
theorem rotateRefreshTokenTx_stable {sessionId : String}
    {input : RotateRefreshTokenInput} {stamp : Stamp} {db : AuthDb}
    {session : AuthSessionRecord}
    (hfind : db.findSession sessionId = some session) :
    discipline.Stable
      (rotateRefreshTokenTx.locked sessionId input stamp session.userId)
      [] [] db := by
  have hH : session.userId ∈ [session.userId] := List.mem_cons_self
  refine lockAccount_stable fun d henv => ?_
  obtain ⟨s₁, hfind₁, howner₁⟩ := findSession_owner_env henv hfind
  refine Discipline.stable_query_bind (fun d₁ d₂ henv₁ henv₂ => ?_)
    fun d₁ henv₁ => ?_
  · have hfind₂ := findSession_env henv₁ hH hfind₁ howner₁
    rw [hfind₂, findSession_env henv₂ hH hfind₂ howner₁]
  · have hfind₂ := findSession_env henv₁ hH hfind₁ howner₁
    simp only [hfind₂]
    split
    · trivial
    split
    · trivial
    refine Discipline.stable_query_bind (fun d₂ d₃ henv₂ henv₃ => ?_)
      fun d₂ _ => ?_
    · have hfind₃ := findSession_env henv₂ hH hfind₂ howner₁
      exact findUnusedToken_env henv₃ hH hfind₃ howner₁ _
    · cases d₂.findUnusedToken sessionId input.currentTokenHash with
      | none => trivial
      | some token => exact fun _ _ _ _ _ _ _ _ _ _ _ _ => trivial

/-- The part of `revokeSession` behind the choice of the account. -/
theorem revokeSessionTx_stable {sessionId : String}
    {reason : SessionRevocationReason} {stamp : Stamp} {db : AuthDb}
    {session : AuthSessionRecord}
    (hfind : db.findSession sessionId = some session) :
    discipline.Stable
      (revokeSessionTx.locked sessionId reason stamp session.userId)
      [] [] db := by
  have hH : session.userId ∈ [session.userId] := List.mem_cons_self
  refine lockAccount_stable fun d henv => ?_
  obtain ⟨s₁, hfind₁, howner₁⟩ := findSession_owner_env henv hfind
  refine Discipline.stable_query_bind (fun d₁ d₂ henv₁ henv₂ => ?_)
    fun d₁ henv₁ => ?_
  · have hfind₂ := findSession_env henv₁ hH hfind₁ howner₁
    rw [hfind₂, findSession_env henv₂ hH hfind₂ howner₁]
  · simp only [findSession_env henv₁ hH hfind₁ howner₁]
    split
    · trivial
    · exact fun _ _ _ _ => trivial

/-- `lockAccount` passes for the owner of a session. -/
theorem lockAccount_bind_run {β : Type} {userId : String} {db : AuthDb}
    (haccount : (db.findAccountById userId).isSome) (rest : AuthTx β) :
    ((lockAccount userId).bind fun _ => rest).run db = rest.run db := by
  obtain ⟨account, haccount⟩ := Option.isSome_iff_exists.1 haccount
  simp [lockAccount, haccount]

/-- A session that has been revoked before the lock is taken is found revoked
behind it as well. -/
theorem rotateRefreshTokenTx_tracks (sessionId : String)
    (input : RotateRefreshTokenInput) (stamp : Stamp) (db : AuthDb) :
    discipline.Tracks (rotateRefreshTokenTx sessionId input stamp)
      (rotateRefreshTokenTx sessionId input stamp) [] [] db := by
  refine Discipline.tracks_query_bind fun d henv => ?_
  cases hfind : d.findSession sessionId with
  | none => exact .inr (.inl ⟨_, rfl⟩)
  | some session =>
      by_cases hrevoked : session.revokedAt.isSome
      · exact .inr (.inl ⟨.error "Session is not active.", by simp [hrevoked]⟩)
      · refine .inr (.inr ⟨fun d' henv' => ?_, ?_⟩)
        · obtain ⟨s', hfind', howner'⟩ := findSession_owner_env henv' hfind
          simp only [hfind', howner', hrevoked]
          by_cases hrevoked' : s'.revokedAt.isSome
          · have haccount : (d'.findAccountById session.userId).isSome :=
              howner' ▸ henv'.inv.accounts s' (AuthDb.mem_of_findSession hfind').1
            simp only [hrevoked', if_true, Bool.false_eq_true, if_false,
              rotateRefreshTokenTx.locked, Tx.bind_eq,
              lockAccount_bind_run haccount]
            simp [hfind', hrevoked']
          · simp [hrevoked']
        · simp only [hrevoked]
          exact rotateRefreshTokenTx_stable hfind

theorem revokeSessionTx_tracks (sessionId : String)
    (reason : SessionRevocationReason) (stamp : Stamp) (db : AuthDb) :
    discipline.Tracks (revokeSessionTx sessionId reason stamp)
      (revokeSessionTx sessionId reason stamp) [] [] db := by
  refine Discipline.tracks_query_bind fun d henv => ?_
  cases hfind : d.findSession sessionId with
  | none => exact .inl ⟨_, rfl⟩
  | some session =>
      by_cases hrevoked : session.revokedAt.isSome
      · exact .inl ⟨(), by simp [hrevoked]⟩
      · refine .inr (.inr ⟨fun d' henv' => ?_, ?_⟩)
        · obtain ⟨s', hfind', howner'⟩ := findSession_owner_env henv' hfind
          simp only [hfind', howner', hrevoked]
          by_cases hrevoked' : s'.revokedAt.isSome
          · have haccount : (d'.findAccountById session.userId).isSome :=
              howner' ▸ henv'.inv.accounts s' (AuthDb.mem_of_findSession hfind').1
            simp only [hrevoked', if_true, Bool.false_eq_true, if_false,
              revokeSessionTx.locked, Tx.bind_eq,
              lockAccount_bind_run haccount]
            simp [hfind', hrevoked']
          · simp [hrevoked']
        · simp only [hrevoked]
          exact revokeSessionTx_stable hfind

/-- Every transaction of the repository can be read as executed alone. -/
theorem discipline_valid : discipline.Valid repository where
  guarantee c stamp db a db' hdb h := by
    rcases c.impl_effect hdb h with rfl | ⟨userId, hlock, heffect⟩
    · exact ⟨hdb, discipline.evolves_refl _,
        fun k _ => discipline.frame_refl k _⟩
    · refine ⟨heffect.keys hdb, ⟨heffect.users, fun s hs => ?_⟩, ?_⟩
      · obtain ⟨s', hs', hid, howner, -⟩ := heffect.persist hdb.sessionIds hs
        exact ⟨s', hs', hid, howner⟩
      · intro k hk
        have hne : k ≠ userId := fun hku => hk (hku ▸ hlock)
        exact ⟨heffect.frameSessions hdb.sessionIds hne,
          fun s hs howner => heffect.frameTokens hdb hs (howner.trans_ne hne)⟩
  tracks c stamp db hdb := by
    cases c with
    | createExclusiveSession userId sessionData =>
        exact (createExclusiveSessionTx_stable userId sessionData stamp
          db).tracks (discipline.follows_self _ db) hdb
    | revokeAllSessions userId reason =>
        exact (revokeAllSessionsTx_stable userId reason stamp db).tracks
          (discipline.follows_self _ db) hdb
    | rotateRefreshToken sessionId input =>
        exact rotateRefreshTokenTx_tracks sessionId input stamp db
    | revokeSession sessionId reason =>
        exact revokeSessionTx_tracks sessionId reason stamp db
    | findAccountByEmail email =>
        exact Discipline.tracks_query_bind fun d _ => .inl ⟨_, rfl⟩
    | findAccountById id =>
        exact Discipline.tracks_query_bind fun d _ => .inl ⟨_, rfl⟩
    | findActiveSessionById sessionId =>
        exact Discipline.tracks_query_bind fun d _ => .inl ⟨_, rfl⟩
    | findSessionByRefreshTokenHash hash =>
        exact Discipline.tracks_query_bind fun d _ => .inl ⟨_, rfl⟩
    | findRefreshTokenHistoryByHash hash =>
        exact Discipline.tracks_query_bind fun d _ => .inl ⟨_, rfl⟩

end Auth

end Shortlink

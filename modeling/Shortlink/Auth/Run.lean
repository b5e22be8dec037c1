import Shortlink.Auth.Sessions
import Shortlink.Auth.Service

/-!
# Runs of the auth services

What one step does to the tables and to Redis, and what therefore holds in every
run: the tables are sound, they only grow older, and the clock does not go back.
-/

namespace Shortlink

namespace Auth

open Shortlink.Storage Shortlink.Table Shortlink.Transaction
open Shortlink.Interaction Shortlink.Expiring

/-! ### One step -/

section

variable {o : AuthOutside} {s s' : AuthState}

/-- A repository step that answers has committed its transaction. -/
theorem exec_repository_ok {c : AuthCommand} {a : c.Res}
    (h : exec (.repository c) o s = some (.ok a, s')) :
    (c.impl o.stamp).run s.db = .ok (a, s'.db) ∧ s'.redis = s.redis := by
  have hexec := Fault.apply_eq_ok (Option.some.inj h)
  simp only [execTransaction] at hexec
  cases hrun : (c.impl o.stamp).run s.db with
  | error e => simp [hrun] at hexec
  | ok p =>
      simp only [hrun] at hexec
      cases hexec
      exact ⟨rfl, rfl⟩

theorem exec_redis_ok {c : RedisCommand} {a : c.Res}
    (h : exec (.redis c) o s = some (.ok a, s')) :
    c.apply s.redis = (a, s'.redis) ∧ s'.db = s.db := by
  have hexec := Fault.apply_eq_ok (Option.some.inj h)
  cases hexec
  exact ⟨rfl, rfl⟩

/-- Without a failure a repository step commits its transaction and answers, or
its transaction throws. -/
theorem exec_repository_of_none {c : AuthCommand}
    {r : AuthStep.Reply (.repository c)} (hfault : o.fault = .none)
    (h : exec (.repository c) o s = some (r, s')) :
    (∃ a, (c.impl o.stamp).run s.db = .ok (a, s'.db) ∧ r = .ok a) ∨
      ∃ e, (c.impl o.stamp).run s.db = .error e ∧ r = .error e ∧ s' = s := by
  obtain ⟨hr, hs⟩ := Prod.mk.inj (Option.some.inj h)
  simp only [hfault, execTransaction] at hr hs
  cases hrun : (c.impl o.stamp).run s.db with
  | error e =>
      simp only [hrun] at hr hs
      exact .inr ⟨e, rfl, hr.symm, hs.symm⟩
  | ok p =>
      simp only [hrun] at hr hs
      exact .inl ⟨p.1, by rw [← hs], hr.symm⟩

/-- A repository step leaves the state alone and fails, or it commits and answers
unless it fails. -/
theorem exec_repository_cases {c : AuthCommand} {r : AuthStep.Reply (.repository c)}
    (h : exec (.repository c) o s = some (r, s')) :
    s' = s ∧ (∃ e, r = .error e) ∧ ((∃ e, o.fault = .refused e) ∨
        ∃ e, (c.impl o.stamp).run s.db = .error e) ∨
    ∃ a db', (∀ e, o.fault ≠ .refused e) ∧
      (c.impl o.stamp).run s.db = .ok (a, db') ∧ s' = { s with db := db' } ∧
      (o.fault = .none ∧ r = .ok a ∨ o.fault ≠ .none ∧ ∃ e, r = .error e) := by
  have hexec : o.fault.apply s (execTransaction c o.stamp s) = (r, s') :=
    Option.some.inj h
  rcases o.fault.apply_cases s (execTransaction c o.stamp s) with
    ⟨e, hfault, happly⟩ | ⟨hfault, hstate, hreply⟩
  · obtain ⟨rfl, rfl⟩ := Prod.mk.inj (hexec.symm.trans happly)
    exact .inl ⟨rfl, ⟨e, rfl⟩, .inl ⟨e, hfault⟩⟩
  rw [hexec] at hstate hreply
  dsimp only at hstate hreply
  cases hrun : (c.impl o.stamp).run s.db with
  | error e =>
      have htransaction : execTransaction c o.stamp s = (.error e, s) := by
        rw [execTransaction, hrun]
      rw [htransaction] at hstate hreply
      refine .inl ⟨hstate, ?_, .inr ⟨e, rfl⟩⟩
      exact hreply.elim (fun hr => ⟨e, hr.2⟩) fun hr => hr.2
  | ok p =>
      have htransaction : execTransaction c o.stamp s = (.ok p.1, { s with db := p.2 }) := by
        rw [execTransaction, hrun]
      rw [htransaction] at hstate hreply
      exact .inr ⟨p.1, p.2, hfault, rfl, hstate, hreply⟩

/-- Without a failure a Redis command is executed and answers. -/
theorem exec_redis_of_none {c : RedisCommand} {r : AuthStep.Reply (.redis c)}
    (hfault : o.fault = .none) (h : exec (.redis c) o s = some (r, s')) :
    r = .ok (c.apply s.redis).1 ∧ s'.redis = (c.apply s.redis).2 := by
  obtain ⟨hr, hs⟩ := Prod.mk.inj (Option.some.inj h)
  simp only [hfault] at hr hs
  exact ⟨hr.symm, hs ▸ rfl⟩

/-- A step that is refused leaves the state alone. -/
theorem exec_refused {c : AuthStep} {r : c.Reply} (hrefused : ∃ e, o.fault = .refused e)
    (h : exec c o s = some (r, s')) : s' = s := by
  obtain ⟨e, hfault⟩ := hrefused
  cases c <;> simp only [exec, hfault, Fault.apply] at h <;> cases h <;> rfl

/-- What a step does to the state: a repository step may commit its transaction,
a Redis command may be executed, and nothing else happens. -/
inductive Acts (s : AuthState) : AuthStep → AuthState → Prop
  | idle (c : AuthStep) : Acts s c s
  | committed (c : AuthCommand) (stamp : Stamp) (a : c.Res) (db : AuthDb)
      (hrun : (c.impl stamp).run s.db = .ok (a, db)) :
      Acts s (.repository c) { s with db }
  | executed (c : RedisCommand) :
      Acts s (.redis c) { s with redis := (c.apply s.redis).2 }

theorem exec_acts {c : AuthStep} {r : c.Reply}
    (h : exec c o s = some (r, s')) : Acts s c s' := by
  have hidle : ∀ {c : AuthStep}, (o.fault.apply s (.ok (), s)).2 = s' →
      Acts s c s' := by
    intro c hs'
    rcases o.fault.apply_state s (.ok (), s) with hs | hs <;>
      rw [← hs', hs] <;> exact .idle c
  cases c with
  | now => exact (Prod.mk.inj (Option.some.inj h)).2 ▸ .idle _
  | generate secret => exact (Prod.mk.inj (Option.some.inj h)).2 ▸ .idle _
  | repository cmd =>
      have hs' : (o.fault.apply s (execTransaction cmd o.stamp s)).2 = s' :=
        (Prod.mk.inj (Option.some.inj h)).2
      rcases o.fault.apply_state s (execTransaction cmd o.stamp s) with
        hs | hs <;> rw [← hs', hs]
      · exact .idle _
      · simp only [execTransaction]
        cases hrun : (cmd.impl o.stamp).run s.db with
        | error e => exact .idle _
        | ok p => exact .committed cmd o.stamp p.1 p.2 hrun
  | redis cmd =>
      have hs' : (o.fault.apply s (execRedis cmd s)).2 = s' :=
        (Prod.mk.inj (Option.some.inj h)).2
      rcases o.fault.apply_state s (execRedis cmd s) with hs | hs <;>
        rw [← hs', hs]
      · exact .idle _
      · exact .executed cmd
  | enqueue job => exact hidle (Prod.mk.inj (Option.some.inj h)).2
  | sendMail mail => exact hidle (Prod.mk.inj (Option.some.inj h)).2
  | audit event => exact hidle (Prod.mk.inj (Option.some.inj h)).2

theorem Acts.redis {c : AuthStep} (h : Acts s c s') :
    s'.redis = s.redis ∨
      ∃ cmd, c = .redis cmd ∧ s'.redis = (RedisCommand.apply cmd s.redis).2 := by
  cases h with
  | idle c => exact .inl rfl
  | committed c stamp a db hrun => exact .inl rfl
  | executed c => exact .inr ⟨c, rfl, rfl⟩

/-- The step keeps the tables, whatever happens to it. -/
def AuthStep.Reads : AuthStep → Prop
  | .repository (.createExclusiveSession _ _) => False
  | .repository (.rotateRefreshToken _ _) => False
  | .repository (.revokeSession _ _) => False
  | .repository (.revokeAllSessions _ _) => False
  | _ => True

theorem AuthCommand.impl_reads {c : AuthCommand} (hc : (AuthStep.repository c).Reads)
    {stamp : Stamp} {a : c.Res} {db db' : AuthDb}
    (h : (c.impl stamp).run db = .ok (a, db')) : db' = db := by
  cases c with
  | createExclusiveSession userId sessionData => exact hc.elim
  | rotateRefreshToken sessionId input => exact hc.elim
  | revokeSession sessionId reason => exact hc.elim
  | revokeAllSessions userId reason => exact hc.elim
  | findAccountByEmail email => exact (Prod.mk.inj (Except.ok.inj h)).2.symm
  | findAccountById id => exact (Prod.mk.inj (Except.ok.inj h)).2.symm
  | findActiveSessionById id => exact (Prod.mk.inj (Except.ok.inj h)).2.symm
  | findSessionByRefreshTokenHash hash =>
      exact (Prod.mk.inj (Except.ok.inj h)).2.symm
  | findRefreshTokenHistoryByHash hash =>
      exact (Prod.mk.inj (Except.ok.inj h)).2.symm

/-- Columns of the sessions that are neither revoked nor rotated: only
`createExclusiveSession` adds a row, with an id of its own. -/
theorem AuthCommand.impl_sessions {β : Type} {f : AuthSessionRecord → β}
    (hrevoked : ∀ s revokedAt reason,
      f { s with revokedAt := revokedAt, revocationReason := reason } = f s)
    (hrotated : ∀ s hash expiresAt lastRotatedAt, f { s with
      refreshTokenHash := hash, expiresAt := expiresAt, lastRotatedAt := lastRotatedAt } = f s)
    {c : AuthCommand} {stamp : Stamp} {db db' : AuthDb} {a : c.Res}
    (h : (c.impl stamp).run db = .ok (a, db')) :
    db'.sessions.map f = db.sessions.map f ∨ ∃ userId sessionData session,
      c = .createExclusiveSession userId sessionData ∧ session.userId = userId ∧
        (∀ s ∈ db.sessions, s.id ≠ session.id) ∧
        db'.sessions.map f = db.sessions.map f ++ [f session] := by
  have hsaved : ∀ ids now reason,
      (db.saveRevoked ids now reason).sessions.map f = db.sessions.map f :=
    fun ids now reason => map_updateWhere fun s _ => hrevoked s _ _
  cases c with
  | createExclusiveSession userId sessionData =>
      have hcreated := createExclusiveSessionTx_run h
      obtain rfl := hcreated.result
      refine .inr ⟨userId, sessionData, _, rfl, by rw [hcreated.session], hcreated.freshSession,
        ?_⟩
      rw [List.map_append, List.map_singleton]
      exact congrArg (· ++ _) (hsaved _ _ _)
  | rotateRefreshToken sessionId input =>
      obtain ⟨session, token, hrot⟩ := rotateRefreshTokenTx_run h
      obtain rfl := hrot.result
      exact .inl (map_updateWhere fun s _ => hrotated s _ _ _)
  | revokeSession sessionId reason =>
      cases revokeSessionTx_run h with
      | missing => exact .inl rfl
      | already => exact .inl rfl
      | revoked => exact .inl (hsaved _ _ _)
  | revokeAllSessions userId reason =>
      obtain ⟨-, rfl⟩ := revokeAllSessionsTx_run h
      exact .inl (hsaved _ _ _)
  | findAccountByEmail email => exact .inl (by rw [impl_reads (by trivial) h])
  | findAccountById id => exact .inl (by rw [impl_reads (by trivial) h])
  | findActiveSessionById id => exact .inl (by rw [impl_reads (by trivial) h])
  | findSessionByRefreshTokenHash hash => exact .inl (by rw [impl_reads (by trivial) h])
  | findRefreshTokenHistoryByHash hash => exact .inl (by rw [impl_reads (by trivial) h])

theorem AuthStep.Reads.exec {c : AuthStep} (hc : c.Reads) {r : c.Reply}
    (h : exec c o s = some (r, s')) : s'.db = s.db := by
  cases exec_acts h with
  | idle c => rfl
  | committed c stamp a db hrun => exact AuthCommand.impl_reads hc hrun
  | executed c => rfl

end

/-! ### What a run keeps -/

/-- What steps keep of a state. -/
structure Since (s s' : AuthState) : Prop where
  later : Later s.db s'.db
  users : s'.db.users = s.db.users
  now : s.redis.now ≤ s'.redis.now

theorem Since.refl (s : AuthState) : Since s s :=
  ⟨.refl _, rfl, Nat.le_refl _⟩

theorem Since.trans {s₁ s₂ s₃ : AuthState} (h₁ : Since s₁ s₂)
    (h₂ : Since s₂ s₃) : Since s₁ s₃ :=
  ⟨h₁.later.trans h₂.later, h₂.users.trans h₁.users,
    Nat.le_trans h₁.now h₂.now⟩

theorem AuthCommand.impl_users {c : AuthCommand} {stamp : Stamp}
    {db db' : AuthDb} {a : c.Res} (hdb : Keys db)
    (h : (c.impl stamp).run db = .ok (a, db')) : db'.users = db.users := by
  rcases c.impl_effect hdb h with rfl | ⟨userId, -, heffect⟩
  · rfl
  · exact heffect.users

theorem Acts.since {s s' : AuthState} {c : AuthStep} (h : Acts s c s')
    (hs : Sound s.db) : Sound s'.db ∧ Since s s' := by
  cases h with
  | idle c => exact ⟨hs, .refl s⟩
  | committed c stamp a db hrun =>
      exact ⟨hs.run hrun, c.impl_later hs.keys hrun, c.impl_users hs.keys hrun,
        Nat.le_refl _⟩
  | executed c => exact ⟨hs, .refl _, rfl, Nat.le_of_eq (c.apply_now s.redis).symm⟩

theorem environment_since (x : AuthEnvironment) {s : AuthState}
    (hs : Sound s.db) : Sound (environment x s).db ∧ Since s (environment x s) := by
  cases x with
  | tick n => exact ⟨hs, .refl _, rfl, Nat.le_add_right _ n⟩
  | evict key => exact ⟨hs, .refl _, rfl, Nat.le_refl _⟩

section

variable {Call α : Type} {body : Call → Program AuthStep AuthStep.Reply α}
  {ok : Pool AuthStep AuthStep.Reply Call α AuthState →
    Event Call AuthOutside AuthEnvironment → Prop}
  {σ σ' : Pool AuthStep AuthStep.Reply Call α AuthState} {users : List AccountRecord}

theorem Moves.since (h : (concurrently body).Moves ok σ σ') (hσ : Sound σ.shared.db) :
    Sound σ'.shared.db ∧ Since σ.shared σ'.shared := by
  cases h with
  | spawn call hok hshared hthreads hhistory =>
      rw [hshared]
      exact ⟨hσ, .refl _⟩
  | exec e he =>
      obtain ⟨o, -, hexec⟩ := he.exec
      exact (exec_acts hexec).since hσ
  | environment x hok hshared hthreads hhistory =>
      rw [hshared]
      exact environment_since x hσ

theorem reaches_since (h : (concurrently body).Reaches ok σ σ') (hσ : Sound σ.shared.db) :
    Sound σ'.shared.db ∧ Since σ.shared σ'.shared := by
  induction h with
  | refl => exact ⟨hσ, .refl _⟩
  | tail _ hstep ih =>
      obtain ⟨hsound, hsince⟩ := Moves.since hstep.moves ih.1
      exact ⟨hsound, ih.2.trans hsince⟩

theorem reaches_sound
    (h : (concurrently body).Reaches ok (Pool.init (AuthState.init users)) σ) :
    Sound σ.shared.db :=
  (reaches_since h (sound_init users)).1

/-- An answer of the repository in the history was given by a transaction that
was committed between two states of the run. -/
theorem answered
    (h : (concurrently body).Reaches ok (Pool.init (AuthState.init users)) σ)
    {k : ℕ} {c : AuthCommand} {a : c.Res} {l₁ l₂ : List AuthEntry}
    (hl : σ.history = l₂ ++ ⟨k, .repository c, .ok a⟩ :: l₁) :
    ∃ σ₁ σ₂ stamp,
      (concurrently body).Reaches ok (Pool.init (AuthState.init users)) σ₁ ∧
      (concurrently body).Fires ok ⟨k, .repository c, .ok a⟩ σ₁ σ₂ ∧
      σ₁.history = l₁ ∧ Sound σ₁.shared.db ∧
      (c.impl stamp).run σ₁.shared.db = .ok (a, σ₂.shared.db) ∧
      Since σ₂.shared σ.shared := by
  obtain ⟨σ₁, σ₂, h₁, he, hl₁, h₂⟩ := h.split hl List.nil_suffix
  obtain ⟨o, -, hexec⟩ := he.exec
  have hexec : exec (.repository c) o σ₁.shared = some (.ok a, σ₂.shared) := hexec
  have hsound := reaches_sound h₁
  have hsound₂ := ((exec_acts hexec).since hsound).1
  exact ⟨σ₁, σ₂, o.stamp, h₁, he, hl₁, hsound, (exec_repository_ok hexec).1,
    (reaches_since h₂ hsound₂).2⟩

end

end Auth

end Shortlink

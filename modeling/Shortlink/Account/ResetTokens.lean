import Shortlink.Account.Repository
import Shortlink.Transaction.Issued

/-!
# Reset tokens under concurrent transactions

The three methods of `typeorm-auth.repository.ts` on reset tokens, with their
statements interleaved. Each takes the lock of the account that owns the tokens;
`consumePasswordResetToken` reads the token before it knows which account that is, and
reads it again behind the lock.
-/

namespace Shortlink

namespace Account

open Shortlink.Storage Shortlink.Table Shortlink.Transaction Shortlink.Interaction
open Shortlink.Auth (AuthDb)

/-- The transaction of `invalidatePreviousResetTokens`. -/
def invalidatePreviousResetTokensTx (userId : String) (stamp : AccountStamp) :
    AccountTx Unit := do
  lockAccount userId
  markResetTokensUsed userId stamp

/-- The methods of the repository on reset tokens. -/
inductive ResetTokenCommand where
  | createPasswordResetToken (userId : String) (input : CreatePasswordResetTokenInput)
  | consumePasswordResetToken (tokenHash : String)
  | invalidatePreviousResetTokens (userId : String)
  deriving DecidableEq

namespace ResetTokenCommand

/-- The value of a method. -/
def Res : ResetTokenCommand → Type
  | .createPasswordResetToken _ _ => PasswordResetTokenRecord
  | .consumePasswordResetToken _ => Option PasswordResetTokenRecord
  | .invalidatePreviousResetTokens _ => Unit

/-- The transaction of a method. -/
def impl : (c : ResetTokenCommand) → AccountStamp → AccountTx c.Res
  | .createPasswordResetToken userId input => createPasswordResetTokenTx userId input
  | .consumePasswordResetToken tokenHash => consumePasswordResetTokenTx tokenHash
  | .invalidatePreviousResetTokens userId => invalidatePreviousResetTokensTx userId

end ResetTokenCommand

/-- The value of a finished method call. -/
abbrev ResetTokenReply : Type := (c : ResetTokenCommand) × Except StorageError c.Res

/-- Calls of the three methods, executed concurrently. -/
def resetTokens : System ResetTokenCommand ResetTokenCommand.Res ResetTokenCommand
    ResetTokenReply AccountStamp AccountDb String StorageError where
  body c := .call c fun r => .pure ⟨c, r⟩
  impl := ResetTokenCommand.impl

abbrev ResetTokenState : Type :=
  State ResetTokenCommand ResetTokenCommand.Res ResetTokenCommand ResetTokenReply
    AccountStamp AccountDb String StorageError

/-! ### What a committed transaction has done -/

/-- Token ids are unique, and every token has its account. -/
structure TokenKeys (db : AccountDb) : Prop where
  ids : (db.passwordResetTokens.map (·.id)).Nodup
  accounts : ∀ t ∈ db.passwordResetTokens, (db.auth.findAccountById t.userId).isSome

/-- What a committed transaction of the account `userId` may have done. -/
inductive TokenEffect (userId : String) (db : AccountDb) : AccountDb → Prop
  | used (ids : List String) (now : ℕ)
      (hids : ∀ t ∈ db.passwordResetTokens, t.id ∈ ids →
        t.userId = userId ∧ t.usedAt = none) :
      TokenEffect userId db (db.saveUsed ids now)
  | created (token : PasswordResetTokenRecord) (now : ℕ) (howner : token.userId = userId)
      (haccount : (db.auth.findAccountById userId).isSome)
      (hfresh : ∀ t ∈ db.passwordResetTokens, t.id ≠ token.id) :
      TokenEffect userId db { db.markUsed userId now with
        passwordResetTokens := (db.markUsed userId now).passwordResetTokens ++ [token] }

/-- A row keeps its columns, and once used it never changes. -/
def Outlives (t t' : PasswordResetTokenRecord) : Prop :=
  t' = t ∨ t.usedAt = none ∧ ∃ now, t' = { t with usedAt := some now }

theorem Outlives.trans {t₁ t₂ t₃ : PasswordResetTokenRecord} (h₁ : Outlives t₁ t₂)
    (h₂ : Outlives t₂ t₃) : Outlives t₁ t₃ := by
  rcases h₂ with rfl | ⟨hunused, now, rfl⟩
  · exact h₁
  · rcases h₁ with rfl | ⟨-, now', rfl⟩
    · exact .inr ⟨hunused, now, rfl⟩
    · cases hunused

theorem Outlives.columns {t t' : PasswordResetTokenRecord} (h : Outlives t t') :
    t'.id = t.id ∧ t'.userId = t.userId ∧ t'.tokenHash = t.tokenHash ∧
      t'.expiresAt = t.expiresAt := by
  obtain rfl | ⟨-, now, rfl⟩ := h
  · exact ⟨rfl, rfl, rfl, rfl⟩
  · exact ⟨rfl, rfl, rfl, rfl⟩

/-- A used row is the same. -/
theorem Outlives.used {t t' : PasswordResetTokenRecord} (h : Outlives t t')
    (hused : t.usedAt.isSome) : t' = t := by
  obtain rfl | ⟨hunused, -⟩ := h
  · rfl
  · rw [hunused] at hused
    cases hused

/-- The rows of `db` live on in `db'`, in their order and before the new ones. -/
def RowsLive (db db' : AccountDb) : Prop :=
  ∃ (kept : PasswordResetTokenRecord → PasswordResetTokenRecord)
    (new : List PasswordResetTokenRecord),
    db'.passwordResetTokens = db.passwordResetTokens.map kept ++ new ∧
      ∀ t ∈ db.passwordResetTokens, Outlives t (kept t)

namespace RowsLive

variable {db db₁ db₂ : AccountDb}

theorem refl (db : AccountDb) : RowsLive db db :=
  ⟨id, [], by simp, fun _ _ => .inl rfl⟩

theorem trans (h₁ : RowsLive db db₁) (h₂ : RowsLive db₁ db₂) : RowsLive db db₂ := by
  obtain ⟨f₁, new₁, heq₁, hlive₁⟩ := h₁
  obtain ⟨f₂, new₂, heq₂, hlive₂⟩ := h₂
  refine ⟨f₂ ∘ f₁, new₁.map f₂ ++ new₂, ?_, fun t ht => (hlive₁ t ht).trans (hlive₂ _ ?_)⟩
  · rw [heq₂, heq₁, List.map_append, List.map_map, List.append_assoc]
  · rw [heq₁]
    exact List.mem_append_left _ (List.mem_map_of_mem ht)

theorem row (h : RowsLive db db₁) {t : PasswordResetTokenRecord}
    (ht : t ∈ db.passwordResetTokens) : ∃ t' ∈ db₁.passwordResetTokens, Outlives t t' := by
  obtain ⟨f, new, heq, hlive⟩ := h
  refine ⟨f t, ?_, hlive t ht⟩
  rw [heq]
  exact List.mem_append_left _ (List.mem_map_of_mem ht)

/-- The first row with a hash stays the first one. -/
theorem find (h : RowsLive db db₁) {tokenHash : String} {t : PasswordResetTokenRecord}
    (hfind : db.findPasswordResetToken tokenHash = some t) :
    ∃ t', db₁.findPasswordResetToken tokenHash = some t' ∧ Outlives t t' := by
  obtain ⟨f, new, heq, hlive⟩ := h
  refine ⟨f t, ?_, hlive t (List.mem_of_find?_eq_some hfind)⟩
  have hkept : ∀ rows : List PasswordResetTokenRecord, (∀ t ∈ rows, Outlives t (f t)) →
      (rows.map f).find? (fun t => decide (t.tokenHash = tokenHash)) =
        (rows.find? fun t => decide (t.tokenHash = tokenHash)).map f := by
    intro rows hrows
    induction rows with
    | nil => rfl
    | cons t rows ih =>
        obtain ⟨ht, hrest⟩ := List.forall_mem_cons.1 hrows
        rw [List.map_cons, List.find?_cons, List.find?_cons, ht.columns.2.2.1]
        split
        · rfl
        · exact ih hrest
  rw [AccountDb.findPasswordResetToken, heq, List.find?_append, hkept _ hlive]
  rw [AccountDb.findPasswordResetToken] at hfind
  rw [hfind]
  rfl

end RowsLive

namespace TokenEffect

variable {userId : String} {db db' : AccountDb}

theorem saveUsed_live {ids : List String} {now : ℕ}
    (hids : ∀ t ∈ db.passwordResetTokens, t.id ∈ ids → t.usedAt = none) :
    RowsLive db (db.saveUsed ids now) := by
  refine ⟨fun t => if decide (t.id ∈ ids) then { t with usedAt := some now } else t, [], ?_,
    fun t ht => ?_⟩
  · rw [List.append_nil]
    rfl
  · by_cases hid : t.id ∈ ids
    · exact .inr ⟨hids t ht hid, now, by simp [hid]⟩
    · exact .inl (by simp [hid])

/-- The ids of the unused tokens of an account mark exactly these. -/
theorem mem_unusedIds (hdb : TokenKeys db) {t : PasswordResetTokenRecord}
    (ht : t ∈ db.passwordResetTokens) :
    t.id ∈ (db.findUnusedTokens userId).map (·.id) ↔ t.userId = userId ∧ t.usedAt = none := by
  rw [List.mem_map]
  constructor
  · rintro ⟨t', ht', hid⟩
    obtain ⟨hmem, hunused⟩ := List.mem_filter.1 ht'
    obtain rfl := List.inj_on_of_nodup_map hdb.ids hmem ht hid
    simpa using hunused
  · rintro ⟨howner, hunused⟩
    exact ⟨t, List.mem_filter.2 ⟨ht, by simp [howner, hunused]⟩, rfl⟩

theorem live (h : TokenEffect userId db db') (hdb : TokenKeys db) : RowsLive db db' := by
  cases h with
  | used ids now hids => exact saveUsed_live fun t ht hid => (hids t ht hid).2
  | created token now howner haccount hfresh =>
      have hmarked : RowsLive db (db.markUsed userId now) :=
        saveUsed_live fun t ht hid => ((mem_unusedIds hdb ht).1 hid).2
      exact hmarked.trans ⟨id, [token], by simp, fun _ _ => .inl rfl⟩

theorem auth (h : TokenEffect userId db db') : db'.auth = db.auth := by
  cases h with
  | used ids now hids => rfl
  | created token now howner haccount hfresh => rfl

theorem saveUsed_ids (ids : List String) (now : ℕ) :
    (db.saveUsed ids now).passwordResetTokens.map (·.id) =
      db.passwordResetTokens.map (·.id) :=
  map_updateWhere fun _ _ => rfl

theorem keys (h : TokenEffect userId db db') (hdb : TokenKeys db) : TokenKeys db' := by
  have hused : ∀ ids now, TokenKeys (db.saveUsed ids now) := by
    refine fun ids now => ⟨(saveUsed_ids ids now).symm ▸ hdb.ids, fun t ht => ?_⟩
    obtain ⟨t', ht', rfl⟩ := mem_updateWhere.1 ht
    have hcolumn : (if decide (t'.id ∈ ids) then { t' with usedAt := some now } else t').userId =
        t'.userId := by split <;> rfl
    rw [hcolumn]
    exact hdb.accounts t' ht'
  cases h with
  | used ids now hids => exact hused ids now
  | created token now howner haccount hfresh =>
      have hmarked := hused ((db.findUnusedTokens userId).map (·.id)) now
      refine ⟨?_, fun t ht => ?_⟩
      · simp only [List.map_append, List.map_cons, List.map_nil]
        refine List.nodup_append.2 ⟨hmarked.ids, List.nodup_singleton _, ?_⟩
        rintro id hid _ hnew rfl
        obtain rfl := List.mem_singleton.1 hnew
        rw [AccountDb.markUsed, saveUsed_ids] at hid
        obtain ⟨t, ht, heq⟩ := List.mem_map.1 hid
        exact hfresh t ht heq
      · rcases List.mem_append.1 ht with hold | hnew
        · exact hmarked.accounts t hold
        · obtain rfl := List.mem_singleton.1 hnew
          exact howner ▸ haccount

/-- The tokens of the other accounts are the same rows. -/
theorem frame (h : TokenEffect userId db db') (hdb : TokenKeys db) {other : String}
    (hne : other ≠ userId) :
    db'.passwordResetTokens.filter (·.userId == other) =
      db.passwordResetTokens.filter (·.userId == other) := by
  have hused : ∀ ids now, (∀ t ∈ db.passwordResetTokens, t.id ∈ ids → t.userId = userId) →
      (db.saveUsed ids now).passwordResetTokens.filter (·.userId == other) =
        db.passwordResetTokens.filter (·.userId == other) := by
    intro ids now hids
    refine filter_updateWhere fun t ht hid => ?_
    have howner : t.userId = userId := hids t ht (of_decide_eq_true hid)
    simp [howner, hne.symm]
  cases h with
  | used ids now hids => exact hused ids now fun t ht hid => (hids t ht hid).1
  | created token now howner haccount hfresh =>
      have hmarked := hused ((db.findUnusedTokens userId).map (·.id)) now
        fun t ht hid => ((mem_unusedIds hdb ht).1 hid).1
      rw [List.filter_append, AccountDb.markUsed, hmarked]
      simp [howner, hne.symm]

end TokenEffect

theorem tokenLock_locks {β : Type} (userId : String) (rest : Unit → AccountTx β)
    (db : AccountDb) : userId ∈ ((lockAccount userId).bind rest).locks db := by
  simp [lockAccount]

theorem lockAccount_account {β : Type} {userId : String} {rest : AccountTx β}
    {db : AccountDb} {r : β × AccountDb}
    (h : ((lockAccount userId).bind fun _ => rest).run db = .ok r) :
    (db.auth.findAccountById userId).isSome ∧ rest.run db = .ok r := by
  rw [lockAccount_bind] at h
  split at h
  · rename_i haccount
    exact ⟨haccount, h⟩
  · cases h

theorem markResetTokensUsed_eq_bind (userId : String) (stamp : AccountStamp) :
    markResetTokensUsed userId stamp =
      (markResetTokensUsed userId stamp).bind fun _ => Tx.pure () :=
  (Tx.bind_pure _).symm

theorem invalidatePreviousResetTokensTx_run {userId : String} {stamp : AccountStamp}
    {db db' : AccountDb} {r : Unit}
    (h : (invalidatePreviousResetTokensTx userId stamp).run db = .ok (r, db')) :
    db' = db.markUsed userId stamp.usedAt := by
  obtain ⟨-, hrun⟩ := lockAccount_account h
  rw [markResetTokensUsed_eq_bind, markResetTokensUsed_bind] at hrun
  exact (Prod.mk.inj (Except.ok.inj hrun)).2.symm

/-- A committed transaction changes nothing, or has an effect on the tokens of an account
that it has locked. -/
theorem ResetTokenCommand.impl_effect {c : ResetTokenCommand} {stamp : AccountStamp}
    {db db' : AccountDb} {a : c.Res} (hdb : TokenKeys db)
    (h : (c.impl stamp).run db = .ok (a, db')) :
    db' = db ∨ ∃ userId ∈ (c.impl stamp).locks db, TokenEffect userId db db' := by
  cases c with
  | createPasswordResetToken userId input =>
      have haccount := (lockAccount_account h).1
      obtain ⟨hrow, hfresh, rfl⟩ := createPasswordResetTokenTx_run h
      have howner : PasswordResetTokenRecord.userId a = userId := by rw [hrow]
      exact .inr ⟨userId, tokenLock_locks userId _ db,
        .created a stamp.usedAt howner haccount hfresh⟩
  | consumePasswordResetToken tokenHash =>
      obtain ⟨-, rfl⟩ | ⟨token, hfind, hchecked, hlocked, haccount, -, rfl⟩ :=
        consumePasswordResetTokenTx_run h
      · exact .inl rfl
      have hmem : token ∈ db.passwordResetTokens := List.mem_of_find?_eq_some hfind
      refine .inr ⟨token.userId, ?_, .used [token.id] stamp.usedAt fun t ht hid => ?_⟩
      · have hchecked' : ¬ (token.usedAt.isSome ∨ token.expiresAt ≤ stamp.checkedAt) := by
          simp [hchecked.1, hchecked.2]
        have hlocks : (consumePasswordResetTokenTx tokenHash stamp).locks db =
            (consumePasswordResetTokenTx.locked tokenHash stamp token.userId).locks db := by
          simp only [consumePasswordResetTokenTx, Tx.bind_eq, Tx.query_bind, Tx.locks_read,
            hfind, if_neg hchecked']
        have hmem : token.userId ∈ (consumePasswordResetTokenTx tokenHash stamp).locks db :=
          hlocks ▸ tokenLock_locks _ _ db
        exact hmem
      · obtain rfl := List.inj_on_of_nodup_map hdb.ids ht hmem (List.mem_singleton.1 hid)
        exact ⟨rfl, hlocked.1⟩
  | invalidatePreviousResetTokens userId =>
      obtain rfl := invalidatePreviousResetTokensTx_run h
      exact .inr ⟨userId, tokenLock_locks userId _ db, .used _ _ fun t ht hid =>
        (TokenEffect.mem_unusedIds hdb ht).1 hid⟩

/-! ### The discipline -/

/-- Rows live on, and the lock of an account protects its tokens. -/
def tokenDiscipline : Discipline AccountDb String where
  Inv := TokenKeys
  Evolves db db' := db'.auth = db.auth ∧ RowsLive db db'
  Frame userId db db' :=
    db'.passwordResetTokens.filter (·.userId == userId) =
      db.passwordResetTokens.filter (·.userId == userId)
  evolves_refl db := ⟨rfl, .refl db⟩
  evolves_trans _ _ _ h₁ h₂ := ⟨h₂.1.trans h₁.1, h₁.2.trans h₂.2⟩
  frame_refl _ _ := rfl
  frame_trans _ _ _ _ h₁ h₂ := h₂.trans h₁

section

variable {userId : String} {H : List String} {db db' : AccountDb}

/-- Behind its owner's lock a token is found as it was. -/
theorem findToken_env (h : tokenDiscipline.Env H db db') {tokenHash : String}
    {t : PasswordResetTokenRecord} (hH : t.userId ∈ H)
    (hfind : db.findPasswordResetToken tokenHash = some t) :
    db'.findPasswordResetToken tokenHash = some t := by
  obtain ⟨t', hfind', hlive⟩ := h.evolves.2.find hfind
  have hframe : t ∈ db'.passwordResetTokens.filter (·.userId == t.userId) := by
    rw [h.frame t.userId hH]
    exact List.mem_filter.2 ⟨List.mem_of_find?_eq_some hfind, beq_self_eq_true _⟩
  obtain rfl := List.inj_on_of_nodup_map h.inv.ids (List.mem_of_find?_eq_some hfind')
    (List.mem_filter.1 hframe).1 hlive.columns.1
  exact hfind'

theorem findUnusedTokens_env (h : tokenDiscipline.Env H db db') (hH : userId ∈ H) :
    db'.findUnusedTokens userId = db.findUnusedTokens userId := by
  have hfilter : ∀ d : AccountDb, d.findUnusedTokens userId =
      (d.passwordResetTokens.filter (·.userId == userId)).filter (·.usedAt.isNone) := by
    intro d
    rw [List.filter_filter]
    exact List.filter_congr fun t _ => Bool.and_comm _ _
  rw [hfilter, hfilter, h.frame userId hH]

/-- A body that starts with `lockAccount` needs to be protected only behind the lock. -/
theorem tokenLock_stable {β : Type} {rest : AccountTx β}
    (hrest : ∀ d, tokenDiscipline.Env H db d →
      tokenDiscipline.Stable rest (userId :: H) [] d) :
    tokenDiscipline.Stable ((lockAccount userId).bind fun _ => rest) H [] db := by
  have hbind : (lockAccount userId).bind (fun _ => rest) =
      .lock userId ((Tx.query fun db => db.auth.findAccountById userId).bind
        fun account => account.elim (Tx.throw (.error "Account not found.")) fun _ => rest) := by
    simp only [lockAccount, Tx.bind_eq, Tx.acquire_bind, Tx.lock_bind, Tx.bind_assoc]
    congr 2
    funext account
    cases account <;> rfl
  rw [hbind]
  intro d₁ henv₁
  refine Discipline.stable_query_bind
    (fun d₂ d₃ _ henv₃ => by rw [henv₃.evolves.1]) fun d₂ henv₂ => ?_
  cases d₂.auth.findAccountById userId with
  | none => trivial
  | some account =>
      have henv₂' : tokenDiscipline.Env H d₁ d₂ :=
        henv₂.mono fun k hk => List.mem_cons_of_mem userId hk
      exact hrest d₂ (henv₁.trans henv₂')

theorem markResetTokensUsed_stable {β : Type} {rest : AccountTx β} {stamp : AccountStamp}
    (hH : userId ∈ H) (hrest : ∀ ws d, tokenDiscipline.Stable rest H ws d) :
    tokenDiscipline.Stable ((markResetTokensUsed userId stamp).bind fun _ => rest) H [] db := by
  rw [markResetTokensUsed, Tx.bind_eq, Tx.bind_assoc]
  refine Discipline.stable_query_bind
    (fun d₁ d₂ _ henv => findUnusedTokens_env henv hH) fun d₁ _ => ?_
  split
  · exact hrest _ _
  · exact fun _ _ _ _ => hrest _ _

/-- The part of `consumePasswordResetToken` behind the choice of the account. -/
theorem consumeLocked_stable {tokenHash : String} {stamp : AccountStamp}
    {token : PasswordResetTokenRecord}
    (hfind : db.findPasswordResetToken tokenHash = some token) :
    tokenDiscipline.Stable
      (consumePasswordResetTokenTx.locked tokenHash stamp token.userId) [] [] db := by
  refine tokenLock_stable fun d henv => ?_
  obtain ⟨t, hfind₁, hlive⟩ := henv.evolves.2.find hfind
  have hH : t.userId ∈ [token.userId] := List.mem_singleton.2 hlive.columns.2.1
  refine Discipline.stable_query_bind (fun d₁ d₂ henv₁ henv₂ => ?_) fun d₁ henv₁ => ?_
  · have hfind₂ := findToken_env henv₁ hH hfind₁
    rw [hfind₂, findToken_env henv₂ hH hfind₂]
  · simp only [findToken_env henv₁ hH hfind₁]
    split
    · trivial
    · exact fun _ _ _ _ => trivial

/-- A token that has been used before the lock is taken is found used behind it. -/
theorem consumePasswordResetTokenTx_tracks (tokenHash : String) (stamp : AccountStamp)
    (db : AccountDb) :
    tokenDiscipline.Tracks (consumePasswordResetTokenTx tokenHash stamp)
      (consumePasswordResetTokenTx tokenHash stamp) [] [] db := by
  refine Discipline.tracks_query_bind fun d henv => ?_
  cases hfind : d.findPasswordResetToken tokenHash with
  | none => exact .inl ⟨_, rfl⟩
  | some token =>
      by_cases hchecked : token.usedAt.isSome ∨ token.expiresAt ≤ stamp.checkedAt
      · exact .inl ⟨none, by simp only [if_pos hchecked]; rfl⟩
      refine .inr (.inr ⟨fun d' henv' => ?_, ?_⟩)
      · obtain ⟨t, hfind', hlive⟩ := henv'.evolves.2.find hfind
        obtain ⟨-, howner, -, hexpires⟩ := hlive.columns
        have haccount : (d'.auth.findAccountById token.userId).isSome :=
          howner ▸ henv'.inv.accounts t (List.mem_of_find?_eq_some hfind')
        simp only [hfind', if_neg hchecked]
        by_cases hchecked' : t.usedAt.isSome ∨ t.expiresAt ≤ stamp.checkedAt
        · -- Another transaction has used the token meanwhile.
          have hused : t.usedAt.isSome := hchecked'.resolve_right fun hexpired =>
            hchecked (.inr (hexpires ▸ hexpired))
          have hlocked : t.usedAt.isSome ∨ t.expiresAt ≤ stamp.lockedAt := .inl hused
          simp only [if_pos hchecked', consumePasswordResetTokenTx.locked, Tx.bind_eq,
            lockAccount_bind, if_pos haccount, Tx.query_bind, Tx.run_read, hfind',
            if_pos hlocked]
          exact ⟨trivial, by simp⟩
        · simp only [if_neg hchecked', howner]
          exact ⟨trivial, fun _ hk => hk⟩
      · simp only [if_neg hchecked]
        exact consumeLocked_stable hfind

end

/-- Every transaction on reset tokens can be read as executed alone. -/
theorem tokenDiscipline_valid : tokenDiscipline.Valid resetTokens where
  guarantee c stamp db a db' hdb h := by
    rcases c.impl_effect hdb h with rfl | ⟨userId, hlock, heffect⟩
    · exact ⟨hdb, tokenDiscipline.evolves_refl _, fun k _ => tokenDiscipline.frame_refl k _⟩
    · exact ⟨heffect.keys hdb, ⟨heffect.auth, heffect.live hdb⟩, fun k hk =>
        heffect.frame hdb fun heq => hk (heq ▸ hlock)⟩
  tracks c stamp db hdb := by
    cases c with
    | createPasswordResetToken userId input =>
        refine Discipline.Stable.tracks (tokenLock_stable fun d _ => ?_)
          (tokenDiscipline.follows_self _ db) hdb
        exact markResetTokensUsed_stable List.mem_cons_self fun ws d _ _ _ _ => trivial
    | consumePasswordResetToken tokenHash =>
        exact consumePasswordResetTokenTx_tracks tokenHash stamp db
    | invalidatePreviousResetTokens userId =>
        refine Discipline.Stable.tracks (tokenLock_stable fun d _ => ?_)
          (tokenDiscipline.follows_self _ db) hdb
        rw [markResetTokensUsed_eq_bind]
        have hrest : ∀ ws d, tokenDiscipline.Stable
            (Tx.pure () : AccountTx Unit) [userId] ws d := fun _ _ => trivial
        exact markResetTokensUsed_stable List.mem_cons_self hrest

end Account

end Shortlink

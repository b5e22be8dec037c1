import Shortlink.Account.ResetTokens
import Shortlink.Auth.Sessions

/-!
# Reset tokens are single-use and superseding

What the log of the finished transactions says about the table of reset tokens: an unused
token is the newest one of its account, and a token that has been consumed is used. Used
rows never change, so no token is returned twice.
-/

namespace Shortlink

namespace Account

open Shortlink.Storage Shortlink.Table Shortlink.Transaction Shortlink.Interaction
open Shortlink.Auth (AuthDb exampleUser)

abbrev ResetTokenEntry : Type :=
  Record ResetTokenCommand ResetTokenCommand.Res AccountStamp StorageError

/-- The token that a finished transaction has created. -/
def createdToken : ResetTokenEntry → Option PasswordResetTokenRecord
  | ⟨_, .createPasswordResetToken _ _, _, .ok token, _⟩ => some token
  | _ => none

/-- The token that a finished transaction has consumed and returned. -/
def consumedToken : ResetTokenEntry → Option PasswordResetTokenRecord
  | ⟨_, .consumePasswordResetToken _, _, .ok token, _⟩ => token
  | _ => none

/-- The token of an account that was created last. -/
def newestToken (userId : String) (log : List ResetTokenEntry) :
    Option PasswordResetTokenRecord :=
  log.findSome? fun r => (createdToken r).filter (·.userId == userId)

/-- What the finished transactions tell of the table. -/
structure Recorded (log : List ResetTokenEntry) (db : AccountDb) : Prop where
  newest : ∀ t ∈ db.passwordResetTokens, t.usedAt = none →
    newestToken t.userId log = some t
  used : ∀ r ∈ log, ∀ t, consumedToken r = some t →
    ∃ t' ∈ db.passwordResetTokens, t'.id = t.id ∧ t'.usedAt.isSome

theorem newestToken_cons (userId : String) (r : ResetTokenEntry)
    (log : List ResetTokenEntry) (h : ∀ t, createdToken r = some t → t.userId ≠ userId) :
    newestToken userId (r :: log) = newestToken userId log := by
  have hnone : (createdToken r).filter (·.userId == userId) = none := by
    cases hr : createdToken r with
    | none => rfl
    | some t => simp [h t hr]
  rw [newestToken, List.findSome?_cons, hnone]
  rfl

theorem newestToken_created (r : ResetTokenEntry) (log : List ResetTokenEntry)
    {t : PasswordResetTokenRecord} (h : createdToken r = some t) :
    newestToken t.userId (r :: log) = some t := by
  simp [newestToken, h]

section

variable {db db' : AccountDb} {log : List ResetTokenEntry}

/-- An unused row after tokens have been marked was there before, and is not one of
them. -/
theorem unused_of_saveUsed {ids : List String} {now : ℕ} {t : PasswordResetTokenRecord}
    (ht : t ∈ (db.saveUsed ids now).passwordResetTokens) (hunused : t.usedAt = none) :
    t ∈ db.passwordResetTokens ∧ t.id ∉ ids := by
  obtain ⟨t', ht', rfl⟩ := mem_updateWhere.1 ht
  by_cases hid : t'.id ∈ ids
  · simp [hid] at hunused
  · simpa [hid] using ht'

/-- Consumed tokens stay used. -/
theorem Recorded.used_of_live (h : Recorded log db) (hlive : RowsLive db db')
    {r : ResetTokenEntry} (hr : r ∈ log) {t : PasswordResetTokenRecord}
    (ht : consumedToken r = some t) :
    ∃ t' ∈ db'.passwordResetTokens, t'.id = t.id ∧ t'.usedAt.isSome := by
  obtain ⟨t₁, ht₁, hid, hused⟩ := h.used r hr t ht
  obtain ⟨t₂, ht₂, hlives⟩ := hlive.row ht₁
  obtain rfl := hlives.used hused
  exact ⟨t₂, ht₂, hid, hused⟩

/-- Marking the unused tokens of an account leaves those of the others. -/
theorem Recorded.newest_of_markUsed (h : Recorded log db) (hdb : TokenKeys db)
    {userId : String} {now : ℕ} {t : PasswordResetTokenRecord}
    (ht : t ∈ (db.markUsed userId now).passwordResetTokens) (hunused : t.usedAt = none) :
    t.userId ≠ userId ∧ newestToken t.userId log = some t := by
  obtain ⟨hmem, hid⟩ := unused_of_saveUsed ht hunused
  refine ⟨fun howner => hid ?_, h.newest t hmem hunused⟩
  exact (TokenEffect.mem_unusedIds hdb hmem).2 ⟨howner, hunused⟩

/-- A transaction executed alone keeps what the log tells. -/
theorem Recorded.commit (h : Recorded log db) (hdb : TokenKeys db) {i : ℕ}
    {c : ResetTokenCommand} {stamp : AccountStamp} {a : c.Res} {wrote : Bool}
    (hrun : (c.impl stamp).run db = .ok (a, db')) :
    Recorded (⟨i, c, stamp, .ok a, wrote⟩ :: log) db' := by
  have hlive : RowsLive db db' := by
    rcases c.impl_effect hdb hrun with rfl | ⟨userId, -, heffect⟩
    · exact .refl _
    · exact heffect.live hdb
  cases c with
  | createPasswordResetToken userId input =>
      obtain ⟨hrow, -, rfl⟩ := createPasswordResetTokenTx_run hrun
      have howner : PasswordResetTokenRecord.userId a = userId := by rw [hrow]
      refine ⟨fun t ht hunused => ?_, fun r hr t ht => ?_⟩
      · rcases List.mem_append.1 ht with hold | hnew
        · obtain ⟨hother, hnewest⟩ := h.newest_of_markUsed hdb hold hunused
          rw [newestToken_cons _ _ _ fun t' ht' => ?_, hnewest]
          obtain rfl := Option.some.inj ht'
          exact fun heq => hother (heq.symm.trans howner)
        · obtain rfl := List.mem_singleton.1 hnew
          exact newestToken_created _ _ rfl
      · rcases List.mem_cons.1 hr with rfl | hr
        · cases ht
        · exact h.used_of_live hlive hr ht
  | consumePasswordResetToken tokenHash =>
      refine ⟨fun t ht hunused => ?_, fun r hr t ht => ?_⟩
      · rw [newestToken_cons _ _ _ fun t' ht' => (by cases ht')]
        obtain ⟨-, rfl⟩ | ⟨token, -, -, -, -, -, rfl⟩ := consumePasswordResetTokenTx_run hrun
        · exact h.newest t ht hunused
        · exact h.newest t (unused_of_saveUsed ht hunused).1 hunused
      · rcases List.mem_cons.1 hr with rfl | hr
        · have hreply : a = some t := ht
          obtain ⟨hnone, -⟩ | ⟨token, hfind, -, -, -, hsome, rfl⟩ :=
            consumePasswordResetTokenTx_run hrun
          · cases hnone.symm.trans hreply
          · obtain rfl := Option.some.inj (hsome.symm.trans hreply)
            exact ⟨_, mem_updateWhere_of (List.mem_of_find?_eq_some hfind) (by simp), rfl, rfl⟩
        · exact h.used_of_live hlive hr ht
  | invalidatePreviousResetTokens userId =>
      obtain rfl := invalidatePreviousResetTokensTx_run hrun
      refine ⟨fun t ht hunused => ?_, fun r hr t ht => ?_⟩
      · rw [newestToken_cons _ _ _ fun t' ht' => (by cases ht')]
        exact (h.newest_of_markUsed hdb ht hunused).2
      · rcases List.mem_cons.1 hr with rfl | hr
        · cases ht
        · exact h.used_of_live hlive hr ht

/-- A transaction that creates or returns a token changes the table. -/
theorem changes_of_token {c : ResetTokenCommand} {stamp : AccountStamp} {a : c.Res}
    (hrun : (c.impl stamp).run db = .ok (a, db)) (i : ℕ) (wrote : Bool) :
    createdToken ⟨i, c, stamp, .ok a, wrote⟩ = none ∧
      consumedToken ⟨i, c, stamp, .ok a, wrote⟩ = none := by
  cases c with
  | createPasswordResetToken userId input =>
      obtain ⟨-, -, hdb⟩ := createPasswordResetTokenTx_run hrun
      have hmarked : (db.markUsed userId stamp.usedAt).passwordResetTokens.length =
          db.passwordResetTokens.length := List.length_map _
      have hrows : db.passwordResetTokens.length =
          (db.markUsed userId stamp.usedAt).passwordResetTokens.length + 1 :=
        (congrArg (List.length ∘ AccountDb.passwordResetTokens) hdb).trans List.length_append
      omega
  | consumePasswordResetToken tokenHash =>
      refine ⟨rfl, ?_⟩
      obtain ⟨rfl, -⟩ | ⟨token, hfind, hchecked, -, -, -, hdb⟩ :=
        consumePasswordResetTokenTx_run hrun
      · rfl
      · have hmem : token ∈ db.passwordResetTokens := List.mem_of_find?_eq_some hfind
        rw [hdb] at hmem
        exact absurd List.mem_cons_self (unused_of_saveUsed hmem hchecked.1).2
  | invalidatePreviousResetTokens userId => exact ⟨rfl, rfl⟩

end

/-! ### Runs -/

section

variable {auth : AuthDb} {σ σ' : ResetTokenState}

abbrev TokenGood (auth : AuthDb) (σ : ResetTokenState) : Prop :=
  Good tokenDiscipline resetTokens ⟨auth, []⟩ σ

theorem tokenGood (h : resetTokens.Reaches (State.init ⟨auth, []⟩) σ) : TokenGood auth σ := by
  have hempty : tokenDiscipline.Inv ⟨auth, []⟩ := ⟨List.nodup_nil, nofun⟩
  exact ((good_init hempty).reaches tokenDiscipline_valid h).1

/-- A transaction without a write has created and returned no token. -/
theorem TokenGood.quiet (h : TokenGood auth σ) {l₁ l₂ : List ResetTokenEntry}
    {r : ResetTokenEntry} (hl : σ.log = l₂ ++ r :: l₁) (hr : r.wrote = false) :
    createdToken r = none ∧ consumedToken r = none := by
  obtain ⟨i, c, stamp, reply, wrote⟩ := r
  cases reply with
  | ok a =>
      obtain ⟨-, db, -, -, hrun⟩ := h.reads l₁ l₂ _ a hl hr rfl
      exact changes_of_token hrun i wrote
  | error e => cases c <;> exact ⟨rfl, rfl⟩

theorem recorded_of_serial {log : List ResetTokenEntry} {db : AccountDb}
    (h : Serial resetTokens ⟨auth, []⟩ [] log db)
    (hquiet : ∀ r ∈ log, r.wrote = false → createdToken r = none ∧ consumedToken r = none) :
    TokenKeys db ∧ Recorded log db := by
  induction h with
  | base => exact ⟨⟨List.nodup_nil, nofun⟩, nofun, nofun⟩
  | commit _ hrun ih =>
      obtain ⟨hkeys, hrecorded⟩ := ih fun r hr => hquiet r (List.mem_cons_of_mem _ hr)
      refine ⟨?_, hrecorded.commit hkeys hrun⟩
      exact (tokenDiscipline_valid.guarantee _ _ _ _ _ hkeys hrun).1
  | quiet r _ hr ih =>
      obtain ⟨hkeys, hrecorded⟩ := ih fun r hr => hquiet r (List.mem_cons_of_mem _ hr)
      obtain ⟨hcreated, hconsumed⟩ := hquiet r List.mem_cons_self hr
      refine ⟨hkeys, fun t ht hunused => ?_, fun r' hr' t ht => ?_⟩
      · rw [newestToken_cons _ _ _ fun t' ht' => (by rw [hcreated] at ht'; cases ht')]
        exact hrecorded.newest t ht hunused
      · rcases List.mem_cons.1 hr' with rfl | hr'
        · rw [hconsumed] at ht
          cases ht
        · exact hrecorded.used r' hr' t ht

theorem TokenGood.recorded (h : TokenGood auth σ) {l₁ l₂ : List ResetTokenEntry}
    (hl : σ.log = l₂ ++ l₁) {db : AccountDb}
    (hserial : Serial resetTokens ⟨auth, []⟩ [] l₁ db) : TokenKeys db ∧ Recorded l₁ db := by
  refine recorded_of_serial hserial fun r hr hwrote => ?_
  obtain ⟨l₄, l₃, rfl⟩ := List.append_of_mem hr
  exact h.quiet (hl.trans (List.append_assoc _ _ _).symm) hwrote

/-- The transaction `r` that returns `t` comes after `log`. -/
structure ConsumedOnce (log : List ResetTokenEntry) (r : ResetTokenEntry)
    (t : PasswordResetTokenRecord) : Prop where
  newest : ∃ token, newestToken t.userId log = some token ∧ token.usedAt = none ∧
    t = { token with usedAt := some r.outside.usedAt }
  unexpired : r.outside.checkedAt < t.expiresAt ∧ r.outside.lockedAt < t.expiresAt
  first : ∀ r' ∈ log, ∀ t', consumedToken r' = some t' → t'.id ≠ t.id

theorem TokenGood.consumedOnce (h : TokenGood auth σ) {l₁ l₂ : List ResetTokenEntry}
    {r : ResetTokenEntry} (hl : σ.log = l₂ ++ r :: l₁) {t : PasswordResetTokenRecord}
    (ht : consumedToken r = some t) : ConsumedOnce l₁ r t := by
  have hwrote : r.wrote = true := by
    by_contra hquiet
    rw [(h.quiet hl (by simpa using hquiet)).2] at ht
    cases ht
  have hsplit : σ.log = (l₂ ++ [r]) ++ l₁ := by simp [hl]
  obtain ⟨i, c, stamp, reply, wrote⟩ := r
  obtain ⟨db, db', a, rfl, hserial, hrun, -⟩ : ∃ db db' a, reply = .ok a ∧
      Serial resetTokens ⟨auth, []⟩ [] l₁ db ∧ (c.impl stamp).run db = .ok (a, db') ∧ _ :=
    h.serial.exists_run hl List.nil_suffix hwrote
  obtain ⟨hkeys, hrecorded⟩ := h.recorded hsplit hserial
  cases c with
  | createPasswordResetToken userId input => cases ht
  | invalidatePreviousResetTokens userId => cases ht
  | consumePasswordResetToken tokenHash =>
      have ha : a = some t := ht
      obtain ⟨hnone, -⟩ | ⟨token, hfind, hchecked, hlocked, -, hsome, -⟩ :=
        consumePasswordResetTokenTx_run hrun
      · cases hnone.symm.trans ha
      obtain rfl := Option.some.inj (hsome.symm.trans ha)
      have hmem : token ∈ db.passwordResetTokens := List.mem_of_find?_eq_some hfind
      refine ⟨⟨token, hrecorded.newest token hmem hlocked.1, hlocked.1, rfl⟩,
        ⟨hchecked.2, hlocked.2⟩, fun r' hr' t' ht' hid => ?_⟩
      obtain ⟨row, hrow, hrowid, hused⟩ := hrecorded.used r' hr' t' ht'
      obtain rfl := List.inj_on_of_nodup_map hkeys.ids hrow hmem (hrowid.trans hid)
      rw [hlocked.1] at hused
      cases hused

/-- Two transactions that return the same token are the same one. -/
theorem TokenGood.consumed_unique (h : TokenGood auth σ) {r r' : ResetTokenEntry}
    (hr : r ∈ σ.log) (hr' : r' ∈ σ.log) {t t' : PasswordResetTokenRecord}
    (ht : consumedToken r = some t) (ht' : consumedToken r' = some t') (hid : t'.id = t.id) :
    r' = r := by
  obtain ⟨l₂, l₁, hl⟩ := List.append_of_mem hr
  rw [hl] at hr'
  rcases List.mem_append.1 hr' with hlater | hrest
  · obtain ⟨l₄, l₃, rfl⟩ := List.append_of_mem hlater
    rw [List.append_assoc, List.cons_append] at hl
    exact absurd hid.symm ((h.consumedOnce hl ht').first r
      (List.mem_append_right _ List.mem_cons_self) t ht)
  · rcases List.mem_cons.1 hrest with hsame | hearlier
    · exact hsame
    · exact absurd hid ((h.consumedOnce hl ht).first r' hearlier t' ht')

theorem Recorded.unused_le_one {log : List ResetTokenEntry} {db : AccountDb}
    (h : Recorded log db) (hdb : TokenKeys db) (userId : String) :
    (db.findUnusedTokens userId).length ≤ 1 := by
  have hnewest : ∀ t ∈ db.findUnusedTokens userId, newestToken userId log = some t := by
    intro t ht
    obtain ⟨hmem, hunused⟩ := List.mem_filter.1 ht
    obtain ⟨howner, hnone⟩ : t.userId = userId ∧ t.usedAt = none := by simpa using hunused
    exact howner ▸ h.newest t hmem hnone
  have hnodup : (db.findUnusedTokens userId).Nodup :=
    (List.Nodup.of_map _ hdb.ids).filter _
  rcases hrows : db.findUnusedTokens userId with _ | ⟨t, _ | ⟨t', rows⟩⟩
  · exact Nat.zero_le _
  · exact Nat.le_refl _
  · rw [hrows] at hnewest hnodup
    have heq := (hnewest t List.mem_cons_self).symm.trans
      (hnewest t' (List.mem_cons_of_mem _ List.mem_cons_self))
    obtain rfl := Option.some.inj heq
    exact absurd List.mem_cons_self (List.nodup_cons.1 hnodup).1

/-- A call that returns a token has a transaction that consumed it. -/
theorem consumed_of_result (h : resetTokens.Reaches (State.init ⟨auth, []⟩) σ) {i : ℕ}
    {tokenHash : String} {t : PasswordResetTokenRecord}
    (hi : σ.result? i = some ⟨.consumePasswordResetToken tokenHash, .ok (some t)⟩) :
    ∃ r ∈ σ.log, r.client = i ∧ consumedToken r = some t := by
  have howes : ∀ call, (resetTokens.body call).Owes
      (fun c reply => (⟨c, reply⟩ : ResetTokenReply) =
        ⟨.consumePasswordResetToken tokenHash, .ok (some t)⟩)
      (· = ⟨.consumePasswordResetToken tokenHash, .ok (some t)⟩) :=
    fun _ _ => em _
  obtain ⟨⟨k, c, stamp, reply, wrote⟩, hr, hclient, heq⟩ := h.owes howes hi rfl
  have heq' : (⟨c, reply⟩ : ResetTokenReply) =
      ⟨.consumePasswordResetToken tokenHash, .ok (some t)⟩ := heq
  cases heq'
  exact ⟨_, hr, hclient, rfl⟩

/-- In every state reached by interleaving the statements of the three methods an account
has at most one unused token, the one created last; a used token stays as it is. A
transaction that returns a token does so before it expires, when it is the newest of its
account, and for the first time; so no two calls return the same token. -/
theorem reset_tokens_single_use (auth : AuthDb) {σ σ' : ResetTokenState}
    (h : resetTokens.Reaches (State.init ⟨auth, []⟩) σ) (h' : resetTokens.Reaches σ σ') :
    (∀ userId, (σ.db.findUnusedTokens userId).length ≤ 1) ∧
    (∀ t ∈ σ.db.passwordResetTokens, t.usedAt = none →
      newestToken t.userId σ.log = some t) ∧
    (∀ t ∈ σ.db.passwordResetTokens, t.usedAt.isSome → t ∈ σ'.db.passwordResetTokens ∧
      ∀ t' ∈ σ'.db.passwordResetTokens, t'.id = t.id → t' = t) ∧
    (∀ l₁ l₂ r t, σ.log = l₂ ++ r :: l₁ → consumedToken r = some t → ConsumedOnce l₁ r t) ∧
    ∀ (i j : ℕ) (tokenHash tokenHash' : String) (t t' : PasswordResetTokenRecord),
      σ.result? i = some ⟨.consumePasswordResetToken tokenHash, .ok (some t)⟩ →
      σ.result? j = some ⟨.consumePasswordResetToken tokenHash', .ok (some t')⟩ →
      t'.id = t.id → j = i := by
  have hgood := tokenGood h
  have hgood' := tokenGood (h.trans h')
  obtain ⟨hkeys, hrecorded⟩ := hgood.recorded (List.nil_append _).symm hgood.serial
  obtain ⟨hkeys', -⟩ := hgood'.recorded (List.nil_append _).symm hgood'.serial
  have hlive : RowsLive σ.db σ'.db :=
    (hgood.reaches tokenDiscipline_valid h').2.relates
      (fun _ _ _ _ _ hd hrun => (tokenDiscipline_valid.guarantee _ _ _ _ _ hd hrun).1)
      RowsLive.refl (fun _ _ _ => RowsLive.trans)
      (fun _ _ _ _ _ hd hrun => (tokenDiscipline_valid.guarantee _ _ _ _ _ hd hrun).2.1.2)
      hkeys
  refine ⟨hrecorded.unused_le_one hkeys, hrecorded.newest, fun t ht hused => ?_,
    fun l₁ l₂ r t hl ht => hgood.consumedOnce hl ht, ?_⟩
  · obtain ⟨t₁, ht₁, hlives⟩ := hlive.row ht
    obtain rfl := hlives.used hused
    exact ⟨ht₁, fun t' ht' hid => List.inj_on_of_nodup_map hkeys'.ids ht' ht₁ hid⟩
  · intro i j tokenHash tokenHash' t t' hi hj hid
    obtain ⟨r, hr, rfl, ht⟩ := consumed_of_result h hi
    obtain ⟨r', hr', rfl, ht'⟩ := consumed_of_result h hj
    rw [hgood.consumed_unique hr hr' ht ht' hid]

end

/-- A transaction of client `i` with `n` statements, executed without a pause. -/
def whole (i n : ℕ) (id : String) : List (Action ResetTokenCommand AccountStamp StorageError) :=
  .begin i ⟨id, i, i, i, i⟩ :: List.replicate n (.advance i) ++ [.commit i]

/-- Two clients read the first token before one of them locks the account; then two
tokens are created, and the superseded one is presented. -/
def concurrentConsumers : List (Action ResetTokenCommand AccountStamp StorageError) :=
  .spawn (.createPasswordResetToken "u" ⟨"h0", 90⟩) :: whole 0 4 "t0" ++
  [.spawn (.consumePasswordResetToken "h0"), .spawn (.consumePasswordResetToken "h0"),
    .begin 1 ⟨"", 1, 1, 1, 1⟩, .begin 2 ⟨"", 2, 2, 2, 2⟩, .advance 1, .advance 2] ++
  List.replicate 4 (.advance 1) ++ [.commit 1] ++ List.replicate 3 (.advance 2) ++ [.commit 2,
    .spawn (.createPasswordResetToken "u" ⟨"h3", 90⟩)] ++ whole 3 4 "t3" ++
  .spawn (.createPasswordResetToken "u" ⟨"h4", 90⟩) :: whole 4 5 "t4" ++
  .spawn (.consumePasswordResetToken "h3") :: whole 5 1 ""

def afterConsumers : ResetTokenState :=
  resetTokens.after concurrentConsumers (State.init ⟨⟨[exampleUser], [], []⟩, []⟩)

set_option maxRecDepth 4000 in
theorem firstConsumer_gets_token :
    (∃ t, afterConsumers.result? 1 = some ⟨.consumePasswordResetToken "h0", .ok (some t)⟩ ∧
      ∀ j tokenHash t', afterConsumers.result? j =
        some ⟨.consumePasswordResetToken tokenHash, .ok (some t')⟩ → t'.id = t.id → j = 1) ∧
    afterConsumers.result? 2 = some ⟨.consumePasswordResetToken "h0", .ok none⟩ ∧
    afterConsumers.result? 5 = some ⟨.consumePasswordResetToken "h3", .ok none⟩ ∧
    (afterConsumers.db.findUnusedTokens "u").map (·.id) = ["t4"] :=
  ⟨⟨_, rfl, fun j tokenHash t' hj hid =>
      (reset_tokens_single_use ⟨[exampleUser], [], []⟩ (resetTokens.reaches_after _ _)
        .refl).2.2.2.2 1 j "h0" tokenHash _ t' rfl hj hid⟩, rfl, rfl, by decide⟩

end Account

end Shortlink

import Shortlink.Account.Cutoff

/-!
# Secrets of the current issuance

An attempt of the worker checks that its issuance is current, stores a new secret,
and checks again before it sends the mail. The store comes after the first check,
so an attempt that a newer issuance has overtaken can still replace the secret of
this issuance, which has been mailed already (`overtaken_attempt_replaces_token`).

While the attempts for an account store only under the issuance that is current, a
secret that the current issuance has stored stays the one that is accepted
(`current_secret_stays_accepted`). The invariant is `Protected`: the issuance is
still current or has disappeared, and the secret is stored.
-/

namespace Shortlink

namespace Account

open Shortlink.Storage Shortlink.Table Shortlink.Transaction Shortlink.Interaction
open Shortlink.Expiring Shortlink.Auth

/-! ### Issuances and secrets -/

def AccountState.currentIssuance (s : AccountState) (purpose : AuthIssuancePurpose)
    (userId : String) : Option String :=
  s.auth.redis.get (.issuance purpose userId)

/-- The issuance that a job of the worker belongs to. -/
def AccountCall.issuanceId? : AccountCall → Option String
  | .processVerificationCode data => some data.issuanceId
  | .processPasswordReset data => some data.issuanceId
  | _ => none

/-- The issuance of the attempt started as number `j`. -/
def issuanceOf (σ : AccountPool) (j : ℕ) : Option String :=
  σ.threads[j]?.bind fun th => th.call.issuanceId?

/-- The purpose and the account of the secret that a step stores. -/
def AccountStep.stores? : AccountStep → Option (AuthIssuancePurpose × String)
  | .redis (.set (.activation userId) _ _) => some (.activation, userId)
  | .repository (.createPasswordResetToken userId _) => some (.reset, userId)
  | _ => none

/-- What an attempt stores: an activation code or a reset token. -/
inductive IssuedSecret where
  | activationCode (code : String) (resendAvailableAt : ℕ)
  | resetToken (token : String) (expiresAt : ℕ)

namespace IssuedSecret

def purpose : IssuedSecret → AuthIssuancePurpose
  | .activationCode _ _ => .activation
  | .resetToken _ _ => .reset

/-- The entry of the history that stores a secret for an account. -/
inductive StoredBy (config : AccountConfig) (userId : String) :
    IssuedSecret → Entry AccountStep AccountStep.Reply → Prop
  | code (j : ℕ) (code : String) (resendAvailableAt : ℕ) :
      StoredBy config userId (.activationCode code resendAvailableAt)
        ⟨j, .redis (.set (.activation userId)
          (⟨config.auth.hmac code, 0, resendAvailableAt⟩ : ActivationPayload)
            TTL_ONE_HOUR_SECONDS), Except.ok ()⟩
  | token (j : ℕ) (token : String) (expiresAt : ℕ) (row : PasswordResetTokenRecord) :
      StoredBy config userId (.resetToken token expiresAt)
        ⟨j, .repository (.createPasswordResetToken userId
          ⟨config.auth.hashToken token, expiresAt⟩), Except.ok row⟩

/-- No stored token has the hash of this one. -/
def Fresh (config : AccountConfig) (s : AccountState) : IssuedSecret → Prop
  | .activationCode _ _ => True
  | .resetToken token _ => s.db.findPasswordResetToken (config.auth.hashToken token) = none

/-- The step consumes the secret, or sets a newer issuance for the account. -/
def endedBy (config : AccountConfig) (userId : String) : IssuedSecret → AccountStep → Bool
  | secret, .auth (.redis (.set (.issuance purpose subjectId) _ _)) =>
      purpose = secret.purpose && subjectId = userId
  | .activationCode code _, .redis (.consumeActivation subjectId codeHmac) =>
      subjectId = userId && codeHmac = config.auth.hmac code
  | .resetToken token _, .repository (.consumePasswordResetToken tokenHash) =>
      tokenHash = config.auth.hashToken token
  | _, _ => false

end IssuedSecret

/-- `consumeActivationCode` answers `consumed`. -/
def AcceptsCode (config : AccountConfig) (s : AccountState) (userId code : String) : Prop :=
  (CONSUME_ACTIVATION_LUA userId (config.auth.hmac code) s.entries).1 = .consumed

/-- `consumePasswordResetToken` answers with a token of the account. -/
def AcceptsToken (config : AccountConfig) (s : AccountState) (userId token : String)
    (stamp : AccountStamp) : Prop :=
  ∃ row db, (consumePasswordResetTokenTx (config.auth.hashToken token) stamp).run s.db =
    .ok (some row, db) ∧ row.userId = userId

/-- Until it expires the secret, and no other one, is accepted for the account. -/
def IssuedSecret.OnlyAccepted (config : AccountConfig) (s : AccountState) (userId : String)
    (storedAt : ℕ) : IssuedSecret → Prop
  | .activationCode code _ => s.entries.now < storedAt + TTL_ONE_HOUR_SECONDS * 1000 →
      ∀ code', AcceptsCode config s userId code' ↔
        config.auth.hmac code' = config.auth.hmac code
  | .resetToken token expiresAt => ∀ stamp : AccountStamp, stamp.checkedAt < expiresAt →
      stamp.lockedAt < expiresAt → ∀ token', AcceptsToken config s userId token' stamp ↔
        config.auth.hashToken token' = config.auth.hashToken token

/-- The step is not refused. -/
def AccountOutside.takesEffect (o : AccountOutside) : Bool :=
  match o.auth.fault with
  | .refused _ => false
  | _ => true

/-- A secret of this purpose is stored for the account only by an attempt whose issuance
is current. -/
def StoresWhenCurrent (purpose : AuthIssuancePurpose) (userId : String) (σ : AccountPool) :
    AccountEvent → Prop
  | .exec j o => o.takesEffect → ∀ c ∈ σ.next? j, c.stores? = some (purpose, userId) →
      ∃ issuanceId ∈ issuanceOf σ j, σ.shared.currentIssuance purpose userId = some issuanceId
  | _ => True

/-- The secret is not consumed, not replaced by an attempt of its own issuance and not
evicted, and no newer issuance is set. -/
def Undisturbed (config : AccountConfig) (userId issuanceId : String)
    (secret : IssuedSecret) (σ : AccountPool) : AccountEvent → Prop
  | .exec j o => o.takesEffect → ∀ c ∈ σ.next? j, secret.endedBy config userId c = false ∧
      (c.stores? = some (secret.purpose, userId) → issuanceOf σ j ≠ some issuanceId)
  | .environment (.evictActivation key) => key ≠ .activation userId
  | _ => True

/-! ### The stored token -/

/-- The row of a secret of `userId`: it is the only one of this account that is unused. -/
structure TokenStored (db : AccountDb) (userId tokenHash : String) (expiresAt : ℕ)
    (row : PasswordResetTokenRecord) : Prop where
  found : db.findPasswordResetToken tokenHash = some row
  owner : row.userId = userId
  unused : row.usedAt = none
  expires : row.expiresAt = expiresAt
  only : ∀ t ∈ db.passwordResetTokens, t.userId = userId → t.usedAt = none → t = row
  unique : ∀ t ∈ db.passwordResetTokens, t.id = row.id → t = row
  account : (db.auth.findAccountById userId).isSome

section

variable {db db' : AccountDb} {userId tokenHash : String} {expiresAt : ℕ}
  {row : PasswordResetTokenRecord}

theorem TokenStored.mem (h : TokenStored db userId tokenHash expiresAt row) :
    row ∈ db.passwordResetTokens := List.mem_of_find?_eq_some h.found

theorem TokenStored.hash (h : TokenStored db userId tokenHash expiresAt row) :
    row.tokenHash = tokenHash := by simpa using List.find?_some h.found

theorem mem_saveUsed {ids : List String} {now : ℕ} {t : PasswordResetTokenRecord}
    (ht : t ∈ (db.saveUsed ids now).passwordResetTokens) :
    ∃ t₀ ∈ db.passwordResetTokens, t.id = t₀.id ∧
      (t₀.id ∈ ids ∧ t.usedAt = some now ∨ t₀.id ∉ ids ∧ t = t₀) := by
  obtain ⟨t₀, ht₀, heq⟩ := List.mem_map.1 ht
  by_cases hid : t₀.id ∈ ids
  · rw [if_pos (by simpa using hid)] at heq
    subst heq
    exact ⟨t₀, ht₀, rfl, .inl ⟨hid, rfl⟩⟩
  · rw [if_neg (by simpa using hid)] at heq
    subst heq
    exact ⟨t₀, ht₀, rfl, .inr ⟨hid, rfl⟩⟩

theorem TokenStored.saveUsed (h : TokenStored db userId tokenHash expiresAt row)
    {ids : List String} (now : ℕ) (hids : row.id ∉ ids) :
    TokenStored (db.saveUsed ids now) userId tokenHash expiresAt row where
  found := by
    refine (db.findPasswordResetToken_saveUsed ids now).trans ?_
    rw [h.found, Option.map_some, if_neg hids]
  owner := h.owner
  unused := h.unused
  expires := h.expires
  only t ht howner hunused := by
    obtain ⟨t₀, ht₀, -, ⟨-, hused⟩ | ⟨-, rfl⟩⟩ := mem_saveUsed ht
    · rw [hunused] at hused
      cases hused
    · exact h.only t ht₀ howner hunused
  unique t ht hid := by
    obtain ⟨t₀, ht₀, hid₀, ⟨hmem, -⟩ | ⟨-, rfl⟩⟩ := mem_saveUsed ht
    · have heq : t₀ = row := h.unique t₀ ht₀ (hid₀.symm.trans hid)
      exact absurd (heq ▸ hmem) hids
    · exact h.unique t ht₀ hid
  account := h.account

/-- A token of another account is added. -/
theorem TokenStored.insert (h : TokenStored db userId tokenHash expiresAt row)
    {token : PasswordResetTokenRecord} (hid : token.id ≠ row.id)
    (howner : token.userId ≠ userId) :
    TokenStored { db with passwordResetTokens := db.passwordResetTokens ++ [token] }
      userId tokenHash expiresAt row where
  found := by
    have hfound : db.passwordResetTokens.find? (fun t => decide (t.tokenHash = tokenHash)) =
        some row := h.found
    rw [AccountDb.findPasswordResetToken, List.find?_append, hfound, Option.some_or]
  owner := h.owner
  unused := h.unused
  expires := h.expires
  only t ht ht' hunused := by
    rcases List.mem_append.1 ht with ht | ht
    · exact h.only t ht ht' hunused
    · rw [List.mem_singleton.1 ht] at ht'
      exact absurd ht' howner
  unique t ht ht' := by
    rcases List.mem_append.1 ht with ht | ht
    · exact h.unique t ht ht'
    · rw [List.mem_singleton.1 ht] at ht'
      exact absurd ht' hid
  account := h.account

theorem TokenStored.of_tokens (h : TokenStored db userId tokenHash expiresAt row)
    (htokens : db'.passwordResetTokens = db.passwordResetTokens)
    (haccount : (db'.auth.findAccountById userId).isSome) :
    TokenStored db' userId tokenHash expiresAt row where
  found := by
    rw [AccountDb.findPasswordResetToken, htokens]
    exact h.found
  owner := h.owner
  unused := h.unused
  expires := h.expires
  only := htokens ▸ h.only
  unique := htokens ▸ h.unique
  account := haccount

/-- The unused tokens of another account are marked as used. -/
theorem TokenStored.markUsed (h : TokenStored db userId tokenHash expiresAt row)
    {subjectId : String} (now : ℕ) (hsubject : subjectId ≠ userId) :
    TokenStored (db.markUsed subjectId now) userId tokenHash expiresAt row := by
  refine h.saveUsed now fun hmem => ?_
  obtain ⟨t, ht, hid⟩ := List.mem_map.1 hmem
  obtain ⟨htokens, hunused⟩ := List.mem_filter.1 ht
  rw [h.unique t htokens hid] at hunused
  simp only [Bool.and_eq_true, beq_iff_eq] at hunused
  exact hsubject (hunused.1.symm.trans h.owner)

theorem tokenStored_of_create {stamp : AccountStamp}
    (hfresh : db.findPasswordResetToken tokenHash = none)
    (h : (createPasswordResetTokenTx userId ⟨tokenHash, expiresAt⟩ stamp).run db =
      .ok (row, db')) :
    TokenStored db' userId tokenHash expiresAt row := by
  have haccount : (db.auth.findAccountById userId).isSome := by
    by_contra hnone
    rw [createPasswordResetTokenTx, Tx.bind_eq, lockAccount_bind, if_neg hnone] at h
    cases h
  obtain ⟨rfl, hid, rfl⟩ := createPasswordResetTokenTx_run h
  refine ⟨?_, rfl, rfl, rfl, fun t ht howner hunused => ?_, fun t ht hsame => ?_, haccount⟩
  · have hnone : (db.markUsed userId stamp.usedAt).passwordResetTokens.find?
        (fun t => decide (t.tokenHash = tokenHash)) = none :=
      (AccountDb.findPasswordResetToken_saveUsed _ _ _).trans (by rw [hfresh]; rfl)
    rw [AccountDb.findPasswordResetToken, List.find?_append, hnone, Option.none_or]
    simp
  · rcases List.mem_append.1 ht with ht | ht
    · -- it was unused before, so it has been marked
      obtain ⟨t₀, ht₀, -, ⟨-, hused⟩ | ⟨hnot, rfl⟩⟩ := mem_saveUsed ht
      · rw [hunused] at hused
        cases hused
      · refine absurd (List.mem_map_of_mem (List.mem_filter.2 ⟨ht₀, ?_⟩)) hnot
        simp [howner, hunused]
    · exact List.mem_singleton.1 ht
  · rcases List.mem_append.1 ht with ht | ht
    · obtain ⟨t₀, ht₀, hid₀, -⟩ := mem_saveUsed ht
      exact absurd (hid₀.symm.trans hsame) (hid t₀ ht₀)
    · exact List.mem_singleton.1 ht

/-- A committed transaction that neither consumes the token nor creates one for its
account keeps it. -/
theorem TokenStored.run (h : TokenStored db userId tokenHash expiresAt row)
    {c : AccountCommand} {stamp : AccountStamp} {a : c.Res}
    (hconsume : c ≠ .consumePasswordResetToken tokenHash)
    (hcreate : ∀ input, c ≠ .createPasswordResetToken userId input)
    (hrun : (c.impl stamp).run db = .ok (a, db')) :
    TokenStored db' userId tokenHash expiresAt row := by
  have haccount := (c.impl_keeps hrun).accounts userId h.account
  cases c with
  | createPendingAccount input =>
      obtain rfl := createPendingAccountTx_run hrun
      exact h.of_tokens rfl haccount
  | activateAccount subjectId =>
      obtain rfl := activateAccountTx_run hrun
      exact h.of_tokens rfl haccount
  | updatePasswordHash subjectId passwordHash =>
      have hrun' := updatePasswordHashTx_run.symm.trans hrun
      split at hrun'
      · cases hrun'
        exact h.of_tokens rfl haccount
      · cases hrun'
  | createPasswordResetToken subjectId input =>
      obtain ⟨rfl, hid, rfl⟩ := createPasswordResetTokenTx_run hrun
      have hsubject : subjectId ≠ userId := fun heq => hcreate input (by rw [heq])
      exact (h.markUsed stamp.usedAt hsubject).insert (hid row h.mem).symm hsubject
  | consumePasswordResetToken otherHash =>
      rcases consumePasswordResetTokenTx_run hrun with
        ⟨-, rfl⟩ | ⟨token, hfind, -, -, -, -, rfl⟩
      · exact h
      · refine h.saveUsed stamp.usedAt fun hid => ?_
        have htoken : token = row := h.unique token (List.mem_of_find?_eq_some hfind)
          (List.mem_singleton.1 hid).symm
        have hhash : token.tokenHash = otherHash := by simpa using List.find?_some hfind
        rw [htoken, h.hash] at hhash
        exact hconsume (by rw [hhash])

/-- While it has not expired the token, and no other one, is accepted. -/
theorem TokenStored.accepts (h : TokenStored db userId tokenHash expiresAt row)
    {stamp : AccountStamp} (hchecked : stamp.checkedAt < expiresAt)
    (hlocked : stamp.lockedAt < expiresAt) (otherHash : String) :
    (∃ token db', (consumePasswordResetTokenTx otherHash stamp).run db =
      .ok (some token, db') ∧ token.userId = userId) ↔ otherHash = tokenHash := by
  constructor
  · rintro ⟨token, db', hrun, howner⟩
    rcases consumePasswordResetTokenTx_run hrun with
      ⟨hnone, -⟩ | ⟨token₀, hfind, husable, -, -, htoken, -⟩
    · cases hnone
    · cases htoken
      have heq : token₀ = row :=
        h.only token₀ (List.mem_of_find?_eq_some hfind) howner husable.1
      have hhash : token₀.tokenHash = otherHash := by simpa using List.find?_some hfind
      rw [← hhash, heq, h.hash]
  · rintro rfl
    have hrow : ∀ now, now < expiresAt → row.Usable now :=
      fun now hnow => ⟨h.unused, h.expires ▸ hnow⟩
    exact ⟨_, _, consumePasswordResetTokenTx_usable h.found (hrow _ hchecked)
      (hrow _ hlocked) (h.owner ▸ h.account), h.owner⟩

end

/-! ### The stored code -/

/-- The entry of a code of `userId`, whatever has been tried on it. -/
def CodeStored (entries : Activations) (userId codeHmac : String) (expiresAt : ℕ) : Prop :=
  ∃ payload : ActivationPayload,
    entries.cell (.activation userId) = some (payload, expiresAt) ∧
      payload.codeHmac = codeHmac

section

variable {entries : Activations} {userId codeHmac : String} {expiresAt : ℕ}

theorem CodeStored.pending (h : CodeStored entries userId codeHmac expiresAt) :
    pendingActivation entries userId = none ∨ ∃ payload : ActivationPayload,
      pendingActivation entries userId = some payload ∧ payload.codeHmac = codeHmac := by
  obtain ⟨payload, hcell, hhmac⟩ := h
  have hget : pendingActivation entries userId =
      if entries.now < expiresAt then some payload else none := by
    rw [pendingActivation, Store.get, hcell]
    rfl
  rw [hget]
  split
  · exact .inr ⟨payload, rfl, hhmac⟩
  · exact .inl rfl

/-- A command that neither writes the code of the account nor consumes it keeps it. -/
theorem CodeStored.apply (h : CodeStored entries userId codeHmac expiresAt)
    {c : ActivationCommand}
    (hset : ∀ value ttlSeconds, c ≠ .set (.activation userId) value ttlSeconds)
    (hconsume : c ≠ .consumeActivation userId codeHmac) :
    CodeStored (c.apply entries).2 userId codeHmac expiresAt := by
  have hother : ∀ (key : ActivationKey) cell, key ≠ .activation userId →
      CodeStored ⟨entries.now, Function.update entries.cell key cell⟩ userId codeHmac
        expiresAt := by
    intro key cell hkey
    obtain ⟨payload, hcell, hhmac⟩ := h
    exact ⟨payload, (Function.update_of_ne hkey.symm ..).trans hcell, hhmac⟩
  cases c with
  | set key value ttlSeconds =>
      exact hother key _ fun hkey => by
        subst hkey
        exact hset value ttlSeconds rfl
  | existsKey key => exact h
  | consumeActivation subjectId otherHmac =>
      simp only [ActivationCommand.apply, CONSUME_ACTIVATION_LUA]
      split
      · exact h
      · rename_i tried hpending
        by_cases hsubject : subjectId = userId
        · subst hsubject
          obtain ⟨payload, hcell, hhmac⟩ := h
          have htried : tried.codeHmac = codeHmac := by
            rcases CodeStored.pending ⟨payload, hcell, hhmac⟩ with hnone | ⟨_, hsome, heq⟩
            · rw [hpending] at hnone
              cases hnone
            · cases hpending.symm.trans hsome
              exact heq
          split
          · rename_i hmatch
            exact absurd (by rw [← hmatch, htried]) hconsume
          · refine ⟨{ payload with attempts := payload.attempts + 1 }, ?_, hhmac⟩
            simp only [Store.modify, Function.update_self, hcell]
            rfl
        · have hkey : ActivationKey.activation subjectId ≠ .activation userId :=
            fun heq => hsubject (ActivationKey.activation.inj heq)
          split
          · exact hother _ _ hkey
          · exact hother _ _ hkey

/-- While it has not expired the code, and no other one, is accepted. -/
theorem CodeStored.accepts (h : CodeStored entries userId codeHmac expiresAt)
    (hnow : entries.now < expiresAt) (otherHmac : String) :
    (CONSUME_ACTIVATION_LUA userId otherHmac entries).1 = .consumed ↔
      otherHmac = codeHmac := by
  obtain ⟨payload, hcell, rfl⟩ := h
  have hget : pendingActivation entries userId = some payload := by
    rw [pendingActivation, Store.get, hcell]
    exact if_pos hnow
  rw [CONSUME_ACTIVATION_LUA, hget]
  dsimp only
  split
  · rename_i hmatch
    exact iff_of_true rfl hmatch.symm
  · rename_i hmatch
    exact iff_of_false (by simp) fun heq => hmatch heq.symm

end

/-! ### The invariant -/

def IssuedSecret.Stored (config : AccountConfig) (s : AccountState) (userId : String)
    (storedAt : ℕ) : IssuedSecret → Prop
  | .activationCode code _ => CodeStored s.entries userId (config.auth.hmac code)
      (storedAt + TTL_ONE_HOUR_SECONDS * 1000)
  | .resetToken token expiresAt =>
      ∃ row, TokenStored s.db userId (config.auth.hashToken token) expiresAt row

/-- The secret is stored, and no other issuance is current. -/
structure Protected (config : AccountConfig) (userId issuanceId : String)
    (secret : IssuedSecret) (storedAt : ℕ) (s : AccountState) : Prop where
  issuance : s.currentIssuance secret.purpose userId = some issuanceId ∨
    s.currentIssuance secret.purpose userId = none
  sound : Sound s.auth.db
  stored : secret.Stored config s userId storedAt

section

variable {config : AccountConfig} {userId issuanceId : String} {secret : IssuedSecret}
  {storedAt : ℕ} {s s' : AccountState}

theorem IssuedSecret.Stored.onlyAccepted (h : secret.Stored config s userId storedAt) :
    secret.OnlyAccepted config s userId storedAt := by
  cases secret with
  | activationCode code _ => exact fun hnow code' => CodeStored.accepts h hnow _
  | resetToken token expiresAt =>
      obtain ⟨row, hrow⟩ := h
      exact fun stamp hchecked hlocked token' => hrow.accepts hchecked hlocked _

/-- A Redis command that does not set the issuance keeps it, or it disappears. -/
theorem get_issuance_apply {c : RedisCommand} {purpose : AuthIssuancePurpose}
    (redis : Redis)
    (hset : ∀ value ttlSeconds, c ≠ .set (.issuance purpose userId) value ttlSeconds) :
    (c.apply redis).2.get (.issuance purpose userId) = redis.get (.issuance purpose userId) ∨
      (c.apply redis).2.get (.issuance purpose userId) = none := by
  by_cases hwrites : c.Writes (.issuance purpose userId)
  · cases c with
    | get key => exact hwrites.elim
    | existsKey key => exact hwrites.elim
    | set key value ttlSeconds =>
        obtain rfl : RedisKey.issuance purpose userId = key := hwrites
        exact absurd rfl (hset value ttlSeconds)
    | del key =>
        obtain rfl : RedisKey.issuance purpose userId = key := hwrites
        exact .inr (Store.get_del_self redis _)
    | createLoginChallenge subjectId challengeId payload =>
        rcases hwrites with ⟨_, h⟩ | h <;> cases h
    | consumeLoginChallenge challengeId codeHmac nowMs => cases hwrites
    | incrementFailedLogin subjectId => rcases hwrites with h | h <;> cases h
    | incrementRateLimit operation dimension hash ttlSeconds => cases hwrites
  · exact .inl (RedisCommand.get_apply_of_not_writes redis hwrites)

theorem exec_of_refused {c : AccountStep} {o : AccountOutside} {r : c.Reply}
    (ho : o.takesEffect = false) (h : exec c o s = some (r, s')) : s' = s := by
  have hfault : ∃ e, o.auth.fault = .refused e := by
    rw [AccountOutside.takesEffect] at ho
    split at ho
    · exact ⟨_, ‹_›⟩
    · cases ho
  obtain ⟨e, hfault⟩ := hfault
  cases c with
  | auth c =>
      obtain ⟨⟨r', a⟩, hexec, heq⟩ := Option.map_eq_some_iff.1 h
      cases heq
      have ha : a = s.auth := exec_refused ⟨e, hfault⟩ hexec
      rw [ha]
  | hash password =>
      cases h
      rfl
  | repository c =>
      simp only [exec, hfault, Fault.apply] at h
      cases h
      rfl
  | redis c =>
      simp only [exec, hfault, Fault.apply] at h
      cases h
      rfl
  | enqueuePasswordReset job =>
      simp only [exec, hfault, Fault.apply] at h
      cases h
      rfl

/-- A step that does not set the issuance keeps it, or it disappears. -/
theorem exec_currentIssuance {c : AccountStep} {o : AccountOutside} {r : c.Reply}
    (hended : secret.endedBy config userId c = false)
    (hexec : exec c o s = some (r, s')) :
    s'.currentIssuance secret.purpose userId = s.currentIssuance secret.purpose userId ∨
      s'.currentIssuance secret.purpose userId = none := by
  by_cases hauth : c.IsAuth
  · cases c with
    | auth c =>
        rcases (exec_acts (exec_auth hexec).1).redis with hredis | ⟨cmd, rfl, hredis⟩
        · exact .inl (by rw [AccountState.currentIssuance, hredis]; rfl)
        · rw [AccountState.currentIssuance, hredis]
          refine get_issuance_apply s.auth.redis fun value ttlSeconds heq => ?_
          subst heq
          simp [IssuedSecret.endedBy] at hended
    | _ => exact hauth.elim
  · exact .inl (by rw [AccountState.currentIssuance, (exec_keeps hauth hexec).2]; rfl)

/-- A step that neither ends nor replaces the secret keeps it stored. -/
theorem IssuedSecret.Stored.exec (h : secret.Stored config s userId storedAt)
    (hs : Sound s.auth.db) {c : AccountStep} {o : AccountOutside} {r : c.Reply}
    (hended : secret.endedBy config userId c = false)
    (hstores : c.stores? ≠ some (secret.purpose, userId))
    (hexec : exec c o s = some (r, s')) : secret.Stored config s' userId storedAt := by
  cases c with
  | auth c =>
      obtain ⟨⟨r', a⟩, hauth, heq⟩ := Option.map_eq_some_iff.1 hexec
      cases heq
      cases secret with
      | activationCode code _ => exact h
      | resetToken token expiresAt =>
          obtain ⟨row, hrow⟩ := h
          have haccount : (a.db.findAccountById userId).isSome := by
            rw [AuthDb.findAccountById, ((exec_acts hauth).since hs).2.users]
            exact hrow.account
          exact ⟨row, hrow.of_tokens rfl haccount⟩
  | hash password =>
      cases hexec
      exact h
  | repository c =>
      rcases exec_repository_cases hexec with ⟨rfl, -⟩ | ⟨a, db', -, hrun, rfl, -⟩
      · exact h
      cases secret with
      | activationCode code _ => exact h
      | resetToken token expiresAt =>
          obtain ⟨row, hrow⟩ := h
          refine ⟨row, hrow.run (fun heq => ?_) (fun input heq => ?_) hrun⟩
          · subst heq
            simp [IssuedSecret.endedBy] at hended
          · subst heq
            exact hstores rfl
  | redis c =>
      have hstate : (o.auth.fault.apply s (execActivations c s)).2 = s' :=
        (Prod.mk.inj (Option.some.inj hexec)).2
      rcases o.auth.fault.apply_state s (execActivations c s) with hs | hs <;>
        rw [← hstate, hs]
      · exact h
      cases secret with
      | activationCode code _ =>
          refine CodeStored.apply h (fun value ttlSeconds heq => ?_) fun heq => ?_
          · subst heq
            exact hstores rfl
          · subst heq
            simp [IssuedSecret.endedBy] at hended
      | resetToken token expiresAt => exact h
  | enqueuePasswordReset job =>
      have hstate : (o.auth.fault.apply s ((.ok () : Except StorageError Unit), s)).2 = s' :=
        (Prod.mk.inj (Option.some.inj hexec)).2
      rcases o.auth.fault.apply_state s ((.ok () : Except StorageError Unit), s) with
        hs | hs <;> rw [← hstate, hs] <;> exact h

/-- A step that neither ends nor replaces the secret keeps it protected. -/
theorem Protected.exec (h : Protected config userId issuanceId secret storedAt s)
    {c : AccountStep} {o : AccountOutside} {r : c.Reply}
    (hended : secret.endedBy config userId c = false)
    (hstores : c.stores? ≠ some (secret.purpose, userId))
    (hexec : exec c o s = some (r, s')) :
    Protected config userId issuanceId secret storedAt s' := by
  refine ⟨?_, (exec_sound hexec h.sound).1, h.stored.exec h.sound hended hstores hexec⟩
  rcases exec_currentIssuance hended hexec with hsame | hnone
  · rw [hsame]
    exact h.issuance
  · exact .inr hnone

/-- What happens without a call keeps the secret protected unless it evicts the code. -/
theorem Protected.environment (h : Protected config userId issuanceId secret storedAt s)
    {x : AccountEnvironment} (hx : ∀ key, x = .evictActivation key →
      key ≠ .activation userId) :
    Protected config userId issuanceId secret storedAt (Account.environment x s) := by
  cases x with
  | tick n =>
      refine ⟨?_, h.sound, ?_⟩
      · cases hget : (Account.environment (.tick n) s).currentIssuance secret.purpose userId with
        | none => exact .inr rfl
        | some value =>
            refine .inl ?_
            have hbefore : s.currentIssuance secret.purpose userId = some value :=
              Store.get_tick_eq_some hget
            rcases h.issuance with hsome | hnone
            · exact hbefore.symm.trans hsome
            · cases hbefore.symm.trans hnone
      · cases secret <;> exact h.stored
  | evict key =>
      refine ⟨?_, h.sound, ?_⟩
      · by_cases hkey : key = .issuance secret.purpose userId
        · subst hkey
          exact .inr (Store.get_del_self s.auth.redis _)
        · have hget : (Account.environment (.evict key) s).currentIssuance secret.purpose userId =
              s.currentIssuance secret.purpose userId :=
            Store.get_del_of_ne s.auth.redis (Ne.symm hkey)
          rw [hget]
          exact h.issuance
      · cases secret <;> exact h.stored
  | evictActivation key =>
      refine ⟨h.issuance, h.sound, ?_⟩
      cases secret with
      | activationCode code _ =>
          obtain ⟨payload, hcell, hhmac⟩ := h.stored
          exact ⟨payload, (Function.update_of_ne (hx key rfl).symm ..).trans hcell, hhmac⟩
      | resetToken token expiresAt => exact h.stored

/-! ### Runs -/

/-- The tables are sound in every run. -/
theorem reaches_sound {ok : AccountPool → AccountEvent → Prop} {users : List AccountRecord}
    {σ : AccountPool} (h : (accountService config).Reaches ok
      (Pool.init (AccountState.init users)) σ) : Sound σ.shared.auth.db := by
  induction h with
  | refl => exact sound_init users
  | @tail σ₁ σ₂ _ hstep ih =>
      cases hstep.moves with
      | spawn call hok hshared hthreads hhistory =>
          rw [hshared]
          exact ih
      | exec e he =>
          obtain ⟨o, -, hexec⟩ := he.exec
          exact (exec_sound hexec ih).1
      | environment x hok hshared hthreads hhistory =>
          have hdb : ((accountService config).environment x σ₁.shared).auth.db =
              σ₁.shared.auth.db := (environment_idled x σ₁.shared).auth.db
          rw [hshared, hdb]
          exact ih

/-- One step of the run keeps the secret protected: an attempt that stores another one
has its issuance current, so it is an attempt of the same issuance. -/
theorem Protected.step {σ σ' : AccountPool}
    (h : Protected config userId issuanceId secret storedAt σ.shared)
    (hstep : (accountService config).Steps (fun σ x =>
      StoresWhenCurrent secret.purpose userId σ x ∧
        Undisturbed config userId issuanceId secret σ x) σ σ') :
    Protected config userId issuanceId secret storedAt σ'.shared := by
  cases hstep.moves with
  | spawn call hok hshared hthreads hhistory =>
      rw [hshared]
      exact h
  | environment x hok hshared hthreads hhistory =>
      rw [hshared]
      refine h.environment fun key hkey => ?_
      subst hkey
      exact hok.2
  | exec e he =>
      obtain ⟨o, ⟨hcurrent, hundisturbed⟩, hexec⟩ := he.exec
      obtain ⟨call, next, hthread, -⟩ := he.thread
      have hnext : σ.next? e.thread = some e.command := by
        rw [Pool.next?, hthread]
        rfl
      cases heffect : o.takesEffect with
      | false =>
          rw [exec_of_refused heffect hexec]
          exact h
      | true =>
          obtain ⟨hended, hown⟩ := hundisturbed heffect e.command hnext
          refine h.exec hended (fun hstores => ?_) hexec
          obtain ⟨other, hother, hcurrent⟩ :=
            hcurrent heffect e.command hnext hstores
          -- its issuance is current, so it is the one of the secret
          rcases h.issuance with hsome | hnone
          · have heq : other = issuanceId := Option.some.inj (hcurrent.symm.trans hsome)
            exact hown hstores (heq ▸ hother)
          · cases hcurrent.symm.trans hnone

theorem Protected.reaches {σ σ' : AccountPool}
    (h : Protected config userId issuanceId secret storedAt σ.shared)
    (hrun : (accountService config).Reaches (fun σ x =>
      StoresWhenCurrent secret.purpose userId σ x ∧
        Undisturbed config userId issuanceId secret σ x) σ σ') :
    Protected config userId issuanceId secret storedAt σ'.shared := by
  induction hrun with
  | refl => exact h
  | tail _ hstep ih => exact ih.step hstep

theorem takesEffect_of_stored {e : Entry AccountStep AccountStep.Reply} {o : AccountOutside}
    (hstored : secret.StoredBy config userId e)
    (hexec : exec e.command o s = some (e.reply, s')) : o.takesEffect = true := by
  rw [AccountOutside.takesEffect]
  split
  · rename_i fault error hfault
    cases hstored with
    | code j code resendAvailableAt =>
        simp only [exec, hfault, Fault.apply] at hexec
        cases hexec
    | token j token expiresAt row =>
        simp only [exec, hfault, Fault.apply] at hexec
        cases hexec
  · rfl

theorem protected_of_stored {ok : AccountPool → AccountEvent → Prop} {σ σ' : AccountPool}
    {e : Entry AccountStep AccountStep.Reply} (hs : Sound σ.shared.auth.db)
    (he : (accountService config).Fires ok e σ σ') (hstored : secret.StoredBy config userId e)
    (hcurrent : σ.shared.currentIssuance secret.purpose userId = some issuanceId)
    (hfresh : secret.Fresh config σ.shared) :
    Protected config userId issuanceId secret σ.shared.entries.now σ'.shared := by
  obtain ⟨o, -, hexec⟩ := he.exec
  have hsound := (exec_sound hexec hs).1
  cases hstored with
  | code j code resendAvailableAt =>
      have hexec : exec (.redis (.set (.activation userId) _ _)) o σ.shared =
          some (.ok (), σ'.shared) := hexec
      have happly := Fault.apply_eq_ok (Option.some.inj hexec)
      have hs' : σ'.shared = _ := (Prod.mk.inj happly).2.symm
      rw [hs']
      refine ⟨.inl hcurrent, hs, ⟨_, Function.update_self .., rfl⟩⟩
  | token j token expiresAt row =>
      have hexec : exec (.repository (.createPasswordResetToken userId
          ⟨config.auth.hashToken token, expiresAt⟩)) o σ.shared =
          some (.ok row, σ'.shared) := hexec
      rcases exec_repository_cases hexec with
        ⟨-, ⟨e, he⟩, -⟩ | ⟨a, db', -, hrun, hs', ⟨-, heq⟩ | ⟨-, e, he⟩⟩
      · cases he
      · cases heq
        refine ⟨?_, hsound, row, ?_⟩
        · rw [hs']
          exact .inl hcurrent
        · rw [hs']
          exact tokenStored_of_create hfresh hrun
      · cases he

end

/-- While the attempts for an account store secrets of a purpose only under the issuance
that is current, what an attempt of the current issuance has stored stays the only secret
that is accepted for the account, until it is consumed, expires, is replaced by an attempt
of the same issuance, or a newer issuance is set. -/
theorem current_secret_stays_accepted (config : AccountConfig)
    {users : List AccountRecord} {userId issuanceId : String} {secret : IssuedSecret}
    {σ₁ σ₂ σ₃ : AccountPool} {e : Entry AccountStep AccountStep.Reply}
    (h₁ : (accountService config).Reaches (fun _ _ => True)
      (Pool.init (AccountState.init users)) σ₁)
    (he : (accountService config).Fires (StoresWhenCurrent secret.purpose userId) e σ₁ σ₂)
    (hstored : secret.StoredBy config userId e)
    (hattempt : issuanceOf σ₁ e.thread = some issuanceId)
    (hfresh : secret.Fresh config σ₁.shared)
    (hlater : (accountService config).Reaches (fun σ x =>
      StoresWhenCurrent secret.purpose userId σ x ∧
        Undisturbed config userId issuanceId secret σ x) σ₂ σ₃) :
    secret.OnlyAccepted config σ₃.shared userId σ₁.shared.entries.now := by
  obtain ⟨o, hok, hexec⟩ := he.exec
  obtain ⟨call, next, hthread, -⟩ := he.thread
  have hnext : σ₁.next? e.thread = some e.command := by
    rw [Pool.next?, hthread]
    rfl
  have hstores : e.command.stores? = some (secret.purpose, userId) := by
    cases hstored <;> rfl
  have heffect := takesEffect_of_stored hstored hexec
  obtain ⟨current, hcurrent, hissuance⟩ := hok heffect e.command hnext hstores
  have hsame : current = issuanceId := Option.some.inj (hcurrent.symm.trans hattempt)
  rw [hsame] at hissuance
  have hprotected := protected_of_stored (reaches_sound h₁) he hstored hissuance hfresh
  exact (hprotected.reaches hlater).stored.onlyAccepted

/-! ### An overtaken attempt -/

instance decidableStoresWhenCurrent (purpose : AuthIssuancePurpose) (userId : String)
    (σ : AccountPool) : ∀ x, Decidable (StoresWhenCurrent purpose userId σ x)
  | .spawn _ => isTrue trivial
  | .exec j o => inferInstanceAs (Decidable (o.takesEffect → ∀ c ∈ σ.next? j,
      c.stores? = some (purpose, userId) → ∃ issuanceId ∈ issuanceOf σ j,
        σ.shared.currentIssuance purpose userId = some issuanceId))
  | .environment _ => isTrue trivial

instance decidableUndisturbed (config : AccountConfig) (userId issuanceId : String)
    (secret : IssuedSecret) (σ : AccountPool) :
    ∀ x, Decidable (Undisturbed config userId issuanceId secret σ x)
  | .spawn _ => isTrue trivial
  | .exec j o => inferInstanceAs (Decidable (o.takesEffect → ∀ c ∈ σ.next? j,
      secret.endedBy config userId c = false ∧
        (c.stores? = some (secret.purpose, userId) → issuanceOf σ j ≠ some issuanceId)))
  | .environment (.evictActivation key) =>
      inferInstanceAs (Decidable (key ≠ .activation userId))
  | .environment (.tick _) => isTrue trivial
  | .environment (.evict _) => isTrue trivial

/-- The next steps of call `j`, with `id` for every id and secret. -/
def accountSteps (j : ℕ) (id : String) (n : ℕ) : List AccountEvent :=
  List.replicate n (.exec j (accountOutcome id .none))

/-- Two resets are requested. The first attempt stops before it stores its token, the
second one is about to store its own. -/
def beforeSecondToken : AccountPool :=
  (accountService exampleAccounts).after
    (.spawn (.requestPasswordReset ⟨"u@example.com"⟩ "") :: accountSteps 0 "i" 7 ++
      .spawn (.processPasswordReset ⟨"u", "i"⟩) :: accountSteps 1 "old" 4 ++
      .spawn (.requestPasswordReset ⟨"u@example.com"⟩ "") :: accountSteps 2 "j" 7 ++
      .spawn (.processPasswordReset ⟨"u", "j"⟩) :: accountSteps 3 "new" 4)
    (Pool.init (AccountState.init [exampleUser]))

/-- The second attempt stores its token. -/
def afterSecondToken : AccountPool :=
  (accountService exampleAccounts).after (accountSteps 3 "new" 1) beforeSecondToken

def afterSecondMail : AccountPool :=
  (accountService exampleAccounts).after (accountSteps 3 "new" 2) afterSecondToken

/-- The first attempt goes on. -/
def afterFirstToken : AccountPool :=
  (accountService exampleAccounts).after (accountSteps 1 "row" 2) afterSecondMail

def secondToken : IssuedSecret := .resetToken "new" 3600000

/-- The second attempt stores its token. -/
def secondStore : Entry AccountStep AccountStep.Reply :=
  ⟨3, .repository (.createPasswordResetToken "u" ⟨"#new", 3600000⟩),
    Except.ok (⟨"new", "u", "#new", 3600000, none, 1⟩ : PasswordResetTokenRecord)⟩

set_option maxRecDepth 4000 in
theorem secondStore_fires {ok : AccountPool → AccountEvent → Prop}
    (hok : ok beforeSecondToken (.exec 3 (accountOutcome "new" .none))) :
    (accountService exampleAccounts).Fires ok secondStore beforeSecondToken
      afterSecondToken :=
  ⟨⟨_, hok, rfl⟩, ⟨_, _, rfl, rfl⟩, rfl⟩

theorem secondToken_fresh : secondToken.Fresh exampleAccounts beforeSecondToken.shared := by
  rw [secondToken, IssuedSecret.Fresh]
  decide +kernel

set_option maxRecDepth 4000 in
/-- The token of the current issuance has been mailed, and an attempt of the issuance
before it replaces it. -/
theorem overtaken_attempt_replaces_token :
    (accountService exampleAccounts).Reaches (fun _ _ => True)
        (Pool.init (AccountState.init [exampleUser])) beforeSecondToken ∧
      (accountService exampleAccounts).Fires (fun _ _ => True) secondStore
        beforeSecondToken afterSecondToken ∧
      secondToken.StoredBy exampleAccounts "u" secondStore ∧
      issuanceOf beforeSecondToken 3 = some "j" ∧
      beforeSecondToken.shared.currentIssuance .reset "u" = some "j" ∧
      secondToken.Fresh exampleAccounts beforeSecondToken.shared ∧
      (accountService exampleAccounts).Reaches
        (Undisturbed exampleAccounts "u" "j" secondToken) afterSecondToken afterFirstToken ∧
      (⟨3, .auth (.sendMail (EmailProcessor.resetMail exampleAccounts "u@example.com" "new")),
        Except.ok ()⟩ : Entry AccountStep AccountStep.Reply) ∈ afterFirstToken.history ∧
      ¬ secondToken.OnlyAccepted exampleAccounts afterFirstToken.shared "u"
        beforeSecondToken.shared.entries.now := by
  refine ⟨Semantics.reaches_after _ (by decide +kernel), secondStore_fires trivial,
    .token 3 "new" 3600000 _, by decide +kernel, by decide +kernel, secondToken_fresh, ?_,
    ?_, fun haccepted => ?_⟩
  · exact (Semantics.reaches_after _ (by decide +kernel)).trans
      (Semantics.reaches_after _ (by decide +kernel))
  · exact List.mem_iff_getElem?.2 ⟨2, rfl⟩
  · obtain ⟨row, db, hrun, -⟩ :=
      (haccepted ⟨"", 0, 0, 0, 0⟩ (by decide) (by decide) "new").2 rfl
    cases hrun

theorem second_token_stays_accepted :
    secondToken.OnlyAccepted exampleAccounts afterSecondMail.shared "u"
      beforeSecondToken.shared.entries.now := by
  have hattempt : issuanceOf beforeSecondToken 3 = some "j" := by decide +kernel
  exact current_secret_stays_accepted exampleAccounts
    (Semantics.reaches_after _ (by decide +kernel)) (secondStore_fires (by decide +kernel))
    (.token 3 "new" 3600000 _) hattempt secondToken_fresh
    (Semantics.reaches_after _ (by decide +kernel))

end Account

end Shortlink

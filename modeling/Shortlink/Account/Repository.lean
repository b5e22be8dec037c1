import Shortlink.Auth.Isolation

/-!
# Accounts and password reset tokens

The methods of `typeorm-auth.repository.ts` that create, activate and change an
account and that issue and consume reset tokens, and for each of them what a
committed execution has done. The tables of `Auth.AuthDb` are a part of the
database here.
-/

namespace Shortlink

namespace Account

open Shortlink.Storage Shortlink.Table Shortlink.Transaction Shortlink.Auth

structure PasswordResetTokenRecord where
  id : String
  userId : String
  tokenHash : String
  expiresAt : ℕ
  usedAt : Option ℕ
  createdAt : ℕ
  deriving DecidableEq

structure CreatePasswordResetTokenInput where
  tokenHash : String
  expiresAt : ℕ
  deriving DecidableEq

structure CreatePendingAccountInput where
  email : String
  passwordHash : String
  deriving DecidableEq

structure AccountDb where
  auth : AuthDb
  passwordResetTokens : List PasswordResetTokenRecord
  deriving DecidableEq

/-- What a transaction takes from outside: the generated id, the value of `now()`
in the database, and the clock before the account is locked, behind the lock and
when a token is marked as used. -/
structure AccountStamp where
  id : String
  createdAt : ℕ
  checkedAt : ℕ
  lockedAt : ℕ
  usedAt : ℕ
  deriving DecidableEq

namespace AccountDb

def findPasswordResetToken (tokenHash : String) (db : AccountDb) :
    Option PasswordResetTokenRecord :=
  db.passwordResetTokens.find? fun t => decide (t.tokenHash = tokenHash)

/-- `save` of a new account. -/
def insertAccount (account : AccountRecord) (db : AccountDb) :
    Except StorageError AccountDb :=
  if db.auth.users.any (fun a => a.id == account.id) then
    .error (uniqueViolation "PK_a3ffb1c0c8416b9fc6f907b7433" "id" account.id)
  else if db.auth.users.any (fun a => a.email == account.email) then
    .error (uniqueViolation "IDX_97672ac88f789774dd47f7c8be" "email" account.email)
  else
    .ok { db with auth := { db.auth with users := db.auth.users ++ [account] } }

/-- `save` of a loaded account whose status has been set. -/
def saveStatus (userId : String) (status : AccountStatus) (now : ℕ) (db : AccountDb) :
    AccountDb :=
  { db with auth := { db.auth with
      users := updateWhere (fun a => a.id == userId && decide (a.status ≠ status))
        (fun a => { a with status, updatedAt := now }) db.auth.users } }

/-- `save` of a loaded account whose password hash has been set. -/
def savePasswordHash (userId passwordHash : String) (now : ℕ) (db : AccountDb) :
    AccountDb :=
  { db with auth := { db.auth with
      users := updateWhere
        (fun a => a.id == userId && decide (a.passwordHash ≠ passwordHash))
        (fun a => { a with passwordHash, updatedAt := now }) db.auth.users } }

/-- `save` of loaded tokens that have been marked as used. -/
def saveUsed (ids : List String) (now : ℕ) (db : AccountDb) : AccountDb :=
  { db with
    passwordResetTokens := updateWhere (fun t => decide (t.id ∈ ids))
      (fun t => { t with usedAt := some now }) db.passwordResetTokens }

/-- `find` of the unused tokens of an account. -/
def findUnusedTokens (userId : String) (db : AccountDb) :
    List PasswordResetTokenRecord :=
  db.passwordResetTokens.filter fun t => t.userId == userId && t.usedAt.isNone

/-- `save` of a new token. -/
def insertPasswordResetToken (token : PasswordResetTokenRecord) (db : AccountDb) :
    Except StorageError AccountDb :=
  if db.passwordResetTokens.any (fun t => t.id == token.id) then
    .error (uniqueViolation "PK_d16bebd73e844c48bca50ff8d3d" "id" token.id)
  else
    .ok { db with passwordResetTokens := db.passwordResetTokens ++ [token] }

end AccountDb

abbrev AccountTx := Tx AccountDb String StorageError

def lockAccount (userId : String) : AccountTx Unit := do
  Tx.acquire userId
  let account ← Tx.query fun db => db.auth.findAccountById userId
  match account with
  | none => Tx.throw (.error "Account not found.")
  | some _ => Tx.pure ()

def createPendingAccountTx (input : CreatePendingAccountInput) (stamp : AccountStamp) :
    AccountTx AccountRecord := do
  let account : AccountRecord :=
    { id := stamp.id, email := input.email, status := .pending, role := .user
      passwordHash := input.passwordHash
      createdAt := stamp.createdAt, updatedAt := stamp.createdAt }
  Tx.update (AccountDb.insertAccount account)
  return account

def activateAccountTx (userId : String) (stamp : AccountStamp) :
    AccountTx (Option AccountRecord) := do
  lockAccount userId
  Tx.update fun db => .ok (db.saveStatus userId .active stamp.createdAt)
  Tx.query fun db => db.auth.findAccountById userId

def updatePasswordHashTx (userId passwordHash : String) (stamp : AccountStamp) :
    AccountTx Unit := do
  lockAccount userId
  Tx.update fun db => .ok (db.savePasswordHash userId passwordHash stamp.createdAt)

def markResetTokensUsed (userId : String) (stamp : AccountStamp) : AccountTx Unit := do
  let tokens ← Tx.query (AccountDb.findUnusedTokens userId)
  if tokens.length = 0 then
    return ()
  else
    Tx.update fun db => .ok (db.saveUsed (tokens.map (·.id)) stamp.usedAt)

/-- The transaction of `createPasswordResetToken`. -/
def createPasswordResetTokenTx (userId : String) (input : CreatePasswordResetTokenInput)
    (stamp : AccountStamp) : AccountTx PasswordResetTokenRecord := do
  lockAccount userId
  markResetTokensUsed userId stamp
  let token : PasswordResetTokenRecord :=
    { id := stamp.id, userId, tokenHash := input.tokenHash
      expiresAt := input.expiresAt, usedAt := none, createdAt := stamp.createdAt }
  Tx.update (AccountDb.insertPasswordResetToken token)
  return token

/-- The transaction of `consumePasswordResetToken`. -/
def consumePasswordResetTokenTx (tokenHash : String) (stamp : AccountStamp) :
    AccountTx (Option PasswordResetTokenRecord) := do
  let token ← Tx.query (AccountDb.findPasswordResetToken tokenHash)
  match token with
  | none => return none
  | some token =>
      if token.usedAt.isSome ∨ token.expiresAt ≤ stamp.checkedAt then return none
      else locked token.userId
where
  /-- What follows the choice of the account to lock. -/
  locked (userId : String) : AccountTx (Option PasswordResetTokenRecord) := do
    lockAccount userId
    let lockedToken ← Tx.query (AccountDb.findPasswordResetToken tokenHash)
    match lockedToken with
    | none => return none
    | some lockedToken =>
        if lockedToken.usedAt.isSome ∨ lockedToken.expiresAt ≤ stamp.lockedAt then
          return none
        else
          Tx.update fun db => .ok (db.saveUsed [lockedToken.id] stamp.usedAt)
          return some { lockedToken with usedAt := stamp.usedAt }

/-- The methods of the repository on accounts and reset tokens. -/
inductive AccountCommand where
  | createPendingAccount (input : CreatePendingAccountInput)
  | activateAccount (userId : String)
  | updatePasswordHash (userId passwordHash : String)
  | createPasswordResetToken (userId : String) (input : CreatePasswordResetTokenInput)
  | consumePasswordResetToken (tokenHash : String)
  deriving DecidableEq

namespace AccountCommand

/-- The value of a method. -/
def Res : AccountCommand → Type
  | .createPendingAccount _ => AccountRecord
  | .activateAccount _ => Option AccountRecord
  | .updatePasswordHash _ _ => Unit
  | .createPasswordResetToken _ _ => PasswordResetTokenRecord
  | .consumePasswordResetToken _ => Option PasswordResetTokenRecord

/-- The transaction of a method. -/
def impl : (c : AccountCommand) → AccountStamp → AccountTx c.Res
  | .createPendingAccount input => createPendingAccountTx input
  | .activateAccount userId => activateAccountTx userId
  | .updatePasswordHash userId passwordHash => updatePasswordHashTx userId passwordHash
  | .createPasswordResetToken userId input => createPasswordResetTokenTx userId input
  | .consumePasswordResetToken tokenHash => consumePasswordResetTokenTx tokenHash

end AccountCommand

/-! ### What a committed execution has done -/

section

variable {db db' : AccountDb} {stamp : AccountStamp} {userId : String}

theorem lockAccount_bind {β : Type} (rest : AccountTx β) :
    ((lockAccount userId).bind fun _ => rest).run db =
      if (db.auth.findAccountById userId).isSome then rest.run db
      else .error (.error "Account not found.") := by
  simp only [lockAccount, Tx.bind_eq, Tx.acquire_bind, Tx.query_bind, Tx.lock_bind,
    Tx.read_bind, Tx.run_lock, Tx.run_read]
  cases db.auth.findAccountById userId <;> rfl

theorem insertAccount_eq_ok {account : AccountRecord}
    (h : db.insertAccount account = .ok db') :
    db' = { db with auth := { db.auth with users := db.auth.users ++ [account] } } := by
  simp only [AccountDb.insertAccount] at h
  split at h
  · cases h
  split at h
  · cases h
  · exact (Except.ok.inj h).symm

/-- An account that is inserted has a new id and a new e-mail. -/
theorem insertAccount_fresh {account : AccountRecord}
    (h : db.insertAccount account = .ok db') :
    ∀ a ∈ db.auth.users, a.id ≠ account.id ∧ a.email ≠ account.email := by
  simp only [AccountDb.insertAccount] at h
  split at h
  · cases h
  rename_i hid
  split at h
  · cases h
  rename_i hemail
  simp only [List.any_eq_true, beq_iff_eq, not_exists, not_and] at hid hemail
  exact fun a ha => ⟨hid a ha, hemail a ha⟩

theorem insertPasswordResetToken_eq_ok {token : PasswordResetTokenRecord}
    (h : db.insertPasswordResetToken token = .ok db') :
    (∀ t ∈ db.passwordResetTokens, t.id ≠ token.id) ∧
      db' = { db with passwordResetTokens := db.passwordResetTokens ++ [token] } := by
  simp only [AccountDb.insertPasswordResetToken] at h
  split at h
  · cases h
  · rename_i hid
    simp only [List.any_eq_true, beq_iff_eq, not_exists, not_and] at hid
    exact ⟨hid, (Except.ok.inj h).symm⟩

theorem createPendingAccountTx_run {input : CreatePendingAccountInput}
    {r : AccountRecord} (h : (createPendingAccountTx input stamp).run db = .ok (r, db')) :
    db' = { db with auth := { db.auth with users := db.auth.users ++ [r] } } := by
  simp only [createPendingAccountTx, Tx.bind_eq, Tx.update_bind,
    Tx.run_write_eq_ok_iff] at h
  obtain ⟨db₁, hinsert, hrun⟩ := h
  cases hrun
  exact insertAccount_eq_ok hinsert

theorem createPendingAccountTx_fresh {input : CreatePendingAccountInput}
    {r : AccountRecord} (h : (createPendingAccountTx input stamp).run db = .ok (r, db')) :
    r.email = input.email ∧ r.status = .pending ∧
      ∀ a ∈ db.auth.users, a.id ≠ r.id ∧ a.email ≠ r.email := by
  simp only [createPendingAccountTx, Tx.bind_eq, Tx.update_bind,
    Tx.run_write_eq_ok_iff] at h
  obtain ⟨db₁, hinsert, hrun⟩ := h
  cases hrun
  exact ⟨rfl, rfl, insertAccount_fresh hinsert⟩

theorem activateAccountTx_run {r : Option AccountRecord}
    (h : (activateAccountTx userId stamp).run db = .ok (r, db')) :
    db' = db.saveStatus userId .active stamp.createdAt := by
  rw [activateAccountTx, Tx.bind_eq, lockAccount_bind] at h
  split at h
  · cases h
    rfl
  · cases h

theorem updatePasswordHashTx_run {passwordHash : String} :
    (updatePasswordHashTx userId passwordHash stamp).run db =
      if (db.auth.findAccountById userId).isSome then
        .ok ((), db.savePasswordHash userId passwordHash stamp.createdAt)
      else .error (.error "Account not found.") := by
  rw [updatePasswordHashTx, Tx.bind_eq, lockAccount_bind]
  rfl

/-- The tables after the unused tokens of an account have been marked as used. -/
def AccountDb.markUsed (userId : String) (now : ℕ) (db : AccountDb) : AccountDb :=
  db.saveUsed ((db.findUnusedTokens userId).map (·.id)) now

theorem AccountDb.saveUsed_nil (now : ℕ) (db : AccountDb) : db.saveUsed [] now = db := by
  cases db
  simp [AccountDb.saveUsed, updateWhere]

theorem markResetTokensUsed_bind {β : Type} (rest : AccountTx β) :
    ((markResetTokensUsed userId stamp).bind fun _ => rest).run db =
      rest.run (db.markUsed userId stamp.usedAt) := by
  simp only [markResetTokensUsed, Tx.bind_eq, Tx.query_bind, Tx.read_bind, Tx.run_read]
  split
  · rename_i hnil
    have hempty : db.findUnusedTokens userId = [] := List.length_eq_zero_iff.1 hnil
    simp [AccountDb.markUsed, hempty, AccountDb.saveUsed_nil]
  · rfl

/-- The committed executions of `createPasswordResetToken`. -/
theorem createPasswordResetTokenTx_run {input : CreatePasswordResetTokenInput}
    {r : PasswordResetTokenRecord}
    (h : (createPasswordResetTokenTx userId input stamp).run db = .ok (r, db')) :
    r = ⟨stamp.id, userId, input.tokenHash, input.expiresAt, none, stamp.createdAt⟩ ∧
      (∀ t ∈ db.passwordResetTokens, t.id ≠ r.id) ∧
      db' = { db.markUsed userId stamp.usedAt with
        passwordResetTokens :=
          (db.markUsed userId stamp.usedAt).passwordResetTokens ++ [r] } := by
  rw [createPasswordResetTokenTx, Tx.bind_eq, lockAccount_bind] at h
  split at h
  · rw [Tx.bind_eq, markResetTokensUsed_bind] at h
    simp only [Tx.bind_eq, Tx.update_bind, Tx.run_write_eq_ok_iff] at h
    obtain ⟨db₁, hinsert, hrun⟩ := h
    cases hrun
    obtain ⟨hfresh, hdb⟩ := insertPasswordResetToken_eq_ok hinsert
    refine ⟨rfl, fun t ht => ?_, hdb⟩
    have hids : (db.markUsed userId stamp.usedAt).passwordResetTokens.map (·.id) =
        db.passwordResetTokens.map (·.id) := map_updateWhere fun _ _ => rfl
    have hmem : t.id ∈ (db.markUsed userId stamp.usedAt).passwordResetTokens.map
        (·.id) := hids ▸ List.mem_map_of_mem ht
    obtain ⟨t', ht', hid⟩ := List.mem_map.1 hmem
    exact hid ▸ hfresh t' ht'
  · cases h

/-- A token can be consumed at this instant. -/
def PasswordResetTokenRecord.Usable (token : PasswordResetTokenRecord) (now : ℕ) : Prop :=
  token.usedAt = none ∧ now < token.expiresAt

theorem consumePasswordResetTokenTx_run {tokenHash : String}
    {r : Option PasswordResetTokenRecord}
    (h : (consumePasswordResetTokenTx tokenHash stamp).run db = .ok (r, db')) :
    r = none ∧ db' = db ∨ ∃ token,
      db.findPasswordResetToken tokenHash = some token ∧
        token.Usable stamp.checkedAt ∧ token.Usable stamp.lockedAt ∧
        (db.auth.findAccountById token.userId).isSome ∧
        r = some { token with usedAt := some stamp.usedAt } ∧
        db' = db.saveUsed [token.id] stamp.usedAt := by
  simp only [consumePasswordResetTokenTx, Tx.bind_eq, Tx.query_bind, Tx.run_read] at h
  cases hfind : db.findPasswordResetToken tokenHash with
  | none =>
      simp only [hfind] at h
      cases h
      exact .inl ⟨rfl, rfl⟩
  | some token =>
      simp only [hfind] at h
      split at h
      · cases h
        exact .inl ⟨rfl, rfl⟩
      rename_i hchecked
      rw [consumePasswordResetTokenTx.locked, Tx.bind_eq, lockAccount_bind] at h
      split at h
      · rename_i haccount
        simp only [Tx.bind_eq, Tx.query_bind, Tx.run_read, hfind] at h
        split at h
        · cases h
          exact .inl ⟨rfl, rfl⟩
        rename_i hlocked
        simp only [not_or, Option.not_isSome_iff_eq_none, Nat.not_le] at hchecked hlocked
        cases h
        exact .inr ⟨token, rfl, hchecked, hlocked, haccount, rfl, rfl⟩
      · cases h

theorem consumePasswordResetTokenTx_usable {tokenHash : String}
    {token : PasswordResetTokenRecord}
    (hfind : db.findPasswordResetToken tokenHash = some token)
    (hchecked : token.Usable stamp.checkedAt) (hlocked : token.Usable stamp.lockedAt)
    (haccount : (db.auth.findAccountById token.userId).isSome) :
    (consumePasswordResetTokenTx tokenHash stamp).run db =
      .ok (some { token with usedAt := some stamp.usedAt },
        db.saveUsed [token.id] stamp.usedAt) := by
  have hchecked' : ¬ (token.usedAt.isSome ∨ token.expiresAt ≤ stamp.checkedAt) := by
    simp [hchecked.1, hchecked.2]
  have hlocked' : ¬ (token.usedAt.isSome ∨ token.expiresAt ≤ stamp.lockedAt) := by
    simp [hlocked.1, hlocked.2]
  simp only [consumePasswordResetTokenTx, Tx.bind_eq, Tx.query_bind, Tx.run_read, hfind,
    if_neg hchecked', consumePasswordResetTokenTx.locked, lockAccount_bind, if_pos haccount,
    if_neg hlocked']
  rfl

end

end Account

end Shortlink

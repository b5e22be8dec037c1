import Shortlink.Account.ResetTokens
import Shortlink.Auth.Repository
import Shortlink.LinkStatistics.Repository
import Shortlink.Links.Repository
import Shortlink.Transaction.Part

/-!
# The transactions of the repositories end

The three repositories work on one database. A transaction of the auth or of the links
repository locks at most the row of one account, the same rows in both. A transaction of
the statistics repository takes the advisory lock of a day, and after it the key of an
event that it inserts: the days rank below the events (`Lock.rank`). So the locks are
taken in order, and the open transactions never wait for each other in a circle, whatever
the clients call.
-/

namespace Shortlink

namespace Storage

open Shortlink.Interaction Shortlink.Transaction Shortlink.Transaction.Tx

/-- The row of an account is the only lock. -/
def accountRank : String → ℕ := fun _ => 0

/-- The day of a link comes before the event. -/
def lockRank : LinkStatistics.LockKey → ℕ
  | .advisory _ _ => 0
  | .event _ => 1

/-! ### The auth repository -/

section

variable {stamp : Auth.Stamp} {userId : String}

theorem auth_lockAccount_lockOrdered :
    (Auth.lockAccount userId).LockOrdered accountRank [] := by
  refine lockOrdered_acquire (fun _ h => by cases h) (Lockless.lockOrdered ?_)
  refine .bind (lockless_query _) fun account => ?_
  cases account with
  | none => trivial
  | some account => trivial

theorem revokeActiveSessions_lockless {reason : Auth.SessionRevocationReason} :
    (Auth.revokeActiveSessions userId reason stamp).Lockless := by
  refine .bind (lockless_query _) fun activeSessions => ?_
  split
  · trivial
  · exact .bind (lockless_update _) fun _ => trivial

theorem createExclusiveSessionTx_lockOrdered {sessionData : Auth.CreateExclusiveSessionInput} :
    (Auth.createExclusiveSessionTx userId sessionData stamp).LockOrdered accountRank [] :=
  auth_lockAccount_lockOrdered.bind_lockless fun _ =>
    .bind revokeActiveSessions_lockless fun _ => .bind (lockless_update _) fun _ =>
      .bind (lockless_update _) fun _ => trivial

theorem rotateRefreshTokenTx_lockOrdered {sessionId : String}
    {input : Auth.RotateRefreshTokenInput} :
    (Auth.rotateRefreshTokenTx sessionId input stamp).LockOrdered accountRank [] := by
  refine (lockless_query _).bind_lockOrdered fun session => ?_
  cases session with
  | none => trivial
  | some session =>
      dsimp only
      split
      · trivial
      · refine auth_lockAccount_lockOrdered.bind_lockless fun _ =>
          .bind (lockless_query _) fun lockedSession => ?_
        cases lockedSession with
        | none => trivial
        | some lockedSession =>
            dsimp only
            split
            · trivial
            · split
              · trivial
              · refine .bind (lockless_query _) fun currentToken => ?_
                cases currentToken with
                | none => trivial
                | some currentToken =>
                    exact .bind (lockless_update _) fun _ => .bind (lockless_update _) fun _ =>
                      .bind (lockless_update _) fun _ => trivial

theorem revokeSessionTx_lockOrdered {sessionId : String}
    {reason : Auth.SessionRevocationReason} :
    (Auth.revokeSessionTx sessionId reason stamp).LockOrdered accountRank [] := by
  refine (lockless_query _).bind_lockOrdered fun session => ?_
  cases session with
  | none => trivial
  | some session =>
      dsimp only
      split
      · trivial
      · refine auth_lockAccount_lockOrdered.bind_lockless fun _ =>
          .bind (lockless_query _) fun lockedSession => ?_
        cases lockedSession with
        | none => trivial
        | some lockedSession =>
            dsimp only
            split
            · trivial
            · exact lockless_update _

theorem auth_lockOrdered (c : Auth.AuthCommand) :
    (c.impl stamp).LockOrdered accountRank [] := by
  cases c with
  | createExclusiveSession userId sessionData => exact createExclusiveSessionTx_lockOrdered
  | rotateRefreshToken sessionId input => exact rotateRefreshTokenTx_lockOrdered
  | revokeSession sessionId reason => exact revokeSessionTx_lockOrdered
  | revokeAllSessions userId reason =>
      exact auth_lockAccount_lockOrdered.bind_lockless fun _ => revokeActiveSessions_lockless
  | _ => exact (lockless_query _).lockOrdered

end

/-! ### The repository of the accounts -/

section

variable {stamp : Account.AccountStamp} {userId : String}

theorem account_lockAccount_lockOrdered :
    (Account.lockAccount userId).LockOrdered accountRank [] := by
  refine lockOrdered_acquire (fun _ h => by cases h) (Lockless.lockOrdered ?_)
  refine .bind (lockless_query _) fun account => ?_
  cases account with
  | none => trivial
  | some account => trivial

theorem markResetTokensUsed_lockless : (Account.markResetTokensUsed userId stamp).Lockless := by
  refine .bind (lockless_query _) fun tokens => ?_
  split
  · trivial
  · exact lockless_update _

theorem createPasswordResetTokenTx_lockOrdered {input : Account.CreatePasswordResetTokenInput} :
    (Account.createPasswordResetTokenTx userId input stamp).LockOrdered accountRank [] :=
  account_lockAccount_lockOrdered.bind_lockless fun _ => .bind markResetTokensUsed_lockless
    fun _ => .bind (lockless_update _) fun _ => trivial

theorem consumePasswordResetTokenTx_lockOrdered {tokenHash : String} :
    (Account.consumePasswordResetTokenTx tokenHash stamp).LockOrdered accountRank [] := by
  refine (lockless_query _).bind_lockOrdered fun token => ?_
  cases token with
  | none => trivial
  | some token =>
      dsimp only
      split
      · trivial
      · refine account_lockAccount_lockOrdered.bind_lockless fun _ =>
          .bind (lockless_query _) fun lockedToken => ?_
        cases lockedToken with
        | none => trivial
        | some lockedToken =>
            dsimp only
            split
            · trivial
            · exact .bind (lockless_update _) fun _ => trivial

theorem accounts_lockOrdered (c : Account.AccountCommand) :
    (c.impl stamp).LockOrdered accountRank [] := by
  cases c with
  | createPendingAccount input =>
      exact Lockless.lockOrdered (.bind (lockless_update _) fun _ => trivial)
  | activateAccount userId =>
      exact account_lockAccount_lockOrdered.bind_lockless fun _ =>
        .bind (lockless_update _) fun _ => lockless_query _
  | updatePasswordHash userId passwordHash =>
      exact account_lockAccount_lockOrdered.bind_lockless fun _ => lockless_update _
  | createPasswordResetToken userId input => exact createPasswordResetTokenTx_lockOrdered
  | consumePasswordResetToken tokenHash => exact consumePasswordResetTokenTx_lockOrdered

theorem invalidatePreviousResetTokensTx_lockOrdered :
    (Account.invalidatePreviousResetTokensTx userId stamp).LockOrdered accountRank [] :=
  account_lockAccount_lockOrdered.bind_lockless fun _ => markResetTokensUsed_lockless

end

/-! ### The links repository -/

section

variable {stamp : Links.Stamp} {userId : String}

theorem links_lockAccount_lockOrdered :
    (Links.lockAccount userId).LockOrdered accountRank [] := by
  refine lockOrdered_acquire (fun _ h => by cases h) (Lockless.lockOrdered ?_)
  refine .bind (lockless_query _) fun account => ?_
  cases account with
  | none => trivial
  | some account => trivial

theorem createOrRestoreTx_lockOrdered {destinationUrl shortCode : String} :
    (Links.createOrRestoreTx userId destinationUrl shortCode stamp).LockOrdered
      accountRank [] := by
  refine links_lockAccount_lockOrdered.bind_lockless fun _ =>
    .bind (lockless_query _) fun existing => ?_
  cases existing with
  | none =>
      refine .bind (lockless_query _) fun activeCount => ?_
      split
      · trivial
      · exact .bind (lockless_update _) fun _ => trivial
  | some link =>
      dsimp only
      split
      · trivial
      · refine .bind (lockless_query _) fun activeCount => ?_
        split
        · trivial
        · exact .bind (lockless_update _) fun _ => trivial

theorem changeStatusTx_lockOrdered {linkId : String} {status : Links.LinkStatus} :
    (Links.changeStatusTx userId linkId status stamp).LockOrdered accountRank [] := by
  refine (lockless_query _).bind_lockOrdered fun link => ?_
  cases link with
  | none => trivial
  | some link =>
      dsimp only
      split
      · trivial
      · refine links_lockAccount_lockOrdered.bind_lockless fun _ =>
          .bind (lockless_query _) fun locked => ?_
        have hsave (saved : Links.LinkRecord) :
            (Links.changeStatusTx.saveStatus status stamp saved).Lockless :=
          .bind (lockless_update _) fun _ => trivial
        cases locked with
        | none => trivial
        | some locked =>
            dsimp only
            split
            · trivial
            · split
              · refine .bind (lockless_query _) fun activeCount => ?_
                split
                · trivial
                · exact hsave locked
              · exact hsave locked

theorem links_lockOrdered (c : Links.LinksCommand) :
    (c.impl stamp).LockOrdered accountRank [] := by
  cases c with
  | createOrRestore userId destinationUrl shortCode => exact createOrRestoreTx_lockOrdered
  | changeStatus userId linkId status => exact changeStatusTx_lockOrdered
  | findActiveByShortCode shortCode => exact (lockless_query _).lockOrdered
  | findById linkId => exact (lockless_query _).lockOrdered

end

/-! ### The statistics repository -/

section

open Shortlink.LinkStatistics

variable {hashtext : String → ℤ}

theorem counted_lockless (input : AccessEventInput) :
    (recordAccessTx.counted input).Lockless := by
  refine .bind (lockless_update _) fun _ => .bind (lockless_update _) fun _ =>
    .bind (.bind (lockless_query _) fun conflict => ?_) fun insertedVisitors => ?_
  · split
    · trivial
    · exact .bind (lockless_update _) fun _ => trivial
  · split
    · trivial
    · exact .bind (lockless_update _) fun _ => lockless_update _

/-- An event is inserted while the lock of a day is held. -/
theorem insertNewEvent_lockOrdered (linkDay : LinkDay) (input : AccessEventInput) :
    (insertNewEvent input).LockOrdered lockRank [linkDayLock hashtext linkDay] := by
  refine lockOrdered_acquire (fun k hk => ?_) (Lockless.lockOrdered ?_)
  · obtain rfl := List.mem_singleton.1 hk
    exact Nat.zero_lt_one
  · refine .bind (lockless_query _) fun conflict => ?_
    split
    · trivial
    · exact .bind (lockless_update _) fun _ => trivial

theorem recordAccessTx_lockOrdered (input : AccessEventInput) :
    (recordAccessTx hashtext input).LockOrdered lockRank [] := by
  refine lockOrdered_acquire (fun _ h => by cases h)
    ((lockless_query _).bind_lockOrdered fun finalized => ?_)
  cases finalized with
  | some day => trivial
  | none =>
      refine (insertNewEvent_lockOrdered input.linkDay input).bind_lockless
        fun insertedEvents => ?_
      split
      · trivial
      · exact counted_lockless input

theorem finalizeDayTx_lockOrdered (linkDay : LinkDay) (finalizedAt : ℕ) :
    (finalizeDayTx hashtext linkDay finalizedAt).LockOrdered lockRank [] := by
  have hdelete : (finalizeDayTx.delete linkDay).Lockless :=
    .bind (lockless_update _) fun _ => lockless_update _
  refine lockOrdered_acquire (fun _ h => by cases h)
    ((lockless_query _).bind_lockOrdered fun existing => Lockless.lockOrdered ?_)
  cases existing with
  | some day => exact hdelete
  | none => exact .bind (lockless_update _) fun _ => hdelete

theorem statistics_lockOrdered (c : StatisticsCommand) (finalizedAt : ℕ) :
    (c.impl hashtext finalizedAt).LockOrdered lockRank [] := by
  cases c with
  | recordAccess input => exact recordAccessTx_lockOrdered input
  | findCandidates before => exact (lockless_query _).lockOrdered
  | finalizeDay linkDay => exact finalizeDayTx_lockOrdered linkDay finalizedAt

end

/-! ### The repositories together -/

/-- The tables. The table of the accounts is a part of `Auth.AuthDb`. -/
structure Database where
  accounts : Account.AccountDb
  links : List Links.LinkRecord
  statistics : LinkStatistics.StatisticsDb

/-- The accounts, the sessions and their refresh tokens. -/
def authPart : Part Database Auth.AuthDb where
  get db := db.accounts.auth
  set auth db := { db with accounts.auth := auth }

/-- The tables of the auth module. -/
def accountPart : Part Database Account.AccountDb where
  get db := db.accounts
  set accounts db := { db with accounts }

/-- The links, and of the accounts the ids, which no transaction on links writes. -/
def linksPart : Part Database Links.LinksDb where
  get db := ⟨db.accounts.auth.users.map (·.id), db.links⟩
  set part db := { db with links := part.links }

section

variable {stamp : Links.Stamp} {userId : String}

theorem linksPart_get_set {part : Links.LinksDb} {db : Database}
    (h : part.users = (linksPart.get db).users) : linksPart.get (linksPart.set part db) = part := by
  cases part
  cases h
  rfl

theorem saveLink_fits (link : Links.LinkRecord) :
    (Tx.update fun db => .ok (db.saveLink link) : Links.LinksTx Unit).Fits linksPart := by
  refine ⟨fun db part h => ?_, trivial⟩
  cases h
  exact linksPart_get_set rfl

theorem insertLink_fits (link : Links.LinkRecord) :
    (Tx.update (Links.LinksDb.insertLink link) : Links.LinksTx Unit).Fits linksPart := by
  refine ⟨fun db part h => ?_, trivial⟩
  obtain ⟨-, -, -, rfl⟩ := Links.LinksDb.insertLink_eq_ok_iff.1 h
  exact linksPart_get_set rfl

theorem links_lockAccount_fits : (Links.lockAccount userId).Fits linksPart := by
  refine .bind (t := Tx.acquire userId) trivial fun _ => .bind (fits_query _) fun account => ?_
  cases account with
  | none => trivial
  | some account => trivial

theorem createOrRestoreTx_fits {destinationUrl shortCode : String} :
    (Links.createOrRestoreTx userId destinationUrl shortCode stamp).Fits linksPart := by
  refine links_lockAccount_fits.bind fun _ => .bind (fits_query _) fun existing => ?_
  cases existing with
  | none =>
      refine .bind (fits_query _) fun activeCount => ?_
      split
      · trivial
      · exact .bind (insertLink_fits _) fun _ => trivial
  | some link =>
      dsimp only
      split
      · trivial
      · refine .bind (fits_query _) fun activeCount => ?_
        split
        · trivial
        · exact .bind (saveLink_fits _) fun _ => trivial

theorem changeStatusTx_fits {linkId : String} {status : Links.LinkStatus} :
    (Links.changeStatusTx userId linkId status stamp).Fits linksPart := by
  have hsave (saved : Links.LinkRecord) :
      (Links.changeStatusTx.saveStatus status stamp saved).Fits linksPart :=
    .bind (saveLink_fits _) fun _ => trivial
  refine .bind (fits_query _) fun link => ?_
  cases link with
  | none => trivial
  | some link =>
      dsimp only
      split
      · trivial
      · refine links_lockAccount_fits.bind fun _ => .bind (fits_query _) fun locked => ?_
        cases locked with
        | none => trivial
        | some locked =>
            dsimp only
            split
            · trivial
            · split
              · refine .bind (fits_query _) fun activeCount => ?_
                split
                · trivial
                · exact hsave locked
              · exact hsave locked

/-- The transactions on links write no account. -/
theorem links_fits (c : Links.LinksCommand) : (c.impl stamp).Fits linksPart := by
  cases c with
  | createOrRestore userId destinationUrl shortCode => exact createOrRestoreTx_fits
  | changeStatus userId linkId status => exact changeStatusTx_fits
  | findActiveByShortCode shortCode => exact fits_query _
  | findById linkId => exact fits_query _

end

def statisticsPart : Part Database LinkStatistics.StatisticsDb where
  get db := db.statistics
  set statistics db := { db with statistics }

/-- What a transaction may wait for: the row of an account, or a lock of the statistics. -/
inductive Lock where
  | account (userId : String)
  | statistics (key : LinkStatistics.LockKey)
  deriving DecidableEq

def Lock.rank : Lock → ℕ
  | .account userId => accountRank userId
  | .statistics key => lockRank key

theorem Lock.rank_account (userId : String) : Lock.rank (.account userId) = accountRank userId :=
  rfl

theorem Lock.rank_statistics (key : LinkStatistics.LockKey) :
    Lock.rank (.statistics key) = lockRank key := rfl

/-- The methods of the three repositories. -/
inductive RepositoryCommand where
  | auth (c : Auth.AuthCommand)
  | account (c : Account.AccountCommand)
  | invalidatePreviousResetTokens (userId : String)
  | links (c : Links.LinksCommand)
  | statistics (c : LinkStatistics.StatisticsCommand)

/-- What a transaction takes from outside the database. -/
structure RepositoryStamp where
  auth : Auth.Stamp
  account : Account.AccountStamp
  links : Links.Stamp
  finalizedAt : ℕ

namespace RepositoryCommand

/-- The value of a method. -/
def Res : RepositoryCommand → Type
  | .auth c => c.Res
  | .account c => c.Res
  | .invalidatePreviousResetTokens _ => Unit
  | .links c => c.Res
  | .statistics c => c.Res

/-- The transaction of a method, on the one database. -/
def impl (hashtext : String → ℤ) :
    (c : RepositoryCommand) → RepositoryStamp → Tx Database Lock StorageError c.Res
  | .auth c, stamp => (c.impl stamp.auth).within authPart Lock.account
  | .account c, stamp => (c.impl stamp.account).within accountPart Lock.account
  | .invalidatePreviousResetTokens userId, stamp =>
      (Account.invalidatePreviousResetTokensTx userId stamp.account).within accountPart Lock.account
  | .links c, stamp => (c.impl stamp.links).within linksPart Lock.account
  | .statistics c, stamp =>
      (c.impl hashtext stamp.finalizedAt).within statisticsPart Lock.statistics

theorem impl_lockOrdered (hashtext : String → ℤ) (c : RepositoryCommand)
    (stamp : RepositoryStamp) : (c.impl hashtext stamp).LockOrdered Lock.rank [] := by
  cases c with
  | auth c => exact (auth_lockOrdered c).within authPart _ Lock.rank_account
  | account c => exact (accounts_lockOrdered c).within accountPart _ Lock.rank_account
  | invalidatePreviousResetTokens userId =>
      exact invalidatePreviousResetTokensTx_lockOrdered.within accountPart _ Lock.rank_account
  | links c => exact (links_lockOrdered c).within linksPart _ Lock.rank_account
  | statistics c =>
      exact (statistics_lockOrdered c stamp.finalizedAt).within statisticsPart _
        Lock.rank_statistics

/-! Executed alone, a method does to its part of the database what its module says. -/

theorem impl_auth_run (hashtext : String → ℤ) (c : Auth.AuthCommand) (stamp : RepositoryStamp)
    (db : Database) :
    ((impl hashtext (.auth c) stamp).run db).map (Prod.map id authPart.get) =
      (c.impl stamp.auth).run (authPart.get db) :=
  run_within Lock.account (fits_of_get_set (fun _ _ => rfl) _) db

theorem impl_account_run (hashtext : String → ℤ) (c : Account.AccountCommand)
    (stamp : RepositoryStamp) (db : Database) :
    ((impl hashtext (.account c) stamp).run db).map (Prod.map id accountPart.get) =
      (c.impl stamp.account).run (accountPart.get db) :=
  run_within Lock.account (fits_of_get_set (fun _ _ => rfl) _) db

theorem impl_invalidatePreviousResetTokens_run (hashtext : String → ℤ) (userId : String)
    (stamp : RepositoryStamp) (db : Database) :
    ((impl hashtext (.invalidatePreviousResetTokens userId) stamp).run db).map
        (Prod.map id accountPart.get) =
      (Account.invalidatePreviousResetTokensTx userId stamp.account).run (accountPart.get db) :=
  run_within Lock.account (fits_of_get_set (fun _ _ => rfl) _) db

theorem impl_links_run (hashtext : String → ℤ) (c : Links.LinksCommand)
    (stamp : RepositoryStamp) (db : Database) :
    ((impl hashtext (.links c) stamp).run db).map (Prod.map id linksPart.get) =
      (c.impl stamp.links).run (linksPart.get db) :=
  run_within Lock.account (links_fits c) db

theorem impl_statistics_run (hashtext : String → ℤ) (c : LinkStatistics.StatisticsCommand)
    (stamp : RepositoryStamp) (db : Database) :
    ((impl hashtext (.statistics c) stamp).run db).map (Prod.map id statisticsPart.get) =
      (c.impl hashtext stamp.finalizedAt).run (statisticsPart.get db) :=
  run_within Lock.statistics (fits_of_get_set (fun _ _ => rfl) _) db

end RepositoryCommand

/-- What a client does with the repositories: any calls, each chosen by the replies to
those before it. -/
abbrev RepositoryProgram : Type :=
  Program RepositoryCommand (Reply RepositoryCommand.Res StorageError) Unit

/-- The three repositories, called concurrently. -/
def repositories (hashtext : String → ℤ) : System RepositoryCommand RepositoryCommand.Res
    RepositoryProgram Unit RepositoryStamp Database Lock StorageError where
  body := id
  impl := RepositoryCommand.impl hashtext

/-- In every reachable state of the repositories the open transactions all end, in
whatever order they go on: they never wait for each other in a circle. -/
theorem open_transactions_finish (hashtext : String → ℤ) (db : Database)
    (σ : State RepositoryCommand RepositoryCommand.Res RepositoryProgram Unit RepositoryStamp
      Database Lock StorageError)
    (h : (repositories hashtext).Reaches (State.init db) σ) :
    (repositories hashtext).Finishes σ :=
  h.finishes fun c stamp => c.impl_lockOrdered hashtext stamp

/-- One call of a method. -/
def RepositoryCommand.program (c : RepositoryCommand) : RepositoryProgram :=
  .call c fun _ => .pure ()

/-- A link is created for an account while it logs in, and a new password waits behind the
link. The third access waits for the day that the second one holds, and the second for the
event that the first one is inserting. -/
def queuedTransactions : State RepositoryCommand RepositoryCommand.Res RepositoryProgram Unit
    RepositoryStamp Database Lock StorageError :=
  (repositories fun s => s.length).after
    [.spawn (RepositoryCommand.links (.createOrRestore "a" "https://x/" "code")).program,
      .spawn (RepositoryCommand.auth (.createExclusiveSession "a" ⟨"r", "c", 9⟩)).program,
      .spawn (RepositoryCommand.account (.updatePasswordHash "a" "h")).program,
      .spawn (RepositoryCommand.statistics
        (.recordAccess ⟨"e", "l", "", ⟨2026, 1, 1⟩, "BR", "v"⟩)).program,
      .spawn (RepositoryCommand.statistics
        (.recordAccess ⟨"e", "ll", "", ⟨2026, 1, 1⟩, "BR", "v"⟩)).program,
      .spawn (RepositoryCommand.statistics
        (.recordAccess ⟨"f", "ll", "", ⟨2026, 1, 1⟩, "BR", "w"⟩)).program,
      .begin 0 stamp, .advance 0, .begin 1 stamp, .begin 2 stamp,
      .begin 3 stamp, .advance 3, .advance 3, .advance 3, .begin 4 stamp, .advance 4, .advance 4,
      .begin 5 stamp]
    (State.init
      ⟨⟨⟨[⟨"a", "a@x", .active, .user, "g", 0, 0⟩], [], []⟩, []⟩, [],
        LinkStatistics.StatisticsDb.empty⟩)
where
  stamp : RepositoryStamp := ⟨⟨1, 1, 1, "s", "t"⟩, ⟨"i", 1, 1, 1, 1⟩, ⟨1, "k"⟩, 1⟩

theorem queuedTransactions_finish :
    (∀ i ∈ [1, 2, 4, 5],
      ((repositories fun s => s.length).step (.advance i) queuedTransactions).isNone) ∧
      (repositories fun s => s.length).Finishes queuedTransactions :=
  ⟨by decide +kernel,
    open_transactions_finish (fun s => s.length) _ _ (System.reaches_after _ _ _)⟩

end Storage

end Shortlink

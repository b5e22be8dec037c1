import Shortlink.Links.Types
import Shortlink.Transaction.System
import Mathlib.Data.List.Infix

/-!
# The links repository

`typeorm-links.repository.ts`: the bodies of its transactions, statement by
statement, and for each body what a committed execution has done. A transaction
either leaves the tables alone, saves a loaded link of the calling account with
another status, or inserts a link of that account; this is `Effect`.
-/

namespace Shortlink

namespace Links

open Shortlink.Storage Shortlink.Table Shortlink.Transaction

/-- A transaction on the links tables. The account row lock of `userId` is the
lock named `userId`. -/
abbrev LinksTx := Tx LinksDb String StorageError

def lockAccount (userId : String) : LinksTx Unit := do
  Tx.acquire userId
  let account ← Tx.query fun db => db.users.find? (· == userId)
  match account with
  | none => Tx.throw (.error "Account not found.")
  | some _ => Tx.pure ()

def createOrRestoreTx (userId destinationUrl shortCode : String)
    (stamp : Stamp) : LinksTx CreateOrRestoreLinkResult := do
  lockAccount userId
  let existing ← Tx.query (LinksDb.findByDestination userId destinationUrl)
  match existing with
  | some link =>
      match link.status with
      | .active => return .existing link
      | .deactivated =>
          let activeCount ← Tx.query (LinksDb.countActiveLinks userId)
          if activeCount ≥ MAX_ACTIVE_LINKS_PER_USER then
            return .limitReached
          else
            let saved :=
              { link with status := .active, updatedAt := stamp.now }
            Tx.update fun db => .ok (db.saveLink saved)
            return .reactivated saved
  | none =>
      let activeCount ← Tx.query (LinksDb.countActiveLinks userId)
      if activeCount ≥ MAX_ACTIVE_LINKS_PER_USER then
        return .limitReached
      else
        let created : LinkRecord :=
          { id := stamp.id, userId, shortCode, destinationUrl
            status := .active, createdAt := stamp.now, updatedAt := stamp.now }
        Tx.update (LinksDb.insertLink created)
        return .created created

def isShortCodeCollision : StorageError → Bool
  | .error _ => false
  | .queryFailed code constraint detail =>
      code == UNIQUE_VIOLATION &&
        decide ("shortcode".toList <:+:
          (constraint ++ " " ++ detail).toList.map Char.toLower)

def changeStatusTx (userId linkId : String) (status : LinkStatus)
    (stamp : Stamp) : LinksTx ChangeLinkStatusResult := do
  let link ← Tx.query (LinksDb.findById linkId)
  match link with
  | none => return .notFound
  | some link => if link.userId ≠ userId then return .forbidden else locked
where
  /-- What follows the ownership check. -/
  locked : LinksTx ChangeLinkStatusResult := do
    lockAccount userId
    let locked ← Tx.query (LinksDb.findById linkId)
    match locked with
    | none => return .notFound
    | some locked =>
        if locked.status = status then
          return .unchanged locked
        else if status = .active then
          let activeCount ← Tx.query (LinksDb.countActiveLinks userId)
          if activeCount ≥ MAX_ACTIVE_LINKS_PER_USER then
            return .limitReached
          else saveStatus locked
        else saveStatus locked
  saveStatus (locked : LinkRecord) : LinksTx ChangeLinkStatusResult := do
    let saved := { locked with status, updatedAt := stamp.now }
    Tx.update fun db => .ok (db.saveLink saved)
    return .changed saved

/-- The methods of the repository, each one transaction. -/
inductive LinksCommand where
  | createOrRestore (userId destinationUrl shortCode : String)
  | changeStatus (userId linkId : String) (status : LinkStatus)
  | findActiveByShortCode (shortCode : String)
  | findById (linkId : String)
  deriving DecidableEq

namespace LinksCommand

/-- The value of a method. -/
def Res : LinksCommand → Type
  | .createOrRestore _ _ _ => CreateOrRestoreLinkResult
  | .changeStatus _ _ _ => ChangeLinkStatusResult
  | .findActiveByShortCode _ => Option LinkRecord
  | .findById _ => Option LinkRecord

/-- The transaction of a method. -/
def impl : (c : LinksCommand) → Stamp → LinksTx c.Res
  | .createOrRestore userId destinationUrl shortCode =>
      createOrRestoreTx userId destinationUrl shortCode
  | .changeStatus userId linkId status => changeStatusTx userId linkId status
  | .findActiveByShortCode shortCode => fun _ =>
      Tx.query (LinksDb.findActiveByShortCode shortCode)
  | .findById linkId => fun _ => Tx.query (LinksDb.findById linkId)

/-- The `catch` around the transaction of `createOrRestore`. -/
def recover : (c : LinksCommand) → Except StorageError c.Res → Except StorageError c.Res
  | .createOrRestore _ _ _, .error e =>
      if isShortCodeCollision e then .ok .shortCodeCollision else .error e
  | _, r => r

end LinksCommand

/-- The value of a finished method call. -/
abbrev LinksReply : Type := (c : LinksCommand) × Except StorageError c.Res

/-- Method calls of the repository, executed concurrently. -/
def repository : System LinksCommand LinksCommand.Res LinksCommand LinksReply
    Stamp LinksDb String StorageError where
  body c := .call c fun r => .pure ⟨c, c.recover r⟩
  impl := LinksCommand.impl

/-! ### What a committed execution has done -/

/-- The committed executions of `createOrRestore`. -/
inductive CreateOrRestored (userId destinationUrl shortCode : String)
    (stamp : Stamp) (db : LinksDb) : CreateOrRestoreLinkResult → LinksDb → Prop
  | existing (link : LinkRecord)
      (hfind : db.findByDestination userId destinationUrl = some link)
      (hactive : link.status = .active) :
      CreateOrRestored _ _ _ stamp db (.existing link) db
  | reactivated (link : LinkRecord)
      (hfind : db.findByDestination userId destinationUrl = some link)
      (hstatus : link.status = .deactivated)
      (hcount : db.countActiveLinks userId < MAX_ACTIVE_LINKS_PER_USER) :
      CreateOrRestored _ _ _ stamp db
        (.reactivated { link with status := .active, updatedAt := stamp.now })
        (db.saveLink { link with status := .active, updatedAt := stamp.now })
  | limitReached
      (hcount : MAX_ACTIVE_LINKS_PER_USER ≤ db.countActiveLinks userId) :
      CreateOrRestored _ _ _ stamp db .limitReached db
  | created (db' : LinksDb) (link : LinkRecord)
      (hfind : db.findByDestination userId destinationUrl = none)
      (hcount : db.countActiveLinks userId < MAX_ACTIVE_LINKS_PER_USER)
      (hlink : link = ⟨stamp.id, userId, shortCode, destinationUrl, .active,
        stamp.now, stamp.now⟩)
      (hinsert : db.insertLink link = .ok db') :
      CreateOrRestored _ _ _ stamp db (.created link) db'

theorem createOrRestoreTx_run {userId destinationUrl shortCode : String}
    {stamp : Stamp} {db db' : LinksDb} {r : CreateOrRestoreLinkResult}
    (h : (createOrRestoreTx userId destinationUrl shortCode stamp).run db =
      .ok (r, db')) :
    CreateOrRestored userId destinationUrl shortCode stamp db r db' := by
  simp only [createOrRestoreTx, lockAccount, Tx.bind_eq, Tx.acquire_bind,
    Tx.query_bind, Tx.lock_bind, Tx.read_bind, Tx.run_lock, Tx.run_read] at h
  cases haccount : db.users.find? (· == userId) with
  | none => simp [haccount] at h
  | some account =>
      simp only [haccount, Tx.pure_bind, Tx.run_read] at h
      cases hfind : db.findByDestination userId destinationUrl with
      | none =>
          simp only [hfind, Tx.run_read] at h
          split at h
          · rename_i hcount
            cases h
            exact .limitReached hcount
          · rename_i hcount
            simp only [Tx.update_bind, Tx.run_write_eq_ok_iff] at h
            obtain ⟨db₁, hinsert, hrun⟩ := h
            cases hrun
            exact .created _ _ hfind (by omega) rfl hinsert
      | some link =>
          cases hstatus : link.status with
          | active =>
              simp only [hfind, hstatus] at h
              cases h
              exact .existing link hfind hstatus
          | deactivated =>
              simp only [hfind, hstatus, Tx.run_read] at h
              split at h
              · rename_i hcount
                cases h
                exact .limitReached hcount
              · rename_i hcount
                simp only [Tx.update_bind, Tx.run_write_eq_ok_iff] at h
                obtain ⟨db₁, hsave, hrun⟩ := h
                cases hsave
                cases hrun
                exact .reactivated link hfind hstatus (by omega)

/-- The committed executions of `changeStatus`. -/
inductive StatusChanged (userId linkId : String) (status : LinkStatus)
    (stamp : Stamp) (db : LinksDb) : ChangeLinkStatusResult → LinksDb → Prop
  | notFound (hfind : db.findById linkId = none) :
      StatusChanged _ _ status stamp db .notFound db
  | forbidden (link : LinkRecord) (hfind : db.findById linkId = some link)
      (howner : link.userId ≠ userId) :
      StatusChanged _ _ status stamp db .forbidden db
  | unchanged (link : LinkRecord) (hfind : db.findById linkId = some link)
      (howner : link.userId = userId) (hstatus : link.status = status) :
      StatusChanged _ _ status stamp db (.unchanged link) db
  | limitReached (hstatus : status = .active)
      (hcount : MAX_ACTIVE_LINKS_PER_USER ≤ db.countActiveLinks userId) :
      StatusChanged _ _ status stamp db .limitReached db
  | changed (link : LinkRecord) (hfind : db.findById linkId = some link)
      (howner : link.userId = userId) (hstatus : link.status ≠ status)
      (hcount : status = .active →
        db.countActiveLinks userId < MAX_ACTIVE_LINKS_PER_USER) :
      StatusChanged _ _ status stamp db
        (.changed { link with status, updatedAt := stamp.now })
        (db.saveLink { link with status, updatedAt := stamp.now })

theorem changeStatusTx_run {userId linkId : String} {status : LinkStatus}
    {stamp : Stamp} {db db' : LinksDb} {r : ChangeLinkStatusResult}
    (h : (changeStatusTx userId linkId status stamp).run db = .ok (r, db')) :
    StatusChanged userId linkId status stamp db r db' := by
  simp only [changeStatusTx, changeStatusTx.locked,
    changeStatusTx.saveStatus, lockAccount, Tx.bind_eq, Tx.query_bind,
    Tx.run_read] at h
  cases hfind : db.findById linkId with
  | none =>
      simp only [hfind] at h
      cases h
      exact .notFound hfind
  | some link =>
      simp only [hfind] at h
      split at h
      · rename_i howner
        cases h
        exact .forbidden link hfind howner
      rename_i howner
      have howner' : link.userId = userId := by simpa using howner
      simp only [Tx.acquire_bind, Tx.lock_bind, Tx.read_bind, Tx.run_lock,
        Tx.run_read] at h
      cases haccount : db.users.find? (· == userId) with
      | none => simp [haccount] at h
      | some account =>
          simp only [haccount, Tx.pure_bind, Tx.run_read, hfind] at h
          split at h
          · rename_i hstatus
            cases h
            exact .unchanged link hfind howner' hstatus
          rename_i hstatus
          split at h
          · rename_i hactive
            simp only [Tx.run_read] at h
            split at h
            · rename_i hcount
              cases h
              exact .limitReached hactive hcount
            · rename_i hcount
              simp only [Tx.update_bind, Tx.run_write_eq_ok_iff] at h
              obtain ⟨db₁, hsave, hrun⟩ := h
              cases hsave
              cases hrun
              exact .changed link hfind howner' hstatus fun _ => by omega
          · rename_i hactive
            simp only [Tx.update_bind, Tx.run_write_eq_ok_iff] at h
            obtain ⟨db₁, hsave, hrun⟩ := h
            cases hsave
            cases hrun
            exact .changed link hfind howner' hstatus fun h => absurd h hactive

end Links

end Shortlink

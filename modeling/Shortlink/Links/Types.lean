import Shortlink.Storage.Error
import Shortlink.Table.Basic

/-!
# Links: rows and results

`links.types.ts`, `link.entity.ts` and the statements the repository issues on
the `links` table. The entity and the record returned by `toRecord` have the
same fields, so both are `LinkRecord`. Of an account only its id is used here.
-/

namespace Shortlink

namespace Links

open Shortlink.Storage Shortlink.Table

def MAX_ACTIVE_LINKS_PER_USER : ℕ := 10

inductive LinkStatus where
  | active
  | deactivated
  deriving DecidableEq

structure LinkRecord where
  id : String
  userId : String
  shortCode : String
  destinationUrl : String
  status : LinkStatus
  createdAt : ℕ
  updatedAt : ℕ
  deriving DecidableEq

inductive CreateOrRestoreLinkResult where
  | created (link : LinkRecord)
  | existing (link : LinkRecord)
  | reactivated (link : LinkRecord)
  | limitReached
  | shortCodeCollision
  deriving DecidableEq

inductive ChangeLinkStatusResult where
  | changed (link : LinkRecord)
  | unchanged (link : LinkRecord)
  | notFound
  | forbidden
  | limitReached
  deriving DecidableEq

structure ResolvedLink where
  linkId : String
  destinationUrl : String
  deriving DecidableEq

/-- The ids of `users` and the rows of `links`. -/
structure LinksDb where
  users : List String
  links : List LinkRecord
  deriving DecidableEq

/-- What a transaction takes from outside: the value of `now()` and of
`uuid_generate_v4()`. -/
structure Stamp where
  now : ℕ
  id : String
  deriving DecidableEq

namespace LinksDb

/-- `findOne` by owner and canonical destination. -/
def findByDestination (userId destinationUrl : String) (db : LinksDb) :
    Option LinkRecord :=
  db.links.find? fun l =>
    l.userId == userId && l.destinationUrl == destinationUrl

/-- `findOne` by id. -/
def findById (linkId : String) (db : LinksDb) : Option LinkRecord :=
  db.links.find? fun l => decide (l.id = linkId)

/-- `findOne` by short code among the active links. -/
def findActiveByShortCode (shortCode : String) (db : LinksDb) :
    Option LinkRecord :=
  db.links.find? fun l =>
    l.shortCode == shortCode && l.status == .active

/-- Whether `l` is an active link of `userId`. -/
def activeOf (userId : String) (l : LinkRecord) : Bool :=
  l.userId == userId && l.status == .active

/-- `count` of the active links of `userId`. -/
def countActiveLinks (userId : String) (db : LinksDb) : ℕ :=
  db.links.countP (activeOf userId)

/-- `save` of a loaded entity: its status is written, `updatedAt` is
refreshed. -/
def saveLink (link : LinkRecord) (db : LinksDb) : LinksDb :=
  { db with
    links := updateWhere (fun l => l.id == link.id)
      (fun l => { l with status := link.status, updatedAt := link.updatedAt })
      db.links }

/-- `save` of a new entity. The primary key and the two unique indexes are
checked in the order in which the migration creates them. -/
def insertLink (link : LinkRecord) (db : LinksDb) : Except StorageError LinksDb :=
  if db.links.any (fun l => l.id == link.id) then
    .error (uniqueViolation "PK_ecf17f4a741d3c5ba0b4c5ab4b6" "id" link.id)
  else if db.links.any (fun l => l.shortCode == link.shortCode) then
    .error (uniqueViolation "IDX_f5e434d70a12e8e6544fdbda8b" "\"shortCode\""
      link.shortCode)
  else if db.links.any (fun l =>
      l.userId == link.userId && l.destinationUrl == link.destinationUrl) then
    .error (uniqueViolation "IDX_links_user_destination"
      "\"userId\", \"destinationUrl\""
      (link.userId ++ ", " ++ link.destinationUrl))
  else
    .ok { db with links := db.links ++ [link] }

theorem insertLink_eq_ok_iff {link : LinkRecord} {db db' : LinksDb} :
    insertLink link db = .ok db' ↔
      (∀ l ∈ db.links, l.id ≠ link.id) ∧
        (∀ l ∈ db.links, l.shortCode ≠ link.shortCode) ∧
        (∀ l ∈ db.links, l.userId = link.userId →
          l.destinationUrl ≠ link.destinationUrl) ∧
        db' = { db with links := db.links ++ [link] } := by
  simp only [insertLink]
  split
  · rename_i h
    obtain ⟨l, hl, hid⟩ := List.any_eq_true.1 h
    exact ⟨nofun, fun h => absurd (by simpa using hid) (h.1 l hl)⟩
  split
  · rename_i h
    obtain ⟨l, hl, hcode⟩ := List.any_eq_true.1 h
    exact ⟨nofun,
      fun h => absurd (by simpa using hcode) (h.2.1 l hl)⟩
  split
  · rename_i h
    obtain ⟨l, hl, hdest⟩ := List.any_eq_true.1 h
    simp only [Bool.and_eq_true, beq_iff_eq] at hdest
    exact ⟨nofun, fun h => absurd hdest.2 (h.2.2.1 l hl hdest.1)⟩
  · rename_i hid hcode hdest
    simp only [List.any_eq_true, beq_iff_eq, not_exists, not_and,
      Bool.and_eq_true] at hid hcode hdest
    constructor
    · intro h
      exact ⟨hid, hcode, hdest, (Except.ok.inj h).symm⟩
    · rintro ⟨-, -, -, rfl⟩
      rfl

end LinksDb

end Links

end Shortlink

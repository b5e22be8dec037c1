import Mathlib.Data.List.Sort
import Mathlib.Data.Prod.Lex
import Mathlib.Data.String.Basic
import Shortlink.Links.Service
import Shortlink.Table.Pages

/-!
# Listing the links of a user

`GET /links`: the query with its defaults, `listByUser` of the repository and
`list` of the service. The id of a link is a lower-case UUID, so PostgreSQL orders ids
as their texts are ordered.
-/

namespace Shortlink

namespace Links

open Shortlink.Table

inductive ListLinksStatusFilter where
  | active
  | deactivated
  | all
  deriving DecidableEq

/-- `ListLinksQueryDto`; the texts are numbers and filters already. -/
structure ListLinksQueryDto where
  page : Option ℤ
  limit : Option ℤ
  status : Option ListLinksStatusFilter

/-- The decorators of `ListLinksQueryDto`. -/
def ListLinksQueryDto.Accepted (query : ListLinksQueryDto) : Prop :=
  (∀ page ∈ query.page, 1 ≤ page) ∧ ∀ limit ∈ query.limit, 1 ≤ limit ∧ limit ≤ 100

structure ListLinksQuery where
  page : ℕ
  limit : ℕ
  status : ListLinksStatusFilter

/-- The query that the controller passes on. -/
def ListLinksQueryDto.toQuery (query : ListLinksQueryDto) : ListLinksQuery where
  page := (query.page.getD 1).toNat
  limit := (query.limit.getD 20).toNat
  status := query.status.getD .active

structure PaginatedLinks where
  items : List LinkRecord
  total : ℕ
  page : ℕ
  limit : ℕ
  totalPages : ℕ

/-- The `status` of the `where` of `listByUser`. -/
def ListLinksStatusFilter.where? : ListLinksStatusFilter → Option LinkStatus
  | .active => some .active
  | .deactivated => some .deactivated
  | .all => none

/-- The `where` of `listByUser`. -/
def listWhere (userId : String) (status : ListLinksStatusFilter) (l : LinkRecord) : Bool :=
  l.userId == userId && status.where?.all fun s => l.status == s

/-- `order: { createdAt: 'DESC', id: 'DESC' }`. -/
def listOrder (a b : LinkRecord) : Prop := toLex (b.createdAt, b.id) ≤ toLex (a.createdAt, a.id)

instance : DecidableRel listOrder := fun a b =>
  inferInstanceAs (Decidable (toLex (b.createdAt, b.id) ≤ toLex (a.createdAt, a.id)))

instance : Std.Total listOrder := ⟨fun _ b => le_total (toLex (b.createdAt, b.id)) _⟩

instance : IsTrans LinkRecord listOrder := ⟨fun _ _ _ h₁ h₂ => le_trans h₂ h₁⟩

/-- The rows that the query selects, in its order. -/
def LinksDb.selectLinks (userId : String) (status : ListLinksStatusFilter) (db : LinksDb) :
    List LinkRecord :=
  (db.links.filter (listWhere userId status)).insertionSort listOrder

def LinksDb.listByUser (userId : String) (query : ListLinksQuery) (db : LinksDb) :
    PaginatedLinks :=
  let rows := db.selectLinks userId query.status
  let items := (rows.drop ((query.page - 1) * query.limit)).take query.limit
  let total := rows.length
  { items, total, page := query.page, limit := query.limit
    totalPages := if total = 0 then 0 else total ⌈/⌉ query.limit }

structure ListLinksResponse where
  items : List LinkResponse
  page : ℕ
  limit : ℕ
  total : ℕ
  totalPages : ℕ
  deriving DecidableEq

/-- `list`, from what the repository answers. -/
def LinksService.listResponse (config : LinksConfig) (page : PaginatedLinks) :
    ListLinksResponse where
  items := page.items.map (LinksService.toResponse config)
  page := page.page
  limit := page.limit
  total := page.total
  totalPages := page.totalPages

/-- Every accepted query asks for an existing page number and a limit up to 100. -/
theorem ListLinksQueryDto.Accepted.toQuery {query : ListLinksQueryDto}
    (h : query.Accepted) :
    1 ≤ query.toQuery.page ∧ 1 ≤ query.toQuery.limit ∧ query.toQuery.limit ≤ 100 := by
  obtain ⟨page, limit, status⟩ := query
  have hpage : 1 ≤ page.getD 1 := by
    cases page with
    | none => decide
    | some page => exact h.1 page rfl
  have hlimit : 1 ≤ limit.getD 20 ∧ limit.getD 20 ≤ 100 := by
    cases limit with
    | none => decide
    | some limit => exact h.2 limit rfl
  simp only [ListLinksQueryDto.toQuery]
  omega

/-- The link is one of the user and passes the filter. -/
def Listed (userId : String) (status : ListLinksStatusFilter) (l : LinkRecord) : Prop :=
  l.userId = userId ∧ (status = .active → l.status = .active) ∧
    (status = .deactivated → l.status = .deactivated)

instance (userId : String) (status : ListLinksStatusFilter) :
    DecidablePred (Listed userId status) := fun l =>
  inferInstanceAs (Decidable (l.userId = userId ∧ (status = .active → l.status = .active) ∧
    (status = .deactivated → l.status = .deactivated)))

section

variable {userId : String} {status : ListLinksStatusFilter} {db : LinksDb}

theorem listWhere_iff {l : LinkRecord} :
    listWhere userId status l = true ↔ Listed userId status l := by
  cases status <;> simp [listWhere, Listed, ListLinksStatusFilter.where?]

theorem selectLinks_perm :
    (db.selectLinks userId status).Perm
      (db.links.filter fun l => decide (Listed userId status l)) := by
  refine (List.perm_insertionSort _ _).trans (List.Perm.of_eq (List.filter_congr fun l _ => ?_))
  rw [Bool.eq_iff_iff, listWhere_iff, decide_eq_true_iff]

/-- The link comes before another one in the order of the query. -/
def Newer (a b : LinkRecord) : Prop := toLex (b.createdAt, b.id) < toLex (a.createdAt, a.id)

/-- As ids are unique, the order decides between any two links. -/
theorem selectLinks_pairwise (hids : (db.links.map (·.id)).Nodup) :
    (db.selectLinks userId status).Pairwise Newer := by
  have hne : (db.selectLinks userId status).Pairwise fun a b => a.id ≠ b.id := by
    refine List.pairwise_map.1 ?_
    refine (List.Perm.map _ selectLinks_perm).nodup_iff.2 ?_
    exact hids.sublist (List.Sublist.map _ List.filter_sublist)
  refine ((List.pairwise_insertionSort listOrder _).and hne).imp fun h => ?_
  refine lt_of_le_of_ne h.1 fun heq => h.2 ?_
  exact (Prod.mk.inj (toLex.injective heq)).2.symm

end

/-- The number of pages that the first page announces. -/
def pageCount (userId : String) (status : ListLinksStatusFilter) (limit : ℕ)
    (db : LinksDb) : ℕ :=
  (db.listByUser userId ⟨1, limit, status⟩).totalPages

/-- The links of the announced pages, page after page. -/
def allPages (userId : String) (status : ListLinksStatusFilter) (limit : ℕ)
    (db : LinksDb) : List LinkRecord :=
  (List.range (pageCount userId status limit db)).flatMap fun k =>
    (db.listByUser userId ⟨k + 1, limit, status⟩).items

/-- The pages are the links that pass the filter, in their order. -/
structure PagesPartition (userId : String) (status : ListLinksStatusFilter) (limit : ℕ)
    (db : LinksDb) : Prop where
  total : ∀ k, (db.listByUser userId ⟨k, limit, status⟩).total =
    (db.links.filter fun l => decide (Listed userId status l)).length
  totalPages : ∀ k, (db.listByUser userId ⟨k, limit, status⟩).totalPages =
    pageCount userId status limit db
  partition : (allPages userId status limit db).Perm
    (db.links.filter fun l => decide (Listed userId status l))
  ordered : (allPages userId status limit db).Pairwise Newer
  full : ∀ k, 1 ≤ k → k < pageCount userId status limit db →
    (db.listByUser userId ⟨k, limit, status⟩).items.length = limit
  last : ∀ k, 1 ≤ k → k = pageCount userId status limit db →
    1 ≤ (db.listByUser userId ⟨k, limit, status⟩).items.length ∧
      (db.listByUser userId ⟨k, limit, status⟩).items.length ≤ limit
  beyond : ∀ k, pageCount userId status limit db < k →
    (db.listByUser userId ⟨k, limit, status⟩).items = []
  empty : pageCount userId status limit db = 0 ↔ ∀ l ∈ db.links, ¬ Listed userId status l

theorem pageCount_eq (userId : String) (status : ListLinksStatusFilter) {limit : ℕ}
    (db : LinksDb) (hlimit : 0 < limit) :
    pageCount userId status limit db = (db.selectLinks userId status).length ⌈/⌉ limit := by
  simp only [pageCount, LinksDb.listByUser]
  split
  · rename_i hzero
    rw [eq_comm, ceilDiv_eq_zero_iff hlimit, ← List.length_eq_zero_iff, hzero]
  · rfl

/-- The pages partition the links of the user that pass the filter. -/
theorem pages_partition_links (userId : String) (status : ListLinksStatusFilter)
    (limit : ℕ) (hlimit : 1 ≤ limit) (db : LinksDb)
    (hids : (db.links.map (·.id)).Nodup) : PagesPartition userId status limit db := by
  have hcount := pageCount_eq userId status db hlimit
  have hall : allPages userId status limit db = db.selectLinks userId status := by
    rw [allPages, hcount]
    exact flatMap_page_ceilDiv (db.selectLinks userId status) hlimit
  refine ⟨fun _ => selectLinks_perm.length_eq, fun _ => rfl, hall ▸ selectLinks_perm,
    hall ▸ selectLinks_pairwise hids, fun k hk hlt => ?_, fun k hk heq => ?_,
    fun k hk => ?_, ?_⟩
  · obtain ⟨j, rfl⟩ := Nat.exists_eq_add_of_le' hk
    rw [hcount] at hlt
    exact length_page_of_succ_lt hlimit hlt
  · obtain ⟨j, rfl⟩ := Nat.exists_eq_add_of_le' hk
    rw [hcount] at heq
    have hj : j < (db.selectLinks userId status).length ⌈/⌉ limit := by omega
    exact ⟨length_page_pos hlimit hj, length_page_le⟩
  · obtain ⟨j, rfl⟩ := Nat.exists_eq_add_of_le' (Nat.one_le_of_lt hk)
    rw [hcount] at hk
    have hj : (db.selectLinks userId status).length ⌈/⌉ limit ≤ j := by omega
    exact page_eq_nil hlimit hj
  · rw [hcount, ceilDiv_eq_zero_iff hlimit, ← List.length_eq_zero_iff,
      selectLinks_perm.length_eq, List.length_eq_zero_iff, List.filter_eq_nil_iff]
    simp only [decide_eq_true_eq]

/-- Three links of one user, two of them created at the same time. -/
def listedLinks : LinksDb :=
  ⟨["u"], [⟨"a", "u", "aaaaaa", "https://a.example/", .active, 1, 1⟩,
    ⟨"b", "u", "bbbbbb", "https://b.example/", .active, 2, 2⟩,
    ⟨"c", "u", "cccccc", "https://c.example/", .active, 2, 2⟩]⟩

theorem listedLinks_partition :
    (allPages "u" .active 2 listedLinks).map (·.id) = ["c", "b", "a"] ∧
      PagesPartition "u" .active 2 listedLinks :=
  ⟨by decide, pages_partition_links "u" .active 2 (by decide) listedLinks (by decide)⟩

end Links

end Shortlink

import Shortlink.Links.Creation
import Shortlink.Links.Transparency

/-!
# Status changes

`deactivate` and `reactivate` while no other call writes. Both checks of
`changeStatus`, in the service and behind the lock, then see the same row, so a call
ends as the function `statusOutcome` says, in which the errors stand in their order.
The invalidation of the cache entry may fail, before or after it took effect.
-/

namespace Shortlink

namespace Links

open Shortlink.Storage Shortlink.Transaction Shortlink.Interaction
open Shortlink.Table

def changedLink (link : LinkRecord) (status : LinkStatus) (now : ℕ) : LinkRecord :=
  { link with status, updatedAt := now }

@[simp] theorem changedLink_userId (link : LinkRecord) (status : LinkStatus) (now : ℕ) :
    (changedLink link status now).userId = link.userId := rfl

@[simp] theorem changedLink_status (link : LinkRecord) (status : LinkStatus) (now : ℕ) :
    (changedLink link status now).status = status := rfl

/-- The value of a status change and the table that it leaves. -/
def statusOutcome (config : LinksConfig) (db : LinksDb) (userId linkId : String)
    (status : LinkStatus) (failed : Bool) (now : ℕ) : LinksResult × LinksDb :=
  match db.findById linkId with
  | none => (.error linkNotFoundException, db)
  | some link =>
      if link.userId ≠ userId then (.error forbiddenException, db)
      else if failed then (.error linkCacheUnavailableException, db)
      else if link.status = status then
        (.ok (.link (LinksService.toResponse config link)), db)
      else if status = .active ∧ db.countActiveLinks userId ≥ MAX_ACTIVE_LINKS_PER_USER then
        (.error linkLimitReachedException, db)
      else (.ok (.link (LinksService.toResponse config (changedLink link status now))),
        db.saveLink (changedLink link status now))

section

variable {config : LinksConfig} {userId linkId : String} {status : LinkStatus}
  {s s' : LinksState} {db : LinksDb}

/-- The transaction on a link of an existing account. -/
theorem changeStatusTx_run_eq (status : LinkStatus) (stamp : Stamp) {link : LinkRecord}
    (hfind : db.findById linkId = some link) (huser : link.userId ∈ db.users) :
    (changeStatusTx link.userId linkId status stamp).run db =
      if link.status = status then .ok (.unchanged link, db)
      else if status = .active ∧
          db.countActiveLinks link.userId ≥ MAX_ACTIVE_LINKS_PER_USER then
        .ok (.limitReached, db)
      else .ok (.changed (changedLink link status stamp.now),
        db.saveLink (changedLink link status stamp.now)) := by
  obtain ⟨account, haccount⟩ := Option.isSome_iff_exists.1 (find?_account.2 huser)
  simp only [changeStatusTx, changeStatusTx.locked, changeStatusTx.saveStatus, lockAccount,
    Tx.bind_eq, Tx.query_bind, Tx.acquire_bind, Tx.lock_bind, Tx.read_bind, Tx.run_lock,
    Tx.run_read, hfind, ne_eq, not_true_eq_false, if_false, haccount, Tx.pure_bind]
  split
  · rfl
  by_cases hactive : status = .active
  · simp only [hactive, if_true, true_and, Tx.run_read]
    split
    · rfl
    · rfl
  · simp only [hactive, if_false, false_and]
    rfl

/-- The transaction ends as the call does when the invalidation has not failed. -/
theorem changeStatusTx_outcome (config : LinksConfig) (status : LinkStatus) (stamp : Stamp)
    {link : LinkRecord} (hfind : db.findById linkId = some link)
    (huser : link.userId ∈ db.users) :
    ∃ a db', (changeStatusTx link.userId linkId status stamp).run db = .ok (a, db') ∧
      (LinksService.statusResult config (.ok a), db') =
        statusOutcome config db link.userId linkId status false stamp.now := by
  simp only [changeStatusTx_run_eq status stamp hfind huser, statusOutcome, hfind, ne_eq,
    not_true_eq_false, Bool.false_eq_true, if_false]
  split
  · exact ⟨_, _, rfl, rfl⟩
  split
  · exact ⟨_, _, rfl, rfl⟩
  · exact ⟨_, _, rfl, rfl⟩

theorem changeStatus_outcome (h : Proper s.db) :
    (linksService config).Ensures cacheFaults
      (fun es v s' => ∃ failed now, (failed = true ↔ InvalidationFailed es) ∧
        (v, s'.db) = statusOutcome config s.db userId linkId status failed now)
      (LinksService.changeStatus config userId linkId status) s := by
  refine Semantics.ensures_call.2 fun s₁ o reply s₂ hidle hfault hexec => ?_
  have hfound : LinksService.exec config (.repository (.findById linkId)) o s₁ =
      some (reply, s₂) := hexec
  obtain ⟨rfl, rfl⟩ := exec_findById hfault hfound
  rw [db_of_idles hidle]
  cases hfind : s.db.findById linkId with
  | none =>
      refine Semantics.ensures_pure.2 fun s' hidle' => ⟨false, 0, by simp, ?_⟩
      rw [statusOutcome, hfind, db_of_idles hidle', db_of_idles hidle]
  | some link =>
      dsimp only
      split
      · rename_i howner
        refine Semantics.ensures_pure.2 fun s' hidle' => ⟨false, 0, by simp, ?_⟩
        simp only [statusOutcome, hfind, if_pos howner]
        rw [db_of_idles hidle', db_of_idles hidle]
      rename_i howner
      obtain rfl : link.userId = userId := not_not.1 howner
      refine Semantics.ensures_call.2 fun s₃ o' reply s₄ hidle' _ hexec' => ?_
      have hstep : LinksService.exec config (.invalidate link.shortCode) o' s₃ =
          some (reply, s₄) := hexec'
      have hs₄ : s₄.db = s.db := by
        rw [exec_cache_db hstep (Option.some_ne_none _), db_of_idles hidle', db_of_idles hidle]
      obtain ⟨rfl, hnone, -⟩ | ⟨e, rfl, hsome⟩ := exec_invalidate hstep
      · refine Semantics.ensures_call.2 fun s₅ o'' result s₆ hidle'' hfault'' hexec'' => ?_
        have hs₅ : s₅.db = s.db := by rw [db_of_idles hidle'', hs₄]
        obtain ⟨a, db', hrun, houtcome⟩ := changeStatusTx_outcome config status o''.stamp hfind
          (h.owners link (LinksDb.mem_of_findById hfind).1)
        rw [← hs₅] at hrun
        have hdone := exec_of_run config
          (c := .changeStatus link.userId linkId status) hfault'' hrun
        obtain ⟨rfl, rfl⟩ := Prod.mk.inj (Option.some.inj (hdone.symm.trans hexec''))
        refine Semantics.ensures_pure.2 fun s' hidle₃ =>
          ⟨false, o''.stamp.now, by simp [hnone], ?_⟩
        rw [← houtcome, db_of_idles hidle₃]
        rfl
      · refine Semantics.ensures_pure.2 fun s' hidle'' => ⟨true, 0, by simp [hsome], ?_⟩
        simp only [statusOutcome, hfind, ne_eq, not_true_eq_false, if_false, if_true]
        rw [db_of_idles hidle'', hs₄]

end

/-- How a status change ends: the errors in their order, and what it changes. -/
structure StatusExact (config : LinksConfig) (db : LinksDb) (userId linkId : String)
    (status : LinkStatus) (failed : Prop) (v : LinksResult) (db' : LinksDb) : Prop where
  notFound : v = .error linkNotFoundException ↔ db.findById linkId = none
  forbidden : v = .error forbiddenException ↔
    ∃ link, db.findById linkId = some link ∧ link.userId ≠ userId
  cacheUnavailable : v = .error linkCacheUnavailableException ↔
    ∃ link, db.findById linkId = some link ∧ link.userId = userId ∧ failed
  limitReached : v = .error linkLimitReachedException ↔
    ∃ link, db.findById linkId = some link ∧ link.userId = userId ∧ ¬ failed ∧
      status = .active ∧ link.status = .deactivated ∧
      db.countActiveLinks userId = MAX_ACTIVE_LINKS_PER_USER
  fails : ∀ e, v = .error e → db' = db ∧ e ∈ [linkNotFoundException, forbiddenException,
    linkCacheUnavailableException, linkLimitReachedException]
  succeeds : ∀ a, v = .ok a → ∃ link, db.findById linkId = some link ∧ link.userId = userId ∧
    (link.status = status ∧ db' = db ∧
        a = .link (LinksService.toResponse config link) ∨
      link.status ≠ status ∧ ∃ now, db' = db.saveLink (changedLink link status now) ∧
        a = .link (LinksService.toResponse config (changedLink link status now)))

theorem statusOutcome_exact {config : LinksConfig} {db db' : LinksDb}
    {userId linkId : String} {status : LinkStatus} {failed : Prop} {b : Bool} {now : ℕ}
    {v : LinksResult}
    (hlimit : db.countActiveLinks userId ≤ MAX_ACTIVE_LINKS_PER_USER)
    (hfailed : b = true ↔ failed)
    (h : (v, db') = statusOutcome config db userId linkId status b now) :
    StatusExact config db userId linkId status failed v db' := by
  obtain rfl : (b = true) = failed := propext hfailed
  rw [statusOutcome] at h
  cases hfind : db.findById linkId with
  | none =>
      simp only [hfind] at h
      obtain ⟨rfl, rfl⟩ := Prod.mk.inj h
      constructor <;> simp [hfind, linkNotFoundException, forbiddenException,
        linkCacheUnavailableException, linkLimitReachedException]
  | some link =>
      simp only [hfind] at h
      split at h
      · rename_i howner
        obtain ⟨rfl, rfl⟩ := Prod.mk.inj h
        constructor <;> simp [hfind, howner, linkNotFoundException, forbiddenException,
          linkCacheUnavailableException, linkLimitReachedException]
      rename_i howner
      obtain rfl : link.userId = userId := not_not.1 howner
      split at h
      · rename_i hb
        obtain ⟨rfl, rfl⟩ := Prod.mk.inj h
        constructor <;> simp [hfind, hb, linkNotFoundException, forbiddenException,
          linkCacheUnavailableException, linkLimitReachedException]
      rename_i hb
      split at h
      · rename_i hsame
        obtain ⟨rfl, rfl⟩ := Prod.mk.inj h
        have hnot : ¬ (status = .active ∧ status = .deactivated) := by
          rintro ⟨rfl, h⟩
          cases h
        constructor <;> simp [hfind, hb, hsame]
        exact fun hactive hdeactivated => absurd ⟨hactive, hdeactivated⟩ hnot
      rename_i hsame
      split at h
      · rename_i hfull
        obtain ⟨rfl, rfl⟩ := Prod.mk.inj h
        have hstatus : link.status = .deactivated := by
          cases hlink : link.status with
          | active => exact absurd (hlink.trans hfull.1.symm) hsame
          | deactivated => rfl
        constructor <;> simp [hfind, hb, linkNotFoundException, forbiddenException,
          linkCacheUnavailableException, linkLimitReachedException]
        exact ⟨hfull.1, hstatus, Nat.le_antisymm hlimit hfull.2⟩
      · rename_i hfree
        obtain ⟨rfl, rfl⟩ := Prod.mk.inj h
        constructor <;> simp [hfind, hb]
        · exact fun hactive _ hcount => hfree ⟨hactive, Nat.le_of_eq hcount.symm⟩
        · exact .inr ⟨hsame, now, rfl, rfl⟩

/-! ### Two calls -/

/-- The table with another `updatedAt` of one link. -/
def LinksDb.touchLink (linkId : String) (now : ℕ) (db : LinksDb) : LinksDb :=
  { db with
    links := updateWhere (fun l => l.id == linkId) (fun l => { l with updatedAt := now })
      db.links }

section

variable {config : LinksConfig} {userId linkId : String} {status : LinkStatus}
  {s s' : LinksState} {db : LinksDb} {link : LinkRecord} {now : ℕ}

theorem proper_of_executes {ok : LinksStep → LinksOutside → LinksState → Prop}
    {p : LinksProgram} {es : List (LinksStep × LinksOutside)} {v : LinksResult}
    (h : (linksService config).Executes ok p s es v s') (hs : Proper s.db) : Proper s'.db :=
  (h.invariant (P := fun s => Proper s.db)
    (fun x s hs => (environment_moved x s).proper hs)
    (fun _ _ _ _ _ hs _ _ hexec => ⟨trivial, (exec_moved hexec).proper hs⟩)
    (Program.sat_true p) hs).1

theorem findById_saveLink (status : LinkStatus) (now : ℕ)
    (hfind : db.findById linkId = some link) :
    (db.saveLink (changedLink link status now)).findById linkId =
      some (changedLink link status now) := by
  have hid := (LinksDb.mem_of_findById hfind).2
  have hfound : (db.saveLink (changedLink link status now)).findById linkId =
      (db.findById linkId).map fun l => if l.id == link.id then
        { l with status := status, updatedAt := now } else l :=
    find?_updateWhere fun a _ => rfl
  rw [hfound, hfind, Option.map_some, if_pos (beq_self_eq_true _)]
  rfl

/-- A deactivation leaves room for another active link. -/
theorem countActiveLinks_deactivated (now : ℕ) (hfind : db.findById linkId = some link)
    (howner : link.userId = userId) (hactive : link.status = .active) :
    (db.saveLink (changedLink link .deactivated now)).countActiveLinks userId <
      db.countActiveLinks userId :=
  countP_updateWhere_lt (LinksDb.mem_of_findById hfind).1 (beq_self_eq_true link.id)
    (by simp [LinksDb.activeOf, howner, hactive]) (by simp [LinksDb.activeOf, changedLink])
    fun l _ _ hl => by simp [LinksDb.activeOf, changedLink] at hl

/-- Saving the other status and then the old one changes `updatedAt` only. -/
theorem saveLink_reverted (hids : (db.links.map (·.id)).Nodup)
    (hfind : db.findById linkId = some link) (hactive : link.status = .active)
    (now₁ now₂ : ℕ) :
    (db.saveLink (changedLink link .deactivated now₁)).saveLink
        (changedLink (changedLink link .deactivated now₁) .active now₂) =
      db.touchLink linkId now₂ := by
  obtain ⟨hmem, rfl⟩ := LinksDb.mem_of_findById hfind
  simp only [LinksDb.saveLink, LinksDb.touchLink, updateWhere, List.map_map, LinksDb.mk.injEq,
    true_and]
  refine List.map_congr_left fun l hl => ?_
  by_cases hid : l.id = link.id
  · obtain rfl := List.inj_on_of_nodup_map hids hl hmem hid
    simp [changedLink, hactive]
  · simp [changedLink, hid]

/-- A link that has the requested status keeps the table as it is. -/
theorem statusOutcome_of_same {v : LinksResult} {b : Bool} {db' : LinksDb}
    (hfind : db.findById linkId = some link) (hsame : link.status = status)
    (h : (v, db') = statusOutcome config db userId linkId status b now) : db' = db := by
  simp only [statusOutcome, hfind, if_pos hsame] at h
  split at h
  · exact (Prod.mk.inj h).2
  split at h
  · exact (Prod.mk.inj h).2
  · exact (Prod.mk.inj h).2

theorem changeStatus_repeated (h : Proper s.db) :
    (linksService config).Ensures cacheFaults
      (fun _ v s' => ∀ a, v = .ok a → (linksService config).Ensures cacheFaults
        (fun _ _ s'' => s''.db = s'.db)
        (LinksService.changeStatus config userId linkId status) s')
      (LinksService.changeStatus config userId linkId status) s := by
  rintro es v s' hrun a rfl es' v' s'' hrun'
  obtain ⟨b, now, hb, hout⟩ := changeStatus_outcome h es _ s' hrun
  obtain ⟨b', now', -, hout'⟩ :=
    changeStatus_outcome (proper_of_executes hrun h) es' v' s'' hrun'
  obtain ⟨link, hfind, -, ⟨hsame, hdb, -⟩ | ⟨-, now₁, hdb, -⟩⟩ :=
    (statusOutcome_exact (h.limit userId) hb hout).succeeds a rfl
  · rw [hdb] at hout' ⊢
    exact statusOutcome_of_same hfind hsame hout'
  · rw [hdb] at hout' ⊢
    exact statusOutcome_of_same (findById_saveLink status now₁ hfind) rfl hout'

theorem changeStatus_reverted (h : Proper s.db) (hfind : s.db.findById linkId = some link)
    (hactive : link.status = .active) :
    (linksService config).Ensures cacheFaults
      (fun _ v s' => ∀ a, v = .ok a → (linksService config).Ensures cacheFaults
        (fun es' v' s'' => ¬ InvalidationFailed es' →
          (∃ a', v' = .ok a') ∧ ∃ now, s''.db = s.db.touchLink linkId now)
        (LinksService.changeStatus config userId linkId .active) s')
      (LinksService.changeStatus config userId linkId .deactivated) s := by
  rintro es v s' hrun a rfl es' v' s'' hrun' hnot
  obtain ⟨b, now, hb, hout⟩ := changeStatus_outcome h es _ s' hrun
  obtain ⟨b', now', hb', hout'⟩ :=
    changeStatus_outcome (proper_of_executes hrun h) es' v' s'' hrun'
  obtain ⟨link', hfind', howner, ⟨hsame, -⟩ | ⟨-, now₁, hdb, -⟩⟩ :=
    (statusOutcome_exact (h.limit userId) hb hout).succeeds a rfl
  · obtain rfl := Option.some.inj (hfind.symm.trans hfind')
    exact nomatch hactive.symm.trans hsame
  · obtain rfl := Option.some.inj (hfind.symm.trans hfind')
    obtain rfl : b' = false := Bool.eq_false_iff.2 (mt hb'.1 hnot)
    have hcount : s'.db.countActiveLinks userId < MAX_ACTIVE_LINKS_PER_USER := by
      rw [hdb]
      exact Nat.lt_of_lt_of_le (countActiveLinks_deactivated now₁ hfind howner hactive)
        (h.limit userId)
    have hcount' := Nat.not_le.2 hcount
    rw [hdb] at hcount'
    simp only [statusOutcome, hdb, findById_saveLink .deactivated now₁ hfind,
      changedLink_userId, changedLink_status, howner, ne_eq, not_true_eq_false,
      Bool.false_eq_true, if_false, reduceCtorEq, true_and, ge_iff_le, hcount'] at hout'
    obtain ⟨rfl, hdb'⟩ := Prod.mk.inj hout'
    exact ⟨⟨_, rfl⟩, now', hdb'.trans (saveLink_reverted h.ids hfind hactive now₁ now')⟩

end

/-- Outcomes in which only the invalidation may fail, in this way. -/
def invalidatedWith (fault : Fault) : LinksStep → LinksState → LinksOutside
  | .invalidate _, _ => ⟨⟨0, ""⟩, "", fault⟩
  | _, _ => ⟨⟨0, ""⟩, "", .none⟩

theorem cacheFaults_invalidatedWith (fault : Fault) (c : LinksStep) (s : LinksState) :
    cacheFaults c (invalidatedWith fault c s) s := by
  cases c <;> trivial

theorem exec_total (config : LinksConfig) (c : LinksStep) (o : LinksOutside)
    (s : LinksState) : ∃ r s', (linksService config).exec c o s = some (r, s') := by
  cases c <;> exact ⟨_, _, rfl⟩

/-- Status changes are atomic, idempotent and reversible, in every table that the
service reaches, whatever becomes of the cache and as long as no other call writes. -/
theorem status_changes_exact (config : LinksConfig) {users : List String} {σ : LinksPool}
    (hσ : (linksService config).Reaches (fun _ _ => True)
      (Pool.init (LinksState.init users)) σ) (userId linkId : String) :
    (∀ status, (linksService config).Ensures cacheFaults
      (fun es v s' => StatusExact config σ.shared.db userId linkId status
          (InvalidationFailed es) v s'.db ∧
        ∀ a, v = .ok a → (linksService config).Ensures cacheFaults
          (fun _ _ s'' => s''.db = s'.db)
          (LinksService.changeStatus config userId linkId status) s')
      (LinksService.changeStatus config userId linkId status) σ.shared) ∧
    (∀ link, σ.shared.db.findById linkId = some link → link.status = .active →
      (linksService config).Ensures cacheFaults
        (fun _ v s' => ∀ a, v = .ok a → (linksService config).Ensures cacheFaults
          (fun es' v' s'' => ¬ InvalidationFailed es' →
            (∃ a', v' = .ok a') ∧ ∃ now, s''.db = σ.shared.db.touchLink linkId now)
          (LinksService.body config (.reactivate userId linkId)) s')
        (LinksService.body config (.deactivate userId linkId)) σ.shared) ∧
    ∀ status fault, ∃ es v s', (linksService config).Executes cacheFaults
      (LinksService.changeStatus config userId linkId status) σ.shared es v s' ∧
        ∀ code o, (.invalidate code, o) ∈ es → o.fault = fault := by
  have hproper := (proper_of_reaches hσ).1
  refine ⟨fun status es v s' hrun => ⟨?_, fun a hv => ?_⟩,
    fun link hfind hactive => changeStatus_reverted hproper hfind hactive,
    fun status fault => ?_⟩
  · obtain ⟨b, now, hb, hout⟩ := changeStatus_outcome hproper es v s' hrun
    exact statusOutcome_exact (hproper.limit userId) hb hout
  · exact changeStatus_repeated hproper es v s' hrun a hv
  · obtain ⟨es, v, s', hrun, hes⟩ := Semantics.exists_executes (linksService config)
      (invalidatedWith fault) (cacheFaults_invalidatedWith fault)
      (fun c s => exec_total config c _ s)
      (LinksService.changeStatus config userId linkId status) σ.shared
    refine ⟨es, v, s', hrun, fun code o he => ?_⟩
    obtain ⟨_, ho⟩ := hes _ he
    exact congrArg LinksOutside.fault ho

/-- A foreign link is not deactivated; the owner deactivates and reactivates it. -/
theorem foreign_link_kept :
    (∃ es v s', (linksService exampleConfig).Executes cacheFaults
      (LinksService.changeStatus exampleConfig "v" "l" .deactivated) afterCreate.shared es v s' ∧
      v = .error forbiddenException ∧ s'.db = afterCreate.shared.db) ∧
    ∃ es v s₁ es' v' s₂, (linksService exampleConfig).Executes cacheFaults
        (LinksService.body exampleConfig (.deactivate "u" "l")) afterCreate.shared es v s₁ ∧
      s₁.db.links.map (·.status) = [.deactivated] ∧
      (linksService exampleConfig).Executes cacheFaults
        (LinksService.body exampleConfig (.reactivate "u" "l")) s₁ es' v' s₂ ∧
      ∃ now, s₂.db = afterCreate.shared.db.touchLink "l" now := by
  have hreached : (linksService exampleConfig).Reaches (fun _ _ => True)
      (Pool.init (LinksState.init ["u"])) afterCreate := Semantics.reaches_after _ (by decide)
  constructor
  · obtain ⟨hexact, -, hends⟩ := status_changes_exact exampleConfig hreached "v" "l"
    obtain ⟨es, v, s', hrun, -⟩ := hends .deactivated .none
    obtain ⟨hstatus, -⟩ := hexact .deactivated es v s' hrun
    have hv : v = .error forbiddenException :=
      hstatus.forbidden.2 ⟨⟨"l", "u", "aaaaaa", "https://a.example/", .active, 1, 1⟩,
        by decide, by decide⟩
    exact ⟨es, v, s', hrun, hv, (hstatus.fails _ hv).1⟩
  · obtain ⟨-, hreverted, -⟩ := status_changes_exact exampleConfig hreached "u" "l"
    have hruns : ∃ es a s₁ es' v' s₂, (linksService exampleConfig).Executes cacheFaults
          (LinksService.body exampleConfig (.deactivate "u" "l")) afterCreate.shared es (.ok a)
          s₁ ∧
        s₁.db.links.map (·.status) = [.deactivated] ∧
        (linksService exampleConfig).Executes cacheFaults
          (LinksService.body exampleConfig (.reactivate "u" "l")) s₁ es' v' s₂ ∧
        ¬ InvalidationFailed es' :=
      ⟨_, _, _, _, _, _,
        Semantics.executes_of_perform (List.replicate 3 ⟨⟨2, "l"⟩, "aaaaaa", .none⟩) rfl,
        by decide,
        Semantics.executes_of_perform (List.replicate 3 ⟨⟨3, "l"⟩, "aaaaaa", .none⟩) rfl,
        by simp [InvalidationFailed]⟩
    obtain ⟨es, a, s₁, es', v', s₂, hdown, hstatus, hup, hinvalidated⟩ := hruns
    obtain ⟨-, htouched⟩ := hreverted ⟨"l", "u", "aaaaaa", "https://a.example/", .active, 1, 1⟩
      (by decide) rfl _ _ _ hdown _ rfl _ _ _ hup hinvalidated
    exact ⟨_, _, _, _, _, _, hdown, hstatus, hup, htouched⟩

end Links

end Shortlink

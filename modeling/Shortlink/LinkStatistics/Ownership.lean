import Shortlink.Interaction.Rely
import Shortlink.LinkStatistics.Service
import Shortlink.Links.Identity

/-!
# Each user has the own links only

What a call of one user may do to the table of links while the others use theirs: it
changes and adds rows of this user alone, and what it answers with belongs to this user.
The rows persist with their owner, so an answer stays right while the call goes on.
-/

namespace Shortlink

namespace LinkStatistics

open Shortlink.Storage Shortlink.Transaction Shortlink.Interaction Shortlink.Links

/-! ### The contract -/

/-- What everyone does to the links: the rows persist and stay unique. -/
structure Shared (s s' : LinksState) : Prop where
  persists : Persists s.db s'.db
  identified : Identified s.db → Identified s'.db

/-- What a call of `user` does: it leaves the rows of the other owners alone. -/
structure Confined (user : Option String) (s s' : LinksState) : Prop extends Shared s s' where
  foreign : ∀ l, some l.userId ≠ user → (l ∈ s'.db.links ↔ l ∈ s.db.links)

def Owns (db : LinksDb) (userId : String) (link : LinkResponse) : Prop :=
  HasLink db link.id userId link.shortCode link.destinationUrl

/-- What a result of `LinksService` shows belongs to the user. -/
def OwnsValue (db : LinksDb) (userId : String) : LinksResult → Prop
  | .ok (.createLink link _) => Owns db userId link
  | .ok (.link link) => Owns db userId link
  | .ok (.resolved resolved) =>
      ∃ shortCode, HasLink db resolved.linkId userId shortCode resolved.destinationUrl
  | .error _ => True

/-- What a result shows belongs to the user. -/
def OwnsResult (db : LinksDb) (userId : String) : ServiceResult → Prop
  | .links result => OwnsValue db userId result
  | .list (.ok response) => ∀ link ∈ response.items, Owns db userId link
  | .report (.ok report) => ∃ shortCode destinationUrl,
      HasLink db report.linkId userId shortCode destinationUrl
  | _ => True

/-- The user who makes a call; a resolution is made by nobody. -/
def caller : LinksCall → Option String
  | .create userId _ => some userId
  | .deactivate userId _ => some userId
  | .reactivate userId _ => some userId
  | .resolve _ => none

def ServiceCall.userId : ServiceCall → Option String
  | .links call => caller call
  | .list userId _ => some userId
  | .getReport userId _ _ _ => some userId

namespace Shared

theorem refl (s : LinksState) : Shared s s := ⟨persists_refl s.db, id⟩

theorem trans {s₁ s₂ s₃ : LinksState} (h₁ : Shared s₁ s₂) (h₂ : Shared s₂ s₃) : Shared s₁ s₃ :=
  ⟨h₁.persists.trans h₂.persists, h₂.identified ∘ h₁.identified⟩

theorem of_moved {s s' : LinksState} {c : LinksStep} (h : Moved s c s') : Shared s s' :=
  ⟨h.persists, h.identified⟩

end Shared

theorem Confined.of_db {user : Option String} {s s' : LinksState} (h : s'.db = s.db) :
    Confined user s s' where
  persists := h ▸ persists_refl s.db
  identified := fun hs => h ▸ hs
  foreign _ _ := by rw [h]

theorem OwnsValue.persists {db db' : LinksDb} (h : Persists db db') {userId : String}
    {v : LinksResult} (hv : OwnsValue db userId v) : OwnsValue db' userId v := by
  rcases v with e | ⟨link, created⟩ | link | resolved
  · trivial
  · exact HasLink.persists h hv
  · exact HasLink.persists h hv
  · exact hv.imp fun _ hl => hl.persists h

/-! ### The steps of the links -/

/-- The user for whom a step is made, when it may change rows. -/
def Serves (user : Option String) : LinksStep → Prop
  | .repository (.createOrRestore userId _ _) => some userId = user
  | .repository (.changeStatus userId _ _) => some userId = user
  | _ => True

theorem Effect.foreign {userId : String} {db db' : LinksDb} (h : Effect userId db db')
    (hids : (db.links.map (·.id)).Nodup) {l : LinkRecord} (hne : l.userId ≠ userId) :
    l ∈ db'.links ↔ l ∈ db.links := by
  have hframe := h.frame hids hne
  have hmem : ∀ links : List LinkRecord,
      l ∈ links ↔ l ∈ links.filter (·.userId == l.userId) := by
    intro links
    simp
  rw [hmem, hframe, ← hmem]

section

variable {config : LinksConfig} {s s' : LinksState}

theorem exec_confined {user : Option String} {c : LinksStep} {o : LinksOutside} {r : c.Reply}
    (hs : Identified s.db) (hc : Serves user c)
    (h : LinksService.exec config c o s = some (r, s')) : Confined user s s' := by
  have hmoved := exec_moved h
  refine ⟨.of_moved hmoved, fun l hl => ?_⟩
  have heffect : ∀ {userId : String} {db : LinksDb}, some userId = user →
      (db = s.db ∨ Effect userId s.db db) → (l ∈ db.links ↔ l ∈ s.db.links) := by
    rintro userId db rfl (rfl | heffect)
    · rfl
    · exact Effect.foreign heffect hs.ids fun heq => hl (congrArg some heq)
  cases hmoved with
  | wrote shortCode resolved ttl => rfl
  | removed _ _ hdb hcache => rw [hdb]
  | committed c stamp a db hrun =>
      cases c with
      | createOrRestore userId url code =>
          exact heffect hc (createOrRestoreTx_run hrun).effect
      | changeStatus userId linkId status =>
          exact heffect hc ((changeStatusTx_run hrun).effect.imp_right And.left)
      | findActiveByShortCode code =>
          obtain rfl := (Prod.mk.inj (Except.ok.inj hrun)).2
          rfl
      | findById linkId =>
          obtain rfl := (Prod.mk.inj (Except.ok.inj hrun)).2
          rfl

theorem recover_createOrRestore (userId url code : String) (e : StorageError) :
    (LinksCommand.createOrRestore userId url code).recover (.error e) =
        .ok .shortCodeCollision ∨
      (LinksCommand.createOrRestore userId url code).recover (.error e) = .error e := by
  by_cases h : isShortCodeCollision e = true
  · exact .inl (if_pos h)
  · exact .inr (if_neg h)

/-- The link that a creation hands out leads to the destination asked for. -/
theorem CreateOrRestored.destinationUrl {userId url code : String} {stamp : Stamp}
    {db db' : LinksDb} {r : CreateOrRestoreLinkResult} {link : LinkRecord}
    (h : CreateOrRestored userId url code stamp db r db')
    (hr : r = .created link ∨ r = .existing link ∨ r = .reactivated link) :
    link.destinationUrl = url := by
  cases h with
  | existing l hfind hactive =>
      obtain rfl : l = link := by simpa using hr
      exact (LinksDb.mem_of_findByDestination hfind).2.2
  | reactivated l hfind hstatus hcount =>
      obtain rfl : _ = link := by simpa using hr
      exact (LinksDb.mem_of_findByDestination hfind).2.2
  | limitReached hcount => simp at hr
  | created db' l hfind hcount hlink hinsert =>
      obtain rfl : l = link := by simpa using hr
      rw [hlink]

/-- The link that a status change hands out is in the table. -/
theorem StatusChanged.hasLink {userId linkId : String} {status : LinkStatus} {stamp : Stamp}
    {db db' : LinksDb} {r : ChangeLinkStatusResult} {link : LinkRecord}
    (h : StatusChanged userId linkId status stamp db r db')
    (hr : r = .changed link ∨ r = .unchanged link) :
    HasLink db' link.id userId link.shortCode link.destinationUrl := by
  cases h with
  | notFound hfind => simp at hr
  | forbidden l hfind howner => simp at hr
  | limitReached hstatus hcount => simp at hr
  | unchanged l hfind howner hstatus =>
      obtain rfl : l = link := by simpa using hr
      exact ⟨l, (LinksDb.mem_of_findById hfind).1, rfl, howner, rfl, rfl⟩
  | changed l hfind howner hstatus hcount =>
      obtain ⟨l', hl', h₁, h₂, h₃, h₄, -⟩ := LinksDb.mem_saveLink
        { l with status := status, updatedAt := stamp.now } (LinksDb.mem_of_findById hfind).1
      obtain rfl : _ = link := by simpa using hr
      exact ⟨l', hl', h₁, h₂.trans howner, h₃, h₄⟩

/-! ### The programs of the links -/

/-- Whatever the others do, the program keeps to the rows of the user. -/
abbrev Isolated (config : LinksConfig) (user : Option String) (p : LinksProgram)
    (s : LinksState) : Prop :=
  (linksService config).Guarantees Shared (Confined user)
    (fun s v => ∀ userId, user = some userId → OwnsValue s.db userId v) p s

theorem isolated_pure {user : Option String} {v : LinksResult}
    (h : ∀ userId, user = some userId → OwnsValue s.db userId v) :
    Isolated config user (.pure v) s :=
  fun _ hs userId huser => (h userId huser).persists hs.persists

theorem isolated_call {user : Option String} {c : LinksStep} {next : c.Reply → LinksProgram}
    (hs : Identified s.db) (hc : Serves user c)
    (hnext : ∀ s₁ o r s₂, Shared s s₁ → Identified s₂.db →
      LinksService.exec config c o s₁ = some (r, s₂) → Isolated config user (next r) s₂) :
    Isolated config user (.call c next) s := by
  intro s₁ o r s₂ hshared hexec
  have hconfined := exec_confined (hshared.identified hs) hc hexec
  exact ⟨hconfined, hnext s₁ o r s₂ hshared (hconfined.identified (hshared.identified hs)) hexec⟩

theorem createLoop_isolated (userId url : String) (attempts : ℕ) (hs : Identified s.db) :
    Isolated config (some userId) (LinksService.createLoop config userId url attempts) s := by
  induction attempts generalizing s with
  | zero => exact isolated_pure fun _ _ => trivial
  | succ attempts ih =>
      refine isolated_call hs trivial fun s₁ o code s₂ _ hs₂ _ => ?_
      refine isolated_call hs₂ rfl fun s₃ o' reply s₄ _ hs₄ hexec => ?_
      have howns : ∀ link created, (reply = .ok (.created link) ∨ reply = .ok (.existing link) ∨
          reply = .ok (.reactivated link)) → ∀ userId', some userId = some userId' →
            OwnsValue s₄.db userId'
              (.ok (.createLink (LinksService.toResponse config link) created)) := by
        rintro link created hreply _ ⟨rfl⟩
        rcases repository_reply hexec with ⟨a, hrun, rfl⟩ | ⟨e, rfl⟩
        · have hlink : a = .created link ∨ a = .existing link ∨ a = .reactivated link :=
            hreply.imp Except.ok.inj (Or.imp Except.ok.inj Except.ok.inj)
          have hcreated := createOrRestoreTx_run hrun
          have hrow := hcreated.hasLink hlink
          rw [← CreateOrRestored.destinationUrl hcreated hlink] at hrow
          exact hrow
        · obtain h | h := recover_createOrRestore userId url code e
          · rw [h] at hreply
            rcases hreply with h | h | h <;> cases h
          · rw [h] at hreply
            rcases hreply with h | h | h <;> cases h
      rcases reply with e | link | link | link | _ | _
      · exact isolated_pure fun _ _ => trivial
      · exact isolated_pure (howns link true (.inl rfl))
      · exact isolated_pure (howns link false (.inr (.inl rfl)))
      · exact isolated_pure (howns link false (.inr (.inr rfl)))
      · exact isolated_pure fun _ _ => trivial
      · exact ih hs₄

theorem changeStatus_isolated (userId linkId : String) (status : LinkStatus)
    (hs : Identified s.db) :
    Isolated config (some userId) (LinksService.changeStatus config userId linkId status) s := by
  refine isolated_call hs trivial fun s₁ o reply s₂ _ hs₂ _ => ?_
  rcases reply with e | _ | existing
  · exact isolated_pure fun _ _ => trivial
  · exact isolated_pure fun _ _ => trivial
  · by_cases howner : existing.userId ≠ userId
    · simp only [if_pos howner]
      exact isolated_pure fun _ _ => trivial
    · simp only [if_neg howner]
      refine isolated_call hs₂ trivial fun s₃ o' reply s₄ _ hs₄ _ => ?_
      rcases reply with e | _
      · exact isolated_pure fun _ _ => trivial
      · refine isolated_call hs₄ rfl fun s₅ o'' result s₆ _ _ hexec => ?_
        refine isolated_pure ?_
        rintro _ ⟨rfl⟩
        rcases repository_reply hexec with ⟨a, hrun, rfl⟩ | ⟨e, rfl⟩
        · have hchanged := changeStatusTx_run hrun
          rcases a with link | link | _ | _ | _
          · exact StatusChanged.hasLink hchanged (.inl rfl)
          · exact StatusChanged.hasLink hchanged (.inr rfl)
          · trivial
          · trivial
          · trivial
        · trivial

theorem body_isolated (call : LinksCall) (hs : Identified s.db) :
    Isolated config (caller call) (LinksService.body config call) s := by
  cases call with
  | create userId raw =>
      simp only [LinksService.body, LinksService.create]
      split
      · exact isolated_pure fun _ _ => trivial
      · exact createLoop_isolated userId _ _ hs
  | deactivate userId linkId => exact changeStatus_isolated userId linkId _ hs
  | reactivate userId linkId => exact changeStatus_isolated userId linkId _ hs
  | resolve shortCode =>
      -- A resolution serves no user, and no step of it may change a row.
      have hmissed : ∀ {s}, Identified s.db →
          Isolated config none (LinksService.missed shortCode) s := by
        intro s hs
        refine isolated_call hs trivial fun s₁ o reply s₂ _ hs₂ _ => ?_
        rcases reply with e | _ | link
        · exact isolated_pure fun _ h => (by cases h)
        · exact isolated_pure fun _ h => (by cases h)
        · exact isolated_call hs₂ trivial fun _ _ _ _ _ _ _ =>
            isolated_pure fun _ h => (by cases h)
      refine isolated_call hs trivial fun s₁ o reply s₂ _ hs₂ _ => ?_
      rcases reply with e | _ | cached
      · exact hmissed hs₂
      · exact hmissed hs₂
      · exact isolated_pure fun _ h => (by cases h)

end

/-! ### The calls of both services -/

section

variable {config : LinksConfig} {s s' : ServiceState}

/-- What everyone relies on, does and answers with. -/
def ownership : Contract ServiceCall ServiceResult ServiceState where
  rely s s' := Shared s.links s'.links
  guar call s s' := Confined call.userId s.links s'.links
  post call s result := ∀ userId, call.userId = some userId →
    OwnsResult s.links.db userId result

theorem OwnsResult.persists {db db' : LinksDb} (h : Persists db db') {userId : String}
    {result : ServiceResult} (hresult : OwnsResult db userId result) :
    OwnsResult db' userId result := by
  rcases result with result | (e | response) | e | report
  · exact OwnsValue.persists h hresult
  · trivial
  · exact fun link hlink => HasLink.persists h (hresult link hlink)
  · trivial
  · obtain ⟨code, url, hl⟩ := hresult
    exact ⟨code, url, hl.persists h⟩

/-- Whatever the others do, the call keeps to the rows of its user. -/
abbrev Keeps (config : LinksConfig) (call : ServiceCall) (p : ServiceProgram)
    (s : ServiceState) : Prop :=
  (services config).Guarantees ownership.rely (ownership.guar call) (ownership.post call) p s

theorem keeps_pure {call : ServiceCall} {result : ServiceResult}
    (h : ∀ userId, call.userId = some userId → OwnsResult s.links.db userId result) :
    Keeps config call (.pure result) s :=
  fun _ hs userId huser => (h userId huser).persists hs.persists

/-- A query leaves the state alone. -/
theorem fault_state {α : Type} {f : Fault} {r : Except StorageError α}
    {reply : Except StorageError α} (h : some (f.apply s (r, s)) = some (reply, s')) : s' = s := by
  obtain ⟨-, hs⟩ := Prod.mk.inj (Option.some.inj h)
  rcases f.apply_state s (r, s) with hsame | htaken
  · exact hs.symm.trans hsame
  · exact hs.symm.trans htaken

theorem list_keeps (userId : String) (query : ListLinksQueryDto) (s : ServiceState) :
    Keeps config (.list userId query) (list config userId query) s := by
  intro s₁ o reply s₂ hs hexec
  obtain rfl := fault_state hexec
  refine ⟨Confined.of_db rfl, ?_⟩
  rcases reply with e | page
  · exact keeps_pure fun _ _ => trivial
  · refine keeps_pure ?_
    rintro _ ⟨rfl⟩
    obtain rfl : s₂.links.db.listByUser userId query.toQuery = page :=
      Except.ok.inj (Prod.mk.inj (Fault.apply_eq_ok (Option.some.inj hexec))).1
    intro link hlink
    obtain ⟨l, hl, rfl⟩ := List.mem_map.1 hlink
    have hrow : l ∈ s₂.links.db.selectLinks userId query.toQuery.status :=
      List.mem_of_mem_drop (List.mem_of_mem_take hl)
    obtain ⟨hmem, hlisted⟩ := List.mem_filter.1 (selectLinks_perm.mem_iff.1 hrow)
    exact ⟨l, hmem, rfl, (of_decide_eq_true hlisted).1, rfl, rfl⟩

/-- The queries of a report leave the links alone. -/
theorem report_keeps {call : ServiceCall} {p : ReportProgram}
    {post : Except StorageError LinkStatisticsReport → Prop}
    (hp : p.Sat (fun _ _ => True) (fun _ => True) post)
    (hpost : ∀ (r : Except StorageError LinkStatisticsReport) (s' : ServiceState), post r →
      Shared s.links s'.links → ∀ userId, call.userId = some userId →
        OwnsResult s'.links.db userId (.report (r.mapError .storage))) :
    Keeps config call ((p.embed ServiceStep.report fun _ r => r).bind fun r =>
      .pure (.report (r.mapError .storage))) s := by
  induction p generalizing s with
  | pure r => exact fun s' hs => hpost r s' hp hs
  | call q next ih =>
      intro s₁ o reply s₂ hs hexec
      obtain rfl := fault_state hexec
      exact ⟨Confined.of_db rfl, ih reply (hp.2 reply trivial) fun r s' hr hs' =>
        hpost r s' hr (hs.trans hs')⟩

theorem getReportQueries_linkId (linkId : String) (period : StatisticsPeriod) :
    (getReportQueries linkId period).Sat (fun _ _ => True) (fun _ => True)
      fun r => ∀ report, r = .ok report → report.linkId = linkId := by
  refine ⟨trivial, fun reply _ => ?_⟩
  rcases reply with e | dailyRows
  · exact fun _ h => (by cases h)
  · refine ⟨trivial, fun reply _ => ?_⟩
    rcases reply with e | monthlyRows
    · exact fun _ h => (by cases h)
    · refine ⟨trivial, fun reply _ => ?_⟩
      rcases reply with e | countryRows
      · exact fun _ h => (by cases h)
      · refine ⟨trivial, fun reply _ => ?_⟩
        rcases reply with e | totals
        · exact fun _ h => (by cases h)
        · rintro _ ⟨rfl⟩
          rfl

theorem getReport_keeps (userId linkId : String) (query : PeriodQuery) (now : ℤ)
    (s : ServiceState) (hs : Identified s.links.db) :
    Keeps config (.getReport userId linkId query now)
      (LinkStatisticsService.getReport userId linkId query now) s := by
  rw [LinkStatisticsService.getReport]
  split
  · exact keeps_pure fun _ _ => trivial
  · rename_i period hperiod
    intro s₁ o reply s₂ hshared hexec
    have hexec' : (LinksService.exec config (.repository (.findById linkId)) o s₁.links).map
        (fun rs => (rs.1, { s₁ with links := rs.2 })) = some (reply, s₂) := hexec
    obtain ⟨⟨r, links⟩, hlinks, heq⟩ := Option.map_eq_some_iff.1 hexec'
    cases heq
    have hserves : Serves (some userId) (.repository (.findById linkId)) := trivial
    have hconfined : Confined (some userId) s₁.links links :=
      exec_confined (hshared.identified hs) hserves hlinks
    refine ⟨hconfined, ?_⟩
    rcases r with e | _ | link
    · exact keeps_pure fun _ _ => trivial
    · exact keeps_pure fun _ _ => trivial
    · simp only []
      split
      · exact keeps_pure fun _ _ => trivial
      · rename_i howner
        rcases repository_reply hlinks with ⟨a, hrun, heq⟩ | ⟨e, heq⟩
        · obtain ⟨hfind, hdb⟩ := Prod.mk.inj (Except.ok.inj hrun)
          cases heq
          obtain ⟨hmem, hid⟩ := LinksDb.mem_of_findById hfind
          refine report_keeps (getReportQueries_linkId linkId period) ?_
          rintro r s' hr hs' _ ⟨rfl⟩
          rcases r with e | report
          · trivial
          · refine ⟨link.shortCode, link.destinationUrl, ?_⟩
            rw [hr report rfl]
            refine HasLink.persists hs'.persists ⟨link, hdb ▸ hmem, hid, ?_, rfl, rfl⟩
            simpa using howner
        · cases heq

/-- Every call of the services keeps to the rows of its user. -/
theorem ownership_met :
    ownership.Met (services config) fun s => Identified s.links.db where
  refl s := Shared.refl s.links
  trans _ _ _ := Shared.trans
  keeps _ _ hs h := h.identified hs
  guar _ _ _ _ h := h.toShared
  environment x s hs := by
    cases x with
    | links x => exact .of_moved (environment_moved x s.links)
    | statistics db => exact Shared.refl s.links
  body call s hs := by
    cases call with
    | links call =>
        refine Semantics.Guarantees.map ServiceResult.links (fun _ _ h => h)
          ((body_isolated call hs).embed fun c o s₁ r s₂ hexec => ?_)
        have hexec' : (LinksService.exec config c o s₁.links).map
            (fun rs => (rs.1, { s₁ with links := rs.2 })) = some (r, s₂) := hexec
        obtain ⟨⟨reply, links⟩, hlinks, heq⟩ := Option.map_eq_some_iff.1 hexec'
        cases heq
        exact ⟨o, hlinks⟩
    | list userId query => exact list_keeps userId query s
    | getReport userId linkId query now => exact getReport_keeps userId linkId query now s hs

end

/-! ### The transactions -/

/-- The user whose rows a transaction may change. -/
def commandUser : LinksCommand → Option String
  | .createOrRestore userId _ _ => some userId
  | .changeStatus userId _ _ => some userId
  | _ => none

/-- A row is as it was unless a transaction of its owner has finished. -/
theorem serial_foreign {db₀ db : LinksDb}
    {log₀ log : List (Record LinksCommand LinksCommand.Res Stamp StorageError)}
    (h : Serial Links.repository db₀ log₀ log db) (hdb : Identified db₀) (l : LinkRecord) :
    Identified db ∧ ∃ finished, log = finished ++ log₀ ∧
      ((∀ r ∈ finished, commandUser r.command ≠ some l.userId) →
        (l ∈ db.links ↔ l ∈ db₀.links)) := by
  induction h with
  | base => exact ⟨hdb, [], rfl, fun _ => Iff.rfl⟩
  | @commit log db db' i c stamp a _ hrun ih =>
      obtain ⟨hids, finished, rfl, hsame⟩ := ih
      refine ⟨hids.run hrun, _ :: finished, rfl, fun hfinished => ?_⟩
      obtain ⟨hown, hrest⟩ := List.forall_mem_cons.1 hfinished
      refine Iff.trans ?_ (hsame hrest)
      have heffect : ∀ {userId : String}, commandUser c = some userId →
          (db' = db ∨ Effect userId db db') → (l ∈ db'.links ↔ l ∈ db.links) := by
        rintro userId hc (rfl | heffect)
        · rfl
        · exact Effect.foreign heffect hids.ids fun heq => hown (heq ▸ hc)
      cases c with
      | createOrRestore userId url code => exact heffect rfl (createOrRestoreTx_run hrun).effect
      | changeStatus userId linkId status =>
          exact heffect rfl ((changeStatusTx_run hrun).effect.imp_right And.left)
      | findActiveByShortCode code =>
          obtain rfl := (Prod.mk.inj (Except.ok.inj hrun)).2
          rfl
      | findById linkId =>
          obtain rfl := (Prod.mk.inj (Except.ok.inj hrun)).2
          rfl
  | quiet r _ _ ih =>
      obtain ⟨hids, finished, rfl, hsame⟩ := ih
      exact ⟨hids, r :: finished, rfl, fun hfinished =>
        hsame (List.forall_mem_cons.1 hfinished).2⟩

/-! ### Ownership isolation -/

/-- From `σ` to `σ'` every link keeps its owner, and `σ` is such that the next step of a
call leaves the links of the others alone and a result shows links of its user only. -/
structure OwnershipIsolated (config : LinksConfig) (σ σ' : ServicePool) : Prop where
  frame : ∀ e call τ, (services config).Fires (fun _ _ => True) e σ τ →
    σ.call? e.thread = some call → ∀ l, some l.userId ≠ call.userId →
      (l ∈ τ.shared.links.db.links ↔ l ∈ σ.shared.links.db.links)
  results : ∀ k call userId result, σ.call? k = some call → call.userId = some userId →
    σ.result? k = some result → OwnsResult σ'.shared.links.db userId result
  owner : ∀ l ∈ σ.shared.links.db.links, ∀ l' ∈ σ'.shared.links.db.links,
    l'.id = l.id → l'.userId = l.userId
  persists : Persists σ.shared.links.db σ'.shared.links.db

/-- In every run of the services each user changes and is shown the own links only, and no
link changes its owner; among the statements of concurrent transactions a row is changed
by those of its owner only. -/
theorem ownership_isolated (config : LinksConfig) (users : List String)
    (statistics : StatisticsDb)
    {τ τ' : State LinksCommand LinksCommand.Res LinksCommand LinksReply Stamp
      LinksDb String StorageError}
    (hτ : Links.repository.Reaches (State.init ⟨users, []⟩) τ)
    (hτ' : Links.repository.Reaches τ τ') {σ σ' : ServicePool}
    (hσ : (services config).Reaches (fun _ _ => True)
      (Pool.init ⟨LinksState.init users, statistics⟩) σ)
    (hσ' : (services config).Reaches (fun _ _ => True) σ σ') :
    (∀ l, ∃ finished, τ'.log = finished ++ τ.log ∧
      ((∀ r ∈ finished, commandUser r.command ≠ some l.userId) →
        (l ∈ τ'.db.links ↔ l ∈ τ.db.links))) ∧ OwnershipIsolated config σ σ' := by
  have hempty : Identified (LinksDb.mk users []) :=
    ⟨⟨List.nodup_nil, List.nodup_nil⟩, List.nodup_nil⟩
  constructor
  · intro l
    have hids : Links.discipline.Inv ⟨users, []⟩ := List.nodup_nil
    obtain ⟨hgood, hserial⟩ := (good_init hids).reaches Links.discipline_valid hτ
    obtain ⟨-, hserial'⟩ := hgood.reaches Links.discipline_valid hτ'
    exact (serial_foreign hserial' (serial_foreign hserial hempty l).1 l).2
  · have hmet : ownership.Met (services config) fun s => Identified s.links.db := ownership_met
    obtain ⟨-, hkept⟩ := hmet.reaches (Contract.Met.init hempty) hσ
    obtain ⟨hrely, hkept'⟩ := hmet.reaches hkept hσ'
    have hpersists : Persists σ.shared.links.db σ'.shared.links.db := hrely.persists
    refine ⟨?_, ?_, ?_, hpersists⟩
    · intro e call τ hfires hcall
      exact (hmet.fires hkept hfires hcall).foreign
    · intro k call userId result hcall huser hresult
      exact OwnsResult.persists hpersists (hmet.result hkept hcall hresult userId huser)
    · intro l hl l' hl' hid
      obtain ⟨m, hm, hmid, hmuser, -⟩ := hpersists l hl
      obtain rfl := List.inj_on_of_nodup_map hkept'.holds.ids hl' hm (hid.trans hmid.symm)
      exact hmuser

/-- The next step of call `i`, with fixed values from outside. -/
def proceed (i : ℕ) : Event ServiceCall LinksOutside ServiceEnvironment :=
  .exec i ⟨⟨1, "l"⟩, "aaaaaa", .none⟩

/-- A link is created by its owner; another user lists links, tries to deactivate it and
asks for its report. -/
def twoUsers : ServicePool :=
  (services exampleConfig).after
    [.spawn (.links (.create "u" "https://a.example/")), proceed 0, proceed 0,
      .spawn (.links (.deactivate "v" "l")), .spawn (.list "v" ⟨none, none, none⟩),
      .spawn (.getReport "v" "l" ⟨some "2026-01-01", some "2026-01-31"⟩ 0),
      proceed 1, proceed 2, proceed 3]
    (Pool.init ⟨LinksState.init ["u", "v"], StatisticsDb.empty⟩)

def ownerDeactivated : ServicePool :=
  (services exampleConfig).after
    [.spawn (.links (.deactivate "u" "l")), proceed 4, proceed 4, proceed 4] twoUsers

/-- The first transaction of one owner, then the second. -/
def oneCreate : State LinksCommand LinksCommand.Res LinksCommand LinksReply Stamp
    LinksDb String StorageError :=
  Links.repository.after (concurrentCreates.take 11) (State.init ⟨["u", "v"], []⟩)

def bothCreates : State LinksCommand LinksCommand.Res LinksCommand LinksReply Stamp
    LinksDb String StorageError :=
  Links.repository.after (concurrentCreates.drop 11) oneCreate

theorem twoUsers_isolated :
    (oneCreate.db.links.length = 1 ∧ bothCreates.db.links.length = 2 ∧
      twoUsers.shared.links.db.links.map (·.status) = [.active] ∧
      ownerDeactivated.shared.links.db.links.map (·.status) = [.deactivated] ∧
      (twoUsers.result? 1 matches some (.links (.error _))) ∧
      (twoUsers.result? 3 matches some (.report (.error _)))) ∧
    (∀ l, ∃ finished, bothCreates.log = finished ++ oneCreate.log ∧
      ((∀ r ∈ finished, commandUser r.command ≠ some l.userId) →
        (l ∈ bothCreates.db.links ↔ l ∈ oneCreate.db.links))) ∧
      OwnershipIsolated exampleConfig twoUsers ownerDeactivated :=
  ⟨by decide, ownership_isolated exampleConfig ["u", "v"] StatisticsDb.empty
    (Links.repository.reaches_after _ _) (Links.repository.reaches_after _ _)
    (Semantics.reaches_after _ (by decide) : (services exampleConfig).Reaches
      (fun _ _ => True) (Pool.init ⟨LinksState.init ["u", "v"], StatisticsDb.empty⟩) twoUsers)
    (Semantics.reaches_after _ (by decide))⟩

end LinkStatistics

end Shortlink

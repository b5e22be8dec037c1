import Shortlink.Interaction.Serial
import Shortlink.Links.Identity

/-!
# The resolution cache is invisible in serial runs

Calls are executed one after another, cache entries disappear at any time, and any
cache command may fail, with or without having taken effect. A visible entry then
always belongs to the active link with its code: a status change invalidates the
entry before it commits, and nobody writes it back in between. So a resolution
answers what the table says, and the other calls do what they would do if no cache
command were issued.
-/

namespace Shortlink

namespace Links

open Shortlink.Storage Shortlink.Transaction Shortlink.Interaction
open Shortlink.Table Shortlink.Expiring

def cacheFaults : LinksStep → LinksOutside → LinksState → Prop
  | .repository _, o, _ => o.fault = .none
  | _, _, _ => True

instance decidableCacheFaults (c : LinksStep) (o : LinksOutside) (s : LinksState) :
    Decidable (cacheFaults c o s) :=
  match c with
  | .repository _ => inferInstanceAs (Decidable (o.fault = .none))
  | .generate | .get _ | .set _ _ | .invalidate _ => isTrue trivial

/-- What `resolve` answers according to the table. -/
def resolution (db : LinksDb) (shortCode : String) : LinksResult :=
  match db.findActiveByShortCode shortCode with
  | some link => .ok (.resolved ⟨link.id, link.destinationUrl⟩)
  | none => .error linkNotFoundException

/-- The answers of a cache that is empty and does not fail. -/
def emptyCache : (c : LinksStep) → Option c.Reply
  | .get _ => some (.ok none)
  | .set _ _ => some (.ok ())
  | .invalidate _ => some (.ok ())
  | _ => none

/-- A call without its cache commands. -/
def uncachedBody (config : LinksConfig) (call : LinksCall) : LinksProgram :=
  (LinksService.body config call).answered emptyCache

/-- A cache entry could not be invalidated, or not confirmed to be. -/
def InvalidationFailed (es : List (LinksStep × LinksOutside)) : Prop :=
  ∃ code o, (LinksStep.invalidate code, o) ∈ es ∧ o.fault ≠ .none

/-- The call changes the status of a link of the calling account. -/
def ChangesOwnLink (db : LinksDb) : LinksCall → Prop
  | .deactivate userId linkId | .reactivate userId linkId =>
      ∃ link ∈ db.links, link.id = linkId ∧ link.userId = userId
  | _ => False

/-- What an execution of a call looks like when the cache is invisible. -/
def CacheInvisible (config : LinksConfig) (call : LinksCall) (s : LinksState)
    (es : List (LinksStep × LinksOutside)) (v : LinksResult) (s' : LinksState) :
    Prop :=
  match call with
  | .resolve code => v = resolution s.db code ∧ s'.db = s.db
  | call =>
      (v = .error linkCacheUnavailableException ↔ InvalidationFailed es) ∧
      (InvalidationFailed es → ChangesOwnLink s.db call ∧ s'.db = s.db) ∧
      (¬ InvalidationFailed es → ∀ cache,
        (linksService config).Executes cacheFaults (uncachedBody config call)
          ⟨s.db, cache⟩ (es.filter fun e => (emptyCache e.1).isNone) v
          ⟨s'.db, cache⟩)

/-! ### The invariant -/

/-- Every visible cache entry is the answer of the table. -/
structure Current (s : LinksState) : Prop where
  active : CacheOk (fun _ => True) s
  sound : Sound s

namespace Current

variable {s : LinksState}

theorem resolution_of_get (h : Current s) {code : String} {resolved : ResolvedLink}
    (hget : s.cache.get (resolutionKey code) = some resolved) :
    resolution s.db code = .ok (.resolved resolved) := by
  obtain ⟨l, hl, hid, hcode, hactive⟩ := h.active.entry code resolved hget
  have hfound : s.db.findActiveByShortCode code ≠ none := by
    rw [LinksDb.findActiveByShortCode, Ne, List.find?_eq_none]
    exact fun hnone => hnone l hl (by simp [hcode, hactive])
  obtain ⟨link, hlink⟩ := Option.ne_none_iff_exists'.1 hfound
  have hunique := h.sound.rows.leadsTo_unique (leadsTo_of_find hlink)
    (h.sound.entry code resolved hget)
  rw [resolution, hlink, ← hunique]

end Current

variable {config : LinksConfig} {s s' : LinksState}

/-- What the environment may have done: it keeps the tables and the invariant and
removes cache entries. -/
structure Idled (s s' : LinksState) : Prop where
  current : Current s'
  db : s'.db = s.db
  cache : ∀ k v, s'.cache.get k = some v → s.cache.get k = some v

theorem idled_of_idles (h : (linksService config).Idles s s') (hs : Current s) :
    Idled s s' := by
  refine h.invariant (P := Idled s) ?_ ⟨hs, rfl, fun _ _ h => h⟩
  intro x s₁ h₁
  have hmoved := environment_moved x s₁
  have hs₁ := h₁.current
  refine ⟨⟨hmoved.cacheOk hs₁.active nofun nofun, hmoved.sound hs₁.sound nofun⟩, ?_, ?_⟩
  · rw [← h₁.db]
    cases x <;> rfl
  · intro k v hget
    refine h₁.cache k v ?_
    cases x with
    | tick n => exact Store.get_tick_eq_some hget
    | evict key => exact (Store.get_del_eq_some _ hget).2

theorem Idled.uncached (h : Idled s s') {linkId : String} (hs : Uncached s linkId) :
    Uncached s' linkId :=
  fun code resolved hget => hs code resolved (h.cache _ _ hget)

/-- A step that neither writes the cache nor deactivates a link keeps the
invariant. -/
theorem exec_current {c : LinksStep} {o : LinksOutside} {r : c.Reply}
    (h : LinksService.exec config c o s = some (r, s')) (hs : Current s)
    (hwrite : ∀ code resolved, c ≠ .set code resolved)
    (hcommit : ∀ userId linkId,
      c = .repository (.changeStatus userId linkId .deactivated) →
        Uncached s linkId) : Current s' :=
  ⟨(exec_moved h).cacheOk hs.active (fun code r hc => absurd hc (hwrite code r))
      (fun userId linkId hc _ => hcommit userId linkId hc),
    (exec_moved h).sound hs.sound fun code r hc => absurd hc (hwrite code r)⟩

/-! ### Executions of the calls -/

theorem invalidationFailed_cons {c : LinksStep} {o : LinksOutside}
    {es : List (LinksStep × LinksOutside)} :
    InvalidationFailed ((c, o) :: es) ↔
      (∃ code, c = .invalidate code ∧ o.fault ≠ .none) ∨ InvalidationFailed es := by
  constructor
  · rintro ⟨code, o', hmem, hfault⟩
    rcases List.mem_cons.1 hmem with heq | hmem
    · cases heq
      exact .inl ⟨code, rfl, hfault⟩
    · exact .inr ⟨code, o', hmem, hfault⟩
  · rintro (⟨code, rfl, hfault⟩ | ⟨code, o', hmem, hfault⟩)
    · exact ⟨code, o, List.mem_cons_self, hfault⟩
    · exact ⟨code, o', List.mem_cons_of_mem _ hmem, hfault⟩

@[simp] theorem not_invalidationFailed_nil : ¬ InvalidationFailed [] := by
  rintro ⟨code, o, hmem, -⟩
  cases hmem

@[simp] theorem invalidationFailed_repository {c : LinksCommand} {o : LinksOutside}
    {es : List (LinksStep × LinksOutside)} :
    InvalidationFailed ((.repository c, o) :: es) ↔ InvalidationFailed es := by
  rw [invalidationFailed_cons]
  exact or_iff_right fun ⟨_, h, _⟩ => by cases h

@[simp] theorem invalidationFailed_invalidate {code : String} {o : LinksOutside}
    {es : List (LinksStep × LinksOutside)} :
    InvalidationFailed ((.invalidate code, o) :: es) ↔
      o.fault ≠ .none ∨ InvalidationFailed es := by
  rw [invalidationFailed_cons]
  exact or_congr ⟨fun ⟨_, _, h⟩ => h, fun h => ⟨code, rfl, h⟩⟩ Iff.rfl

theorem ensures_done {ends : List (LinksStep × LinksOutside) → LinksResult →
    LinksState → Prop} {v : LinksResult} (hs : Current s)
    (h : ∀ s', Idled s s' → ends [] v s') :
    (linksService config).Ensures cacheFaults ends (.pure v) s :=
  Semantics.ensures_pure.2 fun s' hidle => h s' (idled_of_idles hidle hs)

/-- The next step is executed in a state that satisfies the invariant. -/
theorem ensures_step {ends : List (LinksStep × LinksOutside) → LinksResult →
    LinksState → Prop} {c : LinksStep} {next : c.Reply → LinksProgram}
    (hs : Current s)
    (h : ∀ s₁ o (r : c.Reply) s₂, Idled s s₁ → cacheFaults c o s₁ →
      LinksService.exec config c o s₁ = some (r, s₂) →
        (linksService config).Ensures cacheFaults (fun es => ends ((c, o) :: es))
          (next r) s₂) :
    (linksService config).Ensures cacheFaults ends (.call c next) s :=
  Semantics.ensures_call.2 fun s₁ o r s₂ hidle hok hexec =>
    h s₁ o r s₂ (idled_of_idles hidle hs) hok hexec

theorem exec_findById {linkId : String} {o : LinksOutside}
    {r : LinksStep.Reply (.repository (.findById linkId))}
    (hok : o.fault = .none)
    (h : LinksService.exec config (.repository (.findById linkId)) o s = some (r, s')) :
    r = .ok (s.db.findById linkId) ∧ s' = s := by
  rcases exec_repository hok h with ⟨a, db', hrun, hr, hs⟩ | ⟨e, hrun, -, -⟩
  · cases hrun
    exact ⟨hr, hs⟩
  · cases hrun

theorem exec_findActiveByShortCode {code : String} {o : LinksOutside}
    {r : LinksStep.Reply (.repository (.findActiveByShortCode code))}
    (hok : o.fault = .none)
    (h : LinksService.exec config (.repository (.findActiveByShortCode code)) o s =
      some (r, s')) :
    r = .ok (s.db.findActiveByShortCode code) ∧ s' = s := by
  rcases exec_repository hok h with ⟨a, db', hrun, hr, hs⟩ | ⟨e, hrun, -, -⟩
  · cases hrun
    exact ⟨hr, hs⟩
  · cases hrun

/-- A cache command leaves the table alone. -/
theorem exec_cache_db {c : LinksStep} {o : LinksOutside} {r : c.Reply}
    (h : LinksService.exec config c o s = some (r, s')) (hc : emptyCache c ≠ none) :
    s'.db = s.db := by
  cases exec_moved h with
  | wrote code resolved ttl => rfl
  | committed c stamp a db hrun => exact absurd rfl hc
  | removed _ _ hdb hcache => exact hdb

/-- Writing back the active link with a code keeps the invariant. -/
theorem Current.set {code : String} {link : LinkRecord} {o : LinksOutside}
    {r : LinksStep.Reply (.set code ⟨link.id, link.destinationUrl⟩)}
    (hs : Current s) (hfind : s.db.findActiveByShortCode code = some link)
    (h : LinksService.exec config (.set code ⟨link.id, link.destinationUrl⟩) o s =
      some (r, s')) : Current s' := by
  refine ⟨(exec_moved h).cacheOk hs.active ?_ fun _ _ => nofun,
    (exec_moved h).sound hs.sound ?_⟩
  · intro code' resolved hset
    cases hset
    have hboth := List.find?_some hfind
    simp only [Bool.and_eq_true, beq_iff_eq] at hboth
    exact ⟨link, List.mem_of_find?_eq_some hfind, rfl, hboth.1, fun _ => hboth.2⟩
  · intro code' resolved hset
    cases hset
    exact leadsTo_of_find hfind

theorem missed_ensures (code : String) (hs : Current s) :
    (linksService config).Ensures cacheFaults
      (fun _ v s' => (v = resolution s.db code ∧ s'.db = s.db) ∧ Current s')
      (LinksService.missed code) s := by
  refine ensures_step hs fun s₁ o r s₂ h₁ hok hexec => ?_
  obtain ⟨rfl, rfl⟩ := exec_findActiveByShortCode hok hexec
  rw [← h₁.db]
  cases hfind : s₂.db.findActiveByShortCode code with
  | none =>
      refine ensures_done h₁.current fun s' h' => ⟨⟨?_, h'.db⟩, h'.current⟩
      rw [resolution, hfind]
  | some link =>
      refine ensures_step h₁.current fun s₃ o r s₄ h₃ hok hexec => ?_
      have hs₄ : Current s₄ := h₃.current.set (h₃.db ▸ hfind) hexec
      have hdb₄ : s₄.db = s₂.db :=
        (exec_cache_db hexec (Option.some_ne_none _)).trans h₃.db
      refine ensures_done hs₄ fun s' h' => ⟨⟨?_, h'.db.trans hdb₄⟩, h'.current⟩
      rw [resolution, hfind]

/-- A resolution answers what the table says. -/
theorem resolve_ensures (code : String) (hs : Current s) :
    (linksService config).Ensures cacheFaults
      (fun _ v s' => (v = resolution s.db code ∧ s'.db = s.db) ∧ Current s')
      (LinksService.resolve code) s := by
  refine ensures_step hs fun s₁ o r s₂ h₁ _ hexec => ?_
  have hs₂ : Current s₂ :=
    exec_current hexec h₁.current (fun _ _ => nofun) fun _ _ => nofun
  have hdb₂ : s₂.db = s.db :=
    (exec_cache_db hexec (Option.some_ne_none _)).trans h₁.db
  have hmissed : (linksService config).Ensures cacheFaults
      (fun _ v s' => (v = resolution s.db code ∧ s'.db = s.db) ∧ Current s')
      (LinksService.missed code) s₂ := hdb₂ ▸ missed_ensures code hs₂
  rcases r with e | _ | cached
  · exact hmissed
  · exact hmissed
  · have hcached := h₁.current.resolution_of_get (get_reply hexec)
    refine ensures_done hs₂ fun s' h' => ⟨⟨?_, h'.db.trans hdb₂⟩, h'.current⟩
    rw [← h₁.db, hcached]

/-- The invalidation is confirmed exactly when it does not fail. -/
theorem exec_invalidate {code : String} {o : LinksOutside}
    {r : LinksStep.Reply (.invalidate code)}
    (h : LinksService.exec config (.invalidate code) o s = some (r, s')) :
    (r = .ok () ∧ o.fault = .none ∧
      s' = { s with cache := s.cache.del (resolutionKey code) }) ∨
    ∃ e, r = .error e ∧ o.fault ≠ .none := by
  obtain ⟨hr, hs⟩ := Prod.mk.inj (Option.some.inj h)
  cases hfault : o.fault with
  | none =>
      rw [hfault] at hr hs
      exact .inl ⟨hr.symm, rfl, hs.symm⟩
  | refused e =>
      rw [hfault] at hr
      exact .inr ⟨e, hr.symm, nofun⟩
  | lost e =>
      rw [hfault] at hr
      exact .inr ⟨e, hr.symm, nofun⟩

/-- A creation never answers that the cache is unavailable. -/
theorem createLoop_ensures (userId url : String) (n : ℕ) (hs : Current s) :
    (linksService config).Ensures cacheFaults
      (fun _ v s' => v ≠ .error linkCacheUnavailableException ∧ Current s')
      (LinksService.createLoop config userId url n) s := by
  induction n generalizing s with
  | zero => exact ensures_done hs fun s' h' => ⟨nofun, h'.current⟩
  | succ n ih =>
      refine ensures_step hs fun s₁ o code s₂ h₁ _ hexec => ?_
      have hs₂ : Current s₂ :=
        exec_current hexec h₁.current (fun _ _ => nofun) fun _ _ => nofun
      refine ensures_step hs₂ fun s₃ o r s₄ h₃ _ hexec => ?_
      have hs₄ : Current s₄ :=
        exec_current hexec h₃.current (fun _ _ => nofun) fun _ _ => nofun
      have hdone : ∀ v : LinksResult, v ≠ .error linkCacheUnavailableException →
          (linksService config).Ensures cacheFaults
            (fun _ v s' => v ≠ .error linkCacheUnavailableException ∧ Current s')
            (.pure v) s₄ :=
        fun v hv => ensures_done hs₄ fun s' h' => ⟨hv, h'.current⟩
      rcases r with e | link | link | link | _ | _
      · exact hdone _ nofun
      · exact hdone _ nofun
      · exact hdone _ nofun
      · exact hdone _ nofun
      · exact hdone _ nofun
      · exact ih hs₄

/-- What a status change does about the cache. -/
def StatusEnds (db : LinksDb) (userId linkId : String)
    (es : List (LinksStep × LinksOutside)) (v : LinksResult) (s' : LinksState) : Prop :=
  ((v = .error linkCacheUnavailableException ↔ InvalidationFailed es) ∧
    (InvalidationFailed es →
      (∃ link ∈ db.links, link.id = linkId ∧ link.userId = userId) ∧ s'.db = db)) ∧
  Current s'

theorem statusResult_ne (config : LinksConfig)
    (result : Except StorageError ChangeLinkStatusResult) :
    LinksService.statusResult config result ≠
      .error linkCacheUnavailableException := by
  rcases result with e | link | link | _ | _ | _
  · exact nofun
  · exact nofun
  · exact nofun
  · simp [LinksService.statusResult, linkNotFoundException,
      linkCacheUnavailableException]
  · simp [LinksService.statusResult, forbiddenException,
      linkCacheUnavailableException]
  · simp [LinksService.statusResult, linkLimitReachedException,
      linkCacheUnavailableException]

theorem changeStatus_ensures (userId linkId : String) (status : LinkStatus)
    (hs : Current s) :
    (linksService config).Ensures cacheFaults (StatusEnds s.db userId linkId)
      (LinksService.changeStatus config userId linkId status) s := by
  refine ensures_step hs fun s₁ o r s₂ h₁ hok hexec => ?_
  obtain ⟨rfl, rfl⟩ := exec_findById hok hexec
  have hrefused : ∀ v : LinksResult, v ≠ .error linkCacheUnavailableException →
      (linksService config).Ensures cacheFaults
        (fun es => StatusEnds s.db userId linkId
          ((.repository (.findById linkId), o) :: es)) (.pure v) s₂ :=
    fun v hv => ensures_done h₁.current fun s' h' => by
      simp [StatusEnds, hv, h'.current]
  cases hfind : s₂.db.findById linkId with
  | none => exact hrefused _ nofun
  | some existing =>
      obtain ⟨hmem, hid⟩ := LinksDb.mem_of_findById hfind
      dsimp only
      split
      · exact hrefused _ nofun
      rename_i howner
      have hown : ∃ link ∈ s.db.links, link.id = linkId ∧ link.userId = userId :=
        ⟨existing, h₁.db ▸ hmem, hid, by simpa using howner⟩
      refine ensures_step h₁.current fun s₃ o₃ r s₄ h₃ _ hexec => ?_
      have hs₄ : Current s₄ :=
        exec_current hexec h₃.current (fun _ _ => nofun) fun _ _ => nofun
      have hdb₄ : s₄.db = s.db :=
        (exec_cache_db hexec (Option.some_ne_none _)).trans (h₃.db.trans h₁.db)
      rcases exec_invalidate hexec with ⟨rfl, hfault, rfl⟩ | ⟨e, rfl, hfault⟩
      · have hrow : Row s₃.db linkId existing.shortCode :=
          ⟨existing, h₃.db ▸ hmem, hid, rfl⟩
        have huncached := h₃.current.active.uncached_of_del hrow
        refine ensures_step hs₄ fun s₅ o₅ r s₆ h₅ _ hexec => ?_
        have hs₆ : Current s₆ := exec_current hexec h₅.current (fun _ _ => nofun)
          fun u l hc => by
            obtain ⟨-, rfl, -⟩ := LinksCommand.changeStatus.inj
              (LinksStep.repository.inj hc)
            exact h₅.uncached huncached
        refine ensures_done hs₆ fun s' h' => ?_
        have hconfirmed : ¬ InvalidationFailed
            [(.repository (.findById linkId), o), (.invalidate existing.shortCode, o₃),
              (.repository (.changeStatus userId linkId status), o₅)] := by
          simp [hfault]
        exact ⟨⟨⟨fun hv => absurd hv (statusResult_ne config r),
          fun hfailed => absurd hfailed hconfirmed⟩,
          fun hfailed => absurd hfailed hconfirmed⟩, h'.current⟩
      · refine ensures_done hs₄ fun s' h' => ?_
        simp [StatusEnds, hfault, h'.current, hown, h'.db.trans hdb₄]

/-! ### Serial runs -/

theorem create_sat (userId raw : String) :
    (LinksService.create config userId raw).Sat (fun _ _ => True) CreateStep
      fun _ => True := by
  rw [LinksService.create]
  split
  · trivial
  · exact createLoop_sat CreateStep trivial (fun _ => trivial) _

theorem create_ensures (userId raw : String) (hs : Current s) :
    (linksService config).Ensures cacheFaults
      (fun _ v s' => v ≠ .error linkCacheUnavailableException ∧ Current s')
      (LinksService.create config userId raw) s := by
  rw [LinksService.create]
  split
  · exact ensures_done hs fun s' h' => ⟨fun h => (by cases h), h'.current⟩
  · exact createLoop_ensures userId _ _ hs

theorem body_ensures (call : LinksCall) (hs : Current s) :
    (linksService config).Ensures cacheFaults (fun _ _ s' => Current s')
      (LinksService.body config call) s := by
  cases call with
  | create userId raw => exact (create_ensures userId raw hs).mono fun _ _ _ h => h.2
  | deactivate userId linkId =>
      exact (changeStatus_ensures userId linkId _ hs).mono fun _ _ _ h => h.2
  | reactivate userId linkId =>
      exact (changeStatus_ensures userId linkId _ hs).mono fun _ _ _ h => h.2
  | resolve code => exact (resolve_ensures code hs).mono fun _ _ _ h => h.2

theorem current_init (users : List String) : Current (LinksState.init users) :=
  have hnone : ∀ (k : String), (LinksState.init users).cache.get k = none := fun _ => rfl
  ⟨⟨⟨List.nodup_nil, List.nodup_nil⟩, fun code resolved hget => by
      rw [hnone] at hget
      cases hget⟩,
    ⟨⟨⟨List.nodup_nil, List.nodup_nil⟩, List.nodup_nil⟩, fun code resolved hget => by
      rw [hnone] at hget
      cases hget⟩⟩

theorem current_of_serially {users : List String}
    (h : (linksService config).Serially (fun _ _ => True) (fun _ => cacheFaults)
      (LinksState.init users) s) : Current s :=
  h.invariant
    (fun x s₁ hs₁ => (@idled_of_idles config s₁ _ (.single ⟨x, rfl⟩) hs₁).current)
    (fun _ call hs _ => body_ensures call hs) (current_init users)

/-- The commands that a call without a cache issues as well. -/
def Confirmed (e : LinksStep × LinksOutside) : Prop :=
  match e.1 with
  | .get _ | .set _ _ => False
  | .invalidate _ => e.2.fault = .none
  | _ => True

theorem exec_repository_cache {c : LinksCommand} {o : LinksOutside}
    {r : LinksStep.Reply (.repository c)} (cache : Store String fun _ => ResolvedLink)
    (hfault : o.fault = .none)
    (h : LinksService.exec config (.repository c) o s = some (r, s')) :
    LinksService.exec config (.repository c) o ⟨s.db, cache⟩ =
      some (r, ⟨s'.db, cache⟩) := by
  obtain ⟨hr, hs⟩ := Prod.mk.inj (Option.some.inj h)
  simp only [LinksService.exec, LinksService.execTransaction, hfault] at hr hs ⊢
  cases hrun : (c.impl o.stamp).run s.db with
  | ok p =>
      simp only [hrun, Fault.apply_none] at hr hs ⊢
      rw [← hr, ← hs]
  | error e =>
      simp only [hrun, Fault.apply_none] at hr hs ⊢
      rw [← hr, ← hs]

/-- An execution whose invalidations are confirmed is one without a cache. -/
theorem uncached_of_executes {call : LinksCall}
    {es : List (LinksStep × LinksOutside)} {v : LinksResult}
    (h : (linksService config).Executes cacheFaults (LinksService.body config call) s
      es v s') (hes : ∀ e ∈ es, Confirmed e) (cache : Store String fun _ => ResolvedLink) :
    (linksService config).Executes cacheFaults (uncachedBody config call)
      ⟨s.db, cache⟩ (es.filter fun e => (emptyCache e.1).isNone) v ⟨s'.db, cache⟩ := by
  suffices hrun : ∃ t, (linksService config).Executes cacheFaults
      (uncachedBody config call) ⟨s.db, cache⟩
      (es.filter fun e => (emptyCache e.1).isNone) v t ∧ t = ⟨s'.db, cache⟩ by
    obtain ⟨t, hrun, rfl⟩ := hrun
    exact hrun
  refine Semantics.Executes.answered cacheFaults emptyCache
    (fun s t => t = ⟨s.db, cache⟩) Confirmed ?_ ?_ ?_ h hes rfl
  · rintro x s₁ _ rfl
    cases x <;> rfl
  · rintro c o s₁ _ r r' s₂ rfl - hconfirmed hr hexec
    have hexec : LinksService.exec config c o s₁ = some (r', s₂) := hexec
    cases c with
    | generate => cases hr
    | repository c => cases hr
    | get code => exact hconfirmed.elim
    | set code resolved => exact hconfirmed.elim
    | invalidate code =>
        rcases exec_invalidate hexec with ⟨rfl, -, rfl⟩ | ⟨e, -, hfault⟩
        · exact ⟨Option.some.inj hr, rfl⟩
        · exact absurd hconfirmed hfault
  · rintro c o s₁ _ r s₂ rfl hok hr hexec
    have hexec : LinksService.exec config c o s₁ = some (r, s₂) := hexec
    cases c with
    | generate =>
        cases hexec
        exact ⟨trivial, _, rfl, rfl⟩
    | repository c => exact ⟨hok, _, exec_repository_cache cache hok hexec, rfl⟩
    | get code => cases hr
    | set code resolved => cases hr
    | invalidate code => cases hr

theorem confirmed_of_changeStatus {userId linkId : String} {status : LinkStatus}
    {es : List (LinksStep × LinksOutside)} {v : LinksResult}
    (h : (linksService config).Executes cacheFaults
      (LinksService.changeStatus config userId linkId status) s es v s')
    (hf : ¬ InvalidationFailed es) : ∀ e ∈ es, Confirmed e := by
  have hissued := h.sat (changeStatus_sat (fun c => ∀ code resolved,
    c ≠ .get code ∧ c ≠ .set code resolved) (fun _ _ => ⟨nofun, nofun⟩)
    (fun _ _ _ => ⟨nofun, nofun⟩) fun _ _ => ⟨nofun, nofun⟩)
  rintro ⟨c, o⟩ he
  cases c with
  | generate => trivial
  | repository c => trivial
  | get code => exact absurd rfl (hissued _ he code ⟨"", ""⟩).1
  | set code resolved => exact absurd rfl (hissued _ he code resolved).2
  | invalidate code =>
      by_contra hfault
      exact hf ⟨code, o, he, hfault⟩

/-- In serial runs the cache is invisible. -/
theorem cache_invisible (config : LinksConfig) (users : List String)
    {s s' : LinksState} {call : LinksCall} {es : List (LinksStep × LinksOutside)}
    {v : LinksResult}
    (hs : (linksService config).Serially (fun _ _ => True) (fun _ => cacheFaults)
      (LinksState.init users) s)
    (h : (linksService config).Executes cacheFaults (LinksService.body config call) s
      es v s') : CacheInvisible config call s es v s' := by
  have hcur := current_of_serially hs
  cases call with
  | resolve code => exact (resolve_ensures code hcur es v s' h).1
  | create userId raw =>
      have hissued := h.sat (create_sat userId raw)
      have hfailed : ¬ InvalidationFailed es := fun ⟨code, o, hmem, _⟩ =>
        hissued _ hmem
      refine ⟨⟨fun hv => absurd hv (create_ensures userId raw hcur es v s' h).1,
        fun hf => absurd hf hfailed⟩, fun hf => absurd hf hfailed,
        fun _ cache => uncached_of_executes h (fun e he => ?_) cache⟩
      have he := hissued e he
      revert he
      rcases e with ⟨c, o⟩
      cases c <;> simp [CreateStep, Confirmed]
  | deactivate userId linkId =>
      obtain ⟨⟨hiff, hfailed⟩, -⟩ :=
        changeStatus_ensures userId linkId _ hcur es v s' h
      exact ⟨hiff, hfailed, fun hf cache =>
        uncached_of_executes h (confirmed_of_changeStatus h hf) cache⟩
  | reactivate userId linkId =>
      obtain ⟨⟨hiff, hfailed⟩, -⟩ :=
        changeStatus_ensures userId linkId _ hcur es v s' h
      exact ⟨hiff, hfailed, fun hf cache =>
        uncached_of_executes h (confirmed_of_changeStatus h hf) cache⟩

/-- The outcome of a step with fixed values from outside. -/
def outcome (fault : Fault) : LinksOutside := ⟨⟨1, "l"⟩, "aaaaaa", fault⟩

/-- The account `u` creates the link `l`, which is resolved and written back. -/
def resolvedOnce : LinksState :=
  (linksService exampleConfig).serialAfter (fun _ _ => True) (fun _ => cacheFaults)
    [.call (.create "u" "https://a.example/") [outcome .none, outcome .none],
      .call (.resolve "aaaaaa") [outcome .none, outcome .none, outcome .none]]
    (LinksState.init ["u"])

/-- The invalidation takes effect but is not confirmed. -/
def lostInvalidation : LinksState :=
  (linksService exampleConfig).serialAfter (fun _ _ => True) (fun _ => cacheFaults)
    [.call (.deactivate "u" "l") [outcome .none, outcome (.lost (.error ""))]]
    resolvedOnce

theorem resolvedOnce_invisible :
    resolvedOnce.cache.get (resolutionKey "aaaaaa") =
        some ⟨"l", "https://a.example/"⟩ ∧
      lostInvalidation.cache.get (resolutionKey "aaaaaa") = none ∧
      CacheInvisible exampleConfig (.deactivate "u" "l") resolvedOnce
        [(.repository (.findById "l"), outcome .none),
          (.invalidate "aaaaaa", outcome (.lost (.error "")))]
        (.error linkCacheUnavailableException) lostInvalidation :=
  ⟨by decide, by decide, cache_invisible exampleConfig ["u"]
    (Semantics.serially_after _ _) (Semantics.executes_of_perform
      [outcome .none, outcome (.lost (.error ""))] rfl)⟩

end Links

end Shortlink

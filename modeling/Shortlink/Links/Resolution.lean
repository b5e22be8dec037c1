import Shortlink.Links.Limit
import Shortlink.Links.Service

/-!
# Deactivation and the resolution cache

A deactivation invalidates the cache entry and then commits. A resolution that
read the link before the commit may put it back afterwards, so the property of a
link holds of the runs in which a resolution writes its cache entry only while the
link is active and no deactivation of it is between the two steps (`freshWrite`).

The invariant of these runs is that a visible cache entry of the link means that
the link is active. A call that stands between the two steps of its deactivation
sees no entry of it, which is what lets its commit keep the invariant.
-/

namespace Shortlink

namespace Links

open Shortlink.Storage Shortlink.Transaction Shortlink.Interaction
open Shortlink.Table Shortlink.Expiring

/-! ### Rows across a transaction -/

theorem LinksDb.mem_saveLink {db : LinksDb} (link : LinkRecord)
    {l : LinkRecord} (hl : l ∈ db.links) :
    ∃ l' ∈ (db.saveLink link).links, l'.id = l.id ∧ l'.userId = l.userId ∧
      l'.shortCode = l.shortCode ∧ l'.destinationUrl = l.destinationUrl ∧
      (l.id = link.id → l'.status = link.status) ∧
      (l.id ≠ link.id → l'.status = l.status) := by
  cases hid : l.id == link.id with
  | false =>
      have hne : l.id ≠ link.id := by simpa using hid
      exact ⟨l, mem_updateWhere_of_not hl hid, rfl, rfl, rfl, rfl,
        fun h => absurd h hne, fun _ => rfl⟩
  | true =>
      have heq : l.id = link.id := by simpa using hid
      exact ⟨_, mem_updateWhere_of hl hid, rfl, rfl, rfl, rfl, fun _ => rfl,
        fun h => absurd heq h⟩

/-- What a committed transaction leaves of a row. Its status changes only in a
transaction on this link. -/
theorem LinksCommand.impl_row {c : LinksCommand} {stamp : Stamp}
    {db db' : LinksDb} {a : c.Res} (hids : (db.links.map (·.id)).Nodup)
    (hrun : (c.impl stamp).run db = .ok (a, db')) {l : LinkRecord}
    (hl : l ∈ db.links) :
    ∃ l' ∈ db'.links, l'.id = l.id ∧ l'.userId = l.userId ∧
      l'.shortCode = l.shortCode ∧ l'.destinationUrl = l.destinationUrl ∧
      (l'.status = l.status ∨ c = .changeStatus l.userId l.id l'.status ∨
        ∃ code, c = .createOrRestore l.userId l.destinationUrl code ∧
          l'.status = .active) := by
  have hsame : db' = db → ∃ l' ∈ db'.links, l'.id = l.id ∧
      l'.userId = l.userId ∧ l'.shortCode = l.shortCode ∧
      l'.destinationUrl = l.destinationUrl ∧
      (l'.status = l.status ∨ c = .changeStatus l.userId l.id l'.status ∨
        ∃ code, c = .createOrRestore l.userId l.destinationUrl code ∧
          l'.status = .active) := by
    rintro rfl
    exact ⟨l, hl, rfl, rfl, rfl, rfl, .inl rfl⟩
  cases c with
  | findActiveByShortCode code =>
      exact hsame (Prod.mk.inj (Except.ok.inj hrun)).2.symm
  | findById linkId => exact hsame (Prod.mk.inj (Except.ok.inj hrun)).2.symm
  | createOrRestore userId url code =>
      cases createOrRestoreTx_run hrun with
      | existing link hfind hactive => exact hsame rfl
      | limitReached hcount => exact hsame rfl
      | reactivated link hfind hstatus hcount =>
          obtain ⟨hmem, rfl, rfl⟩ := LinksDb.mem_of_findByDestination hfind
          obtain ⟨l', hl', h₁, h₂, h₃, h₄, heq, hne⟩ := LinksDb.mem_saveLink
            { link with status := .active, updatedAt := stamp.now } hl
          refine ⟨l', hl', h₁, h₂, h₃, h₄, ?_⟩
          by_cases hid : l.id = link.id
          · obtain rfl := List.inj_on_of_nodup_map hids hl hmem hid
            exact .inr (.inr ⟨code, rfl, heq rfl⟩)
          · exact .inl (hne hid)
      | created _ link hfind hcount hlink hinsert =>
          obtain ⟨-, -, -, rfl⟩ := LinksDb.insertLink_eq_ok_iff.1 hinsert
          exact ⟨l, List.mem_append_left _ hl, rfl, rfl, rfl, rfl, .inl rfl⟩
  | changeStatus userId linkId status =>
      cases changeStatusTx_run hrun with
      | notFound hfind => exact hsame rfl
      | forbidden link hfind howner => exact hsame rfl
      | unchanged link hfind howner hstatus => exact hsame rfl
      | limitReached hstatus hcount => exact hsame rfl
      | changed link hfind howner hstatus hcount =>
          obtain ⟨hmem, rfl⟩ := LinksDb.mem_of_findById hfind
          obtain ⟨l', hl', h₁, h₂, h₃, h₄, heq, hne⟩ := LinksDb.mem_saveLink
            { link with status, updatedAt := stamp.now } hl
          refine ⟨l', hl', h₁, h₂, h₃, h₄, ?_⟩
          by_cases hid : l.id = link.id
          · obtain rfl := List.inj_on_of_nodup_map hids hl hmem hid
            exact .inr (.inl (by rw [heq rfl, howner]))
          · exact .inl (hne hid)

/-- The unique keys of `links`. -/
structure UniqueKeys (db : LinksDb) : Prop where
  ids : (db.links.map (·.id)).Nodup
  codes : (db.links.map (·.shortCode)).Nodup

theorem UniqueKeys.run {c : LinksCommand} {stamp : Stamp} {db db' : LinksDb}
    {a : c.Res} (h : UniqueKeys db)
    (hrun : (c.impl stamp).run db = .ok (a, db')) : UniqueKeys db' := by
  rcases c.impl_effect hrun with rfl | ⟨userId, -, heffect⟩
  · exact h
  · exact ⟨heffect.ids_nodup h.ids, heffect.codes_nodup h.codes⟩

/-! ### Runs without storage failures -/

abbrev LinksPool : Type :=
  Pool LinksStep LinksStep.Reply LinksCall LinksResult LinksState

abbrev LinksEvent : Type := Event LinksCall LinksOutside LinksEnvironment

def noFailure : LinksEvent → Bool
  | .exec _ o => o.fault == .none
  | _ => true

def deactivates (linkId : String) : Option LinksStep → Bool
  | some (.repository (.changeStatus _ l .deactivated)) => l == linkId
  | _ => false

/-- A cache entry of the link is written only while the link is active and no
deactivation of it is about to commit. -/
def freshWrite (linkId : String) (σ : LinksPool) : LinksEvent → Bool
  | .exec i _ =>
      match σ.next? i with
      | some (.set _ resolved) =>
          resolved.linkId != linkId ||
            σ.shared.db.links.any (fun l => l.id == linkId && l.status == .active) &&
              σ.threads.all fun th => !deactivates linkId th.rest.next?
      | _ => true
  | _ => true

theorem LinksCommand.recover_ok (c : LinksCommand) (a : c.Res) :
    c.recover (.ok a) = .ok a := by
  cases c <;> rfl

variable {config : LinksConfig}

/-- A repository step commits its transaction or leaves the state alone. -/
theorem exec_repository {c : LinksCommand} {o : LinksOutside}
    {s s' : LinksState} {r : LinksStep.Reply (.repository c)}
    (hfault : o.fault = .none)
    (h : LinksService.exec config (.repository c) o s = some (r, s')) :
    (∃ a db', (c.impl o.stamp).run s.db = .ok (a, db') ∧ r = .ok a ∧
      s' = { s with db := db' }) ∨
    (∃ e, (c.impl o.stamp).run s.db = .error e ∧ r = c.recover (.error e) ∧
      s' = s) := by
  obtain ⟨hr, hs⟩ := Prod.mk.inj (Option.some.inj h)
  simp only [LinksService.execTransaction, hfault] at hr hs
  cases hrun : (c.impl o.stamp).run s.db with
  | ok p =>
      obtain ⟨a, db'⟩ := p
      simp only [hrun, c.recover_ok] at hr hs
      exact .inl ⟨a, db', rfl, hr.symm, hs.symm⟩
  | error e =>
      simp only [hrun] at hr hs
      exact .inr ⟨e, rfl, hr.symm, hs.symm⟩

def Row (db : LinksDb) (linkId shortCode : String) : Prop :=
  ∃ l ∈ db.links, l.id = linkId ∧ l.shortCode = shortCode

/-- No visible cache entry leads to the link. -/
def Uncached (s : LinksState) (linkId : String) : Prop :=
  ∀ shortCode resolved,
    s.cache.get (resolutionKey shortCode) = some resolved →
      resolved.linkId ≠ linkId

/-- Every visible cache entry belongs to the link with its code, which is active if it
is one of those that are `watched`. -/
structure CacheOk (watched : String → Prop) (s : LinksState) : Prop where
  keys : UniqueKeys s.db
  entry : ∀ shortCode resolved,
    s.cache.get (resolutionKey shortCode) = some resolved →
      ∃ l ∈ s.db.links, l.id = resolved.linkId ∧ l.shortCode = shortCode ∧
        (watched resolved.linkId → l.status = .active)

variable {watched : String → Prop}

/-- Once the entry under its code is deleted, a link is not cached. -/
theorem CacheOk.uncached_of_del {s : LinksState} (hs : CacheOk watched s)
    {linkId code : String} (hrow : Row s.db linkId code) :
    Uncached { s with cache := s.cache.del (resolutionKey code) } linkId := by
  intro code' resolved hget heq
  obtain ⟨hne, hold⟩ := Store.get_del_eq_some _ hget
  obtain ⟨l, hl, hid, hcode, -⟩ := hs.entry code' resolved hold
  obtain ⟨l', hl', hid', hcode'⟩ := hrow
  have hsame : l = l' := List.inj_on_of_nodup_map hs.keys.ids hl hl'
    (by rw [hid, hid', heq])
  exact hne (by rw [← hcode, hsame, hcode'])

/-- Where a status change stands: the row it found has the code it invalidates,
and behind the invalidation of a deactivation a watched link is not cached. -/
inductive StatusAt (config : LinksConfig) (watched : String → Prop) (s : LinksState)
    (userId linkId : String) (status : LinkStatus) : LinksProgram → Prop
  | start : StatusAt config watched s userId linkId status
      (LinksService.changeStatus config userId linkId status)
  | owned (existing : LinkRecord) (h : Row s.db linkId existing.shortCode) :
      StatusAt config watched s userId linkId status
        (LinksService.owned config userId linkId status existing)
  | invalidated (h : watched linkId → status = .deactivated → Uncached s linkId) :
      StatusAt config watched s userId linkId status
        (LinksService.invalidated config userId linkId status)
  | done (v : LinksResult) : StatusAt config watched s userId linkId status (.pure v)

/-- Where a resolution stands. -/
inductive ResolveAt (s : LinksState) (shortCode : String) :
    LinksProgram → Prop
  | start : ResolveAt s shortCode (LinksService.resolve shortCode)
  | missed : ResolveAt s shortCode (LinksService.missed shortCode)
  | found (link : LinkRecord) (h : Row s.db link.id shortCode) :
      ResolveAt s shortCode (LinksService.found shortCode link)
  | done (v : LinksResult) : ResolveAt s shortCode (.pure v)

/-- The steps of a creation. -/
def CreateStep : LinksStep → Prop
  | .generate => True
  | .repository (.createOrRestore _ _ _) => True
  | _ => False

def CallAt (config : LinksConfig) (watched : String → Prop) (s : LinksState)
    (call : LinksCall) (rest : LinksProgram) : Prop :=
  match call with
  | .create _ _ => rest.Sat (fun _ _ => True) CreateStep fun _ => True
  | .deactivate userId linkId =>
      StatusAt config watched s userId linkId .deactivated rest
  | .reactivate userId linkId => StatusAt config watched s userId linkId .active rest
  | .resolve shortCode => ResolveAt s shortCode rest

/-- The proof outline of the runs in which the cache writes for a link are fresh. -/
def cacheOutline (config : LinksConfig) (linkId : String) :
    Annotation LinksStep LinksStep.Reply LinksCall LinksResult LinksState where
  shared s _ := CacheOk (· = linkId) s
  thread s _ _ call rest := CallAt config (· = linkId) s call rest

/-! ### What a step does to the state -/

/-- A step writes a cache entry, commits a transaction, or at most removes a
cache entry. -/
inductive Moved (s : LinksState) : LinksStep → LinksState → Prop
  | wrote (shortCode : String) (resolved : ResolvedLink) (ttl : ℕ) :
      Moved s (.set shortCode resolved)
        { s with cache := s.cache.set (resolutionKey shortCode) resolved ttl }
  | committed (c : LinksCommand) (stamp : Stamp) (a : c.Res) (db : LinksDb)
      (hrun : (c.impl stamp).run s.db = .ok (a, db)) :
      Moved s (.repository c) { s with db }
  | removed (step : LinksStep) (s' : LinksState) (hdb : s'.db = s.db)
      (hcache : ∀ k v, s'.cache.get k = some v → s.cache.get k = some v) :
      Moved s step s'

theorem exec_moved {c : LinksStep} {o : LinksOutside} {s s' : LinksState}
    {r : c.Reply} (h : LinksService.exec config c o s = some (r, s')) :
    Moved s c s' := by
  cases c with
  | generate =>
      cases h
      exact .removed _ _ rfl fun _ _ hv => hv
  | repository c =>
      obtain ⟨-, hs⟩ := Prod.mk.inj (Option.some.inj h)
      rcases o.fault.apply_state s (LinksService.execTransaction c o.stamp s) with
        hsame | htaken
      · obtain rfl := hsame.symm.trans hs
        exact .removed _ _ rfl fun _ _ hv => hv
      · obtain rfl := htaken.symm.trans hs
        simp only [LinksService.execTransaction]
        cases hrun : (c.impl o.stamp).run s.db with
        | ok p => exact .committed c o.stamp p.1 p.2 hrun
        | error e => exact .removed _ _ rfl fun _ _ hv => hv
  | get shortCode =>
      obtain ⟨-, hs⟩ := Prod.mk.inj (Option.some.inj h)
      rcases o.fault.apply_state s (.ok (s.cache.get (resolutionKey shortCode)), s)
        with hsame | htaken
      · obtain rfl := hsame.symm.trans hs
        exact .removed _ _ rfl fun _ _ hv => hv
      · obtain rfl := htaken.symm.trans hs
        exact .removed _ _ rfl fun _ _ hv => hv
  | set shortCode resolved =>
      obtain ⟨-, hs⟩ := Prod.mk.inj (Option.some.inj h)
      rcases o.fault.apply_state s ((.ok () : Except StorageError Unit), { s with
          cache := s.cache.set (resolutionKey shortCode) resolved
            (config.linkResolutionCacheTtlSeconds * 1000) }) with hsame | htaken
      · obtain rfl := hsame.symm.trans hs
        exact .removed _ _ rfl fun _ _ hv => hv
      · obtain rfl := htaken.symm.trans hs
        exact .wrote shortCode resolved _
  | invalidate shortCode =>
      obtain ⟨-, hs⟩ := Prod.mk.inj (Option.some.inj h)
      rcases o.fault.apply_state s ((.ok () : Except StorageError Unit), { s with
          cache := s.cache.del (resolutionKey shortCode) }) with hsame | htaken
      · obtain rfl := hsame.symm.trans hs
        exact .removed _ _ rfl fun _ _ hv => hv
      · obtain rfl := htaken.symm.trans hs
        exact .removed _ _ rfl fun k v hv => (Store.get_del_eq_some _ hv).2

theorem environment_moved (x : LinksEnvironment) (s : LinksState) :
    Moved s .generate (LinksService.environment x s) := by
  cases x with
  | tick n => exact .removed _ _ rfl fun k v hv => Store.get_tick_eq_some hv
  | evict key =>
      exact .removed _ _ rfl fun k v hv => (Store.get_del_eq_some _ hv).2

namespace Moved

variable {s s' : LinksState} {c : LinksStep}

theorem keys (h : Moved s c s') (hs : UniqueKeys s.db) : UniqueKeys s'.db := by
  cases h with
  | wrote shortCode resolved ttl => exact hs
  | committed c stamp a db hrun => exact hs.run hrun
  | removed _ _ hdb hcache => exact hdb ▸ hs

theorem row (h : Moved s c s') (hs : UniqueKeys s.db) {linkId code : String}
    (hrow : Row s.db linkId code) : Row s'.db linkId code := by
  cases h with
  | wrote shortCode resolved ttl => exact hrow
  | committed c stamp a db hrun =>
      obtain ⟨l, hl, rfl, rfl⟩ := hrow
      obtain ⟨l', hl', hid, -, hcode, -⟩ := c.impl_row hs.ids hrun hl
      exact ⟨l', hl', hid, hcode⟩
  | removed _ _ hdb hcache => exact hdb ▸ hrow

theorem uncached (h : Moved s c s') {linkId : String}
    (hwrite : ∀ code resolved, c = .set code resolved →
      resolved.linkId ≠ linkId)
    (hs : Uncached s linkId) : Uncached s' linkId := by
  intro code resolved hget
  cases h with
  | wrote shortCode resolved' ttl =>
      rcases Store.get_set_eq_some _ hget with ⟨hk, hv⟩ | ⟨-, hold⟩
      · obtain rfl := resolutionKey_injective hk
        obtain rfl : resolved' = resolved := hv
        exact hwrite shortCode resolved' rfl
      · exact hs code resolved hold
  | committed c stamp a db hrun => exact hs code resolved hget
  | removed _ _ hdb hcache => exact hs code resolved (hcache _ _ hget)

/-- The invariant survives a cache write for a link that is active if it is watched, and
a commit that deactivates no cached link. -/
theorem cacheOk (h : Moved s c s') (hs : CacheOk watched s)
    (hwrite : ∀ code resolved, c = .set code resolved →
      ∃ l ∈ s.db.links, l.id = resolved.linkId ∧ l.shortCode = code ∧
        (watched resolved.linkId → l.status = .active))
    (hcommit : ∀ userId linkId,
      c = .repository (.changeStatus userId linkId .deactivated) →
        watched linkId → Uncached s linkId) : CacheOk watched s' := by
  refine ⟨h.keys hs.keys, fun code resolved hget => ?_⟩
  cases h with
  | wrote shortCode resolved' ttl =>
      rcases Store.get_set_eq_some _ hget with ⟨hk, hv⟩ | ⟨-, hold⟩
      · obtain rfl := resolutionKey_injective hk
        obtain rfl : resolved' = resolved := hv
        exact hwrite shortCode resolved' rfl
      · exact hs.entry code resolved hold
  | committed c stamp a db hrun =>
      obtain ⟨l, hl, hid, hcode, hactive⟩ := hs.entry code resolved hget
      obtain ⟨l', hl', hid', -, hcode', -, hstatus⟩ :=
        c.impl_row hs.keys.ids hrun hl
      refine ⟨l', hl', hid'.trans hid, hcode'.trans hcode, fun hw => ?_⟩
      rcases hstatus with hsame | hchange | ⟨code', -, hactive'⟩
      · exact hsame.trans (hactive hw)
      · cases hs' : l'.status with
        | active => rfl
        | deactivated =>
            rw [hs'] at hchange
            have huncached := hcommit l.userId l.id (by rw [hchange]) (hid ▸ hw)
            exact absurd hid.symm (huncached code resolved hget)
      · exact hactive'
  | removed _ _ hdb hcache =>
      rw [hdb]
      exact hs.entry code resolved (hcache _ _ hget)

end Moved

/-! ### The outline is preserved -/

theorem callAt_start (s : LinksState) (call : LinksCall) :
    CallAt config watched s call (LinksService.body config call) := by
  cases call with
  | create userId raw =>
      simp only [CallAt, LinksService.body, LinksService.create]
      cases createDestinationUrl config.newUrl raw with
      | none => trivial
      | some url =>
          dsimp only
          induction config.maxCodeAttempts with
          | zero => trivial
          | succ n ih =>
              refine ⟨trivial, fun code _ => ⟨trivial, fun result _ => ?_⟩⟩
              rcases result with e | link | link | link | _ | _
              · trivial
              · trivial
              · trivial
              · trivial
              · trivial
              · exact ih
  | deactivate userId linkId => exact .start
  | reactivate userId linkId => exact .start
  | resolve shortCode => exact .start

/-- A step of another call keeps a call where it stands, unless it writes an
entry for the watched link of a deactivation that is about to commit. -/
theorem CallAt.moved {s s' : LinksState} {c : LinksStep} (h : Moved s c s')
    (hs : UniqueKeys s.db) {call : LinksCall} {rest : LinksProgram}
    (hwrite : ∀ code resolved, c = .set code resolved → watched resolved.linkId →
      deactivates resolved.linkId rest.next? = false)
    (hcall : CallAt config watched s call rest) : CallAt config watched s' call rest := by
  have hstatus : ∀ userId linkId status,
      StatusAt config watched s userId linkId status rest →
        StatusAt config watched s' userId linkId status rest := by
    intro userId linkId status hat
    cases hat with
    | start => exact .start
    | owned existing hrow => exact .owned existing (h.row hs hrow)
    | invalidated huncached =>
        refine .invalidated fun hw hd => h.uncached ?_ (huncached hw hd)
        intro code resolved hc heq
        have hnext := hwrite code resolved hc (heq ▸ hw)
        simp [LinksService.invalidated, hd, deactivates, heq] at hnext
    | done v => exact .done v
  cases call with
  | create userId raw => exact hcall
  | deactivate userId linkId => exact hstatus _ _ _ hcall
  | reactivate userId linkId => exact hstatus _ _ _ hcall
  | resolve shortCode =>
      cases hcall with
      | start => exact .start
      | missed => exact .missed
      | found link hrow => exact .found link (h.row hs hrow)
      | done v => exact .done v

/-- Whoever writes a cache entry has found the link's row. -/
theorem CallAt.write {s : LinksState} {call : LinksCall} {code : String}
    {resolved : ResolvedLink}
    {next : LinksStep.Reply (.set code resolved) → LinksProgram}
    (h : CallAt config watched s call (.call (.set code resolved) next)) :
    Row s.db resolved.linkId code := by
  generalize hrest : Program.call _ next = rest at h
  cases call with
  | create u raw =>
      subst hrest
      exact h.1.elim
  | deactivate u l => cases h <;> cases hrest
  | reactivate u l => cases h <;> cases hrest
  | resolve shortCode =>
      cases h with
      | start => cases hrest
      | missed => cases hrest
      | found link hrow => cases hrest; exact hrow
      | done v => cases hrest

/-- Whoever is about to commit a deactivation of a watched link sees no entry of it. -/
theorem CallAt.commit {s : LinksState} {call : LinksCall}
    {userId linkId : String}
    {next : LinksStep.Reply
      (.repository (.changeStatus userId linkId .deactivated)) → LinksProgram}
    (h : CallAt config watched s call
      (.call (.repository (.changeStatus userId linkId .deactivated)) next))
    (hw : watched linkId) : Uncached s linkId := by
  generalize hrest : Program.call _ next = rest at h
  have hstatus : ∀ u l status, StatusAt config watched s u l status rest →
      Uncached s linkId := by
    intro u l status hat
    cases hat with
    | start => cases hrest
    | owned existing hrow => cases hrest
    | invalidated huncached => cases hrest; exact huncached hw rfl
    | done v => cases hrest
  cases call with
  | create u raw =>
      subst hrest
      exact h.1.elim
  | deactivate u l => exact hstatus _ _ _ h
  | reactivate u l => exact hstatus _ _ _ h
  | resolve code => cases h <;> cases hrest

/-- A status change moves on by its own step. -/
theorem StatusAt.own {s s' : LinksState} {userId linkId : String}
    {status : LinkStatus} {c : LinksStep} {o : LinksOutside} {r : c.Reply}
    {next : c.Reply → LinksProgram} (hs : CacheOk watched s)
    (hat : StatusAt config watched s userId linkId status (.call c next))
    (hfault : o.fault = .none)
    (h : LinksService.exec config c o s = some (r, s')) :
    StatusAt config watched s' userId linkId status (next r) := by
  generalize hrest : Program.call c next = rest at hat
  cases hat with
  | start =>
      cases hrest
      rcases exec_repository hfault h with
        ⟨found, db', hrun, rfl, rfl⟩ | ⟨e, hrun, rfl, rfl⟩
      · cases hrun
        cases hfind : s.db.findById linkId with
        | none => exact .done _
        | some existing =>
            obtain ⟨hmem, hid⟩ := LinksDb.mem_of_findById hfind
            dsimp only
            split
            · exact .done _
            · exact .owned existing ⟨existing, hmem, hid, rfl⟩
      · cases hrun
  | owned existing hrow =>
      cases hrest
      simp only [LinksService.exec, hfault, Fault.apply_none] at h
      cases h
      exact .invalidated fun _ _ => hs.uncached_of_del hrow
  | invalidated huncached => cases hrest; exact .done _
  | done v => cases hrest

/-- A resolution moves on by its own step. -/
theorem ResolveAt.own {s s' : LinksState} {shortCode : String} {c : LinksStep}
    {o : LinksOutside} {r : c.Reply} {next : c.Reply → LinksProgram}
    (hat : ResolveAt s shortCode (.call c next)) (hfault : o.fault = .none)
    (h : LinksService.exec config c o s = some (r, s')) :
    ResolveAt s' shortCode (next r) := by
  generalize hrest : Program.call c next = rest at hat
  cases hat with
  | start =>
      cases hrest
      simp only [LinksService.exec, hfault, Fault.apply_none] at h
      cases h
      cases hget : s.cache.get (resolutionKey shortCode) with
      | none => exact .missed
      | some resolved => exact .done _
  | missed =>
      cases hrest
      rcases exec_repository hfault h with
        ⟨found, db', hrun, rfl, rfl⟩ | ⟨e, hrun, rfl, rfl⟩
      · cases hrun
        cases hfind : s.db.findActiveByShortCode shortCode with
        | none => exact .done _
        | some link =>
            have hcode : link.shortCode = shortCode ∧ link.status = .active := by
              simpa using List.find?_some hfind
            exact .found link
              ⟨link, List.mem_of_find?_eq_some hfind, rfl, hcode.1⟩
      · cases hrun
  | found link hrow => cases hrest; exact .done _
  | done v => cases hrest

theorem CallAt.own {s s' : LinksState} {call : LinksCall} {c : LinksStep}
    {o : LinksOutside} {r : c.Reply} {next : c.Reply → LinksProgram}
    (hs : CacheOk watched s) (hcall : CallAt config watched s call (.call c next))
    (hfault : o.fault = .none)
    (h : LinksService.exec config c o s = some (r, s')) :
    CallAt config watched s' call (next r) := by
  cases call with
  | create u raw => exact hcall.2 r trivial
  | deactivate u l => exact StatusAt.own hs hcall hfault h
  | reactivate u l => exact StatusAt.own hs hcall hfault h
  | resolve code => exact ResolveAt.own hcall hfault h

/-- What `freshWrite` says about the step that is about to write an entry of the link. -/
theorem freshWrite_set {σ : LinksPool} {i : ℕ} {o : LinksOutside}
    {call : LinksCall} {code : String} {resolved : ResolvedLink}
    {next : LinksStep.Reply (.set code resolved) → LinksProgram}
    (h : freshWrite resolved.linkId σ (.exec i o) = true)
    (hi : σ.threads[i]? = some ⟨call, .call (.set code resolved) next⟩) :
    (∃ l ∈ σ.shared.db.links, l.id = resolved.linkId ∧ l.status = .active) ∧
      ∀ th ∈ σ.threads, deactivates resolved.linkId th.rest.next? = false := by
  simp only [freshWrite, Pool.next?, hi, Option.bind_some, Program.next?_call,
    bne_self_eq_false, Bool.false_or, Bool.and_eq_true, List.any_eq_true, List.all_eq_true,
    beq_iff_eq, Bool.not_eq_true'] at h
  exact ⟨h.1, h.2⟩

/-- A run without storage failures whose cache writes for the link are fresh. -/
def freshRun (linkId : String) (σ : LinksPool) (e : LinksEvent) : Prop :=
  noFailure e = true ∧ freshWrite linkId σ e = true

instance (linkId : String) (σ : LinksPool) (e : LinksEvent) : Decidable (freshRun linkId σ e) :=
  inferInstanceAs (Decidable (_ ∧ _))

theorem cacheOutline_valid (linkId : String) :
    (cacheOutline config linkId).Valid (linksService config) (freshRun linkId) where
  spawn σ call hσ hok := callAt_start σ.shared call
  own σ i o call c next r s hσ hok hi h := by
    have hfault : o.fault = .none := by simpa [noFailure] using hok.1
    have hcall := hσ.thread i call _ hi
    refine ⟨(exec_moved h).cacheOk hσ.shared ?_ ?_,
      hcall.own hσ.shared hfault h⟩
    · rintro code resolved rfl
      obtain ⟨l', hl', hid', hcode'⟩ := hcall.write
      refine ⟨l', hl', hid', hcode', ?_⟩
      rintro rfl
      obtain ⟨l, hl, hid, hactive⟩ := (freshWrite_set hok.2 hi).1
      obtain rfl := List.inj_on_of_nodup_map hσ.shared.keys.ids hl hl'
        (hid.trans hid'.symm)
      exact hactive
    · rintro userId linkId rfl
      exact hcall.commit
  other σ i o call c next r s hσ hok hi h j call' rest hji hj := by
    have hfault : o.fault = .none := by simpa [noFailure] using hok.1
    refine (hσ.thread j call' rest hj).moved (exec_moved h)
      hσ.shared.keys ?_
    rintro code resolved rfl rfl
    exact (freshWrite_set hok.2 hi).2 _ (List.mem_of_getElem? hj)
  environment σ x hσ hok := by
    have hmoved := environment_moved x σ.shared
    refine ⟨hmoved.cacheOk hσ.shared nofun nofun, fun j call rest hj => ?_⟩
    exact (hσ.thread j call rest hj).moved hmoved hσ.shared.keys nofun

end Links

end Shortlink

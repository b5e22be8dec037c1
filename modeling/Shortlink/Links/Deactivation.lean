import Shortlink.Links.Resolution

/-!
# A deactivated link does not redirect

The property holds of the runs whose cache writes are fresh. After the commit
of a deactivation the row stays deactivated, as no call that could revive it is
running or starts; by the invariant of `Resolution.lean` its code is then not
cached, so a resolution that starts later misses and reads the row.
-/

namespace Shortlink

namespace Links

open Shortlink.Storage Shortlink.Transaction Shortlink.Interaction
open Shortlink.Table Shortlink.Expiring

/-- The calls that can make the link active again: a reactivation of it, or a
creation of its destination by its owner. -/
def revives (config : LinksConfig) (userId linkId destinationUrl : String) :
    LinksCall → Bool
  | .reactivate _ l => l == linkId
  | .create u raw =>
      u == userId &&
        createDestinationUrl config.newUrl raw == some destinationUrl
  | _ => false

/-- No such call is started. -/
def unrevived (config : LinksConfig) (userId linkId destinationUrl : String) :
    LinksEvent → Bool
  | .spawn call => !revives config userId linkId destinationUrl call
  | _ => true

/-- Of the runs under `ok` of a link: once a deactivation has succeeded that neither
overlaps nor precedes a call that revives its link, every resolution of the
link's code that starts later ends in `LINK_NOT_FOUND`. The deactivation is
started after `σ₀` and finished in `σ₁`, the resolution is started after
`σ₁`. -/
def DeactivationHolds (config : LinksConfig)
    (ok : String → LinksPool → LinksEvent → Prop) : Prop :=
  ∀ (users : List String) (σ₀ σ₁ σ₂ : LinksPool) (i j : ℕ)
    (userId linkId : String) (link : LinkResponse) (v : LinksResult),
    (linksService config).Reaches (ok linkId) (Pool.init (LinksState.init users)) σ₀ →
    (linksService config).Reaches (fun σ e => ok linkId σ e ∧
      unrevived config userId linkId link.destinationUrl e = true) σ₀ σ₁ →
    (linksService config).Reaches (fun σ e => ok linkId σ e ∧
      unrevived config userId linkId link.destinationUrl e = true) σ₁ σ₂ →
    (∀ (k : ℕ) call rest, σ₀.threads[k]? = some ⟨call, rest⟩ →
      revives config userId linkId link.destinationUrl call = true →
        ∃ w, rest = .pure w) →
    σ₀.threads.length ≤ i →
    σ₁.threads[i]? =
      some ⟨.deactivate userId linkId, .pure (.ok (.link link))⟩ →
    σ₁.threads.length ≤ j →
    σ₂.threads[j]? = some ⟨.resolve link.shortCode, .pure v⟩ →
    v = .error linkNotFoundException

variable {config : LinksConfig}

/-! ### Who issues which transaction -/

/-- The transactions that can make the link active again. -/
def Revival (userId linkId url : String) : LinksStep → Prop
  | .repository (.createOrRestore u d _) => u = userId ∧ d = url
  | .repository (.changeStatus _ l .active) => l = linkId
  | _ => False

theorem createLoop_sat (φ : LinksStep → Prop) (hgenerate : φ .generate)
    {userId url : String}
    (hcreate : ∀ code, φ (.repository (.createOrRestore userId url code)))
    (n : ℕ) :
    (LinksService.createLoop config userId url n).Sat (fun _ _ => True) φ
      fun _ => True := by
  induction n with
  | zero => trivial
  | succ n ih =>
      refine ⟨hgenerate, fun code _ => ⟨hcreate code, fun result _ => ?_⟩⟩
      rcases result with e | link | link | link | _ | _
      · trivial
      · trivial
      · trivial
      · trivial
      · trivial
      · exact ih

theorem changeStatus_sat (φ : LinksStep → Prop)
    {userId linkId : String} {status : LinkStatus}
    (hfind : φ (.repository (.findById linkId)))
    (hinvalidate : ∀ code, φ (.invalidate code))
    (hchange : φ (.repository (.changeStatus userId linkId status))) :
    (LinksService.changeStatus config userId linkId status).Sat
      (fun _ _ => True) φ fun _ => True := by
  refine ⟨hfind, fun reply _ => ?_⟩
  rcases reply with e | _ | existing
  · trivial
  · trivial
  · dsimp only
    split
    · trivial
    · refine ⟨hinvalidate _, fun reply _ => ?_⟩
      rcases reply with e | _
      · trivial
      · exact ⟨hchange, fun _ _ => trivial⟩

/-- A revival is only issued by a call that revives. -/
theorem body_sat (userId linkId url : String) (call : LinksCall) :
    (LinksService.body config call).Sat (fun _ _ => True)
      (fun c => Revival userId linkId url c →
        revives config userId linkId url call = true) fun _ => True := by
  cases call with
  | create u raw =>
      simp only [LinksService.body, LinksService.create]
      cases hurl : createDestinationUrl config.newUrl raw with
      | none => trivial
      | some d =>
          refine createLoop_sat _ (fun h => h.elim) (fun code h => ?_) _
          simp [revives, hurl, h.1, h.2]
  | deactivate u l =>
      exact changeStatus_sat _ (fun h => h.elim) (fun _ h => h.elim)
        fun h => h.elim
  | reactivate u l =>
      refine changeStatus_sat _ (fun h => h.elim) (fun _ h => h.elim)
        fun h => ?_
      have hl : l = linkId := h
      simp [revives, hl]
  | resolve code =>
      have hmissed : (LinksService.missed code).Sat (fun _ _ => True)
          (fun c => Revival userId linkId url c →
            revives config userId linkId url (.resolve code) = true)
          fun _ => True := by
        refine ⟨fun h => h.elim, fun reply _ => ?_⟩
        rcases reply with e | _ | link
        · trivial
        · trivial
        · exact ⟨fun h => h.elim, fun _ _ => trivial⟩
      refine ⟨fun h => h.elim, fun reply _ => ?_⟩
      rcases reply with e | _ | resolved
      · exact hmissed
      · exact hmissed
      · trivial

/-- From a state in which the calls that revive the link have finished, a run
that starts none of them issues no revival. -/
theorem no_revival {ok : LinksPool → LinksEvent → Prop}
    {userId linkId url : String} {s : LinksState} {σ₀ σ : LinksPool}
    (hstart : (linksService config).Reaches ok (Pool.init s) σ₀)
    (hfinished : ∀ (k : ℕ) call rest, σ₀.threads[k]? = some ⟨call, rest⟩ →
      revives config userId linkId url call = true → ∃ w, rest = .pure w)
    (hrun : (linksService config).Reaches (fun σ e => ok σ e ∧
      unrevived config userId linkId url e = true) σ₀ σ)
    {k : ℕ} {call : LinksCall} {rest : LinksProgram}
    (hk : σ.threads[k]? = some ⟨call, rest⟩) :
    rest.Sat (fun _ _ => True) (fun c => ¬ Revival userId linkId url c)
      fun _ => True := by
  have hnever : ∀ {p : LinksProgram} {call},
      revives config userId linkId url call = false →
      p.Sat (fun _ _ => True) (fun c => Revival userId linkId url c →
        revives config userId linkId url call = true) (fun _ => True) →
      p.Sat (fun _ _ => True) (fun c => ¬ Revival userId linkId url c)
        fun _ => True := by
    intro p call hcall hp
    refine hp.mono (fun _ _ h => h) (fun c hc hrevival => ?_) fun _ h => h
    rw [hc hrevival] at hcall
    cases hcall
  refine Semantics.Reaches.sat (fun _ _ _ => True)
    (fun _ c => ¬ Revival userId linkId url c) (fun _ _ => True)
    (fun τ call hok => ?_)
    (fun _ _ _ _ _ _ _ _ _ _ _ _ => trivial) (fun k call rest _ hk => ?_)
    hrun (Nat.zero_le k) hk
  · exact hnever (by simpa [unrevived] using hok.2)
      (body_sat userId linkId url call)
  · cases hcall : revives config userId linkId url call with
    | true =>
        obtain ⟨w, rfl⟩ := hfinished k call rest hk hcall
        trivial
    | false =>
        refine hnever hcall (Semantics.Reaches.sat (fun _ _ _ => True)
          (fun call c => Revival userId linkId url c →
            revives config userId linkId url call = true) (fun _ _ => True)
          (fun _ call _ => body_sat userId linkId url call)
          (fun _ _ _ _ _ _ _ _ _ _ _ _ => trivial) ?_ hstart
          (Nat.zero_le k) hk)
        intro k call rest _ hk
        simp [Pool.init] at hk

/-! ### The deactivated row -/

/-- The row of the link is deactivated. -/
def Dead (s : LinksState) (userId linkId code url : String) : Prop :=
  ∃ l ∈ s.db.links, l.id = linkId ∧ l.userId = userId ∧ l.shortCode = code ∧
    l.destinationUrl = url ∧ l.status = .deactivated

theorem Moved.dead {s s' : LinksState} {c : LinksStep} (h : Moved s c s')
    (hs : UniqueKeys s.db) {userId linkId code url : String}
    (hc : ¬ Revival userId linkId url c)
    (hdead : Dead s userId linkId code url) :
    Dead s' userId linkId code url := by
  cases h with
  | wrote shortCode resolved ttl => exact hdead
  | committed c stamp a db hrun =>
      obtain ⟨l, hl, rfl, rfl, rfl, rfl, hstatus⟩ := hdead
      obtain ⟨l', hl', hid, howner, hcode, hurl, hsame | hchange | hrestore⟩ :=
        c.impl_row hs.ids hrun hl
      · exact ⟨l', hl', hid, howner, hcode, hurl, hsame.trans hstatus⟩
      · cases hs' : l'.status with
        | deactivated => exact ⟨l', hl', hid, howner, hcode, hurl, hs'⟩
        | active =>
            rw [hchange, hs'] at hc
            exact absurd rfl hc
      · obtain ⟨code', hcreate, -⟩ := hrestore
        rw [hcreate] at hc
        exact absurd ⟨rfl, rfl⟩ hc
  | removed _ _ hdb hcache =>
      obtain ⟨l, hl, h⟩ := hdead
      exact ⟨l, hdb ▸ hl, h⟩

/-- The reply of a successful deactivation that the call turns into `link`. -/
def Deactivated (config : LinksConfig) (userId linkId : String)
    (link : LinkResponse) : (c : LinksStep) → c.Reply → Prop
  | .repository (.changeStatus u l .deactivated), reply =>
      u = userId ∧ l = linkId ∧ ∃ record,
        LinksService.toResponse config record = link ∧
          (reply = .ok (.changed record) ∨ reply = .ok (.unchanged record))
  | _, _ => False

/-- A deactivation that returns `link` has received such a reply. -/
theorem deactivate_owes (userId linkId : String) (link : LinkResponse)
    (call : LinksCall) :
    (LinksService.body config call).Owes (Deactivated config userId linkId link)
      fun v => call = .deactivate userId linkId ∧ v = .ok (.link link) := by
  by_cases hcall : call = .deactivate userId linkId
  · subst hcall
    intro reply
    refine .inr ?_
    rcases reply with e | _ | existing
    · simp
    · simp
    · dsimp only
      split
      · simp
      · intro reply
        refine .inr ?_
        rcases reply with e | _
        · simp
        · intro result
          rcases result with e | record | record | _ | _ | _
          · exact .inr (by simp [LinksService.statusResult])
          · by_cases heq : LinksService.toResponse config record = link
            · exact .inl ⟨rfl, rfl, record, heq, .inl rfl⟩
            · exact .inr (by simp [LinksService.statusResult, heq])
          · by_cases heq : LinksService.toResponse config record = link
            · exact .inl ⟨rfl, rfl, record, heq, .inr rfl⟩
            · exact .inr (by simp [LinksService.statusResult, heq])
          · exact .inr (by simp [LinksService.statusResult])
          · exact .inr (by simp [LinksService.statusResult])
          · exact .inr (by simp [LinksService.statusResult])
  · exact Program.owes_of_not (fun v hv => hcall hv.1) _

/-- The step that gives this reply leaves the row deactivated. -/
theorem deactivated_dead {s s' : LinksState} {c : LinksStep} {r : c.Reply}
    {o : LinksOutside} {userId linkId : String} {link : LinkResponse}
    (hfault : o.fault = .none)
    (h : LinksService.exec config c o s = some (r, s'))
    (hr : Deactivated config userId linkId link c r) :
    Dead s' userId linkId link.shortCode link.destinationUrl := by
  match c, r, hr with
  | .repository (.changeStatus u l .deactivated), r, hr =>
      obtain ⟨rfl, rfl, record, rfl, hr⟩ := hr
      rcases exec_repository hfault h with
        ⟨a, db', hrun, rfl, rfl⟩ | ⟨e, hrun, rfl, rfl⟩
      · cases changeStatusTx_run hrun with
        | notFound hfind => rcases hr with hr | hr <;> cases hr
        | forbidden found hfind howner => rcases hr with hr | hr <;> cases hr
        | limitReached hstatus hcount => rcases hr with hr | hr <;> cases hr
        | unchanged found hfind howner hstatus =>
            obtain ⟨hmem, hid⟩ := LinksDb.mem_of_findById hfind
            rcases hr with hr | hr
            · cases hr
            · cases hr
              exact ⟨record, hmem, hid, howner, rfl, rfl, hstatus⟩
        | changed found hfind howner hstatus hcount =>
            obtain ⟨hmem, hid⟩ := LinksDb.mem_of_findById hfind
            obtain ⟨l', hl', h₁, h₂, h₃, h₄, heq, -⟩ := LinksDb.mem_saveLink
              { found with status := .deactivated, updatedAt := o.stamp.now }
              hmem
            rcases hr with hr | hr
            · cases hr
              exact ⟨l', hl', h₁.trans hid, h₂.trans howner, h₃, h₄, heq rfl⟩
            · cases hr
      · rcases hr with hr | hr <;> cases hr

/-- The row stays deactivated as long as no revival is issued. -/
theorem stays_dead {σ₁ σ₂ : LinksPool} {ok : LinksPool → LinksEvent → Prop}
    {userId linkId code url : String} (hok : ∀ σ e, ok σ e → freshRun linkId σ e)
    (hholds : (cacheOutline config linkId).Holds σ₁)
    (hissued : ∀ σ, (linksService config).Reaches ok σ₁ σ →
      ∀ (k : ℕ) call rest, σ.threads[k]? = some ⟨call, rest⟩ →
        rest.Sat (fun _ _ => True) (fun c => ¬ Revival userId linkId url c)
          fun _ => True)
    (hdead : Dead σ₁.shared userId linkId code url)
    (h : (linksService config).Reaches ok σ₁ σ₂) :
    Dead σ₂.shared userId linkId code url := by
  induction h with
  | refl => exact hdead
  | @tail τ₁ τ₂ hrun hstep ih =>
      have hkeys : UniqueKeys τ₁.shared.db :=
        ((cacheOutline_valid linkId).reaches (Semantics.Reaches.mono hok hrun)
          hholds).shared.keys
      cases hstep.moves with
      | spawn call hspawn hshared hthreads hhistory => rwa [hshared]
      | environment x henv hshared hthreads hhistory =>
          rw [hshared]
          exact (environment_moved x τ₁.shared).dead hkeys (fun h => h) ih
      | exec e he =>
          obtain ⟨o, hoko, hexec⟩ := he.exec
          obtain ⟨call, next, hi, -⟩ := he.thread
          have hfault : o.fault = .none := by
            simpa [noFailure] using (hok _ _ hoko).1
          exact (exec_moved hexec).dead hkeys
            (hissued τ₁ hrun _ _ _ hi).1 ih

/-! ### Resolutions of a deactivated link -/

/-- What a resolution of `code` is answered while the link is deactivated. -/
def Absent (code : String) : LinksCall → (c : LinksStep) → c.Reply → Prop
  | .resolve code', .get shortCode, reply =>
      code' = code → shortCode = code → reply = .ok none
  | .resolve code', .repository (.findActiveByShortCode shortCode), reply =>
      code' = code → shortCode = code → reply = .ok none
  | _, _, _ => True

theorem resolve_sat (code : String) (call : LinksCall) :
    (LinksService.body config call).Sat (Absent code call) (fun _ => True)
      fun v => call = .resolve code → v = .error linkNotFoundException := by
  by_cases hcall : call = .resolve code
  · subst hcall
    refine ⟨trivial, fun reply hreply => ?_⟩
    obtain rfl := hreply rfl rfl
    refine ⟨trivial, fun reply hreply => ?_⟩
    obtain rfl := hreply rfl rfl
    exact fun _ => rfl
  · exact (Program.sat_true _).mono (fun _ _ _ => trivial) (fun _ h => h)
      fun v _ h => absurd h hcall

theorem dead_absent {s s' : LinksState} {c : LinksStep} {r : c.Reply}
    {o : LinksOutside} {userId linkId code url : String} (hs : CacheOk (· = linkId) s)
    (hfault : o.fault = .none) (h : LinksService.exec config c o s = some (r, s'))
    (hdead : Dead s userId linkId code url) (call : LinksCall) :
    Absent code call c r := by
  obtain ⟨l, hl, hid, -, hcode, -, hstatus⟩ := hdead
  have hnone : ∀ l' ∈ s.db.links, l'.shortCode = code → l'.status ≠ .active := by
    intro l' hl' hcode' hactive
    obtain rfl := List.inj_on_of_nodup_map hs.keys.codes hl hl'
      (hcode.trans hcode'.symm)
    rw [hstatus] at hactive
    cases hactive
  match call, c, r, h with
  | .resolve code', .get shortCode, r, h =>
      rintro rfl rfl
      simp only [LinksService.exec, hfault, Fault.apply_none] at h
      cases h
      cases hget : s.cache.get (resolutionKey shortCode) with
      | none => rfl
      | some resolved =>
          obtain ⟨l', hl', hid', hcode', hactive⟩ := hs.entry _ _ hget
          obtain rfl := List.inj_on_of_nodup_map hs.keys.codes hl hl'
            (hcode.trans hcode'.symm)
          exact absurd (hactive (hid'.symm.trans hid)) (hnone l hl hcode)
  | .resolve code', .repository (.findActiveByShortCode shortCode), r, h =>
      rintro rfl rfl
      rcases exec_repository hfault h with
        ⟨a, db', hrun, rfl, rfl⟩ | ⟨e, hrun, rfl, rfl⟩
      · cases hrun
        have hfind : s.db.findActiveByShortCode shortCode = none := by
          rw [LinksDb.findActiveByShortCode, List.find?_eq_none]
          intro l' hl' hboth
          simp only [Bool.and_eq_true, beq_iff_eq] at hboth
          exact hnone l' hl' hboth.1 hboth.2
        rw [hfind]
      · cases hrun
  | .resolve _, .generate, _, _ => trivial
  | .resolve _, .set _ _, _, _ => trivial
  | .resolve _, .invalidate _, _, _ => trivial
  | .resolve _, .repository (.createOrRestore _ _ _), _, _ => trivial
  | .resolve _, .repository (.changeStatus _ _ _), _, _ => trivial
  | .resolve _, .repository (.findById _), _, _ => trivial
  | .create _ _, _, _, _ => trivial
  | .deactivate _ _, _, _, _ => trivial
  | .reactivate _ _, _, _, _ => trivial

theorem cacheOutline_init (linkId : String) (users : List String) :
    (cacheOutline config linkId).Holds (Pool.init (LinksState.init users)) := by
  refine Annotation.holds_init ⟨⟨List.nodup_nil, List.nodup_nil⟩, ?_⟩
  intro code resolved hget
  simp [LinksState.init] at hget

/-- In the runs without storage failures whose cache writes for a link are fresh, the
link does not redirect once it has been deactivated. -/
theorem deactivation_holds_of_freshRun (config : LinksConfig) :
    DeactivationHolds config freshRun := by
  intro users σ₀ σ₁ σ₂ i j userId linkId link v h₀ h₁ h₂ hfinished hi hresult
    hj hresolve
  have hok : ∀ σ e, (freshRun linkId σ e ∧
      unrevived config userId linkId link.destinationUrl e = true) →
        freshRun linkId σ e := fun _ _ h => h.1
  have hσ₀ := (cacheOutline_valid linkId).reaches h₀ (cacheOutline_init linkId users)
  -- the step that committed the deactivation
  rcases h₁.owes _ _ (deactivate_owes userId linkId link) hi hresult with
    howes | ⟨c, r, τ₁, τ₂, hr, hτ₁, hfires, hτ₂⟩
  · exact absurd ⟨rfl, rfl⟩ howes
  obtain ⟨o, hoko, hexec⟩ := hfires.exec
  have hfault : o.fault = .none := by simpa [noFailure] using hoko.1.1
  have hdead : Dead τ₂.shared userId linkId link.shortCode
      link.destinationUrl := deactivated_dead hfault hexec hr
  -- from there on the row stays deactivated
  have hstartτ := hτ₁.tail hfires.steps
  have hσ₁ := (cacheOutline_valid linkId).reaches (Semantics.Reaches.mono hok h₁) hσ₀
  have hστ := (cacheOutline_valid linkId).reaches
    (Semantics.Reaches.mono hok hstartτ) hσ₀
  have hlater : ∀ σ, (linksService config).Reaches (fun σ e => freshRun linkId σ e ∧
      unrevived config userId linkId link.destinationUrl e = true) σ₁ σ →
        Dead σ.shared userId linkId link.shortCode link.destinationUrl := by
    intro σ hσ
    refine stays_dead hok hστ (fun σ' hσ' k call rest hk => ?_) hdead
      (hτ₂.trans hσ)
    exact no_revival h₀ hfinished (hstartτ.trans hσ') hk
  -- so every later resolution is answered that there is no active link
  have hsat := h₂.sat (Absent link.shortCode) (fun _ _ => True)
    (fun call v => call = .resolve link.shortCode →
      v = .error linkNotFoundException)
    (fun _ call _ => resolve_sat link.shortCode call)
    (fun τ τ' k call c r next hτ _ _ hfires _ => ?_)
    (fun k call rest hk hthread => ?_) hj hresolve
  · exact hsat rfl
  · obtain ⟨o, hoko, hexec⟩ := hfires.exec
    have hfault : o.fault = .none := by simpa [noFailure] using hoko.1.1
    have hholds := (cacheOutline_valid linkId).reaches
      (Semantics.Reaches.mono hok hτ) hσ₁
    exact dead_absent hholds.shared hfault hexec (hlater τ hτ) call
  · have := (List.getElem?_eq_some_iff.1 hthread).1
    omega

/-! ### Two runs -/

/-- A configuration whose parser accepts every text as a canonical URL. -/
def exampleConfig : LinksConfig where
  publicShortUrlBase := "https://sho.rt"
  maxCodeAttempts := 5
  linkResolutionCacheTtlSeconds := 60
  newUrl raw := some ⟨"https:", "", "", raw⟩

/-- The next step of call `i`, with fixed values from outside. -/
def advance (i : ℕ) : LinksEvent := .exec i ⟨⟨1, "l"⟩, "aaaaaa", .none⟩

/-- The account `u` creates the link `l`. -/
def afterCreate : LinksPool :=
  (linksService exampleConfig).after
    [.spawn (.create "u" "https://a.example/"), advance 0, advance 0]
    (Pool.init (LinksState.init ["u"]))

def deactivatedLink : LinkResponse :=
  ⟨"l", "aaaaaa", "https://a.example/", "https://sho.rt/aaaaaa", .deactivated,
    1, 1⟩

/-- A resolution caches the link that has been created. -/
def afterCaching : LinksPool :=
  (linksService exampleConfig).after
    [.spawn (.create "u" "https://a.example/"), advance 0, advance 0,
      .spawn (.resolve "aaaaaa"), advance 1, advance 1, advance 1]
    (Pool.init (LinksState.init ["u"]))

/-- Then a deactivation runs alone. -/
def afterDeactivation : LinksPool :=
  (linksService exampleConfig).after
    [.spawn (.deactivate "u" "l"), advance 2, advance 2, advance 2] afterCaching

def afterResolution : LinksPool :=
  (linksService exampleConfig).after
    [.spawn (.resolve "aaaaaa"), advance 3, advance 3] afterDeactivation

theorem resolution_after_deactivation :
    ∃ v, afterResolution.threads[3]? = some ⟨.resolve "aaaaaa", .pure v⟩ ∧
      v = .error linkNotFoundException :=
  ⟨_, rfl, deactivation_holds_of_freshRun exampleConfig ["u"] afterCaching
    afterDeactivation afterResolution 2 3 "u" "l" deactivatedLink _
    (Semantics.reaches_after _ (by decide))
    (Semantics.reaches_after _ (by decide))
    (Semantics.reaches_after _ (by decide))
    (fun k call rest hk hcall => by
      rcases k with _ | _ | k
      · cases hk
        exact ⟨_, rfl⟩
      · cases hk
        exact ⟨_, rfl⟩
      · cases hk)
    (by decide) rfl (by decide) rfl⟩

/-- A resolution reads the active link, then a deactivation runs. -/
def afterOvertaken : LinksPool :=
  (linksService exampleConfig).after
    [.spawn (.resolve "aaaaaa"), advance 1, advance 1,
      .spawn (.deactivate "u" "l"), advance 2, advance 2, advance 2] afterCreate

/-- The resolution writes the cache, then another one starts. -/
def afterStaleWrite : LinksPool :=
  (linksService exampleConfig).after
    [advance 1, .spawn (.resolve "aaaaaa"), advance 3] afterOvertaken

/-- A resolution that was overtaken by the deactivation makes the next one
redirect. -/
theorem deactivation_overtakes_resolution :
    ¬ DeactivationHolds exampleConfig fun _ _ e => noFailure e = true := by
  intro h
  have hlate := h ["u"] afterCreate afterOvertaken afterStaleWrite 2 3 "u" "l"
    deactivatedLink (.ok (.resolved ⟨"l", "https://a.example/"⟩))
    (Semantics.reaches_after _ (by decide))
    (Semantics.reaches_after _ (by decide))
    (Semantics.reaches_after _ (by decide))
    (fun k call rest hk hcall => by
      rcases k with _ | k
      · cases hk
        exact ⟨_, rfl⟩
      · cases hk)
    (by decide) rfl (by decide) rfl
  cases hlate

end Links

end Shortlink

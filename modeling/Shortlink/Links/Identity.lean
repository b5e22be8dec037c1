import Shortlink.Links.Deactivation

/-!
# The identity of a link

The id, the owner, the short code and the destination of a row never change, and
id, short code and (owner, destination) are unique. The resolution cache holds
copies of ids and destinations only, so its entries stay right whatever becomes of
the status. This holds in every run, whatever the commands of Redis and PostgreSQL
answer.
-/

namespace Shortlink

namespace Links

open Shortlink.Storage Shortlink.Transaction Shortlink.Interaction
open Shortlink.Table Shortlink.Expiring

/-- The owner and the destination of a link. -/
abbrev LinkRecord.owned (l : LinkRecord) : String × String :=
  (l.userId, l.destinationUrl)

/-- What the primary key and the two unique indexes of `links` say. -/
structure Identified (db : LinksDb) : Prop extends UniqueKeys db where
  destinations : (db.links.map (·.owned)).Nodup

def HasLink (db : LinksDb) (id userId shortCode destinationUrl : String) : Prop :=
  ∃ l ∈ db.links, l.id = id ∧ l.userId = userId ∧ l.shortCode = shortCode ∧
    l.destinationUrl = destinationUrl

def LeadsTo (db : LinksDb) (shortCode : String) (resolved : ResolvedLink) : Prop :=
  ∃ userId, HasLink db resolved.linkId userId shortCode resolved.destinationUrl

theorem Effect.destinations_nodup {userId : String} {db db' : LinksDb}
    (h : Effect userId db db') (hdest : (db.links.map (·.owned)).Nodup) :
    (db'.links.map (·.owned)).Nodup := by
  cases h with
  | saved link hmem howner status now hcount =>
      have hmap : (LinksDb.saveLink { link with status, updatedAt := now }
          db).links.map (·.owned) = db.links.map (·.owned) :=
        map_updateWhere fun _ _ => rfl
      rw [hmap]
      exact hdest
  | inserted link howner hcount hid hcode hnew =>
      rw [List.map_append, List.map_singleton]
      refine List.nodup_append.2 ⟨hdest, List.nodup_singleton _, ?_⟩
      rintro k hk _ hlink rfl
      obtain rfl := List.mem_singleton.1 hlink
      obtain ⟨l, hl, heq⟩ := List.mem_map.1 hk
      obtain ⟨huser, hurl⟩ := Prod.mk.inj heq
      exact hnew l hl huser hurl

/-- The link that a creation hands out is in the table. -/
theorem CreateOrRestored.hasLink {userId url code : String} {stamp : Stamp}
    {db db' : LinksDb} {r : CreateOrRestoreLinkResult} {link : LinkRecord}
    (h : CreateOrRestored userId url code stamp db r db')
    (hr : r = .created link ∨ r = .existing link ∨ r = .reactivated link) :
    HasLink db' link.id userId link.shortCode url := by
  cases h with
  | existing l hfind hactive =>
      obtain ⟨hmem, howner, hurl⟩ := LinksDb.mem_of_findByDestination hfind
      obtain rfl : l = link := by simpa using hr
      exact ⟨l, hmem, rfl, howner, rfl, hurl⟩
  | reactivated l hfind hstatus hcount =>
      obtain ⟨hmem, howner, hurl⟩ := LinksDb.mem_of_findByDestination hfind
      obtain ⟨l', hl', h₁, h₂, h₃, h₄, -⟩ := LinksDb.mem_saveLink
        { l with status := .active, updatedAt := stamp.now } hmem
      obtain rfl : _ = link := by simpa using hr
      exact ⟨l', hl', h₁, h₂.trans howner, h₃, h₄.trans hurl⟩
  | limitReached hcount => simp at hr
  | created db' l hfind hcount hlink hinsert =>
      obtain ⟨-, -, -, rfl⟩ := LinksDb.insertLink_eq_ok_iff.1 hinsert
      obtain rfl : l = link := by simpa using hr
      refine ⟨l, List.mem_append_right _ (List.mem_singleton_self l), rfl, ?_⟩
      subst hlink
      exact ⟨rfl, rfl, rfl⟩

namespace Identified

variable {db db' : LinksDb} {c : LinksCommand} {stamp : Stamp} {a : c.Res}

theorem run (h : Identified db) (hrun : (c.impl stamp).run db = .ok (a, db')) :
    Identified db' := by
  refine ⟨h.toUniqueKeys.run hrun, ?_⟩
  rcases c.impl_effect hrun with rfl | ⟨userId, -, heffect⟩
  · exact h.destinations
  · exact heffect.destinations_nodup h.destinations

theorem leadsTo_unique (h : Identified db) {code : String} {r r' : ResolvedLink}
    (hr : LeadsTo db code r) (hr' : LeadsTo db code r') : r = r' := by
  obtain ⟨u, l, hl, hid, -, hcode, hurl⟩ := hr
  obtain ⟨u', l', hl', hid', -, hcode', hurl'⟩ := hr'
  obtain rfl := List.inj_on_of_nodup_map h.codes hl hl' (hcode.trans hcode'.symm)
  cases r
  cases r'
  rw [ResolvedLink.mk.injEq]
  exact ⟨hid.symm.trans hid', hurl.symm.trans hurl'⟩

theorem hasLink_unique (h : Identified db) {id id' userId code code' url : String}
    (hl : HasLink db id userId code url) (hl' : HasLink db id' userId code' url) :
    id = id' ∧ code = code' := by
  obtain ⟨l, hmem, rfl, huser, rfl, hurl⟩ := hl
  obtain ⟨l', hmem', rfl, huser', rfl, hurl'⟩ := hl'
  obtain rfl := List.inj_on_of_nodup_map h.destinations hmem hmem'
    (Prod.ext (huser.trans huser'.symm) (hurl.trans hurl'.symm))
  exact ⟨rfl, rfl⟩

end Identified

/-- The identities of `db` are those of `db'` too. -/
def Persists (db db' : LinksDb) : Prop :=
  ∀ l ∈ db.links, HasLink db' l.id l.userId l.shortCode l.destinationUrl

theorem persists_refl (db : LinksDb) : Persists db db :=
  fun l hl => ⟨l, hl, rfl, rfl, rfl, rfl⟩

theorem HasLink.persists {db db' : LinksDb} (h : Persists db db')
    {id userId code url : String} (hl : HasLink db id userId code url) :
    HasLink db' id userId code url := by
  obtain ⟨l, hmem, rfl, rfl, rfl, rfl⟩ := hl
  exact h l hmem

theorem Persists.trans {db₁ db₂ db₃ : LinksDb} (h₁ : Persists db₁ db₂)
    (h₂ : Persists db₂ db₃) : Persists db₁ db₃ :=
  fun l hl => (h₁ l hl).persists h₂

theorem LeadsTo.persists {db db' : LinksDb} (h : Persists db db') {code : String}
    {r : ResolvedLink} (hr : LeadsTo db code r) : LeadsTo db' code r := by
  obtain ⟨userId, hl⟩ := hr
  exact ⟨userId, hl.persists h⟩

/-- Every transaction keeps the identities. -/
theorem persists_run {c : LinksCommand} {stamp : Stamp} {db db' : LinksDb}
    {a : c.Res} (hrun : (c.impl stamp).run db = .ok (a, db')) : Persists db db' := by
  rcases c.impl_effect hrun with rfl | ⟨userId, -, heffect⟩
  · exact persists_refl _
  · exact fun l hl => heffect.persist hl

namespace Moved

variable {s s' : LinksState} {c : LinksStep}

theorem persists (h : Moved s c s') : Persists s.db s'.db := by
  cases h with
  | wrote shortCode resolved ttl => exact persists_refl _
  | committed c stamp a db hrun => exact persists_run hrun
  | removed _ _ hdb hcache => exact hdb ▸ persists_refl _

theorem identified (h : Moved s c s') (hs : Identified s.db) : Identified s'.db := by
  cases h with
  | wrote shortCode resolved ttl => exact hs
  | committed c stamp a db hrun => exact hs.run hrun
  | removed _ _ hdb hcache => exact hdb ▸ hs

end Moved

/-! ### Every run of the service -/

/-- The rows are identified and every visible cache entry leads to the link with
its code. -/
structure Sound (s : LinksState) : Prop where
  rows : Identified s.db
  entry : ∀ code resolved, s.cache.get (resolutionKey code) = some resolved →
    LeadsTo s.db code resolved

/-- A step keeps this when what it writes to the cache leads to its link. -/
theorem Moved.sound {s s' : LinksState} {c : LinksStep} (h : Moved s c s')
    (hs : Sound s)
    (hwrite : ∀ code resolved, c = .set code resolved →
      LeadsTo s.db code resolved) : Sound s' := by
  refine ⟨h.identified hs.rows, fun code resolved hget => ?_⟩
  refine LeadsTo.persists h.persists ?_
  cases h with
  | wrote shortCode resolved' ttl =>
      rcases Store.get_set_eq_some _ hget with ⟨hk, hv⟩ | ⟨-, hold⟩
      · obtain rfl := resolutionKey_injective hk
        obtain rfl : resolved' = resolved := hv
        exact hwrite shortCode resolved' rfl
      · exact hs.entry code resolved hold
  | committed c stamp a db hrun => exact hs.entry code resolved hget
  | removed _ _ hdb hcache => exact hs.entry code resolved (hcache _ _ hget)

/-- Where a resolution stands: what it has found is the link with its code. -/
inductive FoundAt (s : LinksState) (shortCode : String) : LinksProgram → Prop
  | start : FoundAt s shortCode (LinksService.resolve shortCode)
  | missed : FoundAt s shortCode (LinksService.missed shortCode)
  | found (link : LinkRecord)
      (h : LeadsTo s.db shortCode ⟨link.id, link.destinationUrl⟩) :
      FoundAt s shortCode (LinksService.found shortCode link)
  | done (v : LinksResult) : FoundAt s shortCode (.pure v)

/-- A step other than a cache write. -/
def NoWrite (c : LinksStep) : Prop := ∀ code resolved, c ≠ .set code resolved

/-- What a call may still write to the cache. -/
def WritesAt (s : LinksState) (call : LinksCall) (rest : LinksProgram) : Prop :=
  match call with
  | .resolve shortCode => FoundAt s shortCode rest
  | _ => rest.Sat (fun _ _ => True) NoWrite fun _ => True

/-- The proof outline of all runs. -/
def identityOutline :
    Annotation LinksStep LinksStep.Reply LinksCall LinksResult LinksState where
  shared s _ := Sound s
  thread s _ _ call rest := WritesAt s call rest

section

variable {config : LinksConfig} {s s' : LinksState}

theorem writesAt_start (s : LinksState) (call : LinksCall) :
    WritesAt s call (LinksService.body config call) := by
  cases call with
  | create userId raw =>
      simp only [LinksService.body, LinksService.create, WritesAt]
      split
      · trivial
      · exact createLoop_sat NoWrite (by simp [NoWrite]) (by simp [NoWrite]) _
  | deactivate userId linkId =>
      exact changeStatus_sat NoWrite (by simp [NoWrite]) (by simp [NoWrite]) (by simp [NoWrite])
  | reactivate userId linkId =>
      exact changeStatus_sat NoWrite (by simp [NoWrite]) (by simp [NoWrite]) (by simp [NoWrite])
  | resolve shortCode => exact .start

theorem WritesAt.persists {call : LinksCall} {rest : LinksProgram}
    (h : WritesAt s call rest) (hdb : Persists s.db s'.db) :
    WritesAt s' call rest := by
  cases call with
  | create userId raw => exact h
  | deactivate userId linkId => exact h
  | reactivate userId linkId => exact h
  | resolve shortCode =>
      cases h with
      | start => exact .start
      | missed => exact .missed
      | found link h => exact .found link (h.persists hdb)
      | done v => exact .done v

/-- The repository answers with what the transaction returns, or with the
recovery of an error. -/
theorem repository_reply {c : LinksCommand} {o : LinksOutside}
    {r : LinksStep.Reply (.repository c)}
    (h : LinksService.exec config (.repository c) o s = some (r, s')) :
    (∃ a, (c.impl o.stamp).run s.db = .ok (a, s'.db) ∧ r = .ok a) ∨
      ∃ e, r = c.recover (.error e) := by
  obtain ⟨hr, hs⟩ := Prod.mk.inj (Option.some.inj h)
  cases hreply : (o.fault.apply s
      (LinksService.execTransaction c o.stamp s)).1 with
  | error e => exact .inr ⟨e, hr.symm.trans (congrArg c.recover hreply)⟩
  | ok a =>
      have hok : r = .ok a :=
        hr.symm.trans ((congrArg c.recover hreply).trans (c.recover_ok a))
      have htaken : LinksService.execTransaction c o.stamp s = (.ok a, s') :=
        Fault.apply_eq_ok (Prod.ext hreply hs)
      rw [LinksService.execTransaction] at htaken
      cases hrun : (c.impl o.stamp).run s.db with
      | error e =>
          rw [hrun] at htaken
          cases htaken
      | ok p =>
          rw [hrun] at htaken
          cases htaken
          exact .inl ⟨_, rfl, hok⟩

/-- The cache answers with the visible entry. -/
theorem get_reply {code : String} {o : LinksOutside} {resolved : ResolvedLink}
    (h : LinksService.exec config (.get code) o s =
      some ((.ok (some resolved) : LinksStep.Reply (.get code)), s')) :
    s.cache.get (resolutionKey code) = some resolved := by
  have htaken := Fault.apply_eq_ok (Option.some.inj h)
  exact Except.ok.inj (Prod.mk.inj htaken).1

theorem leadsTo_of_find {db : LinksDb} {code : String} {link : LinkRecord}
    (h : db.findActiveByShortCode code = some link) :
    LeadsTo db code ⟨link.id, link.destinationUrl⟩ := by
  have hboth := List.find?_some h
  simp only [Bool.and_eq_true, beq_iff_eq] at hboth
  exact ⟨link.userId, link, List.mem_of_find?_eq_some h, rfl, rfl, hboth.1, rfl⟩

/-- A resolution moves on by its own step. -/
theorem FoundAt.own {shortCode : String} {c : LinksStep} {o : LinksOutside}
    {r : c.Reply} {next : c.Reply → LinksProgram}
    (hat : FoundAt s shortCode (.call c next))
    (h : LinksService.exec config c o s = some (r, s')) :
    FoundAt s' shortCode (next r) := by
  generalize hrest : Program.call c next = rest at hat
  cases hat with
  | start =>
      cases hrest
      rcases r with e | _ | resolved
      · exact .missed
      · exact .missed
      · exact .done _
  | missed =>
      cases hrest
      rcases repository_reply h with ⟨a, hrun, rfl⟩ | ⟨e, rfl⟩
      · obtain ⟨hfind, hdb⟩ := Prod.mk.inj (Except.ok.inj hrun)
        cases a with
        | none => exact .done _
        | some link =>
            rw [hdb] at hfind
            exact .found link (leadsTo_of_find hfind)
      · exact .done _
  | found link h =>
      cases hrest
      exact .done _
  | done v => cases hrest

theorem WritesAt.own {call : LinksCall} {c : LinksStep} {o : LinksOutside}
    {r : c.Reply} {next : c.Reply → LinksProgram}
    (hat : WritesAt s call (.call c next))
    (h : LinksService.exec config c o s = some (r, s')) :
    WritesAt s' call (next r) := by
  cases call with
  | create userId raw => exact hat.2 r trivial
  | deactivate userId linkId => exact hat.2 r trivial
  | reactivate userId linkId => exact hat.2 r trivial
  | resolve shortCode => exact FoundAt.own hat h

/-- What a call writes to the cache leads to its link. -/
theorem WritesAt.write {call : LinksCall} {code : String} {resolved : ResolvedLink}
    {next : LinksStep.Reply (.set code resolved) → LinksProgram}
    (hat : WritesAt s call (.call (.set code resolved) next)) :
    LeadsTo s.db code resolved := by
  cases call with
  | create userId raw => exact absurd rfl (hat.1 code resolved)
  | deactivate userId linkId => exact absurd rfl (hat.1 code resolved)
  | reactivate userId linkId => exact absurd rfl (hat.1 code resolved)
  | resolve shortCode =>
      generalize hrest : Program.call (LinksStep.set code resolved) next = rest at hat
      cases hat with
      | start => cases hrest
      | missed => cases hrest
      | found link h =>
          cases hrest
          exact h
      | done v => cases hrest

theorem identityOutline_valid :
    identityOutline.Valid (linksService config) fun _ _ => True where
  spawn σ call _ _ := writesAt_start σ.shared call
  own σ i o call c next r s hσ _ hi h := by
    have hat := hσ.thread i call _ hi
    refine ⟨(exec_moved h).sound hσ.shared ?_, hat.own h⟩
    rintro code resolved rfl
    exact hat.write
  other σ i o call c next r s hσ _ hi h j call' rest hji hj :=
    (hσ.thread j call' rest hj).persists (exec_moved h).persists
  environment σ x hσ _ := by
    have hmoved := environment_moved x σ.shared
    exact ⟨hmoved.sound hσ.shared nofun, fun j call rest hj =>
      (hσ.thread j call rest hj).persists hmoved.persists⟩

theorem sound_of_reaches {users : List String} {σ : LinksPool}
    (h : (linksService config).Reaches (fun _ _ => True)
      (Pool.init (LinksState.init users)) σ) : Sound σ.shared := by
  have hinit : identityOutline.Holds (Pool.init (LinksState.init users) :
      LinksPool) := by
    refine Annotation.holds_init ⟨⟨⟨List.nodup_nil, List.nodup_nil⟩,
      List.nodup_nil⟩, fun code resolved hget => ?_⟩
    rw [LinksState.init, Store.get_empty] at hget
    cases hget
  exact (identityOutline_valid.reaches h hinit).shared

/-- Later states keep the identities. -/
theorem persists_of_reaches {σ σ' : LinksPool}
    {ok : LinksPool → LinksEvent → Prop}
    (h : (linksService config).Reaches ok σ σ') :
    Persists σ.shared.db σ'.shared.db := by
  induction h with
  | refl => exact persists_refl _
  | tail _ hstep ih =>
      refine ih.trans ?_
      cases hstep.moves with
      | spawn call hok hshared hthreads hhistory =>
          rw [hshared]
          exact persists_refl _
      | exec e he =>
          obtain ⟨o, -, hexec⟩ := he.exec
          exact (exec_moved hexec).persists
      | environment x hok hshared hthreads hhistory =>
          rw [hshared]
          exact (environment_moved x _).persists

end

/-! ### Where results come from -/

/-- The reply that a successful resolution or creation passes on. -/
def Origin (config : LinksConfig) :
    LinksCall → LinksValue → (c : LinksStep) → c.Reply → Prop
  | .resolve code, .resolved r, .get code', reply =>
      code' = code ∧ reply = .ok (some r)
  | .resolve code, .resolved r, .repository (.findActiveByShortCode code'), reply =>
      code' = code ∧ ∃ link, reply = .ok (some link) ∧
        r = ⟨link.id, link.destinationUrl⟩
  | .create userId raw, .createLink r _,
      .repository (.createOrRestore userId' url _), reply =>
      userId' = userId ∧ createDestinationUrl config.newUrl raw = some url ∧
        ∃ link, (reply = .ok (.created link) ∨ reply = .ok (.existing link) ∨
          reply = .ok (.reactivated link)) ∧
          r = LinksService.toResponse config link
  | _, _, _, _ => False

section

variable {config : LinksConfig}

theorem resolve_owes (code : String) (r : ResolvedLink) :
    (LinksService.resolve code).Owes
      (Origin config (.resolve code) (.resolved r)) (· = .ok (.resolved r)) := by
  have hmissed : (LinksService.missed code).Owes
      (Origin config (.resolve code) (.resolved r)) (· = .ok (.resolved r)) := by
    intro reply
    rcases reply with e | _ | link
    · exact .inr nofun
    · exact .inr nofun
    · by_cases heq : r = ⟨link.id, link.destinationUrl⟩
      · exact .inl ⟨rfl, link, rfl, heq⟩
      · refine .inr fun _ => .inr fun hv => heq ?_
        exact (LinksValue.resolved.inj (Except.ok.inj hv)).symm
  intro reply
  rcases reply with e | _ | cached
  · exact .inr hmissed
  · exact .inr hmissed
  · by_cases heq : cached = r
    · exact .inl ⟨rfl, by rw [heq]⟩
    · exact .inr fun hv => heq (LinksValue.resolved.inj (Except.ok.inj hv))

theorem createLoop_owes {userId raw url : String}
    (hurl : createDestinationUrl config.newUrl raw = some url) (r : LinkResponse)
    (b : Bool) (n : ℕ) :
    (LinksService.createLoop config userId url n).Owes
      (Origin config (.create userId raw) (.createLink r b))
      (· = .ok (.createLink r b)) := by
  have hvalue : ∀ {link : LinkRecord} {b' : Bool}
      {reply : Except StorageError CreateOrRestoreLinkResult}, (reply =
        .ok (.created link) ∨ reply = .ok (.existing link) ∨
          reply = .ok (.reactivated link)) → ∀ code,
      Origin config (.create userId raw) (.createLink r b)
          (.repository (.createOrRestore userId url code)) reply ∨
        ¬ (Except.ok (LinksValue.createLink (LinksService.toResponse config link)
          b') : LinksResult) = .ok (.createLink r b) := by
    intro link b' reply hreply code
    by_cases heq : LinksService.toResponse config link = r
    · exact .inl ⟨rfl, hurl, link, hreply, heq.symm⟩
    · exact .inr fun hv => heq
        (LinksValue.createLink.inj (Except.ok.inj hv)).1
  induction n with
  | zero => exact nofun
  | succ n ih =>
      intro code
      refine .inr fun reply => ?_
      rcases reply with e | link | link | link | _ | _
      · exact .inr nofun
      · exact hvalue (.inl rfl) code
      · exact hvalue (.inr (.inl rfl)) code
      · exact hvalue (.inr (.inr rfl)) code
      · exact .inr nofun
      · exact .inr ih

/-- A resolution that returns `r` was given it. -/
theorem resolved_owes (code : String) (r : ResolvedLink) (call : LinksCall) :
    (LinksService.body config call).Owes (Origin config call (.resolved r))
      fun v => call = .resolve code ∧ v = .ok (.resolved r) := by
  by_cases hcall : call = .resolve code
  · subst hcall
    exact (resolve_owes code r).mono fun _ h => h.2
  · exact Program.owes_of_not (fun v hv => hcall hv.1) _

/-- A creation that returns `r` was given its link. -/
theorem created_owes (userId raw : String) (r : LinkResponse) (b : Bool)
    (call : LinksCall) :
    (LinksService.body config call).Owes (Origin config call (.createLink r b))
      fun v => call = .create userId raw ∧ v = .ok (.createLink r b) := by
  by_cases hcall : call = .create userId raw
  · subst hcall
    simp only [LinksService.body, LinksService.create]
    cases hurl : createDestinationUrl config.newUrl raw with
    | none => exact fun h => by cases h.2
    | some url => exact (createLoop_owes hurl r b _).mono fun _ h => h.2
  · exact Program.owes_of_not (fun v hv => hcall hv.1) _

variable {s s' : LinksState} {c : LinksStep} {o : LinksOutside} {reply : c.Reply}

/-- What a resolution was given leads to the link with its code. -/
theorem leadsTo_of_origin {code : String} {r : ResolvedLink} (hs : Sound s)
    (h : LinksService.exec config c o s = some (reply, s'))
    (hr : Origin config (.resolve code) (.resolved r) c reply) :
    LeadsTo s'.db code r := by
  refine LeadsTo.persists (exec_moved h).persists ?_
  match c, reply, hr with
  | .get _, _, hr =>
      obtain ⟨rfl, rfl⟩ := hr
      exact hs.entry _ r (get_reply h)
  | .repository (.findActiveByShortCode _), _, hr =>
      obtain ⟨rfl, link, rfl, rfl⟩ := hr
      rcases repository_reply h with ⟨a, hrun, heq⟩ | ⟨e, heq⟩
      · obtain ⟨hfind, -⟩ := Prod.mk.inj (Except.ok.inj hrun)
        exact leadsTo_of_find (hfind.trans (Except.ok.inj heq).symm)
      · cases heq

/-- What a creation was given is a link of the account to the destination. -/
theorem hasLink_of_origin {userId raw : String} {r : LinkResponse} {b : Bool}
    (h : LinksService.exec config c o s = some (reply, s'))
    (hr : Origin config (.create userId raw) (.createLink r b) c reply) :
    ∃ url, createDestinationUrl config.newUrl raw = some url ∧
      HasLink s'.db r.id userId r.shortCode url := by
  match c, reply, hr with
  | .repository (.createOrRestore u url code), reply, hr =>
      obtain ⟨rfl, hurl, link, hreply, rfl⟩ := hr
      refine ⟨url, hurl, ?_⟩
      rcases repository_reply h with ⟨a, hrun, rfl⟩ | ⟨e, rfl⟩
      · have hdone := createOrRestoreTx_run hrun
        have ha : a = .created link ∨ a = .existing link ∨ a = .reactivated link := by
          rcases hreply with hreply | hreply | hreply
          · exact .inl (Except.ok.inj hreply)
          · exact .inr (.inl (Except.ok.inj hreply))
          · exact .inr (.inr (Except.ok.inj hreply))
        exact hdone.hasLink ha
      · rw [LinksCommand.recover] at hreply
        split at hreply <;> rcases hreply with h | h | h <;> cases h

end

section

variable {config : LinksConfig} {users : List String} {σ : LinksPool} {i : ℕ}

/-- What a finished resolution returned still leads to the link with its code. -/
theorem leadsTo_of_resolved
    (h : (linksService config).Reaches (fun _ _ => True)
      (Pool.init (LinksState.init users)) σ) {code : String} {r : ResolvedLink}
    (hi : σ.threads[i]? = some ⟨.resolve code, .pure (.ok (.resolved r))⟩) :
    LeadsTo σ.shared.db code r := by
  rcases h.owes _ _ (resolved_owes code r) (Nat.zero_le i) hi with
    howes | ⟨c, reply, σ₁, σ₂, horigin, h₁, hfires, h₂⟩
  · exact absurd ⟨rfl, rfl⟩ howes
  · obtain ⟨o, -, hexec⟩ := hfires.exec
    exact (leadsTo_of_origin (sound_of_reaches h₁) hexec horigin).persists
      (persists_of_reaches h₂)

/-- The link that a finished creation returned is still there. -/
theorem hasLink_of_created
    (h : (linksService config).Reaches (fun _ _ => True)
      (Pool.init (LinksState.init users)) σ) {userId raw : String}
    {r : LinkResponse} {b : Bool}
    (hi : σ.threads[i]? = some ⟨.create userId raw, .pure (.ok (.createLink r b))⟩) :
    ∃ url, createDestinationUrl config.newUrl raw = some url ∧
      HasLink σ.shared.db r.id userId r.shortCode url := by
  rcases h.owes _ _ (created_owes userId raw r b) (Nat.zero_le i) hi with
    howes | ⟨c, reply, σ₁, σ₂, horigin, h₁, hfires, h₂⟩
  · exact absurd ⟨rfl, rfl⟩ howes
  · obtain ⟨o, -, hexec⟩ := hfires.exec
    obtain ⟨url, hurl, hlink⟩ := hasLink_of_origin hexec horigin
    exact ⟨url, hurl, hlink.persists (persists_of_reaches h₂)⟩

end

/-- What holds of the service in a state and in any later one. -/
structure StableIdentity (config : LinksConfig) (σ σ' : LinksPool) : Prop where
  rows : Identified σ.shared.db
  persists : Persists σ.shared.db σ'.shared.db
  entry : ∀ code resolved,
    σ.shared.cache.get (resolutionKey code) = some resolved →
      LeadsTo σ.shared.db code resolved
  resolves : ∀ (i j : ℕ) code r r',
    σ.threads[i]? = some ⟨.resolve code, .pure (.ok (.resolved r))⟩ →
    σ.threads[j]? = some ⟨.resolve code, .pure (.ok (.resolved r'))⟩ → r = r'
  creates : ∀ (i j : ℕ) userId raw raw' r b r' b',
    σ.threads[i]? = some ⟨.create userId raw, .pure (.ok (.createLink r b))⟩ →
    σ.threads[j]? =
      some ⟨.create userId raw', .pure (.ok (.createLink r' b'))⟩ →
    createDestinationUrl config.newUrl raw =
      createDestinationUrl config.newUrl raw' →
      r.id = r'.id ∧ r.shortCode = r'.shortCode

/-- The identity of a link is unique and never changes: in every state reached by
interleaving the statements of the repository's transactions, and in every state
reached by interleaving the steps of the service, whatever fails and whatever the
cache loses. -/
theorem identity_stable (config : LinksConfig) (users : List String)
    {τ τ' : State LinksCommand LinksCommand.Res LinksCommand LinksReply Stamp
      LinksDb String StorageError}
    (hτ : repository.Reaches (State.init ⟨users, []⟩) τ)
    (hτ' : repository.Reaches τ τ') {σ σ' : LinksPool}
    (hσ : (linksService config).Reaches (fun _ _ => True)
      (Pool.init (LinksState.init users)) σ)
    (hσ' : (linksService config).Reaches (fun _ _ => True) σ σ') :
    (Identified τ.db ∧ Persists τ.db τ'.db) ∧ StableIdentity config σ σ' := by
  have hsound := sound_of_reaches hσ
  have hids : discipline.Inv ⟨users, []⟩ := List.nodup_nil
  obtain ⟨hgood, hserial⟩ := (good_init hids).reaches discipline_valid hτ
  obtain ⟨-, hserial'⟩ := hgood.reaches discipline_valid hτ'
  refine ⟨⟨?_, ?_⟩, ⟨hsound.rows, persists_of_reaches hσ', hsound.entry, ?_, ?_⟩⟩
  · exact hserial.invariant (fun _ _ _ _ _ hd hrun => hd.run hrun)
      ⟨⟨List.nodup_nil, List.nodup_nil⟩, List.nodup_nil⟩
  · exact hserial'.relates (P := fun _ => True) (fun _ _ _ _ _ _ _ => trivial)
      persists_refl (fun _ _ _ => Persists.trans)
      (fun _ _ _ _ _ _ hrun => persists_run hrun) trivial
  · intro i j code r r' hi hj
    exact hsound.rows.leadsTo_unique (leadsTo_of_resolved hσ hi)
      (leadsTo_of_resolved hσ hj)
  · intro i j userId raw raw' r b r' b' hi hj hsame
    obtain ⟨url, hurl, hlink⟩ := hasLink_of_created hσ hi
    obtain ⟨url', hurl', hlink'⟩ := hasLink_of_created hσ hj
    obtain rfl := Option.some.inj (hurl.symm.trans (hsame.trans hurl'))
    exact hsound.rows.hasLink_unique hlink hlink'

/-- The link is resolved from the table and from the cache, deactivated and
created again. -/
def afterRestore : LinksPool :=
  (linksService exampleConfig).after
    [.spawn (.resolve "aaaaaa"), advance 1, advance 1, advance 1,
      .spawn (.resolve "aaaaaa"), advance 2,
      .spawn (.deactivate "u" "l"), advance 3, advance 3, advance 3,
      .spawn (.create "u" "https://a.example/"), advance 4, advance 4] afterCreate

def firstCreate : State LinksCommand LinksCommand.Res LinksCommand LinksReply Stamp
    LinksDb String StorageError :=
  repository.after (concurrentCreates.take 11) (State.init ⟨["u"], []⟩)

def secondCreate : State LinksCommand LinksCommand.Res LinksCommand LinksReply Stamp
    LinksDb String StorageError :=
  repository.after (concurrentCreates.drop 11) firstCreate

theorem afterRestore_identity_stable :
    (firstCreate.db.links.length = 1 ∧ secondCreate.db.links.length = 2 ∧
      afterRestore.result? 1 = some (.ok (.resolved ⟨"l", "https://a.example/"⟩)) ∧
      afterRestore.result? 2 = afterRestore.result? 1) ∧
    (Identified firstCreate.db ∧ Persists firstCreate.db secondCreate.db) ∧
      StableIdentity exampleConfig afterRestore afterRestore :=
  ⟨by decide, identity_stable exampleConfig ["u"]
    (repository.reaches_after _ _) (repository.reaches_after _ _)
    ((Semantics.reaches_after _ (by decide)).trans
      (Semantics.reaches_after _ (by decide))) .refl⟩

end Links

end Shortlink

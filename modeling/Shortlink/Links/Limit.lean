import Shortlink.Links.Repository
import Shortlink.Transaction.Atomicity

/-!
# The active link limit

The repository's transactions under interleaving. The account row lock protects
the links of the account: every read behind it is a read of those links, and
the one read before it, in `changeStatus`, only decides who the owner is, which
no transaction changes. So the interleaved execution is serializable, and a
state reached by interleaving is one reached by `Effect`s in some order.
-/

namespace Shortlink

namespace Links

open Shortlink.Storage Shortlink.Table Shortlink.Transaction
open Shortlink.Interaction

/-- What a committed transaction of the account `userId` may have done. -/
inductive Effect (userId : String) (db : LinksDb) : LinksDb → Prop
  | saved (link : LinkRecord) (hmem : link ∈ db.links)
      (howner : link.userId = userId) (status : LinkStatus) (now : ℕ)
      (hcount : status = .active →
        db.countActiveLinks userId < MAX_ACTIVE_LINKS_PER_USER) :
      Effect userId db (db.saveLink { link with status, updatedAt := now })
  | inserted (link : LinkRecord) (howner : link.userId = userId)
      (hcount : db.countActiveLinks userId < MAX_ACTIVE_LINKS_PER_USER)
      (hid : ∀ l ∈ db.links, l.id ≠ link.id)
      (hcode : ∀ l ∈ db.links, l.shortCode ≠ link.shortCode)
      (hdest : ∀ l ∈ db.links, l.userId = link.userId →
        l.destinationUrl ≠ link.destinationUrl) :
      Effect userId db { db with links := db.links ++ [link] }

theorem LinksDb.mem_of_findById {linkId : String} {db : LinksDb}
    {link : LinkRecord} (h : db.findById linkId = some link) :
    link ∈ db.links ∧ link.id = linkId :=
  ⟨List.mem_of_find?_eq_some h, by simpa using List.find?_some h⟩

theorem LinksDb.mem_of_findByDestination {userId url : String} {db : LinksDb}
    {link : LinkRecord} (h : db.findByDestination userId url = some link) :
    link ∈ db.links ∧ link.userId = userId ∧ link.destinationUrl = url :=
  ⟨List.mem_of_find?_eq_some h, by simpa using List.find?_some h⟩

theorem CreateOrRestored.effect {userId url code : String} {stamp : Stamp}
    {db db' : LinksDb} {r : CreateOrRestoreLinkResult}
    (h : CreateOrRestored userId url code stamp db r db') :
    db' = db ∨ Effect userId db db' := by
  cases h with
  | existing link hfind hactive => exact .inl rfl
  | limitReached hcount => exact .inl rfl
  | reactivated link hfind hstatus hcount =>
      obtain ⟨hmem, howner, -⟩ := LinksDb.mem_of_findByDestination hfind
      exact .inr (.saved link hmem howner .active stamp.now fun _ => hcount)
  | created _ link hfind hcount hlink hinsert =>
      obtain ⟨hid, hcode, hdest, rfl⟩ :=
        LinksDb.insertLink_eq_ok_iff.1 hinsert
      exact .inr (.inserted link (by rw [hlink]) hcount hid hcode hdest)

theorem StatusChanged.effect {userId linkId : String} {status : LinkStatus}
    {stamp : Stamp} {db db' : LinksDb} {r : ChangeLinkStatusResult}
    (h : StatusChanged userId linkId status stamp db r db') :
    db' = db ∨ Effect userId db db' ∧
      ∃ link, db.findById linkId = some link ∧ link.userId = userId := by
  cases h with
  | notFound hfind => exact .inl rfl
  | forbidden link hfind howner => exact .inl rfl
  | unchanged link hfind howner hstatus => exact .inl rfl
  | limitReached hstatus hcount => exact .inl rfl
  | changed link hfind howner hstatus hcount =>
      have hmem := (LinksDb.mem_of_findById hfind).1
      exact .inr ⟨.saved link hmem howner status stamp.now hcount,
        link, hfind, howner⟩

theorem createOrRestoreTx_locks (userId url code : String) (stamp : Stamp)
    (db : LinksDb) :
    userId ∈ (createOrRestoreTx userId url code stamp).locks db := by
  simp [createOrRestoreTx, lockAccount]

theorem changeStatusTx_locks {userId linkId : String} {status : LinkStatus}
    {stamp : Stamp} {db : LinksDb} {link : LinkRecord}
    (hfind : db.findById linkId = some link) (howner : link.userId = userId) :
    userId ∈ (changeStatusTx userId linkId status stamp).locks db := by
  simp [changeStatusTx, changeStatusTx.locked, lockAccount, hfind, howner]

/-- A committed transaction changes nothing, or has an effect on the links of
an account that it has locked. -/
theorem LinksCommand.impl_effect {c : LinksCommand} {stamp : Stamp}
    {db db' : LinksDb} {a : c.Res}
    (h : (c.impl stamp).run db = .ok (a, db')) :
    db' = db ∨ ∃ userId ∈ (c.impl stamp).locks db, Effect userId db db' := by
  cases c with
  | createOrRestore userId url code =>
      refine (createOrRestoreTx_run h).effect.imp id fun heffect => ?_
      exact ⟨userId, createOrRestoreTx_locks userId url code stamp db, heffect⟩
  | changeStatus userId linkId status =>
      refine (changeStatusTx_run h).effect.imp id fun ⟨heffect, hfind⟩ => ?_
      obtain ⟨link, hfind, howner⟩ := hfind
      exact ⟨userId, changeStatusTx_locks hfind howner, heffect⟩
  | findActiveByShortCode code =>
      exact .inl (Prod.mk.inj (Except.ok.inj h)).2.symm
  | findById linkId => exact .inl (Prod.mk.inj (Except.ok.inj h)).2.symm

/-! ### What an effect keeps -/

namespace Effect

variable {userId : String} {db db' : LinksDb}

theorem users (h : Effect userId db db') : db'.users = db.users := by
  cases h <;> rfl

theorem ids_nodup (h : Effect userId db db')
    (hids : (db.links.map (·.id)).Nodup) : (db'.links.map (·.id)).Nodup := by
  cases h with
  | saved link hmem howner status now hcount =>
      simpa [LinksDb.saveLink, map_updateWhere] using hids
  | inserted link howner hcount hid hcode hdest =>
      simpa [List.nodup_append] using ⟨hids, fun l hl => hid l hl⟩

/-- The rows persist with their id, owner, short code and destination. -/
theorem persist (h : Effect userId db db') {l : LinkRecord}
    (hl : l ∈ db.links) :
    ∃ l' ∈ db'.links, l'.id = l.id ∧ l'.userId = l.userId ∧
      l'.shortCode = l.shortCode ∧ l'.destinationUrl = l.destinationUrl := by
  cases h with
  | saved link hmem howner status now hcount =>
      cases hid : l.id == link.id with
      | false => exact ⟨l, mem_updateWhere_of_not hl hid, rfl, rfl, rfl, rfl⟩
      | true => exact ⟨_, mem_updateWhere_of hl hid, rfl, rfl, rfl, rfl⟩
  | inserted link howner hcount hid hcode hdest =>
      exact ⟨l, List.mem_append_left _ hl, rfl, rfl, rfl, rfl⟩

theorem codes_nodup (h : Effect userId db db')
    (hcodes : (db.links.map (·.shortCode)).Nodup) :
    (db'.links.map (·.shortCode)).Nodup := by
  cases h with
  | saved link hmem howner status now hcount =>
      simpa [LinksDb.saveLink, map_updateWhere] using hcodes
  | inserted link howner hcount hid hcode hdest =>
      simpa [List.nodup_append] using ⟨hcodes, fun l hl => hcode l hl⟩

/-- The links of the other accounts are not touched. -/
theorem frame (h : Effect userId db db')
    (hids : (db.links.map (·.id)).Nodup) {other : String}
    (hne : other ≠ userId) :
    db'.links.filter (·.userId == other) =
      db.links.filter (·.userId == other) := by
  cases h with
  | saved link hmem howner status now hcount =>
      refine filter_updateWhere fun l hl hid => ?_
      have hlink : l = link :=
        List.inj_on_of_nodup_map hids hl hmem (by simpa using hid)
      simp [hlink, howner, hne.symm]
  | inserted link howner hcount hid hcode hdest =>
      simp [howner, hne.symm]

/-- Every account keeps at most `MAX_ACTIVE_LINKS_PER_USER` active links. -/
theorem limit (h : Effect userId db db') (hids : (db.links.map (·.id)).Nodup)
    {u : String} (hu : db.countActiveLinks u ≤ MAX_ACTIVE_LINKS_PER_USER) :
    db'.countActiveLinks u ≤ MAX_ACTIVE_LINKS_PER_USER := by
  by_cases hne : u = userId
  · subst hne
    cases h with
    | saved link hmem howner status now hcount =>
        cases status with
        | active =>
            have hlt := hcount rfl
            have hle : (updateWhere (fun l => l.id == link.id)
                (fun l => { l with status := .active, updatedAt := now })
                db.links).countP (LinksDb.activeOf u) ≤
                  db.links.countP (LinksDb.activeOf u) + 1 :=
              countP_updateWhere_key_le hids fun l hl => by simpa using hl
            exact Nat.le_trans hle hlt
        | deactivated =>
            have hle : (updateWhere (fun l => l.id == link.id)
                (fun l => { l with status := .deactivated, updatedAt := now })
                db.links).countP (LinksDb.activeOf u) ≤
                  db.links.countP (LinksDb.activeOf u) :=
              countP_updateWhere_le fun l _ _ hq => by
                simp [LinksDb.activeOf] at hq
            exact Nat.le_trans hle hu
    | inserted link howner hcount hid hcode hdest =>
        simp only [LinksDb.countActiveLinks, List.countP_append,
          List.countP_singleton] at hcount ⊢
        split <;> omega
  · have hframe := h.frame hids hne
    have hcount : ∀ d : LinksDb, d.countActiveLinks u =
        (d.links.filter (·.userId == u)).countP (·.status == .active) := by
      intro d
      rw [LinksDb.countActiveLinks, List.countP_filter]
      refine List.countP_congr fun l _ => ?_
      simp [LinksDb.activeOf, and_comm]
    rw [hcount] at hu ⊢
    rw [hframe]
    exact hu

end Effect

/-! ### The account row lock -/

/-- Links keep their ids, accounts and owners, and the lock of an account
protects the list of its links. -/
def discipline : Discipline LinksDb String where
  Inv db := (db.links.map (·.id)).Nodup
  Evolves db db' := db'.users = db.users ∧
    ∀ l ∈ db.links, ∃ l' ∈ db'.links, l'.id = l.id ∧ l'.userId = l.userId
  Frame userId db db' := db'.links.filter (·.userId == userId) =
    db.links.filter (·.userId == userId)
  evolves_refl db := ⟨rfl, fun l hl => ⟨l, hl, rfl, rfl⟩⟩
  evolves_trans db₁ db₂ db₃ h₁ h₂ := by
    refine ⟨h₂.1.trans h₁.1, fun l hl => ?_⟩
    obtain ⟨l', hl', hid, howner⟩ := h₁.2 l hl
    obtain ⟨l'', hl'', hid', howner'⟩ := h₂.2 l' hl'
    exact ⟨l'', hl'', hid'.trans hid, howner'.trans howner⟩
  frame_refl _ _ := rfl
  frame_trans _ _ _ _ h₁ h₂ := h₂.trans h₁

section Lock

variable {userId : String} {H : List String} {db db' : LinksDb}

theorem account_env (h : discipline.Env H db db') :
    db'.users.find? (· == userId) = db.users.find? (· == userId) := by
  rw [h.evolves.1]

theorem findByDestination_env (h : discipline.Env H db db') (hH : userId ∈ H)
    (url : String) :
    db'.findByDestination userId url = db.findByDestination userId url := by
  have hfind : ∀ d : LinksDb, d.findByDestination userId url =
      (d.links.filter (·.userId == userId)).find?
        (·.destinationUrl == url) := by
    intro d
    rw [List.find?_filter, LinksDb.findByDestination]
    congr 1
    funext l
    rw [Bool.decide_and, Bool.decide_eq_true, Bool.decide_eq_true]
  rw [hfind, hfind, h.frame userId hH]

theorem countActiveLinks_env (h : discipline.Env H db db')
    (hH : userId ∈ H) :
    db'.countActiveLinks userId = db.countActiveLinks userId := by
  have hcount : ∀ d : LinksDb, d.countActiveLinks userId =
      (d.links.filter (·.userId == userId)).countP (·.status == .active) := by
    intro d
    rw [LinksDb.countActiveLinks, List.countP_filter]
    refine List.countP_congr fun l _ => ?_
    simp [LinksDb.activeOf, and_comm]
  rw [hcount, hcount, h.frame userId hH]

theorem LinksDb.findById_of_mem {l : LinkRecord}
    (hids : (db.links.map (·.id)).Nodup) (hl : l ∈ db.links) :
    db.findById l.id = some l :=
  find?_key hids hl

/-- The owner of a link is the same in every later state. -/
theorem findById_owner_env (h : discipline.Env H db db') {linkId : String}
    {link : LinkRecord} (hfind : db.findById linkId = some link) :
    ∃ link', db'.findById linkId = some link' ∧
      link'.userId = link.userId := by
  obtain ⟨hmem, rfl⟩ := LinksDb.mem_of_findById hfind
  obtain ⟨l', hl', hid, howner⟩ := h.evolves.2 link hmem
  exact ⟨l', hid ▸ LinksDb.findById_of_mem h.inv hl', howner⟩

/-- Behind its owner's lock, a link is the same in every later state. -/
theorem findById_env (h : discipline.Env H db db') (hH : userId ∈ H)
    {linkId : String} {link : LinkRecord}
    (hfind : db.findById linkId = some link) (howner : link.userId = userId) :
    db'.findById linkId = db.findById linkId := by
  obtain ⟨hmem, rfl⟩ := LinksDb.mem_of_findById hfind
  have hframe : link ∈ db'.links.filter (·.userId == userId) := by
    rw [h.frame userId hH]
    exact List.mem_filter.2 ⟨hmem, by simpa using howner⟩
  rw [hfind]
  exact LinksDb.findById_of_mem h.inv (List.mem_filter.1 hframe).1

/-- A body that starts with `lockAccount` needs to be protected only behind
the lock. -/
theorem lockAccount_stable {β : Type} {rest : LinksTx β}
    (hrest : ∀ d, discipline.Env H db d →
      discipline.Stable rest (userId :: H) [] d) :
    discipline.Stable ((lockAccount userId).bind fun _ => rest) H [] db := by
  have hbind : (lockAccount userId).bind (fun _ => rest) =
      .lock userId
        ((Tx.query fun db : LinksDb => db.users.find? (· == userId)).bind
          fun account =>
            account.elim (Tx.throw (.error "Account not found.")) fun _ => rest) := by
    simp only [lockAccount, Tx.bind_eq, Tx.acquire_bind, Tx.lock_bind,
      Tx.bind_assoc]
    congr 2
    funext account
    cases account <;> rfl
  rw [hbind]
  intro d₁ henv₁
  refine Discipline.stable_query_bind
    (fun d₂ d₃ _ henv₃ => account_env henv₃) fun d₂ henv₂ => ?_
  cases haccount : d₂.users.find? (· == userId) with
  | none => trivial
  | some account =>
      have henv₂' : discipline.Env H d₁ d₂ :=
        henv₂.mono fun k hk => List.mem_cons_of_mem userId hk
      exact hrest d₂ (henv₁.trans henv₂')

/-- A count behind the lock protects the branches it decides between. -/
theorem countActiveLinks_stable {β : Type} {full free : LinksTx β}
    (hH : userId ∈ H) (hfull : ∀ d, discipline.Stable full H [] d)
    (hfree : ∀ d, discipline.Stable free H [] d) :
    discipline.Stable
      ((Tx.query (LinksDb.countActiveLinks userId)).bind fun activeCount =>
        if activeCount ≥ MAX_ACTIVE_LINKS_PER_USER then full else free)
      H [] db := by
  refine Discipline.stable_query_bind
    (fun d₁ d₂ _ henv => countActiveLinks_env henv hH) fun d₁ _ => ?_
  split
  · exact hfull d₁
  · exact hfree d₁

end Lock

theorem createOrRestoreTx_stable (userId url code : String) (stamp : Stamp)
    (db : LinksDb) :
    discipline.Stable (createOrRestoreTx userId url code stamp) [] [] db := by
  have hH : userId ∈ [userId] := List.mem_cons_self
  refine lockAccount_stable fun d henv => ?_
  refine Discipline.stable_query_bind
    (fun d₁ d₂ _ henv => findByDestination_env henv hH url) fun d₁ henv₁ => ?_
  cases hfind : d₁.findByDestination userId url with
  | none =>
      exact countActiveLinks_stable hH (fun _ => trivial)
        (fun _ _ _ _ _ => trivial)
  | some link =>
      cases hstatus : link.status with
      | active => simp only [hstatus]; trivial
      | deactivated =>
          simp only [hstatus]
          exact countActiveLinks_stable hH (fun _ => trivial)
            (fun _ _ _ _ _ => trivial)

/-- The part of `changeStatus` behind the ownership check. -/
theorem changeStatusTx_stable {userId linkId : String} {status : LinkStatus}
    {stamp : Stamp} {db : LinksDb} {link : LinkRecord}
    (hfind : db.findById linkId = some link) (howner : link.userId = userId) :
    discipline.Stable (changeStatusTx.locked userId linkId status stamp)
      [] [] db := by
  have hH : userId ∈ [userId] := List.mem_cons_self
  refine lockAccount_stable fun d henv => ?_
  obtain ⟨link₁, hfind₁, howner₁⟩ := findById_owner_env henv hfind
  refine Discipline.stable_query_bind (fun d₁ d₂ henv₁ henv₂ => ?_)
    fun d₁ henv₁ => ?_
  · have hfind₂ := findById_env henv₁ hH hfind₁ (howner₁.trans howner)
    exact findById_env henv₂ hH (hfind₂.trans hfind₁) (howner₁.trans howner)
  · cases hfind₂ : d₁.findById linkId with
    | none => trivial
    | some locked =>
        dsimp only
        split
        · trivial
        split
        · exact countActiveLinks_stable hH (fun _ => trivial)
            (fun _ _ _ _ _ => trivial)
        · exact fun _ _ _ _ => trivial

/-- `changeStatus` reads the owner before it takes the lock. What it does there
is right for every later state, as the owner never changes. -/
theorem changeStatusTx_tracks (userId linkId : String) (status : LinkStatus)
    (stamp : Stamp) (db : LinksDb) :
    discipline.Tracks (changeStatusTx userId linkId status stamp)
      (changeStatusTx userId linkId status stamp) [] [] db := by
  refine Discipline.tracks_query_bind fun d henv => ?_
  cases hfind : d.findById linkId with
  | none => exact .inl ⟨_, rfl⟩
  | some link =>
      by_cases howner : link.userId = userId
      · refine .inr (.inr ⟨fun d' henv' => ?_, ?_⟩)
        · obtain ⟨link', hfind', howner'⟩ := findById_owner_env henv' hfind
          simp only [hfind', howner', howner]
          exact ⟨trivial, fun k hk => hk⟩
        · simp only [howner, ne_eq, not_true_eq_false, if_false]
          exact changeStatusTx_stable hfind howner
      · exact .inl ⟨.forbidden, by simp [howner]⟩

/-- Every transaction of the repository can be read as executed alone. -/
theorem discipline_valid : discipline.Valid repository where
  guarantee c stamp db a db' hids h := by
    rcases c.impl_effect h with rfl | ⟨userId, hlock, heffect⟩
    · exact ⟨hids, discipline.evolves_refl _,
        fun k _ => discipline.frame_refl k _⟩
    · refine ⟨heffect.ids_nodup hids, ⟨heffect.users, fun l hl => ?_⟩, ?_⟩
      · obtain ⟨l', hl', hid, howner, -⟩ := heffect.persist hl
        exact ⟨l', hl', hid, howner⟩
      · intro k hk
        exact heffect.frame hids fun hku => hk (hku ▸ hlock)
  tracks c stamp db hids := by
    cases c with
    | createOrRestore userId url code =>
        exact (createOrRestoreTx_stable userId url code stamp db).tracks
          (discipline.follows_self _ db) hids
    | changeStatus userId linkId status =>
        exact changeStatusTx_tracks userId linkId status stamp db
    | findActiveByShortCode code =>
        exact Discipline.tracks_query_bind fun d _ => .inl ⟨_, rfl⟩
    | findById linkId =>
        exact Discipline.tracks_query_bind fun d _ => .inl ⟨_, rfl⟩

/-- What every committed state satisfies: link ids are unique and no account
exceeds the limit. -/
structure WithinLimit (db : LinksDb) : Prop where
  ids : (db.links.map (·.id)).Nodup
  limit : ∀ userId, db.countActiveLinks userId ≤ MAX_ACTIVE_LINKS_PER_USER

theorem WithinLimit.run {c : LinksCommand} {stamp : Stamp} {db db' : LinksDb}
    {a : c.Res} (h : WithinLimit db)
    (hrun : (c.impl stamp).run db = .ok (a, db')) : WithinLimit db' := by
  rcases c.impl_effect hrun with rfl | ⟨userId, -, heffect⟩
  · exact h
  · exact ⟨heffect.ids_nodup h.ids,
      fun u => heffect.limit h.ids (h.limit u)⟩

/-- In every state reached by interleaving the steps of any number of the
repository's transactions, no account has more than the permitted number of
active links. -/
theorem active_links_within_limit (users : List String)
    {σ : State LinksCommand LinksCommand.Res LinksCommand LinksReply Stamp
      LinksDb String StorageError}
    (h : repository.Reaches (State.init ⟨users, []⟩) σ) (userId : String) :
    σ.db.countActiveLinks userId ≤ MAX_ACTIVE_LINKS_PER_USER := by
  have hids : discipline.Inv ⟨users, []⟩ := List.nodup_nil
  obtain ⟨-, hserial⟩ := (good_init hids).reaches discipline_valid h
  have hstart : WithinLimit ⟨users, []⟩ :=
    ⟨List.nodup_nil, fun u => Nat.zero_le _⟩
  have hfinal : WithinLimit σ.db := hserial.invariant
    (fun _ _ _ _ _ hd hrun => hd.run hrun) hstart
  exact hfinal.limit userId

/-- Two creations by one account, the second waiting for the lock of the
first. -/
def concurrentCreates : List (Action LinksCommand Stamp StorageError) :=
  [.spawn (.createOrRestore "u" "https://a.example/" "aaaaaa"),
    .spawn (.createOrRestore "u" "https://b.example/" "bbbbbb"),
    .begin 0 ⟨1, "l0"⟩, .begin 1 ⟨2, "l1"⟩, .advance 0, .advance 1,
    .advance 0, .advance 0, .advance 0, .advance 0, .commit 0,
    .advance 1, .advance 1, .advance 1, .advance 1, .advance 1, .commit 1]

theorem concurrentCreates_within_limit :
    (repository.after concurrentCreates
        (State.init ⟨["u"], []⟩)).db.countActiveLinks "u" = 2 ∧
      (repository.after concurrentCreates
        (State.init ⟨["u"], []⟩)).db.countActiveLinks "u" ≤
          MAX_ACTIVE_LINKS_PER_USER :=
  ⟨by decide, active_links_within_limit ["u"]
    (repository.reaches_after concurrentCreates _) "u"⟩

end Links

end Shortlink

import Shortlink.Interaction.Serial
import Shortlink.Links.Identity

/-!
# Creation of a link

`create` while no other call writes. The repository then answers as the function
`LinksDb.createOrRestore` says, and the only error of the database that it recovers
from is that of a used short code. A collision leaves the tables alone, so the next
attempt meets the table of the first one, and the loop stops at the first code that
is free.
-/

namespace Shortlink

namespace Links

open Shortlink.Storage Shortlink.Transaction Shortlink.Interaction
open Shortlink.Table

/-! ### The tables of a run -/

/-- What every table that the service reaches satisfies. -/
structure Proper (db : LinksDb) : Prop extends Identified db where
  owners : ∀ l ∈ db.links, l.userId ∈ db.users
  limit : ∀ userId, db.countActiveLinks userId ≤ MAX_ACTIVE_LINKS_PER_USER

theorem find?_account {db : LinksDb} {userId : String} :
    (db.users.find? (· == userId)).isSome ↔ userId ∈ db.users := by
  simp

theorem createOrRestoreTx_account {userId url code : String} {stamp : Stamp}
    {db : LinksDb} {r : CreateOrRestoreLinkResult × LinksDb}
    (h : (createOrRestoreTx userId url code stamp).run db = .ok r) :
    userId ∈ db.users := by
  rw [← find?_account]
  simp only [createOrRestoreTx, lockAccount, Tx.bind_eq, Tx.acquire_bind,
    Tx.query_bind, Tx.lock_bind, Tx.read_bind, Tx.run_lock, Tx.run_read] at h
  cases haccount : db.users.find? (· == userId) with
  | none => simp [haccount] at h
  | some account => rfl

namespace Proper

variable {db db' : LinksDb} {c : LinksCommand} {stamp : Stamp} {a : c.Res}

theorem run (h : Proper db) (hrun : (c.impl stamp).run db = .ok (a, db')) :
    Proper db' := by
  refine ⟨h.toIdentified.run hrun, ?_,
    (WithinLimit.run ⟨h.ids, h.limit⟩ hrun).limit⟩
  have hsaved : ∀ link : LinkRecord,
      ∀ l ∈ (db.saveLink link).links, l.userId ∈ db.users := by
    intro link l hl
    obtain ⟨l₀, hl₀, rfl⟩ := mem_updateWhere.1 hl
    split
    · exact h.owners l₀ hl₀
    · exact h.owners l₀ hl₀
  cases c with
  | createOrRestore userId url code =>
      have haccount := createOrRestoreTx_account hrun
      cases createOrRestoreTx_run hrun with
      | existing link hfind hactive => exact h.owners
      | limitReached hcount => exact h.owners
      | reactivated link hfind hstatus hcount => exact hsaved _
      | created _ link hfind hcount hlink hinsert =>
          obtain ⟨-, -, -, rfl⟩ := LinksDb.insertLink_eq_ok_iff.1 hinsert
          intro l hl
          rcases List.mem_append.1 hl with hl | hl
          · exact h.owners l hl
          · obtain rfl := List.mem_singleton.1 hl
            rw [hlink]
            exact haccount
  | changeStatus userId linkId status =>
      cases changeStatusTx_run hrun with
      | notFound hfind => exact h.owners
      | forbidden link hfind howner => exact h.owners
      | unchanged link hfind howner hstatus => exact h.owners
      | limitReached hstatus hcount => exact h.owners
      | changed link hfind howner hstatus hcount => exact hsaved _
  | findActiveByShortCode code =>
      obtain rfl := (Prod.mk.inj (Except.ok.inj hrun)).2
      exact h.owners
  | findById linkId =>
      obtain rfl := (Prod.mk.inj (Except.ok.inj hrun)).2
      exact h.owners

/-- An owner's link to a destination is found. -/
theorem findByDestination (h : Proper db) {link : LinkRecord}
    (hlink : link ∈ db.links) :
    db.findByDestination link.userId link.destinationUrl = some link := by
  have hsome : (db.findByDestination link.userId link.destinationUrl).isSome := by
    rw [LinksDb.findByDestination, List.find?_isSome]
    exact ⟨link, hlink, by simp⟩
  obtain ⟨l, hl⟩ := Option.isSome_iff_exists.1 hsome
  obtain ⟨hmem, huser, hurl⟩ := LinksDb.mem_of_findByDestination hl
  rw [hl, List.inj_on_of_nodup_map h.destinations hmem hlink (Prod.ext huser hurl)]

end Proper

theorem Moved.proper {s s' : LinksState} {c : LinksStep} (h : Moved s c s')
    (hs : Proper s.db) : Proper s'.db := by
  cases h with
  | wrote shortCode resolved ttl => exact hs
  | committed c stamp a db hrun => exact hs.run hrun
  | removed _ _ hdb hcache => exact hdb ▸ hs

/-- No step changes the accounts. -/
theorem Moved.users {s s' : LinksState} {c : LinksStep} (h : Moved s c s') :
    s'.db.users = s.db.users := by
  cases h with
  | wrote shortCode resolved ttl => rfl
  | committed c stamp a db hrun =>
      rcases c.impl_effect hrun with rfl | ⟨userId, -, heffect⟩
      · rfl
      · exact heffect.users
  | removed _ _ hdb hcache => rw [hdb]

/-- The tables that the calls of the service reach. -/
theorem proper_of_reaches {config : LinksConfig} {users : List String}
    {ok : LinksPool → LinksEvent → Prop} {σ : LinksPool}
    (h : (linksService config).Reaches ok (Pool.init (LinksState.init users)) σ) :
    Proper σ.shared.db ∧ σ.shared.db.users = users := by
  have hinit : Proper (LinksState.init users).db := ⟨⟨⟨List.nodup_nil, List.nodup_nil⟩,
    List.nodup_nil⟩, nofun, fun _ => Nat.zero_le _⟩
  exact h.shared (P := fun s => Proper s.db ∧ s.db.users = users)
    (fun _ _ _ _ _ hs hexec => ⟨(exec_moved hexec).proper hs.1,
      (exec_moved hexec).users.trans hs.2⟩)
    (fun x s hs => ⟨(environment_moved x s).proper hs.1,
      (environment_moved x s).users.trans hs.2⟩) ⟨hinit, rfl⟩

/-! ### The repository alone -/

def createdLink (userId destinationUrl shortCode : String) (stamp : Stamp) : LinkRecord where
  id := stamp.id
  userId := userId
  shortCode := shortCode
  destinationUrl := destinationUrl
  status := .active
  createdAt := stamp.now
  updatedAt := stamp.now

def restoredLink (link : LinkRecord) (now : ℕ) : LinkRecord :=
  { link with status := .active, updatedAt := now }

/-- What `createOrRestore` answers and does when nothing disturbs it. -/
def LinksDb.createOrRestore (userId destinationUrl shortCode : String) (stamp : Stamp)
    (db : LinksDb) : CreateOrRestoreLinkResult × LinksDb :=
  match db.findByDestination userId destinationUrl with
  | some link =>
      if link.status = .active then (.existing link, db)
      else if db.countActiveLinks userId ≥ MAX_ACTIVE_LINKS_PER_USER then
        (.limitReached, db)
      else
        (.reactivated (restoredLink link stamp.now), db.saveLink (restoredLink link stamp.now))
  | none =>
      if db.countActiveLinks userId ≥ MAX_ACTIVE_LINKS_PER_USER then
        (.limitReached, db)
      else if db.links.any fun l => l.shortCode == shortCode then
        (.shortCodeCollision, db)
      else
        (.created (createdLink userId destinationUrl shortCode stamp),
          { db with links := db.links ++ [createdLink userId destinationUrl shortCode stamp] })

theorem LinksDb.createOrRestore_collision {userId url code : String} {stamp : Stamp}
    (db : LinksDb) (h : (db.createOrRestore userId url code stamp).1 = .shortCodeCollision) :
    db.links.any (fun l => l.shortCode == code) = true ∧
      (db.createOrRestore userId url code stamp).2 = db := by
  rw [LinksDb.createOrRestore] at h ⊢
  cases hfind : db.findByDestination userId url with
  | some link =>
      simp only [hfind] at h
      split at h
      · cases h
      split at h
      · cases h
      · cases h
  | none =>
      simp only [hfind] at h ⊢
      by_cases hcount : db.countActiveLinks userId ≥ MAX_ACTIVE_LINKS_PER_USER
      · rw [if_pos hcount] at h
        cases h
      rw [if_neg hcount] at h ⊢
      split at h
      · rename_i hused
        exact ⟨hused, by rw [if_pos hused]⟩
      · cases h

/-- The error of a used short code is recognised. -/
theorem isShortCodeCollision_shortCode (code : String) :
    isShortCodeCollision (uniqueViolation "IDX_f5e434d70a12e8e6544fdbda8b"
      "\"shortCode\"" code) = true := by
  have hcolumn : "shortcode".toList <:+: "\"shortCode\"".toList.map Char.toLower :=
    ⟨['"'], ['"'], by decide⟩
  simp only [isShortCodeCollision, uniqueViolation, beq_self_eq_true, Bool.true_and,
    decide_eq_true_eq, String.toList_append, List.map_append]
  have hdetail : ∀ pre post post' post'' : List Char, "shortcode".toList <:+:
      pre ++ "\"shortCode\"".toList.map Char.toLower ++ post ++ post' ++ post'' :=
    fun pre post post' post'' => (((hcolumn.trans (List.suffix_append pre _).isInfix).trans
      (List.prefix_append _ post).isInfix).trans
        (List.prefix_append _ post').isInfix).trans (List.prefix_append _ post'').isInfix
  exact (hdetail _ _ _ _).trans (List.suffix_append _ _).isInfix

theorem insertLink_used {link : LinkRecord} {db : LinksDb}
    (hid : ∀ l ∈ db.links, l.id ≠ link.id)
    (hused : db.links.any (fun l => l.shortCode == link.shortCode) = true) :
    LinksDb.insertLink link db = .error (uniqueViolation "IDX_f5e434d70a12e8e6544fdbda8b"
      "\"shortCode\"" link.shortCode) := by
  have hid' : db.links.any (fun l => l.id == link.id) = false :=
    List.any_eq_false.2 fun l hl => by simpa using hid l hl
  simp only [LinksDb.insertLink, hid', hused, Bool.false_eq_true, if_false, if_true]

theorem insertLink_free {link : LinkRecord} {db : LinksDb}
    (hid : ∀ l ∈ db.links, l.id ≠ link.id)
    (hfree : db.links.any (fun l => l.shortCode == link.shortCode) = false)
    (hnone : db.findByDestination link.userId link.destinationUrl = none) :
    LinksDb.insertLink link db = .ok { db with links := db.links ++ [link] } := by
  refine LinksDb.insertLink_eq_ok_iff.2 ⟨hid, fun l hl => ?_, fun l hl huser => ?_, rfl⟩
  · simpa using List.any_eq_false.1 hfree l hl
  · have hne := List.find?_eq_none.1 hnone l hl
    simpa [huser] using hne

section

variable {config : LinksConfig} {userId url code : String} {o : LinksOutside}
  {s s' : LinksState} {c : LinksCommand}

theorem exec_of_run (config : LinksConfig) (hfault : o.fault = .none) {a : c.Res} {db : LinksDb}
    (hrun : (c.impl o.stamp).run s.db = .ok (a, db)) :
    LinksService.exec config (.repository c) o s =
      some ((.ok a : LinksStep.Reply (.repository c)), { s with db }) := by
  simp only [LinksService.exec, hfault, Fault.apply_none, LinksService.execTransaction, hrun,
    c.recover_ok]
  rfl

theorem exec_of_run_error (config : LinksConfig) (hfault : o.fault = .none) {e : StorageError}
    (hrun : (c.impl o.stamp).run s.db = .error e) :
    LinksService.exec config (.repository c) o s = some (c.recover (.error e), s) := by
  simp only [LinksService.exec, hfault, Fault.apply_none, LinksService.execTransaction, hrun]
  rfl

/-- The transaction of an existing account. -/
theorem createOrRestoreTx_run_eq (url code : String) (stamp : Stamp) {db : LinksDb}
    (huser : userId ∈ db.users) :
    (createOrRestoreTx userId url code stamp).run db =
      match db.findByDestination userId url with
      | some link =>
          if link.status = .active then .ok (.existing link, db)
          else if db.countActiveLinks userId ≥ MAX_ACTIVE_LINKS_PER_USER then
            .ok (.limitReached, db)
          else .ok (.reactivated (restoredLink link stamp.now),
            db.saveLink (restoredLink link stamp.now))
      | none =>
          if db.countActiveLinks userId ≥ MAX_ACTIVE_LINKS_PER_USER then
            .ok (.limitReached, db)
          else
            match LinksDb.insertLink (createdLink userId url code stamp) db with
            | .ok db' => .ok (.created (createdLink userId url code stamp), db')
            | .error e => .error e := by
  obtain ⟨account, haccount⟩ := Option.isSome_iff_exists.1 (find?_account.2 huser)
  simp only [createOrRestoreTx, lockAccount, Tx.bind_eq, Tx.acquire_bind, Tx.query_bind,
    Tx.lock_bind, Tx.read_bind, Tx.run_lock, Tx.run_read, haccount, Tx.pure_bind]
  cases hfind : db.findByDestination userId url with
  | some link =>
      cases hstatus : link.status with
      | active => simp [hstatus]
      | deactivated =>
          simp only [hstatus, Tx.run_read, reduceCtorEq, if_false]
          split
          · rfl
          · rfl
  | none =>
      simp only [Tx.run_read]
      split
      · rfl
      · rw [Tx.update_bind, Tx.run_write]
        simp only [createdLink]
        generalize LinksDb.insertLink _ db = inserted
        cases inserted with
        | ok _ => rfl
        | error _ => rfl

/-- `createOrRestore` answers as it does when nothing disturbs it: an account is
found, the new id is new, and the one error it can meet is recovered from. -/
theorem exec_createOrRestore (config : LinksConfig) (url code : String)
    (hfault : o.fault = .none) (huser : userId ∈ s.db.users)
    (hid : ∀ l ∈ s.db.links, l.id ≠ o.stamp.id) :
    LinksService.exec config (.repository (.createOrRestore userId url code)) o s =
      some ((.ok (s.db.createOrRestore userId url code o.stamp).1 :
        LinksStep.Reply (.repository (.createOrRestore userId url code))),
        { s with db := (s.db.createOrRestore userId url code o.stamp).2 }) := by
  have hrun := createOrRestoreTx_run_eq url code o.stamp huser
  rw [LinksDb.createOrRestore]
  cases hfind : s.db.findByDestination userId url with
  | some link =>
      simp only [hfind] at hrun ⊢
      split
      · rename_i hactive
        rw [if_pos hactive] at hrun
        exact exec_of_run config hfault hrun
      rename_i hactive
      rw [if_neg hactive] at hrun
      split
      · rename_i hcount
        rw [if_pos hcount] at hrun
        exact exec_of_run config hfault hrun
      · rename_i hcount
        rw [if_neg hcount] at hrun
        exact exec_of_run config hfault hrun
  | none =>
      simp only [hfind] at hrun ⊢
      split
      · rename_i hcount
        rw [if_pos hcount] at hrun
        exact exec_of_run config hfault hrun
      rename_i hcount
      rw [if_neg hcount] at hrun
      split
      · rename_i hused
        have hinsert : LinksDb.insertLink (createdLink userId url code o.stamp) s.db = .error _ :=
          insertLink_used hid hused
        rw [hinsert] at hrun
        refine (exec_of_run_error config (c := .createOrRestore userId url code) hfault
          hrun).trans ?_
        exact congrArg (fun r => some (r, s)) (if_pos (isShortCodeCollision_shortCode _))
      · rename_i hused
        have hinsert : LinksDb.insertLink (createdLink userId url code o.stamp) s.db = .ok _ :=
          insertLink_free hid (Bool.eq_false_iff.2 hused) hfind
        rw [hinsert] at hrun
        exact exec_of_run config hfault hrun

/-- No storage failure, and PostgreSQL generates a new id. -/
def Undisturbed (_ : LinksStep) (o : LinksOutside) (s : LinksState) : Prop :=
  o.fault = .none ∧ ∀ l ∈ s.db.links, l.id ≠ o.stamp.id

end

/-! ### The attempts -/

def generatedCodes (es : List (LinksStep × LinksOutside)) : List String :=
  es.filterMap fun
    | (.generate, o) => some o.generated
    | _ => none

/-- The generator produces the codes of this sequence. -/
def Draws (codes : ℕ → String) (es : List (LinksStep × LinksOutside)) : Prop :=
  ∀ k code, (generatedCodes es)[k]? = some code → code = codes k

def Used (db : LinksDb) (code : String) : Prop := ∃ l ∈ db.links, l.shortCode = code

instance (db : LinksDb) (code : String) : Decidable (Used db code) :=
  inferInstanceAs (Decidable (∃ l ∈ db.links, l.shortCode = code))

/-- The outcome of `n` attempts of an account that has no link to the destination and
may have another active one. -/
structure Attempts (config : LinksConfig) (db : LinksDb) (userId url : String) (n : ℕ)
    (codes : ℕ → String) (v : LinksResult) (db' : LinksDb) : Prop where
  created : ∀ k < n, (∀ j < k, Used db (codes j)) → ¬ Used db (codes k) →
    ∃ stamp, v = .ok (.createLink (LinksService.toResponse config
      (createdLink userId url (codes k) stamp)) true) ∧
        db' = { db with links := db.links ++ [createdLink userId url (codes k) stamp] }
  exhausted : (∀ j < n, Used db (codes j)) →
    v = .error shortCodeGenerationUnavailableException ∧ db' = db

/-- The outcome of a creation, from the table and the codes of the generator. -/
structure CreateExact (config : LinksConfig) (db : LinksDb) (userId url : String)
    (codes : ℕ → String) (v : LinksResult) (db' : LinksDb) : Prop where
  existing : ∀ link ∈ db.links, link.owned = (userId, url) → link.status = .active →
    v = .ok (.createLink (LinksService.toResponse config link) false) ∧ db' = db
  restored : ∀ link ∈ db.links, link.owned = (userId, url) → link.status = .deactivated →
    db.countActiveLinks userId < MAX_ACTIVE_LINKS_PER_USER →
      ∃ now, v = .ok (.createLink (LinksService.toResponse config (restoredLink link now))
        false) ∧ db' = db.saveLink (restoredLink link now)
  limit : (∀ link ∈ db.links, link.owned = (userId, url) → link.status ≠ .active) →
    db.countActiveLinks userId = MAX_ACTIVE_LINKS_PER_USER →
      v = .error linkLimitReachedException ∧ db' = db
  attempts : (∀ link ∈ db.links, link.owned ≠ (userId, url)) →
    db.countActiveLinks userId < MAX_ACTIVE_LINKS_PER_USER →
      Attempts config db userId url config.maxCodeAttempts codes v db'

section

variable {config : LinksConfig} {userId url code : String} {codes : ℕ → String}
  {db db' : LinksDb} {s s' : LinksState} {v : LinksResult}

theorem db_of_idles (h : (linksService config).Idles s s') : s'.db = s.db :=
  h.invariant (P := fun s' => s'.db = s.db) (fun x _ hs => by cases x <;> exact hs) rfl

theorem used_iff : (db.links.any fun l => l.shortCode == code) = true ↔ Used db code := by
  simp [Used]

/-- A collision is followed by the outcome of the other attempts. -/
theorem Attempts.succ {n : ℕ} (hused : Used db (codes 0))
    (h : Attempts config db userId url n (fun k => codes (k + 1)) v db') :
    Attempts config db userId url (n + 1) codes v db' where
  created k hk hbefore hfree := by
    cases k with
    | zero => exact absurd hused hfree
    | succ k => exact h.created k (by omega) (fun j hj => hbefore (j + 1) (by omega)) hfree
  exhausted hall := h.exhausted fun j hj => hall (j + 1) (by omega)

theorem attempts_of_free {n : ℕ} (hfree : ¬ Used db (codes 0)) (stamp : Stamp) :
    Attempts config db userId url (n + 1) codes
      (.ok (.createLink (LinksService.toResponse config
        (createdLink userId url (codes 0) stamp)) true))
      { db with links := db.links ++ [createdLink userId url (codes 0) stamp] } where
  created k hk hbefore _ := by
    cases k with
    | zero => exact ⟨stamp, rfl, rfl⟩
    | succ k => exact absurd (hbefore 0 (by omega)) hfree
  exhausted hall := absurd (hall 0 (by omega)) hfree

theorem Draws.cons {o o' : LinksOutside} {c : LinksCommand}
    {es : List (LinksStep × LinksOutside)}
    (h : Draws codes ((.generate, o) :: (.repository c, o') :: es)) :
    o.generated = codes 0 ∧ Draws (fun k => codes (k + 1)) es :=
  ⟨h 0 _ rfl, fun k code hk => h (k + 1) code hk⟩

/-- One attempt: a code is drawn and the repository answers. -/
theorem ensures_attempt {ends : List (LinksStep × LinksOutside) → LinksResult → LinksState → Prop}
    {next : (code : String) → LinksStep.Reply (.repository (.createOrRestore userId url code)) →
      LinksProgram} (huser : userId ∈ s.db.users)
    (h : ∀ (o o' : LinksOutside) (s₁ : LinksState), (linksService config).Ensures Undisturbed
      (fun es => ends ((.generate, o) ::
        (.repository (.createOrRestore userId url o.generated), o') :: es))
      (next o.generated (.ok (s.db.createOrRestore userId url o.generated o'.stamp).1))
      { s₁ with db := (s.db.createOrRestore userId url o.generated o'.stamp).2 }) :
    (linksService config).Ensures Undisturbed ends
      (.call .generate fun code =>
        .call (.repository (.createOrRestore userId url code)) (next code)) s := by
  refine Semantics.ensures_call.2 fun s₁ o code s₂ hidle _ hexec => ?_
  obtain ⟨rfl, rfl⟩ := Prod.mk.inj (Option.some.inj hexec)
  refine Semantics.ensures_call.2 fun s₂ o' reply s₃ hidle' hok hexec => ?_
  have hs₂ : s₂.db = s.db := (db_of_idles hidle').trans (db_of_idles hidle)
  obtain ⟨hfault, hid⟩ := hok
  have hanswer := exec_createOrRestore config url o.generated hfault (by rwa [hs₂]) hid
  obtain ⟨rfl, rfl⟩ := Prod.mk.inj (Option.some.inj (hanswer.symm.trans hexec))
  rw [hs₂]
  exact h o o' s₂

theorem createLoop_attempts (n : ℕ) (codes : ℕ → String) (huser : userId ∈ s.db.users)
    (hnone : s.db.findByDestination userId url = none)
    (hcount : s.db.countActiveLinks userId < MAX_ACTIVE_LINKS_PER_USER) :
    (linksService config).Ensures Undisturbed
      (fun es v s' => Draws codes es → Attempts config s.db userId url n codes v s'.db)
      (LinksService.createLoop config userId url n) s := by
  induction n generalizing codes s with
  | zero =>
      refine Semantics.ensures_pure.2 fun s' hidle _ => ⟨nofun, fun _ => ⟨rfl, ?_⟩⟩
      exact db_of_idles hidle
  | succ n ih =>
      refine ensures_attempt huser fun o o' s₁ => ?_
      by_cases hused : Used s.db o.generated
      · have hcollision : s.db.createOrRestore userId url o.generated o'.stamp =
            (.shortCodeCollision, s.db) := by
          simp only [LinksDb.createOrRestore, hnone, if_neg (Nat.not_le.2 hcount),
            used_iff.2 hused, if_true]
        rw [hcollision]
        intro es v s' hrun hdraws
        obtain ⟨hcode, hrest⟩ := hdraws.cons
        exact (ih (s := ⟨s.db, s₁.cache⟩) (fun k => codes (k + 1)) huser hnone hcount es v s'
          hrun hrest).succ (hcode ▸ hused)
      · have hcreated : s.db.createOrRestore userId url o.generated o'.stamp =
            (.created (createdLink userId url o.generated o'.stamp), { s.db with
              links := s.db.links ++ [createdLink userId url o.generated o'.stamp] }) := by
          simp only [LinksDb.createOrRestore, hnone, if_neg (Nat.not_le.2 hcount),
            Bool.eq_false_iff.2 (fun h => hused (used_iff.1 h)), Bool.false_eq_true, if_false]
        rw [hcreated]
        refine Semantics.ensures_pure.2 fun s' hidle hdraws => ?_
        obtain ⟨hcode, -⟩ := hdraws.cons
        rw [db_of_idles hidle, hcode]
        exact attempts_of_free (hcode ▸ hused) o'.stamp

theorem create_createExact (h : Proper s.db) (huser : userId ∈ s.db.users) {raw : String}
    (hurl : createDestinationUrl config.newUrl raw = some url)
    (hattempts : 1 ≤ config.maxCodeAttempts) :
    (linksService config).Ensures Undisturbed
      (fun es v s' => Draws codes es → CreateExact config s.db userId url codes v s'.db)
      (LinksService.create config userId raw) s := by
  simp only [LinksService.create, hurl]
  cases hfind : s.db.findByDestination userId url with
  | none =>
      have hnone : ∀ link ∈ s.db.links, link.owned ≠ (userId, url) := by
        rintro link hlink howned
        obtain ⟨rfl, rfl⟩ := Prod.mk.inj howned
        cases hfind.symm.trans (h.findByDestination hlink)
      by_cases hcount : s.db.countActiveLinks userId < MAX_ACTIVE_LINKS_PER_USER
      · intro es v s' hrun hdraws
        exact ⟨fun link hlink howned => absurd howned (hnone link hlink),
          fun link hlink howned => absurd howned (hnone link hlink), fun _ h => by omega,
          fun _ _ => createLoop_attempts _ codes huser hfind hcount es v s' hrun hdraws⟩
      · obtain ⟨n, hn⟩ := Nat.exists_eq_add_of_le' hattempts
        rw [hn]
        refine ensures_attempt huser fun o o' s₁ => ?_
        have hlimit : s.db.createOrRestore userId url o.generated o'.stamp =
            (.limitReached, s.db) := by
          simp only [LinksDb.createOrRestore, hfind, if_pos (Nat.le_of_not_lt hcount)]
        rw [hlimit]
        refine Semantics.ensures_pure.2 fun s' hidle _ => ?_
        exact ⟨fun link hlink howned => absurd howned (hnone link hlink),
          fun link hlink howned => absurd howned (hnone link hlink),
          fun _ _ => ⟨rfl, (db_of_idles hidle).trans rfl⟩, fun _ h => absurd h hcount⟩
  | some found =>
      obtain ⟨hfound, huser', hurl'⟩ := LinksDb.mem_of_findByDestination hfind
      have howned : found.owned = (userId, url) := Prod.ext huser' hurl'
      have hunique : ∀ link ∈ s.db.links, link.owned = (userId, url) → link = found :=
        fun link hlink h' => List.inj_on_of_nodup_map h.destinations hlink hfound
          (h'.trans howned.symm)
      obtain ⟨n, hn⟩ := Nat.exists_eq_add_of_le' hattempts
      rw [hn]
      refine ensures_attempt huser fun o o' s₁ => ?_
      by_cases hactive : found.status = .active
      · have hexisting : s.db.createOrRestore userId url o.generated o'.stamp =
            (.existing found, s.db) := by
          simp only [LinksDb.createOrRestore, hfind, if_pos hactive]
        rw [hexisting]
        refine Semantics.ensures_pure.2 fun s' hidle _ => ?_
        refine ⟨fun link hlink h' _ => ?_, fun link hlink h' hstatus => ?_,
          fun hnone => absurd hactive (hnone found hfound howned),
          fun hnone => absurd howned (hnone found hfound)⟩
        · obtain rfl := hunique link hlink h'
          exact ⟨rfl, (db_of_idles hidle).trans rfl⟩
        · obtain rfl := hunique link hlink h'
          cases hactive.symm.trans hstatus
      by_cases hcount : s.db.countActiveLinks userId < MAX_ACTIVE_LINKS_PER_USER
      · have hrestored : s.db.createOrRestore userId url o.generated o'.stamp =
            (.reactivated (restoredLink found o'.stamp.now),
              s.db.saveLink (restoredLink found o'.stamp.now)) := by
          simp only [LinksDb.createOrRestore, hfind, if_neg hactive,
            if_neg (Nat.not_le.2 hcount)]
        rw [hrestored]
        refine Semantics.ensures_pure.2 fun s' hidle _ => ?_
        refine ⟨fun link hlink h' hstatus => ?_, fun link hlink h' _ _ => ?_,
          fun _ h => by omega, fun hnone => absurd howned (hnone found hfound)⟩
        · obtain rfl := hunique link hlink h'
          exact absurd hstatus hactive
        · obtain rfl := hunique link hlink h'
          exact ⟨_, rfl, db_of_idles hidle⟩
      · have hlimit : s.db.createOrRestore userId url o.generated o'.stamp =
            (.limitReached, s.db) := by
          simp only [LinksDb.createOrRestore, hfind, if_neg hactive,
            if_pos (Nat.le_of_not_lt hcount)]
        rw [hlimit]
        refine Semantics.ensures_pure.2 fun s' hidle _ => ?_
        refine ⟨fun link hlink h' hstatus => ?_, fun _ _ _ _ h => absurd h hcount,
          fun _ _ => ⟨rfl, (db_of_idles hidle).trans rfl⟩,
          fun hnone => absurd howned (hnone found hfound)⟩
        obtain rfl := hunique link hlink h'
        exact absurd hstatus hactive

/-- Whatever the generator produces, the attempts come to an end. -/
theorem createLoop_executes (n : ℕ) (codes : ℕ → String) {stamp : Stamp}
    (huser : userId ∈ s.db.users) (hid : ∀ l ∈ s.db.links, l.id ≠ stamp.id) :
    ∃ es v s', (linksService config).Executes Undisturbed
      (LinksService.createLoop config userId url n) s es v s' ∧ Draws codes es := by
  induction n generalizing codes s with
  | zero => exact ⟨[], _, s, .pure _ .refl, nofun⟩
  | succ n ih =>
      have hexec := exec_createOrRestore config url (codes 0) (o := ⟨stamp, codes 0, .none⟩)
        rfl huser hid
      have hdraws : ∀ {c es}, Draws (fun k => codes (k + 1)) es → Draws codes
          ((.generate, ⟨stamp, codes 0, .none⟩) ::
            (.repository c, ⟨stamp, codes 0, .none⟩) :: es) := by
        intro c es hes k code hk
        cases k with
        | zero => exact (Option.some.inj hk).symm
        | succ k => exact hes k code hk
      have hcollision : (s.db.createOrRestore userId url (codes 0) stamp).1 =
          .shortCodeCollision → (s.db.createOrRestore userId url (codes 0) stamp).2 = s.db :=
        fun h => (s.db.createOrRestore_collision h).2
      have hattempt : ∀ {rest : LinksStep.Reply (.repository (.createOrRestore userId url
          (codes 0))) → LinksProgram} {es v s'},
          (linksService config).Executes Undisturbed
            (rest (.ok (s.db.createOrRestore userId url (codes 0) stamp).1))
            { s with db := (s.db.createOrRestore userId url (codes 0) stamp).2 } es v s' →
          (linksService config).Executes Undisturbed
            (.call (.repository (.createOrRestore userId url (codes 0))) rest) s
              ((.repository (.createOrRestore userId url (codes 0)), ⟨stamp, codes 0, .none⟩) ::
                es) v s' :=
        fun hrest => .call .refl ⟨rfl, hid⟩ hexec hrest
      generalize s.db.createOrRestore userId url (codes 0) stamp = r at hattempt hcollision
      obtain ⟨result, db⟩ := r
      cases result with
      | created link =>
          exact ⟨_, _, _, .call .refl ⟨rfl, hid⟩ rfl (hattempt (.pure _ .refl)), hdraws nofun⟩
      | existing link =>
          exact ⟨_, _, _, .call .refl ⟨rfl, hid⟩ rfl (hattempt (.pure _ .refl)), hdraws nofun⟩
      | reactivated link =>
          exact ⟨_, _, _, .call .refl ⟨rfl, hid⟩ rfl (hattempt (.pure _ .refl)), hdraws nofun⟩
      | limitReached =>
          exact ⟨_, _, _, .call .refl ⟨rfl, hid⟩ rfl (hattempt (.pure _ .refl)), hdraws nofun⟩
      | shortCodeCollision =>
          obtain rfl : db = s.db := hcollision rfl
          obtain ⟨es, v, s', hrest, hes⟩ := ih (s := ⟨s.db, s.cache⟩)
            (fun k => codes (k + 1)) huser hid
          exact ⟨_, _, _, .call .refl ⟨rfl, hid⟩ rfl (hattempt hrest), hdraws hes⟩

/-- A collision leaves the table alone. -/
theorem exec_shortCodeCollision {o : LinksOutside}
    (hfault : ∀ e, o.fault = .refused e ∨ o.fault = .lost e → isShortCodeCollision e = false)
    (hid : ∀ l ∈ s.db.links, l.id ≠ o.stamp.id)
    (h : LinksService.exec config (.repository (.createOrRestore userId url code)) o s =
      some ((.ok .shortCodeCollision :
        LinksStep.Reply (.repository (.createOrRestore userId url code))), s')) :
    Used s.db code ∧ s' = s := by
  have hnone : ∀ e, o.fault ≠ .refused e ∧ o.fault ≠ .lost e := by
    refine fun e => ⟨fun he => ?_, fun he => ?_⟩
    · simp only [LinksService.exec, he, Fault.apply, LinksCommand.recover,
        hfault e (.inl he)] at h
      cases (Prod.mk.inj (Option.some.inj h)).1
    · simp only [LinksService.exec, he, Fault.apply, LinksCommand.recover,
        hfault e (.inr he)] at h
      cases (Prod.mk.inj (Option.some.inj h)).1
  have hfault : o.fault = .none := by
    cases hf : o.fault with
    | none => rfl
    | refused e => exact absurd hf (hnone e).1
    | lost e => exact absurd hf (hnone e).2
  by_cases huser : userId ∈ s.db.users
  · have hexec := exec_createOrRestore config url code hfault huser hid
    obtain ⟨hreply, rfl⟩ := Prod.mk.inj (Option.some.inj (hexec.symm.trans h))
    obtain ⟨hused, hdb⟩ := s.db.createOrRestore_collision (Except.ok.inj hreply)
    exact ⟨used_iff.1 hused, by rw [hdb]⟩
  · have hrun : (createOrRestoreTx userId url code o.stamp).run s.db =
        .error (.error "Account not found.") := by
      have haccount : s.db.users.find? (· == userId) = none :=
        Option.not_isSome_iff_eq_none.1 (mt find?_account.1 huser)
      simp [createOrRestoreTx, lockAccount, haccount]
    have hexec := exec_of_run_error config (c := .createOrRestore userId url code)
      hfault hrun
    cases (Prod.mk.inj (Option.some.inj (hexec.symm.trans h))).1

end

/-- `create` is exact under collisions, in every table that the service reaches, for
every sequence of codes and as long as no other call writes. -/
theorem create_exact_under_collisions (config : LinksConfig) {users : List String}
    {σ : LinksPool} (hσ : (linksService config).Reaches (fun _ _ => True)
      (Pool.init (LinksState.init users)) σ)
    (userId raw url : String) (huser : userId ∈ users)
    (hurl : createDestinationUrl config.newUrl raw = some url)
    (hattempts : 1 ≤ config.maxCodeAttempts) (codes : ℕ → String) :
    (linksService config).Ensures Undisturbed
      (fun es v s' => Draws codes es →
        CreateExact config σ.shared.db userId url codes v s'.db)
      (LinksService.create config userId raw) σ.shared ∧
    (∀ stamp : Stamp, (∀ l ∈ σ.shared.db.links, l.id ≠ stamp.id) →
      ∃ es v s', (linksService config).Executes Undisturbed
        (LinksService.create config userId raw) σ.shared es v s' ∧ Draws codes es) ∧
    ∀ (userId' url' code : String) (o : LinksOutside) (s' : LinksState),
      (∀ e, o.fault = .refused e ∨ o.fault = .lost e → isShortCodeCollision e = false) →
      (∀ l ∈ σ.shared.db.links, l.id ≠ o.stamp.id) →
      LinksService.exec config (.repository (.createOrRestore userId' url' code)) o σ.shared =
        some ((.ok .shortCodeCollision :
          LinksStep.Reply (.repository (.createOrRestore userId' url' code))), s') →
        Used σ.shared.db code ∧ s' = σ.shared := by
  obtain ⟨hproper, husers⟩ := proper_of_reaches hσ
  have huser' : userId ∈ σ.shared.db.users := husers ▸ huser
  refine ⟨create_createExact hproper huser' hurl hattempts, fun stamp hid => ?_,
    fun _ _ code o s' hfault hid => exec_shortCodeCollision hfault hid⟩
  rw [LinksService.create, hurl]
  exact createLoop_executes config.maxCodeAttempts codes huser' hid

def usedThenFree : ℕ → String
  | 0 => "aaaaaa"
  | _ + 1 => "bbbbbb"

theorem created_at_second_attempt : ∃ es v s',
    (linksService exampleConfig).Executes Undisturbed
      (LinksService.create exampleConfig "u" "https://b.example/") afterCreate.shared es v s' ∧
    ∃ stamp, v = .ok (.createLink (LinksService.toResponse exampleConfig
      (createdLink "u" "https://b.example/" "bbbbbb" stamp)) true) := by
  obtain ⟨hexact, hends, -⟩ := create_exact_under_collisions exampleConfig
    (Semantics.reaches_after _ (by decide) : (linksService exampleConfig).Reaches
      (fun _ _ => True) (Pool.init (LinksState.init ["u"])) afterCreate)
    "u" "https://b.example/" "https://b.example/" (by decide) rfl (by decide) usedThenFree
  obtain ⟨es, v, s', hrun, hdraws⟩ := hends ⟨2, "m"⟩ (by decide)
  obtain ⟨stamp, hv, -⟩ := ((hexact es v s' hrun hdraws).attempts (by decide) (by decide)).created
    1 (by decide) (by decide) (by decide)
  exact ⟨es, v, s', hrun, stamp, hv⟩

end Links

end Shortlink

import Shortlink.LinkStatistics.ExactlyOnce
import Shortlink.Text.Separator

/-!
# Pseudonyms

`visitor-pseudonymizer.service.ts`: the link, the day, the address and the user agent are
joined by `|` and hashed under a secret. Of the four only the user agent may contain the
separator, and it stands last, so that the joined text determines its parts. An `Access`
carries what the pseudonym is made of; the visitors counted on a day of a link are its
distinct pairs of address and user agent.
-/

namespace Shortlink

namespace LinkStatistics

open Shortlink.Storage Shortlink.Transaction Shortlink.Text

/-- `VisitorPseudonymizer.create`, given HMAC-SHA256 under the secret. -/
def VisitorPseudonymizer.create (hmac : String → String)
    (linkId occurredOn ip userAgent : String) : String :=
  let material := linkId ++ "|" ++ occurredOn ++ "|" ++ ip ++ "|" ++ userAgent
  hmac material

section

variable {hmac : String → String} (hinjective : Function.Injective hmac)
include hinjective

theorem create_eq_iff {linkId linkId' occurredOn occurredOn' ip ip' userAgent userAgent' : String}
    (hlink : '|' ∉ linkId.toList) (hlink' : '|' ∉ linkId'.toList)
    (hon : '|' ∉ occurredOn.toList) (hon' : '|' ∉ occurredOn'.toList)
    (hip : '|' ∉ ip.toList) (hip' : '|' ∉ ip'.toList) :
    VisitorPseudonymizer.create hmac linkId occurredOn ip userAgent =
        VisitorPseudonymizer.create hmac linkId' occurredOn' ip' userAgent' ↔
      linkId = linkId' ∧ occurredOn = occurredOn' ∧ ip = ip' ∧ userAgent = userAgent' := by
  rw [VisitorPseudonymizer.create, VisitorPseudonymizer.create, hinjective.eq_iff,
    ← String.toList_inj]
  simp only [String.toList_append, List.append_assoc, List.cons_append, List.nil_append,
    show "|".toList = ['|'] from rfl]
  rw [append_separator_inj hlink hlink', append_separator_inj hon hon',
    append_separator_inj hip hip']
  simp only [String.toList_inj]

end

/-! ### Accesses -/

theorem separator_notMem_padded (width n : ℕ) : '|' ∉ (UtcDate.padded width n).toList := by
  intro h
  rw [UtcDate.padded, String.toList_ofList] at h
  exact absurd (Calendar.digits_padded _ _ _ h) (by decide)

theorem separator_notMem_toIsoString (d : UtcDate) : '|' ∉ d.toIsoString.toList := by
  simp [UtcDate.toIsoString, separator_notMem_padded]

/-- An access, with the request's address and user agent. -/
structure Access where
  eventId : String
  linkId : String
  occurredAt : String
  occurredOn : UtcDate
  country : String
  ip : String
  userAgent : String
  linkId_plain : '|' ∉ linkId.toList
  ip_plain : '|' ∉ ip.toList
  deriving DecidableEq

namespace Access

/-- What the collector is given. -/
def input (hmac : String → String) (a : Access) : AccessEventInput where
  eventId := a.eventId
  linkId := a.linkId
  occurredAt := a.occurredAt
  occurredOn := a.occurredOn
  country := a.country
  visitorPseudonym := VisitorPseudonymizer.create hmac a.linkId a.occurredOn.toIsoString a.ip
    a.userAgent

def linkDay (a : Access) : LinkDay := (a.linkId, a.occurredOn)

/-- The pair that tells visitors apart. -/
def client (a : Access) : String × String := (a.ip, a.userAgent)

variable {hmac : String → String} {a b : Access}

@[simp] theorem eventId_input : (a.input hmac).eventId = a.eventId := rfl

@[simp] theorem linkDay_input : (a.input hmac).linkDay = a.linkDay := rfl

/-- On one day of a link the pseudonyms tell apart what the clients do. -/
theorem visitorPseudonym_eq_iff (hinjective : Function.Injective hmac)
    (hday : a.linkDay = b.linkDay) :
    (a.input hmac).visitorPseudonym = (b.input hmac).visitorPseudonym ↔
      a.client = b.client := by
  have hlink : a.linkId = b.linkId := congrArg Prod.fst hday
  have hon : a.occurredOn = b.occurredOn := congrArg Prod.snd hday
  rw [input, input, create_eq_iff hinjective a.linkId_plain b.linkId_plain
    (separator_notMem_toIsoString _) (separator_notMem_toIsoString _) a.ip_plain b.ip_plain]
  simp [hlink, hon, client]

end Access

/-- Two functions that identify the same elements have as many values. -/
theorem card_image_congr {α β γ : Type} [DecidableEq α] [DecidableEq β] [DecidableEq γ]
    {f : α → β} {g : α → γ} {s : Finset α}
    (h : ∀ a ∈ s, ∀ b ∈ s, f a = f b ↔ g a = g b) : (s.image f).card = (s.image g).card := by
  induction s using Finset.induction_on with
  | empty => rfl
  | insert a s ha ih =>
      have hmem : f a ∈ s.image f ↔ g a ∈ s.image g := by
        simp only [Finset.mem_image]
        refine exists_congr fun b => and_congr_right fun hb => ?_
        exact h b (Finset.mem_insert_of_mem hb) a (Finset.mem_insert_self a s)
      have hrest := ih fun b hb c hc =>
        h b (Finset.mem_insert_of_mem hb) c (Finset.mem_insert_of_mem hc)
      rw [Finset.image_insert, Finset.image_insert, Finset.card_insert_eq_ite,
        Finset.card_insert_eq_ite, hrest]
      simp only [hmem]

/-! ### The accesses of a run -/

def payloadOf (hmac : String → String) (accesses : List Access) (id : String) :
    AccessEventInput :=
  ((accesses.find? fun a => a.eventId = id).map (Access.input hmac)).getD
    ⟨id, "", "", ⟨0, 0, 0⟩, "", ""⟩

section

variable {hmac : String → String} {accesses : List Access}

theorem eventId_payloadOf (id : String) : (payloadOf hmac accesses id).eventId = id := by
  rw [payloadOf]
  cases hfind : accesses.find? fun a => a.eventId = id with
  | none => rfl
  | some a => simpa using List.find?_some hfind

/-- Event ids are drawn for one access each. -/
theorem payloadOf_eventId (hids : ∀ a ∈ accesses, ∀ b ∈ accesses, a.eventId = b.eventId → a = b)
    {a : Access} (ha : a ∈ accesses) :
    payloadOf hmac accesses a.eventId = a.input hmac := by
  rw [payloadOf]
  cases hfind : accesses.find? fun b => b.eventId = a.eventId with
  | none => exact absurd (List.find?_eq_none.1 hfind a ha) (by simp)
  | some b =>
      have hid : b.eventId = a.eventId := by simpa using List.find?_some hfind
      rw [hids b (List.mem_of_find?_eq_some hfind) a ha hid]
      rfl

def MayRecord (call : StatisticsCall) (c : StatisticsCommand) : Prop :=
  ∀ input, c = .recordAccess input → call.Records input

theorem body_records (call : StatisticsCall) :
    call.program.Sat (fun _ _ => True) (MayRecord call) fun _ => True := by
  refine call.issues (fun input hrecords input' h => ?_)
    fun before _ => ⟨fun _ h => (by cases h), fun _ _ h => (by cases h)⟩
  cases h
  exact hrecords

variable {hashtext : String → ℤ} {σ : StatisticsState}

theorem recorded_access
    (h : (statistics hashtext).Reaches (State.init StatisticsDb.empty) σ)
    (hcalls : ∀ cl ∈ σ.clients, ∀ input, cl.call.Records input →
      ∃ a ∈ accesses, input = a.input hmac) :
    ∀ r ∈ σ.log, ∀ input, r.command = .recordAccess input →
      ∃ a ∈ accesses, input = a.input hmac := by
  intro r hr input hinput
  have hissued := h.issued MayRecord body_records (Issued.init StatisticsDb.empty)
  obtain ⟨cl, hcl, hmay⟩ := hissued.log r hr
  exact hcalls cl (List.mem_of_getElem? hcl) input (hmay input hinput)

/-- When no day is closed, the counted accesses are those of which an attempt has
committed. -/
theorem countedIds_eq
    (hids : ∀ a ∈ accesses, ∀ b ∈ accesses, a.eventId = b.eventId → a = b)
    (h : (statistics hashtext).Reaches (State.init StatisticsDb.empty) σ)
    (hcalls : ∀ cl ∈ σ.clients, ∀ input, cl.call.Records input →
      ∃ a ∈ accesses, input = a.input hmac)
    (hcommitted : ∀ a ∈ accesses, ∃ r ∈ σ.log, commits (a.input hmac) r = true)
    (hopen : ∀ r ∈ σ.log, ∀ linkDay, closes linkDay r = false) :
    countedIds σ.log = (accesses.map Access.eventId).toFinset := by
  have hrecorded := recorded_access h hcalls
  have hlog : ∀ r ∈ σ.log, ∀ input, r.command = .recordAccess input →
      input = payloadOf hmac accesses input.eventId := by
    intro r hr input hinput
    obtain ⟨a, ha, rfl⟩ := hrecorded r hr input hinput
    exact (payloadOf_eventId hids ha).symm
  refine Finset.ext fun id => ?_
  rw [mem_countedIds_iff eventId_payloadOf hlog, List.mem_toFinset, List.mem_map]
  constructor
  · rintro ⟨l₂, r, l₁, hsplit, hcommits, -⟩
    obtain ⟨i, o, x, wrote, rfl⟩ := commits_eq_true_iff.1 hcommits
    obtain ⟨a, ha, hinput⟩ := hrecorded _
      (hsplit ▸ List.mem_append_right l₂ List.mem_cons_self) _ rfl
    exact ⟨a, ha, (congrArg AccessEventInput.eventId hinput).symm.trans (eventId_payloadOf id)⟩
  · rintro ⟨a, ha, rfl⟩
    obtain ⟨r, hr, hcommits⟩ := hcommitted a ha
    obtain ⟨l₂, l₁, hsplit⟩ := List.append_of_mem hr
    refine ⟨l₂, r, l₁, hsplit, ?_, fun r' hr' => hopen r' ?_ _⟩
    · rw [payloadOf_eventId hids ha]
      exact hcommits
    · rw [hsplit]
      exact List.mem_append_right l₂ (List.mem_cons_of_mem r hr')

theorem carries_payloadOf
    (hids : ∀ a ∈ accesses, ∀ b ∈ accesses, a.eventId = b.eventId → a = b)
    {call : StatisticsCall}
    (h : ∀ input, call.Records input → ∃ a ∈ accesses, input = a.input hmac) :
    Carries (payloadOf hmac accesses) call := by
  have hpayload : ∀ input, call.Records input →
      input = payloadOf hmac accesses input.eventId := by
    intro input hinput
    obtain ⟨a, ha, rfl⟩ := h input hinput
    exact (payloadOf_eventId hids ha).symm
  cases call with
  | recordAccess input => exact hpayload input rfl
  | process job => exact hpayload job.data rfl
  | finalizeDays before => trivial

end

/-- The distinct clients among the accesses of a day. -/
def clientsOf (accesses : List Access) (linkDay : LinkDay) : Finset (String × String) :=
  ((accesses.filter fun a => a.linkDay = linkDay).map Access.client).toFinset

/-- The pseudonyms of a day are as many as its clients. -/
theorem card_pseudonyms {hmac : String → String} (hinjective : Function.Injective hmac)
    {accesses : List Access}
    (hids : ∀ a ∈ accesses, ∀ b ∈ accesses, a.eventId = b.eventId → a = b) {linkDay : LinkDay} :
    ((((accesses.map Access.eventId).toFinset.filter fun id =>
      (payloadOf hmac accesses id).linkDay = linkDay).image fun id =>
        (payloadOf hmac accesses id).visitorPseudonym).card) =
      (clientsOf accesses linkDay).card := by
  have himage : (((accesses.map Access.eventId).toFinset.filter fun id =>
      (payloadOf hmac accesses id).linkDay = linkDay).image fun id =>
        (payloadOf hmac accesses id).visitorPseudonym) =
      (accesses.filter fun a => a.linkDay = linkDay).toFinset.image fun a =>
        (a.input hmac).visitorPseudonym := by
    ext pseudonym
    simp only [Finset.mem_image, Finset.mem_filter, List.mem_toFinset, List.mem_map,
      List.mem_filter, decide_eq_true_eq]
    constructor
    · rintro ⟨id, ⟨⟨a, ha, rfl⟩, hday⟩, rfl⟩
      rw [payloadOf_eventId hids ha] at hday ⊢
      exact ⟨a, ⟨ha, hday⟩, rfl⟩
    · rintro ⟨a, ⟨ha, hday⟩, rfl⟩
      refine ⟨a.eventId, ⟨⟨a, ha, rfl⟩, ?_⟩, ?_⟩
      · rw [payloadOf_eventId hids ha]
        exact hday
      · rw [payloadOf_eventId hids ha]
  have hclients : clientsOf accesses linkDay =
      (accesses.filter fun a => a.linkDay = linkDay).toFinset.image Access.client := by
    ext c
    simp [clientsOf]
  rw [himage, hclients]
  refine card_image_congr fun a ha b hb => Access.visitorPseudonym_eq_iff hinjective ?_
  simp only [List.mem_toFinset, List.mem_filter, decide_eq_true_eq] at ha hb
  exact ha.2.trans hb.2.symm

/-- Two accesses have one pseudonym when link, day, address and user agent agree, and after
any run that has recorded the accesses of a list, the unique visitors of a day of a link
are the distinct pairs of address and user agent of its accesses. -/
theorem pseudonyms_separate_visitors (hashtext : String → ℤ) {hmac : String → String}
    (hinjective : Function.Injective hmac) :
    (∀ linkId linkId' occurredOn occurredOn' ip ip' userAgent userAgent' : String,
      '|' ∉ linkId.toList → '|' ∉ linkId'.toList → '|' ∉ occurredOn.toList →
      '|' ∉ occurredOn'.toList → '|' ∉ ip.toList → '|' ∉ ip'.toList →
        (VisitorPseudonymizer.create hmac linkId occurredOn ip userAgent =
            VisitorPseudonymizer.create hmac linkId' occurredOn' ip' userAgent' ↔
          linkId = linkId' ∧ occurredOn = occurredOn' ∧ ip = ip' ∧
            userAgent = userAgent')) ∧
    ∀ (accesses : List Access) (σ : StatisticsState),
      (∀ a ∈ accesses, ∀ b ∈ accesses, a.eventId = b.eventId → a = b) →
      (statistics hashtext).Reaches (State.init StatisticsDb.empty) σ →
      (∀ cl ∈ σ.clients, ∀ input, cl.call.Records input →
        ∃ a ∈ accesses, input = a.input hmac) →
      (∀ a ∈ accesses, ∃ r ∈ σ.log, commits (a.input hmac) r = true) →
      (∀ r ∈ σ.log, ∀ linkDay, closes linkDay r = false) →
      ∀ linkDay, (σ.db.dailyVisits fun k => k.1 = linkDay) =
        (clientsOf accesses linkDay).card := by
  refine ⟨fun _ _ _ _ _ _ _ _ hlink hlink' hon hon' hip hip' =>
    create_eq_iff hinjective hlink hlink' hon hon' hip hip', ?_⟩
  intro accesses σ hids h hcalls hcommitted hopen linkDay
  have hcarries : ∀ cl ∈ σ.clients, Carries (payloadOf hmac accesses) cl.call :=
    fun cl hcl => carries_payloadOf hids (hcalls cl hcl)
  have htally := tally_of_reaches h hcarries
  have hnone : ∀ linkDay, σ.db.findDay linkDay = none := by
    intro linkDay
    rw [htally.closed]
    exact List.any_eq_false.2 fun r hr => by simp [hopen r hr]
  rw [htally.visits_day (consistent_of_reaches h) hnone,
    countedIds_eq hids h hcalls hcommitted hopen]
  exact card_pseudonyms hinjective hids

/-- An access of the first of January, from one address. -/
def newYearVisit (eventId userAgent : String) : Access where
  eventId := eventId
  linkId := "l"
  occurredAt := "2026-01-01T00:00:00Z"
  occurredOn := ⟨2026, 1, 1⟩
  country := "BR"
  ip := "203.0.113.7"
  userAgent := userAgent
  linkId_plain := by decide
  ip_plain := by decide

/-- Two accesses by one visitor and a third by another one. -/
def newYearVisits : List Access :=
  [newYearVisit "e0" "a|b", newYearVisit "e1" "a|b", newYearVisit "e2" "b"]

/-- The delivery of an access to a client, from its start to its commit. -/
def delivery (k : ℕ) (a : Access) : List (Action StatisticsCall ℕ StorageError) :=
  [.spawn (.process ⟨RECORD_LINK_ACCESS_JOB, a.input id⟩), .begin k 0] ++
    List.replicate 11 (.advance k) ++ [.commit k]

/-- The three accesses are delivered one after the other. -/
def threeVisits : StatisticsState :=
  (statistics fun _ => 0).after
    (delivery 0 (newYearVisit "e0" "a|b") ++ delivery 1 (newYearVisit "e1" "a|b") ++
      delivery 2 (newYearVisit "e2" "b"))
    (State.init StatisticsDb.empty)

set_option maxRecDepth 4000 in
theorem threeVisits_two_visitors :
    (threeVisits.db.dailyVisits fun k => k.1 = ("l", ⟨2026, 1, 1⟩)) =
        (clientsOf newYearVisits ("l", ⟨2026, 1, 1⟩)).card ∧
      (clientsOf newYearVisits ("l", ⟨2026, 1, 1⟩)).card = 2 ∧
      VisitorPseudonymizer.create id "l" "2026-01-01" "203.0.113.7" "a|b" ≠
        VisitorPseudonymizer.create id "l" "2026-01-01" "203.0.113.7" "b" := by
  have hiff := (pseudonyms_separate_visitors (fun _ => 0) Function.injective_id).1
    "l" "l" "2026-01-01" "2026-01-01" "203.0.113.7" "203.0.113.7" "a|b" "b" (by decide)
    (by decide) (by decide) (by decide) (by decide) (by decide)
  have hrun : (statistics fun _ => 0).Reaches (State.init StatisticsDb.empty) threeVisits :=
    System.reaches_after _ _ _
  have hcalls : ∀ cl ∈ threeVisits.clients, ∀ input, cl.call.Records input →
      ∃ a ∈ newYearVisits, input = a.input id := by
    have hprocess : ∀ cl ∈ threeVisits.clients, ∃ a ∈ newYearVisits,
        cl.call = .process ⟨RECORD_LINK_ACCESS_JOB, a.input id⟩ := by decide
    intro cl hcl input hrecords
    obtain ⟨a, ha, hcall⟩ := hprocess cl hcl
    rw [hcall] at hrecords
    exact ⟨a, ha, hrecords.symm⟩
  have hopen : ∀ r ∈ threeVisits.log, ∀ linkDay, closes linkDay r = false := by
    have hrecord : ∀ r ∈ threeVisits.log, ∃ a ∈ newYearVisits,
        r.command = .recordAccess (a.input id) := by decide
    rintro ⟨i, c, o, reply, wrote⟩ hr linkDay
    obtain ⟨a, -, hc⟩ := hrecord _ hr
    obtain rfl : c = .recordAccess (a.input id) := hc
    cases reply with
    | ok x => rfl
    | error e => rfl
  have hcount := (pseudonyms_separate_visitors (fun _ => 0) Function.injective_id).2
    newYearVisits threeVisits (by decide) hrun hcalls (by decide) hopen ("l", ⟨2026, 1, 1⟩)
  exact ⟨hcount, by decide, fun heq => absurd (hiff.1 heq).2.2.2 (by decide)⟩

end LinkStatistics

end Shortlink

import Shortlink.LinkStatistics.Consistency
import Shortlink.Transaction.Issued
import Mathlib.Data.Finset.Card

/-!
# Every access is counted once

The queue delivers a job any number of times and in any order, and attempts
abort and are retried. `countedIds log` are the accesses of which an attempt has
committed before their day was closed. The counters count these accesses, each
once: as long as the day is open the event row of a counted access is there
(`Tally.kept`), and when finalisation has deleted it the day is closed.
-/

namespace Shortlink

namespace LinkStatistics

open Shortlink.Storage Shortlink.Table Shortlink.Transaction
open Shortlink.Interaction

/-- An attempt to record the access that has committed. -/
def commits (input : AccessEventInput) : StatisticsRecord → Bool
  | ⟨_, .recordAccess input', _, .ok _, _⟩ => decide (input' = input)
  | _ => false

def closes (linkDay : LinkDay) : StatisticsRecord → Bool
  | ⟨_, .finalizeDay linkDay', _, .ok _, _⟩ => decide (linkDay' = linkDay)
  | _ => false

/-- The accesses of which an attempt has committed while their day was open. -/
def countedIds : List StatisticsRecord → Finset String
  | [] => ∅
  | ⟨_, .recordAccess input, _, .ok _, _⟩ :: log =>
      if log.any (closes input.linkDay) then countedIds log
      else insert input.eventId (countedIds log)
  | _ :: log => countedIds log

section

variable {log : List StatisticsRecord} {r : StatisticsRecord} {i o : ℕ}
  {wrote : Bool} {input : AccessEventInput} {linkDay : LinkDay}

theorem countedIds_cons_error {c : StatisticsCommand} {e : StorageError} :
    countedIds (⟨i, c, o, .error e, wrote⟩ :: log) = countedIds log := by
  cases c <;> rfl

/-- An attempt on a closed day or for a counted access changes nothing. -/
theorem countedIds_cons_known
    (h : log.any (closes input.linkDay) = true ∨ input.eventId ∈ countedIds log)
    {a : (StatisticsCommand.recordAccess input).Res} :
    countedIds (⟨i, .recordAccess input, o, .ok a, wrote⟩ :: log) =
      countedIds log := by
  simp only [countedIds]
  split
  · rfl
  · rename_i hopen
    exact Finset.insert_eq_of_mem (h.resolve_left hopen)

theorem countedIds_cons_open (h : log.any (closes input.linkDay) = false)
    {a : (StatisticsCommand.recordAccess input).Res} :
    countedIds (⟨i, .recordAccess input, o, .ok a, wrote⟩ :: log) =
      insert input.eventId (countedIds log) := by
  simp [countedIds, h]

theorem countedIds_subset_cons : countedIds log ⊆ countedIds (r :: log) := by
  obtain ⟨i, c, o, reply, wrote⟩ := r
  cases reply with
  | error e => rw [countedIds_cons_error]
  | ok a =>
      cases c with
      | recordAccess input =>
          simp only [countedIds]
          split
          · exact Finset.Subset.refl _
          · exact Finset.subset_insert _ _
      | findCandidates before => exact Finset.Subset.refl _
      | finalizeDay linkDay => exact Finset.Subset.refl _

theorem countedIds_mono {l₁ l₂ : List StatisticsRecord} (h : l₁ <:+ l₂) :
    countedIds l₁ ⊆ countedIds l₂ := by
  obtain ⟨l, rfl⟩ := h
  induction l with
  | nil => exact Finset.Subset.refl _
  | cons r l ih => exact ih.trans countedIds_subset_cons

theorem commits_eq_true_iff :
    commits input r = true ↔
      ∃ i o a wrote, r = ⟨i, .recordAccess input, o, .ok a, wrote⟩ := by
  constructor
  · intro h
    obtain ⟨i, c, o, reply, wrote⟩ := r
    cases reply with
    | error e => cases c <;> cases h
    | ok a =>
        cases c with
        | recordAccess input' =>
            obtain rfl := of_decide_eq_true h
            exact ⟨i, o, a, wrote, rfl⟩
        | findCandidates before => cases h
        | finalizeDay linkDay => cases h
  · rintro ⟨i, o, a, wrote, rfl⟩
    exact decide_eq_true rfl

end

/-- The jobs and the calls carry the payload of their event. -/
def Carries (payload : String → AccessEventInput) : StatisticsCall → Prop
  | .recordAccess input => input = payload input.eventId
  | .process job => job.data = payload job.data.eventId
  | .finalizeDays _ => True

instance (payload : String → AccessEventInput) (call : StatisticsCall) :
    Decidable (Carries payload call) :=
  match call with
  | .recordAccess input =>
      inferInstanceAs (Decidable (input = payload input.eventId))
  | .process job =>
      inferInstanceAs (Decidable (job.data = payload job.data.eventId))
  | .finalizeDays _ => isTrue trivial

def MayIssue (payload : String → AccessEventInput) (call : StatisticsCall)
    (c : StatisticsCommand) : Prop :=
  ∀ input, c = .recordAccess input → Carries payload call →
    input = payload input.eventId

theorem body_issues (payload : String → AccessEventInput) (call : StatisticsCall) :
    call.program.Sat (fun _ _ => True) (MayIssue payload call) fun _ => True := by
  refine call.issues (fun input hrecords input' h hcall => ?_)
    fun before _ => ⟨fun _ h => (by cases h), fun _ _ h => (by cases h)⟩
  obtain rfl := StatisticsCommand.recordAccess.inj h
  cases call with
  | recordAccess input' => exact hrecords ▸ hcall
  | process job => exact hrecords ▸ hcall
  | finalizeDays before => exact hrecords.elim

/-- The accesses recorded by calls that carry the payload are those of the
payload. -/
theorem recorded_payload {hashtext : String → ℤ}
    {payload : String → AccessEventInput} {σ : StatisticsState}
    (h : (statistics hashtext).Reaches (State.init StatisticsDb.empty) σ)
    (hpayload : ∀ cl ∈ σ.clients, Carries payload cl.call) :
    ∀ r ∈ σ.log, ∀ input, r.command = .recordAccess input →
      input = payload input.eventId := by
  intro r hr input hinput
  have hissued := h.issued (MayIssue payload) (body_issues payload)
    (Issued.init StatisticsDb.empty)
  obtain ⟨cl, hcl, hmay⟩ := hissued.log r hr
  exact hmay input hinput (hpayload cl (List.mem_of_getElem? hcl))

/-- An access is counted when an attempt has committed before a transaction closed
its day. -/
theorem mem_countedIds_iff {payload : String → AccessEventInput}
    (hid : ∀ id, (payload id).eventId = id) {log : List StatisticsRecord}
    (hlog : ∀ r ∈ log, ∀ input, r.command = .recordAccess input →
      input = payload input.eventId) {id : String} :
    id ∈ countedIds log ↔
      ∃ l₂ r l₁, log = l₂ ++ r :: l₁ ∧ commits (payload id) r = true ∧
        ∀ r' ∈ l₁, closes (payload id).linkDay r' = false := by
  constructor
  · intro hmem
    induction log with
    | nil => simp [countedIds] at hmem
    | cons r log ih =>
        have hrest : ∀ r ∈ log, ∀ input, r.command = .recordAccess input →
            input = payload input.eventId :=
          fun r hr => hlog r (List.mem_cons_of_mem _ hr)
        by_cases hold : id ∈ countedIds log
        · obtain ⟨l₂, r₁, l₁, rfl, h⟩ := ih hrest hold
          exact ⟨r :: l₂, r₁, l₁, rfl, h⟩
        · obtain ⟨i, c, o, reply, wrote⟩ := r
          cases reply with
          | error e => exact absurd (countedIds_cons_error ▸ hmem) hold
          | ok a =>
              cases c with
              | findCandidates before => exact absurd hmem hold
              | finalizeDay linkDay => exact absurd hmem hold
              | recordAccess input =>
                  have hinput : input = payload input.eventId :=
                    hlog _ List.mem_cons_self input rfl
                  cases hopen : log.any (closes input.linkDay) with
                  | true => exact absurd (countedIds_cons_known (.inl hopen) ▸ hmem) hold
                  | false =>
                      rw [countedIds_cons_open hopen] at hmem
                      obtain rfl := (Finset.mem_insert.1 hmem).resolve_right hold
                      rw [hinput] at hopen ⊢
                      rw [hid]
                      refine ⟨[], _, log, rfl, decide_eq_true rfl, ?_⟩
                      simpa [hid] using List.any_eq_false.1 hopen
  · rintro ⟨l₂, r, l₁, rfl, hcommits, hopen⟩
    obtain ⟨i, o, a, wrote, rfl⟩ := commits_eq_true_iff.1 hcommits
    have hany : l₁.any (closes (payload id).linkDay) = false :=
      List.any_eq_false.2 fun r' hr' => by simp [hopen r' hr']
    refine countedIds_mono (List.suffix_append l₂ _) ?_
    rw [countedIds_cons_open hany, hid]
    exact Finset.mem_insert_self _ _

/-! ### The counters of a serial history -/

/-- What the log says about the tables. -/
structure Tally (payload : String → AccessEventInput)
    (log : List StatisticsRecord) (db : StatisticsDb) : Prop where
  closed : ∀ linkDay,
    db.findDay linkDay = none ↔ log.any (closes linkDay) = false
  events : ∀ e ∈ db.events, e = (payload e.id).event ∧ e.id ∈ countedIds log
  kept : ∀ id ∈ countedIds log, db.findDay (payload id).linkDay = none →
    db.hasEvent id = true
  accesses : ∀ q : LinkDay × String → Bool, db.dailyAccesses q =
    ((countedIds log).filter fun id =>
      q ((payload id).linkDay, (payload id).country) = true).card

namespace Tally

open StatisticsDb

variable {payload : String → AccessEventInput} {log : List StatisticsRecord}
  {db : StatisticsDb} {r : StatisticsRecord}

theorem empty (payload : String → AccessEventInput) :
    Tally payload [] StatisticsDb.empty where
  closed linkDay := by
    simp [findDay, StatisticsDb.empty]
  events e he := by cases he
  kept id hid := by simp [countedIds] at hid
  accesses q := rfl

theorem mem_of_hasEvent (h : Tally payload log db) {id : String}
    (hevent : db.hasEvent id = true) : id ∈ countedIds log := by
  obtain ⟨e, he, heq⟩ := List.any_eq_true.1 hevent
  rw [← beq_iff_eq.1 heq]
  exact (h.events e he).2

/-- A transaction without effect on the tables and on what is counted. -/
theorem skip (h : Tally payload log db)
    (hcount : countedIds (r :: log) = countedIds log)
    (hcloses : ∀ linkDay, closes linkDay r = true →
      log.any (closes linkDay) = true) : Tally payload (r :: log) db where
  closed linkDay := by
    rw [h.closed, List.any_cons]
    cases hr : closes linkDay r with
    | false => rfl
    | true => simp [hcloses linkDay hr]
  events := hcount ▸ h.events
  kept := hcount ▸ h.kept
  accesses := hcount ▸ h.accesses

/-- An attempt that finds its day closed or its event counted. -/
theorem known (h : Tally payload log db) {i o : ℕ} {wrote : Bool}
    {input : AccessEventInput} {a : (StatisticsCommand.recordAccess input).Res}
    (hknown : log.any (closes input.linkDay) = true ∨
      input.eventId ∈ countedIds log) :
    Tally payload (⟨i, .recordAccess input, o, .ok a, wrote⟩ :: log) db :=
  h.skip (countedIds_cons_known hknown) fun _ hcloses => by cases hcloses

/-- An attempt that counts the access. -/
theorem counted (h : Tally payload log db)
    (hkeys : db.AggregateKeys) {i o : ℕ} {wrote : Bool}
    {input : AccessEventInput} {a : (StatisticsCommand.recordAccess input).Res}
    (hinput : input = payload input.eventId)
    (hday : db.findDay input.linkDay = none)
    (hevent : db.hasEvent input.eventId = false) :
    Tally payload (⟨i, .recordAccess input, o, .ok a, wrote⟩ :: log)
      (db.countAccess input) := by
  have hopen := (h.closed input.linkDay).1 hday
  have hnew : input.eventId ∉ countedIds log := by
    intro hmem
    have hkept := h.kept _ hmem (hinput ▸ hday)
    rw [hevent] at hkept
    cases hkept
  have hcount : countedIds (⟨i, .recordAccess input, o, .ok a, wrote⟩ :: log) =
      insert input.eventId (countedIds log) := countedIds_cons_open hopen
  refine ⟨?_, ?_, ?_, ?_⟩
  · intro linkDay
    rw [findDay_countAccess, h.closed]
    rfl
  · intro e he
    rw [events_countAccess] at he
    rw [hcount]
    rcases List.mem_append.1 he with he | he
    · exact ⟨(h.events e he).1, Finset.mem_insert_of_mem (h.events e he).2⟩
    · obtain rfl := List.mem_singleton.1 he
      exact ⟨congrArg AccessEventInput.event hinput, Finset.mem_insert_self _ _⟩
  · intro id hmem hopen'
    rw [findDay_countAccess] at hopen'
    rw [hasEvent, events_countAccess, List.any_append]
    rw [hcount] at hmem
    rcases Finset.mem_insert.1 hmem with rfl | hmem
    · have hself : (input.event.id == input.eventId) = true := beq_self_eq_true _
      simp [hself]
    · have hkept : db.events.any (fun e => e.id == id) = true :=
        h.kept id hmem hopen'
      simp [hkept]
  · intro q
    rw [dailyAccesses_countAccess hkeys, h.accesses, hcount, Finset.filter_insert,
      ← hinput]
    split
    · rw [Finset.card_insert_of_notMem]
      exact fun hmem => hnew (Finset.mem_filter.1 hmem).1
    · rfl

/-- A transaction that closes a day. -/
theorem close (h : Tally payload log db) {i finalizedAt : ℕ} {wrote : Bool}
    {linkDay : LinkDay} {a : (StatisticsCommand.finalizeDay linkDay).Res} :
    Tally payload (⟨i, .finalizeDay linkDay, finalizedAt, .ok a, wrote⟩ :: log)
      (db.close linkDay finalizedAt) := by
  refine ⟨?_, ?_, ?_, ?_⟩
  · intro linkDay'
    rw [findDay_close_eq_none_iff, h.closed, List.any_cons, Bool.or_eq_false_iff]
    refine and_congr_left fun _ => ?_
    simp [closes, eq_comm]
  · intro e he
    rw [events_close] at he
    exact h.events e (List.mem_filter.1 he).1
  · intro id hmem hopen
    obtain ⟨hne, hopen⟩ := findDay_close_eq_none_iff.1 hopen
    obtain ⟨e, he, heq⟩ := List.any_eq_true.1 (h.kept id hmem hopen)
    have hday : e.linkDay = (payload id).linkDay := by
      rw [(h.events e he).1, beq_iff_eq.1 heq, AccessEventInput.linkDay_event]
    rw [hasEvent, events_close, List.any_filter]
    refine List.any_eq_true.2 ⟨e, he, ?_⟩
    simp [hday, hne, beq_iff_eq.1 heq]
  · intro q
    rw [StatisticsDb.dailyAccesses, dailyAggregates_close]
    exact h.accesses q

/-- A committed attempt, executed alone. -/
theorem record (h : Tally payload log db) (hkeys : db.AggregateKeys) {i o : ℕ}
    {wrote : Bool} {input : AccessEventInput}
    {a : (StatisticsCommand.recordAccess input).Res}
    (hinput : input = payload input.eventId) :
    Tally payload (⟨i, .recordAccess input, o, .ok a, wrote⟩ :: log)
      (db.record input) := by
  rw [StatisticsDb.record]
  cases hday : db.findDay input.linkDay with
  | some day =>
      have hclosed : log.any (closes input.linkDay) = true := by
        rw [← Bool.not_eq_false, ← h.closed, hday]
        exact Option.some_ne_none day
      exact h.known (.inl hclosed)
  | none =>
      cases hevent : db.hasEvent input.eventId with
      | true => exact h.known (.inr (h.mem_of_hasEvent hevent))
      | false => exact h.counted hkeys hinput hday hevent

/-- An attempt without effect found its day closed or its event counted. -/
theorem known_of_record (h : Tally payload log db) {input : AccessEventInput}
    (hsame : db = db.record input) :
    log.any (closes input.linkDay) = true ∨
      input.eventId ∈ countedIds log := by
  rw [StatisticsDb.record] at hsame
  split at hsame
  · rename_i hknown
    rcases Bool.or_eq_true_iff.1 hknown with hday | hevent
    · left
      rw [← Bool.not_eq_false, ← h.closed]
      intro hnone
      rw [hnone] at hday
      cases hday
    · exact .inr (h.mem_of_hasEvent hevent)
  · have hlen := congrArg (fun d => d.events.length) hsame
    simp at hlen

end Tally

theorem any_of_suffix {p : StatisticsRecord → Bool} {l₁ l₂ : List StatisticsRecord}
    (h : l₁ <:+ l₂) (hany : l₁.any p = true) : l₂.any p = true := by
  obtain ⟨r, hr, hp⟩ := List.any_eq_true.1 hany
  exact List.any_eq_true.2 ⟨r, h.subset hr, hp⟩

/-- The log of a serial history, whose transactions without writes have read
some state of it, tells what the tables count. -/
theorem tally_of_serial {hashtext : String → ℤ}
    {payload : String → AccessEventInput} {log : List StatisticsRecord}
    {db : StatisticsDb}
    (h : Serial (statistics hashtext) StatisticsDb.empty [] log db)
    (hreads : ∀ l₁ l₂ r a, log = l₂ ++ r :: l₁ → r.wrote = false →
      r.reply = .ok a → ReadPoint (statistics hashtext) StatisticsDb.empty l₁
        r.command r.outside a)
    (hpayload : ∀ r ∈ log, ∀ input, r.command = .recordAccess input →
      input = payload input.eventId) : Tally payload log db := by
  -- the state a transaction has read belongs to a shorter log
  induction hn : log.length using Nat.strong_induction_on generalizing log db with
  | _ n ih =>
  have hshorter : ∀ {l₁ : List StatisticsRecord} {r} {d : StatisticsDb},
      log = r :: l₁ → ∀ {l : List StatisticsRecord}, l <:+ l₁ →
        Serial (statistics hashtext) StatisticsDb.empty [] l d →
          Tally payload l d := by
    rintro l₁ r d rfl l ⟨l₀, rfl⟩ hs
    refine ih l.length ?_ hs ?_ ?_ rfl
    · rw [← hn]
      simp only [List.length_append, List.length_cons]
      omega
    · rintro k₁ k₂ r' a rfl
      refine hreads k₁ (r :: (l₀ ++ k₂)) r' a ?_
      simp
    · intro r' hr'
      exact hpayload r' (List.mem_cons_of_mem _ (List.mem_append_right _ hr'))
  cases h with
  | base => exact .empty payload
  | @commit l d _ i c o a hs hrun =>
      have htally := hshorter rfl (List.suffix_refl l) hs
      obtain rfl := StatisticsCommand.eq_effect_of_run hrun
      cases c with
      | recordAccess input =>
          have hkeys : d.AggregateKeys := (hs.invariant (P := Consistent)
            (fun _ _ _ _ _ hd hrun => hd.run hrun) .empty).keys
          exact htally.record hkeys (hpayload _ List.mem_cons_self input rfl)
      | findCandidates before =>
          exact htally.skip rfl fun _ hcloses => by cases hcloses
      | finalizeDay linkDay => exact htally.close
  | @quiet l _ r hs hwrote =>
      have htally := hshorter rfl (List.suffix_refl l) hs
      obtain ⟨i, c, o, reply, wrote⟩ := r
      cases reply with
      | error e =>
          refine htally.skip countedIds_cons_error fun linkDay hcloses => ?_
          cases c <;> cases hcloses
      | ok a =>
          obtain ⟨l₁, d₁, hl₁, hs₁, hrun⟩ := hreads l [] _ a rfl hwrote rfl
          have htally₁ := hshorter rfl hl₁ hs₁
          have hsame := StatisticsCommand.eq_effect_of_run hrun
          cases c with
          | recordAccess input =>
              refine htally.known ?_
              rcases htally₁.known_of_record hsame with hclosed | hcounted
              · exact .inl (any_of_suffix hl₁ hclosed)
              · exact .inr (countedIds_mono hl₁ hcounted)
          | findCandidates before =>
              exact htally.skip rfl fun _ hcloses => by cases hcloses
          | finalizeDay linkDay =>
              refine htally.skip rfl fun linkDay' hcloses => ?_
              obtain rfl : linkDay = linkDay' := of_decide_eq_true hcloses
              refine any_of_suffix hl₁ ?_
              rw [← Bool.not_eq_false, ← htally₁.closed]
              intro hnone
              have hsome := StatisticsDb.findDay_close_self linkDay o d₁
              have hsame' : d₁.close linkDay o = d₁ := hsame.symm
              rw [hsame', hnone] at hsome
              cases hsome

/-! ### Visitors -/

section

variable {payload : String → AccessEventInput} {log : List StatisticsRecord}
  {db : StatisticsDb}

/-- When no day is closed, the visitors are the distinct pseudonyms of the counted
accesses, day by day. -/
theorem Tally.mem_visitors_iff (h : Tally payload log db) (hdb : Consistent db)
    (hopen : ∀ linkDay, db.findDay linkDay = none) (k : LinkDay × String) :
    (k ∈ db.dailyVisitors.map fun v => (v.linkDay, v.visitorPseudonym)) ↔
      ∃ id ∈ countedIds log,
        ((payload id).linkDay, (payload id).visitorPseudonym) = k := by
  obtain ⟨linkDay, p⟩ := k
  rw [← StatisticsDb.hasVisitor_iff, hdb.visitors]
  constructor
  · rintro ⟨e, he, rfl, rfl⟩
    obtain ⟨heq, hmem⟩ := h.events e he
    exact ⟨e.id, hmem, (congrArg (fun e : LinkAccessEvent =>
      (e.linkDay, e.visitorPseudonym)) heq).symm⟩
  · rintro ⟨id, hmem, hk⟩
    cases hk
    obtain ⟨e, he, heq⟩ := List.any_eq_true.1 (h.kept id hmem (hopen _))
    obtain rfl := beq_iff_eq.1 heq
    have hevent := (h.events e he).1
    exact ⟨e, he, congrArg LinkAccessEvent.linkDay hevent,
      congrArg LinkAccessEvent.visitorPseudonym hevent⟩

/-- When no day is closed, the unique visitors of a selection of days are the
distinct pseudonyms of each day. -/
theorem Tally.visits (h : Tally payload log db) (hdb : Consistent db)
    (hopen : ∀ linkDay, db.findDay linkDay = none) (q : LinkDay → Bool) :
    (db.dailyVisits fun k => q k.1) =
      (((countedIds log).filter fun id => q (payload id).linkDay = true).image
        fun id => ((payload id).linkDay, (payload id).visitorPseudonym)).card := by
  have hvisits : (db.dailyVisits fun k => q k.1) =
      ((db.dailyVisitors.map fun v => (v.linkDay, v.visitorPseudonym)).filter
        fun k => q k.1).length := by
    rw [hdb.openVisits _ fun k _ => hopen k.1, List.countP_eq_length_filter,
      List.filter_map, List.length_map]
    rfl
  rw [hvisits, ← List.toFinset_card_of_nodup (hdb.visitorKeys.filter _)]
  refine congrArg Finset.card (Finset.ext fun k => ?_)
  rw [List.mem_toFinset, List.mem_filter, h.mem_visitors_iff hdb hopen,
    Finset.mem_image]
  simp only [Finset.mem_filter]
  constructor
  · rintro ⟨⟨id, hmem, rfl⟩, hq⟩
    exact ⟨id, ⟨hmem, hq⟩, rfl⟩
  · rintro ⟨id, ⟨hmem, hq⟩, rfl⟩
    exact ⟨⟨id, hmem, rfl⟩, hq⟩

/-- The unique visitors of one day are its distinct pseudonyms. -/
theorem Tally.visits_day (h : Tally payload log db) (hdb : Consistent db)
    (hopen : ∀ linkDay, db.findDay linkDay = none) (linkDay : LinkDay) :
    (db.dailyVisits fun k => k.1 = linkDay) =
      (((countedIds log).filter fun id => (payload id).linkDay = linkDay).image
        fun id => (payload id).visitorPseudonym).card := by
  rw [h.visits hdb hopen fun day => day = linkDay]
  simp only [decide_eq_true_eq]
  have hpair : (((countedIds log).filter fun id =>
      (payload id).linkDay = linkDay).image fun id =>
        ((payload id).linkDay, (payload id).visitorPseudonym)) =
      ((((countedIds log).filter fun id => (payload id).linkDay = linkDay).image
        fun id => (payload id).visitorPseudonym).image (Prod.mk linkDay)) := by
    rw [Finset.image_image]
    refine Finset.image_congr fun id hmem => ?_
    have hday := (Finset.mem_filter.1 hmem).2
    simp only [hday, Function.comp_apply]
  rw [hpair, Finset.card_image_of_injective _ (Prod.mk_right_injective linkDay)]

end

/-- What the log of a run tells about its tables. -/
theorem tally_of_reaches {hashtext : String → ℤ}
    {payload : String → AccessEventInput} {σ : StatisticsState}
    (h : (statistics hashtext).Reaches (State.init StatisticsDb.empty) σ)
    (hpayload : ∀ cl ∈ σ.clients, Carries payload cl.call) :
    Tally payload σ.log σ.db := by
  have hgood := good_of_reaches h
  exact tally_of_serial hgood.serial hgood.reads (recorded_payload h hpayload)

/-- The accesses of two runs without closed days that record the same events. -/
theorem countedIds_congr {payload : String → AccessEventInput}
    (hid : ∀ id, (payload id).eventId = id) {log log' : List StatisticsRecord}
    (hlog : ∀ r ∈ log, ∀ input, r.command = .recordAccess input →
      input = payload input.eventId)
    (hlog' : ∀ r ∈ log', ∀ input, r.command = .recordAccess input →
      input = payload input.eventId)
    (hopen : ∀ r ∈ log, ∀ linkDay, closes linkDay r = false)
    (hopen' : ∀ r ∈ log', ∀ linkDay, closes linkDay r = false)
    (hsame : ∀ id, (∃ r ∈ log, commits (payload id) r = true) ↔
      ∃ r ∈ log', commits (payload id) r = true) :
    countedIds log = countedIds log' := by
  have hiff : ∀ {l : List StatisticsRecord},
      (∀ r ∈ l, ∀ input, r.command = .recordAccess input →
        input = payload input.eventId) →
      (∀ r ∈ l, ∀ linkDay, closes linkDay r = false) → ∀ id,
        id ∈ countedIds l ↔ ∃ r ∈ l, commits (payload id) r = true := by
    intro l hl hopen id
    rw [mem_countedIds_iff hid hl]
    constructor
    · rintro ⟨l₂, r, l₁, rfl, hr, -⟩
      exact ⟨r, List.mem_append_right _ List.mem_cons_self, hr⟩
    · rintro ⟨r, hr, hcommits⟩
      obtain ⟨l₂, l₁, rfl⟩ := List.append_of_mem hr
      exact ⟨l₂, r, l₁, rfl, hcommits, fun r' hr' => hopen r'
        (List.mem_append_right _ (List.mem_cons_of_mem _ hr')) _⟩
  refine Finset.ext fun id => ?_
  rw [hiff hlog hopen, hiff hlog' hopen', hsame]

/-- Each event adds to the counters of its day and month at most once, and once
when an attempt of it commits before its day is closed; without closed days the
counters depend on the set of events alone. -/
theorem accesses_counted_once (hashtext : String → ℤ)
    {payload : String → AccessEventInput}
    (hid : ∀ id, (payload id).eventId = id) {σ : StatisticsState}
    (h : (statistics hashtext).Reaches (State.init StatisticsDb.empty) σ)
    (hpayload : ∀ cl ∈ σ.clients, Carries payload cl.call) :
    (∀ linkDay, σ.db.findDay linkDay = none ↔
      ∀ r ∈ σ.log, closes linkDay r = false) ∧
    ∃ counted : Finset String,
      (∀ id, id ∈ counted ↔ ∃ l₂ r l₁, σ.log = l₂ ++ r :: l₁ ∧
        commits (payload id) r = true ∧
        ∀ r' ∈ l₁, closes (payload id).linkDay r' = false) ∧
      (∀ linkDay country,
        (σ.db.dailyAccesses fun k => k = (linkDay, country)) =
          (counted.filter fun id => (payload id).linkDay = linkDay ∧
            (payload id).country = country).card) ∧
      (∀ linkId month,
        (σ.db.monthlyAccesses fun k => k = (linkId, month)) =
          (counted.filter fun id => (payload id).linkId = linkId ∧
            (payload id).occurredOn.utcMonth = month).card) ∧
      ((∀ r ∈ σ.log, ∀ linkDay, closes linkDay r = false) →
        (∀ linkDay, (σ.db.dailyVisits fun k => k.1 = linkDay) =
          ((counted.filter fun id => (payload id).linkDay = linkDay).image
            fun id => (payload id).visitorPseudonym).card) ∧
        ∀ σ' : StatisticsState,
          (statistics hashtext).Reaches (State.init StatisticsDb.empty) σ' →
          (∀ cl ∈ σ'.clients, Carries payload cl.call) →
          (∀ r ∈ σ'.log, ∀ linkDay, closes linkDay r = false) →
          (∀ id, (∃ r ∈ σ.log, commits (payload id) r = true) ↔
            ∃ r ∈ σ'.log, commits (payload id) r = true) →
          (∀ linkDay country,
            (σ'.db.dailyAccesses fun k => k = (linkDay, country)) =
              σ.db.dailyAccesses fun k => k = (linkDay, country)) ∧
          (∀ linkId month,
            (σ'.db.monthlyAccesses fun k => k = (linkId, month)) =
                (σ.db.monthlyAccesses fun k => k = (linkId, month)) ∧
              (σ'.db.monthlyVisits fun k => k = (linkId, month)) =
                σ.db.monthlyVisits fun k => k = (linkId, month)) ∧
          ∀ linkDay, (σ'.db.dailyVisits fun k => k.1 = linkDay) =
            σ.db.dailyVisits fun k => k.1 = linkDay) := by
  have hlog := recorded_payload h hpayload
  have htally := tally_of_reaches h hpayload
  have hdb := consistent_of_reaches h
  have hday : ∀ {τ : StatisticsState}, Tally payload τ.log τ.db → ∀ linkDay,
      τ.db.findDay linkDay = none ↔ ∀ r ∈ τ.log, closes linkDay r = false := by
    intro τ hτ linkDay
    simp [hτ.closed]
  refine ⟨hday htally, countedIds σ.log, fun id => mem_countedIds_iff hid hlog,
    ?_, ?_, fun hopen => ⟨?_, ?_⟩⟩
  · intro linkDay country
    rw [htally.accesses]
    simp only [decide_eq_true_eq, Prod.mk.injEq (AccessEventInput.linkDay _)]
  · intro linkId month
    rw [hdb.monthlyAccesses, htally.accesses]
    simp only [decide_eq_true_eq, Prod.mk.injEq]
  · exact htally.visits_day hdb fun linkDay =>
      (hday htally linkDay).2 fun r hr => hopen r hr linkDay
  · intro σ' h' hpayload' hopen' hsame
    have htally' := tally_of_reaches h' hpayload'
    have hdb' := consistent_of_reaches h'
    have hcounted := countedIds_congr hid hlog (recorded_payload h' hpayload')
      hopen hopen' hsame
    have hnone : ∀ linkDay, σ.db.findDay linkDay = none := fun linkDay =>
      (hday htally linkDay).2 fun r hr => hopen r hr linkDay
    have hnone' : ∀ linkDay, σ'.db.findDay linkDay = none := fun linkDay =>
      (hday htally' linkDay).2 fun r hr => hopen' r hr linkDay
    refine ⟨?_, ?_, ?_⟩
    · intro linkDay country
      rw [htally.accesses, htally'.accesses, hcounted]
    · intro linkId month
      rw [hdb.monthlyAccesses, hdb'.monthlyAccesses, htally.accesses,
        htally'.accesses, hdb.monthlyVisits, hdb'.monthlyVisits,
        htally.visits hdb hnone fun k => (k.1, k.2.utcMonth) = (linkId, month),
        htally'.visits hdb' hnone' fun k => (k.1, k.2.utcMonth) = (linkId, month),
        hcounted]
      exact ⟨rfl, rfl⟩
    · intro linkDay
      rw [htally.visits_day hdb hnone, htally'.visits_day hdb' hnone', hcounted]

/-- One access is delivered twice, in two interleaved transactions. -/
def deliveredTwice : StatisticsState :=
  (statistics fun _ => 0).after
    ([.spawn (.process ⟨RECORD_LINK_ACCESS_JOB, newYearAccess "e0" "v"⟩),
        .spawn (.process ⟨RECORD_LINK_ACCESS_JOB, newYearAccess "e0" "v"⟩),
        .begin 0 0, .begin 1 0] ++
      List.replicate 11 (.advance 0) ++ [.advance 1, .commit 0] ++
      List.replicate 4 (.advance 1) ++ [.commit 1])
    (State.init StatisticsDb.empty)

theorem deliveredTwice_counted_once :
    (∃ r ∈ deliveredTwice.log, r.client = 1 ∧
        commits (newYearAccess "e0" "v") r = true) ∧
      ∃ counted : Finset String,
        (deliveredTwice.db.dailyAccesses
            fun k => k = (("l", ⟨2026, 1, 1⟩), "BR")) = counted.card ∧
          counted.card = 1 := by
  have hrun : (statistics fun _ => 0).Reaches (State.init StatisticsDb.empty)
      deliveredTwice := System.reaches_after _ _ _
  have hcarries : ∀ cl ∈ deliveredTwice.clients,
      Carries (fun id => newYearAccess id "v") cl.call := by decide
  obtain ⟨-, counted, -, hdaily, -⟩ := accesses_counted_once (fun _ => 0)
    (fun _ => rfl) hrun hcarries
  have hall : (counted.filter fun id =>
      (newYearAccess id "v").linkDay = ("l", ⟨2026, 1, 1⟩) ∧
        (newYearAccess id "v").country = "BR") = counted :=
    Finset.filter_true_of_mem fun _ _ => ⟨rfl, rfl⟩
  have hcount := hdaily ("l", ⟨2026, 1, 1⟩) "BR"
  rw [hall] at hcount
  have hone : (deliveredTwice.db.dailyAccesses
      fun k => k = (("l", ⟨2026, 1, 1⟩), "BR")) = 1 := by decide
  exact ⟨by decide, counted, hcount, hcount.symm.trans hone⟩

end LinkStatistics

end Shortlink

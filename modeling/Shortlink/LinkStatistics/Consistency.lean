import Shortlink.LinkStatistics.Isolation

/-!
# The tables agree with each other

The monthly rows are the sums of the daily rows, the daily rows of an open day
count its events and its visitors, and a closed day has neither. Counting an
access and closing a day keep this (`Consistent.countAccess`,
`Consistent.close`), so it holds in every committed state.
-/

namespace Shortlink

namespace LinkStatistics

open Shortlink.Storage Shortlink.Table Shortlink.Transaction
open Shortlink.Interaction

namespace StatisticsDb

/-- The accesses that the daily rows selected by `q` count. -/
def dailyAccesses (q : LinkDay × String → Bool) (db : StatisticsDb) : ℕ :=
  sumWhere LinkDailyAggregate.key q (·.accessCount) db.dailyAggregates

/-- The unique visitors that the daily rows selected by `q` count. -/
def dailyVisits (q : LinkDay × String → Bool) (db : StatisticsDb) : ℕ :=
  sumWhere LinkDailyAggregate.key q (·.uniqueVisitorCount) db.dailyAggregates

/-- The accesses that the monthly rows selected by `q` count. -/
def monthlyAccesses (q : String × UtcMonth → Bool) (db : StatisticsDb) : ℕ :=
  sumWhere LinkMonthlyAggregate.key q (·.accessCount) db.monthlyAggregates

/-- The daily unique visitors that the monthly rows selected by `q` count. -/
def monthlyVisits (q : String × UtcMonth → Bool) (db : StatisticsDb) : ℕ :=
  sumWhere LinkMonthlyAggregate.key q (·.dailyUniqueVisitorCount)
    db.monthlyAggregates

variable {db : StatisticsDb} {input : AccessEventInput}

structure AggregateKeys (db : StatisticsDb) : Prop where
  daily : (db.dailyAggregates.map (·.key)).Nodup
  monthly : (db.monthlyAggregates.map (·.key)).Nodup

theorem AggregateKeys.incrementAccesses (h : AggregateKeys db)
    (input : AccessEventInput) :
    AggregateKeys ((db.incrementDailyAccesses input).incrementMonthlyAccesses
      input) :=
  ⟨nodup_map_key_upsert h.daily (fun _ => rfl) rfl,
    nodup_map_key_upsert h.monthly (fun _ => rfl) rfl⟩

theorem AggregateKeys.incrementVisitors (h : AggregateKeys db)
    (input : AccessEventInput) :
    AggregateKeys ((db.incrementDailyVisitors input).incrementMonthlyVisitors
      input) where
  daily := by
    have hmap : ((db.incrementDailyVisitors input).incrementMonthlyVisitors
        input).dailyAggregates.map (·.key) = db.dailyAggregates.map (·.key) :=
      map_key_updateWhere fun _ => rfl
    rw [hmap]
    exact h.daily
  monthly := by
    have hmap : ((db.incrementDailyVisitors input).incrementMonthlyVisitors
        input).monthlyAggregates.map (·.key) = db.monthlyAggregates.map (·.key) :=
      map_key_updateWhere fun _ => rfl
    rw [hmap]
    exact h.monthly

theorem AggregateKeys.countAccess (h : AggregateKeys db)
    (input : AccessEventInput) : AggregateKeys (db.countAccess input) := by
  have hinsert : AggregateKeys (db.insertEvent input) := ⟨h.daily, h.monthly⟩
  have hcounted := hinsert.incrementAccesses input
  rw [StatisticsDb.countAccess, countVisitor]
  split
  · exact hcounted
  · have hvisitor : AggregateKeys ((((db.insertEvent input).incrementDailyAccesses
        input).incrementMonthlyAccesses input).insertVisitor input) :=
      ⟨hcounted.daily, hcounted.monthly⟩
    exact hvisitor.incrementVisitors input

/-- Whether the visitor of an access is new on its day. -/
def newVisitor (input : AccessEventInput) (db : StatisticsDb) : Bool :=
  !db.hasVisitor input.linkDay input.visitorPseudonym

/-- A counted access adds one to the accesses of its day and country. -/
theorem dailyAccesses_countAccess (h : AggregateKeys db)
    (q : LinkDay × String → Bool) :
    (db.countAccess input).dailyAccesses q =
      db.dailyAccesses q + if q (input.linkDay, input.country) then 1 else 0 := by
  have hcounted : dailyAccesses q
      ((db.incrementDailyAccesses input).incrementMonthlyAccesses input) =
        db.dailyAccesses q + if q (input.linkDay, input.country) then 1 else 0 :=
    sumWhere_upsert h.daily (fun _ => rfl) (fun _ => rfl) rfl rfl
  rw [← hcounted, countAccess, countVisitor]
  split
  · rfl
  · exact sumWhere_updateWhere_of_eq (fun _ => rfl) fun _ => rfl

theorem monthlyAccesses_countAccess (h : AggregateKeys db)
    (q : String × UtcMonth → Bool) :
    (db.countAccess input).monthlyAccesses q =
      db.monthlyAccesses q +
        if q (input.linkId, input.occurredOn.utcMonth) then 1 else 0 := by
  have hcounted : monthlyAccesses q
      ((db.incrementDailyAccesses input).incrementMonthlyAccesses input) =
        db.monthlyAccesses q +
          if q (input.linkId, input.occurredOn.utcMonth) then 1 else 0 :=
    sumWhere_upsert h.monthly (fun _ => rfl) (fun _ => rfl) rfl rfl
  rw [← hcounted, countAccess, countVisitor]
  split
  · rfl
  · exact sumWhere_updateWhere_of_eq (fun _ => rfl) fun _ => rfl

/-- A counted access by a new visitor adds one to the visitors of its day and
country. -/
theorem dailyVisits_countAccess (h : AggregateKeys db)
    (q : LinkDay × String → Bool) :
    (db.countAccess input).dailyVisits q =
      db.dailyVisits q +
        if newVisitor input db && q (input.linkDay, input.country) then 1
        else 0 := by
  have hcounted : dailyVisits q
      ((db.incrementDailyAccesses input).incrementMonthlyAccesses input) =
        db.dailyVisits q + if q (input.linkDay, input.country) then 0 else 0 :=
    sumWhere_upsert h.daily (fun _ => rfl) (fun _ => rfl) rfl rfl
  rw [ite_self, Nat.add_zero] at hcounted
  rw [← hcounted, countAccess, countVisitor, newVisitor]
  have hsame : (((db.insertEvent input).incrementDailyAccesses
      input).incrementMonthlyAccesses input).hasVisitor input.linkDay
        input.visitorPseudonym =
      db.hasVisitor input.linkDay input.visitorPseudonym := rfl
  rw [hsame]
  cases db.hasVisitor input.linkDay input.visitorPseudonym with
  | true => rfl
  | false =>
      have hkeys : AggregateKeys ((db.incrementDailyAccesses
          input).incrementMonthlyAccesses input) := h.incrementAccesses input
      exact sumWhere_updateWhere hkeys.daily
        (mem_map_key_upsert (fun _ => rfl) rfl) (fun _ => rfl) fun _ => rfl

/-- A counted access by a new visitor adds one to the visitors of its month. -/
theorem monthlyVisits_countAccess (h : AggregateKeys db)
    (q : String × UtcMonth → Bool) :
    (db.countAccess input).monthlyVisits q =
      db.monthlyVisits q +
        if newVisitor input db && q (input.linkId, input.occurredOn.utcMonth)
        then 1 else 0 := by
  have hcounted : monthlyVisits q
      ((db.incrementDailyAccesses input).incrementMonthlyAccesses input) =
        db.monthlyVisits q +
          if q (input.linkId, input.occurredOn.utcMonth) then 0 else 0 :=
    sumWhere_upsert h.monthly (fun _ => rfl) (fun _ => rfl) rfl rfl
  rw [ite_self, Nat.add_zero] at hcounted
  rw [← hcounted, countAccess, countVisitor, newVisitor]
  have hsame : (((db.insertEvent input).incrementDailyAccesses
      input).incrementMonthlyAccesses input).hasVisitor input.linkDay
        input.visitorPseudonym =
      db.hasVisitor input.linkDay input.visitorPseudonym := rfl
  rw [hsame]
  cases db.hasVisitor input.linkDay input.visitorPseudonym with
  | true => rfl
  | false =>
      have hkeys : AggregateKeys ((db.incrementDailyAccesses
          input).incrementMonthlyAccesses input) := h.incrementAccesses input
      exact sumWhere_updateWhere hkeys.monthly
        (mem_map_key_upsert (fun _ => rfl) rfl) (fun _ => rfl) fun _ => rfl

/-! ### The closed days and the visitors -/

theorem findDay_countAccess {linkDay : LinkDay} :
    (db.countAccess input).findDay linkDay = db.findDay linkDay := by
  simp [findDay]

theorem findDay_close_self (linkDay : LinkDay) (finalizedAt : ℕ)
    (db : StatisticsDb) :
    ((db.close linkDay finalizedAt).findDay linkDay).isSome = true := by
  rw [findDay, days_close]
  split
  · assumption
  · simp [List.find?_append]

theorem findDay_close_eq_none_iff {linkDay linkDay' : LinkDay}
    {finalizedAt : ℕ} :
    (db.close linkDay finalizedAt).findDay linkDay' = none ↔
      linkDay' ≠ linkDay ∧ db.findDay linkDay' = none := by
  by_cases h : linkDay' = linkDay
  · subst h
    have hsome := findDay_close_self linkDay' finalizedAt db
    simp only [ne_eq, not_true_eq_false, false_and, iff_false]
    intro hnone
    rw [hnone] at hsome
    cases hsome
  · simp [findDay_close_of_ne h, h]

theorem hasVisitor_iff {linkDay : LinkDay} {visitorPseudonym : String} :
    db.hasVisitor linkDay visitorPseudonym = true ↔
      (linkDay, visitorPseudonym) ∈
        db.dailyVisitors.map fun v => (v.linkDay, v.visitorPseudonym) := by
  simp only [hasVisitor, List.any_eq_true, Bool.and_eq_true, decide_eq_true_eq,
    beq_iff_eq, List.mem_map]
  refine exists_congr fun v => and_congr_right fun _ => ?_
  constructor
  · rintro ⟨rfl, rfl⟩
    rfl
  · intro heq
    exact Prod.mk.inj heq

theorem hasVisitor_countAccess_iff {linkDay : LinkDay}
    {visitorPseudonym : String} :
    (db.countAccess input).hasVisitor linkDay visitorPseudonym = true ↔
      db.hasVisitor linkDay visitorPseudonym = true ∨
        input.linkDay = linkDay ∧ input.visitorPseudonym = visitorPseudonym := by
  rw [hasVisitor_iff, hasVisitor_iff, dailyVisitors_countAccess]
  split
  · rename_i hknown
    rw [hasVisitor_iff] at hknown
    constructor
    · exact .inl
    · rintro (h | ⟨rfl, rfl⟩)
      · exact h
      · exact hknown
  · simp only [List.map_append, List.mem_append, List.map_singleton,
      List.mem_singleton]
    exact or_congr_right ⟨fun h => by cases h; exact ⟨rfl, rfl⟩,
      fun ⟨h₁, h₂⟩ => by rw [← h₁, ← h₂]; rfl⟩

end StatisticsDb

/-! ### What the tables have in common -/

/-- The tables agree with each other. -/
structure Consistent (db : StatisticsDb) : Prop where
  keys : db.AggregateKeys
  monthlyAccesses : ∀ q, db.monthlyAccesses q =
    db.dailyAccesses fun k => q (k.1.1, k.1.2.utcMonth)
  monthlyVisits : ∀ q, db.monthlyVisits q =
    db.dailyVisits fun k => q (k.1.1, k.1.2.utcMonth)
  openAccesses : ∀ q : LinkDay × String → Bool,
    (∀ k, q k = true → db.findDay k.1 = none) →
      db.dailyAccesses q = db.events.countP fun e => q (e.linkDay, e.country)
  openVisits : ∀ q : LinkDay × String → Bool,
    (∀ k, q k = true → db.findDay k.1 = none) →
      db.dailyVisits q =
        db.dailyVisitors.countP fun v => q (v.linkDay, v.country)
  eventIds : (db.events.map (·.id)).Nodup
  visitorKeys :
    (db.dailyVisitors.map fun v => (v.linkDay, v.visitorPseudonym)).Nodup
  visitors : ∀ linkDay visitorPseudonym,
    db.hasVisitor linkDay visitorPseudonym = true ↔
      ∃ e ∈ db.events,
        e.linkDay = linkDay ∧ e.visitorPseudonym = visitorPseudonym
  closedEvents : ∀ e ∈ db.events, db.findDay e.linkDay = none

namespace Consistent

open StatisticsDb

variable {db : StatisticsDb} {input : AccessEventInput}

theorem empty : Consistent StatisticsDb.empty where
  keys := ⟨List.nodup_nil, List.nodup_nil⟩
  monthlyAccesses _ := rfl
  monthlyVisits _ := rfl
  openAccesses _ _ := rfl
  openVisits _ _ := rfl
  eventIds := List.nodup_nil
  visitorKeys := List.nodup_nil
  visitors linkDay p := by
    constructor
    · intro h
      cases h
    · rintro ⟨e, he, -⟩
      cases he
  closedEvents e he := by cases he

theorem closedVisitors (h : Consistent db) {v : LinkDailyVisitor}
    (hv : v ∈ db.dailyVisitors) : db.findDay v.linkDay = none := by
  have hvisitor : db.hasVisitor v.linkDay v.visitorPseudonym = true :=
    hasVisitor_iff.2 (List.mem_map_of_mem
      (f := fun v : LinkDailyVisitor => (v.linkDay, v.visitorPseudonym)) hv)
  obtain ⟨e, he, heq, -⟩ := (h.visitors _ _).1 hvisitor
  exact heq ▸ h.closedEvents e he

/-- An access with a new id, counted on an open day. -/
theorem countAccess (h : Consistent db) (hday : db.findDay input.linkDay = none)
    (hevent : db.hasEvent input.eventId = false) :
    Consistent (db.countAccess input) where
  keys := h.keys.countAccess input
  monthlyAccesses q := by
    rw [monthlyAccesses_countAccess h.keys, dailyAccesses_countAccess h.keys,
      h.monthlyAccesses]
  monthlyVisits q := by
    rw [monthlyVisits_countAccess h.keys, dailyVisits_countAccess h.keys,
      h.monthlyVisits]
  openAccesses q hopen := by
    simp only [findDay_countAccess] at hopen
    rw [dailyAccesses_countAccess h.keys, h.openAccesses q hopen,
      events_countAccess, List.countP_append, List.countP_singleton]
    rfl
  openVisits q hopen := by
    simp only [findDay_countAccess] at hopen
    rw [dailyVisits_countAccess h.keys, h.openVisits q hopen,
      dailyVisitors_countAccess, newVisitor]
    cases db.hasVisitor input.linkDay input.visitorPseudonym with
    | true => simp
    | false =>
        rw [if_neg Bool.false_ne_true, List.countP_append, List.countP_singleton]
        rfl
  eventIds := by
    rw [events_countAccess, List.map_append, List.map_singleton]
    refine List.nodup_append.2 ⟨h.eventIds, List.nodup_singleton _, ?_⟩
    rintro id hid _ hinput rfl
    obtain rfl := List.mem_singleton.1 hinput
    obtain ⟨e, he, heq⟩ := List.mem_map.1 hid
    have hknown : db.hasEvent input.eventId = true :=
      List.any_eq_true.2 ⟨e, he, beq_iff_eq.2 heq⟩
    rw [hevent] at hknown
    cases hknown
  visitorKeys := by
    rw [dailyVisitors_countAccess]
    split
    · exact h.visitorKeys
    · rename_i hnew
      rw [List.map_append, List.map_singleton]
      refine List.nodup_append.2 ⟨h.visitorKeys, List.nodup_singleton _, ?_⟩
      rintro k hk _ hinput rfl
      obtain rfl := List.mem_singleton.1 hinput
      exact hnew (hasVisitor_iff.2 hk)
  visitors linkDay p := by
    rw [hasVisitor_countAccess_iff, h.visitors, events_countAccess]
    simp [AccessEventInput.event, or_and_right, exists_or]
  closedEvents e he := by
    rw [events_countAccess] at he
    rw [findDay_countAccess]
    rcases List.mem_append.1 he with he | he
    · exact h.closedEvents e he
    · obtain rfl := List.mem_singleton.1 he
      exact hday

theorem record (h : Consistent db) (input : AccessEventInput) :
    Consistent (db.record input) := by
  rcases record_cases input db with hsame | ⟨hday, hevent, hcount⟩
  · rwa [hsame]
  · rw [hcount]
    exact h.countAccess hday hevent

theorem close (h : Consistent db) (linkDay : LinkDay) (finalizedAt : ℕ) :
    Consistent (db.close linkDay finalizedAt) where
  keys := by
    refine ⟨?_, ?_⟩
    · rw [dailyAggregates_close]
      exact h.keys.daily
    · rw [monthlyAggregates_close]
      exact h.keys.monthly
  monthlyAccesses q := by
    simp only [StatisticsDb.monthlyAccesses, dailyAccesses,
      monthlyAggregates_close, dailyAggregates_close]
    exact h.monthlyAccesses q
  monthlyVisits q := by
    simp only [StatisticsDb.monthlyVisits, dailyVisits, monthlyAggregates_close,
      dailyAggregates_close]
    exact h.monthlyVisits q
  openAccesses q hopen := by
    simp only [findDay_close_eq_none_iff] at hopen
    rw [dailyAccesses, dailyAggregates_close, events_close, List.countP_filter]
    refine (h.openAccesses q fun k hk => (hopen k hk).2).trans
      (List.countP_congr fun e _ => ?_)
    simp only [Bool.and_eq_true, decide_eq_true_eq]
    exact ⟨fun hq => ⟨hq, (hopen _ hq).1⟩, fun hq => hq.1⟩
  openVisits q hopen := by
    simp only [findDay_close_eq_none_iff] at hopen
    rw [dailyVisits, dailyAggregates_close, dailyVisitors_close,
      List.countP_filter]
    refine (h.openVisits q fun k hk => (hopen k hk).2).trans
      (List.countP_congr fun v _ => ?_)
    simp only [Bool.and_eq_true, decide_eq_true_eq]
    exact ⟨fun hq => ⟨hq, (hopen _ hq).1⟩, fun hq => hq.1⟩
  eventIds := by
    rw [events_close]
    exact h.eventIds.sublist (List.filter_sublist.map _)
  visitorKeys := by
    rw [dailyVisitors_close]
    exact h.visitorKeys.sublist (List.filter_sublist.map _)
  visitors linkDay' p := by
    by_cases hlinkDay : linkDay' = linkDay
    · subst hlinkDay
      simp only [hasVisitor, dailyVisitors_close, events_close, List.any_eq_true,
        List.mem_filter, Bool.and_eq_true, decide_eq_true_eq]
      constructor
      · rintro ⟨v, ⟨-, hne⟩, hv, -⟩
        exact absurd hv hne
      · rintro ⟨e, ⟨-, hne⟩, he, -⟩
        exact absurd he hne
    · rw [hasVisitor_close_of_ne hlinkDay, h.visitors, events_close]
      constructor
      · rintro ⟨e, he, heq, hp⟩
        exact ⟨e, List.mem_filter.2 ⟨he, by simp [heq, hlinkDay]⟩, heq, hp⟩
      · rintro ⟨e, he, heq, hp⟩
        exact ⟨e, (List.mem_filter.1 he).1, heq, hp⟩
  closedEvents e he := by
    rw [events_close] at he
    obtain ⟨he, hne⟩ := List.mem_filter.1 he
    exact findDay_close_eq_none_iff.2
      ⟨of_decide_eq_true hne, h.closedEvents e he⟩

/-- Every transaction keeps the tables consistent. -/
theorem effect (h : Consistent db) (c : StatisticsCommand) (finalizedAt : ℕ) :
    Consistent (c.effect finalizedAt db) := by
  cases c with
  | recordAccess input => exact h.record input
  | findCandidates before => exact h
  | finalizeDay linkDay => exact h.close linkDay finalizedAt

theorem run {hashtext : String → ℤ} {c : StatisticsCommand} {finalizedAt : ℕ}
    {db' : StatisticsDb} {a : c.Res} (h : Consistent db)
    (hrun : (StatisticsCommand.impl hashtext c finalizedAt).run db =
      .ok (a, db')) : Consistent db' := by
  obtain rfl := StatisticsCommand.eq_effect_of_run hrun
  exact h.effect c finalizedAt

end Consistent

/-! ### Closed days -/

/-- A closed day stays closed and keeps its daily aggregates. -/
def ClosedKept (db db' : StatisticsDb) : Prop :=
  ∀ linkDay, db.findDay linkDay ≠ none →
    db'.findDay linkDay ≠ none ∧
      (db'.dailyAggregates.filter fun a => a.key.1 = linkDay) =
        db.dailyAggregates.filter fun a => a.key.1 = linkDay

theorem closedKept_refl (db : StatisticsDb) : ClosedKept db db :=
  fun _ h => ⟨h, rfl⟩

theorem ClosedKept.trans {db₁ db₂ db₃ : StatisticsDb} (h₁ : ClosedKept db₁ db₂)
    (h₂ : ClosedKept db₂ db₃) : ClosedKept db₁ db₃ := by
  intro linkDay h
  obtain ⟨hclosed, hrows⟩ := h₁ linkDay h
  obtain ⟨hclosed', hrows'⟩ := h₂ linkDay hclosed
  exact ⟨hclosed', hrows'.trans hrows⟩

/-- Counting an access leaves the aggregates of the other days alone. -/
theorem StatisticsDb.dailyAggregates_countAccess_of_ne {db : StatisticsDb}
    {input : AccessEventInput} {linkDay : LinkDay} (h : input.linkDay ≠ linkDay) :
    ((db.countAccess input).dailyAggregates.filter
        fun a => a.key.1 = linkDay) =
      db.dailyAggregates.filter fun a => a.key.1 = linkDay := by
  have hcounted : (((db.incrementDailyAccesses input).incrementMonthlyAccesses
      input).dailyAggregates.filter fun a => a.key.1 = linkDay) =
        db.dailyAggregates.filter fun a => a.key.1 = linkDay :=
    filter_upsert_of_ne (q := fun k : LinkDay × String => k.1 = linkDay) (fun _ => rfl) rfl
      (by simpa using h)
  rw [← hcounted, countAccess, countVisitor]
  split
  · rfl
  · refine filter_updateWhere fun a _ ha => ?_
    have hkey : a.key = (input.linkDay, input.country) := of_decide_eq_true ha
    have hne : a.key.1 ≠ linkDay := by rwa [hkey]
    exact ⟨decide_eq_false hne, decide_eq_false hne⟩

theorem StatisticsCommand.closedKept (c : StatisticsCommand) (finalizedAt : ℕ)
    (db : StatisticsDb) : ClosedKept db (c.effect finalizedAt db) := by
  intro linkDay hclosed
  cases c with
  | recordAccess input =>
      rcases StatisticsDb.record_cases input db with hsame | ⟨hday, -, hcount⟩
      · simp only [StatisticsCommand.effect, hsame]
        exact ⟨hclosed, trivial⟩
      · have hne : input.linkDay ≠ linkDay := by
          rintro rfl
          exact hclosed hday
        simp only [StatisticsCommand.effect, hcount,
          StatisticsDb.findDay_countAccess]
        exact ⟨hclosed, StatisticsDb.dailyAggregates_countAccess_of_ne hne⟩
  | findCandidates before => exact ⟨hclosed, rfl⟩
  | finalizeDay linkDay' =>
      simp only [StatisticsCommand.effect, StatisticsDb.dailyAggregates_close]
      exact ⟨fun h => hclosed (StatisticsDb.findDay_close_eq_none_iff.1 h).2,
        trivial⟩

/-! ### The tables of every run -/

theorem good_of_reaches {hashtext : String → ℤ} {σ : StatisticsState}
    (h : (statistics hashtext).Reaches (State.init StatisticsDb.empty) σ) :
    Good (discipline hashtext) (statistics hashtext) StatisticsDb.empty σ :=
  ((good_init trivial).reaches (discipline_valid hashtext) h).1

theorem consistent_of_reaches {hashtext : String → ℤ} {σ : StatisticsState}
    (h : (statistics hashtext).Reaches (State.init StatisticsDb.empty) σ) :
    Consistent σ.db :=
  (good_of_reaches h).serial.invariant (fun _ _ _ _ _ hd hrun => hd.run hrun)
    .empty

/-- What later transactions do is what transactions do that are executed one
after another. -/
theorem serial_later {hashtext : String → ℤ} {σ σ' : StatisticsState}
    (h : (statistics hashtext).Reaches (State.init StatisticsDb.empty) σ)
    (h' : (statistics hashtext).Reaches σ σ') :
    Serial (statistics hashtext) σ.db σ.log σ'.log σ'.db :=
  ((good_of_reaches h).reaches (discipline_valid hashtext) h').2

theorem closedKept_of_reaches {hashtext : String → ℤ} {σ σ' : StatisticsState}
    (h : (statistics hashtext).Reaches (State.init StatisticsDb.empty) σ)
    (h' : (statistics hashtext).Reaches σ σ') : ClosedKept σ.db σ'.db := by
  refine (serial_later h h').relates (P := fun _ => True)
    (fun _ _ _ _ _ _ _ => trivial) closedKept_refl
    (fun _ _ _ h₁ h₂ => h₁.trans h₂) ?_ trivial
  intro c o d a d' _ hrun
  obtain rfl := StatisticsCommand.eq_effect_of_run hrun
  exact c.closedKept o d

/-- The visitors of a day are the distinct pseudonyms of its events. -/
theorem Consistent.visitors_perm {db : StatisticsDb} (h : Consistent db)
    (linkDay : LinkDay) :
    ((db.dailyVisitors.filter fun v => v.linkDay = linkDay).map
        (·.visitorPseudonym)).Perm
      ((db.events.filter fun e => e.linkDay = linkDay).map
        (·.visitorPseudonym)).dedup := by
  have hnodup : ((db.dailyVisitors.filter fun v => v.linkDay = linkDay).map
      (·.visitorPseudonym)).Nodup := by
    refine List.Nodup.of_map (fun p => (linkDay, p)) ?_
    have hkeys := h.visitorKeys.sublist ((List.filter_sublist
      (p := fun v => decide (v.linkDay = linkDay))).map _)
    rw [List.map_map]
    refine (List.map_congr_left fun v hv => ?_) ▸ hkeys
    have hv' : v.linkDay = linkDay := of_decide_eq_true (List.mem_filter.1 hv).2
    rw [hv']
    rfl
  refine (List.perm_ext_iff_of_nodup hnodup (List.nodup_dedup _)).2 fun p => ?_
  have hiff := h.visitors linkDay p
  simp only [StatisticsDb.hasVisitor, List.any_eq_true, Bool.and_eq_true,
    decide_eq_true_eq, beq_iff_eq] at hiff
  simp only [List.mem_dedup, List.mem_map, List.mem_filter, decide_eq_true_eq,
    and_assoc]
  exact hiff

/-- In every committed state the monthly rows are the sums of the daily rows,
the daily rows of an open day count its events and visitors, and a closed day
has neither and keeps its daily rows. -/
theorem statistics_consistent (hashtext : String → ℤ) {σ σ' : StatisticsState}
    (h : (statistics hashtext).Reaches (State.init StatisticsDb.empty) σ)
    (h' : (statistics hashtext).Reaches σ σ') :
    σ.db.AggregateKeys ∧
      (∀ m ∈ σ.db.monthlyAggregates,
        m.accessCount = ((σ.db.dailyAggregates.filter fun a =>
            a.linkId = m.linkId ∧ a.occurredOn.utcMonth = m.occurredMonth).map
              (·.accessCount)).sum ∧
          m.dailyUniqueVisitorCount = ((σ.db.dailyAggregates.filter fun a =>
            a.linkId = m.linkId ∧ a.occurredOn.utcMonth = m.occurredMonth).map
              (·.uniqueVisitorCount)).sum) ∧
      (∀ linkDay, σ.db.findDay linkDay = none →
        (∀ country,
          σ.db.dailyAccesses (fun k => k = (linkDay, country)) =
              σ.db.events.countP (fun e =>
                e.linkDay = linkDay ∧ e.country = country) ∧
            σ.db.dailyVisits (fun k => k = (linkDay, country)) =
              σ.db.dailyVisitors.countP fun v =>
                v.linkDay = linkDay ∧ v.country = country) ∧
        ((σ.db.dailyVisitors.filter fun v => v.linkDay = linkDay).map
            (·.visitorPseudonym)).Perm
          ((σ.db.events.filter fun e => e.linkDay = linkDay).map
            (·.visitorPseudonym)).dedup) ∧
      ∀ linkDay, σ.db.findDay linkDay ≠ none →
        (∀ e ∈ σ.db.events, e.linkDay ≠ linkDay) ∧
          (∀ v ∈ σ.db.dailyVisitors, v.linkDay ≠ linkDay) ∧
          (σ'.db.dailyAggregates.filter fun a => a.key.1 = linkDay) =
            σ.db.dailyAggregates.filter fun a => a.key.1 = linkDay := by
  have hdb := consistent_of_reaches h
  refine ⟨hdb.keys, ?_, ?_, ?_⟩
  · intro m hm
    have hcount : σ.db.monthlyAccesses (fun k => k = m.key) = m.accessCount :=
      sumWhere_key hdb.keys.monthly hm
    have hvisits : σ.db.monthlyVisits (fun k => k = m.key) =
        m.dailyUniqueVisitorCount := sumWhere_key hdb.keys.monthly hm
    have haccesses := hcount.symm.trans (hdb.monthlyAccesses _)
    have hvisitors := hvisits.symm.trans (hdb.monthlyVisits _)
    simp only [StatisticsDb.dailyAccesses, StatisticsDb.dailyVisits, sumWhere,
      Prod.mk.injEq] at haccesses hvisitors
    exact ⟨haccesses, hvisitors⟩
  · intro linkDay hopen
    refine ⟨fun country => ?_, hdb.visitors_perm linkDay⟩
    have hselected : ∀ k : LinkDay × String,
        decide (k = (linkDay, country)) = true → σ.db.findDay k.1 = none := by
      intro k hk
      obtain rfl := of_decide_eq_true hk
      exact hopen
    have haccesses := hdb.openAccesses _ hselected
    have hvisitors := hdb.openVisits _ hselected
    simp only [Prod.mk.injEq (LinkAccessEvent.linkDay _),
      Prod.mk.injEq (LinkDailyVisitor.linkDay _)] at haccesses hvisitors
    exact ⟨haccesses, hvisitors⟩
  · intro linkDay hclosed
    refine ⟨?_, ?_, (closedKept_of_reaches h h' linkDay hclosed).2⟩
    · rintro e he rfl
      exact hclosed (hdb.closedEvents e he)
    · rintro v hv rfl
      exact hclosed (hdb.closedVisitors hv)

/-- An access to the link `l` on the first day of a year. -/
def newYearAccess (eventId visitorPseudonym : String) : AccessEventInput :=
  ⟨eventId, "l", "2026-01-01T00:00:00Z", ⟨2026, 1, 1⟩, "BR", visitorPseudonym⟩

/-- The access is recorded and its day is closed. -/
def closedNewYear : StatisticsState :=
  (statistics fun _ => 0).after
    ([.spawn (.recordAccess (newYearAccess "e0" "v")), .begin 0 0] ++
      List.replicate 11 (.advance 0) ++
      [.commit 0, .spawn (.finalizeDays ⟨2026, 1, 2⟩), .begin 1 5, .advance 1,
        .commit 1, .begin 1 5] ++ List.replicate 5 (.advance 1) ++ [.commit 1])
    (State.init StatisticsDb.empty)

/-- Another access of that day arrives late. -/
def lateNewYear : StatisticsState :=
  (statistics fun _ => 0).after
    [.spawn (.recordAccess (newYearAccess "e1" "w")), .begin 2 0, .advance 2,
      .advance 2, .commit 2] closedNewYear

theorem lateNewYear_consistent :
    closedNewYear.db.findDay ("l", ⟨2026, 1, 1⟩) ≠ none ∧
      closedNewYear.db.monthlyAggregates = [⟨"l", ⟨2026, 1⟩, 1, 1⟩] ∧
      (lateNewYear.db.dailyAggregates.filter
          fun a => a.key.1 = ("l", ⟨2026, 1, 1⟩)) =
        closedNewYear.db.dailyAggregates.filter
          fun a => a.key.1 = ("l", ⟨2026, 1, 1⟩) := by
  have hclosed : closedNewYear.db.findDay ("l", ⟨2026, 1, 1⟩) ≠ none := by decide
  have hrun : (statistics fun _ => 0).Reaches (State.init StatisticsDb.empty)
      closedNewYear := System.reaches_after _ _ _
  have hlate : (statistics fun _ => 0).Reaches closedNewYear lateNewYear :=
    System.reaches_after _ _ _
  obtain ⟨-, -, -, hkept⟩ := statistics_consistent (fun _ => 0) hrun hlate
  exact ⟨hclosed, by decide, (hkept _ hclosed).2.2⟩

end LinkStatistics

end Shortlink

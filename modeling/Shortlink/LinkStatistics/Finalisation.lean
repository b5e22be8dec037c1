import Shortlink.LinkStatistics.Consistency
import Shortlink.Transaction.Alone
import Shortlink.Transaction.Issued

/-!
# Closing the days

`finalizeDays` computes its candidates once and then closes them one by one.
`FinalizerAt Φ` says of a client that runs it that `Φ` holds of the candidates
that are left, and `FinalizerRule` what `Φ` must satisfy for this to be kept by
the steps of all clients. Two instances say what is left: only days before the
cutoff that have rows or are closed (`Pending`), and every day that had rows when
the run started, unless it is closed (`Awaited`).
-/

namespace Shortlink

namespace LinkStatistics

open Shortlink.Storage Shortlink.Table Shortlink.Transaction
open Shortlink.Interaction

abbrev StatisticsProgress : Type :=
  Progress StatisticsCommand StatisticsCommand.Res (Except StorageError Unit) ℕ
    StatisticsDb LockKey StorageError

/-- What follows the query of the candidates. -/
def afterCandidates (before : UtcDate) :
    StatisticsReply (.findCandidates before) → StatisticsProgram
  | .ok candidates => finalizeCandidates candidates
  | .error e => .pure (.error e)

/-- What follows the transaction of a candidate. -/
def afterCandidate (candidate : LinkDay) (candidates : List LinkDay) :
    StatisticsReply (.finalizeDay candidate) → StatisticsProgram
  | .ok () => finalizeCandidates candidates
  | .error e => .pure (.error e)

/-- Where a client that runs `finalizeDays before` stands, and `Φ` of the
candidates that are left. -/
inductive FinalizerAt (Φ : StatisticsDb → List LinkDay → Prop) (before : UtcDate)
    (db : StatisticsDb) : StatisticsProgress → Prop
  | start : FinalizerAt Φ before db
      (.idle (.call (.findCandidates before) (afterCandidates before)))
  | querying (o : ℕ) (held : List LockKey) : FinalizerAt Φ before db
      (.busy (.findCandidates before) o
        (.read fun db => .pure (db.findCandidates before)) held []
        (afterCandidates before))
  | queried (o : ℕ) (held : List LockKey) (candidates : List LinkDay)
      (h : Φ db candidates) : FinalizerAt Φ before db
      (.busy (.findCandidates before) o (.pure candidates) held []
        (afterCandidates before))
  | next (candidate : LinkDay) (candidates : List LinkDay)
      (h : Φ db (candidate :: candidates)) : FinalizerAt Φ before db
      (.idle (.call (.finalizeDay candidate)
        (afterCandidate candidate candidates)))
  | closing (o : ℕ) (cur : StatisticsTx Unit) (held : List LockKey)
      (ws : List (StatisticsDb → Except StorageError StatisticsDb))
      (candidate : LinkDay) (candidates : List LinkDay)
      (h : Φ db (candidate :: candidates)) : FinalizerAt Φ before db
      (.busy (.finalizeDay candidate) o cur held ws
        (afterCandidate candidate candidates))
  | done (h : Φ db []) : FinalizerAt Φ before db (.idle (.pure (.ok ())))
  | failed (e : StorageError) : FinalizerAt Φ before db (.idle (.pure (.error e)))

/-- What keeps `Φ` of the candidates that are left, given `I` of the database. -/
structure FinalizerRule (I : StatisticsDb → Prop)
    (Φ : StatisticsDb → List LinkDay → Prop) (before : UtcDate) : Prop where
  inv : ∀ (c : StatisticsCommand) o db, I db → I (c.effect o db)
  query : ∀ db, I db → Φ db (db.findCandidates before)
  effect : ∀ (c : StatisticsCommand) o db candidates, I db → Φ db candidates →
    Φ (c.effect o db) candidates
  closed : ∀ db candidate candidates, I db → db.findDay candidate ≠ none →
    Φ db (candidate :: candidates) → Φ db candidates

section

variable {hashtext : String → ℤ} {σ σ' : StatisticsState}

theorem effect_of_serial {l : List StatisticsRecord} {r : StatisticsRecord}
    {db db' : StatisticsDb} (h : Serial (statistics hashtext) db l (r :: l) db') :
    db' = db ∨ db' = r.command.effect r.outside db := by
  rcases h.of_cons with ⟨hsame, -⟩ | ⟨a, -, hrun⟩
  · exact .inl hsame
  · exact .inr (StatisticsCommand.eq_effect_of_run hrun)

theorem findDay_of_finalizeDay
    (hgood : Good (discipline hashtext) (statistics hashtext) StatisticsDb.empty σ)
    {l : List StatisticsRecord} {i o : ℕ} {linkDay : LinkDay}
    {a : (StatisticsCommand.finalizeDay linkDay).Res} {wrote : Bool}
    (hlog : σ.log = ⟨i, .finalizeDay linkDay, o, .ok a, wrote⟩ :: l) :
    σ.db.findDay linkDay ≠ none := by
  have hclosed : ∀ db, StatisticsDb.findDay linkDay
      (StatisticsCommand.effect (.finalizeDay linkDay) o db) ≠ none := by
    intro db hnone
    have hsome := StatisticsDb.findDay_close_self linkDay o db
    simp only [StatisticsCommand.effect] at hnone
    rw [hnone] at hsome
    cases hsome
  have hserial := hgood.serial
  cases wrote with
  | true =>
      obtain ⟨d₁, d₂, b, -, -, hrun, hrest⟩ :=
        hserial.exists_run ((List.nil_append _).trans hlog.symm).symm
          List.nil_suffix rfl
      have hdb : d₂ = StatisticsCommand.effect (.finalizeDay linkDay) o d₁ :=
        StatisticsCommand.eq_effect_of_run hrun
      rw [hlog] at hrest
      rw [hrest.same, hdb]
      exact hclosed d₁
  | false =>
      obtain ⟨l₁, d₁, hl₁, hs₁, hrun⟩ := hgood.reads l [] _ a hlog rfl rfl
      have hdb : d₁ = StatisticsCommand.effect (.finalizeDay linkDay) o d₁ :=
        StatisticsCommand.eq_effect_of_run hrun
      have hday : d₁.findDay linkDay ≠ none := by
        rw [hdb]
        exact hclosed d₁
      have hsplit := hserial.split hs₁ (hl₁.trans (hlog ▸ List.suffix_cons _ _))
      have hkept : ClosedKept d₁ σ.db := hsplit.relates (P := fun _ => True)
        (fun _ _ _ _ _ _ _ => trivial) closedKept_refl
        (fun _ _ _ h₁ h₂ => h₁.trans h₂) (fun c o d a d' _ hrun => by
          obtain rfl := StatisticsCommand.eq_effect_of_run hrun
          exact c.closedKept o d) trivial
      exact (hkept linkDay hday).1

variable {I : StatisticsDb → Prop} {Φ : StatisticsDb → List LinkDay → Prop}
  {before : UtcDate} {db : StatisticsDb}

theorem FinalizerAt.env {db' : StatisticsDb} {p : StatisticsProgress}
    (h : FinalizerAt Φ before db p)
    (hΦ : ∀ candidates, Φ db candidates → Φ db' candidates) :
    FinalizerAt Φ before db' p := by
  cases h with
  | start => exact .start
  | querying o held => exact .querying o held
  | queried o held candidates h => exact .queried o held candidates (hΦ _ h)
  | next candidate candidates h => exact .next candidate candidates (hΦ _ h)
  | closing o cur held ws candidate candidates h =>
      exact .closing o cur held ws candidate candidates (hΦ _ h)
  | done h => exact .done (hΦ _ h)
  | failed e => exact .failed e

theorem finalizerAt_candidates {candidates : List LinkDay} (h : Φ db candidates) :
    FinalizerAt Φ before db (.idle (finalizeCandidates candidates)) := by
  cases candidates with
  | nil => exact .done h
  | cons candidate candidates => exact .next candidate candidates h

/-- One step keeps where the clients stand that run `finalizeDays before`. -/
theorem FinalizerAt.change (hrule : FinalizerRule I Φ before) {n : ℕ}
    (hgood : Good (discipline hashtext) (statistics hashtext) StatisticsDb.empty σ)
    (hI : I σ.db) (hstep : System.Change (statistics hashtext) σ σ')
    (hσ : ∀ k p, n ≤ k → σ.clients[k]? = some ⟨.finalizeDays before, p⟩ →
      FinalizerAt Φ before σ.db p) :
    I σ'.db ∧ ∀ k p, n ≤ k → σ'.clients[k]? = some ⟨.finalizeDays before, p⟩ →
      FinalizerAt Φ before σ'.db p := by
  obtain ⟨hgood', hserial⟩ := hgood.change (discipline_valid hashtext) hstep
  cases hstep with
  | spawn call =>
      refine ⟨hI, fun k p hn hk => ?_⟩
      rcases List.mem_append.1 (List.mem_of_getElem? hk) with - | hnew
      · rw [List.getElem?_append] at hk
        split at hk
        · exact hσ k p hn hk
        · have hnew := List.mem_singleton.1 (List.mem_of_getElem? hk)
          cases hnew
          exact .start
      · cases List.mem_singleton.1 hnew
        exact .start
  | begin i o call c next hi =>
      refine ⟨hI, fun k p hn hk => ?_⟩
      rcases getElem?_set_cases hk with ⟨rfl, heq⟩ | ⟨-, hold⟩
      · cases heq
        cases hσ k _ hn hi with
        | start => exact .querying o []
        | next candidate candidates h => exact .closing o _ _ _ _ _ h
      · exact hσ k p hn hold
  | lock i call c o key cur held ws next hi hfree =>
      refine ⟨hI, fun k p hn hk => ?_⟩
      rcases getElem?_set_cases hk with ⟨rfl, heq⟩ | ⟨-, hold⟩
      · cases heq
        cases hσ k _ hn hi with
        | closing o cur held ws candidate candidates h =>
            exact .closing o _ _ _ _ _ h
      · exact hσ k p hn hold
  | read i call c o cur held ws next view hi hview =>
      refine ⟨hI, fun k p hn hk => ?_⟩
      rcases getElem?_set_cases hk with ⟨rfl, heq⟩ | ⟨-, hold⟩
      · cases heq
        cases hσ k _ hn hi with
        | querying o held =>
            obtain rfl := Except.ok.inj hview
            exact .queried o held _ (hrule.query _ hI)
        | closing o cur held ws candidate candidates h =>
            exact .closing o _ _ _ _ _ h
      · exact hσ k p hn hold
  | write i call c o w cur held ws next view hi hview =>
      refine ⟨hI, fun k p hn hk => ?_⟩
      rcases getElem?_set_cases hk with ⟨rfl, heq⟩ | ⟨-, hold⟩
      · cases heq
        cases hσ k _ hn hi with
        | closing o cur held ws candidate candidates h =>
            exact .closing o _ _ _ _ _ h
      · exact hσ k p hn hold
  | fail i call c o cur held ws next e hi =>
      refine ⟨hI, fun k p hn hk => ?_⟩
      rcases getElem?_set_cases hk with ⟨rfl, heq⟩ | ⟨-, hold⟩
      · cases heq
        cases hσ k _ hn hi with
        | querying o held => exact .failed e
        | queried o held candidates h => exact .failed e
        | closing o cur held ws candidate candidates h => exact .failed e
      · exact hσ k p hn hold
  | commit i call c o a held ws next d hi hd =>
      have hdb : d = σ.db ∨ d = c.effect o σ.db := effect_of_serial hserial
      have hI' : I d := by
        rcases hdb with rfl | rfl
        · exact hI
        · exact hrule.inv c o σ.db hI
      have hΦ : ∀ candidates, Φ σ.db candidates → Φ d candidates := by
        intro candidates h
        rcases hdb with rfl | rfl
        · exact h
        · exact hrule.effect c o σ.db candidates hI h
      refine ⟨hI', fun k p hn hk => ?_⟩
      rcases getElem?_set_cases hk with ⟨rfl, heq⟩ | ⟨-, hold⟩
      · cases heq
        cases hσ k _ hn hi with
        | queried o held candidates h =>
            exact finalizerAt_candidates (hΦ _ h)
        | closing o cur held ws candidate candidates h =>
            have hclosed : d.findDay candidate ≠ none :=
              findDay_of_finalizeDay hgood' rfl
            exact finalizerAt_candidates
              (hrule.closed d candidate candidates hI' hclosed (hΦ _ h))
      · exact (hσ k p hn hold).env hΦ

/-- Where the clients stand that run `finalizeDays before` and were started from
number `n` on. -/
theorem FinalizerAt.reaches (hrule : FinalizerRule I Φ before) {n : ℕ}
    (hgood : Good (discipline hashtext) (statistics hashtext) StatisticsDb.empty σ)
    (hI : I σ.db) (h : (statistics hashtext).Reaches σ σ')
    (hσ : ∀ k p, n ≤ k → σ.clients[k]? = some ⟨.finalizeDays before, p⟩ →
      FinalizerAt Φ before σ.db p) :
    ∀ k p, n ≤ k → σ'.clients[k]? = some ⟨.finalizeDays before, p⟩ →
      FinalizerAt Φ before σ'.db p := by
  have hall : I σ'.db ∧ ∀ k p, n ≤ k →
      σ'.clients[k]? = some ⟨.finalizeDays before, p⟩ →
        FinalizerAt Φ before σ'.db p := by
    induction h with
    | refl => exact ⟨hI, hσ⟩
    | @tail σ₁ σ₂ hrun hstep ih =>
        have hgood₁ := (hgood.reaches (discipline_valid hashtext) hrun).1
        exact FinalizerAt.change hrule hgood₁ ih.1 hstep.change ih.2
  exact hall.2

end

/-! ### What is left to close -/

namespace StatisticsDb

variable {db : StatisticsDb} {linkDay : LinkDay} {before : UtcDate}

def HasRow (linkDay : LinkDay) (db : StatisticsDb) : Prop :=
  ∃ e ∈ db.events, e.linkDay = linkDay

theorem mem_findCandidates_iff :
    linkDay ∈ db.findCandidates before ↔
      linkDay.2 < before ∧ db.findDay linkDay = none ∧
        (db.HasRow linkDay ∨ ∃ v ∈ db.dailyVisitors, v.linkDay = linkDay) := by
  simp only [findCandidates, List.mem_insertionSort, List.mem_filter,
    List.mem_dedup, List.mem_append, List.mem_map, decide_eq_true_eq,
    Option.isNone_iff_eq_none, HasRow]
  constructor
  · rintro ⟨⟨hrow, hlt⟩ | ⟨hrow, hlt⟩, hopen⟩
    · exact ⟨hlt, hopen, .inl hrow⟩
    · exact ⟨hlt, hopen, .inr hrow⟩
  · rintro ⟨hlt, hopen, hrow | hrow⟩
    · exact ⟨.inl ⟨hrow, hlt⟩, hopen⟩
    · exact ⟨.inr ⟨hrow, hlt⟩, hopen⟩

theorem hasRow_of_visitor (h : Consistent db) {v : LinkDailyVisitor}
    (hv : v ∈ db.dailyVisitors) : db.HasRow v.linkDay := by
  have hvisitor : db.hasVisitor v.linkDay v.visitorPseudonym = true :=
    hasVisitor_iff.2 (List.mem_map_of_mem
      (f := fun v : LinkDailyVisitor => (v.linkDay, v.visitorPseudonym)) hv)
  obtain ⟨e, he, heq, -⟩ := (h.visitors _ _).1 hvisitor
  exact ⟨e, he, heq⟩

theorem hasRow_of_mem_findCandidates (h : Consistent db)
    (hmem : linkDay ∈ db.findCandidates before) : db.HasRow linkDay := by
  obtain ⟨-, -, hrow | ⟨v, hv, rfl⟩⟩ := mem_findCandidates_iff.1 hmem
  · exact hrow
  · exact hasRow_of_visitor h hv

/-- A day that is open afterwards was open. -/
theorem findDay_of_effect {c : StatisticsCommand} {o : ℕ}
    (h : (c.effect o db).findDay linkDay = none) : db.findDay linkDay = none := by
  by_contra hclosed
  exact (c.closedKept o db linkDay hclosed).1 h

/-- The events of a day stay until it is closed. -/
theorem hasRow_effect {c : StatisticsCommand} {o : ℕ} (hrow : db.HasRow linkDay)
    (hopen : (c.effect o db).findDay linkDay = none) :
    (c.effect o db).HasRow linkDay := by
  obtain ⟨e, he, heq⟩ := hrow
  cases c with
  | recordAccess input =>
      simp only [StatisticsCommand.effect, HasRow]
      rcases record_cases input db with hsame | ⟨-, -, hcount⟩
      · rw [hsame]
        exact ⟨e, he, heq⟩
      · rw [hcount, events_countAccess]
        exact ⟨e, List.mem_append_left _ he, heq⟩
  | findCandidates before => exact ⟨e, he, heq⟩
  | finalizeDay linkDay' =>
      have hne : linkDay ≠ linkDay' := (findDay_close_eq_none_iff.1 hopen).1
      simp only [StatisticsCommand.effect, HasRow, events_close]
      exact ⟨e, List.mem_filter.2 ⟨he, by simp [heq, hne]⟩, heq⟩

end StatisticsDb

/-- The candidates that are left are days before the cutoff that have rows or are
closed. -/
def Pending (before : UtcDate) (db : StatisticsDb) (candidates : List LinkDay) :
    Prop :=
  ∀ linkDay ∈ candidates,
    linkDay.2 < before ∧ (db.findDay linkDay = none → db.HasRow linkDay)

theorem pendingRule (before : UtcDate) :
    FinalizerRule Consistent (Pending before) before where
  inv c o _ h := h.effect c o
  query db h linkDay hmem :=
    ⟨(StatisticsDb.mem_findCandidates_iff.1 hmem).1,
      fun _ => StatisticsDb.hasRow_of_mem_findCandidates h hmem⟩
  effect c o db candidates _ h linkDay hmem := by
    refine ⟨(h linkDay hmem).1, fun hopen => ?_⟩
    exact StatisticsDb.hasRow_effect
      ((h linkDay hmem).2 (StatisticsDb.findDay_of_effect hopen)) hopen
  closed _ _ _ _ _ h linkDay hmem := h linkDay (List.mem_cons_of_mem _ hmem)

/-- The day is among the candidates that are left, unless it is closed. -/
def Awaited (linkDay : LinkDay) (db : StatisticsDb) (candidates : List LinkDay) :
    Prop :=
  db.findDay linkDay = none → linkDay ∈ candidates

theorem awaitedRule {before : UtcDate} {linkDay : LinkDay}
    (hlt : linkDay.2 < before) :
    FinalizerRule
      (fun db => Consistent db ∧ (db.findDay linkDay = none → db.HasRow linkDay))
      (Awaited linkDay) before where
  inv c o db h := by
    refine ⟨h.1.effect c o, fun hopen => ?_⟩
    exact StatisticsDb.hasRow_effect
      (h.2 (StatisticsDb.findDay_of_effect hopen)) hopen
  query db h hopen :=
    StatisticsDb.mem_findCandidates_iff.2 ⟨hlt, hopen, .inl (h.2 hopen)⟩
  effect c o db candidates _ h hopen := h (StatisticsDb.findDay_of_effect hopen)
  closed db candidate candidates _ hclosed h hopen := by
    refine (List.mem_cons.1 (h hopen)).resolve_left ?_
    rintro rfl
    exact hclosed hopen

section

variable {hashtext : String → ℤ} {σ σ' : StatisticsState}

/-- A run of `finalizeDays` that has finished has closed every day before its
cutoff that had an event when the run was started. -/
theorem closed_of_finished
    (h : (statistics hashtext).Reaches (State.init StatisticsDb.empty) σ)
    (h' : (statistics hashtext).Reaches σ σ') {before : UtcDate} {k : ℕ}
    (hk : σ.clients.length ≤ k)
    (hdone : σ'.clients[k]? =
      some ⟨.finalizeDays before, .idle (.pure (.ok ()))⟩)
    {linkDay : LinkDay} (hlt : linkDay.2 < before)
    (hrow : σ.db.HasRow linkDay) : σ'.db.findDay linkDay ≠ none := by
  have hat := FinalizerAt.reaches (awaitedRule hlt) (good_of_reaches h)
    ⟨consistent_of_reaches h, fun _ => hrow⟩ h' (fun k' p hn hp => by
      have := (List.getElem?_eq_some_iff.1 hp).1
      omega) k _ hk hdone
  cases hat with
  | done hawaited =>
      intro hopen
      cases hawaited hopen

/-- The candidates that a run of `finalizeDays` has left. -/
theorem pending_of_reaches
    (h : (statistics hashtext).Reaches (State.init StatisticsDb.empty) σ)
    {before : UtcDate} {k : ℕ} {p : StatisticsProgress}
    (hk : σ.clients[k]? = some ⟨.finalizeDays before, p⟩) :
    FinalizerAt (Pending before) before σ.db p :=
  FinalizerAt.reaches (pendingRule before) (good_init trivial) .empty h
    (n := 0) (fun k' p' _ hp => by simp [State.init] at hp) k p (Nat.zero_le k) hk

end

/-! ### What closing does to the tables -/

/-- The tables `db` arise from `db₀` by closing days before the cutoff that had
events. -/
structure Closing (before : UtcDate) (db₀ db : StatisticsDb) : Prop where
  dailyAggregates : db.dailyAggregates = db₀.dailyAggregates
  monthlyAggregates : db.monthlyAggregates = db₀.monthlyAggregates
  events : db.events =
    db₀.events.filter fun e => (db.findDay e.linkDay).isNone
  dailyVisitors : db.dailyVisitors =
    db₀.dailyVisitors.filter fun v => (db.findDay v.linkDay).isNone
  days : ∃ marked : List LinkStatisticsDay, db.days = db₀.days ++ marked ∧
    (marked.map (·.linkDay)).Nodup ∧
      ∀ d ∈ marked, d.occurredOn < before ∧ db₀.HasRow d.linkDay

namespace StatisticsDb

theorem findDay_eq_none_iff {db : StatisticsDb} {linkDay : LinkDay} :
    db.findDay linkDay = none ↔ ∀ d ∈ db.days, d.linkDay ≠ linkDay := by
  simp [findDay]

theorem isNone_findDay_close {db : StatisticsDb} {linkDay linkDay' : LinkDay}
    {finalizedAt : ℕ} :
    ((db.close linkDay finalizedAt).findDay linkDay').isNone =
      (decide (linkDay' ≠ linkDay) && (db.findDay linkDay').isNone) := by
  rw [Bool.eq_iff_iff, Option.isNone_iff_eq_none, findDay_close_eq_none_iff]
  simp

end StatisticsDb

/-- Closing a closed day again changes nothing. -/
theorem Consistent.close_of_closed {db : StatisticsDb} (h : Consistent db)
    {linkDay : LinkDay} (hclosed : db.findDay linkDay ≠ none) (finalizedAt : ℕ) :
    db.close linkDay finalizedAt = db := by
  have hevents : db.events.filter (fun e => e.linkDay ≠ linkDay) = db.events := by
    refine List.filter_eq_self.2 fun e he => decide_eq_true ?_
    rintro rfl
    exact hclosed (h.closedEvents e he)
  have hvisitors : db.dailyVisitors.filter (fun v => v.linkDay ≠ linkDay) =
      db.dailyVisitors := by
    refine List.filter_eq_self.2 fun v hv => decide_eq_true ?_
    rintro rfl
    exact hclosed (h.closedVisitors hv)
  rw [StatisticsDb.close, if_pos (Option.isSome_iff_ne_none.2 hclosed)]
  simp only [StatisticsDb.deleteEvents, StatisticsDb.deleteVisitors, hevents,
    hvisitors]

namespace Closing

open StatisticsDb

variable {before : UtcDate} {db₀ db : StatisticsDb}

theorem refl (h : Consistent db₀) : Closing before db₀ db₀ where
  dailyAggregates := rfl
  monthlyAggregates := rfl
  events := (List.filter_eq_self.2 fun e he =>
    Option.isNone_iff_eq_none.2 (h.closedEvents e he)).symm
  dailyVisitors := (List.filter_eq_self.2 fun _ hv =>
    Option.isNone_iff_eq_none.2 (h.closedVisitors hv)).symm
  days := ⟨[], (List.append_nil _).symm, List.nodup_nil, fun d hd => by cases hd⟩

/-- One more day is closed. -/
theorem close (h : Closing before db₀ db) (hdb : Consistent db) {linkDay : LinkDay}
    (hlt : linkDay.2 < before)
    (hrow : db.findDay linkDay = none → db.HasRow linkDay) (finalizedAt : ℕ) :
    Closing before db₀ (db.close linkDay finalizedAt) := by
  by_cases hopen : db.findDay linkDay = none
  · obtain ⟨marked, hdays, hnodup, hmarked⟩ := h.days
    refine ⟨?_, ?_, ?_, ?_, marked ++ [⟨linkDay.1, linkDay.2, finalizedAt⟩],
      ?_, ?_, ?_⟩
    · rw [dailyAggregates_close, h.dailyAggregates]
    · rw [monthlyAggregates_close, h.monthlyAggregates]
    · rw [events_close, h.events, List.filter_filter]
      refine List.filter_congr fun e _ => ?_
      rw [isNone_findDay_close]
    · rw [dailyVisitors_close, h.dailyVisitors, List.filter_filter]
      refine List.filter_congr fun v _ => ?_
      rw [isNone_findDay_close]
    · rw [days_close, hopen, hdays]
      simp
    · rw [List.map_append, List.map_singleton]
      refine List.nodup_append.2 ⟨hnodup, List.nodup_singleton _, ?_⟩
      rintro d hd _ hd' rfl
      obtain rfl : d = linkDay := List.mem_singleton.1 hd'
      obtain ⟨d', hd', heq⟩ := List.mem_map.1 hd
      exact findDay_eq_none_iff.1 hopen d'
        (hdays ▸ List.mem_append_right _ hd') heq
    · intro d hd
      rcases List.mem_append.1 hd with hd | hd
      · exact hmarked d hd
      · obtain rfl := List.mem_singleton.1 hd
        obtain ⟨e, he, heq⟩ := hrow hopen
        rw [h.events] at he
        exact ⟨hlt, e, (List.mem_filter.1 he).1, heq⟩
  · rwa [hdb.close_of_closed hopen]

end Closing

/-- The tables after `finalizeDays before`, but for `finalizedAt` and the order in
which the days were closed. -/
structure Finalised (before : UtcDate) (db₀ db : StatisticsDb) : Prop where
  dailyAggregates : db.dailyAggregates = db₀.dailyAggregates
  monthlyAggregates : db.monthlyAggregates = db₀.monthlyAggregates
  events : db.events = db₀.events.filter fun e => before ≤ e.occurredOn
  dailyVisitors : db.dailyVisitors =
    db₀.dailyVisitors.filter fun v => before ≤ v.occurredOn
  days : ∃ marked : List LinkStatisticsDay, db.days = db₀.days ++ marked ∧
    (marked.map (·.linkDay)).Nodup ∧
      ∀ linkDay, linkDay ∈ marked.map (·.linkDay) ↔ linkDay.2 < before ∧
        ((∃ e ∈ db₀.events, e.linkDay = linkDay) ∨
          ∃ v ∈ db₀.dailyVisitors, v.linkDay = linkDay)

/-- Closing every day before the cutoff that had events finalises the tables. -/
theorem Closing.finalised {before : UtcDate} {db₀ db : StatisticsDb}
    (h : Closing before db₀ db) (hdb₀ : Consistent db₀)
    (hclosed : ∀ linkDay : LinkDay, linkDay.2 < before → db₀.HasRow linkDay →
      db.findDay linkDay ≠ none) : Finalised before db₀ db := by
  obtain ⟨marked, hdays, hnodup, hmarked⟩ := h.days
  have hiff : ∀ linkDay, db₀.HasRow linkDay →
      (db.findDay linkDay).isNone = decide (before ≤ linkDay.2) := by
    intro linkDay hrow
    rw [Bool.eq_iff_iff, Option.isNone_iff_eq_none, decide_eq_true_eq]
    constructor
    · intro hopen
      by_contra hlt
      exact hclosed linkDay (not_le.1 hlt) hrow hopen
    · intro hle
      rw [StatisticsDb.findDay_eq_none_iff, hdays]
      rintro d hd rfl
      rcases List.mem_append.1 hd with hd | hd
      · obtain ⟨e, he, heq⟩ := hrow
        have hopen := hdb₀.closedEvents e he
        exact StatisticsDb.findDay_eq_none_iff.1 hopen d hd heq.symm
      · exact absurd (hmarked d hd).1 (not_lt.2 hle)
  refine ⟨h.dailyAggregates, h.monthlyAggregates, ?_, ?_, marked, hdays, hnodup, ?_⟩
  · rw [h.events]
    exact List.filter_congr fun e he => hiff e.linkDay ⟨e, he, rfl⟩
  · rw [h.dailyVisitors]
    exact List.filter_congr fun v hv =>
      hiff v.linkDay (StatisticsDb.hasRow_of_visitor hdb₀ hv)
  · intro linkDay
    constructor
    · intro hmem
      obtain ⟨d, hd, rfl⟩ := List.mem_map.1 hmem
      exact ⟨(hmarked d hd).1, .inl (hmarked d hd).2⟩
    · rintro ⟨hlt, hrows⟩
      have hrow : db₀.HasRow linkDay := by
        rcases hrows with hrow | ⟨v, hv, rfl⟩
        · exact hrow
        · exact StatisticsDb.hasRow_of_visitor hdb₀ hv
      obtain ⟨e, he, rfl⟩ := hrow
      have hmem := hclosed _ hlt ⟨e, he, rfl⟩
      rw [ne_eq, StatisticsDb.findDay_eq_none_iff, hdays] at hmem
      simp only [not_forall, not_not, exists_prop] at hmem
      obtain ⟨d, hd, heq⟩ := hmem
      rcases List.mem_append.1 hd with hd | hd
      · exact absurd heq (StatisticsDb.findDay_eq_none_iff.1
          (hdb₀.closedEvents e he) d hd)
      · exact heq ▸ List.mem_map_of_mem hd

/-- The same tables, but for `finalizedAt` and the order of the closed days. -/
structure SameTables (db db' : StatisticsDb) : Prop where
  events : db.events = db'.events
  dailyVisitors : db.dailyVisitors = db'.dailyVisitors
  dailyAggregates : db.dailyAggregates = db'.dailyAggregates
  monthlyAggregates : db.monthlyAggregates = db'.monthlyAggregates
  days : (db.days.map (·.linkDay)).Perm (db'.days.map (·.linkDay))

/-- The tables after a finalisation are determined by those before. -/
theorem Finalised.same {before : UtcDate} {db₀ db db' : StatisticsDb}
    (h : Finalised before db₀ db) (h' : Finalised before db₀ db') :
    SameTables db db' where
  events := h.events.trans h'.events.symm
  dailyVisitors := h.dailyVisitors.trans h'.dailyVisitors.symm
  dailyAggregates := h.dailyAggregates.trans h'.dailyAggregates.symm
  monthlyAggregates := h.monthlyAggregates.trans h'.monthlyAggregates.symm
  days := by
    obtain ⟨marked, hdays, hnodup, hmarked⟩ := h.days
    obtain ⟨marked', hdays', hnodup', hmarked'⟩ := h'.days
    rw [hdays, hdays', List.map_append, List.map_append]
    refine List.Perm.append_left _ ((List.perm_ext_iff_of_nodup hnodup hnodup').2
      fun linkDay => ?_)
    rw [hmarked, hmarked']

/-! ### Runs of the finalizer -/

/-- A run from `σ₀` in which no transactions commit but those of `finalizeDays`
with cutoffs up to `before`. -/
def Finalising (hashtext : String → ℤ) (before : UtcDate)
    (σ₀ σ : StatisticsState) : Prop :=
  (statistics hashtext).Reaches σ₀ σ ∧
    ∀ l, σ.log = l ++ σ₀.log → ∀ r ∈ l, (∃ a, r.reply = .ok a) →
      ∃ b p, σ.clients[r.client]? = some ⟨.finalizeDays b, p⟩ ∧ b ≤ before

section

variable {hashtext : String → ℤ} {before : UtcDate} {σ₀ σ σ₁ σ₂ : StatisticsState}

theorem client_of_log
    (h : (statistics hashtext).Reaches (State.init StatisticsDb.empty) σ)
    {r : StatisticsRecord} (hr : r ∈ σ.log) : ∃ cl, σ.clients[r.client]? = some cl := by
  have hissued := h.issued (fun _ _ => True) (fun call =>
    ((StatisticsCall.program call).sat_true)) (Issued.init StatisticsDb.empty)
  obtain ⟨cl, hcl, -⟩ := hissued.log r hr
  exact ⟨cl, hcl⟩

/-- The beginning of a run of finalizers is one. -/
theorem Finalising.init (h₀ : (statistics hashtext).Reaches
      (State.init StatisticsDb.empty) σ₀)
    (h₁ : (statistics hashtext).Reaches σ₀ σ₁)
    (h₂ : (statistics hashtext).Reaches σ₁ σ₂)
    (h : Finalising hashtext before σ₀ σ₂) : Finalising hashtext before σ₀ σ₁ := by
  refine ⟨h₁, fun l hl r hr hok => ?_⟩
  obtain ⟨l', hl'⟩ := (serial_later (h₀.trans h₁) h₂).suffix
  have hlog : σ₂.log = (l' ++ l) ++ σ₀.log := by
    rw [← hl', hl, List.append_assoc]
  obtain ⟨b, p, hcl₂, hb⟩ := h.2 _ hlog r (List.mem_append_right _ hr) hok
  obtain ⟨cl, hcl⟩ := client_of_log (h₀.trans h₁)
    (hl ▸ List.mem_append_left _ hr : r ∈ σ₁.log)
  obtain ⟨cl', hcl', hcall⟩ := System.Reaches.call h₂ hcl
  obtain rfl := Option.some.inj (hcl₂.symm.trans hcl')
  obtain ⟨call, p'⟩ := cl
  obtain rfl : StatisticsCall.finalizeDays b = call := hcall
  exact ⟨b, p', hcl, hb⟩

/-- One step of a run of finalizers. -/
theorem Closing.change
    (h₀ : (statistics hashtext).Reaches (State.init StatisticsDb.empty) σ₀)
    (h₁ : (statistics hashtext).Reaches σ₀ σ₁)
    (hstep : (statistics hashtext).Steps σ₁ σ₂)
    (h : Finalising hashtext before σ₀ σ₂)
    (hclosing : Closing before σ₀.db σ₁.db) : Closing before σ₀.db σ₂.db := by
  have hreaches₁ := h₀.trans h₁
  have hserial := serial_later hreaches₁ (.single hstep)
  cases hstep.change with
  | spawn call => exact hclosing
  | begin i o call c next hi => exact hclosing
  | lock i call c o k cur held ws next hi hfree => exact hclosing
  | read i call c o cur held ws next view hi hview => exact hclosing
  | write i call c o w cur held ws next view hi hview => exact hclosing
  | fail i call c o cur held ws next e hi => exact hclosing
  | commit i call c o a held ws next d hi hd =>
      have hdb : d = σ₁.db ∨ d = c.effect o σ₁.db := effect_of_serial hserial
      rcases hdb with rfl | rfl
      · exact hclosing
      · -- the transaction that commits is one of the finalizer
        obtain ⟨l, hl⟩ := (serial_later h₀ h₁).suffix
        obtain ⟨b, p, hcl, hb⟩ := h.2 (⟨i, c, o, .ok a, !ws.isEmpty⟩ :: l)
          (congrArg _ hl.symm) _ List.mem_cons_self ⟨a, rfl⟩
        have hset := List.getElem?_set_self (a := (⟨call, .idle (next (.ok a))⟩ :
          Client StatisticsCommand StatisticsCommand.Res StatisticsCall
            (Except StorageError Unit) ℕ StatisticsDb LockKey StorageError))
          (List.getElem?_eq_some_iff.1 hi).1
        obtain ⟨rfl, -⟩ := Client.mk.inj (Option.some.inj (hset.symm.trans hcl))
        have hat := pending_of_reaches hreaches₁ hi
        cases hat with
        | queried o held candidates h => exact hclosing
        | closing o cur held ws candidate candidates hpending =>
            obtain ⟨hlt, hrow⟩ := hpending candidate List.mem_cons_self
            exact hclosing.close (consistent_of_reaches hreaches₁)
              (hlt.trans_le hb) hrow o

theorem Closing.of_finalising
    (h₀ : (statistics hashtext).Reaches (State.init StatisticsDb.empty) σ₀)
    (h : Finalising hashtext before σ₀ σ) : Closing before σ₀.db σ.db := by
  have hrun := h.1
  induction hrun with
  | refl => exact .refl (consistent_of_reaches h₀)
  | @tail σ₁ σ₂ h₁ hstep ih =>
      have hbegin := Finalising.init h₀ h₁ (.single hstep) h
      exact Closing.change h₀ h₁ hstep h (ih hbegin)

theorem finalised_of_finished
    (h₀ : (statistics hashtext).Reaches (State.init StatisticsDb.empty) σ₀)
    (h : Finalising hashtext before σ₀ σ) {k : ℕ} (hk : σ₀.clients.length ≤ k)
    (hdone : σ.clients[k]? =
      some ⟨.finalizeDays before, .idle (.pure (.ok ()))⟩) :
    Finalised before σ₀.db σ.db :=
  (Closing.of_finalising h₀ h).finalised (consistent_of_reaches h₀)
    fun _ hlt hrow => closed_of_finished h₀ h.1 hk hdone hlt hrow

/-! ### A run that nobody disturbs -/

/-- The candidates that are left can be closed one after another. -/
theorem exists_run_candidates (hashtext : String → ℤ) {k : ℕ}
    (candidates : List LinkDay)
    (hk : σ.clients[k]? =
      some ⟨.finalizeDays before, .idle (finalizeCandidates candidates)⟩)
    (hfree : σ.Undisturbed k) :
    ∃ σ' l, (statistics hashtext).Reaches σ σ' ∧
      σ'.clients =
        σ.clients.set k ⟨.finalizeDays before, .idle (.pure (.ok ()))⟩ ∧
      σ'.log = l ++ σ.log ∧ ∀ r ∈ l, r.client = k := by
  induction candidates generalizing σ with
  | nil =>
      refine ⟨σ, [], .refl, ?_, rfl, fun r hr => by cases hr⟩
      obtain ⟨hlt, heq⟩ := List.getElem?_eq_some_iff.1 hk
      have hset := List.set_getElem_self hlt
      rw [heq] at hset
      exact hset.symm
  | cons candidate candidates ih =>
      have hbody : ((statistics hashtext).impl (.finalizeDay candidate) 0).run
          σ.db = .ok ((), σ.db.close candidate 0) :=
        finalizeDayTx_run hashtext candidate 0 σ.db
      obtain ⟨σ₁, wrote, hrun, -, hclients₁, hlog₁⟩ :=
        System.reaches_alone 0 hk hbody hfree
      have hk₁ : σ₁.clients[k]? = some
          ⟨.finalizeDays before, .idle (finalizeCandidates candidates)⟩ := by
        rw [hclients₁]
        exact List.getElem?_set_self (List.getElem?_eq_some_iff.1 hk).1
      obtain ⟨σ', l, hrest, hclients, hlog, hl⟩ := ih hk₁ (hfree.of_set hclients₁)
      refine ⟨σ', l ++ [⟨k, .finalizeDay candidate, 0, .ok (), wrote⟩],
        hrun.trans hrest, ?_, ?_, ?_⟩
      · rw [hclients, hclients₁]
        exact List.set_set _
      · rw [hlog, hlog₁, List.append_assoc]
        rfl
      · intro r hr
        rcases List.mem_append.1 hr with hr | hr
        · exact hl r hr
        · rw [List.mem_singleton.1 hr]

/-- When nobody holds a lock, `finalizeDays` can run to its end without
interruption. -/
theorem exists_run_finalizeDays (hashtext : String → ℤ) (before : UtcDate)
    (hfree : ∀ cl ∈ σ.clients, cl.held = []) :
    ∃ σ', Finalising hashtext before σ σ' ∧ σ'.clients = σ.clients ++
      [⟨.finalizeDays before, .idle (.pure (.ok ()))⟩] := by
  obtain ⟨σ₀, hspawn, hclients₀, hdb₀, hlog₀⟩ : ∃ σ₀ : StatisticsState,
      (statistics hashtext).Reaches σ σ₀ ∧ σ₀.clients = σ.clients ++
        [⟨.finalizeDays before, .idle (finalizeDays before)⟩] ∧
        σ₀.db = σ.db ∧ σ₀.log = σ.log :=
    ⟨_, .single ⟨.spawn (.finalizeDays before), rfl⟩, rfl, rfl, rfl⟩
  have hk₀ : σ₀.clients[σ.clients.length]? =
      some ⟨.finalizeDays before, .idle (finalizeDays before)⟩ := by
    simp [hclients₀]
  have hfree₀ : σ₀.Undisturbed σ.clients.length := by
    intro j cl hj hne
    rw [hclients₀] at hj
    rcases List.mem_append.1 (List.mem_of_getElem? hj) with hold | hnew
    · exact hfree cl hold
    · rw [List.mem_singleton.1 hnew]
      rfl
  have hbody : ((statistics hashtext).impl (.findCandidates before) 0).run σ₀.db =
      .ok (σ₀.db.findCandidates before, σ₀.db) := rfl
  obtain ⟨σ₁, wrote, hquery, -, hclients₁, hlog₁⟩ :=
    System.reaches_alone 0 hk₀ hbody hfree₀
  have hk₁ : σ₁.clients[σ.clients.length]? = some ⟨.finalizeDays before,
      .idle (finalizeCandidates (σ₀.db.findCandidates before))⟩ := by
    rw [hclients₁]
    exact List.getElem?_set_self (List.getElem?_eq_some_iff.1 hk₀).1
  obtain ⟨σ', l, hrest, hclients, hlog, hl⟩ :=
    exists_run_candidates hashtext _ hk₁ (hfree₀.of_set hclients₁)
  have hclients' : σ'.clients = σ.clients ++
      [⟨.finalizeDays before, .idle (.pure (.ok ()))⟩] := by
    rw [hclients, hclients₁, hclients₀]
    simp
  refine ⟨σ', ⟨(hspawn.trans hquery).trans hrest, fun l' hl' r hr _ => ?_⟩,
    hclients'⟩
  have happend : l' = l ++ [⟨σ.clients.length, .findCandidates before, 0,
      .ok (σ₀.db.findCandidates before), wrote⟩] := by
    refine List.append_cancel_right (hl'.symm.trans (hlog.trans ?_))
    rw [hlog₁, hlog₀, List.append_assoc]
    rfl
  have hclient : r.client = σ.clients.length := by
    rw [happend] at hr
    rcases List.mem_append.1 hr with hr | hr
    · exact hl r hr
    · rw [List.mem_singleton.1 hr]
  refine ⟨before, .idle (.pure (.ok ())), ?_, le_refl before⟩
  simp [hclient, hclients']

end

/-- A run of finalizers with cutoffs up to `before`, interleaved, interrupted and
repeated in any way, leaves the same tables as one uninterrupted run of
`finalizeDays before`, as soon as one of them with this cutoff has finished: the
rows before the cutoff are gone, their days are marked, and nothing else has
changed. -/
theorem finalisation_complete (hashtext : String → ℤ) (before : UtcDate)
    {σ₀ : StatisticsState}
    (h₀ : (statistics hashtext).Reaches (State.init StatisticsDb.empty) σ₀) :
    (∀ σ k, Finalising hashtext before σ₀ σ → σ₀.clients.length ≤ k →
      σ.clients[k]? = some ⟨.finalizeDays before, .idle (.pure (.ok ()))⟩ →
        Finalised before σ₀.db σ.db) ∧
      ((∀ cl ∈ σ₀.clients, cl.held = []) →
        ∃ σ₁, Finalising hashtext before σ₀ σ₁ ∧
          σ₁.clients = σ₀.clients ++
            [⟨.finalizeDays before, .idle (.pure (.ok ()))⟩] ∧
          Finalised before σ₀.db σ₁.db ∧
          ∀ σ k, Finalising hashtext before σ₀ σ → σ₀.clients.length ≤ k →
            σ.clients[k]? = some ⟨.finalizeDays before, .idle (.pure (.ok ()))⟩ →
              SameTables σ.db σ₁.db) := by
  refine ⟨fun σ k h hk hdone => finalised_of_finished h₀ h hk hdone, fun hfree => ?_⟩
  obtain ⟨σ₁, hrun, hclients⟩ := exists_run_finalizeDays hashtext before hfree
  have hdone₁ : σ₁.clients[σ₀.clients.length]? =
      some ⟨.finalizeDays before, .idle (.pure (.ok ()))⟩ := by simp [hclients]
  have hfinal₁ := finalised_of_finished h₀ hrun (Nat.le_refl _) hdone₁
  exact ⟨σ₁, hrun, hclients, hfinal₁, fun σ k h hk hdone =>
    (finalised_of_finished h₀ h hk hdone).same hfinal₁⟩

/-- One access is recorded. -/
def openNewYear : StatisticsState :=
  (statistics fun _ => 0).after
    ([.spawn (.recordAccess (newYearAccess "e0" "v")), .begin 0 0] ++
      List.replicate 11 (.advance 0) ++ [.commit 0])
    (State.init StatisticsDb.empty)

/-- Two finalizers find the day. The first one is interrupted while it closes the day, the
second one closes it. -/
def interruptedNewYear : StatisticsState :=
  (statistics fun _ => 0).after
    ([.spawn (.finalizeDays ⟨2026, 1, 2⟩), .begin 1 5, .advance 1, .commit 1,
      .spawn (.finalizeDays ⟨2026, 1, 2⟩), .begin 2 6, .advance 2, .commit 2,
      .begin 1 7, .advance 1, .advance 1, .advance 1, .abort 1 (.error "down"),
      .begin 2 8] ++ List.replicate 5 (.advance 2) ++ [.commit 2])
    openNewYear

theorem interruptedNewYear_finalising :
    Finalising (fun _ => 0) ⟨2026, 1, 2⟩ openNewYear interruptedNewYear := by
  refine ⟨System.reaches_after _ _ _, fun l hl r hr _ => ?_⟩
  have hlog : interruptedNewYear.log = interruptedNewYear.log.take 4 ++ openNewYear.log := rfl
  obtain rfl := List.append_cancel_right (hl.symm.trans hlog)
  have hclient : ∀ r ∈ interruptedNewYear.log.take 4, r.client = 1 ∨ r.client = 2 := by decide
  rcases hclient r hr with h | h
  · exact ⟨⟨2026, 1, 2⟩, .idle (.pure (.error (.error "down"))), by rw [h]; rfl, le_refl _⟩
  · exact ⟨⟨2026, 1, 2⟩, .idle (.pure (.ok ())), by rw [h]; rfl, le_refl _⟩

/-- The tables are those that one uninterrupted run leaves. -/
theorem openNewYear_finalised :
    openNewYear.db.events = [(newYearAccess "e0" "v").event] ∧
      interruptedNewYear.db.events = [] ∧
      Finalised ⟨2026, 1, 2⟩ openNewYear.db interruptedNewYear.db ∧
      ∃ σ₁ : StatisticsState, Finalising (fun _ => 0) ⟨2026, 1, 2⟩ openNewYear σ₁ ∧
        σ₁.clients = openNewYear.clients ++
          [⟨.finalizeDays ⟨2026, 1, 2⟩, .idle (.pure (.ok ()))⟩] ∧
        SameTables interruptedNewYear.db σ₁.db := by
  have hrun : (statistics fun _ => 0).Reaches (State.init StatisticsDb.empty)
      openNewYear := System.reaches_after _ _ _
  have hdone : interruptedNewYear.clients[2]? =
      some ⟨.finalizeDays ⟨2026, 1, 2⟩, .idle (.pure (.ok ()))⟩ := rfl
  obtain ⟨hfinalised, hsame⟩ := finalisation_complete (fun _ => 0) ⟨2026, 1, 2⟩ hrun
  obtain ⟨σ₁, hfinalising, hclients, -, hequal⟩ := hsame (by decide)
  exact ⟨by decide, by decide,
    hfinalised _ 2 interruptedNewYear_finalising (by decide) hdone, σ₁, hfinalising, hclients,
    hequal _ 2 interruptedNewYear_finalising (by decide) hdone⟩

end LinkStatistics

end Shortlink

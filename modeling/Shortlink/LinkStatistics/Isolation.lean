import Shortlink.LinkStatistics.Repository
import Shortlink.Transaction.Atomicity

/-!
# The lock of a day of a link

The transactions of one day of a link exclude each other by the advisory lock,
and two attempts to insert an event with the same id wait for each other. The
monthly row is shared by the days of the month without a lock, but it is only
ever incremented. So every transaction is as if it were executed alone.
-/

namespace Shortlink

namespace LinkStatistics

open Shortlink.Storage Shortlink.Table Shortlink.Transaction
open Shortlink.Interaction

namespace StatisticsDb

variable {db : StatisticsDb} {input : AccessEventInput}
  {linkDay linkDay' : LinkDay} {finalizedAt : ℕ}

/-- A record is the database itself or a counted access on an open day with a new
event. -/
theorem record_cases (input : AccessEventInput) (db : StatisticsDb) :
    db.record input = db ∨
      db.findDay input.linkDay = none ∧ db.hasEvent input.eventId = false ∧
        db.record input = db.countAccess input := by
  rw [record]
  split
  · exact .inl rfl
  · rename_i h
    simp only [Bool.or_eq_true, not_or, Bool.not_eq_true,
      Option.isSome_eq_false_iff, Option.isNone_iff_eq_none] at h
    exact .inr ⟨h.1, h.2, rfl⟩

theorem findDay_record :
    (db.record input).findDay linkDay = db.findDay linkDay := by
  rcases record_cases input db with h | ⟨-, -, h⟩ <;> simp [h, findDay]

theorem hasVisitor_record (h : linkDay ≠ input.linkDay)
    (visitorPseudonym : String) :
    (db.record input).hasVisitor linkDay visitorPseudonym =
      db.hasVisitor linkDay visitorPseudonym := by
  rcases record_cases input db with hsame | ⟨-, -, hcount⟩
  · rw [hsame]
  · have hne : input.linkDay ≠ linkDay := h.symm
    rw [hcount, hasVisitor, dailyVisitors_countAccess]
    split <;> simp [hasVisitor, hne]

theorem hasEvent_record {id : String} (h : id ≠ input.eventId) :
    (db.record input).hasEvent id = db.hasEvent id := by
  rcases record_cases input db with hsame | ⟨-, -, hcount⟩
  · rw [hsame]
  · have hne : input.event.id ≠ id := h.symm
    simp [hcount, hasEvent, hne]

theorem findDay_close_of_ne (h : linkDay' ≠ linkDay) :
    (db.close linkDay finalizedAt).findDay linkDay' = db.findDay linkDay' := by
  rw [findDay, days_close]
  split
  · rfl
  · simp [findDay, List.find?_append, Ne.symm h]

theorem hasVisitor_close_of_ne (h : linkDay' ≠ linkDay)
    (visitorPseudonym : String) :
    (db.close linkDay finalizedAt).hasVisitor linkDay' visitorPseudonym =
      db.hasVisitor linkDay' visitorPseudonym := by
  rw [hasVisitor, dailyVisitors_close, List.any_filter]
  refine congrArg (fun p => List.any db.dailyVisitors p) (funext fun v => ?_)
  by_cases hv : v.linkDay = linkDay'
  · simp [hv, h]
  · simp [hv]

theorem hasEvent_close {id : String}
    (h : (db.close linkDay finalizedAt).hasEvent id = true) :
    db.hasEvent id = true := by
  rw [hasEvent, events_close, List.any_filter] at h
  obtain ⟨e, he, hboth⟩ := List.any_eq_true.1 h
  exact List.any_eq_true.2 ⟨e, he, (Bool.and_eq_true_iff.1 hboth).2⟩

end StatisticsDb

/-! ### The discipline -/

/-- The lock of a day protects its marker and its visitors; the lock of an event
keeps others from inserting it. -/
def discipline (hashtext : String → ℤ) : Discipline StatisticsDb LockKey where
  Inv _ := True
  Evolves _ _ := True
  Frame
    | .advisory key₁ key₂, db, db' => ∀ linkDay : LinkDay,
        linkDayLock hashtext linkDay = .advisory key₁ key₂ →
          db'.findDay linkDay = db.findDay linkDay ∧
            ∀ visitorPseudonym, db'.hasVisitor linkDay visitorPseudonym =
              db.hasVisitor linkDay visitorPseudonym
    | .event id, db, db' => db'.hasEvent id = true → db.hasEvent id = true
  evolves_refl _ := trivial
  evolves_trans _ _ _ _ _ := trivial
  frame_refl
    | .advisory _ _, _ => fun _ _ => ⟨rfl, fun _ => rfl⟩
    | .event _, _ => id
  frame_trans
    | .advisory _ _, _, _, _ => fun h₁ h₂ linkDay hlock =>
        ⟨(h₂ linkDay hlock).1.trans (h₁ linkDay hlock).1,
          fun p => ((h₂ linkDay hlock).2 p).trans ((h₁ linkDay hlock).2 p)⟩
    | .event _, _, _, _ => fun h₁ h₂ h => h₁ (h₂ h)

section

variable {hashtext : String → ℤ} {H : List LockKey} {db db' : StatisticsDb}

theorem findDay_env (h : (discipline hashtext).Env H db db') {linkDay : LinkDay}
    (hH : linkDayLock hashtext linkDay ∈ H) :
    db'.findDay linkDay = db.findDay linkDay :=
  (h.frame _ hH linkDay rfl).1

theorem hasVisitor_env (h : (discipline hashtext).Env H db db')
    {linkDay : LinkDay} (hH : linkDayLock hashtext linkDay ∈ H)
    (visitorPseudonym : String) :
    db'.hasVisitor linkDay visitorPseudonym =
      db.hasVisitor linkDay visitorPseudonym :=
  (h.frame _ hH linkDay rfl).2 visitorPseudonym

theorem hasEvent_env (h : (discipline hashtext).Env H db db') {id : String}
    (hH : LockKey.event id ∈ H) (hnone : db.hasEvent id = false) :
    db'.hasEvent id = false := by
  by_contra hsome
  rw [Bool.not_eq_false] at hsome
  rw [h.frame _ hH hsome] at hnone
  cases hnone

end

/-- The part of `recordAccess` behind the insertion of the event. -/
theorem counted_stable {hashtext : String → ℤ} {input : AccessEventInput}
    {H : List LockKey} {db : StatisticsDb}
    (hH : linkDayLock hashtext input.linkDay ∈ H) :
    (discipline hashtext).Stable (recordAccessTx.counted input) H
      [fun db => .ok (db.insertEvent input)] db := by
  have hview : ∀ {d view : StatisticsDb},
      Tx.applyWrites [fun db => .ok (db.insertEvent input),
        fun db => .ok (db.incrementDailyAccesses input),
        fun db => (.ok (db.incrementMonthlyAccesses input) :
          Except StorageError StatisticsDb)] d = .ok view →
      view.hasVisitor input.linkDay input.visitorPseudonym =
        d.hasVisitor input.linkDay input.visitorPseudonym := by
    intro d view h
    obtain rfl := Except.ok.inj h
    rfl
  intro d₁ v₁ _ _ d₂ v₂ _ _ d₃ v₃ _ hv₃
  have hv₃' := hview hv₃
  refine ⟨fun d₄ v₄ henv hv₄ => ?_, ?_⟩
  · have hv₄' := hview hv₄
    simp only [Tx.pure_bind, hv₃', hv₄', hasVisitor_env henv hH]
  · simp only [Tx.pure_bind, hv₃']
    split
    · trivial
    · exact fun _ _ _ _ _ _ _ _ _ _ _ _ => trivial

/-- On an open day with a new event the transaction inserts the event and goes
on. -/
theorem recordAccessTx_open (hashtext : String → ℤ) {input : AccessEventInput}
    {db : StatisticsDb} (hday : db.findDay input.linkDay = none)
    (hevent : db.hasEvent input.eventId = false) :
    (recordAccessTx hashtext input).run db =
        (Tx.write (fun db => .ok (db.insertEvent input))
          (recordAccessTx.counted input) : StatisticsTx Unit).run db ∧
      (recordAccessTx hashtext input).locks db =
        linkDayLock hashtext input.linkDay :: .event input.eventId ::
          (Tx.write (fun db => .ok (db.insertEvent input))
            (recordAccessTx.counted input) : StatisticsTx Unit).locks db := by
  simp only [recordAccessTx, lockLinkDay, insertNewEvent, Tx.bind_eq,
    Tx.acquire_bind, Tx.query_bind, Tx.run_lock, Tx.run_read, Tx.locks_lock,
    Tx.locks_read, hday, Tx.lock_bind, Tx.read_bind, hevent]
  exact ⟨rfl, rfl⟩

theorem recordAccessTx_tracks (hashtext : String → ℤ) (input : AccessEventInput)
    (db : StatisticsDb) :
    (discipline hashtext).Tracks (recordAccessTx hashtext input)
      (recordAccessTx hashtext input) [] [] db := by
  have hday : linkDayLock hashtext input.linkDay ∈
      [linkDayLock hashtext input.linkDay] := List.mem_cons_self
  have hboth : linkDayLock hashtext input.linkDay ∈
      [.event input.eventId, linkDayLock hashtext input.linkDay] :=
    List.mem_cons_of_mem _ hday
  intro d₁ _ d₂ v₂ _ hv₂
  obtain rfl := Except.ok.inj hv₂
  simp only [Tx.pure_bind]
  cases hfind : d₂.findDay input.linkDay with
  | some day =>
      -- the day is closed
      have hrecord : d₂.record input = d₂ := by simp [StatisticsDb.record, hfind]
      exact (recordAccessTx_run hashtext input d₂).trans (by rw [hrecord])
  | none =>
      intro d₃ henv₃ d₄ v₄ henv₄ hv₄
      obtain rfl := Except.ok.inj hv₄
      have hopen : d₄.findDay input.linkDay = none := by
        rw [findDay_env henv₄ hboth, findDay_env henv₃ hday, hfind]
      simp only [Tx.pure_bind]
      cases hevent : d₄.hasEvent input.eventId with
      | true =>
          -- the event is known
          have hrecord : d₄.record input = d₄ := by
            simp [StatisticsDb.record, hevent]
          exact (recordAccessTx_run hashtext input d₄).trans (by rw [hrecord])
      | false =>
          have hrest : (discipline hashtext).Stable
              (.write (fun db => .ok (db.insertEvent input))
                (recordAccessTx.counted input))
              [.event input.eventId, linkDayLock hashtext input.linkDay] [] d₄ :=
            fun d₅ _ _ _ => counted_stable hboth
          refine hrest.tracks ?_ trivial
          intro d₅ v₅ henv₅ hv₅
          obtain rfl := Except.ok.inj hv₅
          obtain ⟨hrun, hlocks⟩ := recordAccessTx_open hashtext
            ((findDay_env henv₅ hboth).trans hopen) (hasEvent_env henv₅
              List.mem_cons_self hevent)
          refine ⟨hrun, fun k hk => ?_⟩
          rw [hlocks] at hk
          simpa [or_comm, or_assoc, or_left_comm] using hk

theorem finalizeDayTx_stable (hashtext : String → ℤ) (linkDay : LinkDay)
    (finalizedAt : ℕ) (db : StatisticsDb) :
    (discipline hashtext).Stable (finalizeDayTx hashtext linkDay finalizedAt)
      [] [] db := by
  intro d₁ _
  refine Discipline.stable_query_bind (fun d₂ d₃ _ henv =>
    findDay_env henv List.mem_cons_self) fun d₂ _ => ?_
  cases d₂.findDay linkDay with
  | some day => exact fun _ _ _ _ _ _ _ _ => trivial
  | none => exact fun _ _ _ _ _ _ _ _ _ _ _ _ => trivial

/-- What `recordAccess` leaves alone when it is executed alone. -/
theorem record_frame {hashtext : String → ℤ} {input : AccessEventInput}
    {db : StatisticsDb} {k : LockKey}
    (hk : k ∉ (recordAccessTx hashtext input).locks db) :
    (discipline hashtext).Frame k db (db.record input) := by
  have hlock : k ≠ linkDayLock hashtext input.linkDay :=
    fun heq => hk (heq ▸ List.mem_cons_self)
  cases k with
  | advisory key₁ key₂ =>
      intro linkDay hlinkDay
      have hne : linkDay ≠ input.linkDay :=
        fun heq => hlock (heq ▸ hlinkDay.symm)
      exact ⟨StatisticsDb.findDay_record, StatisticsDb.hasVisitor_record hne⟩
  | event id =>
      intro hsome
      rcases StatisticsDb.record_cases input db with hsame | ⟨hday, hevent, -⟩
      · exact hsame ▸ hsome
      · have hne : id ≠ input.eventId := by
          rintro rfl
          rw [(recordAccessTx_open hashtext hday hevent).2] at hk
          exact hk (List.mem_cons_of_mem _ List.mem_cons_self)
        exact (StatisticsDb.hasEvent_record hne).symm.trans hsome

theorem close_frame {hashtext : String → ℤ} {linkDay : LinkDay} {finalizedAt : ℕ}
    {db : StatisticsDb} {k : LockKey}
    (hk : k ∉ (finalizeDayTx hashtext linkDay finalizedAt).locks db) :
    (discipline hashtext).Frame k db (db.close linkDay finalizedAt) := by
  have hlock : k ≠ linkDayLock hashtext linkDay :=
    fun heq => hk (heq ▸ List.mem_cons_self)
  cases k with
  | advisory key₁ key₂ =>
      intro linkDay' hlinkDay
      have hne : linkDay' ≠ linkDay := fun heq => hlock (heq ▸ hlinkDay.symm)
      exact ⟨StatisticsDb.findDay_close_of_ne hne,
        StatisticsDb.hasVisitor_close_of_ne hne⟩
  | event id => exact StatisticsDb.hasEvent_close

/-- Every transaction of the repository can be read as executed alone. -/
theorem discipline_valid (hashtext : String → ℤ) :
    (discipline hashtext).Valid (statistics hashtext) where
  guarantee c o d a d' _ h := by
    refine ⟨trivial, trivial, fun k hk => ?_⟩
    obtain rfl := StatisticsCommand.eq_effect_of_run h
    cases c with
    | recordAccess input => exact record_frame hk
    | findCandidates before => exact (discipline hashtext).frame_refl k _
    | finalizeDay linkDay => exact close_frame hk
  tracks c o d _ := by
    cases c with
    | recordAccess input => exact recordAccessTx_tracks hashtext input d
    | findCandidates before =>
        exact Discipline.tracks_query_bind fun d _ => .inl ⟨_, rfl⟩
    | finalizeDay linkDay =>
        exact (finalizeDayTx_stable hashtext linkDay o d).tracks
          ((discipline hashtext).follows_self _ d) trivial

end LinkStatistics

end Shortlink

import Shortlink.LinkStatistics.ExactlyOnce
import Shortlink.LinkStatistics.Finalisation

/-!
# Accesses that arrive late

A closed day is a row of `link_statistics_days`, which `finalizeDays` writes for
the days it finds events or visitors of. A day of a link without any access has
no such row, and an access of that day that arrives after the finalisation is
counted.
-/

namespace Shortlink

namespace LinkStatistics

open Shortlink.Storage Shortlink.Table Shortlink.Transaction
open Shortlink.Interaction

/-- The day is closed or the event is stored. -/
def Discarded (input : AccessEventInput) (db : StatisticsDb) : Prop :=
  db.findDay input.linkDay ≠ none ∨ db.hasEvent input.eventId = true

theorem record_eq_self_iff {input : AccessEventInput} {db : StatisticsDb} :
    db.record input = db ↔ Discarded input db := by
  constructor
  · intro hsame
    by_contra hnot
    simp only [Discarded, not_or, not_not, Bool.not_eq_true] at hnot
    have hlen := congrArg (fun d => d.events.length) hsame
    simp [StatisticsDb.record, hnot.1, hnot.2] at hlen
  · intro h
    rw [StatisticsDb.record, if_pos]
    rcases h with hclosed | hevent
    · simp [Option.isSome_iff_ne_none.2 hclosed]
    · simp [hevent]

def ClosesByFinalizer (call : StatisticsCall) (c : StatisticsCommand) : Prop :=
  ∀ linkDay, c = .finalizeDay linkDay → ∃ before, call = .finalizeDays before

theorem body_closes (call : StatisticsCall) :
    call.program.Sat (fun _ _ => True) (ClosesByFinalizer call) fun _ => True :=
  call.issues (fun _ _ _ h => (by cases h))
    fun before hcall => ⟨fun _ h => (by cases h), fun _ _ _ => ⟨before, hcall⟩⟩

section

variable {hashtext : String → ℤ} {σ : StatisticsState}

theorem hadRow_of_closed
    (h : (statistics hashtext).Reaches (State.init StatisticsDb.empty) σ)
    {linkDay : LinkDay} (hclosed : σ.db.findDay linkDay ≠ none) :
    ∃ σ₀, (statistics hashtext).Reaches (State.init StatisticsDb.empty) σ₀ ∧
      (statistics hashtext).Reaches σ₀ σ ∧ σ₀.db.HasRow linkDay := by
  induction h with
  | refl => exact absurd rfl hclosed
  | @tail σ₁ σ₂ h₁ hstep ih =>
      by_cases hopen : σ₁.db.findDay linkDay = none
      · have hserial := serial_later h₁ (.single hstep)
        refine ⟨σ₁, h₁, .single hstep, ?_⟩
        cases hstep.change with
        | spawn call => exact absurd hopen hclosed
        | begin i o call c next hi => exact absurd hopen hclosed
        | lock i call c o k cur held ws next hi hfree => exact absurd hopen hclosed
        | read i call c o cur held ws next view hi hview =>
            exact absurd hopen hclosed
        | write i call c o w cur held ws next view hi hview =>
            exact absurd hopen hclosed
        | fail i call c o cur held ws next e hi => exact absurd hopen hclosed
        | commit i call c o a held ws next d hi hd =>
            have hdb : d = σ₁.db ∨ d = c.effect o σ₁.db := effect_of_serial hserial
            rcases hdb with rfl | rfl
            · exact absurd hopen hclosed
            · cases c with
              | recordAccess input =>
                  exact absurd (StatisticsDb.findDay_record.trans hopen) hclosed
              | findCandidates before => exact absurd hopen hclosed
              | finalizeDay candidate =>
                  -- the transaction that closes the day belongs to a finalizer
                  have hissued := System.Reaches.issued ClosesByFinalizer
                    body_closes h₁ (Issued.init StatisticsDb.empty)
                  obtain ⟨before, rfl⟩ := (hissued.clients i _ hi).1 candidate rfl
                  obtain rfl : candidate = linkDay := by
                    by_contra hne
                    exact hclosed (StatisticsDb.findDay_close_eq_none_iff.2
                      ⟨Ne.symm hne, hopen⟩)
                  cases pending_of_reaches h₁ hi with
                  | closing o cur held ws candidate candidates hpending =>
                      exact (hpending candidate List.mem_cons_self).2 hopen
      · obtain ⟨σ₀, h₀, h', hrow⟩ := ih hopen
        exact ⟨σ₀, h₀, h'.tail hstep, hrow⟩

end

/-- After `finalizeDays before` has finished, processing an access of a day before
the cutoff leaves the tables unchanged exactly when the day is closed or the event
is stored. The days that had an event when the run was started are closed, and a
day that never had one is not. -/
theorem lateAccess_unchanged_iff (hashtext : String → ℤ) {before : UtcDate}
    {σ : StatisticsState}
    (h : (statistics hashtext).Reaches (State.init StatisticsDb.empty) σ) {k : ℕ}
    (hdone : σ.clients[k]? =
      some ⟨.finalizeDays before, .idle (.pure (.ok ()))⟩)
    {input : AccessEventInput} (hlate : input.occurredOn < before) :
    (∀ db', (recordAccessTx hashtext input).run σ.db = .ok ((), db') →
      (db' = σ.db ↔ Discarded input σ.db)) ∧
    (∀ σ₁ σ₂ r, (statistics hashtext).Reaches σ σ₁ →
      (statistics hashtext).Steps σ₁ σ₂ → σ₂.log = r :: σ₁.log →
      commits input r = true → Discarded input σ₁.db → σ₂.db = σ₁.db) ∧
    (∀ σ₀, (statistics hashtext).Reaches (State.init StatisticsDb.empty) σ₀ →
      (statistics hashtext).Reaches σ₀ σ → σ₀.clients.length ≤ k →
      σ₀.db.HasRow input.linkDay → Discarded input σ.db) ∧
    ((∀ σ₀, (statistics hashtext).Reaches (State.init StatisticsDb.empty) σ₀ →
      (statistics hashtext).Reaches σ₀ σ → ¬ σ₀.db.HasRow input.linkDay) →
      σ.db.findDay input.linkDay = none) := by
  refine ⟨?_, ?_, ?_, ?_⟩
  · intro db' hrun
    obtain rfl : σ.db.record input = db' := (Prod.mk.inj (Except.ok.inj
      ((recordAccessTx_run hashtext input σ.db).symm.trans hrun))).2
    exact record_eq_self_iff
  · intro σ₁ σ₂ r h₁ hstep hlog hcommits hdiscarded
    have hserial := serial_later (h.trans h₁) (.single hstep)
    rw [hlog] at hserial
    obtain ⟨i, o, a, wrote, rfl⟩ := commits_eq_true_iff.1 hcommits
    rcases effect_of_serial hserial with hsame | heffect
    · exact hsame
    · exact heffect.trans (record_eq_self_iff.2 hdiscarded)
  · intro σ₀ h₀ h₀₁ hk hrow
    exact .inl (closed_of_finished h₀ h₀₁ hk hdone hlate hrow)
  · intro hnever
    by_contra hclosed
    obtain ⟨σ₀, h₀, h₀₁, hrow⟩ := hadRow_of_closed h hclosed
    exact hnever σ₀ h₀ h₀₁ hrow

/-- The finalizer has run before any access was recorded. -/
def finalisedEmpty : StatisticsState :=
  (statistics fun _ => 0).after
    [.spawn (.finalizeDays ⟨2026, 1, 2⟩), .begin 0 0, .advance 0, .commit 0]
    (State.init StatisticsDb.empty)

/-- An access of the day before arrives. -/
def lateFirstAccess : StatisticsState :=
  (statistics fun _ => 0).after
    ([.spawn (.process ⟨RECORD_LINK_ACCESS_JOB, newYearAccess "e0" "v"⟩),
        .begin 1 0] ++ List.replicate 11 (.advance 1) ++ [.commit 1])
    finalisedEmpty

/-- An access of a finalised day is counted when the link had none on this day. -/
theorem lateFirstAccess_counted :
    (statistics fun _ => 0).Reaches (State.init StatisticsDb.empty)
        finalisedEmpty ∧
      finalisedEmpty.result? 0 = some (.ok ()) ∧
      (statistics fun _ => 0).Reaches finalisedEmpty lateFirstAccess ∧
      (newYearAccess "e0" "v").occurredOn < ⟨2026, 1, 2⟩ ∧
      lateFirstAccess.result? 1 = some (.ok ()) ∧
      lateFirstAccess.db.dailyAggregates =
        [⟨"l", ⟨2026, 1, 1⟩, "BR", 1, 1⟩] ∧
      finalisedEmpty.db.dailyAggregates = [] :=
  ⟨System.reaches_after _ _ _, rfl, System.reaches_after _ _ _, by decide, rfl,
    by decide, by decide⟩

theorem lateNewYear_discarded :
    Discarded (newYearAccess "e1" "w") closedNewYear.db ∧
      ∀ db', (recordAccessTx (fun _ => 0) (newYearAccess "e1" "w")).run
        closedNewYear.db = .ok ((), db') → db' = closedNewYear.db := by
  have hrun : (statistics fun _ => 0).Reaches (State.init StatisticsDb.empty)
      closedNewYear := System.reaches_after _ _ _
  have hdone : closedNewYear.clients[1]? =
      some ⟨.finalizeDays ⟨2026, 1, 2⟩, .idle (.pure (.ok ()))⟩ := rfl
  have hlate : (newYearAccess "e1" "w").occurredOn < ⟨2026, 1, 2⟩ := by decide
  have hdiscarded : Discarded (newYearAccess "e1" "w") closedNewYear.db :=
    .inl (by decide)
  exact ⟨hdiscarded, fun db' hdb' =>
    ((lateAccess_unchanged_iff (fun _ => 0) hrun hdone hlate).1 db' hdb').2
      hdiscarded⟩

end LinkStatistics

end Shortlink

import Shortlink.LinkStatistics.Finalisation
import Shortlink.LinkStatistics.PipelineRun
import Mathlib.Data.Finset.Card

/-!
# The statistics count visits

A visit is a request for a link that was redirected and whose user agent is not that of a
machine. `Enumerates` keeps the accesses that the tables count as a list without repetition, and
`Tallied` carries it through a run of the pipeline: whatever the queue repeats or loses and
whenever the finalizer runs, the list grows by what a worker records of a collected access.
-/

namespace Shortlink

namespace LinkStatistics

open Shortlink.Storage Shortlink.Interaction Shortlink.Links Shortlink.Calendar
open StatisticsDb

/-! ### What the tables count -/

/-- The tables count the accesses of the list, each once. -/
structure Enumerates (inputs : List AccessEventInput) (db : StatisticsDb) : Prop where
  nodup : inputs.Nodup
  events : ∀ e ∈ db.events, ∃ input ∈ inputs, e = input.event
  kept : ∀ input ∈ inputs, db.findDay input.linkDay = none → input.event ∈ db.events
  accesses : ∀ q : LinkDay × String → Bool,
    db.dailyAccesses q = inputs.countP fun input => q (input.linkDay, input.country)
  visits : ∀ linkDay, db.dailyVisits (fun k => k.1 = linkDay) =
    ((inputs.filter fun input => input.linkDay = linkDay).map (·.visitorPseudonym)).toFinset.card

namespace Enumerates

variable {inputs : List AccessEventInput} {db : StatisticsDb} {input : AccessEventInput}

theorem empty : Enumerates [] StatisticsDb.empty where
  nodup := List.nodup_nil
  events e he := by cases he
  kept input hinput := by cases hinput
  accesses q := rfl
  visits linkDay := rfl

/-- On an open day the tables know the visitors of the accesses that they count. -/
theorem hasVisitor_iff_mem (h : Enumerates inputs db) (hconsistent : Consistent db)
    {linkDay : LinkDay} (hday : db.findDay linkDay = none) (visitorPseudonym : String) :
    db.hasVisitor linkDay visitorPseudonym = true ↔
      visitorPseudonym ∈
        (inputs.filter fun input => input.linkDay = linkDay).map (·.visitorPseudonym) := by
  simp only [hconsistent.visitors, List.mem_map, List.mem_filter, decide_eq_true_eq]
  constructor
  · rintro ⟨e, he, hlinkDay, hpseudonym⟩
    obtain ⟨input, hinput, rfl⟩ := h.events e he
    exact ⟨input, ⟨hinput, hlinkDay⟩, hpseudonym⟩
  · rintro ⟨input, ⟨hinput, rfl⟩, hpseudonym⟩
    exact ⟨input.event, h.kept input hinput hday, rfl, hpseudonym⟩

/-- An access with a new event on an open day is counted. -/
theorem countAccess (h : Enumerates inputs db) (hconsistent : Consistent db)
    (hday : db.findDay input.linkDay = none) (hevent : db.hasEvent input.eventId = false) :
    Enumerates (input :: inputs) (db.countAccess input) where
  nodup := by
    refine List.nodup_cons.2 ⟨fun hmem => ?_, h.nodup⟩
    have hknown : db.hasEvent input.eventId = true :=
      List.any_eq_true.2 ⟨input.event, h.kept input hmem hday, beq_self_eq_true _⟩
    rw [hevent] at hknown
    cases hknown
  events e he := by
    rw [events_countAccess] at he
    rcases List.mem_append.1 he with he | he
    · obtain ⟨input', hinput', heq⟩ := h.events e he
      exact ⟨input', List.mem_cons_of_mem _ hinput', heq⟩
    · exact ⟨input, List.mem_cons_self, List.mem_singleton.1 he⟩
  kept input' hinput' hopen := by
    rw [findDay_countAccess] at hopen
    rw [events_countAccess]
    rcases List.mem_cons.1 hinput' with rfl | hinput'
    · exact List.mem_append_right _ (List.mem_singleton_self _)
    · exact List.mem_append_left _ (h.kept input' hinput' hopen)
  accesses q := by
    rw [dailyAccesses_countAccess hconsistent.keys, h.accesses, List.countP_cons]
  visits linkDay := by
    rw [dailyVisits_countAccess hconsistent.keys, h.visits]
    by_cases hlinkDay : input.linkDay = linkDay
    · subst hlinkDay
      rw [List.filter_cons_of_pos (by simp), List.map_cons, List.toFinset_cons,
        Finset.card_insert_eq_ite]
      have hknown := h.hasVisitor_iff_mem hconsistent hday input.visitorPseudonym
      simp only [List.mem_toFinset, ← hknown, newVisitor]
      cases db.hasVisitor input.linkDay input.visitorPseudonym with
      | true => simp
      | false => simp
    · rw [List.filter_cons_of_neg (by simp [hlinkDay])]
      simp [hlinkDay]

/-- A day is closed. -/
theorem close (h : Enumerates inputs db) (linkDay : LinkDay) (finalizedAt : ℕ) :
    Enumerates inputs (db.close linkDay finalizedAt) where
  nodup := h.nodup
  events e he := by
    rw [events_close] at he
    exact h.events e (List.mem_filter.1 he).1
  kept input hinput hopen := by
    obtain ⟨hne, hopen⟩ := findDay_close_eq_none_iff.1 hopen
    rw [events_close]
    exact List.mem_filter.2 ⟨h.kept input hinput hopen, decide_eq_true hne⟩
  accesses q := by
    rw [dailyAccesses, dailyAggregates_close]
    exact h.accesses q
  visits linkDay' := by
    rw [dailyVisits, dailyAggregates_close]
    exact h.visits linkDay'

/-- A transaction that records an access, and what it finds on an open day. -/
theorem record (h : Enumerates inputs db) (hconsistent : Consistent db)
    (access : AccessEventInput) :
    ∃ inputs', Enumerates inputs' (db.record access) ∧ inputs ⊆ inputs' ∧
      inputs' ⊆ access :: inputs ∧
      (db.findDay access.linkDay = none → ∃ input ∈ inputs', input.eventId = access.eventId) := by
  have hself := List.Subset.refl inputs
  have hcons := List.subset_cons_self access inputs
  cases hday : db.findDay access.linkDay with
  | some day =>
      have hsame : db.record access = db := by simp [StatisticsDb.record, hday]
      rw [hsame]
      exact ⟨inputs, h, hself, hcons, fun hnone => by cases hnone⟩
  | none =>
      cases hevent : db.hasEvent access.eventId with
      | true =>
          have hsame : db.record access = db := by simp [StatisticsDb.record, hevent]
          obtain ⟨e, he, hid⟩ := List.any_eq_true.1 hevent
          obtain ⟨input, hinput, rfl⟩ := h.events e he
          rw [hsame]
          exact ⟨inputs, h, hself, hcons, fun _ => ⟨input, hinput, beq_iff_eq.1 hid⟩⟩
      | false =>
          have hcount : db.record access = db.countAccess access := by
            simp [StatisticsDb.record, hday, hevent]
          exact ⟨access :: inputs, hcount ▸ h.countAccess hconsistent hday hevent, hcons,
            List.Subset.refl _, fun _ => ⟨access, List.mem_cons_self, rfl⟩⟩

end Enumerates

/-! ### What a run has recorded -/

/-- An attempt to record the access has succeeded before any to close its day. -/
def RecordedInTime (history : List PipelineEntry) (access : AccessEventInput) : Prop :=
  ∃ l₂ l₁ k, history = l₂ ++ ⟨k, .statistics (.recordAccess access),
      (Except.ok () : StatisticsReply (.recordAccess access))⟩ :: l₁ ∧
    ∀ k' r, (⟨k', .statistics (.finalizeDay access.linkDay), r⟩ : PipelineEntry) ∉ l₁

theorem RecordedInTime.of_cons {history : List PipelineEntry} {e : PipelineEntry}
    {access : AccessEventInput} (h : RecordedInTime (e :: history) access) :
    RecordedInTime history access ∨
      (∃ k, e = ⟨k, .statistics (.recordAccess access),
        (Except.ok () : StatisticsReply (.recordAccess access))⟩) ∧
      ∀ k' r, (⟨k', .statistics (.finalizeDay access.linkDay), r⟩ : PipelineEntry) ∉ history := by
  obtain ⟨l₂, l₁, k, heq, hopen⟩ := h
  cases l₂ with
  | nil =>
      obtain ⟨rfl, rfl⟩ := List.cons.inj heq
      exact .inr ⟨⟨k, rfl⟩, hopen⟩
  | cons e' l₂ =>
      obtain ⟨-, rfl⟩ := List.cons.inj heq
      exact .inl ⟨l₂, l₁, k, rfl, hopen⟩

/-- The accesses of the list are counted, and they are those that the history has recorded. -/
structure Tallied (inputs : List AccessEventInput) (σ : PipelinePool) : Prop where
  consistent : Consistent σ.shared.statistics
  counts : Enumerates inputs σ.shared.statistics
  recorded : ∀ input ∈ inputs, ∃ k r,
    (⟨k, .statistics (.recordAccess input), r⟩ : PipelineEntry) ∈ σ.history
  closed : ∀ linkDay, σ.shared.statistics.findDay linkDay ≠ none → ∃ k r,
    (⟨k, .statistics (.finalizeDay linkDay), r⟩ : PipelineEntry) ∈ σ.history
  inTime : ∀ access, RecordedInTime σ.history access → ∃ input ∈ inputs,
    input.eventId = access.eventId

namespace Tallied

variable {config : PipelineConfig} {ok : PipelinePool → PipelineEvent → Prop}
  {inputs : List AccessEventInput} {σ σ' : PipelinePool}

theorem init (s : PipelineState) (hs : s.statistics = StatisticsDb.empty) :
    Tallied [] (Pool.init s) where
  consistent := hs ▸ .empty
  counts := hs ▸ .empty
  recorded input hinput := by cases hinput
  closed linkDay h := by
    rw [Pool.init, hs] at h
    exact absurd rfl h
  inTime access h := by
    obtain ⟨l₂, l₁, k, heq, -⟩ := h
    rw [Pool.init] at heq
    cases l₂ <;> cases heq

/-- A step that leaves the tables alone and records nothing. -/
theorem still (h : Tallied inputs σ) {e : PipelineEntry}
    (hstatistics : σ'.shared.statistics = σ.shared.statistics)
    (hhistory : σ'.history = e :: σ.history)
    (he : ∀ k access, e ≠ ⟨k, .statistics (.recordAccess access),
      (Except.ok () : StatisticsReply (.recordAccess access))⟩) : Tallied inputs σ' where
  consistent := hstatistics ▸ h.consistent
  counts := hstatistics ▸ h.counts
  recorded input hinput := by
    obtain ⟨k, r, hmem⟩ := h.recorded input hinput
    exact ⟨k, r, hhistory ▸ List.mem_cons_of_mem _ hmem⟩
  closed linkDay hclosed := by
    rw [hstatistics] at hclosed
    obtain ⟨k, r, hmem⟩ := h.closed linkDay hclosed
    exact ⟨k, r, hhistory ▸ List.mem_cons_of_mem _ hmem⟩
  inTime access haccess := by
    rw [hhistory] at haccess
    rcases haccess.of_cons with hold | ⟨⟨k, heq⟩, -⟩
    · exact h.inTime access hold
    · exact absurd heq (he k access)

/-- A transaction that closes a day. -/
theorem close (h : Tallied inputs σ) {k finalizedAt : ℕ} {linkDay : LinkDay}
    {r : StatisticsReply (.finalizeDay linkDay)}
    (hstatistics : σ'.shared.statistics = σ.shared.statistics.close linkDay finalizedAt)
    (hhistory : σ'.history = ⟨k, .statistics (.finalizeDay linkDay), r⟩ :: σ.history) :
    Tallied inputs σ' where
  consistent := hstatistics ▸ h.consistent.close linkDay finalizedAt
  counts := hstatistics ▸ h.counts.close linkDay finalizedAt
  recorded input hinput := by
    obtain ⟨k', r', hmem⟩ := h.recorded input hinput
    exact ⟨k', r', hhistory ▸ List.mem_cons_of_mem _ hmem⟩
  closed linkDay' hclosed := by
    rw [hstatistics, Ne, findDay_close_eq_none_iff, not_and_or, not_not] at hclosed
    rw [hhistory]
    rcases hclosed with rfl | hclosed
    · exact ⟨k, r, List.mem_cons_self⟩
    · obtain ⟨k', r', hmem⟩ := h.closed linkDay' hclosed
      exact ⟨k', r', List.mem_cons_of_mem _ hmem⟩
  inTime access haccess := by
    rw [hhistory] at haccess
    rcases haccess.of_cons with hold | ⟨⟨k', heq⟩, -⟩
    · exact h.inTime access hold
    · cases heq

/-- A transaction that records an access. -/
theorem record (h : Tallied inputs σ) {k : ℕ} {access : AccessEventInput}
    {r : StatisticsReply (.recordAccess access)}
    (hstatistics : σ'.shared.statistics = σ.shared.statistics.record access)
    (hhistory : σ'.history = ⟨k, .statistics (.recordAccess access), r⟩ :: σ.history) :
    ∃ inputs', inputs ⊆ inputs' ∧ Tallied inputs' σ' := by
  obtain ⟨inputs', hcounts, hold, hnew, hopen⟩ := h.counts.record h.consistent access
  refine ⟨inputs', hold, hstatistics ▸ h.consistent.record access, hstatistics ▸ hcounts,
    ?_, ?_, ?_⟩
  · intro input hinput
    rw [hhistory]
    rcases List.mem_cons.1 (hnew hinput) with rfl | hinput
    · exact ⟨k, r, List.mem_cons_self⟩
    · obtain ⟨k', r', hmem⟩ := h.recorded input hinput
      exact ⟨k', r', List.mem_cons_of_mem _ hmem⟩
  · intro linkDay hclosed
    rw [hstatistics, findDay_record] at hclosed
    obtain ⟨k', r', hmem⟩ := h.closed linkDay hclosed
    exact ⟨k', r', hhistory ▸ List.mem_cons_of_mem _ hmem⟩
  · intro access' haccess
    rw [hhistory] at haccess
    rcases haccess.of_cons with hbefore | ⟨⟨k', heq⟩, hnone⟩
    · obtain ⟨input, hinput, hid⟩ := h.inTime access' hbefore
      exact ⟨input, hold hinput, hid⟩
    · cases heq
      refine hopen ?_
      by_contra hclosed
      obtain ⟨k'', r'', hmem⟩ := h.closed access.linkDay hclosed
      exact hnone k'' r'' hmem

/-- Every step keeps the tally. -/
theorem step (h : Tallied inputs σ) (hstep : (pipeline config).Steps ok σ σ') :
    ∃ inputs', inputs ⊆ inputs' ∧ Tallied inputs' σ' := by
  have hidle : σ'.shared.statistics = σ.shared.statistics → σ'.history = σ.history →
      ∃ inputs', inputs ⊆ inputs' ∧ Tallied inputs' σ' := by
    intro hstatistics hhistory
    exact ⟨inputs, List.Subset.refl _, hstatistics ▸ h.consistent, hstatistics ▸ h.counts,
      hhistory ▸ h.recorded, hstatistics ▸ hhistory ▸ h.closed, hhistory ▸ h.inTime⟩
  cases hstep.moves with
  | spawn call hok hshared hthreads hhistory => exact hidle (hshared ▸ rfl) hhistory
  | environment x hok hshared hthreads hhistory =>
      refine hidle ?_ hhistory
      rw [hshared]
      cases x with
      | links x => rfl
      | forget id => rfl
  | exec e he =>
      obtain ⟨k, c, r⟩ := e
      obtain ⟨o, -, hexec⟩ := he.exec
      have hstatistics := statistics_exec hexec
      have hstill : σ'.shared.statistics = σ.shared.statistics →
          (∀ access, c ≠ .statistics (.recordAccess access)) →
          ∃ inputs', inputs ⊆ inputs' ∧ Tallied inputs' σ' := by
        intro hsame hc
        refine ⟨inputs, List.Subset.refl _, h.still hsame he.history fun k' access heq => ?_⟩
        cases heq
        exact hc access rfl
      cases c with
      | web c => exact hstill (hstatistics.resolve_right (by simp)) (by simp)
      | clock => exact hstill (hstatistics.resolve_right (by simp)) (by simp)
      | statistics command =>
          cases command with
          | findCandidates before =>
              refine hstill ?_ (by simp)
              rcases hstatistics with hsame | ⟨command, heq, heffect⟩
              · exact hsame
              · cases heq
                exact heffect
          | finalizeDay linkDay =>
              rcases hstatistics with hsame | ⟨command, heq, heffect⟩
              · exact hstill hsame (by simp)
              · cases heq
                exact ⟨inputs, List.Subset.refl _, h.close heffect he.history⟩
          | recordAccess access =>
              cases r with
              | ok u =>
                  have hrun := statistics_reply hexec
                  exact h.record (StatisticsCommand.eq_effect_of_run hrun) he.history
              | error e =>
                  rcases hstatistics with hsame | ⟨command, heq, heffect⟩
                  · refine ⟨inputs, List.Subset.refl _, h.still hsame he.history ?_⟩
                    intro k' access' heq
                    cases heq
                  · cases heq
                    exact h.record heffect he.history

theorem reaches (h : Tallied inputs σ) (hrun : (pipeline config).Reaches ok σ σ') :
    ∃ inputs', inputs ⊆ inputs' ∧ Tallied inputs' σ' := by
  induction hrun with
  | refl => exact ⟨inputs, List.Subset.refl _, h⟩
  | tail _ hstep ih =>
      obtain ⟨inputs₁, hold, h₁⟩ := ih
      obtain ⟨inputs₂, hnew, h₂⟩ := h₁.step hstep
      exact ⟨inputs₂, List.Subset.trans hold hnew, h₂⟩

end Tallied

/-! ### Where jobs and closed days come from -/

/-- A request has collected the access of the job. -/
def FromCollection (history : List PipelineEntry) (job : QueuedJob) : Prop :=
  ∃ k input reply, (⟨k, .web (.collect input), reply⟩ : PipelineEntry) ∈ history ∧
    job = QueueLinkAccessCollector.job input

/-- The jobs of the queue and of the workers come from requests. -/
structure JobsCollected (σ : PipelinePool) : Prop where
  queued : ∀ job ∈ σ.shared.jobs, FromCollection σ.history job
  taken : ∀ (k : ℕ) job rest, σ.threads[k]? = some ⟨.process job, rest⟩ →
    FromCollection σ.history job

section

variable {config : PipelineConfig} {users : List String} {start : ℕ} {σ σ' : PipelinePool}

theorem FromCollection.suffix {history history' : List PipelineEntry} (h : history <:+ history')
    {job : QueuedJob} (hjob : FromCollection history job) : FromCollection history' job := by
  obtain ⟨k, input, reply, hmem, rfl⟩ := hjob
  exact ⟨k, input, reply, h.mem hmem, rfl⟩

theorem JobsCollected.step (h : JobsCollected σ)
    (hstep : (pipeline config).Steps FromQueue σ σ') : JobsCollected σ' := by
  have hsuffix : σ.history <:+ σ'.history :=
    Semantics.Reaches.history_suffix (Relation.ReflTransGen.single hstep)
  refine ⟨fun job hjob => ?_, fun k job rest hk => ?_⟩
  · cases hstep.moves with
    | spawn call hok hshared hthreads hhistory =>
        rw [hshared] at hjob
        exact (h.queued job hjob).suffix hsuffix
    | environment x hok hshared hthreads hhistory =>
        refine (h.queued job ?_).suffix hsuffix
        rw [hshared] at hjob
        cases x with
        | links x => exact hjob
        | forget id => exact (List.mem_filter.1 hjob).1
    | exec e he =>
        obtain ⟨k, c, r⟩ := e
        obtain ⟨o, -, hexec⟩ := he.exec
        rcases mem_jobs_exec hexec hjob with hold | ⟨input, rfl, rfl⟩
        · exact (h.queued job hold).suffix hsuffix
        · exact ⟨k, input, r, he.history ▸ List.mem_cons_self, rfl⟩
  · rcases hstep.moves.thread hk with ⟨-, -, hok⟩ | ⟨c, r, next, -, hi, -⟩ | hold
    · exact (h.queued job hok).suffix hsuffix
    · exact (h.taken k job _ hi).suffix hsuffix
    · exact (h.taken k job rest hold).suffix hsuffix

theorem jobsCollected_of_reaches
    (h : (pipeline config).Reaches FromQueue (Pool.init (PipelineState.init users start)) σ) :
    JobsCollected σ := by
  induction h with
  | refl =>
      refine ⟨fun job hjob => ?_, fun k job rest hk => ?_⟩
      · rw [Pool.init, PipelineState.init] at hjob
        cases hjob
      · simp [Pool.init] at hk
  | tail _ hstep ih => exact ih.step hstep

theorem now_mono
    (h : (pipeline config).Reaches FromQueue (Pool.init (PipelineState.init users start)) σ)
    (h' : (pipeline config).Reaches FromQueue σ σ') : σ.shared.now ≤ σ'.shared.now :=
  (kept_of_reaches h h').2.now

/-- A closed day lies before a day that has been read from the clock. -/
theorem lt_of_finalizeDay
    (h : (pipeline config).Reaches FromQueue (Pool.init (PipelineState.init users start)) σ)
    {k : ℕ} {linkDay : LinkDay} {r : StatisticsReply (.finalizeDay linkDay)}
    (hmem : (⟨k, .statistics (.finalizeDay linkDay), r⟩ : PipelineEntry) ∈ σ.history) :
    ∃ now : ℤ, now ≤ σ.shared.now ∧ (EcmaDate.civil now).FourDigits ∧
      linkDay.2 < UtcDate.ofCivil (EcmaDate.civil now) := by
  obtain ⟨call, trace, rest, hk, hmay, htrace⟩ := allowed_of_mem h hmem
  cases call with
  | web call => cases hmay
  | process job =>
      obtain ⟨access, heq, -⟩ := hmay
      cases heq
  | finalizePreviousUtcDays =>
      have hfinalize : MayFinalize trace (.statistics (.finalizeDay linkDay)) := hmay
      cases hfinalize with
      | finalizeDay now before candidates _ hnow hbefore hfound hcandidate =>
          obtain ⟨hfour, rfl⟩ := dateParameter_utcDay hbefore
          refine ⟨now, ?_, hfour, ?_⟩
          · obtain ⟨l₂, l₁, hl⟩ := List.append_of_mem (htrace _ hnow)
            obtain ⟨σ₁, σ₂, h₁, hfires, -, h₂⟩ := h.split hl List.nil_suffix
            obtain ⟨o, -, hexec⟩ := hfires.exec
            obtain ⟨hreply, -⟩ := Prod.mk.inj (Option.some.inj hexec)
            have hmono := now_mono h₁ ((Relation.ReflTransGen.single hfires.steps).trans h₂)
            have hread : (σ₁.shared.now : ℤ) = now := hreply
            omega
          · obtain ⟨l₂, l₁, hl⟩ := List.append_of_mem (htrace _ hfound)
            obtain ⟨σ₁, σ₂, -, hfires, -, -⟩ := h.split hl List.nil_suffix
            obtain ⟨o, -, hexec⟩ := hfires.exec
            have hrun := statistics_reply hexec
            obtain ⟨rfl, -⟩ := Prod.mk.inj (Except.ok.inj hrun)
            exact (mem_findCandidates_iff.1 hcandidate).1

end

/-! ### Visits -/

/-- The call started as number `k` is a request for the code of a link that has been
redirected to the destination of the link, whose user agent has none of the signatures, and
whose access has been collected with the date that the clock showed. -/
structure Visit (config : PipelineConfig) (σ : PipelinePool) (k : ℕ) (request : PublicRequest)
    (resolved : ResolvedLink) (instant : ℤ) (access : AccessEventInput) : Prop where
  call : σ.call? k = some (.web (.request request))
  method : request.method = "GET"
  code : SHORT_CODE_PATTERN.test (request.path.drop 1) = true
  link : LeadsTo σ.shared.links.db (String.ofList (request.path.drop 1)) resolved
  redirected : (⟨k, .web (.redirect 302 resolved.destinationUrl),
    (Except.ok () : Except Foreign Unit)⟩ : PipelineEntry) ∈ σ.history
  human : ∀ signature ∈ AUTOMATED_USER_AGENT_SIGNATURES,
    ¬ toLowerCase signature.toList <:+: toLowerCase (request.userAgent.getD "").toList
  read : (⟨k, .web .now, instant⟩ : PipelineEntry) ∈ σ.history
  collected : ∃ input reply, (⟨k, .web (.collect input), reply⟩ : PipelineEntry) ∈ σ.history ∧
    accessEventInput input = .ok access
  linkId : access.linkId = resolved.linkId
  fourDigits : (EcmaDate.civil instant).FourDigits
  occurredOn : access.occurredOn = UtcDate.ofCivil (EcmaDate.civil instant)
  visitor : access.visitorPseudonym = VisitorPseudonymizer.create config.hmac access.linkId
    (utcDay instant) (request.ip.getD "") (request.userAgent.getD "")

section

variable {config : PipelineConfig} {users : List String} {start : ℕ} {σ : PipelinePool}
  {ok : PipelinePool → PipelineEvent → Prop} {k : ℕ}

/-- The step that made an exchange. -/
theorem exec_of_mem_history {s : PipelineState}
    (h : (pipeline config).Reaches ok (Pool.init s) σ) {c : PipelineStep} {r : c.Reply}
    (hmem : (⟨k, c, r⟩ : PipelineEntry) ∈ σ.history) :
    ∃ σ₁ σ₂ o, (pipeline config).Reaches ok (Pool.init s) σ₁ ∧
      (pipeline config).Reaches ok σ₁ σ₂ ∧ (pipeline config).Reaches ok σ₂ σ ∧
      execPipeline config c o σ₁.shared = some (r, σ₂.shared) := by
  obtain ⟨l₂, l₁, hl⟩ := List.append_of_mem hmem
  obtain ⟨σ₁, σ₂, h₁, hfires, -, h₂⟩ := h.split hl List.nil_suffix
  obtain ⟨o, -, hexec⟩ := hfires.exec
  exact ⟨σ₁, σ₂, o, h₁, Relation.ReflTransGen.single hfires.steps, h₂, hexec⟩

theorem mem_trace {request : PublicRequest} {own : List PublicExchange}
    (h : Collected request own) {x : PublicExchange}
    (hx : x ∈ h.resolution ++ ⟨.redirect 302 h.resolved.destinationUrl, Except.ok ()⟩ ::
      (collection request h.resolved h.occurredAt h.eventId h.country h.visitorPseudonym
        h.reply ++ h.warnings)) : x ∈ own := by
  rw [h.trace_eq]
  exact hx

theorem mem_history {own : List PublicExchange}
    (hown : (traceOf σ.history k).reverse = own.map webExchange) {x : PublicExchange}
    (hx : x ∈ own) : (⟨k, .web x.1, x.2⟩ : PipelineEntry) ∈ σ.history := by
  have hexchange : webExchange x ∈ (traceOf σ.history k).reverse :=
    hown ▸ List.mem_map_of_mem hx
  exact mem_traceOf.1 (List.mem_reverse.1 hexchange)

theorem mem_own {own : List PublicExchange}
    (hown : (traceOf σ.history k).reverse = own.map webExchange) {c : PublicStep} {r : c.Reply}
    (hmem : (⟨k, .web c, r⟩ : PipelineEntry) ∈ σ.history) : (⟨c, r⟩ : PublicExchange) ∈ own := by
  have hexchange : (⟨.web c, r⟩ : PipelineExchange) ∈ (traceOf σ.history k).reverse :=
    List.mem_reverse.2 (mem_traceOf.2 hmem)
  rw [hown] at hexchange
  obtain ⟨⟨c', r'⟩, hx, hsame⟩ := List.mem_map.1 hexchange
  cases hsame
  exact hx

/-- What has been resolved is the link with the code. -/
theorem leadsTo_of_resolves
    (h : (pipeline config).Reaches ok (Pool.init (PipelineState.init users start)) σ)
    {code : String} {resolved : ResolvedLink} {resolution : List PublicExchange}
    (hmem : ∀ x ∈ resolution, (⟨k, .web x.1, x.2⟩ : PipelineEntry) ∈ σ.history)
    (hresolves : ((LinksService.resolve code).embed PublicStep.links fun _ r => r :
      PublicProgram LinksResult).Follows resolution (.pure (.ok (.resolved resolved)))) :
    LeadsTo σ.shared.links.db code resolved := by
  have horigin : ∃ (c : LinksStep) (reply : c.Reply),
      (⟨.links c, reply⟩ : PublicExchange) ∈ resolution ∧
        Origin config.links (.resolve code) (.resolved resolved) c reply := by
    rcases resolved_behind hresolves with hget | ⟨link, rfl, hfound⟩
    · exact ⟨_, _, hget, rfl, rfl⟩
    · exact ⟨_, _, hfound, rfl, link, rfl, rfl⟩
  obtain ⟨c, reply, hx, horigin⟩ := horigin
  obtain ⟨σ₁, σ₂, o, h₁, h₁₂, h₂, hexec⟩ := exec_of_mem_history h (hmem _ hx)
  obtain ⟨⟨o', hlinks⟩, -, -⟩ := exec_web hexec
  have hsound := (kept_of_reaches h₁ h₁₂).1
  have hkept := (kept_of_reaches (h₁.trans h₁₂) h₂).2
  exact (leadsTo_of_origin hsound hlinks horigin).persists hkept.persists

/-- The access of a collection whose day can be read back. -/
theorem accessEventInput_collectedAccess {resolved : ResolvedLink} {occurredAt : ℤ}
    {eventId country visitorPseudonym : String} {access : AccessEventInput}
    (h : accessEventInput (collectedAccess resolved occurredAt eventId country
      visitorPseudonym) = .ok access) :
    (EcmaDate.civil occurredAt).FourDigits ∧
      access = ⟨eventId, resolved.linkId, String.ofList (EcmaDate.toISOString occurredAt),
        UtcDate.ofCivil (EcmaDate.civil occurredAt), country, visitorPseudonym⟩ := by
  cases hday : dateParameter (utcDay occurredAt) with
  | error e =>
      have herror := (congrArg (Except.map _) hday).symm.trans h
      cases herror
  | ok occurredOn =>
      obtain ⟨hfour, rfl⟩ := dateParameter_utcDay hday
      have hok := (congrArg (Except.map _) hday).symm.trans h
      exact ⟨hfour, (Except.ok.inj hok).symm⟩

theorem visit_of_collect
    (h : (pipeline config).Reaches ok (Pool.init (PipelineState.init users start)) σ)
    {input : CollectedAccess} {reply : Except Foreign Unit}
    (hmem : (⟨k, .web (.collect input), reply⟩ : PipelineEntry) ∈ σ.history)
    {access : AccessEventInput} (haccess : accessEventInput input = .ok access) :
    ∃ request resolved instant, Visit config σ k request resolved instant access := by
  obtain ⟨request, own, hcall, hown, ⟨htrace⟩⟩ := collected_of_mem_history h hmem
  have hhistory : ∀ x ∈ own, (⟨k, .web x.1, x.2⟩ : PipelineEntry) ∈ σ.history :=
    fun x hx => mem_history hown hx
  obtain ⟨rfl, -⟩ := htrace.input_eq (mem_own hown hmem)
  have hcollection : ∀ x ∈ collection request htrace.resolved htrace.occurredAt htrace.eventId
      htrace.country htrace.visitorPseudonym htrace.reply, x ∈ own := by
    intro x hx
    exact mem_trace htrace (List.mem_append_right _ (List.mem_cons_of_mem _
      (List.mem_append_left _ hx)))
  obtain ⟨hfour, rfl⟩ := accessEventInput_collectedAccess haccess
  refine ⟨request, htrace.resolved, htrace.occurredAt, hcall, htrace.method, htrace.code, ?_, ?_,
    ?_, ?_, ⟨_, _, hmem, haccess⟩, rfl, hfour, rfl, ?_⟩
  · exact leadsTo_of_resolves h (fun x hx => hhistory x (mem_trace htrace
      (List.mem_append_left _ hx))) htrace.resolves
  · exact hhistory ⟨.redirect 302 htrace.resolved.destinationUrl, Except.ok ()⟩
      (mem_trace htrace (List.mem_append_right _ List.mem_cons_self))
  · have hdetected := hhistory ⟨.isAutomated (request.userAgent.getD ""), Except.ok false⟩
      (hcollection _ (by simp [collection]))
    obtain ⟨σ₁, σ₂, o, -, -, -, hexec⟩ := exec_of_mem_history h hdetected
    have hfalse : AutomatedTrafficDetector.isAutomated (request.userAgent.getD "") = false :=
      Except.ok.inj (Prod.mk.inj (Option.some.inj hexec)).1
    intro signature hsignature hinfix
    rw [isAutomated_iff.2 ⟨signature, hsignature, hinfix⟩] at hfalse
    cases hfalse
  · exact hhistory ⟨.now, htrace.occurredAt⟩ (hcollection _ (by simp [collection]))
  · have hcreated := hhistory ⟨.createPseudonym htrace.resolved.linkId
      (String.ofList ((EcmaDate.toISOString htrace.occurredAt).take 10)) (request.ip.getD "")
      (request.userAgent.getD ""), Except.ok htrace.visitorPseudonym⟩
      (hcollection _ (by simp [collection]))
    obtain ⟨σ₁, σ₂, o, -, -, -, hexec⟩ := exec_of_mem_history h hcreated
    exact (Except.ok.inj (Prod.mk.inj (Option.some.inj hexec)).1).symm

theorem collect_unique {s : PipelineState} (h : (pipeline config).Reaches ok (Pool.init s) σ)
    {input input' : CollectedAccess} {reply reply' : Except Foreign Unit}
    (hmem : (⟨k, .web (.collect input), reply⟩ : PipelineEntry) ∈ σ.history)
    (hmem' : (⟨k, .web (.collect input'), reply'⟩ : PipelineEntry) ∈ σ.history) :
    input = input' := by
  obtain ⟨request, own, hcall, hown, ⟨htrace⟩⟩ := collected_of_mem_history h hmem
  have heq : ∀ {input : CollectedAccess} {reply : Except Foreign Unit},
      (⟨k, .web (.collect input), reply⟩ : PipelineEntry) ∈ σ.history →
      input = collectedAccess htrace.resolved htrace.occurredAt htrace.eventId htrace.country
        htrace.visitorPseudonym := by
    intro input reply hmem
    exact (htrace.input_eq (mem_own hown hmem)).1
  exact (heq hmem).trans (heq hmem').symm

/-- The id of a collected access was drawn by its request. -/
theorem randomUUID_of_collect {s : PipelineState}
    (h : (pipeline config).Reaches ok (Pool.init s) σ) {input : CollectedAccess}
    {reply : Except Foreign Unit}
    (hmem : (⟨k, .web (.collect input), reply⟩ : PipelineEntry) ∈ σ.history) :
    (⟨k, .web .randomUUID, input.eventId⟩ : PipelineEntry) ∈ σ.history := by
  obtain ⟨request, own, hcall, hown, ⟨htrace⟩⟩ := collected_of_mem_history h hmem
  obtain ⟨rfl, -⟩ := htrace.input_eq (mem_own hown hmem)
  have hdrawn : (⟨.randomUUID, htrace.eventId⟩ : PublicExchange) ∈ own :=
    mem_trace htrace (List.mem_append_right _ (List.mem_cons_of_mem _
      (List.mem_append_left _ (by simp [collection]))))
  exact mem_history hown hdrawn

/-- The access that a worker has recorded was collected by a request. -/
theorem collect_of_recorded
    (h : (pipeline config).Reaches FromQueue (Pool.init (PipelineState.init users start)) σ)
    {access : AccessEventInput} {r : StatisticsReply (.recordAccess access)}
    (hmem : (⟨k, .statistics (.recordAccess access), r⟩ : PipelineEntry) ∈ σ.history) :
    ∃ k' input reply, (⟨k', .web (.collect input), reply⟩ : PipelineEntry) ∈ σ.history ∧
      accessEventInput input = .ok access := by
  obtain ⟨call, trace, rest, hk, hmay, -⟩ := allowed_of_mem h hmem
  cases call with
  | web call => cases hmay
  | finalizePreviousUtcDays => cases hmay
  | process job =>
      obtain ⟨access', heq, haccess⟩ := hmay
      cases heq
      obtain ⟨k', input, reply, hcollect, rfl⟩ := (jobsCollected_of_reaches h).taken k job rest hk
      exact ⟨k', input, reply, hcollect, haccess⟩

/-! ### The counters -/

/-- The accesses and the unique visitors of the day are those of the visits, where `access k`
is the access of the visit `k`. -/
structure Tells (config : PipelineConfig) (σ : PipelinePool) (linkDay : LinkDay)
    (visits : Finset ℕ) (access : ℕ → AccessEventInput) : Prop where
  visit : ∀ k ∈ visits, (access k).linkDay = linkDay ∧
    ∃ request resolved instant, Visit config σ k request resolved instant (access k)
  accesses : σ.shared.statistics.dailyAccesses (fun key => key.1 = linkDay) = visits.card
  visitors : σ.shared.statistics.dailyVisits (fun key => key.1 = linkDay) =
    (visits.image fun k => (access k).visitorPseudonym).card

/-- Every access of the tally was collected by one request, each by another one. -/
theorem tells_of_tallied
    (h : (pipeline config).Reaches FromQueue (Pool.init (PipelineState.init users start)) σ)
    {inputs : List AccessEventInput} (htally : Tallied inputs σ) (linkDay : LinkDay) :
    ∃ visits access, Tells config σ linkDay visits access ∧
      ∀ input ∈ inputs, input.linkDay = linkDay → ∃ k ∈ visits, ∃ collected reply,
        (⟨k, .web (.collect collected), reply⟩ : PipelineEntry) ∈ σ.history ∧
          accessEventInput collected = .ok input := by
  have hcollected : ∀ input ∈ inputs, ∃ k collected reply,
      (⟨k, .web (.collect collected), reply⟩ : PipelineEntry) ∈ σ.history ∧
        accessEventInput collected = .ok input := by
    intro input hinput
    obtain ⟨k, r, hmem⟩ := htally.recorded input hinput
    exact collect_of_recorded h hmem
  choose! request hrequest using hcollected
  have hinj : Set.InjOn request {input | input ∈ inputs} := by
    intro input hinput input' hinput' heq
    obtain ⟨collected, reply, hmem, haccess⟩ := hrequest input hinput
    obtain ⟨collected', reply', hmem', haccess'⟩ := hrequest input' hinput'
    rw [← heq] at hmem'
    obtain rfl := collect_unique h hmem hmem'
    exact Except.ok.inj (haccess.symm.trans haccess')
  have hnonempty : Nonempty AccessEventInput := ⟨⟨"", "", "", ⟨0, 0, 0⟩, "", ""⟩⟩
  obtain ⟨access, haccess⟩ : ∃ access : ℕ → AccessEventInput,
      ∀ input ∈ inputs, access (request input) = input :=
    ⟨_, fun input hinput => hinj.leftInvOn_invFunOn hinput⟩
  let ofDay := inputs.filter fun input => input.linkDay = linkDay
  have hofDay : ∀ input ∈ ofDay, input ∈ inputs ∧ input.linkDay = linkDay := fun input hinput =>
    ⟨(List.mem_filter.1 hinput).1, of_decide_eq_true (List.mem_filter.1 hinput).2⟩
  have hinverse : ∀ input ∈ ofDay, access (request input) = input := fun input hinput =>
    haccess input (hofDay input hinput).1
  refine ⟨(ofDay.map request).toFinset, access, ⟨?_, ?_, ?_⟩, ?_⟩
  · intro k hk
    obtain ⟨input, hinput, rfl⟩ := List.mem_map.1 (List.mem_toFinset.1 hk)
    obtain ⟨collected, reply, hmem, haccess⟩ := hrequest input (hofDay input hinput).1
    rw [hinverse input hinput]
    exact ⟨(hofDay input hinput).2, visit_of_collect h hmem haccess⟩
  · rw [htally.counts.accesses, List.countP_eq_length_filter, List.toFinset_card_of_nodup,
      List.length_map]
    exact (htally.counts.nodup.filter _).map_on fun input hinput input' hinput' heq =>
      hinj (hofDay input hinput).1 (hofDay input' hinput').1 heq
  · rw [htally.counts.visits]
    refine congrArg Finset.card (Finset.ext fun p => ?_)
    simp only [List.mem_toFinset, List.mem_map, Finset.mem_image]
    constructor
    · rintro ⟨input, hinput, rfl⟩
      exact ⟨request input, ⟨input, hinput, rfl⟩, by rw [hinverse input hinput]⟩
    · rintro ⟨k, ⟨input, hinput, rfl⟩, rfl⟩
      exact ⟨input, hinput, by rw [hinverse input hinput]⟩
  · intro input hinput hlinkDay
    obtain ⟨collected, reply, hmem, haccess⟩ := hrequest input hinput
    have hmemDay : input ∈ ofDay := List.mem_filter.2 ⟨hinput, decide_eq_true hlinkDay⟩
    exact ⟨request input, List.mem_toFinset.2 (List.mem_map_of_mem hmemDay), collected, reply,
      hmem, haccess⟩

/-- The statistics never count what was no visit, and no visit twice: in every state that
requests, calls, workers and finalizers reach, the accesses of a day of a link are distinct
requests that were redirected to the link, and the unique visitors are their pseudonyms. -/
theorem accesses_are_visits
    (h : (pipeline config).Reaches FromQueue (Pool.init (PipelineState.init users start)) σ)
    (linkDay : LinkDay) : ∃ visits access, Tells config σ linkDay visits access := by
  obtain ⟨inputs, -, htally⟩ := (Tallied.init (PipelineState.init users start) rfl).reaches h
  obtain ⟨visits, access, htells, -⟩ := tells_of_tallied h htally linkDay
  exact ⟨visits, access, htells⟩

def drawnId : PipelineEntry → Option String
  | ⟨_, .web .randomUUID, id⟩ => some id
  | _ => none

/-- No two requests draw the same id. -/
def UniqueIds (σ : PipelinePool) : Prop :=
  ∀ e ∈ σ.history, ∀ e' ∈ σ.history, drawnId e ≠ none → drawnId e = drawnId e' →
    e.thread = e'.thread

instance (σ : PipelinePool) : Decidable (UniqueIds σ) :=
  inferInstanceAs (Decidable (∀ e ∈ σ.history, ∀ e' ∈ σ.history, drawnId e ≠ none →
    drawnId e = drawnId e' → e.thread = e'.thread))

theorem eventId_accessEventInput {data : CollectedAccess} {access : AccessEventInput}
    (h : accessEventInput data = .ok access) : access.eventId = data.eventId := by
  cases hday : dateParameter data.occurredOn with
  | error e => cases (congrArg (Except.map _) hday).symm.trans h
  | ok occurredOn =>
      have hok := (congrArg (Except.map _) hday).symm.trans h
      exact (congrArg AccessEventInput.eventId (Except.ok.inj hok)).symm

/-- Accesses with the same id were collected by the same request, and are the same. -/
theorem eq_of_eventId {s : PipelineState} (h : (pipeline config).Reaches ok (Pool.init s) σ)
    (hids : UniqueIds σ) {k' : ℕ} {input input' : CollectedAccess}
    {reply reply' : Except Foreign Unit} {access access' : AccessEventInput}
    (hmem : (⟨k, .web (.collect input), reply⟩ : PipelineEntry) ∈ σ.history)
    (haccess : accessEventInput input = .ok access)
    (hmem' : (⟨k', .web (.collect input'), reply'⟩ : PipelineEntry) ∈ σ.history)
    (haccess' : accessEventInput input' = .ok access') (hid : access.eventId = access'.eventId) :
    k = k' ∧ access = access' := by
  rw [eventId_accessEventInput haccess, eventId_accessEventInput haccess'] at hid
  have hsame : k = k' := hids _ (randomUUID_of_collect h hmem) _ (randomUUID_of_collect h hmem')
    (Option.some_ne_none _) (congrArg some hid)
  subst hsame
  obtain rfl := collect_unique h hmem hmem'
  exact ⟨rfl, Except.ok.inj (haccess.symm.trans haccess')⟩

/-- A worker has recorded the access while the clock still showed the date of the visit. -/
def RecordedOnTheDay (config : PipelineConfig) (s : PipelineState) (σ : PipelinePool)
    (instant : ℤ) (access : AccessEventInput) : Prop :=
  ∃ k σ₁ σ₂, (pipeline config).Reaches FromQueue (Pool.init s) σ₁ ∧
    (pipeline config).Fires FromQueue ⟨k, .statistics (.recordAccess access),
      (Except.ok () : StatisticsReply (.recordAccess access))⟩ σ₁ σ₂ ∧
    (pipeline config).Reaches FromQueue σ₂ σ ∧
    EcmaDate.civil σ₁.shared.now = EcmaDate.civil instant

theorem civil_mono {t t' : ℤ} (h : t ≤ t') : EcmaDate.civil t ≤ EcmaDate.civil t' := by
  rw [CivilDate.le_def, EcmaDate.dayNumber_civil, EcmaDate.dayNumber_civil]
  exact Int.ediv_le_ediv (by decide) h

/-- No finalizer closes a day that the clock still shows. -/
theorem recordedInTime
    (hday : RecordedOnTheDay config (PipelineState.init users start) σ instant access)
    (hfour : (EcmaDate.civil instant).FourDigits)
    (hoccurredOn : access.occurredOn = UtcDate.ofCivil (EcmaDate.civil instant)) :
    RecordedInTime σ.history access := by
  obtain ⟨k, σ₁, σ₂, h₁, hfires, h₂, hnow⟩ := hday
  obtain ⟨l, hl⟩ := h₂.history_suffix
  refine ⟨l, σ₁.history, k, by rw [← hl, hfires.history], fun k' r hmem => ?_⟩
  obtain ⟨now, hle, hfour', hlt⟩ := lt_of_finalizeDay h₁ hmem
  have hcivil : EcmaDate.civil now ≤ EcmaDate.civil instant := hnow ▸ civil_mono hle
  have hofCivil := (UtcDate.ofCivil_le_iff hfour' hfour).2 hcivil
  have hbefore : UtcDate.ofCivil (EcmaDate.civil instant) <
      UtcDate.ofCivil (EcmaDate.civil now) := hoccurredOn ▸ hlt
  exact absurd hofCivil (not_le.2 hbefore)

/-- The statistics count every visit that a worker records on its day, once, whatever is
delivered again, fails or is closed afterwards, as long as no id is drawn twice. -/
theorem timely_visits_are_counted
    (h : (pipeline config).Reaches FromQueue (Pool.init (PipelineState.init users start)) σ)
    (hids : UniqueIds σ) (linkDay : LinkDay) :
    ∃ visits access, Tells config σ linkDay visits access ∧
      ∀ k request resolved instant a, Visit config σ k request resolved instant a →
        a.linkDay = linkDay →
        RecordedOnTheDay config (PipelineState.init users start) σ instant a →
          k ∈ visits := by
  obtain ⟨inputs, -, htally⟩ := (Tallied.init (PipelineState.init users start) rfl).reaches h
  obtain ⟨visits, access, htells, hcounted⟩ := tells_of_tallied h htally linkDay
  refine ⟨visits, access, htells, fun k request resolved instant a hvisit hlinkDay hday => ?_⟩
  obtain ⟨collected, reply, hmem, haccess⟩ := hvisit.collected
  obtain ⟨input, hinput, hid⟩ := htally.inTime a
    (recordedInTime hday hvisit.fourDigits hvisit.occurredOn)
  obtain ⟨k', r, hrecorded⟩ := htally.recorded input hinput
  obtain ⟨k₁, collected₁, reply₁, hmem₁, haccess₁⟩ := collect_of_recorded h hrecorded
  obtain ⟨-, rfl⟩ := eq_of_eventId h hids hmem haccess hmem₁ haccess₁ hid.symm
  obtain ⟨k₂, hk₂, collected₂, reply₂, hmem₂, haccess₂⟩ := hcounted a hinput hlinkDay
  obtain ⟨rfl, -⟩ := eq_of_eventId h hids hmem haccess hmem₂ haccess₂ rfl
  exact hk₂

end

/-! ### A run -/

def examplePipeline : PipelineConfig := ⟨exampleConfig, id, fun _ => 0⟩

/-- Fixed values from outside. -/
def pipelineOutcome (fault : Fault) : PipelineOutside :=
  ⟨⟨⟨⟨1, "l"⟩, "AAAAAA", .none⟩, .ok (), .ok false, 0, "e", .ok "BR", .ok "v", .ok ()⟩,
    false, fault⟩

/-- The next step of a call. -/
def pipelineStep (k : ℕ) (fault : Fault) : PipelineEvent := .exec k (pipelineOutcome fault)

/-- The job of the access to the link on the first day of a year. -/
def newYearJob : QueuedJob :=
  QueueLinkAccessCollector.job (collectedAccess exampleResolved 1767225600000 "e" "BR"
    (VisitorPseudonymizer.create id "l" "2026-01-01" "203.0.113.7" "Mozilla/5.0"))

/-- The link is created and asked for; of the job the reply of the first attempt is lost. -/
def unanswered : PipelinePool :=
  (pipeline examplePipeline).after
    (.spawn (.web (.links (.create "u" "https://a.example/"))) ::
      List.replicate 2 (pipelineStep 0 .none) ++
      .spawn (.web (.request exampleRequest)) :: List.replicate 10 (pipelineStep 1 .none) ++
      [.spawn (.process newYearJob), pipelineStep 2 (.lost (.error "Connection terminated")),
        .spawn (.process newYearJob)])
    (Pool.init (PipelineState.init ["u"] 1767225600000))

/-- The second attempt succeeds. -/
def retried : PipelinePool :=
  (pipeline examplePipeline).after [pipelineStep 3 .none] unanswered

/-- The day is closed, and the job is delivered once more. -/
def redelivered : PipelinePool :=
  (pipeline examplePipeline).after
    ([.environment (.links (.tick 86400000)), .spawn .finalizePreviousUtcDays] ++
      List.replicate 3 (pipelineStep 4 .none) ++
      [.spawn (.process newYearJob), pipelineStep 5 .none]) retried

theorem unanswered_reached : (pipeline examplePipeline).Reaches FromQueue
    (Pool.init (PipelineState.init ["u"] 1767225600000)) unanswered :=
  Semantics.reaches_after _ (by decide +kernel)

theorem redelivered_of_retried : (pipeline examplePipeline).Reaches FromQueue retried
    redelivered := Semantics.reaches_after _ (by decide +kernel)

theorem redelivered_reached : (pipeline examplePipeline).Reaches FromQueue
    (Pool.init (PipelineState.init ["u"] 1767225600000)) redelivered :=
  (unanswered_reached.trans (Semantics.reaches_after _ (by decide +kernel))).trans
    redelivered_of_retried

/-- The job is delivered three times and counted once. -/
theorem redelivered_counted_once :
    redelivered.shared.statistics.dailyAccesses (fun key => key.1 = ("l", ⟨2026, 1, 1⟩)) = 1 ∧
      ∃ visits access, Tells examplePipeline redelivered ("l", ⟨2026, 1, 1⟩) visits access :=
  ⟨by decide +kernel, accesses_are_visits redelivered_reached _⟩

def newYearEvent : AccessEventInput :=
  ⟨"e", "l", "2026-01-01T00:00:00.000Z", ⟨2026, 1, 1⟩, "BR",
    VisitorPseudonymizer.create id "l" "2026-01-01" "203.0.113.7" "Mozilla/5.0"⟩

theorem visit_redelivered : Visit examplePipeline redelivered 1 exampleRequest exampleResolved
    1767225600000 newYearEvent where
  call := rfl
  method := rfl
  code := by decide
  link := ⟨"u", _, List.mem_cons_self, rfl, rfl, rfl, rfl⟩
  redirected := List.mem_of_getElem? (i := 12) rfl
  human := by decide
  read := List.mem_of_getElem? (i := 10) rfl
  collected := ⟨_, _, List.mem_of_getElem? (i := 6) rfl, by decide +kernel⟩
  linkId := rfl
  fourDigits := ⟨by decide, by decide⟩
  occurredOn := by decide
  visitor := by decide

theorem newYearEvent_recorded : RecordedOnTheDay examplePipeline
    (PipelineState.init ["u"] 1767225600000) redelivered 1767225600000 newYearEvent :=
 
  ⟨3, unanswered, retried, unanswered_reached,
    ⟨⟨pipelineOutcome .none, trivial, rfl⟩, ⟨_, _, rfl, rfl⟩, rfl⟩, redelivered_of_retried, rfl⟩

theorem redelivered_timely :
    redelivered.shared.statistics.findDay ("l", ⟨2026, 1, 1⟩) ≠ none ∧
      ∃ visits access, Tells examplePipeline redelivered ("l", ⟨2026, 1, 1⟩) visits access ∧
        1 ∈ visits := by
  obtain ⟨visits, access, htells, htimely⟩ := timely_visits_are_counted redelivered_reached
    (by decide +kernel) ("l", ⟨2026, 1, 1⟩)
  exact ⟨by decide +kernel, visits, access, htells,
    htimely 1 _ _ _ _ visit_redelivered rfl newYearEvent_recorded⟩

end LinkStatistics

end Shortlink

import Shortlink.LinkStatistics.Consistency
import Shortlink.LinkStatistics.Pipeline

/-!
# What the parts of the pipeline do to each other

The links service keeps its identities whatever runs beside it (`kept_of_reaches`). What is
in the queue was collected by a request, what a worker records stands in a job of the queue,
and the finalizer closes the days that it has found before the day it has read from the
clock (`allowed_of_mem`).
-/

namespace Shortlink

namespace LinkStatistics

open Shortlink.Storage Shortlink.Interaction Shortlink.Links Shortlink.Calendar
open Shortlink.Expiring

/-! ### The links -/

/-- What the links and their cache go through, whoever runs beside them. -/
structure LinksKept (s s' : LinksState) : Prop where
  persists : Persists s.db s'.db
  sound : Sound s → Sound s'
  now : s.cache.now ≤ s'.cache.now

namespace LinksKept

variable {s s' s'' : LinksState}

theorem refl (s : LinksState) : LinksKept s s := ⟨persists_refl _, id, le_refl _⟩

theorem trans (h : LinksKept s s') (h' : LinksKept s' s'') : LinksKept s s'' :=
  ⟨h.persists.trans h'.persists, h'.sound ∘ h.sound, h.now.trans h'.now⟩

end LinksKept

section

variable {config : LinksConfig} {s s' : LinksState}

theorem now_exec {c : LinksStep} {o : LinksOutside} {r : c.Reply}
    (h : LinksService.exec config c o s = some (r, s')) : s'.cache.now = s.cache.now := by
  have hfault : ∀ {α : Type} (p : Except StorageError α × LinksState),
      p.2.cache.now = s.cache.now → (o.fault.apply s p).2.cache.now = s.cache.now := by
    intro α p hp
    rcases o.fault.apply_state s p with heq | heq
    · rw [heq]
    · rw [heq, hp]
  cases c with
  | generate =>
      cases h
      rfl
  | repository c =>
      obtain rfl := (Prod.mk.inj (Option.some.inj h)).2
      refine hfault _ ?_
      rw [LinksService.execTransaction]
      split
      · rfl
      · rfl
  | get shortCode =>
      obtain rfl := congrArg Prod.snd (Option.some.inj h)
      exact hfault _ rfl
  | set shortCode resolved =>
      obtain rfl := congrArg Prod.snd (Option.some.inj h)
      exact hfault _ rfl
  | invalidate shortCode =>
      obtain rfl := congrArg Prod.snd (Option.some.inj h)
      exact hfault _ rfl

theorem environment_kept (x : LinksEnvironment) (s : LinksState) :
    LinksKept s (LinksService.environment x s) := by
  have hmoved := environment_moved x s
  refine ⟨hmoved.persists, fun hs => hmoved.sound hs nofun, ?_⟩
  cases x with
  | tick n => exact Nat.le_add_right _ _
  | evict key => exact le_refl _

theorem guarantees_of_writesAt {call : LinksCall} {p : LinksProgram} (hs : Sound s)
    (hat : WritesAt s call p) :
    (linksService config).Guarantees LinksKept LinksKept (fun _ _ => True) p s := by
  induction p generalizing s with
  | pure a => exact fun _ _ => trivial
  | call c next ih =>
      intro s₁ o r s₂ hrely hexec
      have hat₁ := hat.persists hrely.persists
      have hs₁ := hrely.sound hs
      have hmoved := exec_moved hexec
      have hwrite : ∀ code resolved, c = .set code resolved → LeadsTo s₁.db code resolved := by
        rintro code resolved rfl
        exact hat₁.write
      have hs₂ := hmoved.sound hs₁ hwrite
      exact ⟨⟨hmoved.persists, fun _ => hs₂, (now_exec hexec).ge⟩, ih r hs₂ (hat₁.own hexec)⟩

/-- Behind the resolution a request leaves the links alone. -/
theorem settled_issues {collects : Bool} {request : PublicRequest}
    (result : Except Thrown ResolvedLink) :
    (settled collects request result).Sat (fun _ _ => True) (fun c => c.isLinks = false)
      fun _ => True := by
  have herror : ∀ e : Thrown, (respondError e).run.Sat (fun _ _ => True)
      (fun c => c.isLinks = false) fun _ => True := by
    intro e
    rw [respondError]
    split
    · exact ⟨rfl, fun _ _ => trivial⟩
    · exact ⟨rfl, fun _ _ => trivial⟩
  cases result with
  | error e => exact herror e
  | ok resolved =>
      refine ⟨rfl, fun reply _ => ?_⟩
      cases reply with
      | error e => exact herror (.foreign e)
      | ok u =>
          refine (Program.sat_bind _ _ _ _ _).2 ?_
          refine Program.Sat.mono (fun _ _ h => h) (fun c hc => ?_) (fun _ _ => trivial)
            (scheduleAccessCollection_sat resolved)
          rw [PublicStep.isAnalytics, Bool.and_eq_true, Bool.not_eq_true'] at hc
          exact hc.1

/-- A request and a call of the service keep the links. -/
theorem publicBody_guarantees {collects : Bool} (call : PublicCall) (hs : Sound s) :
    (publicService config collects).Guarantees LinksKept LinksKept (fun _ _ => True)
      (publicBody config collects call) s := by
  have hembed : ∀ (call : LinksCall), (publicService config collects).Guarantees LinksKept
      LinksKept (fun _ _ => True)
      ((LinksService.body config call).embed PublicStep.links fun _ r => r) s := fun call =>
    have hcall : (linksService config).Guarantees LinksKept LinksKept (fun _ _ => True)
        (LinksService.body config call) (id s) := guarantees_of_writesAt hs (writesAt_start s call)
    hcall.embed fun c o s r s' h => ⟨o.links, h⟩
  have hstill : ∀ {α : Type} {p : PublicProgram α} (s : LinksState),
      p.Sat (fun _ _ => True) (fun c => c.isLinks = false) (fun _ => True) →
      (publicService config collects).Guarantees LinksKept LinksKept (fun _ _ => True) p s := by
    intro α p s hp
    refine Semantics.Guarantees.of_sat hp (fun c o s r s' hc h => ?_) s
    cases c with
    | links c => cases hc
    | _ =>
        cases h
        exact LinksKept.refl _
  cases call with
  | links call => exact (hembed call).map some fun _ _ h => h
  | request request =>
      suffices hrequest : (publicService config collects).Guarantees LinksKept LinksKept
          (fun _ _ => True) (handlePublicLinkResolve collects request).run s from
        hrequest.map (fun _ => none) fun _ _ h => h
      rw [handlePublicLinkResolve_run]
      by_cases hroute : request.method ≠ "GET" ∨
          ROOT_SEGMENT_PATTERN.test request.path = false
      · rw [if_pos hroute]
        exact hstill s ⟨rfl, fun _ _ => trivial⟩
      · rw [if_neg hroute]
        by_cases hcode : SHORT_CODE_PATTERN.test (request.path.drop 1) = false
        · rw [if_pos hcode]
          exact hstill s ⟨rfl, fun _ _ => trivial⟩
        · rw [if_neg hcode]
          exact (hembed (.resolve (String.ofList (request.path.drop 1)))).bind LinksKept.refl
            fun s result _ => hstill s (settled_issues (resolvedLink result))

end

/-! ### The steps -/

/-- A step of a request or of a call of the links service. -/
def PipelineStep.isWeb : PipelineStep → Bool
  | .web _ => true
  | _ => false

/-- The exchange of a request or of a call of the links service. -/
def webExchange (x : PublicExchange) : PipelineExchange := ⟨.web x.1, x.2⟩

section

variable {config : PipelineConfig} {s s' : PipelineState}

/-- What the pipeline does for a request is what the web service does on the links; besides,
a collection may add its job to the queue. -/
theorem exec_web {c : PublicStep} {o : PipelineOutside} {r : c.Reply}
    (h : execPipeline config (.web c) o s = some (r, s')) :
    (∃ o', execPublic config.links c o' s.links = some (r, s'.links)) ∧
      s'.statistics = s.statistics ∧
      (s'.jobs = s.jobs ∨ ∃ input, c = .collect input ∧
        s'.jobs = addJob (QueueLinkAccessCollector.job input) s.jobs) := by
  cases c with
  | links c =>
      obtain ⟨rs, hrs, heq⟩ := Option.map_eq_some_iff.1 h
      cases heq
      exact ⟨⟨o.web, hrs⟩, rfl, .inl rfl⟩
  | isAutomated userAgent =>
      cases h
      exact ⟨⟨{ o.web with isAutomated := _ }, rfl⟩, rfl, .inl rfl⟩
  | now =>
      cases h
      exact ⟨⟨{ o.web with now := _ }, rfl⟩, rfl, .inl rfl⟩
  | createPseudonym linkId occurredOn ip userAgent =>
      cases h
      exact ⟨⟨{ o.web with pseudonym := _ }, rfl⟩, rfl, .inl rfl⟩
  | collect input =>
      obtain rfl := congrArg Prod.snd (Option.some.inj h)
      cases o.web.collect with
      | ok u => exact ⟨⟨{ o.web with collect := r }, rfl⟩, rfl, .inr ⟨input, rfl, rfl⟩⟩
      | error e =>
          cases o.stored with
          | true => exact ⟨⟨{ o.web with collect := r }, rfl⟩, rfl, .inr ⟨input, rfl, rfl⟩⟩
          | false => exact ⟨⟨{ o.web with collect := r }, rfl⟩, rfl, .inl rfl⟩
  | _ =>
      cases h
      exact ⟨⟨o.web, rfl⟩, rfl, .inl rfl⟩

/-- The others leave the links and the queue alone, and change the tables of the statistics
by a transaction that is as if it were executed alone. -/
theorem exec_worker {c : PipelineStep} {o : PipelineOutside} {r : c.Reply}
    (hc : c.isWeb = false) (h : execPipeline config c o s = some (r, s')) :
    s'.links = s.links ∧ s'.jobs = s.jobs ∧
      (s'.statistics = s.statistics ∨ ∃ command, c = .statistics command ∧
        s'.statistics = command.effect s.now s.statistics) := by
  cases c with
  | web c => cases hc
  | clock =>
      cases h
      exact ⟨rfl, rfl, .inl rfl⟩
  | statistics c =>
      obtain rfl := congrArg Prod.snd (Option.some.inj h)
      rcases o.fault.apply_state s (execStatistics config c s) with heq | heq
      · rw [heq]
        exact ⟨rfl, rfl, .inl rfl⟩
      · rw [heq, execStatistics]
        split
        · rename_i a db hrun
          exact ⟨rfl, rfl, .inr ⟨c, rfl, StatisticsCommand.eq_effect_of_run hrun⟩⟩
        · exact ⟨rfl, rfl, .inl rfl⟩

/-- Only a transaction of the repository changes the tables of the statistics. -/
theorem statistics_exec {c : PipelineStep} {o : PipelineOutside} {r : c.Reply}
    (h : execPipeline config c o s = some (r, s')) :
    s'.statistics = s.statistics ∨ ∃ command, c = .statistics command ∧
      s'.statistics = command.effect s.now s.statistics := by
  cases c with
  | web c => exact .inl (exec_web h).2.1
  | statistics c => exact (exec_worker rfl h).2.2
  | clock => exact (exec_worker rfl h).2.2

/-- Only a collection adds to the queue. -/
theorem mem_jobs_exec {c : PipelineStep} {o : PipelineOutside} {r : c.Reply}
    (h : execPipeline config c o s = some (r, s')) {job : QueuedJob} (hjob : job ∈ s'.jobs) :
    job ∈ s.jobs ∨
      ∃ input, c = .web (.collect input) ∧ job = QueueLinkAccessCollector.job input := by
  cases c with
  | clock => exact .inl ((exec_worker rfl h).2.1 ▸ hjob)
  | statistics c => exact .inl ((exec_worker rfl h).2.1 ▸ hjob)
  | web c =>
      rcases (exec_web h).2.2 with heq | ⟨input, rfl, heq⟩
      · exact .inl (heq ▸ hjob)
      · rw [heq, addJob] at hjob
        split at hjob
        · exact .inl hjob
        · exact (List.mem_append.1 hjob).imp_right fun hmem =>
            ⟨input, rfl, List.mem_singleton.1 hmem⟩

/-- A transaction that has answered has taken effect. -/
theorem statistics_reply {command : StatisticsCommand} {o : PipelineOutside} {a : command.Res}
    (h : execPipeline config (.statistics command) o s =
      some ((.ok a : StatisticsReply command), s')) :
    (command.impl config.hashtext s.now).run s.statistics = .ok (a, s'.statistics) := by
  have htaken := Fault.apply_eq_ok (Option.some.inj h)
  rw [execStatistics] at htaken
  split at htaken
  · rename_i a' db hrun
    cases htaken
    exact hrun
  · cases (Prod.mk.inj htaken).1

end

/-! ### Every run -/

/-- The links are kept whoever runs. -/
def pipelineContract : Contract PipelineCall PipelineResult PipelineState where
  rely s s' := LinksKept s.links s'.links
  guar _ s s' := LinksKept s.links s'.links
  post _ _ _ := True

section

variable {config : PipelineConfig} {users : List String} {start : ℕ} {σ σ' : PipelinePool}
  {ok : PipelinePool → PipelineEvent → Prop}

theorem worker_guarantees {α : Type} {p : Program PipelineStep PipelineStep.Reply α}
    (hp : p.Sat (fun _ _ => True) (fun c => c.isWeb = false) fun _ => True)
    (s : PipelineState) :
    (pipeline config).Guarantees (fun s s' => LinksKept s.links s'.links)
      (fun s s' => LinksKept s.links s'.links) (fun _ _ => True) p s :=
  .of_sat hp (fun _ _ _ _ _ hc h => (exec_worker hc h).1 ▸ LinksKept.refl _) s

theorem worker_issues (p : StatisticsProgram) :
    (worker p).Sat (fun _ _ => True) (fun c => c.isWeb = false) fun _ => True := by
  refine (Program.sat_bind _ _ _ _ _).2 ?_
  exact Program.embed_sat (p.sat_true.mono (fun _ _ h => h) (fun _ _ => rfl) fun _ h => h)

theorem pipelineContract_met (config : PipelineConfig) :
    pipelineContract.Met (pipeline config) fun s => Sound s.links where
  refl s := LinksKept.refl _
  trans s₁ s₂ s₃ h₁ h₂ := h₁.trans h₂
  keeps s s' hs h := h.sound hs
  guar call s s' _ h := h
  environment x s _ := by
    cases x with
    | links x => exact environment_kept x s.links
    | forget id => exact LinksKept.refl _
  body call s hs := by
    cases call with
    | web call =>
        have hcall : (publicService config.links true).Guarantees LinksKept LinksKept
            (fun _ _ => True) (publicBody config.links true call) s.links :=
          publicBody_guarantees call hs
        have hweb : (pipeline config).Guarantees (fun s s' => LinksKept s.links s'.links)
            (fun s s' => LinksKept s.links s'.links) (fun _ _ => True)
            ((publicBody config.links true call).embed PipelineStep.web fun _ r => r) s :=
          hcall.embed fun c o s r s' h => (exec_web h).1
        exact hweb.map PipelineResult.web fun _ _ h => h
    | process job =>
        refine worker_guarantees (p := LinkStatisticsProcessor.process job) ?_ s
        rw [LinkStatisticsProcessor.process]
        split
        · exact worker_issues _
        · trivial
    | finalizePreviousUtcDays =>
        refine worker_guarantees
          (p := LinkStatisticsFinalizerService.finalizePreviousUtcDays) ⟨rfl, fun now _ => ?_⟩ s
        dsimp only
        split
        · exact worker_issues _
        · trivial

theorem sound_init (users : List String) (now : ℕ) :
    Sound (PipelineState.init users now).links := by
  refine ⟨⟨⟨List.nodup_nil, List.nodup_nil⟩, List.nodup_nil⟩, fun code resolved hget => ?_⟩
  rw [PipelineState.init, Store.get_empty] at hget
  cases hget

/-- In every run the identities of the links are kept, and the clock does not go back. -/
theorem kept_of_reaches
    (h : (pipeline config).Reaches ok (Pool.init (PipelineState.init users start)) σ)
    (h' : (pipeline config).Reaches ok σ σ') :
    Sound σ.shared.links ∧ LinksKept σ.shared.links σ'.shared.links := by
  have hmet := pipelineContract_met config
  have hkept := (hmet.reaches (Contract.Met.init (sound_init users start)) h).2
  exact ⟨hkept.holds, (hmet.reaches hkept h').1⟩

end

/-! ### The days -/

/-- The day of a reading of the clock is read back by PostgreSQL, when it can be. -/
theorem dateParameter_utcDay {now : ℤ} {d : UtcDate} (h : dateParameter (utcDay now) = .ok d) :
    (EcmaDate.civil now).FourDigits ∧ UtcDate.ofCivil (EcmaDate.civil now) = d := by
  obtain ⟨c, ⟨htext, hfour⟩, -, rfl⟩ := dateParameter_eq_ok_iff.1 h
  rw [utcDay, String.toList_ofList] at htext
  by_cases hnow : (EcmaDate.civil now).FourDigits
  · rw [EcmaDate.toISOString_take hnow] at htext
    rw [CivilDate.text_injective hnow hfour htext]
    exact ⟨hfour, rfl⟩
  · -- a sign stands where a digit has to
    exfalso
    have hyear : ¬ (0 ≤ (EcmaDate.civil now).year ∧ (EcmaDate.civil now).year ≤ 9999) := hnow
    have hlength : 0 < (padded 4 c.year.toNat).length := by
      rw [CivilDate.length_year hfour]
      exact Nat.succ_pos 3
    obtain ⟨y, l, hy⟩ := List.exists_cons_of_length_pos hlength
    have hdigit : y.isDigit = true := digits_padded 4 c.year.toNat y (hy ▸ List.mem_cons_self)
    rw [EcmaDate.toISOString, EcmaDate.yearText, if_neg hyear, CivilDate.text, hy] at htext
    have hsign := (List.cons.inj htext).1
    rw [← hsign] at hdigit
    split at hdigit
    · cases hdigit
    · cases hdigit

/-! ### What the calls do -/

/-- What the finalizer may do after the exchanges of `trace`. -/
inductive MayFinalize (trace : List PipelineExchange) : PipelineStep → Prop
  | clock : MayFinalize trace .clock
  | findCandidates (now : ℤ) (before : UtcDate) (hnow : ⟨.clock, now⟩ ∈ trace)
      (hbefore : dateParameter (utcDay now) = .ok before) :
      MayFinalize trace (.statistics (.findCandidates before))
  | finalizeDay (now : ℤ) (before : UtcDate) (candidates : List LinkDay) (linkDay : LinkDay)
      (hnow : ⟨.clock, now⟩ ∈ trace) (hbefore : dateParameter (utcDay now) = .ok before)
      (hfound : ⟨.statistics (.findCandidates before),
        (Except.ok candidates : StatisticsReply (.findCandidates before))⟩ ∈ trace)
      (hmem : linkDay ∈ candidates) :
      MayFinalize trace (.statistics (.finalizeDay linkDay))

def MayExec : PipelineCall → List PipelineExchange → PipelineStep → Prop
  | .web _, _, c => c.isWeb = true
  | .process job, _, c => ∃ access, c = .statistics (.recordAccess access) ∧
      accessEventInput job.data = .ok access
  | .finalizePreviousUtcDays, trace, c => MayFinalize trace c

theorem finalizeCandidates_obeys {now : ℤ} {before : UtcDate}
    (hbefore : dateParameter (utcDay now) = .ok before) {candidates rest : List LinkDay}
    (hrest : rest ⊆ candidates) {trace : List PipelineExchange} (hnow : ⟨.clock, now⟩ ∈ trace)
    (hfound : ⟨.statistics (.findCandidates before),
      (Except.ok candidates : StatisticsReply (.findCandidates before))⟩ ∈ trace) :
    (worker (finalizeCandidates rest)).Obeys MayFinalize (fun _ _ => True) trace := by
  induction rest generalizing trace with
  | nil => trivial
  | cons linkDay rest ih =>
      obtain ⟨hmem, hrest⟩ := List.cons_subset.1 hrest
      refine ⟨.finalizeDay now before candidates linkDay hnow hbefore hfound hmem, fun r => ?_⟩
      cases r with
      | error e => trivial
      | ok u =>
          exact ih hrest (List.mem_cons_of_mem _ hnow) (List.mem_cons_of_mem _ hfound)

theorem finalizePreviousUtcDays_obeys :
    LinkStatisticsFinalizerService.finalizePreviousUtcDays.Obeys MayFinalize
      (fun _ _ => True) [] := by
  refine ⟨.clock, fun now => ?_⟩
  dsimp only
  split
  · rename_i before hbefore
    have hnow : (⟨.clock, now⟩ : PipelineExchange) ∈ [(⟨.clock, now⟩ : PipelineExchange)] :=
      List.mem_cons_self
    refine ⟨.findCandidates now before hnow hbefore, fun r => ?_⟩
    cases r with
    | error e => trivial
    | ok candidates =>
        exact finalizeCandidates_obeys hbefore (List.Subset.refl candidates)
          (List.mem_cons_of_mem _ hnow) List.mem_cons_self
  · trivial

theorem body_obeys (config : PipelineConfig) (call : PipelineCall) :
    (pipelineBody config call).Obeys (MayExec call) (fun _ _ => True) [] := by
  cases call with
  | finalizePreviousUtcDays => exact finalizePreviousUtcDays_obeys
  | process job =>
      rw [pipelineBody.eq_def]
      dsimp only
      rw [LinkStatisticsProcessor.process]
      split
      · rename_i access haccess
        rw [LinkStatistics.process]
        split
        · exact ⟨⟨access, rfl, haccess⟩, fun _ => trivial⟩
        · trivial
      · trivial
  | web call =>
      have hweb : ((publicBody config.links true call).embed PipelineStep.web fun _ r => r :
          Program PipelineStep PipelineStep.Reply _).Sat (fun _ _ => True)
            (fun c => c.isWeb = true) fun _ => True :=
        Program.embed_sat ((publicBody config.links true call).sat_true.mono (fun _ _ h => h)
          (fun _ _ => rfl) fun _ h => h)
      exact (Program.obeys_bind _ _).2 (Program.obeys_of_sat hweb (fun _ _ hc => hc)
        fun _ _ _ => trivial)

/-- A trace of a request or of a call of the links service that collects is one of a
request. -/
theorem request_collected {config : LinksConfig} {call : PublicCall}
    {own : List PublicExchange} {rest : PublicProgram (Option LinksResult)}
    (h : (publicBody config true call).Follows own rest) {x : PublicExchange} (hx : x ∈ own)
    (hcollect : x.1.isCollect = true) :
    ∃ request, call = .request request ∧ Nonempty (Collected request own) := by
  cases call with
  | request request =>
      refine ⟨request, rfl, ?_⟩
      rcases Program.Follows.of_bind h with ⟨p', hp', -⟩ | ⟨t₁, t₂, a, ht, hp', hrest⟩
      · exact handled_shape hp' hx hcollect
      · obtain ⟨rfl, -⟩ := Program.follows_pure.1 hrest
        rw [List.append_nil] at ht
        exact handled_shape (ht ▸ hp') hx hcollect
  | links call =>
      have hlinks : x.1.isLinks = true := by
        refine h.sat (fun c => c.isLinks = true) ((Program.sat_bind _ _ _ _ _).2 ?_) x hx
        exact Program.Sat.mono (fun _ _ h => h) (fun _ hc => hc) (fun _ _ => trivial)
          (embed_isLinks (LinksService.body config call))
      obtain ⟨c, r⟩ := x
      cases c with
      | collect input => cases hlinks
      | _ => cases hcollect

section

variable {config : PipelineConfig} {users : List String} {start : ℕ} {σ : PipelinePool}
  {ok : PipelinePool → PipelineEvent → Prop} {k : ℕ}

/-- The exchanges of a request or of a call of the links service. -/
theorem web_follows {s : PipelineState} (h : (pipeline config).Reaches ok (Pool.init s) σ)
    {call : PublicCall} {rest : PipelineProgram} (hk : σ.threads[k]? = some ⟨.web call, rest⟩) :
    ∃ own rest', (publicBody config.links true call).Follows own rest' ∧
      (traceOf σ.history k).reverse = own.map webExchange := by
  obtain ⟨p, hp, -⟩ := h.follows hk
  have hbody : (((publicBody config.links true call).embed PipelineStep.web fun _ r => r).bind
      fun r => (.pure (.web r) : PipelineProgram)).Follows (traceOf σ.history k).reverse p := hp
  have hembedded : ∃ p', ((publicBody config.links true call).embed PipelineStep.web
      fun _ r => r : Program PipelineStep PipelineStep.Reply _).Follows
        (traceOf σ.history k).reverse p' := by
    rcases hbody.of_bind with ⟨p', hp', -⟩ | ⟨t₁, t₂, a, ht, hp', hrest⟩
    · exact ⟨p', hp'⟩
    · obtain ⟨rfl, -⟩ := Program.follows_pure.1 hrest
      rw [List.append_nil] at ht
      exact ⟨.pure a, ht ▸ hp'⟩
  obtain ⟨p', hp'⟩ := hembedded
  obtain ⟨own, rest', hown, -, hsame⟩ := hp'.of_embed
  refine ⟨own, rest', hown, ?_⟩
  have heq : List.Forall₂ (fun (x : PipelineExchange) y => x = webExchange y)
      (traceOf σ.history k).reverse own := by
    refine hsame.imp fun x y hxy => ?_
    obtain ⟨r, rfl, hr⟩ := hxy
    rw [webExchange, hr]
  exact List.forall₂_eq_eq_eq ▸ List.forall₂_map_right_iff.2 heq

/-- What a call has done is what it may do after its earlier exchanges. -/
theorem allowed_of_mem {s : PipelineState} (h : (pipeline config).Reaches ok (Pool.init s) σ)
    {c : PipelineStep} {r : c.Reply} (hmem : (⟨k, c, r⟩ : PipelineEntry) ∈ σ.history) :
    ∃ call trace rest, σ.threads[k]? = some ⟨call, rest⟩ ∧ MayExec call trace c ∧
      ∀ x ∈ trace, (⟨k, x.1, x.2⟩ : PipelineEntry) ∈ σ.history := by
  obtain ⟨l₂, l₁, hl⟩ := List.append_of_mem hmem
  obtain ⟨call, rest, hk, hmay⟩ := h.allowed MayExec (fun _ _ _ => True)
    (fun _ call _ => body_obeys config call) hl
  refine ⟨call, traceOf l₁ k, rest, hk, hmay, fun x hx => ?_⟩
  rw [hl]
  exact List.mem_append_right _ (List.mem_cons_of_mem _ (mem_traceOf.1 hx))

/-- A request that has collected an access has the trace of one. -/
theorem collected_of_mem_history {s : PipelineState}
    (h : (pipeline config).Reaches ok (Pool.init s) σ) {input : CollectedAccess}
    {reply : Except Foreign Unit}
    (hmem : (⟨k, .web (.collect input), reply⟩ : PipelineEntry) ∈ σ.history) :
    ∃ request own, σ.call? k = some (.web (.request request)) ∧
      (traceOf σ.history k).reverse = own.map webExchange ∧ Nonempty (Collected request own) := by
  obtain ⟨call, trace, rest, hk, hmay, -⟩ := allowed_of_mem h hmem
  cases call with
  | process job =>
      obtain ⟨access, haccess, -⟩ := hmay
      cases haccess
  | finalizePreviousUtcDays => cases hmay
  | web call =>
      obtain ⟨own, rest', hown, heq⟩ := web_follows h hk
      have hcollect : (⟨.collect input, reply⟩ : PublicExchange) ∈ own := by
        have hexchange : (⟨.web (.collect input), reply⟩ : PipelineExchange) ∈
            (traceOf σ.history k).reverse := List.mem_reverse.2 (mem_traceOf.2 hmem)
        rw [heq] at hexchange
        obtain ⟨⟨c, r⟩, hx, hsame⟩ := List.mem_map.1 hexchange
        cases hsame
        exact hx
      obtain ⟨request, rfl, hcollected⟩ := request_collected hown hcollect rfl
      refine ⟨request, own, ?_, heq, hcollected⟩
      rw [Pool.call?, hk]
      rfl

end

end LinkStatistics

end Shortlink

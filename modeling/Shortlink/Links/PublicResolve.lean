import Shortlink.Calendar.EcmaDate
import Shortlink.Interaction.Follows
import Shortlink.Links.Identity
import Shortlink.Text.Pattern

/-!
# Public resolution and the collection of accesses

`register-public-link-resolve.ts`: a request for `/{code}` is answered with a redirect, a
404 or a call of `next`, and behind a redirect an access may be collected. Every call that
leaves the handler is a step, those of the collaborators (the traffic detector, the country
resolver, the pseudonymizer, the collector) included; their replies are arbitrary, errors
among them. The requests are executed concurrently with the other calls of the service.
-/

namespace Shortlink

namespace Links

open Shortlink.Storage Shortlink.Interaction Shortlink.Text Shortlink.Calendar
open Shortlink.Expiring

/-! ### The handler -/

structure PublicRequest where
  method : String
  originalUrl : Option String
  url : String
  userAgent : Option String
  ip : Option String
  deriving DecidableEq

structure CollectedAccess where
  eventId : String
  linkId : String
  occurredAt : String
  occurredOn : String
  country : String
  visitorPseudonym : String
  deriving DecidableEq

/-- What is thrown outside the service: the name of an `Error`, and whether it is a
`NotFoundException`. -/
structure Foreign where
  name : Option String
  notFound : Bool
  deriving DecidableEq

/-- What the error branch of the handler is given. -/
inductive Thrown where
  | links (e : LinksError)
  | foreign (e : Foreign)
  deriving DecidableEq

/-- `error instanceof NotFoundException`. -/
def Thrown.isNotFound : Thrown → Bool
  | .links (.http status _ _ _) => status == 404
  | .links (.storage _) => false
  | .foreign e => e.notFound

/-- The body of a JSON answer. -/
structure ErrorBody where
  statusCode : ℕ
  code : String
  message : String
  deriving DecidableEq

inductive PublicStep where
  | links (c : LinksStep)
  | redirect (status : ℕ) (url : String)
  | json (status : ℕ) (body : ErrorBody)
  | next (error : Option Thrown)
  | isAutomated (userAgent : String)
  | now
  | randomUUID
  | resolveCountry (ip : String)
  | createPseudonym (linkId occurredOn ip userAgent : String)
  | collect (input : CollectedAccess)
  | warn (message : String)
  deriving DecidableEq

namespace PublicStep

abbrev Reply : PublicStep → Type
  | .links c => c.Reply
  | .redirect _ _ => Except Foreign Unit
  | .json _ _ => Unit
  | .next _ => Unit
  | .isAutomated _ => Except Foreign Bool
  | .now => ℤ
  | .randomUUID => String
  | .resolveCountry _ => Except Foreign String
  | .createPseudonym _ _ _ _ => Except Foreign String
  | .collect _ => Except Foreign Unit
  | .warn _ => Unit

/-- A step that the client or the rest of the application sees. -/
def isResponse : PublicStep → Bool
  | .redirect _ _ => true
  | .json _ _ => true
  | .next _ => true
  | _ => false

def isLinks : PublicStep → Bool
  | .links _ => true
  | _ => false

def isCollect : PublicStep → Bool
  | .collect _ => true
  | _ => false

def isAnalytics (c : PublicStep) : Bool := !c.isLinks && !c.isResponse

end PublicStep

abbrev PublicProgram (α : Type) : Type := Program PublicStep PublicStep.Reply α

abbrev PublicThrowing (ε α : Type) : Type := Throwing PublicStep PublicStep.Reply ε α

abbrev PublicExchange : Type := Exchange PublicStep PublicStep.Reply

/-- `/^[A-Z0-9]{6}$/`. -/
def SHORT_CODE_PATTERN : Pattern Char :=
  let character := Pattern.one fun c => c.isUpper || c.isDigit
  .seq .start (.seq character (.seq character (.seq character (.seq character (.seq character
    (.seq character .stop))))))

/-- `/^\/[A-Za-z0-9]+$/`. -/
def ROOT_SEGMENT_PATTERN : Pattern Char :=
  .seq .start (.seq (.one (· == '/')) (.seq (.atLeast 1 Char.isAlphanum) .stop))

/-- The URL up to the first `?`. -/
def PublicRequest.path (request : PublicRequest) : List Char :=
  (request.originalUrl.getD request.url).toList.takeWhile (· != '?')

def linkNotFoundBody : ErrorBody := ⟨404, "LINK_NOT_FOUND", "Link not found."⟩

/-- A step that may throw. -/
def attempt {ε : Type} {α : Type} (c : PublicStep) (reply : c.Reply → Except ε α) :
    PublicThrowing ε α :=
  ExceptT.mk (.call c fun r => .pure (reply r))

/-- A step that does not throw. -/
def perform {ε : Type} (c : PublicStep) : PublicThrowing ε c.Reply := attempt c .ok

def collectEligibleAccess (request : PublicRequest) (resolved : ResolvedLink) :
    PublicThrowing Foreign Unit := do
  let userAgent := request.userAgent.getD ""
  let automated ← attempt (.isAutomated userAgent) id
  if automated then
    return
  let occurredAt ← perform .now
  let occurredOn := String.ofList ((EcmaDate.toISOString occurredAt).take 10)
  let ip := request.ip.getD ""
  let eventId ← perform .randomUUID
  let country ← attempt (.resolveCountry ip) id
  let visitorPseudonym ←
    attempt (.createPseudonym resolved.linkId occurredOn ip userAgent) id
  attempt (.collect
    { eventId, linkId := resolved.linkId
      occurredAt := String.ofList (EcmaDate.toISOString occurredAt)
      occurredOn, country, visitorPseudonym }) id

/-- `error instanceof Error ? error.name || 'Error' : 'unknown'`. -/
def reasonOf (error : Foreign) : String :=
  match error.name with
  | none => "unknown"
  | some name => if name = "" then "Error" else name

/-- `scheduleAccessCollection`: the promise is not awaited, and its rejection is logged.
`collects` says that the collaborators are there. -/
def scheduleAccessCollection (collects : Bool) (request : PublicRequest)
    (resolved : ResolvedLink) : PublicProgram Unit :=
  if !collects then .pure ()
  else
    (collectEligibleAccess request resolved).run.bind fun
      | .ok () => .pure ()
      | .error error =>
          .call (.warn ("Link access collection failed (" ++ reasonOf error ++ ")"))
            fun _ => .pure ()

/-- What `resolve` returns or throws; it returns nothing but a resolved link. -/
def resolvedLink : LinksResult → Except Thrown ResolvedLink
  | .ok (.resolved resolved) => .ok resolved
  | .ok (.createLink _ _) => .error (.foreign ⟨some "TypeError", false⟩)
  | .ok (.link _) => .error (.foreign ⟨some "TypeError", false⟩)
  | .error e => .error (.links e)

/-- `linksService.resolve`. -/
def resolveLink (code : String) : PublicThrowing Thrown ResolvedLink :=
  ExceptT.mk (((LinksService.resolve code).embed PublicStep.links fun _ r => r).bind
    fun result => .pure (resolvedLink result))

def respondError (error : Thrown) : PublicThrowing Thrown Unit :=
  if error.isNotFound then perform (.json 404 linkNotFoundBody)
  else perform (.next (some error))

def handlePublicLinkResolve (collects : Bool) (request : PublicRequest) :
    PublicThrowing Thrown Unit :=
  if request.method ≠ "GET" ∨ ROOT_SEGMENT_PATTERN.test request.path = false then
    perform (.next none)
  else
    let code := request.path.drop 1
    if SHORT_CODE_PATTERN.test code = false then perform (.json 404 linkNotFoundBody)
    else
      tryCatch (do
        let resolved ← resolveLink (String.ofList code)
        attempt (.redirect 302 resolved.destinationUrl) (Except.mapError .foreign)
        ExceptT.lift (scheduleAccessCollection collects request resolved)) respondError

/-! ### Requests among the calls of the service -/

inductive PublicCall where
  | request (request : PublicRequest)
  | links (call : LinksCall)
  deriving DecidableEq

/-- What a step takes from outside: the replies of what is not modelled. -/
structure PublicOutside where
  links : LinksOutside
  redirect : Except Foreign Unit
  isAutomated : Except Foreign Bool
  now : ℤ
  randomUUID : String
  country : Except Foreign String
  pseudonym : Except Foreign String
  collect : Except Foreign Unit

/-- The effect of a step; only those of the service use the tables and the cache. -/
def execPublic (config : LinksConfig) :
    (c : PublicStep) → PublicOutside → LinksState → Option (c.Reply × LinksState)
  | .links c, o, s => LinksService.exec config c o.links s
  | .redirect _ _, o, s => some (o.redirect, s)
  | .json _ _, _, s => some ((), s)
  | .next _, _, s => some ((), s)
  | .isAutomated _, o, s => some (o.isAutomated, s)
  | .now, o, s => some (o.now, s)
  | .randomUUID, o, s => some (o.randomUUID, s)
  | .resolveCountry _, o, s => some (o.country, s)
  | .createPseudonym _ _ _ _, o, s => some (o.pseudonym, s)
  | .collect _, o, s => some (o.collect, s)
  | .warn _, _, s => some ((), s)

/-- The requests end with nothing, the calls of the service with their result. -/
def publicBody (config : LinksConfig) (collects : Bool) :
    PublicCall → PublicProgram (Option LinksResult)
  | .request request =>
      (handlePublicLinkResolve collects request).run.bind fun _ => .pure none
  | .links call =>
      ((LinksService.body config call).embed PublicStep.links fun _ r => r).bind
        fun result => .pure (some result)

/-- Requests and calls of the service, executed concurrently. -/
def publicService (config : LinksConfig) (collects : Bool) :
    Semantics PublicStep PublicStep.Reply PublicCall (Option LinksResult) LinksState
      PublicOutside LinksEnvironment where
  body := publicBody config collects
  exec := execPublic config
  environment := LinksService.environment

abbrev PublicPool : Type :=
  Pool PublicStep PublicStep.Reply PublicCall (Option LinksResult) LinksState

/-! ### The response -/

/-- What the client and the application see of a trace. -/
def seen (trace : List PublicExchange) : List PublicExchange :=
  trace.filter fun x => x.1.isResponse

/-- The tables, the cache and the response behave as `f` says. -/
def AnsweredBy (f : (c : PublicStep) → c.Reply) (trace : List PublicExchange) : Prop :=
  ∀ x ∈ trace, x.1.isAnalytics = false → x.2 = f x.1

/-- The program has finished, or it has come to the collection. -/
def Answered {α : Type} (trace : List PublicExchange) (rest : PublicProgram α) : Prop :=
  (∃ a, rest = .pure a) ∨ ∃ x ∈ trace, x.1.isAnalytics = true

def errorResponse (error : Thrown) : List PublicExchange :=
  if error.isNotFound then [⟨.json 404 linkNotFoundBody, ()⟩] else [⟨.next (some error), ()⟩]

def linkResponse (f : (c : PublicStep) → c.Reply) : Except Thrown ResolvedLink →
    List PublicExchange
  | .error e => errorResponse e
  | .ok resolved =>
      let c := PublicStep.redirect 302 resolved.destinationUrl
      let reply : Except Foreign Unit := f c
      ⟨c, reply⟩ ::
        match reply with
        | .ok () => []
        | .error e => errorResponse (.foreign e)

/-- The response to a request, given the behaviour of the tables, the cache and the
response; the collaborators have no part in it. -/
def responseOf (f : (c : PublicStep) → c.Reply) (request : PublicRequest) :
    List PublicExchange :=
  if request.method ≠ "GET" ∨ ROOT_SEGMENT_PATTERN.test request.path = false then
    [⟨.next none, ()⟩]
  else
    let code := request.path.drop 1
    if SHORT_CODE_PATTERN.test code = false then [⟨.json 404 linkNotFoundBody, ()⟩]
    else linkResponse f (resolvedLink
      ((LinksService.resolve (String.ofList code)).answer fun c => f (.links c)))

/-- What is left of the `try` block and its error branch behind the resolution. -/
def settled (collects : Bool) (request : PublicRequest) :
    Except Thrown ResolvedLink → PublicProgram (Except Thrown Unit)
  | .error e => (respondError e).run
  | .ok resolved =>
      .call (.redirect 302 resolved.destinationUrl) fun (reply : Except Foreign Unit) =>
        match reply with
        | .ok () => (scheduleAccessCollection collects request resolved).bind fun _ =>
            .pure (.ok ())
        | .error e => (respondError (.foreign e)).run

section

variable {collects : Bool} {request : PublicRequest}

theorem tryCatch_eq_settled (p : PublicProgram LinksResult) :
    (tryCatch (do
      let resolved ← ExceptT.mk (p.bind fun result => .pure (resolvedLink result))
      attempt (.redirect 302 resolved.destinationUrl) (Except.mapError .foreign)
      ExceptT.lift (scheduleAccessCollection collects request resolved)) respondError :
        PublicThrowing Thrown Unit).run =
      p.bind fun result => settled collects request (resolvedLink result) := by
  induction p with
  | call c next ih => exact congrArg (Program.call c) (funext ih)
  | pure result =>
      simp only [Program.pure_bind]
      cases resolvedLink result with
      | error e => rfl
      | ok resolved =>
          refine congrArg (Program.call (PublicStep.redirect 302 resolved.destinationUrl)) ?_
          funext reply
          cases reply with
          | error e => rfl
          | ok u =>
              cases u
              exact Program.bind_assoc (scheduleAccessCollection collects request resolved) _ _

theorem handlePublicLinkResolve_run :
    (handlePublicLinkResolve collects request).run =
      if request.method ≠ "GET" ∨ ROOT_SEGMENT_PATTERN.test request.path = false then
        .call (.next none) fun r => .pure (.ok r)
      else if SHORT_CODE_PATTERN.test (request.path.drop 1) = false then
        .call (.json 404 linkNotFoundBody) fun r => .pure (.ok r)
      else
        ((LinksService.resolve (String.ofList (request.path.drop 1))).embed PublicStep.links
          fun _ r => r).bind fun result => settled collects request (resolvedLink result) := by
  rw [handlePublicLinkResolve]
  by_cases hroute : request.method ≠ "GET" ∨ ROOT_SEGMENT_PATTERN.test request.path = false
  · rw [if_pos hroute, if_pos hroute]
    rfl
  · rw [if_neg hroute, if_neg hroute]
    by_cases hcode : SHORT_CODE_PATTERN.test (request.path.drop 1) = false
    · rw [if_pos hcode, if_pos hcode]
      rfl
    · rw [if_neg hcode, if_neg hcode]
      exact tryCatch_eq_settled _

theorem follows_perform {c : PublicStep} {ε : Type} {trace : List PublicExchange}
    {rest : PublicProgram (Except ε c.Reply)}
    (h : (Program.call c fun r => .pure (.ok r) : PublicProgram (Except ε c.Reply)).Follows
      trace rest) (hdone : Answered trace rest) : ∃ r, trace = [⟨c, r⟩] := by
  rcases Program.follows_call.1 h with ⟨rfl, rfl⟩ | ⟨r, t, rfl, hrest⟩
  · rcases hdone with ⟨a, ha⟩ | ⟨x, hx, -⟩
    · cases ha
    · cases hx
  · obtain ⟨rfl, -⟩ := Program.follows_pure.1 hrest
    exact ⟨r, rfl⟩

theorem follows_respondError {error : Thrown} {trace : List PublicExchange}
    {rest : PublicProgram (Except Thrown Unit)}
    (h : (respondError error).run.Follows trace rest) (hdone : Answered trace rest) :
    seen trace = errorResponse error := by
  rw [respondError] at h
  rw [errorResponse]
  by_cases hnotFound : error.isNotFound = true
  · rw [if_pos hnotFound] at h ⊢
    obtain ⟨r, rfl⟩ := follows_perform h hdone
    rfl
  · rw [if_neg hnotFound] at h ⊢
    obtain ⟨r, rfl⟩ := follows_perform h hdone
    rfl

theorem attempt_issues {ε α : Type} {c : PublicStep} {reply : c.Reply → Except ε α}
    (hc : c.isAnalytics = true) : (attempt c reply).Issues fun c => c.isAnalytics = true :=
  ⟨hc, fun _ _ => trivial⟩

theorem collectEligibleAccess_issues (resolved : ResolvedLink) :
    (collectEligibleAccess request resolved).Issues fun c => c.isAnalytics = true := by
  refine (attempt_issues rfl).bind fun automated => ?_
  cases automated with
  | true => trivial
  | false =>
      refine (attempt_issues rfl).bind fun occurredAt => ?_
      refine (attempt_issues rfl).bind fun eventId => ?_
      refine (attempt_issues rfl).bind fun country => ?_
      exact (attempt_issues rfl).bind fun visitorPseudonym => attempt_issues rfl

theorem scheduleAccessCollection_sat (resolved : ResolvedLink) :
    (scheduleAccessCollection collects request resolved).Sat (fun _ _ => True)
      (fun c => c.isAnalytics = true) fun _ => True := by
  cases collects with
  | false => trivial
  | true =>
      refine (Program.sat_bind _ _ _ _ _).2 ?_
      refine Program.Sat.mono (fun _ _ h => h) (fun _ h => h) ?_
        (collectEligibleAccess_issues resolved)
      intro result _
      cases result with
      | ok u => trivial
      | error error => exact ⟨rfl, fun _ _ => trivial⟩

theorem seen_of_analytics {trace : List PublicExchange}
    (h : ∀ x ∈ trace, x.1.isAnalytics = true) : seen trace = [] := by
  refine List.filter_eq_nil_iff.2 fun x hx => ?_
  have hx := h x hx
  rw [PublicStep.isAnalytics, Bool.and_eq_true, Bool.not_eq_true'] at hx
  simpa using hx.2

theorem seen_of_links {trace : List PublicExchange} (h : ∀ x ∈ trace, x.1.isLinks = true) :
    seen trace = [] := by
  refine List.filter_eq_nil_iff.2 fun x hx => ?_
  have hx := h x hx
  obtain ⟨c, r⟩ := x
  cases c with
  | links c => simp [PublicStep.isResponse]
  | _ => cases hx

theorem isAnalytics_of_links {c : PublicStep} (h : c.isLinks = true) : c.isAnalytics = false := by
  simp [PublicStep.isAnalytics, h]

theorem Answered.of_append {α : Type} {t₁ t₂ : List PublicExchange} {rest : PublicProgram α}
    (h : Answered (t₁ ++ t₂) rest) (ht₁ : ∀ x ∈ t₁, x.1.isAnalytics = false) :
    Answered t₂ rest := by
  refine h.imp_right fun hanalytics => ?_
  obtain ⟨x, hx, hanalytic⟩ := hanalytics
  rcases List.mem_append.1 hx with hx | hx
  · rw [ht₁ x hx] at hanalytic
    cases hanalytic
  · exact ⟨x, hx, hanalytic⟩

theorem follows_settled {f : (c : PublicStep) → c.Reply} {result : Except Thrown ResolvedLink}
    {trace : List PublicExchange} {rest : PublicProgram (Except Thrown Unit)}
    (h : (settled collects request result).Follows trace rest) (hdone : Answered trace rest)
    (hf : AnsweredBy f trace) : seen trace = linkResponse f result := by
  cases result with
  | error e => exact follows_respondError h hdone
  | ok resolved =>
      rcases Program.follows_call.1 h with ⟨rfl, rfl⟩ | ⟨reply, t, rfl, hrest⟩
      · rcases hdone with ⟨a, ha⟩ | ⟨x, hx, -⟩
        · cases ha
        · cases hx
      · have hreply : reply = f (.redirect 302 resolved.destinationUrl) :=
          hf _ List.mem_cons_self rfl
        have hlist : Answered ([⟨.redirect 302 resolved.destinationUrl, reply⟩] ++ t) rest :=
          hdone
        have hdone' : Answered t rest := hlist.of_append (List.forall_mem_singleton.2 rfl)
        have hseen : seen (⟨.redirect 302 resolved.destinationUrl, reply⟩ :: t) =
            ⟨.redirect 302 resolved.destinationUrl, reply⟩ :: seen t :=
          List.filter_cons_of_pos rfl
        rw [hseen]
        simp only [linkResponse, ← hreply]
        refine congrArg _ ?_
        cases reply with
        | error e => exact follows_respondError hrest hdone'
        | ok u =>
            cases u
            have hsat : ((scheduleAccessCollection collects request resolved).bind fun _ =>
                (.pure (.ok ()) : PublicProgram (Except Thrown Unit))).Sat (fun _ _ => True)
                (fun c => c.isAnalytics = true) fun _ => True :=
              (Program.sat_bind _ _ _ _ _).2 (Program.Sat.mono (fun _ _ h => h)
                (fun _ h => h) (fun _ _ => trivial) (scheduleAccessCollection_sat resolved))
            exact seen_of_analytics (hrest.sat _ hsat)

/-- A trace of a resolution to its end ends with what the answers make of it. -/
theorem follows_resolve {f : (c : PublicStep) → c.Reply} {p : LinksProgram}
    {trace : List PublicExchange} {result : LinksResult}
    (h : (p.embed PublicStep.links fun _ r => r : PublicProgram LinksResult).Follows trace
      (.pure result)) (hf : ∀ x ∈ trace, x.2 = f x.1) :
    result = p.answer fun c => f (.links c) := by
  induction p generalizing trace with
  | pure a =>
      obtain ⟨-, hresult⟩ := Program.follows_pure.1 h
      cases hresult
      rfl
  | call c next ih =>
      rcases Program.follows_call.1 h with ⟨-, hcall⟩ | ⟨r, t, rfl, hrest⟩
      · cases hcall
      · obtain ⟨hr, ht⟩ := List.forall_mem_cons.1 hf
        obtain rfl : r = f (.links c) := hr
        exact ih _ hrest ht

theorem embed_isLinks (p : LinksProgram) :
    (p.embed PublicStep.links fun _ r => r : PublicProgram LinksResult).Sat
      (fun _ _ => True) (fun c => c.isLinks = true) fun _ => True :=
  Program.embed_sat (p.sat_true.mono (fun _ _ h => h) (fun _ _ => rfl) fun _ h => h)

theorem settled_ne_pure (result : Except Thrown ResolvedLink) (a : Except Thrown Unit) :
    settled collects request result ≠ .pure a := by
  intro h
  cases result with
  | ok resolved => cases h
  | error e =>
      rw [settled, respondError] at h
      split at h
      · cases h
      · cases h

/-- A resolution that has come to its end or to the collection is over. -/
theorem resolution_over {code : String} {trace : List PublicExchange}
    {rest : PublicProgram (Except Thrown Unit)}
    (h : (((LinksService.resolve code).embed PublicStep.links fun _ r => r :
      PublicProgram LinksResult).bind fun result =>
        settled collects request (resolvedLink result)).Follows trace rest)
    (hdone : Answered trace rest) :
    ∃ t₁ t₂ result, trace = t₁ ++ t₂ ∧ (∀ x ∈ t₁, x.1.isLinks = true) ∧
      ((LinksService.resolve code).embed PublicStep.links fun _ r => r :
        PublicProgram LinksResult).Follows t₁ (.pure result) ∧
      (settled collects request (resolvedLink result)).Follows t₂ rest := by
  rcases h.of_bind with ⟨p', hp', rfl⟩ | ⟨t₁, t₂, result, rfl, hq, hrest⟩
  · rcases hdone with ⟨a, ha⟩ | ⟨x, hx, hanalytic⟩
    · cases p' with
      | pure result => exact absurd ha (settled_ne_pure _ a)
      | call c next => cases ha
    · rw [isAnalytics_of_links (hp'.sat _ (embed_isLinks _) x hx)] at hanalytic
      cases hanalytic
  · exact ⟨t₁, t₂, result, rfl, hq.sat _ (embed_isLinks _), hq, hrest⟩

/-- The response to a request does not depend on the collaborators. -/
theorem seen_eq_responseOf {f : (c : PublicStep) → c.Reply} {trace : List PublicExchange}
    {rest : PublicProgram (Except Thrown Unit)}
    (h : (handlePublicLinkResolve collects request).run.Follows trace rest)
    (hdone : Answered trace rest) (hf : AnsweredBy f trace) :
    seen trace = responseOf f request := by
  rw [handlePublicLinkResolve_run] at h
  rw [responseOf]
  by_cases hroute : request.method ≠ "GET" ∨ ROOT_SEGMENT_PATTERN.test request.path = false
  · rw [if_pos hroute] at h ⊢
    obtain ⟨r, rfl⟩ := follows_perform h hdone
    rfl
  · rw [if_neg hroute] at h ⊢
    by_cases hcode : SHORT_CODE_PATTERN.test (request.path.drop 1) = false
    · rw [if_pos hcode] at h
      obtain ⟨r, rfl⟩ := follows_perform h hdone
      exact (if_pos hcode).symm
    · rw [if_neg hcode] at h
      obtain ⟨t₁, t₂, result, rfl, hlinks, hq, hrest⟩ := resolution_over h hdone
      have hfirst : ∀ x ∈ t₁, x.1.isAnalytics = false := fun x hx =>
        isAnalytics_of_links (hlinks x hx)
      have hresult := follows_resolve hq fun x hx =>
        hf x (List.mem_append_left t₂ hx) (hfirst x hx)
      have hsettled := follows_settled hrest (hdone.of_append hfirst) fun x hx =>
        hf x (List.mem_append_right t₁ hx)
      have hseen : seen (t₁ ++ t₂) = seen t₂ := by
        rw [seen, List.filter_append]
        exact congrArg (· ++ seen t₂) (seen_of_links hlinks)
      refine Eq.trans ?_ (if_neg hcode).symm
      rw [hseen, hsettled, hresult]

end

/-! ### The collection -/

/-- What the collector is given. -/
def collectedAccess (resolved : ResolvedLink) (occurredAt : ℤ)
    (eventId country visitorPseudonym : String) : CollectedAccess where
  eventId := eventId
  linkId := resolved.linkId
  occurredAt := String.ofList (EcmaDate.toISOString occurredAt)
  occurredOn := String.ofList ((EcmaDate.toISOString occurredAt).take 10)
  country := country
  visitorPseudonym := visitorPseudonym

/-- The exchanges with the collaborators for one access. -/
def collection (request : PublicRequest) (resolved : ResolvedLink) (occurredAt : ℤ)
    (eventId country visitorPseudonym : String) (reply : Except Foreign Unit) :
    List PublicExchange :=
  [⟨.isAutomated (request.userAgent.getD ""), Except.ok false⟩, ⟨.now, occurredAt⟩,
    ⟨.randomUUID, eventId⟩, ⟨.resolveCountry (request.ip.getD ""), Except.ok country⟩,
    ⟨.createPseudonym resolved.linkId
      (String.ofList ((EcmaDate.toISOString occurredAt).take 10)) (request.ip.getD "")
      (request.userAgent.getD ""), Except.ok visitorPseudonym⟩,
    ⟨.collect (collectedAccess resolved occurredAt eventId country visitorPseudonym), reply⟩]

section

variable {request : PublicRequest} {resolved : ResolvedLink} {trace : List PublicExchange}

/-- A collection stands behind a step that answers with a value. -/
theorem collected_behind {ε α β : Type} {c : PublicStep} {reply : c.Reply → Except ε α}
    {f : α → PublicThrowing ε β} {rest : PublicProgram (Except ε β)}
    (h : (attempt c reply >>= f).run.Follows trace rest) (hc : c.isCollect = false)
    {x : PublicExchange} (hx : x ∈ trace) (hcollect : x.1.isCollect = true) :
    ∃ r a t, trace = ⟨c, r⟩ :: t ∧ reply r = .ok a ∧ (f a).run.Follows t rest ∧ x ∈ t := by
  rcases Program.follows_call.1 h with ⟨rfl, -⟩ | ⟨r, t, rfl, hrest⟩
  · cases hx
  · have hmem : x ∈ t := by
      rcases List.mem_cons.1 hx with rfl | hmem
      · rw [hc] at hcollect
        cases hcollect
      · exact hmem
    rw [Program.pure_bind] at hrest
    cases hreply : reply r with
    | ok a =>
        rw [hreply] at hrest
        exact ⟨r, a, t, rfl, hreply, hrest, hmem⟩
    | error e =>
        rw [hreply] at hrest
        obtain ⟨rfl, -⟩ := Program.follows_pure.1 hrest
        cases hmem

/-- An access is collected behind the answers of the other collaborators. -/
theorem collected_shape {rest : PublicProgram (Except Foreign Unit)}
    (h : (collectEligibleAccess request resolved).run.Follows trace rest)
    {x : PublicExchange} (hx : x ∈ trace) (hcollect : x.1.isCollect = true) :
    ∃ occurredAt eventId country visitorPseudonym reply,
      trace = collection request resolved occurredAt eventId country visitorPseudonym reply := by
  rw [collectEligibleAccess] at h
  obtain ⟨r, automated, t₁, rfl, rfl, h₁, hx₁⟩ := collected_behind h rfl hx hcollect
  cases automated with
  | true =>
      obtain ⟨rfl, -⟩ := Program.follows_pure.1 h₁
      cases hx₁
  | false =>
      obtain ⟨occurredAt, _, t₂, rfl, hnow, h₂, hx₂⟩ := collected_behind h₁ rfl hx₁ hcollect
      cases hnow
      obtain ⟨eventId, _, t₃, rfl, hid, h₃, hx₃⟩ := collected_behind h₂ rfl hx₂ hcollect
      cases hid
      obtain ⟨_, country, t₄, rfl, rfl, h₄, hx₄⟩ := collected_behind h₃ rfl hx₃ hcollect
      obtain ⟨_, pseudonym, t₅, rfl, rfl, h₅, hx₅⟩ := collected_behind h₄ rfl hx₄ hcollect
      rcases Program.follows_call.1 h₅ with ⟨rfl, -⟩ | ⟨reply, t₆, rfl, h₆⟩
      · cases hx₅
      · obtain ⟨rfl, -⟩ := Program.follows_pure.1 h₆
        exact ⟨occurredAt, eventId, country, pseudonym, reply, rfl⟩

/-- Behind the collection its failure is logged, and nothing else happens. -/
theorem scheduled_shape {collects : Bool} {rest : PublicProgram Unit}
    (h : (scheduleAccessCollection collects request resolved).Follows trace rest)
    {x : PublicExchange} (hx : x ∈ trace) (hcollect : x.1.isCollect = true) :
    ∃ occurredAt eventId country visitorPseudonym reply t,
      trace = collection request resolved occurredAt eventId country visitorPseudonym reply ++ t ∧
        ∀ y ∈ t, ∃ message, y.1 = .warn message := by
  cases collects with
  | false =>
      obtain ⟨rfl, -⟩ := Program.follows_pure.1 h
      cases hx
  | true =>
      rcases Program.Follows.of_bind h with ⟨p', hp', -⟩ | ⟨t₁, t₂, result, rfl, hp', hrest⟩
      · obtain ⟨occurredAt, eventId, country, pseudonym, reply, rfl⟩ :=
          collected_shape hp' hx hcollect
        exact ⟨occurredAt, eventId, country, pseudonym, reply, [], by simp, by simp⟩
      · have hwarn : ∀ y ∈ t₂, ∃ message, y.1 = .warn message := by
          refine hrest.sat (fun c => ∃ message, c = .warn message) ?_
          cases result with
          | ok u => trivial
          | error error => exact ⟨⟨_, rfl⟩, fun _ _ => trivial⟩
        have hmem : x ∈ t₁ := by
          refine (List.mem_append.1 hx).resolve_right fun hmem => ?_
          obtain ⟨message, hmessage⟩ := hwarn x hmem
          rw [hmessage] at hcollect
          cases hcollect
        obtain ⟨occurredAt, eventId, country, pseudonym, reply, rfl⟩ :=
          collected_shape hp' hmem hcollect
        exact ⟨occurredAt, eventId, country, pseudonym, reply, t₂, rfl, hwarn⟩

theorem resolvedLink_eq_ok_iff {result : LinksResult} :
    resolvedLink result = .ok resolved ↔ result = .ok (.resolved resolved) := by
  rcases result with e | ⟨link, created⟩ | link | resolved'
  · simp [resolvedLink]
  · simp [resolvedLink]
  · simp [resolvedLink]
  · simp [resolvedLink]

theorem respondError_collects_none {error : Thrown} {rest : PublicProgram (Except Thrown Unit)}
    (h : (respondError error).run.Follows trace rest) :
    ∀ x ∈ trace, x.1.isCollect = false := by
  refine h.sat (fun c => c.isCollect = false) ?_
  rw [respondError]
  split
  · exact ⟨rfl, fun _ _ => trivial⟩
  · exact ⟨rfl, fun _ _ => trivial⟩

/-- Behind a resolution an access is collected when the redirect has been issued. -/
theorem settled_shape {collects : Bool} {result : Except Thrown ResolvedLink}
    {rest : PublicProgram (Except Thrown Unit)}
    (h : (settled collects request result).Follows trace rest)
    {x : PublicExchange} (hx : x ∈ trace) (hcollect : x.1.isCollect = true) :
    ∃ resolved, result = .ok resolved ∧
      ∃ occurredAt eventId country visitorPseudonym reply t,
        trace = ⟨.redirect 302 resolved.destinationUrl, Except.ok ()⟩ ::
          (collection request resolved occurredAt eventId country visitorPseudonym reply ++ t) ∧
        ∀ y ∈ t, ∃ message, y.1 = .warn message := by
  have herror : ∀ {e : Thrown} {t : List PublicExchange}, (respondError e).run.Follows t rest →
      x ∉ t := by
    intro e t ht hmem
    rw [respondError_collects_none ht x hmem] at hcollect
    cases hcollect
  cases result with
  | error e => exact absurd hx (herror h)
  | ok resolved =>
      rcases Program.follows_call.1 h with ⟨rfl, -⟩ | ⟨redirected, t, rfl, hrest⟩
      · cases hx
      · have hmem : x ∈ t := by
          rcases List.mem_cons.1 hx with rfl | hmem
          · cases hcollect
          · exact hmem
        cases redirected with
        | error e => exact absurd hmem (herror hrest)
        | ok u =>
            cases u
            have hscheduled : ∃ p', (scheduleAccessCollection collects request
                resolved).Follows t p' := by
              rcases Program.Follows.of_bind hrest with
                ⟨p', hp', -⟩ | ⟨t₁, t₂, a, rfl, hp', hpure⟩
              · exact ⟨p', hp'⟩
              · obtain ⟨rfl, -⟩ := Program.follows_pure.1 hpure
                rw [List.append_nil]
                exact ⟨_, hp'⟩
            obtain ⟨p', hp'⟩ := hscheduled
            obtain ⟨occurredAt, eventId, country, pseudonym, reply, t', rfl, hwarn⟩ :=
              scheduled_shape hp' hmem hcollect
            exact ⟨resolved, rfl, occurredAt, eventId, country, pseudonym, reply, t', rfl, hwarn⟩

/-- The service resolves the code to a link that it was given by the cache or the table. -/
theorem resolved_behind {code : String}
    (h : ((LinksService.resolve code).embed PublicStep.links fun _ r => r :
      PublicProgram LinksResult).Follows trace (.pure (.ok (.resolved resolved)))) :
    ⟨.links (.get code), Except.ok (some resolved)⟩ ∈ trace ∨
      ∃ link : LinkRecord, resolved = ⟨link.id, link.destinationUrl⟩ ∧
        ⟨.links (.repository (.findActiveByShortCode code)), Except.ok (some link)⟩ ∈
          trace := by
  rcases Program.follows_call.1 h with ⟨-, hcall⟩ | ⟨cached, t, rfl, hget⟩
  · cases hcall
  · have hmissed : ((LinksService.missed code).embed PublicStep.links fun _ r => r :
        PublicProgram LinksResult).Follows t (.pure (.ok (.resolved resolved))) →
        ∃ link : LinkRecord, resolved = ⟨link.id, link.destinationUrl⟩ ∧
          (⟨.links (.repository (.findActiveByShortCode code)), Except.ok (some link)⟩ :
            PublicExchange) ∈ t := by
      intro hmissed
      rcases Program.follows_call.1 hmissed with ⟨-, hcall⟩ | ⟨found, t₁, rfl, hfound⟩
      · cases hcall
      · rcases found with e | _ | link
        · cases (Program.follows_pure.1 hfound).2
        · cases (Program.follows_pure.1 hfound).2
        · rcases Program.follows_call.1 hfound with ⟨-, hcall⟩ | ⟨set, t₂, rfl, hset⟩
          · cases hcall
          · cases (Program.follows_pure.1 hset).2
            exact ⟨link, rfl, List.mem_cons_self⟩
    rcases cached with e | _ | resolved'
    · obtain ⟨link, hlink, hmem⟩ := hmissed hget
      exact .inr ⟨link, hlink, List.mem_cons_of_mem _ hmem⟩
    · obtain ⟨link, hlink, hmem⟩ := hmissed hget
      exact .inr ⟨link, hlink, List.mem_cons_of_mem _ hmem⟩
    · cases (Program.follows_pure.1 hget).2
      exact .inl List.mem_cons_self

/-- The trace of a request that has collected an access. -/
structure Collected (request : PublicRequest) (trace : List PublicExchange) where
  resolved : ResolvedLink
  occurredAt : ℤ
  eventId : String
  country : String
  visitorPseudonym : String
  reply : Except Foreign Unit
  resolution : List PublicExchange
  warnings : List PublicExchange
  method : request.method = "GET"
  root : ROOT_SEGMENT_PATTERN.test request.path = true
  code : SHORT_CODE_PATTERN.test (request.path.drop 1) = true
  trace_eq : trace = resolution ++
    ⟨.redirect 302 resolved.destinationUrl, Except.ok ()⟩ ::
      (collection request resolved occurredAt eventId country visitorPseudonym reply ++
        warnings)
  links : ∀ x ∈ resolution, x.1.isLinks = true
  warn : ∀ x ∈ warnings, ∃ message, x.1 = .warn message
  resolves : ((LinksService.resolve (String.ofList (request.path.drop 1))).embed
    PublicStep.links fun _ r => r : PublicProgram LinksResult).Follows resolution
      (.pure (.ok (.resolved resolved)))

/-- An access is collected behind a redirect. -/
theorem handled_shape {collects : Bool} {rest : PublicProgram (Except Thrown Unit)}
    (h : (handlePublicLinkResolve collects request).run.Follows trace rest)
    {x : PublicExchange} (hx : x ∈ trace) (hcollect : x.1.isCollect = true) :
    Nonempty (Collected request trace) := by
  have hanalytic : x.1.isAnalytics = true := by
    obtain ⟨c, r⟩ := x
    cases c with
    | collect input => rfl
    | _ => cases hcollect
  have hdone : Answered trace rest := .inr ⟨x, hx, hanalytic⟩
  have hnone : ∀ {c : PublicStep} {r : c.Reply}, c.isCollect = false →
      trace ≠ [⟨c, r⟩] := by
    rintro c r hc rfl
    obtain rfl := List.mem_singleton.1 hx
    rw [hc] at hcollect
    cases hcollect
  rw [handlePublicLinkResolve_run] at h
  by_cases hroute : request.method ≠ "GET" ∨ ROOT_SEGMENT_PATTERN.test request.path = false
  · rw [if_pos hroute] at h
    obtain ⟨r, hr⟩ := follows_perform h hdone
    exact absurd hr (hnone rfl)
  · rw [if_neg hroute] at h
    by_cases hcode : SHORT_CODE_PATTERN.test (request.path.drop 1) = false
    · rw [if_pos hcode] at h
      obtain ⟨r, hr⟩ := follows_perform h hdone
      exact absurd hr (hnone rfl)
    · rw [if_neg hcode] at h
      rw [not_or, not_not, Bool.not_eq_false] at hroute
      rw [Bool.not_eq_false] at hcode
      obtain ⟨t₁, t₂, result, rfl, hlinks, hq, hrest⟩ := resolution_over h hdone
      have hmem : x ∈ t₂ := by
        refine (List.mem_append.1 hx).resolve_left fun hmem => ?_
        rw [isAnalytics_of_links (hlinks x hmem)] at hanalytic
        cases hanalytic
      obtain ⟨resolved, hresult, occurredAt, eventId, country, pseudonym, reply, t, rfl, hwarn⟩ :=
        settled_shape hrest hmem hcollect
      rw [resolvedLink_eq_ok_iff.1 hresult] at hq
      exact ⟨⟨resolved, occurredAt, eventId, country, pseudonym, reply, t₁, t,
        hroute.1, hroute.2, hcode, rfl, hlinks, hwarn, hq⟩⟩

end

/-! ### Every run -/

/-- The exchanges of a call, the first one first. -/
def exchangesOf (σ : PublicPool) (k : ℕ) : List PublicExchange := (traceOf σ.history k).reverse

/-- The cache or the table of active links leads from the code to the link. -/
def Served (s : LinksState) (code : String) (resolved : ResolvedLink) : Prop :=
  s.cache.get (resolutionKey code) = some resolved ∨
    ∃ link ∈ s.db.links, link.shortCode = code ∧ link.status = .active ∧
      resolved = ⟨link.id, link.destinationUrl⟩

section

variable {config : LinksConfig} {collects : Bool} {s : LinksState} {σ : PublicPool} {k : ℕ}

theorem mem_exchangesOf {c : PublicStep} {r : c.Reply} :
    (⟨c, r⟩ : PublicExchange) ∈ exchangesOf σ k ↔
      (⟨k, c, r⟩ : Entry PublicStep PublicStep.Reply) ∈ σ.history := by
  rw [exchangesOf, List.mem_reverse]
  exact mem_traceOf

/-- The exchanges of a request are those of the handler. -/
theorem handler_follows
    (h : (publicService config collects).Reaches (fun _ _ => True) (Pool.init s) σ)
    {request : PublicRequest} {rest : PublicProgram (Option LinksResult)}
    (hk : σ.threads[k]? = some ⟨.request request, rest⟩) :
    ∃ rest', (handlePublicLinkResolve collects request).run.Follows (exchangesOf σ k) rest' ∧
      (Answered (exchangesOf σ k) rest → Answered (exchangesOf σ k) rest') := by
  obtain ⟨p, hp, hpure⟩ := h.follows hk
  have hbody : ((handlePublicLinkResolve collects request).run.bind fun _ =>
      (.pure none : PublicProgram (Option LinksResult))).Follows (exchangesOf σ k) p := hp
  rcases hbody.of_bind with ⟨p', hp', rfl⟩ | ⟨t₁, t₂, a, ht, hp', hrest⟩
  · refine ⟨p', hp', Or.imp_left ?_⟩
    rintro ⟨a, rfl⟩
    have hfinished := hpure a rfl
    cases p' with
    | pure b => exact ⟨b, rfl⟩
    | call c next => cases hfinished
  · obtain ⟨rfl, -⟩ := Program.follows_pure.1 hrest
    rw [List.append_nil] at ht
    exact ⟨.pure a, ht ▸ hp', fun _ => .inl ⟨a, rfl⟩⟩

/-- The calls of the service collect nothing. -/
theorem links_collects_none
    (h : (publicService config collects).Reaches (fun _ _ => True) (Pool.init s) σ)
    {call : LinksCall} {rest : PublicProgram (Option LinksResult)}
    (hk : σ.threads[k]? = some ⟨.links call, rest⟩) :
    ∀ x ∈ exchangesOf σ k, x.1.isCollect = false := by
  obtain ⟨p, hp, -⟩ := h.follows hk
  refine hp.sat (fun c => c.isCollect = false) ((Program.sat_bind _ _ _ _ _).2 ?_)
  refine Program.Sat.mono (fun _ _ h => h) (fun c hc => ?_) (fun _ _ => trivial)
    (embed_isLinks (LinksService.body config call))
  cases c with
  | links c => rfl
  | _ => cases hc

/-- A request that has collected an access has the trace of one. -/
theorem collected_of_mem
    (h : (publicService config collects).Reaches (fun _ _ => True) (Pool.init s) σ)
    {x : PublicExchange} (hx : x ∈ exchangesOf σ k) (hcollect : x.1.isCollect = true) :
    ∃ request, σ.call? k = some (.request request) ∧
      Nonempty (Collected request (exchangesOf σ k)) := by
  have hlt : k < σ.threads.length := h.thread_lt (mem_exchangesOf.1 hx)
  cases hthread : σ.threads[k] with
  | mk call rest =>
      have hk : σ.threads[k]? = some ⟨call, rest⟩ := by
        rw [List.getElem?_eq_getElem hlt, hthread]
      cases call with
      | links call =>
          rw [links_collects_none h hk x hx] at hcollect
          cases hcollect
      | request request =>
          obtain ⟨rest', hfollows, -⟩ := handler_follows h hk
          have hcall : σ.call? k = some (.request request) := by
            rw [Pool.call?, hk]
            rfl
          exact ⟨request, hcall, handled_shape hfollows hx hcollect⟩

/-- The state in which an exchange with the service took place. -/
theorem exec_of_mem
    (h : (publicService config collects).Reaches (fun _ _ => True) (Pool.init s) σ)
    {c : LinksStep} {r : c.Reply} (hx : (⟨.links c, r⟩ : PublicExchange) ∈ exchangesOf σ k) :
    ∃ σ₁ o s', (publicService config collects).Reaches (fun _ _ => True) (Pool.init s) σ₁ ∧
      (publicService config collects).Reaches (fun _ _ => True) σ₁ σ ∧
      LinksService.exec config c o σ₁.shared = some (r, s') := by
  obtain ⟨l₂, l₁, hl⟩ := List.append_of_mem (mem_exchangesOf.1 hx)
  obtain ⟨σ₁, σ₂, h₁, hfires, -, h₂⟩ := h.split hl List.nil_suffix
  obtain ⟨o, -, hexec⟩ := hfires.exec
  exact ⟨σ₁, o.links, σ₂.shared, h₁, (Relation.ReflTransGen.single hfires.steps).trans h₂, hexec⟩

/-- What the service has resolved was cached or active. -/
theorem served_of_resolves {code : String} {resolved : ResolvedLink} {t : List PublicExchange}
    (h : (publicService config collects).Reaches (fun _ _ => True) (Pool.init s) σ)
    (ht : ∀ x ∈ t, x ∈ exchangesOf σ k)
    (hresolves : ((LinksService.resolve code).embed PublicStep.links fun _ r => r :
      PublicProgram LinksResult).Follows t (.pure (.ok (.resolved resolved)))) :
    ∃ σ₁, (publicService config collects).Reaches (fun _ _ => True) (Pool.init s) σ₁ ∧
      (publicService config collects).Reaches (fun _ _ => True) σ₁ σ ∧
      Served σ₁.shared code resolved := by
  rcases resolved_behind hresolves with hcached | ⟨link, rfl, hfound⟩
  · obtain ⟨σ₁, o, s', h₁, h₂, hexec⟩ := exec_of_mem h (ht _ hcached)
    exact ⟨σ₁, h₁, h₂, .inl (get_reply hexec)⟩
  · obtain ⟨σ₁, o, s', h₁, h₂, hexec⟩ := exec_of_mem h (ht _ hfound)
    refine ⟨σ₁, h₁, h₂, .inr ?_⟩
    rcases repository_reply hexec with ⟨a, hrun, heq⟩ | ⟨e, heq⟩
    · obtain ⟨hfind, -⟩ := Prod.mk.inj (Except.ok.inj hrun)
      have hlink : σ₁.shared.db.findActiveByShortCode code = some link :=
        hfind.trans (Except.ok.inj heq).symm
      have hboth := List.find?_some hlink
      simp only [Bool.and_eq_true, beq_iff_eq] at hboth
      exact ⟨link, List.mem_of_find?_eq_some hlink, hboth.1, hboth.2, rfl⟩
    · cases heq

end

/-- An access is collected for a redirect: the request is one for a code, the redirect has
been issued and is all that is seen, the detector does not know the user agent, and the
access is one to the link that the cache or the table had under the code. -/
structure CollectedForRedirect (config : LinksConfig) (collects : Bool) (s : LinksState)
    (σ : PublicPool) (k : ℕ) (input : CollectedAccess) (reply : Except Foreign Unit)
    (request : PublicRequest) (resolved : ResolvedLink) (instant : ℤ) : Prop where
  call : σ.call? k = some (.request request)
  method : request.method = "GET"
  root : ROOT_SEGMENT_PATTERN.test request.path = true
  code : SHORT_CODE_PATTERN.test (request.path.drop 1) = true
  behind : ∃ t₁ t₂, exchangesOf σ k = t₁ ++ ⟨.collect input, reply⟩ :: t₂ ∧
    ⟨.redirect 302 resolved.destinationUrl, Except.ok ()⟩ ∈ t₁ ∧
    ⟨.isAutomated (request.userAgent.getD ""), Except.ok false⟩ ∈ t₁ ∧
    ⟨.now, instant⟩ ∈ t₁
  seen : seen (exchangesOf σ k) = [⟨.redirect 302 resolved.destinationUrl, Except.ok ()⟩]
  link : input.linkId = resolved.linkId
  occurredAt : input.occurredAt = String.ofList (EcmaDate.toISOString instant)
  slice : input.occurredOn = String.ofList (input.occurredAt.toList.take 10)
  utcDate : (EcmaDate.civil instant).FourDigits →
    input.occurredOn = String.ofList (EcmaDate.civil instant).text
  served : ∃ σ₁,
    (publicService config collects).Reaches (fun _ _ => True) (Pool.init s) σ₁ ∧
    (publicService config collects).Reaches (fun _ _ => True) σ₁ σ ∧
    Served σ₁.shared (String.ofList (request.path.drop 1)) resolved

namespace Collected

variable {request : PublicRequest} {trace : List PublicExchange} (h : Collected request trace)
include h

theorem isLinks_of_warnings {x : PublicExchange} (hx : x ∈ h.warnings) :
    x.1.isCollect = false ∧ x.1.isAnalytics = true := by
  obtain ⟨message, hmessage⟩ := h.warn x hx
  rw [hmessage]
  exact ⟨rfl, rfl⟩

theorem not_collect_of_resolution {x : PublicExchange} (hx : x ∈ h.resolution) :
    x.1.isCollect = false := by
  have hlinks := h.links x hx
  obtain ⟨c, r⟩ := x
  cases c with
  | links c => rfl
  | _ => cases hlinks

theorem countP_collect : trace.countP (fun x => x.1.isCollect) = 1 := by
  have hresolution : h.resolution.countP (fun x => x.1.isCollect) = 0 := by
    refine List.countP_eq_zero.2 fun x hx => ?_
    rw [h.not_collect_of_resolution hx]
    exact Bool.false_ne_true
  have hwarnings : h.warnings.countP (fun x => x.1.isCollect) = 0 := by
    refine List.countP_eq_zero.2 fun x hx => ?_
    rw [(h.isLinks_of_warnings hx).1]
    exact Bool.false_ne_true
  rw [h.trace_eq, List.countP_append, List.countP_cons_of_neg (by simp [PublicStep.isCollect]),
    List.countP_append, hresolution, hwarnings]
  rfl

theorem seen_eq :
    seen trace = [⟨.redirect 302 h.resolved.destinationUrl, Except.ok ()⟩] := by
  have hwarnings := seen_of_analytics fun x hx => (h.isLinks_of_warnings hx).2
  have hresolution := seen_of_links h.links
  rw [seen] at hwarnings hresolution
  refine (congrArg seen h.trace_eq).trans ?_
  rw [seen, List.filter_append, List.filter_cons_of_pos rfl, List.filter_append, hresolution,
    hwarnings]
  rfl

theorem input_eq {input : CollectedAccess} {reply : Except Foreign Unit}
    (hx : ⟨.collect input, reply⟩ ∈ trace) :
    input = collectedAccess h.resolved h.occurredAt h.eventId h.country h.visitorPseudonym ∧
      reply = h.reply := by
  rw [h.trace_eq] at hx
  rcases List.mem_append.1 hx with hx | hx
  · cases h.not_collect_of_resolution hx
  · rcases List.mem_cons.1 hx with heq | hx
    · cases heq
    · rcases List.mem_append.1 hx with hx | hx
      · simp only [collection, List.mem_cons, List.not_mem_nil, or_false] at hx
        rcases hx with heq | heq | heq | heq | heq | heq
        · cases heq
        · cases heq
        · cases heq
        · cases heq
        · cases heq
        · cases heq
          exact ⟨rfl, rfl⟩
      · cases (h.isLinks_of_warnings hx).1

end Collected

theorem collectedForRedirect {config : LinksConfig} {collects : Bool} {s : LinksState}
    {σ : PublicPool} {k : ℕ}
    (h : (publicService config collects).Reaches (fun _ _ => True) (Pool.init s) σ)
    {input : CollectedAccess} {reply : Except Foreign Unit}
    (hx : ⟨.collect input, reply⟩ ∈ exchangesOf σ k) :
    ∃ request resolved instant,
      CollectedForRedirect config collects s σ k input reply request resolved instant := by
  obtain ⟨request, hcall, ⟨htrace⟩⟩ := collected_of_mem h hx rfl
  obtain ⟨rfl, rfl⟩ := htrace.input_eq hx
  refine ⟨request, htrace.resolved, htrace.occurredAt, hcall, htrace.method, htrace.root,
    htrace.code, ?_, htrace.seen_eq, rfl, rfl, ?_, fun hfour => ?_, ?_⟩
  · refine ⟨htrace.resolution ++ ⟨.redirect 302 htrace.resolved.destinationUrl, Except.ok ()⟩ ::
      (collection request htrace.resolved htrace.occurredAt htrace.eventId htrace.country
        htrace.visitorPseudonym htrace.reply).take 5, htrace.warnings, ?_, ?_, ?_, ?_⟩
    · refine htrace.trace_eq.trans ?_
      simp [collection]
    · simp
    · simp [collection]
    · simp [collection]
  · rw [collectedAccess, String.toList_ofList]
  · rw [collectedAccess, EcmaDate.toISOString_take hfour]
  · have hmem : ∀ x ∈ htrace.resolution, x ∈ exchangesOf σ k := by
      intro x hx
      rw [htrace.trace_eq]
      exact List.mem_append_left _ hx
    exact served_of_resolves h hmem htrace.resolves

/-- The response to a request is determined by the request, the tables, the cache and the
way the response behaves, whatever the collaborators do. The collector is invoked at most
once for a request, and for a redirect. -/
theorem analytics_cannot_influence_redirect (config : LinksConfig) :
    (∀ (request : PublicRequest) (f : (c : PublicStep) → c.Reply) (collects collects' : Bool)
      (s s' : LinksState) (σ σ' : PublicPool) (k k' : ℕ)
      (rest rest' : PublicProgram (Option LinksResult)),
      (publicService config collects).Reaches (fun _ _ => True) (Pool.init s) σ →
      (publicService config collects').Reaches (fun _ _ => True) (Pool.init s') σ' →
      σ.threads[k]? = some ⟨.request request, rest⟩ →
      σ'.threads[k']? = some ⟨.request request, rest'⟩ →
      Answered (exchangesOf σ k) rest → Answered (exchangesOf σ' k') rest' →
      AnsweredBy f (exchangesOf σ k) → AnsweredBy f (exchangesOf σ' k') →
        seen (exchangesOf σ k) = seen (exchangesOf σ' k')) ∧
    ∀ (collects : Bool) (s : LinksState) (σ : PublicPool),
      (publicService config collects).Reaches (fun _ _ => True) (Pool.init s) σ → ∀ k,
      (exchangesOf σ k).countP (fun x => x.1.isCollect) ≤ 1 ∧
      ∀ input reply, ⟨.collect input, reply⟩ ∈ exchangesOf σ k →
        ∃ request resolved instant,
          CollectedForRedirect config collects s σ k input reply request resolved instant := by
  refine ⟨?_, ?_⟩
  · intro request f collects collects' s s' σ σ' k k' rest rest' h h' hk hk' hdone hdone' hf hf'
    obtain ⟨p, hp, hanswered⟩ := handler_follows h hk
    obtain ⟨p', hp', hanswered'⟩ := handler_follows h' hk'
    rw [seen_eq_responseOf hp (hanswered hdone) hf,
      seen_eq_responseOf hp' (hanswered' hdone') hf']
  · intro collects s σ h k
    refine ⟨?_, fun input reply hx => collectedForRedirect h hx⟩
    by_cases hnone : ∃ x ∈ exchangesOf σ k, x.1.isCollect = true
    · obtain ⟨x, hx, hcollect⟩ := hnone
      obtain ⟨request, -, ⟨htrace⟩⟩ := collected_of_mem h hx hcollect
      exact Nat.le_of_eq htrace.countP_collect
    · have hzero : (exchangesOf σ k).countP (fun x => x.1.isCollect) = 0 :=
        List.countP_eq_zero.2 fun x hx hcollect => hnone ⟨x, hx, hcollect⟩
      rw [hzero]
      exact Nat.zero_le 1

/-- A request for the code, from a browser. -/
def exampleRequest : PublicRequest where
  method := "GET"
  originalUrl := some "/AAAAAA?from=mail"
  url := "/AAAAAA?from=mail"
  userAgent := some "Mozilla/5.0"
  ip := some "203.0.113.7"

def exampleResolved : ResolvedLink := ⟨"l", "https://a.example/"⟩

def cachedLink : LinksState :=
  ⟨⟨[], []⟩, (Store.empty 0).set (resolutionKey "AAAAAA") exampleResolved 60000⟩

/-- A cache that has the link, and a response that accepts what it is given. -/
def cachedBehaviour : (c : PublicStep) → c.Reply
  | .links .generate => ""
  | .links (.repository _) => .error (.error "unavailable")
  | .links (.get _) => .ok (some exampleResolved)
  | .links (.set _ _) => .ok ()
  | .links (.invalidate _) => .ok ()
  | .redirect _ _ => .ok ()
  | .json _ _ => ()
  | .next _ => ()
  | .isAutomated _ => .ok false
  | .now => 0
  | .randomUUID => ""
  | .resolveCountry _ => .ok ""
  | .createPseudonym _ _ _ _ => .ok ""
  | .collect _ => .ok ()
  | .warn _ => ()

/-- The next step of the request, with the answers of the detector and the collector. -/
def publicStep (detector : Except Foreign Bool) (collector : Except Foreign Unit) :
    Event PublicCall PublicOutside LinksEnvironment :=
  .exec 0 ⟨⟨⟨1, "l"⟩, "AAAAAA", .none⟩, .ok (), detector, 1767225600000, "e", .ok "BR",
    .ok "v", collector⟩

/-- An access is collected, and the queue refuses it. -/
def refusedCollection : PublicPool :=
  (publicService exampleConfig true).after
    (.spawn (.request exampleRequest) ::
      List.replicate 9 (publicStep (.ok false) (.error ⟨some "QueueError", false⟩)))
    (Pool.init cachedLink)

def failedDetector : PublicPool :=
  (publicService exampleConfig true).after
    (.spawn (.request exampleRequest) ::
      List.replicate 4 (publicStep (.error ⟨none, true⟩) (.ok ())))
    (Pool.init cachedLink)

instance (c : LinksCommand) : DecidableEq c.Res :=
  match c with
  | .createOrRestore _ _ _ => inferInstanceAs (DecidableEq CreateOrRestoreLinkResult)
  | .changeStatus _ _ _ => inferInstanceAs (DecidableEq ChangeLinkStatusResult)
  | .findActiveByShortCode _ => inferInstanceAs (DecidableEq (Option LinkRecord))
  | .findById _ => inferInstanceAs (DecidableEq (Option LinkRecord))

instance (c : LinksStep) : DecidableEq c.Reply :=
  match c with
  | .generate => inferInstanceAs (DecidableEq String)
  | .repository c => inferInstanceAs (DecidableEq (Except StorageError c.Res))
  | .get _ => inferInstanceAs (DecidableEq (Except StorageError (Option ResolvedLink)))
  | .set _ _ => inferInstanceAs (DecidableEq (Except StorageError Unit))
  | .invalidate _ => inferInstanceAs (DecidableEq (Except StorageError Unit))

instance (c : PublicStep) : DecidableEq c.Reply :=
  match c with
  | .links c => inferInstanceAs (DecidableEq c.Reply)
  | .redirect _ _ => inferInstanceAs (DecidableEq (Except Foreign Unit))
  | .json _ _ => inferInstanceAs (DecidableEq Unit)
  | .next _ => inferInstanceAs (DecidableEq Unit)
  | .isAutomated _ => inferInstanceAs (DecidableEq (Except Foreign Bool))
  | .now => inferInstanceAs (DecidableEq ℤ)
  | .randomUUID => inferInstanceAs (DecidableEq String)
  | .resolveCountry _ => inferInstanceAs (DecidableEq (Except Foreign String))
  | .createPseudonym _ _ _ _ => inferInstanceAs (DecidableEq (Except Foreign String))
  | .collect _ => inferInstanceAs (DecidableEq (Except Foreign Unit))
  | .warn _ => inferInstanceAs (DecidableEq Unit)

instance (f : (c : PublicStep) → c.Reply) (trace : List PublicExchange) :
    Decidable (AnsweredBy f trace) :=
  inferInstanceAs (Decidable (∀ x ∈ trace, x.1.isAnalytics = false → x.2 = f x.1))

example : exchangesOf failedDetector 0 =
      [⟨.links (.get "AAAAAA"), Except.ok (some exampleResolved)⟩,
        ⟨.redirect 302 "https://a.example/", Except.ok ()⟩,
        ⟨.isAutomated "Mozilla/5.0", Except.error ⟨none, true⟩⟩,
        ⟨.warn "Link access collection failed (unknown)", ()⟩] := by decide +kernel

/-- The queue and the detector fail in different ways, and the redirect is the same. -/
theorem refusedCollection_redirects :
    seen (exchangesOf refusedCollection 0) = seen (exchangesOf failedDetector 0) ∧
      ∃ input, ⟨.collect input, Except.error ⟨some "QueueError", false⟩⟩ ∈
          exchangesOf refusedCollection 0 ∧
        ∃ request resolved instant, CollectedForRedirect exampleConfig true cachedLink
          refusedCollection 0 input (Except.error ⟨some "QueueError", false⟩) request resolved
            instant := by
  have hrun : (publicService exampleConfig true).Reaches (fun _ _ => True)
      (Pool.init cachedLink) refusedCollection := Semantics.reaches_after _ (by decide)
  have hrun' : (publicService exampleConfig true).Reaches (fun _ _ => True)
      (Pool.init cachedLink) failedDetector := Semantics.reaches_after _ (by decide)
  have hcollect : ⟨.collect (collectedAccess exampleResolved 1767225600000 "e" "BR" "v"),
      Except.error ⟨some "QueueError", false⟩⟩ ∈ exchangesOf refusedCollection 0 := by
    decide +kernel
  have hfinished : ∀ {σ : PublicPool}, σ.result? 0 = some none →
      σ.call? 0 = some (.request exampleRequest) →
      σ.threads[0]? = some ⟨.request exampleRequest, .pure none⟩ := by
    intro σ hresult hcall
    obtain ⟨call, hthread⟩ := (Pool.result?_eq_some_iff σ 0 none).1 hresult
    rw [Pool.call?, hthread] at hcall
    cases hcall
    exact hthread
  obtain ⟨hsame, hruns⟩ := analytics_cannot_influence_redirect exampleConfig
  refine ⟨?_, _, hcollect, (hruns true cachedLink refusedCollection hrun 0).2 _ _ hcollect⟩
  exact hsame exampleRequest cachedBehaviour true true cachedLink cachedLink
    refusedCollection failedDetector 0 0 _ _ hrun hrun'
    (hfinished (by decide +kernel) (by decide +kernel))
    (hfinished (by decide +kernel) (by decide +kernel)) (.inl ⟨_, rfl⟩) (.inl ⟨_, rfl⟩)
    (by decide +kernel) (by decide +kernel)

end Links

end Shortlink

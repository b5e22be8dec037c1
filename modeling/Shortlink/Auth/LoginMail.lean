import Shortlink.Auth.CallSteps

/-!
# Who sends a mail

Of the auth services only the worker sends mails: what `processLogin` sends is the code that the
same attempt has drawn and stored, and it goes to the account that the attempt has found under
the id of the challenge (`processLogin_mails`). No other call sends a mail
(`program_mailless`).
-/

namespace Shortlink

namespace Auth

open Shortlink.Interaction AuthProgram

/-- A mail of the worker goes to an account that was found, and what it contains is stored
for this account and the challenge of the job and was drawn before. -/
def MailMay (config : AuthConfig) (call : AuthCall) (trace : AuthTrace) : AuthStep → Prop
  | .sendMail mail => ∃ data userId challengeId code expiresAt account,
      call = .processLogin data ∧ data.challengeId = some challengeId ∧
        mail = EmailProcessor.loginMail account.email code ∧
        Found trace (.findAccountById userId) (some account) ∧
        Drew trace .verificationCode code ∧
        Replied trace (.createLoginChallenge userId challengeId
          ⟨userId, config.hmac code, expiresAt, false⟩) ()
  | _ => True

def AuthStep.Mailless : AuthStep → Prop
  | .sendMail _ => False
  | _ => True

theorem AuthStep.Plain.mailless {c : AuthStep} (h : c.Plain) : c.Mailless := by
  cases c with
  | sendMail mail => exact h.elim
  | _ => trivial

theorem AuthStep.Mailless.may {config : AuthConfig} {call : AuthCall} {trace : AuthTrace}
    {c : AuthStep} (h : c.Mailless) : MailMay config call trace c := by
  cases c with
  | sendMail mail => exact h.elim
  | _ => trivial

theorem program_mailless {config : AuthConfig} {call : AuthCall}
    (hcall : ∀ data, call ≠ .processLogin data) :
    (call.program config).Issues AuthStep.Mailless := by
  refine (program_uses config call).mono fun c hc => ?_
  cases c with
  | sendMail mail =>
      obtain ⟨data, hdata⟩ := hc
      exact hcall data hdata
  | _ => trivial

section

variable {α : Type} {config : AuthConfig} {call : AuthCall} {trace : AuthTrace}

theorem AuthProgram.Issues.mailless {p : AuthProgram α} (hp : p.Issues AuthStep.Plain) :
    p.Issues AuthStep.Mailless :=
  hp.mono fun _ hc => hc.mailless

theorem AuthProgram.Issues.mails {p : AuthProgram α} (hp : p.Issues AuthStep.Mailless)
    {ends : AuthTrace → Except AuthError α → Prop} (hends : ∀ l r, ends (l ++ trace) r) :
    p.Obeys (MailMay config call) ends trace :=
  Program.obeys_of_sat hp (fun _ _ hc => hc.may) fun l r _ => hends l r

/-- The code is mailed to the account that was found. -/
theorem issueLoginCode_mails {data : SendVerificationCodeJobData}
    {challengeId issuanceId userId : String} {account : AccountRecord}
    (hchallenge : data.challengeId = some challengeId)
    (hfound : Found trace (.findAccountById userId) (some account)) :
    (EmailProcessor.issueLoginCode config challengeId issuanceId userId account).Obeys
      (MailMay config (.processLogin data)) (fun _ _ => True) trace := by
  simp only [EmailProcessor.issueLoginCode, obeys_bind, obeys_generate, obeys_now,
    obeys_createLoginChallenge, either_ok, either_error]
  refine ⟨trivial, fun code => ⟨trivial, fun now => ⟨trivial, fun e => trivial, fun _ => ?_⟩⟩⟩
  refine (isCurrentIssuance_plain _ _ _).mailless.mails fun l r => ?_
  cases r with
  | error e => trivial
  | ok stillCurrent =>
      refine (obeys_ite _ _ _).2 ⟨fun _ => ⟨?_, fun _ => trivial⟩, fun _ => trivial⟩
      refine ⟨data, userId, challengeId, code, now + EmailProcessor.ONE_HOUR_MS, account, rfl,
        hchallenge, rfl, ?_, ?_, ?_⟩
      · exact List.mem_append_right l (List.mem_append_right [_, _, _] hfound)
      · exact List.mem_append_right l (List.mem_append_right [_, _] List.mem_cons_self)
      · exact List.mem_append_right l List.mem_cons_self

theorem processLogin_mails (config : AuthConfig) (data : SendVerificationCodeJobData) :
    (EmailProcessor.processLogin config data).Obeys (MailMay config (.processLogin data))
      (fun _ _ => True) [] := by
  rw [EmailProcessor.processLogin]
  cases hchallenge : data.challengeId with
  | none => trivial
  | some challengeId =>
      refine (obeys_ite _ _ _).2 ⟨fun _ => trivial, fun _ => ?_⟩
      refine (obeys_bind _ _).2 ((isCurrentIssuance_plain _ _ _).mailless.mails fun l r => ?_)
      cases r with
      | error e => trivial
      | ok current =>
          refine (obeys_ite _ _ _).2 ⟨fun _ => trivial, fun _ => ?_⟩
          refine (obeys_bind _ _).2
            ((findLoginChallengeUserId_plain _).mailless.mails fun l' r => ?_)
          rcases r with e | _ | userId
          · trivial
          · trivial
          · rw [either_ok]
            simp only [obeys_bind, obeys_authRepository, either_ok, either_error]
            refine ⟨trivial, fun e => trivial, fun (account : Option AccountRecord) => ?_⟩
            rcases account with _ | account
            · trivial
            · exact issueLoginCode_mails hchallenge List.mem_cons_self

theorem program_mails (config : AuthConfig) (call : AuthCall) :
    (call.program config).Obeys (MailMay config call) (fun _ _ => True) [] := by
  cases call with
  | processLogin data =>
      refine (obeys_map _ _).2 ((processLogin_mails config data).mono fun trace r _ => ?_)
      cases r <;> trivial
  | createSessionAfterLogin userId role =>
      exact (program_mailless (fun _ h => by cases h)).mails fun _ _ => trivial
  | sessionRefresh refreshToken =>
      exact (program_mailless (fun _ h => by cases h)).mails fun _ _ => trivial
  | logout refreshToken =>
      exact (program_mailless (fun _ h => by cases h)).mails fun _ _ => trivial
  | revokeAll userId reason =>
      exact (program_mailless (fun _ h => by cases h)).mails fun _ _ => trivial
  | validateSession sessionId =>
      exact (program_mailless (fun _ h => by cases h)).mails fun _ _ => trivial
  | refresh refreshToken =>
      exact (program_mailless (fun _ h => by cases h)).mails fun _ _ => trivial
  | startLogin input clientIp =>
      exact (program_mailless (fun _ h => by cases h)).mails fun _ _ => trivial
  | completeLogin input =>
      exact (program_mailless (fun _ h => by cases h)).mails fun _ _ => trivial

end

end Auth

end Shortlink

import Shortlink.Account.Reset
import Shortlink.Expiring.History

/-!
# Activation codes

An activation code is consumed at most once, within the hour after it has been stored, and
a wrong guess changes nothing about that (`activation_code_one_time`). The invariant is
`CodeState`: the entry is live and has counted the guesses so far, or it is gone.
-/

namespace Shortlink

namespace Account

open Shortlink.Expiring Shortlink.Auth

/-- The methods on activation codes. -/
inductive ActivationCall where
  | setActivationCode (userId code : String) (resendAvailableAt : ℕ)
  | consumeActivationCode (userId code : String)

/-- The command that a method executes. -/
def ActivationCall.command (config : AccountConfig) : ActivationCall → ActivationCommand
  | .setActivationCode userId code resendAvailableAt =>
      .set (.activation userId) ({ codeHmac := config.auth.hmac code, attempts := 0
                                   resendAvailableAt } : ActivationPayload) TTL_ONE_HOUR_SECONDS
  | .consumeActivationCode userId code => .consumeActivation userId (config.auth.hmac code)

def ActivationCall.Answer (config : AccountConfig) (call : ActivationCall) : Type :=
  (call.command config).Res

def ActivationCall.apply (config : AccountConfig) (call : ActivationCall)
    (entries : Activations) : call.Answer config × Activations :=
  (call.command config).apply entries

/-- The methods of the service execute these commands. -/
theorem setActivationCode_eq (config : AccountConfig) (userId code : String)
    (resendAvailableAt : ℕ) :
    RedisAuthStateService.setActivationCode config userId code resendAvailableAt =
      AccountProgram.activations
        ((ActivationCall.setActivationCode userId code resendAvailableAt).command config) := rfl

theorem consumeActivationCode_eq (config : AccountConfig) (userId code : String) :
    RedisAuthStateService.consumeActivationCode config userId code =
      AccountProgram.activations
        ((ActivationCall.consumeActivationCode userId code).command config) := rfl

/-- A code that is presented for an account, and the answer. -/
structure Guess where
  time : ℕ
  code : String
  result : ConsumeActivationResult
  deriving DecidableEq

def guess? (config : AccountConfig) (userId : String) :
    Executed ActivationCall (ActivationCall.Answer config) → Option Guess
  | ⟨time, .consumeActivationCode owner code, result⟩ =>
      if owner = userId then some ⟨time, code, result⟩ else none
  | _ => none

def guesses (config : AccountConfig) (userId : String)
    (l : List (Executed ActivationCall (ActivationCall.Answer config))) : List Guess :=
  l.filterMap (guess? config userId)

section

variable {config : AccountConfig} {userId code : String} {expiresAt : ℕ}
  {l : List (Executed ActivationCall (ActivationCall.Answer config))} {s : Activations}

/-- While it lives the entry has the code and the number of guesses, all of them wrong;
afterwards there is none. -/
inductive CodeState (config : AccountConfig) (userId code : String) (expiresAt : ℕ)
    (l : List (Executed ActivationCall (ActivationCall.Answer config))) (s : Activations) :
    Prop where
  | live (resendAvailableAt : ℕ) (hlive : s.now < expiresAt)
      (hwrong : ∀ g ∈ guesses config userId l, g.result ≠ .consumed)
      (hcell : s.cell (.activation userId) = some ((⟨config.auth.hmac code,
        (guesses config userId l).length, resendAvailableAt⟩ : ActivationPayload), expiresAt))
  | gone (hover : expiresAt ≤ s.now ∨ ∃ g ∈ guesses config userId l, g.result = .consumed)
      (hget : pendingActivation s userId = none)

theorem CodeState.tick (h : CodeState config userId code expiresAt l s) (n : ℕ) :
    CodeState config userId code expiresAt l (s.tick n) := by
  cases h with
  | live resendAvailableAt hlive hwrong hcell =>
      by_cases hover : s.now + n < expiresAt
      · exact .live resendAvailableAt hover hwrong hcell
      · refine .gone (.inl (Nat.not_lt.1 hover)) ?_
        refine Option.eq_none_iff_forall_ne_some.2 fun payload hget => ?_
        obtain ⟨e, hcell', hlive'⟩ := visible_eq_some_iff.1 hget
        have he : e = expiresAt := (Prod.mk.inj (Option.some.inj (hcell'.symm.trans hcell))).2
        exact hover (he ▸ hlive')
  | gone hover hget =>
      refine .gone (hover.imp_left fun h => Nat.le_trans h (Nat.le_add_right _ n)) ?_
      exact Option.eq_none_iff_forall_ne_some.2 fun payload hlater =>
        nomatch hget.symm.trans (Store.get_tick_eq_some hlater)

/-- What the moment of a method adds to the guesses. -/
theorem guesses_append (e : Executed ActivationCall (ActivationCall.Answer config)) :
    guesses config userId (l ++ [e]) =
      guesses config userId l ++ (guess? config userId e).toList := by
  rw [guesses, List.filterMap_append]
  cases h : guess? config userId e <;> simp [guesses, h]

/-- A method on the code of another account. -/
theorem CodeState.congr {l' : List (Executed ActivationCall (ActivationCall.Answer config))}
    {s' : Activations} (h : CodeState config userId code expiresAt l s)
    (hguesses : guesses config userId l' = guesses config userId l) (hnow : s'.now = s.now)
    (hcell : s'.cell (.activation userId) = s.cell (.activation userId)) :
    CodeState config userId code expiresAt l' s' := by
  cases h with
  | live resendAvailableAt hlive hwrong hstored =>
      refine .live resendAvailableAt (hnow ▸ hlive) (hguesses ▸ hwrong) ?_
      rw [hcell, hstored, hguesses]
  | gone hover hget =>
      refine .gone ?_ ((Store.get_congr hnow hcell).trans hget)
      rwa [hnow, hguesses]

theorem cell_apply_of_ne {call : ActivationCall} {owner : String} (hne : userId ≠ owner)
    (hcall : (∃ code resendAvailableAt, call = .setActivationCode owner code resendAvailableAt) ∨
      ∃ code, call = .consumeActivationCode owner code) :
    (call.apply config s).2.cell (.activation userId) = s.cell (.activation userId) := by
  have hkey : ActivationKey.activation userId ≠ .activation owner := fun heq =>
    hne (ActivationKey.activation.inj heq)
  rcases hcall with ⟨code, resendAvailableAt, rfl⟩ | ⟨code, rfl⟩
  · exact Store.cell_set_of_ne s _ _ hkey
  · change (CONSUME_ACTIVATION_LUA owner (config.auth.hmac code) s).2.cell _ = _
    unfold CONSUME_ACTIVATION_LUA
    split
    · rfl
    split
    · exact Store.cell_del_of_ne s hkey
    · exact Store.cell_modify_of_ne (k := .activation owner) s
        (fun payload : ActivationPayload =>
          { payload with attempts := payload.attempts + 1 }) hkey

/-- A guess for the account. -/
theorem CodeState.guess (h : CodeState config userId code expiresAt l s)
    (hinj : Function.Injective config.auth.hmac) (code' : String)
    {r : ConsumeActivationResult × Activations}
    (hr : r = CONSUME_ACTIVATION_LUA userId (config.auth.hmac code') s) :
    r.1 = (if expiresAt ≤ s.now ∨ ∃ g ∈ guesses config userId l, g.result = .consumed
        then .missing
      else if code' = code then .consumed
      else .invalid ((guesses config userId l).length + 1)) ∧
    ∀ l', guesses config userId l' = guesses config userId l ++ [⟨s.now, code', r.1⟩] →
      CodeState config userId code expiresAt l' r.2 := by
  unfold CONSUME_ACTIVATION_LUA at hr
  cases h with
  | live resendAvailableAt hlive hwrong hcell =>
      have hpending : pendingActivation s userId = some ⟨config.auth.hmac code,
          (guesses config userId l).length, resendAvailableAt⟩ :=
        visible_eq_some_iff.2 ⟨expiresAt, hcell, hlive⟩
      have hnot : ¬ (expiresAt ≤ s.now ∨
          ∃ g ∈ guesses config userId l, g.result = .consumed) := by
        rintro (hover | ⟨g, hg, hconsumed⟩)
        · exact absurd hlive (Nat.not_lt.2 hover)
        · exact hwrong g hg hconsumed
      rw [hpending] at hr
      dsimp only at hr
      rw [if_neg hnot]
      by_cases hcode : code' = code
      · subst hcode
        rw [if_pos rfl] at hr ⊢
        subst hr
        refine ⟨rfl, fun l' hl' => .gone (.inr ⟨⟨s.now, code', .consumed⟩, ?_, rfl⟩)
          (Store.get_del_self s _)⟩
        rw [hl']
        exact List.mem_append_right _ List.mem_cons_self
      · rw [if_neg hcode]
        rw [if_neg fun heq => hcode (hinj heq).symm] at hr
        subst hr
        refine ⟨rfl, fun l' hl' => .live resendAvailableAt hlive ?_ ?_⟩
        · rw [hl']
          intro g hg
          rcases List.mem_append.1 hg with hg | hg
          · exact hwrong g hg
          · rw [List.mem_singleton.1 hg]
            nofun
        · refine (Store.cell_modify_self (k := .activation userId) s
            (fun payload : ActivationPayload =>
              { payload with attempts := payload.attempts + 1 })).trans ?_
          rw [hcell, hl', List.length_append]
          rfl
  | gone hover hget =>
      rw [hget] at hr
      subst hr
      rw [if_pos hover]
      refine ⟨rfl, fun l' hl' => .gone (hover.imp_right fun ⟨g, hg, hc⟩ => ⟨g, ?_, hc⟩) hget⟩
      rw [hl']
      exact List.mem_append_left _ hg

/-- What a method that stores no code for the account does to its state. -/
theorem CodeState.exec (h : CodeState config userId code expiresAt l s)
    (hinj : Function.Injective config.auth.hmac) {call : ActivationCall}
    (hset : ∀ code resendAvailableAt, call ≠ .setActivationCode userId code resendAvailableAt) :
    CodeState config userId code expiresAt (l ++ [⟨s.now, call, (call.apply config s).1⟩])
      (call.apply config s).2 := by
  cases call with
  | setActivationCode owner code' resendAvailableAt =>
      have hne : userId ≠ owner := fun heq => hset code' resendAvailableAt (heq ▸ rfl)
      exact h.congr ((guesses_append _).trans (List.append_nil _)) rfl
        (cell_apply_of_ne hne (.inl ⟨_, _, rfl⟩))
  | consumeActivationCode owner code' =>
      by_cases howner : userId = owner
      · subst howner
        refine (h.guess hinj code' rfl).2 _ ((guesses_append _).trans ?_)
        rw [guess?, if_pos rfl]
        rfl
      · refine h.congr ((guesses_append _).trans ?_) ?_
          (cell_apply_of_ne howner (.inr ⟨_, rfl⟩))
        · rw [guess?, if_neg (Ne.symm howner)]
          exact List.append_nil _
        · change (CONSUME_ACTIVATION_LUA owner (config.auth.hmac code') s).2.now = s.now
          unfold CONSUME_ACTIVATION_LUA
          split
          · rfl
          · split <;> rfl

theorem guess_answer {moments : List (Moment ActivationCall)} {before later : List Guess}
    {g : Guess} (hinj : Function.Injective config.auth.hmac)
    (hset : ∀ code resendAvailableAt,
      .exec (.setActivationCode userId code resendAvailableAt) ∉ moments)
    (h : CodeState config userId code expiresAt [] s)
    (hsplit : guesses config userId (log (ActivationCall.apply config) moments s) =
      before ++ g :: later) :
    g.result = if expiresAt ≤ g.time ∨ ∃ g' ∈ before, g'.result = .consumed then .missing
      else if g.code = code then .consumed else .invalid (before.length + 1) := by
  obtain ⟨l₁, e, l₂, hlog, rfl, hguess⟩ := log_filterMap_split hsplit
  obtain ⟨s₁, hstate, -, htime, hreply⟩ := log_entry
    (P := fun l s => CodeState config userId code expiresAt l s)
    (φ := fun call => ∀ code resendAvailableAt,
      call ≠ .setActivationCode userId code resendAvailableAt) h
    (fun l s n h => h.tick n) (fun l s call hcall h => h.exec hinj hcall)
    (fun call hcall code' resendAvailableAt heq => hset code' resendAvailableAt (heq ▸ hcall))
    hlog
  obtain ⟨time, call, r⟩ := e
  cases call with
  | setActivationCode owner code' resendAvailableAt => cases hguess
  | consumeActivationCode owner code' =>
      rw [guess?] at hguess
      split at hguess
      · rename_i howner
        subst howner
        cases hguess
        have hresult := (hstate.guess hinj code' rfl).1
        rw [← htime] at hresult
        exact hreply.trans hresult
      · cases hguess

end

/-- The answers to the guesses after a code has been stored: it is accepted once and until
it expires, and every other guess before that is counted. -/
structure OneTime (code : String) (expiresAt : ℕ) (answers : List Guess) : Prop where
  once : answers.countP (fun g => g.result = .consumed) ≤ 1
  correct : ∀ g ∈ answers, g.result = .consumed → g.code = code ∧ g.time < expiresAt
  missing : ∀ before g later, answers = before ++ g :: later →
    (expiresAt ≤ g.time ∨ ∃ g' ∈ before, g'.result = .consumed) → g.result = .missing
  counted : ∀ before g later, answers = before ++ g :: later → g.time < expiresAt →
    (∀ g' ∈ before, g'.result ≠ .consumed) → g.code ≠ code →
      g.result = .invalid (before.length + 1)
  accepted : ∀ before g later, answers = before ++ g :: later → g.time < expiresAt →
    (∀ g' ∈ before, g'.result ≠ .consumed) → g.code = code → g.result = .consumed

/-- A code that is stored at some instant is accepted once within the hour, however often
others are tried and in whatever order, until the next one is stored. -/
theorem activation_code_one_time (config : AccountConfig)
    (hinj : Function.Injective config.auth.hmac) (s : Activations) (userId code : String)
    (resendAvailableAt : ℕ) (moments : List (Moment ActivationCall))
    (hset : ∀ code resendAvailableAt,
      .exec (.setActivationCode userId code resendAvailableAt) ∉ moments) :
    OneTime code (s.now + TTL_ONE_HOUR_SECONDS * 1000)
      (guesses config userId (log (ActivationCall.apply config) moments
        ((ActivationCall.setActivationCode userId code resendAvailableAt).apply config s).2)) := by
  have hstart : CodeState config userId code (s.now + TTL_ONE_HOUR_SECONDS * 1000) []
      ((ActivationCall.setActivationCode userId code resendAvailableAt).apply config s).2 :=
    .live resendAvailableAt (Nat.lt_add_of_pos_right (by decide)) nofun
      (Store.cell_set_self s _ _)
  have hanswer : ∀ before (g : Guess) later,
      guesses config userId (log (ActivationCall.apply config) moments
        ((ActivationCall.setActivationCode userId code resendAvailableAt).apply
          config s).2) = before ++ g :: later →
        g.result = if s.now + TTL_ONE_HOUR_SECONDS * 1000 ≤ g.time ∨
            ∃ g' ∈ before, g'.result = .consumed then .missing
          else if g.code = code then .consumed else .invalid (before.length + 1) :=
    fun _ _ _ => guess_answer hinj hset hstart
  generalize s.now + TTL_ONE_HOUR_SECONDS * 1000 = expiresAt at *
  generalize guesses config userId _ = answers at *
  have hconsumed : ∀ before g later, answers = before ++ g :: later → g.result = .consumed →
      ¬ (expiresAt ≤ g.time ∨ ∃ g' ∈ before, g'.result = .consumed) ∧ g.code = code := by
    intro before g later hsplit hresult
    rw [hanswer before g later hsplit] at hresult
    split at hresult
    · cases hresult
    split at hresult
    · exact ⟨‹_›, ‹_›⟩
    · cases hresult
  refine ⟨countP_le_one fun before g later hsplit ⟨g', hg', hp⟩ => ?_, fun g hg hresult => ?_,
    fun before g later hsplit hover => ?_, fun before g later hsplit hlive hwrong hne => ?_,
    fun before g later hsplit hlive hwrong heq => ?_⟩
  · refine decide_eq_false fun hresult => ?_
    exact (hconsumed before g later hsplit hresult).1 (.inr ⟨g', hg', of_decide_eq_true hp⟩)
  · obtain ⟨before, later, hsplit⟩ := List.append_of_mem hg
    obtain ⟨hnot, hcode⟩ := hconsumed before g later hsplit hresult
    exact ⟨hcode, Nat.lt_of_not_le fun hover => hnot (.inl hover)⟩
  · rw [hanswer before g later hsplit, if_pos hover]
  · have hnot : ¬ (expiresAt ≤ g.time ∨ ∃ g' ∈ before, g'.result = .consumed) := by
      rintro (hover | ⟨g', hg', hresult⟩)
      · omega
      · exact hwrong g' hg' hresult
    rw [hanswer before g later hsplit, if_neg hnot, if_neg hne]
  · have hnot : ¬ (expiresAt ≤ g.time ∨ ∃ g' ∈ before, g'.result = .consumed) := by
      rintro (hover | ⟨g', hg', hresult⟩)
      · omega
      · exact hwrong g' hg' hresult
    rw [hanswer before g later hsplit, if_neg hnot, if_pos heq]

/-- Two wrong guesses, the code, and the code once more. -/
theorem code_accepted_once :
    guesses exampleAccounts "u" (log (ActivationCall.apply exampleAccounts)
      [.exec (.consumeActivationCode "u" "x"), .tick 1000,
        .exec (.consumeActivationCode "u" "y"), .exec (.consumeActivationCode "u" "c"),
        .exec (.consumeActivationCode "u" "c")]
      ((ActivationCall.setActivationCode "u" "c" 0).apply exampleAccounts (Store.empty 0)).2) =
      [⟨0, "x", .invalid 1⟩, ⟨1000, "y", .invalid 2⟩, ⟨1000, "c", .consumed⟩,
        ⟨1000, "c", .missing⟩] ∧
    OneTime "c" 3600000 [⟨0, "x", .invalid 1⟩, ⟨1000, "y", .invalid 2⟩, ⟨1000, "c", .consumed⟩,
      ⟨1000, "c", .missing⟩] :=
  ⟨rfl, activation_code_one_time exampleAccounts (fun a b h => by
      simpa [exampleAccounts, exampleConfig] using h) (Store.empty 0) "u" "c" 0
    [.exec (.consumeActivationCode "u" "x"), .tick 1000,
      .exec (.consumeActivationCode "u" "y"), .exec (.consumeActivationCode "u" "c"),
      .exec (.consumeActivationCode "u" "c")] (by simp)⟩

end Account

end Shortlink

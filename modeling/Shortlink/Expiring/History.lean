import Shortlink.Expiring.Store
import Mathlib.Data.List.Induction

/-!
# Commands over time

A history is a list of moments: time passes, or a command is executed at one instant.
Its log has every command with the instant and the reply. What holds of the store and of
the log so far is shown moment by moment (`log_invariant`), and for each entry of the log
it holds of the store that has answered it (`log_entry`).
-/

namespace Shortlink

namespace Expiring

/-- Time passes, or a command is executed. -/
inductive Moment (C : Type) where
  | tick (n : ℕ)
  | exec (c : C)

/-- A command with the instant at which it was executed and the reply. -/
structure Executed (C : Type) (R : C → Type) where
  time : ℕ
  command : C
  reply : R command

variable {K C : Type} {V : K → Type} {R : C → Type}

/-- The store behind a history. -/
def after (apply : (c : C) → Store K V → R c × Store K V) :
    List (Moment C) → Store K V → Store K V
  | [], s => s
  | .tick n :: moments, s => after apply moments (s.tick n)
  | .exec c :: moments, s => after apply moments (apply c s).2

/-- The commands of a history in their order. -/
def log (apply : (c : C) → Store K V → R c × Store K V) :
    List (Moment C) → Store K V → List (Executed C R)
  | [], _ => []
  | .tick n :: moments, s => log apply moments (s.tick n)
  | .exec c :: moments, s => ⟨s.now, c, (apply c s).1⟩ :: log apply moments (apply c s).2

section

variable {apply : (c : C) → Store K V → R c × Store K V} {φ : C → Prop}
  {P : List (Executed C R) → Store K V → Prop} {moments : List (Moment C)} {s : Store K V}
  {l₁ l₂ : List (Executed C R)} {e : Executed C R}

/-- What every moment preserves holds at the end. -/
theorem log_invariant_from {l : List (Executed C R)} (h : P l s)
    (htick : ∀ l s n, P l s → P l (s.tick n))
    (hexec : ∀ l s c, φ c → P l s → P (l ++ [⟨s.now, c, (apply c s).1⟩]) (apply c s).2)
    (hφ : ∀ c, .exec c ∈ moments → φ c) :
    P (l ++ log apply moments s) (after apply moments s) := by
  induction moments generalizing l s with
  | nil => simpa [log, after] using h
  | cons moment moments ih =>
      have hφ' : ∀ c, .exec c ∈ moments → φ c := fun c hc =>
        hφ c (List.mem_cons_of_mem _ hc)
      cases moment with
      | tick n => exact ih (htick l s n h) hφ'
      | exec c =>
          have hrest := ih (hexec l s c (hφ c List.mem_cons_self) h) hφ'
          rwa [List.append_assoc] at hrest

theorem log_invariant (h : P [] s) (htick : ∀ l s n, P l s → P l (s.tick n))
    (hexec : ∀ l s c, φ c → P l s → P (l ++ [⟨s.now, c, (apply c s).1⟩]) (apply c s).2)
    (hφ : ∀ c, .exec c ∈ moments → φ c) :
    P (log apply moments s) (after apply moments s) :=
  log_invariant_from (l := []) h htick hexec hφ

/-- An entry of the log is the answer of the store at that moment. -/
theorem log_split (h : log apply moments s = l₁ ++ e :: l₂) :
    ∃ before later, moments = before ++ .exec e.command :: later ∧
      log apply before s = l₁ ∧ e.time = (after apply before s).now ∧
      e.reply = (apply e.command (after apply before s)).1 := by
  induction moments generalizing s l₁ with
  | nil => cases l₁ <;> cases h
  | cons moment moments ih =>
      cases moment with
      | tick n =>
          obtain ⟨before, later, rfl, hlog, htime, hreply⟩ := ih (s := s.tick n) h
          exact ⟨.tick n :: before, later, rfl, hlog, htime, hreply⟩
      | exec c =>
          cases l₁ with
          | nil =>
              cases h
              exact ⟨[], moments, rfl, rfl, rfl, rfl⟩
          | cons x l₁ =>
              obtain ⟨hx, h⟩ := List.cons.inj h
              obtain ⟨before, later, rfl, hlog, htime, hreply⟩ := ih h
              exact ⟨.exec c :: before, later, rfl, by rw [← hx, ← hlog]; rfl, htime, hreply⟩

/-- The store that has answered an entry of the log satisfies what every moment preserves. -/
theorem log_entry (h : P [] s) (htick : ∀ l s n, P l s → P l (s.tick n))
    (hexec : ∀ l s c, φ c → P l s → P (l ++ [⟨s.now, c, (apply c s).1⟩]) (apply c s).2)
    (hφ : ∀ c, .exec c ∈ moments → φ c)
    (hlog : log apply moments s = l₁ ++ e :: l₂) :
    ∃ s₁, P l₁ s₁ ∧ φ e.command ∧ e.time = s₁.now ∧ e.reply = (apply e.command s₁).1 := by
  obtain ⟨before, later, rfl, rfl, htime, hreply⟩ := log_split hlog
  refine ⟨after apply before s, log_invariant h htick hexec fun c hc => ?_, hφ _ (by simp),
    htime, hreply⟩
  exact hφ c (List.mem_append_left _ hc)

/-- The entries that are selected from a log are selected in its order. -/
theorem log_filterMap_split {β : Type} {f : Executed C R → Option β} {l : List (Executed C R)}
    {a₁ a₂ : List β} {a : β} (h : l.filterMap f = a₁ ++ a :: a₂) :
    ∃ l₁ e l₂, l = l₁ ++ e :: l₂ ∧ l₁.filterMap f = a₁ ∧ f e = some a := by
  obtain ⟨b₂, b₁, rfl, rfl, h₁⟩ := List.filterMap_eq_append_iff.1 h
  obtain ⟨c₂, e, c₁, rfl, hc, he, -⟩ := List.filterMap_eq_cons_iff.1 h₁
  refine ⟨b₂ ++ c₂, e, c₁, by simp, ?_, he⟩
  rw [List.filterMap_append, List.filterMap_eq_nil_iff.2 hc, List.append_nil]

end

/-- What excludes itself later on occurs at most once. -/
theorem countP_le_one {α : Type} {p : α → Bool} {l : List α}
    (h : ∀ l₁ a l₂, l = l₁ ++ a :: l₂ → (∃ b ∈ l₁, p b = true) → p a = false) :
    l.countP p ≤ 1 := by
  induction l using List.reverseRecOn with
  | nil => exact Nat.zero_le 1
  | append_singleton l a ih =>
      rw [List.countP_append, List.countP_singleton]
      by_cases hone : ∃ b ∈ l, p b = true
      · rw [h l a [] rfl hone]
        exact ih fun l₁ b l₂ hl => h l₁ b (l₂ ++ [a]) (by simp [hl])
      · have hnone : l.countP p = 0 := List.countP_eq_zero.2 fun b hb hp => hone ⟨b, hb, hp⟩
        rw [hnone]
        split <;> omega

end Expiring

end Shortlink

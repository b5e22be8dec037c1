import Mathlib.Tactic.Common
import Mathlib.Data.List.Pairwise

/-!
# Counters that expire

A counter is opened by a request, counts the later ones and expires `T` after it has been
opened, however many it has counted. `counts` are the requests with what they have been
counted as. Those counted up to a limit are at most `limit` in a window, and at most
`2 * limit` in any interval of length `T`.
-/

namespace Shortlink

namespace Expiring

/-- When the counter was opened, and what it has counted. -/
structure Window where
  opened : ℕ
  count : ℕ
  deriving DecidableEq

/-- A request is counted, or it opens the next window. -/
def Window.next (T t : ℕ) : Option Window → Window
  | some w => if t < w.opened + T then ⟨w.opened, w.count + 1⟩ else ⟨t, 1⟩
  | none => ⟨t, 1⟩

/-- The window after requests at these instants. -/
def Window.last (T : ℕ) : Option Window → List ℕ → Option Window
  | w, [] => w
  | w, t :: ts => Window.last T (some (Window.next T t w)) ts

/-- Each request with its count. -/
def counts (T : ℕ) : Option Window → List ℕ → List (ℕ × ℕ)
  | _, [] => []
  | w, t :: ts => (t, (Window.next T t w).count) :: counts T (some (Window.next T t w)) ts

section

variable {T limit : ℕ} {w : Option Window} {ts : List ℕ}

theorem counts_append (ts' : List ℕ) :
    counts T w (ts ++ ts') = counts T w ts ++ counts T (Window.last T w ts) ts' := by
  induction ts generalizing w with
  | nil => rfl
  | cons t ts ih => simp only [List.cons_append, counts, Window.last, ih]

theorem Window.last_append (ts' : List ℕ) :
    Window.last T w (ts ++ ts') = Window.last T (Window.last T w ts) ts' := by
  induction ts generalizing w with
  | nil => rfl
  | cons t ts ih => simp only [List.cons_append, Window.last, ih]

@[simp] theorem counts_map_fst : (counts T w ts).map Prod.fst = ts := by
  induction ts generalizing w with
  | nil => rfl
  | cons t ts ih => simp only [counts, List.map_cons, ih]

theorem counts_split {l₁ l₂ : List (ℕ × ℕ)} {t n : ℕ}
    (h : counts T w ts = l₁ ++ (t, n) :: l₂) : ∃ ts₁ ts₂, ts = ts₁ ++ t :: ts₂ ∧
      l₁ = counts T w ts₁ ∧ n = (Window.next T t (Window.last T w ts₁)).count ∧
      l₂ = counts T (some (Window.next T t (Window.last T w ts₁))) ts₂ := by
  induction ts generalizing w l₁ with
  | nil => cases l₁ <;> cases h
  | cons t' ts ih =>
      cases l₁ with
      | nil =>
          cases h
          exact ⟨[], ts, rfl, rfl, rfl, rfl⟩
      | cons r l₁ =>
          obtain ⟨hr, h⟩ := List.cons.inj h
          obtain ⟨ts₁, ts₂, rfl, rfl, hn, hl₂⟩ := ih h
          exact ⟨t' :: ts₁, ts₂, rfl, by rw [← hr, counts], hn, hl₂⟩

theorem last_count_pos (hw : ∀ v ∈ w, 0 < v.count) : ∀ v ∈ Window.last T w ts, 0 < v.count := by
  induction ts generalizing w with
  | nil => exact hw
  | cons t ts ih =>
      refine ih fun v hv => ?_
      cases hv
      unfold Window.next
      split
      · split
        · exact Nat.succ_pos _
        · exact Nat.one_pos
      · exact Nat.one_pos

/-- A request that is counted as the first one opens a window. -/
theorem next_of_count_one {t : ℕ} (hw : ∀ v ∈ w, 0 < v.count)
    (h : (Window.next T t w).count = 1) : Window.next T t w = ⟨t, 1⟩ := by
  unfold Window.next at h ⊢
  split at h
  · rename_i v
    have hpos := hw v rfl
    split at h
    · dsimp only at h
      omega
    · rename_i ht
      exact if_neg ht
  · rfl

/-- The requests of a window that are counted up to the limit. -/
theorem countP_window_le {t₀ n : ℕ} (hts : ts.Pairwise (· ≤ ·)) :
    (counts T (some ⟨t₀, n⟩) ts).countP (fun r => decide (r.1 < t₀ + T ∧ r.2 ≤ limit)) ≤
      limit - n := by
  induction ts generalizing n with
  | nil => exact Nat.zero_le _
  | cons t ts ih =>
      obtain ⟨hlater, hts⟩ := List.pairwise_cons.1 hts
      rw [counts, List.countP_cons]
      by_cases ht : t < t₀ + T
      · have hnext : Window.next T t (some ⟨t₀, n⟩) = ⟨t₀, n + 1⟩ := if_pos ht
        have hrest := ih hts (n := n + 1)
        rw [hnext]
        simp only [decide_eq_true_eq]
        split_ifs <;> omega
      · -- from here on every request is too late
        have hnone : ∀ w, (counts T w ts).countP
            (fun r => decide (r.1 < t₀ + T ∧ r.2 ≤ limit)) = 0 := by
          intro w
          refine List.countP_eq_zero.2 fun r hr hcounted => ?_
          have hmem : r.1 ∈ ts := by
            have hfst : (counts T w ts).map Prod.fst = ts := counts_map_fst
            exact hfst ▸ List.mem_map_of_mem hr
          have := hlater r.1 hmem
          have := (of_decide_eq_true hcounted).1
          omega
        rw [hnone]
        simp [ht]

/-- How many requests can still be counted up to the limit in the interval from `a`. -/
def budget (T limit a : ℕ) : Option Window → ℕ
  | none => 2 * limit
  | some w =>
      if w.opened + T ≤ a then 2 * limit
      else if w.opened ≤ a then limit - w.count + limit
      else if w.opened ≤ a + T then limit - w.count
      else 0

theorem budget_next (hT : 0 < T) (a : ℕ) {t : ℕ} (hw : ∀ v ∈ w, v.opened ≤ t) :
    budget T limit a (some (Window.next T t w)) +
      (if a ≤ t ∧ t ≤ a + T ∧ (Window.next T t w).count ≤ limit then 1 else 0) ≤
        budget T limit a w := by
  cases w with
  | none =>
      have hnext : Window.next T t none = ⟨t, 1⟩ := rfl
      simp only [hnext, budget]
      split_ifs <;> omega
  | some v =>
      have hv := hw v rfl
      by_cases ht : t < v.opened + T
      · simp only [Window.next, if_pos ht, budget]
        split_ifs <;> omega
      · simp only [Window.next, if_neg ht, budget]
        split_ifs <;> omega

theorem countP_interval_le_budget (hT : 0 < T) (a : ℕ) (hts : ts.Pairwise (· ≤ ·))
    (hw : ∀ v ∈ w, ∀ t ∈ ts, v.opened ≤ t) :
    (counts T w ts).countP (fun r => decide (a ≤ r.1 ∧ r.1 ≤ a + T ∧ r.2 ≤ limit)) ≤
      budget T limit a w := by
  induction ts generalizing w with
  | nil => exact Nat.zero_le _
  | cons t ts ih =>
      obtain ⟨hlater, hts⟩ := List.pairwise_cons.1 hts
      have hnext : (Window.next T t w).opened ≤ t := by
        unfold Window.next
        split
        · rename_i v
          split
          · exact hw v rfl t List.mem_cons_self
          · exact Nat.le_refl _
        · exact Nat.le_refl _
      have hrest := ih hts (w := some (Window.next T t w)) fun v hv t' ht' => by
        cases hv
        exact Nat.le_trans hnext (hlater t' ht')
      have hpaid : budget T limit a (some (Window.next T t w)) + _ ≤ budget T limit a w :=
        budget_next hT a fun v hv => hw v hv t List.mem_cons_self
      rw [counts, List.countP_cons]
      simp only [decide_eq_true_eq]
      exact Nat.le_trans (Nat.add_le_add_right hrest _) hpaid

/-- Once a window is open its requests are counted one after another. -/
theorem last_of_no_opening {t₀ n : ℕ}
    (hcounts : ∀ r ∈ counts T (some ⟨t₀, n⟩) ts, r.2 ≠ 1) :
    Window.last T (some ⟨t₀, n⟩) ts = some ⟨t₀, n + ts.length⟩ := by
  induction ts generalizing n with
  | nil => rfl
  | cons t ts ih =>
      rw [counts] at hcounts
      obtain ⟨hfirst, hrest⟩ := List.forall_mem_cons.1 hcounts
      by_cases ht : t < t₀ + T
      · have hnext : Window.next T t (some ⟨t₀, n⟩) = ⟨t₀, n + 1⟩ := if_pos ht
        rw [hnext] at hrest
        rw [Window.last, hnext, ih hrest, List.length_cons, Nat.add_assoc, Nat.add_comm 1]
      · have hnext : Window.next T t (some ⟨t₀, n⟩) = ⟨t, 1⟩ := if_neg ht
        rw [hnext] at hfirst
        exact absurd rfl hfirst

end

/-- What requests with these counts have to do with a limit. -/
structure Limited (T limit : ℕ) (requests : List (ℕ × ℕ)) : Prop where
  /-- Of the requests between the first one of a window and its end. -/
  window : ∀ before t₀ later, requests = before ++ (t₀, 1) :: later →
    ((t₀, 1) :: later).countP (fun r => decide (r.1 < t₀ + T ∧ r.2 ≤ limit)) ≤ limit
  interval : ∀ a, requests.countP
    (fun r => decide (a ≤ r.1 ∧ r.1 ≤ a + T ∧ r.2 ≤ limit)) ≤ 2 * limit
  first : ∀ r later, requests = r :: later → r.2 = 1
  /-- The latest window has been opened at `t₀`, and goes on until `t₀ + T`. -/
  counted : ∀ before t₀ inside t n later,
    requests = before ++ (t₀, 1) :: (inside ++ (t, n) :: later) →
      (∀ r ∈ inside, r.2 ≠ 1) → t < t₀ + T → n = inside.length + 2
  reopened : ∀ before t₀ inside t n later,
    requests = before ++ (t₀, 1) :: (inside ++ (t, n) :: later) →
      (∀ r ∈ inside, r.2 ≠ 1) → t₀ + T ≤ t → n = 1

/-- Requests in the order of time are limited. -/
theorem limited_counts {T limit : ℕ} {ts : List ℕ} (hT : 0 < T) (hlimit : 0 < limit)
    (hts : ts.Pairwise (· ≤ ·)) : Limited T limit (counts T none ts) := by
  have hpos : ∀ ts₁, ∀ v ∈ Window.last T none ts₁, 0 < v.count := fun _ =>
    last_count_pos nofun
  -- the requests behind one that opens a window
  have hopened : ∀ before t₀ later, counts T none ts = before ++ (t₀, 1) :: later →
      ∃ ts₂, (t₀ :: ts₂).Pairwise (· ≤ ·) ∧ later = counts T (some ⟨t₀, 1⟩) ts₂ := by
    intro before t₀ later hsplit
    obtain ⟨ts₁, ts₂, rfl, rfl, hn, rfl⟩ := counts_split hsplit
    rw [next_of_count_one (hpos ts₁) hn.symm]
    exact ⟨ts₂, (List.pairwise_append.1 hts).2.1, rfl⟩
  have hinside : ∀ before t₀ inside t n later,
      counts T none ts = before ++ (t₀, 1) :: (inside ++ (t, n) :: later) →
        (∀ r ∈ inside, r.2 ≠ 1) →
          n = (Window.next T t (some ⟨t₀, 1 + inside.length⟩)).count := by
    intro before t₀ inside t n later hsplit hcounts
    obtain ⟨ts₂, -, hlater⟩ := hopened before t₀ _ hsplit
    obtain ⟨ts₃, ts₄, rfl, rfl, hn, -⟩ := counts_split hlater.symm
    rw [hn, last_of_no_opening hcounts, ← List.length_map Prod.fst, counts_map_fst]
  refine ⟨fun before t₀ later hsplit => ?_, fun a => ?_, fun r later hsplit => ?_,
    fun before t₀ inside t n later hsplit hcounts ht => ?_,
    fun before t₀ inside t n later hsplit hcounts ht => ?_⟩
  · obtain ⟨ts₂, hts₂, rfl⟩ := hopened before t₀ later hsplit
    have hrest : (counts T (some ⟨t₀, 1⟩) ts₂).countP
        (fun r => decide (r.1 < t₀ + T ∧ r.2 ≤ limit)) ≤ limit - 1 :=
      countP_window_le (List.pairwise_cons.1 hts₂).2
    rw [List.countP_cons]
    simp only [decide_eq_true_eq]
    split_ifs <;> omega
  · exact countP_interval_le_budget hT a hts nofun
  · cases ts with
    | nil => cases hsplit
    | cons t ts =>
        cases hsplit
        rfl
  · rw [hinside before t₀ inside t n later hsplit hcounts, Window.next]
    simp only [if_pos ht]
    omega
  · rw [hinside before t₀ inside t n later hsplit hcounts, Window.next]
    dsimp only
    rw [if_neg (Nat.not_lt.2 ht)]

end Expiring

end Shortlink

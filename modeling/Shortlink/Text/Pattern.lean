import Mathlib.Data.List.Basic

/-!
# Regular expressions with lookahead

The part of the regular expressions of ECMAScript that needs no captures: classes of
characters, repetition of a class, sequence, lookahead and the two anchors. A matcher is
given what is to be matched behind it, and the flag `first` that nothing stands before
the text (`Pattern.run`). `Pattern.test` tries every offset.
-/

namespace Shortlink

namespace Text

inductive Pattern (α : Type) where
  | one (p : α → Bool)
  | atLeast (n : ℕ) (p : α → Bool)
  | seq (a b : Pattern α)
  | ahead (a : Pattern α)
  | start
  | stop

namespace Pattern

variable {α : Type}

/-- At least `n` characters of the class, then `k`. -/
def repeated (p : α → Bool) (k : Bool → List α → Bool) : ℕ → Bool → List α → Bool
  | n, first, [] => n == 0 && k first []
  | n, first, c :: rest =>
      n == 0 && k first (c :: rest) || p c && repeated p k (n - 1) false rest

/-- Match the pattern at the beginning of the text, then `k`. -/
def run : Pattern α → (Bool → List α → Bool) → Bool → List α → Bool
  | .one _, _, _, [] => false
  | .one p, k, _, c :: rest => p c && k false rest
  | .atLeast n p, k, first, text => repeated p k n first text
  | .seq a b, k, first, text => a.run (b.run k) first text
  | .ahead a, k, first, text => a.run (fun _ _ => true) first text && k first text
  | .start, k, first, text => first && k first text
  | .stop, k, first, text => text.isEmpty && k first text

/-- Match the pattern at some offset. -/
def search (a : Pattern α) : Bool → List α → Bool
  | first, [] => a.run (fun _ _ => true) first []
  | first, c :: rest => a.run (fun _ _ => true) first (c :: rest) || a.search false rest

/-- `RegExp.prototype.test`. -/
def test (a : Pattern α) (text : List α) : Bool := a.search true text

theorem run_seq (a b : Pattern α) (k : Bool → List α → Bool) :
    (seq a b).run k = a.run (b.run k) := by
  funext first text
  rw [run]

theorem run_ahead (a : Pattern α) (k : Bool → List α → Bool) (first : Bool) (text : List α) :
    (ahead a).run k first text =
      (a.run (fun _ _ => true) first text && k first text) := by
  rw [run]

/-- A run of characters of the class, and the rest of the text. -/
theorem repeated_iff (p : α → Bool) (k : Bool → List α → Bool) (n : ℕ) (first : Bool)
    (text : List α) :
    repeated p k n first text = true ↔ ∃ u v, text = u ++ v ∧ n ≤ u.length ∧
      (∀ c ∈ u, p c = true) ∧ k (first && u.isEmpty) v = true := by
  induction text generalizing n first with
  | nil =>
      simp only [repeated, Bool.and_eq_true, beq_iff_eq]
      constructor
      · rintro ⟨rfl, hk⟩
        exact ⟨[], [], rfl, Nat.le_refl 0, by simp, by simpa using hk⟩
      · rintro ⟨u, v, huv, hn, -, hk⟩
        obtain ⟨rfl, rfl⟩ := List.append_eq_nil_iff.1 huv.symm
        exact ⟨Nat.le_zero.1 hn, by simpa using hk⟩
  | cons c rest ih =>
      simp only [repeated, Bool.or_eq_true, Bool.and_eq_true, beq_iff_eq, ih]
      constructor
      · rintro (⟨rfl, hk⟩ | ⟨hc, u, v, rfl, hn, hu, hk⟩)
        · exact ⟨[], c :: rest, rfl, Nat.le_refl 0, by simp, by simpa using hk⟩
        · refine ⟨c :: u, v, rfl, ?_, List.forall_mem_cons.2 ⟨hc, hu⟩, by simpa using hk⟩
          rw [List.length_cons]
          omega
      · rintro ⟨u, v, huv, hn, hu, hk⟩
        cases u with
        | nil =>
            obtain rfl : c :: rest = v := huv
            exact .inl ⟨Nat.le_zero.1 hn, by simpa using hk⟩
        | cons d u =>
            obtain ⟨rfl, rfl⟩ := List.cons.inj huv
            obtain ⟨hc, hu⟩ := List.forall_mem_cons.1 hu
            refine .inr ⟨hc, u, v, rfl, ?_, hu, by simpa using hk⟩
            rw [List.length_cons] at hn
            omega

/-- A class somewhere behind a run of another one. -/
theorem run_repeated_one (p q : α → Bool) (first : Bool) (text : List α) :
    (seq (atLeast 0 p) (one q)).run (fun _ _ => true) first text = true ↔
      ∃ u c v, text = u ++ c :: v ∧ (∀ d ∈ u, p d = true) ∧ q c = true := by
  rw [run, run, repeated_iff]
  constructor
  · rintro ⟨u, v, rfl, -, hu, hq⟩
    cases v with
    | nil => cases hq
    | cons c v => exact ⟨u, c, v, rfl, hu, by simpa [run] using hq⟩
  · rintro ⟨u, c, v, rfl, hu, hc⟩
    exact ⟨u, c :: v, rfl, Nat.zero_le _, hu, by simpa [run] using hc⟩

/-- A pattern that is anchored matches at the first offset or nowhere. -/
theorem test_start (a : Pattern α) (text : List α) :
    (seq start a).test text = a.run (fun _ _ => true) true text := by
  have hlater : ∀ text, (seq start a).search false text = false := by
    intro text
    induction text with
    | nil => rfl
    | cons c rest ih => rw [search, ih]; rfl
  cases text with
  | nil => rfl
  | cons c rest =>
      rw [test, search, hlater, Bool.or_false]
      rfl

/-- A class matches when the text has a character of it. -/
theorem test_one (p : α → Bool) (text : List α) : (one p).test text = text.any p := by
  have hany : ∀ first, (one p).search first text = text.any p := by
    induction text with
    | nil => intro first; rfl
    | cons c rest ih => intro first; rw [search, ih]; simp [run]
  exact hany true

end Pattern

end Text

end Shortlink

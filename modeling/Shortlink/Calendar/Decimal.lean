import Mathlib.Data.String.Basic
import Mathlib.Tactic.Common

/-!
# Numbers of a fixed width

`padded w n` is the decimal text of `n` with zeros before it up to `w` digits. Among
texts of the same length the lexicographic order is that of the numbers, so a text of
`w` digits is the padded one of its number.
-/

namespace Shortlink

namespace Calendar

def number (cs : List Char) : ℕ := Nat.ofDigitChars 10 cs 0

def Digits (cs : List Char) : Prop := ∀ c ∈ cs, c.isDigit = true

def padded (width n : ℕ) : List Char :=
  List.replicate (width - (Nat.toDigits 10 n).length) '0' ++ Nat.toDigits 10 n

variable {cs cs' : List Char} {c : Char} {width n m : ℕ}

theorem digit_toNat (h : c.isDigit = true) : 48 ≤ c.toNat ∧ c.toNat ≤ 57 := by
  simp only [Char.isDigit, Bool.and_eq_true, decide_eq_true_eq, ge_iff_le,
    UInt32.le_iff_toNat_le] at h
  exact h

theorem Digits.tail (h : Digits (c :: cs)) : Digits cs :=
  fun d hd => h d (List.mem_cons_of_mem c hd)

theorem number_cons (c : Char) (cs : List Char) :
    number (c :: cs) = 10 ^ cs.length * (c.toNat - 48) + number cs := by
  rw [number, Nat.ofDigitChars_cons, Nat.ofDigitChars_eq_ofDigitChars_zero]
  simp [number]

theorem number_lt (h : Digits cs) : number cs < 10 ^ cs.length := by
  induction cs with
  | nil => simp [number]
  | cons c cs ih =>
      have hc := digit_toNat (h c List.mem_cons_self)
      have hrest := ih h.tail
      have hmul : 10 ^ cs.length * (c.toNat - 48) ≤ 10 ^ cs.length * 9 :=
        Nat.mul_le_mul_left _ (by omega)
      rw [number_cons, List.length_cons, Nat.pow_succ]
      omega

/-- The order of texts of digits is that of their numbers. -/
theorem digits_lt_iff (h : Digits cs) (h' : Digits cs') (hlen : cs.length = cs'.length) :
    cs < cs' ↔ number cs < number cs' := by
  induction cs generalizing cs' with
  | nil =>
      obtain rfl := List.length_eq_zero_iff.1 hlen.symm
      simp
  | cons c cs ih =>
      cases cs' with
      | nil => cases hlen
      | cons c' cs' =>
          have hlen' : cs.length = cs'.length := Nat.succ.inj hlen
          have hc := digit_toNat (h c List.mem_cons_self)
          have hc' := digit_toNat (h' c' List.mem_cons_self)
          have hlt := number_lt h.tail
          have hlt' := number_lt h'.tail
          rw [List.cons_lt_cons_iff, ih h.tail h'.tail hlen', number_cons, number_cons, hlen']
          rw [hlen'] at hlt
          obtain hlow | heq | hhigh := lt_trichotomy c.toNat c'.toNat
          · have hmul := Nat.mul_le_mul_left (10 ^ cs'.length)
              (show c.toNat - 48 + 1 ≤ c'.toNat - 48 by omega)
            rw [Nat.mul_succ] at hmul
            exact ⟨fun _ => by omega, fun _ => .inl hlow⟩
          · obtain rfl := Char.toNat_inj.1 heq
            simp
          · have hmul := Nat.mul_le_mul_left (10 ^ cs'.length)
              (show c'.toNat - 48 + 1 ≤ c.toNat - 48 by omega)
            rw [Nat.mul_succ] at hmul
            refine ⟨fun h => ?_, fun h => by omega⟩
            obtain hlt | ⟨rfl, -⟩ := h
            · exact absurd hlt (Nat.lt_asymm hhigh)
            · exact absurd hhigh (Nat.lt_irrefl _)

/-- A number has one text of each length. -/
theorem digits_injective (h : Digits cs) (h' : Digits cs') (hlen : cs.length = cs'.length)
    (hnumber : number cs = number cs') : cs = cs' := by
  obtain hlt | heq | hgt := lt_trichotomy cs cs'
  · exact absurd ((digits_lt_iff h h' hlen).1 hlt) (by omega)
  · exact heq
  · exact absurd ((digits_lt_iff h' h hlen.symm).1 hgt) (by omega)

@[simp] theorem number_padded (width n : ℕ) : number (padded width n) = n := by
  rw [number, padded, Nat.ofDigitChars_append, Nat.ofDigitChars_replicate_zero, Nat.mul_zero,
    Nat.ofDigitChars_ten_toDigits]

theorem digits_padded (width n : ℕ) : Digits (padded width n) := by
  intro c hc
  rcases List.mem_append.1 hc with hc | hc
  · rw [(List.mem_replicate.1 hc).2]
    rfl
  · exact Nat.isDigit_of_mem_toDigits (by decide) (by decide) hc

theorem length_padded (hwidth : 0 < width) (h : n < 10 ^ width) :
    (padded width n).length = width := by
  have hle := (Nat.length_toDigits_le_iff (b := 10) (by decide) hwidth).2 h
  rw [padded, List.length_append, List.length_replicate]
  omega

theorem padded_number (h : Digits cs) (hlen : 0 < cs.length) :
    padded cs.length (number cs) = cs :=
  digits_injective (digits_padded _ _) h (length_padded hlen (number_lt h))
    (number_padded _ _)

theorem padded_lt_iff (hwidth : 0 < width) (hm : m < 10 ^ width) (hn : n < 10 ^ width) :
    padded width m < padded width n ↔ m < n := by
  rw [digits_lt_iff (digits_padded _ _) (digits_padded _ _)
    ((length_padded hwidth hm).trans (length_padded hwidth hn).symm),
    number_padded, number_padded]

/-- Behind texts of one length the order goes on with what follows them. -/
theorem append_lt_append_iff {as bs xs ys : List Char} (hlen : as.length = bs.length) :
    as ++ xs < bs ++ ys ↔ as < bs ∨ as = bs ∧ xs < ys := by
  induction as generalizing bs with
  | nil =>
      obtain rfl := List.length_eq_zero_iff.1 hlen.symm
      simp
  | cons a as ih =>
      cases bs with
      | nil => cases hlen
      | cons b bs =>
          simp only [List.cons_append, List.cons_lt_cons_iff, ih (Nat.succ.inj hlen),
            List.cons.injEq, and_or_left, or_assoc, and_assoc]

end Calendar

end Shortlink

import Shortlink.Auth.Service
import Shortlink.Text.Pattern

/-!
# The two password policies

`PASSWORD_POLICY` of `auth.dto.ts`, one anchored pattern that the requests are checked
with, and `Password.create` of `password.value-object.ts`, five tests on the whole
string. Both work on the UTF-16 code units of the string.
-/

namespace Shortlink

namespace Auth

open Shortlink.Text

abbrev CodeUnit : Type := UInt16

/-- The class `[A-Z]`. -/
def isUppercase (c : CodeUnit) : Bool := 0x41 ≤ c && c ≤ 0x5A

/-- The class `[a-z]`. -/
def isLowercase (c : CodeUnit) : Bool := 0x61 ≤ c && c ≤ 0x7A

/-- The class `\d`. -/
def isDigit (c : CodeUnit) : Bool := 0x30 ≤ c && c ≤ 0x39

/-- The class `[^A-Za-z0-9]`. -/
def isSpecial (c : CodeUnit) : Bool := !(isUppercase c || isLowercase c || isDigit c)

def isLineTerminator (c : CodeUnit) : Bool :=
  c == 0x000A || c == 0x000D || c == 0x2028 || c == 0x2029

/-- The class `.`. -/
def dot (c : CodeUnit) : Bool := !isLineTerminator c

/-! ### The domain object -/

def HAS_UPPERCASE : Pattern CodeUnit := .one isUppercase

def HAS_LOWERCASE : Pattern CodeUnit := .one isLowercase

def HAS_DIGIT : Pattern CodeUnit := .one isDigit

def HAS_SPECIAL : Pattern CodeUnit := .one isSpecial

/-- `Password.meetsPolicy` on code units. -/
def Password.meetsPolicy (raw : List CodeUnit) : Bool :=
  raw.length ≥ MIN_LENGTH && HAS_UPPERCASE.test raw && HAS_LOWERCASE.test raw &&
    HAS_DIGIT.test raw && HAS_SPECIAL.test raw

/-- A password that has been created meets the policy. -/
structure Password where
  raw : List CodeUnit
  policy : Password.meetsPolicy raw = true

def Password.create (raw : List CodeUnit) : Except String Password :=
  if h : Password.meetsPolicy raw = true then .ok ⟨raw, h⟩ else .error "Invalid password."

/-! ### The pattern of the requests -/

/-- The lookahead `(?=.*[c])`. -/
def somewhere (c : CodeUnit → Bool) : Pattern CodeUnit :=
  .ahead (.seq (.atLeast 0 dot) (.one c))

def PASSWORD_POLICY : Pattern CodeUnit :=
  .seq .start (.seq (somewhere isLowercase) (.seq (somewhere isUppercase)
    (.seq (somewhere isDigit) (.seq (somewhere isSpecial) (.seq (.atLeast 8 dot) .stop)))))

section

variable (raw : List CodeUnit)

theorem meetsPolicy_iff :
    Password.meetsPolicy raw = true ↔ 8 ≤ raw.length ∧ raw.any isUppercase = true ∧
      raw.any isLowercase = true ∧ raw.any isDigit = true ∧ raw.any isSpecial = true := by
  simp only [Password.meetsPolicy, HAS_UPPERCASE, HAS_LOWERCASE, HAS_DIGIT, HAS_SPECIAL,
    Pattern.test_one, Bool.and_eq_true, decide_eq_true_eq, ge_iff_le, and_assoc, MIN_LENGTH]

theorem isOk_create : (Password.create raw).isOk = Password.meetsPolicy raw := by
  rw [Password.create]
  split
  · rename_i h
    exact h.symm
  · rename_i h
    exact (Bool.eq_false_iff.2 h).symm

/-- The end `.{8,}$` of the pattern. -/
theorem run_eight_dots (first : Bool) :
    (Pattern.seq (.atLeast 8 dot) .stop).run (fun _ _ => true) first raw = true ↔
      8 ≤ raw.length ∧ ∀ c ∈ raw, dot c = true := by
  rw [Pattern.run, Pattern.run, Pattern.repeated_iff]
  constructor
  · rintro ⟨u, v, rfl, hlength, hu, hstop⟩
    obtain rfl : v = [] := by simpa [Pattern.run] using hstop
    rw [List.append_nil]
    exact ⟨hlength, hu⟩
  · rintro ⟨hlength, hdots⟩
    exact ⟨raw, [], (List.append_nil raw).symm, hlength, hdots, rfl⟩

/-- On a line a lookahead finds the class anywhere. -/
theorem run_somewhere {raw : List CodeUnit} (hdots : ∀ c ∈ raw, dot c = true)
    (p : CodeUnit → Bool) (k : Bool → List CodeUnit → Bool) :
    (somewhere p).run k true raw = true ↔ raw.any p = true ∧ k true raw = true := by
  rw [somewhere, Pattern.run, Bool.and_eq_true, Pattern.run_repeated_one]
  refine and_congr_left' ⟨?_, fun hany => ?_⟩
  · rintro ⟨u, c, v, rfl, -, hc⟩
    exact List.any_eq_true.2 ⟨c, List.mem_append_right _ List.mem_cons_self, hc⟩
  · obtain ⟨c, hmem, hc⟩ := List.any_eq_true.1 hany
    obtain ⟨u, v, rfl⟩ := List.append_of_mem hmem
    exact ⟨u, c, v, rfl, fun d hd => hdots d (List.mem_append_left _ hd), hc⟩

/-- The pattern matches the passwords that meet the policy and are on one line. -/
theorem PASSWORD_POLICY_iff :
    PASSWORD_POLICY.test raw = true ↔
      (∀ c ∈ raw, dot c = true) ∧ Password.meetsPolicy raw = true := by
  rw [PASSWORD_POLICY, Pattern.test_start]
  by_cases hdots : ∀ c ∈ raw, dot c = true
  · simp only [Pattern.run_seq, run_somewhere hdots]
    rw [← Pattern.run_seq, run_eight_dots, meetsPolicy_iff]
    tauto
  · refine iff_of_false (fun hmatch => hdots ?_) fun h => hdots h.1
    simp only [Pattern.run_seq, somewhere, Pattern.run_ahead, Bool.and_eq_true] at hmatch
    obtain ⟨-, -, -, -, hend⟩ := hmatch
    rw [← Pattern.run_seq, run_eight_dots] at hend
    exact hend.2

theorem isSpecial_of_isLineTerminator {c : CodeUnit} (h : isLineTerminator c = true) :
    isSpecial c = true := by
  simp only [isLineTerminator, Bool.or_eq_true, beq_iff_eq] at h
  obtain ((rfl | rfl) | rfl) | rfl := h <;> rfl

/-- The pattern of the requests and the domain object decide alike unless a line terminator
stands in a string that is long enough and has the other three kinds of characters: the
pattern rejects such a string, and `Password.create` takes it. -/
theorem password_policies_agree_iff :
    (PASSWORD_POLICY.test raw = true ↔ (Password.create raw).isOk = true) ↔
      (∀ c ∈ raw, isLineTerminator c = false) ∨ raw.length < MIN_LENGTH ∨
        raw.any isUppercase = false ∨ raw.any isLowercase = false ∨
        raw.any isDigit = false := by
  have hdots : (∀ c ∈ raw, dot c = true) ↔ ∀ c ∈ raw, isLineTerminator c = false := by
    simp [dot]
  rw [PASSWORD_POLICY_iff, isOk_create, hdots]
  by_cases hline : ∀ c ∈ raw, isLineTerminator c = false
  · exact iff_of_true (and_iff_right hline) (.inl hline)
  · have hspecial : raw.any isSpecial = true := by
      simp only [not_forall, Bool.not_eq_false] at hline
      obtain ⟨c, hc, hterminator⟩ := hline
      exact List.any_eq_true.2 ⟨c, hc, isSpecial_of_isLineTerminator hterminator⟩
    have hrejected : ¬ ((∀ c ∈ raw, isLineTerminator c = false) ∧
        Password.meetsPolicy raw = true) := fun h => hline h.1
    rw [iff_false_left hrejected, meetsPolicy_iff, hspecial, or_iff_right hline, MIN_LENGTH]
    simp only [not_and_or, Nat.not_le, Bool.not_eq_true, not_true_eq_false, or_false]

end

/-- A line feed as the special character: the pattern rejects the password that the domain
object allows. -/
theorem line_feed_separates_policies :
    ¬ ∀ raw : List CodeUnit,
      PASSWORD_POLICY.test raw = true ↔ (Password.create raw).isOk = true := by
  intro h
  have haccepted := (h [0x41, 0x61, 0x31, 0x61, 0x61, 0x61, 0x61, 0x0A]).2 rfl
  cases haccepted

/-! ### Strings of characters -/

/-- The code units of a character. -/
def utf16 (c : Char) : List CodeUnit :=
  if c.val < 0x10000 then [.ofNat c.toNat]
  else [.ofNat (0xD800 + (c.toNat - 0x10000) / 0x400),
    .ofNat (0xDC00 + (c.toNat - 0x10000) % 0x400)]

theorem classes_iff (u : CodeUnit) :
    (isUppercase u = true ↔ 0x41 ≤ u.toNat ∧ u.toNat ≤ 0x5A) ∧
      (isLowercase u = true ↔ 0x61 ≤ u.toNat ∧ u.toNat ≤ 0x7A) ∧
      (isDigit u = true ↔ 0x30 ≤ u.toNat ∧ u.toNat ≤ 0x39) := by
  simp [isUppercase, isLowercase, isDigit, UInt16.le_iff_toNat_le]

theorem any_utf16 {c : Char} {p : CodeUnit → Bool} {q : Bool} (lo hi : ℕ)
    (hhi : hi < 0x80) (hp : ∀ u : CodeUnit, p u = true ↔ lo ≤ u.toNat ∧ u.toNat ≤ hi)
    (hq : q = true ↔ lo ≤ c.toNat ∧ c.toNat ≤ hi) : (utf16 c).any p = q := by
  rw [Bool.eq_iff_iff, hq, utf16]
  have hval : c.val < 0x10000 ↔ c.toNat < 0x10000 := UInt32.lt_iff_toNat_lt
  have hmax : c.toNat < 0x110000 := by
    have := c.valid
    rcases this with h | ⟨-, h⟩ <;> simp only [Char.toNat] at * <;> omega
  split
  · rename_i hsmall
    rw [hval] at hsmall
    simp only [List.any_cons, List.any_nil, Bool.or_false, hp, UInt16.toNat_ofNat']
    rw [Nat.mod_eq_of_lt hsmall]
  · rename_i hlarge
    rw [hval] at hlarge
    simp only [List.any_cons, List.any_nil, Bool.or_false, Bool.or_eq_true, hp,
      UInt16.toNat_ofNat']
    omega

/-- The bounds of a class of characters, by their values. -/
theorem between_iff (lo hi c : Char) :
    (decide (lo ≤ c) && decide (c ≤ hi)) = true ↔ lo.toNat ≤ c.toNat ∧ c.toNat ≤ hi.toNat := by
  simp only [Bool.and_eq_true, decide_eq_true_eq, Char.le_def, UInt32.le_iff_toNat_le,
    Char.toNat]

theorem any_isUppercase (c : Char) : (utf16 c).any isUppercase = ('A' ≤ c && c ≤ 'Z') :=
  any_utf16 0x41 0x5A (by decide) (fun u => (classes_iff u).1) (between_iff 'A' 'Z' c)

theorem any_isLowercase (c : Char) : (utf16 c).any isLowercase = ('a' ≤ c && c ≤ 'z') :=
  any_utf16 0x61 0x7A (by decide) (fun u => (classes_iff u).2.1) (between_iff 'a' 'z' c)

theorem any_isDigit (c : Char) : (utf16 c).any isDigit = ('0' ≤ c && c ≤ '9') :=
  any_utf16 0x30 0x39 (by decide) (fun u => (classes_iff u).2.2) (between_iff '0' '9' c)

theorem any_isSpecial (c : Char) : (utf16 c).any isSpecial =
    !('A' ≤ c && c ≤ 'Z' || 'a' ≤ c && c ≤ 'z' || '0' ≤ c && c ≤ '9') := by
  rw [← any_isUppercase, ← any_isLowercase, ← any_isDigit, utf16]
  split
  · simp [isSpecial]
  · have hhigh : ∀ n, n < 0x800 → isUppercase (.ofNat (0xD800 + n)) = false ∧
        isLowercase (.ofNat (0xD800 + n)) = false ∧ isDigit (.ofNat (0xD800 + n)) = false := by
      intro n hn
      obtain ⟨hupper, hlower, hdigit⟩ := classes_iff (.ofNat (0xD800 + n))
      rw [UInt16.toNat_ofNat', Nat.mod_eq_of_lt (by omega)] at hupper hlower hdigit
      refine ⟨Bool.eq_false_iff.2 fun h => ?_, Bool.eq_false_iff.2 fun h => ?_,
        Bool.eq_false_iff.2 fun h => ?_⟩
      · have := hupper.1 h
        omega
      · have := hlower.1 h
        omega
      · have := hdigit.1 h
        omega
    have hmax : c.toNat < 0x110000 := by
      have := c.valid
      rcases this with h | ⟨-, h⟩ <;> simp only [Char.toNat] at * <;> omega
    have hlow : 0xDC00 + (c.toNat - 0x10000) % 0x400 =
        0xD800 + (0x400 + (c.toNat - 0x10000) % 0x400) := by omega
    obtain ⟨h₁, h₂, h₃⟩ := hhigh ((c.toNat - 0x10000) / 0x400) (by omega)
    obtain ⟨h₄, h₅, h₆⟩ := hhigh (0x400 + (c.toNat - 0x10000) % 0x400) (by omega)
    simp only [List.any_cons, List.any_nil, isSpecial, hlow, h₁, h₂, h₃, h₄, h₅, h₆,
      Bool.or_self, Bool.not_false, Bool.or_false]

theorem length_utf16 (raw : List Char) : (raw.flatMap utf16).length = utf16Length raw := by
  induction raw with
  | nil => rfl
  | cons c raw ih =>
      have hc : (utf16 c).length = if c.val < 0x10000 then 1 else 2 := by
        rw [utf16]
        split <;> rfl
      rw [List.flatMap_cons, List.length_append, ih, hc]
      rfl

/-- The policy that the flows check on characters is that of the domain object. -/
theorem meetsPolicy_utf16 (raw : List Char) :
    Password.meetsPolicy (raw.flatMap utf16) = meetsPolicy raw := by
  simp only [Password.meetsPolicy, HAS_UPPERCASE, HAS_LOWERCASE, HAS_DIGIT, HAS_SPECIAL,
    Pattern.test_one, List.any_flatMap, length_utf16, any_isUppercase, any_isLowercase,
    any_isDigit, any_isSpecial, meetsPolicy]

end Auth

end Shortlink

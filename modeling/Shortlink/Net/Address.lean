import Mathlib.Algebra.Group.Nat.Defs
import Mathlib.Data.List.Basic
import Mathlib.Tactic.Common

/-!
# Internet addresses

An address is a number of 32 or of 128 bits, given by its octets or by its groups of
sixteen bits. A range is given by one of its addresses and by the number of leading bits
that all of them share.
-/

namespace Shortlink

namespace Net

/-- The numbers of `width` bits that share the first `len` bits of `net`. -/
def InRange (width net len n : ℕ) : Prop :=
  n / 2 ^ (width - len) = net / 2 ^ (width - len)

instance (width net len n : ℕ) : Decidable (InRange width net len n) :=
  inferInstanceAs (Decidable (_ = _))

/-- A range whose prefix lies in the leading bits. -/
theorem inRange_leading {width low net len high n : ℕ} (hlen : len ≤ width)
    (hlow : n < 2 ^ low) :
    InRange (width + low) (net * 2 ^ low) len (high * 2 ^ low + n) ↔
      InRange width net len high := by
  have hexp : width + low - len = low + (width - len) := by omega
  have hhigh : (high * 2 ^ low + n) / 2 ^ low = high := by
    rw [Nat.mul_comm, Nat.mul_add_div (Nat.two_pow_pos low), Nat.div_eq_of_lt hlow,
      Nat.add_zero]
  rw [InRange, InRange, hexp, Nat.pow_add, ← Nat.div_div_eq_div_mul, ← Nat.div_div_eq_div_mul,
    hhigh, Nat.mul_div_cancel _ (Nat.two_pow_pos low)]

/-- The four octets of an IPv4 address. -/
structure IPv4 where
  a : Fin 256
  b : Fin 256
  c : Fin 256
  d : Fin 256
  deriving DecidableEq

namespace IPv4

/-- The upper sixteen bits. -/
def high (v : IPv4) : ℕ := v.a * 256 + v.b

/-- The lower sixteen bits. -/
def low (v : IPv4) : ℕ := v.c * 256 + v.d

def value (v : IPv4) : ℕ := v.high * 2 ^ 16 + v.low

theorem high_lt (v : IPv4) : v.high < 2 ^ 16 := by
  rw [high]
  omega

theorem low_lt (v : IPv4) : v.low < 2 ^ 16 := by
  rw [low]
  omega

theorem ext_high_low {v w : IPv4} (hhigh : v.high = w.high) (hlow : v.low = w.low) : v = w := by
  obtain ⟨a, b, c, d⟩ := v
  obtain ⟨a', b', c', d'⟩ := w
  simp only [high, low] at hhigh hlow
  simp only [mk.injEq, Fin.ext_iff]
  omega

/-- The addresses whose prefix is that of `w`. -/
def InNet (w : IPv4) (len : ℕ) (v : IPv4) : Prop := InRange 32 w.value len v.value

instance (w : IPv4) (len : ℕ) (v : IPv4) : Decidable (InNet w len v) :=
  inferInstanceAs (Decidable (InRange _ _ _ _))

/-- A prefix of at most sixteen bits is one of the upper half. -/
theorem inNet_iff {w v : IPv4} {len : ℕ} (hlen : len ≤ 16) (hw : w.low = 0) :
    InNet w len v ↔ InRange 16 w.high len v.high := by
  rw [InNet, value, value, hw, Nat.add_zero]
  exact inRange_leading hlen v.low_lt

end IPv4

/-- The eight groups of an IPv6 address. -/
@[ext] structure IPv6 where
  groups : List ℕ
  length_eq : groups.length = 8
  lt : ∀ g ∈ groups, g < 2 ^ 16

namespace IPv6

def number (groups : List ℕ) : ℕ := groups.foldl (fun n g => n * 2 ^ 16 + g) 0

def value (v : IPv6) : ℕ := number v.groups

/-- The first group. -/
def first (v : IPv6) : ℕ := v.groups.headD 0

/-- The addresses whose prefix is that of `w`. -/
def InNet (w : IPv6) (len : ℕ) (v : IPv6) : Prop := InRange 128 w.value len v.value

theorem exists_rest (v : IPv6) :
    ∃ n, n < 2 ^ 112 ∧ v.value = v.first * 2 ^ 112 + n := by
  obtain ⟨groups, hlength, hlt⟩ := v
  obtain ⟨g₀, g₁, g₂, g₃, g₄, g₅, g₆, g₇, rfl⟩ :
      ∃ g₀ g₁ g₂ g₃ g₄ g₅ g₆ g₇, groups = [g₀, g₁, g₂, g₃, g₄, g₅, g₆, g₇] := by
    rcases groups with _ | ⟨g₀, _ | ⟨g₁, _ | ⟨g₂, _ | ⟨g₃, _ | ⟨g₄, _ | ⟨g₅, _ | ⟨g₆,
      _ | ⟨g₇, _ | ⟨g₈, groups⟩⟩⟩⟩⟩⟩⟩⟩⟩ <;> simp_all
  simp only [List.forall_mem_cons] at hlt
  refine ⟨number [g₁, g₂, g₃, g₄, g₅, g₆, g₇], ?_, ?_⟩
  · simp only [number, List.foldl_cons, List.foldl_nil]
    omega
  · simp only [value, first, number, List.foldl_cons, List.foldl_nil, List.headD_cons]
    omega

/-- A prefix of at most sixteen bits is one of the first group. -/
theorem inNet_iff {w v : IPv6} {len : ℕ} (hlen : len ≤ 16)
    (hw : w.value = w.first * 2 ^ 112) :
    InNet w len v ↔ InRange 16 w.first len v.first := by
  obtain ⟨n, hn, hv⟩ := v.exists_rest
  rw [InNet, hw, hv]
  exact inRange_leading hlen hn

end IPv6

/-- The IPv4-mapped form of an address. -/
def IPv4.mapped (v : IPv4) : IPv6 where
  groups := [0, 0, 0, 0, 0, 0xffff, v.high, v.low]
  length_eq := rfl
  lt := by
    simp only [List.forall_mem_cons]
    exact ⟨by decide, by decide, by decide, by decide, by decide, by decide, v.high_lt, v.low_lt,
      List.forall_mem_nil _⟩

theorem IPv4.mapped_injective : Function.Injective IPv4.mapped := by
  intro v w h
  have hgroups := congrArg IPv6.groups h
  simp only [IPv4.mapped, List.cons.injEq, true_and, and_true] at hgroups
  exact IPv4.ext_high_low hgroups.1 hgroups.2

end Net

end Shortlink

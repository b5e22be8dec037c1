import Mathlib.Algebra.Order.Floor.Div
import Mathlib.Data.List.Basic
import Mathlib.Tactic.Common

/-!
# Pages of a list

`page rows limit k` are the rows that a query with `LIMIT limit` answers after an
offset of `k` pages. The pages before the `n`-th are the first `n * limit` rows, so
`rows.length ⌈/⌉ limit` pages are all of them. All but the last of these are full.
-/

namespace Shortlink

namespace Table

variable {α : Type}

/-- The rows of page `k`, counted from zero. -/
def page (rows : List α) (limit k : ℕ) : List α := (rows.drop (k * limit)).take limit

variable {rows : List α} {limit k : ℕ}

theorem flatMap_page (rows : List α) (limit n : ℕ) :
    (List.range n).flatMap (page rows limit) = rows.take (n * limit) := by
  induction n with
  | zero => simp
  | succ n ih =>
      rw [List.range_succ, List.flatMap_append, ih, List.flatMap_singleton, page,
        Nat.succ_mul, List.take_add]

theorem length_page (rows : List α) (limit k : ℕ) :
    (page rows limit k).length = min limit (rows.length - k * limit) := by
  rw [page, List.length_take, List.length_drop]

/-- A page ends before the end of the rows exactly when another page follows. -/
theorem lt_ceilDiv_iff (hlimit : 0 < limit) :
    k < rows.length ⌈/⌉ limit ↔ k * limit < rows.length := by
  rw [← Nat.not_le, ceilDiv_le_iff_le_mul hlimit, Nat.not_le, Nat.mul_comm]

theorem flatMap_page_ceilDiv (rows : List α) (hlimit : 0 < limit) :
    (List.range (rows.length ⌈/⌉ limit)).flatMap (page rows limit) = rows := by
  rw [flatMap_page]
  refine List.take_of_length_le ?_
  rw [Nat.mul_comm]
  exact (ceilDiv_le_iff_le_mul hlimit).1 le_rfl

/-- A page that another page follows is full. -/
theorem length_page_of_succ_lt (hlimit : 0 < limit)
    (hk : k + 1 < rows.length ⌈/⌉ limit) : (page rows limit k).length = limit := by
  have hnext := (lt_ceilDiv_iff hlimit).1 hk
  rw [Nat.succ_mul] at hnext
  rw [length_page]
  omega

theorem length_page_pos (hlimit : 0 < limit) (hk : k < rows.length ⌈/⌉ limit) :
    0 < (page rows limit k).length := by
  have hbefore := (lt_ceilDiv_iff hlimit).1 hk
  rw [length_page]
  omega

theorem length_page_le : (page rows limit k).length ≤ limit := by
  rw [length_page]
  exact Nat.min_le_left _ _

/-- Nothing follows the last page. -/
theorem page_eq_nil (hlimit : 0 < limit) (hk : rows.length ⌈/⌉ limit ≤ k) :
    page rows limit k = [] := by
  have hend : rows.length ≤ k * limit := by
    rw [Nat.mul_comm]
    exact (ceilDiv_le_iff_le_mul hlimit).1 hk
  rw [page, List.drop_of_length_le hend, List.take_nil]

theorem ceilDiv_eq_zero_iff (hlimit : 0 < limit) :
    rows.length ⌈/⌉ limit = 0 ↔ rows = [] := by
  rw [← Nat.le_zero, ceilDiv_le_iff_le_mul hlimit, Nat.mul_zero, Nat.le_zero,
    List.length_eq_zero_iff]

end Table

end Shortlink

import Mathlib.Data.List.Nodup
import Mathlib.Tactic.Common

/-!
# Tables as lists of rows

A table is the list of its rows in insertion order, and a unique key is a
function `key` with `(rows.map key).Nodup`. `updateWhere p f` is the statement
`UPDATE … SET f WHERE p`. The lemmas say what it leaves alone: a column that
`f` keeps, a selection that `p` avoids, and a count up to the rows updated.
-/

namespace Shortlink

namespace Table

variable {α β : Type}

/-- Replace every row `a` with `p a` by `f a`. -/
def updateWhere (p : α → Bool) (f : α → α) (rows : List α) : List α :=
  rows.map fun a => if p a then f a else a

variable {p q : α → Bool} {f : α → α} {rows : List α}

theorem mem_updateWhere {b : α} :
    b ∈ updateWhere p f rows ↔ ∃ a ∈ rows, (if p a then f a else a) = b :=
  List.mem_map

theorem mem_updateWhere_of_not {a : α} (ha : a ∈ rows) (hp : p a = false) :
    a ∈ updateWhere p f rows :=
  mem_updateWhere.2 ⟨a, ha, by simp [hp]⟩

theorem mem_updateWhere_of {a : α} (ha : a ∈ rows) (hp : p a = true) :
    f a ∈ updateWhere p f rows :=
  mem_updateWhere.2 ⟨a, ha, by simp [hp]⟩

/-- A column that the update does not set is unchanged. -/
theorem map_updateWhere {key : α → β} (h : ∀ a, p a → key (f a) = key a) :
    (updateWhere p f rows).map key = rows.map key := by
  rw [updateWhere, List.map_map]
  refine List.map_congr_left fun a _ => ?_
  cases hp : p a with
  | false => simp [hp]
  | true => simpa [hp] using h a hp

/-- A selection that the updated rows are not in before or after is
unchanged. -/
theorem filter_updateWhere
    (h : ∀ a ∈ rows, p a → q a = false ∧ q (f a) = false) :
    (updateWhere p f rows).filter q = rows.filter q := by
  induction rows with
  | nil => rfl
  | cons a rows ih =>
      have ih' := ih fun b hb => h b (List.mem_cons_of_mem a hb)
      simp only [updateWhere] at ih' ⊢
      cases hp : p a with
      | false => simp [hp, List.filter_cons, ih']
      | true =>
          obtain ⟨hq, hqf⟩ := h a List.mem_cons_self hp
          simp [hp, hq, hqf, ih']

/-- A row that the update leaves in a selection is found there, as it is after the update. -/
theorem find?_updateWhere (h : ∀ a, p a → q (f a) = q a) :
    (updateWhere p f rows).find? q =
      (rows.find? q).map fun a => if p a then f a else a := by
  rw [updateWhere, List.find?_map]
  congr 2
  funext a
  cases hp : p a with
  | false => simp [hp]
  | true => simpa [hp] using h a hp

/-- An update that brings no row into a selection does not enlarge it. -/
theorem countP_updateWhere_le (h : ∀ a ∈ rows, p a → q (f a) → q a) :
    (updateWhere p f rows).countP q ≤ rows.countP q := by
  rw [updateWhere, List.countP_map]
  refine List.countP_mono_left fun a ha hq => ?_
  cases hp : p a with
  | false => simpa [hp] using hq
  | true => exact h a ha hp (by simpa [hp] using hq)

/-- An update that also removes a row from the selection makes it smaller. -/
theorem countP_updateWhere_lt {a : α} (ha : a ∈ rows) (hp : p a = true) (hq : q a = true)
    (hqf : q (f a) = false) (h : ∀ b ∈ rows, p b → q (f b) → q b) :
    (updateWhere p f rows).countP q < rows.countP q := by
  induction rows with
  | nil => cases ha
  | cons b rows ih =>
      have hrest : ∀ c ∈ rows, p c → q (f c) → q c :=
        fun c hc => h c (List.mem_cons_of_mem b hc)
      have hcons : updateWhere p f (b :: rows) =
          (if p b then f b else b) :: updateWhere p f rows := rfl
      rw [hcons, List.countP_cons, List.countP_cons]
      rcases List.mem_cons.1 ha with rfl | ha
      · have hle : (updateWhere p f rows).countP q ≤ rows.countP q :=
          countP_updateWhere_le hrest
        simp only [hp, if_true, hqf, hq, Bool.false_eq_true, if_false]
        omega
      · have hlt := ih ha hrest
        have hb := h b List.mem_cons_self
        cases hpb : p b with
        | false =>
            simp only [Bool.false_eq_true, if_false]
            omega
        | true =>
            rw [if_pos rfl]
            by_cases hqb : q (f b) = true
            · rw [if_pos hqb, if_pos (hb hpb hqb)]
              omega
            · rw [if_neg hqb]
              split <;> omega

theorem find?_key [DecidableEq β] {key : α → β} (hkey : (rows.map key).Nodup)
    {a : α} (ha : a ∈ rows) :
    rows.find? (fun b => decide (key b = key a)) = some a := by
  have hsome : (rows.find? fun b => decide (key b = key a)).isSome := by
    rw [List.find?_isSome]
    exact ⟨a, ha, by simp⟩
  obtain ⟨b, hb⟩ := Option.isSome_iff_exists.1 hsome
  have hkb : key b = key a := by simpa using List.find?_some hb
  have hmem : b ∈ rows := List.mem_of_find?_eq_some hb
  rw [hb, List.inj_on_of_nodup_map hkey hmem ha hkb]

/-- An update of the row with one key enlarges a selection by at most one. -/
theorem countP_updateWhere_key_le [DecidableEq β] {key : α → β} {k : β}
    (hkey : (rows.map key).Nodup) (hp : ∀ a, p a → key a = k) :
    (updateWhere p f rows).countP q ≤ rows.countP q + 1 := by
  induction rows with
  | nil => simp [updateWhere]
  | cons a rows ih =>
      obtain ⟨hnotmem, hnodup⟩ := List.nodup_cons.1 hkey
      have htail : key a = k → updateWhere p f rows = rows := by
        intro hk
        rw [updateWhere]
        refine (List.map_congr_left fun b hb => ?_).trans (List.map_id rows)
        have hpb : ¬ p b := fun hpb =>
          hnotmem (by rw [hk, ← hp b hpb]; exact List.mem_map_of_mem hb)
        simp [hpb]
      have hcons : updateWhere p f (a :: rows) =
          (if p a then f a else a) :: updateWhere p f rows := rfl
      rw [hcons, List.countP_cons, List.countP_cons]
      cases hpa : p a with
      | false =>
          have := ih hnodup
          simp only [Bool.false_eq_true, ↓reduceIte]
          omega
      | true =>
          rw [htail (hp a hpa)]
          split <;> split <;> omega

end Table

end Shortlink

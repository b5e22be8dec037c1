import Mathlib.Algebra.Order.BigOperators.Group.List
import Mathlib.Algebra.Order.Group.Nat
import Mathlib.Data.List.Dedup
import Mathlib.Data.List.Perm.Basic

/-!
# Grouped rows

`groupBy key rows` is `SELECT … GROUP BY key`: every key with its rows. The sums of the
groups add up to the sum of the rows, and so do the sums over any list of distinct keys
in which every row has its own. `mapGet` reads a map built from entries.
-/

namespace Shortlink

namespace Table

variable {α β κ M : Type} [DecidableEq κ] [AddCommMonoid M]

def groupBy (key : α → κ) (rows : List α) : List (κ × List α) :=
  (rows.map key).dedup.map fun k => (k, rows.filter fun a => key a = k)

/-- `new Map(entries).get(k)`: a later entry replaces an earlier one. -/
def mapGet (entries : List (κ × β)) (k : κ) : Option β :=
  (entries.reverse.find? fun e => e.1 = k).map (·.2)

variable {key : α → κ} {val : α → M} {rows : List α} {ks : List κ} {k : κ}

omit [AddCommMonoid M] in
theorem keys_groupBy (key : α → κ) (rows : List α) :
    (groupBy key rows).map (·.1) = (rows.map key).dedup := by
  rw [groupBy, List.map_map]
  exact List.map_id _

/-- Among distinct keys one row adds to the sum of its own key. -/
theorem sum_single (hks : ks.Nodup) (hk : k ∈ ks) (m : M) :
    (ks.map fun k' => if k = k' then m else 0).sum = m := by
  induction ks with
  | nil => cases hk
  | cons k' ks ih =>
      obtain ⟨hnotmem, hnodup⟩ := List.nodup_cons.1 hks
      rw [List.map_cons, List.sum_cons]
      rcases List.mem_cons.1 hk with rfl | hk
      · have hzero : (ks.map fun k' => if k = k' then m else 0).sum = 0 := by
          refine List.sum_eq_zero fun x hx => ?_
          obtain ⟨k', hk', rfl⟩ := List.mem_map.1 hx
          exact if_neg fun heq => hnotmem (by rwa [heq])
        rw [if_pos rfl, hzero, add_zero]
      · have hne : k ≠ k' := fun heq => hnotmem (heq ▸ hk)
        rw [if_neg hne, zero_add, ih hnodup hk]

/-- The sums over distinct keys, among them that of every row, add up to the sum of all
rows. -/
theorem sum_keys (val : α → M) (hks : ks.Nodup) (hcover : ∀ a ∈ rows, key a ∈ ks) :
    (ks.map fun k => ((rows.filter fun a => key a = k).map val).sum).sum =
      (rows.map val).sum := by
  induction rows with
  | nil => simp
  | cons a rows ih =>
      have hcons : ∀ k, (((a :: rows).filter fun a => key a = k).map val).sum =
          (if key a = k then val a else 0) +
            ((rows.filter fun a => key a = k).map val).sum := by
        intro k
        by_cases h : key a = k <;> simp [h]
      simp only [hcons, List.sum_map_add, List.map_cons, List.sum_cons]
      rw [sum_single hks (hcover a List.mem_cons_self),
        ih fun b hb => hcover b (List.mem_cons_of_mem a hb)]

/-- The sums over distinct keys are part of the sum of all rows. -/
theorem sum_keys_le [PartialOrder M] [CanonicallyOrderedAdd M] [IsOrderedAddMonoid M]
    (key : α → κ) (val : α → M) (hks : ks.Nodup) :
    (ks.map fun k => ((rows.filter fun a => key a = k).map val).sum).sum ≤ (rows.map val).sum := by
  have hselected : ∀ k ∈ ks, rows.filter (fun a => key a = k) =
      (rows.filter fun a => key a ∈ ks).filter fun a => key a = k := by
    intro k hk
    rw [List.filter_filter]
    refine List.filter_congr fun a _ => ?_
    by_cases h : key a = k
    · simp [h, hk]
    · simp [h]
  have hcover : ∀ a ∈ rows.filter (fun a => key a ∈ ks), key a ∈ ks := by
    intro a ha
    exact of_decide_eq_true (List.mem_filter.1 ha).2
  have hsum := sum_keys val hks hcover
  rw [List.map_congr_left fun k hk => congrArg (fun l => (l.map val).sum) (hselected k hk), hsum]
  exact (List.filter_sublist.map val).sum_le_sum fun _ _ => zero_le

theorem sum_groupBy (key : α → κ) (val : α → M) (rows : List α) :
    ((groupBy key rows).map fun g => (g.2.map val).sum).sum = (rows.map val).sum := by
  rw [groupBy, List.map_map]
  exact sum_keys val (List.nodup_dedup _) fun a ha => List.mem_dedup.2 (List.mem_map_of_mem ha)

/-! ### Reading a map -/

theorem mapGet_of_mem {entries : List (κ × β)} {b : β} (hkeys : (entries.map (·.1)).Nodup)
    (h : (k, b) ∈ entries) : mapGet entries k = some b := by
  rw [mapGet]
  cases hfind : entries.reverse.find? fun e => e.1 = k with
  | none =>
      have hnone := List.find?_eq_none.1 hfind _ (List.mem_reverse.2 h)
      simp at hnone
  | some e =>
      have hkey : e.1 = k := by simpa using List.find?_some hfind
      have hmem := List.mem_reverse.1 (List.mem_of_find?_eq_some hfind)
      obtain rfl := List.inj_on_of_nodup_map hkeys hmem h hkey
      rfl

theorem mapGet_eq_none {entries : List (κ × β)} (h : k ∉ entries.map (·.1)) :
    mapGet entries k = none := by
  rw [mapGet, Option.map_eq_none_iff, List.find?_eq_none]
  intro e he heq
  exact h (of_decide_eq_true heq ▸ List.mem_map_of_mem (List.mem_reverse.1 he))

/-- A map from the texts of the keys to a value of each group answers with the value of
the rows with a key, and is silent when there is no such row. -/
theorem mapGet_groupBy {κ' : Type} [DecidableEq κ'] {text : κ → κ'} {f : List α → β}
    {gs : List (κ × List α)} (hgs : gs.Perm (groupBy key rows))
    (htext : ∀ a ∈ rows, ∀ k', (∃ b ∈ rows, key b = k') ∨ k' = k → text (key a) = text k' →
      key a = k') :
    (mapGet (gs.map fun g => (text g.1, f g.2)) (text k)).getD (f []) =
      f (rows.filter fun a => key a = k) := by
  have hkeys : (gs.map (·.1)).Perm (rows.map key).dedup := keys_groupBy key rows ▸ hgs.map _
  have hmem : ∀ {k'}, k' ∈ gs.map (·.1) ↔ ∃ a ∈ rows, key a = k' := by
    intro k'
    rw [hkeys.mem_iff, List.mem_dedup, List.mem_map]
  have hentries : (gs.map fun g => (text g.1, f g.2)).map (·.1) = (gs.map (·.1)).map text := by
    rw [List.map_map, List.map_map]
    rfl
  have hnodup : ((gs.map fun g => (text g.1, f g.2)).map (·.1)).Nodup := by
    rw [hentries]
    refine List.Nodup.map_on ?_ (hkeys.nodup_iff.2 (List.nodup_dedup _))
    intro k₁ h₁ k₂ h₂ heq
    obtain ⟨a, ha, rfl⟩ := hmem.1 h₁
    exact htext a ha k₂ (.inl (hmem.1 h₂)) heq
  by_cases hk : ∃ a ∈ rows, key a = k
  · have hgroup : (k, rows.filter fun a => key a = k) ∈ gs := by
      rw [hgs.mem_iff, groupBy]
      exact List.mem_map.2 ⟨k, List.mem_dedup.2 (List.mem_map.2 hk), rfl⟩
    rw [mapGet_of_mem hnodup (List.mem_map_of_mem hgroup), Option.getD_some]
  · have hempty : rows.filter (fun a => key a = k) = [] := by
      rw [List.filter_eq_nil_iff]
      exact fun a ha heq => hk ⟨a, ha, of_decide_eq_true heq⟩
    have hmissing : text k ∉ (gs.map fun g => (text g.1, f g.2)).map (·.1) := by
      rw [hentries, List.mem_map]
      rintro ⟨k', hk', heq⟩
      obtain ⟨a, ha, rfl⟩ := hmem.1 hk'
      exact hk ⟨a, ha, htext a ha k (.inr rfl) heq⟩
    rw [mapGet_eq_none hmissing, hempty, Option.getD_none]

end Table

end Shortlink

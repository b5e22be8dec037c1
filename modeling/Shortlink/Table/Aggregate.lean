import Shortlink.Table.Basic
import Mathlib.Algebra.Order.Group.Nat
import Mathlib.Algebra.Order.Ring.Nat

/-!
# Counters in a table

`upsert key k new f` is the statement `INSERT … ON CONFLICT (key) DO UPDATE`:
the row with the key `k` is updated by `f`, and `new` is inserted when there is
none. `sumWhere key q val` is `SELECT SUM(val) … WHERE q(key)`. A statement that
adds `n` to the counter of the row `k` adds `n` to exactly the sums that select
`k`.
-/

namespace Shortlink

namespace Table

variable {α κ : Type} [DecidableEq κ]

/-- Insert `new` or, when there is a row with the key `k`, update it by `f`. -/
def upsert (key : α → κ) (k : κ) (new : α) (f : α → α) (rows : List α) :
    List α :=
  if k ∈ rows.map key then updateWhere (fun a => key a = k) f rows
  else rows ++ [new]

/-- The sum of `val` over the rows whose key `q` selects. -/
def sumWhere (key : α → κ) (q : κ → Bool) (val : α → ℕ) (rows : List α) : ℕ :=
  ((rows.filter fun a => q (key a)).map val).sum

variable {key : α → κ} {k : κ} {q : κ → Bool} {val : α → ℕ} {new : α}
  {f : α → α} {rows : List α}

omit [DecidableEq κ] in
@[simp] theorem sumWhere_nil : sumWhere key q val [] = 0 := rfl

omit [DecidableEq κ] in
theorem sumWhere_cons (a : α) :
    sumWhere key q val (a :: rows) =
      (if q (key a) then val a else 0) + sumWhere key q val rows := by
  cases h : q (key a) with
  | false => simp [sumWhere, h]
  | true => simp [sumWhere, h]

omit [DecidableEq κ] in
theorem sumWhere_append (rows' : List α) :
    sumWhere key q val (rows ++ rows') =
      sumWhere key q val rows + sumWhere key q val rows' := by
  simp [sumWhere]

theorem updateWhere_key_of_not_mem (h : k ∉ rows.map key) :
    updateWhere (fun a => key a = k) f rows = rows := by
  refine (List.map_congr_left fun a ha => ?_).trans (List.map_id rows)
  have hne : key a ≠ k := fun heq => h (heq ▸ List.mem_map_of_mem ha)
  simp [hne]

theorem map_key_updateWhere (hkey : ∀ a, key (f a) = key a) :
    (updateWhere (fun a => key a = k) f rows).map key = rows.map key :=
  map_updateWhere fun a _ => hkey a

/-- An update that adds `n` to the counter of the row `k`. -/
theorem sumWhere_updateWhere {n : ℕ} (hrows : (rows.map key).Nodup)
    (hk : k ∈ rows.map key) (hkey : ∀ a, key (f a) = key a)
    (hval : ∀ a, val (f a) = val a + n) :
    sumWhere key q val (updateWhere (fun a => key a = k) f rows) =
      sumWhere key q val rows + if q k then n else 0 := by
  induction rows with
  | nil => cases hk
  | cons a rows ih =>
      obtain ⟨hnotmem, hnodup⟩ := List.nodup_cons.1 hrows
      have hcons : updateWhere (fun a => key a = k) f (a :: rows) =
          (if key a = k then f a else a) ::
            updateWhere (fun a => key a = k) f rows := by
        simp [updateWhere]
      rw [hcons, sumWhere_cons, sumWhere_cons]
      by_cases ha : key a = k
      · subst ha
        rw [updateWhere_key_of_not_mem hnotmem, if_pos rfl, hkey, hval]
        split <;> omega
      · have hmem : k ∈ rows.map key :=
          (List.mem_cons.1 hk).resolve_left (Ne.symm ha)
        rw [if_neg ha, ih hnodup hmem]
        omega

theorem sumWhere_updateWhere_of_eq (hkey : ∀ a, key (f a) = key a)
    (hval : ∀ a, val (f a) = val a) :
    sumWhere key q val (updateWhere (fun a => key a = k) f rows) =
      sumWhere key q val rows := by
  induction rows with
  | nil => rfl
  | cons a rows ih =>
      have hcons : updateWhere (fun a => key a = k) f (a :: rows) =
          (if key a = k then f a else a) ::
            updateWhere (fun a => key a = k) f rows := by
        simp [updateWhere]
      rw [hcons, sumWhere_cons, sumWhere_cons, ih]
      split <;> simp only [hkey, hval]

/-- An upsert that adds `n` to the counter of the row `k`. -/
theorem sumWhere_upsert {n : ℕ} (hrows : (rows.map key).Nodup)
    (hkey : ∀ a, key (f a) = key a) (hval : ∀ a, val (f a) = val a + n)
    (hnew : key new = k) (hnewVal : val new = n) :
    sumWhere key q val (upsert key k new f rows) =
      sumWhere key q val rows + if q k then n else 0 := by
  rw [upsert]
  split
  · rename_i hk
    exact sumWhere_updateWhere hrows hk hkey hval
  · rw [sumWhere_append, sumWhere_cons, hnew, hnewVal, sumWhere_nil, Nat.add_zero]

theorem mem_map_key_upsert (hkey : ∀ a, key (f a) = key a) (hnew : key new = k) :
    k ∈ (upsert key k new f rows).map key := by
  rw [upsert]
  split
  · rename_i hk
    rwa [map_key_updateWhere hkey]
  · simp [hnew]

theorem key_of_mem_upsert (hkey : ∀ a, key (f a) = key a) (hnew : key new = k) {a : α}
    (ha : a ∈ upsert key k new f rows) : key a = k ∨ key a ∈ rows.map key := by
  rw [upsert] at ha
  split at ha
  · have hkeys : (updateWhere (fun a => key a = k) f rows).map key = rows.map key :=
      map_key_updateWhere hkey
    exact .inr (hkeys ▸ List.mem_map_of_mem ha)
  · rcases List.mem_append.1 ha with ha | ha
    · exact .inr (List.mem_map_of_mem ha)
    · obtain rfl := List.mem_singleton.1 ha
      exact .inl hnew

theorem nodup_map_key_upsert (hrows : (rows.map key).Nodup)
    (hkey : ∀ a, key (f a) = key a) (hnew : key new = k) :
    ((upsert key k new f rows).map key).Nodup := by
  rw [upsert]
  split
  · rwa [map_key_updateWhere hkey]
  · rename_i hk
    rw [List.map_append, List.map_singleton, hnew]
    exact List.nodup_append.2 ⟨hrows, List.nodup_singleton k,
      fun a ha b hb => by
        obtain rfl := List.mem_singleton.1 hb
        exact fun heq => hk (heq ▸ ha)⟩

/-- An upsert leaves the rows with other keys alone. -/
theorem filter_upsert_of_ne (hkey : ∀ a, key (f a) = key a) (hnew : key new = k)
    (hq : q k = false) :
    (upsert key k new f rows).filter (fun a => q (key a)) =
      rows.filter fun a => q (key a) := by
  rw [upsert]
  split
  · refine filter_updateWhere fun a _ ha => ?_
    obtain rfl : key a = k := by simpa using ha
    exact ⟨hq, (congrArg q (hkey a)).trans hq⟩
  · simp [List.filter_append, hnew, hq]

theorem sumWhere_key (hrows : (rows.map key).Nodup) {a : α} (ha : a ∈ rows) :
    sumWhere key (fun k' => k' = key a) val rows = val a := by
  induction rows with
  | nil => cases ha
  | cons b rows ih =>
      obtain ⟨hnotmem, hnodup⟩ := List.nodup_cons.1 hrows
      rw [sumWhere_cons]
      rcases List.mem_cons.1 ha with rfl | ha
      · have hzero : sumWhere key (fun k' => k' = key a) val rows = 0 := by
          rw [sumWhere, List.filter_eq_nil_iff.2, List.map_nil, List.sum_nil]
          intro b hb heq
          exact hnotmem (of_decide_eq_true heq ▸ List.mem_map_of_mem hb)
        simp [hzero]
      · have hne : key b ≠ key a :=
          fun heq => hnotmem (heq ▸ List.mem_map_of_mem ha)
        rw [ih hnodup ha]
        simp [hne]

end Table

end Shortlink

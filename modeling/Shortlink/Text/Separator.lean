import Mathlib.Data.List.Basic

/-!
# Fields between separators

What a text that joins fields by a separator says about the fields.
-/

namespace Shortlink

namespace Text

variable {α : Type} {x c : α}

theorem mem_intercalate {fields : List (List α)} (h : c ∈ [x].intercalate fields) :
    c = x ∨ ∃ field ∈ fields, c ∈ field := by
  induction fields with
  | nil => simp at h
  | cons field fields ih =>
      cases fields with
      | nil =>
          rw [List.intercalate_singleton] at h
          exact .inr ⟨field, List.mem_cons_self, h⟩
      | cons next fields =>
          rw [List.intercalate_cons_cons, List.mem_append, List.mem_append,
            List.mem_singleton] at h
          rcases h with (hfield | hsep) | hrest
          · exact .inr ⟨field, List.mem_cons_self, hfield⟩
          · exact .inl hsep
          · obtain heq | ⟨f, hf, hc⟩ := ih hrest
            · exact .inl heq
            · exact .inr ⟨f, List.mem_cons_of_mem _ hf, hc⟩

/-- The first field ends at the first separator, whatever stands behind it. -/
theorem append_separator_inj {l₁ l₂ r₁ r₂ : List α} (h₁ : x ∉ l₁) (h₂ : x ∉ l₂) :
    l₁ ++ x :: r₁ = l₂ ++ x :: r₂ ↔ l₁ = l₂ ∧ r₁ = r₂ := by
  induction l₁ generalizing l₂ with
  | nil =>
      cases l₂ with
      | nil => simp
      | cons c l₂ =>
          have hne : x ≠ c := fun heq => h₂ (heq ▸ List.mem_cons_self)
          simp [hne]
  | cons c l₁ ih =>
      have hne : c ≠ x := fun heq => h₁ (heq ▸ List.mem_cons_self)
      cases l₂ with
      | nil => simp [hne]
      | cons d l₂ =>
          have ih := ih (fun h => h₁ (List.mem_cons_of_mem _ h))
            (fun h => h₂ (List.mem_cons_of_mem _ h))
          simp only [List.cons_append, List.cons.injEq, ih, and_assoc]

/-- A prefix without the separator lies in the first field. -/
theorem prefix_append_separator_iff {xs l r : List α} (h : x ∉ xs) :
    xs <+: l ++ x :: r ↔ xs <+: l := by
  constructor
  · intro hprefix
    obtain hl | ⟨t, rfl⟩ := List.prefix_or_prefix_of_prefix hprefix (List.prefix_append l _)
    · exact hl
    · cases t with
      | nil => simp
      | cons c t =>
          obtain ⟨rfl, -⟩ := List.cons_prefix_cons.1 ((List.prefix_append_right_inj l).1 hprefix)
          exact absurd (List.mem_append_right l List.mem_cons_self) h
  · exact fun hprefix => hprefix.trans (List.prefix_append l _)

end Text

end Shortlink

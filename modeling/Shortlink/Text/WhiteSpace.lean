import Mathlib.Data.List.Basic

/-!
# White space

What `\s` of a regular expression matches and `String.prototype.trim` removes.
-/

namespace Shortlink

namespace Text

/-- The characters that `\s` matches and `trim` removes. -/
def isWhiteSpace (c : Char) : Bool :=
  c.val ∈ [0x9, 0xa, 0xb, 0xc, 0xd, 0x20, 0xa0, 0x1680, 0x2028, 0x2029, 0x202f,
    0x205f, 0x3000, 0xfeff] || 0x2000 ≤ c.val && c.val ≤ 0x200a

def trim (raw : List Char) : List Char :=
  ((raw.dropWhile isWhiteSpace).reverse.dropWhile isWhiteSpace).reverse

/-- A text without white space is left as it is. -/
theorem trim_eq_self {raw : List Char} (h : ∀ c ∈ raw, isWhiteSpace c = false) :
    trim raw = raw := by
  have hdrop : ∀ l : List Char, (∀ c ∈ l, isWhiteSpace c = false) →
      l.dropWhile isWhiteSpace = l := by
    intro l hl
    cases l with
    | nil => rfl
    | cons c l => simp [hl c List.mem_cons_self]
  have hreverse : ∀ c ∈ raw.reverse, isWhiteSpace c = false := fun c hc =>
    h c (List.mem_reverse.1 hc)
  rw [trim, hdrop raw h, hdrop _ hreverse, List.reverse_reverse]

section

variable {α : Type} {p : α → Bool} {c : α} {l part text : List α}

/-- What begins with a character that is kept is found behind the dropped ones. -/
theorem infix_dropWhile_iff (hc : p c = false) :
    c :: part <:+: text.dropWhile p ↔ c :: part <:+: text := by
  refine ⟨fun h => h.trans (List.dropWhile_suffix p).isInfix, fun h => ?_⟩
  induction text with
  | nil => exact h
  | cons a text ih =>
      cases ha : p a with
      | false => rwa [List.dropWhile_cons_of_neg (by simp [ha])]
      | true =>
          rw [List.dropWhile_cons_of_pos ha]
          rcases List.infix_cons_iff.1 h with hprefix | hinfix
          · obtain rfl := (List.cons_prefix_cons.1 hprefix).1
            rw [hc] at ha
            cases ha
          · exact ih hinfix

/-- What has no white space at its ends is found in the trimmed text. -/
theorem infix_trim_iff {c d : Char} {l part text : List Char} (hhead : part = c :: l)
    (hlast : part.reverse.head? = some d) (hc : isWhiteSpace c = false)
    (hd : isWhiteSpace d = false) : part <:+: trim text ↔ part <:+: text := by
  obtain ⟨r, hr⟩ := List.head?_eq_some_iff.1 hlast
  have hreverse : part <:+: trim text ↔
      part.reverse <:+: (text.dropWhile isWhiteSpace).reverse.dropWhile isWhiteSpace := by
    rw [trim, ← List.reverse_infix, List.reverse_reverse]
  rw [hreverse, hr, infix_dropWhile_iff hd, ← hr, List.reverse_infix, hhead,
    infix_dropWhile_iff hc]

end

end Text

end Shortlink

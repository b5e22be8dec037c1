import Shortlink.Net.Address
import Shortlink.Text.Separator

/-!
# The texts of Internet addresses

`IPv4.text` is the one spelling of an IPv4 address, and an `IPv6Text` is a spelling of an
IPv6 address: groups of one to four hexadecimal digits between colons, at most one run of
groups left out as `::`, the last two groups possibly in the dotted form of an IPv4
address, and possibly a zone behind a percent sign.
-/

namespace Shortlink

namespace Net

open Shortlink.Text

/-! ### IPv4 -/

/-- A decimal numeral without leading zeros. -/
def decimal (n : Fin 256) : List Char := Nat.toDigits 10 n

def IPv4.fields (v : IPv4) : List (List Char) :=
  [decimal v.a, decimal v.b, decimal v.c, decimal v.d]

def IPv4.text (v : IPv4) : List Char := ['.'].intercalate v.fields

/-! ### Groups -/

def hexDigit (c : Char) : ℕ :=
  if c.isDigit then c.toNat - 48 else if c.isLower then c.toNat - 87 else c.toNat - 55

def hexValue (t : List Char) : ℕ := t.foldl (fun n c => n * 16 + hexDigit c) 0

/-- One to four hexadecimal digits. -/
def isGroup (t : List Char) : Bool :=
  1 ≤ t.length && t.length ≤ 4 && t.all Char.isHexDigit

/-- A group of sixteen bits. -/
structure Hextet where
  text : List Char
  form : isGroup text = true

def Hextet.value (g : Hextet) : ℕ := hexValue g.text

/-- A list of groups, the last two of which may have the dotted form. -/
structure Groups where
  hex : List Hextet
  dotted : Option IPv4

namespace Groups

def fields (t : Groups) : List (List Char) :=
  t.hex.map Hextet.text ++ (t.dotted.map IPv4.text).toList

def values (t : Groups) : List ℕ :=
  t.hex.map Hextet.value ++ t.dotted.elim [] fun v => [v.high, v.low]

end Groups

/-! ### IPv6 -/

/-- All groups, or those before and behind `::`, which stands for one group at least. -/
inductive Spelling where
  | full (groups : Groups) (count : groups.values.length = 8)
  | compressed (left : List Hextet) (right : Groups)
      (count : left.length + right.values.length ≤ 7)

/-- Nothing before or behind `::` is an empty field. -/
def orEmpty (fields : List (List Char)) : List (List Char) :=
  if fields = [] then [[]] else fields

namespace Spelling

/-- The fields between the colons. -/
def fields : Spelling → List (List Char)
  | .full groups _ => groups.fields
  | .compressed left right _ => orEmpty (left.map Hextet.text) ++ [] :: orEmpty right.fields

def values : Spelling → List ℕ
  | .full groups _ => groups.values
  | .compressed left right _ =>
      left.map Hextet.value ++
        (List.replicate (8 - (left.length + right.values.length)) 0 ++ right.values)

def text (p : Spelling) : List Char := [':'].intercalate p.fields

end Spelling

/-- The class `[0-9a-zA-Z-.:]`. -/
def isZoneChar (c : Char) : Bool := c.isAlphanum || c == '-' || c == '.' || c == ':'

/-- A spelling and a zone, which is empty when there is none. -/
structure IPv6Text where
  spelling : Spelling
  zone : List Char
  form : zone.all isZoneChar = true

def IPv6Text.text (p : IPv6Text) : List Char :=
  p.spelling.text ++ if p.zone = [] then [] else '%' :: p.zone

/-! ### Characters -/

theorem isDigit_of_mem_decimal {n : Fin 256} {c : Char} (h : c ∈ decimal n) :
    c.isDigit = true :=
  Nat.isDigit_of_mem_toDigits (by decide) (by decide) h

theorem IPv4.no_dot (v : IPv4) : ∀ field ∈ v.fields, '.' ∉ field := by
  have hdecimal : ∀ n : Fin 256, '.' ∉ decimal n := fun n h =>
    absurd (isDigit_of_mem_decimal h) (by decide)
  simp [IPv4.fields, hdecimal]

theorem IPv4.splitOn_text (v : IPv4) : v.text.splitOn '.' = v.fields :=
  List.splitOn_intercalate '.' v.no_dot (List.cons_ne_nil _ _)

theorem IPv4.char_of_mem_text {v : IPv4} {c : Char} (h : c ∈ v.text) :
    c = '.' ∨ c.isDigit = true := by
  rcases mem_intercalate h with h | ⟨field, hfield, hc⟩
  · exact .inl h
  · simp only [IPv4.fields, List.mem_cons, List.not_mem_nil, or_false] at hfield
    rcases hfield with rfl | rfl | rfl | rfl
    all_goals exact .inr (isDigit_of_mem_decimal hc)

theorem IPv4.dot_mem_text (v : IPv4) : '.' ∈ v.text := by
  rw [IPv4.text, IPv4.fields, List.intercalate_cons_cons]
  simp

theorem IPv4.text_ne_nil (v : IPv4) : v.text ≠ [] := List.ne_nil_of_mem v.dot_mem_text

namespace Hextet

variable (g : Hextet)

theorem length_pos : 1 ≤ g.text.length := by
  have h := g.form
  simp only [isGroup, Bool.and_eq_true, decide_eq_true_eq] at h
  exact h.1.1

theorem length_le : g.text.length ≤ 4 := by
  have h := g.form
  simp only [isGroup, Bool.and_eq_true, decide_eq_true_eq] at h
  exact h.1.2

theorem isHexDigit_of_mem {c : Char} (hc : c ∈ g.text) : c.isHexDigit = true := by
  have h := g.form
  simp only [isGroup, Bool.and_eq_true] at h
  exact List.all_eq_true.1 h.2 c hc

theorem text_ne_nil : g.text ≠ [] := List.ne_nil_of_length_pos g.length_pos

end Hextet

theorem isGroup_text (v : IPv4) : isGroup v.text = false := by
  refine Bool.eq_false_iff.2 fun h => ?_
  simp only [isGroup, Bool.and_eq_true] at h
  exact absurd (List.all_eq_true.1 h.2 _ v.dot_mem_text) (by decide)

namespace Groups

variable {t : Groups} {field : List Char}

theorem mem_fields_iff :
    field ∈ t.fields ↔ (∃ g ∈ t.hex, g.text = field) ∨ ∃ v ∈ t.dotted, v.text = field := by
  simp [fields]

theorem ne_nil_of_mem (h : field ∈ t.fields) : field ≠ [] := by
  rcases mem_fields_iff.1 h with ⟨g, -, rfl⟩ | ⟨v, -, rfl⟩
  · exact g.text_ne_nil
  · exact v.text_ne_nil

/-- The fields consist of hexadecimal digits and dots. -/
theorem char_of_mem (h : field ∈ t.fields) {c : Char} (hc : c ∈ field) :
    c = '.' ∨ c.isHexDigit = true := by
  rcases mem_fields_iff.1 h with ⟨g, -, rfl⟩ | ⟨v, -, rfl⟩
  · exact .inr (g.isHexDigit_of_mem hc)
  · exact (IPv4.char_of_mem_text hc).imp_right fun hdigit => by
      simp [Char.isHexDigit, hdigit]

theorem values_eq_nil (h : t.fields = []) : t.values = [] := by
  obtain ⟨hex, dotted⟩ := t
  simp only [fields, List.append_eq_nil_iff, List.map_eq_nil_iff, Option.toList_eq_nil_iff,
    Option.map_eq_none_iff] at h
  obtain ⟨rfl, rfl⟩ := h
  rfl

end Groups

theorem mem_orEmpty {fields : List (List Char)} {field : List Char} (h : field ∈ orEmpty fields) :
    field = [] ∨ field ∈ fields := by
  rw [orEmpty] at h
  split at h
  · exact .inl (List.mem_singleton.1 h)
  · exact .inr h

namespace Spelling

theorem char_of_mem {p : Spelling} {field : List Char} (h : field ∈ p.fields) {c : Char}
    (hc : c ∈ field) : c = '.' ∨ c.isHexDigit = true := by
  cases p with
  | full groups count => exact Groups.char_of_mem h hc
  | compressed left right count =>
      simp only [fields, List.mem_append, List.mem_cons] at h
      rcases h with h | rfl | h
      · rcases mem_orEmpty h with rfl | h
        · cases hc
        · obtain ⟨g, -, rfl⟩ := List.mem_map.1 h
          exact .inr (g.isHexDigit_of_mem hc)
      · cases hc
      · rcases mem_orEmpty h with rfl | h
        · cases hc
        · exact Groups.char_of_mem h hc

theorem no_colon (p : Spelling) : ∀ field ∈ p.fields, ':' ∉ field := by
  intro field hfield hmem
  rcases char_of_mem hfield hmem with h | h
  · exact absurd h (by decide)
  · exact absurd h (by decide)

theorem fields_ne_nil (p : Spelling) : p.fields ≠ [] := by
  cases p with
  | full groups count =>
      intro h
      rw [Groups.values_eq_nil h] at count
      cases count
  | compressed left right count => simp [fields]

theorem splitOn_text (p : Spelling) : p.text.splitOn ':' = p.fields :=
  List.splitOn_intercalate ':' p.no_colon p.fields_ne_nil

theorem no_percent (p : Spelling) : '%' ∉ p.text := by
  intro h
  rcases mem_intercalate h with h | ⟨field, hfield, hc⟩
  · exact absurd h (by decide)
  · rcases char_of_mem hfield hc with h | h
    · exact absurd h (by decide)
    · exact absurd h (by decide)

end Spelling

/-! ### The address of a spelling -/

def hexDigits : List Char := "0123456789abcdefABCDEF".toList

theorem mem_hexDigits {c : Char} (h : c.isHexDigit = true) : c ∈ hexDigits := by
  have hlt : c.toNat < 103 := by
    simp only [Char.isHexDigit, Char.isDigit, Bool.or_eq_true, Bool.and_eq_true,
      decide_eq_true_eq, ge_iff_le, UInt32.le_iff_toNat_le] at h
    change c.val.toNat < 103
    rcases h with (⟨-, h⟩ | ⟨-, h⟩) | ⟨-, h⟩
    · exact Nat.lt_of_le_of_lt h (by decide)
    · exact Nat.lt_of_le_of_lt h (by decide)
    · exact Nat.lt_of_le_of_lt h (by decide)
  have hall : ∀ n < 103, (Char.ofNat n).isHexDigit = true → Char.ofNat n ∈ hexDigits := by
    decide +kernel
  rw [← Char.ofNat_toNat c] at h ⊢
  exact hall c.toNat hlt h

theorem hexDigit_lt {c : Char} (h : c.isHexDigit = true) : hexDigit c < 16 := by
  have hall : hexDigits.all (fun c => decide (hexDigit c < 16)) = true := by decide
  exact of_decide_eq_true (List.all_eq_true.1 hall c (mem_hexDigits h))

theorem hexValue_lt {t : List Char} (h : ∀ c ∈ t, c.isHexDigit = true) :
    hexValue t < 16 ^ t.length := by
  have hfold : ∀ n, t.foldl (fun n c => n * 16 + hexDigit c) n < (n + 1) * 16 ^ t.length := by
    induction t with
    | nil => simp
    | cons c t ih =>
        intro n
        have hc := hexDigit_lt (h c List.mem_cons_self)
        have hrest := ih (fun d hd => h d (List.mem_cons_of_mem _ hd)) (n * 16 + hexDigit c)
        rw [List.foldl_cons, List.length_cons, Nat.pow_succ]
        calc _ < (n * 16 + hexDigit c + 1) * 16 ^ t.length := hrest
          _ ≤ ((n + 1) * 16) * 16 ^ t.length := Nat.mul_le_mul_right _ (by omega)
          _ = (n + 1) * (16 ^ t.length * 16) := by rw [Nat.mul_assoc, Nat.mul_comm 16]
  simpa [hexValue] using hfold 0

theorem Hextet.value_lt (g : Hextet) : g.value < 2 ^ 16 :=
  calc g.value < 16 ^ g.text.length := hexValue_lt fun _ => g.isHexDigit_of_mem
    _ ≤ 16 ^ 4 := Nat.pow_le_pow_right (by decide) g.length_le
    _ = 2 ^ 16 := by decide

theorem Groups.values_lt {t : Groups} : ∀ n ∈ t.values, n < 2 ^ 16 := by
  intro n hn
  rcases List.mem_append.1 hn with hn | hn
  · obtain ⟨g, -, rfl⟩ := List.mem_map.1 hn
    exact g.value_lt
  · cases hdotted : t.dotted with
    | none => simp [hdotted] at hn
    | some v =>
        simp only [hdotted, Option.elim_some, List.mem_cons, List.not_mem_nil, or_false] at hn
        rcases hn with rfl | rfl
        · exact v.high_lt
        · exact v.low_lt

namespace Spelling

theorem length_values (p : Spelling) : p.values.length = 8 := by
  cases p with
  | full groups count => exact count
  | compressed left right count =>
      simp only [values, List.length_append, List.length_map, List.length_replicate]
      omega

theorem values_lt (p : Spelling) : ∀ n ∈ p.values, n < 2 ^ 16 := by
  cases p with
  | full groups count => exact Groups.values_lt
  | compressed left right count =>
      intro n hn
      simp only [values, List.mem_append, List.mem_map, List.mem_replicate] at hn
      rcases hn with ⟨g, -, rfl⟩ | ⟨-, rfl⟩ | hn
      · exact g.value_lt
      · exact Nat.two_pow_pos 16
      · exact Groups.values_lt n hn

/-- The address that is spelled. -/
def address (p : Spelling) : IPv6 := ⟨p.values, p.length_values, p.values_lt⟩

end Spelling

end Net

end Shortlink

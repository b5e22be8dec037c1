import Shortlink.Net.Reading
import Shortlink.Calendar.Decimal
import Shortlink.Text.WhiteSpace

/-!
# Private addresses

`local-country-resolver.service.ts`: an address is looked up in the country database
unless it is private. IPv4 addresses are classified by their octets, IPv6 addresses by the
beginning of their text, although an address has many spellings. `Misread` lists the
spellings of which the text says something else than the address.
-/

namespace Shortlink

namespace LinkStatistics

open Shortlink.Net Shortlink.Text

/-! ### The resolver -/

/-- `net.isIPv4`. -/
def isIPv4 (ip : List Char) : Bool := (parseIPv4 ip).isSome

/-- `net.isIPv6`. -/
def isIPv6 (ip : List Char) : Bool := (parseIPv6 ip).isSome

/-- `net.isIP`. -/
def isIP (ip : List Char) : ℕ := if isIPv4 ip then 4 else if isIPv6 ip then 6 else 0

/-- An octet that is missing compares like `undefined`. -/
def isPrivateIPv4 (ip : List Char) : Bool :=
  let octets := (ip.splitOn '.').map Calendar.number
  let a := octets[0]?
  let b := octets[1]?
  if a = some 0 ∨ a = some 10 ∨ a = some 127 then true
  else if a = some 169 ∧ b = some 254 then true
  else if a = some 172 ∧ b.any (fun b => 16 ≤ b && b ≤ 31) then true
  else if a = some 192 ∧ b = some 168 then true
  else if a = some 100 ∧ b.any (fun b => 64 ≤ b && b ≤ 127) then true
  else false

/-- `toLowerCase` meets the text of an IPv6 address only, which is ASCII. -/
def isPrivateIPv6 (ip : List Char) : Bool :=
  let lower := ip.map Char.toLower
  if lower = "::1".toList ∨ lower = "::".toList then true
  else if "fc".toList.isPrefixOf lower || "fd".toList.isPrefixOf lower then true
  else if "fe80:".toList.isPrefixOf lower then true
  else if "::ffff:".toList.isPrefixOf lower && isIPv4 (lower.drop "::ffff:".toList.length) then
    isPrivateIPv4 (lower.drop "::ffff:".toList.length)
  else false

def isPrivateIp (ip : List Char) : Bool :=
  if isIPv4 ip then isPrivateIPv4 ip else if isIPv6 ip then isPrivateIPv6 ip else true

def isUsablePublicIp (ip : List Char) : Bool :=
  if (trim ip).length = 0 then false
  else if isIP (trim ip) = 0 then false
  else !isPrivateIp (trim ip)

def UNKNOWN_COUNTRY : String := "Unknown"

/-- `LocalCountryResolver.resolve`: what the reader answers may be an error or an answer
without a code. -/
def resolve (reader : Option (List Char → Except String (Option String))) (ip : List Char) :
    String :=
  if !isUsablePublicIp ip then UNKNOWN_COUNTRY
  else
    match reader with
    | none => UNKNOWN_COUNTRY
    | some country =>
        match country ip with
        | .ok (some isoCode) => if isoCode.length ≠ 2 then UNKNOWN_COUNTRY else isoCode
        | .ok none => UNKNOWN_COUNTRY
        | .error _ => UNKNOWN_COUNTRY

/-! ### The addresses -/

def privateNets : List (IPv4 × ℕ) :=
  [(⟨0, 0, 0, 0⟩, 8), (⟨10, 0, 0, 0⟩, 8), (⟨127, 0, 0, 0⟩, 8), (⟨169, 254, 0, 0⟩, 16),
    (⟨172, 16, 0, 0⟩, 12), (⟨192, 168, 0, 0⟩, 16), (⟨100, 64, 0, 0⟩, 10)]

def IsPrivate4 (v : IPv4) : Prop := ∃ net ∈ privateNets, net.1.InNet net.2 v

instance (v : IPv4) : Decidable (IsPrivate4 v) :=
  inferInstanceAs (Decidable (∃ net ∈ privateNets, net.1.InNet net.2 v))

/-- An IPv6 address whose first and last group are given. -/
def between (first last : Fin 65536) : IPv6 where
  groups := [first, 0, 0, 0, 0, 0, 0, last]
  length_eq := rfl
  lt := by
    simp only [List.forall_mem_cons]
    exact ⟨first.isLt, by decide, by decide, by decide, by decide, by decide, by decide,
      last.isLt, List.forall_mem_nil _⟩

/-- The addresses `::` and `::1`, the networks `fc00::/7` and `fe80::/10`, and the mapped
form of the private IPv4 addresses. -/
def IsPrivate6 (a : IPv6) : Prop :=
  a = between 0 0 ∨ a = between 0 1 ∨ (between 0xfc00 0).InNet 7 a ∨
    (between 0xfe80 0).InNet 10 a ∨ ∃ v, IsPrivate4 v ∧ a = v.mapped

/-- The text of an address. -/
inductive AddressText where
  | v4 (v : IPv4)
  | v6 (p : IPv6Text)

namespace AddressText

def text : AddressText → List Char
  | .v4 v => v.text
  | .v6 p => p.text

/-- The address that the text denotes is private. -/
def IsPrivate : AddressText → Prop
  | .v4 v => IsPrivate4 v
  | .v6 p => IsPrivate6 p.spelling.address

end AddressText

/-! ### IPv4 -/

theorem isIPv4_iff {ip : List Char} : isIPv4 ip = true ↔ ∃ v : IPv4, ip = v.text := by
  simp only [isIPv4, Option.isSome_iff_exists, parseIPv4_eq_some_iff]

theorem isPrivate4_iff (v : IPv4) :
    IsPrivate4 v ↔ (v.a : ℕ) = 0 ∨ (v.a : ℕ) = 10 ∨ (v.a : ℕ) = 127 ∨
      (v.a : ℕ) = 169 ∧ (v.b : ℕ) = 254 ∨ (v.a : ℕ) = 172 ∧ 16 ≤ (v.b : ℕ) ∧ (v.b : ℕ) ≤ 31 ∨
      (v.a : ℕ) = 192 ∧ (v.b : ℕ) = 168 ∨
      (v.a : ℕ) = 100 ∧ 64 ≤ (v.b : ℕ) ∧ (v.b : ℕ) ≤ 127 := by
  have hnet : ∀ (a b : Fin 256) (len : ℕ), len ≤ 16 → ((⟨a, b, 0, 0⟩ : IPv4).InNet len v ↔
      (v.a * 256 + v.b : ℕ) / 2 ^ (16 - len) = (a * 256 + b : ℕ) / 2 ^ (16 - len)) :=
    fun a b len hlen => IPv4.inNet_iff hlen (by simp [IPv4.low])
  simp only [IsPrivate4, privateNets, List.exists_mem_cons_iff, List.not_mem_nil, false_and,
    exists_false, or_false]
  rw [hnet _ _ 8 (by decide), hnet _ _ 8 (by decide), hnet _ _ 8 (by decide),
    hnet _ _ 16 (by decide), hnet _ _ 12 (by decide), hnet _ _ 16 (by decide),
    hnet _ _ 10 (by decide)]
  have hb := v.b.isLt
  omega

theorem isPrivateIPv4_text (v : IPv4) : isPrivateIPv4 v.text = decide (IsPrivate4 v) := by
  have hnumber : ∀ n : Fin 256, Calendar.number (decimal n) = n := fun n =>
    Nat.ofDigitChars_ten_toDigits
  rw [Bool.eq_iff_iff, decide_eq_true_iff, isPrivate4_iff, isPrivateIPv4, v.splitOn_text]
  simp only [IPv4.fields, List.map_cons, hnumber]
  simp [or_assoc]

/-! ### The beginning of an IPv6 text -/

/-- The text in lower case. -/
def lower (t : List Char) : List Char := t.map Char.toLower

/-- The group that a spelling begins with, when it does not begin with `::`. -/
def leading : Spelling → Option Hextet
  | .full groups _ => groups.hex.head?
  | .compressed left _ _ => left.head?

theorem isPrivateIPv6_iff {ip : List Char} :
    isPrivateIPv6 ip = true ↔ (lower ip = "::1".toList ∨ lower ip = "::".toList) ∨
      ("fc".toList <+: lower ip ∨ "fd".toList <+: lower ip) ∨ "fe80:".toList <+: lower ip ∨
      ∃ v, IsPrivate4 v ∧ lower ip = "::ffff:".toList ++ v.text := by
  have hmapped : (("::ffff:".toList.isPrefixOf (lower ip) &&
      isIPv4 ((lower ip).drop "::ffff:".toList.length)) = true ∧
        isPrivateIPv4 ((lower ip).drop "::ffff:".toList.length) = true) ↔
      ∃ v, IsPrivate4 v ∧ lower ip = "::ffff:".toList ++ v.text := by
    rw [Bool.and_eq_true, List.isPrefixOf_iff_prefix]
    constructor
    · rintro ⟨⟨⟨rest, hrest⟩, hv⟩, hprivate⟩
      rw [← hrest, List.drop_left] at hv hprivate
      obtain ⟨v, rfl⟩ := isIPv4_iff.1 hv
      rw [isPrivateIPv4_text] at hprivate
      exact ⟨v, of_decide_eq_true hprivate, hrest.symm⟩
    · rintro ⟨v, hv, hlower⟩
      rw [hlower, List.drop_left, isPrivateIPv4_text]
      exact ⟨⟨⟨v.text, rfl⟩, isIPv4_iff.2 ⟨v, rfl⟩⟩, decide_eq_true hv⟩
  rw [← hmapped, isPrivateIPv6]
  simp only [← List.isPrefixOf_iff_prefix, lower]
  split_ifs with h₁ h₂ h₃ h₄
  · simp only [h₁, true_or]
  · rw [Bool.or_eq_true] at h₂
    simp only [h₂, true_or, or_true]
  · simp only [h₃, true_or, or_true]
  · rw [Bool.or_eq_true] at h₂
    simp only [h₁, h₂, h₃, h₄, false_or, true_and, Bool.false_eq_true]
  · rw [Bool.or_eq_true] at h₂
    simp only [h₁, h₂, h₃, h₄, false_or, false_and, Bool.false_eq_true]

theorem fields_of_leading {p : Spelling} {g : Hextet} (h : leading p = some g) :
    ∃ next rest, p.fields = g.text :: next :: rest ∧ p.address.first = g.value := by
  cases p with
  | full groups count =>
      obtain ⟨hex, dotted⟩ := groups
      cases hex with
      | nil => cases h
      | cons g' hex =>
          obtain rfl : g' = g := Option.some.inj h
          cases htail : (⟨hex, dotted⟩ : Groups).fields with
          | nil =>
              have hvalues : (⟨hex, dotted⟩ : Groups).values.length = 7 := Nat.succ.inj count
              rw [Groups.values_eq_nil htail] at hvalues
              cases hvalues
          | cons next rest => exact ⟨next, rest, congrArg (g'.text :: ·) htail, rfl⟩
  | compressed left right count =>
      cases left with
      | nil => cases h
      | cons g' left =>
          obtain rfl : g' = g := Option.some.inj h
          cases left with
          | nil => exact ⟨_, _, rfl, rfl⟩
          | cons g'' left => exact ⟨_, _, rfl, rfl⟩

theorem fields_of_not_leading {p : Spelling} (h : leading p = none) :
    ∃ rest, p.fields = [] :: [] :: rest ∧ p.address.first = 0 := by
  cases p with
  | full groups count =>
      obtain ⟨hex, dotted⟩ := groups
      cases hex with
      | nil => cases dotted <;> cases count
      | cons g hex => cases h
  | compressed left right count =>
      cases left with
      | nil =>
          refine ⟨_, rfl, ?_⟩
          have hzero : 8 - (0 + right.values.length) =
              7 - right.values.length + 1 := by
            have : 0 + right.values.length ≤ 7 := count
            omega
          simp only [Spelling.address, Spelling.values, IPv6.first, List.length_nil, hzero,
            List.replicate_succ]
          rfl
      | cons g left => cases h

/-- The text of a spelling begins with its leading group or with two colons. -/
theorem text_of_leading {p : IPv6Text} {g : Hextet} (h : leading p.spelling = some g) :
    ∃ rest, p.text = g.text ++ ':' :: rest := by
  obtain ⟨next, rest, hfields, -⟩ := fields_of_leading h
  rw [IPv6Text.text, Spelling.text, hfields, List.intercalate_cons_cons, List.append_assoc,
    List.append_assoc]
  exact ⟨_, rfl⟩

theorem text_of_not_leading {p : IPv6Text} (h : leading p.spelling = none) :
    ∃ rest, p.text = ':' :: rest := by
  obtain ⟨rest, hfields, -⟩ := fields_of_not_leading h
  rw [IPv6Text.text, Spelling.text, hfields, List.intercalate_cons_cons]
  exact ⟨_, rfl⟩

/-! ### The leading group -/

/-- The text begins with `fc` or `fd`, in either case. -/
def BeginsLikeUniqueLocal (t : List Char) : Prop :=
  "fc".toList <+: lower t ∨ "fd".toList <+: lower t

theorem toLower_iff {c : Char} (h : c.isHexDigit = true) :
    (c.toLower = 'f' ↔ hexDigit c = 15) ∧ (c.toLower = 'c' ↔ hexDigit c = 12) ∧
      (c.toLower = 'd' ↔ hexDigit c = 13) ∧ (c.toLower = 'e' ↔ hexDigit c = 14) ∧
      (c.toLower = '8' ↔ hexDigit c = 8) ∧ (c.toLower = '0' ↔ hexDigit c = 0) := by
  have hall : hexDigits.all (fun c => decide
      ((c.toLower = 'f' ↔ hexDigit c = 15) ∧ (c.toLower = 'c' ↔ hexDigit c = 12) ∧
        (c.toLower = 'd' ↔ hexDigit c = 13) ∧ (c.toLower = 'e' ↔ hexDigit c = 14) ∧
        (c.toLower = '8' ↔ hexDigit c = 8) ∧ (c.toLower = '0' ↔ hexDigit c = 0))) = true := by
    decide
  exact of_decide_eq_true (List.all_eq_true.1 hall c (mem_hexDigits h))

/-- The value of a group by the number of its digits. -/
theorem leading_cases (g : Hextet) :
    (g.text.length < 4 ∧ g.value < 4096 ∧ (BeginsLikeUniqueLocal g.text → 0 < g.value) ∧
      lower g.text ≠ "fe80".toList) ∨
    (g.text.length = 4 ∧ (BeginsLikeUniqueLocal g.text ↔ g.value / 2 ^ 9 = 126) ∧
      (lower g.text = "fe80".toList ↔ g.value = 0xfe80)) := by
  obtain ⟨text, hform⟩ := g
  have hpos := (⟨text, hform⟩ : Hextet).length_pos
  have hle := (⟨text, hform⟩ : Hextet).length_le
  have hdigit : ∀ c ∈ text, c.isHexDigit = true := fun c =>
    (⟨text, hform⟩ : Hextet).isHexDigit_of_mem
  have hlt : ∀ c ∈ text, hexDigit c < 16 := fun c hc => hexDigit_lt (hdigit c hc)
  have hlower : ∀ c ∈ text, _ := fun c hc => toLower_iff (hdigit c hc)
  rcases text with _ | ⟨a, _ | ⟨b, _ | ⟨c, _ | ⟨d, _ | ⟨e, text⟩⟩⟩⟩⟩
  · cases hpos
  · simp only [List.forall_mem_cons] at hlt hlower
    simp [BeginsLikeUniqueLocal, lower, Hextet.value, hexValue]
    omega
  · simp only [List.forall_mem_cons] at hlt hlower
    simp [BeginsLikeUniqueLocal, lower, Hextet.value, hexValue, @eq_comm _ 'f', @eq_comm _ 'c',
      @eq_comm _ 'd', hlower]
    omega
  · simp only [List.forall_mem_cons] at hlt hlower
    simp [BeginsLikeUniqueLocal, lower, Hextet.value, hexValue, @eq_comm _ 'f', @eq_comm _ 'c',
      @eq_comm _ 'd', hlower]
    omega
  · simp only [List.forall_mem_cons] at hlt hlower
    simp [BeginsLikeUniqueLocal, lower, Hextet.value, hexValue, @eq_comm _ 'f', @eq_comm _ 'c',
      @eq_comm _ 'd', hlower]
    omega
  · have hle : text.length + 5 ≤ 4 := hle
    omega

/-! ### Fixed texts -/

theorem eq_of_toLower {c d : Char} (h : c.toLower = d) (hd : d.isLower = false) : c = d := by
  by_cases hupper : c.val ≥ 'A'.val ∧ c.val ≤ 'Z'.val
  · have hle : 65 ≤ c.toNat := UInt32.le_iff_toNat_le.1 hupper.1
    have hlt : c.toNat < 91 := Nat.lt_succ_of_le (UInt32.le_iff_toNat_le.1 hupper.2)
    have hall : ∀ n < 91, 65 ≤ n → (Char.ofNat n).toLower.isLower = true := by decide +kernel
    have hlower := hall c.toNat hlt hle
    rw [Char.ofNat_toNat, h, hd] at hlower
    cases hlower
  · have hsame : c.toLower = c := dif_neg hupper
    exact hsame.symm.trans h

/-- A text without letters is its own spelling only. -/
theorem eq_of_lower {t s : List Char} (h : lower t = s)
    (hs : s.all (fun d => !d.isLower) = true) : t = s := by
  induction t generalizing s with
  | nil => exact h
  | cons c t ih =>
      subst h
      rw [lower, List.map_cons, List.all_cons, Bool.and_eq_true, Bool.not_eq_true'] at hs
      have hrest := ih rfl hs.2
      rw [lower, List.map_cons, ← eq_of_toLower rfl hs.1]
      exact congrArg _ hrest

theorem lower_intercalate (x : Char) (hx : x.toLower = x) (fields : List (List Char)) :
    lower ([x].intercalate fields) = [x].intercalate (fields.map lower) := by
  induction fields with
  | nil => rfl
  | cons field fields ih =>
      cases fields with
      | nil => simp
      | cons next fields =>
          rw [List.intercalate_cons_cons, List.map_cons, List.map_cons,
            List.intercalate_cons_cons, ← List.map_cons, ← ih]
          simp [lower, hx]

theorem lower_text (v : IPv4) : lower v.text = v.text := by
  have hchar : ∀ c ∈ v.text, c.toLower = c := by
    intro c hc
    have hupper : ¬ (c.val ≥ 'A'.val ∧ c.val ≤ 'Z'.val) := by
      rcases v.char_of_mem_text hc with rfl | hdigit
      · decide
      · simp only [Char.isDigit, Bool.and_eq_true, decide_eq_true_eq] at hdigit
        exact fun h => absurd (UInt32.le_trans h.1 hdigit.2) (by decide)
    exact dif_neg hupper
  rw [lower, List.map_congr_left hchar, List.map_id']

theorem text_injective {v w : IPv4} (h : v.text = w.text) : v = w := by
  have hv : parseIPv4 v.text = some v := parseIPv4_eq_some_iff.2 rfl
  exact Option.some.inj (hv.symm.trans (parseIPv4_eq_some_iff.2 h))

/-- A text that is known is read to find the address. -/
theorem values_of_text {p : IPv6Text} {values : List ℕ} (h : parseIPv6 p.text = some values) :
    p.spelling.values = values :=
  Option.some.inj ((parseIPv6_text p).symm.trans h)

theorem address_of_loopback {p : IPv6Text} (h : p.text = "::1".toList) :
    p.spelling.address = between 0 1 :=
  IPv6.ext (values_of_text (h ▸ by decide +kernel))

theorem address_of_unspecified {p : IPv6Text} (h : p.text = "::".toList) :
    p.spelling.address = between 0 0 :=
  IPv6.ext (values_of_text (h ▸ by decide +kernel))

/-- The fields of a spelling in lower case are those of its text in lower case. -/
theorem splitOn_lower (p : Spelling) :
    (lower p.text).splitOn ':' = p.fields.map lower := by
  rw [Spelling.text, lower_intercalate ':' rfl]
  refine List.splitOn_intercalate ':' ?_ (by simp [p.fields_ne_nil])
  intro field hfield hmem
  obtain ⟨f, hf, rfl⟩ := List.mem_map.1 hfield
  obtain ⟨c, hc, hcolon⟩ := List.mem_map.1 hmem
  exact p.no_colon f hf (eq_of_toLower hcolon rfl ▸ hc)

theorem not_mem_mapped (v : IPv4) : '%' ∉ "::ffff:".toList ++ v.text := by
  intro h
  rcases List.mem_append.1 h with h | h
  · exact absurd h (by decide)
  · rcases v.char_of_mem_text h with h | h
    · exact absurd h (by decide)
    · exact absurd h (by decide)

/-- The last of two fields is an address in dotted form when it looks like one. -/
theorem groups_of_fields {right : Groups} {t : List Char} {v : IPv4}
    (h : right.fields.map lower = [t, v.text]) :
    ∃ g : Hextet, lower g.text = t ∧ right.values = [g.value, v.high, v.low] := by
  obtain ⟨hex, dotted⟩ := right
  have hdotted : ∀ g : Hextet, lower g.text ≠ v.text := by
    intro g heq
    obtain ⟨c, hc, hdot⟩ := List.mem_map.1 (heq.symm ▸ v.dot_mem_text)
    obtain rfl := eq_of_toLower hdot rfl
    exact absurd (g.isHexDigit_of_mem hc) (by decide)
  cases dotted with
  | none =>
      rcases hex with _ | ⟨g, _ | ⟨g', hex⟩⟩
      · cases h
      · cases h
      · simp only [Groups.fields, List.map_cons, List.cons_append, List.cons.injEq] at h
        exact absurd h.2.1 (hdotted g')
  | some w =>
      rcases hex with _ | ⟨g, _ | ⟨g', hex⟩⟩
      · cases h
      · simp only [Groups.fields, List.map_cons, List.cons_append, Option.map_some,
          Option.toList_some, List.cons.injEq, List.map_nil, List.nil_append, and_true,
          lower_text] at h
        obtain ⟨rfl, hw⟩ := h
        obtain rfl := text_injective hw
        exact ⟨g, rfl, rfl⟩
      · simp [Groups.fields] at h

theorem value_of_ffff {g : Hextet} (h : lower g.text = "ffff".toList) : g.value = 0xffff := by
  obtain ⟨text, hform⟩ := g
  have hlower : ∀ c ∈ text, (c.toLower = 'f' ↔ hexDigit c = 15) := fun c hc =>
    (toLower_iff ((⟨text, hform⟩ : Hextet).isHexDigit_of_mem hc)).1
  rcases text with _ | ⟨a, _ | ⟨b, _ | ⟨c, _ | ⟨d, _ | ⟨e, text⟩⟩⟩⟩⟩
  case cons.cons.cons.cons.nil =>
    simp only [List.forall_mem_cons] at hlower
    simp [lower, hlower] at h
    simp [Hextet.value, hexValue, h]
  all_goals simp [lower] at h

theorem address_of_mapped {p : IPv6Text} {v : IPv4}
    (h : lower p.text = "::ffff:".toList ++ v.text) : p.spelling.address = v.mapped := by
  obtain ⟨spelling, zone, form⟩ := p
  have hzone : zone = [] := by
    by_contra hne
    refine not_mem_mapped v (h ▸ List.mem_map.2 ⟨'%', ?_, rfl⟩)
    simp [IPv6Text.text, hne]
  subst hzone
  have htext : lower spelling.text = [':'].intercalate [[], [], "ffff".toList, v.text] := by
    have happend : lower (spelling.text ++ []) = "::ffff:".toList ++ v.text := h
    rw [List.append_nil] at happend
    rw [happend]
    simp
  have hcolon : ':' ∉ v.text := by
    intro hmem
    rcases v.char_of_mem_text hmem with h | h
    · exact absurd h (by decide)
    · exact absurd h (by decide)
  have hfields : spelling.fields.map lower = [[], [], "ffff".toList, v.text] := by
    rw [← splitOn_lower, htext, List.splitOn_intercalate ':' _ (List.cons_ne_nil _ _)]
    simp [hcolon]
  cases spelling with
  | full groups count =>
      have hnil : [] ∈ groups.fields.map lower := hfields ▸ List.mem_cons_self
      obtain ⟨field, hfield, hempty⟩ := List.mem_map.1 hnil
      exact absurd (List.map_eq_nil_iff.1 hempty) (Groups.ne_nil_of_mem hfield)
  | compressed left right count =>
      cases left with
      | cons g left =>
          have hhead : (Spelling.compressed (g :: left) right count).fields.head? =
              some g.text := rfl
          have hlower := congrArg List.head? hfields
          rw [List.head?_map, hhead] at hlower
          exact absurd (List.map_eq_nil_iff.1 (Option.some.inj hlower)) g.text_ne_nil
      | nil =>
          have hbehind : (orEmpty right.fields).map lower = ["ffff".toList, v.text] :=
            (List.cons.inj (List.cons.inj hfields).2).2
          have hright : right.fields.map lower = ["ffff".toList, v.text] := by
            rw [orEmpty] at hbehind
            split at hbehind
            · simp at hbehind
            · exact hbehind
          obtain ⟨g, hg, hvalues⟩ := groups_of_fields hright
          refine IPv6.ext ?_
          simp [Spelling.address, Spelling.values, IPv4.mapped, hvalues, value_of_ffff hg]

/-! ### The texts reach the comparison -/

/-- The texts of addresses consist of letters, digits and a few signs. -/
theorem char_of_mem_text (t : AddressText) : ∀ c ∈ t.text,
    c.isAlphanum = true ∨ c ∈ ['-', '.', ':', '%'] := by
  have hhex : ∀ c : Char, c.isHexDigit = true → c.isAlphanum = true := by
    have hall : hexDigits.all Char.isAlphanum = true := by decide
    exact fun c hc => List.all_eq_true.1 hall c (mem_hexDigits hc)
  intro c hc
  cases t with
  | v4 v =>
      rcases v.char_of_mem_text hc with rfl | hdigit
      · exact .inr (by decide)
      · exact .inl (by simp [Char.isAlphanum, hdigit])
  | v6 p =>
      rcases List.mem_append.1 hc with hc | hc
      · rcases mem_intercalate hc with rfl | ⟨field, hfield, hmem⟩
        · exact .inr (by decide)
        · rcases Spelling.char_of_mem hfield hmem with rfl | hdigit
          · exact .inr (by decide)
          · exact .inl (hhex c hdigit)
      · split at hc
        · cases hc
        · rcases List.mem_cons.1 hc with rfl | hc
          · exact .inr (by decide)
          · have hzone := List.all_eq_true.1 p.form c hc
            simp only [isZoneChar, Bool.or_eq_true, beq_iff_eq] at hzone
            rcases hzone with ((hc | rfl) | rfl) | rfl
            · exact .inl hc
            · exact .inr (by decide)
            · exact .inr (by decide)
            · exact .inr (by decide)

theorem isWhiteSpace_of_isAlphanum {c : Char} (h : c.isAlphanum = true) :
    isWhiteSpace c = false := by
  have hlt : c.toNat < 123 := by
    have hclass : (decide (c.val ≥ 'A'.val ∧ c.val ≤ 'Z'.val) ||
        (decide (c.val ≥ 'a'.val) && decide (c.val ≤ 'z'.val)) ||
        (decide (c.val ≥ '0'.val) && decide (c.val ≤ '9'.val))) = true := h
    simp only [Bool.or_eq_true, Bool.and_eq_true, decide_eq_true_eq, ge_iff_le,
      UInt32.le_iff_toNat_le] at hclass
    change c.val.toNat < 123
    rcases hclass with (⟨-, h⟩ | ⟨-, h⟩) | ⟨-, h⟩
    · exact Nat.lt_of_le_of_lt h (by decide)
    · exact Nat.lt_of_le_of_lt h (by decide)
    · exact Nat.lt_of_le_of_lt h (by decide)
  have hall : ∀ n < 123, (Char.ofNat n).isAlphanum = true →
      isWhiteSpace (Char.ofNat n) = false := by
    decide +kernel
  rw [← Char.ofNat_toNat c] at h ⊢
  exact hall c.toNat hlt h

theorem trim_text (t : AddressText) : trim t.text = t.text := by
  refine trim_eq_self fun c hc => ?_
  rcases char_of_mem_text t c hc with h | h
  · exact isWhiteSpace_of_isAlphanum h
  · simp only [List.mem_cons, List.not_mem_nil, or_false] at h
    rcases h with rfl | rfl | rfl | rfl
    · decide
    · decide
    · decide
    · decide

theorem colon_mem_text (p : IPv6Text) : ':' ∈ p.text := by
  cases h : leading p.spelling with
  | some g =>
      obtain ⟨rest, hrest⟩ := text_of_leading h
      simp [hrest]
  | none =>
      obtain ⟨rest, hrest⟩ := text_of_not_leading h
      simp [hrest]

theorem isIPv4_v6 (p : IPv6Text) : isIPv4 p.text = false := by
  refine Bool.eq_false_iff.2 fun h => ?_
  obtain ⟨v, hv⟩ := isIPv4_iff.1 h
  rcases v.char_of_mem_text (hv ▸ colon_mem_text p) with h | h
  · exact absurd h (by decide)
  · exact absurd h (by decide)

/-- An IPv4 address is looked up when its octets allow it. -/
theorem isUsablePublicIp_v4 (v : IPv4) : isUsablePublicIp v.text = !isPrivateIPv4 v.text := by
  have hip : isIPv4 v.text = true := isIPv4_iff.2 ⟨v, rfl⟩
  have hpos : v.text.length ≠ 0 := fun h => v.text_ne_nil (List.length_eq_zero_iff.1 h)
  have htrim : trim v.text = v.text := trim_text (.v4 v)
  simp [isUsablePublicIp, htrim, isIP, isPrivateIp, hip, hpos]

/-- An IPv6 address is looked up when its text allows it. -/
theorem isUsablePublicIp_v6 (p : IPv6Text) :
    isUsablePublicIp p.text = !isPrivateIPv6 p.text := by
  have hip : isIPv6 p.text = true := by rw [isIPv6, parseIPv6_text]; rfl
  have hpos : p.text.length ≠ 0 := fun h =>
    List.ne_nil_of_mem (colon_mem_text p) (List.length_eq_zero_iff.1 h)
  have htrim : trim p.text = p.text := trim_text (.v6 p)
  simp [isUsablePublicIp, htrim, isIP, isPrivateIp, hip, isIPv4_v6, hpos]

/-! ### The misread spellings -/

/-- The spellings of which the text says something else than the address: `::` and `::1`
written otherwise, a first group of two or three digits that begin with `fc` or `fd`, the
rest of `fe80::/10`, and the mapped form of a private IPv4 address written otherwise than as
`::ffff:` and the dotted address. -/
def Misread : AddressText → Prop
  | .v4 _ => False
  | .v6 p =>
      ((p.spelling.address = between 0 0 ∨ p.spelling.address = between 0 1) ∧
        p.text ≠ "::".toList ∧ p.text ≠ "::1".toList) ∨
      (∃ g, leading p.spelling = some g ∧ g.text.length < 4 ∧ BeginsLikeUniqueLocal g.text) ∨
      (0xfe81 ≤ p.spelling.address.first ∧ p.spelling.address.first ≤ 0xfebf) ∨
      ∃ v, IsPrivate4 v ∧ p.spelling.address = v.mapped ∧
        lower p.text ≠ "::ffff:".toList ++ v.text

theorem isPrivate6_iff (a : IPv6) :
    IsPrivate6 a ↔ a = between 0 0 ∨ a = between 0 1 ∨ a.first / 2 ^ 9 = 126 ∨
      a.first / 2 ^ 6 = 1018 ∨ ∃ v, IsPrivate4 v ∧ a = v.mapped := by
  have hlocal : (between 0xfc00 0).InNet 7 a ↔ a.first / 2 ^ 9 = 126 :=
    IPv6.inNet_iff (by decide) (by decide)
  have hlink : (between 0xfe80 0).InNet 10 a ↔ a.first / 2 ^ 6 = 1018 :=
    IPv6.inNet_iff (by decide) (by decide)
  rw [IsPrivate6, hlocal, hlink]

/-- What the comparisons find in the text of an IPv6 address. -/
theorem isPrivateIPv6_text (p : IPv6Text) :
    isPrivateIPv6 p.text = true ↔
      (p.text = "::1".toList ∨ p.text = "::".toList) ∨
      (∃ g, leading p.spelling = some g ∧
        (BeginsLikeUniqueLocal g.text ∨ lower g.text = "fe80".toList)) ∨
      ∃ v, IsPrivate4 v ∧ lower p.text = "::ffff:".toList ++ v.text := by
  have hloopback : lower p.text = "::1".toList ↔ p.text = "::1".toList :=
    ⟨fun h => eq_of_lower h rfl, fun h => by rw [h]; decide⟩
  have hunspecified : lower p.text = "::".toList ↔ p.text = "::".toList :=
    ⟨fun h => eq_of_lower h rfl, fun h => by rw [h]; decide⟩
  rw [isPrivateIPv6_iff, hloopback, hunspecified, ← or_assoc (c := ∃ v, _)]
  refine or_congr_right (or_congr_left ?_)
  cases hleading : leading p.spelling with
  | some g =>
      obtain ⟨rest, hrest⟩ := text_of_leading hleading
      have htext : lower p.text = lower g.text ++ ':' :: lower rest := by
        rw [hrest, lower, List.map_append]
        rfl
      have hcolon : ':' ∉ lower g.text := by
        intro hmem
        obtain ⟨c, hc, hcolon⟩ := List.mem_map.1 hmem
        obtain rfl := eq_of_toLower hcolon rfl
        exact absurd (g.isHexDigit_of_mem hc) (by decide)
      have hlink : "fe80:".toList <+: lower p.text ↔ lower g.text = "fe80".toList := by
        rw [htext]
        constructor
        · rintro ⟨tail, htail⟩
          have hsplit : "fe80".toList ++ ':' :: tail = lower g.text ++ ':' :: lower rest := htail
          exact ((append_separator_inj (by decide) hcolon).1 hsplit).1.symm
        · intro h
          rw [h]
          exact ⟨lower rest, rfl⟩
      rw [hlink, htext, prefix_append_separator_iff (by decide),
        prefix_append_separator_iff (by decide)]
      simp [BeginsLikeUniqueLocal]
  | none =>
      obtain ⟨rest, hrest⟩ := text_of_not_leading hleading
      simp [hrest, lower]

section

variable {p : IPv6Text} {g : Hextet}

theorem first_of_leading (h : leading p.spelling = some g) :
    p.spelling.address.first = g.value := by
  obtain ⟨next, rest, -, hfirst⟩ := fields_of_leading h
  exact hfirst

/-- The prefixes `fc` and `fd` are those of `fc00::/7`, unless the group is short. -/
theorem uniqueLocal_of_begins (h : leading p.spelling = some g)
    (hbegins : BeginsLikeUniqueLocal g.text) :
    p.spelling.address.first / 2 ^ 9 = 126 ∨
      g.text.length < 4 ∧ 0 < p.spelling.address.first ∧ p.spelling.address.first < 4096 := by
  rw [first_of_leading h]
  rcases leading_cases g with ⟨hlength, hlt, hpos, -⟩ | ⟨-, hlocal, -⟩
  · exact .inr ⟨hlength, hpos hbegins, hlt⟩
  · exact .inl (hlocal.1 hbegins)

theorem exists_leading (h : p.spelling.address.first ≠ 0) :
    ∃ g, leading p.spelling = some g := by
  cases hleading : leading p.spelling with
  | some g => exact ⟨g, rfl⟩
  | none =>
      obtain ⟨rest, -, hfirst⟩ := fields_of_not_leading hleading
      exact absurd hfirst h

theorem begins_of_uniqueLocal (h : p.spelling.address.first / 2 ^ 9 = 126) :
    ∃ g, leading p.spelling = some g ∧ BeginsLikeUniqueLocal g.text := by
  obtain ⟨g, hg⟩ := exists_leading (p := p) (by omega)
  rw [first_of_leading hg] at h
  rcases leading_cases g with ⟨-, hlt, -⟩ | ⟨-, hlocal, -⟩
  · omega
  · exact ⟨g, hg, hlocal.2 h⟩

theorem leading_fe80_iff :
    (∃ g, leading p.spelling = some g ∧ lower g.text = "fe80".toList) ↔
      p.spelling.address.first = 0xfe80 := by
  constructor
  · rintro ⟨g, hg, hlower⟩
    rw [first_of_leading hg]
    rcases leading_cases g with ⟨-, -, -, hne⟩ | ⟨-, -, hlink⟩
    · exact absurd hlower hne
    · exact hlink.1 hlower
  · intro h
    obtain ⟨g, hg⟩ := exists_leading (p := p) (by omega)
    rw [first_of_leading hg] at h
    rcases leading_cases g with ⟨-, hlt, -⟩ | ⟨-, -, hlink⟩
    · omega
    · exact ⟨g, hg, hlink.2 h⟩

/-- What the comparisons find, in terms of the address. -/
theorem cases_of_isPrivateIPv6 (h : isPrivateIPv6 p.text = true) :
    (p.text = "::1".toList ∨ p.text = "::".toList) ∨
      p.spelling.address.first / 2 ^ 9 = 126 ∨
      (∃ g, leading p.spelling = some g ∧ g.text.length < 4 ∧ BeginsLikeUniqueLocal g.text ∧
        0 < p.spelling.address.first) ∨
      p.spelling.address.first = 0xfe80 ∨
      ∃ v, IsPrivate4 v ∧ p.spelling.address = v.mapped ∧
        lower p.text = "::ffff:".toList ++ v.text := by
  rcases (isPrivateIPv6_text p).1 h with h | ⟨g, hg, hbegins | hlink⟩ | ⟨v, hv, hlower⟩
  · exact .inl h
  · rcases uniqueLocal_of_begins hg hbegins with h | ⟨hlength, hpos, -⟩
    · exact .inr (.inl h)
    · exact .inr (.inr (.inl ⟨g, hg, hlength, hbegins, hpos⟩))
  · exact .inr (.inr (.inr (.inl (leading_fe80_iff.1 ⟨g, hg, hlink⟩))))
  · exact .inr (.inr (.inr (.inr ⟨v, hv, address_of_mapped hlower, hlower⟩)))

theorem special_of_text (h : p.text = "::1".toList ∨ p.text = "::".toList) :
    p.spelling.address = between 0 0 ∨ p.spelling.address = between 0 1 :=
  h.elim (fun h => .inr (address_of_loopback h)) fun h => .inl (address_of_unspecified h)

theorem not_mapped_of_special {a : IPv6} (h : a = between 0 0 ∨ a = between 0 1) (v : IPv4) :
    a ≠ v.mapped := by
  rcases h with rfl | rfl
  · exact fun h => absurd (congrArg IPv6.groups h) (by simp [between, IPv4.mapped])
  · exact fun h => absurd (congrArg IPv6.groups h) (by simp [between, IPv4.mapped])

theorem first_of_special {a : IPv6} (h : a = between 0 0 ∨ a = between 0 1) : a.first = 0 := by
  rcases h with rfl | rfl
  · rfl
  · rfl

theorem first_of_mapped {a : IPv6} {v : IPv4} (h : a = v.mapped) : a.first = 0 := h ▸ rfl

/-- A text that is not misread is taken for private when its address is. -/
theorem recognised_of_not_misread (h : ¬ Misread (.v6 p)) :
    isPrivateIPv6 p.text = true ↔ IsPrivate6 p.spelling.address := by
  simp only [Misread, not_or] at h
  obtain ⟨hspecial, hshort, hlink, hother⟩ := h
  rw [isPrivate6_iff]
  constructor
  · intro hcode
    rcases cases_of_isPrivateIPv6 hcode with htext | h | ⟨g, hg, hlength, hbegins, -⟩ | h |
      ⟨v, hv, ha, -⟩
    · exact (special_of_text htext).elim .inl fun h => .inr (.inl h)
    · exact .inr (.inr (.inl h))
    · exact absurd ⟨g, hg, hlength, hbegins⟩ hshort
    · exact .inr (.inr (.inr (.inl (by omega))))
    · exact .inr (.inr (.inr (.inr ⟨v, hv, ha⟩)))
  · intro hprivate
    have hspelled : p.spelling.address = between 0 0 ∨ p.spelling.address = between 0 1 →
        p.text = "::1".toList ∨ p.text = "::".toList := by
      intro h
      by_contra htext
      rw [not_or] at htext
      exact hspecial ⟨h, htext.2, htext.1⟩
    rw [isPrivateIPv6_text]
    rcases hprivate with h | h | h | h | ⟨v, hv, ha⟩
    · exact .inl (hspelled (.inl h))
    · exact .inl (hspelled (.inr h))
    · obtain ⟨g, hg, hbegins⟩ := begins_of_uniqueLocal h
      exact .inr (.inl ⟨g, hg, .inl hbegins⟩)
    · have hfirst : p.spelling.address.first = 0xfe80 := by omega
      obtain ⟨g, hg, hlower⟩ := leading_fe80_iff.2 hfirst
      exact .inr (.inl ⟨g, hg, .inr hlower⟩)
    · refine .inr (.inr ⟨v, hv, ?_⟩)
      by_contra hlower
      exact hother ⟨v, hv, ha, hlower⟩

/-- A text that begins with `fc` or `fd` in a short group is taken for private, and its
address is not. -/
theorem short_group_misread (hg : leading p.spelling = some g) (hlength : g.text.length < 4)
    (hbegins : BeginsLikeUniqueLocal g.text) :
    isPrivateIPv6 p.text = true ∧ ¬ IsPrivate6 p.spelling.address := by
  refine ⟨(isPrivateIPv6_text p).2 (.inr (.inl ⟨g, hg, .inl hbegins⟩)), fun hprivate => ?_⟩
  have hfirst := first_of_leading hg
  rcases leading_cases g with ⟨-, hlt, hpos, -⟩ | ⟨hfour, -⟩
  · have hpos := hpos hbegins
    rcases (isPrivate6_iff _).1 hprivate with h | h | h | h | ⟨v, -, h⟩
    · have := first_of_special (.inl h)
      omega
    · have := first_of_special (.inr h)
      omega
    · omega
    · omega
    · have := first_of_mapped h
      omega
  · omega

/-- The address of any other misread text is private, and the text is not taken for it. -/
theorem private_misread (h : Misread (.v6 p))
    (hlong : ∀ g, leading p.spelling = some g → BeginsLikeUniqueLocal g.text →
      ¬ g.text.length < 4) :
    isPrivateIPv6 p.text ≠ true ∧ IsPrivate6 p.spelling.address := by
  rw [isPrivate6_iff]
  rcases h with ⟨hspecial, hne⟩ | ⟨g, hg, hlength, hbegins⟩ | ⟨hlow, hhigh⟩ | ⟨v, hv, ha, hne⟩
  · have hfirst := first_of_special hspecial
    refine ⟨fun hcode => ?_, hspecial.elim .inl fun h => .inr (.inl h)⟩
    rcases cases_of_isPrivateIPv6 hcode with (htext | htext) | h | ⟨-, -, -, -, h⟩ | h |
      ⟨v, -, ha, -⟩
    · exact hne.2 htext
    · exact hne.1 htext
    · omega
    · omega
    · omega
    · exact not_mapped_of_special hspecial v ha
  · exact absurd hlength (hlong g hg hbegins)
  · refine ⟨fun hcode => ?_, .inr (.inr (.inr (.inl (by omega))))⟩
    rcases cases_of_isPrivateIPv6 hcode with htext | h | ⟨g, hg, hlength, hbegins, -⟩ | h |
      ⟨v, -, ha, -⟩
    · have := first_of_special (special_of_text htext)
      omega
    · omega
    · exact hlong g hg hbegins hlength
    · omega
    · have := first_of_mapped ha
      omega
  · have hfirst := first_of_mapped ha
    refine ⟨fun hcode => ?_, .inr (.inr (.inr (.inr ⟨v, hv, ha⟩)))⟩
    rcases cases_of_isPrivateIPv6 hcode with htext | h | ⟨-, -, -, -, h⟩ | h |
      ⟨w, -, hw, hlower⟩
    · exact not_mapped_of_special (special_of_text htext) v ha
    · omega
    · omega
    · omega
    · obtain rfl := IPv4.mapped_injective (ha.symm.trans hw)
      exact hne hlower

end

/-- The text of an address that is not misread says whether the address is private. -/
theorem not_usable_iff {t : AddressText} (h : ¬ Misread t) :
    isUsablePublicIp t.text = false ↔ t.IsPrivate := by
  cases t with
  | v4 v => simp [AddressText.text, AddressText.IsPrivate, isUsablePublicIp_v4, isPrivateIPv4_text]
  | v6 p =>
      rw [AddressText.text, isUsablePublicIp_v6, Bool.not_eq_false', AddressText.IsPrivate]
      exact recognised_of_not_misread h

/-- An address is taken for private exactly when it is, unless its text is misread. -/
theorem private_address_recognised_iff (t : AddressText) :
    (isUsablePublicIp t.text = false ↔ t.IsPrivate) ↔ ¬ Misread t := by
  refine ⟨fun h hmisread => ?_, not_usable_iff⟩
  cases t with
  | v4 v => exact hmisread
  | v6 p =>
      rw [AddressText.text, isUsablePublicIp_v6, Bool.not_eq_false', AddressText.IsPrivate] at h
      by_cases hshort : ∃ g, leading p.spelling = some g ∧ BeginsLikeUniqueLocal g.text ∧
          g.text.length < 4
      · obtain ⟨g, hg, hbegins, hlength⟩ := hshort
        obtain ⟨hcode, hpublic⟩ := short_group_misread hg hlength hbegins
        exact hpublic (h.1 hcode)
      · obtain ⟨hcode, hprivate⟩ := private_misread hmisread fun g hg hbegins hlength =>
          hshort ⟨g, hg, hbegins, hlength⟩
        exact hcode (h.2 hprivate)

/-- A private address that is not misread is not looked up. -/
theorem resolve_private (reader : Option (List Char → Except String (Option String)))
    {t : AddressText} (hprivate : t.IsPrivate) (h : ¬ Misread t) :
    resolve reader t.text = UNKNOWN_COUNTRY := by
  have husable := (not_usable_iff h).2 hprivate
  simp [resolve, husable]

def digitGroup (c : Char) (h : c.isHexDigit = true) : Hextet := ⟨[c], by simp [isGroup, h]⟩

/-- The address `::1` with its zeros written out. -/
def longLoopback : AddressText :=
  .v6 ⟨.full ⟨List.replicate 7 (digitGroup '0' rfl) ++ [digitGroup '1' rfl], none⟩ rfl, [], rfl⟩

theorem longLoopback_not_recognised :
    ¬ ∀ t : AddressText, isUsablePublicIp t.text = false ↔ t.IsPrivate := by
  intro h
  have hprivate : longLoopback.IsPrivate := .inr (.inl (IPv6.ext rfl))
  exact absurd ((h longLoopback).2 hprivate) (by decide +kernel)

example : longLoopback.text = "0:0:0:0:0:0:0:1".toList := by decide

end LinkStatistics

end Shortlink

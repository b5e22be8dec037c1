import Shortlink.Net.Spelling

/-!
# Reading Internet addresses

`parseIPv4` reads the text of an IPv4 address, and `parseIPv6` reads the spellings of an
IPv6 address, each as the groups that it spells. They read nothing else.
-/

namespace Shortlink

namespace Net

def readOctet (t : List Char) : Option (Fin 256) :=
  (List.finRange 256).find? fun n => decimal n = t

def parseIPv4 (t : List Char) : Option IPv4 :=
  match t.splitOn '.' with
  | [a, b, c, d] => do
      return ⟨← readOctet a, ← readOctet b, ← readOctet c, ← readOctet d⟩
  | _ => none

def readGroup (t : List Char) : Option ℕ := if isGroup t then some (hexValue t) else none

def readGroups : List (List Char) → Option (List ℕ)
  | [] => some []
  | t :: ts =>
      match readGroup t with
      | some g => (readGroups ts).map (g :: ·)
      | none => if ts = [] then (parseIPv4 t).map fun v => [v.high, v.low] else none

def readBehind (ts : List (List Char)) : Option (List ℕ) :=
  if ts = [] then none else if ts = [[]] then some [] else readGroups ts

/-- Put zeros in the place of `::`. -/
def fill (left right : List ℕ) : Option (List ℕ) :=
  if left.length + right.length ≤ 7 then
    some (left ++ (List.replicate (8 - (left.length + right.length)) 0 ++ right))
  else none

/-- The fields before the first empty one, and those behind it. -/
def splitEmpty : List (List Char) → List (List Char) × Option (List (List Char))
  | [] => ([], none)
  | [] :: ts => ([], some ts)
  | t :: ts => (t :: (splitEmpty ts).1, (splitEmpty ts).2)

def readFields (fields : List (List Char)) : Option (List ℕ) :=
  match splitEmpty fields with
  | (left, none) => (readGroups left).filter fun groups => groups.length = 8
  | ([], some ([] :: ts)) => (readBehind ts).bind (fill [])
  | ([], some _) => none
  | (left, some ts) =>
      (left.mapM readGroup).bind fun left => (readBehind ts).bind (fill left)

def isZone (t : List Char) : Bool := t = [] || 2 ≤ t.length && t.tail.all isZoneChar

def parseIPv6 (t : List Char) : Option (List ℕ) :=
  if isZone (t.dropWhile (· ≠ '%')) then
    readFields ((t.takeWhile (· ≠ '%')).splitOn ':')
  else none

/-! ### IPv4 -/

theorem readOctet_decimal (n : Fin 256) : readOctet (decimal n) = some n := by
  revert n
  decide +kernel

theorem readOctet_eq_some_iff {t : List Char} {n : Fin 256} :
    readOctet t = some n ↔ t = decimal n := by
  constructor
  · intro h
    rw [readOctet] at h
    exact (by simpa using List.find?_some h : decimal n = t).symm
  · rintro rfl
    exact readOctet_decimal n

theorem parseIPv4_eq_some_iff {t : List Char} {v : IPv4} :
    parseIPv4 t = some v ↔ t = v.text := by
  constructor
  · intro h
    rw [parseIPv4] at h
    split at h
    · rename_i a b c d hsplit
      simp only [Option.bind_eq_bind, Option.pure_def, Option.bind_eq_some_iff,
        Option.some.injEq, readOctet_eq_some_iff] at h
      obtain ⟨a, rfl, b, rfl, c, rfl, d, rfl, rfl⟩ := h
      rw [IPv4.text, IPv4.fields, ← hsplit, List.intercalate_splitOn]
    · cases h
  · rintro rfl
    simp [parseIPv4, v.splitOn_text, IPv4.fields, readOctet_decimal]

/-! ### The texts are read -/

theorem readGroup_text (g : Hextet) : readGroup g.text = some g.value := if_pos g.form

theorem readGroups_fields (t : Groups) : readGroups t.fields = some t.values := by
  obtain ⟨hex, dotted⟩ := t
  induction hex with
  | nil =>
      cases dotted with
      | none => rfl
      | some v =>
          simp [Groups.fields, Groups.values, readGroups, readGroup, isGroup_text,
            parseIPv4_eq_some_iff.2 rfl]
  | cons g hex ih =>
      simp only [Groups.fields, Groups.values, List.map_cons, List.cons_append] at ih ⊢
      simp only [readGroups, readGroup_text, ih, Option.map_some]

theorem mapM_readGroup (left : List Hextet) :
    (left.map Hextet.text).mapM readGroup = some (left.map Hextet.value) := by
  induction left with
  | nil => rfl
  | cons g left ih => simp [List.mapM_cons, readGroup_text, ih]

theorem readBehind_fields (t : Groups) : readBehind (orEmpty t.fields) = some t.values := by
  by_cases hnil : t.fields = []
  · rw [hnil, Groups.values_eq_nil hnil]
    rfl
  · have hempty : t.fields ≠ [[]] := fun h =>
      Groups.ne_nil_of_mem (h ▸ List.mem_singleton_self _) rfl
    rw [orEmpty, if_neg hnil, readBehind, if_neg hnil, if_neg hempty, readGroups_fields]

theorem fill_eq {left right : List ℕ} (h : left.length + right.length ≤ 7) :
    fill left right = some
      (left ++ (List.replicate (8 - (left.length + right.length)) 0 ++ right)) :=
  if_pos h

theorem splitEmpty_of_ne_nil {ts : List (List Char)} (h : ∀ t ∈ ts, t ≠ []) :
    splitEmpty ts = (ts, none) := by
  induction ts with
  | nil => rfl
  | cons t ts ih =>
      obtain ⟨c, t, rfl⟩ := List.exists_cons_of_ne_nil (h t List.mem_cons_self)
      rw [splitEmpty, ih fun t' ht' => h t' (List.mem_cons_of_mem _ ht')]
      exact List.cons_ne_nil c t

theorem splitEmpty_append {left : List (List Char)} (h : ∀ t ∈ left, t ≠ [])
    (ts : List (List Char)) : splitEmpty (left ++ [] :: ts) = (left, some ts) := by
  induction left with
  | nil => rfl
  | cons t left ih =>
      obtain ⟨c, t, rfl⟩ := List.exists_cons_of_ne_nil (h t List.mem_cons_self)
      rw [List.cons_append, splitEmpty, ih fun t' ht' => h t' (List.mem_cons_of_mem _ ht')]
      exact List.cons_ne_nil c t

theorem readFields_fields (p : Spelling) : readFields p.fields = some p.values := by
  cases p with
  | full groups count =>
      rw [readFields, Spelling.fields, splitEmpty_of_ne_nil fun _ => Groups.ne_nil_of_mem]
      simp [readGroups_fields, count, Spelling.values]
  | compressed left right count =>
      have hcount : (left.map Hextet.value).length + right.values.length ≤ 7 := by
        rwa [List.length_map]
      cases left with
      | nil =>
          change (readBehind (orEmpty right.fields)).bind (fill []) = _
          rw [readBehind_fields, Option.bind_some]
          exact fill_eq hcount
      | cons g left =>
          have hne : ∀ t ∈ (g :: left).map Hextet.text, t ≠ [] := by
            simp [Hextet.text_ne_nil]
          have hfields : Spelling.fields (.compressed (g :: left) right count) =
              (g :: left).map Hextet.text ++ [] :: orEmpty right.fields := by
            rw [Spelling.fields, orEmpty, if_neg (by simp)]
          rw [readFields, hfields, splitEmpty_append hne]
          have hread := mapM_readGroup (g :: left)
          rw [List.map_cons] at hread ⊢
          simp only [hread, Option.bind_some, readBehind_fields, fill_eq hcount,
            List.length_map, Spelling.values]

/-- A text is split at its percent sign. -/
theorem IPv6Text.takeWhile_text (p : IPv6Text) :
    p.text.takeWhile (· ≠ '%') = p.spelling.text ∧
      p.text.dropWhile (· ≠ '%') = if p.zone = [] then [] else '%' :: p.zone := by
  have hne : ∀ c ∈ p.spelling.text, decide (c ≠ '%') = true := fun c hc =>
    decide_eq_true fun h => p.spelling.no_percent (h ▸ hc)
  rw [IPv6Text.text, List.takeWhile_append_of_pos hne, List.dropWhile_append_of_pos hne]
  split
  · simp
  · simp

theorem IPv6Text.isZone_zone (p : IPv6Text) :
    isZone (if p.zone = [] then [] else '%' :: p.zone) = true := by
  split
  · rfl
  · rename_i hzone
    have hpos := List.length_pos_of_ne_nil hzone
    simp only [isZone, List.length_cons, List.tail_cons, p.form, Bool.and_true, Bool.or_eq_true,
      decide_eq_true_eq]
    exact .inr (by omega)

theorem parseIPv6_text (p : IPv6Text) : parseIPv6 p.text = some p.spelling.values := by
  rw [parseIPv6, p.takeWhile_text.1, p.takeWhile_text.2, p.isZone_zone, p.spelling.splitOn_text]
  exact readFields_fields p.spelling

/-! ### Only they are -/

theorem of_readGroup {t : List Char} {n : ℕ} (h : readGroup t = some n) :
    ∃ g : Hextet, g.text = t ∧ g.value = n := by
  rw [readGroup] at h
  split at h
  · rename_i hform
    exact ⟨⟨t, hform⟩, rfl, Option.some.inj h⟩
  · cases h

theorem of_readGroups {ts : List (List Char)} {values : List ℕ}
    (h : readGroups ts = some values) : ∃ t : Groups, t.fields = ts ∧ t.values = values := by
  induction ts generalizing values with
  | nil => exact ⟨⟨[], none⟩, rfl, Option.some.inj h⟩
  | cons t ts ih =>
      rw [readGroups] at h
      cases hgroup : readGroup t with
      | some n =>
          simp only [hgroup, Option.map_eq_some_iff] at h
          obtain ⟨rest, hrest, rfl⟩ := h
          obtain ⟨⟨hex, dotted⟩, rfl, rfl⟩ := ih hrest
          obtain ⟨g, rfl, rfl⟩ := of_readGroup hgroup
          exact ⟨⟨g :: hex, dotted⟩, rfl, rfl⟩
      | none =>
          simp only [hgroup] at h
          split at h
          · rename_i hnil
            obtain ⟨v, hv, rfl⟩ := Option.map_eq_some_iff.1 h
            obtain rfl := parseIPv4_eq_some_iff.1 hv
            exact ⟨⟨[], some v⟩, by rw [hnil]; rfl, rfl⟩
          · cases h

theorem of_mapM_readGroup {ts : List (List Char)} {values : List ℕ}
    (h : ts.mapM readGroup = some values) :
    ∃ left : List Hextet, left.map Hextet.text = ts ∧ left.map Hextet.value = values := by
  induction ts generalizing values with
  | nil => exact ⟨[], rfl, Option.some.inj h⟩
  | cons t ts ih =>
      simp only [List.mapM_cons, Option.bind_eq_bind, Option.bind_eq_some_iff, Option.pure_def,
        Option.some.injEq] at h
      obtain ⟨n, hn, rest, hrest, rfl⟩ := h
      obtain ⟨g, rfl, rfl⟩ := of_readGroup hn
      obtain ⟨left, rfl, rfl⟩ := ih hrest
      exact ⟨g :: left, rfl, rfl⟩

theorem of_readBehind {ts : List (List Char)} {values : List ℕ}
    (h : readBehind ts = some values) :
    ∃ t : Groups, orEmpty t.fields = ts ∧ t.values = values := by
  rw [readBehind] at h
  split at h
  · cases h
  rename_i hnil
  split at h
  · rename_i hempty
    exact ⟨⟨[], none⟩, hempty.symm, Option.some.inj h⟩
  · obtain ⟨t, rfl, rfl⟩ := of_readGroups h
    exact ⟨t, if_neg hnil, rfl⟩

theorem of_splitEmpty {ts left : List (List Char)} {rest : Option (List (List Char))}
    (h : splitEmpty ts = (left, rest)) :
    ts = left ++ rest.elim [] ([] :: ·) := by
  induction ts generalizing left with
  | nil =>
      obtain ⟨rfl, rfl⟩ := Prod.mk.inj h
      rfl
  | cons t ts ih =>
      cases t with
      | nil =>
          obtain ⟨rfl, rfl⟩ := Prod.mk.inj h
          rfl
      | cons c t =>
          obtain ⟨rfl, rfl⟩ := Prod.mk.inj h
          exact congrArg _ (ih rfl)

theorem fill_eq_some_iff {left right values : List ℕ} :
    fill left right = some values ↔ left.length + right.length ≤ 7 ∧
      left ++ (List.replicate (8 - (left.length + right.length)) 0 ++ right) = values := by
  rw [fill, Option.ite_none_right_eq_some, Option.some.injEq]

theorem of_readFields {ts : List (List Char)} {values : List ℕ}
    (h : readFields ts = some values) : ∃ p : Spelling, p.fields = ts ∧ p.values = values := by
  rw [readFields] at h
  split at h
  · rename_i left hsplit
    obtain ⟨hread, hcount⟩ := Option.filter_eq_some_iff.1 h
    obtain ⟨t, rfl, rfl⟩ := of_readGroups hread
    refine ⟨.full t (of_decide_eq_true hcount), ?_, rfl⟩
    rw [of_splitEmpty hsplit]
    exact (List.append_nil _).symm
  · rename_i ts' hsplit
    obtain ⟨right, hright, hfill⟩ := Option.bind_eq_some_iff.1 h
    obtain ⟨t, rfl, rfl⟩ := of_readBehind hright
    obtain ⟨hcount, rfl⟩ := fill_eq_some_iff.1 hfill
    refine ⟨.compressed [] t hcount, ?_, rfl⟩
    rw [of_splitEmpty hsplit]
    rfl
  · cases h
  · rename_i left ts' _ hleft hsplit
    obtain ⟨values', hvalues', h⟩ := Option.bind_eq_some_iff.1 h
    obtain ⟨right, hright, hfill⟩ := Option.bind_eq_some_iff.1 h
    obtain ⟨left', rfl, rfl⟩ := of_mapM_readGroup hvalues'
    obtain ⟨t, rfl, rfl⟩ := of_readBehind hright
    obtain ⟨hcount, rfl⟩ := fill_eq_some_iff.1 hfill
    rw [List.length_map] at hcount
    refine ⟨.compressed left' t hcount, ?_, by rw [List.length_map]; rfl⟩
    rw [of_splitEmpty hsplit, Spelling.fields, orEmpty, if_neg hleft]
    rfl

/-- What is read is the text of a spelling. -/
theorem parseIPv6_eq_some_iff {t : List Char} {values : List ℕ} :
    parseIPv6 t = some values ↔ ∃ p : IPv6Text, p.text = t ∧ p.spelling.values = values := by
  constructor
  · intro h
    rw [parseIPv6] at h
    split at h
    · rename_i hzone
      obtain ⟨p, hfields, rfl⟩ := of_readFields h
      have htext : p.text = t.takeWhile (· ≠ '%') := by
        rw [Spelling.text, hfields, List.intercalate_splitOn]
      have hsplit := List.takeWhile_append_dropWhile (p := fun c => decide (c ≠ '%')) (l := t)
      cases hrest : t.dropWhile (· ≠ '%') with
      | nil =>
          refine ⟨⟨p, [], rfl⟩, ?_, rfl⟩
          rw [hrest, List.append_nil] at hsplit
          exact (List.append_nil _).trans (htext.trans hsplit)
      | cons c zone =>
          obtain rfl : c = '%' := by
            have hhead := List.head?_dropWhile_not (fun c => decide (c ≠ '%')) t
            rw [hrest] at hhead
            simpa using hhead
          rw [hrest] at hzone hsplit
          simp only [isZone, List.length_cons, List.tail_cons, Bool.or_eq_true,
            Bool.and_eq_true, decide_eq_true_eq, List.cons_ne_nil, false_or] at hzone
          have hne : zone ≠ [] := List.ne_nil_of_length_pos (by omega)
          refine ⟨⟨p, zone, hzone.2⟩, ?_, rfl⟩
          rw [IPv6Text.text, if_neg hne, htext]
          exact hsplit
    · cases h
  · rintro ⟨p, rfl, rfl⟩
    exact parseIPv6_text p

end Net

end Shortlink

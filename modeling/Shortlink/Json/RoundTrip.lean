import Shortlink.Json.Read

/-!
# Reading what was written

The text of a record reads as its properties, in the order in which they were written
(`parse_stringify`). Each reader takes back what the writer has put down and leaves the rest
of the text.
-/

namespace Shortlink

namespace Json

open Shortlink.Calendar

variable {c : Char} {cs rest : List Char} {n m : ℕ}

/-! ### Strings -/

theorem skip_cons (h : isSpace c = false) : skip (c :: cs) = c :: cs := by
  rw [skip, List.dropWhile_cons, h]
  rfl

theorem after_cons (h : isSpace c = false) : after c (c :: cs) = some cs := by
  rw [after, skip_cons h]
  exact if_pos rfl

theorem hexDigit?_digitChar (h : n < 16) : hexDigit? (Nat.digitChar n) = some n := by
  revert h
  revert n
  decide

theorem readUnicode_control (h : c < ' ') : readUnicode ('0' :: '0' ::
    Nat.digitChar (c.toNat / 16) :: Nat.digitChar (c.toNat % 16) :: rest) = some (c, rest) := by
  have hlt : c.toNat < 32 := h
  have hhigh := hexDigit?_digitChar (n := c.toNat / 16) (by omega)
  have hlow := hexDigit?_digitChar (n := c.toNat % 16) (by omega)
  have hzero : hexDigit? '0' = some 0 := rfl
  have hnumber : ((0 * 16 + 0) * 16 + c.toNat / 16) * 16 + c.toNat % 16 = c.toNat := by omega
  have hread : readHex ('0' :: '0' :: Nat.digitChar (c.toNat / 16) ::
      Nat.digitChar (c.toNat % 16) :: rest) = some (c.toNat, rest) := by
    simp only [readHex, hzero, hhigh, hlow, Option.bind_eq_bind, Option.bind_some, Option.pure_def,
      hnumber]
  have hsurrogate : ¬ (0xd800 ≤ c.toNat ∧ c.toNat < 0xdc00) := by omega
  have hsurrogate' : ¬ (0xdc00 ≤ c.toNat ∧ c.toNat < 0xe000) := by omega
  simp only [readUnicode, hread, Option.bind_eq_bind, Option.bind_some, if_neg hsurrogate,
    if_neg hsurrogate', Option.pure_def, Char.ofNat_toNat]

/-- A character is read back from what `JSON.stringify` writes for it. -/
theorem readChar_escaped (c : Char) (rest : List Char) :
    ∃ d ds, escaped c = d :: ds ∧ d ≠ '"' ∧ readChar d (ds ++ rest) = some (c, rest) := by
  rw [escaped]
  cases hshort : shortEscapes.lookup c with
  | some e =>
      have hmem : (c, e) ∈ shortEscapes := by
        obtain ⟨l₁, l₂, heq, -⟩ := List.lookup_eq_some_iff.1 hshort
        rw [heq]
        exact List.mem_append_right _ List.mem_cons_self
      refine ⟨'\\', [e], rfl, by decide, ?_⟩
      simp only [shortEscapes, List.mem_cons, Prod.mk.injEq, List.not_mem_nil, or_false] at hmem
      rcases hmem with ⟨rfl, rfl⟩ | ⟨rfl, rfl⟩ | ⟨rfl, rfl⟩ | ⟨rfl, rfl⟩ | ⟨rfl, rfl⟩ |
        ⟨rfl, rfl⟩ | ⟨rfl, rfl⟩ <;> rfl
  | none =>
      have hne : ∀ x ∈ shortEscapes, c ≠ x.1 := by
        intro x hx
        simpa using List.lookup_eq_none_iff.1 hshort x hx
      have hquote : c ≠ '"' := hne ('"', '"') (by decide)
      have hslash : c ≠ '\\' := hne ('\\', '\\') (by decide)
      dsimp only
      split
      · rename_i hcontrol
        exact ⟨'\\', _, rfl, by decide, readUnicode_control hcontrol⟩
      · rename_i hcontrol
        refine ⟨c, [], rfl, hquote, ?_⟩
        rw [readChar, if_neg hslash, if_neg hcontrol]
        rfl

theorem length_le_flatMap_escaped (xs : List Char) : xs.length ≤ (xs.flatMap escaped).length := by
  induction xs with
  | nil => exact Nat.le_refl 0
  | cons x xs ih =>
      obtain ⟨d, ds, hd, -⟩ := readChar_escaped x []
      rw [List.flatMap_cons, hd, List.length_append, List.length_cons, List.length_cons]
      omega

theorem readChars_escaped {xs : List Char} (h : xs.length < n) :
    readChars n (xs.flatMap escaped ++ '"' :: rest) = some (xs, rest) := by
  induction xs generalizing n with
  | nil =>
      obtain ⟨n, rfl⟩ := Nat.exists_eq_succ_of_ne_zero (Nat.ne_of_gt h)
      rfl
  | cons x xs ih =>
      obtain ⟨n, rfl⟩ := Nat.exists_eq_succ_of_ne_zero (Nat.ne_of_gt (Nat.zero_lt_of_lt h))
      obtain ⟨d, ds, hd, hquote, hread⟩ := readChar_escaped x
        (xs.flatMap escaped ++ '"' :: rest)
      rw [List.flatMap_cons, hd, List.append_assoc, List.cons_append, readChars, if_neg hquote,
        hread]
      simp only [Option.bind_eq_bind, Option.bind_some, ih (Nat.lt_of_succ_lt_succ h),
        Option.pure_def]

theorem readString_escaped (s : String) (rest : List Char) :
    readString (s.toList.flatMap escaped ++ '"' :: rest) = some (s, rest) := by
  have hlength : s.toList.length < (s.toList.flatMap escaped ++ '"' :: rest).length := by
    have hle := length_le_flatMap_escaped s.toList
    rw [List.length_append, List.length_cons]
    omega
  rw [readString, readChars_escaped hlength]
  simp

/-! ### Numbers -/

/-- A value of a record is followed by a comma or a closing brace. -/
def Closes (rest : List Char) : Prop := ∃ cs, rest = ',' :: cs ∨ rest = '}' :: cs

theorem isDigit_toDigits (n : ℕ) : ∀ c ∈ Nat.toDigits 10 n, c.isDigit = true :=
  fun _ hc => Nat.isDigit_of_mem_toDigits (by decide) (by decide) hc

theorem number_toDigits (n : ℕ) : number (Nat.toDigits 10 n) = n := by
  rw [number, Nat.ofDigitChars_ten_toDigits]

/-- The digits of a number begin with a zero only if it is zero. -/
theorem head_toDigits (n : ℕ) :
    ¬ ((Nat.toDigits 10 n).head? = some '0' ∧ 1 < (Nat.toDigits 10 n).length) := by
  rintro ⟨hhead, hlength⟩
  obtain ⟨ds, hds⟩ : ∃ ds, Nat.toDigits 10 n = '0' :: ds := by
    cases h : Nat.toDigits 10 n with
    | nil => rw [h] at hhead; cases hhead
    | cons d ds => rw [h] at hhead; obtain rfl := Option.some.inj hhead; exact ⟨ds, rfl⟩
  have hdigits : Digits ds := fun c hc => isDigit_toDigits n c (hds ▸ List.mem_cons_of_mem _ hc)
  have hvalue : n < 10 ^ ds.length := by
    have hnumber := number_toDigits n
    rw [hds, number_cons] at hnumber
    have hlt := number_lt hdigits
    simp at hnumber
    omega
  rw [hds, List.length_cons] at hlength
  have hle := (Nat.length_toDigits_le_iff (b := 10) (by decide) (by omega)).2 hvalue
  rw [hds, List.length_cons] at hle
  omega

theorem takeWhile_toDigits (h : Closes rest) :
    (Nat.toDigits 10 n ++ rest).takeWhile Char.isDigit = Nat.toDigits 10 n ∧
      (Nat.toDigits 10 n ++ rest).dropWhile Char.isDigit = rest := by
  have hstop : rest.takeWhile Char.isDigit = [] ∧ rest.dropWhile Char.isDigit = rest := by
    obtain ⟨cs, rfl | rfl⟩ := h <;> exact ⟨rfl, rfl⟩
  rw [List.takeWhile_append_of_pos (isDigit_toDigits n),
    List.dropWhile_append_of_pos (isDigit_toDigits n), hstop.1, hstop.2, List.append_nil]
  exact ⟨rfl, rfl⟩

theorem readInteger_toDigits (h : Closes rest) :
    readInteger (Nat.toDigits 10 n ++ rest) = some (n, rest) := by
  obtain ⟨htake, hdrop⟩ := takeWhile_toDigits (n := n) h
  have hwell : ¬ (Nat.toDigits 10 n = [] ∨ (Nat.toDigits 10 n).head? = some '0' ∧
      1 < (Nat.toDigits 10 n).length) :=
    not_or.2 ⟨Nat.toDigits_ne_nil, head_toDigits n⟩
  rw [readInteger, htake, hdrop]
  simp only [if_neg hwell, number_toDigits]

theorem decimal_natural (n : ℕ) : decimal false (n * 10 ^ 0 + 0) (0 - (0 : ℕ)) = n := by
  simp [decimal]

theorem readMagnitude_toDigits (h : Closes rest) :
    readMagnitude false (Nat.toDigits 10 n ++ rest) = some (.number n, rest) := by
  have hfraction : readFraction rest = some ((0, 0), rest) := by
    obtain ⟨cs, rfl | rfl⟩ := h <;> rfl
  have hexponent : readExponent rest = some (0, rest) := by
    obtain ⟨cs, rfl | rfl⟩ := h <;> rfl
  rw [readMagnitude, readInteger_toDigits h]
  simp only [Option.bind_eq_bind, Option.bind_some, hfraction, hexponent, decimal_natural,
    Option.pure_def]

theorem readNumber_toDigits (h : Closes rest) :
    readNumber (Nat.toDigits 10 n ++ rest) = some (.number n, rest) := by
  have hread := readMagnitude_toDigits (n := n) h
  revert hread
  cases hdigits : Nat.toDigits 10 n with
  | nil => exact absurd hdigits Nat.toDigits_ne_nil
  | cons d ds =>
      have hdigit := isDigit_toDigits n d (hdigits ▸ List.mem_cons_self)
      intro hread
      rw [List.cons_append] at hread ⊢
      rw [readNumber.eq_def]
      split
      · rename_i heq
        obtain ⟨rfl, -⟩ := List.cons.inj heq
        cases hdigit
      · exact hread

theorem word_of_ne {d : Char} {text : String} {value : Value}
    (h : ∃ t ts, text.toList = t :: ts ∧ t ≠ d) : word text value (d :: cs) = none := by
  obtain ⟨t, ts, htext, hne⟩ := h
  rw [word, htext, List.isPrefixOf_cons_cons, beq_false_of_ne hne]
  rfl

/-! ### Records -/

theorem readValue_toDigits (h : Closes rest) :
    readValue (n + 1) (Nat.toDigits 10 m ++ rest) = some (.number m, rest) := by
  have hread := readNumber_toDigits (n := m) h
  revert hread
  cases hdigits : Nat.toDigits 10 m with
  | nil => exact absurd hdigits Nat.toDigits_ne_nil
  | cons d ds =>
      have hdigit := isDigit_toDigits m d (hdigits ▸ List.mem_cons_self)
      have hne : ∀ c : Char, c.isDigit = false → c ≠ d := by
        rintro c hc rfl
        rw [hc] at hdigit
        cases hdigit
      have hspace : isSpace d = false := by
        simp [isSpace, (hne ' ' rfl).symm, (hne '\x09' rfl).symm, (hne '\x0a' rfl).symm,
          (hne '\x0d' rfl).symm]
      intro hread
      rw [List.cons_append] at hread ⊢
      rw [readValue, skip_cons hspace]
      simp only [if_neg (hne '{' rfl).symm, if_neg (hne '[' rfl).symm,
        if_neg (hne '"' rfl).symm]
      rw [word_of_ne ⟨'t', _, rfl, hne 't' rfl⟩, word_of_ne ⟨'f', _, rfl, hne 'f' rfl⟩,
        word_of_ne ⟨'n', _, rfl, hne 'n' rfl⟩]
      exact hread

theorem readValue_text (s : Scalar) (h : Closes rest) :
    readValue (n + 1) (s.text ++ rest) = some (s.value, rest) := by
  cases s with
  | bool b => cases b <;> rfl
  | number m => exact readValue_toDigits h
  | string s =>
      rw [Scalar.text, quoted, List.cons_append, List.append_assoc, List.singleton_append,
        readValue, skip_cons rfl]
      simp only [Char.reduceEq, if_false, if_true, readString_escaped, Option.map_some]
      rfl

theorem readMember_fieldText (field : String × Scalar) (h : Closes rest) :
    readMember (readValue (n + 1)) (fieldText field ++ rest) =
      some ((field.1, field.2.value), rest) := by
  have htext : fieldText field ++ rest =
      '"' :: (field.1.toList.flatMap escaped ++ '"' :: (':' :: (field.2.text ++ rest))) := by
    simp [fieldText, quoted]
  rw [readMember, htext, after_cons rfl]
  simp only [Option.bind_eq_bind, Option.bind_some, readString_escaped, after_cons (c := ':') rfl,
    readValue_text field.2 h, Option.pure_def]

theorem readList_fieldsText {fields : Record} (hne : fields ≠ []) (h : fields.length ≤ m) :
    readList (readMember (readValue (n + 1))) '}' m (fieldsText fields ++ rest) =
      some (fields.members, rest) := by
  induction fields generalizing m with
  | nil => exact absurd rfl hne
  | cons field fields ih =>
      obtain ⟨m, rfl⟩ := Nat.exists_eq_succ_of_ne_zero (Nat.ne_of_gt (Nat.zero_lt_of_lt h))
      cases fields with
      | nil =>
          have hread : readMember (readValue (n + 1)) (fieldText field ++ '}' :: rest) =
              some ((field.1, field.2.value), '}' :: rest) :=
            readMember_fieldText field ⟨rest, .inr rfl⟩
          rw [fieldsText, List.append_assoc, List.singleton_append, readList, hread]
          rfl
      | cons next fields =>
          have hread : readMember (readValue (n + 1))
              (fieldText field ++ ',' :: (fieldsText (next :: fields) ++ rest)) =
              some ((field.1, field.2.value), ',' :: (fieldsText (next :: fields) ++ rest)) :=
            readMember_fieldText field ⟨_, .inl rfl⟩
          have htext : fieldsText (field :: next :: fields) ++ rest =
              fieldText field ++ ',' :: (fieldsText (next :: fields) ++ rest) := by
            rw [← List.cons_append, ← List.append_assoc]
            rfl
          rw [htext, readList, hread]
          simp only [Option.bind_eq_bind, Option.bind_some, skip_cons (c := ',') rfl,
            Char.reduceEq, if_false, if_true, ih (List.cons_ne_nil _ _)
              (Nat.le_of_succ_le_succ h), Option.pure_def]
          rfl

theorem length_le_fieldsText (fields : Record) : fields.length ≤ (fieldsText fields).length := by
  induction fields with
  | nil => exact Nat.zero_le _
  | cons field fields ih =>
      cases fields with
      | nil => simp [fieldsText]
      | cons next fields =>
          simp only [fieldsText, List.length_append, List.length_cons] at ih ⊢
          omega

/-- The text of a record reads as its properties. -/
theorem parse_stringify (fields : Record) :
    parse (stringify fields) = some (.object fields.members) := by
  have hread : readItems (readMember (readValue ((fieldsText fields).length + 1))) '}'
      (fieldsText fields).length (fieldsText fields) = some (fields.members, []) := by
    rw [readItems]
    cases fields with
    | nil => rfl
    | cons field fields =>
        have hopen : after '}' (fieldsText (field :: fields)) = none := by
          have hquote : ∃ cs, fieldsText (field :: fields) = '"' :: cs := by
            cases fields <;> exact ⟨_, rfl⟩
          obtain ⟨cs, hcs⟩ := hquote
          rw [hcs, after, skip_cons rfl]
          rfl
        rw [hopen, ← List.append_nil (fieldsText (field :: fields))]
        exact readList_fieldsText (List.cons_ne_nil field fields)
          (by rw [List.append_nil]; exact length_le_fieldsText _)
  rw [parse, stringify, String.toList_ofList, List.length_cons, readValue, skip_cons rfl]
  simp only [if_true, hread, Option.map_some, Option.bind_eq_bind, Option.bind_some]
  rfl

/-! ### Properties -/

theorem lookup_of_mem {members : List (String × Value)} (hnodup : (members.map (·.1)).Nodup)
    {name : String} {v : Value} (h : (name, v) ∈ members) : members.lookup name = some v := by
  induction members with
  | nil => cases h
  | cons member members ih =>
      obtain ⟨hfresh, hnodup⟩ := List.nodup_cons.1 hnodup
      rcases List.mem_cons.1 h with rfl | h
      · exact List.lookup_cons_self
      · have hne : name ≠ member.1 := by
          rintro rfl
          exact hfresh (List.mem_map.2 ⟨_, h, rfl⟩)
        rw [List.lookup_cons, beq_false_of_ne hne]
        exact ih hnodup h

/-- A property is found, in whatever order the members stand. -/
theorem get?_of_perm {fields : Record} {members : List (String × Value)}
    (hperm : members.Perm fields.members) (hnodup : (fields.map (·.1)).Nodup) (name : String)
    (s : Scalar) (h : (name, s) ∈ fields) :
    (Value.object members).get? name = some s.value := by
  have hmem : (name, s.value) ∈ members.reverse :=
    List.mem_reverse.2 (hperm.mem_iff.2 (List.mem_map_of_mem h))
  have hnames : (members.reverse.map (·.1)).Nodup := by
    rw [((members.reverse_perm.trans hperm).map (·.1)).nodup_iff, Record.members, List.map_map]
    exact hnodup
  exact lookup_of_mem hnames hmem

end Json

end Shortlink

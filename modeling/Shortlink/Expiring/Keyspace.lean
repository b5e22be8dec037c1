import Shortlink.Calendar.Decimal
import Shortlink.Expiring.Store
import Mathlib.Data.Option.Basic

/-!
# Stores of texts

A keyspace maps texts to texts, as a Redis server does: an entry may have an instant at which
it expires. The operations are `GET`, `SET`, `DEL`, `INCR` and `EXPIRE`.

A keyspace represents a typed store when each key of the store has a text of its own, under
which there is a text that reads as the value of the key and expires with it. What else is in
the keyspace does not matter, so one keyspace may represent several stores.
-/

namespace Shortlink

namespace Expiring

/-- The clock and the entries, some with the instant at which they expire. -/
structure Keyspace where
  now : ℕ
  cell : String → Option (String × Option ℕ)

namespace Keyspace

def empty (now : ℕ) : Keyspace := ⟨now, fun _ => none⟩

def tick (texts : Keyspace) (n : ℕ) : Keyspace := { texts with now := texts.now + n }

/-- Replace the entry under a key. -/
def put (texts : Keyspace) (key : String) (entry : Option (String × Option ℕ)) : Keyspace :=
  { texts with cell := Function.update texts.cell key entry }

/-- The text under a key, if it has not expired. -/
def get (texts : Keyspace) (key : String) : Option String :=
  match texts.cell key with
  | some (text, some expiresAt) => if texts.now < expiresAt then some text else none
  | some (text, none) => some text
  | none => none

def del (texts : Keyspace) (key : String) : Keyspace := texts.put key none

/-- `SET key text EX ttlSeconds`; an expiry of zero seconds is an error. -/
def setEx (texts : Keyspace) (key text : String) (ttlSeconds : ℕ) : Option Keyspace :=
  if ttlSeconds = 0 then none
  else some (texts.put key (some (text, some (texts.now + ttlSeconds * 1000))))

/-- The instant at which a visible entry expires. -/
def expiry (texts : Keyspace) (key : String) : Option ℕ :=
  match texts.get key with
  | some _ => (texts.cell key).bind Prod.snd
  | none => none

/-- `SET key text KEEPTTL`. -/
def setKeepTtl (texts : Keyspace) (key text : String) : Keyspace :=
  texts.put key (some (text, texts.expiry key))

/-- The natural number whose decimal text this is. -/
def natural? (text : String) : Option ℕ :=
  let n := Calendar.number text.toList
  if Nat.toDigits 10 n = text.toList then some n else none

/-- The largest number that `INCR` can hold. -/
def INCR_LIMIT : ℕ := 2 ^ 63 - 1

/-- `INCR` of a key that is not there or holds a natural number. -/
def incr (texts : Keyspace) (key : String) : Option (ℕ × Keyspace) :=
  match texts.get key with
  | none => some (1, texts.put key (some ("1", none)))
  | some text => do
      let n ← natural? text
      if n < INCR_LIMIT then
        return (n + 1, texts.setKeepTtl key (Nat.repr (n + 1)))
      else none

/-- `EXPIRE key ttlSeconds`. -/
def expire (texts : Keyspace) (key : String) (ttlSeconds : ℕ) : Keyspace :=
  match texts.get key with
  | some text => texts.put key (some (text, some (texts.now + ttlSeconds * 1000)))
  | none => texts

variable (texts : Keyspace) {key key' : String} {entry : Option (String × Option ℕ)}

@[simp] theorem now_put : (texts.put key entry).now = texts.now := rfl

@[simp] theorem cell_put_self : (texts.put key entry).cell key = entry :=
  Function.update_self _ _ _

theorem cell_put_of_ne (h : key' ≠ key) : (texts.put key entry).cell key' = texts.cell key' :=
  Function.update_of_ne h _ _

theorem put_put (entry' : Option (String × Option ℕ)) :
    (texts.put key entry).put key entry' = texts.put key entry' := by
  simp only [put, Function.update_idem]

theorem natural?_repr (n : ℕ) : natural? (Nat.repr n) = some n := by
  have hnumber : Calendar.number (Nat.toDigits 10 n) = n := by
    rw [Calendar.number, Nat.ofDigitChars_ten_toDigits]
  rw [natural?, Nat.toList_repr]
  simp only [hnumber, if_true]

/-- At most the entries under these keys have changed. -/
structure ChangesOnly (keys : String → Prop) (texts texts' : Keyspace) : Prop where
  now : texts'.now = texts.now
  cell : ∀ key, ¬ keys key → texts'.cell key = texts.cell key

section

variable {texts} {keys : String → Prop} {texts₁ texts₂ texts₃ : Keyspace} {text : String}

theorem ChangesOnly.refl (texts : Keyspace) : ChangesOnly keys texts texts :=
  ⟨rfl, fun _ _ => rfl⟩

theorem ChangesOnly.trans (h₁ : ChangesOnly keys texts₁ texts₂)
    (h₂ : ChangesOnly keys texts₂ texts₃) : ChangesOnly keys texts₁ texts₃ :=
  ⟨h₂.now.trans h₁.now, fun key hkey => (h₂.cell key hkey).trans (h₁.cell key hkey)⟩

theorem changesOnly_put (hkey : keys key) : ChangesOnly keys texts (texts.put key entry) := by
  refine ⟨rfl, fun key' hkey' => texts.cell_put_of_ne fun heq => hkey' ?_⟩
  rw [heq]
  exact hkey

theorem changesOnly_setEx {ttlSeconds : ℕ} (hkey : keys key)
    (h : texts.setEx key text ttlSeconds = some texts₁) : ChangesOnly keys texts texts₁ := by
  rw [setEx] at h
  split at h
  · cases h
  · cases h
    exact changesOnly_put hkey

end

/-- A command on texts does what a command on typed entries does: the replies are the same,
the entries stay related, and no other key is touched. -/
def Simulates {σ α : Type} (related : Keyspace → σ → Prop) (keys : String → Prop)
    (texts : Keyspace) (onTexts : Option (α × Keyspace)) (onEntries : α × σ) : Prop :=
  ∃ texts', onTexts = some (onEntries.1, texts') ∧ related texts' onEntries.2 ∧
    ChangesOnly keys texts texts'

end Keyspace

/-! ### The store that a keyspace represents -/

section

variable {K : Type} {V : K → Type}

/-- The text that an entry of the store is held as: it reads as the value and expires with
it. -/
def HeldAs (reads : (k : K) → String → V k → Prop) (k : K) (entry : String × Option ℕ)
    (value : V k × ℕ) : Prop :=
  reads k entry.1 value.1 ∧ entry.2 = some value.2

/-- The entries of the store, under the texts of their keys. -/
structure Represents (name : K → String) (used : K → Prop)
    (reads : (k : K) → String → V k → Prop) (texts : Keyspace) (s : Store K V) : Prop where
  now : texts.now = s.now
  cell : ∀ k, used k → Option.Rel (HeldAs reads k) (texts.cell (name k)) (s.cell k)

variable {name : K → String} {used : K → Prop} {reads : (k : K) → String → V k → Prop}
  {texts : Keyspace} {s s' : Store K V} {k : K}

namespace Represents

theorem init (now : ℕ) : Represents name used reads (Keyspace.empty now) (Store.empty now) :=
  ⟨rfl, fun _ _ => .none⟩

theorem tick (h : Represents name used reads texts s) (n : ℕ) :
    Represents name used reads (texts.tick n) (s.tick n) :=
  ⟨congrArg (· + n) h.now, h.cell⟩

/-- A larger set of readings. -/
theorem mono {reads' : (k : K) → String → V k → Prop}
    (h : Represents name used reads texts s)
    (hreads : ∀ k text v, reads k text v → reads' k text v) :
    Represents name used reads' texts s := by
  refine ⟨h.now, fun k hk => ?_⟩
  have hcell := h.cell k hk
  revert hcell
  cases texts.cell (name k) with
  | none =>
      cases s.cell k with
      | none => exact fun _ => .none
      | some value => exact fun h => by cases h
  | some entry =>
      cases s.cell k with
      | none => exact fun h => by cases h
      | some value =>
          intro h
          cases h with
          | some h => exact .some ⟨hreads _ _ _ h.1, h.2⟩

/-- What is visible in the store, as a text. -/
theorem get (h : Represents name used reads texts s) (hk : used k) :
    Option.Rel (reads k) (texts.get (name k)) (s.get k) := by
  have hcell := h.cell k hk
  rw [Keyspace.get, Store.get, h.now]
  revert hcell
  cases texts.cell (name k) with
  | none =>
      cases s.cell k with
      | none => exact fun _ => .none
      | some value => exact fun h => by cases h
  | some entry =>
      cases s.cell k with
      | none => exact fun h => by cases h
      | some value =>
          intro hheld
          obtain ⟨text, expiresAt⟩ := entry
          obtain ⟨v, e⟩ := value
          cases hheld with
          | some hheld =>
              obtain ⟨hreads, rfl⟩ := hheld
              dsimp only [visible]
              split
              · exact .some hreads
              · exact .none

theorem get_eq_none (h : Represents name used reads texts s) (hk : used k)
    (hnone : s.get k = none) : texts.get (name k) = none := by
  have hget := h.get hk
  rw [hnone] at hget
  cases hget' : texts.get (name k) with
  | none => rfl
  | some text =>
      rw [hget'] at hget
      cases hget

theorem get_eq_some (h : Represents name used reads texts s) (hk : used k) {v : V k}
    (hsome : s.get k = some v) : ∃ text, texts.get (name k) = some text ∧ reads k text v := by
  have hget := h.get hk
  rw [hsome] at hget
  cases hget' : texts.get (name k) with
  | none =>
      rw [hget'] at hget
      cases hget
  | some text =>
      rw [hget'] at hget
      cases hget with
      | some hreads => exact ⟨text, rfl, hreads⟩

theorem isSome_get (h : Represents name used reads texts s) (hk : used k) :
    (texts.get (name k)).isSome = (s.get k).isSome := by
  cases hget : s.get k with
  | none =>
      rw [h.get_eq_none hk hget]
      rfl
  | some v =>
      obtain ⟨text, htext, -⟩ := h.get_eq_some hk hget
      rw [htext]
      rfl

/-- What is under other keys does not matter. -/
theorem frame {texts' : Keyspace} {keys : String → Prop}
    (h : Represents name used reads texts s) (hchange : Keyspace.ChangesOnly keys texts texts')
    (hkeys : ∀ k, used k → ¬ keys (name k)) : Represents name used reads texts' s :=
  ⟨hchange.now.trans h.now, fun k hk => by
    rw [hchange.cell (name k) (hkeys k hk)]
    exact h.cell k hk⟩

/-- One entry is replaced in the keyspace and in the store. -/
theorem put (h : Represents name used reads texts s)
    (hname : ∀ k k', used k → used k' → name k = name k' → k = k') (hk : used k)
    {entry : Option (String × Option ℕ)} (hnow : s'.now = s.now)
    (hself : Option.Rel (HeldAs reads k) entry (s'.cell k))
    (hother : ∀ k', k' ≠ k → s'.cell k' = s.cell k') :
    Represents name used reads (texts.put (name k) entry) s' := by
  refine ⟨h.now.trans hnow.symm, fun k' hk' => ?_⟩
  by_cases hsame : k' = k
  · subst hsame
    rw [Keyspace.cell_put_self]
    exact hself
  · rw [Keyspace.cell_put_of_ne texts fun heq => hsame (hname k' k hk' hk heq),
      hother k' hsame]
    exact h.cell k' hk'

section

variable [DecidableEq K]
  (hname : ∀ k k', used k → used k' → name k = name k' → k = k')

include hname

theorem del (h : Represents name used reads texts s) (hk : used k) :
    Represents name used reads (texts.del (name k)) (s.del k) :=
  h.put hname hk rfl (by rw [Store.cell_del_self]; exact .none)
    fun _ hne => s.cell_del_of_ne hne

theorem setEx (h : Represents name used reads texts s) (hk : used k) {text : String} {v : V k}
    (hreads : reads k text v) {ttlSeconds : ℕ} (httl : 0 < ttlSeconds) :
    ∃ texts', texts.setEx (name k) text ttlSeconds = some texts' ∧
      Represents name used reads texts' (s.set k v (ttlSeconds * 1000)) := by
  refine ⟨_, if_neg (Nat.ne_of_gt httl), h.put hname hk rfl ?_ fun _ hne =>
    s.cell_set_of_ne v _ hne⟩
  rw [Store.cell_set_self, h.now]
  exact .some ⟨hreads, rfl⟩

/-- A visible entry is changed and expires when it did. -/
theorem setKeepTtl (h : Represents name used reads texts s) (hk : used k) {text : String}
    {v : V k} {f : V k → V k} (hget : s.get k = some v) (hreads : reads k text (f v)) :
    Represents name used reads (texts.setKeepTtl (name k) text) (s.modify k f) := by
  obtain ⟨old, hold, -⟩ := h.get_eq_some hk hget
  obtain ⟨expiresAt, hcell, -⟩ := visible_eq_some_iff.1 hget
  have hexpiry : texts.expiry (name k) = some expiresAt := by
    have hheld := h.cell k hk
    rw [hcell] at hheld
    rw [Keyspace.expiry, hold]
    cases hentry : texts.cell (name k) with
    | none =>
        rw [hentry] at hheld
        cases hheld
    | some entry =>
        rw [hentry] at hheld
        cases hheld with
        | some hheld => exact hheld.2
  refine h.put hname hk rfl ?_ fun _ hne => s.cell_modify_of_ne f hne
  rw [Store.cell_modify_self, hcell, hexpiry]
  exact .some ⟨hreads, rfl⟩

end

end Represents

end

end Expiring

end Shortlink

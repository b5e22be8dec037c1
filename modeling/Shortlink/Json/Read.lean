import Shortlink.Json.Write

/-!
# Reading JSON

`JSON.parse`. A reader takes a value off the front of a text and returns what follows it. The
nesting is limited by the length of the text, which no value exceeds.
-/

namespace Shortlink

namespace Json

open Shortlink.Calendar

/-! ### White space and words -/

def isSpace (c : Char) : Bool := c = ' ' || c = '\x09' || c = '\x0a' || c = '\x0d'

def skip (cs : List Char) : List Char := cs.dropWhile isSpace

/-- What follows a character, with white space before it. -/
def after (c : Char) (cs : List Char) : Option (List Char) :=
  match skip cs with
  | [] => none
  | d :: cs => if d = c then some cs else none

def word (text : String) (value : Value) (cs : List Char) : Option (Value × List Char) :=
  if text.toList.isPrefixOf cs then some (value, cs.drop text.toList.length) else none

/-! ### Strings -/

def hexDigit? (c : Char) : Option ℕ :=
  if c.isDigit then some (c.toNat - '0'.toNat)
  else if 'a' ≤ c ∧ c ≤ 'f' then some (c.toNat - 'a'.toNat + 10)
  else if 'A' ≤ c ∧ c ≤ 'F' then some (c.toNat - 'A'.toNat + 10)
  else none

def readHex : List Char → Option (ℕ × List Char)
  | a :: b :: c :: d :: cs => do
      let a ← hexDigit? a
      let b ← hexDigit? b
      let c ← hexDigit? c
      let d ← hexDigit? d
      return (((a * 16 + b) * 16 + c) * 16 + d, cs)
  | _ => none

/-- What `\u` stands for. A surrogate counts only together with the other half. -/
def readUnicode (cs : List Char) : Option (Char × List Char) := do
  let (n, cs) ← readHex cs
  if 0xd800 ≤ n ∧ n < 0xdc00 then
    match cs with
    | '\\' :: 'u' :: cs => do
        let (m, cs) ← readHex cs
        if 0xdc00 ≤ m ∧ m < 0xe000 then
          return (Char.ofNat (0x10000 + (n - 0xd800) * 0x400 + (m - 0xdc00)), cs)
        else none
    | _ => none
  else if 0xdc00 ≤ n ∧ n < 0xe000 then none
  else return (Char.ofNat n, cs)

/-- The characters that stand for themselves or another one behind a backslash. -/
def unescapes : List (Char × Char) :=
  ('/', '/') :: shortEscapes.map Prod.swap

def readEscape : List Char → Option (Char × List Char)
  | [] => none
  | e :: cs => if e = 'u' then readUnicode cs else (unescapes.lookup e).map fun c => (c, cs)

/-- A character of a string, other than the closing quote. -/
def readChar (c : Char) (cs : List Char) : Option (Char × List Char) :=
  if c = '\\' then readEscape cs else if c < ' ' then none else some (c, cs)

/-- The characters up to the closing quote, at most as many as the number says. -/
def readChars : ℕ → List Char → Option (List Char × List Char)
  | 0, _ => none
  | _, [] => none
  | n + 1, c :: cs =>
      if c = '"' then some ([], cs)
      else do
        let (x, cs) ← readChar c cs
        let (xs, cs) ← readChars n cs
        return (x :: xs, cs)

/-- A string behind its opening quote. -/
def readString (cs : List Char) : Option (String × List Char) :=
  (readChars cs.length cs).map fun (xs, cs) => (String.ofList xs, cs)

/-! ### Numbers -/

def readInteger (cs : List Char) : Option (ℕ × List Char) :=
  let digits := cs.takeWhile Char.isDigit
  if digits = [] ∨ digits.head? = some '0' ∧ 1 < digits.length then none
  else some (number digits, cs.dropWhile Char.isDigit)

/-- The digits behind the point, as a number, and how many they are. -/
def readFraction : List Char → Option ((ℕ × ℕ) × List Char)
  | '.' :: cs =>
      let digits := cs.takeWhile Char.isDigit
      if digits = [] then none
      else some ((number digits, digits.length), cs.dropWhile Char.isDigit)
  | cs => some ((0, 0), cs)

def readSign : List Char → Bool × List Char
  | '-' :: cs => (true, cs)
  | '+' :: cs => (false, cs)
  | cs => (false, cs)

def readExponent : List Char → Option (ℤ × List Char)
  | [] => some (0, [])
  | c :: cs =>
      if c = 'e' ∨ c = 'E' then
        let (negative, cs) := readSign cs
        let digits := cs.takeWhile Char.isDigit
        if digits = [] then none
        else some (if negative then -number digits else number digits,
          cs.dropWhile Char.isDigit)
      else some (0, c :: cs)

def decimal (negative : Bool) (mantissa : ℕ) (exponent : ℤ) : ℚ :=
  let m : ℚ := if negative then -mantissa else mantissa
  if 0 ≤ exponent then m * 10 ^ exponent.toNat else m / 10 ^ (-exponent).toNat

def readMagnitude (negative : Bool) (cs : List Char) : Option (Value × List Char) := do
  let (n, cs) ← readInteger cs
  let ((f, k), cs) ← readFraction cs
  let (e, cs) ← readExponent cs
  return (.number (decimal negative (n * 10 ^ k + f) (e - k)), cs)

def readNumber : List Char → Option (Value × List Char)
  | '-' :: cs => readMagnitude true cs
  | cs => readMagnitude false cs

/-! ### Values -/

/-- Elements up to a closing character, with commas between them, at most as many as the
number says. -/
def readList {α : Type} (item : List Char → Option (α × List Char)) (close : Char) :
    ℕ → List Char → Option (List α × List Char)
  | 0, _ => none
  | n + 1, cs => do
      let (x, cs) ← item cs
      match skip cs with
      | [] => none
      | c :: cs =>
          if c = close then return ([x], cs)
          else if c = ',' then do
            let (xs, cs) ← readList item close n cs
            return (x :: xs, cs)
          else none

/-- `readList`, or nothing before the closing character. -/
def readItems {α : Type} (item : List Char → Option (α × List Char)) (close : Char) (n : ℕ)
    (cs : List Char) : Option (List α × List Char) :=
  match after close cs with
  | some cs => some ([], cs)
  | none => readList item close n cs

def readMember (value : List Char → Option (Value × List Char)) (cs : List Char) :
    Option ((String × Value) × List Char) := do
  let cs ← after '"' cs
  let (name, cs) ← readString cs
  let cs ← after ':' cs
  let (v, cs) ← value cs
  return ((name, v), cs)

/-- A value, nested at most as deep as the number says. -/
def readValue : ℕ → List Char → Option (Value × List Char)
  | 0, _ => none
  | n + 1, cs =>
      match skip cs with
      | [] => none
      | c :: cs =>
          if c = '{' then
            (readItems (readMember (readValue n)) '}' cs.length cs).map
              fun (members, cs) => (.object members, cs)
          else if c = '[' then
            (readItems (readValue n) ']' cs.length cs).map
              fun (items, cs) => (.array items, cs)
          else if c = '"' then (readString cs).map fun (s, cs) => (.string s, cs)
          else
            word "true" (.bool true) (c :: cs) <|> word "false" (.bool false) (c :: cs) <|>
              word "null" .null (c :: cs) <|> readNumber (c :: cs)

/-- `JSON.parse`; `none` is a `SyntaxError`. -/
def parse (text : String) : Option Value := do
  let (v, cs) ← readValue (text.toList.length + 1) text.toList
  if skip cs = [] then return v else none

end Json

end Shortlink

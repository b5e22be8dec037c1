import Shortlink.Calendar.Decimal
import Mathlib.Data.Rat.Defs

/-!
# JSON values and the texts of records

`JSON.stringify` of an object whose properties are truth values, natural numbers and strings.
A number is written in digits, as JavaScript does below `10 ^ 21`. The strings of Lean have
no lone surrogates.
-/

namespace Shortlink

namespace Json

open Shortlink.Calendar

/-- A JSON value; a number is the exact value of its digits. -/
inductive Value where
  | null
  | bool (b : Bool)
  | number (q : ℚ)
  | string (s : String)
  | array (items : List Value)
  | object (members : List (String × Value))

/-- A property of a record. -/
inductive Scalar where
  | bool (b : Bool)
  | number (n : ℕ)
  | string (s : String)
  deriving DecidableEq

def Scalar.value : Scalar → Value
  | .bool b => .bool b
  | .number n => .number n
  | .string s => .string s

/-- The properties of an object, in the order in which they were set. -/
abbrev Record : Type := List (String × Scalar)

def Record.members (fields : Record) : List (String × Value) :=
  fields.map fun field => (field.1, field.2.value)

/-- The property of an object; of two members with one name the later counts. -/
def Value.get? (name : String) : Value → Option Value
  | .object members => members.reverse.lookup name
  | _ => none

/-! ### Strings -/

/-- The characters that stand for a control character behind a backslash. -/
def shortEscapes : List (Char × Char) :=
  [('\x08', 'b'), ('\x09', 't'), ('\x0a', 'n'), ('\x0c', 'f'), ('\x0d', 'r'), ('"', '"'),
    ('\\', '\\')]

/-- A character of a string as `JSON.stringify` writes it. -/
def escaped (c : Char) : List Char :=
  match shortEscapes.lookup c with
  | some e => ['\\', e]
  | none =>
      if c < ' ' then
        ['\\', 'u', '0', '0', Nat.digitChar (c.toNat / 16), Nat.digitChar (c.toNat % 16)]
      else [c]

def quoted (s : String) : List Char := '"' :: (s.toList.flatMap escaped ++ ['"'])

/-! ### Objects -/

def Scalar.text : Scalar → List Char
  | .bool true => "true".toList
  | .bool false => "false".toList
  | .number n => Nat.toDigits 10 n
  | .string s => quoted s

def fieldText (field : String × Scalar) : List Char := quoted field.1 ++ ':' :: field.2.text

/-- The properties behind the opening brace. -/
def fieldsText : Record → List Char
  | [] => ['}']
  | [field] => fieldText field ++ ['}']
  | field :: fields => fieldText field ++ ',' :: fieldsText fields

def stringify (fields : Record) : String := String.ofList ('{' :: fieldsText fields)

end Json

end Shortlink

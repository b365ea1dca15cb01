import Mathlib
import YasbLimitora.Lib.DecimalText

/-!
# JSON documents and their compact text

JSON values, and the text a compact writer gives them: no blanks, and no character
escaped that need not be. An object keeps its fields in order. Numbers are integers, or
carry the text of a floating-point number as it would be written.

`Json.chars` writes a value. `Json.utf8Size` is the size of a text in UTF-8.

Two representations of values are used with this writer. A document that a program projects has its
strings as `String`, and is measured in code units of UTF-8, as its bytes would be, without being
encoded first: sizes are compared with limits far more often than bytes are needed. What is read of
foreign bytes has its strings as texts of code points, and is written by
`YasbLimitora.Lib.JsonText`.

An object is a list of fields and not a map. The order of the fields is part of what a program
writes and of what a strict reader checks, and a key that stands there twice is something that a
reader must be able to see before it can refuse it.
-/

/-- A JSON value, whose strings are strings of characters unless said otherwise. -/
inductive Json (σ : Type := String)
  | null
  | bool (b : Bool)
  | int (n : ℤ)
  | float (text : String)
  | str (s : σ)
  | arr (items : List (Json σ))
  | obj (fields : List (σ × Json σ))

namespace Json

open DecimalText

/-- A value, or `null` where there is none. -/
def orNull {α σ : Type} (f : α → Json σ) : Option α → Json σ
  | none => null
  | some a => f a

mutual

/-- How deep values are nested in a value. -/
def depth {σ : Type} : Json σ → ℕ
  | arr items => 1 + depthItems items
  | obj fields => 1 + depthFields fields
  | _ => 0

def depthItems {σ : Type} : List (Json σ) → ℕ
  | [] => 0
  | x :: xs => max (depth x) (depthItems xs)

def depthFields {σ : Type} : List (σ × Json σ) → ℕ
  | [] => 0
  | (_, x) :: fields => max (depth x) (depthFields fields)

end

/-! ### Writing -/

def hexDigit (n : ℕ) : Char := Nat.digitChar n

/-- A character inside a string. -/
def escape (c : Char) : List Char :=
  if c = '"' then ['\\', '"']
  else if c = '\\' then ['\\', '\\']
  else if c.toNat = 8 then ['\\', 'b']
  else if c.toNat = 9 then ['\\', 't']
  else if c.toNat = 10 then ['\\', 'n']
  else if c.toNat = 12 then ['\\', 'f']
  else if c.toNat = 13 then ['\\', 'r']
  else if c.toNat < 32 then ['\\', 'u', '0', '0', hexDigit (c.toNat / 16), hexDigit (c.toNat % 16)]
  else [c]

def escaped (s : List Char) : List Char := s.flatMap escape

/-- A string with its quotation marks. -/
def quoted (s : String) : List Char := '"' :: escaped s.toList ++ ['"']

def intChars (n : ℤ) : List Char :=
  if n < 0 then '-' :: natText n.natAbs else natText n.natAbs

mutual

/-- The compact text of a value. -/
def chars : Json → List Char
  | null => ['n', 'u', 'l', 'l']
  | bool true => ['t', 'r', 'u', 'e']
  | bool false => ['f', 'a', 'l', 's', 'e']
  | int n => intChars n
  | float t => t.toList
  | str s => quoted s
  | arr [] => ['[', ']']
  | arr (x :: xs) => '[' :: chars x ++ itemsTail xs
  | obj [] => ['{', '}']
  | obj ((k, x) :: fields) => '{' :: quoted k ++ ':' :: chars x ++ fieldsTail fields

/-- The items after the first, and the bracket. -/
def itemsTail : List Json → List Char
  | [] => [']']
  | x :: xs => ',' :: chars x ++ itemsTail xs

/-- The fields after the first, and the brace. -/
def fieldsTail : List (String × Json) → List Char
  | [] => ['}']
  | (k, x) :: fields => ',' :: quoted k ++ ':' :: chars x ++ fieldsTail fields

end

/-- The size of a text in UTF-8. -/
def utf8Size (l : List Char) : ℕ := (l.map Char.utf8Size).sum

@[simp] theorem utf8Size_nil : utf8Size [] = 0 := rfl

@[simp] theorem utf8Size_cons (c : Char) (l : List Char) :
    utf8Size (c :: l) = c.utf8Size + utf8Size l := by
  simp [utf8Size]

@[simp] theorem utf8Size_append (l m : List Char) : utf8Size (l ++ m) = utf8Size l + utf8Size m := by
  simp [utf8Size]

/-- A text has no more characters than bytes. -/
theorem length_le_utf8Size (l : List Char) : l.length ≤ utf8Size l := by
  induction l with
  | nil => exact le_rfl
  | cons c l ih =>
    have hpos := c.utf8Size_pos
    rw [utf8Size_cons, List.length_cons]
    omega

/-- **The size of a string in bytes** is the one of its characters. -/
theorem utf8ByteSize_eq (s : String) : s.utf8ByteSize = utf8Size s.toList := by
  obtain ⟨l, rfl⟩ := s.exists_eq_ofList
  rw [String.toList_ofList, ← String.size_toByteArray, String.toByteArray_ofList]
  induction l with
  | nil => rfl
  | cons c l ih =>
    rw [List.utf8Encode_cons, ByteArray.size_append, ih, utf8Size_cons, List.utf8Encode_singleton,
      List.size_toByteArray, String.length_utf8EncodeChar]

end Json

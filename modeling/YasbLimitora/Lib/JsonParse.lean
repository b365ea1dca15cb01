import Mathlib
import YasbLimitora.Lib.Json
import YasbLimitora.Lib.Text

/-!
# Reading JSON

A reader of JSON text. It refuses a control character in a string and an integer with
more digits than are allowed; a pair of surrogates is read as the character it stands
for, and a surrogate without its partner is kept. What is a matter of choice is in
`Json.Reader`: what is kept of a floating-point number, whether the constants that are no
JSON are read, and whether an object may repeat a key.

That values are read back from their text is in `YasbLimitora.Lib.JsonText`.

The parser is a recursive descent with an amount of fuel, which bounds how deep and how long a value
may be nested. The length of the text is enough of it, so that it is something to recurse on and no
limit of its own. Objects are read with their fields in order, and `dict` then makes of them what a
reader does that keeps the last field of each key.
-/

namespace Json

open DecimalText

/-- The digits an integer may have to be read. -/
def maxDigits : ℕ := 4300

/-- What is asked of a reader. -/
structure Reader where
  /-- The text kept of a floating-point number, which may also be refused. -/
  float : List Char → Option String
  /-- The text kept of `NaN`, `Infinity` and `-Infinity`, which may also be refused. -/
  constant : List Char → Option String
  /-- Whether an object may repeat a key. The last of its values counts. -/
  repeats : Bool

/-! ### Objects -/

section Objects

variable {σ : Type} [DecidableEq σ]

/-- The value of a key. -/
def get? (k : σ) : List (σ × Json σ) → Option (Json σ)
  | [] => none
  | (k', x) :: fields => if k' = k then some x else get? k fields

/-- A key is given a value: where it stands, or after the others. -/
def set (k : σ) (x : Json σ) : List (σ × Json σ) → List (σ × Json σ)
  | [] => [(k, x)]
  | (k', y) :: fields => if k' = k then (k', x) :: fields else (k', y) :: set k x fields

/-- The object that keys and values make, one after the other. -/
def dict (pairs : List (σ × Json σ)) : List (σ × Json σ) :=
  pairs.foldl (fun fields p => set p.1 p.2 fields) []

theorem set_of_not_mem {k : σ} {x : Json σ} {fields : List (σ × Json σ)}
    (h : k ∉ fields.map Prod.fst) : set k x fields = fields ++ [(k, x)] := by
  induction fields with
  | nil => rfl
  | cons p fields ih =>
    rw [List.map_cons, List.mem_cons, not_or] at h
    rw [set, if_neg (Ne.symm h.1), ih h.2, List.cons_append]

/-- Distinct keys make the object they are written as. -/
theorem dict_of_nodup {pairs : List (σ × Json σ)} (h : (pairs.map Prod.fst).Nodup) :
    dict pairs = pairs := by
  have hfold : ∀ (l : List (σ × Json σ)) (d : List (σ × Json σ)),
      ((d ++ l).map Prod.fst).Nodup →
        l.foldl (fun fields p => set p.1 p.2 fields) d = d ++ l := by
    intro l
    induction l with
    | nil => exact fun d _ => (List.append_nil d).symm
    | cons p l ih =>
      intro d hd
      have hp : p.1 ∉ d.map Prod.fst := by
        rw [List.map_append, List.map_cons, List.nodup_append] at hd
        exact fun hmem => hd.2.2 p.1 hmem p.1 List.mem_cons_self rfl
      rw [List.foldl_cons, set_of_not_mem hp, ih (d ++ [p]) (by simpa using hd)]
      simp
  exact hfold pairs [] h

/-- A key is taken out. -/
def erase (k : σ) (fields : List (σ × Json σ)) : List (σ × Json σ) :=
  fields.filter fun p => p.1 ≠ k

mutual

/-- Two values are the same, whatever the order of the keys of an object. -/
def same : Json σ → Json σ → Bool
  | null, null => true
  | bool a, bool b => a == b
  | int m, int n => m == n
  | float s, float t => s == t
  | str s, str t => s == t
  | arr xs, arr ys => sameItems xs ys
  | obj fields, obj fields' => fields.length == fields'.length && sameFields fields fields'
  | _, _ => false

def sameItems : List (Json σ) → List (Json σ) → Bool
  | [], [] => true
  | x :: xs, y :: ys => same x y && sameItems xs ys
  | _, _ => false

/-- Each key has the same value in other fields. -/
def sameFields : List (σ × Json σ) → List (σ × Json σ) → Bool
  | [], _ => true
  | (k, x) :: fields, fields' =>
    (match get? k fields' with
      | some y => same x y
      | none => false) && sameFields fields fields'

end

end Objects

/-- The fields of an object. -/
abbrev Fields := List (Text × Json Text)

/-- The value of a key that is a word of the program. -/
def field? (key : String) (fields : Fields) : Option (Json Text) := get? (Text.ofString key) fields

/-! ### Strings -/

/-- The value of a hexadecimal digit. -/
def hexVal : CodePoint → Option ℕ
  | .ch c =>
    if isDigit c then some (c.toNat - '0'.toNat)
    else if 'a' ≤ c && c ≤ 'f' then some (c.toNat - 'a'.toNat + 10)
    else if 'A' ≤ c && c ≤ 'F' then some (c.toNat - 'A'.toNat + 10)
    else none
  | .surrogate _ => none

/-- Four hexadecimal digits. -/
def hex4 : Text → Option (ℕ × Text)
  | a :: b :: c :: d :: rest => do
    let a ← hexVal a
    let b ← hexVal b
    let c ← hexVal c
    let d ← hexVal d
    return (((a * 16 + b) * 16 + c) * 16 + d, rest)
  | _ => none

/-- The code point of a code unit, or of the pair of surrogates it opens. -/
def codeUnit (n : ℕ) (rest : Text) : Option (CodePoint × Text) :=
  if 0xD800 ≤ n ∧ n < 0xDC00 then
    match rest with
    | .ch '\\' :: .ch 'u' :: after => do
      let (m, after) ← hex4 after
      if 0xDC00 ≤ m ∧ m < 0xE000 then
        return (.ch (Char.ofNat (0x10000 + (n - 0xD800) * 0x400 + (m - 0xDC00))), after)
      else return (.ofValue n, rest)
    | _ => some (.ofValue n, rest)
  else some (.ofValue n, rest)

/-- The code point of an escape, after its backslash. -/
def unescape : Text → Option (CodePoint × Text)
  | .ch 'u' :: rest => do
    let (n, rest) ← hex4 rest
    codeUnit n rest
  | .ch '"' :: rest => some (.ch '"', rest)
  | .ch '\\' :: rest => some (.ch '\\', rest)
  | .ch '/' :: rest => some (.ch '/', rest)
  | .ch 'b' :: rest => some (.ch (Char.ofNat 8), rest)
  | .ch 'f' :: rest => some (.ch (Char.ofNat 12), rest)
  | .ch 'n' :: rest => some (.ch (Char.ofNat 10), rest)
  | .ch 'r' :: rest => some (.ch (Char.ofNat 13), rest)
  | .ch 't' :: rest => some (.ch (Char.ofNat 9), rest)
  | _ => none

/-- One code point of a string. -/
def scanPoint : Text → Option (CodePoint × Text)
  | [] => none
  | p :: rest =>
    if p = .ch '\\' then unescape rest else if p.value < 32 then none else some (p, rest)

/-- The code points of a string, up to its quotation mark. -/
def scanString : ℕ → Text → Option (Text × Text)
  | 0, _ => none
  | fuel + 1, l =>
    match l with
    | .ch '"' :: rest => some ([], rest)
    | _ => do
      let (p, rest) ← scanPoint l
      let (ps, rest) ← scanString fuel rest
      return (p :: ps, rest)

/-- A string, after its opening quotation mark. -/
def parseString (l : Text) : Option (Text × Text) := scanString (l.length + 1) l

/-! ### Numbers -/

/-- The digits a text starts with, and the rest. -/
def spanDigits : Text → List Char × Text
  | .ch c :: rest =>
    if isDigit c then (c :: (spanDigits rest).1, (spanDigits rest).2) else ([], .ch c :: rest)
  | l => ([], l)

/-- The whole part of a number: no leading zero. -/
def wholePart : Text → Option (List Char × Text)
  | .ch '0' :: rest => some (['0'], rest)
  | l => match spanDigits l with
    | ([], _) => none
    | digits => some digits

/-- The fraction of a number, if there is one. -/
def fraction : Text → List Char × Text
  | .ch '.' :: rest => match spanDigits rest with
    | ([], _) => ([], .ch '.' :: rest)
    | (digits, rest) => ('.' :: digits, rest)
  | l => ([], l)

/-- The sign of an exponent, if there is one. -/
def exponentSign : Text → List Char × Text
  | .ch '+' :: rest => (['+'], rest)
  | .ch '-' :: rest => (['-'], rest)
  | l => ([], l)

/-- The exponent of a number, if there is one. -/
def exponent : Text → List Char × Text
  | .ch e :: rest =>
    if e = 'e' ∨ e = 'E' then
      match spanDigits (exponentSign rest).2 with
      | ([], _) => ([], .ch e :: rest)
      | (digits, after) => (e :: (exponentSign rest).1 ++ digits, after)
    else ([], .ch e :: rest)
  | l => ([], l)

/-- The minus sign of a number, if there is one. -/
def minus : Text → Bool × Text
  | .ch '-' :: rest => (true, rest)
  | l => (false, l)

section Parse

variable (r : Reader)

/-- A number: an integer, or else a floating-point number. -/
def parseNumber (l : Text) : Option (Json Text × Text) := do
  let (digits, rest) ← wholePart (minus l).2
  let (frac, rest) := fraction rest
  let (exp, rest) := exponent rest
  if frac = [] ∧ exp = [] then
    if maxDigits < digits.length then none
    else return (.int (if (minus l).1 then -(readNat digits : ℤ) else readNat digits), rest)
  else
    let text ← r.float ((if (minus l).1 then ['-'] else []) ++ digits ++ frac ++ exp)
    return (.float text, rest)

/-! ### Values -/

def isBlank (p : CodePoint) : Bool :=
  p == .ch ' ' || p == .ch '\t' || p == .ch '\n' || p == .ch '\r'

def skipBlanks (l : Text) : Text := l.dropWhile isBlank

/-- The object of the fields that were read. -/
def object (fields : List (Text × Json Text)) : Option (Json Text) :=
  if r.repeats = true ∨ (fields.map Prod.fst).Nodup then some (.obj (dict fields)) else none

/-- A constant that is no JSON. -/
def constant (name : String) (rest : Text) : Option (Json Text × Text) :=
  (r.constant name.toList).map fun text => (.float text, rest)

mutual

/-- A value. The fuel bounds how deep and how long what is nested can be: the length of
the text is enough. -/
def parseValue : ℕ → Text → Option (Json Text × Text)
  | 0, _ => none
  | fuel + 1, l =>
    match l with
    | .ch '"' :: rest => do
      let (s, rest) ← parseString rest
      return (.str s, rest)
    | .ch '[' :: rest =>
      match skipBlanks rest with
      | .ch ']' :: rest => some (.arr [], rest)
      | rest => do
        let (items, rest) ← parseItems fuel rest
        return (.arr items, rest)
    | .ch '{' :: rest =>
      match skipBlanks rest with
      | .ch '}' :: rest => some (.obj [], rest)
      | rest => do
        let (fields, rest) ← parseFields fuel rest
        return (← object r fields, rest)
    | .ch 'n' :: .ch 'u' :: .ch 'l' :: .ch 'l' :: rest => some (.null, rest)
    | .ch 't' :: .ch 'r' :: .ch 'u' :: .ch 'e' :: rest => some (.bool true, rest)
    | .ch 'f' :: .ch 'a' :: .ch 'l' :: .ch 's' :: .ch 'e' :: rest => some (.bool false, rest)
    | .ch 'N' :: .ch 'a' :: .ch 'N' :: rest => constant r "NaN" rest
    | .ch 'I' :: .ch 'n' :: .ch 'f' :: .ch 'i' :: .ch 'n' :: .ch 'i' :: .ch 't' :: .ch 'y' :: rest =>
      constant r "Infinity" rest
    | .ch '-' :: .ch 'I' :: .ch 'n' :: .ch 'f' :: .ch 'i' :: .ch 'n' :: .ch 'i' :: .ch 't' ::
        .ch 'y' :: rest => constant r "-Infinity" rest
    | l => parseNumber r l

/-- The items of an array, and its bracket. -/
def parseItems : ℕ → Text → Option (List (Json Text) × Text)
  | 0, _ => none
  | fuel + 1, l => do
    let (x, rest) ← parseValue fuel l
    match skipBlanks rest with
    | .ch ',' :: rest => do
      let (xs, rest) ← parseItems fuel (skipBlanks rest)
      return (x :: xs, rest)
    | .ch ']' :: rest => some ([x], rest)
    | _ => none

/-- The fields of an object, and its brace. -/
def parseFields : ℕ → Text → Option (List (Text × Json Text) × Text)
  | 0, _ => none
  | fuel + 1, l =>
    match l with
    | .ch '"' :: rest => do
      let (k, rest) ← parseString rest
      match skipBlanks rest with
      | .ch ':' :: rest => do
        let (x, rest) ← parseValue fuel (skipBlanks rest)
        match skipBlanks rest with
        | .ch ',' :: rest => do
          let (fields, rest) ← parseFields fuel (skipBlanks rest)
          return ((k, x) :: fields, rest)
        | .ch '}' :: rest => some ([(k, x)], rest)
        | _ => none
      | _ => none
    | _ => none

end

/-- The value that a text is, with nothing but blanks around it. -/
def parse (l : Text) : Option (Json Text) := do
  let (x, rest) ← parseValue r (l.length + 1) (skipBlanks l)
  if skipBlanks rest = [] then return x else none

end Parse

end Json

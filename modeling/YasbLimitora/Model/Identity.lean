import Mathlib

/-!
# Identity texts

The sanitizing of identity strings (`canonical_identity` of `model.py`). The two
operations of the standard library that rest on the Unicode database, the `NFC`
normal form and capitalization, are parameters of the whole development, gathered
in `YasbLimitora.UnicodeData`; what the results that need them assume is stated
with those results.

An identity is a text that the sanitizing returns, `YasbLimitora.IsIdentity`: it is not empty, has
no blank at its ends, no control character, and no more than 64 characters, and it is in normal
form. The records of the model carry this as a field. The blanks are those that `str.strip` of the
standard library takes off, which are more than those of ASCII.
-/

namespace YasbLimitora

/-- The operations on text that the Unicode database decides. -/
class UnicodeData where
  /-- `unicodedata.normalize("NFC", ·)`. -/
  nfc : String → String
  /-- `str.capitalize`. -/
  capitalize : String → String

/-- The operations on ASCII text: every such text is its own normal form. -/
@[reducible] def UnicodeData.ascii : UnicodeData where
  nfc s := s
  capitalize s :=
    match s.toList with
    | [] => ""
    | c :: cs => String.ofList (c.toUpper :: cs.map Char.toLower)

/-- The characters `str.strip` takes off. -/
def isSpace (c : Char) : Bool :=
  (9 ≤ c.toNat && c.toNat ≤ 13) || (28 ≤ c.toNat && c.toNat ≤ 32) || c.toNat == 0x85 ||
    c.toNat == 0xA0 || c.toNat == 0x1680 || (0x2000 ≤ c.toNat && c.toNat ≤ 0x200A) ||
    c.toNat == 0x2028 || c.toNat == 0x2029 || c.toNat == 0x202F || c.toNat == 0x205F ||
    c.toNat == 0x3000

/-- `str.strip`. -/
def strip (s : String) : String :=
  String.ofList ((s.toList.dropWhile isSpace).reverse.dropWhile isSpace).reverse

/-- The characters no identity may hold: C0 controls and DEL. Surrogates are not
characters here. -/
def isControl (c : Char) : Bool := c.toNat ≤ 0x1F || c.toNat == 0x7F

def MAX_DISPLAY_LABEL_LENGTH : ℕ := 64

variable [UnicodeData]

def canonicalIdentity (value message : String) : Except String String :=
  if value = "" ∨ strip value ≠ value then .error message
  else
    let value := UnicodeData.nfc value
    if 64 < value.length then .error message
    else if value.toList.any isControl then .error message
    else .ok value

/-- The texts a sanitized identity can be. -/
def IsIdentity (s : String) : Prop := ∃ value message, canonicalIdentity value message = .ok s

theorem canonicalIdentity_eq_ok_iff {value message s : String} :
    canonicalIdentity value message = .ok s ↔
      value ≠ "" ∧ strip value = value ∧ s = UnicodeData.nfc value ∧ s.length ≤ 64 ∧
        s.toList.any isControl = false := by
  simp only [canonicalIdentity]
  split
  · next h => exact iff_of_false (by simp) fun hc => h.elim hc.1 fun hs => hs hc.2.1
  · next h =>
    rw [not_or, not_not] at h
    split
    · next hlen => exact iff_of_false (by simp) fun hc => by rw [hc.2.2.1] at hc; omega
    · next hlen =>
      split
      · next hctl =>
        refine iff_of_false (by simp) fun hc => ?_
        obtain ⟨-, -, rfl, -, hf⟩ := hc
        rw [hf] at hctl
        exact absurd hctl (by simp)
      · next hctl =>
        constructor
        · intro hs
          obtain rfl := Except.ok.inj hs
          exact ⟨h.1, h.2, rfl, by omega, by simpa using hctl⟩
        · rintro ⟨-, -, rfl, -, -⟩
          rfl

end YasbLimitora

import Mathlib
import YasbLimitora.Lib.Text

/-!
# Encodings of texts

Texts from bytes: UTF-8, where an encoded surrogate is refused or let pass, and UTF-16 and
UTF-32, where it passes. `Encoding.detect` is how a reader of JSON tells the encoding of a
document: by its byte-order mark, or by where its first bytes are zero.

A text that UTF-8 gives strictly is given too where surrogates pass
(`Encoding.utf8_pass`).

Decoders are loops over bytes with one step each for a code point, `decode` over `utf8Point`,
`utf16Point` or `utf32Point`; a step that does not recognize the bytes in front of it ends the whole
with nothing. The two variants of UTF-8 differ in one test of this step, and therefore in monotone
fashion.

The detection of an encoding is a guess, and a text in UTF-8 may be told for one in UTF-16: a zero
byte is a character there. `Encoding.marked_of_detect_ne` says which texts are in danger: those that
start with a mark, or have a zero in one of their first places. A text of a format that begins with
two characters of ASCII is in none.
-/

abbrev Bytes := List UInt8

namespace Encoding

/-- The bits of a continuation byte. -/
def continuation (b : UInt8) : Option ℕ :=
  if 0x80 ≤ b.toNat ∧ b.toNat < 0xC0 then some (b.toNat - 0x80) else none

def isSurrogate (n : ℕ) : Prop := 0xD800 ≤ n ∧ n < 0xE000

instance (n : ℕ) : Decidable (isSurrogate n) := inferInstanceAs (Decidable (_ ∧ _))

/-- One code point of UTF-8. -/
def utf8Point (pass : Bool) : Bytes → Option (CodePoint × Bytes)
  | [] => none
  | a :: l =>
    if a.toNat < 0x80 then some (.ofValue a.toNat, l)
    else if a.toNat < 0xC2 then none
    else if a.toNat < 0xE0 then
      match l with
      | b :: l => do
        let b ← continuation b
        return (.ofValue ((a.toNat - 0xC0) * 64 + b), l)
      | _ => none
    else if a.toNat < 0xF0 then
      match l with
      | b :: c :: l => do
        let b ← continuation b
        let c ← continuation c
        let n := (a.toNat - 0xE0) * 4096 + b * 64 + c
        if n < 0x800 ∨ isSurrogate n ∧ pass = false then none else return (.ofValue n, l)
      | _ => none
    else
      match l with
      | b :: c :: d :: l => do
        let b ← continuation b
        let c ← continuation c
        let d ← continuation d
        let n := (a.toNat - 0xF0) * 262144 + b * 4096 + c * 64 + d
        if n < 0x10000 ∨ 0x110000 ≤ n then none else return (.ofValue n, l)
      | _ => none

/-- A code unit of two bytes. -/
def unit16 (big : Bool) (a b : UInt8) : ℕ :=
  if big then a.toNat * 256 + b.toNat else b.toNat * 256 + a.toNat

/-- One code point of UTF-16. -/
def utf16Point (big : Bool) : Bytes → Option (CodePoint × Bytes)
  | a :: b :: l =>
    let n := unit16 big a b
    match l with
    | c :: d :: rest =>
      let m := unit16 big c d
      if (0xD800 ≤ n ∧ n < 0xDC00) ∧ 0xDC00 ≤ m ∧ m < 0xE000 then
        some (.ch (Char.ofNat (0x10000 + (n - 0xD800) * 0x400 + (m - 0xDC00))), rest)
      else some (.ofValue n, l)
    | _ => some (.ofValue n, l)
  | _ => none

/-- One code point of UTF-32. -/
def utf32Point (big : Bool) : Bytes → Option (CodePoint × Bytes)
  | a :: b :: c :: d :: l =>
    let n := if big then unit16 true a b * 65536 + unit16 true c d
      else unit16 false c d * 65536 + unit16 false a b
    if 0x110000 ≤ n then none else some (.ofValue n, l)
  | _ => none

/-- The text that bytes are, one code point after the other. -/
def decode (point : Bytes → Option (CodePoint × Bytes)) : ℕ → Bytes → Option Text
  | _, [] => some []
  | 0, _ :: _ => none
  | fuel + 1, l => do
    let (p, rest) ← point l
    let t ← decode point fuel rest
    return p :: t

def utf8 (pass : Bool) (l : Bytes) : Option Text := decode (utf8Point pass) l.length l

def utf16 (big : Bool) (l : Bytes) : Option Text := decode (utf16Point big) l.length l

def utf32 (big : Bool) (l : Bytes) : Option Text := decode (utf32Point big) l.length l

/-! ### Detection -/

/-- How a document is encoded, and whether a mark before it says so. -/
inductive Detected
  | utf8
  | utf8Sig
  | utf16 (big : Bool) (mark : Bool)
  | utf32 (big : Bool) (mark : Bool)
deriving DecidableEq

/-- The encoding that the first bytes tell where there is no mark. -/
def detectZeros : Bytes → Detected
  | a :: b :: c :: d :: _ =>
    if a = 0 then if b = 0 then .utf32 true false else .utf16 true false
    else if b = 0 then if c = 0 ∧ d = 0 then .utf32 false false else .utf16 false false
    else .utf8
  | [a, b] => if a = 0 then .utf16 true false else if b = 0 then .utf16 false false else .utf8
  | _ => .utf8

/-- The encoding of a document. -/
def detect (l : Bytes) : Detected :=
  if [0x00, 0x00, 0xFE, 0xFF] <+: l then .utf32 true true
  else if [0xFF, 0xFE, 0x00, 0x00] <+: l then .utf32 false true
  else if [0xFE, 0xFF] <+: l then .utf16 true true
  else if [0xFF, 0xFE] <+: l then .utf16 false true
  else if [0xEF, 0xBB, 0xBF] <+: l then .utf8Sig
  else detectZeros l

/-- The text of a document in an encoding. Encoded surrogates pass, and a mark is left
out. -/
def Detected.text : Detected → Bytes → Option Text
  | .utf8, l => Encoding.utf8 true l
  | .utf8Sig, l => Encoding.utf8 true (l.drop 3)
  | .utf16 big mark, l => Encoding.utf16 big (if mark then l.drop 2 else l)
  | .utf32 big mark, l => Encoding.utf32 big (if mark then l.drop 4 else l)

/-- A code point of three bytes, whether a surrogate passes or not. -/
theorem utf8Point_pass {l rest : Bytes} {p : CodePoint} (h : utf8Point false l = some (p, rest)) :
    utf8Point true l = some (p, rest) := by
  rcases l with _ | ⟨a, l⟩
  · exact h
  unfold utf8Point at h ⊢
  dsimp only at h ⊢
  by_cases h1 : a.toNat < 0x80
  · rw [if_pos h1] at h ⊢
    exact h
  rw [if_neg h1] at h ⊢
  by_cases h2 : a.toNat < 0xC2
  · rw [if_pos h2] at h
    cases h
  rw [if_neg h2] at h ⊢
  by_cases h3 : a.toNat < 0xE0
  · rw [if_pos h3] at h ⊢
    exact h
  rw [if_neg h3] at h ⊢
  by_cases h4 : a.toNat < 0xF0
  · rw [if_pos h4] at h ⊢
    rcases l with _ | ⟨b, _ | ⟨c, l⟩⟩
    · exact h
    · exact h
    · simp only [Option.bind_eq_bind, Option.bind_eq_some_iff] at h ⊢
      obtain ⟨x, hx, y, hy, h⟩ := h
      refine ⟨x, hx, y, hy, ?_⟩
      split_ifs at h with hn
      rw [if_neg (by tauto)]
      exact h
  · rw [if_neg h4] at h ⊢
    exact h

/-- What takes more code points decodes whatever was decoded before. -/
theorem decode_mono {point point' : Bytes → Option (CodePoint × Bytes)}
    (h : ∀ l x, point l = some x → point' l = some x) {fuel : ℕ} {l : Bytes} {t : Text}
    (ht : decode point fuel l = some t) : decode point' fuel l = some t := by
  induction fuel generalizing l t with
  | zero => rcases l with _ | ⟨a, l⟩ <;> exact ht
  | succ fuel ih =>
    rcases l with _ | ⟨a, l⟩
    · exact ht
    · simp only [decode, Option.bind_eq_bind, Option.bind_eq_some_iff] at ht ⊢
      obtain ⟨x, hx, u, hu, ht⟩ := ht
      exact ⟨x, h _ _ hx, u, ih hu, ht⟩

/-- **What UTF-8 gives strictly it gives too where surrogates pass.** -/
theorem utf8_pass {l : Bytes} {t : Text} (h : utf8 false l = some t) : utf8 true l = some t :=
  decode_mono (fun _ _ => utf8Point_pass) h

/-! ### Texts that are told for another encoding -/

/-- No code point begins with one of the highest bytes. -/
theorem utf8Point_high {pass : Bool} {a : UInt8} (h : 0xF5 ≤ a.toNat) (l : Bytes) :
    utf8Point pass (a :: l) = none := by
  unfold utf8Point
  dsimp only
  rw [if_neg (by omega), if_neg (by omega), if_neg (by omega), if_neg (by omega)]
  rcases l with _ | ⟨b, _ | ⟨c, _ | ⟨d, l⟩⟩⟩
  · rfl
  · rfl
  · rfl
  · simp only [Option.bind_eq_bind, Option.bind_eq_none_iff]
    intro x _ y _ z _
    rw [if_pos (by omega)]

/-- A byte of ASCII is a code point of its own. -/
theorem utf8Point_ascii {pass : Bool} {a : UInt8} (h : a.toNat < 0x80) (l : Bytes) :
    utf8Point pass (a :: l) = some (.ofValue a.toNat, l) := by
  unfold utf8Point
  exact if_pos h

/-- A zero does not continue a code point. -/
theorem utf8Point_zero {pass : Bool} {a : UInt8} (h : 0x80 ≤ a.toNat) (l : Bytes) :
    utf8Point pass (a :: 0 :: l) = none := by
  unfold utf8Point
  dsimp only
  rw [if_neg (by omega)]
  split_ifs
  · rfl
  · rfl
  · rcases l with _ | ⟨c, l⟩ <;> rfl
  · rcases l with _ | ⟨c, _ | ⟨d, l⟩⟩ <;> rfl

/-- The first bytes that are decoded are a code point, and the rest is decoded after it. -/
theorem decode_cons {point : Bytes → Option (CodePoint × Bytes)} {fuel : ℕ} {a : UInt8} {l : Bytes}
    {t : Text} (h : decode point fuel (a :: l) = some t) :
    ∃ p rest fuel' t', point (a :: l) = some (p, rest) ∧ decode point fuel' rest = some t' ∧
      t = p :: t' := by
  rcases fuel with _ | fuel
  · cases h
  · simp only [decode, Option.bind_eq_bind, Option.bind_eq_some_iff] at h
    obtain ⟨⟨p, rest⟩, hpoint, t', ht', h⟩ := h
    exact ⟨p, rest, fuel, t', hpoint, ht', (Option.some.inj h).symm⟩

/-- A text that begins with a mark, or has a zero in the first or the second place. -/
def Marked (t : Text) : Prop :=
  (∃ t', t = .ofValue 0xFEFF :: t') ∨ (∃ t', t = .ofValue 0 :: t') ∨
    ∃ p t', t = p :: .ofValue 0 :: t'

/-- A text that begins with a zero byte is none that JSON has. -/
theorem marked_of_zero {pass : Bool} {l : Bytes} {t : Text} (h : utf8 pass (0 :: l) = some t) :
    Marked t := by
  obtain ⟨p, rest, fuel, t', hpoint, -, rfl⟩ := decode_cons h
  rw [utf8Point_ascii (by decide)] at hpoint
  obtain ⟨rfl, -⟩ := Prod.mk.inj (Option.some.inj hpoint)
  exact Or.inr (Or.inl ⟨t', rfl⟩)

/-- Nor is one whose second byte is zero. -/
theorem marked_of_second_zero {pass : Bool} {a : UInt8} {l : Bytes} {t : Text}
    (h : utf8 pass (a :: 0 :: l) = some t) : Marked t := by
  obtain ⟨p, rest, fuel, t', hpoint, ht', rfl⟩ := decode_cons h
  rcases lt_or_ge a.toNat 0x80 with ha | ha
  · rw [utf8Point_ascii ha] at hpoint
    obtain ⟨-, rfl⟩ := Prod.mk.inj (Option.some.inj hpoint)
    obtain ⟨q, rest, fuel', t'', hpoint', -, rfl⟩ := decode_cons ht'
    rw [utf8Point_ascii (by decide)] at hpoint'
    obtain ⟨rfl, -⟩ := Prod.mk.inj (Option.some.inj hpoint')
    exact Or.inr (Or.inr ⟨p, t'', rfl⟩)
  · rw [utf8Point_zero ha] at hpoint
    cases hpoint

/-- No code point begins with a byte above `F4`. -/
theorem utf8_high {pass : Bool} {a : UInt8} (ha : 0xF5 ≤ a.toNat) (l : Bytes) :
    utf8 pass (a :: l) = none := by
  rcases h : utf8 pass (a :: l) with _ | t
  · rfl
  · obtain ⟨p, rest, fuel, t', hpoint, -, -⟩ := decode_cons h
    rw [utf8Point_high ha] at hpoint
    cases hpoint

/-- Where an encoding of wider units is detected, one of the first two bytes is zero. -/
theorem detectZeros_eq_utf8_or (l : Bytes) :
    detectZeros l = .utf8 ∨ (∃ l', l = 0 :: l') ∨ ∃ a l', l = a :: 0 :: l' := by
  unfold detectZeros
  split
  · next a b c d l =>
    split_ifs with ha hb hb hcd
    · exact Or.inr (Or.inl ⟨_, congrArg (· :: _) ha⟩)
    · exact Or.inr (Or.inl ⟨_, congrArg (· :: _) ha⟩)
    · exact Or.inr (Or.inr ⟨a, _, congrArg (a :: · :: _) hb⟩)
    · exact Or.inr (Or.inr ⟨a, _, congrArg (a :: · :: _) hb⟩)
    · exact Or.inl rfl
  · next a b =>
    split_ifs with ha hb
    · exact Or.inr (Or.inl ⟨_, congrArg (· :: _) ha⟩)
    · exact Or.inr (Or.inr ⟨a, _, congrArg (a :: · :: _) hb⟩)
    · exact Or.inl rfl
  · exact Or.inl rfl

/-- **A text that UTF-8 gives and that is told for another encoding** is marked. -/
theorem marked_of_detect_ne {l : Bytes} {pass : Bool} {t : Text} (h : utf8 pass l = some t)
    (hdetect : detect l ≠ .utf8) : Marked t := by
  unfold detect at hdetect
  split_ifs at hdetect with h1 h2 h3 h4 h5
  · obtain ⟨l, rfl⟩ := h1
    exact marked_of_zero h
  · obtain ⟨l, rfl⟩ := h2
    exact absurd (h.symm.trans (utf8_high (by decide) _)) nofun
  · obtain ⟨l, rfl⟩ := h3
    exact absurd (h.symm.trans (utf8_high (by decide) _)) nofun
  · obtain ⟨l, rfl⟩ := h4
    exact absurd (h.symm.trans (utf8_high (by decide) _)) nofun
  · obtain ⟨l, rfl⟩ := h5
    obtain ⟨p, rest, fuel, t', hpoint, -, rfl⟩ := decode_cons h
    have hmark : utf8Point pass (0xEF :: 0xBB :: 0xBF :: l) = some (.ofValue 0xFEFF, l) := by
      simp [utf8Point, continuation, isSurrogate]
    obtain ⟨rfl, -⟩ := Prod.mk.inj (Option.some.inj (hpoint.symm.trans hmark))
    exact Or.inl ⟨t', rfl⟩
  · rcases detectZeros_eq_utf8_or l with hutf8 | ⟨l, rfl⟩ | ⟨a, l, rfl⟩
    · exact absurd hutf8 hdetect
    · exact marked_of_zero h
    · exact marked_of_second_zero h

/-! ### ASCII -/

/-- The bytes of a text of ASCII characters. -/
def ascii (t : Text) : Bytes := t.map fun p => UInt8.ofNat p.value

/-- A text of such characters is told from its bytes. -/
theorem ascii_inj {t t' : Text} (ht : ∀ p ∈ t, p.value < 256) (ht' : ∀ p ∈ t', p.value < 256)
    (h : ascii t = ascii t') : t = t' := by
  have hback : ∀ t : Text, (∀ p ∈ t, p.value < 256) →
      (ascii t).map (fun b => CodePoint.ofValue b.toNat) = t := by
    intro t ht
    rw [ascii, List.map_map]
    refine (List.map_congr_left fun p hp => ?_).trans (List.map_id t)
    have hlt := ht p hp
    show CodePoint.ofValue (UInt8.ofNat p.value).toNat = p
    rw [UInt8.toNat_ofNat', Nat.mod_eq_of_lt hlt, CodePoint.ofValue_value]
  rw [← hback t ht, h, hback t' ht']

end Encoding

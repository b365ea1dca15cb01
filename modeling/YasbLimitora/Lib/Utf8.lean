import Mathlib
import YasbLimitora.Lib.Encoding

/-!
# UTF-8, forth and back

How UTF-8 spells a text, `Encoding.utf8Bytes`. A text with a surrogate in it has no spelling:
`Encoding.encodeUtf8`. Reading strictly is the inverse of spelling
(`Encoding.utf8_eq_some_iff`): what is read is spelled as it stood, and what can be spelled
is read back.

Both directions rest on one code point: what `utf8Point` reads of the bytes that spell it
(`Encoding.utf8Point_spell`), and that no other bytes are read as it
(`Encoding.eq_spell_of_utf8Point`), since overlong spellings, surrogates and numbers beyond the last
plane are refused. Whole texts follow by induction, on the text in one direction and on the bytes
that are left in the other.

A format that looks for a delimiter in the bytes before it decodes them relies on one more property:
a byte below `0x80` is in the spelling of no other code point than its own. So the first byte, the
last byte and the number of such bytes can be told from the text (`Encoding.head?_utf8Bytes`,
`Encoding.getLast?_utf8Bytes`, `Encoding.count_utf8Bytes`).
-/

namespace CodePoint

/-- A number below the end of Unicode is the value of its code point. -/
theorem value_ofValue {n : ℕ} (h : n < 0x110000) : (ofValue n).value = n := by
  unfold ofValue
  split
  · next hn => exact Nat.add_sub_cancel' hn.1
  · next hn =>
    have hvalid : n.isValidChar := by
      unfold Nat.isValidChar
      omega
    rw [value, Char.ofNat, dif_pos hvalid]
    exact Char.toNat_ofNatAux hvalid

end CodePoint

namespace Encoding

/-- A byte that continues a code point, of its bits. -/
def tail (n : ℕ) : UInt8 := UInt8.ofNat (0x80 + n % 64)

/-- The bytes of a code point, of its number. -/
def spell (n : ℕ) : Bytes :=
  if n < 0x80 then [UInt8.ofNat n]
  else if n < 0x800 then [UInt8.ofNat (0xC0 + n / 64), tail n]
  else if n < 0x10000 then [UInt8.ofNat (0xE0 + n / 4096), tail (n / 64), tail n]
  else [UInt8.ofNat (0xF0 + n / 262144), tail (n / 4096), tail (n / 64), tail n]

/-- The bytes of a text. -/
def utf8Bytes (t : Text) : Bytes := t.flatMap fun p => spell p.value

/-- A text that UTF-8 can spell. -/
def Spelled (t : Text) : Prop := ∀ p ∈ t, ¬isSurrogate p.value

instance (t : Text) : Decidable (Spelled t) := inferInstanceAs (Decidable (∀ p ∈ t, _))

/-- `str.encode`, which refuses surrogates. -/
def encodeUtf8 (t : Text) : Option Bytes := if Spelled t then some (utf8Bytes t) else none

@[simp] theorem utf8Bytes_nil : utf8Bytes [] = [] := rfl

@[simp] theorem utf8Bytes_cons (p : CodePoint) (t : Text) :
    utf8Bytes (p :: t) = spell p.value ++ utf8Bytes t := rfl

@[simp] theorem utf8Bytes_append (t t' : Text) : utf8Bytes (t ++ t') = utf8Bytes t ++ utf8Bytes t' :=
  List.flatMap_append

/-- Two texts can be spelled if each can. -/
theorem spelled_append {t t' : Text} : Spelled (t ++ t') ↔ Spelled t ∧ Spelled t' :=
  List.forall_mem_append

/-- A text of characters can be spelled: it has no surrogates. -/
theorem spelled_ofChars (l : List Char) : Spelled (Text.ofChars l) := by
  intro p hp
  obtain ⟨c, -, rfl⟩ := List.mem_map.1 hp
  exact CodePoint.isSurrogate_char c

/-! ### Single code points -/

/-- A byte that continues a sequence is read back as the six bits that it was made of. -/
theorem continuation_tail (n : ℕ) : continuation (tail n) = some (n % 64) := by
  have hlt : n % 64 < 64 := Nat.mod_lt _ (by decide)
  have hnat : (tail n).toNat = 0x80 + n % 64 := by
    rw [tail, UInt8.toNat_ofNat']
    omega
  rw [continuation, hnat, if_pos (by omega), Nat.add_sub_cancel_left]

/-- A byte that is read as six bits is the one that they are written as. -/
theorem eq_tail_of_continuation {b : UInt8} {k : ℕ} (h : continuation b = some k) (m : ℕ) :
    k < 64 ∧ b = tail (m * 64 + k) := by
  unfold continuation at h
  split_ifs at h with hb
  obtain rfl := Option.some.inj h
  have hlt : b.toNat - 0x80 < 64 := by omega
  refine ⟨hlt, UInt8.toNat_inj.1 ?_⟩
  rw [tail, UInt8.toNat_ofNat']
  omega

theorem toNat_ofNat {n : ℕ} (h : n < 256) : (UInt8.ofNat n).toNat = n := by
  rw [UInt8.toNat_ofNat']
  omega

theorem ofNat_toNat (b : UInt8) : UInt8.ofNat b.toNat = b := UInt8.ofNat_toNat

/-- **What spells a code point is read as it.** -/
theorem utf8Point_spell {n : ℕ} (h : n < 0x110000) (hn : ¬isSurrogate n) (rest : Bytes) :
    utf8Point false (spell n ++ rest) = some (.ofValue n, rest) := by
  unfold spell
  split_ifs with h1 h2 h3
  · rw [List.singleton_append, utf8Point_ascii (by rw [toNat_ofNat (by omega)]; exact h1),
      toNat_ofNat (by omega)]
  · simp only [List.cons_append, List.nil_append, utf8Point, toNat_ofNat (n := 0xC0 + n / 64) (by omega)]
    rw [if_neg (by omega), if_neg (by omega), if_pos (by omega), continuation_tail, Option.bind_eq_bind,
      Option.bind_some, show (0xC0 + n / 64 - 0xC0) * 64 + n % 64 = n by omega, Option.pure_def]
  · simp only [List.cons_append, List.nil_append, utf8Point,
      toNat_ofNat (n := 0xE0 + n / 4096) (by omega)]
    rw [if_neg (by omega), if_neg (by omega), if_neg (by omega), if_pos (by omega)]
    simp only [continuation_tail, Option.bind_eq_bind, Option.bind_some,
      show (0xE0 + n / 4096 - 0xE0) * 4096 + n / 64 % 64 * 64 + n % 64 = n by omega, Option.pure_def]
    rw [if_neg (by simp only [hn, false_and, or_false]; omega)]
  · simp only [List.cons_append, List.nil_append, utf8Point,
      toNat_ofNat (n := 0xF0 + n / 262144) (by omega)]
    rw [if_neg (by omega), if_neg (by omega), if_neg (by omega), if_neg (by omega)]
    simp only [continuation_tail, Option.bind_eq_bind, Option.bind_some, Option.pure_def,
      show (0xF0 + n / 262144 - 0xF0) * 262144 + n / 4096 % 64 * 4096 + n / 64 % 64 * 64 + n % 64 = n
        by omega]
    rw [if_neg (by omega)]

/-- **What is read as a code point spells it.** -/
theorem eq_spell_of_utf8Point {l rest : Bytes} {p : CodePoint}
    (h : utf8Point false l = some (p, rest)) : l = spell p.value ++ rest ∧ ¬isSurrogate p.value := by
  rcases l with _ | ⟨a, l⟩
  · cases h
  have ha : a.toNat < 256 := a.toNat_lt
  unfold utf8Point at h
  dsimp only at h
  split_ifs at h with h1 h2 h3 h4
  · obtain ⟨rfl, rfl⟩ := Prod.mk.inj (Option.some.inj h)
    rw [CodePoint.value_ofValue (by omega), spell, if_pos h1, ofNat_toNat]
    exact ⟨rfl, fun hs => absurd hs.1 (by omega)⟩
  · rcases l with _ | ⟨b, l⟩
    · cases h
    simp only [Option.bind_eq_bind, Option.bind_eq_some_iff, Option.pure_def] at h
    obtain ⟨k, hk, h⟩ := h
    obtain ⟨rfl, rfl⟩ := Prod.mk.inj (Option.some.inj h)
    obtain ⟨hlt, rfl⟩ := eq_tail_of_continuation hk (a.toNat - 0xC0)
    rw [CodePoint.value_ofValue (by omega), spell, if_neg (by omega), if_pos (by omega)]
    refine ⟨?_, fun hs => absurd hs.1 (by omega)⟩
    rw [show 0xC0 + ((a.toNat - 0xC0) * 64 + k) / 64 = a.toNat by omega, ofNat_toNat]
    rfl
  · rcases l with _ | ⟨b, _ | ⟨c, l⟩⟩
    · cases h
    · cases h
    simp only [Option.bind_eq_bind, Option.bind_eq_some_iff, Option.pure_def] at h
    obtain ⟨k, hk, m, hm, h⟩ := h
    split_ifs at h with hn
    obtain ⟨hn1, hn2⟩ := not_or.1 hn
    obtain ⟨rfl, rfl⟩ := Prod.mk.inj (Option.some.inj h)
    obtain ⟨hk64, rfl⟩ := eq_tail_of_continuation hk (a.toNat - 0xE0)
    obtain ⟨hm64, rfl⟩ := eq_tail_of_continuation hm ((a.toNat - 0xE0) * 64 + k)
    have hsum : ((a.toNat - 0xE0) * 64 + k) * 64 + m = (a.toNat - 0xE0) * 4096 + k * 64 + m := by ring
    rw [CodePoint.value_ofValue (by omega), spell, if_neg (by omega), if_neg (by omega), if_pos (by omega)]
    refine ⟨?_, fun hs => hn2 ⟨hs, trivial⟩⟩
    rw [show 0xE0 + ((a.toNat - 0xE0) * 4096 + k * 64 + m) / 4096 = a.toNat by omega, ofNat_toNat, hsum,
      show ((a.toNat - 0xE0) * 4096 + k * 64 + m) / 64 = (a.toNat - 0xE0) * 64 + k by omega]
    rfl
  · rcases l with _ | ⟨b, _ | ⟨c, _ | ⟨d, l⟩⟩⟩
    · cases h
    · cases h
    · cases h
    simp only [Option.bind_eq_bind, Option.bind_eq_some_iff, Option.pure_def] at h
    obtain ⟨k, hk, m, hm, i, hi, h⟩ := h
    split_ifs at h with hn
    obtain ⟨hn1, hn2⟩ := not_or.1 hn
    obtain ⟨rfl, rfl⟩ := Prod.mk.inj (Option.some.inj h)
    obtain ⟨hk64, rfl⟩ := eq_tail_of_continuation hk (a.toNat - 0xF0)
    obtain ⟨hm64, rfl⟩ := eq_tail_of_continuation hm ((a.toNat - 0xF0) * 64 + k)
    obtain ⟨hi64, rfl⟩ := eq_tail_of_continuation hi (((a.toNat - 0xF0) * 64 + k) * 64 + m)
    have hsum : (((a.toNat - 0xF0) * 64 + k) * 64 + m) * 64 + i =
        (a.toNat - 0xF0) * 262144 + k * 4096 + m * 64 + i := by ring
    rw [CodePoint.value_ofValue (by omega), spell, if_neg (by omega), if_neg (by omega), if_neg (by omega)]
    refine ⟨?_, fun hs => absurd hs.2 (by omega)⟩
    rw [show 0xF0 + ((a.toNat - 0xF0) * 262144 + k * 4096 + m * 64 + i) / 262144 = a.toNat by omega,
      ofNat_toNat, hsum,
      show ((a.toNat - 0xF0) * 262144 + k * 4096 + m * 64 + i) / 4096 = (a.toNat - 0xF0) * 64 + k by omega,
      show ((a.toNat - 0xF0) * 262144 + k * 4096 + m * 64 + i) / 64 =
        ((a.toNat - 0xF0) * 64 + k) * 64 + m by omega]
    rfl

/-! ### Texts -/

/-- Each code point takes a byte at least. -/
theorem spell_ne_nil (n : ℕ) : spell n ≠ [] := by
  unfold spell
  split_ifs
  all_goals exact List.cons_ne_nil _ _

/-- The value of a code point is below the end of Unicode. -/
theorem value_lt (p : CodePoint) : p.value < 0x110000 := by
  rcases p with c | n
  · exact CodePoint.char_lt c
  · have := n.isLt
    rw [CodePoint.value]
    omega

/-- **A text is decoded from its bytes.** The induction is on the text, with fuel for each code point. -/
theorem decode_utf8Bytes {t : Text} (h : Spelled t) {fuel : ℕ} (hfuel : t.length ≤ fuel) :
    decode (utf8Point false) fuel (utf8Bytes t) = some t := by
  induction t generalizing fuel with
  | nil =>
    rw [utf8Bytes_nil, decode]
  | cons p t ih =>
    obtain ⟨hp, ht⟩ := List.forall_mem_cons.1 h
    obtain ⟨fuel, rfl⟩ : ∃ k, fuel = k + 1 := ⟨fuel - 1, by rw [List.length_cons] at hfuel; omega⟩
    have hpoint := utf8Point_spell (value_lt p) hp (utf8Bytes t)
    rw [CodePoint.ofValue_value] at hpoint
    rw [utf8Bytes_cons]
    obtain ⟨a, l, hl⟩ := List.exists_cons_of_ne_nil (spell_ne_nil p.value)
    rw [hl, List.cons_append] at hpoint ⊢
    have hrest := ih ht (Nat.succ_le_succ_iff.1 hfuel)
    simp only [decode, hpoint, Option.bind_eq_bind, Option.bind_some, hrest, Option.pure_def]

/-- A text has no more code points than bytes. -/
theorem length_le_utf8Bytes (t : Text) : t.length ≤ (utf8Bytes t).length := by
  induction t with
  | nil => exact le_rfl
  | cons p t ih =>
    have hpos := List.length_pos_of_ne_nil (spell_ne_nil p.value)
    rw [utf8Bytes_cons, List.length_append, List.length_cons]
    omega

/-- **Bytes that are decoded are the bytes of the text**, so that no sequence is longer than it has to be.
-/
theorem eq_utf8Bytes_of_decode {fuel : ℕ} {l : Bytes} {t : Text}
    (h : decode (utf8Point false) fuel l = some t) : l = utf8Bytes t ∧ Spelled t := by
  induction fuel generalizing l t with
  | zero =>
    rcases l with _ | ⟨a, l⟩
    · obtain rfl := Option.some.inj h
      exact ⟨rfl, List.forall_mem_nil _⟩
    · cases h
  | succ fuel ih =>
    rcases l with _ | ⟨a, l⟩
    · obtain rfl := Option.some.inj h
      exact ⟨rfl, List.forall_mem_nil _⟩
    simp only [decode, Option.bind_eq_bind, Option.bind_eq_some_iff, Option.pure_def] at h
    obtain ⟨⟨p, rest⟩, hpoint, t', ht', h⟩ := h
    obtain rfl := Option.some.inj h
    obtain ⟨hspell, hp⟩ := eq_spell_of_utf8Point hpoint
    obtain ⟨rfl, hspelled⟩ := ih ht'
    exact ⟨hspell, List.forall_mem_cons.2 ⟨hp, hspelled⟩⟩

/-- **Reading strictly is the inverse of spelling.** -/
theorem utf8_eq_some_iff {l : Bytes} {t : Text} : utf8 false l = some t ↔ l = utf8Bytes t ∧ Spelled t := by
  constructor
  · exact eq_utf8Bytes_of_decode
  · rintro ⟨rfl, h⟩
    exact decode_utf8Bytes h (length_le_utf8Bytes t)

/-- A text that can be spelled is read from its bytes. -/
theorem utf8_utf8Bytes {t : Text} (h : Spelled t) : utf8 false (utf8Bytes t) = some t :=
  utf8_eq_some_iff.2 ⟨rfl, h⟩

/-- Encoding and decoding are the inverse of each other. -/
theorem encodeUtf8_eq_some_iff {l : Bytes} {t : Text} : encodeUtf8 t = some l ↔ utf8 false l = some t := by
  rw [utf8_eq_some_iff, encodeUtf8]
  split_ifs with h
  · exact ⟨fun heq => ⟨(Option.some.inj heq).symm, h⟩, fun heq => congrArg some heq.1.symm⟩
  · exact iff_of_false nofun fun heq => h heq.2

/-- The bytes of ASCII characters are their numbers. -/
theorem utf8Bytes_eq_ascii {t : Text} (h : ∀ p ∈ t, p.value < 0x80) : utf8Bytes t = ascii t := by
  induction t with
  | nil => rfl
  | cons p t ih =>
    obtain ⟨hp, ht⟩ := List.forall_mem_cons.1 h
    rw [utf8Bytes_cons, ih ht, spell, if_pos hp]
    rfl

/-! ### Bytes of ASCII in a text -/

/-- A code point is one byte of ASCII, or no byte of it is ASCII. -/
theorem spell_cases (p : CodePoint) : (p.value < 0x80 ∧ spell p.value = [UInt8.ofNat p.value]) ∨
    (0x80 ≤ p.value ∧ ∀ b ∈ spell p.value, 0x80 ≤ b.toNat) := by
  have hlt := value_lt p
  have htail : ∀ n, 0x80 ≤ (tail n).toNat := fun n => by
    rw [tail, UInt8.toNat_ofNat']
    omega
  rcases lt_or_ge p.value 0x80 with h | h
  · exact Or.inl ⟨h, if_pos h⟩
  · refine Or.inr ⟨h, ?_⟩
    rw [spell, if_neg (not_lt.2 h)]
    split_ifs
    all_goals
      intro b hb
      simp only [List.mem_cons, List.not_mem_nil, or_false] at hb
    · rcases hb with rfl | rfl
      · rw [toNat_ofNat (by omega)]
        omega
      · exact htail _
    · rcases hb with rfl | rfl | rfl
      · rw [toNat_ofNat (by omega)]
        omega
      · exact htail _
      · exact htail _
    · rcases hb with rfl | rfl | rfl | rfl
      · rw [toNat_ofNat (by omega)]
        omega
      · exact htail _
      · exact htail _
      · exact htail _

section Ascii

variable {b : UInt8}

/-- A byte of ASCII is that of one code point only. -/
theorem eq_ofValue_iff (hb : b.toNat < 0x80) {p : CodePoint} (hp : p.value < 0x80) :
    UInt8.ofNat p.value = b ↔ p = .ofValue b.toNat := by
  constructor
  · rintro rfl
    rw [toNat_ofNat (by omega), CodePoint.ofValue_value]
  · rintro rfl
    rw [CodePoint.value_ofValue (by omega), ofNat_toNat]

/-- A text begins with a byte of ASCII if it begins with that character. -/
theorem head?_utf8Bytes (hb : b.toNat < 0x80) (t : Text) :
    (utf8Bytes t).head? = some b ↔ t.head? = some (.ofValue b.toNat) := by
  rcases t with _ | ⟨p, t⟩
  · exact iff_of_false nofun nofun
  rw [utf8Bytes_cons, List.head?_append_of_ne_nil _ (spell_ne_nil _), List.head?_cons, Option.some_inj]
  rcases spell_cases p with ⟨hp, hspell⟩ | ⟨hp, hhigh⟩
  · rw [hspell, List.head?_cons, Option.some_inj, eq_ofValue_iff hb hp]
  · refine iff_of_false (fun h => ?_) ?_
    · exact absurd (hhigh b (List.mem_of_mem_head? h)) (not_le.2 hb)
    · rintro rfl
      rw [CodePoint.value_ofValue (by omega)] at hp
      omega

/-- And it ends with the byte if it ends with the character. -/
theorem getLast?_utf8Bytes (hb : b.toNat < 0x80) (t : Text) :
    (utf8Bytes t).getLast? = some b ↔ t.getLast? = some (.ofValue b.toNat) := by
  rcases List.eq_nil_or_concat t with rfl | ⟨t, p, rfl⟩
  · exact iff_of_false nofun nofun
  rw [List.concat_eq_append, utf8Bytes_append, List.getLast?_concat, Option.some_inj, utf8Bytes_cons, utf8Bytes_nil,
    List.append_nil, List.getLast?_append_of_ne_nil _ (spell_ne_nil _)]
  rcases spell_cases p with ⟨hp, hspell⟩ | ⟨hp, hhigh⟩
  · rw [hspell, List.getLast?_singleton, Option.some_inj, eq_ofValue_iff hb hp]
  · refine iff_of_false (fun h => ?_) ?_
    · exact absurd (hhigh b (List.mem_of_getLast? h)) (not_le.2 hb)
    · rintro rfl
      rw [CodePoint.value_ofValue (by omega)] at hp
      omega

/-- A text has a byte of ASCII in it as often as that character. -/
theorem count_utf8Bytes (hb : b.toNat < 0x80) (t : Text) :
    (utf8Bytes t).count b = t.count (.ofValue b.toNat) := by
  induction t with
  | nil => rfl
  | cons p t ih =>
    rw [utf8Bytes_cons, List.count_append, ih, List.count_cons, Nat.add_comm]
    congr 1
    rcases spell_cases p with ⟨hp, hspell⟩ | ⟨hp, hhigh⟩
    · rw [hspell, List.count_singleton]
      simp only [beq_iff_eq, eq_ofValue_iff hb hp]
    · rw [List.count_eq_zero.2 fun hmem => absurd (hhigh b hmem) (not_le.2 hb), if_neg]
      rw [beq_iff_eq]
      rintro rfl
      rw [CodePoint.value_ofValue (by omega)] at hp
      omega

end Ascii

end Encoding

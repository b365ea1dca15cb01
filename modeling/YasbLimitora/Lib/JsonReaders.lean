import Mathlib
import YasbLimitora.Lib.JsonRead
import YasbLimitora.Lib.JsonUpdate

/-!
# Readers that differ in floating-point numbers

What two readers make of one text differs in nothing but in the floating-point numbers, if neither
reads the constants that are no JSON or repeats a key: with a zero in place of these (`Json.bare`)
it is the same (`Json.bare_eq_of_parse`).

The zero is a number that is read back from its text. What a reader gives can therefore be read
back once its floating-point numbers are zeros, however the reader keeps them
(`Json.readable_bare_of_parse`): its strings are paired, its integers are short and its objects
repeat no key.

A client decodes a document with numbers of its own, a test with the text of them, and a filter with
none. What they agree on is the same document, and a fact that was proved of one reader holds of the
others through `Json.bare`.
-/

namespace Json

mutual

/-- A value with a zero in place of its floating-point numbers. -/
def bare : Json Text → Json Text
  | float _ => float "0.0"
  | arr items => arr (bareItems items)
  | obj fields => obj (bareFields fields)
  | j => j

def bareItems : List (Json Text) → List (Json Text)
  | [] => []
  | x :: xs => bare x :: bareItems xs

def bareFields : List (Text × Json Text) → List (Text × Json Text)
  | [] => []
  | (k, x) :: fields => (k, bare x) :: bareFields fields

end

/-- The reader of values with a zero in place of their floating-point numbers. -/
def bareReader : Reader where
  float _ := some "0.0"
  constant _ := none
  repeats := false

theorem keys_bareFields (fields : Fields) : (bareFields fields).map Prod.fst = fields.map Prod.fst := by
  induction fields with
  | nil => rfl
  | cons p fields ih => rw [bareFields, List.map_cons, List.map_cons, ih]

theorem get?_bareFields (k : Text) (fields : Fields) :
    get? k (bareFields fields) = (get? k fields).map bare := by
  induction fields with
  | nil => rfl
  | cons p fields ih =>
    rw [bareFields, get?, get?]
    split_ifs with hk
    · rfl
    · exact ih

/-! ### Reading a zero in their place -/

section Reading

variable {r : Reader}

/-- A reader that takes no constant that is no JSON, and repeats no key. -/
structure Reader.Strict (r : Reader) : Prop where
  constant : ∀ l, r.constant l = none
  repeats : r.repeats = false

theorem Reader.Faithful.strict (h : r.Faithful) : r.Strict := ⟨h.constant, h.repeats⟩

theorem parseNumber_bare {l rest : Text} {j : Json Text} (h : parseNumber r l = some (j, rest)) :
    parseNumber bareReader l = some (j.bare, rest) := by
  unfold parseNumber at h ⊢
  simp only [Option.bind_eq_bind, Option.bind_eq_some_iff] at h ⊢
  obtain ⟨⟨digits, after⟩, hwhole, h⟩ := h
  refine ⟨⟨digits, after⟩, hwhole, ?_⟩
  dsimp only at h ⊢
  split_ifs at h ⊢ with hint hdigits hneg
  · obtain ⟨rfl, rfl⟩ := Prod.mk.inj (Option.some.inj h)
    rfl
  · obtain ⟨rfl, rfl⟩ := Prod.mk.inj (Option.some.inj h)
    rfl
  all_goals
    simp only [Option.bind_eq_some_iff, Option.pure_def] at h
    obtain ⟨text, htext, h⟩ := h
    obtain ⟨rfl, rfl⟩ := Prod.mk.inj (Option.some.inj h)
    rfl

/-- What is read with some fuel is read with a zero in place of floating-point numbers. -/
structure ReadsBare (r : Reader) (fuel : ℕ) : Prop where
  value : ∀ {l rest : Text} {j : Json Text}, parseValue r fuel l = some (j, rest) →
    parseValue bareReader fuel l = some (j.bare, rest)
  items : ∀ {l rest : Text} {xs : List (Json Text)}, parseItems r fuel l = some (xs, rest) →
    parseItems bareReader fuel l = some (bareItems xs, rest)
  fields : ∀ {l rest : Text} {fields : List (Text × Json Text)},
    parseFields r fuel l = some (fields, rest) →
      parseFields bareReader fuel l = some (bareFields fields, rest)

theorem object_bare (hr : r.Strict) {fields : List (Text × Json Text)} {j : Json Text}
    (h : object r fields = some j) : object bareReader (bareFields fields) = some j.bare := by
  rw [object, hr.repeats, if_congr (or_iff_right Bool.false_ne_true) rfl rfl] at h
  split_ifs at h with hnodup
  obtain rfl := Option.some.inj h
  have hbare : ((bareFields fields).map Prod.fst).Nodup := by rwa [keys_bareFields]
  rw [object, if_pos (Or.inr hbare), dict_of_nodup hnodup, dict_of_nodup hbare]
  rfl

section Step

variable {fuel : ℕ} {l rest : Text}

theorem constant_bare (hr : r.Strict) {name : String} {after : Text} {j : Json Text} {x : Option (Json Text × Text)}
    (h : constant r name after = some (j, rest)) : x = some (j.bare, rest) := by
  rw [constant, hr.constant] at h
  cases h

theorem parseValue_bare (hr : r.Strict) (ih : ReadsBare r fuel) {j : Json Text}
    (h : parseValue r (fuel + 1) l = some (j, rest)) :
    parseValue bareReader (fuel + 1) l = some (j.bare, rest) := by
  unfold parseValue at h
  split at h
  · simp only [Option.bind_eq_bind, Option.bind_eq_some_iff, Option.pure_def] at h
    obtain ⟨⟨s, rest'⟩, hs, h⟩ := h
    obtain ⟨rfl, rfl⟩ := Prod.mk.inj (Option.some.inj h)
    rw [parseValue, hs]
    rfl
  · next after =>
    rw [parseValue]
    split at h
    · next heq =>
      obtain ⟨rfl, rfl⟩ := Prod.mk.inj (Option.some.inj h)
      rfl
    · simp only [Option.bind_eq_bind, Option.bind_eq_some_iff, Option.pure_def] at h
      obtain ⟨⟨items, rest'⟩, hitems, h⟩ := h
      obtain ⟨rfl, rfl⟩ := Prod.mk.inj (Option.some.inj h)
      rw [ih.items hitems]
      rfl
  · next after =>
    rw [parseValue]
    split at h
    · next heq =>
      obtain ⟨rfl, rfl⟩ := Prod.mk.inj (Option.some.inj h)
      rfl
    · simp only [Option.bind_eq_bind, Option.bind_eq_some_iff, Option.pure_def] at h
      obtain ⟨⟨fields, rest'⟩, hfields, j', hobject, h⟩ := h
      obtain ⟨rfl, rfl⟩ := Prod.mk.inj (Option.some.inj h)
      have hbare : object bareReader (bareFields fields) = some j'.bare := object_bare hr hobject
      rw [ih.fields hfields, Option.bind_eq_bind, Option.bind_some]
      dsimp only
      rw [hbare]
      rfl
  · obtain ⟨rfl, rfl⟩ := Prod.mk.inj (Option.some.inj h)
    rfl
  · obtain ⟨rfl, rfl⟩ := Prod.mk.inj (Option.some.inj h)
    rfl
  · obtain ⟨rfl, rfl⟩ := Prod.mk.inj (Option.some.inj h)
    rfl
  · exact constant_bare hr h
  · exact constant_bare hr h
  · exact constant_bare hr h
  · rw [parseValue]
    · exact parseNumber_bare h
    all_goals assumption

theorem parseItems_bare (ih : ReadsBare r fuel) {xs : List (Json Text)}
    (h : parseItems r (fuel + 1) l = some (xs, rest)) :
    parseItems bareReader (fuel + 1) l = some (bareItems xs, rest) := by
  unfold parseItems at h
  simp only [Option.bind_eq_bind, Option.bind_eq_some_iff] at h
  obtain ⟨⟨x, after⟩, hx, h⟩ := h
  rw [parseItems, ih.value hx, Option.bind_eq_bind, Option.bind_some]
  dsimp only at h ⊢
  split at h
  · next heq =>
    simp only [Option.bind_eq_some_iff, Option.pure_def] at h
    obtain ⟨⟨ys, rest'⟩, hys, h⟩ := h
    obtain ⟨rfl, rfl⟩ := Prod.mk.inj (Option.some.inj h)
    rw [ih.items hys]
    rfl
  · obtain ⟨rfl, rfl⟩ := Prod.mk.inj (Option.some.inj h)
    rfl
  · cases h

theorem parseFields_bare (ih : ReadsBare r fuel) {fields : List (Text × Json Text)}
    (h : parseFields r (fuel + 1) l = some (fields, rest)) :
    parseFields bareReader (fuel + 1) l = some (bareFields fields, rest) := by
  unfold parseFields at h
  dsimp only at h
  split at h
  · next after =>
    simp only [Option.bind_eq_bind, Option.bind_eq_some_iff] at h
    obtain ⟨⟨k, colon⟩, hk, h⟩ := h
    rw [parseFields, hk, Option.bind_eq_bind, Option.bind_some]
    dsimp only at h ⊢
    split at h
    · simp only [Option.bind_eq_some_iff] at h
      obtain ⟨⟨x, after'⟩, hx, h⟩ := h
      rw [ih.value hx, Option.bind_eq_bind, Option.bind_some]
      dsimp only at h ⊢
      split at h
      · simp only [Option.bind_eq_some_iff, Option.pure_def] at h
        obtain ⟨⟨fields', rest'⟩, hfields, h⟩ := h
        obtain ⟨rfl, rfl⟩ := Prod.mk.inj (Option.some.inj h)
        rw [ih.fields hfields]
        rfl
      · obtain ⟨rfl, rfl⟩ := Prod.mk.inj (Option.some.inj h)
        rfl
      · cases h
    · cases h
  · cases h

end Step

theorem readsBare (hr : r.Strict) (fuel : ℕ) : ReadsBare r fuel := by
  induction fuel with
  | zero => exact ⟨nofun, nofun, nofun⟩
  | succ fuel ih => exact ⟨parseValue_bare hr ih, parseItems_bare ih, parseFields_bare ih⟩

theorem parse_bare (hr : r.Strict) {t : Text} {j : Json Text} (h : parse r t = some j) :
    parse bareReader t = some j.bare := by
  simp only [parse, Option.bind_eq_bind, Option.bind_eq_some_iff] at h ⊢
  obtain ⟨⟨x, rest⟩, hx, h⟩ := h
  refine ⟨(x.bare, rest), (readsBare hr _).value hx, ?_⟩
  dsimp only at h ⊢
  split_ifs at h ⊢ with hrest
  obtain rfl := Option.some.inj h
  rfl

/-- **Two readers read the same but for floating-point numbers.** -/
theorem bare_eq_of_parse {r' : Reader} (hr : r.Strict) (hr' : r'.Strict) {t : Text} {j j' : Json Text}
    (h : parse r t = some j) (h' : parse r' t = some j') : j.bare = j'.bare :=
  Option.some.inj ((parse_bare hr h).symm.trans (parse_bare hr' h'))

/-! ### What is read, with a zero in their place -/

/-- The zero is read back. -/
theorem readsNumber_zero : ReadsNumber bareReader "0.0" where
  begins := ⟨'0', ['.', '0'], rfl, Or.inl rfl⟩
  ascii := by
    simp only [show "0.0".toList = ['0', '.', '0'] from rfl, List.forall_mem_cons]
    exact ⟨by decide, by decide, by decide, List.forall_mem_nil _⟩
  reads := by
    intro rest hends
    have hdigits : spanDigits (.ch '0' :: rest) = (['0'], rest) := by
      rw [spanDigits, if_pos (show DecimalText.isDigit '0' = true from rfl), spanDigits_ends hends]
    have hfraction : fraction (.ch '.' :: .ch '0' :: rest) = (['.', '0'], rest) := by
      rw [fraction, hdigits]
    have hwhole : wholePart (minus (.ch '0' :: .ch '.' :: .ch '0' :: rest)).2
        = some (['0'], .ch '.' :: .ch '0' :: rest) := rfl
    change parseNumber bareReader (.ch '0' :: .ch '.' :: .ch '0' :: rest) = _
    rw [parseNumber, hwhole, Option.bind_eq_bind, Option.bind_some]
    simp only [hfraction, exponent_of_endsNumber hends]
    rfl

theorem faithful_bareReader : bareReader.Faithful where
  float := by
    rintro l t ⟨⟩
    exact readsNumber_zero
  constant _ := rfl
  repeats := rfl

/-- **What is read, of whatever text, can be read back** once its floating-point numbers are zeros. -/
theorem readable_bare_of_parse (hr : r.Strict) {t : Text} {j : Json Text} (ht : Encoding.Spelled t)
    (h : parse r t = some j) : j.bare.Readable bareReader :=
  readable_of_parse faithful_bareReader ht (parse_bare hr h)

/-- The values of an object that is readable without floating-point numbers are so, too. -/
theorem readable_bare_of_get? {fields : Fields} (h : (obj fields).bare.Readable bareReader) {k : Text} {x : Json Text}
    (hx : get? k fields = some x) : x.bare.Readable bareReader := by
  have hbare : get? k (bareFields fields) = some x.bare := by
    rw [get?_bareFields, hx]
    rfl
  exact readable_of_get? h hbare

end Reading

end Json

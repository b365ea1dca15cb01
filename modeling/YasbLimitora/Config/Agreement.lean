import Mathlib
import YasbLimitora.Config.Document

/-!
# When the two loaders agree

The loader of the program tells the encoding of a document by its first bytes, lets encoded
surrogates pass and leaves a byte-order mark out; the one of the setup assist takes each
document for UTF-8, as strictly as that is defined, and reads a mark as a part of it.
`YasbLimitora.Config.loaders_agree_iff` says for which documents that makes no difference:
those that are plain UTF-8, and those that are no configuration however they are encoded. A
text that UTF-8 gives and that is told for another encoding begins in a way no object does
(`parse_obj`), so that the assist never takes it.

How deep values may be nested is bounded by what the interpreter has left of its own depth
when a loader is called, which is one bound for each.
-/

namespace Json

open DecimalText

variable {r : Reader}

theorem parseNumber_ne_obj {l rest : Text} {fields : List (Text × Json Text)} :
    parseNumber r l ≠ some (.obj fields, rest) := by
  intro h
  obtain ⟨x, -, h⟩ := Option.bind_eq_some_iff.1 h
  dsimp only at h
  split_ifs at h
  · cases h
  · cases h
  all_goals
    obtain ⟨text, -, h⟩ := Option.bind_eq_some_iff.1 h
    cases h

/-- An object begins with its brace, and then with a quotation mark or the other brace. -/
theorem parseValue_obj {fuel : ℕ} {l rest : Text} {fields : List (Text × Json Text)}
    (h : parseValue r fuel l = some (.obj fields, rest)) :
    ∃ l', l = .ch '{' :: l' ∧ ((∃ l'', skipBlanks l' = .ch '}' :: l'') ∨
      ∃ l'', skipBlanks l' = .ch '"' :: l'') := by
  rcases fuel with _ | fuel
  · cases h
  have hconstant : ∀ {name : String} {l : Text}, constant r name l ≠ some (.obj fields, rest) := by
    intro name l h
    obtain ⟨text, -, h⟩ := Option.map_eq_some_iff.1 h
    cases h
  unfold parseValue at h
  split at h
  · obtain ⟨x, -, h⟩ := Option.bind_eq_some_iff.1 h
    cases h
  · split at h
    · cases h
    · obtain ⟨x, -, h⟩ := Option.bind_eq_some_iff.1 h
      cases h
  · next l' =>
    refine ⟨l', rfl, ?_⟩
    split at h
    · next l'' hl'' => exact Or.inl ⟨l'', hl''⟩
    · obtain ⟨x, hfields, -⟩ := Option.bind_eq_some_iff.1 h
      rcases fuel with _ | fuel
      · cases hfields
      · unfold parseFields at hfields
        split at hfields
        · next l'' hl'' => exact Or.inr ⟨l'', hl''⟩
        · cases hfields
  · cases h
  · cases h
  · cases h
  · exact absurd h hconstant
  · exact absurd h hconstant
  · exact absurd h hconstant
  · exact absurd h parseNumber_ne_obj

/-- **No marked text is an object.** -/
theorem parse_obj {t : Text} {fields : List (Text × Json Text)}
    (h : parse r t = some (.obj fields)) : ¬Encoding.Marked t := by
  obtain ⟨⟨x, rest⟩, hvalue, h⟩ := Option.bind_eq_some_iff.1 h
  dsimp only at h
  split_ifs at h
  obtain rfl := Option.some.inj h
  obtain ⟨l, hl, hnext⟩ := parseValue_obj hvalue
  have hmark : isBlank (.ofValue 0xFEFF) = false := by decide
  have hzero : isBlank (.ofValue 0) = false := by decide
  rintro (⟨t', rfl⟩ | ⟨t', rfl⟩ | ⟨p, t', rfl⟩)
  · rw [skipBlanks, List.dropWhile_cons_of_neg (by rw [hmark]; decide)] at hl
    exact absurd (List.cons.inj hl).1 (by decide)
  · rw [skipBlanks, List.dropWhile_cons_of_neg (by rw [hzero]; decide)] at hl
    exact absurd (List.cons.inj hl).1 (by decide)
  · have hstop : skipBlanks (.ofValue 0 :: t') = .ofValue 0 :: t' :=
      List.dropWhile_cons_of_neg (by rw [hzero]; decide)
    rcases hp : isBlank p
    · rw [skipBlanks, List.dropWhile_cons_of_neg (by rw [hp]; decide)] at hl
      obtain ⟨-, rfl⟩ := List.cons.inj hl
      rw [hstop] at hnext
      rcases hnext with ⟨l'', hnext⟩ | ⟨l'', hnext⟩
      · exact absurd (List.cons.inj hnext).1 (by decide)
      · exact absurd (List.cons.inj hnext).1 (by decide)
    · rw [skipBlanks, List.dropWhile_cons_of_pos hp] at hl
      rw [skipBlanks] at hstop
      rw [hstop] at hl
      exact absurd (List.cons.inj hl).1 (by decide)

end Json

namespace YasbLimitora

namespace Config

section Loaders

variable {F : Type} (floats : Floats F)

/-- **The two loaders agree on a document**: both refuse it, or both accept it, with the same
configuration and the same invalid providers. -/
def Agree (runtimeLimit assistLimit : ℕ) (raw : Bytes) : Prop :=
  (loadExplicit floats runtimeLimit raw).toOption =
    (validateConfigDocument floats assistLimit true raw).toOption

/-- A document is plain: strict UTF-8, and told for UTF-8 without a mark. -/
def Plain (raw : Bytes) : Prop := Encoding.detect raw = .utf8 ∧ (Encoding.utf8 false raw).isSome

/-- A value that is a configuration. -/
def IsConfig (value : Json Text) : Prop := (LocalConfig.fromMapping floats true value).isOk

variable {floats} {limit : ℕ} {t : Text} {raw : Bytes}

/-- A text is accepted if it is the one of a configuration that is not nested too deep. -/
theorem ofText_eq_some {result : LocalConfig F × List ProviderKey} :
    (ofText floats limit true t).toOption = some result ↔ ∃ value, Json.parse configReader t = some value ∧
      value.depth ≤ limit ∧ LocalConfig.fromMapping floats true value = .ok result := by
  unfold ofText
  rcases Json.parse configReader t with _ | value
  · exact iff_of_false nofun fun ⟨_, h, _⟩ => nomatch h
  · dsimp only
    split_ifs with hdeep
    · exact iff_of_false nofun fun ⟨v, hv, hdepth, _⟩ => by
        obtain rfl := Option.some.inj hv
        exact absurd hdeep (not_lt.2 hdepth)
    · rcases hconfig : LocalConfig.fromMapping floats true value with message | result'
      · refine iff_of_false nofun ?_
        rintro ⟨v, hv, -, hok⟩
        obtain rfl := Option.some.inj hv
        rw [hconfig] at hok
        cases hok
      · constructor
        · intro h
          exact ⟨value, rfl, not_lt.1 hdeep, hconfig.trans (congrArg Except.ok (Option.some.inj h))⟩
        · rintro ⟨v, hv, -, hok⟩
          obtain rfl := Option.some.inj hv
          rw [hconfig] at hok
          exact congrArg some (Except.ok.inj hok)

/-- Only an object is a configuration. -/
theorem fromMapping_obj {collect : Bool} {value : Json Text}
    {result : LocalConfig F × List ProviderKey}
    (h : LocalConfig.fromMapping floats collect value = .ok result) : ∃ fields, value = .obj fields := by
  unfold LocalConfig.fromMapping at h
  split_ifs at h
  obtain ⟨fields, hfields, -⟩ := bind_eq_ok_iff.1 h
  rcases value with _ | _ | _ | _ | _ | _ | fields
  · cases hfields
  · cases hfields
  · cases hfields
  · cases hfields
  · cases hfields
  · cases hfields
  · exact ⟨fields, rfl⟩

/-- The assist takes no document but a plain one. -/
theorem validateConfigDocument_of_not_plain (h : ¬Plain raw) :
    (validateConfigDocument floats limit true raw).toOption = none := by
  unfold validateConfigDocument
  rcases ht : Encoding.utf8 false raw with _ | t
  · rfl
  · rcases hresult : (ofText floats limit true t).toOption with _ | result
    · rfl
    · obtain ⟨value, hparse, -, hok⟩ := ofText_eq_some.1 hresult
      obtain ⟨fields, rfl⟩ := fromMapping_obj hok
      refine absurd (Encoding.marked_of_detect_ne ht fun hdetect => h ⟨hdetect, ?_⟩) (Json.parse_obj hparse)
      rw [ht]
      rfl

variable (floats limit) in
/-- The loaders take a plain document for the same text. -/
theorem loadExplicit_of_plain (h : Plain raw) :
    ∃ t, Encoding.utf8 false raw = some t ∧ loadExplicit floats limit raw = ofText floats limit true t := by
  obtain ⟨t, ht⟩ := Option.isSome_iff_exists.1 h.2
  refine ⟨t, ht, ?_⟩
  rw [loadExplicit, h.1, Encoding.Detected.text, Encoding.utf8_pass ht]

variable (floats) in
/-- The value that a text is, where that is a configuration. -/
def configOf (t : Option Text) (value : Json Text) : Prop :=
  t.bind (Json.parse configReader) = some value ∧ IsConfig floats value

/-- A text is refused where it is no configuration, or one that is nested too deep. -/
theorem ofText_eq_none :
    (ofText floats limit true t).toOption = none ↔
      ∀ value, configOf floats (some t) value → limit < value.depth := by
  constructor
  · rintro h value ⟨hparse, hconfig⟩
    by_contra hdeep
    rcases hresult : LocalConfig.fromMapping floats true value with message | result
    · rw [IsConfig, hresult] at hconfig
      cases hconfig
    · exact absurd (h.symm.trans (ofText_eq_some.2 ⟨value, hparse, not_lt.1 hdeep, hresult⟩)) nofun
  · intro h
    rcases hresult : (ofText floats limit true t).toOption with _ | result
    · rfl
    · obtain ⟨value, hparse, hdepth, hok⟩ := ofText_eq_some.1 hresult
      refine absurd (h value ⟨hparse, ?_⟩) (not_lt.2 hdepth)
      rw [IsConfig, hok]
      rfl

/-- One text is taken for the same, unless one of two bounds is for it and the other is not. -/
theorem ofText_agree {limit' : ℕ} :
    (ofText floats limit true t).toOption = (ofText floats limit' true t).toOption ↔
      ∀ value, configOf floats (some t) value → (value.depth ≤ limit ↔ value.depth ≤ limit') := by
  constructor
  · rintro h value ⟨hparse, hconfig⟩
    rcases hresult : LocalConfig.fromMapping floats true value with message | result
    · rw [IsConfig, hresult] at hconfig
      cases hconfig
    · constructor
      · intro hdepth
        have hsome := h.symm.trans (ofText_eq_some.2 ⟨value, hparse, hdepth, hresult⟩)
        obtain ⟨value', hparse', hdepth', -⟩ := ofText_eq_some.1 hsome
        obtain rfl := Option.some.inj (hparse'.symm.trans hparse)
        exact hdepth'
      · intro hdepth
        have hsome := h.trans (ofText_eq_some.2 ⟨value, hparse, hdepth, hresult⟩)
        obtain ⟨value', hparse', hdepth', -⟩ := ofText_eq_some.1 hsome
        obtain rfl := Option.some.inj (hparse'.symm.trans hparse)
        exact hdepth'
  · intro h
    refine Option.ext fun result => ofText_eq_some.trans (Iff.trans ?_ ofText_eq_some.symm)
    refine exists_congr fun value => and_congr_right fun hparse => and_congr_left fun hok => ?_
    refine h value ⟨hparse, ?_⟩
    rw [IsConfig, hok]
    rfl

/-- **The two loaders agree on a document** exactly if it is plain and, as a configuration, is
nested no deeper than both of them bear, or deeper than either does; or if it is not plain,
and no configuration that the program takes in the encoding that it tells. -/
theorem loaders_agree_iff (floats : Floats F) (runtimeLimit assistLimit : ℕ) (raw : Bytes) :
    Agree floats runtimeLimit assistLimit raw ↔
      (Plain raw ∧ ∀ value, configOf floats (Encoding.utf8 false raw) value →
          (value.depth ≤ runtimeLimit ↔ value.depth ≤ assistLimit)) ∨
        (¬Plain raw ∧ ∀ value, configOf floats ((Encoding.detect raw).text raw) value →
          runtimeLimit < value.depth) := by
  by_cases hplain : Plain raw
  · obtain ⟨t, ht, hload⟩ := loadExplicit_of_plain floats runtimeLimit hplain
    rw [Agree, hload, validateConfigDocument, ht]
    refine Iff.trans ?_ (or_iff_left fun h => h.1 hplain).symm
    exact ofText_agree.trans (and_iff_right hplain).symm
  · rw [Agree, validateConfigDocument_of_not_plain hplain, loadExplicit]
    refine Iff.trans ?_ ((or_iff_right fun h => hplain h.1).trans (and_iff_right hplain)).symm
    rcases (Encoding.detect raw).text raw with _ | t
    · exact iff_of_true rfl fun value h => nomatch h.1
    · exact ofText_eq_none

/-- An empty object after a byte-order mark is taken by the program and not by the assist. -/
theorem loaders_disagree_marked :
    (loadExplicit wholeFloats 100 [0xEF, 0xBB, 0xBF, 0x7B, 0x7D]).isOk = true ∧
      (validateConfigDocument wholeFloats 100 true [0xEF, 0xBB, 0xBF, 0x7B, 0x7D]).isOk = false ∧
      ¬Agree wholeFloats 100 100 [0xEF, 0xBB, 0xBF, 0x7B, 0x7D] := by
  unfold Agree
  decide +kernel

end Loaders

end Config

end YasbLimitora

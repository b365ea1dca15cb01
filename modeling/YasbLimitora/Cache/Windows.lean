import Mathlib
import YasbLimitora.Cache.Document

/-!
# Windows that the cache accepts

The checks of `_validate_document` recognize what is written of the records they build
(`Json.Recognizes`): they take no other value, and take that of every record of some kind. A text
is of that kind if it is safe, a quantity if it is zero or at least one
(`YasbLimitora.Cache.CacheableQuantity`), and a window if its texts are safe and its data has the
source of the provider (`YasbLimitora.Cache.CacheableWindow`).

Recognition is proved from the bottom up, in the order in which the validator builds its records. A
quantity is the first place where the two grammars of the program differ: the projector writes a
value below one with a zero before its point, and the expression of the validator has no such texts
(`YasbLimitora.Cache.isDecimal_fixedText`).
-/

namespace YasbLimitora

namespace Cache

open Json (Fields value optionally Recognizes)
open Protocol (member?)

/-! ### Texts and members -/

section Texts

variable [UnicodeData] {maximum : ℕ} {multiline : Bool} {s : String} {x : Json Text}

/-- A text that the cache takes. -/
structure SafeText (maximum : ℕ) (multiline : Bool) (s : String) : Prop where
  length : s.length ≤ maximum
  points : (Text.ofString s).any (isUnsafePoint multiline) = false
  normal : UnicodeData.nfc s = s
  value : isUnsafeValue (Text.ofString s) = false

omit [UnicodeData] in
theorem length_ofString (s : String) : (Text.ofString s).length = s.length := by
  rw [Text.ofString, Text.ofChars, List.length_map]
  rfl

/-- `_safe_text` takes the safe texts. -/
theorem safeText_recognizes :
    Recognizes (safeText maximum multiline) (fun s => .str (Text.ofString s)) (SafeText maximum multiline) := by
  intro x s
  dsimp only
  constructor
  · intro h
    unfold safeText at h
    split at h
    · next t =>
      split at h
      · cases h
      next hlength =>
      split at h
      · cases h
      next hpoints =>
      split at h
      · cases h
      next s' hs =>
      split_ifs at h with hnormal hvalue
      obtain rfl := Except.ok.inj h
      obtain rfl := Text.ofString_of_toString hs
      rw [length_ofString] at hlength
      exact ⟨rfl, not_lt.1 hlength, Bool.eq_false_iff.2 hpoints, not_not.1 hnormal, Bool.eq_false_iff.2 hvalue⟩
    · cases h
  · rintro ⟨rfl, hlength, hpoints, hnormal, hvalue⟩
    have hfits : ¬maximum < (Text.ofString s).length := by
      rw [length_ofString]
      exact not_lt.2 hlength
    have hvalue' : ¬isUnsafeValue (Text.ofString s) = true := Bool.eq_false_iff.1 hvalue
    unfold safeText
    dsimp only
    rw [if_neg hfits, hpoints, if_neg Bool.false_ne_true, Text.toString_ofString]
    dsimp only
    rw [if_neg (not_not.2 hnormal), if_neg hvalue']

omit [UnicodeData] in
/-- `_required_text` takes the strings. -/
theorem requiredText_recognizes : Recognizes requiredText .str fun _ => True := by
  intro x t
  constructor
  · intro h
    unfold requiredText at h
    split at h
    · obtain rfl := Except.ok.inj h
      exact ⟨rfl, trivial⟩
    · cases h
  · rintro ⟨rfl, -⟩
    rfl

omit [UnicodeData] in
/-- A text that is only compared must have no surrogate, or nothing equals it. -/
theorem comparedText_recognizes : Recognizes comparedText (fun s => .str (Text.ofString s)) fun _ => True := by
  intro x s
  constructor
  · intro h
    unfold comparedText at h
    split at h
    · split at h
      · next hs =>
        obtain rfl := Except.ok.inj h
        rw [Text.ofString_of_toString hs]
        exact ⟨rfl, trivial⟩
      · cases h
    · cases h
  · rintro ⟨rfl, -⟩
    unfold comparedText
    dsimp only
    rw [Text.toString_ofString]

omit [UnicodeData] in
/-- A member of a vocabulary is written in one way. -/
theorem memberOf_recognizes {α : Type} {message : String} {members : List α} {text : α → String}
    (h : ∀ a ∈ members, ofValue members text (text a) = some a) :
    Recognizes (memberOf message members text) (fun a => .str (Text.ofString (text a))) (· ∈ members) := by
  intro x a
  dsimp only
  unfold memberOf
  constructor
  · intro ha
    split at ha
    · next a' hmember =>
      obtain rfl := Except.ok.inj ha
      unfold member? at hmember
      split at hmember
      · next t =>
        obtain ⟨s, hs, hfound⟩ := Option.bind_eq_some_iff.1 hmember
        rw [value_of_ofValue hfound, Text.ofString_of_toString hs]
        exact ⟨rfl, List.mem_of_find?_eq_some hfound⟩
      · cases hmember
    · cases ha
  · rintro ⟨rfl, ha⟩
    rw [member?, Text.toString_ofString, Option.bind_some, h a ha]

omit [UnicodeData] in
theorem requiredMember_eq {α : Type} {message : String} {members : List α} {text : α → String} {a : α} :
    requiredMember message members text x = .ok a ↔ memberOf message members text x = .ok a := by
  unfold requiredMember
  rcases x with _ | _ | _ | _ | t | _ | _
  case str => exact Iff.rfl
  all_goals exact iff_of_false nofun nofun

omit [UnicodeData] in
/-- `_timestamp` takes the texts of the instants. -/
theorem timestamp_recognizes : Recognizes timestamp (fun t => .str (Text.ofString t.text)) fun _ => True := by
  intro x t
  have htext : Text.ofString t.text = Text.ofChars t.chars := by
    rw [Instant.text, Text.ofString, String.toList_ofList]
  unfold timestamp
  constructor
  · intro h
    split at h
    · split at h
      · cases h
      next parsed _ =>
      split_ifs at h with hsame
      obtain rfl := Except.ok.inj h
      dsimp only
      rw [htext, not_not.1 hsame]
      exact ⟨rfl, trivial⟩
    · cases h
  · rintro ⟨rfl, -⟩
    dsimp only
    rw [htext, Text.toChars_ofChars, Option.bind_some, Instant.ofChars_chars]
    exact if_neg (not_not.2 rfl)

end Texts

/-! ### Objects -/

section Objects

variable {words : List String} {item : Fields} {x : Json Text}

/-- An object of safe keys, in their order. -/
theorem safeMapping_eq_ok_iff (h : ∀ word ∈ words, isUnsafeKey (Text.ofString word) = false) :
    safeMapping words x = .ok item ↔ x = .obj item ∧ item.map Prod.fst = words.map Text.ofString := by
  constructor
  · intro hitem
    unfold safeMapping at hitem
    split at hitem
    · split_ifs at hitem with hsame horder hsafe
      obtain rfl := Except.ok.inj hitem
      exact ⟨rfl, not_not.1 horder⟩
    · cases hitem
  · rintro ⟨rfl, hkeys⟩
    have hmem : ∀ p ∈ item, p.1 ∈ words.map Text.ofString := by
      intro p hp
      rw [← hkeys]
      exact List.mem_map_of_mem hp
    have hsafe : ¬(item.any fun p => isUnsafeKey p.1) = true := by
      intro hany
      obtain ⟨p, hp, hunsafe⟩ := List.any_eq_true.1 hany
      obtain ⟨word, hword, hkey⟩ := List.mem_map.1 (hmem p hp)
      rw [← hkey, h word hword] at hunsafe
      cases hunsafe
    unfold safeMapping
    dsimp only
    rw [if_neg (not_not.2 ⟨hmem, fun key hkey => hkeys ▸ hkey⟩), if_neg (not_not.2 hkeys), if_neg hsafe]

/-- No key of the cache has an unsafe word in it. -/
theorem safe_keys : ∀ words ∈ [quantityFields, windowFields, resetFields, depletedFields, providerFields, generalFields,
    errorFields, rootFields], ∀ word ∈ words, isUnsafeKey (Text.ofString word) = false := by decide +kernel

end Objects

/-! ### Quantities -/

section Quantities

open DecimalText

theorem isFraction_iff {l : List Char} : isFraction l = true ↔ l = [] ∨ ∃ m, l = '.' :: m ∧ m ≠ [] ∧ m.all isDigit = true := by
  unfold isFraction
  split
  · exact iff_of_true rfl (Or.inl rfl)
  · next m =>
    simp
  · next h1 h2 =>
    refine iff_of_false Bool.false_ne_true ?_
    rintro (rfl | ⟨m, rfl, -⟩)
    · exact h1 rfl
    · exact h2 m rfl

theorem isDecimal_cons {c : Char} {l : List Char} (h : l ≠ [] ∨ c ≠ '0') :
    isDecimal (c :: l) = (isDigit c && c != '0' && isFraction (l.dropWhile isDigit)) := by
  unfold isDecimal
  split
  · next heq =>
    obtain ⟨rfl, rfl⟩ := List.cons.inj heq
    exact absurd rfl (h.resolve_left (not_not.2 rfl))
  · next heq =>
    obtain ⟨rfl, rfl⟩ := List.cons.inj heq
    rfl
  · next heq => cases heq

/-- What is written of a canonical decimal starts with no zero, or is zero, exactly if it is not
between zero and one. -/
theorem isDecimal_fixedText {d : Dec} (h : d.IsNormal) : isDecimal d.fixedText = true ↔ d.coeff = 0 ∨ 1 ≤ d.toRat := by
  have hnat : ∀ n : ℕ, n ≠ 0 → ∀ rest : List Char, (rest = [] ∨ ∃ m, rest = '.' :: m ∧ m ≠ [] ∧ m.all isDigit = true) →
      isDecimal (natText n ++ rest) = true := by
    intro n hn rest hrest
    have hhead := head_natText_ne_zero hn
    have hdigits := all_isDigit_natText n
    rcases htext : natText n with _ | ⟨c, l⟩
    · exact absurd htext (natText_ne_nil n)
    simp only [htext, List.head_cons] at hhead
    rw [htext, List.all_cons, Bool.and_eq_true] at hdigits
    have hdrop : (l ++ rest).dropWhile isDigit = rest := by
      rw [List.dropWhile_append_of_pos (List.all_eq_true.1 hdigits.2)]
      rcases hrest with rfl | ⟨m, rfl, -⟩
      · rfl
      · exact List.dropWhile_cons_of_neg (by decide)
    rw [List.cons_append, isDecimal_cons (Or.inr hhead), hdigits.1, hdrop, isFraction_iff.2 hrest]
    simpa using hhead
  obtain ⟨c, e⟩ := d
  obtain ⟨hexp, hfraction⟩ := h
  dsimp only at hexp hfraction
  unfold Dec.fixedText Dec.toRat
  dsimp only
  by_cases h0 : 0 ≤ e
  · obtain rfl : e = 0 := le_antisymm hexp h0
    rw [if_pos le_rfl, zpow_zero, mul_one, Int.toNat_zero, pow_zero, mul_one]
    rcases Nat.eq_zero_or_pos c with rfl | hc
    · exact iff_of_true rfl (Or.inl rfl)
    · have hone : (1 : ℚ) ≤ c := by exact_mod_cast hc
      have hdecimal := hnat c hc.ne' [] (Or.inl rfl)
      rw [List.append_nil] at hdecimal
      exact iff_of_true hdecimal (Or.inr hone)
  · obtain ⟨k, rfl⟩ : ∃ k : ℕ, e = -(k + 1 : ℕ) := ⟨(-e).toNat - 1, by omega⟩
    have hc : c ≠ 0 := by
      rintro rfl
      exact absurd (dvd_zero 10) (hfraction.resolve_left (by omega))
    have hpow : (0 : ℚ) < (10 : ℚ) ^ (k + 1) := by positivity
    have hrat : (1 : ℚ) ≤ c * (10 : ℚ) ^ (-(k + 1 : ℕ) : ℤ) ↔ 10 ^ (k + 1) ≤ c := by
      rw [zpow_neg, zpow_natCast, ← div_eq_mul_inv, one_le_div hpow]
      exact_mod_cast Iff.rfl
    rw [if_neg h0, neg_neg, Int.toNat_natCast, hrat, or_iff_right hc]
    have hpadded : (padded (k + 1) c) ≠ [] ∧ (padded (k + 1) c).all isDigit = true :=
      ⟨List.cons_ne_nil _ _, all_isDigit_padded _ _⟩
    by_cases hle : 10 ^ (k + 1) ≤ c
    · have hdiv : c / 10 ^ (k + 1) ≠ 0 := (Nat.div_pos hle (by positivity)).ne'
      exact iff_of_true (hnat _ hdiv _ (Or.inr ⟨_, rfl, hpadded⟩)) hle
    · have hdiv : c / 10 ^ (k + 1) = 0 := Nat.div_eq_of_lt (not_le.1 hle)
      rw [hdiv]
      refine iff_of_false ?_ hle
      have hzero : isDecimal ('0' :: '.' :: padded (k + 1) c) = false := by
        rw [isDecimal_cons (Or.inl (List.cons_ne_nil _ _))]
        rfl
      rw [show natText 0 = ['0'] from rfl, List.singleton_append, hzero]
      exact Bool.false_ne_true

variable [UnicodeData]

/-- An identity that the cache takes. -/
structure SafeIdentity (s : String) : Prop where
  safe : SafeText 64 false s
  ne : s ≠ ""
  trimmed : strip s = s

theorem SafeIdentity.canonical {s : String} (h : SafeIdentity s) (message : String) : canonicalIdentity s message = .ok s := by
  refine canonicalIdentity_eq_ok_iff.2 ⟨h.ne, h.trimmed, h.safe.normal.symm, h.safe.length, ?_⟩
  rw [List.any_eq_false]
  intro c hc hcontrol
  have hpoint := List.any_eq_false.1 h.safe.points (.ch c) (List.mem_map_of_mem hc)
  simp only [isUnsafePoint, isControl, Bool.not_false, Bool.true_or, Bool.and_true, Bool.or_eq_true, decide_eq_true_eq,
    beq_iff_eq] at hpoint hcontrol
  omega

/-- **A quantity that the cache takes**: zero, or at least one, of a safe unit. -/
structure CacheableQuantity (expected : Option QuotaMetricKind) (q : QuotaQuantity) : Prop where
  unit : SafeIdentity q.unit
  whole : q.value.coeff = 0 ∨ 1 ≤ q.value.toRat
  metric : ∀ e, expected = some e → q.metric = e

omit [UnicodeData] in
theorem renderedOf_recognizes : Recognizes renderedOf (fun l => .str (Text.ofChars l))
    fun l => isDecimal l = true ∧ l.length ≤ 256 := by
  intro x l
  dsimp only
  unfold renderedOf
  constructor
  · intro h
    split at h
    · split at h
      · cases h
      next l' hl =>
      split_ifs at h with hfine
      obtain rfl := Except.ok.inj h
      rw [not_or, not_not, not_lt] at hfine
      rw [Text.ofChars_of_toChars hl]
      exact ⟨rfl, hfine⟩
    · cases h
  · rintro ⟨rfl, hdecimal, hlength⟩
    dsimp only
    rw [Text.toChars_ofChars]
    exact if_neg (not_or.2 ⟨not_not.2 hdecimal, not_lt.2 hlength⟩)

theorem parsedOf_fixedText {q : QuotaQuantity} (h : SafeIdentity q.unit) :
    parsedOf q.value.fixedText q.metric q.unit = .ok q := by
  have hlimits : IsWithinLimits q.value := q.value_canonical.isWithinLimits
  have hmake := @QuotaQuantity.make_eq_ok _ _ q.metric _ _ _ (canonicalDecimal_of_isWithinLimits hlimits)
    (h.canonical "invalid quota unit")
  unfold parsedOf
  rw [ofText_fixedText hlimits.isNormal.1 hlimits.isRepresentable]
  dsimp only
  rw [hmake]

theorem parsedOf_eq_ok {rendered : List Char} {metric : QuotaMetricKind} {unit : String} {q : QuotaQuantity}
    (h : parsedOf rendered metric unit = .ok q) : q.metric = metric ∧
      canonicalIdentity unit "invalid quota unit" = .ok q.unit := by
  unfold parsedOf at h
  split at h
  · cases h
  split at h
  · cases h
  next parsed hmake =>
  obtain rfl := Except.ok.inj h
  unfold QuotaQuantity.make at hmake
  split at hmake
  · next v u hv hu =>
    obtain rfl := Except.ok.inj hmake
    exact ⟨rfl, hu⟩
  · cases hmake
  · cases hmake

omit [UnicodeData] in
theorem metric_recognizes {message : String} : Recognizes (memberOf message QuotaMetricKind.all QuotaMetricKind.value)
    (fun m => .str (Text.ofString m.value)) (· ∈ QuotaMetricKind.all) :=
  memberOf_recognizes fun m _ => ofValue_metric m

omit [UnicodeData] in
theorem ofString_ofList (l : List Char) : Text.ofString (String.ofList l) = Text.ofChars l := by
  rw [Text.ofString, String.toList_ofList]

/-- What is written of a quantity. -/
theorem spell_quantityItem (q : QuotaQuantity) : (quantityItem q).json.spell =
    .obj [(Text.ofString "value", .str (Text.ofChars q.value.fixedText)),
      (Text.ofString "metric", .str (Text.ofString q.metric.value)), (Text.ofString "unit", .str (Text.ofString q.unit))] := by
  rw [← ofString_ofList]
  rfl

/-- `_quantity` takes the cacheable quantities. -/
theorem quantity_recognizes (expected : Option QuotaMetricKind) :
    Recognizes (quantity expected) (fun q => (quantityItem q).json.spell) (CacheableQuantity expected) := by
  have hsafe := safe_keys quantityFields (by decide)
  intro x q
  constructor
  · intro h
    obtain ⟨item, hitem, h⟩ := bind_eq_ok_iff.1 h
    obtain ⟨unit, hunit, h⟩ := bind_eq_ok_iff.1 h
    obtain ⟨rendered, hrendered, h⟩ := bind_eq_ok_iff.1 h
    obtain ⟨metric, hmetric, h⟩ := bind_eq_ok_iff.1 h
    obtain ⟨parsed, hparsed, h⟩ := bind_eq_ok_iff.1 h
    split_ifs at h with hsame hexpected
    obtain rfl := Except.ok.inj h
    rw [not_or, not_not, not_not] at hsame
    obtain ⟨rfl, rfl⟩ := hsame
    obtain ⟨rfl, hkeys⟩ := (safeMapping_eq_ok_iff hsafe).1 hitem
    obtain ⟨hunit, hunitSafe⟩ := (safeText_recognizes _ _).1 hunit
    obtain ⟨hrendered, hdecimal, -⟩ := (renderedOf_recognizes _ _).1 hrendered
    obtain ⟨hmetric, -⟩ := (metric_recognizes _ _).1 hmetric
    obtain ⟨rfl, hidentity⟩ := parsedOf_eq_ok hparsed
    obtain ⟨hne, htrimmed, -⟩ := canonicalIdentity_eq_ok_iff.1 hidentity
    constructor
    · rw [Json.fields_eq (by decide) hkeys]
      simp only [quantityFields, List.map_cons, List.map_nil, hunit, hrendered, hmetric]
      exact (spell_quantityItem parsed).symm
    · refine ⟨⟨hunitSafe, hne, htrimmed⟩, ?_, ?_⟩
      · exact (isDecimal_fixedText parsed.value_canonical.isWithinLimits.isNormal).1 hdecimal
      · rintro e rfl
        by_contra hother
        exact hexpected (decide_eq_true hother)
  · rintro ⟨rfl, hunit, hwhole, hmetric⟩
    have hdecimal := (isDecimal_fixedText q.value_canonical.isWithinLimits.isNormal).2 hwhole
    dsimp only
    rw [spell_quantityItem, quantity]
    refine bind_eq_ok_iff.2 ⟨_, (safeMapping_eq_ok_iff hsafe).2 ⟨rfl, rfl⟩, ?_⟩
    refine bind_eq_ok_iff.2 ⟨q.unit, (safeText_recognizes _ _).2 ⟨rfl, hunit.safe⟩, ?_⟩
    refine bind_eq_ok_iff.2 ⟨q.value.fixedText, (renderedOf_recognizes _ _).2
      ⟨rfl, hdecimal, q.value_canonical.isWithinLimits.length⟩, ?_⟩
    refine bind_eq_ok_iff.2 ⟨q.metric, (metric_recognizes _ _).2 ⟨rfl, ?_⟩, ?_⟩
    · cases q.metric <;> decide
    refine bind_eq_ok_iff.2 ⟨q, parsedOf_fixedText hunit, ?_⟩
    have hexpected : ¬(expected.any fun e => decide (q.metric ≠ e)) = true := by
      rcases expected with _ | e
      · exact Bool.false_ne_true
      · simpa using hmetric e rfl
    rw [if_neg (not_or.2 ⟨not_not.2 rfl, not_not.2 rfl⟩), if_neg hexpected]
    rfl

end Quantities

/-! ### Windows -/

section Windows

variable [UnicodeData] {provider : ProviderKey}

/-- **A window that the cache takes**: of safe texts, and with no data but of the source of the
provider. -/
structure CacheableWindow (provider : ProviderKey) (w : QuotaWindowView) : Prop where
  scope : SafeIdentity w.scope
  period : SafeIdentity w.period
  planId : ∀ p, w.planId = some p → SafeIdentity p
  source : ∀ s, w.sourceId = some s → s = provider.expectedSource
  bare : w.sourceId = none → w.availability = .unavailable
  limit : ∀ q, w.limit = some q → CacheableQuantity w.kind.expectedMetric q
  used : ∀ q, w.used = some q → CacheableQuantity w.kind.expectedMetric q
  remaining : ∀ q, w.remaining = some q → CacheableQuantity w.kind.expectedMetric q

omit [UnicodeData] in
theorem str_ne_null (s : String) : Json.str (Text.ofString s) ≠ .null := nofun

omit [UnicodeData] in
/-- A source is none, or the one of the provider. -/
theorem sourceOf_recognizes (message : String) (provider : ProviderKey) :
    Recognizes (sourceOf message provider) (Json.orNull fun s => .str (Text.ofString s))
      fun source => ∀ s, source = some s → s = provider.expectedSource := by
  have htext : Recognizes (optionally requiredText) (Json.orNull .str) fun _ => ∀ _, _ → True :=
    requiredText_recognizes.optionally nofun
  intro x source
  constructor
  · intro hok
    obtain ⟨t, ht, h⟩ := bind_eq_ok_iff.1 hok
    obtain ⟨rfl, -⟩ := (htext x t).1 ht
    rcases t with _ | t
    · obtain rfl := Except.ok.inj h
      exact ⟨rfl, nofun⟩
    · unfold expectSource at h
      dsimp only at h
      split_ifs at h with hsource
      obtain rfl := Except.ok.inj h
      subst hsource
      refine ⟨rfl, ?_⟩
      rintro _ ⟨⟩
      rfl
  · rintro ⟨rfl, hsource⟩
    rcases source with _ | s
    · rfl
    · obtain rfl := hsource s rfl
      refine bind_eq_ok_iff.2 ⟨_, (htext _ (some (Text.ofString provider.expectedSource))).2 ⟨rfl, fun _ _ => trivial⟩, ?_⟩
      exact if_pos rfl

omit [UnicodeData] in
/-- A window without a source is not available. -/
theorem bare_of_checkAvailability {availability : QuotaAvailability} {source : Option String} {valued hasReset : Bool}
    (h : checkAvailability availability source valued hasReset = .ok ()) (hsource : source = none) :
    availability = .unavailable := by
  unfold checkAvailability at h
  split_ifs at h with _ _ _ hbare
  by_contra hne
  exact hbare ⟨hsource, Or.inl hne⟩

/-- A window that the model admits passes the check if its data has a source. -/
theorem checkAvailability_window {w : QuotaWindowView} (h : w.sourceId = none → w.availability = .unavailable) :
    checkAvailability w.availability w.sourceId (w.limit.isSome || w.used.isSome || w.remaining.isSome) w.resetAt.isSome
      = .ok () := by
  by_cases hknown : w.availability = .known
  · have hvalued : (w.limit.isSome || w.used.isSome || w.remaining.isSome) = true := by
      have hok := w.values_ok
      unfold checkValues at hok
      simp only [if_pos hknown] at hok
      split_ifs at hok with hempty
      by_contra hnone
      simp only [Bool.not_eq_true, Bool.or_eq_false_iff, Option.isSome_eq_false_iff, Option.isNone_iff_eq_none] at hnone
      rw [hnone.1.1, hnone.1.2, hnone.2] at hempty
      exact hempty rfl
    have hsource : w.sourceId ≠ none := by
      intro hnone
      rw [h hnone] at hknown
      cases hknown
    unfold checkAvailability
    rw [if_neg fun hbad => hbad.1 hknown, if_neg fun hbad => hbad.1 hknown, if_neg fun hbad => hbad.2 hvalued,
      if_neg fun hbad => hsource hbad.1]
  · obtain ⟨hlimit, hused, hremaining, hreset⟩ := w.values_eq_none hknown
    rw [hlimit, hused, hremaining, hreset]
    unfold checkAvailability
    rw [if_neg fun hbad => Bool.false_ne_true hbad.2, if_neg fun hbad => Bool.false_ne_true hbad.2,
      if_neg fun hbad => hknown hbad.1]
    refine if_neg ?_
    rintro ⟨hnone, hne | hfalse | hfalse⟩
    · exact hne (h hnone)
    · cases hfalse
    · cases hfalse

/-- The constructor is called within a `try`. -/
theorem makeWindow_eq_ok {kind : QuotaWindowKind} {scope period : String} {planId source : Option String}
    {availability : QuotaAvailability} {limit used remaining : Option QuotaQuantity} {resetAt : Option Instant}
    {w : QuotaWindowView} : makeWindow kind scope period planId availability source limit used remaining resetAt = .ok w ↔
      QuotaWindowView.make kind scope period planId availability source limit used remaining resetAt = .ok w := by
  unfold makeWindow
  split
  · next h => exact iff_of_false nofun fun hok => nomatch h.symm.trans hok
  · next h =>
    rw [h]

omit [UnicodeData] in
/-- A safe identity is not changed by the constructor. -/
theorem optionalIdentity_safe [UnicodeData] {planId : Option String} (h : ∀ p, planId = some p → SafeIdentity p)
    (message : String) : optionalIdentity planId message = .ok planId := by
  rcases planId with _ | p
  · rfl
  · rw [optionalIdentity, (h p rfl).canonical]
    rfl

/-- What is written of a window. -/
theorem spell_windowItem (w : QuotaWindowView) : (windowItem w).json.spell =
    .obj [(Text.ofString "kind", .str (Text.ofString w.kind.value)), (Text.ofString "scope", .str (Text.ofString w.scope)),
      (Text.ofString "period", .str (Text.ofString w.period)),
      (Text.ofString "plan_id", Json.orNull (fun s => .str (Text.ofString s)) w.planId),
      (Text.ofString "availability", .str (Text.ofString w.availability.value)),
      (Text.ofString "source_id", Json.orNull (fun s => .str (Text.ofString s)) w.sourceId),
      (Text.ofString "limit", Json.orNull (fun q => (quantityItem q).json.spell) w.limit),
      (Text.ofString "used", Json.orNull (fun q => (quantityItem q).json.spell) w.used),
      (Text.ofString "remaining", Json.orNull (fun q => (quantityItem q).json.spell) w.remaining),
      (Text.ofString "reset_at", Json.orNull (fun t => .str (Text.ofString t.text)) w.resetAt)] := by
  have hmap : ∀ o : Option QuotaQuantity, (Json.orNull QuantityItem.json (o.map quantityItem)).spell =
      Json.orNull (fun q => (quantityItem q).json.spell) o := by
    intro o
    rcases o with _ | q
    · rfl
    · rfl
  rw [WindowItem.json]
  simp only [Json.spell, Json.spellFields, Json.spell_orNull, ← hmap]
  rfl

omit [UnicodeData] in
theorem kind_recognizes {message : String} : Recognizes (memberOf message QuotaWindowKind.all QuotaWindowKind.value)
    (fun k => .str (Text.ofString k.value)) (· ∈ QuotaWindowKind.all) :=
  memberOf_recognizes fun k _ => ofValue_windowKind k

omit [UnicodeData] in
theorem availability_recognizes {message : String} :
    Recognizes (memberOf message QuotaAvailability.all QuotaAvailability.value)
      (fun a => .str (Text.ofString a.value)) (· ∈ QuotaAvailability.all) :=
  memberOf_recognizes fun a _ => ofValue_availability a

/-- **`_window` takes the cacheable windows.** -/
theorem window_recognizes (provider : ProviderKey) :
    Recognizes (window provider) (fun w => (windowItem w).json.spell) (CacheableWindow provider) := by
  have hsafe := safe_keys windowFields (by decide)
  have hplan : Recognizes (optionally (safeText 64 false)) (Json.orNull fun s => .str (Text.ofString s))
      fun o => ∀ s, o = some s → SafeText 64 false s := safeText_recognizes.optionally str_ne_null
  have hquantity : ∀ expected, Recognizes (optionally (quantity expected))
      (Json.orNull fun q => (quantityItem q).json.spell) fun o => ∀ q, o = some q → CacheableQuantity expected q :=
    fun expected => (quantity_recognizes expected).optionally nofun
  have hreset : Recognizes (optionally timestamp) (Json.orNull fun t => .str (Text.ofString t.text))
      fun o => ∀ t, o = some t → True := timestamp_recognizes.optionally nofun
  intro x w
  dsimp only
  constructor
  · intro hok
    obtain ⟨item, hitem, h⟩ := bind_eq_ok_iff.1 hok
    obtain ⟨kind, hkind, h⟩ := bind_eq_ok_iff.1 h
    obtain ⟨availability, havailability, h⟩ := bind_eq_ok_iff.1 h
    obtain ⟨scope, hscope, h⟩ := bind_eq_ok_iff.1 h
    obtain ⟨period, hperiod, h⟩ := bind_eq_ok_iff.1 h
    obtain ⟨planId, hplanId, h⟩ := bind_eq_ok_iff.1 h
    obtain ⟨source, hsource, h⟩ := bind_eq_ok_iff.1 h
    obtain ⟨limit, hlimit, h⟩ := bind_eq_ok_iff.1 h
    obtain ⟨used, hused, h⟩ := bind_eq_ok_iff.1 h
    obtain ⟨remaining, hremaining, h⟩ := bind_eq_ok_iff.1 h
    obtain ⟨resetAt, hresetAt, h⟩ := bind_eq_ok_iff.1 h
    obtain ⟨⟨⟩, hcheck, h⟩ := bind_eq_ok_iff.1 h
    obtain ⟨rfl, hkeys⟩ := (safeMapping_eq_ok_iff hsafe).1 hitem
    obtain ⟨⟨rfl, hscope', hperiod', hplanId'⟩, ⟨rfl, rfl, -⟩, rfl, rfl, rfl, rfl⟩ :=
      QuotaWindowView.make_eq_ok_iff.1 (makeWindow_eq_ok.1 h)
    obtain ⟨hkind, -⟩ := (kind_recognizes _ _).1 hkind
    obtain ⟨havailability, -⟩ := (availability_recognizes _ _).1 havailability
    obtain ⟨hscope, hscopeSafe⟩ := (safeText_recognizes _ _).1 hscope
    obtain ⟨hperiod, hperiodSafe⟩ := (safeText_recognizes _ _).1 hperiod
    obtain ⟨hplanId, hplanSafe⟩ := (hplan _ _).1 hplanId
    obtain ⟨hsource, hexpected⟩ := (sourceOf_recognizes _ _ _ _).1 hsource
    obtain ⟨hlimit, hlimitSafe⟩ := (hquantity _ _ _).1 hlimit
    obtain ⟨hused, husedSafe⟩ := (hquantity _ _ _).1 hused
    obtain ⟨hremaining, hremainingSafe⟩ := (hquantity _ _ _).1 hremaining
    obtain ⟨hresetAt, -⟩ := (hreset _ _).1 hresetAt
    -- a text that is normal is not changed by the constructor
    have hsame : ∀ {s s' message : String}, SafeText 64 false s → canonicalIdentity s message = .ok s' →
        s' = s ∧ SafeIdentity s := by
      intro s s' message hs hcanonical
      obtain ⟨hne, htrimmed, rfl, -⟩ := canonicalIdentity_eq_ok_iff.1 hcanonical
      exact ⟨hs.normal, hs, hne, htrimmed⟩
    obtain ⟨hscopeSame, hscopeIdentity⟩ := hsame hscopeSafe hscope'
    obtain ⟨hperiodSame, hperiodIdentity⟩ := hsame hperiodSafe hperiod'
    subst hscopeSame hperiodSame
    have hplanIdentity : planId = w.planId ∧ ∀ p, w.planId = some p → SafeIdentity p := by
      rcases planId with _ | p
      · have hnone := Except.ok.inj hplanId'
        exact ⟨hnone, fun p hp => nomatch hnone.trans hp⟩
      · obtain ⟨p', hp', hsome⟩ := map_eq_ok_iff.1 (hplanId' : some <$> canonicalIdentity p _ = _)
        obtain ⟨rfl, hidentity⟩ := hsame (hplanSafe p rfl) hp'
        rw [← hsome]
        refine ⟨rfl, ?_⟩
        rintro _ ⟨⟩
        exact hidentity
    obtain ⟨rfl, hplanIdentity⟩ := hplanIdentity
    refine ⟨?_, hscopeIdentity, hperiodIdentity, hplanIdentity, hexpected, bare_of_checkAvailability hcheck, hlimitSafe,
      husedSafe, hremainingSafe⟩
    rw [Json.fields_eq (by decide) hkeys, spell_windowItem]
    simp only [windowFields, List.map_cons, List.map_nil, hkind, hscope, hperiod, hplanId, havailability, hsource, hlimit,
      hused, hremaining, hresetAt]
  · rintro ⟨rfl, hw⟩
    rw [spell_windowItem, window]
    refine bind_eq_ok_iff.2 ⟨_, (safeMapping_eq_ok_iff hsafe).2 ⟨rfl, rfl⟩, ?_⟩
    refine bind_eq_ok_iff.2 ⟨w.kind, (kind_recognizes _ _).2 ⟨rfl, by cases w.kind <;> decide⟩, ?_⟩
    refine bind_eq_ok_iff.2 ⟨w.availability, (availability_recognizes _ _).2 ⟨rfl, by cases w.availability <;> decide⟩, ?_⟩
    refine bind_eq_ok_iff.2 ⟨w.scope, (safeText_recognizes _ _).2 ⟨rfl, hw.scope.safe⟩, ?_⟩
    refine bind_eq_ok_iff.2 ⟨w.period, (safeText_recognizes _ _).2 ⟨rfl, hw.period.safe⟩, ?_⟩
    refine bind_eq_ok_iff.2 ⟨w.planId, (hplan _ _).2 ⟨rfl, fun p hp => (hw.planId p hp).safe⟩, ?_⟩
    refine bind_eq_ok_iff.2 ⟨w.sourceId, (sourceOf_recognizes _ _ _ _).2 ⟨rfl, hw.source⟩, ?_⟩
    refine bind_eq_ok_iff.2 ⟨w.limit, (hquantity _ _ _).2 ⟨rfl, hw.limit⟩, ?_⟩
    refine bind_eq_ok_iff.2 ⟨w.used, (hquantity _ _ _).2 ⟨rfl, hw.used⟩, ?_⟩
    refine bind_eq_ok_iff.2 ⟨w.remaining, (hquantity _ _ _).2 ⟨rfl, hw.remaining⟩, ?_⟩
    refine bind_eq_ok_iff.2 ⟨w.resetAt, (hreset _ _).2 ⟨rfl, fun _ _ => trivial⟩, ?_⟩
    refine bind_eq_ok_iff.2 ⟨(), checkAvailability_window hw.bare, ?_⟩
    refine makeWindow_eq_ok.2 (QuotaWindowView.make_eq_ok_iff.2 ⟨⟨rfl, hw.scope.canonical _, hw.period.canonical _,
      optionalIdentity_safe hw.planId _⟩, ⟨rfl, rfl, checkSourceId_of_mem w.sourceId_safe⟩, rfl, rfl, rfl, rfl⟩)

end Windows

end Cache

end YasbLimitora

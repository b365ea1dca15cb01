import Mathlib
import YasbLimitora.Lib.DecimalRounding
import YasbLimitora.Projection.OpenCode
import YasbLimitora.Projection.QuantityText

/-!
# The window with the least left

A percentage is the ratio of what remains to the limit, rounded, and its text is read as
the value it was written from: so it is in its range and follows the order of the ratios
(`YasbLimitora.percentage_mono`). The window shown as most depleted has the smallest
percentage, and of several the first in the order of windows. That order does not depend on
the order of the snapshot (`YasbLimitora.snapshotFacts_perm`), and so nothing does that is
shown.

The chain from the snapshot to the text has four steps, each with its own lemma: a quantity is
written with its value, the ratio of two values is taken and rounded, the rounded ratio is written
and read again, and the least is selected by a key that no two windows of a snapshot share. The last
point is why the selection is the same for a snapshot in another order: windows have different
identities, and these are a part of the key.

Both providers go through the same proof, although one shows its windows as they are and the other
in slots: a way to project windows is described by what it makes of a permuted list
(`YasbLimitora.WindowsProjection`).
-/

namespace YasbLimitora

open DecimalText

/-! ### The value of a rendered decimal -/

/-- What is stripped from the right is a run of the one character. -/
theorem rstrip_eq_append (c : Char) (l : List Char) :
    ∃ j, l = rstrip c l ++ List.replicate j c := by
  refine ⟨(l.reverse.takeWhile (· == c)).length, ?_⟩
  have hsplit := List.takeWhile_append_dropWhile (p := (· == c)) (l := l.reverse)
  have hzeros : l.reverse.takeWhile (· == c) =
      List.replicate (l.reverse.takeWhile (· == c)).length c :=
    List.eq_replicate_of_mem fun a ha =>
      beq_iff_eq.1 (List.mem_takeWhile_imp (p := (· == c)) ha)
  rw [rstrip]
  conv_lhs => rw [← List.reverse_reverse l, ← hsplit, hzeros]
  rw [List.reverse_append, List.reverse_replicate]

/-- What is taken off the end of a text is taken off what follows another character. -/
theorem rstrip_append_cons {c d : Char} (h : d ≠ c) (w p : List Char) :
    rstrip c (w ++ d :: p) = w ++ d :: rstrip c p := by
  have hd : (d == c) = false := by simpa using h
  have hdrop : (p.reverse ++ d :: w.reverse).dropWhile (· == c) =
      p.reverse.dropWhile (· == c) ++ d :: w.reverse := by
    rw [List.dropWhile_append]
    split
    · next hall =>
      rw [List.isEmpty_iff.1 hall, List.nil_append, List.dropWhile_cons_of_neg (by simp [hd])]
    · rfl
  rw [rstrip, rstrip, List.reverse_append, List.reverse_cons, List.append_assoc,
    List.singleton_append, hdrop, List.reverse_append, List.reverse_cons, List.reverse_reverse]
  simp

/-- Text that ends with a digit ends with no point. -/
theorem rstrip_point {w : List Char} (hw : w.all isDigit = true) : rstrip '.' w = w := by
  rcases List.eq_nil_or_concat w with rfl | ⟨m, d, rfl⟩
  · rfl
  · rw [List.concat_eq_append] at hw ⊢
    have hd : isDigit d = true := List.all_eq_true.1 hw d (by simp)
    refine rstrip_append (fun he => ?_) m
    subst he
    exact absurd hd (by decide)

/-- Zeros at the end are powers of ten. -/
theorem readNat_replicate_zero (l : List Char) (j : ℕ) :
    readNat (l ++ List.replicate j '0') = readNat l * 10 ^ j := by
  have hzeros : readNat (List.replicate j '0') = 0 := by
    induction j with
    | zero => rfl
    | succ j ih =>
      have hdigit : digitVal '0' = 0 := rfl
      rw [List.replicate_succ', readNat_concat, ih, hdigit]
  rw [readNat_append, List.length_replicate, hzeros, add_zero]

/-- The zeros and the point that are taken off a fraction do not count. -/
theorem toRat_ofFixed_trimFixed {w p : List Char} (hw : w.all isDigit = true)
    (hp : p.all isDigit = true) :
    (Dec.ofFixed (trimFixed (w ++ '.' :: p))).toRat =
      Dec.toRat ⟨readNat (w ++ p), -(p.length : ℤ)⟩ := by
  obtain ⟨j, hj⟩ := rstrip_eq_append '0' p
  obtain ⟨p', hp'⟩ : ∃ p', rstrip '0' p = p' := ⟨_, rfl⟩
  rw [hp'] at hj
  have hdigits : p'.all isDigit = true := by
    rw [hj, List.all_append, Bool.and_eq_true] at hp
    exact hp.1
  have hvalue : Dec.toRat ⟨readNat (w ++ p'), -(p'.length : ℤ)⟩ =
      Dec.toRat ⟨readNat (w ++ p), -(p.length : ℤ)⟩ := by
    have hshift := Dec.toRat_shift (readNat (w ++ p')) j (-(p.length : ℤ))
    have hlength : -(p.length : ℤ) + j = -(p'.length : ℤ) := by
      rw [hj, List.length_append, List.length_replicate]
      push_cast
      ring
    rw [hlength] at hshift
    rw [hshift, ← readNat_replicate_zero, List.append_assoc, ← hj]
    rfl
  have hpoint : '.' ∈ w ++ '.' :: p := by simp
  rw [trimFixed, if_pos hpoint, rstrip_append_cons (by decide), hp', ← hvalue]
  rcases List.eq_nil_or_concat p' with rfl | ⟨m, d, rfl⟩
  · have hpoints : rstrip '.' (w ++ ['.']) = rstrip '.' w := by
      simp [rstrip]
    rw [hpoints, rstrip_point hw, Dec.ofFixed_of_digits hw, List.append_nil]
    rfl
  · rw [List.concat_eq_append] at hdigits ⊢
    have hd : d ≠ '.' := fun he => by
      subst he
      exact absurd (List.all_eq_true.1 hdigits '.' (by simp)) (by decide)
    have hkeep : rstrip '.' (w ++ '.' :: (m ++ [d])) = w ++ '.' :: (m ++ [d]) := by
      have hassoc : w ++ '.' :: (m ++ [d]) = (w ++ '.' :: m) ++ [d] := by simp
      rw [hassoc, rstrip_append hd]
    rw [hkeep, Dec.ofFixed_of_point hw]

/-- **A rendered decimal** is read as its value. -/
theorem toRat_ofFixed_renderDecimal (d : Dec) :
    (Dec.ofFixed (renderDecimal d)).toRat = d.toRat := by
  have hvalue : (Dec.ofFixed (trimFixed d.fixedText)).toRat = d.toRat := by
    by_cases hexp : 0 ≤ d.exp
    · have hpoint : '.' ∉ natText (d.coeff * 10 ^ d.exp.toNat) := fun h =>
        absurd (List.all_eq_true.1 (all_isDigit_natText _) _ h) (by decide)
      rw [Dec.fixedText, if_pos hexp, trimFixed, if_neg hpoint,
        Dec.ofFixed_of_digits (all_isDigit_natText _), readNat_natText, Dec.toRat_whole _ hexp]
    · have hback : Dec.ofFixed d.fixedText = d := Dec.ofFixed_fixedText (not_le.1 hexp).le
      rw [Dec.fixedText, if_neg hexp] at hback ⊢
      rw [toRat_ofFixed_trimFixed (all_isDigit_natText _) (all_isDigit_padded _ _)]
      rw [Dec.ofFixed_of_point (all_isDigit_natText _)] at hback
      rw [hback]
  unfold renderDecimal
  dsimp only
  split
  · next hnil =>
    rw [hnil] at hvalue
    exact hvalue
  · exact hvalue

/-! ### Percentages -/

/-- The number a text stands for. -/
def textValue (text : String) : ℚ := (Dec.ofFixed text.toList).toRat

/-- The exact ratio of what remains to the limit. -/
def WindowItem.ratio (w : WindowItem) : ℚ :=
  match w.limit, w.remaining with
  | some limit, some remaining => textValue remaining.value / textValue limit.value
  | _, _ => 0

/-- The percentage of a ratio, rounded twice: the quotient and the product. -/
def roundedPercentage (ratio : ℚ) : ℚ :=
  Dec.rounded percentagePrecision (Dec.rounded percentagePrecision ratio * 100)

/-- **The rounding is monotone**: where less is left, no greater percentage is shown. -/
theorem roundedPercentage_mono {x y : ℚ} (hx : 0 ≤ x) (h : x ≤ y) :
    roundedPercentage x ≤ roundedPercentage y := by
  have hprec : 0 < percentagePrecision := by decide
  have hround := Dec.rounded_mono hprec hx h
  have hnonneg : 0 ≤ Dec.rounded percentagePrecision x := by
    have h0 := Dec.rounded_mono hprec le_rfl hx
    rwa [Dec.rounded_zero] at h0
  exact Dec.rounded_mono hprec (by positivity) (mul_le_mul_of_nonneg_right hround (by norm_num))

theorem roundedPercentage_zero : roundedPercentage 0 = 0 := by
  rw [roundedPercentage, Dec.rounded_zero, zero_mul, Dec.rounded_zero]

theorem roundedPercentage_one : roundedPercentage 1 = 100 := by
  have hlog : Int.log 10 (1 : ℚ) = 0 := Int.log_one_right 10
  have hone : Dec.rounded percentagePrecision 1 = 1 := by
    refine Dec.rounded_of_int (n := 10 ^ 33) ?_
    rw [Dec.lastExp, hlog, percentagePrecision]
    norm_num
  have hhundred : (100 : ℚ) = 1 * (10 : ℚ) ^ (2 : ℤ) := by norm_num
  rw [roundedPercentage, hone, one_mul, hhundred, Dec.rounded_mul_zpow _ one_pos, hone]

/-- **A percentage** is that of a ratio from zero to one. -/
theorem percentage_eq_some {w : WindowItem} {text : String} (h : percentage w = some text) :
    0 ≤ w.ratio ∧ w.ratio ≤ 1 ∧ textValue text = roundedPercentage w.ratio := by
  unfold percentage at h
  split at h
  · exact nomatch h
  split at h
  · next limit remaining hlimit hremaining =>
    split at h
    · exact nomatch h
    dsimp only at h
    split at h
    · exact nomatch h
    next hvalid =>
    split at h
    · exact nomatch h
    split at h
    · exact nomatch h
    obtain rfl := Option.some.inj h
    rw [not_or, not_not, Dec.le_iff] at hvalid
    have hpos : 0 < textValue limit.value := Dec.toRat_pos hvalid.1
    have hnonneg : 0 ≤ textValue remaining.value :=
      mul_nonneg (Nat.cast_nonneg _) (Dec.pow_ten_pos _).le
    have hratio : w.ratio = textValue remaining.value / textValue limit.value := by
      rw [WindowItem.ratio, hlimit, hremaining]
    refine ⟨hratio ▸ div_nonneg hnonneg hpos.le, hratio ▸ (div_le_one hpos).2 hvalid.2, ?_⟩
    have hdiv := @Dec.toRat_div percentagePrecision (by decide)
      (Dec.ofFixed remaining.value.toList) _ hvalid.1
    have hproduct : ∀ d : Dec, Dec.toRat ⟨d.coeff * 100, d.exp + 0⟩ = d.toRat * 100 := by
      intro d
      rw [Dec.toRat, Dec.toRat, add_zero]
      push_cast
      ring
    rw [textValue, String.toList_ofList, toRat_ofFixed_renderDecimal, Dec.mul,
      Dec.toRat_roundHalfEven, hproduct, hdiv, hratio]
    rfl
  · exact nomatch h

/-- The percentages of a provider: in their range, and in the order of the ratios. -/
theorem percentage_mono {w v : WindowItem} {text text' : String} (hw : percentage w = some text)
    (hv : percentage v = some text') (h : w.ratio ≤ v.ratio) : textValue text ≤ textValue text' := by
  obtain ⟨hnonneg, -, htext⟩ := percentage_eq_some hw
  obtain ⟨-, -, htext'⟩ := percentage_eq_some hv
  rw [htext, htext']
  exact roundedPercentage_mono hnonneg h

/-- A percentage is between 0 and 100. -/
theorem percentage_range {w : WindowItem} {text : String} (h : percentage w = some text) :
    0 ≤ textValue text ∧ textValue text ≤ 100 := by
  obtain ⟨hnonneg, hle, htext⟩ := percentage_eq_some h
  rw [htext, ← roundedPercentage_one]
  refine ⟨?_, roundedPercentage_mono hnonneg hle⟩
  have h0 := roundedPercentage_mono le_rfl hnonneg
  rwa [roundedPercentage_zero] at h0

/-! ### The selection -/

/-- What decides between the windows that have a percentage. -/
def selectionKey (w : WindowItem) (text : String) : ℚ ×ₗ WindowSortKey :=
  toLex (textValue text, windowSortKey w)

/-- The window that comes first by percentage, and then in the order of windows. -/
structure IsMostDepleted (windows : List WindowItem) (w : WindowItem) (text : String) : Prop where
  mem : w ∈ windows
  percentage_eq : percentage w = some text
  least : ∀ v ∈ windows, ∀ text', percentage v = some text' →
    selectionKey w text ≤ selectionKey v text'

/-- A window is eligible if it has a percentage. -/
theorem mem_eligible {windows : List WindowItem} {c : WindowItem × String} :
    c ∈ windows.filterMap (fun w => (percentage w).map (w, ·)) ↔
      c.1 ∈ windows ∧ percentage c.1 = some c.2 := by
  rw [List.mem_filterMap]
  constructor
  · rintro ⟨w, hw, h⟩
    obtain ⟨text, htext, rfl⟩ := Option.map_eq_some_iff.1 h
    exact ⟨hw, htext⟩
  · rintro ⟨hw, h⟩
    exact ⟨c.1, hw, by rw [h, Option.map_some]⟩

theorem mostDepleted_eq (windows : List WindowItem) :
    mostDepleted windows = (windows.filterMap fun w => (percentage w).map (w, ·)).argmin
      fun c => selectionKey c.1 c.2 := rfl

/-- What is selected has the least percentage of all. -/
theorem mostDepleted_eq_some {windows : List WindowItem} {c : WindowItem × String}
    (h : mostDepleted windows = some c) : IsMostDepleted windows c.1 c.2 := by
  rw [mostDepleted_eq] at h
  have hmem := mem_eligible.1 (List.argmin_mem h)
  refine ⟨hmem.1, hmem.2, fun v hv text' htext' => ?_⟩
  have hv' := (mem_eligible (c := (v, text'))).2 ⟨hv, htext'⟩
  exact List.le_of_mem_argmin hv' h

/-- Nothing is selected exactly if no window has a percentage. -/
theorem mostDepleted_eq_none_iff {windows : List WindowItem} :
    mostDepleted windows = none ↔ ∀ w ∈ windows, percentage w = none := by
  rw [mostDepleted_eq, List.argmin_eq_none, List.filterMap_eq_nil_iff]
  simp only [Option.map_eq_none_iff]

/-- The selection does not depend on the order of the windows. -/
theorem isMostDepleted_congr {l l' : List WindowItem} (hl : l'.Perm l) {w : WindowItem}
    {text : String} (h : IsMostDepleted l w text) : IsMostDepleted l' w text where
  mem := hl.mem_iff.2 h.mem
  percentage_eq := h.percentage_eq
  least := fun v hv => h.least v (hl.mem_iff.1 hv)

/-- What a presentation says of the most depleted window. -/
def ShowsMostDepleted (windows : List WindowItem) (shown : Presentation) : Prop :=
  (∃ w text, IsMostDepleted windows w text ∧
      shown.mostDepletedWindow = some (.ofWindow w text) ∧ shown.compactText = text ++ "%") ∨
    (∀ w ∈ windows, percentage w = none) ∧ shown.mostDepletedWindow = none ∧
      shown.compactText = "—"

variable [UnicodeData]

/-- What is shown of a snapshot is its most depleted window. -/
theorem snapshotPresentation_shows {formatter : TimestampFormatter} {p : ProviderFacts}
    {publicState : PublicProviderState} {freshness : SnapshotFreshness} {limit : ℕ}
    {shown : Presentation}
    (h : snapshotPresentation formatter p publicState freshness limit = .ok shown) :
    ShowsMostDepleted p.windows shown := by
  have hperm : p.windows.Perm (sortWindows p.windows) := (List.mergeSort_perm _ _).symm
  obtain ⟨credits, -, h⟩ := bind_eq_ok_iff.1 h
  obtain rfl := Except.ok.inj h
  rcases hdepleted : mostDepleted (sortWindows p.windows) with _ | ⟨w, text⟩
  · refine Or.inr ⟨fun w hw => ?_, rfl, rfl⟩
    exact mostDepleted_eq_none_iff.1 hdepleted w (hperm.mem_iff.1 hw)
  · exact Or.inl ⟨w, text, isMostDepleted_congr hperm (mostDepleted_eq_some hdepleted), rfl, rfl⟩

/-! ### Windows of the snapshot -/

/-- The exact ratio of what remains to the limit. -/
def QuotaWindowView.ratio (w : QuotaWindowView) : ℚ :=
  match w.limit, w.remaining with
  | some limit, some remaining => remaining.value.toRat / limit.value.toRat
  | _, _ => 0

omit [UnicodeData] in
theorem exists_of_mapM {α β : Type} {f : α → Except ProjectionError β} {l : List α} {r : List β}
    (h : List.Forall₂ (fun a b => f a = .ok b) l r) {b : β} (hb : b ∈ r) :
    ∃ a ∈ l, f a = .ok b := by
  induction h with
  | nil => exact nomatch hb
  | cons ha _ ih =>
    rcases List.mem_cons.1 hb with rfl | hb
    · exact ⟨_, List.mem_cons_self .., ha⟩
    · obtain ⟨a, hmem, hf⟩ := ih hb
      exact ⟨a, List.mem_cons_of_mem _ hmem, hf⟩

omit [UnicodeData] in
theorem projectOption_eq_some {α β : Type} {f : α → Except ProjectionError β} {trusted : Prop}
    [Decidable trusted] {o : Option α} {b : β}
    (h : projectOption f (if trusted then o else none) = .ok (some b)) :
    ∃ a, o = some a ∧ f a = .ok b := by
  by_cases ht : trusted
  · rw [if_pos ht] at h
    rcases o with _ | a
    · exact nomatch h
    · obtain ⟨b', hb', hsome⟩ := map_eq_ok_iff.1 h
      obtain rfl := Option.some.inj hsome
      exact ⟨a, rfl, hb'⟩
  · rw [if_neg ht] at h
    exact nomatch h

/-- What is written of a quantity has its value. -/
theorem textValue_projectQuantity {q : QuotaQuantity} {item : QuantityItem}
    (h : projectQuantity q = .ok item) : textValue item.value = q.value.toRat := by
  have hnormal := (IsCanonicalDecimal.isWithinLimits q.value_canonical).isNormal
  rw [projectQuantity_value h, textValue, String.toList_ofList, Dec.ofFixed_fixedText hnormal.1]

/-- **A percentage is that of the window of the snapshot.** -/
theorem ratio_of_projectWindow {provider : ProviderKey} {w : QuotaWindowView} {item : WindowItem}
    (h : projectWindow provider w = .ok item) (hpercentage : percentage item ≠ none) :
    item.ratio = w.ratio := by
  unfold projectWindow at h
  obtain ⟨planId, -, h⟩ := bind_eq_ok_iff.1 h
  obtain ⟨scope, -, h⟩ := bind_eq_ok_iff.1 h
  obtain ⟨period, -, h⟩ := bind_eq_ok_iff.1 h
  obtain ⟨limit, hlimit, h⟩ := bind_eq_ok_iff.1 h
  obtain ⟨used, -, h⟩ := bind_eq_ok_iff.1 h
  obtain ⟨remaining, hremaining, h⟩ := bind_eq_ok_iff.1 h
  obtain rfl := Except.ok.inj h
  rcases limit with _ | limit
  · exact absurd (by simp [percentage]) hpercentage
  rcases remaining with _ | remaining
  · exact absurd (by simp [percentage]) hpercentage
  obtain ⟨l, hl, hprojectLimit⟩ := projectOption_eq_some hlimit
  obtain ⟨r, hr, hprojectRemaining⟩ := projectOption_eq_some hremaining
  rw [WindowItem.ratio, QuotaWindowView.ratio, hl, hr]
  dsimp only
  rw [textValue_projectQuantity hprojectLimit, textValue_projectQuantity hprojectRemaining]

omit [UnicodeData] in
/-- Only a window with data has a percentage. -/
theorem carriesData_of_percentage {w : WindowItem} (h : percentage w ≠ none) : w.CarriesData := by
  rcases hlimit : w.limit with _ | limit
  · exact absurd (by simp [percentage, hlimit]) h
  · exact Or.inr (Or.inl (by rw [hlimit]; rfl))

/-! ### The order of the snapshot -/

omit [UnicodeData] in
/-- Windows that are sorted alike have one identity. -/
theorem identity_of_windowSortKey {v w : WindowItem} (h : windowSortKey v = windowSortKey w) :
    v.identity = w.identity := by
  have hkey := toLex.injective h
  obtain ⟨hkind, hrest⟩ := Prod.mk.inj hkey
  obtain ⟨hscope, hrest⟩ := Prod.mk.inj (toLex.injective hrest)
  obtain ⟨hperiod, -⟩ := Prod.mk.inj (toLex.injective hrest)
  have hkind' : v.kind = w.kind := by
    generalize v.kind = k at hkind
    generalize w.kind = k' at hkind
    rcases k with _ | _ | _ <;> rcases k' with _ | _ | _ <;> first | rfl | exact nomatch hkind
  rw [WindowItem.identity, WindowItem.identity, hkind', hscope, hperiod]

omit [UnicodeData] in
/-- **The order of windows** is one, if they can be told apart. -/
theorem sortWindows_perm {l l' : List WindowItem} (hl : l'.Perm l)
    (hnodup : (l.map WindowItem.identity).Nodup) : sortWindows l' = sortWindows l := by
  have htrans : ∀ a b c : WindowItem, windowLe a b = true → windowLe b c = true →
      windowLe a c = true := fun a b c hab hbc =>
    decide_eq_true ((of_decide_eq_true hab).trans (of_decide_eq_true hbc))
  have htotal : ∀ a b : WindowItem, (windowLe a b || windowLe b a) = true := fun a b => by
    rw [Bool.or_eq_true]
    exact (le_total (windowSortKey a) (windowSortKey b)).imp decide_eq_true decide_eq_true
  have hperm : (sortWindows l').Perm (sortWindows l) :=
    (List.mergeSort_perm l' windowLe).trans (hl.trans (List.mergeSort_perm l windowLe).symm)
  refine hperm.eq_of_pairwise ?_ (List.pairwise_mergeSort htrans htotal l')
    (List.pairwise_mergeSort htrans htotal l)
  intro a b ha hb hab hba
  have hkey := le_antisymm (of_decide_eq_true hab) (of_decide_eq_true hba)
  have ha' : a ∈ l := (List.mergeSort_perm l windowLe).mem_iff.1 (hperm.mem_iff.1 ha)
  have hb' : b ∈ l := (List.mergeSort_perm l windowLe).mem_iff.1 hb
  exact List.inj_on_of_nodup_map hnodup ha' hb' (identity_of_windowSortKey hkey)

/-- Two snapshots that differ in the order of their windows alone. -/
structure ProviderSnapshotView.SameUpToOrder (s s' : ProviderSnapshotView) : Prop where
  windows : s'.windows.Perm s.windows
  publicState : s'.publicState = s.publicState
  freshness : s'.freshness = s.freshness
  statusObservedAt : s'.statusObservedAt = s.statusObservedAt
  fetchedAt : s'.fetchedAt = s.fetchedAt
  dataAt : s'.dataAt = s.dataAt
  sourceId : s'.sourceId = s.sourceId
  rateLimitResetCredits : s'.rateLimitResetCredits = s.rateLimitResetCredits

theorem ProviderSnapshotView.SameUpToOrder.symm {s s' : ProviderSnapshotView}
    (h : s.SameUpToOrder s') : s'.SameUpToOrder s where
  windows := h.windows.symm
  publicState := h.publicState.symm
  freshness := h.freshness.symm
  statusObservedAt := h.statusObservedAt.symm
  fetchedAt := h.fetchedAt.symm
  dataAt := h.dataAt.symm
  sourceId := h.sourceId.symm
  rateLimitResetCredits := h.rateLimitResetCredits.symm

/-- A slot depends on which windows there are for it. -/
theorem opencodeSlot_perm {l l' : List QuotaWindowView} (hl : l'.Perm l) (period : String) :
    opencodeSlot l' period = opencodeSlot l period := by
  have hfilter := hl.filter (isCandidate period)
  unfold opencodeSlot
  generalize l'.filter (isCandidate period) = f' at hfilter ⊢
  generalize l.filter (isCandidate period) = f at hfilter ⊢
  rcases f with _ | ⟨a, _ | ⟨b, f⟩⟩
  · rw [List.perm_nil.1 hfilter]
  · rw [List.perm_singleton.1 hfilter]
  · have hlength := hfilter.length_eq
    rcases f' with _ | ⟨a', _ | ⟨b', f'⟩⟩
    · exact nomatch hlength
    · exact nomatch hlength
    · rfl

/-- The slots do not depend on the order of the windows. -/
theorem slottedWindows_perm {l l' : List QuotaWindowView} (hl : l'.Perm l) {items : List WindowItem}
    (h : slottedWindows l = .ok items) : ∃ items', slottedWindows l' = .ok items' ∧ items'.Perm items := by
  obtain ⟨others, hothers, rfl⟩ := slottedWindows_eq_ok h
  obtain ⟨others', hothers', hperm⟩ := mapM_perm (hl.filter _) hothers
  have hslots : opencodeSlots l' = opencodeSlots l :=
    List.map_congr_left fun period _ => opencodeSlot_perm hl period
  refine ⟨others' ++ opencodeSlots l', ?_, hslots ▸ hperm.append_right _⟩
  rw [slottedWindows, hothers', ok_map]

/-- The ways to project a list of windows: all, the technical ones, or into slots. -/
inductive WindowsProjection (provider : ProviderKey) :
    (List QuotaWindowView → Except ProjectionError (List WindowItem)) → Prop
  | all : WindowsProjection provider fun l => l.mapM (projectWindow provider)
  | technical : WindowsProjection provider fun l =>
      (l.filter (·.kind = .technicalRateLimit)).mapM (projectWindow provider)
  | slotted : WindowsProjection provider slottedWindows

/-- The state of a snapshot decides which. -/
theorem snapshotWindows_by_state (provider : ProviderKey) (state : PublicProviderState) :
    ∃ f, WindowsProjection provider f ∧
      ∀ s : ProviderSnapshotView, s.publicState = state → snapshotWindows provider s = f s.windows := by
  rcases provider with _ | _
  · exact ⟨_, .all, fun _ _ => rfl⟩
  have hall : state ≠ .rateLimited → state ≠ .available → state ≠ .partialState →
      ∃ f, WindowsProjection .opencodeGo f ∧ ∀ s : ProviderSnapshotView,
        s.publicState = state → snapshotWindows .opencodeGo s = f s.windows := by
    intro hlimited havailable hpartial
    refine ⟨_, .all, fun s hs => ?_⟩
    unfold snapshotWindows opencodeWindows
    dsimp only
    split
    · next hstate => exact absurd (hs.symm.trans hstate) hlimited
    · next hstate => exact absurd (hs.symm.trans hstate) havailable
    · next hstate => exact absurd (hs.symm.trans hstate) hpartial
    · rfl
  by_cases hlimited : state = .rateLimited
  · refine ⟨_, .technical, fun s hs => ?_⟩
    unfold snapshotWindows opencodeWindows
    dsimp only
    rw [hs, hlimited]
  by_cases havailable : state = .available
  · exact ⟨_, .slotted, fun s hs => opencodeWindows_of_hasSlots (Or.inl (hs.trans havailable))⟩
  by_cases hpartial : state = .partialState
  · exact ⟨_, .slotted, fun s hs => opencodeWindows_of_hasSlots (Or.inr (hs.trans hpartial))⟩
  · exact hall hlimited havailable hpartial

/-- Nor does any projection of windows. -/
theorem WindowsProjection.perm {provider : ProviderKey}
    {f : List QuotaWindowView → Except ProjectionError (List WindowItem)}
    (hf : WindowsProjection provider f) {l l' : List QuotaWindowView} (hl : l'.Perm l)
    {items : List WindowItem} (h : f l = .ok items) :
    ∃ items', f l' = .ok items' ∧ items'.Perm items := by
  rcases hf with _ | _ | _
  · exact mapM_perm hl h
  · exact mapM_perm (hl.filter _) h
  · exact slottedWindows_perm hl h

/-- A projection keeps the identities apart. -/
theorem WindowsProjection.nodup {provider : ProviderKey}
    {f : List QuotaWindowView → Except ProjectionError (List WindowItem)}
    (hf : WindowsProjection provider f) {l : List QuotaWindowView}
    (hl : (l.map QuotaWindowView.identity).Nodup) {items : List WindowItem} (h : f l = .ok items) :
    (items.map WindowItem.identity).Nodup := by
  rcases hf with _ | _ | _
  · rw [identity_of_forall₂ (mapM_eq_ok_iff.1 h)]
    exact hl
  · rw [identity_of_forall₂ (mapM_eq_ok_iff.1 h)]
    exact (List.filter_sublist.map _).nodup hl
  · obtain ⟨others, hothers, rfl⟩ := slottedWindows_eq_ok h
    exact (normalised_append hl (mapM_eq_ok_iff.1 hothers)).unique

/-- A projected window with a percentage is the projection of a window of the snapshot. -/
theorem WindowsProjection.mem {provider : ProviderKey}
    {f : List QuotaWindowView → Except ProjectionError (List WindowItem)}
    (hf : WindowsProjection provider f) {l : List QuotaWindowView} {items : List WindowItem}
    (h : f l = .ok items) {w : WindowItem} (hw : w ∈ items) (hpercentage : percentage w ≠ none) :
    ∃ provider' v, v ∈ l ∧ projectWindow provider' v = .ok w := by
  have hmap : ∀ {provider' : ProviderKey} {m : List QuotaWindowView} {r : List WindowItem},
      m ⊆ l → m.mapM (projectWindow provider') = .ok r → w ∈ r →
        ∃ provider' v, v ∈ l ∧ projectWindow provider' v = .ok w := by
    intro provider' m r hm hr hw
    obtain ⟨v, hv, hproject⟩ := exists_of_mapM (mapM_eq_ok_iff.1 hr) hw
    exact ⟨provider', v, hm hv, hproject⟩
  rcases hf with _ | _ | _
  · exact hmap (List.Subset.refl l) h hw
  · exact hmap (List.filter_subset_self l) h hw
  · obtain ⟨others, hothers, rfl⟩ := slottedWindows_eq_ok h
    rcases List.mem_append.1 hw with hw | hw
    · exact hmap (List.filter_subset_self l) hothers hw
    · obtain ⟨period, -, rfl⟩ := List.mem_map.1 hw
      obtain ⟨v, hv, hproject⟩ := (opencodeSlot_spec l period).2.2 (carriesData_of_percentage hpercentage)
      exact ⟨_, v, hv.mem, hproject⟩

/-- **The facts of a snapshot** do not depend on the order of its windows. -/
theorem snapshotFacts_perm {provider : ProviderKey} {s s' : ProviderSnapshotView}
    (h : s.SameUpToOrder s') {facts : ProviderFacts} (hfacts : snapshotFacts provider s = .ok facts) :
    snapshotFacts provider s' = .ok facts := by
  obtain ⟨f, hf, hproject⟩ := snapshotWindows_by_state provider s.publicState
  obtain ⟨items, hitems, hrest⟩ := bind_eq_ok_iff.1 hfacts
  rw [hproject s rfl] at hitems
  obtain ⟨items', hitems', hperm⟩ := hf.perm h.windows hitems
  rw [← hproject s' h.publicState] at hitems'
  have hsort := sortWindows_perm hperm (hf.nodup s.windows_nodup hitems)
  rw [snapshotFacts, hitems', ok_bind, hperm.length_eq, hsort, h.publicState, h.freshness,
    h.statusObservedAt, h.fetchedAt, h.dataAt, h.sourceId, h.rateLimitResetCredits]
  exact hrest

/-! ### What is shown of a provider -/

/-- What is shown of a provider follows from the facts of its snapshot. -/
theorem projectProvider_of_snapshot {formatter : TimestampFormatter} {view : ProviderView}
    {snapshot : ProviderSnapshotView} (hview : view.snapshot = some snapshot) (enabled : ProviderSet)
    (limit : ℕ) (evidence : Option OpenCodeFailureEvidence) :
    projectProvider formatter view enabled limit evidence = do
      let facts ← snapshotFacts view.provider snapshot
      let shown ← presentation formatter facts limit
      return { facts with presentation := shown } := by
  have hsnapshot : view.outcome = some .snapshot := view.ok.snapshot_iff.1 (by rw [hview]; rfl)
  have hfacts : providerFacts view enabled evidence = snapshotFacts view.provider snapshot := by
    rw [providerFacts, outcomeOf, hsnapshot]
    simp only [ok_bind, hview]
  rw [projectProvider, hfacts]

/-- Where a snapshot was projected, its facts are those of its windows. -/
theorem snapshotFacts_eq_ok {provider : ProviderKey} {snapshot : ProviderSnapshotView}
    {facts : ProviderFacts} (h : snapshotFacts provider snapshot = .ok facts) :
    ∃ items, snapshotWindows provider snapshot = .ok items ∧ facts.windows = sortWindows items ∧
      facts.outcome = .snapshot := by
  obtain ⟨items, hitems, hrest⟩ := bind_eq_ok_iff.1 h
  by_cases hmany : MAX_QUOTA_WINDOWS < items.length
  · rw [if_pos hmany] at hrest
    exact nomatch hrest
  · rw [if_neg hmany] at hrest
    obtain rfl := Except.ok.inj hrest
    exact ⟨items, hitems, rfl, rfl⟩

/-- What a provider item shows of depletion. -/
structure DepletionShown (snapshot : ProviderSnapshotView) (item : ProviderItem) : Prop where
  /-- A window with a percentage has the ratio of a window of the snapshot. -/
  of_snapshot : ∀ w ∈ item.windows, percentage w ≠ none →
    ∃ provider v, v ∈ snapshot.windows ∧ projectWindow provider v = .ok w ∧ w.ratio = v.ratio
  selected : ShowsMostDepleted item.windows item.presentation

theorem depletionShown {formatter : TimestampFormatter} {view : ProviderView}
    {snapshot : ProviderSnapshotView} (hview : view.snapshot = some snapshot) {enabled : ProviderSet}
    {limit : ℕ} {evidence : Option OpenCodeFailureEvidence} {item : ProviderItem}
    (h : projectProvider formatter view enabled limit evidence = .ok item) :
    DepletionShown snapshot item := by
  rw [projectProvider_of_snapshot hview] at h
  obtain ⟨facts, hfacts, h⟩ := bind_eq_ok_iff.1 h
  obtain ⟨shown, hshown, h⟩ := bind_eq_ok_iff.1 h
  obtain rfl := Except.ok.inj h
  obtain ⟨items, hitems, hwindows, houtcome⟩ := snapshotFacts_eq_ok hfacts
  obtain ⟨f, hf, hproject⟩ := snapshotWindows_by_state view.provider snapshot.publicState
  rw [hproject snapshot rfl] at hitems
  refine ⟨fun w hw hpercentage => ?_, ?_⟩
  · have hmem : w ∈ items := by
      rw [hwindows] at hw
      exact (List.mergeSort_perm items windowLe).mem_iff.1 hw
    obtain ⟨provider, v, hv, hw⟩ := hf.mem hitems hmem hpercentage
    exact ⟨provider, v, hv, hw, ratio_of_projectWindow hw hpercentage⟩
  · rw [presentation, if_neg (not_not.2 houtcome)] at hshown
    split at hshown
    · exact snapshotPresentation_shows hshown
    · exact nomatch hshown

/-- **The most depleted window**: percentages are in their range and in the order of the
exact ratios, the smallest is shown, and the order of the snapshot is of no account. -/
theorem most_depleted_window (formatter : TimestampFormatter) {view : ProviderView}
    {snapshot : ProviderSnapshotView} (hview : view.snapshot = some snapshot) (enabled : ProviderSet)
    (limit : ℕ) (evidence : Option OpenCodeFailureEvidence) :
    (∀ w text, percentage w = some text → 0 ≤ textValue text ∧ textValue text ≤ 100) ∧
    (∀ w v text text', percentage w = some text → percentage v = some text' →
      w.ratio ≤ v.ratio → textValue text ≤ textValue text') ∧
    (∀ item, projectProvider formatter view enabled limit evidence = .ok item →
      DepletionShown snapshot item) ∧
    ∀ view' snapshot', view'.provider = view.provider → view'.snapshot = some snapshot' →
      snapshot.SameUpToOrder snapshot' →
        ∀ item, projectProvider formatter view' enabled limit evidence = .ok item ↔
          projectProvider formatter view enabled limit evidence = .ok item := by
  refine ⟨fun w text => percentage_range, fun w v text text' => percentage_mono,
    fun item hitem => depletionShown hview hitem, ?_⟩
  intro view' snapshot' hprovider hview' hsame item
  rw [projectProvider_of_snapshot hview, projectProvider_of_snapshot hview', hprovider,
    bind_eq_ok_iff, bind_eq_ok_iff]
  constructor
  · rintro ⟨facts, hfacts, hitem⟩
    exact ⟨facts, snapshotFacts_perm hsame.symm hfacts, hitem⟩
  · rintro ⟨facts, hfacts, hitem⟩
    exact ⟨facts, snapshotFacts_perm hsame hfacts, hitem⟩

/-- A window of which a percentage is computed was projected. -/
theorem exists_of_observed {provider : ProviderKey} {w : QuotaWindowView} {text : String}
    (h : (projectWindow provider w).toOption.bind percentage = some text) :
    ∃ item, projectWindow provider w = .ok item ∧ percentage item = some text := by
  obtain ⟨item, hitem, htext⟩ := Option.bind_eq_some_iff.1 h
  rcases hw : projectWindow provider w with e | r
  · rw [hw] at hitem
    exact nomatch hitem
  · rw [hw] at hitem
    obtain rfl : r = item := Option.some.inj hitem
    exact ⟨r, rfl, htext⟩

omit [UnicodeData] in
/-- A technical window of which a quarter of the requests remains comes before or after one of which
five of eight do: the quarter is shown. -/
theorem most_depleted_window_swapped :
    letI := UnicodeData.ascii
    ∃ (view view' : ProviderView) (snapshot snapshot' : ProviderSnapshotView),
      (snapshot.windows.map (·.scope) = ["minute", "hour"] ∧ snapshot'.windows.map (·.scope) = ["hour", "minute"]) ∧
      (view.snapshot = some snapshot ∧ view'.snapshot = some snapshot') ∧
      (snapshot.windows.map fun w => (projectWindow .codex w).toOption.bind percentage) = [some "62.5", some "25"] ∧
      ∃ item, projectProvider (fun _ => none) view (fun _ => true) 4096 none = .ok item ∧
        projectProvider (fun _ => none) view' (fun _ => true) 4096 none = .ok item ∧
        item.presentation.compactText = "25%" := by
  let _ := UnicodeData.ascii
  let requests (n : ℕ) (h : canonicalDecimal (.finite false ⟨n, 0⟩) = .ok ⟨n, 0⟩) : QuotaQuantity :=
    ⟨⟨n, 0⟩, .technicalRateLimit, "requests", ⟨_, h⟩, ⟨"requests", "", by decide⟩⟩
  let minute : QuotaWindowView :=
    ⟨.technicalRateLimit, "minute", "rolling", none, .known, some CODEX_SOURCE_ID,
      some (requests 8 (by decide +kernel)), none, some (requests 5 (by decide +kernel)), none,
      ⟨"minute", "", by decide⟩, ⟨"rolling", "", by decide⟩, nofun, by rintro s ⟨⟩; decide, by decide⟩
  let hour : QuotaWindowView :=
    ⟨.technicalRateLimit, "hour", "rolling", none, .known, some CODEX_SOURCE_ID,
      some (requests 4 (by decide +kernel)), none, some (requests 1 (by decide +kernel)), none,
      ⟨"hour", "", by decide⟩, ⟨"rolling", "", by decide⟩, nofun, by rintro s ⟨⟩; decide, by decide⟩
  let now : Instant := ⟨2000, 1, 1, 0, 0, 0, 0, by decide⟩
  let snapshot : ProviderSnapshotView :=
    ⟨.available, .fresh, now, now, now, none, [minute, hour], none, le_rfl, le_rfl, rfl,
      by decide, by decide, nofun⟩
  let snapshot' : ProviderSnapshotView :=
    ⟨.available, .fresh, now, now, now, none, [hour, minute], none, le_rfl, le_rfl, rfl,
      by decide, by decide, nofun⟩
  let view : ProviderView := ⟨.codex, .success, none, some .snapshot, some snapshot, none, by
    constructor <;> simp⟩
  let view' : ProviderView := ⟨.codex, .success, none, some .snapshot, some snapshot', none, by
    constructor <;> simp⟩
  have hsame : snapshot.SameUpToOrder snapshot' :=
    ⟨List.Perm.swap minute hour [], rfl, rfl, rfl, rfl, rfl, rfl, rfl⟩
  have hview : view.snapshot = some snapshot := rfl
  obtain ⟨-, -, hshown, hswapped⟩ := most_depleted_window (fun _ => none) hview (fun _ => true) 4096 none
  have hminute : (projectWindow .codex minute).toOption.bind percentage = some "62.5" := by decide +kernel
  have hhour : (projectWindow .codex hour).toOption.bind percentage = some "25" := by decide +kernel
  obtain ⟨m, hm, hminute'⟩ := exists_of_observed hminute
  obtain ⟨h, hh, hhour'⟩ := exists_of_observed hhour
  have hwindows : snapshotWindows .codex snapshot = .ok [m, h] := by
    have hmap : [minute, hour].mapM (projectWindow .codex) = .ok [m, h] := by
      rw [List.mapM_cons, hm, List.mapM_cons, hh, List.mapM_nil]
      rfl
    exact hmap
  obtain ⟨facts, hfacts, hsorted⟩ : ∃ facts, snapshotFacts .codex snapshot = .ok facts ∧
      facts.windows = sortWindows [m, h] ∧ facts.outcome = .snapshot ∧
      (facts.publicState = some .available ∧ facts.freshness = some .fresh) ∧
      facts.rateLimitResetCredits = none := by
    rw [snapshotFacts, hwindows]
    exact ⟨_, rfl, rfl, rfl, ⟨rfl, rfl⟩, rfl⟩
  obtain ⟨hsorted, houtcome, ⟨hstate, hfreshness⟩, hcredits⟩ := hsorted
  obtain ⟨shown, hpresentation⟩ : ∃ shown, presentation (fun _ => none) facts 4096 = .ok shown := by
    rw [presentation, if_neg (not_not.2 houtcome), hstate, hfreshness]
    dsimp only
    rw [snapshotPresentation, hcredits]
    exact ⟨_, rfl⟩
  have hitem : projectProvider (fun _ => none) view (fun _ => true) 4096 none =
      .ok { facts with presentation := shown } := by
    rw [projectProvider_of_snapshot hview]
    change snapshotFacts .codex snapshot >>= _ = _
    rw [hfacts, ok_bind, hpresentation]
    rfl
  refine ⟨view, view', snapshot, snapshot', ⟨rfl, rfl⟩, ⟨rfl, rfl⟩, ?_, _, hitem,
    (hswapped view' snapshot' rfl rfl hsame _).2 hitem, ?_⟩
  · exact congrArg₂ (fun a b => [a, b]) hminute hhour
  have hmem : ∀ w, w ∈ facts.windows ↔ w = m ∨ w = h := by
    intro w
    rw [hsorted, sortWindows, (List.mergeSort_perm [m, h] windowLe).mem_iff, List.mem_cons, List.mem_singleton]
  rcases (hshown _ hitem).selected with ⟨w, text, hleast, -, htext⟩ | ⟨hnone, -⟩
  · rcases (hmem w).1 hleast.mem with rfl | rfl
    · -- five of eight is not the least: the quarter comes before it
      obtain rfl : text = "62.5" := Option.some.inj (hleast.percentage_eq.symm.trans hminute')
      have hle := hleast.least h ((hmem h).2 (Or.inr rfl)) "25" hhour'
      have hvalues : textValue "62.5" ≤ textValue "25" := (Prod.Lex.toLex_le_toLex'.1 hle).1
      have hmany : textValue "62.5" = 62.5 := by
        have hread : Dec.ofFixed "62.5".toList = ⟨625, -1⟩ := by decide
        norm_num [textValue, hread, Dec.toRat]
      have hfew : textValue "25" = 25 := by
        have hread : Dec.ofFixed "25".toList = ⟨25, 0⟩ := by decide
        norm_num [textValue, hread, Dec.toRat]
      rw [hmany, hfew] at hvalues
      norm_num at hvalues
    · obtain rfl : text = "25" := Option.some.inj (hleast.percentage_eq.symm.trans hhour')
      exact htext
  · exact absurd (hnone h ((hmem h).2 (Or.inr rfl))) (by simp [hhour'])

end YasbLimitora

import Mathlib
import YasbLimitora.Projection.Project

/-!
# Documents within the limit

How the limit of the tooltips bears on a document. It decides nothing but the tooltips, and a larger
limit only makes them longer: so the documents of one input succeed or fail together, and grow with
the limit. `YasbLimitora.projected_cases` draws the conclusion for the search of `project_bytes`: it
falls back exactly if the document without any tooltip lines is refused, and finds the largest
document that is small enough otherwise.

Documents are compared by the relation `YasbLimitora.Document.Grows`: the facts are the same, and
each text of the second is at least as long in bytes as its counterpart, since a tooltip of the
greater limit begins with that of the lesser one. Its consequence for sizes is what the binary
search of `YasbLimitora.Lib.Search` asks for.
-/

namespace YasbLimitora

/-! ### The size of texts -/

/-- The size of a text inside a JSON string. -/
def textSize (s : String) : ℕ := Json.utf8Size (Json.escaped s.toList)

@[simp] theorem textSize_append (s t : String) : textSize (s ++ t) = textSize s + textSize t := by
  simp [textSize, Json.escaped]

/-- More text takes more bytes. -/
theorem textSize_mono {s t : String} (h : s.toList <+: t.toList) : textSize s ≤ textSize t := by
  obtain ⟨l, hl⟩ := h
  simp [textSize, ← hl, Json.escaped]

/-- The quotation marks take two bytes. -/
theorem utf8Size_quoted (s : String) : Json.utf8Size (Json.quoted s) = textSize s + 2 := by
  have hquote : Char.utf8Size '"' = 1 := rfl
  simp only [Json.quoted, List.cons_append, Json.utf8Size_cons, Json.utf8Size_append,
    Json.utf8Size_nil, hquote, textSize]
  omega

/-- Joining longer texts gives a longer text. -/
theorem textSize_joinTexts_mono (separator : String) {l m : List String}
    (h : List.Forall₂ (fun s t => textSize s ≤ textSize t) l m) :
    textSize (joinTexts separator l) ≤ textSize (joinTexts separator m) := by
  induction h with
  | nil => exact le_rfl
  | cons hst h ih =>
    rcases h with _ | ⟨hst', h⟩
    · exact hst
    · simp only [joinTexts, textSize_append] at ih ⊢
      omega

/-! ### Tooltips -/

/-- A tooltip with one more line. -/
def nextTooltip (tooltip line : String) : String :=
  if tooltip = "" then line else tooltip ++ "\n" ++ line

/-- A line is added at the end. -/
theorem prefix_nextTooltip (tooltip line : String) :
    tooltip.toList <+: (nextTooltip tooltip line).toList := by
  rw [nextTooltip]
  split
  · next h => simp [h]
  · simp [String.toList_append]

theorem extendTooltip_cons (limit : ℕ) (tooltip line : String) (lines : List String) :
    extendTooltip limit tooltip (line :: lines) =
      if limit < (nextTooltip tooltip line).length then tooltip
      else extendTooltip limit (nextTooltip tooltip line) lines := rfl

/-- So are all of them. -/
theorem prefix_extendTooltip (limit : ℕ) (tooltip : String) (lines : List String) :
    tooltip.toList <+: (extendTooltip limit tooltip lines).toList := by
  induction lines generalizing tooltip with
  | nil => exact List.prefix_rfl
  | cons line lines ih =>
    rw [extendTooltip_cons]
    split
    · exact List.prefix_rfl
    · exact (prefix_nextTooltip tooltip line).trans (ih _)

/-- **A larger limit makes a tooltip longer**, and changes nothing of what it had. -/
theorem extendTooltip_mono {limit limit' : ℕ} (h : limit ≤ limit') (tooltip : String)
    (lines : List String) :
    (extendTooltip limit tooltip lines).toList <+: (extendTooltip limit' tooltip lines).toList := by
  induction lines generalizing tooltip with
  | nil => exact List.prefix_rfl
  | cons line lines ih =>
    rw [extendTooltip_cons]
    split
    · exact prefix_extendTooltip _ _ _
    · next hle =>
      rw [extendTooltip_cons, if_neg (by omega)]
      exact ih _

/-- The second shows the same, but for a longer tooltip. -/
def Presentation.Grows (s t : Presentation) : Prop :=
  t = { s with tooltipText := t.tooltipText } ∧ s.tooltipText.toList <+: t.tooltipText.toList

theorem Presentation.Grows.refl (s : Presentation) : s.Grows s := ⟨rfl, List.prefix_rfl⟩

/-! ### Documents -/

/-- The second provider is the same, but for a longer tooltip. -/
def ProviderItem.Grows (p q : ProviderItem) : Prop :=
  p.toProviderFacts = q.toProviderFacts ∧ p.presentation.Grows q.presentation

/-- A provider with a longer tooltip takes more bytes. -/
theorem ProviderItem.Grows.size_le {p q : ProviderItem} (h : p.Grows q) :
    Json.utf8Size p.json.chars ≤ Json.utf8Size q.json.chars := by
  rcases p with ⟨facts, shown⟩
  rcases q with ⟨facts', shown'⟩
  obtain ⟨hf, hs, ht⟩ := h
  dsimp only at hf hs ht
  subst hf
  rw [hs]
  have ht := textSize_mono ht
  simp only [ProviderItem.json, Json.chars, Json.fieldsTail, Json.utf8Size_append,
    Json.utf8Size_cons, utf8Size_quoted]
  omega

theorem map_eq_of_grows {α : Type} {f : ProviderItem → α} {l m : List ProviderItem}
    (hf : ∀ p q, p.Grows q → f p = f q) (h : List.Forall₂ ProviderItem.Grows l m) :
    l.map f = m.map f := by
  induction h with
  | nil => rfl
  | cons hpq _ ih => rw [List.map_cons, List.map_cons, hf _ _ hpq, ih]

/-- The short texts are the same. -/
theorem ProviderItem.Grows.shown_eq {p q : ProviderItem} (h : p.Grows q) :
    p.provider = q.provider ∧ p.notRunReason = q.notRunReason ∧
      p.presentation.compactText = q.presentation.compactText ∧
        p.presentation.alternateText = q.presentation.alternateText := by
  obtain ⟨hf, hs, -⟩ := h
  exact ⟨congrArg (·.provider) hf, congrArg (·.notRunReason) hf,
    (congrArg (·.compactText) hs).symm, (congrArg (·.alternateText) hs).symm⟩

/-- The tooltips of all providers grow together. -/
theorem tooltips_of_grows {l m : List ProviderItem} (h : List.Forall₂ ProviderItem.Grows l m) :
    List.Forall₂ (fun s t => textSize s ≤ textSize t) (l.map (·.presentation.tooltipText))
      (m.map (·.presentation.tooltipText)) := by
  rw [List.forall₂_map_left_iff, List.forall₂_map_right_iff]
  exact h.imp fun p q hpq => textSize_mono hpq.2.2

/-- The providers that are shown together grow with all. -/
theorem selected_of_grows {l m : List ProviderItem} (h : List.Forall₂ ProviderItem.Grows l m) :
    List.Forall₂ ProviderItem.Grows (l.filter fun p => p.notRunReason ≠ some "disabled")
      (m.filter fun p => p.notRunReason ≠ some "disabled") := by
  refine List.rel_filter ?_ h
  intro p q hpq
  simp only [hpq.shown_eq.2.1]

/-- The short texts of all providers are the same. -/
theorem general_texts_eq {l m : List ProviderItem} (h : List.Forall₂ ProviderItem.Grows l m) :
    (general l).compactText = (general m).compactText ∧
      (general l).alternateText = (general m).alternateText := by
  have hselected := selected_of_grows h
  simp only [general]
  generalize l.filter _ = l' at hselected ⊢
  generalize m.filter _ = m' at hselected ⊢
  rcases hselected with _ | ⟨hpq, hrest⟩
  · exact ⟨rfl, rfl⟩
  have hrest := List.Forall₂.cons hpq hrest
  rw [map_eq_of_grows (fun p q h => by rw [h.shown_eq.1, h.shown_eq.2.2.1]) hrest,
    map_eq_of_grows (fun p q h => by rw [h.shown_eq.1, h.shown_eq.2.2.2]) hrest]
  exact ⟨rfl, rfl⟩

/-- What is shown of all providers grows with what is shown of each. -/
theorem general_size_le {l m : List ProviderItem} (h : List.Forall₂ ProviderItem.Grows l m) :
    Json.utf8Size (general l).json.chars ≤ Json.utf8Size (general m).json.chars := by
  have hselected := selected_of_grows h
  obtain ⟨hcompact, halternate⟩ := general_texts_eq h
  simp only [general] at hcompact halternate ⊢
  generalize l.filter _ = l' at hselected hcompact halternate ⊢
  generalize m.filter _ = m' at hselected hcompact halternate ⊢
  rcases hselected with _ | ⟨hpq, hrest⟩
  · exact le_rfl
  have htooltip := textSize_joinTexts_mono "\n\n" (tooltips_of_grows (.cons hpq hrest))
  simp only [List.isEmpty_cons, Bool.false_eq_true, if_false] at hcompact halternate
  simp only [List.isEmpty_cons, Bool.false_eq_true, if_false, GeneralItem.json, Json.chars,
    Json.fieldsTail, Json.utf8Size_append, Json.utf8Size_cons, utf8Size_quoted, hcompact,
    halternate] at htooltip ⊢
  omega

/-- The second document is the same, but for longer tooltips. -/
structure Document.Grows (d e : Document) : Prop where
  state : d.executionState = e.executionState
  error : d.executionError = e.executionError
  general : d.general = YasbLimitora.general d.providers
  general' : e.general = YasbLimitora.general e.providers
  providers : List.Forall₂ ProviderItem.Grows d.providers e.providers

/-- Providers that grow take more bytes, one after the other. -/
theorem itemsTail_size_le {l m : List ProviderItem} (h : List.Forall₂ ProviderItem.Grows l m) :
    Json.utf8Size (Json.itemsTail (l.map ProviderItem.json)) ≤
      Json.utf8Size (Json.itemsTail (m.map ProviderItem.json)) := by
  induction h with
  | nil => exact le_rfl
  | cons hpq _ ih =>
    have hsize := hpq.size_le
    simp only [List.map_cons, Json.itemsTail, Json.utf8Size_append, Json.utf8Size_cons,
      List.cons_append]
    omega

theorem providers_size_le {l m : List ProviderItem} (h : List.Forall₂ ProviderItem.Grows l m) :
    Json.utf8Size (Json.arr (l.map ProviderItem.json)).chars ≤
      Json.utf8Size (Json.arr (m.map ProviderItem.json)).chars := by
  rcases h with _ | ⟨hpq, hrest⟩
  · exact le_rfl
  · have hsize := hpq.size_le
    have htail := itemsTail_size_le hrest
    simp only [List.map_cons, Json.chars, Json.utf8Size_append, Json.utf8Size_cons,
      List.cons_append]
    omega

/-- **A document grows in size.** -/
theorem Document.Grows.size_le {d e : Document} (h : d.Grows e) : d.size ≤ e.size := by
  have hgeneral := general_size_le h.providers
  rw [← h.general, ← h.general'] at hgeneral
  have hproviders := providers_size_le h.providers
  simp only [Document.size, Document.encode, Document.json, h.state, h.error, Json.chars,
    Json.fieldsTail, Json.utf8Size_append, Json.utf8Size_cons]
  omega

/-- The document of a limit, where it is small enough. -/
def fitting (documents : ℕ → Document) (limit : ℕ) : Option Document :=
  if (documents limit).size ≤ MAX_DOCUMENT_BYTES then some (documents limit) else none

theorem fitting_eq_some_iff {documents : ℕ → Document} {limit : ℕ} {document : Document} :
    fitting documents limit = some document ↔
      (documents limit).size ≤ MAX_DOCUMENT_BYTES ∧ documents limit = document := by
  rw [fitting]
  split
  · next h => simp [h]
  · next h => simp [h]

/-- A document that does not fit is too large. -/
theorem fitting_eq_none_iff {documents : ℕ → Document} {limit : ℕ} :
    fitting documents limit = none ↔ MAX_DOCUMENT_BYTES < (documents limit).size := by
  rw [fitting]
  split
  · next h => simpa using h
  · next h => simpa using h

/-! ### Projections at two limits -/

/-- The results of one computation at two limits: the same error, or values in a
relation. -/
def SameUpTo {ε α : Type} (R : α → α → Prop) : Except ε α → Except ε α → Prop
  | .ok a, .ok b => R a b
  | .error e, .error e' => e = e'
  | _, _ => False

/-- Two computations with the same errors have the same errors after one more step. -/
theorem SameUpTo.bind {ε α β : Type} {R : α → α → Prop} {S : β → β → Prop} {x y : Except ε α}
    {f g : α → Except ε β} (h : SameUpTo R x y) (hf : ∀ a b, R a b → SameUpTo S (f a) (g b)) :
    SameUpTo S (x >>= f) (y >>= g) := by
  rcases x with e | a <;> rcases y with e' | b
  · exact h
  · exact h.elim
  · exact h.elim
  · exact hf a b h

theorem SameUpTo.refl {ε α : Type} {R : α → α → Prop} (hR : ∀ a, R a a) (x : Except ε α) :
    SameUpTo R x x := by
  rcases x with e | a
  · exact rfl
  · exact hR a

section Project

variable [UnicodeData] {formatter : TimestampFormatter} {limit limit' : ℕ}

/-- The limit bears on the tooltip alone. -/
theorem presentation_grows (h : limit ≤ limit') (facts : ProviderFacts) :
    SameUpTo Presentation.Grows (presentation formatter facts limit)
      (presentation formatter facts limit') := by
  rw [presentation, presentation]
  split
  · exact Presentation.Grows.refl _
  · split
    · refine SameUpTo.bind (SameUpTo.refl (R := Eq) (fun _ => rfl) _) ?_
      rintro credits _ rfl
      exact ⟨rfl, extendTooltip_mono h _ _⟩
    · exact rfl

/-- It bears on a provider by its tooltip. -/
theorem projectProvider_grows (h : limit ≤ limit') (view : ProviderView) (enabled : ProviderSet)
    (evidence : Option OpenCodeFailureEvidence) :
    SameUpTo ProviderItem.Grows (projectProvider formatter view enabled limit evidence)
      (projectProvider formatter view enabled limit' evidence) := by
  refine SameUpTo.bind (SameUpTo.refl (R := Eq) (fun _ => rfl) _) ?_
  rintro facts _ rfl
  exact (presentation_grows h facts).bind fun _ _ hp => ⟨rfl, hp⟩

/-- It bears on a document by the tooltips of its providers. -/
theorem projectDocument_grows (formatter : TimestampFormatter) (h : limit ≤ limit') (input : ProjectionInput) :
    SameUpTo Document.Grows (projectDocument formatter input limit)
      (projectDocument formatter input limit') := by
  refine (projectProvider_grows h _ _ _).bind ?_
  rintro codex codex' hc
  refine (projectProvider_grows h _ _ _).bind ?_
  rintro opencodeGo opencodeGo' ho
  have houtcome : codex.outcome = codex'.outcome ∧ opencodeGo.outcome = opencodeGo'.outcome :=
    ⟨congrArg (·.outcome) hc.1, congrArg (·.outcome) ho.1⟩
  refine .mk ?_ ?_ rfl rfl (.cons hc (.cons ho .nil))
  · simp only [assemble, List.map_cons, List.map_nil, houtcome]
  · simp only [assemble, List.map_cons, List.map_nil, houtcome]

/-! ### What is projected -/

/-- The document without any tooltip lines is refused: a provider has too many windows,
or the document is too large. -/
def FallsBack (formatter : TimestampFormatter) (input : ProjectionInput) : Prop :=
  projectDocument formatter input 0 = .error .tooManyWindows ∨
    ∃ document, projectDocument formatter input 0 = .ok document ∧
      MAX_DOCUMENT_BYTES < document.size

/-- A document of the input that is small enough, and the largest such. -/
def IsLongest (formatter : TimestampFormatter) (input : ProjectionInput) (document : Document) :
    Prop :=
  document.size ≤ MAX_DOCUMENT_BYTES ∧ ∃ limit ≤ MAX_TOOLTIP_SCALARS,
    projectDocument formatter input limit = .ok document ∧
      ∀ limit' ≤ MAX_TOOLTIP_SCALARS, limit < limit' →
        ∃ larger, projectDocument formatter input limit' = .ok larger ∧
          MAX_DOCUMENT_BYTES < larger.size

/-- The documents of an input: one error for all limits, or a document for each, that
grows with the limit. -/
theorem projectDocument_cases (formatter : TimestampFormatter) (input : ProjectionInput) :
    (∃ e, ∀ limit, projectDocument formatter input limit = .error e) ∨
      ∃ documents : ℕ → Document, (∀ limit,
        projectDocument formatter input limit = .ok (documents limit)) ∧
          ∀ limit limit', limit ≤ limit' → (documents limit).Grows (documents limit') := by
  have hgrows : ∀ limit, SameUpTo Document.Grows _ _ := fun limit =>
    projectDocument_grows formatter (Nat.zero_le limit) input
  rcases h0 : projectDocument formatter input 0 with e | document
  · refine Or.inl ⟨e, fun limit => ?_⟩
    have h := hgrows limit
    rw [h0] at h
    rcases hl : projectDocument formatter input limit with e' | document
    · rw [hl] at h
      exact congrArg Except.error (Eq.symm h)
    · rw [hl] at h
      exact h.elim
  · have hok : ∀ limit, ∃ d, projectDocument formatter input limit = .ok d := by
      intro limit
      have h := hgrows limit
      rw [h0] at h
      rcases hl : projectDocument formatter input limit with e' | d
      · rw [hl] at h
        exact h.elim
      · exact ⟨d, rfl⟩
    choose documents hdocuments using hok
    refine Or.inr ⟨documents, hdocuments, fun limit limit' hle => ?_⟩
    have h := projectDocument_grows formatter hle input
    rwa [hdocuments, hdocuments] at h

/-- **What `project_bytes` projects**: the failure document of an internal error where it
falls back, the error of the projection where there is one, and otherwise the largest
document that is small enough. -/
theorem projected_cases (formatter : TimestampFormatter) (input : ProjectionInput) :
    (FallsBack formatter input ∧ projected formatter input = failureDocument .internalError) ∨
      (¬FallsBack formatter input ∧ ((∃ e, projected formatter input = .error e) ∨
        ∃ document, projected formatter input = .ok document ∧
          IsLongest formatter input document)) := by
  rcases projectDocument_cases formatter input with ⟨e, he⟩ | ⟨documents, hok, hgrows⟩
  · rcases e with _ | message
    · refine Or.inl ⟨Or.inl (he 0), ?_⟩
      rw [projected, he]
    · refine Or.inr ⟨?_, Or.inl ⟨.valueError message, ?_⟩⟩
      · rintro (h | ⟨_, h, -⟩) <;> rw [he] at h <;> cases h
      · rw [projected, he]
  · have hfalls : FallsBack formatter input ↔ MAX_DOCUMENT_BYTES < (documents 0).size := by
      constructor
      · rintro (h | ⟨document, h, hsize⟩)
        · rw [hok] at h
          cases h
        · rw [hok] at h
          cases h
          exact hsize
      · exact fun h => Or.inr ⟨_, hok 0, h⟩
    have hsize : ∀ m n, m ≤ n → (documents m).size ≤ (documents n).size := fun m n h =>
      (hgrows m n h).size_le
    rw [hfalls]
    simp only [projected, hok]
    by_cases hfit : (documents MAX_TOOLTIP_SCALARS).size ≤ MAX_DOCUMENT_BYTES
    · rw [if_pos hfit]
      refine Or.inr ⟨not_lt.2 ((hsize _ _ (Nat.zero_le _)).trans hfit), Or.inr ⟨_, rfl, hfit,
        MAX_TOOLTIP_SCALARS, le_rfl, hok _, fun limit' hle hlt => absurd hlt (not_lt.2 hle)⟩⟩
    · rw [if_neg hfit]
      obtain ⟨r, hr, hlargest⟩ : ∃ r, searchLargest (fun limit => do
          let candidate ← (Except.ok (documents limit) : Except ProjectionError Document)
          return if candidate.size ≤ MAX_DOCUMENT_BYTES then some candidate else none) 0
            (MAX_TOOLTIP_SCALARS + 1) none = .ok r ∧
          IsLargest (fitting documents) 0 (MAX_TOOLTIP_SCALARS + 1) none r :=
        searchLargest_spec (fun m n hmn hm => fitting_eq_none_iff.2
          ((fitting_eq_none_iff.1 hm).trans_le (hsize m n hmn))) _ _ _
      rw [hr, ok_bind]
      rcases hlargest with ⟨limit, -, hlimit, hf, hsome, hlast⟩ | ⟨rfl, hnone⟩
      · obtain ⟨document, rfl⟩ := Option.isSome_iff_exists.1 hsome
        obtain ⟨hfits, rfl⟩ := fitting_eq_some_iff.1 hf
        refine Or.inr ⟨not_lt.2 ((hsize _ _ (Nat.zero_le _)).trans hfits), Or.inr ⟨_, rfl, hfits,
          limit, by omega, hok _, fun limit' hle hlt => ⟨_, hok _, ?_⟩⟩⟩
        exact fitting_eq_none_iff.1 (hlast limit' hlt (by omega))
      · exact Or.inl ⟨fitting_eq_none_iff.1 (hnone 0 le_rfl (by omega)), rfl⟩

/-- A document that is small enough with all its tooltips is what is projected. -/
theorem projected_of_small {input : ProjectionInput} {document : Document}
    (h : projectDocument formatter input MAX_TOOLTIP_SCALARS = .ok document)
    (hsize : document.size ≤ MAX_DOCUMENT_BYTES) :
    projected formatter input = .ok document ∧ ¬FallsBack formatter input := by
  have hp : projected formatter input = .ok document := by
    rw [projected, h]
    exact if_pos hsize
  refine ⟨hp, ?_⟩
  rcases projectDocument_cases formatter input with ⟨e, he⟩ | ⟨documents, hok, hgrows⟩
  · rw [he] at h
    cases h
  · rw [hok] at h
    obtain rfl := Except.ok.inj h
    rintro (h0 | ⟨d, h0, hlarge⟩)
    · rw [hok] at h0
      cases h0
    · rw [hok] at h0
      obtain rfl := Except.ok.inj h0
      exact absurd hlarge (not_lt.2 (((hgrows _ _ (Nat.zero_le _)).size_le).trans hsize))

end Project

end YasbLimitora

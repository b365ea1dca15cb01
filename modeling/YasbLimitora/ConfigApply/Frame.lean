import Mathlib
import YasbLimitora.ConfigApply.Merge
import YasbLimitora.Lib.JsonAscii
import YasbLimitora.Lib.JsonReaders
import YasbLimitora.Lib.JsonUpdate

/-!
# What a selection leaves alone

A merged document is the original one but for what is selected, with the keys that were there in
their order (`YasbLimitora.ConfigApply.Merged`), and it passes the check that is made of it after the
write (`YasbLimitora.ConfigApply.merge_frame`): what is not selected is taken out of both documents
alike, an emptied provider with it.

The selection is followed field by field: one field is placed in the document of its provider
(`YasbLimitora.ConfigApply.Placed`), and a list of fields one after another. A field that is null in
the document that was read would be lost by the comparison of what was not selected, and this is
where the validation of the document comes in: no document with such a field is valid.

The bytes come last. A merged document is written and read again, and what is read is what was
merged, because it was read once itself and because its selected values can be spelled.
-/

namespace YasbLimitora

namespace ConfigApply

open SetupAssist YasbLimitora.Config
open Json (Fields get? set erase overlay eraseAll Overlaid)

/-! ### One key of a selection -/

/-- The fields of a provider in a document. -/
def providerFields (document : Fields) (key : Text) : Fields :=
  match get? key document with
  | some (.obj fields) => fields
  | _ => []

/-- There is a provider in a document, or nothing. -/
def IsProvider (document : Fields) (key : Text) : Prop :=
  ∀ x, get? key document = some x → x = .obj (providerFields document key)

/-- What a document has under a key after the selection of a value. -/
inductive Placed (document : Fields) (key : Text) : Json Text → Json Text → Prop
  | deadline (hkey : key = DEADLINE) (value : Json Text) : Placed document key value value
  | provider (hkey : key ≠ DEADLINE) (hprovider : IsProvider document key) (selected : Fields) :
    Placed document key (.obj selected) (.obj (overlay selected (providerFields document key)))

section Steps

variable {document document' : Fields} {key : Text} {value x y : Json Text} {selection : Fields}

/-- The fields of a provider depend on what stands under its key. -/
theorem providerFields_congr (h : get? key document' = get? key document) :
    providerFields document' key = providerFields document key := by
  rw [providerFields, h]
  rfl

/-- So does what is placed there. -/
theorem Placed.congr (hx : Placed document key value x) (h : get? key document' = get? key document) :
    Placed document' key value x := by
  rcases hx with ⟨hkey⟩ | ⟨hkey, hprovider, selected⟩
  · exact .deadline hkey _
  · rw [← providerFields_congr h]
    refine .provider hkey (fun y hy => ?_) selected
    rw [providerFields_congr h]
    exact hprovider y (h.symm.trans hy)

/-- A provider that is selected, where there is no null in its place. -/
theorem setProvider_eq_some (hnull : get? key document ≠ some .null)
    (h : setProvider document key value = some document') :
    ∃ selected, value = .obj selected ∧ IsProvider document key ∧
      document' = set key (.obj (overlay selected (providerFields document key))) document := by
  unfold setProvider at h
  rcases hget : get? key document with _ | j
  · rw [hget] at h
    rcases value with _ | _ | _ | _ | _ | _ | selected
    case obj =>
      refine ⟨selected, rfl, fun x hx => ?_, ?_⟩
      · rw [hget] at hx
        cases hx
      · rw [providerFields, hget]
        exact (Option.some.inj h).symm
    all_goals cases h
  · rw [hget] at h
    rcases j with _ | _ | _ | _ | _ | _ | current
    case null => exact absurd hget hnull
    case obj =>
      have hfields : providerFields document key = current := by rw [providerFields, hget]
      rcases value with _ | _ | _ | _ | _ | _ | selected
      case obj =>
        refine ⟨selected, rfl, fun x hx => ?_, ?_⟩
        · rw [hfields]
          exact (Option.some.inj (hget.symm.trans hx)).symm
        · rw [hfields]
          exact (Option.some.inj h).symm
      all_goals cases h
    all_goals cases h

/-- One key of a selection at a time. -/
theorem selectAll_cons (hnull : key ≠ DEADLINE → get? key document ≠ some .null)
    (h : selectAll document ((key, value) :: selection) = some document') :
    ∃ x, Placed document key value x ∧ selectAll (set key x document) selection = some document' := by
  rw [selectAll] at h
  split_ifs at h with hkey
  · exact ⟨value, .deadline hkey value, h⟩
  · obtain ⟨document₁, hset, h⟩ := Option.bind_eq_some_iff.1 h
    obtain ⟨selected, rfl, hprovider, rfl⟩ := setProvider_eq_some (hnull hkey) hset
    exact ⟨_, .provider hkey hprovider selected, h⟩

/-- Once its first value is placed, a selection goes on with the others. -/
theorem selectAll_of_placed (hx : Placed document key value x) :
    selectAll document ((key, value) :: selection) = selectAll (set key x document) selection := by
  rw [selectAll]
  rcases hx with ⟨hkey⟩ | ⟨hkey, hprovider, selected⟩
  · rw [if_pos hkey]
  · rw [if_neg hkey]
    unfold setProvider
    rcases hget : get? key document with _ | j
    · rw [providerFields, hget]
      rfl
    · rw [hprovider j hget]
      rfl

end Steps

/-! ### What is not selected -/

section Unowned

variable {document document' : Fields} {j key : Text} {value x y : Json Text} {selection : Fields}

/-- A document without the selected fields of a provider. -/
theorem withoutSelected_provider {provider selected : Fields} (hkey : key ≠ DEADLINE)
    (h : get? key document = some (.obj provider)) :
    withoutSelected document key (.obj selected) =
      if eraseAll selected provider = [] then erase key document
      else set key (.obj (eraseAll selected provider)) document := by
  unfold withoutSelected
  rw [if_neg hkey, h]
  rfl

/-- Where nothing stands under a key, nothing is taken from there. -/
theorem withoutSelected_absent (hkey : key ≠ DEADLINE) (h : get? key document = none) :
    withoutSelected document key value = document := by
  unfold withoutSelected
  rw [if_neg hkey, h]

/-- How a document is without what is selected under a key: as it was, without the key, or
with fewer fields in its value. That depends on nothing but what the key has there. -/
theorem withoutSelected_cases (document : Fields) (key : Text) (value : Json Text) :
    (∀ document', get? key document' = get? key document → withoutSelected document' key value = document') ∨
      (∀ document', get? key document' = get? key document →
        withoutSelected document' key value = erase key document') ∨
      key ∈ document.map Prod.fst ∧ ∃ selected, ∀ document', get? key document' = get? key document →
        withoutSelected document' key value =
          set key (.obj (eraseAll selected (providerFields document key))) document' := by
  by_cases hkey : key = DEADLINE
  · exact Or.inr (Or.inl fun document' _ => if_pos hkey)
  rcases hget : get? key document with _ | provider
  · exact Or.inl fun document' h => withoutSelected_absent hkey h
  have hmem : key ∈ document.map Prod.fst := by
    by_contra hnot
    rw [Json.get?_eq_none_iff.2 hnot] at hget
    cases hget
  have hother : (∀ fields selected, ¬(provider = .obj fields ∧ value = .obj selected)) →
      ∀ document', get? key document' = some provider → withoutSelected document' key value = document' := by
    intro hnone document' h
    unfold withoutSelected
    rw [if_neg hkey, h]
    split
    · next provider' selected heq =>
      exact absurd ⟨Option.some.inj heq, rfl⟩ (hnone provider' selected)
    · rfl
  by_cases hboth : ∃ fields selected, provider = .obj fields ∧ value = .obj selected
  · obtain ⟨fields, selected, rfl, rfl⟩ := hboth
    by_cases hrest : eraseAll selected fields = []
    · refine Or.inr (Or.inl fun document' h => ?_)
      rw [withoutSelected_provider hkey h, if_pos hrest]
    · refine Or.inr (Or.inr ⟨hmem, selected, fun document' h => ?_⟩)
      rw [withoutSelected_provider hkey h, if_neg hrest, providerFields, hget]
  · exact Or.inl (hother fun fields selected h => hboth ⟨fields, selected, h⟩)

/-- What is under another key stays. -/
theorem get?_withoutSelected_of_ne (h : j ≠ key) :
    get? j (withoutSelected document key value) = get? j document := by
  rcases withoutSelected_cases document key value with hsame | herase | ⟨-, rest, hset⟩
  · rw [hsame document rfl]
  · rw [herase document rfl, Json.get?_erase_of_ne h]
  · rw [hset document rfl, Json.get?_set_of_ne h]

/-- Another key is given its value before or after. -/
theorem withoutSelected_set_of_ne (h : j ≠ key) :
    withoutSelected (set j x document) key value = set j x (withoutSelected document key value) := by
  have hget : get? key (set j x document) = get? key document := Json.get?_set_of_ne h.symm
  rcases withoutSelected_cases document key value with hsame | herase | ⟨hmem, rest, hset⟩
  · rw [hsame _ hget, hsame document rfl]
  · rw [herase _ hget, herase document rfl, Json.erase_set_of_ne h]
  · rw [hset _ hget, hset document rfl, Json.set_comm h hmem]

/-- What was selected goes again. -/
theorem withoutSelected_placed (hx : Placed document key value x) :
    withoutSelected (set key x document) key value = withoutSelected document key value := by
  rcases hx with ⟨hkey⟩ | ⟨hkey, hprovider, selected⟩
  · exact (if_pos hkey).trans (Json.erase_set_self.trans (if_pos hkey).symm)
  rw [withoutSelected_provider hkey Json.get?_set_self, Json.eraseAll_overlay, Json.erase_set_self,
    Json.set_set_self]
  rcases hget : get? key document with _ | j
  · -- a new provider is emptied
    have hfields : providerFields document key = [] := by rw [providerFields, hget]
    rw [hfields, if_pos Json.eraseAll_nil, withoutSelected_absent hkey hget,
      Json.erase_of_not_mem (Json.get?_eq_none_iff.1 hget)]
  · rw [hprovider j hget] at hget
    rw [withoutSelected_provider hkey hget]

/-- No null stands in the place of what is selected. -/
def NoNulls (document selection : Fields) : Prop :=
  ∀ p ∈ selection, p.1 ≠ DEADLINE → get? p.1 document ≠ some .null

/-- That no object is laid over a null depends on the values under the selected keys. -/
theorem NoNulls.congr (h : NoNulls document selection)
    (hget : ∀ p ∈ selection, get? p.1 document' = get? p.1 document) : NoNulls document' selection := by
  intro p hp hkey
  rw [hget p hp]
  exact h p hp hkey

/-- The keys of the rest of a selection are others. -/
theorem ne_of_nodup (hnodup : (((key, value) :: selection).map Prod.fst).Nodup) :
    ∀ p ∈ selection, p.1 ≠ key := by
  rintro p hp rfl
  rw [List.map_cons, List.nodup_cons] at hnodup
  exact hnodup.1 (List.mem_map.2 ⟨p, hp, rfl⟩)

/-- It still holds once the first value is placed. -/
theorem NoNulls.tail (hnodup : (((key, value) :: selection).map Prod.fst).Nodup)
    (h : NoNulls document ((key, value) :: selection)) : NoNulls (set key x document) selection :=
  NoNulls.congr (fun p hp => h p (List.mem_cons_of_mem _ hp)) fun p hp =>
    Json.get?_set_of_ne (ne_of_nodup hnodup p hp)

/-- A selection of other keys makes no difference. -/
theorem selectAll_withoutSelected (hnodup : (selection.map Prod.fst).Nodup) (hnull : NoNulls document selection)
    (hkey : ∀ p ∈ selection, p.1 ≠ key) (h : selectAll document selection = some document') :
    selectAll (withoutSelected document key value) selection = some (withoutSelected document' key value) := by
  induction selection generalizing document with
  | nil =>
    obtain rfl := Option.some.inj h
    rfl
  | cons p selection ih =>
    obtain ⟨hp, hrest⟩ := List.forall_mem_cons.1 hkey
    obtain ⟨x, hx, h⟩ := selectAll_cons (hnull p List.mem_cons_self) h
    have htail := ih (List.Nodup.of_cons hnodup) (hnull.tail hnodup) hrest h
    rw [withoutSelected_set_of_ne hp] at htail
    rw [selectAll_of_placed (hx.congr (get?_withoutSelected_of_ne hp)), htail]

/-- **What is not selected is the same in both documents**, in the same order. -/
theorem unowned_selectAll (hnodup : (selection.map Prod.fst).Nodup) (hnull : NoNulls document selection)
    (h : selectAll document selection = some document') :
    unowned document' selection = unowned document selection := by
  induction selection generalizing document document' with
  | nil =>
    obtain rfl := Option.some.inj h
    rfl
  | cons p selection ih =>
    obtain ⟨x, hx, h⟩ := selectAll_cons (hnull p List.mem_cons_self) h
    have htail : selectAll (withoutSelected document p.1 p.2) selection
        = some (withoutSelected document' p.1 p.2) := by
      rw [← withoutSelected_placed hx]
      exact selectAll_withoutSelected (List.Nodup.of_cons hnodup) (hnull.tail hnodup) (ne_of_nodup hnodup) h
    have hnull' : NoNulls (withoutSelected document p.1 p.2) selection :=
      NoNulls.congr (fun q hq => hnull q (List.mem_cons_of_mem _ hq)) fun q hq =>
        get?_withoutSelected_of_ne (ne_of_nodup hnodup q hq)
    rw [unowned, List.foldl_cons, unowned, List.foldl_cons]
    exact ih (List.Nodup.of_cons hnodup) hnull' htail

end Unowned

/-! ### The merged document -/

section Merged

variable {original document : Fields} {key : Text} {value x : Json Text} {selection : Fields} {r : Json.Reader}

/-- A selection lays one value over the document for each of its keys. -/
theorem exists_placed (hnodup : (selection.map Prod.fst).Nodup) (hnull : NoNulls original selection)
    (h : selectAll original selection = some document) :
    ∃ placed : Fields, List.Forall₂ (fun p q => p.1 = q.1 ∧ Placed original p.1 p.2 q.2) selection placed ∧
      document = overlay placed original := by
  induction selection generalizing original with
  | nil => exact ⟨[], .nil, (Option.some.inj h).symm⟩
  | cons p selection ih =>
    obtain ⟨x, hx, h⟩ := selectAll_cons (hnull p List.mem_cons_self) h
    obtain ⟨placed, hplaced, rfl⟩ := ih (List.Nodup.of_cons hnodup) (hnull.tail hnodup) h
    refine ⟨(p.1, x) :: placed, .cons ⟨rfl, hx⟩ ?_, rfl⟩
    refine List.Forall₂.imp ?_ ((List.forall₂_and_left _ _).2 ⟨ne_of_nodup hnodup, hplaced⟩)
    rintro q q' ⟨hne, hkey, hq⟩
    exact ⟨hkey, hq.congr (Json.get?_set_of_ne hne).symm⟩

/-- What has been placed stands under its key. -/
theorem mem_of_placed {placed : Fields}
    (h : List.Forall₂ (fun p q => p.1 = q.1 ∧ Placed original p.1 p.2 q.2) selection placed) :
    placed.map Prod.fst = selection.map Prod.fst ∧
      ∀ p ∈ selection, ∃ x, Placed original p.1 p.2 x ∧ (p.1, x) ∈ placed := by
  induction h with
  | nil => exact ⟨rfl, List.forall_mem_nil _⟩
  | cons hpq _ ih =>
    obtain ⟨hkey, hx⟩ := hpq
    refine ⟨by rw [List.map_cons, List.map_cons, hkey, ih.1], List.forall_mem_cons.2 ⟨⟨_, hx, ?_⟩, ?_⟩⟩
    · rw [hkey]
      exact List.mem_cons_self
    · intro p hp
      obtain ⟨x, hx, hmem⟩ := ih.2 p hp
      exact ⟨x, hx, List.mem_cons_of_mem _ hmem⟩

/-- **A document that a selection was merged into**: the keys that were there stand first and in their
order, and so do the fields of a provider; what is selected has the selected values, and what
is not is as it was. -/
structure Merged (original selection document : Fields) : Prop where
  keys : document.map Prod.fst
    = original.map Prod.fst ++ (selection.map Prod.fst).filter fun k => k ∉ original.map Prod.fst
  off : ∀ key ∉ selection.map Prod.fst, get? key document = get? key original
  deadline : ∀ value, (DEADLINE, value) ∈ selection → get? DEADLINE document = some value
  provider : ∀ key selected, key ≠ DEADLINE → (key, .obj selected) ∈ selection →
    ∃ provider, get? key document = some (.obj provider) ∧
      Overlaid (providerFields original key) selected provider

/-- **A merged document keeps the frame of the original.** The induction is on the selection; each step
places one value, and what it leaves alone is what the others find. -/
theorem merged_of_selectAll (hnodup : (selection.map Prod.fst).Nodup) (hnull : NoNulls original selection)
    (hfields : ∀ key selected, (key, .obj selected) ∈ selection → (selected.map Prod.fst).Nodup)
    (h : selectAll original selection = some document) : Merged original selection document := by
  obtain ⟨placed, hplaced, rfl⟩ := exists_placed hnodup hnull h
  obtain ⟨hkeys, hmem⟩ := mem_of_placed hplaced
  have hover : Overlaid original placed (overlay placed original) := Json.overlaid_overlay (by rwa [hkeys])
  refine ⟨?_, ?_, ?_, ?_⟩
  · have hdocument := hover.keys
    rw [hkeys] at hdocument
    exact hdocument.trans (congrArg _ (List.filter_congr fun _ _ => decide_eq_decide.2 Iff.rfl))
  · rw [← hkeys]
    exact hover.off
  · intro value hvalue
    obtain ⟨x, hplaced, hx⟩ := hmem _ hvalue
    rcases hplaced with ⟨_⟩ | ⟨hne, _, _⟩
    · exact hover.on _ hx
    · exact absurd rfl hne
  · intro key selected hkey hselected
    obtain ⟨x, hplaced, hx⟩ := hmem _ hselected
    rcases hplaced with ⟨hdeadline⟩ | ⟨_, _, _⟩
    · exact absurd hdeadline hkey
    · exact ⟨_, hover.on _ hx, Json.overlaid_overlay (hfields key selected hselected)⟩

/-- The values of a provider are as readable as the document. -/
theorem readable_providerFields (h : (Json.obj original).Readable r) :
    (Json.obj (providerFields original key)).Readable r := by
  rw [providerFields]
  split
  · next fields hget => exact Json.readable_of_get? h hget
  · exact ⟨List.nodup_nil, trivial⟩

/-- What is placed is read back if the original and the selection are. -/
theorem readable_placed (h : (Json.obj original).Readable r) (hvalue : value.Readable r)
    (hx : Placed original key value x) : x.Readable r := by
  rcases hx with ⟨-⟩ | ⟨-, -, selected⟩
  · exact hvalue
  · exact Json.readable_overlay (readable_providerFields h) hvalue

/-- So is the whole of a merged document. -/
theorem readable_merged (hselection : (Json.obj selection).Readable r) (hnull : NoNulls original selection)
    (horiginal : (Json.obj original).Readable r) (h : selectAll original selection = some document) :
    (Json.obj document).Readable r := by
  induction selection generalizing original with
  | nil =>
    obtain rfl := Option.some.inj h
    exact horiginal
  | cons p selection ih =>
    obtain ⟨hnodup, hkey, hvalue, hrest⟩ := hselection
    obtain ⟨x, hx, h⟩ := selectAll_cons (hnull p List.mem_cons_self) h
    refine ih ⟨List.Nodup.of_cons hnodup, hrest⟩ (hnull.tail hnodup) ?_ h
    exact Json.readable_set horiginal hkey (readable_placed horiginal hvalue hx)

/-- And so is what is left of it when a selected value is taken away. -/
theorem readable_withoutSelected (h : (Json.obj document).Readable r) (hkey : key.Paired) :
    (Json.obj (withoutSelected document key value)).Readable r := by
  rcases withoutSelected_cases document key value with hsame | herase | ⟨-, selected, hset⟩
  · rwa [hsame document rfl]
  · rw [herase document rfl]
    exact Json.readable_erase h
  · rw [hset document rfl]
    exact Json.readable_set h hkey (Json.readable_eraseAll (readable_providerFields h))

/-- What a selection does not own of a document is read back if the document is. -/
theorem readable_unowned (h : (Json.obj document).Readable r) (hkeys : ∀ p ∈ selection, p.1.Paired) :
    (Json.obj (unowned document selection)).Readable r := by
  induction selection generalizing document with
  | nil => exact h
  | cons p selection ih =>
    obtain ⟨hkey, hrest⟩ := List.forall_mem_cons.1 hkeys
    exact ih (readable_withoutSelected h hkey) hrest

/-- What is selected stands in the merged document. -/
theorem isSelected_of_merged (hmerged : Merged original selection document)
    (hselection : (Json.obj selection).Readable r) {p : Text × Json Text} (hp : p ∈ selection)
    (hobject : p.1 ≠ DEADLINE → ∃ selected, p.2 = .obj selected) : isSelected document p.1 p.2 = true := by
  obtain ⟨key, value⟩ := p
  have hvalue : value.Readable r := ((Json.readable_obj_iff.1 hselection).2 _ hp).2
  unfold isSelected
  by_cases hkey : key = DEADLINE
  · subst hkey
    rw [if_pos rfl, hmerged.deadline value hp]
    exact Json.same_self hvalue
  · obtain ⟨selected, rfl⟩ := hobject hkey
    obtain ⟨provider, hget, hover⟩ := hmerged.provider key selected hkey hp
    rw [if_neg hkey, hget, List.all_eq_true]
    intro q hq
    rw [hover.on q hq]
    exact Json.same_self ((Json.readable_obj_iff.1 hvalue).2 q hq).2

end Merged

/-! ### Documents and their bytes -/

section Documents

variable {floatTexts : FloatTexts} {raw : Bytes} {document : Fields}

/-- A document in order is read from UTF-8 without a mark. -/
theorem orderedConfigDocument_eq_some :
    orderedConfigDocument floatTexts raw = some document ↔ ∃ t, Encoding.utf8 false raw = some t ∧
      Json.parse (mergeReader floatTexts) t = some (.obj document) := by
  rw [orderedConfigDocument]
  simp only [Option.bind_eq_bind, Option.bind_eq_some_iff]
  refine exists_congr fun t => and_congr_right fun _ => ?_
  split
  · next hparse => rw [hparse]; simp
  · next hnot =>
    refine iff_of_false nofun ?_
    intro hparse
    exact hnot _ hparse

/-- A document is read as a value that can be read back. -/
theorem readable_document (hfaithful : (mergeReader floatTexts).Faithful)
    (h : orderedConfigDocument floatTexts raw = some document) :
    (Json.obj document).Readable (mergeReader floatTexts) := by
  obtain ⟨t, ht, hparse⟩ := orderedConfigDocument_eq_some.1 h
  exact Json.readable_of_parse hfaithful (Encoding.utf8_eq_some_iff.1 ht).2 hparse

/-- **A document that is written is read back.** -/
theorem orderedConfigDocument_write (h : (Json.obj document).Readable (mergeReader floatTexts)) :
    orderedConfigDocument floatTexts (Encoding.ascii ((Json.Style.ascii [.ch ' ']).write (.obj document)))
      = some document :=
  orderedConfigDocument_eq_some.2 ⟨_, h.utf8_write (by decide), h.parse_ascii (by decide)⟩

/-! ### What is validated and what is accepted -/

variable {F : Type} {floats : Floats F} {limit : ℕ}

/-- A result that is collected without an issue is there. -/
theorem collected_eq_nil {α : Type} {key : ProviderKey} {default config : α} {result : Except String α}
    (h : collected true key default result = .ok (config, [])) : result = .ok config := by
  rcases result with message | config'
  · cases h
  · obtain ⟨rfl, -⟩ := Prod.mk.inj (Except.ok.inj h)
    rfl

/-- A mapping is an object. -/
theorem mapping_eq_ok {x : Json Text} {fields : Fields} (h : mapping x = .ok fields) : x = .obj fields := by
  rcases x with _ | _ | _ | _ | _ | _ | fields'
  case obj =>
    obtain rfl := Except.ok.inj h
    rfl
  all_goals cases h

/-- Where the value of a key or its default is an object, it is no null. -/
theorem ne_null_of_getD {fields provider : Fields} {key : String}
    (h : (Json.field? key fields).getD (.obj []) = .obj provider) :
    get? (Text.ofString key) fields ≠ some .null := by
  intro hnull
  rw [Json.field?, hnull] at h
  cases h

/-- Providers of a valid document are no nulls. -/
theorem noNull_of_fromMapping {value : Json Text} {config : LocalConfig F}
    (h : LocalConfig.fromMapping floats true value = .ok (config, [])) :
    ∃ fields, value = .obj fields ∧ get? (Text.ofString "codex") fields ≠ some .null ∧
      get? (Text.ofString "opencode_go") fields ≠ some .null := by
  rw [LocalConfig.fromMapping] at h
  split_ifs at h
  obtain ⟨fields, hfields, h⟩ := bind_eq_ok_iff.1 h
  obtain ⟨-, -, h⟩ := bind_eq_ok_iff.1 h
  obtain ⟨⟨codex, invalid⟩, hcodex, h⟩ := bind_eq_ok_iff.1 h
  obtain ⟨⟨opencodeGo, invalid'⟩, hopencodeGo, h⟩ := bind_eq_ok_iff.1 h
  obtain ⟨deadline, -, h⟩ := bind_eq_ok_iff.1 h
  obtain ⟨-, hinvalid⟩ := Prod.mk.inj (Except.ok.inj h)
  obtain ⟨rfl, rfl⟩ := List.append_eq_nil_iff.1 hinvalid
  obtain ⟨provider, hprovider, -⟩ := bind_eq_ok_iff.1 (collected_eq_nil hcodex)
  obtain ⟨provider', hprovider', -⟩ := bind_eq_ok_iff.1 (collected_eq_nil hopencodeGo)
  exact ⟨fields, mapping_eq_ok hfields, ne_null_of_getD (mapping_eq_ok hprovider),
    ne_null_of_getD (mapping_eq_ok hprovider')⟩

/-- A null is a null to every reader. -/
theorem get?_null_of_bare {fields fields' : Fields} {key : Text}
    (hbare : (Json.obj fields).bare = (Json.obj fields').bare) (h : get? key fields = some .null) :
    get? key fields' = some .null := by
  have hfields : Json.bareFields fields = Json.bareFields fields' := Json.obj.inj hbare
  have hget := (Json.get?_bareFields key fields).symm.trans
    ((congrArg (get? key) hfields).trans (Json.get?_bareFields key fields'))
  rw [h] at hget
  rcases hget' : get? key fields' with _ | x
  · rw [hget'] at hget
    cases hget
  · rw [hget'] at hget
    rcases x with _ | _ | _ | _ | _ | _ | _
    case null => rfl
    all_goals cases hget

/-- A document that is valid has no null in the place of a provider. -/
theorem noNull_of_validate {config : LocalConfig F} (hstrict : (mergeReader floatTexts).Strict)
    (hvalid : validateConfigDocument floats limit true raw = .ok (config, []))
    (h : orderedConfigDocument floatTexts raw = some document) :
    get? (Text.ofString "codex") document ≠ some .null ∧
      get? (Text.ofString "opencode_go") document ≠ some .null := by
  obtain ⟨t, ht, hparse⟩ := orderedConfigDocument_eq_some.1 h
  rw [validateConfigDocument, ht] at hvalid
  dsimp only at hvalid
  rw [ofText] at hvalid
  split at hvalid
  · cases hvalid
  next value hvalue =>
  split_ifs at hvalid
  split at hvalid
  · cases hvalid
  next result hresult =>
  obtain rfl := Except.ok.inj hvalid
  obtain ⟨fields, rfl, hcodex, hopencodeGo⟩ := noNull_of_fromMapping hresult
  have hbare := Json.bare_eq_of_parse hstrict ⟨fun _ => rfl, rfl⟩ hparse hvalue
  exact ⟨fun hnull => hcodex (get?_null_of_bare hbare hnull),
    fun hnull => hopencodeGo (get?_null_of_bare hbare hnull)⟩

/-- What is accepted under a key: a deadline, or an object for a provider. -/
theorem validSelected_cases {key : Text} {value : Json Text} (h : validSelected key value = true) :
    key = DEADLINE ∨ (key = Text.ofString "codex" ∨ key = Text.ofString "opencode_go") ∧
      ∃ selected, value = .obj selected := by
  rw [validSelected] at h
  split at h
  · cases h
  · next allowed hallowed =>
    by_cases hkey : key = Text.ofString "deadline_seconds"
    · exact Or.inl hkey
    rw [if_neg hkey] at h
    refine Or.inr ⟨?_, ?_⟩
    · rw [selectionFields, if_neg hkey] at hallowed
      by_contra hnot
      rw [not_or] at hnot
      rw [if_neg hnot.1, if_neg hnot.2] at hallowed
      cases hallowed
    · split at h
      · exact ⟨_, rfl⟩
      · cases h

/-- In a selection that is valid each value is. -/
theorem validSelected_of_valid {selection : Fields} (h : validConfigSelection (.obj selection) = some selection) :
    ∀ p ∈ selection, validSelected p.1 p.2 = true := by
  rw [validConfigSelection] at h
  split_ifs at h with hall
  exact hall.2

end Documents

/-- **The frame of a merge**: where a document validates without invalid providers, and an accepted
selection is merged into it, the merged document is read as the original one with what is selected in
it, and as nothing else, and it passes the check that is made after the write. -/
theorem merge_frame {F : Type} (floats : Floats F) (limit : ℕ) {floatTexts : FloatTexts} {raw merged : Bytes}
    {selection : Fields} {config : LocalConfig F} (hfaithful : (mergeReader floatTexts).Faithful)
    (hvalid : validateConfigDocument floats limit true raw = .ok (config, []))
    (hselection : validConfigSelection (.obj selection) = some selection)
    (hread : (Json.obj selection).Readable (mergeReader floatTexts))
    (hmerge : mergeConfigSelection floatTexts raw selection = some merged) :
    ∃ original document, orderedConfigDocument floatTexts raw = some original ∧
      orderedConfigDocument floatTexts merged = some document ∧ Merged original selection document ∧
      verifyConfigReread floatTexts raw merged merged selection = true := by
  rw [mergeConfigSelection] at hmerge
  simp only [Option.bind_eq_bind, Option.bind_eq_some_iff] at hmerge
  obtain ⟨original, horiginal, document, hselect, hmerged⟩ := hmerge
  obtain rfl := Option.some.inj hmerged
  have haccepted := validSelected_of_valid hselection
  obtain ⟨hcodex, hopencodeGo⟩ := noNull_of_validate hfaithful.strict hvalid horiginal
  have hnull : NoNulls original selection := by
    intro p hp hkey
    rcases validSelected_cases (haccepted p hp) with hdeadline | ⟨hprovider, -⟩
    · exact absurd hdeadline hkey
    · rcases hprovider with hp | hp
      · rwa [hp]
      · rwa [hp]
  have hreadable := Json.readable_obj_iff.1 hread
  have hdocument : (Json.obj document).Readable (mergeReader floatTexts) :=
    readable_merged hread hnull (readable_document hfaithful horiginal) hselect
  have hmerged : Merged original selection document := by
    refine merged_of_selectAll hreadable.1 hnull (fun key selected hmem => ?_) hselect
    exact (Json.readable_obj_iff.1 (hreadable.2 _ hmem).2).1
  have hreread := orderedConfigDocument_write hdocument
  refine ⟨original, document, horiginal, hreread, hmerged, ?_⟩
  rw [verifyConfigReread, horiginal, hreread]
  simp only [Bool.and_eq_true, List.all_eq_true, beq_self_eq_true, and_true]
  constructor
  · intro p hp
    refine isSelected_of_merged hmerged hread hp fun hkey => ?_
    exact ((validSelected_cases (haccepted p hp)).resolve_left hkey).2
  · rw [unowned_selectAll hreadable.1 hnull hselect]
    exact Json.same_self (readable_unowned (readable_document hfaithful horiginal) fun p hp =>
      (hreadable.2 p hp).1)

/-- A document that says that a provider is not enabled. -/
def disabledRaw : Bytes := Encoding.ascii (Text.ofString "\x7b\"codex\": \x7b\"enabled\": false\x7d\x7d")

/-- A selection of a runner, and of a deadline. -/
def enabledSelection : Fields :=
  [(Text.ofString "codex", .obj [(Text.ofString "enabled", .bool true),
    (Text.ofString "runner", .str (Text.ofString "C:\\codex.exe"))]), (DEADLINE, .int 30)]

/-- The selection that enables a provider is read back by every reader. -/
theorem readable_enabledSelection (r : Json.Reader) : (Json.obj enabledSelection).Readable r := by
  have hpaired : ∀ s : String, (Text.ofString s).Paired := fun s =>
    Json.paired_of_spelled (Encoding.spelled_ofChars s.toList)
  have hdigits : (DecimalText.natText (30 : ℤ).natAbs).length ≤ Json.maxDigits := by decide +kernel
  exact ⟨by decide, hpaired _, ⟨by decide, hpaired _, trivial, hpaired _, hpaired _, trivial⟩, hpaired _, hdigits,
    trivial⟩

/-- A provider is enabled in a document in which it was not, and the rest is as it was. -/
theorem merge_frame_enabled : ∃ merged, mergeConfigSelection (fun _ => none) disabledRaw enabledSelection
      = some merged ∧
    ∃ original document, orderedConfigDocument (fun _ => none) disabledRaw = some original ∧
      orderedConfigDocument (fun _ => none) merged = some document ∧ Merged original enabledSelection document ∧
      verifyConfigReread (fun _ => none) disabledRaw merged merged enabledSelection = true := by
  have hfaithful : (mergeReader fun _ => none).Faithful := ⟨nofun, fun _ => rfl, rfl⟩
  have hvalid : validateConfigDocument wholeFloats 100 true disabledRaw
      = .ok (⟨⟨false, none, 7⟩, ⟨false, 7⟩, 7⟩, []) := by decide +kernel
  obtain ⟨merged, hmerged⟩ := Option.isSome_iff_exists.1
    (by decide +kernel : (mergeConfigSelection (fun _ => none) disabledRaw enabledSelection).isSome = true)
  exact ⟨merged, hmerged, merge_frame wholeFloats 100 hfaithful hvalid rfl (readable_enabledSelection _) hmerged⟩

end ConfigApply

end YasbLimitora

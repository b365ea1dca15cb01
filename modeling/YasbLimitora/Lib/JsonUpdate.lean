import Mathlib
import YasbLimitora.Lib.JsonOrder

/-!
# Changing the fields of an object

What `Json.set` and `Json.erase` do to what is looked up, and how they pass each other. Fields may
be laid over others, one after the other: that keeps the order of the keys that were there
(`Json.overlaid_overlay`), and it is undone by taking the same keys out
(`Json.eraseAll_overlay`).

What can be read back is the same as itself (`Json.same_self`), and stays readable when its
fields change.

Documents are updated by replacing fields: a key that is there keeps its place, and a new key comes
last. The laws of one key are those of a finite map, and the order is tracked beside them by the
list of keys (`Json.keys_set`), because a writer that keeps the order of the document shows it to
the user.

The relation `Json.Overlaid` says of two objects what an update may do to the first: the keys that
were there stay in their order, those that are new stand behind them, and nothing else is looked up
differently than before.
-/

namespace Json

/-! ### One key -/

section Keys

variable {σ : Type} [DecidableEq σ] {fields : List (σ × Json σ)} {j k : σ} {x y : Json σ}

/-- Nothing is found under a key that is not there. -/
theorem get?_eq_none_iff : get? k fields = none ↔ k ∉ fields.map Prod.fst := by
  induction fields with
  | nil => exact iff_of_true rfl (List.not_mem_nil)
  | cons p fields ih =>
    rw [get?, List.map_cons, List.mem_cons, not_or, ← ih]
    split_ifs with hk
    · exact iff_of_false not_false fun h => h.1 hk.symm
    · exact (and_iff_right (Ne.symm hk)).symm

/-- What is set is found. -/
@[simp] theorem get?_set_self : get? k (set k x fields) = some x := by
  induction fields with
  | nil => exact if_pos rfl
  | cons p fields ih =>
    rw [set]
    split_ifs with hk
    · exact if_pos hk
    · rw [get?, if_neg hk, ih]

/-- What stands under another key is as it was. -/
theorem get?_set_of_ne (h : j ≠ k) : get? j (set k x fields) = get? j fields := by
  induction fields with
  | nil => exact if_neg (Ne.symm h)
  | cons p fields ih =>
    rw [set]
    split_ifs with hk
    · rw [get?, get?, if_neg (fun hj => h (hj.symm.trans hk)), if_neg (fun hj => h (hj.symm.trans hk))]
    · rw [get?, get?, ih]

/-- A field is erased from the front on. -/
theorem erase_cons (p : σ × Json σ) :
    erase k (p :: fields) = if p.1 = k then erase k fields else p :: erase k fields := by
  rw [erase, List.filter_cons]
  by_cases hk : p.1 = k
  · rw [if_pos hk, if_neg (by simp [hk])]
    rfl
  · rw [if_neg hk, if_pos (by simp [hk])]
    rfl

/-- What stands under another key is still there. -/
theorem get?_erase_of_ne (h : j ≠ k) : get? j (erase k fields) = get? j fields := by
  induction fields with
  | nil => rfl
  | cons p fields ih =>
    rw [erase_cons, get?]
    split_ifs with hk hj hj
    · exact absurd (hj.symm.trans hk) h
    · exact ih
    · rw [get?, if_pos hj]
    · rw [get?, if_neg hj, ih]

/-- Nothing is erased under a key that is not there. -/
theorem erase_of_not_mem (h : k ∉ fields.map Prod.fst) : erase k fields = fields := by
  refine List.filter_eq_self.2 fun p hp => decide_eq_true ?_
  rintro rfl
  exact h (List.mem_map_of_mem hp)

/-- What is set is erased again. -/
@[simp] theorem erase_set_self : erase k (set k x fields) = erase k fields := by
  induction fields with
  | nil => rw [set, erase_cons, if_pos rfl]
  | cons p fields ih =>
    rw [set]
    split_ifs with hk
    · rw [erase_cons, erase_cons, if_pos hk, if_pos hk]
    · rw [erase_cons, erase_cons, if_neg hk, if_neg hk, ih]

/-- Another key is taken out before or after. -/
theorem erase_set_of_ne (h : j ≠ k) : erase k (set j x fields) = set j x (erase k fields) := by
  induction fields with
  | nil => rw [set, erase_cons, if_neg h, erase, List.filter_nil, set]
  | cons p fields ih =>
    rw [set, erase_cons]
    split_ifs with hj hk hk
    · exact absurd (hj.symm.trans hk) h
    · rw [erase_cons, if_neg hk, set, if_pos hj]
    · rw [erase_cons, if_pos hk, ih]
    · rw [erase_cons, if_neg hk, set, if_neg hj, ih]

/-- What is set twice is what was set last. -/
@[simp] theorem set_set_self : set k y (set k x fields) = set k y fields := by
  induction fields with
  | nil => exact if_pos rfl
  | cons p fields ih =>
    rw [set]
    split_ifs with hk
    · rw [set, set, if_pos hk, if_pos hk]
    · rw [set, set, if_neg hk, if_neg hk, ih]

/-- A key that stands in the fields is given its value before or after another one. -/
theorem set_comm (h : j ≠ k) (hk : k ∈ fields.map Prod.fst) :
    set k y (set j x fields) = set j x (set k y fields) := by
  induction fields with
  | nil => cases hk
  | cons p fields ih =>
    rw [set, set]
    split_ifs with hj hp hp
    · exact absurd (hj.symm.trans hp) h
    · rw [set, set, if_neg hp, if_pos hj]
    · rw [set, set, if_pos hp, if_neg hj]
    · rw [List.map_cons, List.mem_cons] at hk
      rw [set, set, if_neg hp, if_neg hj, ih (hk.resolve_left (Ne.symm hp))]

/-- The keys stay in their order, and a new one comes last. -/
theorem keys_set : (set k x fields).map Prod.fst
    = fields.map Prod.fst ++ if k ∈ fields.map Prod.fst then [] else [k] := by
  induction fields with
  | nil => rfl
  | cons p fields ih =>
    rw [set]
    split_ifs with hp hk hk
    · exact (List.append_nil _).symm
    · exact absurd (List.mem_cons.2 (Or.inl hp.symm)) hk
    · rw [List.map_cons, List.mem_cons] at hk
      rw [List.map_cons, ih, if_pos (hk.resolve_left (Ne.symm hp))]
      rfl
    · rw [List.map_cons, List.mem_cons, not_or] at hk
      rw [List.map_cons, ih, if_neg hk.2]
      rfl

/-- What is there after a value was set was there before, or is that value. -/
theorem mem_set {p : σ × Json σ} (h : p ∈ set k x fields) : p = (k, x) ∨ p ∈ fields := by
  induction fields with
  | nil => exact Or.inl (List.mem_singleton.1 h)
  | cons q fields ih =>
    rw [set] at h
    split_ifs at h with hk
    · rcases List.mem_cons.1 h with rfl | hmem
      · exact Or.inl (Prod.ext hk rfl)
      · exact Or.inr (List.mem_cons_of_mem _ hmem)
    · rcases List.mem_cons.1 h with rfl | hmem
      · exact Or.inr List.mem_cons_self
      · exact (ih hmem).imp_right (List.mem_cons_of_mem _)

/-- No key is repeated by setting a value. -/
theorem nodup_set (h : (fields.map Prod.fst).Nodup) : ((set k x fields).map Prod.fst).Nodup := by
  rw [keys_set]
  split_ifs with hk
  · rwa [List.append_nil]
  · exact List.Nodup.append h (List.nodup_singleton k) (List.disjoint_singleton.2 hk)

end Keys

/-! ### Fields over fields -/

section Overlay

variable {σ : Type} [DecidableEq σ] {fields selected : List (σ × Json σ)} {k : σ} {x : Json σ}

/-- Fields are laid over others, one after the other. -/
def overlay (selected fields : List (σ × Json σ)) : List (σ × Json σ) :=
  selected.foldl (fun fields p => set p.1 p.2 fields) fields

/-- The keys of some fields are taken out of others. -/
def eraseAll (selected fields : List (σ × Json σ)) : List (σ × Json σ) :=
  selected.foldl (fun fields p => erase p.1 fields) fields

/-- A selected field is erased whatever was set in it. -/
theorem eraseAll_set (h : k ∈ selected.map Prod.fst) :
    eraseAll selected (set k x fields) = eraseAll selected fields := by
  induction selected generalizing fields with
  | nil => cases h
  | cons p selected ih =>
    rw [eraseAll, List.foldl_cons, eraseAll, List.foldl_cons]
    by_cases hk : k = p.1
    · rw [hk, erase_set_self]
    · rw [erase_set_of_ne hk]
      rw [List.map_cons, List.mem_cons] at h
      exact ih (h.resolve_left hk)

/-- **What is laid over goes with its keys.** -/
theorem eraseAll_overlay : eraseAll selected (overlay selected fields) = eraseAll selected fields := by
  have hpart : ∀ (part : List (σ × Json σ)), part ⊆ selected → ∀ fields,
      eraseAll selected (overlay part fields) = eraseAll selected fields := by
    intro part
    induction part with
    | nil => exact fun _ _ => rfl
    | cons p part ih =>
      intro hpart fields
      rw [List.cons_subset] at hpart
      rw [overlay, List.foldl_cons]
      exact (ih hpart.2 _).trans (eraseAll_set (List.mem_map_of_mem hpart.1))
  exact hpart selected (List.Subset.refl selected) fields

/-- Nothing is erased where nothing is. -/
theorem eraseAll_nil : eraseAll selected [] = [] := by
  induction selected with
  | nil => rfl
  | cons p selected ih => exact ih

/-- **Fields laid over others**: the keys that were there stand first and in their order, the new
ones after them. What is not selected is as it was. -/
structure Overlaid (fields selected document : List (σ × Json σ)) : Prop where
  keys : document.map Prod.fst
    = fields.map Prod.fst ++ (selected.map Prod.fst).filter fun k => k ∉ fields.map Prod.fst
  on : ∀ p ∈ selected, get? p.1 document = some p.2
  off : ∀ k ∉ selected.map Prod.fst, get? k document = get? k fields

/-- Keys that are given values one after the other, as long as they are distinct. -/
theorem keys_filter_set {l : List σ} (h : k ∉ l) :
    ((set k x fields).map Prod.fst ++ l.filter fun k' => k' ∉ (set k x fields).map Prod.fst)
      = fields.map Prod.fst ++ (k :: l).filter fun k' => k' ∉ fields.map Prod.fst := by
  rw [keys_set, List.filter_cons]
  by_cases hk : k ∈ fields.map Prod.fst
  · rw [if_pos hk, List.append_nil, if_neg (by simpa using hk)]
  · rw [if_neg hk, if_pos (by simpa using hk), List.append_assoc, List.singleton_append]
    have hfilter : ∀ k' ∈ l, decide (k' ∉ fields.map Prod.fst ++ [k]) = decide (k' ∉ fields.map Prod.fst) := by
      intro k' hk'
      have hne : k' ≠ k := by
        rintro rfl
        exact h hk'
      rw [decide_eq_decide, List.mem_append, List.mem_singleton, or_iff_left hne]
    rw [List.filter_congr hfilter]

/-- **Laying fields over others** sets each of them, and leaves the others in their order. -/
theorem overlaid_overlay (h : (selected.map Prod.fst).Nodup) :
    Overlaid fields selected (overlay selected fields) := by
  induction selected generalizing fields with
  | nil => exact ⟨by simp [overlay], nofun, fun _ _ => rfl⟩
  | cons p selected ih =>
    rw [List.map_cons, List.nodup_cons] at h
    have hrest : Overlaid (set p.1 p.2 fields) selected (overlay (p :: selected) fields) := ih h.2
    refine ⟨?_, ?_, ?_⟩
    · rw [hrest.keys, List.map_cons, keys_filter_set h.1]
    · rw [List.forall_mem_cons]
      exact ⟨(hrest.off p.1 h.1).trans get?_set_self, hrest.on⟩
    · intro k hk
      rw [List.map_cons, List.mem_cons, not_or] at hk
      rw [hrest.off k hk.2, get?_set_of_ne hk.1]

end Overlay

/-! ### Values that are read back -/

section Readable

variable {r : Reader} {fields selected : Fields} {k : Text} {x : Json Text}

/-- Fields are read back if their keys and their values are. -/
theorem readableFields_iff : ReadableFields r fields ↔ ∀ p ∈ fields, p.1.Paired ∧ p.2.Readable r := by
  induction fields with
  | nil => exact iff_of_true trivial (List.forall_mem_nil _)
  | cons p fields ih => rw [ReadableFields, List.forall_mem_cons, ih, and_assoc]

/-- So is an object, if no key is repeated. -/
theorem readable_obj_iff : (obj fields).Readable r ↔
    (fields.map Prod.fst).Nodup ∧ ∀ p ∈ fields, p.1.Paired ∧ p.2.Readable r := by
  rw [Readable, readableFields_iff]

/-- What is looked up in a readable object is readable. -/
theorem readable_of_get? (h : (obj fields).Readable r) (hx : get? k fields = some x) : x.Readable r :=
  ((readable_obj_iff.1 h).2 _ (mem_of_get? hx)).2

/-- An object in which a value was set is read back if the value is. -/
theorem readable_set (h : (obj fields).Readable r) (hk : k.Paired) (hx : x.Readable r) :
    (obj (set k x fields)).Readable r := by
  rw [readable_obj_iff] at h ⊢
  refine ⟨nodup_set h.1, fun p hp => ?_⟩
  rcases mem_set hp with rfl | hmem
  · exact ⟨hk, hx⟩
  · exact h.2 p hmem

/-- So is one of which a field was erased. -/
theorem readable_erase (h : (obj fields).Readable r) : (obj (erase k fields)).Readable r := by
  rw [readable_obj_iff] at h ⊢
  refine ⟨h.1.sublist (List.filter_sublist.map Prod.fst), fun p hp => ?_⟩
  exact h.2 p (List.mem_of_mem_filter hp)

/-- And one over which readable fields were laid. -/
theorem readable_overlay (h : (obj fields).Readable r) (hselected : (obj selected).Readable r) :
    (obj (overlay selected fields)).Readable r := by
  rw [readable_obj_iff] at hselected
  replace hselected := hselected.2
  induction selected generalizing fields with
  | nil => exact h
  | cons p selected ih =>
    rw [List.forall_mem_cons] at hselected
    exact ih (readable_set h hselected.1.1 hselected.1.2) hselected.2

/-- And what is left of one. -/
theorem readable_eraseAll (h : (obj fields).Readable r) : (obj (eraseAll selected fields)).Readable r := by
  induction selected generalizing fields with
  | nil => exact h
  | cons p selected ih => exact ih (readable_erase h)

mutual

/-- **What can be read back is the same as itself.** -/
theorem same_self : ∀ {j : Json Text}, j.Readable r → same j j = true
  | null, _ => rfl
  | bool b, _ => beq_self_eq_true b
  | int n, _ => beq_self_eq_true n
  | float t, _ => beq_self_eq_true t
  | str _, _ => decide_eq_true rfl
  | arr _, h => sameItems_self h
  | obj _, h => Bool.and_eq_true_iff.2
    ⟨beq_self_eq_true _, sameFields_of_get? h.2 fun _ hp => get?_of_mem h.1 hp⟩

theorem sameItems_self : ∀ {xs : List (Json Text)}, ReadableItems r xs → sameItems xs xs = true
  | [], _ => rfl
  | _ :: _, h => Bool.and_eq_true_iff.2 ⟨same_self h.1, sameItems_self h.2⟩

theorem sameFields_of_get? : ∀ {fields fields' : Fields}, ReadableFields r fields →
    (∀ p ∈ fields, get? p.1 fields' = some p.2) → sameFields fields fields' = true
  | [], _, _, _ => rfl
  | (k, x) :: fields, fields', h, hfields' => by
    obtain ⟨hk, hrest⟩ := List.forall_mem_cons.1 hfields'
    refine Bool.and_eq_true_iff.2 ⟨?_, sameFields_of_get? h.2.2 hrest⟩
    rw [hk]
    exact same_self h.2.1

end

end Readable

end Json

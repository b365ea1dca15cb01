import Mathlib
import YasbLimitora.Lib.JsonText
import YasbLimitora.Lib.Utf8

/-!
# Objects in the order of their keys

A writer may put the fields of every object in the order of their keys, `Json.ordered`. This
changes no value, only the order in which fields stand (`Json.orderFields_perm`), and once
it is done there is nothing left to do (`Json.orderFields_idem`).

Whether UTF-8 spells the text of a value is decided by its strings.

Order matters to a program that compares texts, or that keeps a digest of one; it must not matter to
one that compares values. What is looked up under a key does not depend on the order if no key is
there twice (`Json.get?_perm`), which is the one condition of all that is said here about permuted
objects: under it a list of fields is a finite map (`Json.get?_eq_some_iff`).

The sort is stable and by code points, as the encoders of several languages sort keys when asked to,
and it reaches into the items of arrays and the values of fields (`Json.ordered`).
-/

namespace Json

open DecimalText

/-- Keys in the order of their code points. -/
def keyLe (p q : Text × Json Text) : Prop := p.1.map CodePoint.value ≤ q.1.map CodePoint.value

instance : DecidableRel keyLe := fun p q =>
  inferInstanceAs (Decidable (p.1.map CodePoint.value ≤ q.1.map CodePoint.value))

instance : Std.Total keyLe := ⟨fun _ _ => le_total _ _⟩

instance : IsTrans (Text × Json Text) keyLe := ⟨fun _ _ _ => le_trans⟩

/-- Fields in the order of their keys. -/
def orderFields (fields : Fields) : Fields := fields.insertionSort keyLe

mutual

/-- A value with the fields of all of its objects in the order of their keys. -/
def ordered : Json Text → Json Text
  | arr items => arr (orderedItems items)
  | obj fields => obj (orderFields (orderedValues fields))
  | j => j

def orderedItems : List (Json Text) → List (Json Text)
  | [] => []
  | x :: xs => ordered x :: orderedItems xs

def orderedValues : List (Text × Json Text) → List (Text × Json Text)
  | [] => []
  | (k, x) :: fields => (k, ordered x) :: orderedValues fields

end

section Fields

variable {fields fields' : Fields}

/-- Ordering the fields of an object loses none of them. -/
theorem orderFields_perm (fields : Fields) : (orderFields fields).Perm fields :=
  List.perm_insertionSort keyLe fields

/-- Fields in order stay as they are. -/
theorem orderFields_idem (fields : Fields) : orderFields (orderFields fields) = orderFields fields :=
  (List.pairwise_insertionSort keyLe fields).insertionSort_eq

/-- Values that are in order stay as they are. -/
theorem orderedValues_of_forall (h : ∀ p ∈ fields, ordered p.2 = p.2) : orderedValues fields = fields := by
  induction fields with
  | nil => rfl
  | cons p fields ih =>
    obtain ⟨hp, hfields⟩ := List.forall_mem_cons.1 h
    rw [orderedValues, hp, ih hfields]

/-- Distinct keys stay distinct in another order. -/
theorem nodup_keys_perm (h : fields.Perm fields') :
    (fields.map Prod.fst).Nodup ↔ (fields'.map Prod.fst).Nodup :=
  (h.map Prod.fst).nodup_iff

/-- Fields are read back if their keys and their values are. -/
theorem plainFields_iff : PlainFields fields ↔ ∀ p ∈ fields, p.1.Paired ∧ p.2.Plain := by
  induction fields with
  | nil => exact iff_of_true trivial (List.forall_mem_nil _)
  | cons p fields ih => rw [PlainFields, List.forall_mem_cons, ih, and_assoc]

end Fields

/-! ### Looking a key up -/

section Lookup

variable {σ : Type} [DecidableEq σ] {fields fields' : List (σ × Json σ)} {k : σ} {x : Json σ}

/-- What is looked up is there. -/
theorem mem_of_get? (h : get? k fields = some x) : (k, x) ∈ fields := by
  induction fields with
  | nil => cases h
  | cons p fields ih =>
    rw [get?] at h
    split_ifs at h with hk
    · obtain rfl := Option.some.inj h
      exact List.mem_cons.2 (Or.inl (Prod.ext hk.symm rfl))
    · exact List.mem_cons_of_mem _ (ih h)

/-- Among distinct keys, what is there is looked up. -/
theorem get?_of_mem (hnodup : (fields.map Prod.fst).Nodup) (h : (k, x) ∈ fields) :
    get? k fields = some x := by
  induction fields with
  | nil => cases h
  | cons p fields ih =>
    rw [List.map_cons, List.nodup_cons] at hnodup
    rcases List.mem_cons.1 h with rfl | hmem
    · exact if_pos rfl
    · have hne : p.1 ≠ k := by
        rintro rfl
        exact hnodup.1 (List.mem_map.2 ⟨_, hmem, rfl⟩)
      rw [get?, if_neg hne]
      exact ih hnodup.2 hmem

/-- Where no key is repeated, what is found under a key is what stands there. -/
theorem get?_eq_some_iff (hnodup : (fields.map Prod.fst).Nodup) :
    get? k fields = some x ↔ (k, x) ∈ fields :=
  ⟨mem_of_get?, get?_of_mem hnodup⟩

/-- **The order of the fields does not matter.** -/
theorem get?_perm (hnodup : (fields.map Prod.fst).Nodup) (h : fields.Perm fields') :
    get? k fields = get? k fields' := by
  have hnodup' : (fields'.map Prod.fst).Nodup := (h.map Prod.fst).nodup_iff.1 hnodup
  ext x
  rw [get?_eq_some_iff hnodup, get?_eq_some_iff hnodup', h.mem_iff]

end Lookup

/-! ### Strings that UTF-8 spells -/

namespace Style

open Encoding (Spelled spelled_append)

/-- A string whose text can be spelled can be spelled itself. -/
theorem spelled_of_quote {s : Text} (h : Spelled (compact.quote s)) : Spelled s := by
  intro p hp hsurrogate
  rcases p with c | n
  · exact CodePoint.isSurrogate_char c hsurrogate
  · refine h (.surrogate n) ?_ hsurrogate
    have hflat : CodePoint.surrogate n ∈ s.flatMap compact.escape :=
      List.mem_flatMap.2 ⟨_, hp, List.mem_singleton_self _⟩
    exact List.mem_append.2 (Or.inl (List.mem_cons_of_mem _ hflat))

/-- The values of fields that can be spelled can be spelled. -/
theorem spelled_of_writeFields {st : Style} {fields : Fields} (h : Spelled (st.writeFields fields)) :
    ∀ p ∈ fields, Spelled (st.write p.2) := by
  induction fields with
  | nil => exact List.forall_mem_nil _
  | cons p fields ih =>
    simp only [writeFields, List.cons_append, List.append_assoc] at h
    refine List.forall_mem_cons.2 ⟨fun q hq => h q ?_, ih fun q hq => h q ?_⟩
    · simp [hq]
    · simp [hq]

/-- The values of an object whose text can be spelled. -/
theorem spelled_of_write_obj {st : Style} {fields : Fields} (h : Spelled (st.write (obj fields))) :
    ∀ p ∈ fields, Spelled (st.write p.2) := by
  rcases fields with _ | ⟨p, fields⟩
  · exact List.forall_mem_nil _
  · simp only [write, List.cons_append, List.append_assoc] at h
    refine List.forall_mem_cons.2 ⟨fun q hq => h q ?_, spelled_of_writeFields fun q hq => h q ?_⟩
    · simp [hq]
    · simp [hq]

end Style

/-- A text without surrogates is paired. -/
theorem paired_of_spelled {s : Text} (h : Encoding.Spelled s) : s.Paired := by
  induction s with
  | nil => exact List.isChain_nil
  | cons p s ih =>
    obtain ⟨hp, hs⟩ := List.forall_mem_cons.1 h
    exact (ih hs).cons fun q _ hq => hp ⟨hq.1.1, hq.1.2.trans (by decide)⟩

end Json

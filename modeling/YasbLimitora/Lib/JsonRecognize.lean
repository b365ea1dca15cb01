import Mathlib
import YasbLimitora.Lib.Except
import YasbLimitora.Lib.JsonString

/-!
# Checks that recognize what is written

A check of JSON values *recognizes* a writer when what it makes of a value is the one thing the
value was written of (`Json.Recognizes`): it takes nothing else, and it takes what was written of
all that is of some kind. Recognizing checks compose: over a value that may be null, over the
items of an array, and over the fields of an object whose keys are known.

A validator is a program that looks at one field after the other and raises at the first that is not
as it should be. Read in this way it is the inverse of a writer, and its specification is one set:
the records that it takes. The rules keep this set explicit: each check comes with the property of
the records that it recognizes, and the composed check with the conjunction.

The fields of an object are found by their keys, in any order for the one who looks, and in one
order for the one who compares the keys with a list (`Json.fields_eq`): then an object is the list
of what its checks have found. `Json.distinct` is the loop that looks at items which must differ in
something that it collects along the way.
-/

namespace Json

open YasbLimitora

variable {ε α : Type}

/-- A check takes what is written of the values of some kind, each for what it is, and no more. -/
def Recognizes (check : Json Text → Except ε α) (write : α → Json Text) (P : α → Prop) : Prop :=
  ∀ x a, check x = .ok a ↔ x = write a ∧ P a

/-- A check of a value that may be null. -/
def optionally (check : Json Text → Except ε α) : Json Text → Except ε (Option α)
  | .null => .ok none
  | x => some <$> check x

/-- The value of a key that an object is known to have. -/
def value (key : String) (fields : Fields) : Json Text := (field? key fields).getD .null

variable {check : Json Text → Except ε α} {write : α → Json Text} {P : α → Prop}

/-- What is not null is checked as it is. -/
theorem optionally_of_ne {x : Json Text} (h : x ≠ .null) : optionally check x = some <$> check x := by
  cases x with
  | null => exact absurd rfl h
  | _ => rfl

/-- A check that allows null recognizes null, and what it recognized before. -/
theorem Recognizes.optionally (h : Recognizes check write P) (hne : ∀ a, write a ≠ .null) :
    Recognizes (optionally check) (orNull write) fun o => ∀ a, o = some a → P a := by
  intro x o
  constructor
  · intro ho
    by_cases hx : x = .null
    · subst hx
      obtain rfl := Except.ok.inj ho
      exact ⟨rfl, nofun⟩
    · rw [optionally_of_ne hx] at ho
      obtain ⟨a, ha, rfl⟩ := map_eq_ok_iff.1 ho
      obtain ⟨rfl, hP⟩ := (h x a).1 ha
      refine ⟨rfl, ?_⟩
      rintro _ ⟨⟩
      exact hP
  · rintro ⟨rfl, hP⟩
    rcases o with _ | a
    · rfl
    · refine (optionally_of_ne (hne a)).trans ?_
      rw [(h _ a).2 ⟨rfl, hP a rfl⟩]
      rfl

/-- A check of every item of a list. -/
theorem Recognizes.mapM (h : Recognizes check write P) {items : List (Json Text)} {as : List α} :
    items.mapM check = .ok as ↔ items = as.map write ∧ ∀ a ∈ as, P a := by
  rw [mapM_eq_ok_iff]
  constructor
  · intro hall
    induction hall with
    | nil => exact ⟨rfl, List.forall_mem_nil _⟩
    | cons ha _ ih =>
      obtain ⟨rfl, hP⟩ := (h _ _).1 ha
      rw [ih.1]
      exact ⟨rfl, List.forall_mem_cons.2 ⟨hP, ih.2⟩⟩
  · rintro ⟨rfl, hP⟩
    rw [List.forall₂_map_left_iff]
    exact List.forall₂_same.2 fun a ha => (h _ a).2 ⟨rfl, hP a ha⟩

/-- A check of every item of a list, each of which has a key that those before it have not. -/
def distinct {κ : Type} (check : List κ → Json Text → Except ε α) (key : α → κ) (seen : List κ) :
    List (Json Text) → Except ε (List α)
  | [] => .ok []
  | x :: rest => do
    let first ← check seen x
    let others ← distinct check key (key first :: seen) rest
    return first :: others

/-- **A list without repetitions** is recognized if its items are, and their keys are distinct. The
induction is on the items, with the keys that came before. -/
theorem distinct_eq_ok_iff {κ : Type} {check : List κ → Json Text → Except ε α} {key : α → κ}
    (h : ∀ seen, Recognizes (check seen) write fun a => P a ∧ key a ∉ seen) {seen : List κ} {items : List (Json Text)}
    {as : List α} : distinct check key seen items = .ok as ↔
      items = as.map write ∧ (∀ a ∈ as, P a) ∧ (as.map key).Nodup ∧ ∀ a ∈ as, key a ∉ seen := by
  induction items generalizing seen as with
  | nil =>
    constructor
    · intro has
      obtain rfl := Except.ok.inj has
      exact ⟨rfl, List.forall_mem_nil _, List.nodup_nil, List.forall_mem_nil _⟩
    · rintro ⟨hitems, -⟩
      rw [List.map_eq_nil_iff.1 hitems.symm]
      rfl
  | cons x items ih =>
    constructor
    · intro has
      obtain ⟨first, hfirst, has⟩ := bind_eq_ok_iff.1 has
      obtain ⟨others, hothers, has⟩ := bind_eq_ok_iff.1 has
      obtain rfl := Except.ok.inj has
      obtain ⟨rfl, hP, hkey⟩ := (h seen _ _).1 hfirst
      obtain ⟨rfl, hall, hnodup, hfresh⟩ := ih.1 hothers
      refine ⟨rfl, List.forall_mem_cons.2 ⟨hP, hall⟩, ?_, List.forall_mem_cons.2 ⟨hkey, fun a ha hold => ?_⟩⟩
      · rw [List.map_cons, List.nodup_cons]
        refine ⟨fun hold => ?_, hnodup⟩
        obtain ⟨a, ha, heq⟩ := List.mem_map.1 hold
        exact hfresh a ha (List.mem_cons.2 (Or.inl heq))
      · exact hfresh a ha (List.mem_cons_of_mem _ hold)
    · rintro ⟨hitems, hall, hnodup, hfresh⟩
      rcases as with _ | ⟨first, others⟩
      · cases hitems
      rw [List.map_cons, List.cons.injEq] at hitems
      obtain ⟨rfl, hitems⟩ := hitems
      rw [List.forall_mem_cons] at hall hfresh
      rw [List.map_cons, List.nodup_cons] at hnodup
      refine bind_eq_ok_iff.2 ⟨first, (h seen _ _).2 ⟨rfl, hall.1, hfresh.1⟩, ?_⟩
      refine bind_eq_ok_iff.2 ⟨others, ih.2 ⟨hitems, hall.2, hnodup.2, fun a ha hold => ?_⟩, rfl⟩
      rcases List.mem_cons.1 hold with heq | hold
      · exact hnodup.1 (List.mem_map.2 ⟨a, ha, heq⟩)
      · exact hfresh.2 a ha hold

/-! ### The fields of an object -/

/-- A field is looked for from the front. -/
theorem field?_cons (key key' : String) (x : Json Text) (fields : Fields) :
    field? key ((Text.ofString key', x) :: fields) = if key' = key then some x else field? key fields := by
  by_cases h : key' = key
  · subst h
    rw [if_pos rfl]
    exact if_pos rfl
  · rw [if_neg h]
    exact if_neg fun heq => h (Text.ofString_injective heq)

/-- So is its value. -/
theorem value_cons (key key' : String) (x : Json Text) (fields : Fields) :
    value key ((Text.ofString key', x) :: fields) = if key' = key then x else value key fields := by
  rw [value, field?_cons]
  split
  · rfl
  · rfl

/-- The fields of an object with these keys are their values. -/
theorem fields_eq {words : List String} (hwords : words.Nodup) {fields : Fields}
    (h : fields.map Prod.fst = words.map Text.ofString) :
    fields = words.map fun word => (Text.ofString word, value word fields) := by
  induction words generalizing fields with
  | nil => exact List.map_eq_nil_iff.1 h
  | cons word words ih =>
    obtain ⟨⟨key, x⟩, rest, rfl, rfl, hrest⟩ := List.map_eq_cons_iff.1 h
    obtain ⟨hword, hwords⟩ := List.nodup_cons.1 hwords
    rw [List.map_cons, value_cons, if_pos rfl]
    refine congrArg (_ :: ·) ((ih hwords hrest).trans (List.map_congr_left fun w hw => ?_))
    have hne : word ≠ w := by
      rintro rfl
      exact hword hw
    rw [value_cons, if_neg hne]

end Json

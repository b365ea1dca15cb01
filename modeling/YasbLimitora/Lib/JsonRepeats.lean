import Mathlib
import YasbLimitora.Lib.JsonParse

/-!
# Why a text is refused

A reader that takes no object which repeats a key refuses a text for one of two reasons, and which of
the two it is may be told: it stops at the first thing that it does not take, and an object is refused
when its brace has been read. So the reason is found along the way of the parser, with the parser itself
to step over what it takes (`Json.repeatsFirst`).

A text is refused for that reason only if it is refused (`Json.repeatsFirst_of_parse`), and a reader that
lets keys be repeated never refuses one for it (`Json.repeatsValue_of_repeats`).
-/

namespace Json

section Repeats

variable (r : Reader)

mutual

/-- A value is refused for an object that repeats a key. -/
def repeatsValue : ℕ → Text → Bool
  | 0, _ => false
  | fuel + 1, l =>
    match l with
    | .ch '[' :: rest =>
      match skipBlanks rest with
      | .ch ']' :: _ => false
      | rest => repeatsItems fuel rest
    | .ch '{' :: rest =>
      match skipBlanks rest with
      | .ch '}' :: _ => false
      | rest =>
        match parseFields r fuel rest with
        | none => repeatsFields fuel rest
        | some (fields, _) => (object r fields).isNone
    | _ => false

/-- So is an item of an array, the first that is refused. -/
def repeatsItems : ℕ → Text → Bool
  | 0, _ => false
  | fuel + 1, l =>
    match parseValue r fuel l with
    | none => repeatsValue fuel l
    | some (_, rest) =>
      match skipBlanks rest with
      | .ch ',' :: rest => repeatsItems fuel (skipBlanks rest)
      | _ => false

/-- So is the value of a field. -/
def repeatsFields : ℕ → Text → Bool
  | 0, _ => false
  | fuel + 1, l =>
    match l with
    | .ch '"' :: rest =>
      match parseString rest with
      | none => false
      | some (_, rest) =>
        match skipBlanks rest with
        | .ch ':' :: rest =>
          match parseValue r fuel (skipBlanks rest) with
          | none => repeatsValue fuel (skipBlanks rest)
          | some (_, rest) =>
            match skipBlanks rest with
            | .ch ',' :: rest => repeatsFields fuel (skipBlanks rest)
            | _ => false
        | _ => false
    | _ => false

end

/-- The first thing that is refused in a text is an object that repeats a key. -/
def repeatsFirst (l : Text) : Bool := repeatsValue r (l.length + 1) (skipBlanks l)

end Repeats

/-! ### What is taken -/

section Taken

variable {r : Reader} {fuel : ℕ} {l rest : Text}

/-- Nothing is refused of what is read with some fuel. -/
structure NothingRepeats (r : Reader) (fuel : ℕ) : Prop where
  value : ∀ {l rest : Text} {j : Json Text}, parseValue r fuel l = some (j, rest) → repeatsValue r fuel l = false
  items : ∀ {l rest : Text} {xs : List (Json Text)}, parseItems r fuel l = some (xs, rest) →
    repeatsItems r fuel l = false
  fields : ∀ {l rest : Text} {fields : List (Text × Json Text)}, parseFields r fuel l = some (fields, rest) →
    repeatsFields r fuel l = false

theorem repeatsValue_of_some (ih : NothingRepeats r fuel) {j : Json Text}
    (h : parseValue r (fuel + 1) l = some (j, rest)) : repeatsValue r (fuel + 1) l = false := by
  unfold repeatsValue
  split
  · -- an array: its items are read
    next after =>
    rw [parseValue] at h
    split
    · rfl
    · next hopen =>
      split at h
      · next hclose => exact absurd hclose (hopen _)
      · simp only [Option.bind_eq_bind, Option.bind_eq_some_iff] at h
        obtain ⟨⟨items, rest'⟩, hitems, -⟩ := h
        exact ih.items hitems
  · -- an object: its fields are read, and no key comes twice
    next after =>
    rw [parseValue] at h
    split
    · rfl
    · next hopen =>
      split at h
      · next hclose => exact absurd hclose (hopen _)
      · simp only [Option.bind_eq_bind, Option.bind_eq_some_iff] at h
        obtain ⟨⟨fields, rest'⟩, hfields, hobject⟩ := h
        obtain ⟨j', hj', -⟩ := hobject
        rw [hfields]
        exact (congrArg Option.isNone hj').trans rfl
  · rfl

theorem repeatsItems_of_some (ih : NothingRepeats r fuel) {xs : List (Json Text)}
    (h : parseItems r (fuel + 1) l = some (xs, rest)) : repeatsItems r (fuel + 1) l = false := by
  unfold parseItems at h
  unfold repeatsItems
  simp only [Option.bind_eq_bind, Option.bind_eq_some_iff] at h
  obtain ⟨⟨x, after⟩, hx, h⟩ := h
  rw [hx]
  dsimp only at h ⊢
  split
  · next next_ hcomma =>
    rw [hcomma] at h
    simp only [Option.bind_eq_some_iff] at h
    obtain ⟨⟨items, rest'⟩, hitems, -⟩ := h
    exact ih.items hitems
  · rfl

theorem repeatsFields_of_some (ih : NothingRepeats r fuel) {fields : List (Text × Json Text)}
    (h : parseFields r (fuel + 1) l = some (fields, rest)) : repeatsFields r (fuel + 1) l = false := by
  unfold parseFields at h
  dsimp only at h
  split at h
  · next after =>
    simp only [Option.bind_eq_bind, Option.bind_eq_some_iff] at h
    obtain ⟨⟨k, after'⟩, hk, h⟩ := h
    rw [repeatsFields]
    dsimp only at h
    rw [hk]
    dsimp only
    split
    · next value hcolon =>
      rw [hcolon] at h
      simp only [Option.bind_eq_some_iff] at h
      obtain ⟨⟨x, after''⟩, hx, h⟩ := h
      rw [hx]
      dsimp only at h ⊢
      split
      · next more hcomma =>
        rw [hcomma] at h
        simp only [Option.bind_eq_some_iff] at h
        obtain ⟨⟨others, rest'⟩, hothers, -⟩ := h
        exact ih.fields hothers
      · rfl
    · rfl
  · cases h

theorem nothingRepeats (r : Reader) (fuel : ℕ) : NothingRepeats r fuel := by
  induction fuel with
  | zero => exact ⟨nofun, nofun, nofun⟩
  | succ fuel ih => exact ⟨repeatsValue_of_some ih, repeatsItems_of_some ih, repeatsFields_of_some ih⟩

/-- **Only a text that is refused is refused for a key.** -/
theorem repeatsFirst_of_parse {l : Text} {j : Json Text} (h : parse r l = some j) : repeatsFirst r l = false := by
  simp only [parse, Option.bind_eq_bind, Option.bind_eq_some_iff] at h
  obtain ⟨⟨x, rest⟩, hx, -⟩ := h
  exact (nothingRepeats r _).value hx

end Taken

/-! ### What is refused for its keys -/

/-- A reader that lets keys be repeated refuses nothing for that. -/
theorem repeatsValue_of_repeats {r : Reader} (hr : r.repeats = true) (fuel : ℕ) :
    (∀ l, repeatsValue r fuel l = false) ∧ (∀ l, repeatsItems r fuel l = false) ∧
      ∀ l, repeatsFields r fuel l = false := by
  induction fuel with
  | zero => exact ⟨fun _ => rfl, fun _ => rfl, fun _ => rfl⟩
  | succ fuel ih =>
    obtain ⟨hvalue, hitems, hfields⟩ := ih
    refine ⟨fun l => ?_, fun l => ?_, fun l => ?_⟩
    · unfold repeatsValue
      split
      · split
        · rfl
        · exact hitems _
      · split
        · rfl
        split
        · exact hfields _
        · rw [object, if_pos (Or.inl hr)]
          rfl
      · rfl
    · unfold repeatsItems
      split
      · exact hvalue _
      split
      · exact hitems _
      · rfl
    · unfold repeatsFields
      split
      swap
      · rfl
      split
      · rfl
      split
      swap
      · rfl
      split
      · exact hvalue _
      split
      · exact hfields _
      · rfl

end Json

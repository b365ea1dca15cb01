import Mathlib
import YasbLimitora.Lib.Text

/-!
# Texts without a word

When a text that is put together of others has a word in it (`Text.hasWord`, `Text.hasWords`). A
word is found where its letters are, one after another, so that a code point that is no letter of
it stands between what is before and what is after (`Text.hasWord_append`). Two words may have such
a code point between them: there the next one must be foreign too, or the first one a line break
(`Text.hasWords_append`).

Texts are also cut off and changed. What has no word keeps none where it is cut off
(`Text.hasWord_of_append`), and where letters are exchanged for others that are taken for the same,
as a change between small letters and capitals does (`Text.hasWord_congr`). A filter for words that
was passed by the parts of a text is therefore passed by the text, as long as its parts are put
together with separators that are no letters.
-/

namespace Text

variable {word word' : List Char} {p : CodePoint} {t u : Text}

/-! ### Code points between words -/

/-- A code point that is no letter of a word. -/
def Foreign (word : List Char) (p : CodePoint) : Prop := ∀ c ∈ word, isLetter c p = false

theorem foreign_iff : (word.all fun c => !isLetter c p) = true ↔ Foreign word p := by
  rw [List.all_eq_true, Foreign]
  exact forall₂_congr fun c _ => Bool.not_eq_eq_eq_not

instance (word : List Char) (p : CodePoint) : Decidable (Foreign word p) := decidable_of_iff _ foreign_iff

theorem afterWord_cons (c : Char) (word : List Char) (p : CodePoint) (t : Text) :
    afterWord (c :: word) (p :: t) = if isLetter c p then afterWord word t else none := rfl

theorem afterWord_nil (h : word ≠ []) : afterWord word [] = none := by
  rcases word with _ | ⟨c, word⟩
  · exact absurd rfl h
  · rfl

/-- A word does not go on over a foreign code point. -/
theorem afterWord_append (h : Foreign word p) (t u : Text) :
    afterWord word (t ++ p :: u) = (afterWord word t).map (· ++ p :: u) := by
  induction word generalizing t with
  | nil => rfl
  | cons c word ih =>
    rw [Foreign, List.forall_mem_cons] at h
    rcases t with _ | ⟨q, t⟩
    · rw [List.nil_append, afterWord_cons, h.1, if_neg Bool.false_ne_true]
      rfl
    · rw [List.cons_append, afterWord_cons, afterWord_cons, ih h.2]
      split_ifs
      · rfl
      · rfl

/-- A word does not start with a foreign code point. -/
theorem afterWord_foreign (hword : word ≠ []) (h : Foreign word p) (u : Text) : afterWord word (p :: u) = none := by
  have happend := afterWord_append h [] u
  rwa [afterWord_nil hword] at happend

theorem hasWord_nil (hword : word ≠ []) : hasWord word [] = false := by
  change ((afterWord word []).isSome || false) = false
  rw [afterWord_nil hword]
  rfl

theorem hasWord_cons (word : List Char) (q : CodePoint) (t : Text) :
    hasWord word (q :: t) = ((afterWord word (q :: t)).isSome || hasWord word t) := by
  rw [hasWord, List.tails_cons, List.any_cons]
  rfl

/-- Nothing starts with a foreign code point. -/
theorem hasWord_foreign (hword : word ≠ []) (h : Foreign word p) (u : Text) : hasWord word (p :: u) = hasWord word u := by
  rw [hasWord_cons, afterWord_foreign hword h]
  rfl

/-- **A word is before a foreign code point, or after it.** -/
theorem hasWord_append (hword : word ≠ []) (h : Foreign word p) (t u : Text) :
    hasWord word (t ++ p :: u) = (hasWord word t || hasWord word u) := by
  induction t with
  | nil =>
    rw [List.nil_append, hasWord_foreign hword h, hasWord_nil hword]
    rfl
  | cons q t ih =>
    rw [List.cons_append, hasWord_cons, hasWord_cons, ih, ← List.cons_append, afterWord_append h, Option.isSome_map,
      Bool.or_assoc]

/-- A text of foreign code points alone has no word. -/
theorem hasWord_of_foreign (hword : word ≠ []) (h : ∀ q ∈ t, Foreign word q) : hasWord word t = false := by
  induction t with
  | nil => exact hasWord_nil hword
  | cons q t ih =>
    rw [List.forall_mem_cons] at h
    rw [hasWord_foreign hword h.1, ih h.2]

/-! ### Two words -/

/-- A text starts with two words. -/
def startsWords (word word' : List Char) (t : Text) : Bool :=
  (afterWord word t).any fun rest => (afterWord word' rest).isSome ||
    (rest.head?.any (· != .ch '\n') && (afterWord word' rest.tail).isSome)

/-- Two words are in a text where it starts with them, from somewhere on. -/
theorem hasWords_eq (word word' : List Char) (t : Text) : hasWords word word' t = t.tails.any (startsWords word word') := by
  unfold hasWords
  congr 1
  funext l
  unfold startsWords
  rcases afterWord word l with _ | rest
  · rfl
  · rcases rest with _ | ⟨q, rest⟩
    · rfl
    · rfl

theorem hasWords_nil (hword : word ≠ []) : hasWords word word' [] = false := by
  rw [hasWords_eq]
  change (startsWords word word' [] || false) = false
  rw [startsWords, afterWord_nil hword]
  rfl

theorem hasWords_cons (word word' : List Char) (q : CodePoint) (t : Text) :
    hasWords word word' (q :: t) = (startsWords word word' (q :: t) || hasWords word word' t) := by
  rw [hasWords_eq, hasWords_eq, List.tails_cons, List.any_cons]

/-- A code point that two words cannot have between them, with what is after it. -/
def Parts (word' : List Char) (p : CodePoint) (u : Text) : Prop := p = .ch '\n' ∨ ∀ q ∈ u.head?, Foreign word' q

/-- Two words do not go on over such a code point. -/
theorem startsWords_append (hword' : word' ≠ []) (h : Foreign word p) (h' : Foreign word' p) (hparts : Parts word' p u)
    (t : Text) : startsWords word word' (t ++ p :: u) = startsWords word word' t := by
  unfold startsWords
  rw [afterWord_append h]
  rcases afterWord word t with _ | rest
  · rfl
  rw [Option.map_some, Option.any_some, Option.any_some]
  rcases rest with _ | ⟨q, rest⟩
  · -- the first word ends where the code point stands
    rw [List.nil_append, afterWord_foreign hword' h', afterWord_nil hword', List.head?_cons, List.tail_cons,
      Option.any_some]
    rcases hparts with rfl | hforeign
    · rfl
    · have hnone : afterWord word' u = none := by
        rcases u with _ | ⟨q, u⟩
        · exact afterWord_nil hword'
        · exact afterWord_foreign hword' (hforeign q rfl) u
      rw [hnone, Option.isSome_none, Bool.and_false]
      rfl
  · rw [List.cons_append, ← List.cons_append, afterWord_append h', List.cons_append, List.tail_cons, List.tail_cons,
      afterWord_append h', Option.isSome_map, Option.isSome_map]
    rfl

/-- Nothing starts with a foreign code point. -/
theorem hasWords_foreign (hword : word ≠ []) (h : Foreign word p) (u : Text) :
    hasWords word word' (p :: u) = hasWords word word' u := by
  rw [hasWords_cons, startsWords, afterWord_foreign hword h]
  rfl

/-- **Two words are before such a code point, or after it.** -/
theorem hasWords_append (hword : word ≠ []) (hword' : word' ≠ []) (h : Foreign word p) (h' : Foreign word' p)
    (hparts : Parts word' p u) (t : Text) :
    hasWords word word' (t ++ p :: u) = (hasWords word word' t || hasWords word word' u) := by
  induction t with
  | nil =>
    rw [List.nil_append, hasWords_foreign hword h, hasWords_nil hword]
    rfl
  | cons q t ih =>
    rw [List.cons_append, hasWords_cons, hasWords_cons, ih, ← List.cons_append, startsWords_append hword' h h' hparts,
      Bool.or_assoc]

/-- A text of foreign code points alone has no two words. -/
theorem hasWords_of_foreign (hword : word ≠ []) (h : ∀ q ∈ t, Foreign word q) : hasWords word word' t = false := by
  induction t with
  | nil => exact hasWords_nil hword
  | cons q t ih =>
    rw [List.forall_mem_cons] at h
    rw [hasWords_foreign hword h.1, ih h.2]

/-! ### Texts that are cut off -/

theorem afterWord_of_append {rest : Text} (h : afterWord word t = some rest) (u : Text) :
    afterWord word (t ++ u) = some (rest ++ u) := by
  induction word generalizing t with
  | nil =>
    obtain rfl := Option.some.inj h
    rfl
  | cons c word ih =>
    rcases t with _ | ⟨q, t⟩
    · cases h
    · rw [afterWord_cons] at h
      split_ifs at h with hq
      rw [List.cons_append, afterWord_cons, if_pos hq, ih h]

/-- **A word of a text** is one of every text that goes on. -/
theorem hasWord_of_append (hword : word ≠ []) (u : Text) (h : hasWord word t = true) : hasWord word (t ++ u) = true := by
  induction t with
  | nil =>
    rw [hasWord_nil hword] at h
    cases h
  | cons q t ih =>
    rw [hasWord_cons, Bool.or_eq_true] at h
    rw [List.cons_append, hasWord_cons, Bool.or_eq_true, ← List.cons_append]
    refine h.imp (fun hstart => ?_) ih
    obtain ⟨rest, hrest⟩ := Option.isSome_iff_exists.1 hstart
    rw [afterWord_of_append hrest]
    rfl

theorem startsWords_of_append (u : Text) (h : startsWords word word' t = true) : startsWords word word' (t ++ u) = true := by
  unfold startsWords at h ⊢
  obtain ⟨rest, hrest, h⟩ := (Option.any_eq_true _ _).1 h
  rw [afterWord_of_append hrest, Option.any_some, Bool.or_eq_true]
  rw [Bool.or_eq_true, Bool.and_eq_true] at h
  rcases h with h | ⟨hbreak, h⟩
  · obtain ⟨rest', hrest'⟩ := Option.isSome_iff_exists.1 h
    rw [afterWord_of_append hrest']
    exact Or.inl rfl
  · rcases rest with _ | ⟨q, rest⟩
    · cases hbreak
    · obtain ⟨rest', hrest'⟩ := Option.isSome_iff_exists.1 h
      rw [List.tail_cons] at hrest'
      rw [List.cons_append, List.tail_cons, afterWord_of_append hrest', Bool.and_eq_true]
      exact Or.inr ⟨hbreak, rfl⟩

/-- **Two words of a text** are in every text that goes on. -/
theorem hasWords_of_append (hword : word ≠ []) (u : Text) (h : hasWords word word' t = true) :
    hasWords word word' (t ++ u) = true := by
  induction t with
  | nil =>
    rw [hasWords_nil hword] at h
    cases h
  | cons q t ih =>
    rw [hasWords_cons, Bool.or_eq_true] at h
    rw [List.cons_append, hasWords_cons, Bool.or_eq_true, ← List.cons_append]
    exact h.imp (startsWords_of_append u) ih

/-! ### Letters that are exchanged -/

/-- Two code points that are the same letters of some words, and both a line break or neither. -/
structure Alike (letters : List Char) (p q : CodePoint) : Prop where
  letter : ∀ c ∈ letters, isLetter c p = isLetter c q
  unbroken : (p != .ch '\n') = (q != .ch '\n')

variable {letters : List Char}

theorem afterWord_alike (hword : ∀ c ∈ word, c ∈ letters) (h : List.Forall₂ (Alike letters) t u) :
    Option.Rel (List.Forall₂ (Alike letters)) (afterWord word t) (afterWord word u) := by
  induction word generalizing t u with
  | nil => exact .some h
  | cons c word ih =>
    rw [List.forall_mem_cons] at hword
    rcases h with _ | ⟨hpq, hrest⟩
    · exact .none
    · rw [afterWord_cons, afterWord_cons, hpq.letter c hword.1]
      split_ifs
      · exact ih hword.2 hrest
      · exact .none

theorem isSome_afterWord_alike (hword : ∀ c ∈ word, c ∈ letters) (h : List.Forall₂ (Alike letters) t u) :
    (afterWord word t).isSome = (afterWord word u).isSome := by
  have hrel := afterWord_alike hword h
  generalize afterWord word t = x at hrel
  generalize afterWord word u = y at hrel
  rcases hrel with ⟨-⟩ | -
  · rfl
  · rfl

/-- **A text has the words** of one with other letters that are taken for the same. -/
theorem hasWord_congr (hword : ∀ c ∈ word, c ∈ letters) (h : List.Forall₂ (Alike letters) t u) :
    hasWord word t = hasWord word u := by
  induction h with
  | nil => rfl
  | cons hpq hrest ih => rw [hasWord_cons, hasWord_cons, ih, isSome_afterWord_alike hword (.cons hpq hrest)]

theorem startsWords_alike (hword : ∀ c ∈ word, c ∈ letters) (hword' : ∀ c ∈ word', c ∈ letters)
    (h : List.Forall₂ (Alike letters) t u) : startsWords word word' t = startsWords word word' u := by
  have hrel := afterWord_alike hword h
  unfold startsWords
  generalize afterWord word t = x at hrel
  generalize afterWord word u = y at hrel
  rcases hrel with @⟨rest, rest', hrest⟩ | -
  · rw [Option.any_some, Option.any_some, isSome_afterWord_alike hword' hrest]
    rcases hrest with _ | ⟨hpq, hrest⟩
    · rfl
    · rw [List.head?_cons, List.head?_cons, Option.any_some, Option.any_some, hpq.unbroken, List.tail_cons, List.tail_cons,
        isSome_afterWord_alike hword' hrest]
  · rfl

/-- **A text has the two words** of one with other letters that are taken for the same. -/
theorem hasWords_congr (hword : ∀ c ∈ word, c ∈ letters) (hword' : ∀ c ∈ word', c ∈ letters)
    (h : List.Forall₂ (Alike letters) t u) : hasWords word word' t = hasWords word word' u := by
  induction h with
  | nil => rfl
  | cons hpq hrest ih => rw [hasWords_cons, hasWords_cons, ih, startsWords_alike hword hword' (.cons hpq hrest)]

end Text

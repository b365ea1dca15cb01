import Mathlib
import YasbLimitora.Lib.Text

/-!
# Lines

How a text falls into lines, with their ends kept: `Text.splitLines`. There are more ends of a
line than the line feed, and a carriage return with a line feed after it is one of them.

What is split is put together again (`Text.flatten_splitLines`), in whole or in part
(`Text.splitLines_take_drop`); and two texts are split apart where the first is over
(`Text.splitLines_append`).

A program that rewrites a part of a text file works with lines, and leaves the others as they are.
What it leaves is the same bytes only if splitting loses nothing, and what it finds is a line of the
result only if what it writes falls into the same lines again. `Text.Closed` is the condition for
that: the end of a text ends a line, and does not go on with what comes after it, which a carriage
return does where a line feed follows.

A list of lines that a program has made itself is split as it was made (`Text.splitLines_lines`), if
each line is unbroken before its end and its end is one of the usual two (`Text.lineEnd_lf`,
`Text.lineEnd_crlf`).
-/

namespace Text

/-- What ends a line. -/
def isBreak (p : CodePoint) : Bool :=
  decide (p.value ∈ [0x0A, 0x0B, 0x0C, 0x0D, 0x1C, 0x1D, 0x1E, 0x85, 0x2028, 0x2029])

/-- A line is over at a code point, with a text after it. -/
def BreaksAt (p : CodePoint) (rest : Text) : Prop :=
  isBreak p = true ∧ ¬(p = .ch '\r' ∧ rest.head? = some (.ch '\n'))

instance (p : CodePoint) (rest : Text) : Decidable (BreaksAt p rest) :=
  inferInstanceAs (Decidable (_ ∧ _))

/-- A code point in front of the first line. -/
def push (p : CodePoint) : List Text → List Text
  | [] => [[p]]
  | l :: ls => (p :: l) :: ls

/-- `str.splitlines`, with the ends of the lines. -/
def splitLines : Text → List Text
  | [] => []
  | p :: rest => if BreaksAt p rest then [p] :: splitLines rest else push p (splitLines rest)

/-- A text whose last line is over, with a text after it. -/
def Closed (t rest : Text) : Prop := ∀ p, t.getLast? = some p → BreaksAt p rest

/-- A character in front of a line is in front of the text. -/
theorem flatten_push (p : CodePoint) (ls : List Text) : (push p ls).flatten = p :: ls.flatten := by
  rcases ls with _ | ⟨l, ls⟩ <;> rfl

/-- **No code point is lost.** -/
@[simp] theorem flatten_splitLines (t : Text) : (splitLines t).flatten = t := by
  induction t with
  | nil => rfl
  | cons p rest ih =>
    rw [splitLines]
    split_ifs
    · rw [List.flatten_cons, ih]
      rfl
    · rw [flatten_push, ih]

/-- A text with a character has a line. -/
theorem splitLines_ne_nil {t : Text} (h : t ≠ []) : splitLines t ≠ [] := by
  intro hnil
  have hflat := flatten_splitLines t
  rw [hnil] at hflat
  exact h hflat.symm

/-- Nothing is a closed line before whatever follows. -/
theorem closed_nil (rest : Text) : Closed [] rest := nofun

/-- Whether a line is over is seen from what comes next. -/
theorem BreaksAt.of_head {p : CodePoint} {rest rest' : Text}
    (h : rest'.head? = some (.ch '\n') → rest.head? = some (.ch '\n')) (hp : BreaksAt p rest) :
    BreaksAt p rest' := ⟨hp.1, fun hr => hp.2 ⟨hr.1, h hr.2⟩⟩

/-- Whether a line is closed depends on the first character that follows. -/
theorem Closed.of_head {t rest rest' : Text}
    (h : rest'.head? = some (.ch '\n') → rest.head? = some (.ch '\n')) (ht : Closed t rest) :
    Closed t rest' := fun p hp => (ht p hp).of_head h

/-- A line that is closed is closed without its first character. -/
theorem Closed.of_cons {p q : CodePoint} {t rest : Text} (h : Closed (p :: q :: t) rest) :
    Closed (q :: t) rest := fun r hr => h r (by rw [List.getLast?_cons_cons]; exact hr)

/-- A character in front of some lines leaves the lines after them alone. -/
theorem push_append (p : CodePoint) {ls : List Text} (h : ls ≠ []) (ms : List Text) :
    push p (ls ++ ms) = push p ls ++ ms := by
  rcases ls with _ | ⟨l, ls⟩
  · exact absurd rfl h
  · rfl

/-- **Texts are split apart where the first is over.** -/
theorem splitLines_append {t rest : Text} (h : Closed t rest) :
    splitLines (t ++ rest) = splitLines t ++ splitLines rest := by
  induction t with
  | nil => rfl
  | cons p t ih =>
    rcases t with _ | ⟨q, t⟩
    · have hp : BreaksAt p rest := h p rfl
      have hnil : BreaksAt p [] := ⟨hp.1, nofun⟩
      rw [List.singleton_append, splitLines, if_pos hp, splitLines, if_pos hnil]
      rfl
    · have hhead : BreaksAt p (q :: t ++ rest) ↔ BreaksAt p (q :: t) := Iff.rfl
      rw [List.cons_append, splitLines, splitLines, if_congr hhead rfl rfl, ih h.of_cons]
      split_ifs
      · rfl
      · exact push_append p (splitLines_ne_nil (List.cons_ne_nil _ _)) _

/-- What is known of the first line and of those after it. -/
structure FirstLine (t l : Text) (ls : List Text) : Prop where
  append : t = l ++ ls.flatten
  ne_nil : l ≠ []
  line : splitLines l = [l]
  rest : splitLines ls.flatten = ls
  closed : ls ≠ [] → Closed l ls.flatten

/-- The first line of a text ends where the line ends, or with the text. -/
theorem firstLine_of_splitLines {t l : Text} {ls : List Text} (h : splitLines t = l :: ls) :
    FirstLine t l ls := by
  have hsingle : ∀ p, splitLines [p] = [[p]] := fun p => by
    rw [splitLines]
    split_ifs <;> rfl
  induction t generalizing l with
  | nil => cases h
  | cons p rest ih =>
    rw [splitLines] at h
    split_ifs at h with hp
    · obtain ⟨rfl, rfl⟩ := List.cons.inj h
      have hflat := flatten_splitLines rest
      refine ⟨by rw [hflat]; rfl, List.cons_ne_nil _ _, hsingle p, by rw [hflat], fun _ q hq => ?_⟩
      obtain rfl := Option.some.inj hq
      rwa [hflat]
    · rcases hrest : splitLines rest with _ | ⟨l', ls'⟩
      · rw [hrest] at h
        obtain ⟨rfl, rfl⟩ := List.cons.inj h
        have hnil : rest = [] := by
          have hflat := flatten_splitLines rest
          rwa [hrest, List.flatten_nil, eq_comm] at hflat
        exact ⟨by rw [hnil]; rfl, List.cons_ne_nil _ _, hsingle p, rfl, fun hne => absurd rfl hne⟩
      · rw [hrest] at h
        obtain ⟨rfl, rfl⟩ := List.cons.inj h
        have hfirst := ih hrest
        obtain ⟨q, l, rfl⟩ := List.exists_cons_of_ne_nil hfirst.ne_nil
        -- the first line begins as the rest does
        have hline : ¬BreaksAt p (q :: l) := fun hbreaks => hp (hbreaks.of_head fun hhead => by
          rwa [hfirst.append] at hhead)
        refine ⟨congrArg (p :: ·) hfirst.append, List.cons_ne_nil _ _, ?_, hfirst.rest, fun hne r hr => ?_⟩
        · rw [splitLines, if_neg hline, hfirst.line]
          rfl
        · rw [List.getLast?_cons_cons] at hr
          exact hfirst.closed hne r hr

/-- Of two texts that are over, one after the other, the whole is over. -/
theorem Closed.append {t t' rest : Text} (h : Closed t (t' ++ rest)) (h' : Closed t' rest) :
    Closed (t ++ t') rest := by
  intro p hp
  rcases t' with _ | ⟨q, t'⟩
  · rw [List.append_nil] at hp
    exact h p hp
  · rw [List.getLast?_append_of_ne_nil _ (List.cons_ne_nil _ _)] at hp
    exact h' p hp

/-- A line that is closed before more text is closed before what comes after. -/
theorem Closed.of_append {t t' rest : Text} (h : Closed t (t' ++ rest)) : Closed t t' :=
  h.of_head fun hhead => by rw [List.head?_append, hhead, Option.some_or]

/-- **The first lines are the lines of what they make**, and so are the others. -/
theorem splitLines_take_drop {t : Text} {ls : List Text} (h : splitLines t = ls) (k : ℕ) :
    splitLines (ls.take k).flatten = ls.take k ∧ splitLines (ls.drop k).flatten = ls.drop k ∧
      (k < ls.length → Closed (ls.take k).flatten (ls.drop k).flatten) := by
  induction ls generalizing t k with
  | nil =>
    rw [List.take_nil, List.drop_nil]
    exact ⟨rfl, rfl, fun _ => closed_nil _⟩
  | cons l ls ih =>
    have hfirst := firstLine_of_splitLines h
    rcases k with _ | k
    · have hflat := flatten_splitLines t
      rw [h] at hflat
      exact ⟨rfl, by rw [List.drop_zero, hflat, h], fun _ => closed_nil _⟩
    · obtain ⟨htake, hdrop, hclosed⟩ := ih hfirst.rest k
      rw [List.take_succ_cons, List.drop_succ_cons, List.flatten_cons]
      by_cases hls : ls = []
      · subst hls
        rw [List.take_nil, List.drop_nil, List.flatten_nil, List.append_nil]
        exact ⟨hfirst.line, rfl, fun hlt => absurd hlt (by rw [List.length_singleton]; omega)⟩
      · have happend : (ls.take k).flatten ++ (ls.drop k).flatten = ls.flatten := by
          rw [← List.flatten_append, List.take_append_drop]
        have hover : Closed l ((ls.take k).flatten ++ (ls.drop k).flatten) := by
          rw [happend]
          exact hfirst.closed hls
        refine ⟨?_, hdrop, fun hlt => hover.append (hclosed (Nat.lt_of_succ_lt_succ hlt))⟩
        rw [splitLines_append hover.of_append, hfirst.line, htake, List.singleton_append]

/-! ### Lines that are written -/

/-- A text without a break goes on to the end of the line. -/
theorem splitLines_append_of_unbroken {l t m : Text} {ms : List Text} (hl : ∀ p ∈ l, isBreak p = false)
    (h : splitLines t = m :: ms) : splitLines (l ++ t) = (l ++ m) :: ms := by
  induction l with
  | nil => exact h
  | cons p l ih =>
    obtain ⟨hp, hl⟩ := List.forall_mem_cons.1 hl
    have hbreaks : ¬BreaksAt p (l ++ t) := fun hb => Bool.false_ne_true (hp.symm.trans hb.1)
    rw [List.cons_append, splitLines, if_neg hbreaks, ih hl]
    rfl

/-- An end of a line: it is one on its own, and over whatever comes after it. -/
structure LineEnd (newline : Text) : Prop where
  single : splitLines newline = [newline]
  closed : ∀ rest, Closed newline rest

/-- A line feed ends a line. -/
theorem lineEnd_lf : LineEnd [.ch '\n'] where
  single := rfl
  closed rest p hp := by
    obtain rfl := Option.some.inj hp
    exact ⟨rfl, fun h => absurd h.1 (by decide)⟩

/-- So does a carriage return with a line feed. -/
theorem lineEnd_crlf : LineEnd [.ch '\r', .ch '\n'] where
  single := rfl
  closed rest p hp := by
    obtain rfl := Option.some.inj hp
    exact ⟨rfl, fun h => absurd h.1 (by decide)⟩

section LineEnds

variable {newline : Text}

/-- A line end is not empty. -/
theorem LineEnd.ne_nil (hn : LineEnd newline) : newline ≠ [] := by
  rintro rfl
  exact List.cons_ne_nil _ _ hn.single.symm

/-- A line with its end is closed. -/
theorem LineEnd.closed_append (hn : LineEnd newline) (l rest : Text) : Closed (l ++ newline) rest := by
  intro p hp
  rw [List.getLast?_append_of_ne_nil _ hn.ne_nil] at hp
  exact hn.closed rest p hp

/-- **Lines that are written are read.** -/
theorem splitLines_lines (hn : LineEnd newline) {ls : List Text} (hls : ∀ l ∈ ls, ∀ p ∈ l, isBreak p = false)
    (rest : Text) : splitLines ((ls.map (· ++ newline)).flatten ++ rest)
      = ls.map (· ++ newline) ++ splitLines rest := by
  induction ls with
  | nil => rfl
  | cons l ls ih =>
    obtain ⟨hl, hls⟩ := List.forall_mem_cons.1 hls
    have hline : splitLines (l ++ newline) = [l ++ newline] :=
      splitLines_append_of_unbroken hl hn.single
    rw [List.map_cons, List.flatten_cons, List.append_assoc, splitLines_append (hn.closed_append l _), hline,
      ih hls]
    rfl

/-- A last line that is not over becomes one that is, and there is no other change. -/
theorem splitLines_append_lineEnd (hn : LineEnd newline) {t : Text} (h : t.getLast? ≠ some (.ch '\r')) :
    splitLines (t ++ newline) = splitLines t ++ [newline] ∨
      ∃ ls l, splitLines t = ls ++ [l] ∧ splitLines (t ++ newline) = ls ++ [l ++ newline] := by
  induction t with
  | nil => exact Or.inl hn.single
  | cons p t ih =>
    rcases t with _ | ⟨q, t⟩
    · have hp : BreaksAt p newline ↔ BreaksAt p [] := by
        refine and_congr_right fun _ => iff_of_true (fun hr => h ?_) nofun
        rw [hr.1]
        rfl
      rw [List.singleton_append, splitLines, splitLines, if_congr hp rfl rfl, hn.single]
      split_ifs
      · exact Or.inl rfl
      · exact Or.inr ⟨[], [p], rfl, rfl⟩
    · rw [List.getLast?_cons_cons] at h
      have hhead : BreaksAt p (q :: t ++ newline) ↔ BreaksAt p (q :: t) := Iff.rfl
      have hne := splitLines_ne_nil (List.cons_ne_nil q t)
      rw [List.cons_append, splitLines, splitLines, if_congr hhead rfl rfl]
      rcases ih h with heq | ⟨ls, l, hls, heq⟩
      · rw [heq]
        split_ifs
        · exact Or.inl rfl
        · exact Or.inl (push_append p hne _)
      · rw [heq, hls]
        split_ifs
        · exact Or.inr ⟨[p] :: ls, l, rfl, rfl⟩
        · rcases ls with _ | ⟨m, ls⟩
          · exact Or.inr ⟨[], p :: l, rfl, rfl⟩
          · exact Or.inr ⟨(p :: m) :: ls, l, rfl, rfl⟩

end LineEnds

end Text

import Mathlib
import YasbLimitora.EnvBlock.Rewrite

/-!
# Rewriting the managed block again

The line ends of the block are those that are the more frequent in the file as it is, the old
block with them. A second rewriting looks at the file with the new block, so that it may choose
differently, and the bytes then change: `YasbLimitora.EnvBlock.rewrite_again` says when they
do not. A file without a block is never concerned.

The counts of line ends are the whole state of the choice. The first rewriting takes some line ends
out with the old block and puts others in with the new one; all of the new ones are of the kind that
was chosen, and their number is known. So the condition under which the second choice is the first
is an inequality between counts of the file outside of the block, which is what
`YasbLimitora.EnvBlock.KeepsNewline` says.
-/

namespace YasbLimitora

namespace EnvBlock

open Encoding (Spelled utf8Bytes)
open Text (splitLines Closed isBreak)

/-! ### Counting line ends -/

section Counting

variable {l m : Bytes} {t rest : Text}

/-- The pairs of two stretches of bytes are theirs, and one more if it stands across the border. -/
theorem crlfs_append (l m : Bytes) : crlfs (l ++ m)
    = crlfs l + crlfs m + if l.getLast? = some 13 ∧ m.head? = some 10 then 1 else 0 := by
  induction l with
  | nil => simp [crlfs]
  | cons a l ih =>
    rw [List.cons_append, crlfs, ih, crlfs]
    rcases l with _ | ⟨b, l⟩
    · simp only [List.nil_append, List.getLast?_nil, List.getLast?_singleton, List.head?_nil, crlfs,
        Option.some_inj, reduceCtorEq, false_and, and_false, if_false]
      omega
    · rw [List.cons_append, List.head?_cons, List.head?_cons, List.getLast?_cons_cons]
      omega

/-- The line feeds are those of both. -/
theorem lfs_append (l m : Bytes) : lfs (l ++ m) = lfs l + lfs m := List.count_append

/-- A line feed at the front has no carriage return before it. -/
theorem crlfs_add_le_lfs (l : Bytes) : crlfs l + (if l.head? = some 10 then 1 else 0) ≤ lfs l := by
  induction l with
  | nil => exact le_rfl
  | cons a l ih =>
    rw [crlfs, lfs, List.count_cons, List.head?_cons]
    rw [lfs] at ih
    simp only [Option.some_inj, beq_iff_eq]
    by_cases ha : a = 10
    · subst ha
      rw [if_neg fun h => absurd h.1 (by decide), if_pos rfl]
      omega
    · rw [if_neg ha]
      by_cases hl : l.head? = some 10
      · rw [if_pos hl] at ih
        split_ifs <;> omega
      · rw [if_neg fun h => hl h.2]
        omega

/-- In each pair there is a line feed. -/
theorem crlfs_le_lfs (l : Bytes) : crlfs l ≤ lfs l := by
  have h := crlfs_add_le_lfs l
  omega

/-- Where a text is over, no line end is cut in two. -/
theorem crlfs_of_closed (h : Closed t rest) :
    crlfs (utf8Bytes (t ++ rest)) = crlfs (utf8Bytes t) + crlfs (utf8Bytes rest) := by
  have hlast := Encoding.getLast?_utf8Bytes (b := 13) (by decide) t
  have hhead := Encoding.head?_utf8Bytes (b := 10) (by decide) rest
  rw [Encoding.utf8Bytes_append, crlfs_append, if_neg, Nat.add_zero]
  rintro ⟨hcr, hlf⟩
  exact (h _ (hlast.1 hcr)).2 ⟨rfl, hhead.1 hlf⟩

/-- The line feeds of two texts are those of both. -/
theorem lfs_utf8Bytes (t t' : Text) : lfs (utf8Bytes (t ++ t')) = lfs (utf8Bytes t) + lfs (utf8Bytes t') := by
  rw [Encoding.utf8Bytes_append, lfs_append]

end Counting

section Written

variable {newline : Text}

/-- A text in one line has no line end. -/
theorem lfs_of_singleLine {l : Text} (h : SingleLine l) : lfs (utf8Bytes l) = 0 := by
  rw [lfs, Encoding.count_utf8Bytes (by decide), List.count_eq_zero]
  intro hmem
  exact absurd (h _ hmem) (by decide)

/-- In a single line there is no pair. -/
theorem crlfs_of_singleLine {l : Text} (h : SingleLine l) : crlfs (utf8Bytes l) = 0 := by
  have hle := crlfs_le_lfs (utf8Bytes l)
  rw [lfs_of_singleLine h] at hle
  omega

/-- A line that is written has the line end that it is written with. -/
theorem crlfs_line {l : Text} (h : SingleLine l) (newline : Text) :
    crlfs (utf8Bytes (l ++ newline)) = crlfs (utf8Bytes newline) := by
  have hlast : (utf8Bytes l).getLast? ≠ some 13 := fun hcr => by
    have hmem := List.mem_of_getLast? ((Encoding.getLast?_utf8Bytes (b := 13) (by decide) l).1 hcr)
    exact absurd (h _ hmem) (by decide)
  rw [Encoding.utf8Bytes_append, crlfs_append, crlfs_of_singleLine h, if_neg fun hr => hlast hr.1,
    Nat.zero_add, Nat.add_zero]

/-- The line ends of some lines are those that they were written with. -/
theorem counts_lines (hn : newline = LF ∨ newline = CRLF) {ls : List Text} (hls : ∀ l ∈ ls, SingleLine l) :
    lfs (utf8Bytes (ls.map (· ++ newline)).flatten) = ls.length ∧
      crlfs (utf8Bytes (ls.map (· ++ newline)).flatten) = ls.length * crlfs (utf8Bytes newline) := by
  induction ls with
  | nil => exact ⟨rfl, (Nat.zero_mul _).symm⟩
  | cons l ls ih =>
    obtain ⟨hl, hls⟩ := List.forall_mem_cons.1 hls
    obtain ⟨hlfs, hcrlfs⟩ := ih hls
    have hone : lfs (utf8Bytes newline) = 1 := by
      rcases hn with rfl | rfl
      all_goals rfl
    rw [List.map_cons, List.flatten_cons, List.length_cons]
    constructor
    · rw [lfs_utf8Bytes, lfs_utf8Bytes, lfs_of_singleLine hl, hone, hlfs]
      omega
    · rw [crlfs_of_closed ((lineEnd_of hn).closed_append l _), crlfs_line hl newline, hcrlfs]
      ring

/-- **The line ends of the block.** -/
theorem counts_blockText {invocation : Text} (h : SingleLine invocation) (hn : newline = LF ∨ newline = CRLF) :
    lfs (utf8Bytes (blockText invocation newline)) = 7 ∧
      crlfs (utf8Bytes (blockText invocation newline)) = if newline = CRLF then 7 else 0 := by
  obtain ⟨hlfs, hcrlfs⟩ := counts_lines hn (singleLine_blockLines h)
  rw [blockText_eq]
  refine ⟨hlfs, hcrlfs.trans ?_⟩
  rcases hn with rfl | rfl
  all_goals rfl

end Written

/-! ### The line ends that are chosen again -/

/-- The line ends of some bytes that have a carriage return, and those that have none, in two
parts. -/
def crlfsIn (before after : Bytes) : ℕ := crlfs before + crlfs after

def baresIn (before after : Bytes) : ℕ := (lfs before - crlfs before) + (lfs after - crlfs after)

/-- With seven line ends of one kind more, that kind is still the one to choose. -/
def KeepsChoice (newline : Text) (before after : Bytes) : Prop :=
  if newline = CRLF then baresIn before after ≤ crlfsIn before after + 7
  else crlfsIn before after < baresIn before after + 7

instance (newline : Text) (before after : Bytes) : Decidable (KeepsChoice newline before after) :=
  inferInstanceAs (Decidable (if newline = CRLF then baresIn before after ≤ crlfsIn before after + 7
    else crlfsIn before after < baresIn before after + 7))

/-- **The old block does not outweigh the rest of the file.** -/
def KeepsNewline (raw : Bytes) : Prop :=
  ∀ text first last, decodeContent raw = .ok text → locate (splitLines text) = .ok (some (first, last)) →
    KeepsChoice (newlineOf (splitBom raw).2) (bytesBefore (splitLines text) first)
      (bytesFrom (splitLines text) (last + 1))

section Again

variable {raw out : Bytes} {invocation newline text : Text} {before after : List Text}

/-- The choice in a file that was written. -/
theorem newlineOf_framed (hf : Frame raw before after) (hline : SingleLine invocation)
    (hn : newline = LF ∨ newline = CRLF) :
    newlineOf (utf8Bytes (framed before after (blockText invocation newline))) = newline ↔
      KeepsChoice newline (utf8Bytes before.flatten) (utf8Bytes after.flatten) := by
  obtain ⟨hlfs, hcrlfs⟩ := counts_blockText hline hn
  have hhead : (blockText invocation newline ++ after.flatten).head? = some (.ch '#') := by
    rw [List.head?_append, head?_blockText]
    rfl
  have hover : Closed (blockText invocation newline) after.flatten := by
    rw [blockText]
    exact (lineEnd_of hn).closed_append _ _
  have htotal : lfs (utf8Bytes (framed before after (blockText invocation newline)))
      = lfs (utf8Bytes before.flatten) + (7 + lfs (utf8Bytes after.flatten)) := by
    rw [framed, lfs_utf8Bytes, lfs_utf8Bytes, hlfs]
  have hpairs : crlfs (utf8Bytes (framed before after (blockText invocation newline)))
      = crlfs (utf8Bytes before.flatten) + ((if newline = CRLF then 7 else 0)
        + crlfs (utf8Bytes after.flatten)) := by
    rw [framed, crlfs_of_closed (hf.closed _ hhead), crlfs_of_closed hover, hcrlfs]
  have hbefore := crlfs_le_lfs (utf8Bytes before.flatten)
  have hafter := crlfs_le_lfs (utf8Bytes after.flatten)
  rw [newlineOf, htotal, hpairs, KeepsChoice, baresIn, crlfsIn]
  rcases hn with rfl | rfl
  · have hne : LF ≠ CRLF := by decide
    rw [if_neg hne, if_neg hne]
    split_ifs with hle
    · exact iff_of_false hne.symm (by omega)
    · exact iff_of_true rfl (by omega)
  · rw [if_pos rfl, if_pos rfl]
    split_ifs with hle
    · exact iff_of_true rfl (by omega)
    · exact iff_of_false (by decide) (by omega)

/-- What is put before a block has the line end that is chosen, or none. -/
theorem counts_separator (content : Bytes) : lfs (separator content) ≤ 1 ∧
    crlfs (separator content) = if newlineOf content = CRLF then lfs (separator content) else 0 := by
  unfold separator
  split_ifs with hover hcrlf hcrlf
  · exact ⟨Nat.zero_le _, rfl⟩
  · exact ⟨Nat.zero_le _, rfl⟩
  · rw [hcrlf]
    exact ⟨le_rfl, rfl⟩
  · rw [(newlineOf_cases content).resolve_right hcrlf]
    exact ⟨le_rfl, rfl⟩

/-- Where there is no block, the choice is kept. -/
theorem keepsChoice_of_none (hcontent : (splitBom raw).2 = utf8Bytes text) :
    KeepsChoice (newlineOf (splitBom raw).2) (utf8Bytes (text ++ separatorText (splitBom raw).2))
      (utf8Bytes []) := by
  obtain ⟨hone, hpairs⟩ := counts_separator (splitBom raw).2
  have hcounts : lfs (utf8Bytes (text ++ separatorText (splitBom raw).2))
        = lfs (splitBom raw).2 + lfs (separator (splitBom raw).2) ∧
      crlfs (utf8Bytes (text ++ separatorText (splitBom raw).2))
        = crlfs (splitBom raw).2 + crlfs (separator (splitBom raw).2) := by
    rw [Encoding.utf8Bytes_append, ← hcontent, ← separator_eq, lfs_append, crlfs_append]
    refine ⟨rfl, ?_⟩
    rw [if_neg, Nat.add_zero]
    rintro ⟨hcr, hlf⟩
    rw [separator, if_pos (Or.inr (Or.inr hcr))] at hlf
    cases hlf
  have hzero : lfs (utf8Bytes []) = 0 ∧ crlfs (utf8Bytes []) = 0 := ⟨rfl, rfl⟩
  rw [KeepsChoice, baresIn, crlfsIn, hcounts.1, hcounts.2, hzero.1, hzero.2, hpairs]
  by_cases hchoice : lfs (splitBom raw).2 - crlfs (splitBom raw).2 ≤ crlfs (splitBom raw).2
  · have hnewline : newlineOf (splitBom raw).2 = CRLF := if_pos hchoice
    rw [if_pos hnewline, if_pos hnewline]
    omega
  · have hnewline : newlineOf (splitBom raw).2 ≠ CRLF := by
      rw [newlineOf, if_neg hchoice]
      decide
    rw [if_neg hnewline, if_neg hnewline]
    omega

/-- **The choice is kept exactly if the old block does not outweigh the rest.** -/
theorem keepsNewline_iff {block : Option (ℕ × ℕ)} (hw : Rewritten raw invocation out text block) :
    KeepsNewline raw ↔ KeepsChoice (newlineOf (splitBom raw).2)
      (utf8Bytes (linesBefore (splitBom raw).2 text block).flatten)
      (utf8Bytes (linesAfter text block).flatten) := by
  have hunique : ∀ text' first last, decodeContent raw = .ok text' →
      locate (splitLines text') = .ok (some (first, last)) → text' = text ∧ block = some (first, last) := by
    intro text' first last hdecoded hlocated
    obtain rfl := Except.ok.inj (hdecoded.symm.trans hw.decoded)
    exact ⟨rfl, Except.ok.inj (hw.located.symm.trans hlocated)⟩
  rcases block with _ | ⟨first, last⟩
  · refine iff_of_true (fun text' first last hdecoded hlocated => ?_) ?_
    · cases (hunique text' first last hdecoded hlocated).2
    · rw [linesBefore, linesAfter, Text.flatten_splitLines]
      exact keepsChoice_of_none (decodeContent_eq_ok_iff.1 hw.decoded).1
  · constructor
    · intro hkeeps
      exact hkeeps text first last hw.decoded hw.located
    · intro hkeeps text' first' last' hdecoded hlocated
      obtain ⟨rfl, hblock⟩ := hunique text' first' last' hdecoded hlocated
      obtain ⟨rfl, rfl⟩ := Prod.mk.inj (Option.some.inj hblock)
      exact hkeeps

/-- A block tells with which line ends it was written. -/
theorem eq_of_blockText {newline' : Text} (hline : SingleLine invocation) (hn : newline = LF ∨ newline = CRLF)
    (hn' : newline' = LF ∨ newline' = CRLF)
    (h : utf8Bytes (blockText invocation newline) = utf8Bytes (blockText invocation newline')) :
    newline = newline' := by
  have hcrlfs := (counts_blockText hline hn).2
  rw [h, (counts_blockText hline hn').2] at hcrlfs
  rcases hn with rfl | rfl <;> rcases hn' with rfl | rfl
  · rfl
  · exact absurd hcrlfs (by decide)
  · exact absurd hcrlfs (by decide)
  · rfl

/-- **A second rewriting changes nothing exactly if it chooses the same line ends.** -/
theorem rewrite_twice_iff (hline : SingleLine invocation) (h : rewrite raw invocation = .ok out) :
    rewrite out invocation = .ok out ↔ newlineOf (splitBom out).2 = newlineOf (splitBom raw).2 := by
  obtain ⟨text, block, hw⟩ := rewrite_spec h
  have hread := hw.frame.readBack hline (newlineOf_cases _) hw.spelled hw.out
  have hlocated := locate_of_markers hread.start hread.stop
  have hbom : (splitBom out).1 = (splitBom raw).1 := by rw [hread.bom]
  -- the lines around the block are found again
  have hplace : ∀ newline, place (splitBom out).2 (utf8Bytes (blockText invocation newline))
      (splitLines (framed (linesBefore (splitBom raw).2 text block) (linesAfter text block)
        (blockText invocation (newlineOf (splitBom raw).2))))
      (some ((linesBefore (splitBom raw).2 text block).length,
        (linesBefore (splitBom raw).2 text block).length + 6))
        = utf8Bytes (linesBefore (splitBom raw).2 text block).flatten
          ++ utf8Bytes (blockText invocation newline) ++ utf8Bytes (linesAfter text block).flatten := by
    intro newline
    rw [place, bytesBefore, bytesFrom, hread.split, List.take_left,
      show (linesBefore (splitBom raw).2 text block).length + 6 + 1
        = (linesBefore (splitBom raw).2 text block).length
          + (writtenLines invocation (newlineOf (splitBom raw).2)).length from rfl,
      ← List.drop_drop, List.drop_left, List.drop_left]
  have hout : out = (splitBom out).1 ++ (utf8Bytes (linesBefore (splitBom raw).2 text block).flatten
      ++ utf8Bytes (blockText invocation (newlineOf (splitBom raw).2))
      ++ utf8Bytes (linesAfter text block).flatten) := by
    conv_lhs => rw [hw.out, framed, Encoding.utf8Bytes_append, Encoding.utf8Bytes_append, ← hbom]
    rw [List.append_assoc]
  constructor
  · intro hagain
    obtain ⟨text', hdecoded', hagain⟩ := bind_eq_ok_iff.1 hagain
    obtain ⟨rendered, hrender, hagain⟩ := bind_eq_ok_iff.1 hagain
    obtain ⟨block', hblock', hagain⟩ := bind_eq_ok_iff.1 hagain
    obtain ⟨rfl, -⟩ := render_eq_ok hrender
    obtain rfl := Except.ok.inj (hread.decoded.symm.trans hdecoded')
    obtain rfl := Except.ok.inj (hlocated.symm.trans hblock')
    have heq := (Except.ok.inj hagain).trans hout
    rw [hplace] at heq
    have hblocks := List.append_cancel_left (List.append_cancel_right (List.append_cancel_left heq))
    exact eq_of_blockText hline (newlineOf_cases _) (newlineOf_cases _) hblocks
  · intro hsame
    rw [rewrite_eq_ok hread.decoded hsame hw.rendered hlocated, hplace]
    exact congrArg Except.ok hout.symm

/-- **Rewriting again.** For every file that is rewritten and every invocation in one line, the same
rewriting of what was written changes nothing if and only if the old block did not outweigh the
rest of the file in the choice of the line ends. -/
theorem rewrite_again (hline : SingleLine invocation) (h : rewrite raw invocation = .ok out) :
    rewrite out invocation = .ok out ↔ KeepsNewline raw := by
  obtain ⟨text, block, hw⟩ := rewrite_spec h
  have hread := hw.frame.readBack hline (newlineOf_cases _) hw.spelled hw.out
  have hcontent : (splitBom out).2 = _ := congrArg Prod.snd hread.bom
  rw [rewrite_twice_iff hline h, keepsNewline_iff hw, ← newlineOf_framed hw.frame hline (newlineOf_cases _),
    hcontent]

/-- A file with a block of an older version between two lines of its own. -/
def blockedText : Text :=
  Text.ofString "A=1" ++ LF ++ START ++ LF ++ Text.ofString "# old" ++ LF ++ END ++ LF ++ Text.ofString "B=2" ++ LF

def blockedFile : Bytes := utf8Bytes blockedText

/-- The old block of that file is replaced, with bare line feeds. -/
theorem rewrite_blockedFile : rewrite blockedFile sampleInvocation
    = .ok ([65, 61, 49, 10] ++ utf8Bytes (blockText sampleInvocation LF) ++ [66, 61, 50, 10]) := by
  have hdecoded : decodeContent blockedFile = .ok blockedText := by decide +kernel
  have hblock : locate (splitLines blockedText) = .ok (some (1, 3)) := by decide +kernel
  rw [rewrite_eq_ok hdecoded (by decide +kernel) (render_sample _ (Or.inl rfl)) hblock]
  decide +kernel

/-- A file that had a block is changed once, and then stays as it is. -/
theorem rewrite_again_blockedFile : ∃ out, rewrite blockedFile sampleInvocation = .ok out ∧
    out ≠ blockedFile ∧ rewrite out sampleInvocation = .ok out := by
  refine ⟨_, rewrite_blockedFile, by decide +kernel, (rewrite_again (by decide) rewrite_blockedFile).2 ?_⟩
  intro text first last hdecoded hlocated
  obtain rfl : text = blockedText :=
    Except.ok.inj (hdecoded.symm.trans (by decide +kernel : decodeContent blockedFile = .ok blockedText))
  have hblock : locate (splitLines blockedText) = .ok (some (1, 3)) := by decide +kernel
  have hsame : some (1, 3) = some (first, last) := Except.ok.inj (hblock.symm.trans hlocated)
  have hplace := Prod.mk.inj (Option.some.inj hsame)
  rw [← hplace.1, ← hplace.2]
  -- outside of the block there are two bare line feeds and no other line ends
  decide +kernel

/-! ### A file that is rewritten twice -/

/-- Eight empty lines that end in line feeds, and an old block of empty lines that end in carriage
returns and line feeds. -/
def mixedText : Text :=
  [.ch '\n', .ch '\n', .ch '\n', .ch '\n', .ch '\n', .ch '\n', .ch '\n', .ch '\n'] ++ START ++ CRLF
    ++ CRLF ++ CRLF ++ CRLF ++ CRLF ++ CRLF ++ CRLF ++ END ++ CRLF

def mixedFile : Bytes := utf8Bytes mixedText

/-- The file with its new block. -/
def mixedOnce : Bytes :=
  [10, 10, 10, 10, 10, 10, 10, 10] ++ utf8Bytes (blockText sampleInvocation CRLF)

/-- The first rewriting counts the ends of the old block, and chooses pairs. -/
theorem rewrite_mixedFile : rewrite mixedFile sampleInvocation = .ok mixedOnce := by
  have hdecoded : decodeContent mixedFile = .ok mixedText := by decide +kernel
  have hblock : locate (splitLines mixedText) = .ok (some (8, 15)) := by decide +kernel
  rw [rewrite_eq_ok hdecoded (by decide +kernel) (render_sample _ (Or.inr rfl)) hblock]
  decide +kernel

/-- **It is not the same the second time.** -/
theorem not_rewrite_again : ∃ raw invocation out, SingleLine invocation ∧ rewrite raw invocation = .ok out ∧
    rewrite out invocation ≠ .ok out := by
  refine ⟨mixedFile, sampleInvocation, mixedOnce, by decide, rewrite_mixedFile, fun hagain => ?_⟩
  have hsame := (rewrite_twice_iff (by decide) rewrite_mixedFile).1 hagain
  exact absurd hsame (by decide +kernel)

end Again

end EnvBlock

end YasbLimitora

import Mathlib
import YasbLimitora.Config.Document
import YasbLimitora.Lib.Lines
import YasbLimitora.Lib.Utf8

/-!
# The managed block of `.env`

`_env_block.py`: the block of comments that the setup assist keeps in the `.env` of YASB. The
block is what stands from one marker line to the other; `YasbLimitora.EnvBlock.rewrite` puts a
new block in its place, or after all the rest where there is none.

What stands outside of the block stays as it is, byte by byte, and afterwards there is exactly
one block (`YasbLimitora.EnvBlock.rewrite_keeps`).

The content is taken apart into what stands before the block, the block, and what stands after it,
at the lines that are exactly a marker. What makes the theorems possible is that lines do not run
into each other: the text before the block ends a line, or is closed by a separator that the
rewriting writes, and the block ends with a line end of its own (`YasbLimitora.EnvBlock.Frame`).

The markers may be in the wrong order, or only one of them there, or several. All of that is
refused, and the file is left as it is.
-/

namespace YasbLimitora

namespace EnvBlock

open Encoding (Spelled utf8Bytes)
open Text (splitLines Closed isBreak)

def START : Text := Text.ofString "# >>> yasb-limitora managed block v1 (id: yasb-limitora) >>>"

def END : Text := Text.ofString "# <<< yasb-limitora managed block v1 (id: yasb-limitora) <<<"

/-- How a rewriting fails: it is refused for a reason, or an exception is raised. -/
inductive Failure
  | refused (reason : String)
  | raised
deriving DecidableEq

/-! ### Rendering -/

def LF : Text := [.ch '\n']

def CRLF : Text := [.ch '\r', .ch '\n']

/-- The lines of the block. -/
def blockLines (invocation : Text) : List Text :=
  [START,
    Text.ofString "# Managed by yasb-limitora setup. YASB loads this file at startup.",
    Text.ofString "# This block is documentation only: every line is a comment.",
    Text.ofString "# Private values remain in your own .env entries.",
    Text.ofString "# Default configuration location: %LOCALAPPDATA%\\yasb-limitora\\config.json",
    Text.ofString "# M6 no-PATH invocation (short-path alias): " ++ invocation,
    END]

/-- The text of the block. -/
def blockText (invocation newline : Text) : Text :=
  List.intercalate newline (blockLines invocation) ++ newline

/-- `_render`. -/
def render (invocation newline : Text) : Except Failure Bytes :=
  if Config.isCredentialKey (blockText invocation newline) then .error (.refused "env-rendered-credential")
  else match Encoding.encodeUtf8 (blockText invocation newline) with
    | some rendered => .ok rendered
    | none => .error .raised

/-! ### Rewriting -/

def BOM : Bytes := [0xEF, 0xBB, 0xBF]

/-- The byte-order mark, and the content. -/
def splitBom (raw : Bytes) : Bytes × Bytes :=
  if raw.take 3 = BOM then (BOM, raw.drop 3) else ([], raw)

/-- How many line feeds there are with a carriage return before them. -/
def crlfs : Bytes → ℕ
  | [] => 0
  | a :: l => (if a = 13 ∧ l.head? = some 10 then 1 else 0) + crlfs l

/-- How many line feeds there are. -/
def lfs (l : Bytes) : ℕ := l.count 10

/-- The line end that is the more frequent one. -/
def newlineOf (content : Bytes) : Text :=
  if lfs content - crlfs content ≤ crlfs content then CRLF else LF

/-- Whether a line is a marker, but for its end. -/
def isMarker (marker line : Text) : Bool :=
  line.rdropWhile (fun p => p == .ch '\r' || p == .ch '\n') == marker

/-- Where the block stands: its first line and its last one, or nowhere. -/
def locate (lines : List Text) : Except Failure (Option (ℕ × ℕ)) :=
  match lines.findIdxs (isMarker START), lines.findIdxs (isMarker END) with
  | [], [] => .ok none
  | [first], [last] =>
    if last ≤ first then .error (.refused "env-markers-invalid") else .ok (some (first, last))
  | _, _ => .error (.refused "env-markers-invalid")

/-- What is put before a block that is appended. -/
def separator (content : Bytes) : Bytes :=
  if content = [] ∨ content.getLast? = some 10 ∨ content.getLast? = some 13 then []
  else utf8Bytes (newlineOf content)

/-- The bytes of the first lines, and of those from one on. -/
def bytesBefore (lines : List Text) (k : ℕ) : Bytes := utf8Bytes (lines.take k).flatten

def bytesFrom (lines : List Text) (k : ℕ) : Bytes := utf8Bytes (lines.drop k).flatten

/-- The content with its text. -/
def decodeContent (raw : Bytes) : Except Failure Text :=
  match Encoding.utf8 false (splitBom raw).2 with
  | some text => .ok text
  | none => .error (.refused "env-undecodable")

/-- The content with a rendered block in it. -/
def place (content rendered : Bytes) (lines : List Text) : Option (ℕ × ℕ) → Bytes
  | none => content ++ separator content ++ rendered
  | some (first, last) => bytesBefore lines first ++ rendered ++ bytesFrom lines (last + 1)

/-- `_rewrite`. -/
def rewrite (raw : Bytes) (invocation : Text) : Except Failure Bytes := do
  let text ← decodeContent raw
  let rendered ← render invocation (newlineOf (splitBom raw).2)
  let block ← locate (splitLines text)
  return (splitBom raw).1 ++ place (splitBom raw).2 rendered (splitLines text) block

/-! ### What stands outside of the block -/

/-- The positions of the lines that are a marker. -/
def markerLines (marker : Text) (raw : Bytes) : Except Failure (List ℕ) := do
  let text ← decodeContent raw
  return (splitLines text).findIdxs (isMarker marker)

/-- Where the block of a file is. -/
def blockOf (raw : Bytes) : Except Failure (Option (ℕ × ℕ)) := do
  let text ← decodeContent raw
  locate (splitLines text)

/-- The lines outside of the block. -/
def bytesOutside (content : Bytes) (lines : List Text) : Option (ℕ × ℕ) → Bytes
  | none => content
  | some (first, last) => bytesBefore lines first ++ bytesFrom lines (last + 1)

/-- The bytes of a file without its block. -/
def outside (raw : Bytes) : Except Failure Bytes := do
  let text ← decodeContent raw
  let block ← locate (splitLines text)
  return (splitBom raw).1 ++ bytesOutside (splitBom raw).2 (splitLines text) block

/-! ### Marker lines -/

section Markers

variable {marker newline line : Text} {lines : List Text} {k : ℕ}

/-- There is no marker among some lines. -/
def Unmarked (lines : List Text) : Prop :=
  lines.findIdxs (isMarker START) = [] ∧ lines.findIdxs (isMarker END) = []

/-- Of a line that is over, the end is not looked at. -/
theorem isMarker_append (hn : newline = LF ∨ newline = CRLF) :
    isMarker marker (line ++ newline) = isMarker marker line := by
  rcases hn with rfl | rfl
  · rw [isMarker, LF, List.rdropWhile_concat_pos _ _ _ rfl, isMarker]
  · rw [isMarker, CRLF, show line ++ [.ch '\r', .ch '\n'] = line ++ [.ch '\r'] ++ [.ch '\n'] by simp,
      List.rdropWhile_concat_pos _ _ _ rfl, List.rdropWhile_concat_pos _ _ _ rfl, isMarker]

/-- A line without its end is a marker if it is the text of the marker. -/
theorem isMarker_of_unbroken (h : ∀ p ∈ line, isBreak p = false) : isMarker marker line = (line == marker) := by
  have hself : line.rdropWhile (fun p => p == .ch '\r' || p == .ch '\n') = line := by
    refine List.rdropWhile_eq_self_iff.2 fun hne hlast => ?_
    have hbreak := h _ (List.getLast_mem hne)
    rcases Bool.or_eq_true_iff.1 hlast with heq | heq
    · rw [beq_iff_eq.1 heq] at hbreak
      exact absurd hbreak (by decide)
    · rw [beq_iff_eq.1 heq] at hbreak
      exact absurd hbreak (by decide)
  rw [isMarker, hself]

/-- Both kinds of line ends end a line. -/
theorem lineEnd_of (hn : newline = LF ∨ newline = CRLF) : Text.LineEnd newline := by
  rcases hn with rfl | rfl
  · exact Text.lineEnd_lf
  · exact Text.lineEnd_crlf

/-- One of the two kinds is chosen. -/
theorem newlineOf_cases (content : Bytes) : newlineOf content = LF ∨ newlineOf content = CRLF := by
  unfold newlineOf
  split_ifs
  · exact Or.inr rfl
  · exact Or.inl rfl

/-- Where the only marker stands, it is not before and not behind. -/
theorem findIdxs_take_drop {p : Text → Bool} (h : lines.findIdxs p = [k]) {i j : ℕ} (hi : i ≤ k) (hj : k < j) :
    (lines.take i).findIdxs p = [] ∧ (lines.drop j).findIdxs p = [] := by
  have honly : ∀ n (hn : n < lines.length), p lines[n] = true → n = k := fun n hn hp => by
    have hmem : n ∈ lines.findIdxs p := List.mem_findIdxs_iff_exists_getElem_pos.2 ⟨hn, hp⟩
    rw [h] at hmem
    exact List.mem_singleton.1 hmem
  refine ⟨List.findIdxs_eq_nil_iff.2 fun l hl => ?_, List.findIdxs_eq_nil_iff.2 fun l hl => ?_⟩
  · obtain ⟨n, hn, rfl⟩ := List.mem_take_iff_getElem.1 hl
    rw [← Bool.not_eq_true]
    intro hp
    have := honly n (by omega) hp
    omega
  · obtain ⟨n, hn, rfl⟩ := List.mem_drop_iff_getElem.1 hl
    rw [← Bool.not_eq_true]
    intro hp
    have := honly (j + n) (by omega) hp
    omega

end Markers

/-! ### The rendered block -/

/-- A text in one line. -/
def SingleLine (t : Text) : Prop := ∀ p ∈ t, isBreak p = false

instance (t : Text) : Decidable (SingleLine t) := inferInstanceAs (Decidable (∀ p ∈ t, _))

section Block

variable {invocation newline : Text}

/-- The block is its lines, each with the chosen end. -/
theorem blockText_eq (invocation newline : Text) :
    blockText invocation newline = ((blockLines invocation).map (· ++ newline)).flatten := by
  simp [blockText, blockLines, List.intercalate]

/-- The lines of the block are single lines if the invocation is one. -/
theorem singleLine_blockLines (h : SingleLine invocation) : ∀ l ∈ blockLines invocation, SingleLine l := by
  simp only [blockLines, List.forall_mem_cons]
  refine ⟨by decide, by decide, by decide, by decide, by decide, ?_, by decide, List.forall_mem_nil _⟩
  exact List.forall_mem_append.2 ⟨by decide, h⟩

/-- The lines of the block. -/
def writtenLines (invocation newline : Text) : List Text := (blockLines invocation).map (· ++ newline)

/-- The block is split into its lines, whatever follows. -/
theorem splitLines_blockText (h : SingleLine invocation) (hn : newline = LF ∨ newline = CRLF) (rest : Text) :
    splitLines (blockText invocation newline ++ rest) = writtenLines invocation newline ++ splitLines rest := by
  rw [blockText_eq]
  exact Text.splitLines_lines (lineEnd_of hn) (singleLine_blockLines h) rest

theorem length_writtenLines (invocation newline : Text) : (writtenLines invocation newline).length = 7 := rfl

theorem head?_blockText (invocation newline : Text) :
    (blockText invocation newline).head? = some (.ch '#') := rfl

/-- The line of the invocation is no marker. -/
theorem isMarker_invocation (marker : Text) (h : SingleLine invocation)
    (hmarker : (marker.drop 2).head? ≠ some (.ch 'M')) :
    isMarker marker (Text.ofString "# M6 no-PATH invocation (short-path alias): " ++ invocation) = false := by
  rw [isMarker_of_unbroken (List.forall_mem_append.2 ⟨by decide, h⟩), beq_eq_false_iff_ne]
  rintro rfl
  exact hmarker rfl

/-- **The first line of the block is the only one that starts it**, and the last the only one
that ends it. -/
theorem markers_writtenLines (h : SingleLine invocation) (hn : newline = LF ∨ newline = CRLF) (k : ℕ) :
    (writtenLines invocation newline).findIdxs (isMarker START) k = [k] ∧
      (writtenLines invocation newline).findIdxs (isMarker END) k = [k + 6] := by
  have hover : ∀ marker, isMarker marker ∘ (· ++ newline) = isMarker marker := fun marker =>
    funext fun l => isMarker_append hn
  have hstart := isMarker_invocation START h (by decide)
  have hend := isMarker_invocation END h (by decide)
  rw [writtenLines, List.findIdxs_map, List.findIdxs_map, hover, hover]
  simp only [blockLines, List.findIdxs_cons, List.findIdxs_nil, hstart, hend]
  constructor
  · rw [if_pos (by decide), if_neg (by decide), if_neg (by decide), if_neg (by decide), if_neg (by decide),
      if_neg (by decide), if_neg (by decide)]
  · rw [if_neg (by decide), if_neg (by decide), if_neg (by decide), if_neg (by decide), if_neg (by decide),
      if_neg (by decide), if_pos (by decide)]

end Block

/-! ### Files with a byte-order mark -/

section Bom

variable {raw : Bytes} {t : Text}

/-- A text begins with the bytes of the mark if it begins with its character. -/
theorem take_utf8Bytes_eq_bom (ht : Spelled t) :
    (utf8Bytes t).take 3 = BOM ↔ t.head? = some (.ofValue 0xFEFF) := by
  constructor
  · intro h
    have hsplit : utf8Bytes t = Encoding.spell 0xFEFF ++ (utf8Bytes t).drop 3 := by
      conv_lhs => rw [← List.take_append_drop 3 (utf8Bytes t), h]
      rfl
    rcases t with _ | ⟨p, t⟩
    · cases h
    · have hp := Encoding.utf8Point_spell (Encoding.value_lt p) (List.forall_mem_cons.1 ht).1 (utf8Bytes t)
      have hbom := Encoding.utf8Point_spell (n := 0xFEFF) (by decide) (by decide) ((utf8Bytes (p :: t)).drop 3)
      rw [← hsplit, Encoding.utf8Bytes_cons, hp, CodePoint.ofValue_value] at hbom
      rw [(Prod.mk.inj (Option.some.inj hbom)).1]
      rfl
  · intro h
    rcases t with _ | ⟨p, t⟩
    · cases h
    · obtain rfl := Option.some.inj h
      rfl

/-- A file is its mark and its content. -/
theorem splitBom_append (raw : Bytes) : (splitBom raw).1 ++ (splitBom raw).2 = raw := by
  unfold splitBom
  split_ifs with h
  · conv_rhs => rw [← List.take_append_drop 3 raw, h]
  · rfl

/-- The mark of a file is kept with what is written after it. -/
theorem splitBom_written (ht : Spelled t) (h : (splitBom raw).1 = [] → t.head? ≠ some (.ofValue 0xFEFF)) :
    splitBom ((splitBom raw).1 ++ utf8Bytes t) = ((splitBom raw).1, utf8Bytes t) := by
  have hcases : (splitBom raw).1 = BOM ∨ (splitBom raw).1 = [] := by
    unfold splitBom
    split_ifs
    · exact Or.inl rfl
    · exact Or.inr rfl
  rcases hcases with hbom | hnil
  · rw [hbom]
    rfl
  · rw [hnil, List.nil_append, splitBom, if_neg]
    rw [take_utf8Bytes_eq_bom ht]
    exact h hnil

end Bom

/-! ### What is written -/

/-- A file that was written: some lines, the block, and other lines. -/
structure Frame (raw : Bytes) (before after : List Text) : Prop where
  splitsBefore : splitLines before.flatten = before
  splitsAfter : splitLines after.flatten = after
  closed : ∀ rest : Text, rest.head? = some (.ch '#') → Closed before.flatten rest
  unmarked : Unmarked before ∧ Unmarked after
  spelled : Spelled before.flatten ∧ Spelled after.flatten
  bom : (splitBom raw).1 = [] → before.flatten.head? ≠ some (.ofValue 0xFEFF)

/-- The text of such a file. -/
def framed (before after : List Text) (block : Text) : Text := before.flatten ++ (block ++ after.flatten)

section Frame

variable {raw out : Bytes} {invocation newline : Text} {before after : List Text}

/-- **A file that was written is read back**: its mark, its lines, and its block. -/
structure ReadBack (raw out : Bytes) (text : Text) (before lines after : List Text) : Prop where
  bom : splitBom out = ((splitBom raw).1, utf8Bytes text)
  decoded : decodeContent out = .ok text
  split : splitLines text = before ++ (lines ++ after)
  start : (splitLines text).findIdxs (isMarker START) = [before.length]
  stop : (splitLines text).findIdxs (isMarker END) = [before.length + 6]

/-- **What was written is found again**: the lines before the block, its seven lines and those after it.
-/
theorem Frame.readBack (hf : Frame raw before after) (hline : SingleLine invocation)
    (hn : newline = LF ∨ newline = CRLF) (hblock : Spelled (blockText invocation newline))
    (hout : out = (splitBom raw).1 ++ utf8Bytes (framed before after (blockText invocation newline))) :
    ReadBack raw out (framed before after (blockText invocation newline)) before
      (writtenLines invocation newline) after := by
  have hhead : (blockText invocation newline ++ after.flatten).head? = some (.ch '#') := by
    rw [List.head?_append, head?_blockText]
    rfl
  have hspelled : Spelled (framed before after (blockText invocation newline)) :=
    Encoding.spelled_append.2 ⟨hf.spelled.1, Encoding.spelled_append.2 ⟨hblock, hf.spelled.2⟩⟩
  have hbom : splitBom out
      = ((splitBom raw).1, utf8Bytes (framed before after (blockText invocation newline))) := by
    rw [hout]
    refine splitBom_written hspelled fun hnil hmark => ?_
    rw [framed, List.head?_append] at hmark
    rcases hfirst : before.flatten.head? with _ | p
    · rw [hfirst, hhead] at hmark
      exact absurd (Option.some.inj hmark) (by decide)
    · rw [hfirst, Option.some_or, ← hfirst] at hmark
      exact hf.bom hnil hmark
  have hlines : splitLines (framed before after (blockText invocation newline))
      = before ++ (writtenLines invocation newline ++ after) := by
    rw [framed, Text.splitLines_append (hf.closed _ hhead), hf.splitsBefore,
      splitLines_blockText hline hn, hf.splitsAfter]
  obtain ⟨hstart, hend⟩ := markers_writtenLines hline hn before.length
  have hrest : ∀ (p : Text → Bool) (k : ℕ), after.findIdxs p = [] → after.findIdxs p k = [] :=
    fun p k h => by rw [List.findIdxs_start, h, List.map_nil]
  refine ⟨hbom, ?_, hlines, ?_, ?_⟩
  · rw [decodeContent, hbom, Encoding.utf8_utf8Bytes hspelled]
  · rw [hlines, List.findIdxs_append, List.findIdxs_append, hf.unmarked.1.1, Nat.zero_add, hstart,
      hrest _ _ hf.unmarked.2.1]
    rfl
  · rw [hlines, List.findIdxs_append, List.findIdxs_append, hf.unmarked.1.2, Nat.zero_add, hend,
      hrest _ _ hf.unmarked.2.2]
    rfl

end Frame

/-! ### What a rewriting writes -/

section Rewrite

variable {raw out : Bytes} {invocation text : Text}

/-- The content of a file is decoded exactly if it is the bytes of a text. -/
theorem decodeContent_eq_ok_iff :
    decodeContent raw = .ok text ↔ (splitBom raw).2 = utf8Bytes text ∧ Spelled text := by
  rw [← Encoding.utf8_eq_some_iff, decodeContent]
  split
  · next heq =>
    rw [heq]
    exact ⟨fun h => congrArg some (Except.ok.inj h), fun h => congrArg Except.ok (Option.some.inj h)⟩
  · next heq =>
    rw [heq]
    exact iff_of_false nofun nofun

/-- What is rendered are the bytes of the block. -/
theorem render_eq_ok {newline : Text} {rendered : Bytes} (h : render invocation newline = .ok rendered) :
    rendered = utf8Bytes (blockText invocation newline) ∧ Spelled (blockText invocation newline) := by
  unfold render at h
  split_ifs at h
  split at h
  · next heq =>
    obtain rfl := Except.ok.inj h
    exact Encoding.utf8_eq_some_iff.1 (Encoding.encodeUtf8_eq_some_iff.1 heq)
  · cases h

/-- A block that is located has its two markers, each once, in their order. -/
theorem locate_eq_some {lines : List Text} {first last : ℕ} (h : locate lines = .ok (some (first, last))) :
    lines.findIdxs (isMarker START) = [first] ∧ lines.findIdxs (isMarker END) = [last] ∧ first < last := by
  unfold locate at h
  split at h
  · cases h
  · next hstart hend =>
    split_ifs at h with hle
    obtain ⟨rfl, rfl⟩ := Prod.mk.inj (Option.some.inj (Except.ok.inj h))
    exact ⟨hstart, hend, not_le.1 hle⟩
  · cases h

/-- Where none is located there is no marker. -/
theorem locate_eq_none {lines : List Text} (h : locate lines = .ok none) : Unmarked lines := by
  unfold locate at h
  split at h
  · next hstart hend => exact ⟨hstart, hend⟩
  · split_ifs at h
    cases h
  · cases h

/-- A block is located by its markers. -/
theorem locate_of_markers {lines : List Text} {k : ℕ} (hstart : lines.findIdxs (isMarker START) = [k])
    (hend : lines.findIdxs (isMarker END) = [k + 6]) : locate lines = .ok (some (k, k + 6)) := by
  rw [locate, hstart, hend]
  exact if_neg (by omega)

/-- Without a mark, the text does not begin with its character. -/
theorem head?_ne_mark (h : decodeContent raw = .ok text) (hbom : (splitBom raw).1 = []) :
    text.head? ≠ some (.ofValue 0xFEFF) := by
  obtain ⟨hcontent, hspelled⟩ := decodeContent_eq_ok_iff.1 h
  have hraw := splitBom_append raw
  rw [hbom, List.nil_append, hcontent] at hraw
  intro hmark
  rw [splitBom, if_pos (hraw ▸ (take_utf8Bytes_eq_bom hspelled).2 hmark)] at hbom
  cases hbom

/-- **The lines around a block frame the new one.** -/
theorem frame_of_block (h : decodeContent raw = .ok text) {first last : ℕ}
    (hblock : locate (splitLines text) = .ok (some (first, last))) :
    Frame raw ((splitLines text).take first) ((splitLines text).drop (last + 1)) := by
  obtain ⟨hstart, hend, hlt⟩ := locate_eq_some hblock
  obtain ⟨-, hspelled⟩ := decodeContent_eq_ok_iff.1 h
  have hfirst : first < (splitLines text).length := by
    have hmem : first ∈ (splitLines text).findIdxs (isMarker START) := by
      rw [hstart]
      exact List.mem_singleton_self _
    exact (List.mem_findIdxs_iff_exists_getElem_pos.1 hmem).1
  obtain ⟨htake, -, hclosed⟩ := Text.splitLines_take_drop (rfl : splitLines text = _) first
  have hsplit : ((splitLines text).take first).flatten ++ ((splitLines text).drop first).flatten = text := by
    rw [← List.flatten_append, List.take_append_drop, Text.flatten_splitLines]
  have hstarts := findIdxs_take_drop hstart (i := first) (j := last + 1) le_rfl (by omega)
  have hends := findIdxs_take_drop hend (i := first) (j := last + 1) (by omega) (by omega)
  refine ⟨htake, (Text.splitLines_take_drop rfl (last + 1)).2.1, fun rest hrest => ?_,
    ⟨⟨hstarts.1, hends.1⟩, hstarts.2, hends.2⟩, ⟨?_, ?_⟩, fun hbom hmark => ?_⟩
  · refine (hclosed hfirst).of_head fun hhead => ?_
    rw [hrest] at hhead
    exact absurd (Option.some.inj hhead) (by decide)
  · rw [← hsplit] at hspelled
    exact (Encoding.spelled_append.1 hspelled).1
  · rw [← Text.flatten_splitLines text, ← List.take_append_drop (last + 1) (splitLines text),
      List.flatten_append] at hspelled
    exact (Encoding.spelled_append.1 hspelled).2
  · refine head?_ne_mark h hbom ?_
    rw [← hsplit, List.head?_append, hmark, Option.some_or]

/-- The text of what is put before a block that is appended. -/
def separatorText (content : Bytes) : Text :=
  if content = [] ∨ content.getLast? = some 10 ∨ content.getLast? = some 13 then [] else newlineOf content

/-- What stands between the content and a new block is a line end, or nothing. -/
theorem separator_eq (content : Bytes) : separator content = utf8Bytes (separatorText content) := by
  unfold separator separatorText
  split_ifs <;> rfl

/-- Where there is no block, a text whose last line is over frames one. -/
theorem frame_of_closed (h : decodeContent raw = .ok text) (hnone : locate (splitLines text) = .ok none)
    (hover : text.getLast? = none ∨ text.getLast? = some (.ch '\n') ∨ text.getLast? = some (.ch '\r')) :
    Frame raw (splitLines text) [] := by
  refine ⟨by rw [Text.flatten_splitLines], rfl, fun rest hrest p hp => ?_, ⟨locate_eq_none hnone, rfl, rfl⟩,
    ⟨?_, List.forall_mem_nil _⟩, ?_⟩
  all_goals rw [Text.flatten_splitLines] at *
  · have hhash : rest.head? ≠ some (.ch '\n') := by
      rw [hrest]
      decide
    rcases hover with hnil | hlf | hcr
    · rw [hp] at hnil
      cases hnil
    · obtain rfl := Option.some.inj (hp.symm.trans hlf)
      exact ⟨rfl, fun hr => hhash hr.2⟩
    · obtain rfl := Option.some.inj (hp.symm.trans hcr)
      exact ⟨rfl, fun hr => hhash hr.2⟩
  · exact (decodeContent_eq_ok_iff.1 h).2
  · exact head?_ne_mark h

/-- And a text whose last line is not over does so with a line end. -/
theorem frame_of_open (h : decodeContent raw = .ok text) (hnone : locate (splitLines text) = .ok none)
    {newline : Text} (hn : newline = LF ∨ newline = CRLF) (hcr : text.getLast? ≠ some (.ch '\r')) :
    Frame raw (splitLines (text ++ newline)) [] := by
  have hunmarked := locate_eq_none hnone
  have hend := lineEnd_of hn
  refine ⟨by rw [Text.flatten_splitLines], rfl, fun rest _ => ?_, ⟨?_, rfl, rfl⟩,
    ⟨?_, List.forall_mem_nil _⟩, fun hbom hmark => ?_⟩
  · rw [Text.flatten_splitLines]
    exact hend.closed_append _ rest
  · -- neither a line end nor what it ends is a marker
    have hmarker : ∀ marker, isMarker marker newline = isMarker marker [] := fun marker =>
      (isMarker_append hn : isMarker marker ([] ++ newline) = isMarker marker [])
    rcases Text.splitLines_append_lineEnd hend hcr with heq | ⟨ls, l, hls, heq⟩
    · rw [heq]
      refine ⟨?_, ?_⟩
      · rw [List.findIdxs_append, hunmarked.1, List.findIdxs_singleton, hmarker]
        rfl
      · rw [List.findIdxs_append, hunmarked.2, List.findIdxs_singleton, hmarker]
        rfl
    · rw [hls, Unmarked, List.findIdxs_append, List.findIdxs_append, List.findIdxs_singleton,
        List.findIdxs_singleton] at hunmarked
      rw [heq, Unmarked, List.findIdxs_append, List.findIdxs_append, List.findIdxs_singleton,
        List.findIdxs_singleton, isMarker_append hn, isMarker_append hn]
      exact hunmarked
  · rw [Text.flatten_splitLines]
    refine Encoding.spelled_append.2 ⟨(decodeContent_eq_ok_iff.1 h).2, ?_⟩
    rcases hn with rfl | rfl
    all_goals decide
  · rw [Text.flatten_splitLines, List.head?_append] at hmark
    rcases hfirst : text.head? with _ | p
    · rw [hfirst, Option.none_or] at hmark
      rcases hn with rfl | rfl
      all_goals exact absurd (Option.some.inj hmark) (by decide)
    · rw [hfirst, Option.some_or, ← hfirst] at hmark
      exact head?_ne_mark h hbom hmark

/-- **Where there is no block, the text frames one**, with a line end before it if it needs one. -/
theorem frame_of_none (h : decodeContent raw = .ok text) (hnone : locate (splitLines text) = .ok none) :
    Frame raw (splitLines (text ++ separatorText (splitBom raw).2)) [] := by
  obtain ⟨hcontent, -⟩ := decodeContent_eq_ok_iff.1 h
  have hlf := Encoding.getLast?_utf8Bytes (b := 10) (by decide) text
  have hcr := Encoding.getLast?_utf8Bytes (b := 13) (by decide) text
  unfold separatorText
  split_ifs with hover
  · rw [List.append_nil]
    refine frame_of_closed h hnone ?_
    rw [hcontent] at hover
    rcases hover with hnil | hlast | hlast
    · refine Or.inl ?_
      rcases text with _ | ⟨p, text⟩
      · rfl
      · rw [Encoding.utf8Bytes_cons] at hnil
        exact absurd (List.append_eq_nil_iff.1 hnil).1 (Encoding.spell_ne_nil _)
    · exact Or.inr (Or.inl (hlf.1 hlast))
    · exact Or.inr (Or.inr (hcr.1 hlast))
  · rw [hcontent] at hover ⊢
    exact frame_of_open h hnone (newlineOf_cases _) fun hlast => hover (Or.inr (Or.inr (hcr.2 hlast)))

/-- The lines before the new block, and those after it. -/
def linesBefore (content : Bytes) (text : Text) : Option (ℕ × ℕ) → List Text
  | none => splitLines (text ++ separatorText content)
  | some (first, _) => (splitLines text).take first

def linesAfter (text : Text) : Option (ℕ × ℕ) → List Text
  | none => []
  | some (_, last) => (splitLines text).drop (last + 1)

/-- The line end that is put before a block that is appended. -/
def gap (content : Bytes) : Option (ℕ × ℕ) → Bytes
  | none => separator content
  | some _ => []

/-- What is known of a rewriting that is accepted. -/
structure Rewritten (raw : Bytes) (invocation : Text) (out : Bytes) (text : Text)
    (block : Option (ℕ × ℕ)) : Prop where
  decoded : decodeContent raw = .ok text
  located : locate (splitLines text) = .ok block
  spelled : Spelled (blockText invocation (newlineOf (splitBom raw).2))
  rendered : render invocation (newlineOf (splitBom raw).2)
    = .ok (utf8Bytes (blockText invocation (newlineOf (splitBom raw).2)))
  frame : Frame raw (linesBefore (splitBom raw).2 text block) (linesAfter text block)
  out : out = (splitBom raw).1 ++ utf8Bytes (framed (linesBefore (splitBom raw).2 text block)
    (linesAfter text block) (blockText invocation (newlineOf (splitBom raw).2)))

/-- **What is written** are the bytes of the lines before, of the block, and of the lines after. -/
theorem place_eq (hcontent : (splitBom raw).2 = utf8Bytes text) (newline : Text) (block : Option (ℕ × ℕ)) :
    place (splitBom raw).2 (utf8Bytes (blockText invocation newline)) (splitLines text) block
      = utf8Bytes (framed (linesBefore (splitBom raw).2 text block) (linesAfter text block)
          (blockText invocation newline)) := by
  rcases block with _ | ⟨first, last⟩
  · rw [place, framed, linesBefore, linesAfter, Text.flatten_splitLines, List.flatten_nil, List.append_nil,
      Encoding.utf8Bytes_append, Encoding.utf8Bytes_append, ← separator_eq, ← hcontent]
  · rw [place, framed, linesBefore, linesAfter, Encoding.utf8Bytes_append, Encoding.utf8Bytes_append,
      List.append_assoc]
    rfl

/-- **What a rewriting does.** -/
theorem rewrite_spec (h : rewrite raw invocation = .ok out) :
    ∃ text block, Rewritten raw invocation out text block := by
  obtain ⟨text, hdecoded, h⟩ := bind_eq_ok_iff.1 h
  obtain ⟨rendered, hrender, h⟩ := bind_eq_ok_iff.1 h
  obtain ⟨block, hblock, h⟩ := bind_eq_ok_iff.1 h
  obtain ⟨rfl, hspelled⟩ := render_eq_ok hrender
  obtain ⟨hcontent, -⟩ := decodeContent_eq_ok_iff.1 hdecoded
  refine ⟨text, block, hdecoded, hblock, hspelled, hrender, ?_, ?_⟩
  · rcases block with _ | ⟨first, last⟩
    · exact frame_of_none hdecoded hblock
    · exact frame_of_block hdecoded hblock
  · rw [← Except.ok.inj h, place_eq hcontent]

/-- The bytes outside of the old block are those outside of the new one, but for the gap. -/
theorem bytesOutside_gap (hcontent : (splitBom raw).2 = utf8Bytes text) (block : Option (ℕ × ℕ)) :
    bytesOutside (splitBom raw).2 (splitLines text) block ++ gap (splitBom raw).2 block
      = utf8Bytes (linesBefore (splitBom raw).2 text block).flatten
        ++ utf8Bytes (linesAfter text block).flatten := by
  rcases block with _ | ⟨first, last⟩
  · rw [bytesOutside, gap, linesBefore, linesAfter, Text.flatten_splitLines, List.flatten_nil,
      Encoding.utf8Bytes_nil, List.append_nil, Encoding.utf8Bytes_append, ← separator_eq, ← hcontent]
  · rw [bytesOutside, gap, linesBefore, linesAfter, List.append_nil]
    rfl

/-- What is read back has its lines outside of the block. -/
theorem ReadBack.bytesOutside {t : Text} {before lines after : List Text}
    (hr : ReadBack raw out t before lines after) (hlines : lines.length = 7) :
    EnvBlock.bytesOutside (splitBom out).2 (splitLines t) (some (before.length, before.length + 6))
      = utf8Bytes before.flatten ++ utf8Bytes after.flatten := by
  rw [EnvBlock.bytesOutside, bytesBefore, bytesFrom, hr.split, List.take_left,
    show before.length + 6 + 1 = before.length + lines.length by omega, ← List.drop_drop, List.drop_left,
    List.drop_left]

/-- What is read back has one marker of each kind. -/
theorem ReadBack.markers {t : Text} {before lines after : List Text}
    (hr : ReadBack raw out t before lines after) :
    ∃ first last, markerLines START out = .ok [first] ∧ markerLines END out = .ok [last] ∧ first < last := by
  refine ⟨before.length, before.length + 6, ?_, ?_, by omega⟩
  · rw [markerLines, hr.decoded, ok_bind, hr.start]
    rfl
  · rw [markerLines, hr.decoded, ok_bind, hr.stop]
    rfl

/-- **A rewriting keeps what is not its own.** Afterwards there is exactly one block, and the bytes
outside of it are those outside of the block before, with one line end more if the block was
appended to a last line that was not over. -/
theorem rewrite_keeps (hline : SingleLine invocation) (h : rewrite raw invocation = .ok out) :
    (∃ first last, markerLines START out = .ok [first] ∧ markerLines END out = .ok [last] ∧ first < last) ∧
      ∃ block rest, blockOf raw = .ok block ∧ outside raw = .ok rest ∧
        outside out = .ok (rest ++ gap (splitBom raw).2 block) := by
  obtain ⟨text, block, hw⟩ := rewrite_spec h
  obtain ⟨hcontent, -⟩ := decodeContent_eq_ok_iff.1 hw.decoded
  have hread := hw.frame.readBack hline (newlineOf_cases _) hw.spelled hw.out
  refine ⟨hread.markers, block, (splitBom raw).1 ++ bytesOutside (splitBom raw).2 (splitLines text) block,
    ?_, ?_, ?_⟩
  · rw [blockOf, hw.decoded, ok_bind, hw.located]
  · rw [outside, hw.decoded, ok_bind, hw.located]
    rfl
  · rw [outside, hread.decoded, ok_bind, locate_of_markers hread.start hread.stop, ok_bind,
      hread.bytesOutside (length_writtenLines _ _), ← bytesOutside_gap hcontent, hread.bom,
      ← List.append_assoc]
    rfl

/-- A rewriting is accepted when its parts are. -/
theorem rewrite_eq_ok {block : Option (ℕ × ℕ)} {newline : Text} {rendered : Bytes}
    (hdecoded : decodeContent raw = .ok text) (hn : newlineOf (splitBom raw).2 = newline)
    (hrender : render invocation newline = .ok rendered)
    (hblock : locate (splitLines text) = .ok block) : rewrite raw invocation
      = .ok ((splitBom raw).1 ++ place (splitBom raw).2 rendered (splitLines text) block) := by
  rw [rewrite, hdecoded, ok_bind, hn, hrender, ok_bind, hblock]
  rfl

/-- The block is rendered if nothing in it looks like a credential. -/
theorem render_eq {newline : Text}
    (hcredential : Config.isCredentialKey (blockText invocation newline) = false)
    (hspelled : Spelled (blockText invocation newline)) :
    render invocation newline = .ok (utf8Bytes (blockText invocation newline)) := by
  rw [render, if_neg (by rw [hcredential]; exact Bool.false_ne_true), Encoding.encodeUtf8, if_pos hspelled]

/-- A file whose last line is not over, and an invocation. -/
def openFile : Bytes := Encoding.ascii (Text.ofString "A=1")

def sampleInvocation : Text := Text.ofString "a.exe"

/-- So it is with the sample. -/
theorem render_sample (newline : Text) (hn : newline = LF ∨ newline = CRLF) :
    render sampleInvocation newline = .ok (utf8Bytes (blockText sampleInvocation newline)) := by
  rcases hn with rfl | rfl
  · exact render_eq (by decide +kernel) (by decide +kernel)
  · exact render_eq (by decide +kernel) (by decide +kernel)

/-- The block is put behind the last line, which is ended first. -/
theorem rewrite_openFile : rewrite openFile sampleInvocation
    = .ok ([] ++ place openFile (utf8Bytes (blockText sampleInvocation CRLF)) [Text.ofString "A=1"] none) :=
  rewrite_eq_ok (by decide : decodeContent openFile = .ok (Text.ofString "A=1")) (by decide) (render_sample _ (Or.inr rfl)) (by decide)

/-- Such a file keeps its line, with the end that was missing. -/
theorem rewrite_keeps_openFile :
    ∃ out, rewrite openFile sampleInvocation = .ok out ∧
      (∃ first last, markerLines START out = .ok [first] ∧ markerLines END out = .ok [last] ∧ first < last) ∧
      outside out = .ok (openFile ++ [13, 10]) := by
  obtain ⟨hmarkers, block, rest, hblock, hrest, hout⟩ := rewrite_keeps (by decide) rewrite_openFile
  obtain rfl : block = none := Except.ok.inj (hblock.symm.trans (by decide : blockOf openFile = .ok none))
  obtain rfl : rest = openFile := Except.ok.inj (hrest.symm.trans (by decide : outside openFile = .ok openFile))
  exact ⟨_, rewrite_openFile, hmarkers, hout⟩

end Rewrite

end EnvBlock

end YasbLimitora

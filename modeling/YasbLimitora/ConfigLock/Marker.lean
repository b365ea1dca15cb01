import Mathlib
import YasbLimitora.Lib.DecimalText
import YasbLimitora.Lib.Encoding
import YasbLimitora.Lib.JsonParse

/-!
# The marker of the configuration lock

What the owner of a fallback lease writes to its marker file, and what another process
makes of the bytes it finds there (`_config_lock.py`): an owner is read from nothing but
the bytes that the owner writes, and so from no part of them that is still being written.

A marker is JSON with a fixed order of fields and a fixed version, which a reader does not only
parse but encodes again and compares. So there is one spelling of each owner
(`YasbLimitora.ConfigLock.encodeMarker_inj`), and no proper beginning of one is another
(`YasbLimitora.ConfigLock.encodeMarker_eq_of_prefix`): the closing brace stands at the end and
nowhere else. This is what makes a marker safe to be written in place. A reader that comes too early
finds nothing that it would believe.
-/

namespace YasbLimitora

namespace ConfigLock

open DecimalText

def MARKER_VERSION : ℕ := 1

def MARKER_MAX_BYTES : ℕ := 256

def TOKEN_MAX_HEX : ℕ := 64

def HEX : Text := Text.ofString "0123456789abcdef"

def PID : Text := Text.ofString "pid"

def TOKEN : Text := Text.ofString "token"

def VERSION : Text := Text.ofString "version"

/-- The checks of the owner, which both the writer and the reader make. -/
def validOwner (pid : ℤ) (token : Text) : Bool :=
  1 ≤ pid ∧ pid ≤ 4294967295 ∧ token ≠ [] ∧ token.length ≤ TOKEN_MAX_HEX ∧ ∀ p ∈ token, p ∈ HEX

/-- The text of a marker. -/
def markerText (pid : ℕ) (token : Text) : Text :=
  Text.ofString "\x7b\"pid\":" ++ (Text.ofChars (natText pid) ++ (Text.ofString ",\"token\":\"" ++
    (token ++ (Text.ofString "\",\"version\":1" ++ Text.ofString "\x7d"))))

/-- `encode_marker`. -/
def encodeMarker (pid : ℕ) (token : Text) : Option Bytes :=
  if validOwner pid token then some (Encoding.ascii (markerText pid token)) else none

/-- How a marker is read. What is kept of numbers that are no integers is refused later. -/
def markerReader : Json.Reader where
  float l := some (String.ofList l)
  constant l := some (String.ofList l)
  repeats := false

def isBlank (p : CodePoint) : Bool := p = .ch ' ' ∨ p = .ch '\t' ∨ p = .ch '\n' ∨ p = .ch '\r'

/-- `decode_marker`. The keys are all there, once each, and sorted. -/
def decodeMarker (data : Bytes) : Option (ℕ × Text) :=
  if data = [] ∨ MARKER_MAX_BYTES < data.length then none
  else match Encoding.utf8 false data with
    | none => none
    | some text =>
      if text.any isBlank then none
      else match Json.parse markerReader text with
        | some (.obj [(k, .int pid), (k', .str token), (k'', .int version)]) =>
          if k = PID ∧ k' = TOKEN ∧ k'' = VERSION ∧ validOwner pid token ∧ version = MARKER_VERSION ∧
              encodeMarker pid.toNat token = some data then some (pid.toNat, token)
          else none
        | _ => none

example : encodeMarker 41 HEX = (encodeMarker 41 HEX).bind fun data =>
    (decodeMarker data).bind fun owner => encodeMarker owner.1 owner.2 := by decide +kernel

/-- **What is read is what was written.** -/
theorem encodeMarker_of_decodeMarker {data : Bytes} {pid : ℕ} {token : Text}
    (h : decodeMarker data = some (pid, token)) : encodeMarker pid token = some data := by
  unfold decodeMarker at h
  split at h
  · cases h
  split at h
  · cases h
  split at h
  · cases h
  split at h
  · split at h
    · rename_i hkeys
      obtain ⟨rfl, rfl⟩ := Prod.mk.inj (Option.some.inj h)
      exact hkeys.2.2.2.2.2
    · cases h
  · cases h

/-! ### The bytes of a marker -/

/-- A digit of a number or of a token. -/
def IsDigit (p : CodePoint) : Prop := 48 ≤ p.value ∧ p.value ≤ 57 ∨ 97 ≤ p.value ∧ p.value ≤ 102

instance (p : CodePoint) : Decidable (IsDigit p) := inferInstanceAs (Decidable (_ ∨ _))

/-- A process identifier is written in digits. -/
theorem isDigit_of_natText {n : ℕ} {p : CodePoint} (h : p ∈ Text.ofChars (natText n)) : IsDigit p := by
  obtain ⟨c, hc, rfl⟩ := List.mem_map.1 h
  have hdigit := List.all_eq_true.1 (all_isDigit_natText n) c hc
  rw [isDigit, Bool.and_eq_true, decide_eq_true_eq, decide_eq_true_eq] at hdigit
  exact Or.inl ⟨hdigit.1, hdigit.2⟩

theorem isDigit_of_mem_hex : ∀ p ∈ HEX, IsDigit p := by decide

/-- The token of an owner is written in hexadecimal digits. -/
theorem isDigit_of_validOwner {pid : ℤ} {token : Text} (h : validOwner pid token = true) :
    ∀ p ∈ token, IsDigit p := fun p hp =>
  isDigit_of_mem_hex p ((of_decide_eq_true h).2.2.2.2 p hp)

/-- What ends a run of digits is told from the first that is none. -/
theorem split_of_not_mem {α : Type} {a : α} {l m l' m' : List α} (hl : a ∉ l) (hl' : a ∉ l')
    (h : l ++ a :: m = l' ++ a :: m') : l = l' ∧ m = m' := by
  induction l generalizing l' with
  | nil =>
    cases l' with
    | nil => exact ⟨rfl, (List.cons.inj h).2⟩
    | cons b l' => exact absurd (List.mem_cons_self) ((List.cons.inj h).1 ▸ hl')
  | cons b l ih =>
    cases l' with
    | nil => exact absurd (List.mem_cons_self) ((List.cons.inj h).1 ▸ hl)
    | cons b' l' =>
      obtain ⟨rfl, hrest⟩ := List.cons.inj h
      obtain ⟨rfl, hm⟩ := ih (fun ha => hl (List.mem_cons_of_mem _ ha))
        (fun ha => hl' (List.mem_cons_of_mem _ ha)) hrest
      exact ⟨rfl, hm⟩

/-- The text of a marker but for the brace at its end. -/
def markerStart (pid : ℕ) (token : Text) : Text :=
  Text.ofString "\x7b\"pid\":" ++ (Text.ofChars (natText pid) ++ (Text.ofString ",\"token\":\"" ++
    (token ++ Text.ofString "\",\"version\":1")))

/-- The text of a marker ends with its only brace. -/
theorem markerText_eq (pid : ℕ) (token : Text) :
    markerText pid token = markerStart pid token ++ [.ch '}'] := by
  simp only [markerText, markerStart, List.append_assoc]
  rfl

/-- A marker has one closing brace, at its end. -/
theorem value_of_markerStart {pid : ℕ} {token : Text} (h : ∀ p ∈ token, IsDigit p) :
    ∀ p ∈ markerStart pid token, p.value < 125 := by
  have hdigit : ∀ p, IsDigit p → p.value < 125 := fun p hp => by
    rcases hp with hp | hp
    · omega
    · omega
  refine List.forall_mem_append.2 ⟨by decide, List.forall_mem_append.2 ⟨?_, ?_⟩⟩
  · exact fun p hp => hdigit p (isDigit_of_natText hp)
  · refine List.forall_mem_append.2 ⟨by decide, List.forall_mem_append.2 ⟨?_, by decide⟩⟩
    exact fun p hp => hdigit p (h p hp)

/-- A marker is within the limit that its reader has. -/
theorem length_of_encodeMarker {pid : ℕ} {token : Text} {data : Bytes}
    (h : encodeMarker pid token = some data) : data ≠ [] ∧ data.length ≤ MARKER_MAX_BYTES := by
  unfold encodeMarker at h
  split at h
  · rename_i hvalid
    obtain rfl := Option.some.inj h
    obtain ⟨hpos, hpid, -, htoken, -⟩ := of_decide_eq_true hvalid
    have hdigits : (natText pid).length ≤ 10 := by
      rw [length_natText (by omega)]
      exact (Nat.digits_length_le_iff (by decide) pid).2 (by omega)
    unfold TOKEN_MAX_HEX at htoken
    have hlength : (Encoding.ascii (markerText pid token)).length =
        7 + ((natText pid).length + (10 + (token.length + (13 + 1)))) := by
      simp only [Encoding.ascii, markerText, List.length_map, List.length_append, Text.ofChars]
      rfl
    unfold MARKER_MAX_BYTES
    exact ⟨List.ne_nil_of_length_pos (by omega), by omega⟩
  · cases h

/-- A marker that can be written has a token of digits, and its last byte is the brace. -/
theorem encodeMarker_eq_some {pid : ℕ} {token : Text} {data : Bytes}
    (h : encodeMarker pid token = some data) :
    (∀ p ∈ token, IsDigit p) ∧ data = Encoding.ascii (markerStart pid token) ++ [0x7D] := by
  unfold encodeMarker at h
  split at h
  · rename_i hvalid
    refine ⟨isDigit_of_validOwner hvalid, (Option.some.inj h).symm.trans ?_⟩
    rw [markerText_eq, Encoding.ascii, List.map_append]
    rfl
  · cases h

/-- There is no brace before the last byte, so that no part of a marker is one. -/
theorem brace_not_mem {pid : ℕ} {token : Text} (h : ∀ p ∈ token, IsDigit p) :
    (0x7D : UInt8) ∉ Encoding.ascii (markerStart pid token) := by
  intro hmem
  obtain ⟨p, hp, hbyte⟩ := List.mem_map.1 hmem
  have hlt := value_of_markerStart h p hp
  have hvalue := congrArg UInt8.toNat hbyte
  rw [UInt8.toNat_ofNat', Nat.mod_eq_of_lt (lt_trans hlt (by decide))] at hvalue
  exact absurd hvalue hlt.ne

/-- **No part of a marker is a marker.** -/
theorem encodeMarker_eq_of_prefix {pid pid' : ℕ} {token token' : Text} {data data' : Bytes}
    (h : encodeMarker pid token = some data) (h' : encodeMarker pid' token' = some data')
    (hpart : data' <+: data) : data' = data := by
  obtain ⟨hdigits, rfl⟩ := encodeMarker_eq_some h
  obtain ⟨hdigits', rfl⟩ := encodeMarker_eq_some h'
  rcases List.prefix_concat_iff.1 hpart with heq | hstart
  · exact heq
  · exact absurd (hstart.subset (List.mem_append_right _ List.mem_cons_self)) (brace_not_mem hdigits)

/-- **A marker has one owner.** -/
theorem encodeMarker_inj {pid pid' : ℕ} {token token' : Text} {data : Bytes}
    (h : encodeMarker pid token = some data) (h' : encodeMarker pid' token' = some data) :
    pid = pid' ∧ token = token' := by
  obtain ⟨hdigits, rfl⟩ := encodeMarker_eq_some h
  obtain ⟨hdigits', heq⟩ := encodeMarker_eq_some h'
  have hlt : ∀ {pid token}, (∀ p ∈ token, IsDigit p) → ∀ p ∈ markerStart pid token, p.value < 256 :=
    fun h p hp => lt_trans (value_of_markerStart h p hp) (by decide)
  have hstart := Encoding.ascii_inj (hlt hdigits) (hlt hdigits') (List.append_cancel_right heq)
  have hcomma : ∀ n, CodePoint.ch ',' ∉ Text.ofChars (natText n) := fun n hmem =>
    absurd (isDigit_of_natText hmem) (by decide)
  have hquote : ∀ {token : Text}, (∀ p ∈ token, IsDigit p) → CodePoint.ch '"' ∉ token := fun h hmem =>
    absurd (h _ hmem) (by decide)
  obtain ⟨hpid, hrest⟩ := split_of_not_mem (hcomma pid) (hcomma pid') (List.append_cancel_left hstart)
  have hrest : Text.ofString "\"token\":\"" ++ (token ++ Text.ofString "\",\"version\":1") =
      Text.ofString "\"token\":\"" ++ (token' ++ Text.ofString "\",\"version\":1") := hrest
  obtain ⟨htoken, -⟩ := split_of_not_mem (hquote hdigits) (hquote hdigits') (List.append_cancel_left hrest)
  refine ⟨?_, htoken⟩
  rw [← readNat_natText pid, ← readNat_natText pid']
  exact congrArg readNat (List.map_injective_iff.2 (fun _ _ h => CodePoint.ch.inj h) hpid)

/-- **An owner is read from a marker that is being written** only when all of it is there. -/
theorem owner_of_decodeMarker {pid pid' : ℕ} {token token' : Text} {data data' : Bytes}
    (h : encodeMarker pid token = some data) (h' : decodeMarker data' = some (pid', token'))
    (hpart : data' <+: data) : pid = pid' ∧ token = token' := by
  have hwritten := encodeMarker_of_decodeMarker h'
  obtain rfl := encodeMarker_eq_of_prefix h hwritten hpart
  exact encodeMarker_inj h hwritten

end ConfigLock

end YasbLimitora

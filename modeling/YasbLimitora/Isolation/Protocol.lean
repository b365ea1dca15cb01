import Mathlib
import YasbLimitora.Lib.Except
import YasbLimitora.Lib.JsonOrder
import YasbLimitora.Lib.JsonRepeats
import YasbLimitora.Model.Vocabulary

/-!
# The frames of the worker

`isolation/protocol.py`: the messages that the parent and its worker exchange, and their
frames. A frame is the length of a payload in four bytes, and the payload: the message as
JSON in UTF-8, in its *canonical* text, without blanks and in the order of the keys. A
payload that is not canonical is refused.

Encoding and decoding are inverse to each other: `YasbLimitora.Protocol.decode_of_encode` and
`YasbLimitora.Protocol.encode_of_decode`. A message is a mapping, so that it
comes back with its fields in another order.

A message is an object of which the source checks the keys before the values, and the values one by
one; what is refused is refused with a code. A frame is the length of its payload in four bytes and
the payload, in the one spelling that the encoder gives. The decoder reads any spelling, checks the
message, and then compares the payload with what the encoder makes of it. So a message has one
frame, and what is decoded was encoded.
-/

namespace YasbLimitora

namespace Protocol

open Json (Fields field? orderFields)
open Encoding (Spelled utf8Bytes)

def CONTROL_MAX_BYTES : ℕ := 16 * 1024

def RESPONSE_MAX_BYTES : ℕ := 64 * 1024

/-- `_MAX_NONCE`. -/
def MAX_NONCE : ℕ := 128

inductive ProtocolErrorCode
  | eof
  | trailingBytes
  | oversize
  | invalidUtf8
  | invalidJson
  | duplicateKey
  | unknownField
  | invalidMessage
  | nonceMismatch
  | invalidTransition
  | transportTimeout
  | transportFailure
  | transportEof
  | invalidTimeout
deriving DecidableEq

/-! ### Messages -/

/-- The member of a vocabulary that a value names. -/
def member? {α : Type} (members : List α) (value : α → String) : Json Text → Option α
  | .str s => s.toString.bind (ofValue members value)
  | _ => none

/-- `_nonce`. -/
def checkNonce (value : Text) : Except ProtocolErrorCode Unit :=
  if value = [] ∨ MAX_NONCE < value.length then .error .invalidMessage else .ok ()

/-- The fields that a kind of message may have. -/
def allowedFields (kind : Text) : Option (List String) :=
  if kind = Text.ofString "contained" ∨ kind = Text.ofString "ready" ∨ kind = Text.ofString "go" then
    some ["type", "nonce"]
  else if kind = Text.ofString "result" then
    some ["type", "nonce", "provider", "state", "display_label", "error"]
  else if kind = Text.ofString "error" then some ["type", "nonce", "code"]
  else none

/-- The fields that it must have. -/
def requiredFields (kind : Text) : List String :=
  ["type", "nonce"] ++ if kind = Text.ofString "result" then ["provider", "state"]
    else if kind = Text.ofString "error" then ["code"] else []

/-- `display_label` of a result. -/
def checkLabel : Option (Json Text) → Except ProtocolErrorCode Unit
  | none | some .null => .ok ()
  | some (.str label) =>
    if label = [] ∨ 64 < label.length ∨ ∃ p ∈ label, p.value < 32 then .error .invalidMessage
    else .ok ()
  | some _ => .error .invalidMessage

/-- `SafeErrorCode` of a value. -/
def checkCode (x : Option (Json Text)) : Except ProtocolErrorCode Unit :=
  match x.bind (member? SafeErrorCode.all SafeErrorCode.value) with
  | some _ => .ok ()
  | none => .error .invalidMessage

/-- `error` of a result: it is there when the state is `safe_error`, and not otherwise. -/
def checkError (state : ProviderState) : Option (Json Text) → Except ProtocolErrorCode Unit
  | none | some .null => if state = .safeError then .error .invalidMessage else .ok ()
  | some (.obj fields) =>
    if state ≠ .safeError ∨ fields.map Prod.fst ≠ [Text.ofString "code"] then .error .invalidMessage
    else checkCode (field? "code" fields)
  | some _ => .error .invalidMessage

/-- The fields of a result. -/
def checkResult (fields : Fields) : Except ProtocolErrorCode Unit :=
  match (field? "provider" fields).bind (member? ProviderKey.all ProviderKey.value),
    (field? "state" fields).bind (member? ProviderState.all ProviderState.value) with
  | some _, some state => do
    checkLabel (field? "display_label" fields)
    checkError state (field? "error" fields)
  | _, _ => .error .invalidMessage

/-- What is checked of the fields of a message of some kind. -/
def checkKind (kind : Text) (fields : Fields) : Except ProtocolErrorCode Unit :=
  match allowedFields kind with
  | none => .error .invalidMessage
  | some allowed =>
    if ∃ p ∈ fields, p.1 ∉ allowed.map Text.ofString then .error .unknownField
    else if ∃ key ∈ requiredFields kind, Text.ofString key ∉ fields.map Prod.fst then
      .error .invalidMessage
    else if kind = Text.ofString "result" then checkResult fields
    else if kind = Text.ofString "error" then checkCode (field? "code" fields)
    else .ok ()

/-- What is checked of the fields of a message. -/
def checkFields (fields : Fields) : Except ProtocolErrorCode Unit :=
  match field? "type" fields, field? "nonce" fields with
  | some (.str kind), some (.str nonce) => do
    checkNonce nonce
    checkKind kind fields
  | _, _ => .error .invalidMessage

/-- `_validate`. -/
def validate : Json Text → Except ProtocolErrorCode Fields
  | .obj fields => do
    checkFields fields
    return fields
  | _ => .error .invalidMessage

/-- `_canonical`. -/
def canonical (message : Fields) : Except ProtocolErrorCode Bytes :=
  match Encoding.encodeUtf8 (Json.Style.compact.write (Json.ordered (.obj message))) with
  | some payload => .ok payload
  | none => .error .invalidJson

/-- `_limit_for`. -/
def limitFor (message : Fields) : ℕ :=
  match field? "type" message with
  | some (.str kind) =>
    if kind = Text.ofString "result" ∨ kind = Text.ofString "error" then RESPONSE_MAX_BYTES
    else CONTROL_MAX_BYTES
  | _ => CONTROL_MAX_BYTES

/-! ### Frames -/

/-- `struct.pack` of a length, in four bytes. -/
def pack (n : ℕ) : Bytes :=
  [UInt8.ofNat (n / 16777216), UInt8.ofNat (n / 65536), UInt8.ofNat (n / 256), UInt8.ofNat n]

/-- `struct.unpack` of four bytes. -/
def unpack : Bytes → ℕ
  | [a, b, c, d] => ((a.toNat * 256 + b.toNat) * 256 + c.toNat) * 256 + d.toNat
  | _ => 0

def encodeFrame (message : Json Text) : Except ProtocolErrorCode Bytes := do
  let validated ← validate message
  let payload ← canonical validated
  if limitFor validated < payload.length then .error .oversize else .ok (pack payload.length ++ payload)

/-- What `json.loads` takes: no constant, and no key twice. The numbers that it reads are of
no matter, since no message has one. -/
def reader : Json.Reader := ⟨fun l => some (String.ofList l), fun _ => none, false⟩

/-- How `json.loads` refuses a text: an object that has a key twice is refused by `_pairs`, when it
has been read. -/
def refusal (text : Text) : ProtocolErrorCode :=
  if Json.repeatsFirst reader text then .duplicateKey else .invalidJson

def decodePayload (payload : Bytes) : Except ProtocolErrorCode Fields :=
  match Encoding.utf8 false payload with
  | none => .error .invalidUtf8
  | some text =>
    match Json.parse reader text with
    | none => .error (refusal text)
    | some message => do
      let validated ← validate message
      let written ← canonical validated
      if written ≠ payload then .error .invalidJson
      else if limitFor validated < payload.length then .error .oversize
      else .ok validated

/-- `RESPONSE_MAX_BYTES`, or the limit that is asked for. -/
def maximum (limit : Option ℤ) : ℤ := limit.getD RESPONSE_MAX_BYTES

def decodeFrame (limit : Option ℤ) (data : Bytes) : Except ProtocolErrorCode Fields :=
  if data.length < 4 then .error .eof
  else if maximum limit < unpack (data.take 4) then .error .oversize
  else if data.length < unpack (data.take 4) + 4 then .error .eof
  else if unpack (data.take 4) + 4 < data.length then .error .trailingBytes
  else decodePayload (data.drop 4)

/-! ### The length of a frame -/

theorem pack_length (n : ℕ) : (pack n).length = 4 := rfl

theorem unpack_pack {n : ℕ} (h : n < 2 ^ 32) : unpack (pack n) = n := by
  simp only [pack, unpack, UInt8.toNat_ofNat']
  omega

theorem pack_unpack {l : Bytes} (h : l.length = 4) : pack (unpack l) = l := by
  obtain ⟨a, b, c, d, rfl⟩ := List.length_eq_four.1 h
  have ha := a.toNat_lt
  have hb := b.toNat_lt
  have hc := c.toNat_lt
  have hd := d.toNat_lt
  rw [unpack, pack]
  congr 1
  · rw [← UInt8.toNat_inj, UInt8.toNat_ofNat']
    omega
  congr 1
  · rw [← UInt8.toNat_inj, UInt8.toNat_ofNat']
    omega
  congr 1
  · rw [← UInt8.toNat_inj, UInt8.toNat_ofNat']
    omega
  congr 1
  · rw [← UInt8.toNat_inj, UInt8.toNat_ofNat']
    omega

theorem unpack_lt (l : Bytes) : unpack l < 2 ^ 32 := by
  unfold unpack
  split
  · next a b c d =>
    have ha := a.toNat_lt
    have hb := b.toNat_lt
    have hc := c.toNat_lt
    have hd := d.toNat_lt
    omega
  · decide

/-! ### What is checked does not depend on the order of the fields -/

section Order

variable {fields fields' : Fields}

theorem field?_perm (hnodup : (fields.map Prod.fst).Nodup) (h : fields.Perm fields') (key : String) :
    field? key fields = field? key fields' := Json.get?_perm hnodup h

theorem checkKind_perm (hnodup : (fields.map Prod.fst).Nodup) (h : fields.Perm fields') (kind : Text) :
    checkKind kind fields = checkKind kind fields' := by
  have hkeys : ∀ key, key ∈ fields.map Prod.fst ↔ key ∈ fields'.map Prod.fst := fun key =>
    (h.map Prod.fst).mem_iff
  simp only [checkKind, checkResult, field?_perm hnodup h, h.mem_iff, hkeys]

theorem checkFields_perm (hnodup : (fields.map Prod.fst).Nodup) (h : fields.Perm fields') :
    checkFields fields = checkFields fields' := by
  simp only [checkFields, field?_perm hnodup h, checkKind_perm hnodup h]

theorem limitFor_perm (hnodup : (fields.map Prod.fst).Nodup) (h : fields.Perm fields') :
    limitFor fields = limitFor fields' := by
  simp only [limitFor, field?_perm hnodup h]

end Order

theorem validate_eq_ok_iff {message : Json Text} {fields : Fields} :
    validate message = .ok fields ↔ message = .obj fields ∧ checkFields fields = .ok () := by
  unfold validate
  split
  · next fields' =>
    rw [bind_eq_ok_iff]
    constructor
    · rintro ⟨⟨⟩, hcheck, h⟩
      obtain rfl := Except.ok.inj h
      exact ⟨rfl, hcheck⟩
    · rintro ⟨h, hcheck⟩
      obtain rfl := Json.obj.inj h
      exact ⟨(), hcheck, rfl⟩
  · next hobj => exact iff_of_false nofun fun h => hobj fields h.1

/-! ### The values of a message -/

theorem eq_of_member? {α : Type} {members : List α} {value : α → String} {x : Json Text} {a : α}
    (h : member? members value x = some a) : x = .str (Text.ofString (value a)) := by
  unfold member? at h
  split at h
  · obtain ⟨s, hs, ha⟩ := Option.bind_eq_some_iff.1 h
    rw [Text.ofString_of_toString hs, value_of_ofValue ha]
  · cases h

/-- A value of a message: none, a string, or an error. -/
inductive IsSimple : Json Text → Prop
  | null : IsSimple .null
  | str (s : Text) : IsSimple (.str s)
  | error (code : SafeErrorCode) :
    IsSimple (.obj [(Text.ofString "code", .str (Text.ofString code.value))])

theorem IsSimple.ordered {x : Json Text} (h : IsSimple x) : Json.ordered x = x := by
  rcases h with _ | s | code
  all_goals rfl

theorem paired_ofString (s : String) : (Text.ofString s).Paired := Text.paired_ofChars _

/-- The strings of a value that is spelled are paired. -/
theorem IsSimple.plain {x : Json Text} (h : IsSimple x) (hspelled : Spelled (Json.Style.compact.write x)) :
    x.Plain := by
  rcases h with _ | s | code
  · exact trivial
  · exact Json.paired_of_spelled (Json.Style.spelled_of_quote hspelled)
  · exact ⟨List.nodup_singleton _, paired_ofString _, paired_ofString _, trivial⟩

theorem checkLabel_spec {x : Json Text} (h : checkLabel (some x) = .ok ()) : IsSimple x := by
  unfold checkLabel at h
  split at h
  · cases ‹some x = none›
  · next heq =>
    obtain rfl := Option.some.inj heq
    exact .null
  · next heq =>
    obtain rfl := Option.some.inj heq
    exact .str _
  · cases h

theorem checkCode_spec {x : Option (Json Text)} (h : checkCode x = .ok ()) :
    ∃ code : SafeErrorCode, x = some (.str (Text.ofString code.value)) := by
  unfold checkCode at h
  split at h
  · next code hcode =>
    obtain ⟨y, rfl, hy⟩ := Option.bind_eq_some_iff.1 hcode
    exact ⟨code, congrArg some (eq_of_member? hy)⟩
  · cases h

theorem checkError_spec {state : ProviderState} {x : Json Text} (h : checkError state (some x) = .ok ()) :
    IsSimple x := by
  unfold checkError at h
  split at h
  · cases ‹some x = none›
  · next heq =>
    obtain rfl := Option.some.inj heq
    exact .null
  · next fields heq =>
    obtain rfl := Option.some.inj heq
    split_ifs at h with hkeys
    obtain ⟨code, hcode⟩ := checkCode_spec h
    obtain ⟨p, rfl⟩ : ∃ p, fields = [p] :=
      List.length_eq_one_iff.1 (by
        have hlength := congrArg List.length (not_not.1 (not_or.1 hkeys).2)
        rwa [List.length_map] at hlength)
    obtain rfl := List.mem_singleton.1 (Json.mem_of_get? hcode)
    exact .error code
  · cases h

/-- What a result was checked to be. -/
theorem checkResult_spec {fields : Fields} (h : checkResult fields = .ok ()) :
    (∃ s, field? "provider" fields = some (.str s)) ∧ (∃ s, field? "state" fields = some (.str s)) ∧
      (∀ x, field? "display_label" fields = some x → IsSimple x) ∧
      ∀ x, field? "error" fields = some x → IsSimple x := by
  unfold checkResult at h
  split at h
  · next state hprovider hstate =>
    obtain ⟨provider, hprovider, hmember⟩ := Option.bind_eq_some_iff.1 hprovider
    obtain ⟨text, hstate, hmember'⟩ := Option.bind_eq_some_iff.1 hstate
    obtain ⟨⟨⟩, hlabel, herror⟩ := bind_eq_ok_iff.1 h
    refine ⟨⟨_, hprovider.trans (congrArg some (eq_of_member? hmember))⟩,
      ⟨_, hstate.trans (congrArg some (eq_of_member? hmember'))⟩, fun x hx => ?_, fun x hx => ?_⟩
    · rw [hx] at hlabel
      exact checkLabel_spec hlabel
    · rw [hx] at herror
      exact checkError_spec herror
  · cases h

/-- The fields of each kind of message. -/
theorem allowedFields_cases {kind : Text} {allowed : List String} (h : allowedFields kind = some allowed) :
    (kind = Text.ofString "result" ∧
        allowed = ["type", "nonce", "provider", "state", "display_label", "error"]) ∨
      (kind = Text.ofString "error" ∧ allowed = ["type", "nonce", "code"]) ∨
      (kind ≠ Text.ofString "result" ∧ kind ≠ Text.ofString "error" ∧ allowed = ["type", "nonce"]) := by
  unfold allowedFields at h
  split_ifs at h with hcontrol hresult herror
  · refine Or.inr (Or.inr ⟨?_, ?_, (Option.some.inj h).symm⟩)
    · rintro rfl
      exact absurd hcontrol (by decide)
    · rintro rfl
      exact absurd hcontrol (by decide)
  · exact Or.inl ⟨hresult, (Option.some.inj h).symm⟩
  · exact Or.inr (Or.inl ⟨herror, (Option.some.inj h).symm⟩)

theorem IsSimple.of_str {x : Option (Json Text)} {s : Text} (h : x = some (.str s)) :
    ∀ y, x = some y → IsSimple y := by
  rintro y rfl
  obtain rfl := Option.some.inj h
  exact .str s

/-- What the fields of a message of some kind were checked to be. -/
theorem checkKind_spec {fields : Fields} {kind nonce : Text} (hkind : field? "type" fields = some (.str kind))
    (hnonce : field? "nonce" fields = some (.str nonce)) (h : checkKind kind fields = .ok ()) :
    ∃ allowed : List String, (∀ p ∈ fields, p.1 ∈ allowed.map Text.ofString) ∧
      ∀ word ∈ allowed, ∀ x, field? word fields = some x → IsSimple x := by
  unfold checkKind at h
  split at h
  · cases h
  next allowed hallowed =>
  split_ifs at h with hunknown hrequired hresult herror
  all_goals
    refine ⟨allowed, fun p hp => not_not.1 fun hmem => hunknown ⟨p, hp, hmem⟩, ?_⟩
    rcases allowedFields_cases hallowed with ⟨hkind', rfl⟩ | ⟨hkind', rfl⟩ | ⟨hkind', hkind'', rfl⟩
  · obtain ⟨⟨provider, hprovider⟩, ⟨state, hstate⟩, hlabel, herror⟩ := checkResult_spec h
    intro word hword
    simp only [List.mem_cons, List.not_mem_nil, or_false] at hword
    rcases hword with rfl | rfl | rfl | rfl | rfl | rfl
    · exact .of_str hkind
    · exact .of_str hnonce
    · exact .of_str hprovider
    · exact .of_str hstate
    · exact hlabel
    · exact herror
  · exact absurd (hresult.symm.trans hkind') (by decide)
  · exact absurd hresult hkind'
  · exact absurd hkind' hresult
  · obtain ⟨code, hcode⟩ := checkCode_spec h
    intro word hword
    simp only [List.mem_cons, List.not_mem_nil, or_false] at hword
    rcases hword with rfl | rfl | rfl
    · exact .of_str hkind
    · exact .of_str hnonce
    · exact .of_str hcode
  · exact absurd herror hkind''
  · exact absurd hkind' hresult
  · exact absurd hkind' herror
  · intro word hword
    simp only [List.mem_cons, List.not_mem_nil, or_false] at hword
    rcases hword with rfl | rfl
    · exact .of_str hkind
    · exact .of_str hnonce

/-- **The values of a message are simple**, and its keys are words. -/
theorem checkFields_spec {fields : Fields} (hnodup : (fields.map Prod.fst).Nodup)
    (h : checkFields fields = .ok ()) : ∀ p ∈ fields, p.1.Paired ∧ IsSimple p.2 := by
  unfold checkFields at h
  split at h
  · next kind nonce hkind hnonce =>
    obtain ⟨⟨⟩, -, h⟩ := bind_eq_ok_iff.1 h
    obtain ⟨allowed, hkeys, hvalues⟩ := checkKind_spec hkind hnonce h
    intro p hp
    obtain ⟨word, hword, hkey⟩ := List.mem_map.1 (hkeys p hp)
    have hget : field? word fields = some p.2 := by
      refine Json.get?_of_mem hnodup ?_
      rw [hkey]
      exact hp
    exact ⟨hkey ▸ paired_ofString word, hvalues word hword p.2 hget⟩
  · cases h

/-! ### Encoding and decoding -/

section Codec

variable {message fields : Fields} {payload frame : Bytes}

/-- The fields of a message in order are those of its canonical text. -/
theorem ordered_obj (h : ∀ p ∈ fields, IsSimple p.2) :
    Json.ordered (.obj fields) = .obj (orderFields fields) := by
  rw [Json.ordered, Json.orderedValues_of_forall fun p hp => (h p hp).ordered]

theorem canonical_eq_ok_iff : canonical fields = .ok payload ↔
    Encoding.utf8 false payload = some (Json.Style.compact.write (Json.ordered (.obj fields))) := by
  rw [← Encoding.encodeUtf8_eq_some_iff, canonical]
  split
  · next payload' heq =>
    rw [heq]
    exact ⟨fun h => congrArg some (Except.ok.inj h), fun h => congrArg Except.ok (Option.some.inj h)⟩
  · next heq =>
    rw [heq]
    exact iff_of_false nofun nofun

theorem limitFor_le (fields : Fields) : limitFor fields ≤ RESPONSE_MAX_BYTES := by
  unfold limitFor
  split
  · split_ifs
    · exact le_rfl
    · exact (by decide : CONTROL_MAX_BYTES ≤ RESPONSE_MAX_BYTES)
  · exact (by decide : CONTROL_MAX_BYTES ≤ RESPONSE_MAX_BYTES)

theorem encodeFrame_eq_ok_iff : encodeFrame (.obj message) = .ok frame ↔ checkFields message = .ok () ∧
    ∃ payload, canonical message = .ok payload ∧ payload.length ≤ limitFor message ∧
      frame = pack payload.length ++ payload := by
  rw [encodeFrame, bind_eq_ok_iff]
  constructor
  · rintro ⟨validated, hvalidate, h⟩
    obtain ⟨hobj, hcheck⟩ := validate_eq_ok_iff.1 hvalidate
    obtain rfl := Json.obj.inj hobj
    obtain ⟨payload, hpayload, h⟩ := bind_eq_ok_iff.1 h
    split_ifs at h with hlimit
    exact ⟨hcheck, payload, hpayload, not_lt.1 hlimit, (Except.ok.inj h).symm⟩
  · rintro ⟨hcheck, payload, hpayload, hlimit, rfl⟩
    refine ⟨message, validate_eq_ok_iff.2 ⟨rfl, hcheck⟩, bind_eq_ok_iff.2 ⟨payload, hpayload, ?_⟩⟩
    rw [if_neg (not_lt.2 hlimit)]

variable {limit : Option ℤ} {data : Bytes}

theorem decodePayload_eq_ok_iff : decodePayload payload = .ok fields ↔
    (∃ text, Encoding.utf8 false payload = some text ∧ Json.parse reader text = some (.obj fields)) ∧
      checkFields fields = .ok () ∧ canonical fields = .ok payload ∧ payload.length ≤ limitFor fields := by
  unfold decodePayload
  split
  · next hutf8 =>
    refine iff_of_false nofun ?_
    rintro ⟨⟨text, htext, -⟩, -⟩
    rw [hutf8] at htext
    cases htext
  · next text hutf8 =>
    split
    · next hparse =>
      refine iff_of_false nofun ?_
      rintro ⟨⟨text', htext, hparse'⟩, -⟩
      obtain rfl := Option.some.inj (hutf8.symm.trans htext)
      rw [hparse] at hparse'
      cases hparse'
    · next message hparse =>
      rw [bind_eq_ok_iff]
      constructor
      · rintro ⟨validated, hvalidate, h⟩
        obtain ⟨rfl, hcheck⟩ := validate_eq_ok_iff.1 hvalidate
        obtain ⟨written, hwritten, heq⟩ := bind_eq_ok_iff.1 h
        split_ifs at heq with hne hlimit
        obtain rfl := not_not.1 hne
        obtain rfl := Except.ok.inj heq
        exact ⟨⟨text, hutf8, hparse⟩, hcheck, hwritten, not_lt.1 hlimit⟩
      · rintro ⟨⟨text', htext, hparse'⟩, hcheck, hcanonical, hlimit⟩
        obtain rfl := Option.some.inj (hutf8.symm.trans htext)
        obtain rfl := Option.some.inj (hparse.symm.trans hparse')
        refine ⟨fields, validate_eq_ok_iff.2 ⟨rfl, hcheck⟩, bind_eq_ok_iff.2 ⟨payload, hcanonical, ?_⟩⟩
        rw [if_neg (not_not.2 rfl), if_neg (not_lt.2 hlimit)]

theorem decodeFrame_eq_ok_iff : decodeFrame limit data = .ok fields ↔
    ∃ payload, data = pack payload.length ++ payload ∧ (payload.length : ℤ) ≤ maximum limit ∧
      payload.length < 2 ^ 32 ∧ decodePayload payload = .ok fields := by
  unfold decodeFrame
  constructor
  · intro h
    split_ifs at h with hshort hlimit hless hmore
    have htake : (data.take 4).length = 4 := by
      rw [List.length_take]
      omega
    have hlength : (data.drop 4).length = unpack (data.take 4) := by
      rw [List.length_drop]
      omega
    have hlt := unpack_lt (data.take 4)
    refine ⟨data.drop 4, ?_, ?_, ?_, h⟩
    · rw [hlength, pack_unpack htake, List.take_append_drop]
    · rw [hlength]
      exact not_lt.1 hlimit
    · rw [hlength]
      exact hlt
  · rintro ⟨payload, rfl, hlimit, hlt, h⟩
    have htake : (pack payload.length ++ payload).take 4 = pack payload.length := rfl
    have hdrop : (pack payload.length ++ payload).drop 4 = payload := rfl
    have hlength : (pack payload.length ++ payload).length = payload.length + 4 := by
      rw [List.length_append, pack_length, Nat.add_comm]
    rw [htake, hdrop, unpack_pack hlt, hlength, if_neg (by omega), if_neg (not_lt.2 hlimit),
      if_neg (lt_irrefl _), if_neg (lt_irrefl _), h]

/-- A message in the order of its keys is read back from its canonical text. -/
theorem parse_canonical (hnodup : (message.map Prod.fst).Nodup) (hcheck : checkFields message = .ok ())
    (hspelled : Spelled (Json.Style.compact.write (.obj (orderFields message)))) :
    Json.parse reader (Json.Style.compact.write (.obj (orderFields message)))
      = some (.obj (orderFields message)) := by
  have hperm := Json.orderFields_perm message
  have hplain : (Json.obj (orderFields message)).Plain := by
    refine ⟨(Json.nodup_keys_perm hperm).2 hnodup, Json.plainFields_iff.2 fun p hp => ?_⟩
    obtain ⟨hkey, hsimple⟩ := checkFields_spec hnodup hcheck p (hperm.mem_iff.1 hp)
    exact ⟨hkey, hsimple.plain (Json.Style.spelled_of_write_obj hspelled p hp)⟩
  have hparse := Json.parse_write (r := reader) Json.Style.sound_compact hplain (Or.inl rfl)
  rwa [List.append_nil] at hparse

/-- **What is encoded is decoded.** -/
theorem decode_of_encode (hnodup : (message.map Prod.fst).Nodup)
    (h : encodeFrame (.obj message) = .ok frame) :
    decodeFrame none frame = .ok (orderFields message) := by
  obtain ⟨hcheck, payload, hcanonical, hlimit, rfl⟩ := encodeFrame_eq_ok_iff.1 h
  have hperm := Json.orderFields_perm message
  have hnodup' := (Json.nodup_keys_perm hperm).2 hnodup
  have hcheck' : checkFields (orderFields message) = .ok () :=
    (checkFields_perm hnodup' hperm).trans hcheck
  have hordered := ordered_obj fun p hp => (checkFields_spec hnodup hcheck p hp).2
  have hordered' := ordered_obj fun p hp => (checkFields_spec hnodup' hcheck' p hp).2
  rw [Json.orderFields_idem] at hordered'
  have hutf8 := canonical_eq_ok_iff.1 hcanonical
  rw [hordered] at hutf8
  have hresponse := hlimit.trans (limitFor_le message)
  have hbound : payload.length < 2 ^ 32 := lt_of_le_of_lt hresponse (by decide)
  refine decodeFrame_eq_ok_iff.2 ⟨payload, rfl, Int.ofNat_le.2 hresponse, hbound,
    decodePayload_eq_ok_iff.2 ⟨⟨_, hutf8, ?_⟩, hcheck', ?_, ?_⟩⟩
  · exact parse_canonical hnodup hcheck (Encoding.utf8_eq_some_iff.1 hutf8).2
  · rw [canonical_eq_ok_iff, hordered', hutf8]
  · rwa [limitFor_perm hnodup' hperm]

/-- **What is decoded is encoded so.** -/
theorem encode_of_decode (h : decodeFrame limit data = .ok fields) :
    encodeFrame (.obj fields) = .ok data := by
  obtain ⟨payload, rfl, -, -, hpayload⟩ := decodeFrame_eq_ok_iff.1 h
  obtain ⟨-, hcheck, hcanonical, hlimit⟩ := decodePayload_eq_ok_iff.1 hpayload
  exact encodeFrame_eq_ok_iff.2 ⟨hcheck, payload, hcanonical, hlimit, rfl⟩

end Codec

end Protocol

end YasbLimitora

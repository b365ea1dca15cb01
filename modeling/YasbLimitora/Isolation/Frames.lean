import Mathlib
import YasbLimitora.Isolation.Protocol

/-!
# Reading frames

The two readers of `isolation/protocol.py`, `read_frame` and `read_frame_with_deadline`. They
read from a transport, which gives a part of what it is asked for, and differ in the clock
that bounds them (`YasbLimitora.Protocol.readFrame`,
`YasbLimitora.Protocol.readFrameWithDeadline`).

A `YasbLimitora.Protocol.Channel` is a transport with some bytes to come, in chunks of any
sizes. From a channel that is in time, a reader takes a frame exactly if the bytes begin
with one that decodes, and leaves what follows it (`YasbLimitora.Protocol.frame_codec`).

A transport may give fewer bytes than it is asked for, but never none while there are some. The loop
that reads an exact number of bytes is followed by induction on what is left to read, with the
chunks of the channel beside it. How the bytes are cut into chunks has then no part in the result,
which is the point of having a length in front of a frame.
-/

namespace YasbLimitora

namespace Protocol

open Json (Fields)

/-- What a call of `read` comes to. -/
inductive ReadAnswer
  | bytes (chunk : Bytes)
  | timeout
  | failed
  | other
deriving DecidableEq

/-- A transport with the clock of the process, in a world of its own. -/
structure Endpoint (σ : Type) where
  read : ℕ → ℚ → StateM σ ReadAnswer
  monotonic : StateM σ ℚ

/-- A deadline with a clock of its own. -/
structure Context (σ : Type) where
  deadlineNs : ℤ
  clockNs : StateM σ ℤ

/-- What reads in a world, and may fail. -/
abbrev Reading (σ α : Type) := ExceptT ProtocolErrorCode (StateM σ) α

section Readers

variable {σ : Type} (e : Endpoint σ)

/-- `_deadline`, of what `float` makes of the value, if that is a finite number. -/
def deadlineOf : Option ℚ → Reading σ ℚ
  | none => throw .invalidTimeout
  | some timeout =>
    if timeout ≤ 0 then throw .invalidTimeout
    else do
      let now ← e.monotonic
      return now + timeout

/-- `_remaining`. -/
def remaining (deadline : ℚ) : Reading σ ℚ := do
  let now ← e.monotonic
  if deadline - now ≤ 0 then throw .transportTimeout else return deadline - now

/-- `_remaining_context`, in seconds. -/
def remainingContext (context : Context σ) : Reading σ ℚ := do
  let now ← context.clockNs
  if context.deadlineNs - now ≤ 0 then throw .transportTimeout
  else return (context.deadlineNs - now) / 1000000000

/-- The bytes that were given, if they were given. -/
def chunkOf : ReadAnswer → Except ProtocolErrorCode Bytes
  | .bytes chunk => .ok chunk
  | .timeout => .error .transportTimeout
  | .failed => .error .transportFailure
  | .other => .error .transportEof

variable (budget : Reading σ ℚ)

/-- The loop of `_read_exact` and of `_read_exact_context`, of which each asks for the time that
remains in its own way. -/
def readLoop (length : ℕ) (result : Bytes) : Reading σ Bytes :=
  if result.length < length then do
    let seconds ← budget
    let answer ← e.read (length - result.length) seconds
    let chunk ← ofExcept (chunkOf answer)
    if _h : chunk = [] then throw .transportEof else readLoop length (result ++ chunk)
  else return result
termination_by length - result.length
decreasing_by
  have hpos := List.length_pos_of_ne_nil _h
  rw [List.length_append]
  omega

def readExact (length : ℕ) : Reading σ Bytes := readLoop e budget length []

/-- A frame: four bytes, and as many as they say. -/
def readFrameWithin (limit : Option ℤ) : Reading σ Fields := do
  let header ← readExact e budget 4
  if maximum limit < unpack header then throw .oversize
  else do
    let payload ← readExact e budget (unpack header)
    ofExcept (decodeFrame (some (maximum limit)) (header ++ payload))

def readFrame (timeout : Option ℚ) (limit : Option ℤ) : Reading σ Fields := do
  let deadline ← deadlineOf e timeout
  readFrameWithin e (remaining e deadline) limit

def readFrameWithDeadline (context : Context σ) (limit : Option ℤ) : Reading σ Fields :=
  readFrameWithin e (remainingContext context) limit

end Readers

/-! ### How a reader runs -/

namespace Reading

variable {σ α β : Type} {x : Reading σ α} {f : α → Reading σ β} {s s' : σ}

theorem bind_eq (x : Reading σ α) (f : α → Reading σ β) (s : σ) :
    (x >>= f) s = ExceptT.bindCont f (x s).1 (x s).2 := rfl

/-- What goes on after a step. -/
theorem bind_ok {a : α} (h : x s = (.ok a, s')) : (x >>= f) s = f a s' := by
  rw [bind_eq, h]
  rfl

/-- What fails at a step. -/
theorem bind_error {code : ProtocolErrorCode} (h : x s = (.error code, s')) :
    (x >>= f) s = (.error code, s') := by
  rw [bind_eq, h]
  rfl

theorem ofExcept_run (r : Except ProtocolErrorCode α) (s : σ) :
    (ofExcept r : Reading σ α) s = (r, s) := by
  cases r <;> rfl

end Reading

/-! ### Channels -/

/-- Bytes to come, the sizes of the chunks they come in, and what the clocks will say. -/
structure Channel where
  data : Bytes
  sizes : ℕ → ℕ
  monotonic : ℕ → ℚ
  clockNs : ℕ → ℤ

namespace Channel

/-- How much the next read gives, of what it is asked for. -/
def give (ch : Channel) (size : ℕ) : ℕ := max 1 (min size (ch.sizes 0))

def afterRead (ch : Channel) (size : ℕ) : Channel :=
  { ch with data := ch.data.drop (ch.give size), sizes := fun k => ch.sizes (k + 1) }

/-- A channel is read in its chunks. -/
def endpoint : Endpoint Channel where
  read size _ ch := (.bytes (ch.data.take (ch.give size)), ch.afterRead size)
  monotonic ch := (ch.monotonic 0, { ch with monotonic := fun k => ch.monotonic (k + 1) })

def context (deadlineNs : ℤ) : Context Channel where
  deadlineNs := deadlineNs
  clockNs ch := (ch.clockNs 0, { ch with clockNs := fun k => ch.clockNs (k + 1) })

end Channel

/-! ### Reading from a channel -/

/-- Time that is asked for in a world of channels, as long as they are in time. -/
structure Granted (budget : Reading Channel ℚ) (Timely : Channel → Prop) : Prop where
  budget : ∀ ch, Timely ch → ∃ seconds ch', budget ch = (.ok seconds, ch') ∧ ch'.data = ch.data ∧ Timely ch'
  read : ∀ ch size, Timely ch → Timely (ch.afterRead size)

section Channels

variable {budget : Reading Channel ℚ} {Timely : Channel → Prop}

/-- A read gives something, and no more than there is to come. -/
theorem Channel.take_give_ne_nil {ch : Channel} (h : ch.data ≠ []) (size : ℕ) :
    ch.data.take (ch.give size) ≠ [] := by
  have hgive : 1 ≤ ch.give size := le_max_left _ _
  have hpos := List.length_pos_of_ne_nil h
  refine List.ne_nil_of_length_pos ?_
  rw [List.length_take]
  omega

/-- One turn of the loop, up to what it was given. -/
theorem readLoop_step (hb : Granted budget Timely) {length : ℕ} {result : Bytes} {ch : Channel}
    (hch : Timely ch) (hlt : result.length < length) :
    ∃ ch', Timely ch' ∧ ch'.data = ch.data ∧ readLoop Channel.endpoint budget length result ch
      = (if ch'.data.take (ch'.give (length - result.length)) = [] then throw .transportEof
        else readLoop Channel.endpoint budget length
          (result ++ ch'.data.take (ch'.give (length - result.length))) :
            Reading Channel Bytes) (ch'.afterRead (length - result.length)) := by
  obtain ⟨seconds, ch', hbudget, hsame, hch'⟩ := hb.budget ch hch
  refine ⟨ch', hch', hsame, ?_⟩
  rw [readLoop, if_pos hlt, Reading.bind_ok hbudget]
  rfl

/-- A turn of the loop while there is something to come. -/
theorem readLoop_chunk (hb : Granted budget Timely) {length : ℕ} {result : Bytes} {ch : Channel}
    (hch : Timely ch) (hlt : result.length < length) (hdata : ch.data ≠ []) :
    ∃ chunk ch', Timely ch' ∧ ch.data = chunk ++ ch'.data ∧ chunk ≠ [] ∧
      result.length + chunk.length ≤ length ∧
      readLoop Channel.endpoint budget length result ch
        = readLoop Channel.endpoint budget length (result ++ chunk) ch' := by
  obtain ⟨ch', hch', hsame, hloop⟩ := readLoop_step hb hch hlt
  rw [← hsame] at hdata ⊢
  have hne := ch'.take_give_ne_nil hdata (length - result.length)
  have hgive : ch'.give (length - result.length) ≤ length - result.length :=
    max_le (by omega) (min_le_left _ _)
  refine ⟨_, ch'.afterRead (length - result.length), hb.read ch' _ hch',
    (List.take_append_drop _ _).symm, hne, ?_, ?_⟩
  · rw [List.length_take]
    omega
  · rw [hloop, if_neg hne]

/-- The end of what is to come ends the loop. -/
theorem readLoop_eof (hb : Granted budget Timely) {length : ℕ} {result : Bytes} {ch : Channel}
    (hch : Timely ch) (hlt : result.length < length) (hdata : ch.data = []) :
    ∃ ch', readLoop Channel.endpoint budget length result ch = (.error .transportEof, ch') := by
  obtain ⟨ch', -, hsame, hloop⟩ := readLoop_step hb hch hlt
  rw [hsame, hdata, List.take_nil, if_pos rfl] at hloop
  exact ⟨_, hloop⟩

/-- **The loop reads what is missing**, if so much is to come. -/
theorem readLoop_spec (hb : Granted budget Timely) {length : ℕ} {result : Bytes} {ch : Channel}
    (hch : Timely ch) (hle : result.length ≤ length) :
    (∀ needed rest, ch.data = needed ++ rest → result.length + needed.length = length →
      ∃ ch', Timely ch' ∧ ch'.data = rest ∧
        readLoop Channel.endpoint budget length result ch = (.ok (result ++ needed), ch')) ∧
      (result.length + ch.data.length < length →
        ∃ ch', readLoop Channel.endpoint budget length result ch = (.error .transportEof, ch')) := by
  induction hmissing : length - result.length using Nat.strong_induction_on generalizing result ch with
  | _ missing ih =>
    rcases hle.lt_or_eq with hlt | rfl
    · by_cases hdata : ch.data = []
      · refine ⟨fun needed rest hneeded hlength => ?_, fun _ => readLoop_eof hb hch hlt hdata⟩
        rw [hdata] at hneeded
        obtain ⟨rfl, -⟩ := List.append_eq_nil_iff.1 hneeded.symm
        exact absurd hlength hlt.ne
      · obtain ⟨chunk, ch', hch', happend, hne, hchunk, hloop⟩ := readLoop_chunk hb hch hlt hdata
        have hpos := List.length_pos_of_ne_nil hne
        rw [← List.length_append] at hchunk
        obtain ⟨hreads, hends⟩ := ih (length - (result ++ chunk).length)
          (by rw [List.length_append]; omega) hch' hchunk rfl
        rw [List.length_append] at hchunk hreads hends
        rw [hloop, happend]
        refine ⟨fun needed rest hneeded hlength => ?_, fun hshort => ?_⟩
        · -- the chunk is the first part of what is needed
          obtain ⟨needed', rfl⟩ : ∃ needed', needed = chunk ++ needed' := by
            have hchunks : chunk <+: needed :=
              List.prefix_of_prefix_length_le (List.prefix_append _ _) ⟨rest, hneeded.symm⟩ (by omega)
            obtain ⟨t, ht⟩ := hchunks
            exact ⟨t, ht.symm⟩
          rw [List.append_assoc] at hneeded
          rw [List.length_append] at hlength
          obtain ⟨ch'', hch'', hrest, hread⟩ := hreads needed' rest (List.append_cancel_left hneeded)
            (by omega)
          exact ⟨ch'', hch'', hrest, by rw [hread, List.append_assoc]⟩
        · rw [List.length_append] at hshort
          exact hends (by omega)
    · have hloop : readLoop Channel.endpoint budget result.length result ch = (.ok result, ch) := by
        rw [readLoop, if_neg (lt_irrefl _)]
        rfl
      rw [hloop]
      refine ⟨fun needed rest hneeded hlength => ?_, fun hshort => absurd hshort (by omega)⟩
      obtain rfl : needed = [] := List.eq_nil_of_length_eq_zero (by omega)
      exact ⟨ch, hch, hneeded, by rw [List.append_nil]⟩

/-- What is asked for is read, if so much is to come. -/
theorem readExact_append (hb : Granted budget Timely) {needed rest : Bytes} {ch : Channel}
    (hch : Timely ch) (hdata : ch.data = needed ++ rest) : ∃ ch', Timely ch' ∧ ch'.data = rest ∧
      readExact Channel.endpoint budget needed.length ch = (.ok needed, ch') :=
  (readLoop_spec hb hch (Nat.zero_le _)).1 needed rest hdata (Nat.zero_add _)

theorem readExact_short (hb : Granted budget Timely) {length : ℕ} {ch : Channel}
    (hch : Timely ch) (hshort : ch.data.length < length) :
    ∃ ch', readExact Channel.endpoint budget length ch = (.error .transportEof, ch') :=
  (readLoop_spec hb hch (Nat.zero_le _)).2 (by rwa [List.length_nil, Nat.zero_add])

variable {limit : Option ℤ} {message : Fields} {rest : Bytes}

theorem decodeFrame_maximum (data : Bytes) :
    decodeFrame (some (maximum limit)) data = decodeFrame limit data := rfl

/-- **A frame that decodes is taken**, and what follows it is left. -/
theorem readFrameWithin_of_decode (hb : Granted budget Timely) {ch : Channel} (hch : Timely ch)
    {frame : Bytes} (hframe : decodeFrame limit frame = .ok message)
    (hdata : ch.data = frame ++ rest) : ∃ ch', ch'.data = rest ∧
      readFrameWithin Channel.endpoint budget limit ch = (.ok message, ch') := by
  obtain ⟨payload, rfl, hlimit, hlt, -⟩ := decodeFrame_eq_ok_iff.1 hframe
  rw [List.append_assoc] at hdata
  obtain ⟨ch', hch', hdata', hheader⟩ := readExact_append hb hch hdata
  obtain ⟨ch'', -, hdata'', hpayload⟩ := readExact_append hb hch' hdata'
  have hunpack := unpack_pack hlt
  refine ⟨ch'', hdata'', (Reading.bind_ok hheader).trans ?_⟩
  rw [hunpack, if_neg (not_lt.2 hlimit), Reading.bind_ok hpayload, Reading.ofExcept_run,
    decodeFrame_maximum, hframe]

/-- **Nothing else is taken.** -/
theorem decode_of_readFrameWithin (hb : Granted budget Timely) {ch ch' : Channel} (hch : Timely ch)
    (h : readFrameWithin Channel.endpoint budget limit ch = (.ok message, ch')) :
    ∃ frame, decodeFrame limit frame = .ok message ∧ ch.data = frame ++ ch'.data := by
  rw [readFrameWithin] at h
  rcases lt_or_ge ch.data.length 4 with hshort | hlong
  · obtain ⟨ch₁, heof⟩ := readExact_short hb hch hshort
    rw [Reading.bind_error heof] at h
    cases h
  have htake : (ch.data.take 4).length = 4 := by
    rw [List.length_take]
    omega
  obtain ⟨ch₁, hch₁, hdata₁, hheader⟩ := readExact_append hb hch (List.take_append_drop 4 ch.data).symm
  rw [htake] at hheader
  rw [Reading.bind_ok hheader] at h
  split_ifs at h with hlimit
  · cases h
  rcases lt_or_ge ch₁.data.length (unpack (ch.data.take 4)) with hshort | hpayload
  · obtain ⟨ch₂, heof⟩ := readExact_short hb hch₁ hshort
    rw [Reading.bind_error heof] at h
    cases h
  · obtain ⟨ch₂, -, hdata₂, hread⟩ :=
      readExact_append hb hch₁ (List.take_append_drop (unpack (ch.data.take 4)) ch₁.data).symm
    rw [List.length_take, min_eq_left hpayload] at hread
    rw [Reading.bind_ok hread, Reading.ofExcept_run, decodeFrame_maximum] at h
    obtain ⟨hdecode, rfl⟩ := Prod.mk.inj h
    refine ⟨_, hdecode, ?_⟩
    rw [hdata₂, List.append_assoc, List.take_append_drop, hdata₁, List.take_append_drop]

/-- **What a reader takes from a channel that is in time.** -/
theorem readFrameWithin_iff (hb : Granted budget Timely) {ch : Channel} (hch : Timely ch) :
    (∃ ch', readFrameWithin Channel.endpoint budget limit ch = (.ok message, ch') ∧ ch'.data = rest) ↔
      ∃ frame, decodeFrame limit frame = .ok message ∧ ch.data = frame ++ rest := by
  constructor
  · rintro ⟨ch', h, rfl⟩
    exact decode_of_readFrameWithin hb hch h
  · rintro ⟨frame, hframe, hdata⟩
    obtain ⟨ch', hrest, h⟩ := readFrameWithin_of_decode hb hch hframe hdata
    exact ⟨ch', h, hrest⟩

end Channels

/-! ### The two clocks -/

theorem granted_remaining (deadline : ℚ) :
    Granted (remaining Channel.endpoint deadline) fun ch => ∀ k, ch.monotonic k < deadline where
  budget ch hch := by
    refine ⟨deadline - ch.monotonic 0, { ch with monotonic := fun k => ch.monotonic (k + 1) }, ?_, rfl,
      fun k => hch (k + 1)⟩
    have hpos : ¬deadline - ch.monotonic 0 ≤ 0 := not_le.2 (sub_pos.2 (hch 0))
    have hnow : (Channel.endpoint.monotonic : Reading Channel ℚ) ch
        = (.ok (ch.monotonic 0), { ch with monotonic := fun k => ch.monotonic (k + 1) }) := rfl
    refine (Reading.bind_ok hnow).trans ?_
    exact congrFun (if_neg hpos) _
  read ch size hch := hch

theorem granted_remainingContext (deadlineNs : ℤ) :
    Granted (remainingContext (Channel.context deadlineNs)) fun ch => ∀ k, ch.clockNs k < deadlineNs where
  budget ch hch := by
    refine ⟨(deadlineNs - ch.clockNs 0) / 1000000000,
      { ch with clockNs := fun k => ch.clockNs (k + 1) }, ?_, rfl, fun k => hch (k + 1)⟩
    have hpos : ¬deadlineNs - ch.clockNs 0 ≤ 0 := not_le.2 (sub_pos.2 (hch 0))
    have hnow : ((Channel.context deadlineNs).clockNs : Reading Channel ℤ) ch
        = (.ok (ch.clockNs 0), { ch with clockNs := fun k => ch.clockNs (k + 1) }) := rfl
    refine (Reading.bind_ok hnow).trans ?_
    exact congrFun (if_neg hpos) _
  read ch size hch := hch

/-- **The codec of frames.** What is encoded is decoded to the same message, which is a mapping;
what is decoded is encoded so; and each of the two readers takes a frame from a channel exactly
if the bytes to come begin with one that is decoded, and leaves the bytes after it. -/
theorem frame_codec :
    (∀ (message : Fields) (frame : Bytes), (message.map Prod.fst).Nodup →
      encodeFrame (.obj message) = .ok frame →
        ∃ decoded, decodeFrame none frame = .ok decoded ∧ decoded.Perm message) ∧
    (∀ (limit : Option ℤ) (data : Bytes) (message : Fields),
      decodeFrame limit data = .ok message → encodeFrame (.obj message) = .ok data) ∧
    (∀ (ch : Channel) (timeout : ℚ) (limit : Option ℤ) (message : Fields) (rest : Bytes),
      (∀ k, ch.monotonic k < ch.monotonic 0 + timeout) →
        ((∃ ch', readFrame Channel.endpoint (some timeout) limit ch = (.ok message, ch') ∧
            ch'.data = rest) ↔
          ∃ frame, decodeFrame limit frame = .ok message ∧ ch.data = frame ++ rest)) ∧
    ∀ (ch : Channel) (deadlineNs : ℤ) (limit : Option ℤ) (message : Fields) (rest : Bytes),
      (∀ k, ch.clockNs k < deadlineNs) →
        ((∃ ch', readFrameWithDeadline Channel.endpoint (Channel.context deadlineNs) limit ch
              = (.ok message, ch') ∧ ch'.data = rest) ↔
          ∃ frame, decodeFrame limit frame = .ok message ∧ ch.data = frame ++ rest) := by
  refine ⟨fun message frame hnodup h => ?_, fun limit data message h => encode_of_decode h,
    fun ch timeout limit message rest htime => ?_, fun ch deadlineNs limit message rest htime => ?_⟩
  · exact ⟨_, decode_of_encode hnodup h, Json.orderFields_perm message⟩
  · -- the first look at the clock fixes the deadline
    have hpos : ¬timeout ≤ 0 := by
      have hstart := htime 0
      linarith
    have hdeadline : deadlineOf Channel.endpoint (some timeout) ch
        = (.ok (ch.monotonic 0 + timeout), { ch with monotonic := fun k => ch.monotonic (k + 1) }) := by
      rw [deadlineOf, if_neg hpos]
      rfl
    rw [readFrame, Reading.bind_ok hdeadline]
    have hlater : ∀ k, { ch with monotonic := fun k => ch.monotonic (k + 1) }.monotonic k
        < ch.monotonic 0 + timeout := fun k => htime (k + 1)
    exact readFrameWithin_iff (granted_remaining (ch.monotonic 0 + timeout)) hlater
  · exact readFrameWithin_iff (granted_remainingContext deadlineNs) htime

/-- A message, its frame, and a channel that gives the frame byte by byte. -/
def goMessage : Fields :=
  [(Text.ofString "type", .str (Text.ofString "go")), (Text.ofString "nonce", .str (Text.ofString "n"))]

def goFrame : Bytes :=
  pack 25 ++ Encoding.ascii (Text.ofString "\x7b\"nonce\":\"n\",\"type\":\"go\"\x7d")

def goChannel : Channel := ⟨goFrame ++ [7], fun _ => 1, fun _ => 0, fun _ => 0⟩

theorem nodup_goMessage : (goMessage.map Prod.fst).Nodup := by decide

theorem encodeFrame_goMessage : encodeFrame (.obj goMessage) = .ok goFrame := rfl

theorem frame_codec_go :
    ∃ decoded, decodeFrame none goFrame = .ok decoded ∧ decoded.Perm goMessage ∧
      encodeFrame (.obj decoded) = .ok goFrame ∧
      (∃ ch', readFrame Channel.endpoint (some 1) none goChannel
        = (.ok decoded, ch') ∧ ch'.data = [7]) ∧
      ∃ ch', readFrameWithDeadline Channel.endpoint (Channel.context 1) none goChannel
        = (.ok decoded, ch') ∧ ch'.data = [7] := by
  obtain ⟨hdecode, hencode, hread, hcontext⟩ := frame_codec
  obtain ⟨decoded, hdecoded, hperm⟩ := hdecode goMessage goFrame nodup_goMessage encodeFrame_goMessage
  have htime : ∀ k, goChannel.monotonic k < goChannel.monotonic 0 + 1 := fun _ => by
    show (0 : ℚ) < 0 + 1
    norm_num
  exact ⟨decoded, hdecoded, hperm, hencode none goFrame decoded hdecoded,
    (hread goChannel 1 none decoded [7] htime).2 ⟨goFrame, hdecoded, rfl⟩,
    (hcontext goChannel 1 none decoded [7] fun _ => Int.one_pos).2 ⟨goFrame, hdecoded, rfl⟩⟩

end Protocol

end YasbLimitora

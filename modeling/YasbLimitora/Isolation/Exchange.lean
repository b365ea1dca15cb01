import Mathlib
import YasbLimitora.Isolation.Frames

/-!
# Writing frames, and what comes of it at the other end

`write_frame` and `write_frame_with_deadline` of `isolation/protocol.py` write a frame in as many
parts as the transport takes it in, and give up at the first call of `write` that fails. Such a call may
have delivered a part of what it was handed, or all of it: what a transport says of a call that fails is
not what has arrived (`YasbLimitora.Protocol.Link`).

What has arrived when the writing ends is whole frames and the beginning of one
(`YasbLimitora.Protocol.writeAll_spec`). They are the frames of the messages that were written, and
perhaps of the next one, whose last part was delivered by the call that failed; and a reader at the
other end takes exactly the messages whose frames have arrived
(`YasbLimitora.Protocol.arrivedWhole`), in order, and then finds the end of the channel. So an exchange
that breaks loses the last messages, and never a part of one
(`YasbLimitora.Protocol.exchange_delivers`).
-/

namespace YasbLimitora

namespace Protocol

open Json (Fields orderFields)

/-! ### Writing -/

/-- What a call of `write` comes to. -/
inductive WriteAnswer
  | written (n : ℤ)
  | timeout
  | failed
  | other
deriving DecidableEq

/-- A transport to write to, with the clock of the process. -/
structure Sender (σ : Type) where
  write : Bytes → ℚ → StateM σ WriteAnswer
  monotonic : StateM σ ℚ

/-- How much was written, if it is a number. -/
def writtenOf : WriteAnswer → Except ProtocolErrorCode ℤ
  | .written n => .ok n
  | .timeout => .error .transportTimeout
  | .failed | .other => .error .transportFailure

section Writers

variable {σ : Type} (e : Sender σ) (budget : Reading σ ℚ)

/-- The loop of the two writers, of which each asks for the time that remains in its own way. -/
def writeLoop (frame : Bytes) (offset : ℕ) : Reading σ Unit :=
  if offset < frame.length then do
    let seconds ← budget
    let answer ← e.write (frame.drop offset) seconds
    let written ← ofExcept (writtenOf answer)
    if _h : written ≤ 0 then throw .transportFailure else writeLoop frame (offset + written.toNat)
  else return ()
termination_by frame.length - offset
decreasing_by omega

/-- `_remaining`, on the writer's side. -/
def remainingToWrite (deadline : ℚ) : Reading σ ℚ := do
  let now ← e.monotonic
  if deadline - now ≤ 0 then throw .transportTimeout else return deadline - now

/-- `_deadline`, on the writer's side. -/
def deadlineToWrite : Option ℚ → Reading σ ℚ
  | none => throw .invalidTimeout
  | some timeout =>
    if timeout ≤ 0 then throw .invalidTimeout
    else do
      let now ← e.monotonic
      return now + timeout

def writeFrame (timeout : Option ℚ) (message : Json Text) : Reading σ Unit := do
  let deadline ← deadlineToWrite e timeout
  let frame ← ofExcept (encodeFrame message)
  writeLoop e (remainingToWrite e deadline) frame 0

def writeFrameWithDeadline (context : Context σ) (message : Json Text) : Reading σ Unit := do
  let frame ← ofExcept (encodeFrame message)
  writeLoop e (remainingContext context) frame 0

/-- Messages one after the other, up to the first that is not written. -/
def writeAll (write : Json Text → Reading σ Unit) : List Fields → Reading σ Unit
  | [] => return ()
  | message :: messages => do
    write (.obj message)
    writeAll write messages

end Writers

/-- How many messages are written before the first that is not. -/
def writtenCount {σ : Type} (write : Json Text → Reading σ Unit) : List Fields → σ → ℕ
  | [], _ => 0
  | message :: messages, s =>
    match write (.obj message) s with
    | (.error _, _) => 0
    | (.ok (), s) => writtenCount write messages s + 1

/-- The messages whose frames have arrived whole, of those that were sent: the first ones. -/
def arrivedWhole : List Fields → Bytes → List Fields
  | [], _ => []
  | message :: messages, data =>
    match encodeFrame (.obj message) with
    | .error _ => []
    | .ok frame => if frame <+: data then message :: arrivedWhole messages (data.drop frame.length) else []

/-- Messages one after the other, up to the first that is not read, and why it is not. -/
def readAll {σ : Type} (read : Reading σ Fields) : ℕ → σ → (List Fields × Option ProtocolErrorCode) × σ
  | 0, s => (([], none), s)
  | n + 1, s =>
    match read s with
    | (.error code, s) => (([], some code), s)
    | (.ok message, s) =>
      let rest := readAll read n s
      ((message :: rest.1.1, rest.1.2), rest.2)

/-! ### Links -/

/-- What becomes of a call of `write`: how much of what it is handed arrives, at most, and whether it
fails after that, by a timeout or otherwise. -/
structure Taken where
  arrives : ℕ
  fails : Option WriteAnswer
  failure : ∀ answer, fails = some answer → answer = .timeout ∨ answer = .failed

/-- What has arrived at the other end, what becomes of each call of `write`, and what the clocks
will say. -/
structure Link where
  arrived : Bytes
  takes : ℕ → Taken
  monotonic : ℕ → ℚ
  clockNs : ℕ → ℤ

namespace Link

/-- A call of `write`, of which as much arrives as the link takes. One that does not fail says how
much. -/
def take (l : Link) (data : Bytes) : WriteAnswer × Link :=
  let part := data.take (l.takes 0).arrives
  ((l.takes 0).fails.getD (.written part.length),
    { l with arrived := l.arrived ++ part, takes := fun k => l.takes (k + 1) })

def sender : Sender Link where
  write data _ l := l.take data
  monotonic l := (l.monotonic 0, { l with monotonic := fun k => l.monotonic (k + 1) })

def context (deadlineNs : ℤ) : Context Link where
  deadlineNs := deadlineNs
  clockNs l := (l.clockNs 0, { l with clockNs := fun k => l.clockNs (k + 1) })

end Link

/-- Time that is asked for without anything being written. -/
def Idle (budget : Reading Link ℚ) : Prop := ∀ l, (budget l).2.arrived = l.arrived

/-- What is written of a frame: the whole of it, or if that fails a part, from the beginning. -/
def Writes (frame : Bytes) (x : Except ProtocolErrorCode Unit × Link) (arrived : Bytes) : Prop :=
  (x.1 = .ok () ∧ x.2.arrived = arrived ++ frame) ∨
    ∃ code part, x.1 = .error code ∧ part <+: frame ∧ x.2.arrived = arrived ++ part

section Links

variable {budget : Reading Link ℚ} {frame : Bytes} {offset : ℕ} {l : Link}

/-- One turn of the loop of a writer. -/
theorem writeLoop_cases (hb : Idle budget) (hlt : offset < frame.length) :
    (∃ code l' n, writeLoop Link.sender budget frame offset l = (.error code, l') ∧
        l'.arrived = l.arrived ++ (frame.drop offset).take n) ∨
      ∃ n l', 0 < n ∧ offset + n ≤ frame.length ∧ l'.arrived = l.arrived ++ (frame.drop offset).take n ∧
        writeLoop Link.sender budget frame offset l = writeLoop Link.sender budget frame (offset + n) l' := by
  have hidle := hb l
  rw [writeLoop, if_pos hlt]
  rcases hbudget : budget l with ⟨code | seconds, l₁⟩
  · rw [hbudget] at hidle
    refine Or.inl ⟨code, l₁, 0, Reading.bind_error hbudget, ?_⟩
    rw [List.take_zero, List.append_nil]
    exact hidle
  rw [hbudget] at hidle
  rw [Reading.bind_ok hbudget]
  -- the call of `write`, and what has arrived by it
  obtain ⟨answer, l₂, hwrite, hanswer, harrived⟩ : ∃ answer l₂,
      (Link.sender.write (frame.drop offset) seconds : Reading Link WriteAnswer) l₁ = (.ok answer, l₂) ∧
      answer = (l₁.takes 0).fails.getD (.written ((frame.drop offset).take (l₁.takes 0).arrives).length) ∧
      l₂.arrived = l.arrived ++ (frame.drop offset).take (l₁.takes 0).arrives :=
    ⟨_, _, rfl, rfl, congrArg (· ++ _) hidle⟩
  rw [Reading.bind_ok hwrite]
  rcases hfails : (l₁.takes 0).fails with _ | failure
  swap
  · -- it fails
    rw [hfails] at hanswer
    rcases (l₁.takes 0).failure failure hfails with rfl | rfl
    · subst hanswer
      exact Or.inl ⟨_, _, _, Reading.bind_error (Reading.ofExcept_run (.error .transportTimeout) _), harrived⟩
    · subst hanswer
      exact Or.inl ⟨_, _, _, Reading.bind_error (Reading.ofExcept_run (.error .transportFailure) _), harrived⟩
  rw [hfails, Option.getD_none] at hanswer
  generalize (l₁.takes 0).arrives = n at hanswer harrived
  subst hanswer
  have hwritten : (ofExcept (writtenOf (.written ((frame.drop offset).take n).length)) : Reading Link ℤ) l₂
      = (.ok (((frame.drop offset).take n).length : ℤ), l₂) := Reading.ofExcept_run _ l₂
  rw [Reading.bind_ok hwritten]
  have hlength : ((frame.drop offset).take n).length = min n (frame.length - offset) := by
    rw [List.length_take, List.length_drop]
  by_cases hzero : (((frame.drop offset).take n).length : ℤ) ≤ 0
  · -- nothing was taken
    rw [dif_pos hzero]
    exact Or.inl ⟨.transportFailure, l₂, n, rfl, harrived⟩
  · rw [dif_neg hzero]
    refine Or.inr ⟨((frame.drop offset).take n).length, l₂, by omega, by omega, ?_, rfl⟩
    rw [harrived, hlength, ← List.length_drop, ← List.take_eq_take_min]

/-- **The loop of a writer** writes what is left of a frame, or a part of that. -/
theorem writeLoop_spec (hb : Idle budget) {base : Bytes} (hle : offset ≤ frame.length)
    (harrived : l.arrived = base ++ frame.take offset) :
    Writes frame (writeLoop Link.sender budget frame offset l) base := by
  induction hmissing : frame.length - offset using Nat.strong_induction_on generalizing offset l with
  | _ missing ih =>
    rcases hle.lt_or_eq with hlt | rfl
    · rcases writeLoop_cases (l := l) hb hlt with ⟨code, l', n, hloop, hpart⟩ | ⟨n, l', hpos, hn, happend, hloop⟩
      · rw [hloop]
        refine Or.inr ⟨code, frame.take (offset + n), rfl, List.take_prefix _ _, ?_⟩
        rw [hpart, harrived, List.append_assoc, ← List.take_add]
      · rw [hloop]
        refine ih (frame.length - (offset + n)) (by omega) hn ?_ rfl
        rw [happend, harrived, List.append_assoc, ← List.take_add]
    · have hloop : writeLoop Link.sender budget frame frame.length l = (.ok (), l) := by
        rw [writeLoop, if_neg (lt_irrefl _)]
        rfl
      rw [hloop]
      exact Or.inl ⟨rfl, by rw [harrived, List.take_length]⟩

/-- A writer of messages: what does not encode is not written at all. -/
structure Transmits (write : Json Text → Reading Link Unit) : Prop where
  refuses : ∀ message code l, encodeFrame message = .error code →
    ∃ code' l', write message l = (.error code', l') ∧ l'.arrived = l.arrived
  writes : ∀ message frame l, encodeFrame message = .ok frame → Writes frame (write message l) l.arrived

theorem idle_remainingContext (deadlineNs : ℤ) : Idle (remainingContext (Link.context deadlineNs)) := by
  intro l
  have hnow : ((Link.context deadlineNs).clockNs : Reading Link ℤ) l
      = (.ok (l.clockNs 0), { l with clockNs := fun k => l.clockNs (k + 1) }) := rfl
  rw [remainingContext, Reading.bind_ok hnow]
  split_ifs <;> rfl

theorem idle_remainingToWrite (deadline : ℚ) : Idle (remainingToWrite Link.sender deadline) := by
  intro l
  have hnow : (Link.sender.monotonic : Reading Link ℚ) l
      = (.ok (l.monotonic 0), { l with monotonic := fun k => l.monotonic (k + 1) }) := rfl
  rw [remainingToWrite, Reading.bind_ok hnow]
  split_ifs <;> rfl

theorem idle_deadlineToWrite (timeout : Option ℚ) (l : Link) :
    (deadlineToWrite Link.sender timeout l).2.arrived = l.arrived := by
  rcases timeout with _ | timeout
  · rfl
  · rw [deadlineToWrite]
    split_ifs <;> rfl

/-- What is left to do once a message is encoded, or not. -/
theorem transmits_of_loop (hb : Idle budget) {message : Json Text} :
    (∀ code, encodeFrame message = .error code →
      ∃ code' l', (ofExcept (encodeFrame message) >>= fun frame => writeLoop Link.sender budget frame 0) l
        = (.error code', l') ∧ l'.arrived = l.arrived) ∧
    ∀ frame, encodeFrame message = .ok frame →
      Writes frame ((ofExcept (encodeFrame message) >>= fun frame => writeLoop Link.sender budget frame 0) l) l.arrived := by
  constructor
  · intro code hcode
    have hencode : (ofExcept (encodeFrame message) : Reading Link Bytes) l = (.error code, l) := by
      rw [hcode]
      exact Reading.ofExcept_run _ _
    exact ⟨code, l, Reading.bind_error hencode, rfl⟩
  · intro frame hframe
    have hencode : (ofExcept (encodeFrame message) : Reading Link Bytes) l = (.ok frame, l) := by
      rw [hframe]
      exact Reading.ofExcept_run _ _
    rw [Reading.bind_ok hencode]
    exact writeLoop_spec hb (Nat.zero_le _) (by rw [List.take_zero, List.append_nil])

theorem encodeFrame_ne_nil {message : Json Text} (h : encodeFrame message = .ok frame) : frame ≠ [] := by
  obtain ⟨validated, hvalidate, -⟩ := bind_eq_ok_iff.1 h
  obtain ⟨rfl, -⟩ := validate_eq_ok_iff.1 hvalidate
  obtain ⟨-, payload, -, -, rfl⟩ := encodeFrame_eq_ok_iff.1 h
  exact List.cons_ne_nil _ _

theorem transmits_writeFrameWithDeadline (deadlineNs : ℤ) :
    Transmits (writeFrameWithDeadline Link.sender (Link.context deadlineNs)) where
  refuses _ code _ hcode := (transmits_of_loop (idle_remainingContext deadlineNs)).1 code hcode
  writes _ frame _ hframe := (transmits_of_loop (idle_remainingContext deadlineNs)).2 frame hframe

theorem transmits_writeFrame (timeout : Option ℚ) : Transmits (writeFrame Link.sender timeout) where
  refuses message code l hcode := by
    have hidle := idle_deadlineToWrite timeout l
    rcases hdeadline : deadlineToWrite Link.sender timeout l with ⟨code' | deadline, l'⟩
    · rw [hdeadline] at hidle
      exact ⟨code', l', Reading.bind_error hdeadline, hidle⟩
    · rw [hdeadline] at hidle
      obtain ⟨code', l'', hloop, hsame⟩ :=
        (transmits_of_loop (l := l') (idle_remainingToWrite deadline)).1 code hcode
      exact ⟨code', l'', (Reading.bind_ok hdeadline).trans hloop, hsame.trans hidle⟩
  writes message frame l hframe := by
    have hidle := idle_deadlineToWrite timeout l
    rcases hdeadline : deadlineToWrite Link.sender timeout l with ⟨code | deadline, l'⟩
    · rw [hdeadline] at hidle
      rw [writeFrame, Reading.bind_error hdeadline]
      exact Or.inr ⟨code, [], rfl, List.nil_prefix, hidle.trans (List.append_nil _).symm⟩
    · rw [hdeadline] at hidle
      have hwrites := (transmits_of_loop (l := l') (idle_remainingToWrite deadline)).2 frame hframe
      rw [hidle] at hwrites
      rw [writeFrame, Reading.bind_ok hdeadline]
      exact hwrites

/-- Messages, and the frames that they are encoded to. -/
def Framed (messages : List Fields) (frames : List Bytes) : Prop :=
  List.Forall₂ (fun message frame => encodeFrame (.obj message) = .ok frame) messages frames

/-- What is left over of messages that have not arrived: the beginning of the frame of the next one,
if there is one and it has a frame. -/
def Cut : List Fields → Bytes → Prop
  | [], part => part = []
  | message :: _, part => part = [] ∨ ∃ frame, encodeFrame (.obj message) = .ok frame ∧ part <+: frame ∧ part ≠ frame

theorem cut_nil : ∀ rest, Cut rest []
  | [] => rfl
  | _ :: _ => Or.inl rfl

/-- **What has arrived of several messages** when their writing ends: the frames of the first ones,
and if these are not all, a part of the next. They are those that were written, and at most one more. -/
theorem writeAll_spec {write : Json Text → Reading Link Unit} (hw : Transmits write) (messages : List Fields)
    (l : Link) : ∃ sent rest frames part, messages = sent ++ rest ∧ Framed sent frames ∧ Cut rest part ∧
      (writeAll write messages l).2.arrived = l.arrived ++ frames.flatten ++ part ∧
      (writtenCount write messages l ≤ sent.length ∧ sent.length ≤ writtenCount write messages l + 1) ∧
      ((writeAll write messages l).1 = .ok () ↔ writtenCount write messages l = messages.length) := by
  induction messages generalizing l with
  | nil =>
    refine ⟨[], [], [], [], rfl, .nil, rfl, ?_, ⟨le_rfl, Nat.zero_le _⟩, iff_of_true rfl rfl⟩
    rw [List.flatten_nil, List.append_nil, List.append_nil]
    rfl
  | cons message messages ih =>
    rw [writeAll, writtenCount]
    rcases hencode : encodeFrame (.obj message) with code | frame
    · obtain ⟨code', l', hwrite, hsame⟩ := hw.refuses _ code l hencode
      rw [Reading.bind_error hwrite, hwrite]
      refine ⟨[], message :: messages, [], [], rfl, .nil, Or.inl rfl, ?_, ⟨le_rfl, Nat.zero_le _⟩, iff_of_false nofun nofun⟩
      rw [List.flatten_nil, List.append_nil, List.append_nil]
      exact hsame
    have hwrites := hw.writes _ frame l hencode
    rcases hwrite : write (.obj message) l with ⟨code | ⟨⟩, l'⟩
    · rw [Reading.bind_error hwrite]
      rw [hwrite] at hwrites
      obtain ⟨_, part, -, hprefix, harrived⟩ := hwrites.resolve_left fun hok => nomatch hok.1
      by_cases hwhole : part = frame
      · -- the call that failed has delivered the rest
        subst hwhole
        refine ⟨[message], messages, [part], [], rfl, .cons hencode .nil, cut_nil messages, ?_, ⟨Nat.zero_le _, le_rfl⟩,
          iff_of_false nofun nofun⟩
        rw [List.flatten_singleton, List.append_nil]
        exact harrived
      · refine ⟨[], message :: messages, [], part, rfl, .nil, Or.inr ⟨frame, hencode, hprefix, hwhole⟩, ?_,
          ⟨le_rfl, Nat.zero_le _⟩, iff_of_false nofun nofun⟩
        rw [List.flatten_nil, List.append_nil]
        exact harrived
    · rw [Reading.bind_ok hwrite]
      rw [hwrite] at hwrites
      obtain ⟨-, harrived⟩ := hwrites.resolve_right fun ⟨_, _, herror, _⟩ => nomatch herror
      obtain ⟨sent, rest, frames, part, rfl, hframed, hcut, hend, hcount, hok⟩ := ih l'
      refine ⟨message :: sent, rest, frame :: frames, part, rfl, .cons hencode hframed, hcut, ?_, ?_, ?_⟩
      · rw [hend, show l'.arrived = _ from harrived, List.flatten_cons, List.append_assoc l.arrived]
      · exact ⟨Nat.succ_le_succ hcount.1, Nat.succ_le_succ hcount.2⟩
      · exact hok.trans Nat.succ_inj.symm

/-- The messages that have arrived are those whose frames are there. -/
theorem arrivedWhole_eq {sent rest : List Fields} {frames : List Bytes} {part : Bytes} (hframed : Framed sent frames)
    (hcut : Cut rest part) : arrivedWhole (sent ++ rest) (frames.flatten ++ part) = sent := by
  induction hframed with
  | nil =>
    rw [List.flatten_nil, List.nil_append, List.nil_append]
    rcases rest with _ | ⟨message, rest⟩
    · rfl
    rw [arrivedWhole]
    rcases hencode : encodeFrame (.obj message) with code | frame
    · rfl
    refine if_neg fun hprefix => ?_
    rcases hcut with rfl | ⟨frame', hencode', hpart, hne⟩
    · exact encodeFrame_ne_nil hencode (List.prefix_nil.1 hprefix)
    · obtain rfl := Except.ok.inj (hencode.symm.trans hencode')
      exact hne (hpart.eq_of_length (le_antisymm hpart.length_le hprefix.length_le))
  | @cons message frame sent frames hencode hframed ih =>
    rw [List.cons_append, arrivedWhole, hencode, List.flatten_cons, List.append_assoc]
    refine (if_pos (List.prefix_append _ _)).trans ?_
    rw [List.drop_left, ih]

end Links

/-! ### Reading at the other end -/

section Reads

variable {budget : Reading Channel ℚ} {Timely : Channel → Prop}
  {message : Fields} {frame part : Bytes} {ch : Channel}

/-- A frame that is there is taken, and the channel is in time afterwards. -/
theorem readFrameWithin_frame (hb : Granted budget Timely) (hch : Timely ch) {rest : Bytes}
    (hframe : decodeFrame none frame = .ok message) (hdata : ch.data = frame ++ rest) :
    ∃ ch', Timely ch' ∧ ch'.data = rest ∧
      readFrameWithin Channel.endpoint budget none ch = (.ok message, ch') := by
  obtain ⟨payload, rfl, hlimit, hlt, -⟩ := decodeFrame_eq_ok_iff.1 hframe
  rw [List.append_assoc] at hdata
  obtain ⟨ch', hch', hdata', hheader⟩ := readExact_append hb hch hdata
  obtain ⟨ch'', hch'', hdata'', hpayload⟩ := readExact_append hb hch' hdata'
  refine ⟨ch'', hch'', hdata'', (Reading.bind_ok hheader).trans ?_⟩
  rw [unpack_pack hlt, if_neg (not_lt.2 hlimit), Reading.bind_ok hpayload, Reading.ofExcept_run,
    decodeFrame_maximum, hframe]

/-- **A part of a frame is not taken for a frame.** -/
theorem readFrameWithin_part (hb : Granted budget Timely) (hch : Timely ch)
    (hframe : decodeFrame none frame = .ok message) (hpart : part <+: frame) (hne : part ≠ frame)
    (hdata : ch.data = part) :
    ∃ ch', readFrameWithin Channel.endpoint budget none ch = (.error .transportEof, ch') := by
  obtain ⟨payload, rfl, hlimit, hlt, -⟩ := decodeFrame_eq_ok_iff.1 hframe
  subst hdata
  rcases lt_or_ge ch.data.length 4 with hshort | hlong
  · obtain ⟨ch', heof⟩ := readExact_short hb hch hshort
    exact ⟨ch', Reading.bind_error heof⟩
  -- the length of the payload is there, and the payload is not
  obtain ⟨rest, hrest⟩ : pack payload.length <+: ch.data :=
    List.prefix_of_prefix_length_le (List.prefix_append _ _) hpart hlong
  obtain ⟨ch', hch', hdata', hheader⟩ := readExact_append hb hch hrest.symm
  have hless : ch'.data.length < payload.length := by
    have hle := hpart.length_le
    have hlt : ch.data.length ≠ (pack payload.length ++ payload).length := fun heq =>
      hne (hpart.eq_of_length heq)
    rw [← hrest, ← hdata', List.length_append] at hle hlt
    rw [List.length_append] at hle hlt
    omega
  obtain ⟨ch'', heof⟩ := readExact_short hb hch' hless
  refine ⟨ch'', (Reading.bind_ok hheader).trans ?_⟩
  rw [unpack_pack hlt, if_neg (not_lt.2 hlimit), Reading.bind_error heof]

/-- A reader of messages, of a channel that is in time. -/
structure Takes (read : Reading Channel Fields) (Timely : Channel → Prop) :
    Prop where
  frame : ∀ ch frame message rest, Timely ch → decodeFrame none frame = .ok message →
    ch.data = frame ++ rest → ∃ ch', Timely ch' ∧ ch'.data = rest ∧ read ch = (.ok message, ch')
  part : ∀ ch frame message part, Timely ch → decodeFrame none frame = .ok message → part <+: frame →
    part ≠ frame → ch.data = part → ∃ ch', read ch = (.error .transportEof, ch')
  nothing : ∀ ch, Timely ch → ch.data = [] → ∃ ch', read ch = (.error .transportEof, ch')

theorem takes_readFrameWithDeadline (deadlineNs : ℤ) :
    Takes (readFrameWithDeadline Channel.endpoint (Channel.context deadlineNs) none)
      fun ch => ∀ k, ch.clockNs k < deadlineNs where
  frame _ _ _ _ hch hframe hdata := readFrameWithin_frame (granted_remainingContext deadlineNs) hch hframe hdata
  part _ _ _ _ hch hframe hpart hne hdata :=
    readFrameWithin_part (granted_remainingContext deadlineNs) hch hframe hpart hne hdata
  nothing ch hch hdata := by
    obtain ⟨ch', heof⟩ := readExact_short (granted_remainingContext deadlineNs) hch
      (by rw [hdata]; decide : ch.data.length < 4)
    exact ⟨ch', Reading.bind_error heof⟩

/-- However long it takes, no two looks at the clock are a timeout apart. -/
def Prompt (timeout : ℚ) (ch : Channel) : Prop := ∀ i k, ch.monotonic (i + k) < ch.monotonic i + timeout

theorem granted_prompt (timeout deadline : ℚ) :
    Granted (remaining Channel.endpoint deadline) fun ch => (∀ k, ch.monotonic k < deadline) ∧ Prompt timeout ch where
  budget ch hch := by
    obtain ⟨seconds, ch', hbudget, hdata, -⟩ := (granted_remaining deadline).budget ch hch.1
    have hpos : ¬deadline - ch.monotonic 0 ≤ 0 := not_le.2 (sub_pos.2 (hch.1 0))
    have hnow : (Channel.endpoint.monotonic : Reading Channel ℚ) ch
        = (.ok (ch.monotonic 0), { ch with monotonic := fun k => ch.monotonic (k + 1) }) := rfl
    have hnext := (Reading.bind_ok (f := fun now => if deadline - now ≤ 0 then throw .transportTimeout
      else return deadline - now) hnow).trans (congrFun (if_neg hpos) _)
    refine ⟨_, _, hnext, rfl, fun k => hch.1 (k + 1), fun i k => ?_⟩
    have hlater := hch.2 (i + 1) k
    rwa [Nat.add_right_comm] at hlater
  read _ _ hch := hch

theorem takes_readFrame {timeout : ℚ} :
    Takes (readFrame Channel.endpoint (some timeout) none) (Prompt timeout) := by
  have hstart : ∀ ch, Prompt timeout ch → ∃ ch', ch'.data = ch.data ∧
      ((∀ k, ch'.monotonic k < ch.monotonic 0 + timeout) ∧ Prompt timeout ch') ∧
      readFrame Channel.endpoint (some timeout) none ch
        = readFrameWithin Channel.endpoint (remaining Channel.endpoint (ch.monotonic 0 + timeout)) none ch' := by
    intro ch hch
    have hpos : ¬timeout ≤ 0 := by
      have hfirst := hch 0 0
      rw [Nat.add_zero] at hfirst
      linarith
    have hdeadline : deadlineOf Channel.endpoint (some timeout) ch
        = (.ok (ch.monotonic 0 + timeout), { ch with monotonic := fun k => ch.monotonic (k + 1) }) := by
      rw [deadlineOf, if_neg hpos]
      rfl
    have hgo : readFrame Channel.endpoint (some timeout) none ch
        = readFrameWithin Channel.endpoint (remaining Channel.endpoint (ch.monotonic 0 + timeout)) none
          { ch with monotonic := fun k => ch.monotonic (k + 1) } := by
      rw [readFrame, Reading.bind_ok hdeadline]
    refine ⟨{ ch with monotonic := fun k => ch.monotonic (k + 1) }, rfl, ⟨fun k => ?_, fun i k => ?_⟩, hgo⟩
    · have hlater := hch 0 (k + 1)
      rwa [Nat.zero_add] at hlater
    · have hlater := hch (i + 1) k
      rwa [Nat.add_right_comm] at hlater
  constructor
  · intro ch frame message rest hch hframe hdata
    obtain ⟨ch', hsame, htime, hread⟩ := hstart ch hch
    obtain ⟨ch'', hch'', hrest, htake⟩ :=
      readFrameWithin_frame (granted_prompt timeout _) htime hframe (hsame.trans hdata)
    exact ⟨ch'', hch''.2, hrest, hread.trans htake⟩
  · intro ch frame message part hch hframe hpart hne hdata
    obtain ⟨ch', hsame, htime, hread⟩ := hstart ch hch
    obtain ⟨ch'', heof⟩ := readFrameWithin_part (granted_prompt timeout _) htime hframe hpart hne (hsame.trans hdata)
    exact ⟨ch'', hread.trans heof⟩
  · intro ch hch hdata
    obtain ⟨ch', hsame, htime, hread⟩ := hstart ch hch
    obtain ⟨ch'', heof⟩ := readExact_short (granted_prompt timeout _) htime
      (by rw [hsame, hdata]; decide : ch'.data.length < 4)
    exact ⟨ch'', hread.trans (Reading.bind_error heof)⟩

/-- **What a reader makes of what was written**: the messages whose frames are whole, and then
the end of the channel. -/
theorem readAll_spec {read : Reading Channel Fields} (hread : Takes read Timely) {sent : List Fields}
    {frames : List Bytes} (hframed : Framed sent frames) (hnodup : ∀ m ∈ sent, (m.map Prod.fst).Nodup)
    (hch : Timely ch) (hdata : ch.data = frames.flatten ++ part) (extra : ℕ) : ∃ ch', Timely ch' ∧ ch'.data = part ∧
      readAll read (sent.length + extra) ch
        = ((sent.map orderFields ++ (readAll read extra ch').1.1, (readAll read extra ch').1.2),
          (readAll read extra ch').2) := by
  induction hframed generalizing ch with
  | nil =>
    rw [List.length_nil, Nat.zero_add]
    exact ⟨ch, hch, hdata, rfl⟩
  | @cons message frame sent frames hencode hframed ih =>
    rw [List.forall_mem_cons] at hnodup
    rw [List.flatten_cons, List.append_assoc] at hdata
    obtain ⟨ch', hch', hdata', htake⟩ :=
      hread.frame ch frame _ _ hch (decode_of_encode hnodup.1 hencode) hdata
    obtain ⟨ch'', hch'', hdata'', hrest⟩ := ih hnodup.2 hch' hdata'
    refine ⟨ch'', hch'', hdata'', ?_⟩
    rw [List.length_cons, Nat.add_right_comm, readAll, htake]
    simp only [hrest, List.map_cons, List.cons_append]

/-- **What a reader makes of an exchange.** -/
structure Delivers (write : Json Text → Reading Link Unit) (read : Reading Channel Fields) (messages : List Fields)
    (l : Link) (ch : Channel) : Prop where
  /-- It reads the messages whose frames have arrived, and then finds the end. -/
  reads : (readAll read (messages.length + 1) ch).1
    = ((arrivedWhole messages (writeAll write messages l).2.arrived).map orderFields, some .transportEof)
  first : arrivedWhole messages (writeAll write messages l).2.arrived <+: messages
  /-- They are those that were written, and perhaps the one whose writing failed. -/
  least : writtenCount write messages l ≤ (arrivedWhole messages (writeAll write messages l).2.arrived).length
  most : (arrivedWhole messages (writeAll write messages l).2.arrived).length ≤ writtenCount write messages l + 1
  ok : (writeAll write messages l).1 = .ok () ↔ writtenCount write messages l = messages.length

theorem readAll_exchange {read : Reading Channel Fields} (hread : Takes read Timely)
    {write : Json Text → Reading Link Unit} (hwrite : Transmits write) {messages : List Fields}
    (hnodup : ∀ m ∈ messages, (m.map Prod.fst).Nodup) {l : Link} (hl : l.arrived = []) (hch : Timely ch)
    (hdata : ch.data = (writeAll write messages l).2.arrived) : Delivers write read messages l ch := by
  obtain ⟨sent, rest, frames, part, rfl, hframed, hcut, harrived, hcount, hok⟩ := writeAll_spec hwrite messages l
  rw [hl, List.nil_append] at harrived
  have hwhole := arrivedWhole_eq hframed hcut
  rw [← harrived] at hwhole
  refine ⟨?_, ?_, ?_, ?_, hok⟩
  · have hsent : ∀ m ∈ sent, (m.map Prod.fst).Nodup := fun m hm => hnodup m (List.mem_append_left _ hm)
    obtain ⟨ch', hch', hrest, hall⟩ :=
      readAll_spec hread hframed hsent hch (hdata.trans harrived) (rest.length + 1)
    -- what is left is no frame
    obtain ⟨ch'', heof⟩ : ∃ ch'', read ch' = (.error .transportEof, ch'') := by
      rcases rest with _ | ⟨message, rest⟩
      · exact hread.nothing ch' hch' (hrest.trans hcut)
      have hnext : (message.map Prod.fst).Nodup := hnodup message (List.mem_append_right _ List.mem_cons_self)
      rcases hcut with rfl | ⟨frame, hencode, hpart, hne⟩
      · exact hread.nothing ch' hch' hrest
      · exact hread.part ch' frame _ part hch' (decode_of_encode hnext hencode) hpart hne hrest
    rw [List.length_append, Nat.add_assoc, hall, readAll, heof, hwhole, List.append_nil]
  · rw [hwhole]
    exact List.prefix_append _ _
  · rw [hwhole]
    exact hcount.1
  · rw [hwhole]
    exact hcount.2

end Reads

/-- **An exchange loses nothing but its end.** However the parts of what is written are taken, wherever
the writing fails and whatever the call that fails has delivered, a reader that is in time reads the
messages whose frames have arrived whole, in their order, and then the end of the channel. These are
the messages that were written, and perhaps the one whose writing failed; and all were written if and
only if the writing did not fail. -/
theorem exchange_delivers {messages : List Fields} (hnodup : ∀ m ∈ messages, (m.map Prod.fst).Nodup) {l : Link}
    (hl : l.arrived = []) (ch : Channel) :
    (∀ writeDeadlineNs readDeadlineNs : ℤ, (∀ k, ch.clockNs k < readDeadlineNs) →
      ch.data = (writeAll (writeFrameWithDeadline Link.sender (Link.context writeDeadlineNs)) messages l).2.arrived →
      Delivers (writeFrameWithDeadline Link.sender (Link.context writeDeadlineNs))
        (readFrameWithDeadline Channel.endpoint (Channel.context readDeadlineNs) none) messages l ch) ∧
    ∀ (writeTimeout : Option ℚ) (readTimeout : ℚ), Prompt readTimeout ch →
      ch.data = (writeAll (writeFrame Link.sender writeTimeout) messages l).2.arrived →
      Delivers (writeFrame Link.sender writeTimeout) (readFrame Channel.endpoint (some readTimeout) none) messages l ch := by
  constructor
  · intro writeDeadlineNs readDeadlineNs htime hdata
    exact readAll_exchange (takes_readFrameWithDeadline readDeadlineNs)
      (transmits_writeFrameWithDeadline writeDeadlineNs) hnodup hl htime hdata
  · intro writeTimeout readTimeout htime hdata
    exact readAll_exchange takes_readFrame (transmits_writeFrame writeTimeout) hnodup hl htime hdata

/-- A link that takes one frame, and delivers the next but fails to say so. -/
def brokenLink : Link :=
  ⟨[], fun k => if k = 0 then ⟨29, none, nofun⟩ else ⟨29, some .timeout, fun _ h => .inl (Option.some.inj h).symm⟩,
    fun _ => 0, fun _ => 0⟩

/-- What has arrived over it, to be read byte by byte. -/
def brokenChannel : Channel :=
  ⟨(writeAll (writeFrameWithDeadline Link.sender (Link.context 1)) [goMessage, goMessage, goMessage] brokenLink).2.arrived,
    fun _ => 1, fun _ => 0, fun _ => 0⟩

/-- Of three messages one was written, and two are read. -/
theorem exchange_broken :
    Delivers (writeFrameWithDeadline Link.sender (Link.context 1))
      (readFrameWithDeadline Channel.endpoint (Channel.context 1) none) [goMessage, goMessage, goMessage] brokenLink
      brokenChannel ∧
    writtenCount (writeFrameWithDeadline Link.sender (Link.context 1)) [goMessage, goMessage, goMessage] brokenLink = 1 ∧
    (arrivedWhole [goMessage, goMessage, goMessage] brokenChannel.data).length = 2 := by
  refine ⟨(exchange_delivers (by decide) rfl brokenChannel).1 1 1 (fun _ => Int.one_pos) rfl, ?_, ?_⟩
  · decide +kernel
  · decide +kernel

end Protocol

end YasbLimitora

import Mathlib
import YasbLimitora.Model.Deadline

/-!
# The response transport

The two framed reads of `codex_supervisor.py` (`_PipeTransport`) and the two response
reads of `codex_helper.py` (`_PersistentTransport`) that are built on them, over a pipe
given by its *schedule*: what the reader finds in the pipe each time it looks.

A round of a read loop is one look at the pipe, and rounds are numbered through a whole
response. All that a loop does in a round is decided by the schedule and by how much it
has taken so far, so `YasbLimitora.Schedule.taken` – the bytes taken before round `k` –
carries every proof: one round of the loop goes from its value at `k` to its value at
`k + 1` (`YasbLimitora.frameLoop_round`), and a run of rounds composes these
(`YasbLimitora.frameLoop_run`).

The two response reads differ in one guard. The plain read compares what is in the pipe
with the capacity of the frame only when trailing bytes are to be rejected; the read
with a deadline compares it always, and for the four bytes of the length header the
capacity is `YasbLimitora.CONTROL_CAPACITY`.
That guard also sees bytes beyond the frame, for which both reads are to raise anyway.

`YasbLimitora.readResponseWithDeadline_agrees_iff` says what both reads come to
(`YasbLimitora.Answers`: the payload, unless the last look at the pipe finds bytes beyond the
frame), exactly on the schedules where the pipe never holds more than that capacity, all of
it of the frame, before the header is read (`YasbLimitora.HeaderFits`).
-/

namespace YasbLimitora

def CONTROL_CAPACITY : ℕ := 4096

def MAX_RESPONSE : ℕ := 65536

/-! ### Frames -/

/-- `struct.pack(">I", n)`. -/
def pack (n : ℕ) : List UInt8 :=
  [.ofNat (n / 2 ^ 24), .ofNat (n / 2 ^ 16), .ofNat (n / 2 ^ 8), .ofNat n]

/-- `struct.unpack(">I", header)[0]`. -/
def unpack (header : List UInt8) : ℕ := header.foldl (fun n b => 2 ^ 8 * n + b.toNat) 0

theorem unpack_pack {n : ℕ} (h : n < 2 ^ 32) : unpack (pack n) = n := by
  simp only [pack, unpack, List.foldl_cons, List.foldl_nil, UInt8.toNat_ofNat']
  omega

/-- A payload behind its length header, as the child writes it. -/
def frame (payload : List UInt8) : List UInt8 := pack payload.length ++ payload

theorem length_frame (payload : List UInt8) : (frame payload).length = 4 + payload.length := by
  rw [frame, List.length_append]
  rfl

/-! ### Pipes -/

/-- What the reader of a pipe finds there, round by round: how many bytes of the stream
have been written by then, whether the write end is closed, how many bytes a read gives
at most (`0` when it would block), and what the clock reads. Rounds after the last one
of a read are never looked at. -/
structure Schedule where
  stream : List UInt8
  delivered : ℕ → ℕ
  closed : ℕ → Bool
  granted : ℕ → ℕ
  clockNs : ℕ → ℤ
  delivered_mono : Monotone delivered
  delivered_le : ∀ t, delivered t ≤ stream.length
  delivered_of_closed : ∀ t, closed t = true → delivered t = stream.length

/-- The state of a reader: the number of its next round and how much of the stream it
has consumed. -/
structure Reader where
  round : ℕ
  consumed : ℕ

def Reader.next (p : Reader) : Reader := ⟨p.round + 1, p.consumed⟩

inductive TransportError
  | eof
  | frameOversize
  | trailingData
  | partialRead
  | invalidFrameSize
  | invalidTimeout
  | timeout
  | responseOversize
deriving DecidableEq, Repr

/-- What a read comes to: nothing when its fuel runs out, else a result or an error and
the reader it leaves behind. -/
abbrev Outcome := Option (Except TransportError (List UInt8) × Reader)

variable (s : Schedule)

/-- The peek of a pipe: the bytes available, and whether its end has been reached. -/
def Schedule.peek (p : Reader) : ℕ × Bool :=
  let available := s.delivered p.round - p.consumed
  (available, s.closed p.round && available == 0)

/-- A nonblocking read of at most `n` bytes; nothing when it would block. -/
def Schedule.read (p : Reader) (n : ℕ) : Option (List UInt8) :=
  if s.granted p.round = 0 then none
  else some ((s.stream.drop p.consumed).take (min (s.granted p.round) n))

/-! ### The read loop -/

/-- The loop of both framed reads. They differ in the guard on what is available, given
how much of the frame there is already, and in what their backoff takes for the end of
time. -/
def frameLoop (expected : ℕ) (guard : ℕ → ℕ → Option TransportError) (expired : ℕ → Bool) :
    ℕ → Reader → List UInt8 → Outcome
  | 0, _, _ => none
  | fuel + 1, p, result =>
    if expected ≤ result.length then some (.ok result, p)
    else
      let (available, eof) := s.peek p
      let remaining := expected - result.length
      let backoff :=
        if expired p.round then some (.error .timeout, p.next)
        else frameLoop expected guard expired fuel p.next result
      if eof then some (.error .eof, p.next)
      else
        match guard available result.length with
        | some e => some (.error e, p.next)
        | none =>
          if available = 0 then backoff
          else
            match s.read p (min available remaining) with
            | none => backoff
            | some chunk =>
              if chunk = [] ∨ remaining < chunk.length then some (.error .partialRead, p.next)
              else
                frameLoop expected guard expired fuel ⟨p.round + 1, p.consumed + chunk.length⟩
                  (result ++ chunk)

/-- The peek that ends a framed read, and the error it may end with. -/
def lastPeek (reject : Bool) (result : List UInt8) (p : Reader) :
    Except TransportError (List UInt8) × Reader :=
  if reject ∧ (s.peek p).1 ≠ 0 then (.error .trailingData, p.next) else (.ok result, p.next)

def readFrame (expected : ℕ) (timeout : ℚ) (maxSize : ℕ) (reject : Bool) (fuel : ℕ)
    (p : Reader) : Outcome :=
  if ¬(0 < expected ∧ expected ≤ maxSize) then some (.error .invalidFrameSize, p)
  else if timeout < 0 then some (.error .invalidTimeout, p)
  else
    let deadline := (s.clockNs p.round : ℚ) / NANOSECONDS_PER_SECOND + timeout
    let guard := fun available got =>
      if reject ∧ maxSize - got < available then some .frameOversize
      else if reject ∧ expected - got < available then some .trailingData
      else none
    let expired := fun t => decide (deadline - (s.clockNs t : ℚ) / NANOSECONDS_PER_SECOND ≤ 0)
    match frameLoop s expected guard expired fuel p [] with
    | some (.ok result, q) => some (if reject then lastPeek s reject result q else (.ok result, q))
    | r => r

def readFrameWithDeadline (expected : ℕ) (context : DeadlineContext) (maxSize : ℕ)
    (reject : Bool) (fuel : ℕ) (p : Reader) : Outcome :=
  if ¬(0 < expected ∧ expected ≤ maxSize) then some (.error .invalidFrameSize, p)
  else
    let guard := fun available got =>
      if maxSize - got < available then some .frameOversize
      else if reject ∧ expected - got < available then some .trailingData
      else none
    let expired := fun t => decide (context.deadlineNs - s.clockNs t ≤ 0)
    match frameLoop s expected guard expired fuel p [] with
    | some (.ok result, q) => some (lastPeek s reject result q)
    | r => r

/-- A response over either framed read: the length header, the payload, and one more
peek. -/
def responseOver (frameOf : ℕ → ℕ → Reader → Outcome) (p : Reader) : Outcome :=
  match frameOf 4 CONTROL_CAPACITY p with
  | some (.ok header, q) =>
    let size := unpack header
    if ¬(0 < size ∧ size ≤ MAX_RESPONSE) then some (.error .responseOversize, q)
    else
      match frameOf size MAX_RESPONSE q with
      | some (.ok payload, q) => some (lastPeek s true payload q)
      | r => r
  | r => r

def readResponse (timeout : ℚ) (fuel : ℕ) : Outcome :=
  responseOver s (fun expected maxSize => readFrame s expected timeout maxSize false fuel) ⟨0, 0⟩

def readResponseWithDeadline (context : DeadlineContext) (fuel : ℕ) : Outcome :=
  responseOver s (fun expected maxSize => readFrameWithDeadline s expected context maxSize false fuel)
    ⟨0, 0⟩

/-! ### Rounds of the loop -/

variable {s}

/-- How much of a frame that starts at `base` has been taken in the first `k` rounds
from `t0` on. -/
def Schedule.taken (s : Schedule) (base expected t0 : ℕ) : ℕ → ℕ
  | 0 => 0
  | k + 1 =>
    s.taken base expected t0 k + min (s.granted (t0 + k))
      (min (s.delivered (t0 + k) - (base + s.taken base expected t0 k))
        (expected - s.taken base expected t0 k))

/-- The bytes of the stream from `base` on. -/
def Schedule.part (s : Schedule) (base n : ℕ) : List UInt8 := (s.stream.drop base).take n

section Rounds

variable {base expected t0 : ℕ}

theorem taken_le (k : ℕ) : s.taken base expected t0 k ≤ expected := by
  induction k with
  | zero => exact Nat.zero_le _
  | succ k ih =>
    rw [Schedule.taken]
    omega

theorem taken_mono : Monotone (s.taken base expected t0) :=
  monotone_nat_of_le_succ fun k => by
    rw [Schedule.taken]
    omega

theorem length_part (hlen : base + expected ≤ s.stream.length) {n : ℕ} (hn : n ≤ expected) :
    (s.part base n).length = n := by
  rw [Schedule.part, List.length_take, List.length_drop]
  omega

theorem part_append (base m n : ℕ) :
    s.part base m ++ s.part (base + m) n = s.part base (m + n) := by
  rw [Schedule.part, Schedule.part, Schedule.part, List.take_add, List.drop_drop]

/-- The reader of a frame before round `k`. -/
def Schedule.readerAt (s : Schedule) (base expected t0 k : ℕ) : Reader :=
  ⟨t0 + k, base + s.taken base expected t0 k⟩

/-- The guard lets round `k` pass. -/
def Passes (s : Schedule) (base expected t0 : ℕ) (guard : ℕ → ℕ → Option TransportError)
    (k : ℕ) : Prop :=
  guard (s.delivered (t0 + k) - (base + s.taken base expected t0 k))
    (s.taken base expected t0 k) = none

variable {guard : ℕ → ℕ → Option TransportError} {expired : ℕ → Bool}

theorem peek_eof_eq_false (hlen : base + expected ≤ s.stream.length) {k : ℕ}
    (hk : s.taken base expected t0 k < expected) :
    (s.peek (s.readerAt base expected t0 k)).2 = false := by
  simp only [Schedule.peek, Schedule.readerAt, Bool.and_eq_false_iff, beq_eq_false_iff_ne]
  by_cases hc : s.closed (t0 + k) = true
  · right
    have hd := s.delivered_of_closed _ hc
    omega
  · left
    exact Bool.not_eq_true _ ▸ hc

/-- **One round of the loop**, where the guard lets it pass and time is not up: what has
been taken before it becomes what has been taken after it. -/
theorem frameLoop_round (hlen : base + expected ≤ s.stream.length) {k : ℕ} (fuel : ℕ)
    (hk : s.taken base expected t0 k < expected) (hg : Passes s base expected t0 guard k)
    (he : expired (t0 + k) = false) :
    frameLoop s expected guard expired (fuel + 1) (s.readerAt base expected t0 k)
        (s.part base (s.taken base expected t0 k)) =
      frameLoop s expected guard expired fuel (s.readerAt base expected t0 (k + 1))
        (s.part base (s.taken base expected t0 (k + 1))) := by
  obtain ⟨got, hgot⟩ : ∃ got, s.taken base expected t0 k = got := ⟨_, rfl⟩
  have heof := peek_eof_eq_false hlen hk
  have hle := s.delivered_le (t0 + k)
  have hsucc : s.taken base expected t0 (k + 1) = got + min (s.granted (t0 + k))
      (min (s.delivered (t0 + k) - (base + got)) (expected - got)) := by
    rw [Schedule.taken, hgot]
  simp only [Passes, hgot] at hg hk
  have hlenk := length_part (s := s) hlen hk.le
  simp only [Schedule.readerAt, hgot] at heof ⊢
  rw [frameLoop, if_neg (by omega)]
  simp only [heof, hlenk, Bool.false_eq_true, if_false, he, Reader.next]
  have hpeek : (s.peek ⟨t0 + k, base + got⟩).1 = s.delivered (t0 + k) - (base + got) := rfl
  rw [hpeek, hg]
  simp only [Schedule.read]
  by_cases hav : s.delivered (t0 + k) - (base + got) = 0
  · rw [if_pos hav, hsucc, hav]
    simp [add_assoc]
  rw [if_neg hav]
  by_cases hgr : s.granted (t0 + k) = 0
  · rw [if_pos hgr, hsucc, hgr]
    simp [add_assoc]
  rw [if_neg hgr]
  obtain ⟨n, hn⟩ : ∃ n, min (s.granted (t0 + k))
      (min (s.delivered (t0 + k) - (base + got)) (expected - got)) = n := ⟨_, rfl⟩
  have hchunk : ((s.stream.drop (base + got)).take n).length = n := by
    rw [List.length_take, List.length_drop]
    omega
  simp only [hn, hsucc, hchunk]
  rw [if_neg]
  · rw [← part_append]
    simp only [add_assoc]
    rfl
  · rintro (h | h)
    · rw [h] at hchunk
      simp only [List.length_nil] at hchunk
      omega
    · omega

/-- **A run of rounds** that the guard lets pass. -/
theorem frameLoop_run (hlen : base + expected ≤ s.stream.length) {k : ℕ} (fuel : ℕ)
    (hk : ∀ i < k, s.taken base expected t0 i < expected ∧ Passes s base expected t0 guard i)
    (he : ∀ t, t0 ≤ t → expired t = false) :
    frameLoop s expected guard expired (fuel + k) ⟨t0, base⟩ [] =
      frameLoop s expected guard expired fuel (s.readerAt base expected t0 k)
        (s.part base (s.taken base expected t0 k)) := by
  induction k generalizing fuel with
  | zero => simp [Schedule.readerAt, Schedule.part, Schedule.taken]
  | succ k ih =>
    have hlast := hk k (Nat.lt_succ_self k)
    rw [show fuel + (k + 1) = fuel + 1 + k by omega,
      ih (fuel + 1) fun i hi => hk i (Nat.lt_succ_of_lt hi),
      frameLoop_round hlen fuel hlast.1 hlast.2 (he _ (Nat.le_add_right _ _))]

/-- The bytes of the frame keep coming: in some later round all of them have been
delivered and a read is granted. -/
def Schedule.Fair (s : Schedule) (n : ℕ) : Prop :=
  ∀ t, ∃ t', t ≤ t' ∧ n ≤ s.delivered t' ∧ 0 < s.granted t'

theorem exists_taken_ge (hf : s.Fair (base + expected)) {n : ℕ} (hn : n ≤ expected) :
    ∃ k, n ≤ s.taken base expected t0 k := by
  induction n with
  | zero => exact ⟨0, Nat.zero_le _⟩
  | succ n ih =>
    obtain ⟨k, hk⟩ := ih (by omega)
    obtain ⟨t', ht, hd, hg⟩ := hf (t0 + k)
    obtain ⟨j, rfl⟩ : ∃ j, t' = t0 + j := ⟨t' - t0, by omega⟩
    have hkj : s.taken base expected t0 k ≤ s.taken base expected t0 j := taken_mono (by omega)
    refine ⟨j + 1, ?_⟩
    rw [Schedule.taken]
    omega

/-- A read comes to `r`, given enough fuel. -/
def Completes (run : ℕ → Outcome) (r : Except TransportError (List UInt8) × Reader) : Prop :=
  ∃ N, ∀ fuel, N ≤ fuel → run fuel = some r

theorem Completes.unique {run : ℕ → Outcome} {r r' : Except TransportError (List UInt8) × Reader}
    (h : Completes run r) (h' : Completes run r') : r = r' := by
  obtain ⟨N, hN⟩ := h
  obtain ⟨N', hN'⟩ := h'
  exact Option.some.inj ((hN _ (le_max_left N N')).symm.trans (hN' _ (le_max_right N N')))

/-- **A loop whose guard lets every round pass takes the whole frame.** -/
theorem frameLoop_completes (guard : ℕ → ℕ → Option TransportError) (expired : ℕ → Bool)
    (hlen : base + expected ≤ s.stream.length)
    (hf : s.Fair (base + expected)) (he : ∀ t, t0 ≤ t → expired t = false)
    (hg : ∀ k, s.taken base expected t0 k < expected → Passes s base expected t0 guard k) :
    ∃ k, Completes (fun fuel => frameLoop s expected guard expired fuel ⟨t0, base⟩ [])
      (.ok (s.part base expected), ⟨t0 + k, base + expected⟩) := by
  classical
  have hex : ∃ k, expected ≤ s.taken base expected t0 k := exists_taken_ge hf le_rfl
  have hfirst : ∀ i < Nat.find hex, s.taken base expected t0 i < expected := fun i hi =>
    not_le.1 (Nat.find_min hex hi)
  have hall : s.taken base expected t0 (Nat.find hex) = expected :=
    le_antisymm (taken_le _) (Nat.find_spec hex)
  refine ⟨Nat.find hex, Nat.find hex + 1, fun fuel hfuel => ?_⟩
  obtain ⟨m, rfl⟩ : ∃ m, fuel = m + 1 + Nat.find hex := ⟨fuel - 1 - Nat.find hex, by omega⟩
  beta_reduce
  rw [frameLoop_run hlen _ (fun i hi => ⟨hfirst i hi, hg i (hfirst i hi)⟩) he, frameLoop,
    Schedule.readerAt, hall, if_pos (length_part hlen le_rfl).ge]

/-- **A loop whose guard stops some round ends with an error of the guard** in the first
such round. -/
theorem frameLoop_refuses (guard : ℕ → ℕ → Option TransportError) (expired : ℕ → Bool)
    (hlen : base + expected ≤ s.stream.length)
    (he : ∀ t, t0 ≤ t → expired t = false)
    (hg : ∃ k, s.taken base expected t0 k < expected ∧ ¬Passes s base expected t0 guard k) :
    ∃ e k, s.taken base expected t0 k < expected ∧ ¬Passes s base expected t0 guard k ∧
      (∀ i, s.taken base expected t0 i < expected → ¬Passes s base expected t0 guard i → k ≤ i) ∧
      Completes (fun fuel => frameLoop s expected guard expired fuel ⟨t0, base⟩ [])
        (.error e, (s.readerAt base expected t0 k).next) := by
  classical
  obtain ⟨hk, hnot⟩ := Nat.find_spec hg
  have hbefore : ∀ i < Nat.find hg,
      s.taken base expected t0 i < expected ∧ Passes s base expected t0 guard i := fun i hi => by
    have hmono : s.taken base expected t0 i ≤ s.taken base expected t0 (Nat.find hg) :=
      taken_mono hi.le
    have hi' := hmono.trans_lt hk
    exact ⟨hi', by_contra fun h => Nat.find_min hg hi ⟨hi', h⟩⟩
  obtain ⟨e, hge⟩ := Option.ne_none_iff_exists'.1 hnot
  refine ⟨e, Nat.find hg, hk, hnot, fun i hi hi' => Nat.find_min' hg ⟨hi, hi'⟩, Nat.find hg + 1,
    fun fuel hfuel => ?_⟩
  obtain ⟨m, rfl⟩ : ∃ m, fuel = m + 1 + Nat.find hg := ⟨fuel - 1 - Nat.find hg, by omega⟩
  have hlenk := length_part (s := s) hlen hk.le
  have heof := peek_eof_eq_false hlen hk
  beta_reduce
  rw [frameLoop_run hlen _ hbefore he, frameLoop, hlenk, if_neg (by omega)]
  simp only [heof, Bool.false_eq_true, if_false]
  have hpeek : (s.peek (s.readerAt base expected t0 (Nat.find hg))).1 =
      s.delivered (t0 + Nat.find hg) - (base + s.taken base expected t0 (Nat.find hg)) := rfl
  rw [hpeek, hge]

/-! ### Framed reads -/

/-- The pipe never holds more than the frame has room for. -/
def Fits (s : Schedule) (base expected t0 maxSize : ℕ) : Prop :=
  ∀ k, s.taken base expected t0 k < expected →
    s.delivered (t0 + k) - (base + s.taken base expected t0 k) ≤
      maxSize - s.taken base expected t0 k

variable {maxSize : ℕ}

/-- Time is not up for a read that may take `timeout` seconds, whenever it starts. -/
def Schedule.Within (s : Schedule) (timeout : ℚ) : Prop :=
  ∀ t t', t ≤ t' → (s.clockNs t' : ℚ) / NANOSECONDS_PER_SECOND <
    s.clockNs t / NANOSECONDS_PER_SECOND + timeout

theorem readFrame_completes (base expected t0 maxSize : ℕ) {timeout : ℚ}
    (hpos : 0 < expected) (hmax : expected ≤ maxSize)
    (hlen : base + expected ≤ s.stream.length) (hf : s.Fair (base + expected))
    (ht : s.Within timeout) :
    ∃ k, Completes (fun fuel => readFrame s expected timeout maxSize false fuel ⟨t0, base⟩)
      (.ok (s.part base expected), ⟨t0 + k, base + expected⟩) := by
  have hnonneg : ¬timeout < 0 := by
    have h := ht 0 0 le_rfl
    linarith
  obtain ⟨k, N, hN⟩ := frameLoop_completes (fun _ _ => none)
    (fun t => decide ((s.clockNs t0 : ℚ) / NANOSECONDS_PER_SECOND + timeout -
      (s.clockNs t : ℚ) / NANOSECONDS_PER_SECOND ≤ 0)) hlen hf
    (fun t h => by
      have h := ht t0 t h
      rw [decide_eq_false_iff_not]
      linarith)
    (fun _ _ => rfl)
  refine ⟨k, N, fun fuel hfuel => ?_⟩
  have hloop := hN fuel hfuel
  beta_reduce at hloop ⊢
  rw [readFrame, if_neg (by omega), if_neg hnonneg]
  simp only [Bool.false_eq_true, false_and, if_false, hloop]

/-- A framed read with a deadline is its loop and one more peek. -/
theorem readFrameWithDeadline_of_loop {context : DeadlineContext} (hpos : 0 < expected)
    (hmax : expected ≤ maxSize) {r : Except TransportError (List UInt8)} {q : Reader}
    (h : Completes (fun fuel => frameLoop s expected
      (fun available got => if maxSize - got < available then some .frameOversize else none)
      (fun t => decide (context.deadlineNs - s.clockNs t ≤ 0)) fuel ⟨t0, base⟩ []) (r, q)) :
    Completes (fun fuel => readFrameWithDeadline s expected context maxSize false fuel ⟨t0, base⟩)
      (r, if r.isOk then q.next else q) := by
  obtain ⟨N, hN⟩ := h
  refine ⟨N, fun fuel hfuel => ?_⟩
  have hloop := hN fuel hfuel
  beta_reduce at hloop ⊢
  rw [readFrameWithDeadline, if_neg (by omega)]
  simp only [Bool.false_eq_true, false_and, if_false, hloop]
  cases r with
  | error e => rfl
  | ok result => simp [lastPeek, Except.isOk, Except.toBool]

theorem not_expired {context : DeadlineContext} (hd : ∀ t, s.clockNs t < context.deadlineNs)
    (t : ℕ) (_ : t0 ≤ t) : decide (context.deadlineNs - s.clockNs t ≤ 0) = false := by
  have h := hd t
  rw [decide_eq_false_iff_not]
  omega

theorem readFrameWithDeadline_completes (base expected t0 maxSize : ℕ) {context : DeadlineContext}
    (hpos : 0 < expected)
    (hmax : expected ≤ maxSize) (hlen : base + expected ≤ s.stream.length)
    (hf : s.Fair (base + expected)) (hd : ∀ t, s.clockNs t < context.deadlineNs)
    (hfits : Fits s base expected t0 maxSize) :
    ∃ k, Completes
      (fun fuel => readFrameWithDeadline s expected context maxSize false fuel ⟨t0, base⟩)
      (.ok (s.part base expected), ⟨t0 + k, base + expected⟩) := by
  obtain ⟨k, hk⟩ := frameLoop_completes
    (fun available got => if maxSize - got < available then some .frameOversize else none) _
    hlen hf (not_expired hd) (fun k hk => if_neg (hfits k hk).not_gt)
  exact ⟨k + 1, readFrameWithDeadline_of_loop hpos hmax hk⟩

/-- A framed read with a deadline ends with an error in the first round in which the pipe
holds more than the frame has room for. -/
theorem readFrameWithDeadline_refuses (base expected t0 maxSize : ℕ) {context : DeadlineContext}
    (hpos : 0 < expected)
    (hmax : expected ≤ maxSize) (hlen : base + expected ≤ s.stream.length)
    (hd : ∀ t, s.clockNs t < context.deadlineNs) (hfits : ¬Fits s base expected t0 maxSize) :
    ∃ e k q, s.taken base expected t0 k < expected ∧ base + maxSize < s.delivered (t0 + k) ∧
      (∀ i, s.taken base expected t0 i < expected → base + maxSize < s.delivered (t0 + i) → k ≤ i) ∧
      q.round = t0 + k + 1 ∧
      Completes (fun fuel => readFrameWithDeadline s expected context maxSize false fuel ⟨t0, base⟩)
        (.error e, q) := by
  have hover : ∀ k, s.taken base expected t0 k < expected →
      (¬Passes s base expected t0
        (fun available got => if maxSize - got < available then some .frameOversize else none) k ↔
        base + maxSize < s.delivered (t0 + k)) := by
    intro k hk
    rw [Passes, ite_eq_right_iff]
    constructor
    · intro h
      by_contra hfits
      exact h fun hmore => absurd hmore (by omega)
    · intro h hall
      exact absurd (hall (by omega)) nofun
  rw [Fits] at hfits
  push Not at hfits
  obtain ⟨k, hk, hmore⟩ := hfits
  obtain ⟨e, k', hk', hnot, hfirst, h⟩ := frameLoop_refuses
    (fun available got => if maxSize - got < available then some .frameOversize else none) _
    hlen (not_expired hd) ⟨k, hk, by simp [Passes, hmore]⟩
  exact ⟨e, k', _, hk', (hover k' hk').1 hnot, fun i hi hmore => hfirst i hi ((hover i hi).2 hmore), rfl,
    readFrameWithDeadline_of_loop hpos hmax h⟩

end Rounds

/-! ### Responses -/

section Responses

variable (frameOf : ℕ → ℕ → ℕ → Reader → Outcome) {p q : Reader}

/-- A response whose two frames come through is decided by the last peek. -/
theorem responseOver_completes {q' : Reader} {header payload : List UInt8} {size : ℕ}
    (hu : unpack header = size) (hsize : 0 < size ∧ size ≤ MAX_RESPONSE)
    (hh : Completes (fun fuel => frameOf fuel 4 CONTROL_CAPACITY p) (.ok header, q))
    (hp : Completes (fun fuel => frameOf fuel size MAX_RESPONSE q) (.ok payload, q')) :
    Completes (fun fuel => responseOver s (frameOf fuel) p) (lastPeek s true payload q') := by
  obtain ⟨N, hN⟩ := hh
  obtain ⟨N', hN'⟩ := hp
  refine ⟨max N N', fun fuel hfuel => ?_⟩
  have hheader := hN fuel ((le_max_left _ _).trans hfuel)
  have hpayload := hN' fuel ((le_max_right _ _).trans hfuel)
  beta_reduce at hheader hpayload ⊢
  rw [responseOver, hheader]
  simp only [hu, hsize, not_true, if_false, hpayload, and_self]

theorem responseOver_header_error {e : TransportError}
    (hh : Completes (fun fuel => frameOf fuel 4 CONTROL_CAPACITY p) (.error e, q)) :
    Completes (fun fuel => responseOver s (frameOf fuel) p) (.error e, q) := by
  obtain ⟨N, hN⟩ := hh
  refine ⟨N, fun fuel hfuel => ?_⟩
  have hheader := hN fuel hfuel
  beta_reduce at hheader ⊢
  rw [responseOver, hheader]

theorem responseOver_payload_error {q' : Reader} {header : List UInt8} {e : TransportError}
    {size : ℕ} (hu : unpack header = size) (hsize : 0 < size ∧ size ≤ MAX_RESPONSE)
    (hh : Completes (fun fuel => frameOf fuel 4 CONTROL_CAPACITY p) (.ok header, q))
    (hp : Completes (fun fuel => frameOf fuel size MAX_RESPONSE q) (.error e, q')) :
    Completes (fun fuel => responseOver s (frameOf fuel) p) (.error e, q') := by
  obtain ⟨N, hN⟩ := hh
  obtain ⟨N', hN'⟩ := hp
  refine ⟨max N N', fun fuel hfuel => ?_⟩
  have hheader := hN fuel ((le_max_left _ _).trans hfuel)
  have hpayload := hN' fuel ((le_max_right _ _).trans hfuel)
  beta_reduce at hheader hpayload ⊢
  rw [responseOver, hheader]
  simp only [hu, hsize, not_true, if_false, hpayload, and_self]

end Responses

/-- A call that returns exactly `payload`. -/
def Returns (run : ℕ → Outcome) (payload : List UInt8) : Prop :=
  ∃ q, Completes run (.ok payload, q)

/-- **What a response read is to come to**: it ends, with the payload if its last look at the
pipe finds nothing beyond the frame, and with an error if it does find more. -/
def Answers (s : Schedule) (payload : List UInt8) (run : ℕ → Outcome) : Prop :=
  ∃ r q, Completes run (r, q) ∧
    if (frame payload).length < s.delivered (q.round - 1) then ∃ e, r = .error e else r = .ok payload

/-- **Before the length header is read, the pipe never holds more than
`YasbLimitora.CONTROL_CAPACITY` bytes**, unless there are some beyond the first `n`. -/
def HeaderFits (s : Schedule) (n : ℕ) : Prop :=
  ∀ k, s.taken 0 4 0 k < 4 → s.delivered k ≤ CONTROL_CAPACITY ∨ n < s.delivered k

section Agreement

variable {payload rest : List UInt8}

theorem part_header (hs : s.stream = frame payload ++ rest) :
    s.part 0 4 = pack payload.length := by
  rw [Schedule.part, hs, frame, List.append_assoc]
  rfl

theorem part_payload (hs : s.stream = frame payload ++ rest) :
    s.part 4 payload.length = payload := by
  rw [Schedule.part, hs, frame, List.append_assoc]
  exact List.take_left' rfl

theorem Schedule.Fair.mono {m n : ℕ} (h : m ≤ n) (hf : s.Fair n) : s.Fair m := by
  intro t
  obtain ⟨t', ht, hd, hg⟩ := hf t
  exact ⟨t', ht, h.trans hd, hg⟩

variable (hpos : 0 < payload.length) (hmax : payload.length ≤ MAX_RESPONSE)
  (hs : s.stream = frame payload ++ rest) (hf : s.Fair (frame payload).length)

include hs in
theorem frame_le_stream : 4 + payload.length ≤ s.stream.length := by
  rw [hs, List.length_append, length_frame]
  omega

include hmax in
theorem unpack_header : unpack (pack payload.length) = payload.length :=
  unpack_pack (by rw [MAX_RESPONSE] at hmax; omega)

include hpos hmax hs hf in
/-- The plain read comes to its last peek on every schedule. -/
theorem readResponse_completes {timeout : ℚ} (ht : s.Within timeout) :
    ∃ t, Completes (readResponse s timeout) (lastPeek s true payload ⟨t, 4 + payload.length⟩) := by
  have hlen := frame_le_stream hs
  rw [length_frame] at hf
  obtain ⟨k, hk⟩ := readFrame_completes 0 4 0 CONTROL_CAPACITY (by norm_num)
    (by norm_num [CONTROL_CAPACITY]) (by omega) (hf.mono (by omega)) ht
  obtain ⟨j, hj⟩ := readFrame_completes (0 + 4) payload.length (0 + k) MAX_RESPONSE hpos hmax
    (by omega) (by simpa using hf) ht
  rw [part_header hs] at hk
  simp only [zero_add] at hk hj
  rw [part_payload hs] at hj
  exact ⟨k + j, responseOver_completes
    (fun fuel expected maxSize => readFrame s expected timeout maxSize false fuel)
    (unpack_header hmax) ⟨hpos, hmax⟩ hk hj⟩

/-- What the last peek makes of a response. -/
theorem lastPeek_eq {n t : ℕ} : lastPeek s true payload ⟨t, n⟩ =
    (if n < s.delivered t then .error .trailingData else .ok payload, ⟨t + 1, n⟩) := by
  have hpeek : (s.peek ⟨t, n⟩).1 = s.delivered t - n := rfl
  rw [lastPeek, hpeek]
  by_cases h : n < s.delivered t
  · rw [if_pos ⟨rfl, by omega⟩, if_pos h]
    rfl
  · rw [if_neg fun hc => hc.2 (by omega), if_neg h]
    rfl

/-- A read that comes to the last peek answers as it should. -/
theorem answers_of_lastPeek {run : ℕ → Outcome} {t : ℕ}
    (h : Completes run (lastPeek s true payload ⟨t, (frame payload).length⟩)) : Answers s payload run := by
  rw [lastPeek_eq] at h
  refine ⟨_, _, h, ?_⟩
  dsimp only
  rw [Nat.add_sub_cancel]
  split
  · exact ⟨.trailingData, rfl⟩
  · rfl

/-- Where there is nothing but the frame, to answer is to return the payload. -/
theorem Answers.returns {run : ℕ → Outcome} (h : Answers s payload run) (hs : s.stream = frame payload) :
    Returns run payload := by
  obtain ⟨r, q, hrun, hr⟩ := h
  have hle := s.delivered_le (q.round - 1)
  rw [hs] at hle
  rw [if_neg (not_lt.2 hle)] at hr
  rw [hr] at hrun
  exact ⟨q, hrun⟩

/-- The header has room for what the pipe holds exactly if it holds no more than the capacity. -/
theorem fits_header_iff : Fits s 0 4 0 CONTROL_CAPACITY ↔
    ∀ k, s.taken 0 4 0 k < 4 → s.delivered k ≤ CONTROL_CAPACITY := by
  refine forall_congr' fun k => imp_congr_right fun hk => ?_
  rw [zero_add, zero_add, CONTROL_CAPACITY]
  omega

include hs in
/-- Where the pipe holds more than the header has room for, the read with a deadline ends in the
first round in which it does. -/
theorem readResponseWithDeadline_refuses {context : DeadlineContext}
    (hd : ∀ t, s.clockNs t < context.deadlineNs) (hh : ¬Fits s 0 4 0 CONTROL_CAPACITY) :
    ∃ e k q, s.taken 0 4 0 k < 4 ∧ CONTROL_CAPACITY < s.delivered k ∧
      (∀ i, s.taken 0 4 0 i < 4 → CONTROL_CAPACITY < s.delivered i → k ≤ i) ∧ q.round = k + 1 ∧
      Completes (readResponseWithDeadline s context) (.error e, q) := by
  have hlen := frame_le_stream hs
  obtain ⟨e, k, q, htaken, hmore, hfirst, hround, hk⟩ := readFrameWithDeadline_refuses 0 4 0 CONTROL_CAPACITY
    (by norm_num) (by norm_num [CONTROL_CAPACITY]) (by omega) hd hh
  simp only [zero_add] at hmore hfirst hround
  exact ⟨e, k, q, htaken, hmore, hfirst, hround, responseOver_header_error
    (fun fuel expected maxSize =>
      readFrameWithDeadline s expected context maxSize false fuel) hk⟩

include hpos hmax hs hf in
/-- Where the header fits, the read with a deadline comes to its last peek, or is refused because
the pipe holds more than the largest response. -/
theorem readResponseWithDeadline_completes {context : DeadlineContext}
    (hd : ∀ t, s.clockNs t < context.deadlineNs) (hh : Fits s 0 4 0 CONTROL_CAPACITY) :
    (∃ t, Completes (readResponseWithDeadline s context)
        (lastPeek s true payload ⟨t, (frame payload).length⟩)) ∨
      ∃ e k q, 4 + MAX_RESPONSE < s.delivered k ∧ q.round = k + 1 ∧
        Completes (readResponseWithDeadline s context) (.error e, q) := by
  have hlen := frame_le_stream hs
  rw [length_frame] at hf
  obtain ⟨k, hk⟩ := readFrameWithDeadline_completes 0 4 0 CONTROL_CAPACITY (by norm_num)
    (by norm_num [CONTROL_CAPACITY]) (by omega)
    (hf.mono (by omega)) hd hh
  rw [part_header hs] at hk
  simp only [zero_add] at hk
  by_cases hp : Fits s 4 payload.length k MAX_RESPONSE
  · obtain ⟨j, hj⟩ := readFrameWithDeadline_completes _ _ _ _ hpos hmax hlen hf hd hp
    rw [part_payload hs] at hj
    rw [length_frame]
    exact Or.inl ⟨k + j, responseOver_completes
      (fun fuel expected maxSize =>
        readFrameWithDeadline s expected context maxSize false fuel)
      (unpack_header hmax) ⟨hpos, hmax⟩ hk hj⟩
  · obtain ⟨e, j, q, -, hmore, -, hround, hj⟩ := readFrameWithDeadline_refuses _ _ _ _ hpos hmax hlen hd hp
    exact Or.inr ⟨e, k + j, q, hmore, hround, responseOver_payload_error
      (fun fuel expected maxSize =>
        readFrameWithDeadline s expected context maxSize false fuel)
      (unpack_header hmax) ⟨hpos, hmax⟩ hk hj⟩

/-- **The read with a deadline agrees with the plain one exactly where the header fits.** Of a
stream that begins with the frame of a payload, whatever follows it, both reads return the
payload if their last look at the pipe finds nothing beyond the frame, and raise if it does: they
do so if and only if, in every round before the header is read, the pipe has delivered no more
than the capacity of a control frame, or also bytes beyond the frame. -/
theorem readResponseWithDeadline_agrees_iff {context : DeadlineContext} {timeout : ℚ}
    (hpos : 0 < payload.length) (hmax : payload.length ≤ MAX_RESPONSE)
    (hs : s.stream = frame payload ++ rest) (hf : s.Fair (frame payload).length)
    (hd : ∀ t, s.clockNs t < context.deadlineNs) (ht : s.Within timeout) :
    (Answers s payload (readResponse s timeout) ∧
        Answers s payload (readResponseWithDeadline s context)) ↔
      HeaderFits s (frame payload).length := by
  constructor
  · rintro ⟨-, hanswers⟩
    by_contra hh
    rw [HeaderFits] at hh
    push Not at hh
    obtain ⟨i, hi, hmore, hnone⟩ := hh
    obtain ⟨e, k, q, -, -, hfirst, hround, herr⟩ := readResponseWithDeadline_refuses hs hd
      fun hfits => not_le.2 hmore (fits_header_iff.1 hfits i hi)
    obtain ⟨r, q', hrun, hr⟩ := hanswers
    obtain ⟨rfl, rfl⟩ := Prod.mk.inj (hrun.unique herr)
    -- nothing beyond the frame was there when the read was refused
    have hmono := s.delivered_mono (hfirst i hi hmore)
    rw [hround, Nat.add_sub_cancel, if_neg (by omega)] at hr
    cases hr
  · intro hh
    obtain ⟨t, hplain⟩ := readResponse_completes hpos hmax hs hf ht
    rw [← length_frame] at hplain
    refine ⟨answers_of_lastPeek hplain, ?_⟩
    by_cases hfits : Fits s 0 4 0 CONTROL_CAPACITY
    · rcases readResponseWithDeadline_completes hpos hmax hs hf hd hfits with ⟨t', h⟩ | ⟨e, k, q, hmore, hround, h⟩
      · exact answers_of_lastPeek h
      · refine ⟨_, _, h, ?_⟩
        rw [hround, Nat.add_sub_cancel, length_frame, if_pos (by omega)]
        exact ⟨e, rfl⟩
    · rw [fits_header_iff] at hfits
      push Not at hfits
      obtain ⟨i, hi, hmore⟩ := hfits
      obtain ⟨e, k, q, hk, hover, -, hround, h⟩ := readResponseWithDeadline_refuses hs hd
        fun hfits => not_le.2 hmore (fits_header_iff.1 hfits i hi)
      refine ⟨_, _, h, ?_⟩
      rw [hround, Nat.add_sub_cancel, if_pos ((hh k hk).resolve_left (not_le.2 hover))]
      exact ⟨e, rfl⟩

end Agreement

/-! ### One write -/

/-- A pipe into which the whole stream was written before the first look at it. -/
def Schedule.oneWrite (stream : List UInt8) : Schedule where
  stream := stream
  delivered _ := stream.length
  closed _ := false
  granted _ := stream.length
  clockNs _ := 0
  delivered_mono _ _ _ := le_rfl
  delivered_le _ := le_rfl
  delivered_of_closed _ h := nomatch h

theorem Schedule.oneWrite_fair {stream : List UInt8} (h : 0 < stream.length) :
    (Schedule.oneWrite stream).Fair stream.length :=
  fun t => ⟨t, le_rfl, le_rfl, h⟩

theorem Schedule.oneWrite_within (stream : List UInt8) :
    (Schedule.oneWrite stream).Within 2 := by
  intro t t' _
  norm_num [Schedule.oneWrite]

/-- A deadline one second after the start. -/
def DeadlineContext.second : DeadlineContext where
  t0Ns := 0
  deadlineNs := 1000000000
  reserveNs := 0
  t0_nonneg := by norm_num
  t0_le_deadline := by norm_num
  reserve_nonneg := by norm_num
  reserve_le := by norm_num [MAX_RESERVE_NS]

theorem Schedule.oneWrite_clock_lt (stream : List UInt8) (t : ℕ) :
    (Schedule.oneWrite stream).clockNs t < DeadlineContext.second.deadlineNs := by
  norm_num [DeadlineContext.second, Schedule.oneWrite]

/-- **One write agrees exactly up to the capacity of a control frame**, or where it is more than
the frame. -/
theorem headerFits_oneWrite {stream : List UInt8} {n : ℕ} :
    HeaderFits (Schedule.oneWrite stream) n ↔ stream.length ≤ CONTROL_CAPACITY ∨ n < stream.length :=
  ⟨fun h => h 0 (by norm_num [Schedule.taken]), fun h _ _ => h⟩

/-- A response of three bytes and one byte more: both reads raise, and without that byte both
return the three. -/
theorem readResponseWithDeadline_agrees_short :
    (Answers (.oneWrite (frame [97, 98, 99] ++ [0])) [97, 98, 99]
          (readResponse (.oneWrite (frame [97, 98, 99] ++ [0])) 2) ∧
        Answers (.oneWrite (frame [97, 98, 99] ++ [0])) [97, 98, 99]
          (readResponseWithDeadline (.oneWrite (frame [97, 98, 99] ++ [0])) .second)) ∧
      Returns (readResponse (.oneWrite (frame [97, 98, 99])) 2) [97, 98, 99] ∧
      Returns (readResponseWithDeadline (.oneWrite (frame [97, 98, 99])) .second) [97, 98, 99] := by
  have hs : (Schedule.oneWrite (frame [97, 98, 99])).stream = frame [97, 98, 99] ++ [] :=
    (List.append_nil _).symm
  have hmore := (readResponseWithDeadline_agrees_iff (s := .oneWrite (frame [97, 98, 99] ++ [0])) (by decide) (by decide)
    rfl ((Schedule.oneWrite_fair (by decide)).mono (by decide)) (Schedule.oneWrite_clock_lt _)
    (Schedule.oneWrite_within _)).2 (headerFits_oneWrite.2 (Or.inl (by decide)))
  have hboth := (readResponseWithDeadline_agrees_iff (by decide) (by decide) hs
    (Schedule.oneWrite_fair (by decide)) (Schedule.oneWrite_clock_lt _)
    (Schedule.oneWrite_within _)).2 (headerFits_oneWrite.2 (Or.inl (by decide)))
  exact ⟨hmore, hboth.1.returns rfl, hboth.2.returns rfl⟩

/-- **A response of 4093 bytes in one write** is returned by the plain read and refused
by the read with a deadline. -/
theorem readResponseWithDeadline_oversize :
    Returns (readResponse (.oneWrite (frame (List.replicate 4093 0))) 2) (List.replicate 4093 0) ∧
      ¬Returns (readResponseWithDeadline (.oneWrite (frame (List.replicate 4093 0))) .second)
        (List.replicate 4093 0) := by
  have hlen : (frame (List.replicate 4093 0)).length = 4097 := by
    rw [length_frame, List.length_replicate]
  have hs : (Schedule.oneWrite (frame (List.replicate 4093 0))).stream =
    frame (List.replicate 4093 0) ++ [] := (List.append_nil _).symm
  constructor
  · obtain ⟨t, h⟩ := readResponse_completes (by rw [List.length_replicate]; norm_num)
      (by rw [List.length_replicate]; norm_num [MAX_RESPONSE]) hs
      (Schedule.oneWrite_fair (by rw [hlen]; norm_num)) (Schedule.oneWrite_within _)
    rw [← length_frame] at h
    exact (answers_of_lastPeek h).returns rfl
  · rintro ⟨q, h⟩
    obtain ⟨e, k, q', -, -, -, -, h'⟩ := readResponseWithDeadline_refuses hs (Schedule.oneWrite_clock_lt _)
      fun hfits => by
        have hle : (frame (List.replicate 4093 0)).length ≤ CONTROL_CAPACITY :=
          fits_header_iff.1 hfits 0 (by norm_num [Schedule.taken])
        rw [hlen, CONTROL_CAPACITY] at hle
        omega
    cases h.unique h'

end YasbLimitora

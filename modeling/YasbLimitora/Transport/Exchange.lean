import Mathlib
import YasbLimitora.Lib.Runs

/-!
# Handing a result over

A parent starts a child, lets it go, and takes its result from a channel of finite
capacity. Three places of the source do this: `_bounded_file_call` and
`_bounded_file_read` of `path.py`, and `OpenCodeWorkerProcess.run_with_deadline` of
`worker.py`. The child is the same in the three: it works, writes its result, and exits
when the last byte has gone into the channel – in the two places that use a queue it is
the queue's feeder that writes, and the child's exit waits for it.

The parents differ in what they do first. The file call and the OpenCode worker join
the child and then take the result; the file read joins for a moment only, and then
takes the result from a child that may still be writing. So the file read never keeps
the child waiting (`YasbLimitora.fileRead_delivers`), and the other two do it exactly
when the result is larger than the channel (`YasbLimitora.exchange_sound_iff`).
-/

open Relation

namespace YasbLimitora

/-- The places where a parent takes the result of a child. -/
inductive Site
  | fileCall
  | openCode
  | fileRead
deriving DecidableEq, Repr

/-- A result of `size` bytes, as it goes over the channel, and the capacity of the
channel. The bytes are those of the pickle that is sent, which for a cache file is of the
compressed file. -/
structure Exchange where
  size : ℕ
  capacity : ℕ
  size_pos : 0 < size

inductive Child
  /-- Waiting to be authorized, or at its own work. -/
  | working
  /-- Writing its result, of which `left` bytes are still to be written. -/
  | sending (left : ℕ)
  | exited
deriving DecidableEq, Repr

inductive Parent
  /-- In the join that follows the authorization. -/
  | joining
  /-- Out of that join, the child having exited. -/
  | joined
  /-- Taking the result from the channel. -/
  | taking
  /-- In the second join of the file read, with the result taken. -/
  | rejoining
  /-- The result has been delivered. -/
  | returned
  /-- The deadline, or an empty channel. -/
  | failed
deriving DecidableEq, Repr

/-- A state of the exchange: the two parties, the bytes in the channel, the bytes the
parent has taken out of it, and whether the usable time is up. -/
structure ExchangeState where
  child : Child
  parent : Parent
  buffered : ℕ
  taken : ℕ
  expired : Bool
deriving DecidableEq, Repr

def ExchangeState.init : ExchangeState := ⟨.working, .joining, 0, 0, false⟩

section Protocol

variable (site : Site) (e : Exchange)

/-- The steps of the two parties and of the clock. -/
inductive Step : ExchangeState → ExchangeState → Prop
  /-- The child's own work is done, and it starts to write its result. -/
  | work {p b t x} : Step ⟨.working, p, b, t, x⟩ ⟨.sending e.size, p, b, t, x⟩
  /-- Some bytes go into the channel, as many as it has room for. -/
  | write {p b t x left k} (hk : 0 < k) (hleft : k ≤ left) (hroom : b + k ≤ e.capacity) :
      Step ⟨.sending left, p, b, t, x⟩ ⟨.sending (left - k), p, b + k, t, x⟩
  | exit {p b t x} : Step ⟨.sending 0, p, b, t, x⟩ ⟨.exited, p, b, t, x⟩
  | tick {c p b t} : Step ⟨c, p, b, t, false⟩ ⟨c, p, b, t, true⟩
  | joined {b t x} : Step ⟨.exited, .joining, b, t, x⟩ ⟨.exited, .joined, b, t, x⟩
  /-- The join of the file call and of the OpenCode worker ends with the usable time. -/
  | joinExpired {c b t} (hs : site ≠ .fileRead) (hc : c ≠ .exited) :
      Step ⟨c, .joining, b, t, true⟩ ⟨c, .failed, b, t, true⟩
  /-- The first join of the file read is a short one. -/
  | joinShort {c b t x} (hs : site = .fileRead) (hc : c ≠ .exited) :
      Step ⟨c, .joining, b, t, x⟩ ⟨c, .taking, b, t, x⟩
  /-- The file call looks at the clock again before it looks at the channel. -/
  | recheck {c b t} (hs : site = .fileCall) :
      Step ⟨c, .joined, b, t, true⟩ ⟨c, .failed, b, t, true⟩
  | nothing {c t x} (hx : site = .fileCall → x = false) :
      Step ⟨c, .joined, 0, t, x⟩ ⟨c, .failed, 0, t, x⟩
  | found {c b t x} (hx : site = .fileCall → x = false) (hb : 0 < b) :
      Step ⟨c, .joined, b, t, x⟩ ⟨c, .taking, b, t, x⟩
  | take {c b t x k} (hk : 0 < k) (hb : k ≤ b) :
      Step ⟨c, .taking, b, t, x⟩ ⟨c, .taking, b - k, t + k, x⟩
  /-- The queue of the file read is waited for until the usable time ends. -/
  | takeExpired {c b t} (hs : site = .fileRead) (ht : t < e.size) :
      Step ⟨c, .taking, b, t, true⟩ ⟨c, .failed, b, t, true⟩
  | taken {c b x} (hs : site ≠ .fileRead) :
      Step ⟨c, .taking, b, e.size, x⟩ ⟨c, .returned, b, e.size, x⟩
  | rejoin {c b x} (hs : site = .fileRead) :
      Step ⟨c, .taking, b, e.size, x⟩ ⟨c, .rejoining, b, e.size, x⟩
  | rejoined {b t x} : Step ⟨.exited, .rejoining, b, t, x⟩ ⟨.exited, .returned, b, t, x⟩
  | rejoinExpired {c b t} (hc : c ≠ .exited) :
      Step ⟨c, .rejoining, b, t, true⟩ ⟨c, .failed, b, t, true⟩

/-- A step that ends before the deadline. -/
def StepInTime (s s' : ExchangeState) : Prop := Step site e s s' ∧ s'.expired = false

/-- The states reached before the deadline. -/
def ReachedInTime (s : ExchangeState) : Prop := ReflTransGen (StepInTime site e) .init s

/-- **The child cannot go on**: it has bytes to write and the channel is full, while
the parent only waits for its exit. -/
def Blocked (s : ExchangeState) : Prop :=
  s.parent = .joining ∧ ∃ left, s.child = .sending left ∧ 0 < left ∧ e.capacity ≤ s.buffered

/-- No state reached before the deadline is blocked. -/
def NeverBlocked : Prop := ∀ s, ReachedInTime site e s → ¬Blocked e s

/-- Every run that goes on before the deadline as long as it can delivers the result. -/
def AlwaysDelivers : Prop :=
  ∀ run, MaximalRun (StepInTime site e) .init run → ∃ n, (run n).parent = .returned

/-! ### What every state reached keeps -/

/-- The bytes of the result that have not yet gone into the channel. -/
def Child.left (size : ℕ) : Child → ℕ
  | .working => size
  | .sending left => left
  | .exited => 0

/-- **The accounts of the exchange**: no byte is lost or doubled, none is taken while the
parent joins, the parent is past its first join only once the child has exited – in
the file read perhaps before – and nothing fails before the deadline. -/
structure Accounts (s : ExchangeState) : Prop where
  bytes : s.child.left e.size + s.buffered + s.taken = e.size
  joining : s.parent = .joining ∨ s.parent = .joined → s.taken = 0
  joined : s.parent = .joined → s.child = .exited
  taking : s.parent = .taking → site ≠ .fileRead → s.child = .exited
  rejoining : s.parent = .rejoining → s.taken = e.size
  room : s.buffered ≤ e.capacity
  in_time : s.expired = false
  not_failed : s.parent ≠ .failed

variable {site e} {s s' : ExchangeState}

theorem accounts_init : Accounts site e .init := by
  refine ⟨?_, ?_, ?_, ?_, ?_, ?_, ?_, ?_⟩ <;> simp [ExchangeState.init, Child.left]

/-- **Every step before the deadline keeps the accounts.** -/
theorem Accounts.step (h : Accounts site e s) (hs : StepInTime site e s s') :
    Accounts site e s' := by
  obtain ⟨hbytes, hjoining, hjoined, htaking, hrejoining, hroom, htime, hfailed⟩ := h
  obtain ⟨hstep, htime'⟩ := hs
  have hpos := e.size_pos
  cases hstep with
  | tick => exact absurd htime' (by simp)
  | joinExpired hs hc => exact absurd htime (by simp)
  | recheck hs => exact absurd htime (by simp)
  | takeExpired hs ht => exact absurd htime (by simp)
  | rejoinExpired hc => exact absurd htime (by simp)
  | work | exit | joined | joinShort | found | taken | rejoin | rejoined => 
    constructor <;> simp_all [Child.left]
  | nothing hx =>
    -- the child has exited and nothing has been taken: the channel holds the result
    have hexited := hjoined rfl
    have htaken := hjoining (.inr rfl)
    simp only at hexited htaken
    subst hexited htaken
    simp only [Child.left] at hbytes
    omega
  | write hk hleft hroom' =>
    simp only [Child.left] at hbytes
    exact ⟨by simp only [Child.left]; omega, hjoining, fun hp => (nomatch hjoined hp),
      fun hp hs => (nomatch htaking hp hs), hrejoining, hroom', htime, hfailed⟩
  | take hk hb =>
    simp only at hbytes hroom
    exact ⟨by simp only; omega, by simp, by simp, htaking, by simp, by simp only; omega, htime,
      by simp⟩

theorem accounts_of_reached (h : ReachedInTime site e s) : Accounts site e s :=
  reachable_invariant accounts_init (fun _ _ hI hs => hI.step hs) h

/-! ### Runs end -/

/-- What is left to do: every byte still has to be written and taken. -/
def measure (e : Exchange) (s : ExchangeState) : ℕ :=
  (match s.child with
    | .working => 2 * e.size + 2
    | .sending left => 2 * left + 1
    | .exited => 0) + s.buffered +
  match s.parent with
    | .joining => 4
    | .joined => 3
    | .taking => 2
    | .rejoining => 1
    | .returned => 0
    | .failed => 0

theorem measure_lt (hs : StepInTime site e s s') : measure e s' < measure e s := by
  obtain ⟨hstep, htime⟩ := hs
  cases hstep with
  | tick => exact absurd htime (by simp)
  | write hk hleft hroom =>
    simp only [measure]
    omega
  | take hk hb =>
    simp only [measure]
    omega
  | _ =>
    simp only [measure]
    omega

/-! ### The results that fit -/

/-- A state in which nothing more can happen before the deadline, where the channel has
room for whatever is still to be written, or can be emptied: the result has been
delivered. -/
theorem returned_of_stuck (h : Accounts site e s) (hstuck : Stuck (StepInTime site e) s)
    (hcap : 0 < e.capacity)
    (hroom : s.parent = .joining → ∀ left, s.child = .sending left → 0 < left →
      s.buffered < e.capacity) : s.parent = .returned := by
  obtain ⟨child, parent, buffered, taken, expired⟩ := s
  obtain ⟨hbytes, hjoining, hjoined, -, hrejoining, -, htime, hfailed⟩ := h
  simp only at hbytes hjoining hjoined hrejoining htime hfailed hroom ⊢
  subst htime
  have hpos := e.size_pos
  cases child with
  | working => exact absurd ⟨.work, rfl⟩ (hstuck _)
  | sending left =>
    rcases Nat.eq_zero_or_pos left with rfl | hleft
    · exact absurd ⟨.exit, rfl⟩ (hstuck _)
    have hfull : e.capacity ≤ buffered := by
      by_contra hlt
      exact absurd ⟨.write one_pos hleft (by omega), rfl⟩ (hstuck _)
    simp only [Child.left] at hbytes
    cases parent with
    | joining => exact absurd (hroom rfl left rfl hleft) (by omega)
    | joined => exact nomatch hjoined rfl
    | taking => exact absurd ⟨.take one_pos (by omega), rfl⟩ (hstuck _)
    | rejoining =>
      have hall := hrejoining rfl
      omega
    | returned => rfl
    | failed => exact absurd rfl hfailed
  | exited =>
    simp only [Child.left] at hbytes
    cases parent with
    | joining => exact absurd ⟨.joined, rfl⟩ (hstuck _)
    | joined =>
      have hnone := hjoining (.inr rfl)
      exact absurd ⟨.found (fun _ => rfl) (by omega), rfl⟩ (hstuck _)
    | taking =>
      rcases Nat.eq_zero_or_pos buffered with rfl | hbuf
      · obtain rfl : taken = e.size := by omega
        by_cases hsite : site = .fileRead
        · exact absurd ⟨.rejoin hsite, rfl⟩ (hstuck _)
        · exact absurd ⟨.taken hsite, rfl⟩ (hstuck _)
      · exact absurd ⟨.take one_pos hbuf, rfl⟩ (hstuck _)
    | rejoining => exact absurd ⟨.rejoined, rfl⟩ (hstuck _)
    | returned => rfl
    | failed => exact absurd rfl hfailed

/-- **A result that fits is never waited for while the child waits for room.** -/
theorem neverBlocked_of_size_le (h : e.size ≤ e.capacity) : NeverBlocked site e := by
  rintro s hs ⟨hjoin, left, hchild, hleft, hfull⟩
  have hacc := accounts_of_reached hs
  have hbytes := hacc.bytes
  have hnone := hacc.joining (.inl hjoin)
  rw [hchild, Child.left] at hbytes
  omega

/-- **Where no state is blocked, every result is delivered.** -/
theorem alwaysDelivers_of_neverBlocked (hcap : 0 < e.capacity) (h : NeverBlocked site e) :
    AlwaysDelivers site e := by
  intro run hrun
  refine hrun.meets (P := fun s => s.parent = .returned) (measure e)
    (fun _ _ _ hs => measure_lt hs) fun s hs hstuck => ?_
  refine returned_of_stuck (accounts_of_reached hs) hstuck hcap fun hjoin left hchild hleft => ?_
  by_contra hfull
  exact h s hs ⟨hjoin, left, hchild, hleft, not_lt.1 hfull⟩

/-- The file read delivers every result, whatever the capacity: a state from which the
parent can leave its first join is not the end of a run. -/
theorem fileRead_delivers (hcap : 0 < e.capacity) : AlwaysDelivers .fileRead e := by
  intro run hrun
  refine hrun.meets (P := fun s => s.parent = .returned) (measure e)
    (fun _ _ _ hs => measure_lt hs) fun s hs hstuck => ?_
  refine returned_of_stuck (accounts_of_reached hs) hstuck hcap fun hjoin left hchild hleft => ?_
  obtain ⟨child, parent, buffered, taken, expired⟩ := s
  obtain rfl : parent = .joining := hjoin
  obtain rfl : child = .sending left := hchild
  obtain rfl : expired = false := (accounts_of_reached hs).in_time
  exact absurd ⟨.joinShort rfl nofun, rfl⟩ (hstuck _)

/-! ### The results that do not -/

/-- The channel is full and the child has still to write. -/
def ExchangeState.full (e : Exchange) : ExchangeState :=
  ⟨.sending (e.size - e.capacity), .joining, e.capacity, 0, false⟩

theorem blocked_full (h : e.capacity < e.size) : Blocked e (.full e) :=
  ⟨rfl, _, rfl, Nat.sub_pos_of_lt h, le_rfl⟩

theorem full_reached (h : e.capacity < e.size) : ReachedInTime site e (.full e) := by
  have hwork : ReachedInTime site e ⟨.sending e.size, .joining, 0, 0, false⟩ :=
    .single ⟨.work, rfl⟩
  rcases Nat.eq_zero_or_pos e.capacity with h0 | hpos
  · rw [ExchangeState.full, h0]
    exact hwork
  · have hwrite : StepInTime site e ⟨.sending e.size, .joining, 0, 0, false⟩
        ⟨.sending (e.size - e.capacity), .joining, 0 + e.capacity, 0, false⟩ :=
      ⟨.write hpos h.le (by omega), rfl⟩
    rw [zero_add] at hwrite
    exact hwork.tail hwrite

theorem neverBlocked_iff : NeverBlocked site e ↔ e.size ≤ e.capacity := by
  refine ⟨fun hnever => ?_, neverBlocked_of_size_le⟩
  by_contra hlt
  exact hnever _ (full_reached (not_le.1 hlt)) (blocked_full (not_le.1 hlt))

/-- Before the deadline nothing leaves a blocked state but the file read. -/
theorem stuck_of_blocked (hsite : site ≠ .fileRead) (hb : Blocked e s)
    (htime : s.expired = false) : Stuck (StepInTime site e) s := by
  obtain ⟨child, parent, buffered, taken, expired⟩ := s
  obtain ⟨hjoin, left, hchild, hleft, hfull⟩ := hb
  simp only at hjoin hchild hfull htime
  subst hjoin hchild htime
  rintro s' ⟨hstep, htime'⟩
  cases hstep with
  | write hk _ hroom => omega
  | exit => omega
  | tick => exact absurd htime' (by simp)
  | joinShort hs => exact hsite hs

theorem returned_stays (h : StepInTime site e s s') (hs : s.parent = .returned) :
    s'.parent = .returned := by
  obtain ⟨hstep, -⟩ := h
  cases hstep <;> simp_all

theorem alwaysDelivers_iff (hsite : site ≠ .fileRead) :
    AlwaysDelivers site e ↔ e.size ≤ e.capacity := by
  constructor
  · intro hall
    by_contra hlt
    obtain ⟨run, hrun, N, hN⟩ := MaximalRun.exists_of_stuck (full_reached (not_le.1 hlt))
      (stuck_of_blocked hsite (blocked_full (not_le.1 hlt)) rfl)
    obtain ⟨n, hn⟩ := hall run hrun
    have hkeep : ∀ k, (run (n + k)).parent = .returned := by
      intro k
      induction k with
      | zero => exact hn
      | succ k ih =>
        rcases hrun.next (n + k) with hstep | ⟨-, hstay⟩
        · exact returned_stays hstep ih
        · rwa [← add_assoc, hstay]
    have hlast := hkeep N
    rw [hN (n + N) (by omega)] at hlast
    cases hlast
  · intro h
    exact alwaysDelivers_of_neverBlocked (e.size_pos.trans_le h) (neverBlocked_of_size_le h)

end Protocol

/-- **The exchange is sound exactly for the results that fit the channel.** In the file
call and in the OpenCode worker, a state can be reached before the deadline in which
the child waits for room and the parent for the child's exit, and a run before the
deadline can go without delivering, unless the result is no larger than the channel. -/
theorem exchange_sound_iff (e : Exchange) :
    ((NeverBlocked .fileCall e ∧ AlwaysDelivers .fileCall e) ↔ e.size ≤ e.capacity) ∧
      ((NeverBlocked .openCode e ∧ AlwaysDelivers .openCode e) ↔ e.size ≤ e.capacity) := by
  rw [neverBlocked_iff, neverBlocked_iff, alwaysDelivers_iff (by decide),
    alwaysDelivers_iff (by decide)]
  simp

/-- Two channels full of bytes over one channel. What is handed over of a cache file is not the file
but its compressed bytes in a pickle: there are that many of them if the file does not compress and
is nearly as large as a cache file may be. -/
theorem exchange_blocked :
    ¬NeverBlocked .fileCall ⟨131072, 65536, by norm_num⟩ ∧
      ¬AlwaysDelivers .fileCall ⟨131072, 65536, by norm_num⟩ ∧
      ¬NeverBlocked .openCode ⟨131072, 65536, by norm_num⟩ ∧
      ¬AlwaysDelivers .openCode ⟨131072, 65536, by norm_num⟩ := by
  rw [neverBlocked_iff, neverBlocked_iff, alwaysDelivers_iff (by decide),
    alwaysDelivers_iff (by decide)]
  norm_num

end YasbLimitora

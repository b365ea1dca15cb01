import Mathlib
import YasbLimitora.Coordinator.Watch
import YasbLimitora.Model.Deadline

/-!
# Waiting for another owner

`get_or_refresh` where the marker has an owner, with a clock that never goes back and that a
sleep advances by as much as it was to (`YasbLimitora.Ticks`). A call ends after a number of
operations that its budget bounds; and where all that is asked of the lease and of the marker
is done, and every owner is alive, it comes to a cache hit, or its budget is used up: each
attempt that waits leaves a quantum less of it (`YasbLimitora.goes_waitOnce`), and there are
as many attempts as there are quanta.

Termination is proved with a bound. Each round of the loop sleeps, and the time that is left gets
less by what was slept, so that there are no more rounds than fit into the time of the call; each of
them takes a fixed number of operations at most, which is counted method by method.

The other half is safety for the one who waits: while the producer is alive and the operations of
the waiting call succeed, the call comes back with the document that was published, or with its time
used up.
-/

namespace YasbLimitora

open RefreshCoordinator

section Waiting

variable {V W : Type}

abbrev CoordinatorSchedule (V W : Type) := Schedule Op (Op.Resp V) W

/-! ### How much is done -/

section Within

/-- A lease is closed in two operations. -/
theorem within_closeLease (l : Lease) : (closeLease l : Coordination V (Bool × Lease)).Within 2 := by
  refine .bind (m := 1) (n := 1) (.ite (.ret _) (.perform _)) fun released => ?_
  exact .bind (m := 1) (n := 0) (.ite (.perform _) (.ret _)) fun closed => .ret _

theorem within_closePendingLease (mem : Memory) :
    (closePendingLease mem : Coordination V (Bool × Memory)).Within 2 := by
  unfold closePendingLease
  split
  · exact .ret _
  · exact .bind (n := 0) (within_closeLease _) fun _ => .ret _

theorem within_closeOrRetain (mem : Memory) : (closeOrRetain mem : Coordination V (Bool × Memory)).Within 2 :=
  .bind (n := 0) (within_closeLease _) fun _ => .ret _

theorem within_failureCode : (failureCode : Coordination V CoordinationError).Within 1 :=
  .bind (n := 0) (.perform _) fun _ => .ret _

theorem within_writeMarker (m : Marker) (purpose : Purpose) :
    (writeMarker m purpose : Coordination V Bool).Within 1 := .ite (.perform _) (.ret _)

theorem within_clearMarker (c : RefreshClaim) (purpose : Purpose) :
    (clearMarker c purpose : Coordination V Bool).Within 3 := by
  refine .bind (m := 2) (.bind (m := 1) (n := 1) (.perform _) fun t => ?_) fun m => within_writeMarker m purpose
  cases t with
  | some t => exact .ret _
  | none => exact .bind (n := 0) (.perform _) fun _ => .ret _

/-- A claim that is left over is recovered in seven. -/
theorem within_recoverPendingClaim (mem : Memory) :
    (recoverPendingClaim mem : Coordination V (Bool × Memory)).Within 7 := by
  unfold recoverPendingClaim
  split
  · exact .ret _
  · refine .bind (m := 1) (n := 6) (.perform _) fun r => ?_
    cases r with
    | guardError code => exact .ret _
    | raised => exact .ret _
    | lease =>
      refine .bind (m := 1) (n := 5) (.perform _) fun r => ?_
      refine .bind (m := 3) (n := 2) (.ite (within_clearMarker _ _) (.ret _)) fun recovered => ?_
      exact .bind (n := 0) (within_closeOrRetain mem) fun _ => .ret _

theorem within_ownerState (m : Marker) : (ownerState m : Coordination V OwnerState).Within 1 := by
  refine .ite (.ret _) (.bind (n := 0) (.perform _) fun r => ?_)
  cases r <;> exact .ret _

/-- The state is read under the lease in three. -/
theorem within_inspectLocked : (inspectLocked : Coordination V RefreshState).Within 3 := by
  refine .bind (m := 1) (n := 2) (.perform _) fun loaded => ?_
  cases loaded with
  | some bytes => exact .ret _
  | none =>
    refine .bind (m := 1) (n := 1) (.perform _) fun read => ?_
    split
    · exact .bind (n := 0) within_failureCode fun _ => .ret _
    · exact .ret _
    · exact .ite (.ret _) (.bind (n := 0) (within_ownerState _) fun _ => .ret _)

/-- An inspection takes thirteen, with what it closes. -/
theorem within_inspectState (mem : Memory) :
    (inspectState mem : Coordination V (RefreshState × Memory)).Within 13 := by
  refine .bind (m := 2) (n := 11) (within_closePendingLease mem) fun r => .ite (.ret _) ?_
  refine .bind (m := 7) (n := 4) (within_recoverPendingClaim _) fun r => .ite (.ret _) ?_
  refine .bind (m := 1) (n := 3) (.perform _) fun acquired => ?_
  cases acquired with
  | guardError code => exact .ret _
  | raised => exact .bind (m := 1) (n := 2) within_failureCode fun _ => .ret _
  | lease => exact .bind (n := 0) within_inspectLocked fun _ => .ret _

theorem within_releaseInspection (lease : Option Lease) (claim : Option RefreshClaim) (mem : Memory) :
    (releaseInspection lease claim mem : Coordination V (Bool × Memory)).Within 2 := by
  unfold releaseInspection
  split
  · exact .ret _
  · exact .bind (n := 0) (within_closeLease _) fun _ => .ret _

theorem within_releaseThen (state : RefreshState) (mem : Memory)
    {decision : Coordination V (RefreshDecision V)} (h : decision.Within 1) :
    (releaseThen state mem decision).Within 3 := by
  refine .bind (m := 2) (n := 1) (within_releaseInspection _ _ mem) fun r => ?_
  exact .ite (.bind (n := 0) h fun _ => .ret _) (.ret _)

/-- A claim is made in three. -/
theorem within_claimLocked (pid : ℕ) (marker : Option Marker) :
    (claimLocked pid marker : Coordination V (Option RefreshClaim)).Within 3 := by
  refine .bind (m := 1) (n := 2) (.perform _) fun r => ?_
  cases r with
  | unknown => exact .ret _
  | missing => exact .ret _
  | token t =>
    refine .ite (.ret _) (.bind (m := 1) (n := 1) (.perform _) fun r => ?_)
    cases r with
    | none => exact .ret _
    | some startedAt => exact .bind (n := 0) (within_writeMarker _ _) fun _ => .ret _

theorem within_claimAndRelease (pid : ℕ) (state : RefreshState) (mem : Memory) :
    (claimAndRelease pid state mem : Coordination V (RefreshDecision V × Memory)).Within 6 := by
  refine .bind (m := 3) (n := 3) (within_claimLocked pid _) fun claim => ?_
  refine .bind (m := 1) (n := 2) (.ite (.ret _) (.bind (n := 0) within_failureCode fun _ => .ret _)) fun error => ?_
  refine .bind (n := 0) (within_releaseInspection _ _ mem) fun r => ?_
  dsimp only
  split <;> exact .ret _

/-- What follows an inspection takes six. -/
theorem within_claimOrWait (pid : ℕ) (state : RefreshState) (mem : Memory) :
    (claimOrWait pid state mem : Coordination V (RefreshDecision V × Memory)).Within 6 := by
  unfold claimOrWait
  split
  · exact .bind (m := 2) (n := 4) (within_releaseInspection _ _ mem) fun _ => .ret _
  · exact (within_releaseThen state mem (.ret _)).mono (by decide)
  · exact (within_releaseThen state mem (.ret _)).mono (by decide)
  · refine (within_releaseThen state mem ?_).mono (by decide)
    exact .bind (n := 0) within_failureCode fun _ => .ret _
  · exact within_claimAndRelease pid state mem
  · exact within_claimAndRelease pid state mem

/-- A claim is finished in nine. -/
theorem within_finishClaim (publication : Publication) (c : RefreshClaim) (document : Option ByteArray)
    (mem : Memory) : (finishClaim publication c document mem : Coordination V (Bool × Memory)).Within 9 := by
  refine .bind (m := 1) (n := 8) (.perform _) fun r => ?_
  cases r with
  | guardError code => exact .ret _
  | raised => exact .ret _
  | lease =>
    refine .bind (m := 6) (n := 2) (.bind (m := 1) (n := 5) (.perform _) fun r => ?_) fun r =>
      .bind (n := 0) (within_closeOrRetain _) fun _ => .ret _
    refine .ite (.bind (m := 2) (n := 3) ?_ fun published => .bind (n := 0) (within_clearMarker c _) fun _ => .ret _)
      (.ret _)
    cases document with
    | none => exact .ret _
    | some document =>
      refine .ite (.bind (m := 1) (n := 1) (.perform _) fun t => ?_) (.ret _)
      cases t with
      | none => exact .ret _
      | some t =>
        dsimp only
        split
        · exact .ret _
        · exact .perform _

/-- A producer takes ten, with the refresh itself. -/
theorem within_produceAndFinish (publication : Publication) (c : RefreshClaim) (mem : Memory) :
    (produceAndFinish publication c mem : Coordination V _).Within 10 := by
  refine .bind (m := 1) (n := 9) (.perform _) fun x => ?_
  cases x <;> exact .bind (n := 0) (within_finishClaim publication c _ mem) fun _ => .ret _

/-- A waiting coordinator looks at its clock, and sleeps. -/
theorem within_waitOnce : (waitOnce : Coordination V (Option (SingleFlightResult V))).Within 3 := by
  refine .bind (m := 1) (n := 2) (.perform _) fun usable => .ite (.ret _) ?_
  exact .bind (m := 1) (n := 1) (.perform _) fun usable => .bind (n := 0) (.perform _) fun _ => .ret _

/-- **The loop ends**: each attempt performs no more than so many operations. -/
theorem within_refreshLoop (pid : ℕ) (publication : Publication) (attempts : ℕ) (mem : Memory) :
    (refreshLoop pid publication attempts mem : Coordination V _).Within (23 * attempts + 10) := by
  induction attempts generalizing mem with
  | zero => exact .bind (m := 1) (n := 9) within_failureCode fun _ => .ret _
  | succ attempts ih =>
    have hbody : (refreshLoop pid publication (attempts + 1) mem : Coordination V _).Within
        (1 + (13 + (6 + (3 + (23 * attempts + 10))))) := by
      refine .bind (.perform _) fun usable => .ite (.ret _) ?_
      refine .bind (within_inspectState mem) fun x => ?_
      refine .bind (within_claimOrWait pid x.1 x.2) fun y => ?_
      obtain ⟨⟨claim, wait, result⟩, mem⟩ := y
      match claim, wait, result with
      | _, _, some result =>
        refine (Prog.Within.bind (m := 1) (n := 0) ?_ fun _ => .ret _).mono (by omega)
        exact .ite (.bind (n := 0) (.perform _) fun _ => .ret _) (.ret _)
      | _, true, none =>
        refine .bind within_waitOnce fun waited => ?_
        cases waited with
        | some result => exact .ret _
        | none => exact ih mem
      | none, false, none =>
        exact (Prog.Within.bind (n := 0) within_failureCode fun _ => .ret _).mono (by omega)
      | some c, false, none => exact (within_produceAndFinish publication c mem).mono (by omega)
    exact hbody.mono (by omega)

theorem within_preload (mem : Memory) : (preload mem : Coordination V _).Within 3 := by
  unfold preload
  split
  · exact .ret _
  · refine .bind (m := 2) (n := 1) (within_closePendingLease mem) fun r => .ite ?_ (.ret _)
    exact .bind (n := 0) (.perform _) fun _ => .ret _

end Within

/-! ### The clock -/

section Clock

variable (context : DeadlineContext) (time : W → ℤ)

/-- What an operation does to the time: it does not go back; what is read of it was so during
the operation, and a sleep takes as long as it was to. -/
structure Takes (e : CoordinatorEvent V W) : Prop where
  passes : time e.before ≤ time e.after
  usable : ∀ r w w', e = ⟨.usableNs, r, w, w'⟩ → ∃ t, time w ≤ t ∧ t ≤ time w' ∧ r = context.usableNs t
  sleeps : ∀ ns r w w', e = ⟨.sleep ns, r, w, w'⟩ → time w + ns ≤ time w'

/-- **A schedule with a clock.** -/
structure Ticks (s : CoordinatorSchedule V W) : Prop where
  others : ∀ n w, time w ≤ time (s.others n w)
  answer : ∀ n o w, Takes context time ⟨o, (s.answer n o w).1, w, (s.answer n o w).2⟩

/-- What can be counted on where there is a clock. -/
def ticking : Prog.Rely Op (Op.Resp V) W :=
  ⟨fun w w' => time w ≤ time w', fun _ e => Takes context time e⟩

/-- What is asked of the lease and of the marker is done. -/
def Succeeds : CoordinatorEvent V W → Prop
  | ⟨.acquireKey, r, _, _⟩ => r = .lease
  | ⟨.releaseLease, r, _, _⟩ => r = true
  | ⟨.closeLease, r, _, _⟩ => r = true
  | ⟨.writeMarker _ _, r, _, _⟩ => r = true
  | ⟨.readMarker _, r, _, _⟩ => r.2 = true ∧ ∀ m, r.1 = some m → m.isValid
  | _ => True

/-- All that is asked for is done, and every owner that was looked for is alive. -/
structure Undisturbed (events : List (CoordinatorEvent V W)) : Prop where
  succeeds : ∀ e ∈ events, Succeeds e
  alive : ∀ f ∈ (watch events).found, f = some .alive

/-- What can be counted on where, besides, there is nothing but owners that are alive. -/
def waiting : Prog.Rely Op (Op.Resp V) W :=
  ⟨fun w w' => time w ≤ time w', fun before e => Takes context time e ∧ Undisturbed (before ++ [e])⟩

variable {context time} {s : CoordinatorSchedule V W}

/-- Every run of a coordinator admits the clock, if every answer takes its time. -/
theorem Ticks.admits_ticking (h : Ticks context time s) {α : Type} (p : Coordination V α) (n : ℕ)
    (before : List (CoordinatorEvent V W)) (w : W) :
    (ticking context time).Admits before w (Prog.run s n p w).events := by
  induction p generalizing n before w with
  | ret a => trivial
  | op o k ih => exact ⟨h.others n w, h.answer n o _, ih _ _ _ _⟩

/-- A run that nothing disturbs is undisturbed at its beginning. -/
theorem Undisturbed.of_append {events more : List (CoordinatorEvent V W)} (h : Undisturbed (events ++ more)) :
    Undisturbed events := by
  refine ⟨fun e he => h.succeeds e (List.mem_append_left _ he), fun f hf => h.alive f ?_⟩
  have hsuffix : (watch events).found <:+ (watch (events ++ more)).found := by
    clear h hf f
    induction more using List.reverseRecOn with
    | nil => rw [List.append_nil]
    | append_singleton more e ih =>
      rw [← List.append_assoc, watch_append]
      exact ih.trans (found_see _ e)
  exact hsuffix.mem hf

/-- A run that nothing disturbs admits the clock of a waiting one. -/
theorem Ticks.admits_waiting (h : Ticks context time s) {α : Type} (p : Coordination V α) (n : ℕ)
    {before : List (CoordinatorEvent V W)} {w : W} (hall : Undisturbed (before ++ (Prog.run s n p w).events)) :
    (waiting context time).Admits before w (Prog.run s n p w).events := by
  induction p generalizing n before w with
  | ret a => trivial
  | op o k ih =>
    have hrest := hall
    rw [Prog.run, List.append_cons] at hrest
    exact ⟨h.others n w, ⟨h.answer n o _, hrest.of_append⟩, ih _ _ hrest⟩

/-! ### Where every owner is alive -/

variable {before : List (CoordinatorEvent V W)} {w : W}

/-- What a method comes to where there is nothing but owners that are alive. -/
def Goes (context : DeadlineContext) (time : W → ℤ) {α : Type} (p : Coordination V α)
    (before : List (CoordinatorEvent V W)) (w : W) (Q : α → List (CoordinatorEvent V W) → W → Prop) : Prop :=
  p.Heeds (waiting context time) (fun _ _ => True) before w Q

/-- One operation goes well, if what follows holds of every answer that succeeds. -/
theorem goes_performs {o : Op} {Q : Op.Resp V o → List (CoordinatorEvent V W) → W → Prop}
    (h : ∀ r w₁ w', time w ≤ time w₁ → Takes context time ⟨o, r, w₁, w'⟩ → Succeeds ⟨o, r, w₁, w'⟩ →
      Undisturbed (before ++ [⟨o, r, w₁, w'⟩]) → Q r (before ++ [⟨o, r, w₁, w'⟩]) w') :
    Goes context time (Prog.perform o) before w Q :=
  .perform trivial fun r w₁ w' hothers ⟨htakes, hall⟩ =>
    h r w₁ w' hothers htakes (hall.succeeds _ (List.mem_append_right _ (List.mem_singleton_self _))) hall

/-- Time passes, and nothing is disturbed. -/
theorem goes_on {α : Type} (p : Coordination V α) (h : Undisturbed before) :
    Goes context time p before w fun _ trace w' => time w ≤ time w' ∧ Undisturbed trace := by
  refine .of_performs (I := fun trace w' => time w ≤ time w' ∧ Undisturbed trace) (.any p)
    (fun _ _ _ => trivial) ?_ ⟨le_rfl, h⟩
  rintro before e w₁ w' - ⟨hle, -⟩ hothers ⟨htakes, hall⟩ rfl
  exact ⟨hle.trans (le_trans hothers htakes.passes), hall⟩

/-- A lease is closed, where nothing is disturbed. -/
theorem goes_closeLease (l : Lease) :
    Goes context time (closeLease l : Coordination V (Bool × Lease)) before w fun x _ _ => x.1 = true := by
  obtain ⟨released, closed⟩ := l
  have hclose : ∀ (before : List (CoordinatorEvent V W)) w, Goes context time
      (do
        let closed ← (if true && !closed then Prog.perform Op.closeLease else pure closed : Coordination V Bool)
        return (true && closed, (⟨true, closed⟩ : Lease))) before w fun x _ _ => x.1 = true := by
    intro before w
    cases closed with
    | true => exact rfl
    | false => exact .bind (goes_performs fun r _ _ _ _ hr _ => (congrArg (true && ·) hr :))
  cases released with
  | true => exact hclose before w
  | false =>
    refine .bind (goes_performs fun r w₁ w' _ _ hr _ => ?_)
    obtain rfl : r = true := hr
    exact hclose _ w'

theorem goes_closePendingLease (mem : Memory) :
    Goes context time (closePendingLease mem : Coordination V (Bool × Memory)) before w fun x _ _ => x.1 = true := by
  unfold closePendingLease
  split
  · exact rfl
  · exact .bind ((goes_closeLease _).conseq fun x _ _ hx => hx)

theorem goes_closeOrRetain (mem : Memory) :
    Goes context time (closeOrRetain mem : Coordination V (Bool × Memory)) before w fun x _ _ => x.1 = true :=
  .bind ((goes_closeLease _).conseq fun _ _ _ hx => hx)

/-- A marker is cleared, where nothing is disturbed. -/
theorem goes_clearMarker {c : RefreshClaim} (hc : 0 < c.generation) (purpose : Purpose) :
    Goes context time (clearMarker c purpose : Coordination V Bool) before w fun b _ _ => b = true := by
  have hwrite : ∀ t before w, Goes context time
      (writeMarker ⟨c.generation, 0, "", t⟩ purpose : Coordination V Bool) before w fun b _ _ => b = true := by
    intro t before w
    have hvalid : Marker.isValid ⟨c.generation, 0, "", t⟩ = true := by simp [Marker.isValid, hc]
    have hwrites : (writeMarker ⟨c.generation, 0, "", t⟩ purpose : Coordination V Bool) =
        Prog.perform (Op.writeMarker ⟨c.generation, 0, "", t⟩ purpose) := if_pos hvalid
    rw [hwrites]
    exact goes_performs fun r _ _ _ _ hr _ => hr
  refine .bind (.bind (goes_performs fun (t : Option Instant) _ _ _ _ _ _ => ?_))
  cases t with
  | some t => exact hwrite t _ _
  | none => exact .bind (goes_performs fun t _ _ _ _ _ _ => hwrite t _ _)

/-- A claim that is pending is recovered. -/
theorem goes_recoverPendingClaim (mem : Memory) :
    Goes context time (recoverPendingClaim mem : Coordination V (Bool × Memory)) before w
      fun x _ _ => x.1 = true := by
  unfold recoverPendingClaim
  split
  · exact rfl
  rename_i c hc
  refine .bind (goes_performs fun (acquired : Acquired) _ _ _ _ hacquired _ => ?_)
  obtain rfl : acquired = .lease := hacquired
  refine .bind (goes_performs fun (read : Option Marker × Bool) _ w' _ _ hread _ => ?_)
  obtain ⟨marker, readable⟩ := read
  obtain ⟨rfl, hvalid⟩ : readable = true ∧ ∀ m, marker = some m → m.isValid := hread
  refine .bind (Prog.Heeds.conseq (Q := fun b _ _ => b = true) ?_ ?_)
  · split
    · rename_i howned
      obtain ⟨m, rfl, hsame⟩ : ∃ m, marker = some m ∧ sameClaim m c = true := by
        cases marker with
        | none => cases howned
        | some m => exact ⟨m, rfl, howned⟩
      have hgeneration : m.generation = c.generation := by
        simp only [sameClaim, Bool.and_eq_true, beq_iff_eq] at hsame
        exact hsame.1.1
      have hpos := hvalid m rfl
      simp only [Marker.isValid, Bool.and_eq_true, decide_eq_true_eq] at hpos
      exact goes_clearMarker (hgeneration ▸ hpos.1.1.1) _
    · exact rfl
  · rintro recovered t w rfl
    refine .bind ((goes_closeOrRetain mem).conseq ?_)
    rintro ⟨closed, mem⟩ t w rfl
    exact rfl

/-- **An inspection comes to the cache, or to what it found**, with the lease in hand. -/
theorem goes_inspectState (mem : Memory) :
    Goes context time (inspectState mem : Coordination V (RefreshState × Memory)) before w
      fun x _ _ => x.1.coordinationError = none := by
  refine .bind ((goes_closePendingLease mem).conseq ?_)
  rintro ⟨closed, mem⟩ t w rfl
  refine .bind ((goes_recoverPendingClaim mem).conseq ?_)
  rintro ⟨recovered, mem⟩ t w rfl
  refine .bind (goes_performs fun (acquired : Acquired) _ _ _ _ hacquired _ => ?_)
  obtain rfl : acquired = .lease := hacquired
  refine .bind (Prog.Heeds.conseq (Q := fun state _ _ => state.coordinationError = none) ?_ ?_)
  swap
  · exact fun state t w h => h
  refine .bind (goes_performs fun (loaded : Option ByteArray) _ _ _ _ _ _ => ?_)
  cases loaded with
  | some bytes => exact rfl
  | none =>
    refine .bind (goes_performs fun (read : Option Marker × Bool) _ w' _ _ hread hall => ?_)
    obtain ⟨marker, readable⟩ := read
    obtain rfl : readable = true := hread.1
    cases marker with
    | none => exact rfl
    | some m =>
      dsimp only
      split
      · exact rfl
      · exact .bind (Prog.Heeds.conseq (goes_on _ ‹_›) fun _ _ _ _ => rfl)

/-- What is decided before the lease is released stays decided, where nothing is disturbed. -/
theorem goes_releaseThen (state : RefreshState) (mem : Memory) (d : RefreshDecision V) :
    Goes context time (releaseThen state mem (pure d)) before w fun x _ _ => x.1 = d := by
  have hrelease : Goes context time
      (releaseInspection state.lease none mem : Coordination V (Bool × Memory)) before w
      fun x _ _ => x.1 = true := by
    unfold releaseInspection
    split
    · exact rfl
    · exact .bind ((goes_closeLease _).conseq fun x _ _ hx => hx)
  refine .bind (hrelease.conseq ?_)
  rintro ⟨released, mem⟩ t w rfl
  exact rfl

/-- The decision is a cache hit, or to wait. -/
theorem goes_claimOrWait (pid : ℕ) (mem : Memory) {state : RefreshState}
    (herror : state.coordinationError = none)
    (howner : state.cachedPublicBytes = none → state.ownerState = some .alive) :
    Goes context time (claimOrWait pid state mem : Coordination V (RefreshDecision V × Memory)) before w
      fun x _ _ => (∃ bytes, x.1 = RefreshCoordinator.decide (cachedResult bytes)) ∨ x.1 = ⟨none, true, none⟩ := by
  obtain ⟨cached, marker, owner, lease, error⟩ := state
  obtain rfl : error = none := herror
  cases cached with
  | some bytes => exact (goes_releaseThen _ mem _).conseq fun x _ _ hx => .inl ⟨bytes, hx⟩
  | none =>
    obtain rfl : owner = some .alive := howner rfl
    exact (goes_releaseThen _ mem _).conseq fun x _ _ hx => .inr hx

/-- The clock is read at some time between the call and its answer. -/
theorem Takes.reads {r : ℤ} {w₁ w' : W} (h : Takes context time (⟨.usableNs, r, w₁, w'⟩ : CoordinatorEvent V W)) :
    ∃ t, time w₁ ≤ t ∧ t ≤ time w' ∧ r = context.usableNs t := h.usable r w₁ w' rfl

theorem usableNs_nonneg (context : DeadlineContext) (t : ℤ) : 0 ≤ context.usableNs t := le_max_left _ _

/-- Time can only make less of what is usable. -/
theorem usableNs_anti (context : DeadlineContext) {t t' : ℤ} (h : t ≤ t') :
    context.usableNs t' ≤ context.usableNs t := by
  have hle : context.usableNs t' ≤ max 0 (context.usableNs t - 0) := context.usableNs_le_sub le_rfl (by omega)
  have hnonneg := usableNs_nonneg context t
  omega

/-- Once the usable time is up, the deadline explains a failure. -/
theorem goes_failureCode (h : context.usableNs (time w) = 0) :
    Goes context time (failureCode : Coordination V CoordinationError) before w
      fun code _ w' => code = .deadlineExhausted ∧ context.usableNs (time w') = 0 := by
  refine .bind (goes_performs fun (usable : ℤ) w₁ w' hothers htakes _ _ => ?_)
  obtain ⟨t, hle, hle', rfl⟩ := htakes.reads
  have hzero := context.usableNs_eq_zero_of_le (le_trans hothers hle) h
  exact ⟨if_pos hzero.le, context.usableNs_eq_zero_of_le hle' hzero⟩

/-- **One wait** uses up what is usable, or a quantum of it. -/
theorem goes_waitOnce {k : ℤ} (hk : 0 ≤ k) (h : context.usableNs (time w) ≤ k + REFRESH_WAIT_QUANTUM_NS) :
    Goes context time (waitOnce : Coordination V (Option (SingleFlightResult V))) before w fun x _ w' =>
      x = some deadlineResult ∧ context.usableNs (time w') = 0 ∨ x = none ∧ context.usableNs (time w') ≤ k := by
  refine .bind (goes_performs fun (usable : ℤ) w₁ w₂ hothers htakes _ _ => ?_)
  obtain ⟨t, hle, hle', rfl⟩ := htakes.reads
  split
  · rename_i hup
    exact .inl ⟨rfl, context.usableNs_eq_zero_of_le hle' (le_antisymm hup (usableNs_nonneg context t))⟩
  refine .bind (goes_performs fun (usable : ℤ) w₃ w₄ hothers' htakes' _ _ => ?_)
  obtain ⟨t', hle₁, hle₂, rfl⟩ := htakes'.reads
  refine .bind (goes_performs fun _ w₅ w₆ hothers'' htakes'' _ _ => .inr ⟨rfl, ?_⟩)
  have hbudget : context.usableNs t' ≤ k + REFRESH_WAIT_QUANTUM_NS :=
    (usableNs_anti context (by omega)).trans h
  have hsleep := htakes''.sleeps _ _ _ _ rfl
  have hnonneg := usableNs_nonneg context t'
  have hleft : context.usableNs (time w₆) ≤
      max 0 (context.usableNs t' - min REFRESH_WAIT_QUANTUM_NS (context.usableNs t')) := by
    refine context.usableNs_le_sub ?_ (by omega)
    exact le_min (by decide) hnonneg
  omega

/-- **What a call comes to**: a cache hit, or the deadline once what was usable is used up. -/
def HitOrExhausted (context : DeadlineContext) (now : ℤ) (r : SingleFlightResult V) : Prop :=
  (∃ bytes, r = cachedResult bytes) ∨ r.deadlineExhausted = true ∧ context.usableNs now = 0

/-- The loop, with at least as many attempts left as what is usable takes. -/
theorem goes_refreshLoop (pid : ℕ) (publication : Publication) {attempts : ℕ} (mem : Memory)
    (hreading : (watch before).reading = none)
    (hbudget : context.usableNs (time w) ≤ attempts * REFRESH_WAIT_QUANTUM_NS) :
    Goes context time (refreshLoop pid publication attempts mem : Coordination V _) before w
      fun x _ w' => ∃ r, x.1 = some r ∧ HitOrExhausted context (time w') r := by
  induction attempts generalizing before w mem with
  | zero =>
    have hzero : context.usableNs (time w) = 0 := by
      have hnonneg := usableNs_nonneg context (time w)
      rw [Nat.cast_zero, zero_mul] at hbudget
      omega
    refine .bind ((goes_failureCode hzero).conseq ?_)
    rintro code t w ⟨rfl, hup⟩
    exact ⟨_, rfl, .inr ⟨rfl, hup⟩⟩
  | succ attempts ih =>
    refine .bind (goes_performs fun (usable : ℤ) w₁ w₂ hothers htakes _ hall => ?_)
    obtain ⟨t, hle, hle', rfl⟩ := htakes.reads
    split
    · rename_i hup
      exact ⟨_, rfl, .inr ⟨rfl, context.usableNs_eq_zero_of_le hle' (le_antisymm hup (usableNs_nonneg context t))⟩⟩
    have hsame : watch (before ++ [⟨.usableNs, context.usableNs t, w₁, w₂⟩]) = watch before :=
      watch_of_aside hreading trivial
    rw [← hsame] at hreading
    refine .bind ((((inspectState_finds (fun _ _ _ => trivial) hreading mem).and (goes_inspectState mem)).and
      (goes_on (inspectState mem) hall)).conseq ?_)
    rintro ⟨state, mem⟩ trace w₃ ⟨⟨⟨hreading, hfound⟩, herror⟩, htime, hall⟩
    -- What was found is an owner that is alive.
    have howner : state.cachedPublicBytes = none → state.ownerState = some .alive := by
      intro hcached
      obtain ⟨rest, hrest⟩ := hfound herror hcached
      exact hall.alive _ (hrest ▸ List.mem_cons_self)
    refine .bind ((((heeds_aside (aside_claimOrWait pid state mem) (fun _ _ _ => trivial) hreading).and
      (goes_claimOrWait pid mem herror howner)).and (goes_on (claimOrWait pid state mem) hall)).conseq ?_)
    rintro ⟨decision, mem⟩ trace' w₄ ⟨⟨hwatch, ⟨bytes, rfl⟩ | rfl⟩, htime', hall⟩
    · exact ⟨_, rfl, .inl ⟨bytes, rfl⟩⟩
    · have hleft : context.usableNs (time w₄) ≤ attempts * REFRESH_WAIT_QUANTUM_NS + REFRESH_WAIT_QUANTUM_NS := by
        rw [Nat.cast_succ, add_one_mul] at hbudget
        have hanti := usableNs_anti context (show time w ≤ time w₄ by omega)
        omega
      rw [← hwatch] at hreading
      refine .bind (((heeds_aside aside_waitOnce (fun _ _ _ => trivial) hreading).and
        (goes_waitOnce (mul_nonneg (Nat.cast_nonneg _) (by decide)) hleft)).conseq ?_)
      rintro waited trace'' w₅ ⟨hwatch', ⟨rfl, hup⟩ | ⟨rfl, hleft⟩⟩
      · exact ⟨_, rfl, .inr ⟨rfl, hup⟩⟩
      · rw [← hwatch'] at hreading
        exact ih mem hreading hleft

/-! ### The call -/

/-- How often a call waits at most, by what is usable at first. -/
def waitAttempts (usable : ℤ) : ℕ :=
  (max 1 ((usable + REFRESH_WAIT_QUANTUM_NS - 1) / REFRESH_WAIT_QUANTUM_NS)).toNat

/-- With more time there are more attempts. -/
theorem waitAttempts_mono {usable usable' : ℤ} (h : usable ≤ usable') :
    waitAttempts usable ≤ waitAttempts usable' := by
  unfold waitAttempts REFRESH_WAIT_QUANTUM_NS
  omega

/-- The attempts take as long as there is time. -/
theorem le_waitAttempts (usable : ℤ) : usable ≤ waitAttempts usable * REFRESH_WAIT_QUANTUM_NS := by
  unfold waitAttempts REFRESH_WAIT_QUANTUM_NS
  omega

/-- **A call ends**: it takes no more operations than its time allows attempts. -/
theorem getOrRefresh_length (pid : ℕ) (publication : Publication) (mem : Memory) :
    (getOrRefresh pid publication mem : Coordination V _).Heeds (ticking context time) (fun _ _ => True) [] w
      fun _ trace _ => trace.length ≤ 23 * waitAttempts (context.usableNs (time w)) + 14 := by
  have htime : (preload mem : Coordination V _).Heeds (ticking context time) (fun _ _ => True)
      [] w fun _ _ w' => time w ≤ time w' := by
    refine .of_performs (I := fun _ w' => time w ≤ time w') (.any _) (fun _ _ _ => trivial) ?_ le_rfl
    rintro before e w₁ w' - hle hothers htakes rfl
    exact hle.trans (le_trans hothers htakes.passes)
  refine .bind (((Prog.Heeds.of_within (within_preload mem) fun _ _ => trivial).and htime).conseq ?_)
  rintro ⟨_ | result, mem⟩ trace w₁ ⟨hlength, htime⟩
  · refine .bind (.perform trivial fun (usable : ℤ) w₂ w₃ hothers htakes => ?_)
    obtain ⟨t, hle, hle', rfl⟩ := Takes.reads htakes
    have hattempts : waitAttempts (context.usableNs t) ≤ waitAttempts (context.usableNs (time w)) :=
      waitAttempts_mono (usableNs_anti context (htime.trans (le_trans hothers hle)))
    rw [List.length_nil] at hlength
    split
    · show (trace ++ [_]).length ≤ _
      rw [List.length_append, List.length_singleton]
      omega
    · refine (Prog.Heeds.of_within (within_refreshLoop pid publication _ mem) fun _ _ => trivial).conseq ?_
      intro x trace' w' hlength'
      rw [List.length_append, List.length_singleton] at hlength'
      unfold waitAttempts at hattempts
      unfold waitAttempts
      omega
  · show trace.length ≤ _
    rw [List.length_nil] at hlength
    omega

/-- **A call that nothing disturbs** ends with a hit, or with its time used up. -/
theorem goes_getOrRefresh (pid : ℕ) (publication : Publication) (mem : Memory) :
    Goes context time (getOrRefresh pid publication mem : Coordination V _) [] w
      fun x _ w' => ∃ r, x.1 = some r ∧ HitOrExhausted context (time w') r := by
  have hpreload : Goes context time (preload mem : Coordination V _) [] w
      fun x _ _ => ∀ r, x.1 = some r → ∃ bytes, r = cachedResult bytes := by
    unfold preload
    split
    · exact nofun
    refine .bind ((goes_closePendingLease mem).conseq ?_)
    rintro ⟨closed, mem⟩ t w rfl
    refine .bind (goes_performs fun (loaded : Option ByteArray) _ _ _ _ _ _ r hr => ?_)
    cases loaded with
    | none => cases hr
    | some bytes => exact ⟨bytes, (Option.some.inj hr).symm⟩
  refine .bind (((heeds_aside (aside_preload mem) (fun _ _ _ => trivial) rfl).and hpreload).conseq ?_)
  rintro ⟨_ | result, mem⟩ trace w₁ ⟨hwatch, hcached⟩
  · have hreading : (watch trace).reading = none := congrArg Watch.reading hwatch
    refine .bind (goes_performs fun (usable : ℤ) w₂ w₃ _ htakes _ _ => ?_)
    obtain ⟨t, hle, hle', rfl⟩ := htakes.reads
    split
    · rename_i hup
      exact ⟨_, rfl, .inr ⟨rfl, context.usableNs_eq_zero_of_le hle' (le_antisymm hup (usableNs_nonneg context t))⟩⟩
    · refine goes_refreshLoop pid publication mem ?_ ?_
      · have hsame : watch (trace ++ [⟨.usableNs, context.usableNs t, w₂, w₃⟩]) = watch trace :=
          watch_of_aside hreading trivial
        rwa [hsame]
      · exact (usableNs_anti context hle').trans (le_waitAttempts _)
  · obtain ⟨bytes, rfl⟩ := hcached result rfl
    exact ⟨_, rfl, .inl ⟨bytes, rfl⟩⟩

end Clock

end Waiting

/-! ### A call that waits in vain -/

/-- Twenty nanoseconds are usable. -/
def shortly : DeadlineContext := ⟨1, 21, 1, by decide, by decide, by decide, by decide⟩

def aliveMarker : Marker := ⟨1, 1, "a", ⟨2001, 1, 1, 0, 0, 0, 0, by decide⟩⟩

/-- The world is the time, and the marker is that of a process that lives. -/
def occupied : CoordinatorSchedule Unit ℤ where
  others _ t := t
  answer _ o t := match o with
    | .now => (some aliveMarker.startedAt, t)
    | .utcNow => (aliveMarker.startedAt, t)
    | .usableNs => (shortly.usableNs t, t)
    | .sleep ns => ((), t + max 0 ns)
    | .load => (none, t)
    | .acquireKey => (.lease, t)
    | .releaseLease => (true, t)
    | .closeLease => (true, t)
    | .readMarker _ => ((some aliveMarker, true), t)
    | .writeMarker _ _ => (true, t)
    | .writeCache _ _ => (true, t)
    | .processToken _ => (.token "a", t)
    | .produce _ => (.raised, t)

theorem ticks_occupied : Ticks shortly id occupied := by
  refine ⟨fun _ _ => le_rfl, fun n o t => ⟨?_, ?_, ?_⟩⟩
  · cases o with
    | sleep ns => exact le_add_of_nonneg_right (le_max_left _ _)
    | _ => exact le_rfl
  · rintro r w w' h
    cases o with
    | usableNs =>
      obtain ⟨-, hr, rfl, rfl⟩ := Event.mk.inj h
      exact ⟨_, le_rfl, le_rfl, (eq_of_heq hr).symm⟩
    | _ => cases h
  · rintro ns r w w' h
    cases o with
    | sleep ns' =>
      obtain ⟨ho, -, rfl, rfl⟩ := Event.mk.inj h
      obtain rfl := Op.sleep.inj ho
      exact add_le_add_right (le_max_right _ _) _
    | _ => cases h

end YasbLimitora

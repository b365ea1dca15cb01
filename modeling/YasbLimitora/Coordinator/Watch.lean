import Mathlib
import YasbLimitora.Coordinator.Program
import YasbLimitora.Lib.History

/-!
# When the producer is run

What a call of `get_or_refresh` finds is read off the history of its operations
(`YasbLimitora.watch`): each inspection that reads the marker finds that it has no owner, or
finds the state of its owner. The program is followed with this history beside it: what an
inspection comes to is what it found last (`YasbLimitora.inspectState_finds`), a claim is
taken only where that is no owner that may be alive, and so the producer waits for such an
owner to go (`YasbLimitora.getOrRefresh_awaits`).

`YasbLimitora.Watch` is an automaton over the events of a call. It remembers the marker whose owner
is being looked for, and what was found of each owner, the last one first. The methods of a
coordinator are sorted by what they do to it: most of them are aside, and leave it as it is, so that
only the inspection itself has to be followed event by event.
-/

namespace YasbLimitora

open RefreshCoordinator

section Watch

variable {V W : Type}

abbrev CoordinatorEvent (V W : Type) := Event Op (Op.Resp V) W

/-! ### What is found -/

/-- The state of the owner of a marker, by what is known of its process. -/
def stateOf (m : Marker) : ProcessToken → OwnerState
  | .unknown => .unknown
  | .missing => .dead
  | .token t => if t = "" then .unknown else if t = m.ownerToken then .alive else .dead

/-- What the inspections have found. -/
structure Watch where
  /-- The marker whose owner is being looked for. -/
  reading : Option Marker
  /-- The state of the owner of the marker that was read, if it has one, the last first. -/
  found : List (Option OwnerState)

def Watch.see (x : Watch) : CoordinatorEvent V W → Watch
  | ⟨.readMarker .inspecting, (none, true), _, _⟩ => ⟨none, none :: x.found⟩
  | ⟨.readMarker .inspecting, (some m, true), _, _⟩ =>
    if m.ownerPid = 0 then ⟨none, none :: x.found⟩
    else if m.ownerToken = "" then ⟨none, some .unknown :: x.found⟩
    else ⟨some m, x.found⟩
  | ⟨.processToken _, t, _, _⟩ => match x.reading with
    | some m => ⟨none, some (stateOf m t) :: x.found⟩
    | none => x
  | _ => x

def watch (events : List (CoordinatorEvent V W)) : Watch := events.foldl Watch.see ⟨none, []⟩

variable {before : List (CoordinatorEvent V W)} {w : W}

/-- A watch that sees a run sees its last event last. -/
theorem watch_append (events : List (CoordinatorEvent V W)) (e : CoordinatorEvent V W) :
    watch (events ++ [e]) = (watch events).see e := by
  rw [watch, List.foldl_append]
  rfl

/-- An operation that neither inspects nor produces. -/
def Op.Aside : Op → Prop
  | .readMarker purpose => purpose ≠ .inspecting
  | .produce _ => False
  | _ => True

/-- An event that says nothing of markers is not seen. -/
theorem see_of_aside {x : Watch} (hx : x.reading = none) {e : CoordinatorEvent V W} (he : e.op.Aside) :
    x.see e = x := by
  obtain ⟨o, r, w, w'⟩ := e
  cases o with
  | readMarker purpose =>
    cases purpose with
    | inspecting => exact absurd rfl he
    | _ => rfl
  | processToken pid =>
    show (match x.reading with
      | some m => ⟨none, some (stateOf m r) :: x.found⟩
      | none => x) = x
    rw [hx]
  | _ => rfl

/-- Nor is it at the end of a run, while nothing is being read. -/
theorem watch_of_aside (hreading : (watch before).reading = none) {e : CoordinatorEvent V W} (he : e.op.Aside) :
    watch (before ++ [e]) = watch before := by
  rw [watch_append]
  exact see_of_aside hreading he

/-- What is found is not lost. -/
theorem found_see (x : Watch) (e : CoordinatorEvent V W) : x.found <:+ (x.see e).found := by
  obtain ⟨o, r, w, w'⟩ := e
  unfold Watch.see
  split
  · exact List.suffix_cons _ _
  · split
    · exact List.suffix_cons _ _
    · split
      · exact List.suffix_cons _ _
      · exact List.suffix_rfl
  · split
    · exact List.suffix_cons _ _
    · exact List.suffix_rfl
  · exact List.suffix_rfl

/-! ### What performs no inspection -/

/-- To close a lease says nothing of markers. -/
theorem aside_closeLease (l : Lease) : (closeLease l : Coordination V (Bool × Lease)).Performs Op.Aside := by
  refine .bind (.ite trivial (.perform trivial)) fun released => ?_
  exact .bind (.ite (.perform trivial) trivial) fun closed => trivial

theorem aside_closePendingLease (mem : Memory) :
    (closePendingLease mem : Coordination V (Bool × Memory)).Performs Op.Aside := by
  unfold closePendingLease
  split
  · exact trivial
  · exact .bind (aside_closeLease _) fun _ => trivial

theorem aside_closeOrRetain (mem : Memory) :
    (closeOrRetain mem : Coordination V (Bool × Memory)).Performs Op.Aside :=
  .bind (aside_closeLease _) fun _ => trivial

theorem aside_failureCode : (failureCode : Coordination V CoordinationError).Performs Op.Aside :=
  .bind (.perform trivial) fun _ => trivial

theorem aside_writeMarker (m : Marker) (purpose : Purpose) :
    (writeMarker m purpose : Coordination V Bool).Performs Op.Aside := .ite (.perform trivial) trivial

/-- To clear a marker is no reading of one. -/
theorem aside_clearMarker (c : RefreshClaim) (purpose : Purpose) :
    (clearMarker c purpose : Coordination V Bool).Performs Op.Aside := by
  refine .bind (.bind (.perform trivial) fun t => ?_) fun m => aside_writeMarker m purpose
  cases t with
  | some t => exact trivial
  | none => exact .bind (.perform trivial) fun _ => trivial

theorem aside_recoverPendingClaim (mem : Memory) :
    (recoverPendingClaim mem : Coordination V (Bool × Memory)).Performs Op.Aside := by
  unfold recoverPendingClaim
  split
  · exact trivial
  · rename_i c hc
    refine .bind (.perform trivial) fun r => ?_
    cases r with
    | guardError code => exact trivial
    | raised => exact trivial
    | lease =>
      refine .bind (.perform (by simp [Op.Aside])) fun r => ?_
      refine .bind (.ite (aside_clearMarker c _) trivial) fun recovered => ?_
      exact .bind (aside_closeOrRetain mem) fun _ => trivial

/-- Nor is a claim under the lease. -/
theorem aside_claimLocked (pid : ℕ) (marker : Option Marker) :
    (claimLocked pid marker : Coordination V (Option RefreshClaim)).Performs Op.Aside := by
  refine .bind (.perform trivial) fun r => ?_
  cases r with
  | unknown => exact trivial
  | missing => exact trivial
  | token t =>
    refine .ite trivial (.bind (.perform trivial) fun r => ?_)
    cases r with
    | none => exact trivial
    | some startedAt => exact .bind (aside_writeMarker _ _) fun _ => trivial

theorem aside_releaseInspection (lease : Option Lease) (claim : Option RefreshClaim) (mem : Memory) :
    (releaseInspection lease claim mem : Coordination V (Bool × Memory)).Performs Op.Aside := by
  unfold releaseInspection
  split
  · exact trivial
  · exact .bind (aside_closeLease _) fun _ => trivial

theorem aside_releaseThen (state : RefreshState) (mem : Memory)
    {decision : Coordination V (RefreshDecision V)} (h : decision.Performs Op.Aside) :
    (releaseThen state mem decision).Performs Op.Aside := by
  refine .bind (aside_releaseInspection _ _ mem) fun r => ?_
  exact .ite (.bind h fun _ => trivial) trivial

theorem aside_claimAndRelease (pid : ℕ) (state : RefreshState) (mem : Memory) :
    (claimAndRelease pid state mem : Coordination V (RefreshDecision V × Memory)).Performs Op.Aside := by
  refine .bind (aside_claimLocked pid _) fun claim => ?_
  refine .bind (.ite trivial (.bind aside_failureCode fun _ => trivial)) fun error => ?_
  refine .bind (aside_releaseInspection _ _ mem) fun r => ?_
  dsimp only
  split <;> exact trivial

/-- What follows an inspection reads no marker. -/
theorem aside_claimOrWait (pid : ℕ) (state : RefreshState) (mem : Memory) :
    (claimOrWait pid state mem : Coordination V (RefreshDecision V × Memory)).Performs Op.Aside := by
  unfold claimOrWait
  split
  · exact .bind (aside_releaseInspection _ _ mem) fun _ => trivial
  · exact aside_releaseThen state mem trivial
  · exact aside_releaseThen state mem trivial
  · exact aside_releaseThen state mem (.bind aside_failureCode fun _ => trivial)
  · exact aside_claimAndRelease pid state mem
  · exact aside_claimAndRelease pid state mem

/-- Nor does what follows a refresh. -/
theorem aside_finishClaim (publication : Publication) (c : RefreshClaim) (document : Option ByteArray)
    (mem : Memory) :
    (finishClaim publication c document mem : Coordination V (Bool × Memory)).Performs Op.Aside := by
  refine .bind (.perform trivial) fun r => ?_
  cases r with
  | guardError code => exact trivial
  | raised => exact trivial
  | lease =>
    refine .bind (.bind (.perform (by simp [Op.Aside])) fun r => .ite (.bind ?_ fun published =>
      .bind (aside_clearMarker c _) fun _ => trivial) trivial) fun r =>
        .bind (aside_closeOrRetain _) fun _ => trivial
    cases document with
    | none => exact trivial
    | some document =>
      refine .ite (.bind (.perform trivial) fun t => ?_) trivial
      cases t with
      | none => exact trivial
      | some t =>
        dsimp only
        split
        · exact trivial
        · exact .perform trivial

/-! ### What an inspection finds -/

section Finds

variable {R : Prog.Rely Op (Op.Resp V) W} {permits : List (CoordinatorEvent V W) → Op → Prop}

/-- What performs no inspection leaves what has been found. -/
theorem heeds_aside {α : Type} {p : Coordination V α} (h : p.Performs Op.Aside)
    (hpermits : ∀ before o, (∀ c, o ≠ .produce c) → permits before o)
    (hreading : (watch before).reading = none) :
    p.Heeds R permits before w fun _ trace _ => watch trace = watch before := by
  refine Prog.Heeds.of_performs (I := fun trace _ => watch trace = watch before) h ?_ ?_ rfl
  · rintro before o ho
    exact hpermits before o fun c hc => by subst hc; exact ho
  · intro trace e w w' he hI _ _ _
    rw [← hI] at hreading
    exact (watch_of_aside hreading he).trans hI

/-- The state of an owner is found as the process table shows it. -/
theorem ownerState_finds {m : Marker} {found : List (Option OwnerState)}
    (hpermits : ∀ before o, (∀ c, o ≠ .produce c) → permits before o) (hpid : m.ownerPid ≠ 0)
    (hwatch : watch before =
      if m.ownerToken = "" then ⟨none, some .unknown :: found⟩ else ⟨some m, found⟩) :
    (ownerState m).Heeds R permits before w fun owner trace _ => watch trace = ⟨none, some owner :: found⟩ := by
  unfold ownerState
  by_cases htoken : m.ownerToken = ""
  · rw [if_pos htoken] at hwatch
    rw [if_pos (.inr htoken)]
    exact hwatch
  · rw [if_neg htoken] at hwatch
    rw [if_neg (not_or.2 ⟨hpid, htoken⟩)]
    refine .op (hpermits _ _ nofun) fun (t : ProcessToken) w₁ w' _ _ => ?_
    have hfound : watch (before ++ [⟨.processToken m.ownerPid, t, w₁, w'⟩]) =
        ⟨none, some (stateOf m t) :: found⟩ := by
      rw [watch_append, hwatch]
      rfl
    cases t with
    | unknown => exact hfound
    | missing => exact hfound
    | token t => exact hfound

/-- The marker that is read tells of its owner. -/
theorem inspectLocked_finds (hpermits : ∀ before o, (∀ c, o ≠ .produce c) → permits before o)
    (hreading : (watch before).reading = none) :
    (inspectLocked : Coordination V RefreshState).Heeds R permits before w fun state trace _ =>
      (watch trace).reading = none ∧ (state.coordinationError = none → state.cachedPublicBytes = none →
        ∃ rest, (watch trace).found = state.ownerState :: rest) := by
  refine .bind (.perform (hpermits _ _ nofun) fun (loaded : Option ByteArray) w₁ w₁' _ _ => ?_)
  have hloaded : watch (before ++ [⟨.load, loaded, w₁, w₁'⟩]) = watch before :=
    watch_of_aside hreading trivial
  rw [← hloaded] at hreading
  generalize before ++ [⟨.load, loaded, w₁, w₁'⟩] = t at hreading
  cases loaded with
  | some bytes => exact ⟨hreading, nofun⟩
  | none =>
    refine .bind (.perform (hpermits _ _ nofun) fun (read : Option Marker × Bool) w₂ w₂' _ _ => ?_)
    have hread := watch_append t ⟨.readMarker .inspecting, read, w₂, w₂'⟩
    match read with
    | (m, false) =>
      have hsame : (watch t).see (⟨.readMarker .inspecting, (m, false), w₂, w₂'⟩ : CoordinatorEvent V W) =
          watch t := by
        cases m <;> rfl
      rw [hsame] at hread
      rw [← hread] at hreading
      refine .bind ((heeds_aside aside_failureCode hpermits hreading).conseq fun code t w h => ?_)
      exact ⟨h ▸ hreading, nofun⟩
    | (none, true) => exact ⟨congrArg Watch.reading hread, fun _ _ => ⟨_, congrArg Watch.found hread⟩⟩
    | (some m, true) =>
      dsimp only
      split
      · rename_i hpid
        rw [Watch.see, if_pos hpid] at hread
        exact ⟨congrArg Watch.reading hread, fun _ _ => ⟨_, congrArg Watch.found hread⟩⟩
      · rename_i hpid
        rw [Watch.see, if_neg hpid] at hread
        refine .bind ((ownerState_finds hpermits hpid hread).conseq fun owner t w h => ?_)
        exact ⟨congrArg Watch.reading h, fun _ _ => ⟨_, congrArg Watch.found h⟩⟩

/-- **What an inspection finds** is the state of the owner that it comes to. -/
theorem inspectState_finds (hpermits : ∀ before o, (∀ c, o ≠ .produce c) → permits before o)
    (hreading : (watch before).reading = none) (mem : Memory) :
    (inspectState mem : Coordination V (RefreshState × Memory)).Heeds R permits before w fun x trace _ =>
      (watch trace).reading = none ∧ (x.1.coordinationError = none → x.1.cachedPublicBytes = none →
        ∃ rest, (watch trace).found = x.1.ownerState :: rest) := by
  refine .bind ((heeds_aside (aside_closePendingLease mem) hpermits hreading).conseq ?_)
  rintro ⟨closed, mem⟩ t₁ w₁ h₁
  rw [← h₁] at hreading
  dsimp only
  split
  · exact ⟨hreading, nofun⟩
  refine .bind ((heeds_aside (aside_recoverPendingClaim mem) hpermits hreading).conseq ?_)
  rintro ⟨recovered, mem⟩ t₂ w₂ h₂
  rw [← h₂] at hreading
  dsimp only
  split
  · exact ⟨hreading, nofun⟩
  refine .bind (.perform (hpermits _ _ nofun) fun (acquired : Acquired) w₃ w₃' _ _ => ?_)
  have hacquired : watch (t₂ ++ [⟨.acquireKey, acquired, w₃, w₃'⟩]) = watch t₂ :=
    watch_of_aside hreading trivial
  rw [← hacquired] at hreading
  cases acquired with
  | guardError code => exact ⟨hreading, nofun⟩
  | raised =>
    refine .bind ((heeds_aside aside_failureCode hpermits hreading).conseq fun code t w h => ?_)
    exact ⟨h ▸ hreading, nofun⟩
  | lease => exact .bind ((inspectLocked_finds hpermits hreading).conseq fun state t w h => h)

end Finds

/-- What a state must be for a claim to be taken. -/
def RefreshState.Free (state : RefreshState) : Prop :=
  state.coordinationError = none ∧ state.cachedPublicBytes = none ∧ state.ownerState ≠ some .alive ∧
    state.ownerState ≠ some .unknown

/-- A lease that is released with a decision that claims nothing claims nothing. -/
theorem releaseThen_returns (state : RefreshState) (mem : Memory)
    {decision : Coordination V (RefreshDecision V)} (h : decision.Returns fun d => d.claim = none) :
    (releaseThen state mem decision).Returns fun x => x.1.claim = none := by
  refine .bind (.any _) fun r _ => ?_
  dsimp only
  split
  · exact .bind h fun d hd => hd
  · exact rfl

/-- **A claim is taken only where the marker has no owner that may be alive.** -/
theorem claimOrWait_returns (pid : ℕ) (state : RefreshState) (mem : Memory) :
    (claimOrWait pid state mem : Coordination V (RefreshDecision V × Memory)).Returns
      fun x => x.1.claim ≠ none → state.Free := by
  unfold claimOrWait
  split
  · exact .bind (.any _) fun _ _ h => absurd rfl h
  · refine (releaseThen_returns state mem ?_).conseq fun x hx h => absurd hx h
    exact rfl
  · refine (releaseThen_returns state mem ?_).conseq fun x hx h => absurd hx h
    exact rfl
  · refine (releaseThen_returns state mem ?_).conseq fun x hx h => absurd hx h
    exact .bind (.any _) fun _ _ => rfl
  · rename_i herror hcached howner
    exact (Prog.Returns.any _).conseq fun _ _ _ =>
      ⟨herror, hcached, by rw [howner]; exact nofun, by rw [howner]; exact nofun⟩
  · rename_i herror hcached howner
    exact (Prog.Returns.any _).conseq fun _ _ _ =>
      ⟨herror, hcached, by rw [howner]; exact nofun, by rw [howner]; exact nofun⟩


/-! ### When the producer is run -/

/-- After what was done before, an operation is not the producer, or the last inspection found
that the marker has no owner or a dead one. -/
def Awaits (before : List (CoordinatorEvent V W)) (o : Op) : Prop :=
  ∀ c, o = .produce c →
    ∃ f rest, (watch before).found = f :: rest ∧ f ≠ some .alive ∧ f ≠ some .unknown

section Awaits

variable {R : Prog.Rely Op (Op.Resp V) W}

/-- An operation that produces nothing may come at any time. -/
theorem awaits_of_ne (before : List (CoordinatorEvent V W)) (o : Op) (h : ∀ c, o ≠ .produce c) :
    Awaits before o := fun c hc => absurd hc (h c)

/-- A program that reads no marker and produces nothing may run at any time. -/
theorem awaits_aside {α : Type} {p : Coordination V α} (h : p.Performs Op.Aside) :
    p.Heeds R Awaits before w fun _ _ _ => True := by
  refine .of_performs (I := fun _ _ => True) h ?_ (fun _ _ _ _ _ _ _ _ _ => trivial) trivial
  rintro before o ho c rfl
  exact ho.elim

/-- A producer runs where its claim was read to be free. -/
theorem produceAndFinish_awaits (publication : Publication) (c : RefreshClaim) (mem : Memory)
    (h : Awaits before (.produce c)) :
    (produceAndFinish publication c mem : Coordination V _).Heeds R Awaits before w fun _ _ _ => True := by
  refine .bind (.perform h fun (x : Produced V) _ _ _ _ => ?_)
  cases x with
  | raised => exact .bind ((awaits_aside (aside_finishClaim publication c none mem)).conseq fun _ _ _ _ => trivial)
  | result r =>
    exact .bind ((awaits_aside (aside_finishClaim publication c _ mem)).conseq fun _ _ _ _ => trivial)
  | value v => exact .bind ((awaits_aside (aside_finishClaim publication c none mem)).conseq fun _ _ _ _ => trivial)

theorem aside_waitOnce : (waitOnce : Coordination V _).Performs Op.Aside := by
  refine .bind (.perform trivial) fun usable => .ite trivial ?_
  exact .bind (.perform trivial) fun usable => .bind (.perform trivial) fun _ => trivial

theorem aside_orCached (r : SingleFlightResult V) : (orCached r).Performs Op.Aside :=
  .ite (.bind (.perform trivial) fun _ => trivial) trivial

/-- **The loop** awaits an owner that may be alive. -/
theorem refreshLoop_awaits (pid : ℕ) (publication : Publication) (attempts : ℕ) (mem : Memory)
    (hreading : (watch before).reading = none) :
    (refreshLoop pid publication attempts mem : Coordination V _).Heeds R Awaits before w fun _ _ _ => True := by
  induction attempts generalizing before w mem with
  | zero => exact awaits_aside (.bind aside_failureCode fun _ => trivial)
  | succ attempts ih =>
    refine .bind (.perform (awaits_of_ne _ _ nofun) fun (usable : ℤ) w₁ w₁' _ _ => ?_)
    dsimp only
    split
    · exact trivial
    have hsame : watch (before ++ [⟨.usableNs, usable, w₁, w₁'⟩]) = watch before :=
      watch_of_aside hreading trivial
    rw [← hsame] at hreading
    refine .bind ((inspectState_finds awaits_of_ne hreading mem).conseq ?_)
    rintro ⟨state, mem⟩ t w ⟨hreading, hfound⟩
    refine .bind (((heeds_aside (aside_claimOrWait pid state mem) awaits_of_ne hreading).and
      (.of_returns (aside_claimOrWait pid state mem) (claimOrWait_returns pid state mem) ?_)).conseq ?_)
    · rintro before o ho c rfl
      exact ho.elim
    rintro ⟨decision, mem⟩ t' w' ⟨hwatch, hfree⟩
    match decision with
    | ⟨claim, wait, some result⟩ =>
      exact .bind ((awaits_aside (aside_orCached result)).conseq fun _ _ _ _ => trivial)
    | ⟨claim, true, none⟩ =>
      rw [← hwatch] at hreading
      refine .bind ((heeds_aside aside_waitOnce awaits_of_ne hreading).conseq fun waited t'' w'' hwatch' => ?_)
      rw [← hwatch'] at hreading
      cases waited with
      | some result => exact trivial
      | none => exact ih mem hreading
    | ⟨none, false, none⟩ => exact awaits_aside (.bind aside_failureCode fun _ => trivial)
    | ⟨some c, false, none⟩ =>
      obtain ⟨herror, hcached, halive, hunknown⟩ := hfree nofun
      obtain ⟨rest, hfound⟩ := hfound herror hcached
      exact produceAndFinish_awaits publication c mem fun _ _ =>
        ⟨_, rest, (congrArg Watch.found hwatch).trans hfound, halive, hunknown⟩

/-- The look at the cache before any lease inspects nothing. -/
theorem aside_preload (mem : Memory) : (preload mem : Coordination V _).Performs Op.Aside := by
  unfold preload
  split
  · exact trivial
  · refine .bind (aside_closePendingLease mem) fun r => .ite ?_ trivial
    exact .bind (.perform trivial) fun _ => trivial

/-- **A call produces** only after it has read that nobody else does. -/
theorem getOrRefresh_awaits (pid : ℕ) (publication : Publication) (mem : Memory) :
    (getOrRefresh pid publication mem : Coordination V _).Heeds R Awaits [] w fun _ _ _ => True := by
  refine .bind ((heeds_aside (aside_preload mem) awaits_of_ne rfl).conseq ?_)
  rintro ⟨_ | result, mem⟩ t w hwatch
  · have hreading : (watch t).reading = none := congrArg Watch.reading hwatch
    refine .bind (.perform (awaits_of_ne _ _ nofun) fun (usable : ℤ) w₁ w₁' _ _ => ?_)
    have hsame : watch (t ++ [⟨.usableNs, usable, w₁, w₁'⟩]) = watch t := watch_of_aside hreading trivial
    rw [← hsame] at hreading
    dsimp only
    split
    · exact trivial
    · exact refreshLoop_awaits pid publication _ mem hreading
  · exact trivial

end Awaits

end Watch

end YasbLimitora

import Mathlib
import YasbLimitora.Helper.Resources
import YasbLimitora.Isolation.Cleanup

/-!
# The helper process is torn down in order

The resources of a helper through any number of calls, whatever the native calls and the
operations on the process come to: the handle of the process is released with the job
closed, nothing is done to a process that was closed, no owner is left closing, and where
all operations succeed any call to close closes all there is.

A program over the resources is orderly if each of its events is proper where it happens: a rule for
each way to build a program, and one lemma for each method. The owner of the job and the owner of
the process are treated apart, since each closes by itself and may fail by itself; `Rests` is what
both come to between two calls.

The last part is about success. It follows the same methods with the assumption that every operation
succeeds, and finds that nothing is left open, whatever calls came before and however those failed.
-/

namespace YasbLimitora

namespace Helper

open Isolation (Boundary JobOp JobErrorCode)

/-- What the native calls, the operations on the process and the clock come to. -/
abbrev Results := ℕ → (o : HelperOp) → o.Resp

/-- What an operation answers, if it comes to this outside, and leaves. -/
def HelperOp.perform : (o : HelperOp) → o.Resp → HelperProcessResources → o.Resp × HelperProcessResources
  | .read, _, r => (r, r)
  | .change f, _, r => ((), f r)
  | _, result, r => (result, r)

def answering (results : Results) : Schedule HelperOp HelperOp.Resp HelperProcessResources where
  others _ r := r
  answer n o r := o.perform (results n o) r

abbrev HelperEvent := Event HelperOp HelperOp.Resp HelperProcessResources

/-- An operation that changes something about the process. -/
def HelperOp.actsOnProcess : HelperOp → Bool
  | .terminate _ => true
  | .wait _ => true
  | .release _ => true
  | _ => false

namespace HelperProcessResources

/-- The job is closed, if there is one. -/
def JobClosed (r : HelperProcessResources) : Prop := ∀ job, r.job = some job → job.state = .closed

/-- The process is closed. -/
def PopenClosed (r : HelperProcessResources) : Prop := r.popen.state = .closed

end HelperProcessResources

/-- What is asked of the resources where an operation is performed. -/
def Proper (o : HelperOp) (r : HelperProcessResources) : Prop :=
  match o with
  | .terminate _ => ¬ r.PopenClosed
  | .wait _ => ¬ r.PopenClosed
  | .release _ => ¬ r.PopenClosed ∧ r.JobClosed
  | .change f => r.PopenClosed → (f r).PopenClosed
  | _ => True

/-! ### Rules -/

/-- A program performs its operations as it should, and comes to something. -/
def Orderly {α : Type} (p : Helping α) (r : HelperProcessResources)
    (Q : α → HelperProcessResources → Prop) : Prop :=
  Prog.Meets (Set.range answering) (· = r) p fun a r' events =>
    (∀ e ∈ events, Proper e.op e.before) ∧ Q a r'

namespace Orderly

variable {α β : Type} {r : HelperProcessResources} {p : Helping α} {Q : α → HelperProcessResources → Prop}

/-- A program that is over has done nothing out of order. -/
theorem ret {a : α} (h : Q a r) : Orderly (.ret a) r Q :=
  Prog.Meets.ret fun _ hr => ⟨List.forall_mem_nil _, hr ▸ h⟩

/-- Two programs in a row are orderly if each is. -/
theorem bind {f : α → Helping β} {R : β → HelperProcessResources → Prop}
    (h : Orderly p r fun a r' => Orderly (f a) r' R) : Orderly (p >>= f) r R := by
  refine Prog.Meets.bind (Prog.Meets.conseq h ?_)
  rintro a r' events ⟨hevents, ha⟩
  refine ⟨(· = r'), rfl, Prog.Meets.conseq ha ?_⟩
  rintro b r'' more ⟨hmore, hb⟩
  exact ⟨List.forall_mem_append.2 ⟨hevents, hmore⟩, hb⟩

/-- The end of an orderly program may be said in weaker terms. -/
theorem conseq {R : α → HelperProcessResources → Prop} (h : Orderly p r Q)
    (hQ : ∀ a r', Q a r' → R a r') : Orderly p r R :=
  Prog.Meets.conseq h fun _ _ _ hx => ⟨hx.1, hQ _ _ hx.2⟩

/-- **One operation** must be proper where it is done, whatever comes of it. -/
theorem op {o : HelperOp} {k : o.Resp → Helping α} (ho : Proper o r)
    (h : ∀ result, Orderly (k (o.perform result r).1) (o.perform result r).2 Q) :
    Orderly (.op o k) r Q := by
  refine Prog.Meets.op (fun _ ⟨_, hs⟩ _ _ hr => hs ▸ hr) ?_
  rintro _ ⟨results, rfl⟩ n r' hr
  obtain rfl : r' = r := hr
  refine ⟨(· = (o.perform (results n o) r').2), rfl, Prog.Meets.conseq (h (results n o)) ?_⟩
  rintro b r'' events ⟨hevents, hb⟩
  exact ⟨List.forall_mem_cons.2 ⟨ho, hevents⟩, hb⟩

/-- The rule of an operation with what comes after it. -/
theorem call {o : HelperOp} {f : o.Resp → Helping α} (ho : Proper o r)
    (h : ∀ result, Orderly (f (o.perform result r).1) (o.perform result r).2 Q) :
    Orderly (Prog.perform o >>= f) r Q := op ho h

/-- The rule of an operation. -/
theorem perform {o : HelperOp} {Q : o.Resp → HelperProcessResources → Prop} (ho : Proper o r)
    (h : ∀ result, Q (o.perform result r).1 (o.perform result r).2) : Orderly (Prog.perform o) r Q :=
  op ho fun result => ret (h result)

/-- A look at the resources is no operation on them. -/
theorem read {Q : HelperProcessResources → HelperProcessResources → Prop} (h : Q r r) :
    Orderly Helper.read r Q := perform trivial fun _ => h

/-- A change of what is noted must not reopen a process. -/
theorem change {f : HelperProcessResources → HelperProcessResources}
    {Q : Unit → HelperProcessResources → Prop} (hf : r.PopenClosed → (f r).PopenClosed) (h : Q () (f r)) :
    Orderly (Helper.change f) r Q := perform hf fun _ => h

/-- What is done to the job leaves the owners alone. -/
theorem liftJob {p : Isolation.Job α} {A : α → Prop} (h : p.Returns A) :
    Orderly (Helper.liftJob p) r fun a r' => r' = r ∧ A a := by
  induction p with
  | ret a => exact .ret ⟨rfl, h⟩
  | op o k ih => exact .op trivial fun result => ih result (h result)

end Orderly

/-! ### The job -/

/-- An owner of a job between two calls. -/
structure OwnerRests (job : JobOwner) : Prop where
  notClosing : job.state ≠ .closing
  closed : job.state = .closed → job.boundary.state = .closed

/-- A job that reports a close is closed. -/
theorem returns_close (b : Boundary) (validTimeout : Bool) :
    (b.close validTimeout).Returns fun x => x.1 = .ok () → x.2.state = .closed := by
  unfold Boundary.close
  split
  · next hclosed => exact fun _ => hclosed
  refine (Prog.Returns.any _).bind ?_
  rintro ⟨⟨ok, timedOut⟩, b'⟩ -
  rcases timedOut <;> rcases ok
  · exact nofun
  · exact fun _ => rfl
  · exact nofun
  · exact nofun

/-- So it is for a close with a deadline. -/
theorem returns_closeWithDeadline (b : Boundary) :
    b.closeWithDeadline.Returns fun x => x.1 = .ok () → x.2.state = .closed := by
  unfold Boundary.closeWithDeadline
  split
  · next hclosed => exact fun _ => hclosed
  intro (cleanupNs : ℤ)
  show Prog.Returns _ (if cleanupNs ≤ 0 then _ else _)
  split
  · exact nofun
  refine (Prog.Returns.any _).bind ?_
  rintro ⟨⟨ok, timedOut⟩, b'⟩ -
  rcases timedOut <;> rcases ok
  · exact nofun
  · exact fun _ => rfl
  · exact nofun
  · exact nofun

variable {r : HelperProcessResources}

/-- What a call on the owner of a job leaves: it is closed where the call succeeds. -/
def JobCalled (r : HelperProcessResources) (x : Except ResourceError Unit) (r' : HelperProcessResources) :
    Prop :=
  ∃ job, r' = { r with job := some job } ∧ OwnerRests job ∧ (x = .ok () → job.state = .closed) ∧
    x ≠ .error .ownership

/-- An owner whose boundary is left as it is stays one that can be closed. -/
theorem ownerRests_failed (boundary : Boundary) : OwnerRests ⟨boundary, JobOwner.failedState boundary⟩ := by
  by_cases hclosed : boundary.state = .closed
  · rw [JobOwner.failedState, if_pos hclosed]
    exact ⟨by simp, fun _ => hclosed⟩
  · rw [JobOwner.failedState, if_neg hclosed]
    exact ⟨by simp, nofun⟩

/-- **An owner of a job closes it**, or is left with what can be closed again. -/
theorem jobOwner_closing {job : JobOwner} (hjob : r.job = some job) (hrests : OwnerRests job)
    {closeBoundary : Isolation.Job (Except JobErrorCode Unit × Boundary)}
    (hboundary : closeBoundary.Returns fun x => x.1 = .ok () → x.2.state = .closed) :
    Orderly (job.closing closeBoundary) r (JobCalled r) := by
  unfold JobOwner.closing
  have hclose : Orderly (job.closeOpen closeBoundary) r (JobCalled r) := by
    refine .bind (.change id (.bind ((Orderly.liftJob hboundary).conseq ?_)))
    rintro ⟨error | ⟨⟩, boundary⟩ r' ⟨rfl, hx⟩
    · refine .bind (.change id (.ret ⟨_, rfl, ownerRests_failed boundary, nofun, ?_⟩))
      split
      · simp
      · simp
    · exact .bind (.change id (.ret ⟨_, rfl, ⟨by simp, fun _ => hx rfl⟩, fun _ => rfl, nofun⟩))
  rcases hstate : job.state with _ | _ | _ | _ | _
  · exact hclose
  · exact hclose
  · exact absurd hstate hrests.notClosing
  · exact hclose
  · exact .ret ⟨job, by rw [← hjob], hrests, fun _ => hstate, nofun⟩

/-! ### The process -/

open PopenProcessOwner (releaseHandle timeToWait)

/-- The owner of a process between two calls. -/
structure PopenRests (popen : PopenProcessOwner) : Prop where
  notClosing : popen.state ≠ .closing
  present : popen.state ≠ .closed → popen.popen ≠ none

/-- A handle that was borrowed is never closed here. -/
theorem orderly_releaseHandle (handle : Option ℕ) (hopen : ¬ r.PopenClosed) (hjob : r.JobClosed) :
    Orderly (releaseHandle handle) r fun _ r' => r' = r := by
  rcases handle with _ | handle
  · exact .ret rfl
  · refine .call ⟨hopen, hjob⟩ fun (answer : Answer Unit) => ?_
    rcases answer with _ | ⟨⟩
    · exact .ret rfl
    · exact .ret rfl

/-- Asking for the time changes nothing. -/
theorem orderly_timeToWait (deadline : Bool) : Orderly (timeToWait deadline) r fun _ r' => r' = r := by
  rcases deadline
  · exact .ret rfl
  · exact .call trivial fun _ => .ret rfl

/-- **A process is reaped** with the job closed, and while its owner is not. -/
theorem orderly_reap (owner : PopenProcessOwner) (deadline : Bool) (hopen : ¬ r.PopenClosed)
    (hjob : r.JobClosed) : Orderly (owner.reap deadline) r fun _ r' => r' = r := by
  unfold PopenProcessOwner.reap
  split
  · exact .ret rfl
  refine .call trivial fun (polled : Answer (Option ℤ)) => ?_
  rcases polled with _ | _ | code
  · exact .ret rfl
  · refine .call hopen fun (terminated : Answer Unit) => ?_
    rcases terminated with _ | ⟨⟩
    · exact .ret rfl
    refine .bind ((orderly_timeToWait deadline).conseq ?_)
    rintro inTime r' rfl
    rcases inTime
    · exact .ret rfl
    refine .call hopen fun (waited : Answer Unit) => ?_
    rcases waited with _ | ⟨⟩
    · exact .ret rfl
    · exact orderly_releaseHandle owner.nativeHandle hopen hjob
  · exact orderly_releaseHandle owner.nativeHandle hopen hjob

/-- What a call on the owner of the process leaves: it is closed where the call succeeds. -/
def PopenCalled (r : HelperProcessResources) (x : Except ResourceError Unit) (r' : HelperProcessResources) :
    Prop :=
  ∃ popen, r' = { r with popen := popen } ∧ PopenRests popen ∧ (x = .ok () → popen.state = .closed) ∧
    x ≠ .error .ownership

/-- Nothing is left to do. -/
theorem popenCalled_of_closed (h : PopenRests r.popen) (hclosed : r.PopenClosed) :
    PopenCalled r (.ok ()) r := ⟨r.popen, rfl, h, fun _ => hclosed, nofun⟩

/-- **The process is waited for and closed** only once its job is closed. -/
theorem popen_closing (h : PopenRests r.popen) (deadline : Bool) (hopen : ¬ r.PopenClosed)
    (hjob : r.JobClosed) : Orderly (r.popen.closing deadline) r (PopenCalled r) := by
  refine .bind (.change (fun hclosed => absurd hclosed hopen) (.bind ?_))
  refine (orderly_reap (r := { r with popen := { r.popen with state := .closing } }) r.popen deadline
    (by simp [HelperProcessResources.PopenClosed]) hjob).conseq ?_
  rintro reaped _ rfl
  rcases reaped
  · refine .bind (.change nofun (.ret ⟨_, rfl, ⟨nofun, fun _ => h.present hopen⟩, nofun, by simp⟩))
  · exact .bind (.change nofun (.ret ⟨_, rfl, ⟨nofun, fun h => absurd rfl h⟩, fun _ => rfl, nofun⟩))

/-- So it is for a close without a deadline. -/
theorem popen_close (h : PopenRests r.popen) (validTimeout : Bool) (hjob : r.JobClosed) :
    Orderly (PopenProcessOwner.close validTimeout) r (PopenCalled r) := by
  have hclose : ¬ r.PopenClosed → Orderly (r.popen.closeOpen validTimeout) r (PopenCalled r) := by
    refine fun hopen => .bind ((popen_closing h false hopen hjob).conseq ?_)
    rintro (error | ⟨⟩) r' ⟨popen, rfl, hrests, hok, hne⟩
    · exact .ret ⟨popen, rfl, hrests, nofun, hne⟩
    · refine .ret ⟨popen, rfl, hrests, fun _ => hok rfl, ?_⟩
      split
      · exact nofun
      · simp
  refine .bind (.read ?_)
  split
  · next hclosed => exact .ret (popenCalled_of_closed h hclosed)
  · next hclosing => exact absurd hclosing h.notClosing
  · next hopen _ => exact hclose hopen

/-- And for one with a deadline. -/
theorem popen_closeWithDeadline (h : PopenRests r.popen) (hjob : r.JobClosed) :
    Orderly PopenProcessOwner.closeWithDeadline r (PopenCalled r) := by
  refine .bind (.read ?_)
  split
  · next hclosed => exact .ret (popenCalled_of_closed h hclosed)
  · next hopen =>
    refine .call trivial fun (remaining : ℤ) => ?_
    show Orderly (if remaining ≤ 0 then _ else _) r _
    split
    · exact .ret ⟨r.popen, rfl, h, nofun, by simp⟩
    · exact popen_closing h true hopen hjob

/-! ### Both -/

/-- **The resources of a helper between two calls.** -/
structure Rests (r : HelperProcessResources) : Prop where
  notClosing : r.state ≠ .closing
  popen : PopenRests r.popen
  job : ∀ job, r.job = some job → OwnerRests job
  jobClosed : r.jobClosed = true → (∃ job, r.job = some job) ∧ r.JobClosed
  closed : r.state = .closed → r.PopenClosed ∧ r.JobClosed

/-- What a call on the resources comes to. -/
def Called (x : Except ResourceError Unit) (r' : HelperProcessResources) : Prop :=
  Rests r' ∧ x ≠ .error .ownership ∧ (x = .ok () → r'.state = .closed)

/-- The job is closed, and found closed from now on. -/
theorem orderly_closeJob {r₁ : HelperProcessResources} (h : Rests r) (hr : r₁ = { r with state := .closing })
    {closeOwner : JobOwner → Helping (Except ResourceError Unit)}
    (hclose : ∀ job r, r.job = some job → OwnerRests job → Orderly (closeOwner job) r (JobCalled r)) :
    Orderly (r.closeJob closeOwner) r₁ fun x r' =>
      (∀ state, state ≠ .closing → state ≠ .closed → Rests { r' with state := state }) ∧
        x ≠ .error .ownership ∧ (x = .ok () → r'.JobClosed) := by
  subst hr
  have hrests : ∀ state : OwnerState, state ≠ .closing → state ≠ .closed → Rests { r with state := state } :=
    fun state hclosing hclosed => ⟨hclosing, h.popen, h.job, h.jobClosed, fun h => absurd h hclosed⟩
  unfold HelperProcessResources.closeJob
  split
  · next job hjob hnot =>
    refine .bind ((hclose job { r with state := .closing } hjob (h.job job hjob)).conseq ?_)
    rintro (error | ⟨⟩) r' ⟨job', rfl, howner, hok, hne⟩
    · refine .ret ⟨fun state hclosing hclosed => ⟨hclosing, h.popen, ?_, ?_, fun h => absurd h hclosed⟩, hne, nofun⟩
      · rintro _ ⟨⟩
        exact howner
      · exact fun h => absurd (hnot.symm.trans h) nofun
    · have hclosed : ∀ job, some job' = some job → job.state = .closed := by
        rintro _ ⟨⟩
        exact hok rfl
      refine .bind (.change id (.ret ⟨fun state hclosing hstate => ⟨hclosing, h.popen, ?_, ?_, ?_⟩, nofun, ?_⟩))
      · rintro _ ⟨⟩
        exact howner
      · exact fun _ => ⟨⟨job', rfl⟩, hclosed⟩
      · exact fun h => absurd h hstate
      · exact fun _ => hclosed
  · next hother =>
    refine .ret ⟨hrests, nofun, fun _ job hjob => ?_⟩
    have hclosed : r.jobClosed = true := by
      rw [← Bool.not_eq_false]
      exact fun hnot => hother job hjob hnot
    exact (h.jobClosed hclosed).2 job hjob

/-- **A call to close both**, of which the owner of the job and that of the process keep to their
own. -/
theorem resources_closing (h : Rests r) {closeOwner : JobOwner → Helping (Except ResourceError Unit)}
    {closePopen : Helping (Except ResourceError Unit)}
    (howner : ∀ job r, r.job = some job → OwnerRests job → Orderly (closeOwner job) r (JobCalled r))
    (hpopen : ∀ r, PopenRests r.popen → r.JobClosed → Orderly closePopen r (PopenCalled r)) :
    Orderly (HelperProcessResources.closing closeOwner closePopen) r Called := by
  have hclose : Orderly (r.closeOpen closeOwner closePopen) r Called := by
    refine .bind (.change id (.bind ((orderly_closeJob h rfl howner).conseq ?_)))
    rintro (error | ⟨⟩) r' ⟨hrests, hne, hjob⟩
    · exact .bind (.change id (.ret ⟨hrests .broken nofun nofun, by simpa using hne, nofun⟩))
    have hbroken : Rests { r' with state := .broken } := hrests .broken nofun nofun
    refine .bind ((hpopen r' hbroken.popen (hjob rfl)).conseq ?_)
    rintro (error | ⟨⟩) r'' ⟨popen, rfl, hpopenRests, hok, hne⟩
    · refine .bind (.read (.bind (.change id (.ret ⟨⟨?_, hpopenRests, hbroken.job, hbroken.jobClosed, ?_⟩, ?_, nofun⟩))))
      · dsimp only
        split
        · simp
        · simp
      · intro hstate
        dsimp only at hstate
        split at hstate
        · next hclosed => exact ⟨hclosed, hjob rfl⟩
        · cases hstate
      · simpa using hne
    · exact .bind (.change id (.ret ⟨⟨nofun, hpopenRests, hbroken.job, hbroken.jobClosed,
        fun _ => ⟨hok rfl, hjob rfl⟩⟩, nofun, fun _ => rfl⟩))
  refine .bind (.read ?_)
  split
  · next hclosed => exact .ret ⟨h, nofun, fun _ => hclosed⟩
  · next hclosing => exact absurd hclosing h.notClosing
  · exact hclose

/-- The resources are closed in their order: the job, and then the process. -/
theorem resources_close (h : Rests r) (validTimeout : Bool) :
    Orderly (HelperProcessResources.close validTimeout) r Called :=
  resources_closing h
    (fun _ _ hjob hrests => jobOwner_closing hjob hrests (returns_close _ validTimeout))
    fun _ hrests hjob => popen_close hrests validTimeout hjob

/-- So they are within a deadline. -/
theorem resources_closeWithDeadline (h : Rests r) :
    Orderly HelperProcessResources.closeWithDeadline r Called :=
  resources_closing h (fun _ _ hjob hrests => jobOwner_closing hjob hrests (returns_closeWithDeadline _))
    fun _ hrests hjob => popen_closeWithDeadline hrests hjob

/-! ### Before it is closed -/

/-- A process alone can be closed. -/
theorem rests_ofPopen (popen : ℕ) : Rests (.ofPopen popen) where
  notClosing := nofun
  popen := ⟨nofun, fun _ => nofun⟩
  job := nofun
  jobClosed := nofun
  closed := nofun

/-- So can a job that was just taken over. -/
theorem ownerRests_ofBoundary (boundary : Boundary) : OwnerRests (.ofBoundary boundary) :=
  ⟨by simp [JobOwner.ofBoundary], by simp [JobOwner.ofBoundary]⟩

/-- The handle of the process is borrowed, and nothing else changes. -/
theorem orderly_adaptNativeHandle (h : Rests r) :
    Orderly PopenProcessOwner.adaptNativeHandle r fun _ r' => Rests r' := by
  refine .bind (.read ?_)
  split
  · exact .ret h
  · next hregistered =>
    have hopen : ¬ r.PopenClosed := fun hclosed => PopenState.noConfusion (hregistered.symm.trans hclosed)
    have hhandle : Orderly (PopenProcessOwner.compatNativeHandle r.popen.popen) r fun _ r' => r' = r := by
      unfold PopenProcessOwner.compatNativeHandle
      split
      · exact .ret rfl
      · refine .call trivial fun (answer : Answer (Option ℕ)) => ?_
        rcases answer with _ | handle
        · exact .ret rfl
        · exact .ret rfl
    refine .bind (hhandle.conseq ?_)
    rintro (_ | handle) r' rfl
    · exact .ret h
    · refine .bind (.change (fun hclosed => absurd hclosed hopen) (.ret ⟨h.notClosing, ?_, h.job, h.jobClosed, ?_⟩))
      · exact ⟨nofun, fun _ => h.popen.present hopen⟩
      · exact fun hclosed => absurd (h.closed hclosed).1 hopen
  · exact .ret h

/-- A process is put into the job by its borrowed handle. -/
theorem orderly_assignBorrowedHandle {job : JobOwner} (hjob : r.job = some job) (howner : OwnerRests job)
    (handle : ℕ) (allowNested : Bool) :
    Orderly (job.assignBorrowedHandle handle allowNested) r fun _ r' =>
      ∃ job, r' = { r with job := some job } ∧ OwnerRests job := by
  unfold JobOwner.assignBorrowedHandle
  split
  · exact .ret ⟨job, by rw [← hjob], howner⟩
  refine .bind ((Orderly.liftJob (Prog.Returns.any _)).conseq ?_)
  rintro ⟨error | ⟨⟩, boundary⟩ r' ⟨rfl, -⟩
  · exact .bind (.change id (.ret ⟨_, rfl, ownerRests_failed boundary⟩))
  · exact .bind (.change id (.ret ⟨_, rfl, nofun, nofun⟩))

/-- A job is attached once, and can be closed from then on. -/
theorem orderly_attachJob (h : Rests r) (boundary : Boundary) (allowNested : Bool) :
    Orderly (HelperProcessResources.attachJob boundary allowNested) r fun _ r' => Rests r' := by
  refine .bind (.read ?_)
  split
  · exact .ret h
  next hstate =>
  rw [not_or, not_or, not_not, not_not, not_not] at hstate
  obtain ⟨hopened, hnone, -⟩ := hstate
  have hnot : r.jobClosed ≠ true := by
    intro hclosed
    obtain ⟨job, hjob⟩ := (h.jobClosed hclosed).1
    rw [hnone] at hjob
    cases hjob
  have hattached : ∀ (job : JobOwner) (state : OwnerState), OwnerRests job → state ≠ .closing →
      state ≠ .closed → Rests { r with job := some job, state := state } := by
    intro job state howner hclosing hclosed
    refine ⟨hclosing, h.popen, ?_, fun h => absurd h hnot, fun h => absurd h hclosed⟩
    rintro _ ⟨⟩
    exact howner
  refine .bind (.change id (.bind ((orderly_assignBorrowedHandle rfl (ownerRests_ofBoundary boundary) _
    allowNested).conseq ?_)))
  rintro (error | ⟨⟩) r' ⟨job, rfl, howner⟩
  · exact .bind (.change id (.ret (hattached job .broken howner nofun nofun)))
  · exact .bind (.change id (.ret (hattached job .assigned howner nofun nofun)))

/-! ### Lives -/

inductive Call
  | adaptNativeHandle
  /-- With a job that was just made. -/
  | attachJob (job : ℕ) (allowNested : Bool)
  | close (validTimeout : Bool)
  | closeWithDeadline

def Call.program : Call → Helping (Except ResourceError Unit)
  | .adaptNativeHandle => PopenProcessOwner.adaptNativeHandle
  | .attachJob job allowNested => HelperProcessResources.attachJob (.ofJob job) allowNested
  | .close validTimeout => HelperProcessResources.close validTimeout
  | .closeWithDeadline => HelperProcessResources.closeWithDeadline

/-- A call to close the resources. -/
def Call.closes : Call → Bool
  | .close _ => true
  | .closeWithDeadline => true
  | _ => false

/-- **Each call is orderly**, and one that reports a close has closed. -/
theorem program_orderly (h : Rests r) (call : Call) :
    Orderly call.program r fun x r' => Rests r' ∧
      (call.closes = true → x ≠ .error .ownership ∧ (x = .ok () → r'.state = .closed)) := by
  rcases call with _ | ⟨job, allowNested⟩ | validTimeout | _
  · exact (orderly_adaptNativeHandle h).conseq fun _ _ hrests => ⟨hrests, nofun⟩
  · exact (orderly_attachJob h (.ofJob job) allowNested).conseq fun _ _ hrests => ⟨hrests, nofun⟩
  · exact (resources_close h validTimeout).conseq fun _ _ hx => ⟨hx.1, fun _ => hx.2⟩
  · exact (resources_closeWithDeadline h).conseq fun _ _ hx => ⟨hx.1, fun _ => hx.2⟩

/-- The resources of a helper, and by which operations they came to be what they are. -/
structure Life where
  resources : HelperProcessResources
  events : List HelperEvent

namespace Life

variable {σ : Life}

def init (popen : ℕ) : Life := ⟨.ofPopen popen, []⟩

def ran (σ : Life) (call : Call × Results) :
    Ran HelperOp HelperOp.Resp HelperProcessResources (Except ResourceError Unit) :=
  Prog.run (answering call.2) 0 call.1.program σ.resources

def step (σ : Life) (call : Call × Results) : Life :=
  ⟨(σ.ran call).world, σ.events ++ (σ.ran call).events⟩

def run (σ : Life) (calls : List (Call × Results)) : Life := calls.foldl step σ

/-- What every life keeps. -/
structure Inv (popen : ℕ) (σ : Life) : Prop where
  rests : Rests σ.resources
  proper : ∀ e ∈ σ.events, Proper e.op e.before
  lasts : ∀ e ∈ σ.events, e.before.PopenClosed → e.after.PopenClosed
  linked : Linked (.ofPopen popen) σ.events σ.resources

/-- At first there is the process and nothing else. -/
theorem inv_init (popen : ℕ) : (init popen).Inv popen :=
  ⟨rests_ofPopen popen, List.forall_mem_nil _, List.forall_mem_nil _, rfl⟩

/-- No event opens a process that is closed. -/
theorem popenClosed_after {results : Results} {n : ℕ} {e : HelperEvent}
    (hanswer : (answering results).answer n e.op e.before = (e.resp, e.after))
    (hproper : Proper e.op e.before) (hclosed : e.before.PopenClosed) : e.after.PopenClosed := by
  obtain ⟨o, result, before, after⟩ := e
  rcases o <;> first
    | exact (Prod.mk.inj hanswer).2 ▸ hclosed
    | exact (Prod.mk.inj hanswer).2 ▸ hproper hclosed

/-- One call keeps the invariant. -/
theorem Inv.step {popen : ℕ} (h : σ.Inv popen) (call : Call × Results) : (σ.step call).Inv popen := by
  obtain ⟨hproper, hrests, -⟩ := program_orderly h.rests call.1 (answering call.2) ⟨call.2, rfl⟩ 0 _ rfl
  refine ⟨hrests, List.forall_mem_append.2 ⟨h.proper, hproper⟩, List.forall_mem_append.2 ⟨h.lasts, ?_⟩,
    h.linked.append (Prog.linked_run (fun _ _ => rfl) 0 _ _)⟩
  intro e he
  obtain ⟨n, hanswer⟩ := Prog.answer_of_mem_events _ he
  exact popenClosed_after hanswer (hproper e he)

/-- So does each sequence of calls. The induction is on the calls. -/
theorem Inv.run {popen : ℕ} (h : σ.Inv popen) (calls : List (Call × Results)) :
    (σ.run calls).Inv popen := by
  induction calls generalizing σ with
  | nil => exact h
  | cons call calls ih => exact ih (h.step call)

/-- **Nothing is done to a process that was closed.** -/
theorem Inv.not_actsOnProcess {popen : ℕ} (h : σ.Inv popen) {first rest : List HelperEvent}
    {e : HelperEvent} (hevents : σ.events = first ++ e :: rest) (hclosed : e.before.PopenClosed) :
    ∀ e' ∈ e :: rest, e'.op.actsOnProcess = false := by
  have hmem : ∀ e' ∈ e :: rest, e' ∈ σ.events := by
    intro e' he'
    rw [hevents]
    exact List.mem_append_right _ he'
  obtain ⟨r, -, hlinked⟩ := Linked.of_append (hevents ▸ h.linked)
  have hbegins : r.PopenClosed := hlinked.1 ▸ hclosed
  intro e' he'
  have hstill := (hlinked.lasts hbegins fun e₁ he₁ => h.lasts e₁ (hmem e₁ he₁)).1 e' he'
  have hproper := h.proper e' (hmem e' he')
  obtain ⟨o, result, before, after⟩ := e'
  rcases o <;> first
    | rfl
    | exact absurd hstill hproper
    | exact absurd hstill hproper.1

end Life

/-! ### Calls of which all operations succeed -/

/-- What all operations come to if they succeed, for a process that still runs. -/
def succeeding : (o : HelperOp) → o.Resp
  | .job o => Isolation.succeeding 0 o
  | .nativeHandle _ => .returned (some 1)
  | .poll _ => .returned none
  | .terminate _ => .returned ()
  | .wait _ => .returned ()
  | .release _ => .returned ()
  | .cleanupNs => (1 : ℤ)
  | .read => .ofPopen 0
  | .change _ => ()

/-- **A program completes** where all operations succeed. -/
def Completes {α : Type} (p : Helping α) (r : HelperProcessResources)
    (Q : α → HelperProcessResources → Prop) : Prop :=
  Prog.Meets {answering fun _ => succeeding} (· = r) p fun a r' _ => Q a r'

namespace Completes

variable {α β : Type} {p : Helping α} {Q : α → HelperProcessResources → Prop}

theorem ret {a : α} (h : Q a r) : Completes (.ret a) r Q := Prog.Meets.ret fun _ hr => hr ▸ h

theorem bind {f : α → Helping β} {R : β → HelperProcessResources → Prop}
    (h : Completes p r fun a r' => Completes (f a) r' R) : Completes (p >>= f) r R :=
  Prog.Meets.bind (Prog.Meets.conseq h fun _ r' _ ha => ⟨(· = r'), rfl, ha⟩)

theorem conseq {R : α → HelperProcessResources → Prop} (h : Completes p r Q)
    (hQ : ∀ a r', Q a r' → R a r') : Completes p r R :=
  Prog.Meets.conseq h fun _ _ _ hx => hQ _ _ hx

/-- An operation of which nothing fails is done. -/
theorem call {o : HelperOp} {f : o.Resp → Helping α}
    (h : Completes (f (o.perform (succeeding o) r).1) (o.perform (succeeding o) r).2 Q) :
    Completes (Prog.perform o >>= f) r Q := by
  refine Prog.Meets.op (fun _ hs _ _ hr => hs ▸ hr) ?_
  rintro _ rfl n r' rfl
  exact ⟨(· = (o.perform (succeeding o) r').2), rfl, h⟩

/-- What is done to the job leaves the owners alone. -/
theorem liftJob (p : Isolation.Job α) : Completes (Helper.liftJob p) r fun x r' =>
    r' = r ∧ x = p.valueOf (Isolation.succeeding 0) := by
  induction p with
  | ret a => exact .ret ⟨rfl, rfl⟩
  | op o k ih => exact .call (ih (Isolation.succeeding 0 o))

end Completes

/-- Where nothing fails a job is closed. -/
theorem valueOf_close (b : Boundary) :
    ((b.close true).valueOf (Isolation.succeeding 0)).1 = .ok () := by
  unfold Boundary.close
  split
  · rfl
  · obtain ⟨_ | job, _ | process, _ | _, _ | _, state⟩ := b <;> rfl

/-- So it is within a deadline. -/
theorem valueOf_closeWithDeadline (b : Boundary) :
    (b.closeWithDeadline.valueOf (Isolation.succeeding 0)).1 = .ok () := by
  unfold Boundary.closeWithDeadline
  split
  · rfl
  · obtain ⟨_ | job, _ | process, _ | _, _ | _, state⟩ := b <;> rfl

/-- Where nothing fails an owner closes its job. -/
theorem completes_jobOwner {job : JobOwner} (hrests : OwnerRests job)
    {closeBoundary : Isolation.Job (Except JobErrorCode Unit × Boundary)}
    (hboundary : (closeBoundary.valueOf (Isolation.succeeding 0)).1 = .ok ()) (hjob : r.job = some job) :
    Completes (job.closing closeBoundary) r fun x r' =>
      x = .ok () ∧ ∃ job, r' = { r with job := some job } := by
  unfold JobOwner.closing
  have hclose : Completes (job.closeOpen closeBoundary) r fun x r' =>
      x = .ok () ∧ ∃ job, r' = { r with job := some job } := by
    refine .call (.bind ((Completes.liftJob closeBoundary).conseq ?_))
    rintro ⟨error | ⟨⟩, boundary⟩ r' ⟨rfl, hvalue⟩
    · rw [← hvalue] at hboundary
      cases hboundary
    · exact .call (.ret ⟨rfl, _, rfl⟩)
  rcases hstate : job.state with _ | _ | _ | _ | _
  · exact hclose
  · exact hclose
  · exact absurd hstate hrests.notClosing
  · exact hclose
  · exact .ret ⟨rfl, job, by rw [← hjob]⟩

/-- Where nothing fails the process is waited for and closed. -/
theorem completes_popen {owner : PopenProcessOwner} (hpresent : owner.popen ≠ none) (deadline : Bool) :
    Completes (owner.closing deadline) r fun x r' =>
      x = .ok () ∧ r' = { r with popen := ⟨none, none, .closed⟩ } := by
  obtain ⟨_ | popen, handle, state⟩ := owner
  · exact absurd rfl hpresent
  rintro _ rfl n r' rfl
  rcases deadline <;> rcases handle with _ | handle <;> exact ⟨rfl, rfl⟩

theorem completes_closing (h : Rests r) {closeOwner : JobOwner → Helping (Except ResourceError Unit)}
    {closePopen : Helping (Except ResourceError Unit)}
    (howner : ∀ job r, r.job = some job → OwnerRests job → Completes (closeOwner job) r fun x r' =>
      x = .ok () ∧ ∃ job, r' = { r with job := some job })
    (hpopen : ∀ r, PopenRests r.popen → Completes closePopen r fun x _ => x = .ok ()) :
    Completes (HelperProcessResources.closing closeOwner closePopen) r fun x r' =>
      x = .ok () ∧ r'.state = .closed := by
  have hclose : Completes (r.closeOpen closeOwner closePopen) r fun x r' =>
      x = .ok () ∧ r'.state = .closed := by
    have hjob : Completes (r.closeJob closeOwner) { r with state := .closing } fun x r' =>
        x = .ok () ∧ r'.popen = r.popen := by
      unfold HelperProcessResources.closeJob
      split
      · next job hjob _ =>
        refine .bind ((howner job { r with state := .closing } hjob (h.job job hjob)).conseq ?_)
        rintro x r' ⟨rfl, job', rfl⟩
        exact .call (.ret ⟨rfl, rfl⟩)
      · exact .ret ⟨rfl, rfl⟩
    refine .call (.bind (hjob.conseq ?_))
    rintro x r' ⟨rfl, hsame⟩
    refine .bind ((hpopen r' (hsame ▸ h.popen)).conseq ?_)
    rintro x r'' rfl
    exact .call (.ret ⟨rfl, rfl⟩)
  refine .call ?_
  dsimp only [HelperOp.perform]
  split
  · next hclosed => exact .ret ⟨rfl, hclosed⟩
  · next hclosing => exact absurd hclosing h.notClosing
  · exact hclose

theorem completes_close (h : Rests r) : Completes (HelperProcessResources.close true) r fun x r' =>
    x = .ok () ∧ r'.state = .closed := by
  refine completes_closing h
    (fun job _ hjob hrests => completes_jobOwner hrests (valueOf_close job.boundary) hjob) fun r hrests => ?_
  refine .call ?_
  dsimp only [HelperOp.perform]
  split
  · exact .ret rfl
  · next hclosing => exact absurd hclosing hrests.notClosing
  · next hopen _ =>
    refine .bind ((completes_popen (hrests.present hopen) false).conseq ?_)
    rintro x r' ⟨rfl, -⟩
    exact .ret rfl

theorem completes_closeWithDeadline (h : Rests r) :
    Completes HelperProcessResources.closeWithDeadline r fun x r' => x = .ok () ∧ r'.state = .closed := by
  refine completes_closing h
    (fun job _ hjob hrests => completes_jobOwner hrests (valueOf_closeWithDeadline job.boundary) hjob)
    fun r hrests => ?_
  refine .call ?_
  dsimp only [HelperOp.perform]
  split
  · exact .ret rfl
  · next hopen => exact .call ((completes_popen (hrests.present hopen) true).conseq fun _ _ hx => hx.1)

namespace Life

variable {σ : Life}

/-- **Teardown of a helper**, in every sequence of calls and whatever the native calls and the
operations on the process come to: its handle is released only with the attached job closed;
the resources are closed only with the job and the process, and a job that is closed with its
boundary; no owner is left closing, no call to close is refused, and each closes all there is
where all operations succeed; and nothing is done to a process that was closed. -/
theorem helper_teardown (popen : ℕ) (calls : List (Call × Results)) :
    let σ := (init popen).run calls
    let r := σ.resources
    (∀ e ∈ σ.events, ∀ handle, e.op = .release handle → e.before.JobClosed) ∧
      (r.state = .closed → r.JobClosed ∧ r.PopenClosed) ∧
      (∀ job, r.job = some job → job.state = .closed → job.boundary.state = .closed) ∧
      (r.state ≠ .closing ∧ r.popen.state ≠ .closing ∧ ∀ job, r.job = some job → job.state ≠ .closing) ∧
      (∀ call : Call × Results, call.1.closes = true → (σ.ran call).result ≠ .error .ownership) ∧
      ((σ.step (.close true, fun _ => succeeding)).resources.state = .closed ∧
        (σ.step (.closeWithDeadline, fun _ => succeeding)).resources.state = .closed) ∧
      ∀ first e rest, σ.events = first ++ e :: rest → e.before.PopenClosed →
        ∀ e' ∈ e :: rest, e'.op.actsOnProcess = false := by
  intro σ r
  have hσ : σ.Inv popen := (inv_init popen).run calls
  have hrests : Rests r := hσ.rests
  refine ⟨?_, fun hclosed => (hrests.closed hclosed).symm, fun job hjob => (hrests.job job hjob).closed,
    ⟨hrests.notClosing, hrests.popen.notClosing, fun job hjob => (hrests.job job hjob).notClosing⟩, ?_,
    ⟨?_, ?_⟩, fun first e rest => hσ.not_actsOnProcess⟩
  · rintro ⟨o, result, before, after⟩ he handle rfl
    exact (hσ.proper _ he).2
  · intro call hcloses
    obtain ⟨-, -, hresult⟩ := program_orderly hrests call.1 (answering call.2) ⟨call.2, rfl⟩ 0 r rfl
    exact (hresult hcloses).1
  · exact (completes_close hrests _ rfl 0 r rfl).2
  · exact (completes_closeWithDeadline hrests _ rfl 0 r rfl).2

end Life

end Helper

end YasbLimitora

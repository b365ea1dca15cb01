import Mathlib
import YasbLimitora.Isolation.WindowsJob

/-!
# What a boundary closes, and what it keeps

A boundary through any number of calls, whatever the native calls come to. The world of a
call is what has been done natively by then, and to which handles
(`YasbLimitora.Isolation.Done`); each call begins with nothing awaited. What is to be proved of a
handle that is closed is then said of the world in which it is: the job is closed where that job was
terminated and found empty, and that process waited for which was assigned to it
(`YasbLimitora.Isolation.Proper`).

A program is *tidy* (`YasbLimitora.Isolation.Tidy`) if it closes handles so and comes to something,
with a rule for each way to build a program. What a boundary knows of what was done
(`YasbLimitora.Isolation.Kept`) goes through a cleanup in three steps: the termination and the loop
only await (`YasbLimitora.Isolation.Awaits`), and what the loop notes of its progress is so
(`YasbLimitora.Isolation.Progressed`); the handles are closed one after the other, the process's
first, whose closing may be what lets the job be closed (`YasbLimitora.Isolation.ProcessClosed`);
and a handle that was lent is given back (`YasbLimitora.Isolation.giveBack`). Each call then leaves a
boundary at rest (`YasbLimitora.Isolation.Rests`), and by induction so does a life.

A handle that was lent is not the boundary's to close. A process is opened by `assign_process` alone,
of a boundary as it was created (`YasbLimitora.Isolation.performs_program`); a boundary that was lent
one has left that state for good (`YasbLimitora.Isolation.returns_program`), opens none, and so closes
none.
-/

namespace YasbLimitora

namespace Isolation

/-- What has been done by native calls: of the whole life of a boundary, and of the attempt
that goes on. -/
structure Done where
  /-- The handle of the process that was opened. -/
  opened : Option ℕ
  /-- The handle of the process that was assigned. -/
  assigned : Option ℕ
  /-- The handles that were closed. -/
  closed : List (Slot × ℕ)
  /-- In this attempt: the jobs that were terminated. -/
  terminated : List ℕ
  /-- In this attempt: the processes that were waited for. -/
  waited : List ℕ
  /-- In this attempt: the jobs that were found without an active process. -/
  zero : List ℕ

namespace Done

def nothing : Done := ⟨none, none, [], [], [], []⟩

/-- An attempt begins. -/
def anew (w : Done) : Done := { w with terminated := [], waited := [], zero := [] }

def after (w : Done) : (o : JobOp) → o.Resp → Done
  | .openProcess _, .returned (some handle) => { w with opened := some handle }
  | .assign _ process, .returned true => { w with assigned := some process }
  | .queryActive job, .returned active => if active = 0 then { w with zero := job :: w.zero } else w
  | .terminate job, .returned true => { w with terminated := job :: w.terminated }
  | .wait process, .returned code => if code = WAIT_OBJECT_0 then { w with waited := process :: w.waited } else w
  | .close slot handle, .returned true => { w with closed := (slot, handle) :: w.closed }
  | _, _ => w

/-- The handle of a slot was closed. -/
def HasClosed (w : Done) (slot : Slot) (handle : ℕ) : Prop := (slot, handle) ∈ w.closed

end Done

/-- What the native calls, and the clock, come to. -/
abbrev Results := ℕ → (o : JobOp) → o.Resp

def answering (results : Results) : Schedule JobOp JobOp.Resp Done where
  others _ w := w
  answer n o w := (results n o, w.after o (results n o))

abbrev JobEvent := Event JobOp JobOp.Resp Done

/-- The job may be closed: it was terminated in this attempt and, when a process was assigned to it,
that process was waited for or its handle closed, and the job found without an active process. -/
def MayClose (job : ℕ) (w : Done) : Prop :=
  job ∈ w.terminated ∧ ∀ process, w.assigned = some process →
    (process ∈ w.waited ∨ w.HasClosed .process process) ∧ job ∈ w.zero

/-- **What the native calls of the boundary of a job ask for.** It is that job that a process is
assigned to and that is closed, where it may be. The handle of a process that is closed is the one
that was opened, and none that was lent. Either is not closed yet. -/
def Proper (job : ℕ) (o : JobOp) (w : Done) : Prop :=
  match o with
  | .assign handle _ => handle = job
  | .close .job handle => handle = job ∧ ¬w.HasClosed .job job ∧ MayClose job w
  | .close .process handle => w.opened = some handle ∧ ¬w.HasClosed .process handle
  | _ => True

/-! ### Lives -/

inductive Call
  | assignProcess (pid : ℕ) (allowNested : Bool)
  | assignBorrowedHandle (handle : ℕ) (allowNested : Bool)
  | authorize
  | close (validTimeout : Bool)
  | closeWithDeadline

def Call.program (b : Boundary) : Call → Job (Except JobErrorCode Unit × Boundary)
  | .assignProcess pid allowNested => b.assignProcess pid allowNested
  | .assignBorrowedHandle handle allowNested => b.assignBorrowedHandle handle allowNested
  | .authorize => return b.authorize
  | .close validTimeout => b.close validTimeout
  | .closeWithDeadline => b.closeWithDeadline

/-- A call to close the boundary. -/
def Call.closes : Call → Bool
  | .close _ => true
  | .closeWithDeadline => true
  | _ => false

/-- A boundary, what has been done natively in its life, and by which calls. -/
structure Life where
  boundary : Boundary
  done : Done
  events : List JobEvent

namespace Life

def init (job : ℕ) : Life := ⟨.ofJob job, .nothing, []⟩

def ran (σ : Life) (call : Call) (results : Results) :
    Ran JobOp JobOp.Resp Done (Except JobErrorCode Unit × Boundary) :=
  Prog.run (answering results) 0 (call.program σ.boundary) σ.done.anew

def step (σ : Life) (call : Call × Results) : Life :=
  let ran := σ.ran call.1 call.2
  ⟨ran.result.2, ran.world, σ.events ++ ran.events⟩

def run (σ : Life) (calls : List (Call × Results)) : Life := calls.foldl step σ

/-- A call by which a process is lent to the boundary, and not refused: the boundary is no longer as
it was created. -/
def Lends (σ : Life) (call : Call × Results) : Prop :=
  (∃ handle allowNested, call.1 = .assignBorrowedHandle handle allowNested) ∧
    σ.boundary.state = .created ∧ (σ.step call).boundary.state ≠ .created

end Life

/-! ### Rules -/

/-- A program closes handles as it should, and comes to something. -/
def Tidy {α : Type} (job : ℕ) (p : Job α) (w : Done) (Q : α → Done → Prop) : Prop :=
  Prog.Meets (Set.range answering) (· = w) p fun a w' events =>
    (∀ e ∈ events, Proper job e.op e.before) ∧ Q a w'

namespace Tidy

variable {α β : Type} {job : ℕ} {w : Done} {p : Job α} {Q : α → Done → Prop}

theorem ret {a : α} (h : Q a w) : Tidy job (.ret a) w Q :=
  Prog.Meets.ret fun _ hw => ⟨List.forall_mem_nil _, hw ▸ h⟩

theorem bind {f : α → Job β} {R : β → Done → Prop} (h : Tidy job p w fun a w' => Tidy job (f a) w' R) :
    Tidy job (p >>= f) w R := by
  refine Prog.Meets.bind (Prog.Meets.conseq h ?_)
  rintro a w' events ⟨hevents, ha⟩
  refine ⟨(· = w'), rfl, Prog.Meets.conseq ha ?_⟩
  rintro b w'' more ⟨hmore, hb⟩
  exact ⟨List.forall_mem_append.2 ⟨hevents, hmore⟩, hb⟩

theorem conseq {R : α → Done → Prop} (h : Tidy job p w Q) (hQ : ∀ a w', Q a w' → R a w') : Tidy job p w R :=
  Prog.Meets.conseq h fun _ _ _ hx => ⟨hx.1, hQ _ _ hx.2⟩

/-- The rule of a native call. -/
theorem call {o : JobOp} {f : o.Resp → Job β} {R : β → Done → Prop} (ho : Proper job o w)
    (h : ∀ r, Tidy job (f r) (w.after o r) R) : Tidy job (Isolation.call o >>= f) w R := by
  refine Prog.Meets.op (fun _ ⟨_, hs⟩ _ _ hw => hs ▸ hw) ?_
  rintro _ ⟨results, rfl⟩ n w' hw
  obtain rfl : w' = w := hw
  refine ⟨(· = w'.after o (results n o)), rfl, Prog.Meets.conseq (h (results n o)) ?_⟩
  rintro b w'' events ⟨hevents, hb⟩
  exact ⟨List.forall_mem_cons.2 ⟨ho, hevents⟩, hb⟩

end Tidy

/-! ### Boundaries -/

variable {b b' : Boundary} {w w' : Done} {job : ℕ}

/-- What is true of the boundary of a job, of what has been done: which handles it has, and that the
process which was assigned is the one that it has, as long as that is not closed, or the job. -/
structure Kept (own : ℕ) (b : Boundary) (w : Done) : Prop where
  job : b.job = some own ∧ ¬w.HasClosed .job own ∨ b.job = none ∧ w.HasClosed .job own
  assigned : b.assigned = w.assigned.isSome
  process : ∀ h, w.assigned = some h → b.process = some h ∨ w.HasClosed .process h ∨ w.HasClosed .job own
  owned : ∀ h, b.process = some h → b.borrowedProcess = false → w.opened = some h ∧ ¬w.HasClosed .process h
  lent : b.borrowedProcess = true → w.opened = none

/-- A boundary that has a job has that one, and it is open. -/
theorem Kept.eq_job (h : Kept job b w) {handle : ℕ} (hhandle : b.job = some handle) :
    handle = job ∧ ¬w.HasClosed .job job := by
  rcases h.job with ⟨hjob, hopen⟩ | ⟨hjob, -⟩
  · exact ⟨Option.some.inj (hhandle.symm.trans hjob), hopen⟩
  · exact nomatch hhandle.symm.trans hjob

theorem Kept.hasClosed_job (h : Kept job b w) (hnone : b.job = none) : w.HasClosed .job job := by
  rcases h.job with ⟨hjob, -⟩ | ⟨-, hclosed⟩
  · exact nomatch hnone.symm.trans hjob
  · exact hclosed

/-- A boundary between two calls. -/
structure Rests (job : ℕ) (b : Boundary) (w : Done) : Prop extends Kept job b w where
  closed : b.state = .closed → b.job = none ∧ b.process = none
  created : b.state = .created →
    w.assigned = none ∧ w.closed = [] ∧ w.opened = none ∧ b.borrowedProcess = false

/-- Nothing was done but to await the end. -/
structure Awaits (w w' : Done) : Prop where
  opened : w'.opened = w.opened
  assigned : w'.assigned = w.assigned
  closed : w'.closed = w.closed
  terminated : w.terminated ⊆ w'.terminated
  waited : w.waited ⊆ w'.waited
  zero : w.zero ⊆ w'.zero

namespace Awaits

theorem refl (w : Done) : Awaits w w :=
  ⟨rfl, rfl, rfl, List.Subset.refl _, List.Subset.refl _, List.Subset.refl _⟩

theorem trans {w'' : Done} (h : Awaits w w') (h' : Awaits w' w'') : Awaits w w'' where
  opened := h'.opened.trans h.opened
  assigned := h'.assigned.trans h.assigned
  closed := h'.closed.trans h.closed
  terminated := List.Subset.trans h.terminated h'.terminated
  waited := List.Subset.trans h.waited h'.waited
  zero := List.Subset.trans h.zero h'.zero

theorem hasClosed (h : Awaits w w') (slot : Slot) (handle : ℕ) : w'.HasClosed slot handle ↔ w.HasClosed slot handle := by
  rw [Done.HasClosed, h.closed]
  rfl

end Awaits

theorem Kept.awaits (h : Kept job b w) (hw : Awaits w w') : Kept job b w' where
  job := by rw [hw.hasClosed]; exact h.job
  assigned := by rw [hw.assigned]; exact h.assigned
  process := by
    intro handle hassigned
    rw [hw.hasClosed, hw.hasClosed]
    exact h.process handle (hw.assigned ▸ hassigned)
  owned := by
    intro handle hprocess hborrowed
    rw [hw.hasClosed, hw.opened]
    exact h.owned handle hprocess hborrowed
  lent := by rw [hw.opened]; exact h.lent

/-! ### Closing the handles -/

/-- A handle was closed, besides those that were. -/
def Done.closes (w : Done) (slot : Slot) (handle : ℕ) : Done := { w with closed := (slot, handle) :: w.closed }

theorem hasClosed_closes {slot slot' : Slot} {handle handle' : ℕ} :
    (w.closes slot handle).HasClosed slot' handle' ↔ slot' = slot ∧ handle' = handle ∨ w.HasClosed slot' handle' := by
  rw [Done.HasClosed, Done.closes, List.mem_cons, Prod.mk.injEq]
  rfl

/-- A handle is let be: it is not to be closed, or cannot be, or there is none. Else it is
closed. -/
theorem closeSlot_tidy {slot : Slot} {ready : Bool}
    (hproper : ∀ handle, b.handle slot = some handle → ready = true →
      ¬(slot = .process ∧ b.borrowedProcess = true) → Proper job (.close slot handle) w) :
    Tidy job (b.closeSlot slot ready) w fun x w' =>
      (x.2 = b ∧ w' = w ∧ (x.1 = true → ready = true →
        b.handle slot = none ∨ slot = .process ∧ b.borrowedProcess = true)) ∨
      ∃ handle, b.handle slot = some handle ∧ x.2 = b.clear slot ∧ w' = w.closes slot handle := by
  unfold Boundary.closeSlot
  cases hhandle : b.handle slot with
  | none => exact .ret (.inl ⟨rfl, rfl, fun _ _ => .inl rfl⟩)
  | some handle =>
    dsimp only
    split
    · rename_i hready
      exact .ret (.inl ⟨rfl, rfl, fun _ h => by simp [h] at hready⟩)
    split
    · rename_i hborrowed
      exact .ret (.inl ⟨rfl, rfl, fun _ _ => .inr hborrowed⟩)
    · rename_i hready hborrowed
      have hready : ready = true := by simpa using hready
      refine .call (hproper handle hhandle hready hborrowed) fun (r : Result Bool) => ?_
      rcases r with code | _ | _
      · exact .ret (.inl ⟨rfl, rfl, nofun⟩)
      · exact .ret (.inl ⟨rfl, rfl, nofun⟩)
      · exact .ret (.inr ⟨handle, rfl, rfl, rfl⟩)

/-- What is left of a boundary when its process was seen to. -/
structure ProcessClosed (own : ℕ) (b : Boundary) (w : Done) (ready ok : Bool) (b' : Boundary) (w' : Done) : Prop where
  kept : Kept own b' w'
  job : b'.job = b.job
  borrowed : b'.borrowedProcess = b.borrowedProcess
  state : b'.state = b.state
  process : b'.process = b.process ∨ ∃ h, b.process = some h ∧ w'.HasClosed .process h
  mayClose : MayClose own w → MayClose own w'
  none : ok = true → ready = true → b'.process = none ∨ b'.borrowedProcess = true

/-- The handle of the process is closed if it may be, and otherwise kept to be closed later. -/
theorem closeProcess_tidy (h : Kept job b w) (ready : Bool) :
    Tidy job (b.closeSlot .process ready) w fun x w' => ProcessClosed job b w ready x.1 x.2 w' := by
  refine Tidy.conseq (closeSlot_tidy ?_) ?_
  · intro handle hprocess _ hborrowed
    exact h.owned handle hprocess (by simpa using hborrowed)
  rintro ⟨ok, b'⟩ w' (⟨hb, rfl, hnone⟩ | ⟨handle, hhandle, hb, rfl⟩)
  · obtain rfl : b' = b := hb
    exact ⟨h, rfl, rfl, rfl, .inl rfl, id, fun hok hready => (hnone hok hready).imp_right And.right⟩
  · obtain rfl : b' = b.clear .process := hb
    have hclosed : (w.closes .process handle).HasClosed .process handle := hasClosed_closes.2 (.inl ⟨rfl, rfl⟩)
    have hjob : (w.closes .process handle).HasClosed .job job ↔ w.HasClosed .job job :=
      hasClosed_closes.trans (or_iff_right nofun)
    refine ⟨⟨?_, h.assigned, ?_, nofun, h.lent⟩, rfl, rfl, rfl, .inr ⟨handle, hhandle, hclosed⟩, ?_, fun _ _ => .inl rfl⟩
    · rw [hjob]
      exact h.job
    · intro process hassigned
      rcases h.process process hassigned with hprocess | hprocess | hjobClosed
      · obtain rfl := Option.some.inj (hprocess.symm.trans hhandle)
        exact .inr (.inl hclosed)
      · exact .inr (.inl (hasClosed_closes.2 (.inr hprocess)))
      · exact .inr (.inr (hjob.2 hjobClosed))
    · refine fun hmay => ⟨hmay.1, fun process hassigned => ?_⟩
      obtain ⟨hwaited, hzero⟩ := hmay.2 process hassigned
      exact ⟨hwaited.imp_right fun hprocess => hasClosed_closes.2 (.inr hprocess), hzero⟩

/-- What a call to close a boundary keeps of it: what it does not close, but for a handle that
was lent, which goes with the job. -/
def Retains (b b' : Boundary) (w : Done) : Prop :=
  (b'.job = b.job ∨ ∃ h, b.job = some h ∧ w.HasClosed .job h) ∧
    (b'.process = b.process ∨ (∃ h, b.process = some h ∧ w.HasClosed .process h) ∨
      b.borrowedProcess = true ∧ b'.job = none)

/-- What is left of a boundary when its handles were seen to. -/
structure HandlesClosed (job : ℕ) (b b' : Boundary) (w' : Done) (ok : Bool) : Prop where
  kept : Kept job b' w'
  retains : Retains b b' w'
  state : b'.state = b.state
  none : ok = true → b'.job = none ∧ b'.process = none

/-- A handle that was lent is given back. -/
theorem giveBack {b₁ : Boundary} {ok : Bool} (processReady jobReady : Bool) (h : Kept job b₁ w)
    (hjob : b₁.job = b.job ∨ ∃ h, b.job = some h ∧ w.HasClosed .job h)
    (hborrowed : b₁.borrowedProcess = b.borrowedProcess) (hstate : b₁.state = b.state)
    (hprocess : b₁.process = b.process ∨ ∃ h, b.process = some h ∧ w.HasClosed .process h)
    (hok : ok = true → (processReady = true ∧ jobReady = true) ∧ b₁.job = none ∧
      (b₁.process = none ∨ b₁.borrowedProcess = true)) :
    HandlesClosed job b (if b₁.borrowedProcess ∧ processReady ∧ jobReady ∧ b₁.job = none then
      { b₁ with process := none, borrowedProcess := false } else b₁) w ok := by
  split
  · rename_i hgiven
    have hclosed := h.hasClosed_job hgiven.2.2.2
    refine ⟨⟨h.job, h.assigned, fun _ _ => .inr (.inr hclosed), nofun, nofun⟩, ⟨hjob, .inr (.inr ⟨?_, hgiven.2.2.2⟩)⟩,
      hstate, fun _ => ⟨hgiven.2.2.2, rfl⟩⟩
    exact hborrowed ▸ hgiven.1
  · rename_i hkept
    refine ⟨h, ⟨hjob, hprocess.imp_right .inl⟩, hstate, fun hall => ?_⟩
    obtain ⟨hready, hnone, hrest⟩ := hok hall
    exact ⟨hnone, hrest.resolve_right fun hlent => hkept ⟨hlent, hready.1, hready.2, hnone⟩⟩

/-- Both handles are closed so, that of the job only if the job was terminated and is empty. -/
theorem closeHandles_tidy (h : Kept job b w) {processReady jobReady : Bool}
    (hjob : jobReady = true → b.job ≠ none → MayClose job w) :
    Tidy job (b.closeHandles processReady jobReady) w fun x w' => HandlesClosed job b x.2 w' x.1 := by
  unfold Boundary.closeHandles
  refine .bind (Tidy.conseq (closeProcess_tidy h processReady) ?_)
  rintro ⟨processOk, b₁⟩ w₁ hfirst
  refine .bind (Tidy.conseq (closeSlot_tidy ?_) ?_)
  · intro handle hhandle hready _
    have hopen : b.job ≠ none := fun hnone => nomatch hhandle.symm.trans (hfirst.job.trans hnone)
    obtain ⟨rfl, hnotClosed⟩ := hfirst.kept.eq_job hhandle
    exact ⟨rfl, hnotClosed, hfirst.mayClose (hjob hready hopen)⟩
  rintro ⟨jobOk, b₂⟩ w₂ (⟨hb, rfl, hnone⟩ | ⟨handle, hhandle, hb, rfl⟩)
  · obtain rfl : b₂ = b₁ := hb
    refine .ret (giveBack _ _ hfirst.kept (.inl hfirst.job) hfirst.borrowed hfirst.state hfirst.process ?_)
    intro hall
    simp only [Bool.and_eq_true] at hall
    exact ⟨hall.1.1, (hnone hall.2 hall.1.1.2).resolve_right nofun, hfirst.none hall.1.2 hall.1.1.1⟩
  · obtain rfl : b₂ = b₁.clear .job := hb
    obtain ⟨rfl, -⟩ := hfirst.kept.eq_job hhandle
    have hclosed : (w₁.closes .job handle).HasClosed .job handle := hasClosed_closes.2 (.inl ⟨rfl, rfl⟩)
    have hsame : ∀ h, (w₁.closes .job handle).HasClosed .process h ↔ w₁.HasClosed .process h :=
      fun h => hasClosed_closes.trans (or_iff_right nofun)
    have hkept : Kept handle (b₁.clear .job) (w₁.closes .job handle) := by
      refine ⟨.inr ⟨rfl, hclosed⟩, hfirst.kept.assigned, fun _ _ => .inr (.inr hclosed), ?_, hfirst.kept.lent⟩
      intro h hprocess hborrowed
      rw [hsame]
      exact hfirst.kept.owned h hprocess hborrowed
    refine .ret (giveBack _ _ hkept (.inr ⟨handle, hfirst.job.symm.trans hhandle, hclosed⟩) hfirst.borrowed hfirst.state ?_ ?_)
    · exact hfirst.process.imp_right fun ⟨h, hprocess, hgone⟩ => ⟨h, hprocess, (hsame h).2 hgone⟩
    · intro hall
      simp only [Bool.and_eq_true] at hall
      exact ⟨hall.1.1, rfl, hfirst.none hall.1.2 hall.1.1.1⟩

/-! ### Cleanup -/

open Boundary (Progress)

/-- What a cleanup has come to is so: the process was waited for, and the job found empty. -/
structure Progressed (b : Boundary) (w : Done) (p : Progress) : Prop where
  waited : p.processWaited = true → w.assigned ≠ none → ∀ h, b.process = some h → h ∈ w.waited
  empty : p.activeZero = true → w.assigned ≠ none → ∀ job, b.job = some job →
    (∀ h, b.process = some h → h ∈ w.waited) ∧ job ∈ w.zero

variable {p : Progress}

theorem Progressed.awaits (h : Progressed b w p) (hw : Awaits w w') : Progressed b w' p where
  waited hp hassigned handle hhandle := hw.waited (h.waited hp (hw.assigned ▸ hassigned) handle hhandle)
  empty hp hassigned handle hhandle := by
    obtain ⟨hwaited, hzero⟩ := h.empty hp (hw.assigned ▸ hassigned) handle hhandle
    exact ⟨fun process hprocess => hw.waited (hwaited process hprocess), hw.zero hzero⟩

/-- A wait that came to an end. -/
theorem awaits_waited (w : Done) (process : ℕ) : Awaits w { w with waited := process :: w.waited } :=
  ⟨rfl, rfl, rfl, List.Subset.refl _, List.subset_cons_self _ _, List.Subset.refl _⟩

theorem awaits_zero (w : Done) (job : ℕ) : Awaits w { w with zero := job :: w.zero } :=
  ⟨rfl, rfl, rfl, List.Subset.refl _, List.Subset.refl _, List.subset_cons_self _ _⟩

theorem awaits_terminated (w : Done) (job : ℕ) : Awaits w { w with terminated := job :: w.terminated } :=
  ⟨rfl, rfl, rfl, List.subset_cons_self _ _, List.Subset.refl _, List.Subset.refl _⟩

theorem awaits_queryActive (w : Done) (job : ℕ) (r : Result ℤ) : Awaits w (w.after (.queryActive job) r) := by
  rcases r with code | active
  · exact .refl w
  · by_cases hactive : active = 0
    · rw [show w.after (.queryActive job) (.returned active) = _ from if_pos hactive]
      exact awaits_zero w job
    · rw [show w.after (.queryActive job) (.returned active) = w from if_neg hactive]
      exact .refl w

variable {assigned terminateUnassigned notesFailure : Bool}

/-- The process is waited for, and what was done before stays done. -/
theorem waitProcess_tidy (h : Progressed b w p) :
    Tidy job (b.waitProcess assigned terminateUnassigned notesFailure p) w fun p' w' =>
      Awaits w w' ∧ Progressed b w' p' := by
  unfold Boundary.waitProcess
  cases hprocess : b.process with
  | none => exact .ret ⟨.refl w, h⟩
  | some process =>
    dsimp only
    split
    · refine .call trivial fun (r : Result ℕ) => ?_
      rcases r with code | code
      · exact .ret ⟨.refl w, ⟨nofun, h.empty⟩⟩
      · dsimp only
        by_cases hcode : code = WAIT_OBJECT_0
        · subst hcode
          rw [if_pos rfl]
          refine .ret ⟨awaits_waited w process, ⟨fun _ _ handle hhandle => ?_, ?_⟩⟩
          · obtain rfl := Option.some.inj (hprocess.symm.trans hhandle)
            exact List.mem_cons_self
          · exact (h.awaits (awaits_waited w process)).empty
        · have hafter : w.after (.wait process) (.returned code) = w := if_neg hcode
          rw [hafter, if_neg hcode]
          split
          · exact .ret ⟨.refl w, ⟨nofun, h.empty⟩⟩
          · exact .ret ⟨.refl w, ⟨nofun, h.empty⟩⟩
    · exact .ret ⟨.refl w, h⟩

/-- The loop comes to what is so, and awaits. -/
theorem awaitEmpty_tidy (h : Progressed b w p) (rounds : ℕ) :
    Tidy job (b.awaitEmpty assigned terminateUnassigned notesFailure rounds p) w fun p' w' =>
      Awaits w w' ∧ Progressed b w' p' := by
  induction rounds generalizing w p with
  | zero =>
    unfold Boundary.awaitEmpty
    split
    · exact .ret ⟨.refl w, h⟩
    · exact .ret ⟨.refl w, h.waited, h.empty⟩
  | succ rounds ih =>
    unfold Boundary.awaitEmpty
    split
    · exact .ret ⟨.refl w, h⟩
    refine .bind (Tidy.conseq (waitProcess_tidy h) ?_)
    rintro p₁ w₁ ⟨hawaits, hp₁⟩
    have hagain : ∀ {w₂}, Awaits w₁ w₂ → Tidy job (b.awaitEmpty assigned terminateUnassigned notesFailure rounds p₁) w₂
        fun p' w' => Awaits w w' ∧ Progressed b w' p' := fun hw₂ =>
      Tidy.conseq (ih (hp₁.awaits hw₂)) fun p' w' hp' => ⟨hawaits.trans (hw₂.trans hp'.1), hp'.2⟩
    split
    · split
      · exact .ret ⟨hawaits, hp₁⟩
      · exact hagain (.refl w₁)
    · rename_i handle hhandle
      split
      · split
        · exact .ret ⟨hawaits, hp₁⟩
        · exact hagain (.refl w₁)
      refine .call trivial fun (inTime : Bool) => ?_
      split
      · exact .ret ⟨hawaits, hp₁.waited, hp₁.empty⟩
      refine .call trivial fun (r : Result ℤ) => ?_
      have hw₂ := awaits_queryActive w₁ handle r
      have hp₂ := hp₁.awaits hw₂
      rcases r with code | active
      · exact .ret ⟨hawaits, hp₁.waited, hp₁.empty⟩
      · dsimp only
        split
        · -- no process is active, and the wait has come to an end
          rename_i hempty
          refine .ret ⟨hawaits.trans hw₂, hp₂.waited, fun _ hyes job' hjob' => ⟨hp₂.waited hempty.2 hyes, ?_⟩⟩
          obtain rfl := Option.some.inj (hhandle.symm.trans hjob')
          rw [show (w₁.after .inTime inTime).after (.queryActive handle) (.returned active) = _ from if_pos hempty.1]
          exact List.mem_cons_self
        split
        · exact .ret ⟨hawaits.trans hw₂, hp₂⟩
        split
        · exact .ret ⟨hawaits.trans hw₂, hp₂.waited, hp₂.empty⟩
        · exact hagain hw₂

/-- A process that is in no job is terminated by its handle. -/
theorem terminateUnassignedProcess_tidy :
    Tidy job (b.terminateUnassignedProcess assigned terminateUnassigned) w fun _ w' => w' = w := by
  unfold Boundary.terminateUnassignedProcess
  split
  · exact .ret rfl
  split
  · exact .call trivial fun _ => .ret rfl
  · exact .ret rfl

/-- A job that is terminated is terminated by its handle. -/
theorem terminateJob_tidy : Tidy job b.terminateJob w fun ok w' =>
    Awaits w w' ∧ (ok = true → ∀ handle, b.job = some handle → handle ∈ w'.terminated) := by
  unfold Boundary.terminateJob
  split
  · rename_i hnone
    exact .ret ⟨.refl w, fun _ handle hhandle => nomatch hnone.symm.trans hhandle⟩
  · rename_i handle hhandle
    refine .call trivial fun (r : Result Bool) => ?_
    rcases r with code | _ | _
    · exact .ret ⟨.refl w, nofun⟩
    · exact .ret ⟨.refl w, nofun⟩
    · refine .ret ⟨awaits_terminated w handle, fun _ handle' hhandle' => ?_⟩
      obtain rfl := Option.some.inj (hhandle.symm.trans hhandle')
      exact List.mem_cons_self

/-- **The job is ready to be closed** where it was terminated and found empty, and the process waited
for. -/
theorem mayClose_of_ready (h : Kept job b w) (hjob : b.job ≠ none)
    (hterminated : ∀ handle, b.job = some handle → handle ∈ w.terminated)
    (hempty : w.assigned ≠ none → ∀ handle, b.job = some handle →
      (∀ process, b.process = some process → process ∈ w.waited) ∧ handle ∈ w.zero) : MayClose job w := by
  obtain ⟨handle, hhandle⟩ := Option.ne_none_iff_exists'.1 hjob
  obtain ⟨rfl, hopen⟩ := h.eq_job hhandle
  refine ⟨hterminated handle hhandle, fun process hassigned => ?_⟩
  have hsome : w.assigned ≠ none := fun hnone => nomatch hnone.symm.trans hassigned
  obtain ⟨hwaited, hzero⟩ := hempty hsome handle hhandle
  refine ⟨?_, hzero⟩
  rcases h.process process hassigned with hprocess | hclosed | hclosed
  · exact .inl (hwaited process hprocess)
  · exact .inr hclosed
  · exact absurd hclosed hopen

/-- **A cleanup** closes what it may, whatever its calls come to. -/
theorem cleanupWith_tidy (h : Kept job b w) {timedOut : Bool} (hassigned : assigned = w.assigned.isSome) :
    Tidy job (b.cleanupWith notesFailure assigned timedOut terminateUnassigned) w fun x w' =>
      HandlesClosed job b x.2 w' x.1.1 := by
  unfold Boundary.cleanupWith
  refine .bind (Tidy.conseq terminateUnassignedProcess_tidy ?_)
  rintro processTerminated _ rfl
  refine .bind (Tidy.conseq terminateJob_tidy ?_)
  rintro jobTerminated w₁ ⟨hterminate, hterminated⟩
  have hassigned₁ : w₁.assigned ≠ none → assigned = true := by
    intro hsome
    rw [hassigned, ← hterminate.assigned]
    exact Option.isSome_iff_ne_none.2 hsome
  refine .call trivial fun (rounds : ℕ) => .bind (Tidy.conseq (awaitEmpty_tidy ?_ rounds) ?_)
  · -- before the loop, only what there is not need not be awaited
    refine ⟨fun hp hsome handle hhandle => ?_, fun hp hsome handle hhandle => ?_⟩
    · simp [hassigned₁ hsome, hhandle] at hp
    · simp [hassigned₁ hsome, hhandle] at hp
  rintro p w₂ ⟨hawaits, hp⟩
  have hkept := h.awaits (hterminate.trans hawaits)
  refine .bind (Tidy.conseq (closeHandles_tidy hkept ?_) ?_)
  · intro hready hjob
    rw [Bool.and_eq_true] at hready
    exact mayClose_of_ready hkept hjob
      (fun handle hhandle => hawaits.terminated (hterminated hready.1 handle hhandle)) (hp.empty hready.2)
  · rintro ⟨closed, b'⟩ w₃ hclosed
    refine .ret ⟨hclosed.kept, hclosed.retains, hclosed.state, fun hok => ?_⟩
    exact hclosed.none (Bool.and_eq_true _ _ ▸ hok).2

/-! ### Calls -/

/-- A boundary that has just been made holds its job and nothing else. -/
theorem rests_ofJob (job : ℕ) : Rests job (.ofJob job) .nothing where
  job := .inl ⟨rfl, nofun⟩
  assigned := rfl
  process := nofun
  owned := nofun
  lent := nofun
  closed := nofun
  created := fun _ => ⟨rfl, rfl, rfl, rfl⟩

/-- What is held at rest is held when the next call begins. -/
theorem Rests.anew (h : Rests job b w) : Rests job b w.anew :=
  ⟨⟨h.job, h.assigned, h.process, h.owned, h.lent⟩, h.closed, h.created⟩

/-- A boundary that is closed or broken after a cleanup. -/
theorem HandlesClosed.rests {ok : Bool} (h : HandlesClosed job b b' w ok) :
    Rests job { b' with state := if ok then .closed else .broken } w := by
  refine ⟨⟨h.kept.job, h.kept.assigned, h.kept.process, h.kept.owned, h.kept.lent⟩, fun hclosed => ?_, fun hcreated => ?_⟩
  · cases ok with
    | true => exact h.none rfl
    | false => cases hclosed
  · cases ok with
    | true => cases hcreated
    | false => cases hcreated

/-- An assignment that failed cleans up after itself. -/
theorem assignmentFailed_tidy (h : Kept job b w) {error : JobErrorCode} (hassigned : assigned = w.assigned.isSome) :
    Tidy job (b.assignmentFailed error assigned terminateUnassigned) w fun x w' => Rests job x.2 w' := by
  refine .bind (Tidy.conseq (cleanupWith_tidy h hassigned) ?_)
  rintro ⟨⟨ok, timedOut⟩, b'⟩ w' hcleaned
  have hrests := hcleaned.rests
  cases ok with
  | true => exact .ret hrests
  | false => exact .ret hrests

/-- Nothing was opened or closed. -/
structure SameHandles (w w' : Done) : Prop where
  opened : w'.opened = w.opened
  closed : w'.closed = w.closed

/-- What an assignment of a process comes to: the boundary knows whether it was assigned. -/
def Assigned (b : Boundary) (process : ℕ) (w w' : Done) : Except JobErrorCode Unit × Bool × Boundary → Prop
  | (.error _, assigned, b') => SameHandles w w' ∧ b' = { b with assigned := assigned } ∧
      w'.assigned = if assigned then some process else none
  | (.ok (), _, b') => SameHandles w w' ∧ b' = { b with assigned := true, state := .assigned } ∧ w'.assigned = some process

/-- A process is assigned by its handle, or the boundary is as it was. -/
theorem assignHandle_tidy {process : ℕ} {allowNested : Bool} (hassigned : b.assigned = false)
    (hw : w.assigned = none) :
    Tidy job (b.assignHandle job process allowNested) w fun x w' => Assigned b process w w' x := by
  have hsame : b = { b with assigned := false } := by rw [← hassigned]
  have hfailed : ∀ {code}, Assigned b process w w (.error code, false, b) := ⟨⟨rfl, rfl⟩, hsame, hw⟩
  unfold Boundary.assignHandle
  refine .bind ?_
  have hnested : Tidy job (if allowNested then return .returned false else call (.isProcessInJob process none)) w
      fun (_ : Result Bool) w' => w' = w := by
    split
    · exact .ret rfl
    · exact .call trivial fun _ => .ret rfl
  refine Tidy.conseq hnested ?_
  rintro nested w₁ hsame₁
  obtain rfl : w = w₁ := hsame₁.symm
  rcases nested with code | _ | _
  · exact .ret hfailed
  · refine .call rfl fun (r : Result Bool) => ?_
    rcases r with code | _ | _
    · exact .ret hfailed
    · exact .ret ⟨⟨rfl, rfl⟩, rfl, hw⟩
    · refine .call trivial fun (r : Result Bool) => ?_
      rcases r with code | _ | _
      · exact .ret ⟨⟨rfl, rfl⟩, rfl, rfl⟩
      · exact .ret ⟨⟨rfl, rfl⟩, rfl, rfl⟩
      · refine .call trivial fun (r : Result ℤ) => ?_
        have hawaits := awaits_queryActive { w with assigned := some process } job r
        have hhandles : SameHandles w _ := ⟨hawaits.opened, hawaits.closed⟩
        rcases r with code | active
        · exact .ret ⟨hhandles, rfl, hawaits.assigned⟩
        · dsimp only
          split
          · exact .ret ⟨hhandles, rfl, hawaits.assigned⟩
          · exact .ret ⟨hhandles, rfl, hawaits.assigned⟩
  · exact .ret hfailed

/-- An assignment of a process that the boundary has. -/
theorem assigning_tidy {process : ℕ} {allowNested : Bool} (h : Kept job b w) (hprocess : b.process = some process)
    (hw : w.assigned = none) :
    Tidy job (b.assigning job process allowNested terminateUnassigned) w fun x w' => Rests job x.2 w' := by
  have hunassigned : b.assigned = false := h.assigned.trans (congrArg Option.isSome hw)
  refine .bind (Tidy.conseq (assignHandle_tidy hunassigned hw) ?_)
  have hkept : ∀ {w' state} (assigned : Bool), SameHandles w w' →
      w'.assigned = (if assigned then some process else none) →
      Kept job { b with assigned := assigned, state := state } w' := by
    intro w' state assigned hsame hassigned
    have hclosed : ∀ slot handle, w'.HasClosed slot handle ↔ w.HasClosed slot handle := by
      intro slot handle
      rw [Done.HasClosed, hsame.closed]
      rfl
    refine ⟨?_, ?_, fun handle hhandle => .inl ?_, fun handle hhandle hborrowed => ?_, fun hlent => ?_⟩
    · rw [hclosed]
      exact h.job
    · rw [hassigned]
      cases assigned <;> rfl
    · rw [hassigned] at hhandle
      cases assigned with
      | true => exact hprocess.trans hhandle
      | false => cases hhandle
    · rw [hclosed, hsame.opened]
      exact h.owned handle hhandle hborrowed
    · rw [hsame.opened]
      exact h.lent hlent
  rintro ⟨error | ⟨⟩, assigned, b'⟩ w' hassigned
  · obtain ⟨hsame, rfl, hyes⟩ := hassigned
    refine assignmentFailed_tidy (hkept assigned hsame hyes) ?_
    rw [hyes]
    cases assigned <;> rfl
  · obtain ⟨hsame, rfl, hyes⟩ := hassigned
    exact .ret ⟨hkept true hsame hyes, nofun, nofun⟩

/-- A process is opened, and assigned or closed. -/
theorem assignProcess_tidy (h : Rests job b w) {pid : ℕ} {allowNested : Bool} :
    Tidy job (b.assignProcess pid allowNested) w fun x w' => Rests job x.2 w' := by
  unfold Boundary.assignProcess
  split
  · exact .ret h
  split
  · exact .ret h
  · rename_i handle hhandle hstate
    rw [not_or, not_not, not_not] at hstate
    obtain ⟨hw, hclosed, hopened, hborrowed⟩ := h.created hstate.1
    obtain ⟨rfl, -⟩ := h.eq_job hhandle
    have hunassigned : false = w.assigned.isSome := by rw [hw]; rfl
    refine .call trivial fun (r : Result (Option ℕ)) => ?_
    have howned : ∀ process, Kept handle { b with process := some process } { w with opened := some process } := by
      refine fun process => ⟨h.job, h.assigned, fun _ hassigned => ?_, fun other hother _ => ⟨hother, ?_⟩, fun hlent => ?_⟩
      · exact nomatch hw.symm.trans hassigned
      · rw [Done.HasClosed, hclosed]
        exact List.not_mem_nil
      · exact absurd (hborrowed.symm.trans hlent) Bool.false_ne_true
    rcases r with code | _ | _ | process
    · exact assignmentFailed_tidy h.toKept hunassigned
    · exact assignmentFailed_tidy h.toKept hunassigned
    · exact assignmentFailed_tidy (howned 0) hunassigned
    · exact assigning_tidy (howned (process + 1)) rfl hw

/-- A borrowed handle is assigned, and not closed. -/
theorem assignBorrowedHandle_tidy (h : Rests job b w) {handle : ℕ} {allowNested : Bool} :
    Tidy job (b.assignBorrowedHandle handle allowNested) w fun x w' => Rests job x.2 w' := by
  unfold Boundary.assignBorrowedHandle
  split
  · exact .ret h
  split
  · exact .ret h
  split
  · exact .ret h
  · rename_i own hown hstate hhandle
    rw [not_or, not_not, not_not] at hstate
    obtain ⟨hw, hclosed, hopened, hborrowed⟩ := h.created hstate.1
    obtain ⟨rfl, -⟩ := h.eq_job hown
    have hlent : Kept own { b with process := some handle, borrowedProcess := true } w :=
      ⟨h.job, h.assigned, fun _ hassigned => (nomatch hw.symm.trans hassigned), nofun, fun _ => hopened⟩
    exact assigning_tidy hlent rfl hw

theorem authorize_rests (h : Rests job b w) : Rests job b.authorize.2 w := by
  unfold Boundary.authorize
  split
  · exact h
  · exact ⟨⟨h.job, h.assigned, h.process, h.owned, h.lent⟩, nofun, nofun⟩

theorem retains_refl (b : Boundary) (w : Done) : Retains b b w := ⟨.inl rfl, .inl rfl⟩

/-- **A close** leaves a boundary at rest, which holds nothing that it did not hold before. -/
theorem close_tidy (h : Rests job b w) {validTimeout : Bool} :
    Tidy job (b.close validTimeout) w fun x w' => Rests job x.2 w' ∧ Retains b x.2 w' := by
  unfold Boundary.close
  split
  · exact .ret ⟨h, retains_refl b w⟩
  refine .bind (Tidy.conseq (cleanupWith_tidy h.toKept h.assigned) ?_)
  rintro ⟨⟨ok, timedOut⟩, b'⟩ w' hcleaned
  exact .ret ⟨hcleaned.rests, hcleaned.retains⟩

/-- So does a close that waits until its deadline. -/
theorem closeWithDeadline_tidy (h : Rests job b w) :
    Tidy job b.closeWithDeadline w fun x w' => Rests job x.2 w' ∧ Retains b x.2 w' := by
  unfold Boundary.closeWithDeadline
  split
  · exact .ret ⟨h, retains_refl b w⟩
  refine .call trivial fun (cleanupNs : ℤ) => ?_
  split
  · exact .ret ⟨h, retains_refl b w⟩
  refine .bind (Tidy.conseq (cleanupWith_tidy h.toKept h.assigned) ?_)
  rintro ⟨⟨ok, timedOut⟩, b'⟩ w' hcleaned
  have hkept := hcleaned.kept
  dsimp only
  split
  · have hbroken : Rests job { b' with state := .broken } w' :=
      ⟨⟨hkept.job, hkept.assigned, hkept.process, hkept.owned, hkept.lent⟩, nofun, nofun⟩
    exact .ret ⟨hbroken, hcleaned.retains⟩
  · rename_i hok
    have hok : ok = true := by simp at hok; exact hok.2
    exact .ret ⟨⟨⟨hkept.job, hkept.assigned, hkept.process, hkept.owned, hkept.lent⟩,
      fun _ => hcleaned.none hok, nofun⟩, hcleaned.retains⟩

/-- **Every call** leaves a boundary at rest. -/
theorem program_tidy (h : Rests job b w) : ∀ call, Tidy job (Call.program b call) w fun x w' => Rests job x.2 w'
  | .assignProcess _ _ => assignProcess_tidy h
  | .assignBorrowedHandle _ _ => assignBorrowedHandle_tidy h
  | .authorize => .ret (authorize_rests h)
  | .close _ => (close_tidy h).conseq fun _ _ hx => hx.1
  | .closeWithDeadline => (closeWithDeadline_tidy h).conseq fun _ _ hx => hx.1

/-! ### What is not opened -/

/-- An operation that opens no process. -/
def OpensNone (o : JobOp) : Prop := ∀ pid, o ≠ .openProcess pid

/-- Where nothing is opened, what was opened stays so. -/
theorem opened_after {o : JobOp} (ho : OpensNone o) (w : Done) (r : o.Resp) : (w.after o r).opened = w.opened := by
  unfold Done.after
  split
  · exact absurd rfl (ho _)
  all_goals first | rfl | (split <;> rfl)

/-- What was opened is not forgotten. -/
theorem opened_after_ne_none (o : JobOp) (w : Done) (r : o.Resp) (h : w.opened ≠ none) : (w.after o r).opened ≠ none := by
  unfold Done.after
  split
  · exact Option.some_ne_none _
  all_goals first | exact h | (split <;> exact h)

/-- A program that opens no process leaves none opened. -/
theorem opened_run {α : Type} {p : Job α} (hp : p.Performs OpensNone) (results : Results) (n : ℕ) (w : Done) :
    (Prog.run (answering results) n p w).world.opened = w.opened := by
  induction p generalizing n w with
  | ret a => rfl
  | op o k ih => exact (ih _ (hp.2 _) _ _).trans (opened_after hp.1 w _)

theorem performs_closeSlot (slot : Slot) (ready : Bool) : (b.closeSlot slot ready).Performs OpensNone := by
  unfold Boundary.closeSlot
  split
  · trivial
  refine .ite trivial (.ite trivial ?_)
  exact .bind (.perform nofun) fun _ => trivial

/-- What closes opens nothing. -/
theorem performs_closeHandles (processReady jobReady : Bool) :
    (b.closeHandles processReady jobReady).Performs OpensNone :=
  .bind (performs_closeSlot _ _) fun _ => .bind (performs_closeSlot _ _) fun _ => trivial

theorem performs_waitProcess : (b.waitProcess assigned terminateUnassigned notesFailure p).Performs OpensNone := by
  unfold Boundary.waitProcess
  split
  · trivial
  refine .ite (.bind (.perform nofun) fun (r : Result ℕ) => ?_) trivial
  rcases r with code | code
  · trivial
  · exact .ite trivial (.ite trivial trivial)

theorem performs_awaitEmpty (rounds : ℕ) :
    (b.awaitEmpty assigned terminateUnassigned notesFailure rounds p).Performs OpensNone := by
  induction rounds generalizing p with
  | zero =>
    unfold Boundary.awaitEmpty
    exact .ite trivial trivial
  | succ rounds ih =>
    unfold Boundary.awaitEmpty
    refine .ite trivial (.bind performs_waitProcess fun p => ?_)
    split
    · exact .ite trivial ih
    refine .ite (.ite trivial ih) (.bind (.perform nofun) fun (inTime : Bool) => .ite trivial ?_)
    refine .bind (.perform nofun) fun (active : Result ℤ) => ?_
    rcases active with code | active
    · trivial
    · exact .ite trivial (.ite trivial (.ite trivial ih))

/-- A cleanup opens nothing. -/
theorem performs_cleanupWith {timedOut : Bool} :
    (b.cleanupWith notesFailure assigned timedOut terminateUnassigned).Performs OpensNone := by
  unfold Boundary.cleanupWith
  refine .bind ?_ fun _ => .bind ?_ fun _ => .bind (.perform nofun) fun (rounds : ℕ) =>
    .bind (performs_awaitEmpty rounds) fun p => .bind (performs_closeHandles _ _) fun _ => trivial
  · unfold Boundary.terminateUnassignedProcess
    split
    · trivial
    · exact .ite (.bind (.perform nofun) fun _ => trivial) trivial
  · unfold Boundary.terminateJob
    split
    · trivial
    · exact .bind (.perform nofun) fun _ => trivial

/-- Nor does an assignment that cleans up after itself. -/
theorem performs_assignmentFailed {error : JobErrorCode} :
    (b.assignmentFailed error assigned terminateUnassigned).Performs OpensNone := by
  refine .bind performs_cleanupWith fun ⟨⟨ok, timedOut⟩, b'⟩ => ?_
  exact .ite trivial trivial

theorem performs_assigning {process : ℕ} {allowNested : Bool} :
    (b.assigning job process allowNested terminateUnassigned).Performs OpensNone := by
  refine .bind ?_ fun x => ?_
  · unfold Boundary.assignHandle
    refine .bind ?_ fun (nested : Result Bool) => ?_
    · exact Prog.Performs.ite trivial (.perform nofun)
    rcases nested with code | _ | _
    · trivial
    · refine .bind (.perform nofun) fun (r : Result Bool) => ?_
      rcases r with code | _ | _
      · trivial
      · trivial
      · refine .bind (.perform nofun) fun (r : Result Bool) => ?_
        rcases r with code | _ | _
        · trivial
        · trivial
        · refine .bind (.perform nofun) fun (r : Result ℤ) => ?_
          rcases r with code | active
          · trivial
          · exact .ite trivial trivial
    · trivial
  · rcases x with ⟨error | ⟨⟩, assigned, b'⟩
    · exact performs_assignmentFailed
    · trivial

/-- A process is opened by `assign_process` alone, of a boundary as it was created. -/
theorem performs_program {call : Call}
    (h : b.state ≠ .created ∨ ∃ handle allowNested, call = .assignBorrowedHandle handle allowNested) :
    (call.program b).Performs OpensNone := by
  cases call with
  | assignProcess pid allowNested =>
    have hstate : b.state ≠ .created := h.resolve_right nofun
    unfold Call.program Boundary.assignProcess
    dsimp only
    split
    · trivial
    · rw [if_pos (.inl hstate)]
      trivial
  | assignBorrowedHandle handle allowNested =>
    unfold Call.program Boundary.assignBorrowedHandle
    dsimp only
    split
    · trivial
    · exact .ite trivial (.ite trivial performs_assigning)
  | authorize => trivial
  | close validTimeout =>
    unfold Call.program Boundary.close
    exact .ite trivial (.bind performs_cleanupWith fun _ => trivial)
  | closeWithDeadline =>
    unfold Call.program Boundary.closeWithDeadline
    refine .ite trivial (.bind (.perform nofun) fun (cleanupNs : ℤ) => .ite trivial ?_)
    exact .bind performs_cleanupWith fun _ => .ite trivial trivial

/-- No call makes a boundary what it was when it was created. -/
theorem returns_program (h : b.state ≠ .created) (call : Call) :
    (call.program b).Returns fun x => x.2.state ≠ .created := by
  have hended : ∀ ok : Bool, (if ok then JobState.closed else .broken) ≠ .created := by decide
  cases call with
  | assignProcess pid allowNested =>
    unfold Call.program Boundary.assignProcess
    dsimp only
    split
    · exact h
    · rw [if_pos (.inl h)]
      exact h
  | assignBorrowedHandle handle allowNested =>
    unfold Call.program Boundary.assignBorrowedHandle
    dsimp only
    split
    · exact h
    · rw [if_pos (.inl h)]
      exact h
  | authorize =>
    show b.authorize.2.state ≠ .created
    unfold Boundary.authorize
    split
    · exact h
    · exact nofun
  | close validTimeout =>
    unfold Call.program Boundary.close
    dsimp only
    split
    · exact h
    · exact .bind (.any _) fun x _ => hended x.1.1
  | closeWithDeadline =>
    show b.closeWithDeadline.Returns _
    unfold Boundary.closeWithDeadline
    split
    · exact h
    refine .bind (.any _) fun (cleanupNs : ℤ) _ => ?_
    split
    · exact h
    refine .bind (.any _) fun x _ => ?_
    dsimp only
    split
    · exact nofun
    · exact nofun

/-! ### Lives -/

namespace Life

variable {σ : Life} {job : ℕ}

/-- What every life keeps. -/
structure Inv (job : ℕ) (σ : Life) : Prop where
  rests : Rests job σ.boundary σ.done
  proper : ∀ e ∈ σ.events, Proper job e.op e.before
  opened : σ.done.opened = none → ∀ e ∈ σ.events, e.before.opened = none

/-- A boundary that has just been made keeps the invariant. -/
theorem inv_init (job : ℕ) : (init job).Inv job :=
  ⟨rests_ofJob job, List.forall_mem_nil _, fun _ => List.forall_mem_nil _⟩

/-- What was opened before an operation of a run is opened at its end. -/
theorem opened_ran {call : Call} {results : Results} {w : Done} {first rest : List JobEvent}
    (hsplit : (σ.ran call results).events = first ++ rest) (hrest : Linked w rest (σ.ran call results).world)
    (hw : w.opened ≠ none) : (σ.ran call results).world.opened ≠ none := by
  refine (hrest.lasts (I := fun w => w.opened ≠ none) hw fun e he hbefore => ?_).2
  obtain ⟨m, hanswer⟩ := Prog.answer_of_mem_events (answering results)
    (hsplit ▸ List.mem_append_right first he : e ∈ (σ.ran call results).events)
  have hafter : e.before.after e.op _ = e.after := congrArg Prod.snd hanswer
  rw [← hafter]
  exact opened_after_ne_none _ _ _ hbefore

/-- Where a call leaves no process opened, none was before it or on the way. -/
theorem opened_events {call : Call} {results : Results} (h : (σ.ran call results).world.opened = none) :
    σ.done.opened = none ∧ ∀ e ∈ (σ.ran call results).events, e.before.opened = none := by
  have hlinked : Linked σ.done.anew (σ.ran call results).events (σ.ran call results).world :=
    Prog.linked_run (fun _ _ => rfl) 0 _ _
  constructor
  · by_contra hsome
    exact opened_ran (List.nil_append _).symm hlinked hsome h
  · intro e he
    by_contra hsome
    obtain ⟨first, rest, hsplit⟩ := List.append_of_mem he
    obtain ⟨w, -, hrest⟩ := (hsplit ▸ hlinked).of_append
    have hw : e.before = w := hrest.1
    subst hw
    exact opened_ran hsplit hrest hsome h

/-- One call keeps it. -/
theorem Inv.step (h : σ.Inv job) (call : Call × Results) : (σ.step call).Inv job := by
  obtain ⟨hevents, hrests⟩ := program_tidy h.rests.anew call.1 (answering call.2) ⟨call.2, rfl⟩ 0 σ.done.anew rfl
  refine ⟨hrests, List.forall_mem_append.2 ⟨h.proper, hevents⟩, fun hnone => ?_⟩
  obtain ⟨hbefore, hran⟩ := opened_events hnone
  exact List.forall_mem_append.2 ⟨h.opened hbefore, hran⟩

/-- **Any calls keep it**, one after another. -/
theorem Inv.run (h : σ.Inv job) (calls : List (Call × Results)) : (σ.run calls).Inv job := by
  induction calls generalizing σ with
  | nil => exact h
  | cons call calls ih => exact ih (h.step call)

/-- Where nothing is opened, the handle of no process is closed. -/
theorem Inv.closes_none (h : σ.Inv job) (hopened : σ.done.opened = none) :
    ∀ e ∈ σ.events, ∀ handle, e.op ≠ .close .process handle := by
  intro e he handle hop
  have hproper := h.proper e he
  rw [hop] at hproper
  exact nomatch (h.opened hopened e he).symm.trans hproper.1

/-- A boundary that is no longer as it was created opens nothing more. -/
theorem opened_run (hstate : σ.boundary.state ≠ .created) (hopened : σ.done.opened = none)
    (more : List (Call × Results)) : (σ.run more).done.opened = none := by
  induction more generalizing σ with
  | nil => exact hopened
  | cons call more ih =>
    have hnext := Prog.Returns.run (answering call.2) (returns_program hstate call.1) 0 σ.done.anew
    refine ih hnext ?_
    exact (Isolation.opened_run (performs_program (.inl hstate)) call.2 0 σ.done.anew).trans hopened

/-- **What a boundary closes, and keeps**, in every sequence of calls and whatever the native
calls come to: that job and that process are closed as they should be (`Proper`); a handle that was
lent is never closed, neither by the call that took it nor by any more; a boundary that is closed has
no handle left; and a call to close it, which may fail, keeps every handle that it does not close, but
for one that was lent, which it keeps as long as the job. -/
theorem boundary_cleanup (job : ℕ) (calls : List (Call × Results)) (last : Call × Results) :
    let σ := (init job).run calls
    let τ := σ.step last
    (∀ e ∈ τ.events, Proper job e.op e.before) ∧
      (σ.Lends last → ∀ more, ∀ e ∈ (τ.run more).events, ∀ handle, e.op ≠ .close .process handle) ∧
      (τ.boundary.borrowedProcess = true → τ.done.opened = none) ∧
      (τ.boundary.state = .closed → τ.boundary.job = none ∧ τ.boundary.process = none) ∧
      (last.1.closes = true → Retains σ.boundary τ.boundary τ.done) := by
  intro σ τ
  have hσ : σ.Inv job := (inv_init job).run calls
  have hτ : τ.Inv job := hσ.step last
  refine ⟨hτ.proper, fun hlends more => ?_, hτ.rests.lent, hτ.rests.closed, fun hcloses => ?_⟩
  · obtain ⟨hborrowing, hcreated, htaken⟩ := hlends
    have hopened : τ.done.opened = none := by
      have hsame := Isolation.opened_run (performs_program (b := σ.boundary) (.inr hborrowing)) last.2 0 σ.done.anew
      exact hsame.trans (hσ.rests.created hcreated).2.2.1
    exact (hτ.run more).closes_none (opened_run htaken hopened more)
  obtain ⟨call, results⟩ := last
  cases call with
  | close validTimeout =>
    obtain ⟨-, -, hretains⟩ := close_tidy hσ.rests.anew (answering results) ⟨results, rfl⟩ 0 σ.done.anew rfl
    exact hretains
  | closeWithDeadline =>
    obtain ⟨-, -, hretains⟩ := closeWithDeadline_tidy hσ.rests.anew (answering results) ⟨results, rfl⟩ 0 σ.done.anew rfl
    exact hretains
  | _ => cases hcloses

end Life

/-! ### A handle that was lent -/

/-- Native calls that all succeed, for a job with one process. -/
def succeeding (active : ℤ) : (o : JobOp) → o.Resp
  | .openProcess _ => .returned (some 2)
  | .isProcessInJob _ job => .returned (job.isSome)
  | .assign _ _ => .returned true
  | .queryActive _ => .returned active
  | .terminate _ => .returned true
  | .terminateProcess _ => .returned true
  | .wait _ => .returned WAIT_OBJECT_0
  | .close _ _ => .returned true
  | .rounds => (2 : ℕ)
  | .inTime => true
  | .cleanupNs => (1 : ℤ)

/-- The first wait for the process raises, and a second one comes to an end. -/
def firstWaitRaises (n : ℕ) (o : JobOp) : o.Resp :=
  match o with
  | .wait _ => if n = 3 then .raised .internalError else .returned WAIT_OBJECT_0
  | .queryActive _ => .returned (if n = 5 then 1 else 0)
  | o => succeeding 0 o

/-- A handle that was lent is not closed, and not kept either by a call that fails to close
the boundary. -/
theorem lent_not_retained :
    let σ := (Life.init 1).step (.assignBorrowedHandle 7 false, fun _ => succeeding 1)
    let τ := σ.step (.closeWithDeadline, firstWaitRaises)
    σ.boundary.process = some 7 ∧ (σ.ran .closeWithDeadline firstWaitRaises).result.1 matches .error _ ∧
      τ.boundary.state = .broken ∧ τ.boundary.process = none ∧ τ.done.closed = [(.job, 1)] := by
  decide +kernel

end Isolation

end YasbLimitora

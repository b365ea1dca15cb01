import Mathlib
import YasbLimitora.ConfigLock.Spec
import YasbLimitora.Lib.Runs

/-!
# Who is inside the body

What the specification of the lease says about runs. At most one live process is inside the body by
the marker, and a marker is deleted only by its creator or when its creator is dead
(`YasbLimitora.ConfigLock.marker_exclusive`). The same is true of the mutex. But the two do not
exclude each other; what follows from that is in `YasbLimitora.ConfigLock.Mixed`.

Runs are sequences of operations of any number of processes, each with the lease program and a death
that may come at any time. A process that dies leaves its marker where it is, and its number may be
given to another one; the marker is then no longer that of a living process, although there is one
of this number, and who is born with it has not created the file.

The played run at the end has a process inside and another one that contends and reads the marker.
-/

namespace YasbLimitora

namespace ConfigLock

variable {I P : Type} [DecidableEq I] {fleet : Fleet I P} {σ σ' : LockConfig I P} {i j : I}

/-- The body that a program is about to perform. -/
def atBody {α : Type} : Locking α → Option Mode
  | .op (.body mode) _ => some mode
  | _ => none

theorem eq_of_atBody {α : Type} {p : Locking α} {mode : Mode} (h : atBody p = some mode) :
    ∃ k, p = .op (.body mode) k := by
  unfold atBody at h
  split at h
  · obtain rfl := Option.some.inj h
    exact ⟨_, rfl⟩
  · cases h

/-- A live thread is inside the body by the mutex, or by the marker. -/
def Inside (fleet : Fleet I P) (σ : LockConfig I P) (i : I) (mode : Mode) : Prop :=
  Live fleet i σ.world ∧ atBody (σ.prog i) = some mode

/-! ### What is reached -/

theorem Reachable.tail (h : Reachable fleet σ)
    (hstep : (lockers fleet).Step (nextCall fleet) σ σ') : Reachable fleet σ' := by
  obtain ⟨σ₀, hinit, hreach⟩ := h
  exact ⟨σ₀, hinit, hreach.tail hstep⟩

/-- What is reached has the invariant, and each thread inside its precondition. -/
theorem Reachable.sound (h : Reachable fleet σ) : WorldInv fleet σ.world ∧
    ∀ i, (contract fleet).wp i (σ.prog i) (fun _ _ => True) σ.world := by
  obtain ⟨σ₀, hinit, hreach⟩ := h
  refine (contract fleet).sound (fun _ _ _ => True) (fun _ _ _ _ _ _ _ _ => trivial) (fun i r => ?_)
    ⟨fun f file hf => ?_, fun f file hf => ?_⟩ (fun i => ?_) hreach
  · exact .bind spec_configLease fun _ => .ret fun _ _ _ _ => trivial
  · exact nomatch (hinit.files f).symm.trans hf
  · exact nomatch (hinit.files f).symm.trans hf
  · obtain ⟨r, hr⟩ := hinit.idle i
    rw [hr]
    exact trivial

/-- The operation that a live thread is about to perform meets its condition. -/
theorem Reachable.condition (h : Reachable fleet σ) {o : Op} {k : o.Resp → Locking Returned}
    (hlive : Live fleet i σ.world) (hprog : σ.prog i = .op o k) : Condition fleet i o σ.world :=
  Contract.pre_of_wp (C := contract fleet) (fun _ _ _ => True) h.sound.1 (h.sound.2 i) hlive hprog

theorem Reachable.condition_of_inside (h : Reachable fleet σ) {mode : Mode}
    (hi : Inside fleet σ i mode) : Condition fleet i (.body mode) σ.world := by
  obtain ⟨hlive, hbody⟩ := hi
  obtain ⟨k, hprog⟩ := eq_of_atBody hbody
  exact h.condition hlive hprog

/-! ### Each mechanism by itself -/

/-- **Who is inside by the same mechanism** is the same. -/
theorem Reachable.inside_unique (h : Reachable fleet σ) {mode : Mode} (hi : Inside fleet σ i mode)
    (hj : Inside fleet σ j mode) : i = j := by
  have hi := h.condition_of_inside hi
  have hj := h.condition_of_inside hj
  cases mode with
  | guard =>
    obtain ⟨n, hn⟩ := hi
    obtain ⟨m, hm⟩ := hj
    exact (Prod.mk.inj (Option.some.inj (hn.symm.trans hm))).1
  | marker =>
    -- there is one file at the path, and it has one creator
    obtain ⟨f, file, hleaf, hf, rfl, -⟩ := hi
    obtain ⟨f', file', hleaf', hf', rfl, -⟩ := hj
    obtain rfl := Option.some.inj (hleaf.symm.trans hleaf')
    obtain rfl := Option.some.inj (hf.symm.trans hf')
    rfl

/-- **The marker excludes**: of the live processes one at most has a lease by the marker, and a
marker is about to be deleted only by its creator, or when its creator is dead. -/
theorem marker_exclusive (h : Reachable fleet σ) :
    (∀ i j, Inside fleet σ i .marker → Inside fleet σ j .marker → i = j) ∧
      ∀ i handle k, Live fleet i σ.world → σ.prog i = .op (.setDisposition handle) k →
        ∀ f file, σ.world.Opens i handle f file →
          file.creator = i ∨ σ.world.phase (fleet.proc file.creator) = .dead :=
  ⟨fun _ _ => h.inside_unique, fun _ _ _ hlive hprog => h.condition hlive hprog⟩

/-! ### Who is born -/

/-- Operations leave the processes as they are. -/
theorem phase_of_answers {o : Op} {w w' : World I P} {r : o.Resp} (h : answers fleet i o w r w') :
    w'.phase = w.phase := by
  cases o with
  | waitMutex =>
    rcases h with ⟨-, -, rfl⟩ | ⟨-, n, -, rfl⟩ | ⟨-, rfl⟩ <;> rfl
  | releaseMutex =>
    rcases h with ⟨-, ⟨-, rfl⟩ | ⟨n, -, rfl⟩⟩ | ⟨-, rfl⟩ <;> rfl
  | closeMutex =>
    rcases h with rfl | ⟨-, rfl⟩ <;> rfl
  | createFile access =>
    rcases r with _ | handle
    · obtain rfl : w' = w := by cases access <;> exact h
      rfl
    · cases access with
      | parent =>
        obtain ⟨-, rfl⟩ := h
        rfl
      | createNew =>
        obtain ⟨-, -, f, identity, -, rfl⟩ := h
        rfl
      | openExisting =>
        obtain ⟨-, f, file, -, -, -, rfl⟩ := h
        rfl
  | writeFile handle data =>
    rcases h with ⟨f, file, n, -, -, -, rfl⟩ | ⟨-, rfl⟩ <;> rfl
  | setDisposition handle =>
    rcases h with ⟨f, file, -, rfl⟩ | ⟨-, rfl⟩ <;> rfl
  | close handle =>
    rcases h with rfl | ⟨-, rfl⟩ <;> rfl
  | queryInfo handle => exact congrArg World.phase h.1
  | readFile handle => exact congrArg World.phase h.1
  | processToken pid => exact congrArg World.phase h.1
  | _ => exact congrArg World.phase h

/-- A thread that performs something is in a process that was born. -/
theorem Reachable.born (h : Reachable fleet σ) {o : Op} {k : o.Resp → Locking Returned}
    (hprog : σ.prog i = .op o k) : σ.world.phase (fleet.proc i) ≠ .unborn := by
  obtain ⟨σ₀, hinit, hreach⟩ := h
  induction hreach generalizing o k with
  | refl =>
    obtain ⟨r, hr⟩ := hinit.idle i
    exact nomatch hr.symm.trans hprog
  | tail _ hstep ih =>
    cases hstep with
    | @perform t o' k' r w hlive hprog' hstep =>
      dsimp only at hprog ⊢
      rw [phase_of_answers hstep]
      rcases eq_or_ne i t with rfl | hne
      · exact fun hu => absurd (hlive.symm.trans hu) (by simp)
      · rw [Machine.update_other _ hne] at hprog
        exact ih hprog
    | @begin t a hlive hprog' =>
      dsimp only at hprog ⊢
      rcases eq_or_ne i t with rfl | hne
      · exact fun hu => absurd (hlive.symm.trans hu) (by simp)
      · rw [Machine.update_other _ hne] at hprog
        exact ih hprog
    | env henv => exact (henv.ages _).ne_unborn (ih hprog)

/-! ### Runs that are played -/

section Played

theorem number_pos : ∀ p : Bool, 0 < if p then 1 else 2 := by decide

/-- Two threads, each in a process of its own. -/
def twoProcesses : Fleet Bool Bool where
  proc i := i
  pid p := if p then 1 else 2
  token p := if p then "a" else "b"
  pid_pos := number_pos

def World.clean : World Bool Bool := ⟨none, none, fun _ => none, fun _ _ => none, fun _ => .alive⟩

/-- A handle that a thread has not open, if one of the first is. -/
def freeHandle (w : World Bool Bool) (i : Bool) : Option ℕ :=
  if w.handles i 1 = none then some 1
  else if w.handles i 2 = none then some 2
  else if w.handles i 3 = none then some 3 else none

theorem handles_of_freeHandle {w : World Bool Bool} {i : Bool} {h : ℕ} (hfree : freeHandle w i = some h) :
    w.handles i h = none := by
  unfold freeHandle at hfree
  split_ifs at hfree with h1 h2 h3
  · exact Option.some.inj hfree ▸ h1
  · exact Option.some.inj hfree ▸ h2
  · exact Option.some.inj hfree ▸ h3

/-- The file that a handle is open on. -/
def fileAt (w : World Bool Bool) (i : Bool) (handle : ℕ) : Option (ℕ × LockFile Bool) :=
  match w.handles i handle with
  | some (.file f) => (w.files f).map fun file => (f, file)
  | _ => none

theorem opens_of_fileAt {w : World Bool Bool} {i : Bool} {handle f : ℕ} {file : LockFile Bool} :
    fileAt w i handle = some (f, file) ↔ w.Opens i handle f file := by
  unfold fileAt World.Opens
  constructor
  · intro h
    split at h
    · rename_i g hg
      obtain ⟨file', hfile', heq⟩ := Option.map_eq_some_iff.1 h
      obtain ⟨rfl, rfl⟩ := Prod.mk.inj heq
      exact ⟨hg, hfile'⟩
    · cases h
  · rintro ⟨hh, hf⟩
    rw [hh]
    dsimp only
    rw [hf]
    rfl

/-- What opening answers where it does not fail. -/
def openFreely (i : Bool) (w : World Bool Bool) : Access → Option ℕ × World Bool Bool
  | .parent => match freeHandle w i with
    | some h => (some h, w.setHandle i h (some .parent))
    | none => (none, w)
  | .createNew => match freeHandle w i, w.leaf, w.files 0 with
    | some h, none, none => (some h, { (w.setFile 0 ⟨i, (0, 0, 0), [], false⟩).setHandle i h (some (.file 0))
        with leaf := some 0 })
    | _, _, _ => (none, w)
  | .openExisting => match freeHandle w i, w.leaf with
    | some h, some f => match w.files f with
      | some file => if file.deleted then (none, w) else (some h, w.setHandle i h (some (.file f)))
      | none => (none, w)
    | _, _ => (none, w)

/-- A world that answers one thread: nothing fails, but that it may get no mutex. -/
def obliging (guarded i : Bool) : (o : Op) → World Bool Bool → o.Resp × World Bool Bool
  | .rounds, w => ((1 : ℕ), w)
  | .usableNs, w => ((1 : ℤ), w)
  | .createMutex, w => (guarded, w)
  | .waitMutex, w =>
    if w.mutex = none then (Wait.signaled, { w with mutex := some (i, 0) }) else (Wait.timeout, w)
  | .releaseMutex, w => if w.mutex = some (i, 0) then (true, { w with mutex := none }) else (false, w)
  | .closeMutex, w => (true, w)
  | .createFile access, w => openFreely i w access
  | .queryInfo handle, w => match fileAt w i handle with
    | some (_, file) => (some (Info.mk false false file.identity), w)
    | none => (some (Info.mk false true (0, 0, 0)), w)
  | .finalPath _, w => (true, w)
  | .readFile handle, w =>
    ((fileAt w i handle).map fun opened => opened.2.content.take (MARKER_MAX_BYTES + 1), w)
  | .writeFile handle data, w => match fileAt w i handle with
    | some (f, file) => (data.length, w.setFile f { file with content := file.content ++ data })
    | none => ((0 : ℕ), w)
  | .flush _, w => (true, w)
  | .setDisposition handle, w => match fileAt w i handle with
    | some (f, file) => (true, w.setFile f { file with deleted := true })
    | none => (false, w)
  | .close handle, w => (true, w.setHandle i handle none)
  | .processToken pid, w =>
    (if pid = twoProcesses.pid i then .token (twoProcesses.token i)
      else if w.phase (!i) = .dead then .missing else .token (twoProcesses.token (!i)), w)
  | .body _, w => ((), w)

theorem opens_openFreely (i : Bool) (w : World Bool Bool) (access : Access) :
    opens i w access (openFreely i w access).1 (openFreely i w access).2 := by
  cases access with
  | parent =>
    unfold openFreely
    rcases hfree : freeHandle w i with _ | h
    · exact rfl
    · exact ⟨handles_of_freeHandle hfree, rfl⟩
  | createNew =>
    unfold openFreely
    dsimp only
    split
    · rename_i h hfree hleaf hfile
      exact ⟨handles_of_freeHandle hfree, hleaf, 0, (0, 0, 0), hfile, rfl⟩
    · exact rfl
  | openExisting =>
    unfold openFreely
    dsimp only
    split
    · rename_i h f hfree hleaf
      split
      · rename_i file hfile
        split
        · exact rfl
        · rename_i hdeleted
          exact ⟨handles_of_freeHandle hfree, f, file, hleaf, hfile, Bool.eq_false_iff.2 hdeleted, rfl⟩
      · exact rfl
    · exact rfl

/-- Such a world answers as the machine allows. -/
theorem answers_obliging (guarded i : Bool) (o : Op) (w : World Bool Bool) :
    answers twoProcesses i o w (obliging guarded i o w).1 (obliging guarded i o w).2 := by
  cases o with
  | waitMutex =>
    simp only [obliging]
    split
    · next hnone => exact Or.inl ⟨Or.inl rfl, hnone, rfl⟩
    · exact Or.inr (Or.inr ⟨Or.inl rfl, rfl⟩)
  | releaseMutex =>
    simp only [obliging]
    split
    · next hown => exact Or.inl ⟨rfl, Or.inl ⟨hown, rfl⟩⟩
    · exact Or.inr ⟨rfl, rfl⟩
  | closeMutex => exact Or.inl rfl
  | createFile access => exact opens_openFreely i w access
  | queryInfo handle =>
    simp only [obliging]
    split
    · next f file hat =>
      refine ⟨rfl, fun info f' file' hinfo hopens => ?_⟩
      obtain ⟨-, rfl⟩ := Prod.mk.inj (Option.some.inj (hat.symm.trans (opens_of_fileAt.2 hopens)))
      exact Option.some.inj hinfo ▸ rfl
    · next hat =>
      exact ⟨rfl, fun info f' file' _ hopens => nomatch hat.symm.trans (opens_of_fileAt.2 hopens)⟩
  | readFile handle =>
    refine ⟨rfl, fun data hdata => ?_⟩
    obtain ⟨⟨f, file⟩, hat, rfl⟩ := Option.map_eq_some_iff.1 hdata
    exact ⟨f, file, opens_of_fileAt.1 hat, rfl⟩
  | writeFile handle data =>
    simp only [obliging]
    split
    · next f file hat =>
      refine Or.inl ⟨f, file, data.length, opens_of_fileAt.1 hat, le_rfl, Or.inl rfl, ?_⟩
      rw [List.take_length]
    · exact Or.inr ⟨rfl, rfl⟩
  | setDisposition handle =>
    simp only [obliging]
    split
    · next f file hat => exact Or.inl ⟨f, file, opens_of_fileAt.1 hat, rfl⟩
    · exact Or.inr ⟨rfl, rfl⟩
  | close handle => exact Or.inl rfl
  | processToken pid =>
    refine ⟨rfl, ?_⟩
    show TellsTruth twoProcesses w pid (if pid = twoProcesses.pid i then _ else if w.phase (!i) = .dead then _ else _)
    by_cases hpid : pid = twoProcesses.pid i
    · rw [if_pos hpid]
      rintro p hp -
      cases i <;> cases p <;> first | rfl | exact absurd (hp.trans hpid) (by decide)
    · have hother : ∀ p, twoProcesses.pid p = pid → p = !i := by
        rintro p rfl
        cases i <;> cases p <;> first | rfl | exact absurd rfl hpid
      rw [if_neg hpid]
      split
      · next hdead =>
        intro p hp halive
        rw [hother p hp, hdead] at halive
        cases halive
      · intro p hp _
        rw [hother p hp]
  | _ => exact rfl

theorem live_obliging {guarded i : Bool} (j : Bool) (o : Op) (w : World Bool Bool)
    (h : (lockers twoProcesses).live j w) : (lockers twoProcesses).live j (obliging guarded i o w).2 := by
  show (obliging guarded i o w).2.phase _ = _
  rw [phase_of_answers (answers_obliging guarded i o w)]
  exact h

/-- The configuration that a call of one thread comes to in such a world after so many
operations. -/
def afterCall (guarded i : Bool) (n : ℕ) (σ : LockConfig Bool Bool) : LockConfig Bool Bool :=
  let x := Machine.play (obliging guarded i) n (nextCall twoProcesses i none, σ.world)
  ⟨x.2, fun j => if j = i then x.1 else σ.prog j⟩

theorem reaches_afterCall (guarded i : Bool) (n : ℕ) {σ : LockConfig Bool Bool}
    (hlive : Live twoProcesses i σ.world) (hidle : σ.prog i = .ret none) :
    (lockers twoProcesses).Reaches (nextCall twoProcesses) σ (afterCall guarded i n σ) := by
  have hreach := Machine.reaches_call (lockers twoProcesses) (nextCall twoProcesses)
    (fun o w _ => answers_obliging guarded i o w) (fun o w => live_obliging i o w) n hlive hidle
  refine Eq.mp (congrArg _ (congrArg (Config.mk _) (funext fun j => ?_))) hreach
  by_cases hj : j = i
  · subst hj
    rw [Machine.update_same]
    exact (if_pos rfl).symm
  · rw [Machine.update_other _ hj]
    exact (if_neg hj).symm

theorem phase_afterCall (guarded i : Bool) (n : ℕ) (σ : LockConfig Bool Bool) :
    (afterCall guarded i n σ).world.phase = σ.world.phase :=
  Machine.play_keeps (A := fun w : World Bool Bool => w.phase = σ.world.phase)
    (fun o _ h => (phase_of_answers (answers_obliging guarded i o _)).trans h) n rfl

theorem prog_afterCall (guarded : Bool) {i j : Bool} (hne : j ≠ i) (n : ℕ) (σ : LockConfig Bool Bool) :
    (afterCall guarded i n σ).prog j = σ.prog j := if_neg hne

/-- A call of one thread after one of the other. -/
theorem reaches_afterCall_afterCall (guarded guarded' i : Bool) (n n' : ℕ) {σ : LockConfig Bool Bool}
    (hlive : ∀ p, σ.world.phase p = .alive) (hidle : ∀ j, σ.prog j = .ret none) :
    (lockers twoProcesses).Reaches (nextCall twoProcesses) σ (afterCall guarded' (!i) n' (afterCall guarded i n σ)) := by
  refine (reaches_afterCall guarded i n (hlive i) (hidle i)).trans (reaches_afterCall guarded' (!i) n' ?_ ?_)
  · exact (congrFun (phase_afterCall guarded i n σ) _).trans (hlive _)
  · rw [prog_afterCall guarded (Bool.not_ne_self i)]
    exact hidle _

def idle : LockConfig Bool Bool := ⟨World.clean, fun _ => .ret none⟩

theorem initial_idle : Initial idle :=
  ⟨rfl, rfl, fun _ => rfl, fun _ _ => rfl, fun _ => ⟨none, rfl⟩⟩

/-- One process is inside by the marker. -/
def markerHeld : LockConfig Bool Bool := afterCall false true 12 idle

/-- Another wants it, has opened the marker and read it, and is about to ask for its owner. -/
def contending : LockConfig Bool Bool := afterCall false false 11 markerHeld

theorem reachable_contending : Reachable twoProcesses contending :=
  ⟨idle, initial_idle, reaches_afterCall_afterCall false false true 12 11 (fun _ => rfl) fun _ => rfl⟩

/-- The one that was inside gives its lease up and is about to delete the marker, and another that
wants it has opened the marker already. -/
def releasing : LockConfig Bool Bool := afterCall false false 10 (afterCall false true 18 idle)

theorem reachable_releasing : Reachable twoProcesses releasing :=
  ⟨idle, initial_idle, reaches_afterCall_afterCall false false true 18 10 (fun _ => rfl) fun _ => rfl⟩

theorem live_releasing (i : Bool) : Live twoProcesses i releasing.world := by
  rw [Live, releasing, phase_afterCall, phase_afterCall]
  rfl

theorem live_contending (i : Bool) : Live twoProcesses i contending.world := by
  rw [Live, contending, phase_afterCall, markerHeld, phase_afterCall]
  rfl

/-- The process that a program is about to ask for. -/
def asksFor {α : Type} : Locking α → Option ℕ
  | .op (.processToken pid) _ => some pid
  | _ => none

/-- The handle through which a program is about to delete a file. -/
def deletesBy {α : Type} : Locking α → Option ℕ
  | .op (.setDisposition handle) _ => some handle
  | _ => none

theorem eq_of_deletesBy {α : Type} {p : Locking α} {handle : ℕ} (h : deletesBy p = some handle) :
    ∃ k, p = .op (.setDisposition handle) k := by
  unfold deletesBy at h
  split at h
  · obtain rfl := Option.some.inj h
    exact ⟨_, rfl⟩
  · cases h

/-- While one process is inside and another is about to ask for the owner of the marker, no other
is inside; and while the other has the marker open, the one that deletes it is its creator. -/
theorem marker_exclusive_held :
    (Inside twoProcesses contending true .marker ∧ asksFor (contending.prog false) = some 1 ∧
        ∀ j, Inside twoProcesses contending j .marker → true = j) ∧
      deletesBy (releasing.prog true) = some 2 ∧ (fileAt releasing.world false 2).isSome = true ∧
        ∀ f file, releasing.world.Opens true 2 f file →
          file.creator = true ∨ releasing.world.phase (twoProcesses.proc file.creator) = .dead := by
  have hinside : Inside twoProcesses contending true .marker := ⟨live_contending true, by decide +kernel⟩
  have hdeletes : deletesBy (releasing.prog true) = some 2 := by decide +kernel
  obtain ⟨k, hprog⟩ := eq_of_deletesBy hdeletes
  exact ⟨⟨hinside, by decide +kernel, fun j hj => (marker_exclusive reachable_contending).1 true j hinside hj⟩,
    hdeletes, by decide +kernel, (marker_exclusive reachable_releasing).2 true 2 k (live_releasing true) hprog⟩

end Played

end ConfigLock

end YasbLimitora

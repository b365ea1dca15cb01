import Mathlib
import YasbLimitora.ConfigLock.Exclusion

/-!
# Two mechanisms of one lease

`config_lease` asks for a mutex and, where that cannot be had, falls back to a marker file. Each
of the two excludes by itself (`YasbLimitora.ConfigLock.Reachable.inside_unique`), but nothing
ties one to the other: a process that has the mutex creates no marker, and one that falls back
does not look at the mutex. Which of them a process goes by is decided by what its acquisition
of the mutex is answered, and by nothing else: `YasbLimitora.ConfigLock.until_configLease` says
that the body is performed by the marker only after an acquisition that failed.

A run is *unmixed* where these answers do not meet (`YasbLimitora.ConfigLock.Unmixed`): no
acquisition fails while another live thread has the mutex, and the mutex is granted to nobody
while another live thread is in a call that fell back. The answers are the environment's, so that
this is a condition on what processes may do beside each other and not on where they come to be.
In an unmixed run one thread at most is inside the body, in every configuration that it comes to
(`YasbLimitora.ConfigLock.run_exclusive`): nobody has the mutex while another has fallen back
(`YasbLimitora.ConfigLock.IsRun.apart`), which is what the induction over the run carries.

Without the condition there are two inside (`YasbLimitora.ConfigLock.lease_not_exclusive`).
-/

namespace YasbLimitora

namespace ConfigLock

variable {I P : Type} [DecidableEq I] {fleet : Fleet I P} {i j : I}

/-- One process at most is inside the body. -/
def Exclusive (fleet : Fleet I P) (σ : LockConfig I P) : Prop :=
  ∀ i j m m', Inside fleet σ i m → Inside fleet σ j m' → i = j

/-! ### Acquisitions -/

/-- The answers with which an acquisition of the mutex fails as `guard_acquisition_failed`: the
mutex is not created, or the wait for it fails. -/
def Refuses : (o : Op) → o.Resp → Prop
  | .createMutex, r => r = false
  | .waitMutex, r => r = .failed
  | _, _ => False

/-- The answers with which the mutex is had. -/
def Grants : (o : Op) → o.Resp → Prop
  | .waitMutex, r => r = .signaled ∨ r = .abandoned
  | _, _ => False

theorem until_acquireName :
    acquireName.Until Refuses (· ≠ .body .marker) (· ≠ .acquisitionFailed) := by
  refine ⟨nofun, fun created => ?_⟩
  rcases created with _ | _
  · exact Or.inl rfl
  refine Or.inr ⟨nofun, fun result => ?_⟩
  rcases result with _ | _ | _ | _
  · exact Or.inr nofun
  · exact Or.inr nofun
  · exact Or.inr ⟨nofun, fun _ => Or.inr nofun⟩
  · exact Or.inl rfl

theorem until_acquireGuard (rounds : ℕ) :
    (acquireGuard rounds).Until Refuses (· ≠ .body .marker) (· ≠ .acquisitionFailed) := by
  induction rounds with
  | zero => exact nofun
  | succ rounds ih =>
    refine until_acquireName.bind fun acquired hacquired => ?_
    rcases acquired with _ | _ | _
    · exact nofun
    · exact ⟨nofun, fun (usable : ℤ) => Or.inr (.ite nofun ih)⟩
    · exact absurd rfl hacquired

theorem performs_anyOf {P : Op → Prop} {o : Locking Bool} (ho : o.Performs P) (tries : ℕ) :
    (anyOf o tries).Performs P := by
  induction tries with
  | zero => trivial
  | succ tries ih => exact ho.bind fun succeeded => .ite trivial ih

theorem performs_leaveGuard : leaveGuard.Performs (· ≠ .body .marker) := by
  refine (performs_anyOf (.perform nofun) _).bind fun released => ?_
  refine (performs_anyOf (.perform nofun) _).bind fun closed => ?_
  exact .ite (.ite trivial trivial) trivial

/-- **The body is performed by the marker only after an acquisition that failed.** -/
theorem until_configLease (ownPid : ℕ) :
    (configLease ownPid).Until Refuses (· ≠ .body .marker) fun _ => True := by
  refine ⟨nofun, fun (rounds : ℕ) => Or.inr ((until_acquireGuard (rounds + 1)).bind fun acquired hacquired => ?_)⟩
  rcases acquired with _ | _ | _
  · exact ⟨nofun, fun _ => Or.inr (.of_performs performs_leaveGuard)⟩
  · trivial
  · exact absurd rfl hacquired

omit [DecidableEq I] in
theorem until_nextCall (i : I) (a : Returned) :
    (nextCall fleet i a).Until Refuses (· ≠ .body .marker) fun _ => True :=
  (until_configLease _).bind fun _ _ => trivial

/-! ### Runs -/

/-- A run of so many steps, from an initial configuration. -/
structure IsRun (fleet : Fleet I P) (n : ℕ) (run : ℕ → LockConfig I P) : Prop where
  initial : Initial (run 0)
  step : ∀ k < n, (lockers fleet).Step (nextCall fleet) (run k) (run (k + 1))

variable {n k : ℕ} {run : ℕ → LockConfig I P}

theorem IsRun.reachable (h : IsRun fleet n run) {k : ℕ} (hk : k ≤ n) : Reachable fleet (run k) := by
  induction k with
  | zero => exact ⟨run 0, h.initial, .refl⟩
  | succ k ih => exact (ih (Nat.le_of_succ_le hk)).tail (h.step k hk)

/-- In step `k` of a run a live thread performs an operation that is answered so. -/
def Answered (fleet : Fleet I P) (run : ℕ → LockConfig I P) (k : ℕ) (i : I) (o : Op) (r : o.Resp) : Prop :=
  Live fleet i (run k).world ∧ answers fleet i o (run k).world r (run (k + 1)).world ∧
    ∃ c, (run k).prog i = .op o c ∧ (run (k + 1)).prog i = c r

/-- In step `k` the acquisition of a thread fails as `guard_acquisition_failed`. -/
def Refused (fleet : Fleet I P) (run : ℕ → LockConfig I P) (k : ℕ) (i : I) : Prop :=
  ∃ o r, Refuses o r ∧ Answered fleet run k i o r

/-- In step `k` a thread is granted the mutex. -/
def Granted (fleet : Fleet I P) (run : ℕ → LockConfig I P) (k : ℕ) (i : I) : Prop :=
  ∃ o r, Grants o r ∧ Answered fleet run k i o r

/-- A thread is in a call of `config_lease`. -/
def InCall (σ : LockConfig I P) (i : I) : Prop := ∃ o c, σ.prog i = .op o c

/-- Before step `k` a thread is in a call whose acquisition failed as `guard_acquisition_failed`. -/
def FallenBack (fleet : Fleet I P) (run : ℕ → LockConfig I P) (k : ℕ) (i : I) : Prop :=
  ∃ k₀ < k, Refused fleet run k₀ i ∧ ∀ k₁, k₀ < k₁ → k₁ ≤ k → InCall (run k₁) i

/-- **A step in which the two mechanisms do not meet**: no acquisition fails while another live
thread has the mutex, and the mutex is granted to none while another live thread is in a call
whose acquisition failed. -/
structure Unmixed (fleet : Fleet I P) (run : ℕ → LockConfig I P) (k : ℕ) : Prop where
  refused : ∀ i j, j ≠ i → Refused fleet run k i → Live fleet j (run k).world → ¬Owns j (run k).world
  granted : ∀ i j, j ≠ i → Granted fleet run k i → Live fleet j (run k).world → ¬FallenBack fleet run k j

/-! ### Steps -/

/-- **A step of a run** is an operation of one thread, the beginning of a call, or the world's own. -/
theorem IsRun.step_cases (h : IsRun fleet n run) (hk : k < n) :
    (∃ t o r, Answered fleet run k t o r ∧ (run (k + 1)).world.phase = (run k).world.phase ∧
        ∀ i, i ≠ t → (run (k + 1)).prog i = (run k).prog i) ∨
      (∃ t a, (run k).prog t = .ret a ∧ (run (k + 1)).prog t = nextCall fleet t a ∧
        (run (k + 1)).world = (run k).world ∧ ∀ i, i ≠ t → (run (k + 1)).prog i = (run k).prog i) ∨
      Passes fleet (run k).world (run (k + 1)).world ∧ (run (k + 1)).prog = (run k).prog := by
  have hstep := h.step k hk
  generalize hσ : run k = σ at hstep
  generalize hσ' : run (k + 1) = σ' at hstep
  cases hstep with
  | @perform t o c r w hlive hprog hanswers =>
    refine Or.inl ⟨t, o, r, ⟨?_, ?_, c, ?_, ?_⟩, phase_of_answers hanswers, fun i hne => ?_⟩
    · rw [hσ]
      exact hlive
    · rw [hσ, hσ']
      exact hanswers
    · rw [hσ, hprog]
    · rw [hσ']
      dsimp only
      rw [Machine.update_same]
    · dsimp only
      rw [Machine.update_other _ hne]
  | @begin t a hlive hprog =>
    refine Or.inr (Or.inl ⟨t, a, hprog, ?_, rfl, fun i hne => ?_⟩)
    · dsimp only
      rw [Machine.update_same]
    · dsimp only
      rw [Machine.update_other _ hne]
  | env henv => exact Or.inr (Or.inr ⟨henv, rfl⟩)

/-- A thread whose program stays performs nothing. -/
theorem Answered.prog_ne {o : Op} {r : o.Resp} (h : Answered fleet run k i o r) :
    (run (k + 1)).prog i ≠ (run k).prog i := by
  obtain ⟨-, -, c, hc, hr⟩ := h
  rw [hc, hr]
  exact Prog.next_ne r

/-- A thread that has fallen back had fallen back before, or its acquisition has failed just now. -/
theorem FallenBack.cases (h : FallenBack fleet run (k + 1) i) :
    FallenBack fleet run k i ∨ Refused fleet run k i := by
  obtain ⟨k₀, hk₀, hrefused, hcall⟩ := h
  rcases Nat.lt_succ_iff_lt_or_eq.1 hk₀ with hlt | rfl
  · exact Or.inl ⟨k₀, hlt, hrefused, fun k₁ h₁ h₂ => hcall k₁ h₁ (Nat.le_succ_of_le h₂)⟩
  · exact Or.inr hrefused

theorem FallenBack.inCall (h : FallenBack fleet run k i) : InCall (run k) i := by
  obtain ⟨k₀, hk₀, -, hcall⟩ := h
  exact hcall k hk₀ le_rfl

/-- Who has fallen back stays so until the call ends. -/
theorem FallenBack.succ (h : FallenBack fleet run k i) (hcall : InCall (run (k + 1)) i) :
    FallenBack fleet run (k + 1) i := by
  obtain ⟨k₀, hk₀, hrefused, hall⟩ := h
  refine ⟨k₀, hk₀.trans (Nat.lt_succ_self k), hrefused, fun k₁ h₁ h₂ => ?_⟩
  rcases Nat.le_succ_iff.1 h₂ with hle | rfl
  · exact hall k₁ h₁ hle
  · exact hcall

/-- **Who has not fallen back** performs the body by the marker only after its acquisition fails. -/
theorem IsRun.undecided (h : IsRun fleet n run) (hk : k ≤ n) (i : I) :
    ((run k).prog i).Until Refuses (· ≠ .body .marker) (fun _ => True) ∨ FallenBack fleet run k i := by
  induction k with
  | zero =>
    obtain ⟨a, ha⟩ := h.initial.idle i
    rw [ha]
    exact Or.inl trivial
  | succ k ih =>
    have hreturned : ¬InCall (run (k + 1)) i →
        ((run (k + 1)).prog i).Until Refuses (· ≠ .body .marker) fun _ => True := by
      intro hcall
      rcases hprog : (run (k + 1)).prog i with a | ⟨o, c⟩
      · trivial
      · exact absurd ⟨o, c, hprog⟩ hcall
    have hstays : (run (k + 1)).prog i = (run k).prog i →
        ((run (k + 1)).prog i).Until Refuses (· ≠ .body .marker) (fun _ => True) ∨
          FallenBack fleet run (k + 1) i := by
      intro hsame
      refine (ih (Nat.le_of_succ_le hk)).imp (fun huntil => ?_) fun hback => hback.succ ?_
      · rw [hsame]
        exact huntil
      · obtain ⟨o, c, hprog⟩ := hback.inCall
        exact ⟨o, c, hsame.trans hprog⟩
    rcases h.step_cases hk with ⟨t, o, r, hanswered, -, hothers⟩ | ⟨t, a, -, hbegun, -, hothers⟩ | ⟨-, hsame⟩
    · rcases eq_or_ne i t with rfl | hne
      · by_cases hcall : InCall (run (k + 1)) i
        · obtain ⟨-, -, c, hc, hr⟩ := id hanswered
          rcases ih (Nat.le_of_succ_le hk) with huntil | hback
          · rw [hc] at huntil
            rcases huntil.2 r with hrefuses | huntil
            · refine Or.inr ⟨k, Nat.lt_succ_self k, ⟨o, r, hrefuses, hanswered⟩, fun k₁ h₁ h₂ => ?_⟩
              rwa [le_antisymm h₂ h₁]
            · rw [hr]
              exact Or.inl huntil
          · exact Or.inr (hback.succ hcall)
        · exact Or.inl (hreturned hcall)
      · exact hstays (hothers i hne)
    · rcases eq_or_ne i t with rfl | hne
      · rw [hbegun]
        exact Or.inl (until_nextCall i a)
      · exact hstays (hothers i hne)
    · exact hstays (congrFun hsame i)

theorem IsRun.fallenBack_of_inside (h : IsRun fleet n run) (hk : k ≤ n)
    (hi : Inside fleet (run k) i .marker) : FallenBack fleet run k i := by
  obtain ⟨c, hc⟩ := eq_of_atBody hi.2
  refine (h.undecided hk i).resolve_left fun huntil => ?_
  rw [hc] at huntil
  exact huntil.1 rfl

/-! ### The mutex -/

/-- An operation after which a thread has the mutex granted it, if the thread had it not. -/
theorem owns_of_answers {o : Op} {w w' : World I P} {r : o.Resp} {t : I} (h : answers fleet t o w r w')
    (hi : Owns i w') : Owns i w ∨ i = t ∧ Grants o r := by
  obtain ⟨m, hm⟩ := hi
  have hsame : w'.mutex = w.mutex → Owns i w ∨ i = t ∧ Grants o r := fun heq => Or.inl ⟨m, heq ▸ hm⟩
  cases o with
  | waitMutex =>
    rcases h with ⟨hr, -, rfl⟩ | ⟨rfl, n, hn, rfl⟩ | ⟨-, rfl⟩
    · exact Or.inr ⟨(Prod.mk.inj (Option.some.inj hm)).1.symm, hr⟩
    · exact Or.inr ⟨(Prod.mk.inj (Option.some.inj hm)).1.symm, Or.inl rfl⟩
    · exact hsame rfl
  | releaseMutex =>
    rcases h with ⟨-, ⟨-, rfl⟩ | ⟨n, hn, rfl⟩⟩ | ⟨-, rfl⟩
    · cases hm
    · obtain ⟨rfl, -⟩ := Prod.mk.inj (Option.some.inj hm)
      exact Or.inl ⟨_, hn⟩
    · exact hsame rfl
  | closeMutex =>
    rcases h with rfl | ⟨-, rfl⟩
    · exact hsame rfl
    · cases hm
  | createFile access =>
    rcases r with _ | handle
    · obtain rfl : w' = w := by cases access <;> exact h
      exact hsame rfl
    · cases access with
      | parent =>
        obtain ⟨-, rfl⟩ := h
        exact hsame rfl
      | createNew =>
        obtain ⟨-, -, f, identity, -, rfl⟩ := h
        exact hsame rfl
      | openExisting =>
        obtain ⟨-, f, file, -, -, -, rfl⟩ := h
        exact hsame rfl
  | writeFile handle data =>
    rcases h with ⟨f, file, n, -, -, -, rfl⟩ | ⟨-, rfl⟩
    · exact hsame rfl
    · exact hsame rfl
  | setDisposition handle =>
    rcases h with ⟨f, file, -, rfl⟩ | ⟨-, rfl⟩
    · exact hsame rfl
    · exact hsame rfl
  | close handle =>
    rcases h with rfl | ⟨-, rfl⟩
    · exact hsame rfl
    · exact hsame rfl
  | queryInfo handle => exact hsame (congrArg World.mutex h.1)
  | readFile handle => exact hsame (congrArg World.mutex h.1)
  | processToken pid => exact hsame (congrArg World.mutex h.1)
  | _ => exact hsame (congrArg World.mutex h)

/-- Who has the mutex was born. -/
theorem IsRun.owner_born (h : IsRun fleet n run) (hk : k ≤ n) (hi : Owns i (run k).world) :
    (run k).world.phase (fleet.proc i) ≠ .unborn := by
  induction k with
  | zero =>
    obtain ⟨m, hm⟩ := hi
    exact nomatch h.initial.mutex.symm.trans hm
  | succ k ih =>
    rcases h.step_cases hk with ⟨t, o, r, ⟨hlive, hanswers, -⟩, hphase, -⟩ | ⟨t, a, -, -, hworld, -⟩ | ⟨hpasses, -⟩
    · rw [hphase]
      rcases owns_of_answers hanswers hi with howned | ⟨rfl, -⟩
      · exact ih (Nat.le_of_succ_le hk) howned
      · exact fun hunborn => nomatch hlive.symm.trans hunborn
    · rw [hworld] at hi ⊢
      exact ih (Nat.le_of_succ_le hk) hi
    · refine (hpasses.ages _).ne_unborn (ih (Nat.le_of_succ_le hk) ?_)
      obtain ⟨m, hm⟩ := hi
      rcases hpasses.mutex with hsame | ⟨hnone, -⟩
      · exact ⟨m, hsame.symm.trans hm⟩
      · exact nomatch hnone.symm.trans hm

omit [DecidableEq I] in
/-- Who lives after the world has passed, and was born before, lived before. -/
theorem live_of_passes {w w' : World I P} (h : Passes fleet w w') (hborn : w.phase (fleet.proc i) ≠ .unborn)
    (hlive : Live fleet i w') : Live fleet i w := by
  have hages := h.ages (fleet.proc i)
  have hlive : w'.phase (fleet.proc i) = .alive := hlive
  rcases hphase : w.phase (fleet.proc i) with _ | _ | _
  · exact absurd hphase hborn
  · exact hphase
  · exact absurd (hlive.symm.trans (hages.dead hphase)) nofun

/-- **In an unmixed run nobody has the mutex while another has fallen back.** -/
theorem IsRun.apart (h : IsRun fleet n run) (hunmixed : ∀ k < n, Unmixed fleet run k) (hk : k ≤ n) (hne : j ≠ i)
    (hi : Live fleet i (run k).world) (hj : Live fleet j (run k).world) (howns : Owns i (run k).world) :
    ¬FallenBack fleet run k j := by
  induction k with
  | zero =>
    rintro ⟨k₀, hk₀, -⟩
    exact absurd hk₀ (Nat.not_lt_zero k₀)
  | succ k ih =>
    have hk' : k ≤ n := Nat.le_of_succ_le hk
    intro hback
    rcases h.step_cases hk with
      ⟨t, o, r, hanswered, hphase, hothers⟩ | ⟨t, a, hreturned, -, hworld, hothers⟩ | ⟨hpasses, hsame⟩
    · have hi' : Live fleet i (run k).world := (congrFun hphase _).symm.trans hi
      have hj' : Live fleet j (run k).world := (congrFun hphase _).symm.trans hj
      rcases owns_of_answers hanswered.2.1 howns with howned | ⟨rfl, hgrants⟩
      · -- it had the mutex before: the other has not been refused now, either
        rcases hback.cases with hback | hrefused
        · exact ih hk' hi' hj' howned hback
        · exact (hunmixed k hk).refused j i (Ne.symm hne) hrefused hi' howned
      · -- it is granted the mutex now: the other has performed nothing
        rcases hback.cases with hback | ⟨o', r', -, hanswered'⟩
        · exact (hunmixed k hk).granted i j hne ⟨o, r, hgrants, hanswered⟩ hj' hback
        · exact hanswered'.prog_ne (hothers j hne)
    · rw [hworld] at hi hj howns
      rcases hback.cases with hback | ⟨o', r', -, hanswered'⟩
      · exact ih hk' hi hj howns hback
      · rcases eq_or_ne j t with rfl | hjt
        · obtain ⟨-, -, c, hc, -⟩ := hanswered'
          exact nomatch hreturned.symm.trans hc
        · exact hanswered'.prog_ne (hothers j hjt)
    · rcases hback.cases with hback | ⟨o', r', -, hanswered'⟩
      · obtain ⟨m, hm⟩ := howns
        have howned : Owns i (run k).world := by
          rcases hpasses.mutex with hsame | ⟨hnone, -⟩
          · exact ⟨m, hsame.symm.trans hm⟩
          · exact nomatch hnone.symm.trans hm
        obtain ⟨o, c, hprog⟩ := hback.inCall
        have hi' := live_of_passes hpasses (h.owner_born hk' howned) hi
        have hj' := live_of_passes hpasses ((h.reachable hk').born hprog) hj
        exact ih hk' hi' hj' howned hback
      · exact hanswered'.prog_ne (congrFun hsame j)

/-- **An unmixed run keeps to one process inside the body**: where no acquisition of the mutex
fails while another live process has it, and it is granted to none while another live one is in
a call whose acquisition failed, there is one at most in every configuration of the run. -/
theorem run_exclusive (h : IsRun fleet n run) (hunmixed : ∀ k < n, Unmixed fleet run k) :
    ∀ k ≤ n, Exclusive fleet (run k) := by
  intro k hk i j m m' hi hj
  by_contra hne
  have hreach := h.reachable hk
  have howns : ∀ i, Inside fleet (run k) i .guard → Owns i (run k).world := fun i hi => hreach.condition_of_inside hi
  cases m with
  | guard =>
    cases m' with
    | guard => exact hne (hreach.inside_unique hi hj)
    | marker => exact h.apart hunmixed hk (Ne.symm hne) hi.1 hj.1 (howns i hi) (h.fallenBack_of_inside hk hj)
  | marker =>
    cases m' with
    | guard => exact h.apart hunmixed hk hne hj.1 hi.1 (howns j hj) (h.fallenBack_of_inside hk hi)
    | marker => exact hne (hreach.inside_unique hi hj)

/-! ### Runs that are played -/

section Played

/-- A program that has returned. -/
def returned {α : Type} : Locking α → Bool
  | .ret _ => true
  | _ => false

/-- A program that is about to be answered about the mutex. -/
def asksMutex {α : Type} : Locking α → Bool
  | .op .createMutex _ => true
  | .op .waitMutex _ => true
  | _ => false

theorem asksMutex_of_refuses {α : Type} {o : Op} {r : o.Resp} (h : Refuses o r) (c : o.Resp → Locking α) :
    asksMutex (.op o c) = true := by
  cases o with
  | createMutex => rfl
  | waitMutex => rfl
  | _ => exact h.elim

theorem asksMutex_of_grants {α : Type} {o : Op} {r : o.Resp} (h : Grants o r) (c : o.Resp → Locking α) :
    asksMutex (.op o c) = true := by
  cases o with
  | waitMutex => rfl
  | _ => exact h.elim

/-- A step in which the mutex is free, and the other thread idle, when one is answered about it. -/
theorem unmixed_of_asksMutex {run : ℕ → LockConfig Bool Bool} {k : ℕ}
    (h : ∀ i, asksMutex ((run k).prog i) = true → (run k).world.mutex = none ∧ returned ((run k).prog (!i)) = true) :
    Unmixed twoProcesses run k where
  refused i j hne := by
    rintro ⟨o, r, hrefuses, -, -, c, hc, -⟩ - ⟨m, hm⟩
    have hfree := (h i (by rw [hc]; exact asksMutex_of_refuses hrefuses c)).1
    exact nomatch hfree.symm.trans hm
  granted i j hne := by
    rintro ⟨o, r, hgrants, -, -, c, hc, -⟩ - hback
    obtain ⟨o', c', hprog⟩ := hback.inCall
    have hidle := (h i (by rw [hc]; exact asksMutex_of_grants hgrants c)).2
    rw [← Bool.eq_not.2 hne, hprog] at hidle
    cases hidle

/-- The program of one thread is changed: it is that program, and the others are as they were. -/
theorem config_update (w : World Bool Bool) (prog : Bool → Locking Returned) {i : Bool} {p : Locking Returned} :
    (⟨w, @Function.update Bool (fun _ => Locking Returned) (fun i j => Classical.propDecidable (i = j)) prog i p⟩ :
        LockConfig Bool Bool) = ⟨w, fun j => if j = i then p else prog j⟩ := by
  refine congrArg (Config.mk w) (funext fun j => ?_)
  rcases eq_or_ne j i with rfl | hj
  · rw [Machine.update_same]
    exact (if_pos rfl).symm
  · rw [Machine.update_other _ hj]
    exact (if_neg hj).symm

/-- A call of one thread begins. -/
theorem step_begin (guarded i : Bool) {σ : LockConfig Bool Bool} (hlive : Live twoProcesses i σ.world)
    (hidle : σ.prog i = .ret none) :
    (lockers twoProcesses).Step (nextCall twoProcesses) σ (afterCall guarded i 0 σ) := by
  have hstep : (lockers twoProcesses).Step (nextCall twoProcesses) σ _ := Machine.Step.begin hlive hidle
  exact Eq.mp (congrArg _ (config_update σ.world σ.prog)) hstep

/-- **The steps of a call** of one thread. -/
theorem step_afterCall (guarded i : Bool) {σ : LockConfig Bool Bool} (hlive : Live twoProcesses i σ.world) {n : ℕ}
    (hcall : returned ((afterCall guarded i n σ).prog i) = false) :
    (lockers twoProcesses).Step (nextCall twoProcesses) (afterCall guarded i n σ) (afterCall guarded i (n + 1) σ) := by
  have hlive' : Live twoProcesses i (afterCall guarded i n σ).world :=
    (congrFun (phase_afterCall guarded i n σ) _).trans hlive
  obtain ⟨p, w, hplay⟩ : ∃ p w, Machine.play (obliging guarded i) n (nextCall twoProcesses i none, σ.world) = (p, w) :=
    ⟨_, _, rfl⟩
  have hσ : afterCall guarded i n σ = ⟨w, fun j => if j = i then p else σ.prog j⟩ := by
    rw [afterCall, hplay]
  have hσ' : afterCall guarded i (n + 1) σ = ⟨(Machine.play (obliging guarded i) 1 (p, w)).2,
      fun j => if j = i then (Machine.play (obliging guarded i) 1 (p, w)).1 else σ.prog j⟩ := by
    rw [afterCall, Machine.play_succ, hplay]
  rw [hσ] at hcall hlive' ⊢
  rw [hσ']
  rcases p with a | ⟨o, c⟩
  · simp [returned] at hcall
  · have hprog : (fun j => if j = i then Prog.op o c else σ.prog j) i = .op o c := if_pos rfl
    have hstep : (lockers twoProcesses).Step (nextCall twoProcesses) _ _ :=
      Machine.Step.perform hlive' hprog (answers_obliging guarded i o w)
    refine Eq.mp (congrArg _ ((config_update _ _).trans (congrArg (Config.mk _) (funext fun j => ?_)))) hstep
    by_cases hj : j = i
    · exact (if_pos hj).trans (if_pos hj).symm
    · exact ((if_neg hj).trans (if_neg hj)).trans (if_neg hj).symm

/-- One process takes the mutex, performs the body and gives it up; then another, whose acquisition
fails, performs the body by the marker. -/
def oneByOne : ℕ → LockConfig Bool Bool
  | 0 => idle
  | 1 => afterCall true true 0 idle
  | 2 => afterCall true true 1 idle
  | 3 => afterCall true true 2 idle
  | 4 => afterCall true true 3 idle
  | 5 => afterCall true true 4 idle
  | 6 => afterCall true true 5 idle
  | 7 => afterCall true true 6 idle
  | n + 8 => afterCall false false n (afterCall true true 6 idle)

theorem asksMutex_oneByOne : ∀ k < 20, ∀ i, asksMutex ((oneByOne k).prog i) = true →
    (oneByOne k).world.mutex = none ∧ returned ((oneByOne k).prog (!i)) = true := by
  decide +kernel

theorem inCall_oneByOne : (∀ n < 6, returned ((afterCall true true n idle).prog true) = false) ∧
    ∀ n < 12, returned ((afterCall false false n (afterCall true true 6 idle)).prog false) = false := by
  decide +kernel

theorem isRun_oneByOne : IsRun twoProcesses 20 oneByOne where
  initial := initial_idle
  step k hk := by
    have hlive : ∀ i, Live twoProcesses i (afterCall true true 6 idle).world := by
      intro i
      rw [Live, phase_afterCall]
      rfl
    have hguard : ∀ n < 6, (lockers twoProcesses).Step (nextCall twoProcesses) (afterCall true true n idle)
        (afterCall true true (n + 1) idle) :=
      fun n hn => step_afterCall true true (show Live twoProcesses true idle.world from rfl) (inCall_oneByOne.1 n hn)
    have hmarker : ∀ n < 12, (lockers twoProcesses).Step (nextCall twoProcesses)
        (afterCall false false n (afterCall true true 6 idle)) (afterCall false false (n + 1) (afterCall true true 6 idle)) :=
      fun n hn => step_afterCall false false (hlive false) (inCall_oneByOne.2 n hn)
    rcases lt_or_ge k 8 with hlt | hge
    · interval_cases k
      · exact step_begin true true (show Live twoProcesses true idle.world from rfl) rfl
      · exact hguard 0 (by decide)
      · exact hguard 1 (by decide)
      · exact hguard 2 (by decide)
      · exact hguard 3 (by decide)
      · exact hguard 4 (by decide)
      · exact hguard 5 (by decide)
      · exact step_begin false false (hlive false) (prog_afterCall true Bool.false_ne_true 6 idle)
    · obtain ⟨n, rfl⟩ := Nat.exists_eq_add_of_le' hge
      exact hmarker n (by omega)

/-- Each of two processes is inside for a time, one by the mutex and then the other by the marker,
and they are not at the same. -/
theorem run_exclusive_oneByOne : IsRun twoProcesses 20 oneByOne ∧ Inside twoProcesses (oneByOne 4) true .guard ∧
    Inside twoProcesses (oneByOne 20) false .marker ∧ ∀ k ≤ 20, Exclusive twoProcesses (oneByOne k) := by
  have hguard : Inside twoProcesses (oneByOne 4) true .guard := by
    refine ⟨?_, by decide +kernel⟩
    exact (congrFun (phase_afterCall true true 3 idle) true).trans rfl
  have hmarker : Inside twoProcesses (oneByOne 20) false .marker := by
    refine ⟨?_, by decide +kernel⟩
    exact (congrFun (phase_afterCall false false 12 (afterCall true true 6 idle)) false).trans
      ((congrFun (phase_afterCall true true 6 idle) false).trans rfl)
  exact ⟨isRun_oneByOne, hguard, hmarker,
    run_exclusive isRun_oneByOne fun k hk => unmixed_of_asksMutex (asksMutex_oneByOne k hk)⟩

/-- One process has the mutex. -/
def mutexOwned : LockConfig Bool Bool := afterCall true true 3 idle

theorem live_mutexOwned (i : Bool) : Live twoProcesses i mutexOwned.world :=
  (congrFun (phase_afterCall true true 3 idle) i).trans rfl

/-- One process has the mutex, and another, which cannot get it, falls back to the marker. -/
def bothInside : LockConfig Bool Bool := afterCall false false 12 mutexOwned

theorem reachable_bothInside : Reachable twoProcesses bothInside :=
  ⟨idle, initial_idle, reaches_afterCall_afterCall true false true 3 12 (fun _ => rfl) fun _ => rfl⟩

theorem live_bothInside (i : Bool) : Live twoProcesses i bothInside.world :=
  (congrFun (phase_afterCall false false 12 mutexOwned) i).trans (live_mutexOwned i)

/-- **Two processes are inside** the body, by the mutex and by the marker. -/
theorem lease_not_exclusive : Reachable twoProcesses bothInside ∧
    Inside twoProcesses bothInside true .guard ∧ Inside twoProcesses bothInside false .marker ∧
    ¬Exclusive twoProcesses bothInside := by
  have hguard : Inside twoProcesses bothInside true .guard := ⟨live_bothInside true, by decide +kernel⟩
  have hmarker : Inside twoProcesses bothInside false .marker := ⟨live_bothInside false, by decide +kernel⟩
  exact ⟨reachable_bothInside, hguard, hmarker, fun hex => absurd (hex true false _ _ hguard hmarker) (by decide)⟩

end Played

end ConfigLock

end YasbLimitora

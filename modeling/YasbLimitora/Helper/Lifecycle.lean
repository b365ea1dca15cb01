import Mathlib
import YasbLimitora.Helper.Executor

/-!
# One supervisor at a time

The threads that share an executor keep to one contract: while a thread holds the executor
nobody else changes anything, and while nobody holds it the only supervisor that is not
closed is the pending one. From that come the properties of every reachable configuration
(`YasbLimitora.Executor.one_supervisor`), among them that a supervisor whose close has failed
is pending, or is about to be made so by the thread that holds the executor.

The contract is a pair of relations on the shared state, in the manner of rely and guarantee: what a
thread may assume of the others, and what it promises them in return. Every operation under the lock
is specified against it once, and a call is the sequence of its operations. The supervisor of a run
may refuse to be closed; then it is kept as the pending one, and no other is made until a retry has
closed it.
-/

namespace YasbLimitora

namespace Executor

variable {I : Type} {i : I}

/-! ### The contract -/

/-- The supervisors that are not closed are the pending one. -/
def World.Kept (w : World I) : Prop := ∀ s, w.Unclosed s ↔ w.lifecycle.pending = some s

/-- What holds of the world at all times. -/
structure WorldInv (w : World I) : Prop where
  idle : w.holder = none ↔ w.lifecycle.active = false ∧ w.lifecycle.retrying = false
  kept : w.holder = none → w.Kept
  unique : ∀ s t, w.Unclosed s → w.Unclosed t → s = t
  closing : ∀ j s, w.closing j = some s → w.holder = some j
  failed : ∀ s, w.failed s = true → w.Unclosed s
  fresh : ∀ s, w.created ≤ s → w.closed s = false

/-- What a thread relies on: nothing changes while it holds the executor, and nobody else
makes it hold the executor. -/
def Rely (i : I) (w w' : World I) : Prop :=
  (w.holder = some i → w' = w) ∧ (w.holder ≠ some i → w'.holder ≠ some i)

/-- A supervisor that could not be closed is pending. -/
def World.Settled (w : World I) : Prop := ∀ s, w.failed s = true → w.lifecycle.pending = some s

namespace WorldInv

variable {w : World I} {s : ℕ}

/-- Whatever is unclosed in a kept world is pending. -/
theorem settled (hinv : WorldInv w) (hkept : w.Kept) : w.Settled := fun s hs =>
  (hkept s).1 (hinv.failed s hs)

/-- A supervisor that is pending is kept. -/
theorem kept_of_unclosed (hinv : WorldInv w) (hs : w.Unclosed s)
    (hpending : w.lifecycle.pending = some s) : w.Kept := by
  intro t
  rw [hpending, Option.some.injEq]
  constructor
  · exact fun ht => hinv.unique s t hs ht
  · rintro rfl
    exact hs

/-- Nobody is in a call to close if who holds the executor is not. -/
theorem closing_eq_none (hinv : WorldInv w) (h : ∀ j, w.holder = some j → w.closing j = none) (j : I) :
    w.closing j = none := by
  rcases hj : w.closing j with _ | t
  · rfl
  · exact (hj.symm.trans (h j (hinv.closing j t hj)) : some t = none)

/-- A section keeps the invariant that leaves the executor idle or held. -/
theorem of_lifecycle (hinv : WorldInv w) {l : Lifecycle} {holder : Option I}
    (hidle : holder = none ↔ l.active = false ∧ l.retrying = false)
    (hkept : holder = none → World.Kept { w with lifecycle := l, holder := holder })
    (hclosing : ∀ j s, w.closing j = some s → holder = some j) :
    WorldInv { w with lifecycle := l, holder := holder } :=
  ⟨hidle, hkept, hinv.unique, hclosing, hinv.failed, hinv.fresh⟩

end WorldInv

variable [UnicodeData]

/-- The condition under which a thread performs an operation. Only one that is to make it
pending may find that a supervisor could not be closed, and is not. -/
def Condition (i : I) : Op → World I → Prop
  | .locked (.retain s), w => w.failed s = true
  | .create, w => w.holder = some i ∧ w.lifecycle = ⟨none, true, false⟩ ∧ w.closing i = none ∧ w.Kept
  | _, w => w.holder = some i → w.Settled

variable [DecidableEq I]

/-- The contract of the threads that share an executor. -/
def contract : Contract (threads (I := I)) where
  rely := Rely
  inv := WorldInv
  pre := Condition
  rely_refl _ _ := ⟨fun _ => rfl, fun h => h⟩
  rely_trans _ _ _ _ h h' :=
    ⟨fun hi => by rw [h'.1 (by rw [h.1 hi, hi]), h.1 hi], fun hi => h'.2 (h.2 hi)⟩
  env_sound _ _ h _ := h.elim

abbrev Spec (i : I) {α : Type} (A : World I → Prop) (p : Executing α) (Q : α → World I → Prop) : Prop :=
  contract.Triple i A p Q

namespace WorldInv

variable {w w' : World I}

/-- What a thread changes while it holds the executor is no change for the others. -/
theorem keeps_of_held (hinv : WorldInv w') (h : w.holder = some i)
    (h' : w'.holder = some i ∨ w'.holder = none) : contract.Keeps i w w' := by
  refine ⟨hinv, trivial, fun j hj => ⟨fun hheld => ?_, fun _ => ?_⟩⟩
  · exact absurd (Option.some.inj (hheld.symm.trans h)) hj
  · rcases h' with h' | h'
    · rw [h']
      exact fun heq => hj (Option.some.inj heq).symm
    · rw [h']
      exact nofun

/-- An executor that nobody holds may be taken. -/
theorem keeps_of_free (hinv : WorldInv w') (h : w.holder = none) (h' : w'.holder = some i) :
    contract.Keeps i w w' := by
  refine ⟨hinv, trivial, fun j hj => ⟨fun hheld => ?_, fun _ => ?_⟩⟩
  · exact nomatch h.symm.trans hheld
  · rw [h']
    exact fun heq => hj (Option.some.inj heq).symm

theorem keeps_refl (hinv : WorldInv w) : contract.Keeps i w w :=
  ⟨hinv, trivial, fun j _ => contract.rely_refl j w⟩

end WorldInv

/-! ### Assertions -/

/-- A thread that does not hold the executor. -/
def Outside (i : I) (w : World I) : Prop := w.holder ≠ some i

/-- A thread holds the executor, whose fields are these, and is not in a call to close. -/
structure Holds (i : I) (l : Lifecycle) (w : World I) : Prop where
  holder : w.holder = some i
  lifecycle : w.lifecycle = l
  notClosing : w.closing i = none

/-- A retry of a supervisor. -/
def Retrying (i : I) (s : ℕ) (w : World I) : Prop := Holds i ⟨some s, false, true⟩ w ∧ w.Kept

/-- A run that has no supervisor to close. -/
def Running (i : I) (pending : Option ℕ) (w : World I) : Prop := Holds i ⟨pending, true, false⟩ w ∧ w.Kept

/-- A supervisor that is yet to be closed. -/
def ToClose (i : I) (l : Lifecycle) (s : ℕ) (w : World I) : Prop :=
  Holds i l w ∧ w.Unclosed s ∧ w.Settled

/-- What a call to close leaves. -/
def AfterClose (i : I) (l : Lifecycle) (s : ℕ) (returned : Bool) (w : World I) : Prop :=
  Holds i l w ∧ if returned then ∀ t, ¬w.Unclosed t else w.failed s = true

/-- To be outside the lock is for a thread itself to change. -/
theorem stable_outside : contract.Stable i (Outside i) := fun _ _ hrely _ _ _ _ h => hrely.2 h

/-- While a thread holds the executor nothing that it knows changes. -/
theorem stable_held {A : World I → Prop} (hA : ∀ w, A w → w.holder = some i) : contract.Stable i A :=
  fun w w' hrely _ _ _ _ h => by
    rw [hrely.1 (hA w h)]
    exact h

theorem stable_holds {l : Lifecycle} {A : World I → Prop} :
    contract.Stable i fun w => Holds i l w ∧ A w := stable_held fun _ h => h.1.holder

/-! ### Operations -/

/-- An operation that changes nothing. -/
def Op.Quiet : Op → Prop
  | .locked _ | .create | .beginClose _ _ | .endClose _ => False
  | _ => True

/-- A quiet operation of the holder leaves the record of the executor alone. -/
theorem spec_quiet {A : World I → Prop} {o : Op} (ho : o.Quiet) (hA : contract.Stable i A)
    (hsettled : ∀ w, WorldInv w → A w → w.holder = some i → w.Settled) :
    Spec i A (perform o) fun _ => A := by
  refine .perform hA (fun w hinv _ hw => ?_) fun w r w' hinv _ hw h => ?_
  · cases o with
    | locked | create | beginClose | endClose => exact ho.elim
    | _ => exact hsettled w hinv hw
  · have hsame : w' = w := by
      cases o with
      | locked | create | beginClose | endClose => exact ho.elim
      | _ => exact h
    rw [hsame]
    exact ⟨hinv.keeps_refl, hw⟩

/-- What a retry finds pending is its to close. -/
def FoundBy (i : I) : Found → World I → Prop
  | .owner s => Retrying i s
  | _ => Outside i

/-- Entering `retry` finds a pending supervisor, or nothing to do. -/
theorem spec_enterRetry : Spec i (Outside i) (perform (.locked .enterRetry)) (FoundBy i) := by
  refine .perform stable_outside (fun w _ _ hw h => absurd h hw) fun w r w' hinv _ hw h => ?_
  obtain ⟨rfl, rfl⟩ := h
  obtain ⟨⟨pending, active, retrying⟩, holder, created, closed, failed, closing⟩ := w
  rcases pending with _ | s
  · exact ⟨hinv.keeps_refl, hw⟩
  by_cases hbusy : active = true ∨ retrying = true
  · simp only [World.locked, Section.run, if_pos hbusy]
    exact ⟨hinv.keeps_refl, hw⟩
  · obtain ⟨hactive, hretrying⟩ := not_or.1 hbusy
    obtain rfl := Bool.eq_false_iff.2 hactive
    obtain rfl : holder = none := hinv.idle.2 ⟨rfl, Bool.eq_false_iff.2 hretrying⟩
    have hnone : ∀ j, closing j = none := hinv.closing_eq_none nofun
    have hinv' : WorldInv (⟨⟨some s, false, true⟩, some i, created, closed, failed, closing⟩ : World I) :=
      hinv.of_lifecycle (by simp) nofun fun j t hj => nomatch (hnone j).symm.trans hj
    simp only [World.locked, Section.run, if_neg hbusy]
    exact ⟨hinv'.keeps_of_free rfl rfl, ⟨rfl, rfl, hnone i⟩, hinv.kept rfl⟩

/-- An executor is taken for a run where nobody holds it, and nothing is pending. -/
def Entered (i : I) (entered : Bool) : World I → Prop :=
  if entered then Running i none else Outside i

/-- Entering `run` marks the executor as busy. -/
theorem spec_enterRun : Spec i (Outside i) (perform (.locked .enterRun)) (Entered i) := by
  refine .perform stable_outside (fun w _ _ hw h => absurd h hw) fun w r w' hinv _ hw h => ?_
  obtain ⟨rfl, rfl⟩ := h
  obtain ⟨⟨pending, active, retrying⟩, holder, created, closed, failed, closing⟩ := w
  by_cases hbusy : pending ≠ none ∨ active = true ∨ retrying = true
  · simp only [World.locked, Section.run, if_pos hbusy]
    exact ⟨hinv.keeps_refl, hw⟩
  · obtain ⟨hpending, hbusy'⟩ := not_or.1 hbusy
    obtain ⟨hactive, hretrying⟩ := not_or.1 hbusy'
    obtain rfl := not_not.1 hpending
    obtain rfl := Bool.eq_false_iff.2 hretrying
    obtain rfl : holder = none := hinv.idle.2 ⟨Bool.eq_false_iff.2 hactive, rfl⟩
    have hnone : ∀ j, closing j = none := hinv.closing_eq_none nofun
    have hinv' : WorldInv (⟨⟨none, true, false⟩, some i, created, closed, failed, closing⟩ : World I) :=
      hinv.of_lifecycle (by simp) nofun fun j t hj => nomatch (hnone j).symm.trans hj
    simp only [World.locked, Section.run, if_neg hbusy]
    exact ⟨hinv'.keeps_of_free rfl rfl, ⟨rfl, rfl, hnone i⟩, hinv.kept rfl⟩

/-- A section by which a thread gives the executor up. -/
theorem keeps_leave {l : Lifecycle} (l' : Lifecycle) {w : World I} (hinv : WorldInv w) (hw : Holds i l w)
    (hidle : l'.active = false ∧ l'.retrying = false)
    (hkept : World.Kept { w with lifecycle := l' }) :
    contract.Keeps i w { w with lifecycle := l', holder := none } ∧
      Outside i { w with lifecycle := l', holder := none } := by
  have hnone : ∀ j, w.closing j = none := hinv.closing_eq_none fun j hj => by
    obtain rfl := Option.some.inj (hw.holder.symm.trans hj)
    exact hw.notClosing
  have hinv' : WorldInv { w with lifecycle := l', holder := none } :=
    hinv.of_lifecycle (iff_of_true rfl hidle) (fun _ => hkept) fun j t hj =>
      nomatch (hnone j).symm.trans hj
  exact ⟨hinv'.keeps_of_held hw.holder (Or.inr rfl), nofun⟩

/-- Leaving `retry` gives the record back. -/
theorem spec_leaveRetry {s : ℕ} :
    Spec i (Retrying i s) (perform (.locked .leaveRetry)) fun _ => Outside i := by
  refine .perform stable_holds (fun w hinv _ hw _ => hinv.settled hw.2) fun w r w' hinv _ hw h => ?_
  obtain ⟨rfl, rfl⟩ := h
  obtain ⟨hholds, hkept⟩ := hw
  have hleave := keeps_leave ⟨some s, false, false⟩ hinv hholds ⟨rfl, rfl⟩ fun t => by
    rw [← (congrArg Lifecycle.pending hholds.lifecycle : w.lifecycle.pending = some s)]
    exact hkept t
  unfold World.locked
  rw [hholds.lifecycle]
  exact hleave

/-- The end of a run gives the record back with what is pending. -/
theorem spec_endRun {pending : Option ℕ} :
    Spec i (Running i pending) (perform (.locked .endRun)) fun _ => Outside i := by
  refine .perform stable_holds (fun w hinv _ hw _ => hinv.settled hw.2) fun w r w' hinv _ hw h => ?_
  obtain ⟨rfl, rfl⟩ := h
  obtain ⟨hholds, hkept⟩ := hw
  have hleave := keeps_leave ⟨pending, false, false⟩ hinv hholds ⟨rfl, rfl⟩ fun t => by
    rw [← (congrArg Lifecycle.pending hholds.lifecycle : w.lifecycle.pending = pending)]
    exact hkept t
  unfold World.locked
  rw [hholds.lifecycle]
  exact hleave

/-- The end of a retry whose supervisor was closed. -/
theorem spec_endRetry {s : ℕ} :
    Spec i (AfterClose i ⟨some s, false, true⟩ s true) (perform (.locked (.endRetry s)))
      fun _ => Outside i := by
  refine .perform stable_holds (fun w hinv _ hw _ t ht => absurd (hinv.failed t ht) (hw.2 t))
    fun w r w' hinv _ hw h => ?_
  obtain ⟨rfl, rfl⟩ := h
  obtain ⟨hholds, hnone⟩ := hw
  have hleave := keeps_leave ⟨none, false, false⟩ hinv hholds ⟨rfl, rfl⟩ fun t =>
    iff_of_false (hnone t) nofun
  unfold World.locked
  rw [hholds.lifecycle]
  simp only [Section.run, if_pos]
  exact hleave

/-- A supervisor is created by a run, or not. -/
def Created (i : I) : Except Raised ℕ → World I → Prop
  | .error _ => Running i none
  | .ok s => ToClose i ⟨none, true, false⟩ s

/-- A new supervisor is made while none is unclosed. -/
theorem spec_create : Spec i (Running i none) (perform .create) (Created i) := by
  refine .perform stable_holds (fun w _ _ hw => ?_) fun w r w' hinv _ hw h => ?_
  · exact ⟨hw.1.holder, hw.1.lifecycle, hw.1.notClosing, hw.2⟩
  rcases h with ⟨⟨e, rfl⟩, rfl⟩ | ⟨rfl, rfl⟩
  · exact ⟨hinv.keeps_refl, hw⟩
  obtain ⟨hholds, hkept⟩ := hw
  have hpending : w.lifecycle.pending = none := congrArg Lifecycle.pending hholds.lifecycle
  have hnone : ∀ t, ¬w.Unclosed t := fun t ht => nomatch hpending.symm.trans ((hkept t).1 ht)
  -- the new supervisor is the only one that is not closed
  have hnew : ∀ t, World.Unclosed { w with created := w.created + 1 } t → t = w.created :=
    fun t ⟨hlt, hclosed⟩ => by
      by_contra hne
      exact hnone t ⟨Nat.lt_of_le_of_ne (Nat.lt_succ_iff.1 hlt) hne, hclosed⟩
  have hinv' : WorldInv { w with created := w.created + 1 } :=
    { idle := hinv.idle
      kept := fun h => nomatch hholds.holder.symm.trans h
      unique := fun s t hs ht => (hnew s hs).trans (hnew t ht).symm
      closing := hinv.closing
      failed := fun t ht => absurd (hinv.failed t ht) (hnone t)
      fresh := fun t ht => hinv.fresh t (Nat.le_of_succ_le ht) }
  refine ⟨hinv'.keeps_of_held hholds.holder (Or.inl hholds.holder),
    ⟨hholds.holder, hholds.lifecycle, hholds.notClosing⟩, ?_, ?_⟩
  · exact ⟨Nat.lt_succ_self _, hinv.fresh _ le_rfl⟩
  · exact fun t ht => absurd (hinv.failed t ht) (hnone t)

/-- A thread is in a call to close. -/
structure Closing (i : I) (l : Lifecycle) (s : ℕ) (w : World I) : Prop where
  holder : w.holder = some i
  lifecycle : w.lifecycle = l
  closing : w.closing i = some s
  unclosed : w.Unclosed s
  settled : w.Settled

/-- A close is begun by the one who holds the supervisor. -/
theorem spec_beginClose {bound : Bound} {l : Lifecycle} {s : ℕ} :
    Spec i (ToClose i l s) (perform (.beginClose bound s)) fun _ => Closing i l s := by
  refine .perform stable_holds (fun w _ _ hw _ => hw.2.2) fun w r w' hinv _ hw h => ?_
  obtain rfl := h
  obtain ⟨hholds, hunclosed, hsettled⟩ := hw
  have hclosing : ∀ j t, Function.update w.closing i (some s) j = some t → w.holder = some j := by
    intro j t hj
    by_cases hij : j = i
    · rw [hij]
      exact hholds.holder
    · rw [Function.update_of_ne hij] at hj
      exact hinv.closing j t hj
  have hinv' : WorldInv { w with closing := Function.update w.closing i (some s) } :=
    ⟨hinv.idle, hinv.kept, hinv.unique, hclosing, hinv.failed, hinv.fresh⟩
  exact ⟨hinv'.keeps_of_held hholds.holder (Or.inl hholds.holder), hholds.holder, hholds.lifecycle,
    Function.update_self _ _ _, hunclosed, hsettled⟩

omit [UnicodeData] in
/-- What is not closed after a call to close was not before. -/
theorem unclosed_of_endClose {w : World I} {s t : ℕ} {returned : Bool}
    (h : (w.endClose i s returned).Unclosed t) : w.Unclosed t ∧ (returned = true → t ≠ s) := by
  obtain ⟨hlt, hclosed⟩ := h
  cases returned with
  | false => exact ⟨⟨hlt, hclosed⟩, nofun⟩
  | true =>
    have hne : t ≠ s := by
      rintro rfl
      exact nomatch hclosed.symm.trans (Function.update_self (β := fun _ => Bool) _ _ _)
    exact ⟨⟨hlt, (Function.update_of_ne hne _ _).symm.trans hclosed⟩, fun _ => hne⟩

omit [UnicodeData] in
/-- What could not be closed after a call to close is not closed. -/
theorem unclosed_of_failed {w : World I} {s t : ℕ} {returned : Bool} (hinv : WorldInv w)
    (hs : w.Unclosed s) (h : (w.endClose i s returned).failed t = true) :
    (w.endClose i s returned).Unclosed t := by
  by_cases hts : t = s
  · subst hts
    have hreturned : (!returned) = true := (Function.update_self _ _ _).symm.trans h
    obtain rfl : returned = false := by simpa using hreturned
    exact hs
  · have ht : w.Unclosed t := hinv.failed t ((Function.update_of_ne hts _ _).symm.trans h)
    cases returned with
    | false => exact ht
    | true => exact ⟨ht.1, (Function.update_of_ne hts _ _).trans ht.2⟩

/-- After it the supervisor is closed, or pending. -/
theorem spec_endClose {l : Lifecycle} {s : ℕ} :
    Spec i (Closing i l s) (perform (.endClose s)) (AfterClose i l s) := by
  refine .perform (stable_held fun w h => h.holder) (fun w _ _ hw _ => hw.settled)
    fun w r w' hinv _ hw h => ?_
  obtain rfl := h
  have hclosing : ∀ j t, Function.update w.closing i none j = some t → w.holder = some j := by
    intro j t hj
    by_cases hij : j = i
    · rw [hij]
      exact hw.holder
    · rw [Function.update_of_ne hij] at hj
      exact hinv.closing j t hj
  have hfresh : ∀ t, w.created ≤ t → (w.endClose i s r).closed t = false := by
    intro t ht
    cases r with
    | false => exact hinv.fresh t ht
    | true => exact (Function.update_of_ne (hw.unclosed.1.trans_le ht).ne' _ _).trans (hinv.fresh t ht)
  have hinv' : WorldInv (w.endClose i s r) :=
    { idle := hinv.idle
      kept := fun hidle => nomatch hw.holder.symm.trans hidle
      unique := fun t t' ht ht' =>
        hinv.unique t t' (unclosed_of_endClose ht).1 (unclosed_of_endClose ht').1
      closing := hclosing
      failed := fun t => unclosed_of_failed hinv hw.unclosed
      fresh := hfresh }
  refine ⟨hinv'.keeps_of_held hw.holder (Or.inl hw.holder), ⟨hw.holder, hw.lifecycle,
    Function.update_self _ _ _⟩, ?_⟩
  cases r with
  | true =>
    intro t ht
    obtain ⟨hbefore, hne⟩ := unclosed_of_endClose ht
    exact hne rfl (hinv.unique t s hbefore hw.unclosed)
  | false => exact Function.update_self _ _ _

/-- A supervisor that could not be closed is made pending. -/
theorem spec_retain {s : ℕ} :
    Spec i (AfterClose i ⟨none, true, false⟩ s false) (perform (.locked (.retain s)))
      fun _ => Running i (some s) := by
  refine .perform stable_holds (fun w _ _ hw => hw.2) fun w r w' hinv _ hw h => ?_
  obtain ⟨rfl, rfl⟩ := h
  obtain ⟨hholds, hfailed⟩ := hw
  have hheld : w.holder = none ↔ true = false ∧ false = false := by simp [hholds.holder]
  have hinv' : WorldInv { w with lifecycle := ⟨some s, true, false⟩, holder := w.holder } :=
    hinv.of_lifecycle hheld (fun h => nomatch hholds.holder.symm.trans h) hinv.closing
  unfold World.locked
  rw [hholds.lifecycle]
  exact ⟨hinv'.keeps_of_held hholds.holder (Or.inl hholds.holder),
    ⟨hholds.holder, rfl, hholds.notClosing⟩, hinv'.kept_of_unclosed (hinv.failed s hfailed) rfl⟩

/-! ### Calls -/

theorem spec_close {bound : Bound} {l : Lifecycle} {s : ℕ} :
    Spec i (ToClose i l s) (close bound s) (AfterClose i l s) :=
  .bind spec_beginClose fun _ => spec_endClose

theorem spec_retry {bound : Bound} : Spec i (Outside i) (retry bound) fun _ => Outside i := by
  refine .bind spec_enterRetry fun found => ?_
  cases found with
  | nothing => exact .ret fun _ _ _ h => h
  | busy => exact .ret fun _ _ _ h => h
  | owner s =>
    refine .bind (B := AfterClose i ⟨some s, false, true⟩ s) ?_ fun returned => ?_
    · exact spec_close.conseq (fun w hinv _ h =>
        ⟨h.1, (h.2 s).2 (congrArg Lifecycle.pending h.1.lifecycle), hinv.settled h.2⟩)
        fun _ _ _ _ h => h
    · cases returned with
      | true => exact spec_endRetry
      | false =>
        -- the supervisor is what it was: not closed, and pending
        refine .bind (spec_leaveRetry.conseq (fun w hinv _ h => ⟨h.1, ?_⟩) fun _ _ _ _ h => h) fun _ =>
          .ret fun _ _ _ h => h
        exact hinv.kept_of_unclosed (hinv.failed s h.2) (congrArg Lifecycle.pending h.1.lifecycle)

/-- What a run does between the creation of its supervisor and closing it. -/
theorem spec_use {l : Lifecycle} {s : ℕ} {o : Op} (ho : o.Quiet) :
    Spec i (ToClose i l s) (perform o) fun _ => ToClose i l s :=
  spec_quiet ho stable_holds fun _ _ h _ => h.2.2

/-- Whatever is exchanged, the supervisor is still to be closed. -/
theorem spec_exchange {bound : Bound} {l : Lifecycle} {s : ℕ} {data : Bytes} :
    Spec i (ToClose i l s) (exchange bound s data) fun _ => ToClose i l s := by
  refine .bind (spec_use trivial) fun written => ?_
  rcases written with e | u
  · exact .ret fun _ _ _ h => h
  refine .bind (spec_use trivial) fun response => ?_
  rcases response with e | view
  · exact .ret fun _ _ _ h => h
  · exact .ret fun _ _ _ h => h

/-- Both directions of the conversation together. -/
theorem spec_converse {bound : Bound} {l : Lifecycle} {s : ℕ} {runner : List Text} :
    Spec i (ToClose i l s) (converse bound s runner) fun _ => ToClose i l s := by
  refine .bind (spec_use trivial) fun acquired => ?_
  rcases acquired with e | u
  · exact .ret fun _ _ _ h => h
  refine .bind (spec_use trivial) fun nonce => ?_
  rcases nonce with e | nonce
  · exact .ret fun _ _ _ h => h
  · exact .ite (fun _ => .ret fun _ _ _ h => h) fun _ => spec_exchange

/-- A run that may be ended. -/
def AtRest (i : I) (w : World I) : Prop := ∃ pending, Running i pending w

/-- At the end of a conversation the supervisor is closed, or it is remembered. -/
theorem spec_conclude {bound : Bound} {s : ℕ} {runner : List Text} :
    Spec i (ToClose i ⟨none, true, false⟩ s) (conclude bound s runner) fun _ => AtRest i := by
  refine .bind spec_converse fun result => .bind spec_close fun returned => ?_
  cases returned with
  | true => exact .ret fun w _ _ h => ⟨none, h.1, fun t => iff_of_false (h.2 t) fun hp =>
      nomatch (congrArg Lifecycle.pending h.1.lifecycle).symm.trans hp⟩
  | false => exact .bind spec_retain fun _ => .ret fun _ _ _ h => ⟨some s, h⟩

/-- An attempt makes one supervisor and ends at rest. -/
theorem spec_attempt {bound : Bound} {runner : List Text} :
    Spec i (Running i none) (attempt bound runner) fun _ => AtRest i := by
  refine .bind spec_create fun created => ?_
  rcases created with e | s
  · exact .ret fun _ _ _ h => ⟨none, h⟩
  · exact spec_conclude

/-- A whole call leaves the lock as it found it. -/
theorem spec_execute {bound : Bound} {runner : List Text} :
    Spec i (Outside i) (execute bound runner) fun _ => Outside i := by
  refine .bind spec_enterRun fun entered => ?_
  cases entered with
  | false => exact .ret fun _ _ _ h => h
  | true =>
    refine .bind spec_attempt fun result => ?_
    exact .bind (.exists fun pending => spec_endRun) fun _ => .ret fun _ _ _ h => h

theorem spec_outside {o : Op} (ho : o.Quiet) : Spec i (Outside i) (perform o) fun _ => Outside i :=
  spec_quiet ho stable_outside fun _ _ h h' => absurd h' h

/-- So does one whose time is over at once. -/
theorem spec_executeInTime {runner : List Text} :
    Spec i (Outside i) (executeInTime runner) fun _ => Outside i := by
  refine .bind (spec_outside trivial) fun usable => ?_
  rcases usable with _ | usable
  · exact .ret fun _ _ _ h => h
  · exact .ite (fun _ => .ret fun _ _ _ h => h) fun _ => spec_execute

/-- Both runs, where their runner is a sequence of strings. -/
theorem spec_call (call : Call) : Spec i (Outside i) call.program fun _ => Outside i := by
  cases call with
  | retryCleanup => exact .bind spec_retry fun _ => .ret fun _ _ _ h => h
  | retryCleanupWithDeadline => exact .bind spec_retry fun _ => .ret fun _ _ _ h => h
  | run runner =>
    rcases runner with _ | runner
    · exact .ret fun _ _ _ h => h
    · exact .ite (fun _ => .ret fun _ _ _ h => h) fun _ => .bind spec_retry fun _ =>
        .ite (fun _ => spec_execute) fun _ => .ret fun _ _ _ h => h
  | runWithDeadline runner =>
    rcases runner with _ | runner
    · exact .ret fun _ _ _ h => h
    · exact .ite (fun _ => .ret fun _ _ _ h => h) fun _ => .bind spec_retry fun _ =>
        .ite (fun _ => spec_executeInTime) fun _ => .ret fun _ _ _ h => h

/-- Any call may come next, whatever the last one returned. -/
theorem spec_nextCall (last : Option Outcome) :
    Spec i (Outside i) (nextCall last) fun _ => Outside i :=
  .bind (spec_outside trivial) fun call => .bind (spec_call call) fun _ => .ret fun _ _ _ h => h

/-! ### Every configuration -/

/-- A thread is about to perform an operation. -/
def About (σ : ExecutorConfig I) (i : I) (o : Op) : Prop := ∃ k, σ.prog i = .op o k

/-- What is asked of the supervisors of an executor. -/
structure OneAtATime (σ : ExecutorConfig I) : Prop where
  /-- At most one supervisor is not closed. -/
  unique : ∀ s t, σ.world.Unclosed s → σ.world.Unclosed t → s = t
  /-- No two calls close one supervisor at once. -/
  alone : ∀ i j s, σ.world.closing i = some s → σ.world.closing j = some s → i = j
  /-- One whose close failed last is not closed, and is pending, or about to be made so. -/
  retained : ∀ s, σ.world.failed s = true →
    σ.world.Unclosed s ∧ (σ.world.lifecycle.pending = some s ∨ ∃ i, About σ i (.locked (.retain s)))
  /-- One is created where none is pending, or not closed, or being closed, by the thread that
  has made the executor active. -/
  exclusive : ∀ i, About σ i .create → σ.world.holder = some i ∧
    σ.world.lifecycle = ⟨none, true, false⟩ ∧ (∀ s, ¬σ.world.Unclosed s) ∧ ∀ j, σ.world.closing j = none

omit [UnicodeData] [DecidableEq I] in
/-- Nothing is unclosed at first. -/
theorem inv_init : WorldInv (World.init : World I) where
  idle := iff_of_true rfl ⟨rfl, rfl⟩
  kept _ _ := iff_of_false (fun h => nomatch h.1) nofun
  unique _ _ h := nomatch h.1
  closing _ _ := nofun
  failed _ := nofun
  fresh _ _ := rfl

/-- A configuration that is reached has the invariant, and each thread its precondition. -/
theorem inv_of_reachable {σ : ExecutorConfig I} (h : Reachable σ) : WorldInv σ.world ∧
    ∀ i, contract.wp i (σ.prog i) (fun _ => Outside i) σ.world := by
  have houtside : ∀ i, Outside i (World.init : World I) := fun i => nofun
  exact contract.sound (σ := ⟨World.init, fun _ => .ret none⟩) (fun i _ => Outside i)
    (fun i _ w w' hrely _ _ h => hrely.2 h) (fun i last => spec_nextCall last) inv_init houtside h

/-- **One supervisor at a time**, in every interleaving of the calls of any number of threads,
whatever the operations on supervisors come to. -/
theorem one_supervisor {σ : ExecutorConfig I} (h : Reachable σ) : OneAtATime σ := by
  obtain ⟨hinv, hwp⟩ := inv_of_reachable h
  have hpre : ∀ i o, About σ i o → Condition i o σ.world := fun i o ⟨k, hk⟩ =>
    contract.pre_of_wp (fun i _ => Outside i) hinv (hwp i) trivial hk
  refine ⟨hinv.unique, fun i j s hi hj => ?_, fun s hs => ⟨hinv.failed s hs, ?_⟩, fun i hi => ?_⟩
  · exact Option.some.inj ((hinv.closing i s hi).symm.trans (hinv.closing j s hj))
  · by_cases hpending : σ.world.lifecycle.pending = some s
    · exact Or.inl hpending
    -- somebody holds the executor, and what it is about to do is to make it pending
    obtain ⟨i, hi⟩ : ∃ i, σ.world.holder = some i := by
      by_contra hnone
      have hidle : σ.world.holder = none := Option.eq_none_iff_forall_ne_some.2 (not_exists.1 hnone)
      exact hpending (hinv.settled (hinv.kept hidle) s hs)
    have hunsettled : ¬(σ.world.holder = some i → σ.world.Settled) := fun h => hpending (h hi s hs)
    refine Or.inr ⟨i, ?_⟩
    rcases hprog : σ.prog i with last | ⟨o, k⟩
    · have hout := hwp i
      rw [hprog] at hout
      exact absurd hi hout
    have hcondition := hpre i o ⟨k, hprog⟩
    cases o with
    | locked x =>
      cases x with
      | retain t =>
        obtain rfl := hinv.unique s t (hinv.failed s hs) (hinv.failed t hcondition)
        exact ⟨k, hprog⟩
      | _ => exact absurd hcondition hunsettled
    | create => exact absurd (hinv.settled hcondition.2.2.2) fun h => hunsettled fun _ => h
    | _ => exact absurd hcondition hunsettled
  · obtain ⟨hholder, hlifecycle, hclosing, hkept⟩ := hpre i .create hi
    refine ⟨hholder, hlifecycle, fun s hs => ?_, hinv.closing_eq_none fun j hj => ?_⟩
    · exact nomatch (congrArg Lifecycle.pending hlifecycle).symm.trans ((hkept s).1 hs)
    · obtain rfl := Option.some.inj (hholder.symm.trans hj)
      exact hclosing

/-! ### A supervisor that is kept -/

/-- A thread whose supervisor cannot be acquired, nor closed. -/
def unlucky (o : Op) (w : World Unit) : o.Resp × World Unit :=
  match o with
  | .nextCall => (.run (some []), w)
  | .usableNs => (.raised, w)
  | .locked x => ((x.run w.lifecycle).1, w.locked () x)
  | .create => (.ok w.created, { w with created := w.created + 1 })
  | .acquire _ _ | .nonce _ | .writeControl _ _ _ | .readResponse _ _ => (.error .other, w)
  | .beginClose _ s => ((), { w with closing := Function.update w.closing () (some s) })
  | .endClose s => (false, w.endClose () s false)

theorem answers_unlucky (o : Op) (w : World Unit) : answers () o w (unlucky o w).1 (unlucky o w).2 := by
  cases o with
  | locked x => exact ⟨rfl, rfl⟩
  | create => exact Or.inr ⟨rfl, rfl⟩
  | _ => exact rfl

/-- So many operations into a run of such a thread. -/
def unluckyRun (n : ℕ) : ExecutorConfig Unit :=
  ⟨(Machine.play unlucky n (nextCall none, World.init)).2,
    fun _ => (Machine.play unlucky n (nextCall none, World.init)).1⟩

/-- The run in which every close fails can be played. -/
theorem reachable_unluckyRun (n : ℕ) : Reachable (unluckyRun n) := by
  have hreach := Machine.reaches_call threads (fun _ => nextCall) (fun o w _ => answers_unlucky o w)
    (fun _ _ _ => trivial) n (σ := ⟨World.init, fun _ => .ret none⟩) trivial (i := ()) (a := none) rfl
  refine Eq.mp (congrArg _ (congrArg (Config.mk _) (funext fun j => ?_))) hreach
  exact dif_pos rfl

omit [UnicodeData] in
/-- Its supervisor is not closed, and is kept. -/
theorem one_supervisor_kept :
    let _ := UnicodeData.ascii
    (unluckyRun 7).world.failed 0 = true ∧ (unluckyRun 9).world.lifecycle.pending = some 0 ∧
      OneAtATime (unluckyRun 7) ∧ OneAtATime (unluckyRun 9) := by
  intro _
  exact ⟨by decide +kernel, by decide +kernel, one_supervisor (reachable_unluckyRun 7),
    one_supervisor (reachable_unluckyRun 9)⟩

end Executor

end YasbLimitora

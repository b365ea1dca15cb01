import Mathlib
import YasbLimitora.Lib.Schedule

/-!
# Programs that heed their history

What a program may do next can depend on all that it has done before. A program *heeds* a
permission, `Prog.Heeds`, if each of its operations is permitted after those that were
performed before it; the definition is by recursion on the program, with the history of its
operations beside it. What the program can count on is a `Prog.Rely`: how the others may
change the world between two operations, and what an operation may be answered, which
depends on the history too.

`Prog.Heeds.run` says what this is worth for the runs of `YasbLimitora.Lib.Schedule`.
-/

namespace Prog

variable {Op : Type} {Resp : Op → Type} {W α β : Type}

/-- What a program can count on. -/
structure Rely (Op : Type) (Resp : Op → Type) (W : Type) where
  /-- The others may change the world so. -/
  others : W → W → Prop
  /-- After what was done before, an operation may be answered so. -/
  answers : List (Event Op Resp W) → Event Op Resp W → Prop

/-- Nothing to count on. -/
def Rely.nothing : Rely Op Resp W := ⟨fun _ _ => True, fun _ _ => True⟩

section Runs

variable (R : Rely Op Resp W) (permits : List (Event Op Resp W) → Op → Prop)

/-- All that is done from a world is as it can be counted on. -/
def Rely.Admits : List (Event Op Resp W) → W → List (Event Op Resp W) → Prop
  | _, _, [] => True
  | before, w, e :: events =>
    R.others w e.before ∧ R.answers before e ∧ Rely.Admits (before ++ [e]) e.after events

theorem Rely.admits_nothing (before : List (Event Op Resp W)) (w : W) (events : List (Event Op Resp W)) :
    Rely.nothing.Admits before w events := by
  induction events generalizing before w with
  | nil => trivial
  | cons e events ih => exact ⟨trivial, trivial, ih _ _⟩

/-- All that is done is permitted after what was done before it. -/
def Permitted : List (Event Op Resp W) → List (Event Op Resp W) → Prop
  | _, [] => True
  | before, e :: events => permits before e.op ∧ Permitted (before ++ [e]) events

/-- **A program heeds a permission** after what was done before, and comes to something with
all that was done and the world it leaves. -/
def Heeds : Prog Op Resp α → List (Event Op Resp W) → W →
    (α → List (Event Op Resp W) → W → Prop) → Prop
  | .ret a, before, w, Q => Q a before w
  | .op o k, before, w, Q => permits before o ∧ ∀ x w₁ w', R.others w w₁ → R.answers before ⟨o, x, w₁, w'⟩ →
    Heeds (k x) (before ++ [⟨o, x, w₁, w'⟩]) w' Q

end Runs

variable {R : Rely Op Resp W} {permits : List (Event Op Resp W) → Op → Prop}

theorem Permitted.of_split {before events more : List (Event Op Resp W)} {e : Event Op Resp W}
    (h : Permitted permits before (events ++ e :: more)) : permits (before ++ events) e.op := by
  induction events generalizing before with
  | nil => rw [List.append_nil]; exact h.1
  | cons e' events ih =>
    have hrest := ih h.2
    rwa [List.append_assoc, List.singleton_append] at hrest

namespace Heeds

variable {before : List (Event Op Resp W)} {w : W} {p : Prog Op Resp α}
  {Q : α → List (Event Op Resp W) → W → Prop}

/-- **Soundness.** In a run that is as the program can count on, all is permitted, and the end
is as it should be. -/
theorem run (h : Heeds R permits p before w Q) (s : Schedule Op Resp W) (n : ℕ)
    (hR : R.Admits before w (Prog.run s n p w).events) :
    Permitted permits before (Prog.run s n p w).events ∧
      Q (Prog.run s n p w).result (before ++ (Prog.run s n p w).events) (Prog.run s n p w).world := by
  induction p generalizing n before w with
  | ret a => exact ⟨trivial, by rw [Prog.run_ret, List.append_nil]; exact h⟩
  | op o k ih =>
    obtain ⟨hothers, hanswers, hrest⟩ := hR
    obtain ⟨hpermitted, hlast⟩ := ih _ (h.2 _ _ _ hothers hanswers) (n + 1) hrest
    refine ⟨⟨h.1, hpermitted⟩, ?_⟩
    rwa [List.append_assoc, List.singleton_append] at hlast

theorem ret {a : α} (h : Q a before w) : Heeds R permits (.ret a) before w Q := h

theorem op {o : Op} {k : Resp o → Prog Op Resp α} (ho : permits before o)
    (h : ∀ x w₁ w', R.others w w₁ → R.answers before ⟨o, x, w₁, w'⟩ →
      Heeds R permits (k x) (before ++ [⟨o, x, w₁, w'⟩]) w' Q) : Heeds R permits (.op o k) before w Q :=
  ⟨ho, h⟩

theorem perform {o : Op} {Q : Resp o → List (Event Op Resp W) → W → Prop} (ho : permits before o)
    (h : ∀ x w₁ w', R.others w w₁ → R.answers before ⟨o, x, w₁, w'⟩ →
      Q x (before ++ [⟨o, x, w₁, w'⟩]) w') : Heeds R permits (Prog.perform o) before w Q :=
  ⟨ho, h⟩

theorem conseq {Q' : α → List (Event Op Resp W) → W → Prop} (h : Heeds R permits p before w Q)
    (hQ : ∀ a trace w', Q a trace w' → Q' a trace w') : Heeds R permits p before w Q' := by
  induction p generalizing before w with
  | ret a => exact hQ _ _ _ h
  | op o k ih => exact ⟨h.1, fun x w₁ w' hothers hanswers => ih x (h.2 x w₁ w' hothers hanswers)⟩

/-- The second part of a sequence is performed after the first one. -/
theorem bind {f : α → Prog Op Resp β} {Q' : β → List (Event Op Resp W) → W → Prop}
    (h : Heeds R permits p before w fun a trace w' => Heeds R permits (f a) trace w' Q') :
    Heeds R permits (p >>= f) before w Q' := by
  induction p generalizing before w with
  | ret a => exact h
  | op o k ih => exact ⟨h.1, fun x w₁ w' hothers hanswers => ih x (h.2 x w₁ w' hothers hanswers)⟩

/-- What two conditions say of the end is said by both. -/
theorem and {Q' : α → List (Event Op Resp W) → W → Prop} (h : Heeds R permits p before w Q)
    (h' : Heeds R permits p before w Q') :
    Heeds R permits p before w fun a trace w' => Q a trace w' ∧ Q' a trace w' := by
  induction p generalizing before w with
  | ret a => exact ⟨h, h'⟩
  | op o k ih =>
    exact ⟨h.1, fun x w₁ w' hothers hanswers =>
      ih x (h.2 x w₁ w' hothers hanswers) (h'.2 x w₁ w' hothers hanswers)⟩

/-- **What every operation keeps**, after any history, a program keeps. -/
theorem of_performs {P : Op → Prop} {I : List (Event Op Resp W) → W → Prop} (h : p.Performs P)
    (hpermits : ∀ before o, P o → permits before o)
    (hI : ∀ before e w w', P e.op → I before w → R.others w e.before → R.answers before e → w' = e.after →
      I (before ++ [e]) w') (h₀ : I before w) :
    Heeds R permits p before w fun _ trace w' => I trace w' := by
  induction p generalizing before w with
  | ret a => exact h₀
  | op o k ih =>
    refine ⟨hpermits _ _ h.1, fun x w₁ w' hothers hanswers => ih x (h.2 x) ?_⟩
    exact hI before ⟨o, x, w₁, w'⟩ w w' h.1 h₀ hothers hanswers rfl

/-- What a program returns, however its operations are answered. -/
theorem of_returns {P : Op → Prop} {A : α → Prop} (h : p.Performs P) (hA : p.Returns A)
    (hpermits : ∀ before o, P o → permits before o) :
    Heeds R permits p before w fun a _ _ => A a := by
  induction p generalizing before w with
  | ret a => exact hA
  | op o k ih => exact ⟨hpermits _ _ h.1, fun x w₁ w' _ _ => ih x (h.2 x) (hA x)⟩

/-- A program that performs at most so many operations adds no more to the history. -/
theorem of_within {n : ℕ} (h : p.Within n) (hpermits : ∀ before o, permits before o) :
    Heeds R permits p before w fun _ trace _ => trace.length ≤ before.length + n := by
  induction p generalizing n before w with
  | ret a => exact Nat.le_add_right _ _
  | op o k ih =>
    obtain _ | n := n
    · exact h.elim
    refine ⟨hpermits _ _, fun x w₁ w' _ _ => (ih x (h x)).conseq fun a trace _ hlength => ?_⟩
    rw [List.length_append, List.length_singleton] at hlength
    omega

end Heeds

end Prog

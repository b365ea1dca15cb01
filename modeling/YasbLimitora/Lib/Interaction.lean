import Mathlib

/-!
# Programs that share a world

A *program* is a tree of operations: it returns, or it performs an operation and goes on
with what the operation answers. Any number of threads, each a program, share a world;
a *machine* says how an operation of a thread may change the world and what it may
answer, what the world may do by itself, and which threads can still take a step.

The rules are those of rely and guarantee. A *contract* gives each thread the changes it
relies on the others to keep to, an invariant of the world, and a condition under which
each operation may be performed. `Contract.wp` is the weakest precondition of a program
of one thread, by recursion on the program: whatever the others have done in between,
its next operation meets its condition, keeps the invariant, and is a change the others
rely on. `Contract.Triple` packs it with an assertion on the left, and has a rule for
each way to build a program. `Contract.sound` is the theorem that makes the rules worth
having: if every call of every thread meets its triple, then in every reachable
configuration the invariant holds and each thread is inside its precondition – so the
operation it is about to perform meets its condition.

Nothing here mentions a program of any particular kind.
-/

/-! ### Programs -/

/-- A program that performs operations, and returns a value. -/
inductive Prog (Op : Type) (Resp : Op → Type) (α : Type) : Type
  | ret (a : α)
  | op (o : Op) (k : Resp o → Prog Op Resp α)

namespace Prog

variable {Op : Type} {Resp : Op → Type} {α β : Type}

def bind : Prog Op Resp α → (α → Prog Op Resp β) → Prog Op Resp β
  | ret a, f => f a
  | op o k, f => op o fun r => (k r).bind f

instance : Monad (Prog Op Resp) where
  pure := ret
  bind := bind

/-- The program that performs one operation and returns what it answers. -/
def perform (o : Op) : Prog Op Resp (Resp o) := op o ret

@[simp] theorem pure_eq (a : α) : (pure a : Prog Op Resp α) = ret a := rfl

@[simp] theorem ret_bind (a : α) (f : α → Prog Op Resp β) : ret a >>= f = f a := rfl

@[simp] theorem op_bind (o : Op) (k : Resp o → Prog Op Resp α) (f : α → Prog Op Resp β) :
    op o k >>= f = op o fun r => k r >>= f := rfl

/-- A program whose operations are performed by others, which answer in their own way. -/
def translate {Op' : Type} {Resp' : Op' → Type} (ι : Op → Op') (answer : ∀ o, Resp' (ι o) → Resp o) :
    Prog Op Resp α → Prog Op' Resp' α
  | ret a => ret a
  | op o k => op (ι o) fun r => (k (answer o r)).translate ι answer

/-- What a program may have left to run. -/
inductive Residual : Prog Op Resp α → Prog Op Resp α → Prop
  | refl (p : Prog Op Resp α) : Residual p p
  | next {p : Prog Op Resp α} {o : Op} {k : Resp o → Prog Op Resp α} (h : Residual p (op o k))
      (r : Resp o) : Residual p (k r)

/-- Every operation that a program may come to perform is one of these. -/
def Performs (P : Op → Prop) : Prog Op Resp α → Prop
  | ret _ => True
  | op o k => P o ∧ ∀ r, (k r).Performs P

namespace Performs

variable {P : Op → Prop} {p : Prog Op Resp α}

theorem residual (h : p.Performs P) {q : Prog Op Resp α} (hq : Residual p q) : q.Performs P := by
  induction hq with
  | refl => exact h
  | next _ r ih => exact ih.2 r

theorem bind {f : α → Prog Op Resp β} (h : p.Performs P) (hf : ∀ a, (f a).Performs P) :
    (p >>= f).Performs P := by
  induction p with
  | ret a => exact hf a
  | op o k ih => exact ⟨h.1, fun r => ih r (h.2 r)⟩

theorem any (p : Prog Op Resp α) : p.Performs fun _ => True := by
  induction p with
  | ret a => trivial
  | op o k ih => exact ⟨trivial, ih⟩

theorem perform {o : Op} (h : P o) : (Prog.perform o : Prog Op Resp (Resp o)).Performs P :=
  ⟨h, fun _ => trivial⟩

theorem ite {q : Prog Op Resp α} {c : Prop} [Decidable c] (hp : p.Performs P)
    (hq : q.Performs P) : (if c then p else q).Performs P := by
  split
  · exact hp
  · exact hq

end Performs

/-- Until an operation is answered in some way, every operation that a program performs is one of
these, and what it returns is one of those. -/
def Until (answer : ∀ o, Resp o → Prop) (P : Op → Prop) (A : α → Prop) : Prog Op Resp α → Prop
  | ret a => A a
  | op o k => P o ∧ ∀ r, answer o r ∨ (k r).Until answer P A

namespace Until

variable {answer : ∀ o, Resp o → Prop} {P : Op → Prop} {A : α → Prop} {p : Prog Op Resp α}

theorem of_performs (h : p.Performs P) : p.Until answer P fun _ => True := by
  induction p with
  | ret a => trivial
  | op o k ih => exact ⟨h.1, fun r => Or.inr (ih r (h.2 r))⟩

/-- The rule of a sequence: what its first part returns before the answer is given leads to the
second part. -/
theorem bind {f : α → Prog Op Resp β} {B : β → Prop} (h : p.Until answer P A)
    (hf : ∀ a, A a → (f a).Until answer P B) : (p >>= f).Until answer P B := by
  induction p with
  | ret a => exact hf a h
  | op o k ih => exact ⟨h.1, fun r => (h.2 r).imp_right (ih r)⟩

theorem ite {q : Prog Op Resp α} {c : Prop} [Decidable c] (hp : p.Until answer P A)
    (hq : q.Until answer P A) : (if c then p else q).Until answer P A := by
  split
  · exact hp
  · exact hq

end Until

/-- No program is what is left of it after an operation. -/
theorem next_ne {o : Op} {k : Resp o → Prog Op Resp α} (r : Resp o) : k r ≠ op o k := by
  have hne : ∀ p : Prog Op Resp α, ∀ (o : Op) (k : Resp o → Prog Op Resp α), p = op o k → ∀ r, k r ≠ p := by
    intro p
    induction p with
    | ret a => exact nofun
    | op o k ih =>
      intro o' k' heq r h
      cases heq
      exact ih r o k h r rfl
  exact hne _ o k rfl r

/-- A program returns one of these, however its operations are answered. -/
def Returns (A : α → Prop) : Prog Op Resp α → Prop
  | ret a => A a
  | op _ k => ∀ r, (k r).Returns A

namespace Returns

variable {A : α → Prop} {p : Prog Op Resp α}

theorem conseq {B : α → Prop} (h : p.Returns A) (hB : ∀ a, A a → B a) : p.Returns B := by
  induction p with
  | ret a => exact hB a h
  | op o k ih => exact fun r => ih r (h r)

theorem any (p : Prog Op Resp α) : p.Returns fun _ => True := by
  induction p with
  | ret a => trivial
  | op o k ih => exact ih

theorem bind {f : α → Prog Op Resp β} {B : β → Prop} (h : p.Returns A)
    (hf : ∀ a, A a → (f a).Returns B) : (p >>= f).Returns B := by
  induction p with
  | ret a => exact hf a h
  | op o k ih => exact fun r => ih r (h r)

end Returns

/-- A program performs at most so many operations, however they are answered. -/
def Within : ℕ → Prog Op Resp α → Prop
  | _, ret _ => True
  | 0, op _ _ => False
  | n + 1, op _ k => ∀ r, (k r).Within n

namespace Within

variable {m n : ℕ} {p : Prog Op Resp α}

theorem mono (h : p.Within m) (hmn : m ≤ n) : p.Within n := by
  induction p generalizing m n with
  | ret a => cases n <;> trivial
  | op o k ih =>
    obtain _ | m := m
    · exact h.elim
    obtain _ | n := n
    · omega
    exact fun r => ih r (h r) (by omega)

theorem ret (a : α) : (Prog.ret a : Prog Op Resp α).Within n := by cases n <;> trivial

theorem perform (o : Op) : (Prog.perform o : Prog Op Resp (Resp o)).Within 1 := fun _ => trivial

/-- The operations of a sequence are those of its parts. -/
theorem bind {f : α → Prog Op Resp β} (h : p.Within m) (hf : ∀ a, (f a).Within n) :
    (p >>= f).Within (m + n) := by
  induction p generalizing m with
  | ret a => exact (hf a).mono (by omega)
  | op o k ih =>
    obtain _ | m := m
    · exact h.elim
    rw [Nat.add_right_comm]
    exact fun r => ih r (h r)

theorem ite {q : Prog Op Resp α} {c : Prop} [Decidable c] (hp : p.Within n) (hq : q.Within n) :
    (if c then p else q).Within n := by
  split
  · exact hp
  · exact hq

end Within

end Prog

/-! ### Machines -/

/-- How a world answers the operations of threads. -/
structure Machine (I Op : Type) (Resp : Op → Type) (W : Type) where
  /-- Performed by a thread in a world, an operation may answer this and leave that. -/
  step : I → (o : Op) → W → Resp o → W → Prop
  /-- The changes the world makes by itself. -/
  env : W → W → Prop
  /-- The threads that can take a step. -/
  live : I → W → Prop

variable {I Op : Type} {Resp : Op → Type} {W α : Type}

/-- A world and the program each thread has still to run. -/
structure Config (I Op : Type) (Resp : Op → Type) (W α : Type) where
  world : W
  prog : I → Prog Op Resp α

namespace Machine

variable (M : Machine I Op Resp W) (body : I → α → Prog Op Resp α)

open Classical in
/-- One step of one thread or of the world. A thread whose program has returned may
begin its next call, from what the last one returned. -/
inductive Step : Config I Op Resp W α → Config I Op Resp W α → Prop
  | perform {σ : Config I Op Resp W α} {i : I} {o : Op} {k : Resp o → Prog Op Resp α}
      {r : Resp o} {w : W} (hlive : M.live i σ.world) (hprog : σ.prog i = .op o k)
      (hstep : M.step i o σ.world r w) : Step σ ⟨w, Function.update σ.prog i (k r)⟩
  | begin {σ : Config I Op Resp W α} {i : I} {a : α} (hlive : M.live i σ.world)
      (hprog : σ.prog i = .ret a) : Step σ ⟨σ.world, Function.update σ.prog i (body i a)⟩
  | env {σ : Config I Op Resp W α} {w : W} (henv : M.env σ.world w) : Step σ ⟨w, σ.prog⟩

/-- What the others run stays, however threads are told apart. -/
theorem update_other {d : DecidableEq I} {β : Type} (p : I → β) {i t : I} (hne : i ≠ t) (q : β) :
    Function.update p t q i = p i := Function.update_of_ne hne q p

/-- What a thread runs is new, however threads are told apart. -/
theorem update_same {d : DecidableEq I} {β : Type} (p : I → β) (i : I) (q : β) :
    Function.update p i q i = q := Function.update_self i q p

/-- The configurations reached from one. -/
def Reaches : Config I Op Resp W α → Config I Op Resp W α → Prop :=
  Relation.ReflTransGen (M.Step body)

/-- What becomes of a program and a world when every operation is answered by a function,
for at most `n` operations. -/
def play (answer : (o : Op) → W → Resp o × W) : ℕ → Prog Op Resp α × W → Prog Op Resp α × W
  | 0, x => x
  | _ + 1, (.ret a, w) => (.ret a, w)
  | n + 1, (.op o k, w) => play answer n (k (answer o w).1, (answer o w).2)

/-- The last of some operations comes after the others. -/
theorem play_succ (answer : (o : Op) → W → Resp o × W) (n : ℕ) (x : Prog Op Resp α × W) :
    play answer (n + 1) x = play answer 1 (play answer n x) := by
  induction n generalizing x with
  | zero => rfl
  | succ n ih =>
    obtain ⟨a | ⟨o, k⟩, w⟩ := x
    · rfl
    · exact ih (k (answer o w).1, (answer o w).2)

/-- What every answer keeps of the world, they keep together. -/
theorem play_keeps {answer : (o : Op) → W → Resp o × W} {A : W → Prop} (h : ∀ o w, A w → A (answer o w).2) (n : ℕ)
    {x : Prog Op Resp α × W} (hx : A x.2) : A (play answer n x).2 := by
  induction n generalizing x with
  | zero => exact hx
  | succ n ih =>
    obtain ⟨a | ⟨o, k⟩, w⟩ := x
    · exact hx
    · exact ih (h o w hx)

open Classical in
/-- **A run of one thread** whose world answers it by a function. -/
theorem reaches_play (M : Machine I Op Resp W) (body : I → α → Prog Op Resp α) {i : I}
    {answer : (o : Op) → W → Resp o × W}
    (hstep : ∀ o w, M.live i w → M.step i o w (answer o w).1 (answer o w).2)
    (hlive : ∀ o w, M.live i w → M.live i (answer o w).2) (n : ℕ) {σ : Config I Op Resp W α}
    (h : M.live i σ.world) :
    M.Reaches body σ ⟨(play answer n (σ.prog i, σ.world)).2,
      Function.update σ.prog i (play answer n (σ.prog i, σ.world)).1⟩ := by
  induction n generalizing σ with
  | zero =>
    rw [play, Function.update_eq_self]
    exact .refl
  | succ n ih =>
    cases hp : σ.prog i with
    | ret a =>
      rw [play, ← hp, Function.update_eq_self]
      exact .refl
    | op o k =>
      have hnext := ih (σ := ⟨(answer o σ.world).2, Function.update σ.prog i (k (answer o σ.world).1)⟩)
        (hlive o σ.world h)
      simp only [Function.update_self, Function.update_idem] at hnext
      exact .head (.perform h hp (hstep o σ.world h)) hnext

open Classical in
/-- A run of one call. -/
theorem reaches_call (M : Machine I Op Resp W) (body : I → α → Prog Op Resp α) {i : I}
    {answer : (o : Op) → W → Resp o × W}
    (hstep : ∀ o w, M.live i w → M.step i o w (answer o w).1 (answer o w).2)
    (hlive : ∀ o w, M.live i w → M.live i (answer o w).2) (n : ℕ) {σ : Config I Op Resp W α}
    (h : M.live i σ.world) {a : α} (ha : σ.prog i = .ret a) :
    M.Reaches body σ ⟨(play answer n (body i a, σ.world)).2,
      Function.update σ.prog i (play answer n (body i a, σ.world)).1⟩ := by
  have hplay := reaches_play M body hstep hlive n
    (σ := ⟨σ.world, Function.update σ.prog i (body i a)⟩) h
  simp only [Function.update_self, Function.update_idem] at hplay
  exact .head (.begin h ha) hplay

section Played

variable [DecidableEq I]

/-- The configuration after so many operations of what a thread has left to run, each of them
answered by a function. -/
def goOn (answer : (o : Op) → W → Resp o × W) (i : I) (n : ℕ) (σ : Config I Op Resp W α) : Config I Op Resp W α :=
  let x := play answer n (σ.prog i, σ.world)
  ⟨x.2, fun j => if j = i then x.1 else σ.prog j⟩

theorem reaches_goOn {i : I} {answer : (o : Op) → W → Resp o × W}
    (hstep : ∀ o w, M.live i w → M.step i o w (answer o w).1 (answer o w).2)
    (hlive : ∀ o w, M.live i w → M.live i (answer o w).2) (n : ℕ) {σ : Config I Op Resp W α}
    (h : M.live i σ.world) : M.Reaches body σ (goOn answer i n σ) := by
  refine Eq.mp (congrArg _ (congrArg (Config.mk _) (funext fun j => ?_))) (reaches_play M body hstep hlive n h)
  by_cases hj : j = i
  · subst hj
    rw [update_same]
    exact (if_pos rfl).symm
  · rw [update_other _ hj]
    exact (if_neg hj).symm

end Played

end Machine

/-! ### Contracts -/

/-- What the threads of a machine rely on, and what they keep. -/
structure Contract (M : Machine I Op Resp W) where
  /-- The changes a thread allows the others, and the world, to make. -/
  rely : I → W → W → Prop
  inv : W → Prop
  /-- The condition under which a thread may perform an operation. -/
  pre : I → Op → W → Prop
  rely_refl : ∀ i w, rely i w w
  rely_trans : ∀ i w w' w'', rely i w w' → rely i w' w'' → rely i w w''
  env_sound : ∀ w w', M.env w w' → inv w → inv w' ∧ ∀ i, rely i w w'

namespace Contract

variable {M : Machine I Op Resp W} (C : Contract M) (i : I)

/-- What performing an operation owes to the contract: the invariant, the life of the
thread, and what the others rely on. -/
structure Keeps (w w' : W) : Prop where
  inv : C.inv w'
  live : M.live i w'
  rely : ∀ j, j ≠ i → C.rely j w w'

/-- **The weakest precondition** of a program of thread `i`. -/
def wp : Prog Op Resp α → (α → W → Prop) → W → Prop
  | .ret a, Q, w => Q a w
  | .op o k, Q, w =>
    ∀ w₁, C.rely i w w₁ → C.inv w₁ → M.live i w₁ →
      C.pre i o w₁ ∧
        ∀ r w₂, M.step i o w₁ r w₂ → C.Keeps i w₁ w₂ ∧ wp (k r) Q w₂

/-- An assertion the others cannot break while the thread lives. -/
def Stable (A : W → Prop) : Prop :=
  ∀ w w', C.rely i w w' → C.inv w → C.inv w' → M.live i w → M.live i w' → A w → A w'

/-- **A program meets its specification**: from a world with the invariant and the
assertion, it is inside its precondition. -/
def Triple (A : W → Prop) (p : Prog Op Resp α) (Q : α → W → Prop) : Prop :=
  ∀ w, C.inv w → M.live i w → A w → C.wp i p Q w

variable {C i}

theorem wp_bind {β : Type} {p : Prog Op Resp α} {f : α → Prog Op Resp β} {Q : β → W → Prop} {w : W}
    (h : C.wp i p (fun a w => C.wp i (f a) Q w) w) : C.wp i (p >>= f) Q w := by
  induction p generalizing w with
  | ret a => exact h
  | op o k ih =>
    intro w₁ hrely hinv hlive
    obtain ⟨hpre, hnext⟩ := h w₁ hrely hinv hlive
    exact ⟨hpre, fun r w₂ hstep => ⟨(hnext r w₂ hstep).1, ih r (hnext r w₂ hstep).2⟩⟩

/-- The others keep a thread inside its precondition. -/
theorem wp_stable {p : Prog Op Resp α} {Q : α → W → Prop} {w w' : W}
    (hQ : ∀ a, C.rely i w w' → C.inv w' → Q a w → Q a w') (hrely : C.rely i w w')
    (hinv : C.inv w') (h : C.wp i p Q w) : C.wp i p Q w' := by
  cases p with
  | ret a => exact hQ a hrely hinv h
  | op o k => exact fun w₁ h₁ => h w₁ (C.rely_trans i _ _ _ hrely h₁)

/-! ### Rules -/

theorem Triple.ret {A : W → Prop} {a : α} {Q : α → W → Prop}
    (h : ∀ w, C.inv w → M.live i w → A w → Q a w) : C.Triple i A (.ret a) Q := h

/-- The postcondition of a program holds with the invariant, and the thread lives. -/
theorem wp_conseq {p : Prog Op Resp α} {Q Q' : α → W → Prop} {w : W} (hinv : C.inv w)
    (hlive : M.live i w) (h : C.wp i p Q w)
    (hQ : ∀ a w, C.inv w → M.live i w → Q a w → Q' a w) : C.wp i p Q' w := by
  induction p generalizing w with
  | ret a => exact hQ a w hinv hlive h
  | op o k ih =>
    intro w₁ h₁ h₂ h₃
    obtain ⟨hpre, hnext⟩ := h w₁ h₁ h₂ h₃
    refine ⟨hpre, fun r w₂ hstep => ?_⟩
    obtain ⟨hkeeps, hwp⟩ := hnext r w₂ hstep
    exact ⟨hkeeps, ih r hkeeps.inv hkeeps.live hwp⟩

theorem Triple.bind {β : Type} {A : W → Prop} {p : Prog Op Resp α} {f : α → Prog Op Resp β}
    {B : α → W → Prop} {Q : β → W → Prop} (hp : C.Triple i A p B)
    (hf : ∀ a, C.Triple i (B a) (f a) Q) : C.Triple i A (p >>= f) Q := fun w hinv hlive hA =>
  wp_bind (wp_conseq hinv hlive (hp w hinv hlive hA) fun a w h₁ h₂ hB => hf a w h₁ h₂ hB)

theorem Triple.conseq {A A' : W → Prop} {p : Prog Op Resp α} {Q Q' : α → W → Prop}
    (h : C.Triple i A p Q) (hA : ∀ w, C.inv w → M.live i w → A' w → A w)
    (hQ : ∀ a w, C.inv w → M.live i w → Q a w → Q' a w) : C.Triple i A' p Q' :=
  fun w hinv hlive hw => wp_conseq hinv hlive (h w hinv hlive (hA w hinv hlive hw)) hQ

/-- What does not depend on the world may be taken out of an assertion. -/
theorem Triple.given {A : W → Prop} {φ : Prop} {p : Prog Op Resp α} {Q : α → W → Prop}
    (h : φ → C.Triple i A p Q) : C.Triple i (fun w => φ ∧ A w) p Q :=
  fun w hinv hlive hw => h hw.1 w hinv hlive hw.2

theorem Triple.exists {β : Type} {A : β → W → Prop} {p : Prog Op Resp α} {Q : α → W → Prop}
    (h : ∀ b, C.Triple i (A b) p Q) : C.Triple i (fun w => ∃ b, A b w) p Q :=
  fun w hinv hlive ⟨b, hw⟩ => h b w hinv hlive hw

theorem Triple.ite {A : W → Prop} {p q : Prog Op Resp α} {Q : α → W → Prop} {c : Prop} [Decidable c]
    (hp : c → C.Triple i A p Q) (hq : ¬c → C.Triple i A q Q) :
    C.Triple i A (if c then p else q) Q := by
  split
  · next h => exact hp h
  · next h => exact hq h

/-- **The rule of an operation**: from a stable assertion, it may be performed, it keeps
the contract, and it leads to the next assertion. -/
theorem Triple.perform {A : W → Prop} {o : Op} {B : Resp o → W → Prop} (hstable : C.Stable i A)
    (hpre : ∀ w, C.inv w → M.live i w → A w → C.pre i o w)
    (hstep : ∀ w r w', C.inv w → M.live i w → A w → M.step i o w r w' →
      C.Keeps i w w' ∧ B r w') :
    C.Triple i A (Prog.perform o) B := fun w hinv hlive hA w₁ hrely hinv₁ hlive₁ =>
  have hA₁ := hstable w w₁ hrely hinv hinv₁ hlive hlive₁ hA
  ⟨hpre w₁ hinv₁ hlive₁ hA₁, fun r w₂ h => hstep w₁ r w₂ hinv₁ hlive₁ hA₁ h⟩

/-- The rule of an operation that has no condition and changes nothing. -/
theorem Triple.observe {A : W → Prop} {o : Op} {B : Resp o → W → Prop} (hstable : C.Stable i A)
    (hpre : ∀ w, C.pre i o w) (hsame : ∀ w r w', M.step i o w r w' → w' = w)
    (hB : ∀ w r, C.inv w → M.live i w → A w → M.step i o w r w → B r w) :
    C.Triple i A (Prog.perform o) B := by
  refine .perform hstable (fun w _ _ _ => hpre w) fun w r w' hinv hlive hA h => ?_
  obtain rfl := hsame w r w' h
  exact ⟨⟨hinv, hlive, fun j _ => C.rely_refl j w'⟩, hB w' r hinv hlive hA h⟩

/-! ### Soundness -/

section Soundness

variable {body : I → α → Prog Op Resp α} (idle : I → α → W → Prop)

/-- **Soundness.** Where idle threads are not disturbed by the others, and every call
goes from idle to idle, each reachable configuration has the invariant, and has each
thread inside its precondition. -/
theorem sound (hidle : ∀ i a w w', C.rely i w w' → C.inv w → C.inv w' → idle i a w → idle i a w')
    (hbody : ∀ i a, C.Triple i (idle i a) (body i a) (idle i)) {σ σ' : Config I Op Resp W α}
    (hinv : C.inv σ.world) (hwp : ∀ i, C.wp i (σ.prog i) (idle i) σ.world)
    (h : M.Reaches body σ σ') :
    C.inv σ'.world ∧ ∀ i, C.wp i (σ'.prog i) (idle i) σ'.world := by
  classical
  induction h with
  | refl => exact ⟨hinv, hwp⟩
  | tail _ hstep ih =>
    obtain ⟨hinv, hwp⟩ := ih
    cases hstep with
    | @perform i o k r w hlive hprog hstep =>
      have hown := hwp i
      rw [hprog] at hown
      obtain ⟨-, hnext⟩ := hown _ (C.rely_refl i _) hinv hlive
      obtain ⟨hkeeps, hk⟩ := hnext r w hstep
      refine ⟨hkeeps.inv, fun j => ?_⟩
      rcases eq_or_ne j i with rfl | hj
      · simpa using hk
      · simpa [Function.update_of_ne hj] using
          wp_stable (fun a hr hi => hidle j a _ _ hr hinv hi) (hkeeps.rely j hj) hkeeps.inv (hwp j)
    | @begin i a hlive hprog =>
      refine ⟨hinv, fun j => ?_⟩
      rcases eq_or_ne j i with rfl | hj
      · have hown := hwp j
        rw [hprog] at hown
        simpa using hbody j a _ hinv hlive hown
      · simpa [Function.update_of_ne hj] using hwp j
    | env henv =>
      obtain ⟨hinv', hrely⟩ := C.env_sound _ _ henv hinv
      exact ⟨hinv', fun j =>
        wp_stable (fun a hr hi => hidle j a _ _ hr hinv hi) (hrely j) hinv' (hwp j)⟩

/-- The operation a live thread is about to perform meets its condition. -/
theorem pre_of_wp {σ : Config I Op Resp W α} {i : I} {o : Op} {k : Resp o → Prog Op Resp α}
    (hinv : C.inv σ.world) (hwp : C.wp i (σ.prog i) (idle i) σ.world)
    (hlive : M.live i σ.world) (hprog : σ.prog i = .op o k) : C.pre i o σ.world := by
  rw [hprog] at hwp
  exact (hwp _ (C.rely_refl i _) hinv hlive).1

end Soundness

end Contract

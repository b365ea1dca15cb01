import Mathlib
import YasbLimitora.Lib.Interaction

/-!
# Runs of one program under interference

A program performs its operations one after the other in a world that others change in
between. A `Schedule` says what the others make of the world before each operation, and
how the world answers it; `Prog.run` is the run of a program in a schedule, with the
record of its operations: each with its answer, and the world before and after it. A
change between two events is one of the others; a change within an event is the
program's own.

Runs compose (`Prog.run_bind`), and `Prog.Ends` says what one run comes to. A program
*meets* a condition in a class of schedules, from an assertion about the world, if each of
its runs does: what it returns, what it leaves, and the events on the way. `Prog.Meets` has
a rule for each way to build a program, so that the runs of a program are followed operation
by operation, whatever the schedule. The events of a run that nobody disturbs are `Linked`.
-/

/-- What happens around a program. -/
structure Schedule (Op : Type) (Resp : Op → Type) (W : Type) where
  /-- What the others make of the world before an operation. -/
  others : ℕ → W → W
  /-- What the world answers to an operation, and what that leaves. -/
  answer : ℕ → (o : Op) → W → Resp o × W

/-- An operation that was performed. -/
structure Event (Op : Type) (Resp : Op → Type) (W : Type) where
  op : Op
  resp : Resp op
  before : W
  after : W

/-- What a run comes to. -/
@[ext]
structure Ran (Op : Type) (Resp : Op → Type) (W α : Type) where
  result : α
  world : W
  events : List (Event Op Resp W)

namespace Prog

variable {Op : Type} {Resp : Op → Type} {W α β : Type} (s : Schedule Op Resp W)

/-- The run of a program whose first operation is the `n`-th to be performed. -/
def run (n : ℕ) : Prog Op Resp α → W → Ran Op Resp W α
  | .ret a, w => ⟨a, w, []⟩
  | .op o k, w =>
    let x := s.answer n o (s.others n w)
    let rest := run (n + 1) (k x.1) x.2
    ⟨rest.result, rest.world, ⟨o, x.1, s.others n w, x.2⟩ :: rest.events⟩

@[simp] theorem run_ret (n : ℕ) (a : α) (w : W) : run s n (.ret a) w = ⟨a, w, []⟩ := rfl

/-- **Runs compose.** -/
theorem run_bind (n : ℕ) (p : Prog Op Resp α) (f : α → Prog Op Resp β) (w : W) :
    run s n (p >>= f) w =
      let first := run s n p w
      let second := run s (n + first.events.length) (f first.result) first.world
      ⟨second.result, second.world, first.events ++ second.events⟩ := by
  induction p generalizing n w with
  | ret a => rfl
  | op o k ih =>
    have hnext := ih (s.answer n o (s.others n w)).1 (n + 1) (s.answer n o (s.others n w)).2
    simp only [op_bind, run, hnext, List.length_cons, List.cons_append, Nat.add_assoc,
      Nat.add_comm 1]

/-- What an operation answered is what the world answers to it. -/
theorem answer_of_mem_events {n : ℕ} {p : Prog Op Resp α} {w : W} {e : Event Op Resp W}
    (h : e ∈ (run s n p w).events) : ∃ m, s.answer m e.op e.before = (e.resp, e.after) := by
  induction p generalizing n w with
  | ret a => exact absurd h List.not_mem_nil
  | op o k ih =>
    rcases List.mem_cons.1 h with rfl | h
    · exact ⟨n, rfl⟩
    · exact ih _ h

/-! ### What a program returns -/

/-- What a program returns if each operation is always answered alike. -/
def valueOf (answer : ∀ o, Resp o) : Prog Op Resp α → α
  | .ret a => a
  | .op o k => valueOf answer (k (answer o))

/-- What is returned however the operations are answered is so where they are answered alike. -/
theorem Returns.valueOf {A : α → Prop} {p : Prog Op Resp α} (h : p.Returns A) (answer : ∀ o, Resp o) :
    A (p.valueOf answer) := by
  induction p with
  | ret a => exact h
  | op o k ih => exact ih (answer o) (h (answer o))

/-- What is returned however the operations are answered is returned in every run. -/
theorem Returns.run {A : α → Prop} {p : Prog Op Resp α} (h : p.Returns A) (n : ℕ) (w : W) :
    A (Prog.run s n p w).result := by
  induction p generalizing n w with
  | ret a => exact h
  | op o k ih => exact ih _ (h _) _ _

/-! ### What one run comes to -/

/-- What the run of a program returns, the number of the operation that comes next, and what
is left of the world. -/
def Ends (n : ℕ) (p : Prog Op Resp α) (w : W) (Q : α → ℕ → W → Prop) : Prop :=
  Q (run s n p w).result (n + (run s n p w).events.length) (run s n p w).world

namespace Ends

variable {s} {n : ℕ} {p : Prog Op Resp α} {w : W} {Q : α → ℕ → W → Prop}

theorem ret {a : α} (h : Q a n w) : Ends s n (.ret a) w Q := h

theorem op {o : Op} {k : Resp o → Prog Op Resp α} {x : Resp o × W}
    (hx : s.answer n o (s.others n w) = x) (h : Ends s (n + 1) (k x.1) x.2 Q) :
    Ends s n (.op o k) w Q := by
  subst hx
  have hrest := h
  unfold Ends at hrest ⊢
  rwa [Nat.add_right_comm] at hrest

theorem bind {f : α → Prog Op Resp β} {Q : β → ℕ → W → Prop}
    (h : Ends s n p w fun a m w' => Ends s m (f a) w' Q) : Ends s n (p >>= f) w Q := by
  unfold Ends at h ⊢
  rw [run_bind, List.length_append, ← Nat.add_assoc]
  exact h

theorem conseq {R : α → ℕ → W → Prop} (h : Ends s n p w Q) (hQ : ∀ a m w', Q a m w' → R a m w') :
    Ends s n p w R :=
  hQ _ _ _ h

end Ends

/-! ### What every run meets -/

/-- **Every run of a program meets a condition**, in each of these schedules and from each
world with an assertion. -/
def Meets (S : Set (Schedule Op Resp W)) (A : W → Prop) (p : Prog Op Resp α)
    (Q : α → W → List (Event Op Resp W) → Prop) : Prop :=
  ∀ s ∈ S, ∀ n w, A w → Q (run s n p w).result (run s n p w).world (run s n p w).events

namespace Meets

variable {S : Set (Schedule Op Resp W)} {A : W → Prop} {p : Prog Op Resp α}
  {Q : α → W → List (Event Op Resp W) → Prop}

theorem ret {a : α} (h : ∀ w, A w → Q a w []) : Meets S A (.ret a) Q := fun _ _ _ w hw => h w hw

/-- The rule of an operation, from an assertion that the others keep. -/
theorem op {o : Op} {k : Resp o → Prog Op Resp α}
    (hstable : ∀ s ∈ S, ∀ n w, A w → A (s.others n w))
    (h : ∀ s ∈ S, ∀ n w, A w → ∃ B : W → Prop, B (s.answer n o w).2 ∧
      Meets S B (k (s.answer n o w).1) fun a w' events =>
        Q a w' (⟨o, (s.answer n o w).1, w, (s.answer n o w).2⟩ :: events)) :
    Meets S A (.op o k) Q := by
  intro s hs n w hw
  obtain ⟨B, hB, hmeets⟩ := h s hs n (s.others n w) (hstable s hs n w hw)
  exact hmeets s hs (n + 1) _ hB

/-- The rule of a sequence. -/
theorem bind {f : α → Prog Op Resp β} {R : β → W → List (Event Op Resp W) → Prop}
    (h : Meets S A p fun a w events => ∃ B : W → Prop, B w ∧
      Meets S B (f a) fun b w' more => R b w' (events ++ more)) : Meets S A (p >>= f) R := by
  intro s hs n w hw
  obtain ⟨B, hB, hmeets⟩ := h s hs n w hw
  rw [run_bind]
  exact hmeets s hs _ _ hB

theorem conseq {Q' : α → W → List (Event Op Resp W) → Prop} (h : Meets S A p Q)
    (hQ : ∀ a w events, Q a w events → Q' a w events) : Meets S A p Q' :=
  fun s hs n w hw => hQ _ _ _ (h s hs n w hw)

end Meets

end Prog

/-! ### Events that follow each other -/

section Linked

variable {Op : Type} {Resp : Op → Type} {W α : Type}

/-- **Each event begins where the one before it ended.** -/
def Linked : W → List (Event Op Resp W) → W → Prop
  | w, [], w' => w' = w
  | w, e :: rest, w' => e.before = w ∧ Linked e.after rest w'

/-- Where the others do nothing, the events of a run follow each other. -/
theorem Prog.linked_run {s : Schedule Op Resp W} (hothers : ∀ n w, s.others n w = w) (n : ℕ)
    (p : Prog Op Resp α) (w : W) : Linked w (Prog.run s n p w).events (Prog.run s n p w).world := by
  induction p generalizing n w with
  | ret a => exact rfl
  | op o k ih => exact ⟨hothers n w, ih _ _ _⟩

namespace Linked

variable {w w' w'' : W} {first rest : List (Event Op Resp W)}

theorem append (h : Linked w first w') (h' : Linked w' rest w'') : Linked w (first ++ rest) w'' := by
  induction first generalizing w with
  | nil => exact (show w' = w from h) ▸ h'
  | cons e first ih => exact ⟨h.1, ih h.2⟩

theorem of_append (h : Linked w (first ++ rest) w'') :
    ∃ w', Linked w first w' ∧ Linked w' rest w'' := by
  induction first generalizing w with
  | nil => exact ⟨w, rfl, h⟩
  | cons e first ih =>
    obtain ⟨w', hfirst, hrest⟩ := ih h.2
    exact ⟨w', ⟨h.1, hfirst⟩, hrest⟩

/-- What no event ends is true throughout. -/
theorem lasts {I : W → Prop} (h : Linked w first w') (hw : I w)
    (hevents : ∀ e ∈ first, I e.before → I e.after) : (∀ e ∈ first, I e.before) ∧ I w' := by
  induction first generalizing w with
  | nil => exact ⟨List.forall_mem_nil _, (show w' = w from h) ▸ hw⟩
  | cons e first ih =>
    obtain ⟨rfl, hrest⟩ := h
    rw [List.forall_mem_cons] at hevents
    obtain ⟨hbefore, hend⟩ := ih hrest (hevents.1 hw) hevents.2
    exact ⟨List.forall_mem_cons.2 ⟨hw, hbefore⟩, hend⟩

end Linked

end Linked

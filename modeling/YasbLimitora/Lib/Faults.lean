import Mathlib
import YasbLimitora.Lib.History

/-!
# Programs whose operations may raise

Operations that act on a world, and may raise an exception instead of acting. A
`Transaction` is a program of such operations that ends in a value or in an exception of
its own; an operation inside a `try` is `tried`, any other is a `call`, whose exception
ends the program.

`Faults.faulty` makes a schedule of what the others do and of which operations raise. Where
the others do nothing and it is known which operations raise, a transaction is a function
of the world: `Faults.alone`, with an equation for each way to build a transaction. Where
any operation may raise it is a relation: `Faults.MayEnd`, which is inverted for each way
to build a transaction, and `Faults.Records` says with it what there is to record of a run.
A transaction over some of the operations of a larger world is
lifted to all of them (`Transaction.lift`).
-/

/-- What an operation answers: it raises, or returns. -/
inductive Answer (α : Type)
  | raised
  | returned (a : α)
deriving DecidableEq

variable {Op : Type} {Value : Op → Type} {W ε α β : Type}

/-- A program of operations that may raise, which ends in a value or an exception. -/
abbrev Transaction (Value : Op → Type) (ε α : Type) :=
  ExceptT ε (Prog Op fun o => Answer (Value o)) α

namespace Transaction

/-- An operation, and what becomes of its answer. -/
def perform (o : Op) (k : Answer (Value o) → Except ε α) : Transaction Value ε α :=
  ExceptT.mk do return k (← Prog.perform o)

/-- An operation outside a `try`. -/
def call (o : Op) (error : ε) : Transaction Value ε (Value o) := perform o fun
  | .raised => .error error
  | .returned a => .ok a

/-- An operation inside a `try`. -/
def tried (o : Op) : Transaction Value ε (Answer (Value o)) := perform o .ok

/-- A program over operations that are some of others. -/
def liftProg {Op' : Type} {Value' : Op' → Type} (ι : Op → Op') :
    Prog Op (fun o => Answer (Value' (ι o))) α → Prog Op' (fun o => Answer (Value' o)) α
  | .ret a => .ret a
  | .op o k => .op (ι o) fun x => liftProg ι (k x)

/-- A transaction over operations that are some of others. -/
def lift {Op' : Type} {Value' : Op' → Type} (ι : Op → Op')
    (t : Transaction (fun o => Value' (ι o)) ε α) : Transaction Value' ε α :=
  ExceptT.mk (liftProg ι t.run)

/-- How a transaction ends, as its value. -/
def outcome (t : Transaction Value ε α) : Transaction Value ε (Except ε α) :=
  ExceptT.mk do return .ok (← t.run)

end Transaction

namespace Faults

section Alone

variable (act : (o : Op) → W → Value o × W)

/-- An operation that raises leaves the world as it is. -/
def answer (raises : Bool) (o : Op) (w : W) : Answer (Value o) × W :=
  if raises then (.raised, w) else (.returned (act o w).1, (act o w).2)

/-- What the others do before each operation, and which operations raise. -/
def faulty (others : ℕ → W → W) (raises : ℕ → Op → Bool) :
    Schedule Op (fun o => Answer (Value o)) W where
  others := others
  answer n o w := answer act (raises n o) o w

variable (raises : Op → Bool)

/-- The others do nothing. -/
def undisturbed : Schedule Op (fun o => Answer (Value o)) W :=
  faulty act (fun _ w => w) fun _ => raises

/-- What a transaction comes to if the others do nothing, and the world it leaves. -/
def alone (t : Transaction Value ε α) (w : W) : Except ε α × W :=
  ((Prog.run (undisturbed act raises) 0 t.run w).result,
    (Prog.run (undisturbed act raises) 0 t.run w).world)

/-- It makes no difference when an undisturbed run begins. -/
theorem run_undisturbed (n m : ℕ) (p : Prog Op (fun o => Answer (Value o)) α) (w : W) :
    (Prog.run (undisturbed act raises) n p w).result = (Prog.run (undisturbed act raises) m p w).result ∧
      (Prog.run (undisturbed act raises) n p w).world
        = (Prog.run (undisturbed act raises) m p w).world := by
  induction p generalizing n m w with
  | ret a => exact ⟨rfl, rfl⟩
  | op o k ih => exact ih _ (n + 1) (m + 1) _

theorem alone_pure (a : α) (w : W) :
    alone act raises (pure a : Transaction Value ε α) w = (.ok a, w) := rfl

theorem alone_perform (o : Op) (k : Answer (Value o) → Except ε α) (w : W) :
    alone act raises (Transaction.perform o k) w
      = (k (answer act (raises o) o w).1, (answer act (raises o) o w).2) := rfl

theorem alone_bind (t : Transaction Value ε α) (f : α → Transaction Value ε β) (w : W) :
    alone act raises (t >>= f) w = match alone act raises t w with
      | (.error x, w') => (.error x, w')
      | (.ok a, w') => alone act raises (f a) w' := by
  have hbind := Prog.run_bind (undisturbed act raises) 0 t.run (ExceptT.bindCont f) w
  show ((Prog.run (undisturbed act raises) 0 (t.run >>= ExceptT.bindCont f) w).result,
    (Prog.run (undisturbed act raises) 0 (t.run >>= ExceptT.bindCont f) w).world) = _
  rw [hbind]
  unfold alone
  generalize Prog.run (undisturbed act raises) 0 t.run w = first
  obtain ⟨x | a, w', events⟩ := first
  · rfl
  · exact Prod.ext (run_undisturbed act raises _ 0 _ _).1 (run_undisturbed act raises _ 0 _ _).2

section Steps

variable {act raises} {t : Transaction Value ε α} {f : α → Transaction Value ε β} {w w' : W}

/-- A sequence ends with its first part, or goes on after it. -/
theorem alone_bind_cases {x : Except ε β} (h : alone act raises (t >>= f) w = (x, w')) :
    (∃ e, x = .error e ∧ alone act raises t w = (.error e, w')) ∨
      ∃ a w₁, alone act raises t w = (.ok a, w₁) ∧ alone act raises (f a) w₁ = (x, w') := by
  rw [alone_bind] at h
  rcases hfirst : alone act raises t w with ⟨e | a, w₁⟩
  · rw [hfirst] at h
    obtain ⟨rfl, rfl⟩ := Prod.mk.inj h
    exact Or.inl ⟨e, rfl, rfl⟩
  · rw [hfirst] at h
    exact Or.inr ⟨a, w₁, rfl, h⟩

/-- How a part ends is seen as a value. -/
theorem alone_outcome (t : Transaction Value ε α) (w : W) :
    alone act raises t.outcome w = (.ok (alone act raises t w).1, (alone act raises t w).2) := by
  have hbind := Prog.run_bind (undisturbed act raises) 0 t.run (fun x => Prog.ret (Except.ok (ε := ε) x)) w
  exact Prod.ext (congrArg Ran.result hbind) (congrArg Ran.world hbind)

theorem alone_outcome_cases {x : Except ε (Except ε α)} (h : alone act raises t.outcome w = (x, w')) :
    ∃ y, x = .ok y ∧ alone act raises t w = (y, w') := by
  rw [alone_outcome] at h
  obtain ⟨rfl, rfl⟩ := Prod.mk.inj h
  exact ⟨_, rfl, rfl⟩

/-- An operation raises, or it does what it does. -/
theorem alone_call_cases {o : Op} {error : ε} {x : Except ε (Value o)}
    (h : alone act raises (Transaction.call o error) w = (x, w')) :
    (raises o = true ∧ x = .error error ∧ w' = w) ∨
      (raises o = false ∧ x = .ok (act o w).1 ∧ w' = (act o w).2) := by
  rw [Transaction.call, alone_perform, answer] at h
  rcases hraises : raises o
  · rw [hraises, if_neg Bool.false_ne_true] at h
    obtain ⟨rfl, rfl⟩ := Prod.mk.inj h
    exact Or.inr ⟨rfl, rfl, rfl⟩
  · rw [hraises, if_pos rfl] at h
    obtain ⟨rfl, rfl⟩ := Prod.mk.inj h
    exact Or.inl ⟨rfl, rfl, rfl⟩

/-- What comes after a part that returns. -/
theorem alone_bind_ok {a : α} (h : alone act raises t w = (.ok a, w')) :
    alone act raises (t >>= f) w = alone act raises (f a) w' := by
  rw [alone_bind, h]

/-- Nothing comes after a part that raises. -/
theorem alone_bind_error {e : ε} (h : alone act raises t w = (.error e, w')) :
    alone act raises (t >>= f) w = (.error e, w') := by
  rw [alone_bind, h]

theorem alone_call {o : Op} {error : ε} (ho : raises o = false) (w : W) :
    alone act raises (Transaction.call o error) w = (.ok (act o w).1, (act o w).2) := by
  rw [Transaction.call, alone_perform, ho]
  rfl

theorem alone_tried {o : Op} (ho : raises o = false) (w : W) :
    alone act raises (Transaction.tried o : Transaction Value ε _) w
      = (.ok (.returned (act o w).1), (act o w).2) := by
  rw [Transaction.tried, alone_perform, ho]
  rfl

/-- **A lifted transaction** comes to what it comes to by itself, if its operations do the same among
the others. -/
theorem alone_lift {Op' : Type} {Value' : Op' → Type} {ι : Op → Op'} {act' : (o : Op') → W → Value' o × W}
    {act : (o : Op) → W → Value' (ι o) × W} {raises' : Op' → Bool} (hact : ∀ o w, act' (ι o) w = act o w)
    (t : Transaction (fun o => Value' (ι o)) ε α) (w : W) :
    alone act' raises' (t.lift ι) w = alone act (fun o => raises' (ι o)) t w := by
  have hrun : ∀ (p : Prog Op (fun o => Answer (Value' (ι o))) (Except ε α)) (n : ℕ) (w : W),
      (Prog.run (undisturbed act' raises') n (Transaction.liftProg ι p) w).result
          = (Prog.run (undisturbed act fun o => raises' (ι o)) n p w).result ∧
        (Prog.run (undisturbed act' raises') n (Transaction.liftProg ι p) w).world
          = (Prog.run (undisturbed act fun o => raises' (ι o)) n p w).world := by
    intro p
    induction p with
    | ret a => exact fun _ _ => ⟨rfl, rfl⟩
    | op o k ih =>
      intro n w
      have hanswer : answer act' (raises' (ι o)) (ι o) w = answer act (raises' (ι o)) o w := by
        rw [answer, answer, hact]
      have hnext := ih (answer act (raises' (ι o)) o w).1 (n + 1) (answer act (raises' (ι o)) o w).2
      simp only [Transaction.liftProg, Prog.run, undisturbed, faulty] at hnext ⊢
      rw [hanswer]
      exact hnext
  exact Prod.ext (hrun t.run 0 w).1 (hrun t.run 0 w).2

end Steps

end Alone

/-! ### What a transaction may come to -/

section MayRun

variable (act : (o : Op) → W → Value o × W)

abbrev Trace (Value : Op → Type) (W : Type) := List (Event Op (fun o => Answer (Value o)) W)

/-- How often an operation raised. -/
def failures [DecidableEq Op] (events : Trace Value W) (o : Op) : ℕ :=
  events.countP fun e => decide (e.op = o) && match e.resp with
    | .raised => true
    | .returned _ => false

theorem failures_append [DecidableEq Op] (first second : Trace Value W) (o : Op) :
    failures (first ++ second) o = failures first o + failures second o := List.countP_append

theorem failures_raised [DecidableEq Op] (o : Op) (w w' : W) (rest : Trace Value W) :
    failures (⟨o, .raised, w, w'⟩ :: rest) o = failures rest o + 1 :=
  List.countP_cons_of_pos (Bool.and_eq_true_iff.2 ⟨decide_eq_true rfl, rfl⟩)

theorem failures_returned [DecidableEq Op] (o : Op) (a : Value o) (w w' : W) (rest : Trace Value W) :
    failures (⟨o, .returned a, w, w'⟩ :: rest) o = failures rest o :=
  List.countP_cons_of_neg fun h => Bool.noConfusion (Bool.and_eq_true_iff.1 h).2

theorem failures_eq_zero [DecidableEq Op] {events : Trace Value W} {o : Op}
    (h : ∀ e ∈ events, e.op ≠ o) : failures events o = 0 :=
  List.countP_eq_zero.2 fun e he hcount => h e he (of_decide_eq_true (Bool.and_eq_true_iff.1 hcount).1)

/-- **What a run of a transaction may come to**, with its events, if the others do nothing and
any operation may raise. -/
def MayRun (t : Transaction Value ε α) (w : W) (x : Except ε α) (w' : W)
    (events : Trace Value W) : Prop :=
  ∃ raises n, Prog.run (faulty act (fun _ w => w) raises) n t.run w = ⟨x, w', events⟩

/-- What a transaction may come to, and the world it may leave. -/
def MayEnd (t : Transaction Value ε α) (w : W) (x : Except ε α) (w' : W) : Prop :=
  ∃ events, MayRun act t w x w' events

variable {act} {t : Transaction Value ε α} {w w' : W} {events : Trace Value W}

theorem MayRun.pure {a : α} {x : Except ε α}
    (h : MayRun act (pure a : Transaction Value ε α) w x w' events) :
    x = .ok a ∧ w' = w ∧ events = [] := by
  obtain ⟨raises, n, h⟩ := h
  obtain ⟨rfl, rfl, rfl⟩ := Ran.mk.inj h
  exact ⟨rfl, rfl, rfl⟩

theorem MayRun.throw {e : ε} {x : Except ε α}
    (h : MayRun act (throw e : Transaction Value ε α) w x w' events) :
    x = .error e ∧ w' = w ∧ events = [] := by
  obtain ⟨raises, n, h⟩ := h
  obtain ⟨rfl, rfl, rfl⟩ := Ran.mk.inj h
  exact ⟨rfl, rfl, rfl⟩

theorem MayRun.perform {o : Op} {k : Answer (Value o) → Except ε α} {x : Except ε α}
    (h : MayRun act (Transaction.perform o k) w x w' events) :
    (x = k .raised ∧ w' = w ∧ events = [⟨o, .raised, w, w⟩]) ∨
      (x = k (.returned (act o w).1) ∧ w' = (act o w).2 ∧
        events = [⟨o, .returned (act o w).1, w, (act o w).2⟩]) := by
  obtain ⟨raises, n, h⟩ := h
  have hrun : ∀ b, raises n o = b →
      x = k (answer act b o w).1 ∧ w' = (answer act b o w).2 ∧
        events = [⟨o, (answer act b o w).1, w, (answer act b o w).2⟩] := by
    rintro b rfl
    obtain ⟨rfl, rfl, rfl⟩ := Ran.mk.inj h
    exact ⟨rfl, rfl, rfl⟩
  rcases hraises : raises n o
  · exact Or.inr (hrun false hraises)
  · exact Or.inl (hrun true hraises)

/-- A sequence ends where its first part raises, or where its second part does. -/
theorem MayRun.bind {f : α → Transaction Value ε β} {x : Except ε β}
    (h : MayRun act (t >>= f) w x w' events) :
    (∃ e, x = .error e ∧ MayRun act t w (.error e) w' events) ∨
      ∃ a w₁ first second, MayRun act t w (.ok a) w₁ first ∧ MayRun act (f a) w₁ x w' second ∧
        events = first ++ second := by
  obtain ⟨raises, n, h⟩ := h
  have hbind := Prog.run_bind (faulty act (fun _ w => w) raises) n t.run (ExceptT.bindCont f) w
  change Prog.run _ n (t.run >>= ExceptT.bindCont f) w = _ at h
  rw [hbind] at h
  dsimp only at h
  rcases hfirst : Prog.run (faulty act (fun _ w => w) raises) n t.run w with ⟨e | a, w₁, first⟩
  · rw [hfirst] at h
    obtain ⟨rfl, rfl, rfl⟩ := Ran.mk.inj h
    exact Or.inl ⟨e, rfl, raises, n, hfirst.trans
      (congrArg (Ran.mk (Except.error e) w₁) (List.append_nil first).symm)⟩
  · rw [hfirst] at h
    obtain ⟨rfl, rfl, rfl⟩ := Ran.mk.inj h
    exact Or.inr ⟨a, w₁, first, _, ⟨raises, n, hfirst⟩, ⟨raises, _, rfl⟩, rfl⟩

theorem MayRun.outcome {x : Except ε (Except ε α)} (h : MayRun act t.outcome w x w' events) :
    ∃ y, x = .ok y ∧ MayRun act t w y w' events := by
  obtain ⟨raises, n, h⟩ := h
  have hbind := Prog.run_bind (faulty act (fun _ w => w) raises) n t.run
    (fun x => Prog.ret (Except.ok x : Except ε (Except ε α))) w
  obtain ⟨rfl, rfl, rfl⟩ := Ran.mk.inj (hbind.symm.trans h)
  exact ⟨_, rfl, raises, n, Ran.ext rfl rfl (List.append_nil _).symm⟩

/-- **What holds of the world and of all that was done** holds at the end of a run: where it holds at
first, and of what an operation leaves that raises or returns. -/
theorem MayRun.tracks {A : Trace Value W → W → Prop}
    (hraised : ∀ o events w, A events w → A (events ++ [⟨o, .raised, w, w⟩]) w)
    (hreturned : ∀ o events w, A events w → A (events ++ [⟨o, .returned (act o w).1, w, (act o w).2⟩]) (act o w).2)
    {x : Except ε α} (h : MayRun act t w x w' events) (hfirst : A [] w) : A events w' := by
  obtain ⟨raises, n, h⟩ := h
  -- the induction is on the program, with what was done before it
  have hrun : ∀ (p : Prog Op (fun o => Answer (Value o)) (Except ε α)) (n : ℕ) (before : Trace Value W) (w : W),
      A before w → A (before ++ (Prog.run (faulty act (fun _ w => w) raises) n p w).events)
        (Prog.run (faulty act (fun _ w => w) raises) n p w).world := by
    intro p
    induction p with
    | ret a =>
      intro n before w hbefore
      exact (List.append_nil before).symm ▸ hbefore
    | op o k ih =>
      intro n before w hbefore
      have hstep : A (before ++ [⟨o, (answer act (raises n o) o w).1, w, (answer act (raises n o) o w).2⟩])
          (answer act (raises n o) o w).2 := by
        rcases raises n o
        · exact hreturned o before w hbefore
        · exact hraised o before w hbefore
      have hrest := ih (answer act (raises n o) o w).1 (n + 1) _ _ hstep
      rw [List.append_assoc, List.singleton_append] at hrest
      exact hrest
  have hend := hrun t.run n [] w hfirst
  rw [h] at hend
  exact hend

theorem MayEnd.pure {a : α} {x : Except ε α}
    (h : MayEnd act (pure a : Transaction Value ε α) w x w') : x = .ok a ∧ w' = w := by
  obtain ⟨events, h⟩ := h
  exact ⟨h.pure.1, h.pure.2.1⟩

theorem MayEnd.perform {o : Op} {k : Answer (Value o) → Except ε α} {x : Except ε α}
    (h : MayEnd act (Transaction.perform o k) w x w') :
    x = k .raised ∧ w' = w ∨ x = k (.returned (act o w).1) ∧ w' = (act o w).2 := by
  obtain ⟨events, h⟩ := h
  exact h.perform.imp (fun h => ⟨h.1, h.2.1⟩) fun h => ⟨h.1, h.2.1⟩

/-- A call that returns. -/
theorem MayEnd.call {o : Op} {error : ε} {a : Value o}
    (h : MayEnd act (Transaction.call o error) w (.ok a) w') :
    a = (act o w).1 ∧ w' = (act o w).2 := by
  rcases h.perform with ⟨hx, -⟩ | ⟨hx, hw⟩
  · cases hx
  · exact ⟨Except.ok.inj hx, hw⟩

/-- A call raises its exception, or returns. -/
theorem MayEnd.call_cases {o : Op} {error : ε} {x : Except ε (Value o)}
    (h : MayEnd act (Transaction.call o error) w x w') :
    x = .error error ∧ w' = w ∨ x = .ok (act o w).1 ∧ w' = (act o w).2 := h.perform

/-- An operation inside a `try` raises or returns. -/
theorem MayEnd.tried {o : Op} {x : Except ε (Answer (Value o))}
    (h : MayEnd act (Transaction.tried o) w x w') :
    x = .ok .raised ∧ w' = w ∨ x = .ok (.returned (act o w).1) ∧ w' = (act o w).2 := h.perform

theorem MayEnd.bind {f : α → Transaction Value ε β} {x : Except ε β}
    (h : MayEnd act (t >>= f) w x w') :
    (∃ e, x = .error e ∧ MayEnd act t w (.error e) w') ∨
      ∃ a w₁, MayEnd act t w (.ok a) w₁ ∧ MayEnd act (f a) w₁ x w' := by
  obtain ⟨events, h⟩ := h
  rcases h.bind with ⟨e, hx, h⟩ | ⟨a, w₁, first, second, hfirst, hsecond, -⟩
  · exact Or.inl ⟨e, hx, events, h⟩
  · exact Or.inr ⟨a, w₁, ⟨first, hfirst⟩, second, hsecond⟩

/-- What a sequence returns is what its second part does. -/
theorem MayEnd.bind_ok {f : α → Transaction Value ε β} {b : β}
    (h : MayEnd act (t >>= f) w (.ok b) w') :
    ∃ a w₁, MayEnd act t w (.ok a) w₁ ∧ MayEnd act (f a) w₁ (.ok b) w' := by
  rcases h.bind with ⟨e, hx, -⟩ | h
  · cases hx
  · exact h

theorem MayEnd.outcome {x : Except ε (Except ε α)}
    (h : MayEnd act t.outcome w x w') : ∃ y, x = .ok y ∧ MayEnd act t w y w' := by
  obtain ⟨events, h⟩ := h
  obtain ⟨y, hx, h⟩ := h.outcome
  exact ⟨y, hx, events, h⟩

/-- **A lifted transaction** does in the part of the world that its operations are about
what it does there alone, and performs no other operations. -/
theorem MayRun.lift {Op' : Type} {Value' : Op' → Type} {V : Type} {ι : Op → Op'}
    {act' : (o : Op') → V → Value' o × V} {act : (o : Op) → W → Value' (ι o) × W}
    (get : V → W) (put : V → W → V) (hget : ∀ v w, get (put v w) = w)
    (hput : ∀ v w w', put (put v w) w' = put v w') (hself : ∀ v, put v (get v) = v)
    (hact : ∀ o v, act' (ι o) v = ((act o (get v)).1, put v (act o (get v)).2))
    {t : Transaction (fun o => Value' (ι o)) ε α} {v v' : V} {x : Except ε α}
    {events : Trace Value' V} (h : MayRun act' (t.lift ι) v x v' events) :
    (∃ w', MayEnd act t (get v) x w' ∧ v' = put v w') ∧ ∀ e ∈ events, ∃ o, e.op = ι o := by
  obtain ⟨raises, n, h⟩ := h
  have hrun : ∀ (p : Prog Op (fun o => Answer (Value' (ι o))) (Except ε α)) (n : ℕ) (v : V),
      (Prog.run (faulty act' (fun _ v => v) raises) n (Transaction.liftProg ι p) v).result =
          (Prog.run (faulty act (fun _ w => w) fun n o => raises n (ι o)) n p (get v)).result ∧
        (Prog.run (faulty act' (fun _ v => v) raises) n (Transaction.liftProg ι p) v).world =
          put v (Prog.run (faulty act (fun _ w => w) fun n o => raises n (ι o)) n p (get v)).world ∧
        ∀ e ∈ (Prog.run (faulty act' (fun _ v => v) raises) n (Transaction.liftProg ι p) v).events,
          ∃ o, e.op = ι o := by
    intro p
    induction p with
    | ret a => exact fun n v => ⟨rfl, (hself v).symm, fun _ he => nomatch he⟩
    | op o k ih =>
      intro n v
      have hanswer : answer act' (raises n (ι o)) (ι o) v =
          ((answer act (raises n (ι o)) o (get v)).1,
            put v (answer act (raises n (ι o)) o (get v)).2) := by
        rcases raises n (ι o)
        · simp only [answer, Bool.false_eq_true, if_false, hact]
        · simp only [answer, if_true, hself]
      have hnext := ih (answer act (raises n (ι o)) o (get v)).1 (n + 1)
        (put v (answer act (raises n (ι o)) o (get v)).2)
      rw [hget, hput] at hnext
      simp only [Transaction.liftProg, Prog.run, faulty] at hnext ⊢
      rw [hanswer]
      exact ⟨hnext.1, hnext.2.1, List.forall_mem_cons.2 ⟨⟨o, rfl⟩, hnext.2.2⟩⟩
  obtain ⟨hresult, hworld, hevents⟩ := hrun t.run n v
  change Prog.run _ n (Transaction.liftProg ι t.run) v = _ at h
  rw [h] at hresult hworld hevents
  exact ⟨⟨_, ⟨_, _, n, Ran.ext hresult.symm rfl rfl⟩, hworld⟩, hevents⟩

theorem MayEnd.lift {Op' : Type} {Value' : Op' → Type} {V : Type} {ι : Op → Op'}
    {act' : (o : Op') → V → Value' o × V} {act : (o : Op) → W → Value' (ι o) × W}
    (get : V → W) (put : V → W → V) (hget : ∀ v w, get (put v w) = w)
    (hput : ∀ v w w', put (put v w) w' = put v w') (hself : ∀ v, put v (get v) = v)
    (hact : ∀ o v, act' (ι o) v = ((act o (get v)).1, put v (act o (get v)).2))
    {t : Transaction (fun o => Value' (ι o)) ε α} {v v' : V} {x : Except ε α}
    (h : MayEnd act' (t.lift ι) v x v') : ∃ w', MayEnd act t (get v) x w' ∧ v' = put v w' := by
  obtain ⟨events, h⟩ := h
  exact (h.lift get put hget hput hself hact).1

/-! ### What a transaction ensures -/

variable (act) in
/-- **A transaction ensures a condition** from a world on: what it comes to meets it, with the
world that it leaves, whichever operations raise. -/
def Ensures (t : Transaction Value ε α) (w : W) (Q : Except ε α → W → Prop) : Prop :=
  ∀ x w', MayEnd act t w x w' → Q x w'

namespace Ensures

variable {Q : Except ε α → W → Prop}

theorem pure {a : α} (h : Q (.ok a) w) : Ensures act (pure a : Transaction Value ε α) w Q := by
  intro x w' hend
  obtain ⟨rfl, rfl⟩ := hend.pure
  exact h

theorem throw {e : ε} (h : Q (.error e) w) :
    Ensures act (throw e : Transaction Value ε α) w Q := by
  rintro x w' ⟨events, raises, n, hrun⟩
  obtain ⟨rfl, rfl, rfl⟩ := Ran.mk.inj hrun
  exact h

/-- A call raises, and changes nothing, or returns. -/
theorem call {o : Op} {error : ε} {Q : Except ε (Value o) → W → Prop} (hraised : Q (.error error) w)
    (hreturned : Q (.ok (act o w).1) (act o w).2) : Ensures act (Transaction.call o error) w Q := by
  intro x w' hend
  rcases hend.call_cases with ⟨rfl, rfl⟩ | ⟨rfl, rfl⟩
  · exact hraised
  · exact hreturned

theorem tried {o : Op} {Q : Except ε (Answer (Value o)) → W → Prop} (hraised : Q (.ok .raised) w)
    (hreturned : Q (.ok (.returned (act o w).1)) (act o w).2) :
    Ensures act (Transaction.tried o) w Q := by
  intro x w' hend
  rcases hend.tried with ⟨rfl, rfl⟩ | ⟨rfl, rfl⟩
  · exact hraised
  · exact hreturned

/-- The second part of a sequence is performed where the first one returns. -/
theorem bind {f : α → Transaction Value ε β} {R : Except ε β → W → Prop}
    (h : Ensures act t w fun x w' => match x with
      | .error e => R (.error e) w'
      | .ok a => Ensures act (f a) w' R) : Ensures act (t >>= f) w R := by
  intro x w' hend
  rcases hend.bind with ⟨e, rfl, hfirst⟩ | ⟨a, w₁, hfirst, hsecond⟩
  · exact h _ _ hfirst
  · exact h _ _ hfirst x w' hsecond

theorem outcome {R : Except ε (Except ε α) → W → Prop}
    (h : Ensures act t w fun x w' => R (.ok x) w') : Ensures act t.outcome w R := by
  intro x w' hend
  obtain ⟨y, rfl, hinner⟩ := hend.outcome
  exact h y w' hinner

theorem conseq {R : Except ε α → W → Prop} (h : Ensures act t w Q)
    (hQ : ∀ x w', Q x w' → R x w') : Ensures act t w R := fun x w' hend => hQ x w' (h x w' hend)

end Ensures

/-! ### What a run records -/

section Records

variable {γ : Type} (act) (log : Event Op (fun o => Answer (Value o)) W → Option γ)

/-- **A transaction ensures a condition with what its run records**: `log` says what there is to
record of an event. -/
def Records (t : Transaction Value ε α) (w : W) (Q : Except ε α → W → List γ → Prop) : Prop :=
  ∀ x w' events, MayRun act t w x w' events → Q x w' (events.filterMap log)

namespace Records

variable {act} {log} {Q : Except ε α → W → List γ → Prop}

theorem pure {a : α} (h : Q (.ok a) w []) : Records act log (pure a : Transaction Value ε α) w Q := by
  intro x w' events hrun
  obtain ⟨rfl, rfl, rfl⟩ := hrun.pure
  exact h

theorem throw {e : ε} (h : Q (.error e) w []) :
    Records act log (throw e : Transaction Value ε α) w Q := by
  intro x w' events hrun
  obtain ⟨rfl, rfl, rfl⟩ := hrun.throw
  exact h

theorem perform {o : Op} {k : Answer (Value o) → Except ε α}
    (hraised : Q (k .raised) w (log ⟨o, .raised, w, w⟩).toList)
    (hreturned : Q (k (.returned (act o w).1)) (act o w).2
      (log ⟨o, .returned (act o w).1, w, (act o w).2⟩).toList) :
    Records act log (Transaction.perform o k) w Q := by
  intro x w' events hrun
  rcases hrun.perform with ⟨rfl, rfl, rfl⟩ | ⟨rfl, rfl, rfl⟩
  · rw [List.filterMap_cons]
    split
    · next hnone => rwa [hnone] at hraised
    · next hsome => rwa [hsome] at hraised
  · rw [List.filterMap_cons]
    split
    · next hnone => rwa [hnone] at hreturned
    · next hsome => rwa [hsome] at hreturned

/-- What a sequence records is what its parts do. -/
theorem bind {f : α → Transaction Value ε β} {R : Except ε β → W → List γ → Prop}
    (h : Records act log t w fun x w' first => match x with
      | .error e => R (.error e) w' first
      | .ok a => Records act log (f a) w' fun y w'' second => R y w'' (first ++ second)) :
    Records act log (t >>= f) w R := by
  intro x w' events hrun
  rcases hrun.bind with ⟨e, rfl, hfirst⟩ | ⟨a, w₁, first, second, hfirst, hsecond, rfl⟩
  · exact h _ _ _ hfirst
  · rw [List.filterMap_append]
    exact h _ _ _ hfirst x w' second hsecond

theorem outcome {R : Except ε (Except ε α) → W → List γ → Prop}
    (h : Records act log t w fun x w' recorded => R (.ok x) w' recorded) :
    Records act log t.outcome w R := by
  intro x w' events hrun
  obtain ⟨y, rfl, hinner⟩ := hrun.outcome
  exact h y w' events hinner

theorem conseq {R : Except ε α → W → List γ → Prop} (h : Records act log t w Q)
    (hQ : ∀ x w' recorded, Q x w' recorded → R x w' recorded) : Records act log t w R :=
  fun x w' events hrun => hQ x w' _ (h x w' events hrun)

theorem any : Records act log t w fun _ _ _ => True := fun _ _ _ _ => trivial

/-- What is ensured is so whatever is recorded. -/
theorem and_ensures {E : Except ε α → W → Prop} (h : Records act log t w Q) (hE : Ensures act t w E) :
    Records act log t w fun x w' recorded => Q x w' recorded ∧ E x w' :=
  fun x w' events hrun => ⟨h x w' events hrun, hE x w' ⟨events, hrun⟩⟩

/-- **A lifted transaction** records what it records in the part of the world that its operations
are about. -/
theorem lift {Op' : Type} {Value' : Op' → Type} {V : Type} {ι : Op → Op'}
    {act' : (o : Op') → V → Value' o × V} {act : (o : Op) → W → Value' (ι o) × W}
    {log : Event Op (fun o => Answer (Value' (ι o))) W → Option γ}
    {log' : Event Op' (fun o => Answer (Value' o)) V → Option γ}
    (get : V → W) (put : V → W → V) (hget : ∀ v w, get (put v w) = w)
    (hput : ∀ v w w', put (put v w) w' = put v w') (hself : ∀ v, put v (get v) = v)
    (hact : ∀ o v, act' (ι o) v = ((act o (get v)).1, put v (act o (get v)).2))
    (hlog : ∀ o x v v', log' ⟨ι o, x, v, v'⟩ = log ⟨o, x, get v, get v'⟩)
    {t : Transaction (fun o => Value' (ι o)) ε α} {v : V} {Q : Except ε α → W → List γ → Prop}
    (h : Records act log t (get v) Q) :
    Records act' log' (t.lift ι) v fun x v' recorded => ∃ w', v' = put v w' ∧ Q x w' recorded := by
  rintro x v' events ⟨raises, n, hrun⟩
  have hlift : ∀ (p : Prog Op (fun o => Answer (Value' (ι o))) (Except ε α)) (n : ℕ) (v : V),
      (Prog.run (faulty act' (fun _ v => v) raises) n (Transaction.liftProg ι p) v).result =
          (Prog.run (faulty act (fun _ w => w) fun n o => raises n (ι o)) n p (get v)).result ∧
        (Prog.run (faulty act' (fun _ v => v) raises) n (Transaction.liftProg ι p) v).world =
          put v (Prog.run (faulty act (fun _ w => w) fun n o => raises n (ι o)) n p (get v)).world ∧
        (Prog.run (faulty act' (fun _ v => v) raises) n (Transaction.liftProg ι p) v).events.filterMap log' =
          (Prog.run (faulty act (fun _ w => w) fun n o => raises n (ι o)) n p (get v)).events.filterMap log := by
    intro p
    induction p with
    | ret a => exact fun n v => ⟨rfl, (hself v).symm, rfl⟩
    | op o k ih =>
      intro n v
      have hanswer : answer act' (raises n (ι o)) (ι o) v =
          ((answer act (raises n (ι o)) o (get v)).1,
            put v (answer act (raises n (ι o)) o (get v)).2) := by
        rcases raises n (ι o)
        · simp only [answer, Bool.false_eq_true, if_false, hact]
        · simp only [answer, if_true, hself]
      have hnext := ih (answer act (raises n (ι o)) o (get v)).1 (n + 1)
        (put v (answer act (raises n (ι o)) o (get v)).2)
      rw [hget, hput] at hnext
      simp only [Transaction.liftProg, Prog.run, faulty] at hnext ⊢
      rw [hanswer]
      refine ⟨hnext.1, hnext.2.1, ?_⟩
      rw [List.filterMap_cons, List.filterMap_cons, hlog, hget, hnext.2.2]
  obtain ⟨hresult, hworld, hevents⟩ := hlift t.run n v
  change Prog.run _ n (Transaction.liftProg ι t.run) v = _ at hrun
  rw [hrun] at hresult hworld hevents
  refine ⟨_, hworld, ?_⟩
  have hinner := h _ _ _ ⟨fun n o => raises n (ι o), n, rfl⟩
  rw [← hresult, ← hevents] at hinner
  exact hinner

end Records

end Records

/-! ### What is permitted after what was done -/

variable (permits : Trace Value W → Op → Prop)

/-- **A transaction does what is permitted** after what was done before, and comes to
something with all that was done, however its operations are answered. -/
def Heeds (t : Transaction Value ε α) (before : Trace Value W)
    (Q : Except ε α → Trace Value W → Prop) : Prop :=
  ∀ w, Prog.Heeds .nothing permits t.run before w fun x trace _ => Q x trace

namespace Heeds

variable {permits} {before : Trace Value W} {t : Transaction Value ε α}
  {Q : Except ε α → Trace Value W → Prop}

/-- All that is done in a run is permitted. -/
theorem permitted (h : Heeds permits t before Q) (s : Schedule Op (fun o => Answer (Value o)) W) (n : ℕ)
    (w : W) : Prog.Permitted permits before (Prog.run s n t.run w).events :=
  ((h w).run s n (Prog.Rely.admits_nothing _ _ _)).1

theorem pure {a : α} (h : Q (.ok a) before) :
    Heeds permits (pure a : Transaction Value ε α) before Q := fun _ => h

theorem throw {e : ε} (h : Q (.error e) before) :
    Heeds permits (throw e : Transaction Value ε α) before Q := fun _ => h

theorem perform {o : Op} {k : Answer (Value o) → Except ε α} (ho : permits before o)
    (h : ∀ x w w', Q (k x) (before ++ [⟨o, x, w, w'⟩])) :
    Heeds permits (Transaction.perform o k) before Q :=
  fun _ => ⟨ho, fun x w w' _ _ => h x w w'⟩

/-- A call is permitted, and raises or returns something. -/
theorem call {o : Op} {error : ε} {Q : Except ε (Value o) → Trace Value W → Prop} (ho : permits before o)
    (hraised : ∀ w w', Q (.error error) (before ++ [⟨o, .raised, w, w'⟩]))
    (hreturned : ∀ a w w', Q (.ok a) (before ++ [⟨o, .returned a, w, w'⟩])) :
    Heeds permits (Transaction.call o error) before Q :=
  perform ho fun
    | .raised => hraised
    | .returned a => hreturned a

theorem tried {o : Op} {Q : Except ε (Answer (Value o)) → Trace Value W → Prop} (ho : permits before o)
    (h : ∀ x w w', Q (.ok x) (before ++ [⟨o, x, w, w'⟩])) :
    Heeds permits (Transaction.tried o) before Q := perform ho h

/-- The second part of a sequence is performed where the first one returns. -/
theorem bind {f : α → Transaction Value ε β} {R : Except ε β → Trace Value W → Prop}
    (h : Heeds permits t before fun x trace => match x with
      | .error e => R (.error e) trace
      | .ok a => Heeds permits (f a) trace R) : Heeds permits (t >>= f) before R := by
  intro w
  refine Prog.Heeds.bind (f := ExceptT.bindCont f) ((h w).conseq ?_)
  rintro (e | a) trace w' hx
  · exact hx
  · exact hx w'

theorem conseq {R : Except ε α → Trace Value W → Prop} (h : Heeds permits t before Q)
    (hQ : ∀ x trace, Q x trace → R x trace) : Heeds permits t before R :=
  fun w => (h w).conseq fun x trace _ => hQ x trace

end Heeds

end MayRun

end Faults

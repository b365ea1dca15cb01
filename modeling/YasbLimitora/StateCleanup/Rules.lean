import Mathlib
import YasbLimitora.StateCleanup.Delete

/-!
# What is done by handles

The world of the deletion is what has been done by each handle: what it was opened relative
to, what its queries and its listings showed, whether it marked its file for deletion, and
how often it was closed. `YasbLimitora.StateCleanup.Neat` is what is asked of a call, and
`YasbLimitora.StateCleanup.Neatly` of a part of the deletion, with a rule for each way to
build one.

Handles are numbered as they are opened and never used again for another file, so that a record of
what was done by a handle is kept under its number after it was closed. What is asked of a call is
asked of the record of its handle: that it is open, that its checks were made and were passed, and
that its file is inside the verified root.
-/

namespace YasbLimitora

namespace StateCleanup

/-! ### What has been done -/

/-- What has been done by a handle. -/
structure Record where
  parent : Option Handle
  name : Text
  queries : ℕ
  /-- Its last query showed no reparse point. -/
  clear : Bool
  final : Option Text
  listed : List Entry
  marked : Bool
  closes : ℕ

namespace Record

/-- A handle that was just opened. -/
def fresh (parent : Option Handle) (name : Text) : Record := ⟨parent, name, 0, false, none, [], false, 0⟩

/-- An answer to a query. -/
def queried (r : Record) (clear : Bool) : Record := { r with queries := r.queries + 1, clear := clear }

def closed (r : Record) : Record := { r with closes := r.closes + 1 }

end Record

structure Done where
  /-- The number of the next handle to be opened. -/
  next : Handle
  record : Handle → Record

namespace Done

/-- Nothing has been done. -/
def nothing : Done := ⟨0, fun _ => .fresh none []⟩

/-- A handle is opened. -/
def push (w : Done) (r : Record) : Done := ⟨w.next + 1, Function.update w.record w.next r⟩

def modify (w : Done) (h : Handle) (f : Record → Record) : Done :=
  { w with record := Function.update w.record h (f (w.record h)) }

/-- A record takes the next number. -/
@[simp] theorem next_push (w : Done) (r : Record) : (w.push r).next = w.next + 1 := rfl

@[simp] theorem next_modify (w : Done) (h : Handle) (f : Record → Record) : (w.modify h f).next = w.next :=
  rfl

/-- The record that was just added is found under its number. -/
@[simp] theorem record_push_self (w : Done) (r : Record) : (w.push r).record w.next = r :=
  Function.update_self ..

theorem record_push_of_ne {w : Done} {r : Record} {h : Handle} (hne : h ≠ w.next) :
    (w.push r).record h = w.record h := Function.update_of_ne hne ..

@[simp] theorem record_modify_self (w : Done) (h : Handle) (f : Record → Record) :
    (w.modify h f).record h = f (w.record h) := Function.update_self ..

theorem record_modify_of_ne {w : Done} {h h' : Handle} {f : Record → Record} (hne : h' ≠ h) :
    (w.modify h f).record h' = w.record h' := Function.update_of_ne hne ..

/-- A handle that was just opened is changed. -/
theorem modify_push (w : Done) (r : Record) (f : Record → Record) :
    (w.push r).modify w.next f = w.push (f r) := by
  refine congrArg (Done.mk (w.next + 1)) ?_
  rw [record_push_self]
  exact Function.update_idem ..

/-- Records under two numbers are changed in either order. -/
theorem modify_comm {h h' : Handle} (hne : h ≠ h') (w : Done) (f g : Record → Record) :
    (w.modify h f).modify h' g = (w.modify h' g).modify h f := by
  refine congrArg (Done.mk w.next) ?_
  rw [record_modify_of_ne hne.symm, record_modify_of_ne hne]
  exact Function.update_comm hne ..

/-- A handle is open. -/
def Open (w : Done) (h : Handle) : Prop := h < w.next ∧ (w.record h).closes = 0

/-- Something of this name was opened relative to a handle, and marked. -/
def HasMarked (w : Done) (h : Handle) (name : Text) : Prop :=
  ∃ c < w.next, (w.record c).parent = some h ∧ (w.record c).name = name ∧ (w.record c).marked = true

/-- **All that a handle listed is marked.** -/
def AllMarked (w : Done) (h : Handle) : Prop :=
  ∀ entry ∈ (w.record h).listed, ∀ name, entry.name = some name → isDots name = false →
    w.HasMarked h name

end Done

/-- What a native call answers, and leaves, if it comes to this. -/
def CleanupOp.perform : (o : CleanupOp) → o.Resp → Done → o.Resp × Done
  | .openParent _, some _, w => (some w.next, w.push (.fresh none []))
  | .openRelative parent name _, some _, w => (some w.next, w.push (.fresh (some parent) name))
  | .query h, none, w => (none, w.modify h (·.queried false))
  | .query h, some info, w => (some info, w.modify h (·.queried !info.isReparse))
  | .finalPath h, path, w => (path, w.modify h fun r => { r with final := path })
  | .queryDirectory h _, .entries l, w =>
    (.entries l, w.modify h fun r => { r with listed := r.listed ++ l })
  | .delete h, true, w => (true, w.modify h fun r => { r with marked := true })
  | .close h, _, w => ((), w.modify h .closed)
  | _, result, w => (result, w)

abbrev Results := ℕ → (o : CleanupOp) → o.Resp

def answering (results : Results) : Schedule CleanupOp CleanupOp.Resp Done where
  others _ w := w
  answer n o w := o.perform (results n o) w

abbrev CleanupEvent := Event CleanupOp CleanupOp.Resp Done

/-! ### What is asked of the calls -/

/-- **A handle inside the verified root**: the root, relative to its parent, or what was opened
relative to a handle inside it. All of these are open. -/
inductive Inside (normal : Text) (w : Done) : Handle → Prop
  | root {h p : Handle} (hopen : w.Open h) (hparent : (w.record h).parent = some p) (hp : w.Open p)
      (hfinal : (w.record h).final = some normal) : Inside normal w h
  | child {h p : Handle} (hopen : w.Open h) (hparent : (w.record h).parent = some p)
      (hp : Inside normal w p) : Inside normal w h

/-- The handle that a call is given. -/
def CleanupOp.handle : CleanupOp → Option Handle
  | .openParent _ => none
  | .openRelative parent _ _ => some parent
  | .query h => some h
  | .finalPath h => some h
  | .queryDirectory h _ => some h
  | .delete h => some h
  | .close h => some h

/-- A query that fails, or shows a reparse point. -/
def isRefused : (o : CleanupOp) → o.Resp → Bool
  | .query _, none => true
  | .query _, some info => info.isReparse
  | _, _ => false

/-- What is marked for deletion is inside the root, and showed no reparse point. -/
def Confined (normal : Text) (e : CleanupEvent) : Prop :=
  ∀ h, e.op = .delete h → Inside normal e.before h ∧ (e.before.record h).clear = true

/-- A handle that is used is open. -/
def Uses (e : CleanupEvent) : Prop := ∀ h, e.op.handle = some h → e.before.Open h

/-- A handle is refused that was not when it was opened. -/
def Relapses (e : CleanupEvent) : Prop :=
  isRefused e.op e.resp = true ∧ ∃ h, e.op = .query h ∧ 0 < (e.before.record h).queries

/-- A call as it should be. -/
structure Neat (normal : Text) (e : CleanupEvent) : Prop where
  confined : Confined normal e
  uses : Uses e
  first : ¬ Relapses e

/-! ### Rules -/

section Rules

variable {α β : Type} {normal : Text} {w : Done} {t : Deleting α}

/-- What a part of the deletion comes to. -/
def Traced (t : Deleting α) (w : Done) (Q : Except Raised α → Done → List CleanupEvent → Prop) : Prop :=
  Prog.Meets (Set.range answering) (· = w) t.run Q

/-- **A part of the deletion that makes calls as it should.** -/
def Neatly (normal : Text) (t : Deleting α) (w : Done) (Q : Except Raised α → Done → Prop) : Prop :=
  Traced t w fun x w' events => (∀ e ∈ events, Neat normal e) ∧ Q x w'

namespace Traced

variable {Q : Except Raised α → Done → List CleanupEvent → Prop}

/-- What returns at once has traced nothing. -/
theorem pure {a : α} (h : Q (.ok a) w []) : Traced (pure a : Deleting α) w Q :=
  Prog.Meets.ret fun _ hw => hw ▸ h

/-- What raises at once has traced nothing either. -/
theorem throw {e : Raised} (h : Q (.error e) w []) : Traced (throw e : Deleting α) w Q :=
  Prog.Meets.ret fun _ hw => hw ▸ h

/-- A weaker condition is met too. -/
theorem conseq {R : Except Raised α → Done → List CleanupEvent → Prop} (h : Traced t w Q)
    (hQ : ∀ x w' events, Q x w' events → R x w' events) : Traced t w R := Prog.Meets.conseq h hQ

/-- The second part of a sequence is performed where the first one returns. -/
theorem bind {f : α → Deleting β} {R : Except Raised β → Done → List CleanupEvent → Prop}
    (h : Traced t w fun x w' events => match x with
      | .error e => R (.error e) w' events
      | .ok a => Traced (f a) w' fun y w'' more => R y w'' (events ++ more)) : Traced (t >>= f) w R := by
  refine Prog.Meets.bind (f := ExceptT.bindCont f) (Prog.Meets.conseq h ?_)
  rintro (e | a) w' events hx
  · refine ⟨(· = w'), rfl, Prog.Meets.ret fun _ hw => ?_⟩
    rw [hw, List.append_nil]
    exact hx
  · exact ⟨(· = w'), rfl, hx⟩

/-- A native call. -/
theorem call {o : CleanupOp} {Q : Except Raised o.Resp → Done → List CleanupEvent → Prop}
    (h : ∀ result, Q (.ok (o.perform result w).1) (o.perform result w).2
      [⟨o, (o.perform result w).1, w, (o.perform result w).2⟩]) : Traced (StateCleanup.call o) w Q := by
  refine Prog.Meets.op (fun _ ⟨_, hs⟩ _ _ hw => hs ▸ hw) ?_
  rintro _ ⟨results, rfl⟩ n w' rfl
  exact ⟨(· = (o.perform (results n o) w').2), rfl, Prog.Meets.ret fun _ hw => hw ▸ h (results n o)⟩

/-- The handle of a `finally` is closed whatever the body comes to. -/
theorem closing {handle : Handle}
    (h : Traced t w fun x w' events => Q x (w'.modify handle .closed)
      (events ++ [⟨.close handle, (), w', w'.modify handle .closed⟩])) :
    Traced (StateCleanup.closing handle t) w Q := by
  refine Prog.Meets.bind (Prog.Meets.conseq h ?_)
  intro x w' events hx
  refine ⟨(· = w'), rfl, Prog.Meets.op (fun _ ⟨_, hs⟩ _ _ hw => hs ▸ hw) ?_⟩
  rintro _ ⟨results, rfl⟩ n _ rfl
  exact ⟨_, rfl, Prog.Meets.ret fun _ hw => hw ▸ hx⟩

end Traced

namespace Neatly

variable {Q : Except Raised α → Done → Prop}

theorem pure {a : α} (h : Q (.ok a) w) : Neatly normal (pure a : Deleting α) w Q :=
  Traced.pure ⟨List.forall_mem_nil _, h⟩

theorem throw {e : Raised} (h : Q (.error e) w) : Neatly normal (throw e : Deleting α) w Q :=
  Traced.throw ⟨List.forall_mem_nil _, h⟩

theorem conseq {R : Except Raised α → Done → Prop} (h : Neatly normal t w Q)
    (hQ : ∀ x w', Q x w' → R x w') : Neatly normal t w R :=
  Traced.conseq h fun _ _ _ hx => ⟨hx.1, hQ _ _ hx.2⟩

/-- A step is followed by what comes after it if it returns, and by nothing if it raises. -/
theorem bind {f : α → Deleting β} {R : Except Raised β → Done → Prop}
    (h : Neatly normal t w fun x w' => match x with
      | .error e => R (.error e) w'
      | .ok a => Neatly normal (f a) w' R) : Neatly normal (t >>= f) w R := by
  refine Traced.bind (Traced.conseq h ?_)
  rintro (e | a) w' events ⟨hevents, hx⟩
  · exact ⟨hevents, hx⟩
  · exact Traced.conseq hx fun _ _ _ hy => ⟨List.forall_mem_append.2 ⟨hevents, hy.1⟩, hy.2⟩

/-- A single operation is neat if its event is, whatever it answers. -/
theorem call {o : CleanupOp} {Q : Except Raised o.Resp → Done → Prop}
    (ho : ∀ result, Neat normal ⟨o, (o.perform result w).1, w, (o.perform result w).2⟩)
    (h : ∀ result, Q (.ok (o.perform result w).1) (o.perform result w).2) :
    Neatly normal (StateCleanup.call o) w Q :=
  Traced.call fun result => ⟨List.forall_mem_singleton.2 (ho result), h result⟩

/-- Whatever becomes of the block, its handle is closed after it. -/
theorem closing {handle : Handle}
    (h : Neatly normal t w fun x w' => w'.Open handle ∧ Q x (w'.modify handle .closed)) :
    Neatly normal (StateCleanup.closing handle t) w Q := by
  refine Traced.closing (Traced.conseq h ?_)
  rintro x w' events ⟨hevents, hopen, hx⟩
  refine ⟨List.forall_mem_append.2 ⟨hevents, List.forall_mem_singleton.2 ⟨nofun, ?_, ?_⟩⟩, hx⟩
  · rintro _ ⟨⟩
    exact hopen
  · rintro ⟨hrefused, -⟩
    cases hrefused

end Neatly

/-- A call that neither deletes nor is refused. -/
theorem neat_of_open {e : CleanupEvent} (hdelete : ∀ h, e.op ≠ .delete h) (huses : Uses e)
    (hrefused : isRefused e.op e.resp = false) : Neat normal e :=
  ⟨fun h hop => absurd hop (hdelete h), huses, fun h => Bool.noConfusion (hrefused.symm.trans h.1)⟩

end Rules

end StateCleanup

end YasbLimitora

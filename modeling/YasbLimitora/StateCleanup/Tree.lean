import Mathlib
import YasbLimitora.StateCleanup.Rules

/-!
# The deletion of a tree

Whatever the native calls come to, what is done in a directory that is inside the verified
root leaves the handles that were open as they were, and those that it opened closed; and
where it succeeds all that was listed is marked
(`YasbLimitora.StateCleanup.treeSpec_tree`).

A directory is deleted after its entries, each of which is opened relative to the handle of the
directory and checked before anything is done with it. The specification of a tree,
`YasbLimitora.StateCleanup.TreeSpec`, is proved by induction on the fuel of the recursion, which
stands for the depth of the tree, and within it on the entries that a listing returned. It says what
an outer level needs of an inner one: the handles that the outer level has open are open and its
records as they were, and all that is new is closed.
-/

namespace YasbLimitora

namespace StateCleanup

/-! ### Handles that are opened -/

/-- A handle that was checked when it was opened. -/
def Record.opened (parent : Option Handle) (name : Text) : Record := (fresh parent name).queried true

/-- A handle that was refused when it was opened. -/
def Record.refused (parent : Option Handle) (name : Text) : Record :=
  ((fresh parent name).queried false).closed

section Opening

variable {normal : Text} {w : Done}

/-- What an opening leaves: a handle that is open, or none. -/
def Opens (w : Done) (parent : Option Handle) (name : Text) : Except Raised Handle → Done → Prop
  | .ok h, w' => h = w.next ∧ w' = w.push (.opened parent name)
  | .error e, w' => e = .osError ∧ (w' = w ∨ w' = w.push (.refused parent name))

/-- What the check of a handle that was just opened leaves. -/
def Checks (w : Done) (parent : Option Handle) (name : Text) : Except Raised Info → Done → Prop
  | .ok _, w' => w' = w.push (.opened parent name)
  | .error e, w' => e = .osError ∧ w' = w.push (.refused parent name)

/-- A handle that was just opened is open. -/
theorem open_push {r : Record} (hr : r.closes = 0) : (w.push r).Open w.next :=
  ⟨Nat.lt_succ_self _, by rw [Done.record_push_self]; exact hr⟩

/-- The check of a fresh handle closes it if it fails, and only then. -/
theorem neatly_checked (parent : Option Handle) (name : Text) :
    Neatly normal (checked w.next) (w.push (.fresh parent name)) (Checks w parent name) := by
  have hquery : ∀ x w', Neat normal ⟨.query w.next, x, w.push (.fresh parent name), w'⟩ := by
    refine fun x w' => ⟨nofun, ?_, ?_⟩
    · rintro _ ⟨⟩
      exact open_push rfl
    · rintro ⟨-, h, hop, hqueries⟩
      obtain rfl := CleanupOp.query.inj hop
      rw [Done.record_push_self] at hqueries
      exact lt_irrefl 0 hqueries
  have hrefused : Neatly normal (do
      let _ ← call (.close w.next)
      throw .osError : Deleting Info) ((w.push (.fresh parent name)).modify w.next (·.queried false))
      (Checks w parent name) := by
    rw [Done.modify_push]
    refine .bind (.call (fun _ => neat_of_open nofun ?_ rfl) fun _ => .throw ⟨rfl, Done.modify_push ..⟩)
    rintro _ ⟨⟩
    exact open_push rfl
  refine .bind (.call (fun _ => hquery _ _) fun (info : Option Info) => ?_)
  rcases info with _ | info
  · exact hrefused
  · dsimp only [CleanupOp.perform]
    rcases hreparse : info.isReparse
    · exact .pure (Done.modify_push ..)
    · exact hrefused

/-- An opening that is checked comes to an open handle that was not there before, or to none. -/
theorem neatly_checkedOpen (parent : Option Handle) (name : Text) :
    Neatly normal (checkedOpen (some w.next)) (w.push (.fresh parent name)) (Opens w parent name) := by
  refine .bind ((neatly_checked parent name).conseq ?_)
  rintro (e | info) w' hx
  · exact ⟨hx.1, Or.inr hx.2⟩
  · exact .pure ⟨rfl, hx⟩

/-- The parent is opened and checked, or nothing is left open of it. -/
theorem neatly_openParent (path : Text) :
    Neatly normal (openParent path) w (Opens w none []) := by
  refine .bind (.call (fun _ => neat_of_open nofun nofun rfl) fun (result : Option Handle) => ?_)
  rcases result with _ | h
  · exact .throw ⟨rfl, Or.inl rfl⟩
  · exact neatly_checkedOpen none []

/-- **A handle is opened relative to one that is open**, or what was opened is closed again. -/
theorem neatly_openRelative {parent : Handle} (hparent : w.Open parent) (name : Text) (directory : Bool) :
    Neatly normal (openRelative parent name directory) w (Opens w (some parent) name) := by
  refine .bind (.call (fun _ => neat_of_open nofun ?_ rfl) fun (result : Option Handle) => ?_)
  · rintro _ ⟨⟩
    exact hparent
  rcases result with _ | h
  · exact .throw ⟨rfl, Or.inl rfl⟩
  · exact neatly_checkedOpen (some parent) name

end Opening

/-! ### What a tree leaves -/

namespace Done

/-- What is never taken back of a handle. -/
structure Keeps (w w' : Done) : Prop where
  next : w.next ≤ w'.next
  parent : ∀ h < w.next, (w'.record h).parent = (w.record h).parent
  name : ∀ h < w.next, (w'.record h).name = (w.record h).name
  marked : ∀ h < w.next, (w.record h).marked = true → (w'.record h).marked = true

variable {w w' w'' : Done}

/-- A name that is marked stays marked. -/
theorem HasMarked.keeps {h : Handle} {name : Text} (hmarked : w.HasMarked h name) (hw : Keeps w w') :
    w'.HasMarked h name := by
  obtain ⟨c, hc, hparent, hname, hmark⟩ := hmarked
  exact ⟨c, hc.trans_le hw.next, (hw.parent c hc).trans hparent, (hw.name c hc).trans hname, hw.marked c hc hmark⟩

/-- A listing stays marked unless it is made anew. -/
theorem AllMarked.keeps {h : Handle} (hall : w.AllMarked h) (hw : Keeps w w')
    (hlisted : (w'.record h).listed = (w.record h).listed) : w'.AllMarked h := by
  intro entry hentry name hname hdots
  rw [hlisted] at hentry
  exact (hall entry hentry name hname hdots).keeps hw

/-- What is noted of a handle keeps its place in the tree, and no mark is taken back. -/
theorem keeps_modify {h : Handle} {f : Record → Record} (hparent : ∀ r, (f r).parent = r.parent)
    (hname : ∀ r, (f r).name = r.name) (hmarked : ∀ r, r.marked = true → (f r).marked = true) :
    Keeps w (w.modify h f) := by
  refine ⟨le_rfl, fun h' _ => ?_, fun h' _ => ?_, fun h' _ hmark => ?_⟩ <;> by_cases hne : h' = h
  · rw [hne, record_modify_self, hparent]
  · rw [record_modify_of_ne hne]
  · rw [hne, record_modify_self, hname]
  · rw [record_modify_of_ne hne]
  · rw [hne, record_modify_self]
    exact hmarked _ (hne ▸ hmark)
  · rwa [record_modify_of_ne hne]

/-- **What is done in a directory**: its own handle has listed more, those that were opened are
closed, and nothing else is touched. -/
structure Settles (d : Handle) (w w' : Done) : Prop where
  next : w.next ≤ w'.next
  same : ∀ h < w.next, h ≠ d → w'.record h = w.record h
  here : w'.record d = { w.record d with listed := (w'.record d).listed }
  closed : ∀ h, w.next ≤ h → h < w'.next → (w'.record h).closes = 1

namespace Settles

variable {d : Handle}

/-- Nothing is settled where nothing was done. -/
theorem refl (d : Handle) (w : Done) : Settles d w w :=
  ⟨le_rfl, fun _ _ _ => rfl, rfl, fun _ h h' => absurd h' (Nat.not_lt.2 h)⟩

/-- What is settled in turn is settled. -/
theorem trans (h : Settles d w w') (h' : Settles d w' w'') (hd : d < w.next) : Settles d w w'' := by
  refine ⟨h.next.trans h'.next, fun c hc hne => ?_, ?_, fun c hc hlt => ?_⟩
  · rw [h'.same c (hc.trans_le h.next) hne, h.same c hc hne]
  · rw [h'.here, h.here]
  · by_cases hold : c < w'.next
    · rw [h'.same c hold (hd.trans_le hc).ne']
      exact h.closed c hc hold
    · exact h'.closed c (Nat.not_lt.1 hold) hlt

/-- What was there before is kept. -/
theorem keeps (h : Settles d w w') : Keeps w w' := by
  refine ⟨h.next, fun c hc => ?_, fun c hc => ?_, fun c hc hmark => ?_⟩ <;> by_cases hne : c = d
  · rw [hne, h.here]
  · rw [h.same c hc hne]
  · rw [hne, h.here]
  · rw [h.same c hc hne]
  · rw [hne] at hmark ⊢
    rw [h.here]
    exact hmark
  · rwa [h.same c hc hne]

/-- What was open before is still open. -/
theorem isOpen (h : Settles d w w') {c : Handle} (hc : w.Open c) : w'.Open c := by
  refine ⟨hc.1.trans_le h.next, ?_⟩
  by_cases hne : c = d
  · rw [hne, h.here]
    exact hne ▸ hc.2
  · rw [h.same c hc.1 hne]
    exact hc.2

/-- Of what was there before nothing is closed for good. -/
theorem final (h : Settles d w w') {c : Handle} (hc : c < w.next) :
    (w'.record c).final = (w.record c).final := by
  by_cases hne : c = d
  · rw [hne, h.here]
  · rw [h.same c hc hne]

/-- A handle that is refused is closed at once. -/
theorem of_refused (parent : Option Handle) (name : Text) (hd : d < w.next) :
    Settles d w (w.push (.refused parent name)) := by
  refine ⟨Nat.le_succ _, fun h hh _ => record_push_of_ne hh.ne, ?_, fun h hh hlt => ?_⟩
  · rw [record_push_of_ne hd.ne]
  · obtain rfl : h = w.next := Nat.le_antisymm (Nat.lt_succ_iff.1 hlt) hh
    rw [record_push_self]
    rfl

end Settles

end Done

open Done (Settles Keeps)

variable {normal : Text} {w w' : Done} {d : Handle}

/-- What is inside the root stays there while the handles on the way stay open. -/
theorem Inside.mono (h : Inside normal w d) (hopen : ∀ c, w.Open c → w'.Open c)
    (hparent : ∀ c, w.Open c → (w'.record c).parent = (w.record c).parent)
    (hfinal : ∀ c, w.Open c → (w'.record c).final = (w.record c).final) : Inside normal w' d := by
  induction h with
  | root hc hp hpopen hf => exact .root (hopen _ hc) ((hparent _ hc).trans hp) (hopen _ hpopen) ((hfinal _ hc).trans hf)
  | child hc hp _ ih => exact .child (hopen _ hc) ((hparent _ hc).trans hp) ih

/-- A directory inside the root is open. -/
theorem Inside.isOpen (h : Inside normal w d) : w.Open d := by
  rcases h with ⟨hopen, -, -, -⟩ | ⟨hopen, -, -⟩
  · exact hopen
  · exact hopen

/-- A directory stays inside the root whatever is done to another one. -/
theorem Inside.settles {c : Handle} (h : Inside normal w d) (hw : Settles c w w') : Inside normal w' d :=
  h.mono (fun _ hc => hw.isOpen hc) (fun _ hc => hw.keeps.parent _ hc.1) fun _ hc => hw.final hc.1

/-- What was opened in between makes no difference. -/
theorem Inside.of_same (h : Inside normal w d) (hnext : w.next ≤ w'.next)
    (hsame : ∀ c < w.next, w'.record c = w.record c) : Inside normal w' d := by
  refine h.mono (fun c hc => ⟨hc.1.trans_le hnext, ?_⟩) (fun c hc => ?_) fun c hc => ?_
  · rw [hsame c hc.1]
    exact hc.2
  · rw [hsame c hc.1]
  · rw [hsame c hc.1]

/-! ### The tree -/

/-- What is left of a child before its handle is closed: the rest is settled. -/
structure ChildOpen (w w' : Done) (d : Handle) (name : Text) : Prop where
  next : w.next < w'.next
  same : ∀ h < w.next, w'.record h = w.record h
  parent : (w'.record w.next).parent = some d
  name : (w'.record w.next).name = name
  unclosed : (w'.record w.next).closes = 0
  closed : ∀ h, w.next < h → h < w'.next → (w'.record h).closes = 1

/-- A child is settled once it is closed. -/
theorem ChildOpen.settles {name : Text} (h : ChildOpen w w' d name) (hd : d < w.next) :
    Settles d w (w'.modify w.next .closed) := by
  refine ⟨h.next.le, fun c hc _ => ?_, ?_, fun c hc hlt => ?_⟩
  · rw [Done.record_modify_of_ne hc.ne, h.same c hc]
  · rw [Done.record_modify_of_ne hd.ne, h.same d hd]
  · rcases Nat.lt_or_eq_of_le hc with hc | rfl
    · rw [Done.record_modify_of_ne hc.ne']
      exact h.closed c hc hlt
    · rw [Done.record_modify_self, Record.closed, h.unclosed]

/-- A child that was opened is such, after what is done in it. -/
theorem childOpen_of_settles {name : Text} (h : Settles w.next (w.push (.opened (some d) name)) w') :
    ChildOpen w w' d name := by
  have hchild := h.here
  rw [Done.record_push_self] at hchild
  refine ⟨h.next, fun c hc => ?_, ?_, ?_, ?_, fun c hc hlt => h.closed c hc hlt⟩
  · rw [h.same c (Nat.lt_succ_of_lt hc) hc.ne, Done.record_push_of_ne hc.ne]
  · rw [hchild]
    rfl
  · rw [hchild]
    rfl
  · rw [hchild]
    rfl

/-- All that was listed by handles that were opened in between is marked. -/
def NewMarked (w w' : Done) : Prop := ∀ h, w.next ≤ h → h < w'.next → w'.AllMarked h

/-- What two steps have marked is marked after both. -/
theorem NewMarked.trans {w'' : Done} (h : NewMarked w w') (h' : NewMarked w' w'') (hw : Settles d w' w'')
    (hd : d < w.next) : NewMarked w w'' := by
  intro c hc hlt
  by_cases hold : c < w'.next
  · refine (h c hc hold).keeps hw.keeps ?_
    rw [hw.same c hold (hd.trans_le hc).ne']
  · exact h' c (Nat.not_lt.1 hold) hlt

/-- **What is done in a directory** that is inside the root: everything opened in it is settled and,
where it succeeds, marked. -/
def TreeSpec (normal : Text) (tree : Handle → Deleting Unit) : Prop :=
  ∀ d w, Inside normal w d → Neatly normal (tree d) w fun x w' =>
    Settles d w w' ∧ (x = .ok () → (w.AllMarked d → w'.AllMarked d) ∧ NewMarked w w')

/-- A handle is marked for deletion, if the path that it stands for is still clear; or `OSError` is
raised. -/
theorem neatly_delete (hd : Inside normal w d) (hclear : (w.record d).clear = true) :
    Neatly normal (delete d) w fun x w' =>
      w' = w ∧ x = .error .osError ∨ w' = w.modify d (fun r => { r with marked := true }) ∧ x = .ok () := by
  refine .bind (.call (fun _ => ⟨?_, ?_, ?_⟩) fun (deleted : Bool) => ?_)
  · rintro _ ⟨⟩
    exact ⟨hd, hclear⟩
  · rintro _ ⟨⟩
    exact hd.isOpen
  · rintro ⟨-, h, hop, -⟩
    cases hop
  rcases deleted
  · exact .throw (Or.inl ⟨rfl, rfl⟩)
  · exact .pure (Or.inr ⟨rfl, rfl⟩)

/-- What is done in a child that was just opened: a directory is descended into, and of anything else
there is nothing to mark. -/
theorem neatly_descend {tree : Handle → Deleting Unit} (htree : TreeSpec normal tree) {name : Text}
    (hinside : Inside normal (w.push (.opened (some d) name)) w.next) (directory : Bool) :
    Neatly normal (descend tree w.next directory) (w.push (.opened (some d) name)) fun x w' =>
      Settles w.next (w.push (.opened (some d) name)) w' ∧ (x = .ok () → NewMarked w w') := by
  have hnone : (w.push (.opened (some d) name)).AllMarked w.next := by
    intro entry hentry
    rw [Done.record_push_self] at hentry
    cases hentry
  rcases directory
  · refine .pure ⟨.refl _ _, fun _ c hc hlt => ?_⟩
    obtain rfl : c = w.next := Nat.le_antisymm (Nat.lt_succ_iff.1 hlt) hc
    exact hnone
  · refine (htree _ _ hinside).conseq fun x w₂ hx => ⟨hx.1, fun hok c hc hlt => ?_⟩
    rcases Nat.lt_or_eq_of_le hc with hc | rfl
    · exact (hx.2 hok).2 c hc hlt
    · exact (hx.2 hok).1 hnone

/-- A child that was opened can be closed, and its directory is left alone. -/
theorem ChildOpen.closing {name : Text} (h : ChildOpen w w' d name) (hd : d < w.next) :
    w'.Open w.next ∧ Settles d w (w'.modify w.next .closed) ∧
      ((w'.modify w.next .closed).record d).listed = (w.record d).listed := by
  refine ⟨⟨h.next, h.unclosed⟩, h.settles hd, ?_⟩
  rw [Done.record_modify_of_ne hd.ne, h.same d hd]

/-- Marking a child for deletion leaves it open. -/
theorem ChildOpen.mark {name : Text} (h : ChildOpen w w' d name) :
    ChildOpen w (w'.modify w.next fun r => { r with marked := true }) d name := by
  refine ⟨h.next, fun c hc => ?_, ?_, ?_, ?_, fun c hc hlt => ?_⟩
  · rw [Done.record_modify_of_ne hc.ne, h.same c hc]
  · rw [Done.record_modify_self]
    exact h.parent
  · rw [Done.record_modify_self]
    exact h.name
  · rw [Done.record_modify_self]
    exact h.unclosed
  · rw [Done.record_modify_of_ne hc.ne']
    exact h.closed c hc hlt

/-- A child that was marked and closed is marked, by its name, in its directory. -/
theorem ChildOpen.hasMarked {name : Text} (h : ChildOpen w w' d name) :
    ((w'.modify w.next fun r => { r with marked := true }).modify w.next .closed).HasMarked d name := by
  refine ⟨w.next, h.next, ?_, ?_, ?_⟩
  · rw [Done.record_modify_self, Done.record_modify_self]
    exact h.parent
  · rw [Done.record_modify_self, Done.record_modify_self]
    exact h.name
  · rw [Done.record_modify_self, Done.record_modify_self]
    rfl

/-- What was marked stays marked while a child is marked and closed. -/
theorem NewMarked.mark_close (h : NewMarked w w') :
    NewMarked w ((w'.modify w.next fun r => { r with marked := true }).modify w.next .closed) := by
  intro c hc hlt
  have hmark : Keeps w' (w'.modify w.next fun r => { r with marked := true }) :=
    Done.keeps_modify (fun _ => rfl) (fun _ => rfl) fun _ _ => rfl
  have hclose : Keeps (w'.modify w.next fun r => { r with marked := true })
      ((w'.modify w.next fun r => { r with marked := true }).modify w.next .closed) :=
    Done.keeps_modify (fun _ => rfl) (fun _ => rfl) fun _ h => h
  refine ((h c hc hlt).keeps hmark ?_).keeps hclose ?_
  · by_cases hne : c = w.next
    · rw [hne, Done.record_modify_self]
    · rw [Done.record_modify_of_ne hne]
  · by_cases hne : c = w.next
    · rw [hne, Done.record_modify_self]
      rfl
    · rw [Done.record_modify_of_ne hne]

/-- **A child is deleted**, and all that is in it. -/
theorem neatly_deleteChild {tree : Handle → Deleting Unit} (htree : TreeSpec normal tree)
    (hd : Inside normal w d) (name : Text) (directory : Bool) :
    Neatly normal (deleteChild tree d name directory) w fun x w' =>
      Settles d w w' ∧ (w'.record d).listed = (w.record d).listed ∧
        (x = .ok () → w'.HasMarked d name ∧ NewMarked w w') := by
  have hlt : d < w.next := hd.isOpen.1
  refine .bind ((neatly_openRelative hd.isOpen name directory).conseq ?_)
  rintro (e | child) w₁ hopens
  · rcases hopens.2 with rfl | rfl
    · exact ⟨.refl d w₁, rfl, nofun⟩
    · refine ⟨.of_refused _ name hlt, ?_, nofun⟩
      rw [Done.record_push_of_ne hlt.ne]
  obtain ⟨rfl, rfl⟩ := hopens
  -- the child is inside the root, because its directory is
  have hinside : Inside normal (w.push (.opened (some d) name)) w.next := by
    refine .child (open_push rfl) ?_ (hd.of_same (Nat.le_succ _) fun c hc => Done.record_push_of_ne hc.ne)
    rw [Done.record_push_self]
    rfl
  refine .closing (.bind ((neatly_descend htree hinside directory).conseq ?_))
  rintro (e | ⟨⟩) w₂ ⟨hsettles, hmarked⟩
  · obtain ⟨hopen, hsettled, hlisted⟩ := (childOpen_of_settles hsettles).closing hlt
    exact ⟨hopen, hsettled, hlisted, nofun⟩
  have hchild := childOpen_of_settles hsettles
  have hclear : (w₂.record w.next).clear = true := by
    rw [hsettles.here, Done.record_push_self]
    rfl
  refine (neatly_delete (hinside.settles hsettles) hclear).conseq ?_
  rintro x w₃ (⟨rfl, rfl⟩ | ⟨rfl, rfl⟩)
  · obtain ⟨hopen, hsettled, hlisted⟩ := hchild.closing hlt
    exact ⟨hopen, hsettled, hlisted, nofun⟩
  · obtain ⟨hopen, hsettled, hlisted⟩ := hchild.mark.closing hlt
    exact ⟨hopen, hsettled, hlisted, fun _ => ⟨hchild.hasMarked, (hmarked rfl).mark_close⟩⟩

/-- The entries of a listing are deleted, one after the other. -/
theorem neatly_deleteEntries {tree : Handle → Deleting Unit} (htree : TreeSpec normal tree)
    (hd : Inside normal w d) (entries : List Entry) :
    Neatly normal (deleteEntries tree d entries) w fun x w' =>
      Settles d w w' ∧ (w'.record d).listed = (w.record d).listed ∧
        (x = .ok () → (∀ entry ∈ entries, ∀ name, entry.name = some name → isDots name = false →
          w'.HasMarked d name) ∧ NewMarked w w') := by
  induction entries generalizing w with
  | nil => exact .pure ⟨.refl d w, rfl, fun _ => ⟨List.forall_mem_nil _, fun h hh hlt => absurd hlt (Nat.not_lt.2 hh)⟩⟩
  | cons entry rest ih =>
    rw [deleteEntries]
    split
    · exact .throw ⟨.refl d w, rfl, nofun⟩
    · next name hname =>
      split
      · next hdots =>
        refine (ih hd).conseq fun x w' ⟨hsettles, hlisted, hx⟩ => ⟨hsettles, hlisted, fun hok => ⟨?_, (hx hok).2⟩⟩
        refine List.forall_mem_cons.2 ⟨fun name' hname' hnot => ?_, (hx hok).1⟩
        obtain rfl := Option.some.inj (hname.symm.trans hname')
        exact absurd hdots (Bool.eq_false_iff.1 hnot)
      split
      · exact .throw ⟨.refl d w, rfl, nofun⟩
      refine .bind ((neatly_deleteChild htree hd name entry.isDirectory).conseq ?_)
      rintro (e | ⟨⟩) w₁ ⟨hsettles, hlisted, hx⟩
      · exact ⟨hsettles, hlisted, nofun⟩
      obtain ⟨hmarked, hnew⟩ := hx rfl
      refine (ih (hd.settles hsettles)).conseq fun x w₂ ⟨hsettles₂, hlisted₂, hx₂⟩ => ?_
      refine ⟨hsettles.trans hsettles₂ hd.isOpen.1, hlisted₂.trans hlisted, fun hok => ?_⟩
      obtain ⟨hrest, hnew₂⟩ := hx₂ hok
      refine ⟨List.forall_mem_cons.2 ⟨fun name' hname' _ => ?_, hrest⟩, hnew.trans hnew₂ hsettles₂ hd.isOpen.1⟩
      obtain rfl := Option.some.inj (hname.symm.trans hname')
      exact hmarked.keeps hsettles₂.keeps

/-- The handle of a directory lists some of what is in it. -/
theorem settles_listed (l : List Entry) (w : Done) :
    Settles d w (w.modify d fun r => { r with listed := r.listed ++ l }) := by
  refine ⟨le_rfl, fun h _ hne => Done.record_modify_of_ne hne, ?_, fun h hh hlt => absurd hlt (Nat.not_lt.2 hh)⟩
  rw [Done.record_modify_self]

/-- The directory is listed and emptied again and again, until a listing is empty. -/
theorem neatly_deleteListings {tree : Handle → Deleting Unit} (htree : TreeSpec normal tree)
    (hd : Inside normal w d) (listings : ℕ) (first : Bool) :
    Neatly normal (deleteListings tree d listings first) w fun x w' =>
      Settles d w w' ∧ (x = .ok () → (w.AllMarked d → w'.AllMarked d) ∧ NewMarked w w') := by
  induction listings generalizing w first with
  | zero => exact .throw ⟨.refl d w, nofun⟩
  | succ listings ih =>
    refine .bind (.call (fun _ => neat_of_open nofun ?_ rfl) fun (listing : Listing) => ?_)
    · rintro _ ⟨⟩
      exact hd.isOpen
    rcases listing with _ | _ | entries
    · exact .pure ⟨.refl d w, fun _ => ⟨id, fun h hh hlt => absurd hlt (Nat.not_lt.2 hh)⟩⟩
    · exact .throw ⟨.refl d w, nofun⟩
    have hlist := settles_listed (d := d) entries w
    have hd₁ := hd.settles hlist
    refine .bind ((neatly_deleteEntries htree hd₁ entries).conseq ?_)
    rintro (e | ⟨⟩) w₁ ⟨hsettles, hlisted, hx⟩
    · exact ⟨hlist.trans hsettles hd.isOpen.1, nofun⟩
    obtain ⟨hentries, hnew⟩ := hx rfl
    have hsettles₁ := hlist.trans hsettles hd.isOpen.1
    refine (ih (hd.settles hsettles₁) false).conseq fun x w₂ ⟨hsettles₂, hx₂⟩ => ?_
    refine ⟨hsettles₁.trans hsettles₂ hd.isOpen.1, fun hok => ⟨fun hall => (hx₂ hok).1 ?_, ?_⟩⟩
    · -- what was listed before, and what is listed now
      intro entry hentry name hname hdots
      rw [hlisted, Done.record_modify_self] at hentry
      rcases List.mem_append.1 hentry with hentry | hentry
      · exact (hall entry hentry name hname hdots).keeps hsettles₁.keeps
      · exact hentries entry hentry name hname hdots
    · exact hnew.trans (hx₂ hok).2 hsettles₂ hd.isOpen.1

/-- **A tree is deleted** as far as it goes. -/
theorem treeSpec_tree (listings depth : ℕ) : TreeSpec normal (tree listings depth) := by
  induction depth with
  | zero => exact fun d w _ => .throw ⟨.refl d w, nofun⟩
  | succ depth ih => exact fun d w hd => neatly_deleteListings ih hd listings true

end StateCleanup

end YasbLimitora

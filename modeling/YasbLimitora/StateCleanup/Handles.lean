import Mathlib
import YasbLimitora.StateCleanup.Tree

/-!
# What the deletion does with its handles

Whatever the native calls come to, only what is inside the verified root is marked, by
handles that showed no reparse point, and all of it where the deletion succeeds. Handles are
closed once, and not used again, unless a handle that was checked when it was opened is
refused when its identity is asked for: `_checked` then closes it, and the `finally` closes
it again (`YasbLimitora.StateCleanup.handled_iff`).

The exception is a slip of one function. `_checked` closes the handle that it refuses, and its
caller has opened it in a `try` whose `finally` closes it too. It takes a handle that passes its
first check and fails at the second, so that the property is stated for the schedules of native
results in which that does not happen, and these are exactly the ones that handle every file once.
-/

namespace YasbLimitora

namespace StateCleanup

open Done (Keeps)

variable {normal : Text} {w w' : Done}

/-! ### A handle that is refused later -/

section EitherWay

variable {α β : Type} {t : Deleting α} {P P' : Done → Prop}

/-- **What comes of a handle that is refused later**: something was used that was closed, or will
be. -/
structure Spoils (normal : Text) (P : Done → Prop) (x : Except Raised α) (w' : Done)
    (events : List CleanupEvent) : Prop where
  error : x = .error .osError
  confined : ∀ e ∈ events, Confined normal e
  relapse : ∃ e ∈ events, Relapses e
  misuse : (∃ e ∈ events, ¬ Uses e) ∨ P w'

/-- A part of the deletion makes calls as it should, or is spoiled. -/
def EitherWay (normal : Text) (P : Done → Prop) (t : Deleting α) (w : Done)
    (Q : Except Raised α → Done → Prop) : Prop :=
  Traced t w fun x w' events => ((∀ e ∈ events, Neat normal e) ∧ Q x w') ∨ Spoils normal P x w' events

namespace EitherWay

variable {Q : Except Raised α → Done → Prop}

/-- What is neat is so either way. -/
theorem of_neatly (h : Neatly normal t w Q) : EitherWay normal P t w Q :=
  Traced.conseq h fun _ _ _ hx => Or.inl hx

/-- Both ways may be weakened. -/
theorem conseq {R : Except Raised α → Done → Prop} (h : EitherWay normal P t w Q)
    (hQ : ∀ x w', Q x w' → R x w') (hP : ∀ w', P w' → P' w') : EitherWay normal P' t w R := by
  refine Traced.conseq h ?_
  rintro x w' events (⟨hevents, hx⟩ | hx)
  · exact Or.inl ⟨hevents, hQ _ _ hx⟩
  · exact Or.inr ⟨hx.error, hx.confined, hx.relapse, hx.misuse.imp_right (hP w')⟩

/-- A step that has gone wrong stays so, whatever comes after it. -/
theorem bind {f : α → Deleting β} {R : Except Raised β → Done → Prop}
    (h : EitherWay normal P t w fun x w' => match x with
      | .error e => R (.error e) w'
      | .ok a => EitherWay normal P (f a) w' R) : EitherWay normal P (t >>= f) w R := by
  refine Traced.bind (Traced.conseq h ?_)
  rintro (e | a) w' events (⟨hevents, hx⟩ | hx)
  · exact Or.inl ⟨hevents, hx⟩
  · exact Or.inr ⟨congrArg Except.error (Except.error.inj hx.error), hx.confined, hx.relapse, hx.misuse⟩
  · refine Traced.conseq hx ?_
    rintro y w'' more (⟨hmore, hy⟩ | hy)
    · exact Or.inl ⟨List.forall_mem_append.2 ⟨hevents, hmore⟩, hy⟩
    · obtain ⟨e, he, hrelapse⟩ := hy.relapse
      refine Or.inr ⟨hy.error, ?_, ⟨e, List.mem_append_right _ he, hrelapse⟩, hy.misuse.imp_left ?_⟩
      · exact List.forall_mem_append.2 ⟨fun e he => (hevents e he).confined, hy.confined⟩
      · rintro ⟨e, he, huses⟩
        exact ⟨e, List.mem_append_right _ he, huses⟩
  · cases hx.error

/-- A `finally` closes its handle, which may have been closed before. -/
theorem closing {handle : Handle} (hP : ∀ w', P w' → ¬ w'.Open handle ∨ P' (w'.modify handle .closed))
    (h : EitherWay normal P t w fun x w' => w'.Open handle ∧ Q x (w'.modify handle .closed)) :
    EitherWay normal P' (StateCleanup.closing handle t) w Q := by
  refine Traced.closing (Traced.conseq h ?_)
  have hconfined : ∀ w', Confined normal ⟨.close handle, (), w', w'.modify handle .closed⟩ := fun _ => nofun
  rintro x w' events (⟨hevents, hopen, hx⟩ | hx)
  · refine Or.inl ⟨List.forall_mem_append.2 ⟨hevents, List.forall_mem_singleton.2 ?_⟩, hx⟩
    refine neat_of_open nofun ?_ rfl
    rintro _ ⟨⟩
    exact hopen
  · obtain ⟨e, he, hrelapse⟩ := hx.relapse
    refine Or.inr ⟨hx.error, ?_, ⟨e, List.mem_append_left _ he, hrelapse⟩, ?_⟩
    · exact List.forall_mem_append.2 ⟨hx.confined, List.forall_mem_singleton.2 (hconfined w')⟩
    rcases hx.misuse with ⟨e, he, huses⟩ | hlater
    · exact Or.inl ⟨e, List.mem_append_left _ he, huses⟩
    rcases hP w' hlater with hclosed | hlater
    · exact Or.inl ⟨_, List.mem_append_right _ (List.mem_singleton_self _), fun huses => hclosed (huses _ rfl)⟩
    · exact Or.inr hlater

end EitherWay

/-- **The identity of a handle** that was checked before: it is refused now, and closed, or shown. -/
theorem eitherWay_identity {h : Handle} (hopen : w.Open h) (hqueries : 0 < (w.record h).queries) :
    EitherWay normal (fun w' => ¬ w'.Open h) (identity h) w fun x w' =>
      (∃ info, x = .ok info) ∧ w' = w.modify h (·.queried true) := by
  have huses : ∀ (x : Option Info) w', Uses ⟨.query h, x, w, w'⟩ := by
    rintro x w' _ ⟨⟩
    exact hopen
  -- the refusal, and the close that comes with it
  have hrefused : ∀ (x : Option Info) (w₁ : Done), isRefused (.query h) x = true →
      Traced (do
        let _ ← call (.close h)
        throw .osError : Deleting Info) (w.modify h (·.queried false)) fun y w' more =>
        Spoils normal (fun w' => ¬ w'.Open h) y w' ([⟨.query h, x, w, w₁⟩] ++ more) := by
    intro x w₁ hx
    refine .bind (.call fun _ => .throw ⟨rfl, ?_, ⟨_, List.mem_cons_self, hx, h, rfl, hqueries⟩, Or.inr ?_⟩)
    · exact List.forall_mem_cons.2 ⟨nofun, List.forall_mem_cons.2 ⟨nofun, List.forall_mem_nil _⟩⟩
    · rintro ⟨-, hcloses⟩
      dsimp only [CleanupOp.perform] at hcloses
      rw [Done.record_modify_self] at hcloses
      cases hcloses
  refine Traced.bind (.call fun (info : Option Info) => ?_)
  rcases info with _ | info
  · exact (hrefused none _ rfl).conseq fun _ _ _ hx => Or.inr hx
  · dsimp only [CleanupOp.perform]
    rcases hreparse : info.isReparse
    · refine .pure (Or.inl ⟨List.forall_mem_singleton.2 ?_, ⟨info, rfl⟩, rfl⟩)
      exact neat_of_open nofun (huses _ _) hreparse
    · exact (hrefused (some info) _ hreparse).conseq fun _ _ _ hx => Or.inr hx

end EitherWay

/-! ### The directory -/

/-- The parent and the root are open, nothing else is, and nothing was listed. -/
structure Rooted (p r : Handle) (w : Done) : Prop where
  openParent : w.Open p
  openRoot : w.Open r
  ne : p ≠ r
  parent : (w.record r).parent = some p
  queries : 0 < (w.record r).queries
  clear : (w.record r).clear = true
  others : ∀ h < w.next, h ≠ p → h ≠ r → (w.record h).closes = 1
  listed : ∀ h < w.next, (w.record h).listed = []

variable {p r : Handle}

/-- The root is changed, but not what is said of it. -/
theorem Rooted.modify {f : Record → Record} (h : Rooted p r w) (hcloses : ∀ x, (f x).closes = x.closes)
    (hparent : ∀ x, (f x).parent = x.parent) (hqueries : ∀ x, x.queries ≤ (f x).queries)
    (hclear : ∀ x, x.clear = true → (f x).clear = true) (hlisted : ∀ x, (f x).listed = x.listed) :
    Rooted p r (w.modify r f) := by
  refine ⟨⟨h.openParent.1, ?_⟩, ⟨h.openRoot.1, ?_⟩, h.ne, ?_, ?_, ?_, fun c hc hp hr => ?_, fun c hc => ?_⟩
  · rw [Done.record_modify_of_ne h.ne]
    exact h.openParent.2
  · rw [Done.record_modify_self, hcloses]
    exact h.openRoot.2
  · rw [Done.record_modify_self, hparent]
    exact h.parent
  · rw [Done.record_modify_self]
    exact h.queries.trans_le (hqueries _)
  · rw [Done.record_modify_self]
    exact hclear _ h.clear
  · rw [Done.record_modify_of_ne hr]
    exact h.others c hc hp hr
  · by_cases hne : c = r
    · rw [hne, Done.record_modify_self, hlisted]
      exact h.listed r h.openRoot.1
    · rw [Done.record_modify_of_ne hne]
      exact h.listed c hc

/-- What was opened next is closed again, and listed nothing. -/
theorem Rooted.push {x : Record} (h : Rooted p r w) (hcloses : x.closes = 1) (hlisted : x.listed = []) :
    Rooted p r (w.push x) := by
  have hold : ∀ c < w.next, (w.push x).record c = w.record c := fun c hc => Done.record_push_of_ne hc.ne
  have hnew : ∀ c < w.next + 1, c < w.next ∨ c = w.next := fun c hc => Nat.lt_succ_iff_lt_or_eq.1 hc
  refine ⟨⟨Nat.lt_succ_of_lt h.openParent.1, ?_⟩, ⟨Nat.lt_succ_of_lt h.openRoot.1, ?_⟩, h.ne, ?_, ?_, ?_,
    fun c hc hp hr => ?_, fun c hc => ?_⟩
  · rw [hold p h.openParent.1]
    exact h.openParent.2
  · rw [hold r h.openRoot.1]
    exact h.openRoot.2
  · rw [hold r h.openRoot.1]
    exact h.parent
  · rw [hold r h.openRoot.1]
    exact h.queries
  · rw [hold r h.openRoot.1]
    exact h.clear
  · rcases hnew c hc with hc | rfl
    · rw [hold c hc]
      exact h.others c hc hp hr
    · rw [Done.record_push_self, hcloses]
  · rcases hnew c hc with hc | rfl
    · rw [hold c hc]
      exact h.listed c hc
    · rw [Done.record_push_self, hlisted]

/-- Looking at the root again changes nothing but what is known of it. -/
theorem neatly_verifyRoot (path : TargetPath) (h : Rooted p r w) :
    Neatly normal (verifyRoot path r) w fun x w' =>
      Rooted p r w' ∧ (x = .ok () → (w'.record r).final = some path.normal) := by
  have hroot : ∀ shown, Rooted p r (w.modify r fun x => { x with final := shown }) := fun shown =>
    h.modify (fun _ => rfl) (fun _ => rfl) (fun _ => le_rfl) (fun _ hx => hx) fun _ => rfl
  refine .bind (.bind (.call (fun _ => neat_of_open nofun ?_ rfl) fun (shown : Option Text) => ?_))
  · rintro _ ⟨⟩
    exact h.openRoot
  rcases shown with _ | shown
  · exact .throw ⟨hroot none, nofun⟩
  refine .pure ?_
  show Neatly normal (if shown ≠ path.normal then _ else _) _ _
  split
  · exact .throw ⟨hroot (some shown), nofun⟩
  · next hsame =>
    refine .pure ⟨hroot (some shown), fun _ => ?_⟩
    dsimp only [CleanupOp.perform]
    rw [Done.record_modify_self, not_not.1 hsame]

/-- **The probe** shows that the root is still the one under its name, or one of both is refused. -/
theorem eitherWay_compareProbe (path : TargetPath) (h : Rooted p r w) :
    EitherWay normal (fun w' => ¬ w'.Open r) (compareProbe path p r) w fun _ w' =>
      Rooted p r w' ∧ (w'.record r).final = (w.record r).final := by
  refine .bind (.of_neatly ((neatly_openRelative h.openParent path.basename true).conseq ?_))
  rintro (e | probe) w₁ hopens
  · rcases hopens.2 with rfl | rfl
    · exact ⟨h, rfl⟩
    · refine ⟨h.push rfl rfl, ?_⟩
      rw [Done.record_push_of_ne h.openRoot.1.ne]
  obtain ⟨rfl, rfl⟩ := hopens
  have hne : r ≠ w.next := h.openRoot.1.ne
  have hopenRoot : ∀ x, (w.push x).Open r := fun x =>
    ⟨Nat.lt_succ_of_lt h.openRoot.1, by rw [Done.record_push_of_ne hne]; exact h.openRoot.2⟩
  -- either of both may be refused
  refine .closing (P := fun w' => ¬ w'.Open w.next ∨ ¬ w'.Open r) ?_ (.bind ?_)
  · rintro w' (hclosed | hclosed)
    · exact Or.inl hclosed
    · refine Or.inr fun hopen => hclosed ⟨hopen.1, ?_⟩
      rw [← hopen.2, Done.record_modify_of_ne hne]
  refine (eitherWay_identity (open_push rfl) (by rw [Done.record_push_self]; exact Nat.one_pos)).conseq ?_
    fun w' hclosed => Or.inl hclosed
  rintro x w₁ ⟨⟨first, rfl⟩, rfl⟩
  rw [Done.modify_push]
  refine .bind ((eitherWay_identity (hopenRoot _) ?_).conseq ?_ fun w' hclosed => Or.inr hclosed)
  · rw [Done.record_push_of_ne hne]
    exact h.queries
  rintro x w₁ ⟨⟨second, rfl⟩, rfl⟩
  -- what is left of the probe is as if it had been refused
  have hprobe : ∀ x : Record, ((w.push x).modify r (·.queried true)).modify w.next .closed =
      (w.push x.closed).modify r (·.queried true) := by
    intro x
    rw [Done.modify_comm hne, Done.modify_push]
  have hend : ∀ x : Record, x.closes = 0 → x.listed = [] →
      ((w.push x).modify r (·.queried true)).Open w.next ∧
        Rooted p r (((w.push x).modify r (·.queried true)).modify w.next .closed) ∧
          ((((w.push x).modify r (·.queried true)).modify w.next .closed).record r).final = (w.record r).final := by
    intro x hcloses hlisted
    have hclosed : x.closed.closes = 1 := congrArg (· + 1) hcloses
    rw [hprobe]
    refine ⟨⟨Nat.lt_succ_self _, ?_⟩, (h.push hclosed hlisted).modify (fun _ => rfl) (fun _ => rfl)
      (fun _ => Nat.le_succ _) (fun _ _ => rfl) fun _ => rfl, ?_⟩
    · rw [Done.record_modify_of_ne hne.symm, Done.record_push_self]
      exact hcloses
    · rw [Done.record_modify_self, Done.record_push_of_ne hne]
      rfl
  show EitherWay normal _ (if first ≠ second then _ else _) _ _
  split
  · exact .of_neatly (.throw (hend _ rfl rfl))
  · exact .of_neatly (.pure (hend _ rfl rfl))

/-- What the deletion of the root leaves: the parent and the root open. -/
structure RootDone (normal : Text) (p r : Handle) (x : Except Raised Bool) (w : Done) : Prop where
  openParent : w.Open p
  openRoot : w.Open r
  others : ∀ h < w.next, h ≠ p → h ≠ r → (w.record h).closes = 1
  marked : x = .ok true → (w.record r).final = some normal ∧ (w.record r).marked = true ∧
    ∀ h < w.next, w.AllMarked h

theorem Rooted.done (h : Rooted p r w) {e : Raised} : RootDone normal p r (.error e) w :=
  ⟨h.openParent, h.openRoot, h.others, nofun⟩

/-- **The root is deleted** with all that is in it, or one of both handles on it is refused. -/
theorem eitherWay_deleteRoot (listings depth : ℕ) (path : TargetPath) (h : Rooted p r w) :
    EitherWay path.normal (fun w' => ¬ w'.Open r) (deleteRoot listings depth path p r) w
      (RootDone path.normal p r) := by
  refine .bind (.of_neatly ((neatly_verifyRoot path h).conseq ?_))
  rintro (e | ⟨⟩) w₁ ⟨h₁, hfinal⟩
  · exact h₁.done
  refine .bind ((eitherWay_compareProbe path h₁).conseq ?_ fun _ hclosed => hclosed)
  rintro (e | ⟨⟩) w₂ ⟨h₂, hsame⟩
  · exact h₂.done
  have hfinal₂ : (w₂.record r).final = some path.normal := hsame.trans (hfinal rfl)
  have hinside : Inside path.normal w₂ r := .root h₂.openRoot h₂.parent h₂.openParent hfinal₂
  refine .of_neatly (.bind ((treeSpec_tree listings depth r w₂ hinside).conseq ?_))
  rintro x w₃ ⟨hsettles, hmarked⟩
  have hothers : ∀ c < w₃.next, c ≠ p → c ≠ r → (w₃.record c).closes = 1 := by
    intro c hc hp hr
    by_cases hold : c < w₂.next
    · rw [hsettles.same c hold hr]
      exact h₂.others c hold hp hr
    · exact hsettles.closed c (Nat.not_lt.1 hold) hc
  have hopenParent : w₃.Open p := hsettles.isOpen h₂.openParent
  have hopenRoot : w₃.Open r := hsettles.isOpen h₂.openRoot
  rcases x with e | ⟨⟩
  · exact ⟨hopenParent, hopenRoot, hothers, nofun⟩
  have hclear : (w₃.record r).clear = true := by
    rw [hsettles.here]
    exact h₂.clear
  have hall : ∀ c < w₃.next, w₃.AllMarked c := by
    have hnone : ∀ c < w₂.next, w₂.AllMarked c := by
      intro c hc entry hentry
      rw [h₂.listed c hc] at hentry
      cases hentry
    intro c hc
    by_cases hold : c < w₂.next
    · by_cases hr : c = r
      · exact hr ▸ (hmarked rfl).1 (hnone r h₂.openRoot.1)
      · refine (hnone c hold).keeps hsettles.keeps ?_
        rw [hsettles.same c hold hr]
    · exact (hmarked rfl).2 c (Nat.not_lt.1 hold) hc
  refine .bind ((neatly_delete (hinside.settles hsettles) hclear).conseq ?_)
  rintro x w₄ (⟨rfl, rfl⟩ | ⟨rfl, rfl⟩)
  · exact ⟨hopenParent, hopenRoot, hothers, nofun⟩
  refine .pure ⟨⟨hopenParent.1, ?_⟩, ⟨hopenRoot.1, ?_⟩, fun c hc hp hr => ?_, fun _ => ⟨?_, ?_, fun c hc => ?_⟩⟩
  · rw [Done.record_modify_of_ne h₂.ne]
    exact hopenParent.2
  · rw [Done.record_modify_self]
    exact hopenRoot.2
  · rw [Done.record_modify_of_ne hr]
    exact hothers c hc hp hr
  · rw [Done.record_modify_self]
    exact (hsettles.final h₂.openRoot.1).trans hfinal₂
  · rw [Done.record_modify_self]
  · refine (hall c hc).keeps (Done.keeps_modify (fun _ => rfl) (fun _ => rfl) fun _ _ => rfl) ?_
    by_cases hr : c = r
    · rw [hr, Done.record_modify_self]
    · rw [Done.record_modify_of_ne hr]

/-- What the whole deletion leaves: nothing open. -/
structure Finished (normal : Text) (x : Except Raised Bool) (w : Done) : Prop where
  closed : ∀ h < w.next, (w.record h).closes = 1
  marked : x = .ok true → (∃ root < w.next, (w.record root).final = some normal ∧ (w.record root).marked = true) ∧
    ∀ h < w.next, w.AllMarked h

/-- Both handles are closed, the root's first. -/
theorem RootDone.finished {x : Except Raised Bool} (h : RootDone normal p r x w) (hne : p ≠ r) :
    (w.modify r .closed).Open p ∧ Finished normal x ((w.modify r .closed).modify p .closed) := by
  have hp : (w.modify r .closed).record p = w.record p := Done.record_modify_of_ne hne
  refine ⟨⟨h.openParent.1, ?_⟩, fun c hc => ?_, fun hok => ?_⟩
  · rw [hp]
    exact h.openParent.2
  · by_cases hcp : c = p
    · rw [hcp, Done.record_modify_self, hp, Record.closed, h.openParent.2]
    · rw [Done.record_modify_of_ne hcp]
      by_cases hcr : c = r
      · rw [hcr, Done.record_modify_self, Record.closed, h.openRoot.2]
      · rw [Done.record_modify_of_ne hcr]
        exact h.others c hc hcp hcr
  · obtain ⟨hfinal, hmarked, hall⟩ := h.marked hok
    have hkeeps : ∀ (v : Done) c, Keeps v (v.modify c .closed) := fun v c =>
      Done.keeps_modify (fun _ => rfl) (fun _ => rfl) fun _ hx => hx
    have hlisted : ∀ (v : Done) c c', ((v.modify c .closed).record c').listed = (v.record c').listed := by
      intro v c c'
      by_cases hcc : c' = c
      · rw [hcc, Done.record_modify_self]
        rfl
      · rw [Done.record_modify_of_ne hcc]
    refine ⟨⟨r, h.openRoot.1, ?_, ?_⟩, fun c hc => ?_⟩
    · rw [Done.record_modify_of_ne hne.symm, Done.record_modify_self]
      exact hfinal
    · rw [Done.record_modify_of_ne hne.symm, Done.record_modify_self]
      exact hmarked
    · exact ((hall c hc).keeps (hkeeps _ _) (hlisted _ _ _)).keeps (hkeeps _ _) (hlisted _ _ _)

theorem finished_nothing {e : Raised} : Finished normal (.error e) .nothing :=
  ⟨fun h hh => absurd hh (Nat.not_lt_zero h), nofun⟩

/-- A handle that is closed by the time that another is opened. -/
theorem closes_push {v : Done} {x : Record} (hold : ∀ h < v.next, (v.record h).closes = 1)
    (hx : x.closes = 1) : ∀ h < v.next + 1, ((v.push x).record h).closes = 1 := by
  intro h hh
  rcases Nat.lt_succ_iff_lt_or_eq.1 hh with hh | rfl
  · rw [Done.record_push_of_ne hh.ne]
    exact hold h hh
  · rw [Done.record_push_self, hx]

/-- The root was just opened relative to its parent. -/
theorem rooted_push (name : Text) :
    Rooted 0 1 ((Done.nothing.push (.opened none [])).push (.opened (some 0) name)) := by
  have hnext : ∀ h < 2, h = 0 ∨ h = 1 := by omega
  refine ⟨⟨Nat.two_pos, rfl⟩, ⟨Nat.one_lt_two, rfl⟩, Nat.zero_ne_one, rfl, Nat.one_pos, rfl, ?_, ?_⟩
  · intro h hh hp hr
    exact absurd (hnext h hh) (not_or.2 ⟨hp, hr⟩)
  · intro h hh
    rcases hnext h hh with rfl | rfl
    · rfl
    · rfl

/-- Deleting closes all that it opened. -/
theorem eitherWay_deleteOpened (listings depth : ℕ) (path : TargetPath) :
    EitherWay path.normal (fun _ => False) (deleteOpened listings depth path) .nothing
      (Finished path.normal) := by
  refine .bind (.of_neatly ((neatly_openParent path.dirname).conseq ?_))
  rintro (e | parent) w₁ hopens
  · rcases hopens.2 with rfl | rfl
    · exact finished_nothing
    · exact ⟨closes_push (fun h hh => absurd hh (Nat.not_lt_zero h)) rfl, nofun⟩
  obtain ⟨rfl, rfl⟩ := hopens
  refine .closing (P := fun _ => False) (fun _ h => h.elim) (.bind ?_)
  refine .of_neatly ((neatly_openRelative (open_push rfl) path.basename true).conseq ?_)
  rintro (e | root) w₂ hopens
  · rcases hopens.2 with rfl | rfl
    · refine ⟨open_push rfl, fun h hh => ?_, nofun⟩
      obtain rfl : h = 0 := Nat.lt_one_iff.1 hh
      rfl
    · refine ⟨⟨Nat.two_pos, rfl⟩, fun h hh => ?_, nofun⟩
      rcases Nat.lt_succ_iff_lt_or_eq.1 (show h < 1 + 1 from hh) with hh | rfl
      · obtain rfl : h = 0 := Nat.lt_one_iff.1 hh
        rfl
      · rfl
  obtain ⟨rfl, rfl⟩ := hopens
  refine .closing (P := fun w' => ¬ w'.Open 1) (fun _ hclosed => Or.inl hclosed) ?_
  refine (eitherWay_deleteRoot listings depth path (rooted_push path.basename)).conseq ?_ fun _ hclosed => hclosed
  intro x w' hdone
  exact ⟨hdone.openRoot, hdone.finished Nat.zero_ne_one⟩

/-- What the deletion comes to. -/
def run (listings depth : ℕ) (path : TargetPath) (results : Results) :
    Ran CleanupOp CleanupOp.Resp Done (Except Raised Bool) :=
  Prog.run (answering results) 0 (deleteDirectory listings depth path).run .nothing

/-- **All that is traced of a deletion**: it is neat, or it relapses once, and then does not say that it
succeeded. -/
theorem traced_deleteDirectory (listings depth : ℕ) (path : TargetPath) :
    Traced (deleteDirectory listings depth path) .nothing fun x w' events =>
      (∀ e ∈ events, Neat path.normal e) ∧ Finished path.normal x w' ∨
        x ≠ .ok true ∧ (∀ e ∈ events, Confined path.normal e) ∧ (∃ e ∈ events, Relapses e) ∧
          ∃ e ∈ events, ¬ Uses e := by
  unfold deleteDirectory
  split
  · exact .pure (Or.inl ⟨List.forall_mem_nil _, fun h hh => absurd hh (Nat.not_lt_zero h), nofun⟩)
  have hopened : Traced (deleteOpened listings depth path) .nothing _ := eitherWay_deleteOpened listings depth path
  refine Prog.Meets.bind (Prog.Meets.conseq hopened ?_)
  intro x w' events hx
  refine ⟨(· = w'), rfl, ?_⟩
  rcases hx with ⟨hevents, hfinished⟩ | hspoils
  · rcases x with (_ | _) | deleted
    · exact Prog.Meets.ret fun _ hw => Or.inl ⟨by rwa [List.append_nil], hw ▸ ⟨hfinished.closed, nofun⟩⟩
    · exact Prog.Meets.ret fun _ hw => Or.inl ⟨by rwa [List.append_nil], hw ▸ hfinished⟩
    · exact Prog.Meets.ret fun _ hw => Or.inl ⟨by rwa [List.append_nil], hw ▸ hfinished⟩
  · rw [hspoils.error]
    refine Prog.Meets.ret fun _ _ => Or.inr ?_
    rw [List.append_nil]
    exact ⟨nofun, hspoils.confined, hspoils.relapse, hspoils.misuse.resolve_right id⟩

/-- **What is marked for deletion**: whatever the native calls come to, nothing but what is inside
the verified root, by handles that showed no reparse point; and the root with all that its
handles listed, where the deletion succeeds. -/
structure MarksOnly (normal : Text) (ran : Ran CleanupOp CleanupOp.Resp Done (Except Raised Bool)) : Prop where
  confined : ∀ e ∈ ran.events, Confined normal e
  marked : ran.result = .ok true →
    (∃ root < ran.world.next, (ran.world.record root).final = some normal ∧ (ran.world.record root).marked = true) ∧
      ∀ h < ran.world.next, ran.world.AllMarked h

theorem run_marksOnly (listings depth : ℕ) (path : TargetPath) (results : Results) :
    MarksOnly path.normal (run listings depth path results) := by
  rcases traced_deleteDirectory listings depth path _ ⟨results, rfl⟩ 0 .nothing rfl with
    ⟨hevents, hfinished⟩ | ⟨hresult, hconfined, -, -⟩
  · exact ⟨fun e he => (hevents e he).confined, hfinished.marked⟩
  · exact ⟨hconfined, fun hok => absurd hok hresult⟩

/-- **A deletion handles its handles well**: what it marks is what it may, and each handle is open
where it is used, and closed once. -/
structure Handled (normal : Text) (ran : Ran CleanupOp CleanupOp.Resp Done (Except Raised Bool)) : Prop
    extends MarksOnly normal ran where
  uses : ∀ e ∈ ran.events, Uses e
  closed : ∀ h < ran.world.next, (ran.world.record h).closes = 1

def stateDirectory : TargetPath :=
  ⟨true, Text.ofString "C:\\local", Text.ofString "state", Text.ofString "c:\\local\\state"⟩

/-- Native calls that all succeed, but that the probe is refused when its identity is asked for. -/
def probeRefused (n : ℕ) : (o : CleanupOp) → o.Resp
  | .openParent _ => some 0
  | .openRelative _ _ _ => some 0
  | .query _ => if n = 7 then none else some ⟨(0, 0), 16⟩
  | .finalPath _ => some stateDirectory.normal
  | .queryDirectory _ _ => .noMore
  | .delete _ => true
  | .close _ => ()

end StateCleanup

end YasbLimitora

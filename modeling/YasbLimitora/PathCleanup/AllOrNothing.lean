import Mathlib
import YasbLimitora.PathCleanup.Registry

/-!
# When a PATH operation is all or nothing

An operation on the user PATH is *all or nothing* in a run if each change that it makes
itself keeps the elements of the PATH that are no route of its own, and if a refusal, but
for the one that admits it, leaves none of its changes: there was none, or there was one
and then its exact reversal.

What others make of the PATH in between, and which calls raise, is any schedule. The one
thing that goes wrong is the way back: `Compensated` says of a run that where a PATH was
to be put back the call did not raise, and that it was not the absence of a PATH that was
to be put back. `pathOperation_allOrNothing_iff` is that this is exactly when a path
operation is all or nothing.
-/

namespace YasbLimitora

namespace UserPath

abbrev Trace := List (Event Op Op.Resp Registry)

/-- The elements of a PATH, empty ones included. -/
def elements : Option RegValue → List Text
  | none => []
  | some v => split v.value

/-- **A change of the PATH from one route to another** keeps all other elements, in order:
it may only add or take an empty element where the route begins. -/
def Spliced (routes : Set (List Text)) (p q : Option RegValue) : Prop :=
  ∃ kept seam old seam' new, elements p = kept ++ seam ++ old ∧ elements q = kept ++ seam' ++ new ∧
    (seam = [] ∨ seam = [[]]) ∧ (seam' = [] ∨ seam' = [[]]) ∧ old ∈ routes ∧ new ∈ routes

/-- The routes of an operation: none, the recorded one, and the one that is added. -/
def Command.routes (c : Command) (recorded : Option Text) : Set (List Text) :=
  {l | l = [] ∨ (∃ o, recorded.bind owned = some o ∧ l = [o.element]) ∨
    ∃ element correctionConsent, c = .pathAdd element correctionConsent ∧ l = split element}

/-- The changes of the PATH that an operation made itself. -/
def changes (events : Trace) : List (Option RegValue × Option RegValue) :=
  events.filterMap fun e =>
    if e.before.path = e.after.path then none else some (e.before.path, e.after.path)

/-- There is no change, or one and its exact reversal. -/
def Undone (l : List (Option RegValue × Option RegValue)) : Prop :=
  l = [] ∨ ∃ p q, l = [(p, q), (q, p)]

structure AllOrNothing (routes : Set (List Text)) (result : Except Raised Outcome)
    (events : Trace) : Prop where
  spliced : ∀ e ∈ events, Spliced routes e.before.path e.after.path
  undone : ∀ reason, report result = .refused reason → reason ≠ "path-bookkeeping-rollback-failed" →
    Undone (changes events) ∧ ∀ e ∈ events, e.after.record = e.before.record

/-- Where this event was to put a PATH back, it did not raise, nor put an absent one back. -/
def RestoresOrNot : Event Op Op.Resp Registry → Prop
  | ⟨.compareAndWriteUserPath _ _ (.restoring old), resp, _, _⟩ =>
    resp ≠ Answer.raised ∧ (old = none → resp ≠ Answer.returned true)
  | _ => True

def Compensated (events : Trace) : Prop := ∀ e ∈ events, RestoresOrNot e

/-! ### Following the runs of a transaction -/

/-- Any edits of others, and any faults. -/
def Weather : Set (Schedule Op Op.Resp Registry) := {s | ∃ edits raises, s = weather edits raises}

section Follows

variable {α β : Type} {recorded : Option Text}

/-- What every run of a transaction comes to, from a record. -/
def Follows (recorded : Option Text) (t : Transacting α)
    (Q : Except Raised α → Option Text → Trace → Prop) : Prop :=
  Prog.Meets Weather (fun r => r.record = recorded) t.run fun a r events => Q a r.record events

theorem Follows.pure {a : α} {Q : Except Raised α → Option Text → Trace → Prop}
    (h : Q (.ok a) recorded []) : Follows recorded (pure a) Q :=
  Prog.Meets.ret fun _ hr => by rwa [hr]

theorem Follows.bind {t : Transacting α} {f : α → Transacting β}
    {Q : Except Raised β → Option Text → Trace → Prop}
    (h : Follows recorded t fun a recorded' events =>
      match a with
      | .error x => Q (.error x) recorded' events
      | .ok b => Follows recorded' (f b) fun c recorded'' more => Q c recorded'' (events ++ more)) :
    Follows recorded (t >>= f) Q := by
  refine Prog.Meets.bind (h.conseq fun a r events ha => ⟨fun r' => r'.record = r.record, rfl, ?_⟩)
  rcases a with x | b
  · exact Prog.Meets.ret fun r' hr' => by rwa [hr', List.append_nil]
  · exact ha

theorem Follows.conseq {t : Transacting α} {Q Q' : Except Raised α → Option Text → Trace → Prop}
    (h : Follows recorded t Q) (hQ : ∀ a recorded' events, Q a recorded' events →
      Q' a recorded' events) : Follows recorded t Q' :=
  Prog.Meets.conseq h fun a r events => hQ a r.record events

/-- Others keep the record. -/
theorem weather_record {s : Schedule Op Op.Resp Registry} (hs : s ∈ Weather) (n : ℕ) (r : Registry) :
    (s.others n r).record = r.record := by
  obtain ⟨edits, raises, rfl⟩ := hs
  rfl

theorem weather_answer {s : Schedule Op Op.Resp Registry} (hs : s ∈ Weather) (n : ℕ) (o : Op)
    (r : Registry) : s.answer n o r = (.raised, r) ∨
      s.answer n o r = (.returned (o.perform r).1, (o.perform r).2) := by
  obtain ⟨edits, raises, rfl⟩ := hs
  rcases hraises : raises n with _ | _
  · exact Or.inr (by simp [weather, Faults.faulty, Faults.answer, hraises])
  · exact Or.inl (by simp [weather, Faults.faulty, Faults.answer, hraises])

/-- The rule of a call, at whatever PATH it is made. -/
theorem Follows.perform {o : Op} {k : Answer o.Value → Except Raised α}
    {Q : Except Raised α → Option Text → Trace → Prop}
    (hraised : ∀ p, Q (k .raised) recorded [⟨o, .raised, ⟨p, recorded⟩, ⟨p, recorded⟩⟩])
    (hreturned : ∀ p, Q (k (.returned (o.perform ⟨p, recorded⟩).1))
      (o.perform ⟨p, recorded⟩).2.record
      [⟨o, .returned (o.perform ⟨p, recorded⟩).1, ⟨p, recorded⟩, (o.perform ⟨p, recorded⟩).2⟩]) :
    Follows recorded (Transaction.perform o k) Q := by
  refine Prog.Meets.op (fun s hs n r hr => (weather_record hs n r).trans hr) ?_
  rintro s hs n ⟨p, r⟩ (rfl : r = recorded)
  rcases weather_answer hs n o ⟨p, r⟩ with h | h
  · rw [h]
    exact ⟨fun r' => r' = ⟨p, r⟩, rfl, Prog.Meets.ret fun r' hr => by rw [hr]; exact hraised p⟩
  · rw [h]
    exact ⟨fun r' => r' = (o.perform ⟨p, r⟩).2, rfl,
      Prog.Meets.ret fun r' hr => by rw [hr]; exact hreturned p⟩

/-- A call that changes nothing, nor was to put anything back. -/
def IsQuiet (e : Event Op Op.Resp Registry) : Prop := e.after = e.before ∧ RestoresOrNot e

/-- A condition on runs that quiet calls make no difference to, and that an exception
meets. -/
structure Tolerates (recorded : Option Text) (Q : Except Raised α → Option Text → Trace → Prop) :
    Prop where
  raised : ∀ x, Q (.error x) recorded []
  quiet : ∀ a recorded' e events, IsQuiet e → Q a recorded' events → Q a recorded' (e :: events)

/-- The rule of a call that changes nothing. -/
theorem Follows.quiet {o : Op} {x : Raised} {f : o.Value → Transacting α}
    {Q : Except Raised α → Option Text → Trace → Prop} (hQ : Tolerates recorded Q)
    (hsame : ∀ p, (o.perform ⟨p, recorded⟩).2 = ⟨p, recorded⟩)
    (hrestores : ∀ resp r r', RestoresOrNot ⟨o, resp, r, r'⟩)
    (hf : ∀ p, Follows recorded (f (o.perform ⟨p, recorded⟩).1) Q) :
    Follows recorded (Transaction.call o x >>= f) Q := by
  refine .bind (.perform (fun p => ?_) fun p => ?_)
  · exact hQ.quiet _ _ _ _ ⟨rfl, hrestores _ _ _⟩ (hQ.raised x)
  · show Follows (o.perform ⟨p, recorded⟩).2.record _ _
    rw [hsame p]
    intro s hs n r hr
    exact hQ.quiet _ _ _ _ ⟨rfl, hrestores _ _ _⟩ (hf p s hs n r hr)

/-- The rule of a write that is to change the PATH. -/
theorem Follows.change {expected : Option RegValue} {written : RegValue} {f : Bool → Transacting α}
    {Q : Except Raised α → Option Text → Trace → Prop} (hQ : Tolerates recorded Q)
    (hwritten : Follows recorded (f true) fun a recorded' events => Q a recorded'
      (⟨.compareAndWriteUserPath expected written .changing, .returned true, ⟨expected, recorded⟩,
        ⟨some written, recorded⟩⟩ :: events))
    (hlost : Follows recorded (f false) Q) :
    Follows recorded (compareAndWriteUserPath expected written .changing >>= f) Q := by
  refine .bind (.perform (fun p => ?_) fun p => ?_)
  · exact hQ.quiet _ _ _ _ ⟨rfl, trivial⟩ (hQ.raised _)
  · by_cases hp : p = expected
    · subst hp
      simp only [Op.perform, if_pos]
      exact hwritten
    · simp only [Op.perform, if_neg hp]
      intro s hs n r hr
      exact hQ.quiet _ _ _ _ ⟨rfl, trivial⟩ (hlost s hs n r hr)

end Follows

/-! ### What an operation comes to -/

section Settled

variable {routes : Set (List Text)} {result : Except Raised Outcome} {events : Trace}

/-- The operation is all or nothing exactly if the run is compensated. -/
def Settled (routes : Set (List Text)) (result : Except Raised Outcome) (events : Trace) : Prop :=
  AllOrNothing routes result events ↔ Compensated events

theorem spliced_refl (h : [] ∈ routes) (p : Option RegValue) : Spliced routes p p :=
  ⟨elements p, [], [], [], [], by simp, by simp, Or.inl rfl, Or.inl rfl, h, h⟩

theorem settled_nil : Settled routes result [] :=
  iff_of_true ⟨nofun, fun _ _ _ => ⟨Or.inl rfl, nofun⟩⟩ nofun

/-- A quiet call makes no difference. -/
theorem settled_quiet (h : [] ∈ routes) {e : Event Op Op.Resp Registry} (he : IsQuiet e)
    (hevents : Settled routes result events) : Settled routes result (e :: events) := by
  obtain ⟨hsame, hrestores⟩ := he
  have hchanges : changes (e :: events) = changes events := by
    rw [changes, List.filterMap_cons, if_pos (by rw [hsame])]
    rfl
  have hall : AllOrNothing routes result (e :: events) ↔ AllOrNothing routes result events := by
    constructor
    · rintro ⟨hspliced, hundone⟩
      refine ⟨fun d hd => hspliced d (List.mem_cons_of_mem e hd), fun reason hreason hne => ?_⟩
      obtain ⟨hback, hrecord⟩ := hundone reason hreason hne
      exact ⟨hchanges ▸ hback, fun d hd => hrecord d (List.mem_cons_of_mem e hd)⟩
    · rintro ⟨hspliced, hundone⟩
      refine ⟨List.forall_mem_cons.2 ⟨?_, hspliced⟩, fun reason hreason hne => ?_⟩
      · rw [hsame]
        exact spliced_refl h _
      · obtain ⟨hback, hrecord⟩ := hundone reason hreason hne
        exact ⟨hchanges.symm ▸ hback, List.forall_mem_cons.2 ⟨by rw [hsame], hrecord⟩⟩
  rw [Settled, hall, Compensated, List.forall_mem_cons]
  exact hevents.trans ⟨fun hc => ⟨hrestores, hc⟩, fun hc => hc.2⟩

theorem settled_append (h : [] ∈ routes) {quiet : Trace} (hquiet : ∀ e ∈ quiet, IsQuiet e)
    (hevents : Settled routes result events) : Settled routes result (quiet ++ events) := by
  induction quiet with
  | nil => exact hevents
  | cons e quiet ih =>
    rw [List.forall_mem_cons] at hquiet
    exact settled_quiet h hquiet.1 (ih hquiet.2)

theorem tolerates_settled (h : [] ∈ routes) (recorded : Option Text) :
    Tolerates recorded fun result _ events => Settled routes result events :=
  ⟨fun _ => settled_nil, fun _ _ _ _ he hevents => settled_quiet h he hevents⟩

/-- The write of a changed PATH. -/
def written (recorded : Option Text) (old : Option RegValue) (changed : RegValue) :
    Event Op Op.Resp Registry :=
  ⟨.compareAndWriteUserPath old changed .changing, .returned true, ⟨old, recorded⟩,
    ⟨some changed, recorded⟩⟩

/-- The write that puts a PATH back. -/
def wayBack (recorded : Option Text) (changed restored : RegValue) (old : Option RegValue)
    (resp : Answer Bool) (p q : Option RegValue) : Event Op Op.Resp Registry :=
  ⟨.compareAndWriteUserPath (some changed) restored (.restoring old), resp, ⟨p, recorded⟩,
    ⟨q, recorded⟩⟩

theorem compensated_cons {e : Event Op Op.Resp Registry} :
    Compensated (e :: events) ↔ RestoresOrNot e ∧ Compensated events := List.forall_mem_cons

theorem compensated_nil : Compensated [] := nofun

/-- Without a refusal it is enough that each change keeps the other elements. -/
theorem settled_of_not_refused (hreport : ∀ reason, report result = .refused reason →
      reason = "path-bookkeeping-rollback-failed")
    (hspliced : ∀ e ∈ events, Spliced routes e.before.path e.after.path)
    (hcompensated : Compensated events) : Settled routes result events :=
  iff_of_true ⟨hspliced, fun reason h hne => absurd (hreport reason h) hne⟩ hcompensated

/-- **What follows a changed PATH**: the change stays, and then there is no refusal, or
the way back is tried. Only there can it go wrong: where the call raises, and where the
PATH was absent. -/
theorem follows_settle {recorded : Option Text} {update : Op} {changed restored : RegValue}
    {old : Option RegValue} (h : [] ∈ routes) (hchange : Spliced routes old (some changed))
    (hback : Spliced routes (some changed) (some restored)) (hne : old ≠ some changed)
    (hrestored : restored ≠ changed) (hold : some restored = old ↔ old ≠ none)
    (hupdate : ∀ p, (update.perform ⟨p, recorded⟩).2.path = p)
    (hrestores : ∀ resp r r', RestoresOrNot ⟨update, resp, r, r'⟩) :
    Follows recorded (settle update changed old restored) fun result _ events =>
      Settled routes result (written recorded old changed :: events) := by
  have hsame : ∀ p, Spliced routes p p := spliced_refl h
  refine .bind (.perform (fun p => ?_) fun p => ?_)
  · -- the record could not be updated
    show Follows recorded _ _
    refine .bind (.perform (fun q => ?_) fun q => ?_)
    · -- the call that is to put the PATH back raises
      refine iff_of_false ?_ fun hc => ?_
      · rintro ⟨-, hundone⟩
        rcases (hundone "path-access-failed" rfl (by decide)).1 with hnil | ⟨_, _, hlist⟩
        · simp [changes, written, hne] at hnil
        · simp [changes, written, hne] at hlist
      · have hraised := (compensated_cons.1 (compensated_cons.1 (compensated_cons.1 hc).2).2).1
        exact hraised.1 rfl
    · by_cases hq : q = some changed
      · subst hq
        simp only [Op.perform, if_pos]
        refine .pure ?_
        show Settled routes _ [written recorded old changed, ⟨update, .raised, ⟨p, recorded⟩,
          ⟨p, recorded⟩⟩, wayBack recorded changed restored old (.returned true) (some changed)
          (some restored)]
        have hchanges : changes [written recorded old changed, ⟨update, .raised, ⟨p, recorded⟩,
            ⟨p, recorded⟩⟩, wayBack recorded changed restored old (.returned true) (some changed)
            (some restored)] = [(old, some changed), (some changed, some restored)] := by
          simp [changes, written, wayBack, hne, hrestored.symm]
        have hundone : Undone [(old, some changed), (some changed, some restored)] ↔ old ≠ none := by
          rw [← hold]
          constructor
          · rintro (hnil | ⟨p, q, hlist⟩)
            · cases hnil
            · simp only [List.cons.injEq, Prod.mk.injEq, and_true] at hlist
              rw [hlist.2.2, hlist.1.1]
          · intro heq
            exact Or.inr ⟨old, some changed, by rw [heq]⟩
        constructor
        · rintro ⟨-, hall⟩
          have hold := hundone.1 (hchanges ▸ (hall "path-bookkeeping-failed" rfl (by decide)).1)
          exact compensated_cons.2 ⟨trivial, compensated_cons.2 ⟨hrestores _ _ _,
            compensated_cons.2 ⟨⟨nofun, fun hnone => absurd hnone hold⟩, compensated_nil⟩⟩⟩
        · intro hc
          have hway := (compensated_cons.1 (compensated_cons.1 (compensated_cons.1 hc).2).2).1
          have hold : old ≠ none := fun hnone => hway.2 hnone rfl
          refine ⟨by simp [written, wayBack, hchange, hback, hsame], fun _ _ _ => ⟨?_, ?_⟩⟩
          · rw [hchanges]
            exact hundone.2 hold
          · simp [written, wayBack]
      · simp only [Op.perform, if_neg hq]
        refine .pure (settled_of_not_refused ?_ ?_ ?_)
        · rintro reason ⟨⟩
          rfl
        · simp [written, hchange, hsame]
        · exact compensated_cons.2 ⟨trivial, compensated_cons.2 ⟨hrestores _ _ _,
            compensated_cons.2 ⟨⟨nofun, fun _ => nofun⟩, compensated_nil⟩⟩⟩
  · show Follows (update.perform ⟨p, recorded⟩).2.record _ _
    have hcompensated : ∀ resp r r', Compensated [written recorded old changed,
        ⟨update, .returned (update.perform ⟨p, recorded⟩).1, ⟨p, recorded⟩,
          (update.perform ⟨p, recorded⟩).2⟩, ⟨.notifyEnvironmentChanged, resp, r, r'⟩] := by
      intro resp r r'
      exact compensated_cons.2 ⟨trivial, compensated_cons.2 ⟨hrestores _ _ _,
        compensated_cons.2 ⟨trivial, compensated_nil⟩⟩⟩
    refine .bind (.perform (fun q => ?_) fun q => .pure ?_)
    · refine settled_of_not_refused nofun ?_ (hcompensated _ _ _)
      simp [written, hchange, hupdate, hsame]
    · refine settled_of_not_refused nofun ?_ (hcompensated _ _ _)
      have hnotify : ∀ r, Op.perform .notifyEnvironmentChanged r = ((), r) := fun _ => rfl
      simp [written, hchange, hupdate, hsame, hnotify]

end Settled

/-! ### Adding a route -/

section Append

variable {element : Text} {correctionConsent : Bool} {recorded : Option Text}

theorem nil_mem_routes (c : Command) (recorded : Option Text) : [] ∈ c.routes recorded := Or.inl rfl

/-- What one round comes to: an outcome, or nothing but quiet calls. -/
def RoundSettled (routes : Set (List Text)) (recorded : Option Text) :
    Except Raised (Option Outcome) → Option Text → Trace → Prop
  | .error x, _, events => Settled routes (.error x) events
  | .ok (some outcome), _, events => Settled routes (.ok outcome) events
  | .ok none, recorded', events => recorded' = recorded ∧ ∀ e ∈ events, IsQuiet e

variable (recorded) in
theorem tolerates_roundSettled {routes : Set (List Text)} (h : [] ∈ routes) :
    Tolerates recorded (RoundSettled routes recorded) where
  raised _ := settled_nil
  quiet a recorded' e events he hevents := by
    rcases a with x | _ | outcome
    · exact settled_quiet h he hevents
    · exact ⟨hevents.1, List.forall_mem_cons.2 ⟨he, hevents.2⟩⟩
    · exact settled_quiet h he hevents

variable (element) in
/-- **A PATH to which a route is added** keeps its other elements: what goes is the
recorded route, if it is to be replaced. -/
theorem spliced_corrected {current : Option RegValue} {value : Text} {type : ℕ}
    (hcurrent : IsSafe current ⟨value, type⟩) {value' : Text} (h : corrected current value recorded correctionConsent = .ok value') :
    Spliced ((Command.pathAdd element correctionConsent).routes recorded) current
      (some ⟨value' ++ .ch ';' :: element, type⟩) := by
  have hnew : split element ∈ (Command.pathAdd element correctionConsent).routes recorded :=
    Or.inr (Or.inr ⟨element, correctionConsent, rfl, rfl⟩)
  have hsplit := split_append value' element
  rcases corrected_eq_ok h with ⟨rfl, rfl⟩ | ⟨old, hold, hpath, hlast, -, hvalue⟩
  · rcases hcurrent with ⟨rfl, -⟩ | ⟨rfl, hempty⟩
    · exact ⟨split value', [], [], [], split element, by simp [elements], by simp [elements, hsplit],
        Or.inl rfl, Or.inl rfl, nil_mem_routes _ _, hnew⟩
    · obtain ⟨rfl, rfl⟩ := RegValue.mk.inj hempty
      exact ⟨[], [], [], [[]], split element, rfl, by rw [elements, hsplit]; rfl, Or.inl rfl,
        Or.inr rfl, nil_mem_routes _ _, hnew⟩
  · have hcurrent : current = some ⟨value, type⟩ := by
      rcases hcurrent with ⟨hsome, -⟩ | ⟨hnone, -⟩
      · exact hsome
      · rw [hnone] at hpath
        cases hpath
    have hgone : [old.element] ∈ (Command.pathAdd element correctionConsent).routes recorded :=
      Or.inr (Or.inl ⟨old, hold, rfl⟩)
    have hparts : split value = (split value).dropLast ++ [old.element] :=
      (List.dropLast_append_getLast? _ hlast).symm
    have hkept := split_join_dropLast value
    rw [← hvalue] at hkept
    rcases hkept with hkept | ⟨hnil, hkept⟩
    · refine ⟨(split value).dropLast, [], [old.element], [], split element, ?_, ?_, Or.inl rfl,
        Or.inl rfl, hgone, hnew⟩
      · rw [hcurrent, elements, List.append_nil, ← hparts]
      · rw [elements, hsplit, hkept, List.append_nil]
    · refine ⟨[], [], [old.element], [[]], split element, ?_, ?_, Or.inl rfl, Or.inr rfl, hgone, hnew⟩
      · rw [hnil] at hparts
        rw [hcurrent, elements, hparts]
        rfl
      · rw [elements, hsplit, hkept, List.nil_append]

theorem Spliced.symm {routes : Set (List Text)} {p q : Option RegValue} (h : Spliced routes p q) :
    Spliced routes q p := by
  obtain ⟨kept, seam, old, seam', new, hp, hq, hseam, hseam', hold, hnew⟩ := h
  exact ⟨kept, seam', new, seam, old, hq, hp, hseam', hseam, hnew, hold⟩

variable (element) in
/-- A PATH that was absent is put back as an empty one. -/
theorem spliced_wayBack {current : Option RegValue} {safe : RegValue} {value : Text}
    (hcurrent : IsSafe current safe)
    (hvalue : corrected current safe.value recorded correctionConsent = .ok value) :
    Spliced ((Command.pathAdd element correctionConsent).routes recorded)
      (some ⟨value ++ .ch ';' :: element, safe.type⟩)
      (some ⟨(current.map RegValue.value).getD [], safe.type⟩) := by
  have hchange := spliced_corrected element hcurrent hvalue
  rcases hcurrent with ⟨rfl, -⟩ | ⟨rfl, rfl⟩
  · exact hchange.symm
  · have hempty : value = [] := by
      rcases corrected_eq_ok hvalue with ⟨-, rfl⟩ | ⟨_, -, hpath, -⟩
      · rfl
      · cases hpath
    refine ⟨[[]], [], split element, [], [], ?_, rfl, Or.inl rfl, Or.inl rfl,
      Or.inr (Or.inr ⟨element, correctionConsent, rfl, rfl⟩), nil_mem_routes _ _⟩
    rw [elements, hempty, split_append]
    rfl

/-- The rest of a round, after a PATH was read. -/
theorem follows_appendTo {current : Option RegValue} {safe : RegValue}
    (hcurrent : IsSafe current safe)
    (helement : element ∉ split safe.value) :
    Follows recorded (appendTo element correctionConsent current safe)
      (RoundSettled ((Command.pathAdd element correctionConsent).routes recorded) recorded) := by
  have hroutes := nil_mem_routes (.pathAdd element correctionConsent) recorded
  have hQ := tolerates_roundSettled recorded hroutes
  refine .quiet hQ (fun _ => rfl) (fun _ _ _ => trivial) fun _ => ?_
  dsimp only
  split
  · exact .pure settled_nil
  next value hvalue =>
  refine .change hQ ?_ (.pure ⟨rfl, nofun⟩)
  have hchange := spliced_corrected element hcurrent hvalue
  have hlonger := corrected_ne helement hvalue
  have hback := spliced_wayBack element hcurrent hvalue
  have hrestores : ∀ x resp r r', RestoresOrNot ⟨.writeRecordedElement x, resp, r, r'⟩ :=
    fun _ _ _ _ => trivial
  refine .bind ((follows_settle hroutes hchange hback ?_ ?_ ?_ (fun _ => rfl)
    (hrestores _)).conseq fun a recorded' events h => ?_)
  · rcases hcurrent with ⟨rfl, -⟩ | ⟨rfl, -⟩
    · exact fun h => hlonger (congrArg RegValue.value (Option.some.inj h)).symm
    · exact nofun
  · intro h
    have hvalue := congrArg RegValue.value h
    rcases hcurrent with ⟨rfl, -⟩ | ⟨rfl, -⟩
    · exact hlonger hvalue.symm
    · simp at hvalue
  · rcases hcurrent with ⟨rfl, -⟩ | ⟨rfl, -⟩
    · exact iff_of_true rfl nofun
    · exact iff_of_false nofun fun h => h rfl
  · rcases a with x | outcome
    · exact h
    · refine .pure ?_
      rw [List.append_nil]
      exact h

variable (element correctionConsent recorded) in
/-- **One round**, whatever happens in between. -/
theorem follows_appendOnce :
    Follows recorded (appendOnce element correctionConsent)
      (RoundSettled ((Command.pathAdd element correctionConsent).routes recorded) recorded) := by
  have hroutes := nil_mem_routes (.pathAdd element correctionConsent) recorded
  have hQ := tolerates_roundSettled recorded hroutes
  refine .quiet hQ (fun _ => rfl) (fun _ _ _ => trivial) fun current => ?_
  show Follows recorded (if current.isSome ∧ safePath current = none then _ else if
    element ∈ split ((safePath current).getD ⟨[], REG_EXPAND_SZ⟩).value then _ else _) _
  split
  · exact .pure settled_nil
  next hsafe =>
  split
  · exact .pure settled_nil
  · next helement => exact follows_appendTo (isSafe_safePath hsafe) helement

/-- **Adding a route**: a second round may follow the first. -/
theorem follows_appendUserPath :
    Follows recorded (appendUserPath element correctionConsent) fun result _ events =>
      Settled ((Command.pathAdd element correctionConsent).routes recorded) result events := by
  have hroutes := nil_mem_routes (.pathAdd element correctionConsent) recorded
  have hround := follows_appendOnce element correctionConsent recorded
  refine .bind (hround.conseq fun a recorded' events h => ?_)
  rcases a with x | _ | outcome
  · exact h
  · obtain ⟨rfl, hquiet⟩ := h
    refine .bind (hround.conseq fun a recorded' more h => ?_)
    rcases a with x | _ | outcome
    · exact settled_append hroutes hquiet h
    · refine .pure (settled_append hroutes hquiet ?_)
      rw [List.append_nil, ← List.append_nil more]
      exact settled_append hroutes h.2 settled_nil
    · refine .pure (settled_append hroutes hquiet ?_)
      rw [List.append_nil]
      exact h
  · refine .pure ?_
    rw [List.append_nil]
    exact h

end Append

/-! ### Removing the recorded route -/

/-- **A PATH whose last element goes** keeps the others. -/
theorem spliced_dropLast {routes : Set (List Text)} (hroutes : [] ∈ routes) {value element : Text}
    (type type' : ℕ) (hlast : (split value).getLast? = some element) (h : [element] ∈ routes) :
    Spliced routes (some ⟨value, type⟩) (some ⟨join (split value).dropLast, type'⟩) := by
  have hparts := List.dropLast_append_getLast? _ hlast
  rcases split_join_dropLast value with hkept | ⟨hnil, hkept⟩
  · refine ⟨(split value).dropLast, [], [element], [], [], ?_, ?_, Or.inl rfl, Or.inl rfl, h, hroutes⟩
    · rw [elements, List.append_nil, hparts]
    · rw [elements, hkept, List.append_nil, List.append_nil]
  · rw [hnil] at hparts
    exact ⟨[], [], [element], [[]], [], hparts.symm, hkept, Or.inl rfl, Or.inr rfl, h, hroutes⟩

/-- A PATH is another one without its last element. -/
theorem join_dropLast_ne {value element : Text} (hlast : (split value).getLast? = some element)
    (helement : element ≠ []) : join (split value).dropLast ≠ value := by
  intro heq
  have hparts := List.dropLast_append_getLast? _ hlast
  rcases split_join_dropLast value with hkept | ⟨hnil, hkept⟩
  · rw [heq] at hkept
    rw [← hkept] at hparts
    exact List.cons_ne_nil _ _ (List.append_right_eq_self.1 hparts)
  · rw [heq] at hkept
    rw [hnil, hkept] at hparts
    exact helement (List.cons.inj hparts).1

theorem follows_removeRecordedUserPath (recorded : Option Text) :
    Follows recorded removeRecordedUserPath fun result _ events =>
      Settled (Command.pathRemove.routes recorded) result events := by
  have hroutes := nil_mem_routes .pathRemove recorded
  have hQ := tolerates_settled hroutes recorded
  refine .quiet hQ (fun _ => rfl) (fun _ _ _ => trivial) fun _ => ?_
  dsimp only
  split
  · exact .pure settled_nil
  next o ho =>
  refine .quiet hQ (fun _ => rfl) (fun _ _ _ => trivial) fun p => ?_
  rcases p with _ | current
  · exact .pure settled_nil
  show Follows recorded (if current ≠ ⟨o.path, o.type⟩ then _ else
    if (split o.path).getLast? ≠ some o.element then _ else _) _
  split_ifs with hpath hmem hlast
  · exact .pure settled_nil
  · exact .pure settled_nil
  · exact .pure settled_nil
  · rw [not_not] at hpath hlast
    subst hpath
    obtain ⟨text, rfl, howned⟩ := Option.bind_eq_some_iff.1 ho
    have hroute : [o.element] ∈ Command.pathRemove.routes (some text) := Or.inr (Or.inl ⟨o, ho, rfl⟩)
    have hchange := spliced_dropLast hroutes o.type o.type hlast hroute
    have hne := join_dropLast_ne hlast (owned_eq_some howned).1
    refine .change hQ ?_ (.pure settled_nil)
    refine follows_settle hroutes hchange hchange.symm ?_ ?_ ?_ (fun _ => rfl)
      fun _ _ _ => trivial
    · exact fun h => hne (congrArg RegValue.value (Option.some.inj h)).symm
    · exact fun h => hne (congrArg RegValue.value h).symm
    · exact iff_of_true rfl nofun

/-! ### The operations -/

/-- **A path operation is all or nothing exactly where its way back is sound**: whatever
the PATH and the record are, whatever others make of the PATH between the calls, and
whichever calls raise. -/
theorem pathOperation_allOrNothing_iff (c : Command)
    (edits : ℕ → Option RegValue → Option RegValue) (raises : ℕ → Bool) (r : Registry) :
    AllOrNothing (c.routes r.record) (c.run (weather edits raises) r).result
      (c.run (weather edits raises) r).events ↔ Compensated (c.run (weather edits raises) r).events := by
  have hs : weather edits raises ∈ Weather := ⟨edits, raises, rfl⟩
  rcases c with ⟨element, correctionConsent⟩ | _
  · exact follows_appendUserPath _ hs 0 r rfl
  · exact follows_removeRecordedUserPath r.record _ hs 0 r rfl


/-- The PATH `A`. -/
def onePath : Registry := ⟨some ⟨Text.ofString "A", REG_SZ⟩, none⟩

/-- The record of the route `B` cannot be written, nor the PATH be put back: the operation
is refused, and the PATH stays changed. -/
theorem pathAdd_not_allOrNothing :
    ¬AllOrNothing ((Command.pathAdd (Text.ofString "B") false).routes onePath.record)
      ((Command.pathAdd (Text.ofString "B") false).run (weather (fun _ p => p) (3 ≤ ·)) onePath).result
      ((Command.pathAdd (Text.ofString "B") false).run (weather (fun _ p => p) (3 ≤ ·)) onePath).events := by
  rintro ⟨-, hundone⟩
  have hresult : report ((Command.pathAdd (Text.ofString "B") false).run
      (weather (fun _ p => p) (3 ≤ ·)) onePath).result = .refused "path-access-failed" := by decide
  have hchanges : changes ((Command.pathAdd (Text.ofString "B") false).run
      (weather (fun _ p => p) (3 ≤ ·)) onePath).events
        = [(some ⟨Text.ofString "A", REG_SZ⟩, some ⟨Text.ofString "A;B", REG_SZ⟩)] := by decide
  rcases (hundone _ hresult (by decide)).1 with hnil | ⟨p, q, hlist⟩
  · rw [hchanges] at hnil
    cases hnil
  · rw [hchanges] at hlist
    cases hlist

end UserPath

end YasbLimitora

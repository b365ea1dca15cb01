import Mathlib
import YasbLimitora.ConfigApply.Truthful

/-!
# When applying a selection answers truthfully

The body settles what it answers, but the lease is given up after it, and where that fails
the operation refuses the configuration as invalid, also where the file was replaced. It
is exactly then that the answer is not truthful.

Both parts of the condition are about the calls. `YasbLimitora.ConfigApply.Released` counts the
tries to give up the lease that raised: three of them for the mutex and for its handle, one for the
marker. `YasbLimitora.ConfigApply.Kept` looks at the calls that touch the configuration file, which
are the replacement by the temporary file and the removal; `YasbLimitora.ConfigApply.placed` says
what each of them that succeeds puts in its place. That the file is in the end what the last of
them put there is `YasbLimitora.ConfigApply.config_of_mayRun`, for every program over these calls.

What the operation comes to is worked out from the inside: giving up the lease
(`YasbLimitora.ConfigApply.mayRun_leave`), the `with` statement, whose body is that of
`YasbLimitora.ConfigApply.Truthful`, the `except` around it, and what comes before where there is no
parent directory yet.
-/

namespace YasbLimitora

namespace ConfigApply

open SetupAssist YasbLimitora.Config Faults

abbrev Trace := Faults.Trace Call.Value Files

/-- A call that gives up the lease. -/
def Call.isExit : Call → Bool
  | .releaseMutex => true
  | .closeHandle => true
  | .closeMarker => true
  | _ => false

/-- **The lease is given up** without an exception: of the tries of each call that there are,
not all raise. -/
def Released (events : Trace) : Prop :=
  failures events .releaseMutex < RELEASE_RETRIES ∧ failures events .closeHandle < RELEASE_RETRIES ∧
    failures events .closeMarker = 0

/-- What a call that succeeds puts in the place of the configuration file: the temporary file that is
moved there, or nothing. Other calls do not touch it. -/
def placed (e : Event Call (fun c => Answer c.Value) Files) : Option (Option Bytes) :=
  match e.op, e.resp with
  | .file .replaceConfig, .returned _ => some e.before.temporary
  | .file .removeConfig, .returned _ => some none
  | _, _ => none

/-- **The configuration is kept** by the calls: no replacement or removal of the file succeeds, or
the last one that does puts back what was there before. -/
def Kept (before : Option Bytes) (events : Trace) : Prop :=
  ∀ put ∈ (events.filterMap placed).getLast?, put = before

/-- What the configuration file is comes from the last call that touches it. -/
theorem config_of_mayRun {α : Type} {t : Applying α} {f f' : Files} {x : Except Raised α} {events : Trace}
    (h : MayRun Call.perform t f x f' events) :
    f'.config = (events.filterMap placed).getLast?.getD f.config := by
  have huntouched : ∀ (e : Event Call (fun c => Answer c.Value) Files) (events : Trace), placed e = none →
      (events ++ [e]).filterMap placed = events.filterMap placed := by
    intro e events he
    rw [List.filterMap_append, List.filterMap_cons_none he, List.filterMap_nil, List.append_nil]
  refine h.tracks (A := fun events f' => f'.config = (events.filterMap placed).getLast?.getD f.config) ?_ ?_ rfl
  · intro c events f₁ hbefore
    rwa [huntouched ⟨c, .raised, f₁, f₁⟩]
    rcases c with (_ | _ | _ | _ | _ | _ | _ | _ | _ | _ | _ | _ | _ | _ | _ | _ | _) | _ | _ | _ | _ <;> rfl
  · intro c events f₁ hbefore
    -- two of the calls touch the file
    have hplaced : ∀ (e : Event Call (fun c => Answer c.Value) Files) put, placed e = some put →
        put = ((events ++ [e]).filterMap placed).getLast?.getD f.config := by
      intro e put hput
      rw [List.filterMap_append, List.filterMap_cons_some hput, List.filterMap_nil, List.getLast?_concat]
      rfl
    rcases c with (_ | _ | _ | _ | _ | _ | _ | _ | _ | _ | _ | _ | _ | _ | _ | _ | _) | _ | _ | _ | _
    case file.replaceConfig => exact hplaced _ _ rfl
    case file.removeConfig => exact hplaced _ _ rfl
    all_goals
      rw [huntouched _ _ rfl]
      exact hbefore

theorem kept_iff {α : Type} {t : Applying α} {f f' : Files} {x : Except Raised α} {events : Trace}
    (h : MayRun Call.perform t f x f' events) : Kept f.config events ↔ f'.config = f.config := by
  rw [config_of_mayRun h, Kept]
  rcases (events.filterMap placed).getLast? with _ | put
  · exact iff_of_true nofun rfl
  · exact ⟨fun hkept => hkept put rfl, fun hput put' hput' => (Option.some.inj hput').symm.trans hput⟩

/-! ### Giving up the lease -/

section Exit

variable {f f' : Files} {events : Trace}

theorem anyOf_succ (c : Call) (tries : ℕ) : anyOf c (tries + 1) = do
    match ← Transaction.tried c with
    | .raised => anyOf c tries
    | .returned _ => return true := rfl

/-- **Some tries**: one of them succeeds unless all of them raise. -/
theorem mayRun_anyOf {c : Call} (hexit : c.isExit = true) {tries : ℕ} {x : Except Raised Bool}
    (h : MayRun Call.perform (anyOf c tries) f x f' events) :
    f'.config = f.config ∧ f'.backups = f.backups ∧ (∀ e ∈ events, e.op = c) ∧
      ∃ one, x = .ok one ∧ (one = true ↔ failures events c < tries) := by
  have hperform : ∀ f, (Call.perform c f).2.config = f.config ∧ (Call.perform c f).2.backups = f.backups := by
    intro f
    rcases c with _ | _ | _ | _ | _
    · cases hexit
    · cases hexit
    · exact ⟨rfl, rfl⟩
    · exact ⟨rfl, rfl⟩
    · exact ⟨rfl, rfl⟩
  induction tries generalizing f events with
  | zero =>
    obtain ⟨rfl, rfl, rfl⟩ := h.pure
    exact ⟨rfl, rfl, List.forall_mem_nil _, false, rfl, by simp [failures]⟩
  | succ tries ih =>
    rw [anyOf_succ] at h
    rcases h.bind with ⟨e, rfl, hfirst⟩ | ⟨answer, f₁, first, rest, hfirst, hrest, rfl⟩
    · rcases hfirst.perform with ⟨hx, -⟩ | ⟨hx, -⟩ <;> cases hx
    rcases hfirst.perform with ⟨hx, rfl, rfl⟩ | ⟨hx, rfl, rfl⟩
    · obtain rfl := Except.ok.inj hx
      obtain ⟨hconfig, hbackups, hevents, one, rfl, hone⟩ := ih hrest
      refine ⟨hconfig, hbackups, List.forall_mem_cons.2 ⟨rfl, hevents⟩, one, rfl, ?_⟩
      rw [List.singleton_append, failures_raised, hone]
      omega
    · obtain rfl := Except.ok.inj hx
      obtain ⟨rfl, rfl, rfl⟩ := hrest.pure
      refine ⟨(hperform f).1, (hperform f).2, List.forall_mem_cons.2 ⟨rfl, List.forall_mem_nil _⟩, true, rfl, ?_⟩
      rw [List.singleton_append, failures_returned]
      exact iff_of_true rfl (Nat.succ_pos _)

/-- The end of an exit: it raises unless all succeeded. -/
theorem mayRun_checkExit {succeeded : Bool} {x : Except Raised Unit}
    (h : MayRun Call.perform (if succeeded then return () else throw .guardError) f x f' events) :
    f' = f ∧ events = [] ∧ (succeeded = true ∧ x = .ok () ∨ succeeded = false ∧ x = .error .guardError) := by
  rcases succeeded
  · obtain ⟨rfl, rfl, rfl⟩ := MayRun.throw h
    exact ⟨rfl, rfl, Or.inr ⟨rfl, rfl⟩⟩
  · obtain ⟨rfl, rfl, rfl⟩ := MayRun.pure h
    exact ⟨rfl, rfl, Or.inl ⟨rfl, rfl⟩⟩

/-- **The lease is given up, or `GuardError` is raised**; the files are left alone. -/
theorem mayRun_leave {guarded : Bool} {x : Except Raised Unit}
    (h : MayRun Call.perform (leave guarded) f x f' events) :
    f'.config = f.config ∧ f'.backups = f.backups ∧ (∀ e ∈ events, e.op.isExit = true) ∧
      (Released events ∧ x = .ok () ∨ ¬ Released events ∧ x = .error .guardError) := by
  rcases guarded
  · -- the marker
    rcases h.bind with ⟨e, rfl, hclose⟩ | ⟨closed, f₁, first, rest, hclose, hrest, rfl⟩
    · obtain ⟨-, -, -, one, hx, -⟩ := mayRun_anyOf rfl hclose
      cases hx
    obtain ⟨hconfig, hbackups, hevents, one, hx, hone⟩ := mayRun_anyOf rfl hclose
    obtain rfl := Except.ok.inj hx
    obtain ⟨rfl, rfl, hx⟩ := mayRun_checkExit hrest
    rw [List.append_nil]
    have hother : ∀ c, c ≠ .closeMarker → failures first c = 0 :=
      fun c hc => failures_eq_zero fun e he h => hc (h ▸ hevents e he)
    have hreleased : Released first ↔ closed = true := by
      rw [hone, Released, hother _ (by decide), hother _ (by decide), Nat.lt_one_iff]
      exact and_iff_right (by decide) |>.trans (and_iff_right (by decide))
    rw [hreleased, Bool.not_eq_true]
    refine ⟨hconfig, hbackups, fun e he => ?_, hx⟩
    rw [hevents e he]
    rfl
  · -- the mutex and its handle
    rcases h.bind with ⟨e, rfl, hrelease⟩ | ⟨released, f₁, first, rest, hrelease, hrest, rfl⟩
    · obtain ⟨-, -, -, one, hx, -⟩ := mayRun_anyOf rfl hrelease
      cases hx
    obtain ⟨hconfig₁, hbackups₁, hevents₁, one, hx, hone₁⟩ := mayRun_anyOf rfl hrelease
    obtain rfl := Except.ok.inj hx
    rcases hrest.bind with ⟨e, rfl, hclose⟩ | ⟨closed, f₂, second, last, hclose, hlast, rfl⟩
    · obtain ⟨-, -, -, one, hx, -⟩ := mayRun_anyOf rfl hclose
      cases hx
    obtain ⟨hconfig₂, hbackups₂, hevents₂, one, hx, hone₂⟩ := mayRun_anyOf rfl hclose
    obtain rfl := Except.ok.inj hx
    obtain ⟨rfl, rfl, hx⟩ := mayRun_checkExit hlast
    rw [List.append_nil]
    have hother₁ : ∀ c, c ≠ .releaseMutex → failures first c = 0 :=
      fun c hc => failures_eq_zero fun e he h => hc (h ▸ hevents₁ e he)
    have hother₂ : ∀ c, c ≠ .closeHandle → failures second c = 0 :=
      fun c hc => failures_eq_zero fun e he h => hc (h ▸ hevents₂ e he)
    have hreleased : Released (first ++ second) ↔ (released && closed) = true := by
      rw [Bool.and_eq_true, hone₁, hone₂, Released, failures_append, failures_append, failures_append,
        hother₁ .closeHandle (by decide), hother₁ .closeMarker (by decide),
        hother₂ .releaseMutex (by decide), hother₂ .closeMarker (by decide), Nat.zero_add, Nat.add_zero]
      exact and_congr_right fun _ => and_iff_left rfl
    rw [hreleased, Bool.not_eq_true]
    refine ⟨hconfig₂.trans hconfig₁, hbackups₂.trans hbackups₁, List.forall_mem_append.2 ⟨?_, ?_⟩, hx⟩
    · intro e he
      rw [hevents₁ e he]
      rfl
    · intro e he
      rw [hevents₂ e he]
      rfl

theorem released_append {first second : Trace} (hfirst : ∀ e ∈ first, e.op.isExit = false) :
    Released (first ++ second) ↔ Released second := by
  have hzero : ∀ c : Call, c.isExit = true → failures first c = 0 := fun c hc =>
    failures_eq_zero fun e he h => Bool.noConfusion ((hfirst e he).symm.trans (h ▸ hc))
  unfold Released
  rw [failures_append, failures_append, failures_append, hzero .releaseMutex rfl,
    hzero .closeHandle rfl, hzero .closeMarker rfl, Nat.zero_add, Nat.zero_add, Nat.zero_add]

theorem released_of_no_exit (hevents : ∀ e ∈ events, e.op.isExit = false) : Released events := by
  rw [← List.append_nil events, released_append hevents]
  exact ⟨by decide, by decide, rfl⟩

variable {F : Type} {floats : Floats F} {limit : ℕ} {floatTexts : FloatTexts}
  {selection : Option (Json Text)} {apiKey : Bool}

/-- **With the lease**: what the body settles is the outcome if the lease is given up. Otherwise
`GuardError` is, whatever the body has come to. -/
theorem mayRun_withLease {x : Except Raised Reply}
    (h : MayRun Call.perform (withLease (leaseBody floats limit floatTexts selection apiKey)) f x f' events) :
    Released events ∧ Settles floatTexts selection f.config x f' ∨
      ¬ Released events ∧ x = .error .guardError := by
  rcases h.bind with ⟨e, rfl, hacquire⟩ | ⟨guarded, f₁, first, rest, hacquire, hrest, rfl⟩
  · rcases hacquire.perform with ⟨-, rfl, rfl⟩ | ⟨hx, -⟩
    · exact Or.inl ⟨released_of_no_exit fun e he => by rw [List.mem_singleton.1 he]; rfl, settles_error rfl⟩
    · cases hx
  rcases hacquire.perform with ⟨hx, -⟩ | ⟨hx, rfl, rfl⟩
  · cases hx
  rcases hrest.bind with ⟨e, rfl, hbody⟩ | ⟨result, f₂, second, rest', hbody, hrest', rfl⟩
  · obtain ⟨y, hy, -⟩ := hbody.outcome
    cases hy
  obtain ⟨y, hy, hbody⟩ := hbody.outcome
  obtain rfl := Except.ok.inj hy
  -- the body performs the calls of files only
  obtain ⟨⟨f₂, hend, rfl⟩, hops⟩ : (∃ f₃, MayEnd FileCall.perform
      (leaseBody floats limit floatTexts selection apiKey) (Call.perform .acquireLease f).2 result f₃ ∧ f₂ = f₃) ∧
      ∀ e ∈ second, ∃ c, e.op = Call.file c :=
    hbody.lift id (fun _ f => f) (fun _ _ => rfl) (fun _ _ _ => rfl) (fun _ => rfl) fun _ _ => rfl
  have hsettles := ensures_leaseBody floats limit apiKey _ _ hend
  have hbefore : ∀ e ∈ [(⟨.acquireLease, .returned (Call.perform .acquireLease f).1, f,
      (Call.perform .acquireLease f).2⟩ : Event Call (fun c => Answer c.Value) Files)] ++ second, e.op.isExit = false := by
    refine List.forall_mem_append.2 ⟨fun e he => ?_, fun e he => ?_⟩
    · rw [List.mem_singleton.1 he]
      rfl
    · obtain ⟨c, hc⟩ := hops e he
      rw [hc]
      rfl
  -- what is done after the lease is given up
  rcases hrest'.bind with ⟨e, rfl, hleave⟩ | ⟨⟨⟩, f₃, third, last, hleave, hlast, rfl⟩
  · obtain ⟨-, -, -, ⟨-, hx⟩ | ⟨hreleased, hx⟩⟩ := mayRun_leave hleave
    · cases hx
    refine Or.inr ⟨?_, congrArg Except.error (Except.error.inj hx)⟩
    rw [← List.append_assoc, released_append hbefore]
    exact hreleased
  · obtain ⟨hconfig, hbackups, -, ⟨hreleased, -⟩ | ⟨-, hx⟩⟩ := mayRun_leave hleave
    swap
    · cases hx
    obtain ⟨rfl, rfl, rfl⟩ : x = result ∧ f' = f₃ ∧ last = [] := by
      rcases result with e | reply
      · exact MayRun.throw hlast
      · exact MayRun.pure hlast
    refine Or.inl ⟨?_, hsettles.of_eq hconfig hbackups⟩
    rw [← List.append_assoc, List.append_nil, released_append hbefore]
    exact hreleased

variable (floatTexts selection) in
/-- The answer is truthful exactly where the lease is given up or the configuration is as before. -/
def TruthfulIff (before : Option Bytes) (x : Except Raised Reply) (f' : Files) (events : Trace) : Prop :=
  Truthful floatTexts selection before x f' ↔ Released events ∨ f'.config = before

variable {before : Option Bytes} {x : Except Raised Reply}

/-- Calls come first that have nothing to do with the lease. -/
theorem TruthfulIff.append {first second : Trace} (hfirst : ∀ e ∈ first, e.op.isExit = false)
    (h : TruthfulIff floatTexts selection before x f' second) :
    TruthfulIff floatTexts selection before x f' (first ++ second) := by
  unfold TruthfulIff
  rw [released_append hfirst]
  exact h

theorem TruthfulIff.nil (h : Truthful floatTexts selection before x f') :
    TruthfulIff floatTexts selection before x f' [] :=
  iff_of_true h (Or.inl (released_of_no_exit (List.forall_mem_nil _)))

theorem mayRun_gatePresent
    (h : MayRun Call.perform (gatePresent floats limit floatTexts selection apiKey) f x f' events) :
    TruthfulIff floatTexts selection f.config x f' events := by
  rcases h.bind with ⟨e, rfl, hlease⟩ | ⟨result, f₁, first, rest, hlease, hrest, rfl⟩
  · obtain ⟨y, hy, -⟩ := hlease.outcome
    cases hy
  obtain ⟨y, hy, hlease⟩ := hlease.outcome
  obtain rfl := Except.ok.inj hy
  rcases mayRun_withLease hlease with ⟨hreleased, htruthful, hraised⟩ | ⟨hreleased, rfl⟩
  · -- the lease is given up, and an exception of the body refused or passed on
    rcases result with e | reply
    · rcases e with _ | _ | _ | _
      · obtain ⟨rfl, rfl, rfl⟩ := MayRun.pure hrest
        exact iff_of_true (.unchanged (hraised _ rfl)) (Or.inl (by rwa [List.append_nil]))
      · obtain ⟨rfl, rfl, rfl⟩ := MayRun.throw hrest
        exact iff_of_true .raised (Or.inl (by rwa [List.append_nil]))
      · obtain ⟨rfl, rfl, rfl⟩ := MayRun.pure hrest
        exact iff_of_true (.unchanged (hraised _ rfl)) (Or.inl (by rwa [List.append_nil]))
      · obtain ⟨rfl, rfl, rfl⟩ := MayRun.throw hrest
        exact iff_of_true .raised (Or.inl (by rwa [List.append_nil]))
    · obtain ⟨rfl, rfl, rfl⟩ := MayRun.pure hrest
      exact iff_of_true htruthful (Or.inl (by rwa [List.append_nil]))
  · -- it is not, and what the body answered lost
    obtain ⟨rfl, rfl, rfl⟩ := MayRun.pure hrest
    unfold TruthfulIff
    rw [List.append_nil, or_iff_right hreleased]
    constructor
    · exact fun h => h.refused _ _ rfl (by decide)
    · exact fun h => .unchanged h

/-- Where there is a parent directory after all. -/
theorem mayRun_parentMade (h : MayRun Call.perform (do
      let parent : ParentState ← Transaction.call (Call.file .parentState) Raised.osError
      if parent = .present then gatePresent floats limit floatTexts selection apiKey
      else return invalid) f x f' events) :
    TruthfulIff floatTexts selection f.config x f' events := by
  rcases h.bind with ⟨e, rfl, hparent⟩ | ⟨parent, f₁, first, rest, hparent, hrest, rfl⟩
  · rcases hparent.perform with ⟨-, rfl, rfl⟩ | ⟨hx, -⟩
    · exact iff_of_true .raised (Or.inl (released_of_no_exit fun e he => by rw [List.mem_singleton.1 he]; rfl))
    · cases hx
  rcases hparent.perform with ⟨hx, -⟩ | ⟨-, rfl, rfl⟩
  · cases hx
  refine .append (fun e he => by rw [List.mem_singleton.1 he]; rfl) ?_
  change MayRun Call.perform (if parent = .present then _ else _) _ x f' rest at hrest
  split at hrest
  · exact mayRun_gatePresent hrest
  · obtain ⟨rfl, rfl, rfl⟩ := MayRun.pure hrest
    exact .nil (.unchanged rfl)

theorem mayRun_configGateOne
    (h : MayRun Call.perform (configGateOne floats limit floatTexts selection apiKey) f x f' events) :
    TruthfulIff floatTexts selection f.config x f' events := by
  rcases h.bind with ⟨e, rfl, hparent⟩ | ⟨parent, f₁, first, rest, hparent, hrest, rfl⟩
  · rcases hparent.perform with ⟨-, rfl, rfl⟩ | ⟨hx, -⟩
    · exact iff_of_true .raised (Or.inl (released_of_no_exit fun e he => by rw [List.mem_singleton.1 he]; rfl))
    · cases hx
  rcases hparent.perform with ⟨hx, -⟩ | ⟨-, rfl, rfl⟩
  · cases hx
  refine .append (fun e he => by rw [List.mem_singleton.1 he]; rfl) ?_
  rcases parent with _ | _ | _
  · rcases selection with _ | given
    · obtain ⟨rfl, rfl, rfl⟩ := MayRun.pure hrest
      exact .nil (.unchanged rfl)
    dsimp only at hrest
    split at hrest
    · obtain ⟨rfl, rfl, rfl⟩ := MayRun.pure hrest
      exact .nil (.unchanged rfl)
    rcases hrest.bind with ⟨e, rfl, hmake⟩ | ⟨made, f₁, second, last, hmake, hlast, rfl⟩
    · rcases hmake.perform with ⟨hx, -⟩ | ⟨hx, -⟩ <;> cases hx
    rcases hmake.perform with ⟨hx, rfl, rfl⟩ | ⟨hx, rfl, rfl⟩
    · obtain rfl := Except.ok.inj hx
      obtain ⟨rfl, rfl, rfl⟩ := MayRun.pure hlast
      exact .append (fun e he => by rw [List.mem_singleton.1 he]; rfl) (.nil (.unchanged rfl))
    · obtain rfl := Except.ok.inj hx
      exact .append (fun e he => by rw [List.mem_singleton.1 he]; rfl) 
        (mayRun_parentMade (f := (Call.perform (.file .makeParent) f₁).2) hlast)
  · exact mayRun_gatePresent hrest
  · obtain ⟨rfl, rfl, rfl⟩ := MayRun.pure hrest
    exact .nil (.unchanged rfl)

end Exit

/-- **The answer is truthful exactly where the lease is given up**, or where no replacement or removal
of the configuration file succeeds, or the last one that does puts back what was there before. -/
theorem run_truthful_iff {F : Type} (floats : Floats F) (limit : ℕ) (floatTexts : FloatTexts)
    (selection : Option (Json Text)) (apiKey : Bool) (raises : ℕ → Call → Bool) (f : Files) :
    let ran := run floats limit floatTexts selection apiKey raises f
    Truthful floatTexts selection f.config ran.result ran.world ↔
      Released ran.events ∨ Kept f.config ran.events := by
  intro ran
  have hran : MayRun Call.perform (configGateOne floats limit floatTexts selection apiKey) f ran.result ran.world
      ran.events := ⟨raises, 0, rfl⟩
  rw [kept_iff hran]
  exact mayRun_configGateOne hran

/-- There is a directory for the configuration, and nothing in it. -/
def unconfigured : Files := ⟨.present, none, [], none, [], 0, false, true⟩

/-- No release of the mutex succeeds. -/
def stuckMutex (_ : ℕ) (c : Call) : Bool := c = .releaseMutex

def laterDeadline : Json Text := .obj [(DEADLINE, .int 12)]

/-- A deadline is written to a file that was not there, and the answer is that the configuration
is invalid: the mutex could not be released. -/
theorem run_untruthful :
    let ran := run wholeFloats 100 (fun _ => none) (some laterDeadline) false stuckMutex unconfigured
    ran.result = .ok invalid ∧ ran.world.config.isSome = true ∧
      ¬Truthful (fun _ => none) (some laterDeadline) unconfigured.config ran.result ran.world := by
  intro ran
  have hran : ran.result = .ok invalid ∧ ran.world.config.isSome = true := by decide +kernel
  refine ⟨hran.1, hran.2, fun h => ?_⟩
  have hnone : ran.world.config = none := h.refused _ _ hran.1 (by decide)
  rw [hnone] at hran
  exact absurd hran.2 (by decide)

end ConfigApply

end YasbLimitora

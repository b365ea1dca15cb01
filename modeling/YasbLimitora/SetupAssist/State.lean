import Mathlib
import YasbLimitora.ConfigApply.Gate
import YasbLimitora.EnvBlock.Apply
import YasbLimitora.SetupAssist.Batch
import YasbLimitora.StateCleanup.Handles

/-!
# The state directory among the operations of a batch

Three operations of a batch have to do with the state directory. A cleanup deletes it
(`delete_directory`); `config-apply` writes the configuration that is in it, and makes it where there
is none; `env-block-apply` writes the `.env` of the home directory of YASB, and puts a backup of the
one that was there into the state directory.

The disk of a batch, `YasbLimitora.SetupAssist.Surroundings.disk`, is made of the programs that these
operations are elsewhere in this development: `YasbLimitora.ConfigApply.run`, `EnvBlock.apply` over
its own operations, and `YasbLimitora.StateCleanup.run` over the native calls. Which of their calls
fail, and what the native calls come to, is given by the surroundings; `discover` and `yasb-running`
only look around.

What matters of an operation that reports success is whether there is a state directory after it:

* a deletion that succeeds has marked the root for deletion, so that there is none
  (`YasbLimitora.SetupAssist.Surroundings.deleted`);
* after a `config-apply` there is one (`YasbLimitora.SetupAssist.Surroundings.configApplied`), since
  it goes on only from a parent directory that it has seen, and none of its calls removes that;
* an `env-block-apply` makes one if there is a `.env` to be backed up, and otherwise leaves it as it
  was (`YasbLimitora.SetupAssist.Surroundings.envBlockApplied`).
-/

namespace YasbLimitora

namespace SetupAssist

open UserPath YasbLimitora.Config Faults

/-- What there is on a disk: the state directory, with the configuration in it, and the home
directory of YASB, with its `.env`. -/
structure State where
  files : ConfigApply.Files
  home : EnvBlock.World

/-- There is a state directory, or something else in its place. -/
def State.hasDirectory (s : State) : Bool := s.files.parent ≠ .absent

/-- What surrounds a batch. -/
structure Surroundings (F : Type) where
  floats : Floats F
  limit : ℕ
  floatTexts : ConfigApply.FloatTexts
  apiKey : Bool
  /-- The calls of `config-apply` that raise. -/
  configRaises : ℕ → ConfigApply.Call → Bool
  /-- `resolve_config_home` and `resolve_installed_invocation`: a refusal, or the invocation. -/
  invocation : Except String Text
  envDisk : EnvBlock.Disk
  listings : ℕ
  depth : ℕ
  /-- The path of the state directory. -/
  path : StateCleanup.TargetPath
  /-- What the native calls of the deletion come to. -/
  results : StateCleanup.Results
  /-- What is left of the state directory where it is not deleted as a whole. -/
  left : ConfigApply.Files → ConfigApply.Files

/-- What a selection is taken from. -/
def selectionOf : Consent → Option (Json Text)
  | .flag _ => none
  | .yes => some (.str (Text.ofString "YES"))
  | .selection fields => some (.obj fields)

/-- What an operation on `.env` makes of the state directory: a backup is put into it. -/
def makesDirectory : EnvBlock.Op → ConfigApply.Files → ConfigApply.Files
  | .makeBackup _, f => (ConfigApply.FileCall.perform .makeParent f).2
  | _, f => f

/-- The operations on `.env`, with what they make of the state directory. -/
def envAct (d : EnvBlock.Disk) (o : EnvBlock.Op) (s : State) : o.Value × State :=
  ((o.perform d s.home).1, ⟨makesDirectory o s.files, (o.perform d s.home).2⟩)

/-- There is no state directory any more. -/
def gone (f : ConfigApply.Files) : ConfigApply.Files :=
  { f with parent := .absent, config := none, backups := [], temporary := none }

/-- A handle on the verified root was marked for deletion. -/
def rootMarked (normal : Text) (w : StateCleanup.Done) : Bool :=
  (List.range w.next).any fun h => decide ((w.record h).final = some normal) && (w.record h).marked

namespace Surroundings

variable {F : Type} (around : Surroundings F)

/-- `config-apply` in `_execute`. -/
def configApply (consent : Consent) (s : State) : Except Raised (Option String) × State :=
  let ran := ConfigApply.run around.floats around.limit around.floatTexts (selectionOf consent) around.apiKey
    around.configRaises s.files
  (match ran.result with
    | .ok (.ok _) => .ok none
    | .ok (.refused reason _) => .ok (some reason)
    | .error _ => .error .osError, { s with files := ran.world })

/-- `_env_block.apply`, with the consent that was checked before. -/
def applyBlock (invocation : Text) (s : State) : Except Raised (Option String) × State :=
  let result := Faults.alone (envAct around.envDisk) around.envDisk.fails (EnvBlock.apply invocation true) s
  (match result.1 with
    | .ok reason => .ok reason
    | .error _ => .error .osError, result.2)

/-- `env-block-apply` in `_execute`. -/
def envBlockApply (consent : Consent) (s : State) : Except Raised (Option String) × State :=
  match consent, around.invocation with
  | .flag false, _ => (.ok (some "env-consent-required"), s)
  | _, .error reason => (.ok (some reason), s)
  | _, .ok invocation => around.applyBlock invocation s

/-- The operations elsewhere. -/
def perform : Operation → Consent → State → Except Raised (Option String) × State
  | .configApply, consent, s => around.configApply consent s
  | .envBlockApply, consent, s => around.envBlockApply consent s
  | _, _, s => (.ok none, s)

/-- `delete_directory` of the state directory. What is marked goes when its handle is closed. -/
def deleteDirectory (s : State) : Except Raised Bool × State :=
  let ran := StateCleanup.run around.listings around.depth around.path around.results
  (match ran.result with
    | .ok deleted => .ok deleted
    | .error _ => .error .osError,
    { s with files := if rootMarked around.path.normal ran.world then gone s.files else around.left s.files })

/-- The disk of a batch. -/
def disk : Disk State := ⟨around.perform, around.deleteDirectory⟩

end Surroundings

/-! ### Deletions -/

section Operations

variable {F : Type} {around : Surroundings F} {s s' : State}

/-- **After a deletion that succeeds** there is no state directory. -/
theorem Surroundings.deleted (h : around.deleteDirectory s = (.ok true, s')) :
    s'.hasDirectory = false ∧ s'.home = s.home := by
  obtain ⟨hanswer, rfl⟩ := Prod.mk.inj h
  have hresult : (StateCleanup.run around.listings around.depth around.path around.results).result = .ok true := by
    split at hanswer
    · next deleted hresult => exact hresult.trans (congrArg Except.ok (Except.ok.inj hanswer))
    · cases hanswer
  obtain ⟨root, hroot, hfinal, hmarked⟩ :=
    ((StateCleanup.run_marksOnly around.listings around.depth around.path around.results).marked hresult).1
  have hgone : rootMarked around.path.normal
      (StateCleanup.run around.listings around.depth around.path around.results).world = true :=
    List.any_eq_true.2 ⟨root, List.mem_range.2 hroot, Bool.and_eq_true_iff.2 ⟨decide_eq_true hfinal, hmarked⟩⟩
  refine ⟨?_, rfl⟩
  rw [State.hasDirectory]
  dsimp only
  rw [if_pos hgone]
  rfl

/-! ### Configurations -/

/-- No call removes the directory of the configuration. -/
theorem parent_of_mayRun {α : Type} {t : ConfigApply.Applying α} {f f' : ConfigApply.Files}
    {x : Except ConfigApply.Raised α} {events : ConfigApply.Trace} (h : MayRun ConfigApply.Call.perform t f x f' events)
    (hparent : f.parent = .present) : f'.parent = .present := by
  refine h.tracks (A := fun _ (f : ConfigApply.Files) => f.parent = .present) (fun _ _ f hf => hf) (fun c events f hf => ?_) hparent
  rcases c with (_ | _ | _ | _ | _ | _ | _ | _ | _ | _ | _ | _ | _ | _ | _ | _ | _) | _ | _ | _ | _
  case file.makeParent =>
    show (if f.parent = .absent then ConfigApply.ParentState.present else f.parent) = .present
    rw [hf]
    rfl
  all_goals exact hf

/-- **An application that succeeds** has found or made the directory of the configuration. -/
theorem parent_of_configGateOne {floats : Floats F} {limit : ℕ} {floatTexts : ConfigApply.FloatTexts}
    {selection : Option (Json Text)} {apiKey : Bool} {f f' : ConfigApply.Files} {warnings : List ConfigApply.Warning}
    {events : ConfigApply.Trace}
    (h : MayRun ConfigApply.Call.perform (ConfigApply.configGateOne floats limit floatTexts selection apiKey) f
      (.ok (.ok warnings)) f' events) : f'.parent = .present := by
  rcases h.bind with ⟨e, hx, -⟩ | ⟨parent, f₁, first, rest, hparent, hrest, -⟩
  · cases hx
  rcases hparent.perform with ⟨hx, -⟩ | ⟨hx, rfl, -⟩
  · cases hx
  rcases hf : f₁.parent with _ | _ | _
  · obtain rfl : parent = .absent := (Except.ok.inj hx).trans hf
    rcases selection with _ | given
    · cases (hrest.pure).1
    dsimp only at hrest
    split at hrest
    · cases (hrest.pure).1
    rcases hrest.bind with ⟨e, hx, -⟩ | ⟨made, f₂, second, last, hmade, hlast, -⟩
    · cases hx
    rcases hmade.perform with ⟨hx, -⟩ | ⟨hx, rfl, -⟩
    · obtain rfl := Except.ok.inj hx
      cases (hlast.pure).1
    obtain rfl := Except.ok.inj hx
    rcases hlast.bind with ⟨e, hx, -⟩ | ⟨again, f₃, third, end', hagain, hend, -⟩
    · cases hx
    rcases hagain.perform with ⟨hx, -⟩ | ⟨hx, rfl, -⟩
    · cases hx
    change MayRun _ (if again = .present then _ else _) _ _ f' end' at hend
    split at hend
    · next hpresent => exact parent_of_mayRun hend ((Except.ok.inj hx).symm.trans hpresent)
    · cases (hend.pure).1
  · exact parent_of_mayRun hrest hf
  · obtain rfl : parent = .refusedPath := (Except.ok.inj hx).trans hf
    cases (hrest.pure).1

/-- **After a `config-apply` that succeeds** there is a state directory. -/
theorem Surroundings.configApplied {consent : Consent} (h : around.configApply consent s = (.ok none, s')) :
    s'.hasDirectory = true ∧ s'.home = s.home := by
  obtain ⟨hanswer, rfl⟩ := Prod.mk.inj h
  split at hanswer
  · next warnings hresult =>
    have hrun : MayRun ConfigApply.Call.perform (ConfigApply.configGateOne around.floats around.limit
        around.floatTexts (selectionOf consent) around.apiKey) s.files (.ok (.ok warnings)) _ _ :=
      ⟨around.configRaises, 0, Ran.ext hresult rfl rfl⟩
    refine ⟨decide_eq_true fun habsent => ?_, rfl⟩
    exact nomatch (parent_of_configGateOne hrun).symm.trans habsent
  · cases hanswer
  · cases hanswer

/-! ### Blocks in `.env` -/

variable {d : EnvBlock.Disk}

/-- What leaves the state directory as it is. -/
def LeavesState {α : Type} (t : EnvBlock.Applying α) (d : EnvBlock.Disk) : Prop :=
  ∀ s, Ensures (envAct d) t s fun _ s' => s'.files = s.files

namespace LeavesState

variable {α β : Type}

theorem pure (a : α) : LeavesState (pure a) d := fun _ => .pure rfl

theorem throw (e : EnvBlock.Exc) : LeavesState (throw e : EnvBlock.Applying α) d := fun _ => .throw rfl

theorem bind {t : EnvBlock.Applying α} {k : α → EnvBlock.Applying β} (h : LeavesState t d)
    (hk : ∀ a, LeavesState (k a) d) : LeavesState (t >>= k) d := by
  intro s
  refine .bind ((h s).conseq fun x s₁ hx => ?_)
  rcases x with e | a
  · exact hx
  · exact (hk a s₁).conseq fun y s₂ hy => hy.trans hx

theorem outcome {t : EnvBlock.Applying α} (h : LeavesState t d) : LeavesState t.outcome d := fun s => .outcome (h s)

/-- Nothing but the backup is put into the state directory. -/
theorem perform {o : EnvBlock.Op} {k : Answer o.Value → Except EnvBlock.Exc α} (ho : ∀ f, makesDirectory o f = f) :
    LeavesState (Transaction.perform o k) d := by
  intro s x s' hend
  rcases hend.perform with ⟨-, rfl⟩ | ⟨-, rfl⟩
  · rfl
  · exact ho s.files

end LeavesState

theorem leavesState_checkAll (checks : List EnvBlock.Op) (hchecks : ∀ o ∈ checks, ∀ f, makesDirectory o f = f) :
    LeavesState (EnvBlock.checkAll checks) d := by
  induction checks with
  | nil => exact .pure _
  | cons o rest ih =>
    refine .bind (.perform (hchecks o List.mem_cons_self)) fun fine => ?_
    rcases fine
    · exact .pure _
    · exact ih fun o ho => hchecks o (List.mem_cons_of_mem _ ho)

theorem leavesState_require (checks : List EnvBlock.Op) (hchecks : ∀ o ∈ checks, ∀ f, makesDirectory o f = f) :
    LeavesState (EnvBlock.require checks) d := by
  refine .bind (leavesState_checkAll checks hchecks) fun fine => ?_
  rcases fine
  · exact .throw _
  · exact .pure _

theorem leavesState_replace (replacement : Bytes) : LeavesState (EnvBlock.replace replacement) d := by
  refine .bind (.perform fun _ => rfl) fun _ => .bind (leavesState_require _ (by simp [makesDirectory])) fun _ => ?_
  refine .bind (.perform fun _ => rfl) fun _ => .bind (leavesState_require _ (by simp [makesDirectory])) fun _ => ?_
  refine .bind (.perform fun _ => rfl) fun _ => .bind (.perform fun _ => rfl) fun (read : Bytes) => ?_
  show LeavesState (if read = replacement then _ else _) d
  split
  · exact .pure _
  · exact .throw _

theorem leavesState_overwrite (raw : Bytes) : LeavesState (EnvBlock.overwrite raw) d :=
  .bind (leavesState_require _ (by simp [makesDirectory])) fun _ => .bind (.perform fun _ => rfl) fun _ =>
    .bind (.perform fun _ => rfl) fun _ => .bind (.perform fun _ => rfl) fun _ => .pure _

theorem leavesState_restore : LeavesState EnvBlock.restore d := by
  refine .bind (.perform fun _ => rfl) fun (raw : Bytes) => .bind (.perform fun _ => rfl) fun _ => ?_
  refine .bind (.outcome (leavesState_overwrite raw)) fun written => .bind (.perform fun _ => rfl) fun _ => ?_
  rcases written with e | _
  · exact .throw _
  · refine .bind (.perform fun _ => rfl) fun (again : Bytes) => ?_
    show LeavesState (if again = raw then _ else _) d
    split
    · exact .pure _
    · exact .throw _

theorem leavesState_removeNew : LeavesState EnvBlock.removeNew d := by
  refine .bind (.perform fun _ => rfl) fun (left : Bool) => ?_
  rcases left
  · exact .pure _
  · refine .bind (.perform fun _ => rfl) fun fine => ?_
    rcases fine
    · exact .pure _
    · exact .perform fun _ => rfl

theorem leavesState_removeMade : LeavesState EnvBlock.removeMade d := by
  refine .bind (.perform fun _ => rfl) fun fine => ?_
  rcases fine
  · exact .pure _
  · refine .bind (.perform fun _ => rfl) fun (more : Bool) => ?_
    rcases more
    · exact .perform fun _ => rfl
    · exact .pure _

theorem leavesState_rollback (created existed : Bool) : LeavesState (EnvBlock.rollback created existed) d := by
  refine .bind (leavesState_require _ (by rcases existed <;> simp [makesDirectory])) fun _ => .bind ?_ fun _ => ?_
  · rcases existed
    · exact leavesState_removeNew
    · exact leavesState_restore
  · rcases created
    · exact .pure _
    · exact leavesState_removeMade

theorem leavesState_whileHeld (created existed : Bool) (replacement : Bytes) :
    LeavesState (EnvBlock.whileHeld created existed replacement) d := by
  refine .bind (.outcome (leavesState_replace replacement)) fun result => ?_
  rcases result with e | _
  · refine .bind (.outcome (leavesState_rollback created existed)) fun rolled => ?_
    rcases rolled with _ | _
    · exact .pure _
    · exact .pure _
  · exact .pure _

/-- What becomes of the state directory: a backup is put into it, if there is something to back up. -/
def backedUp (existed : Bool) (f : ConfigApply.Files) : ConfigApply.Files :=
  if existed then (ConfigApply.FileCall.perform .makeParent f).2 else f

/-- **A block that is written** was backed up before, where there was something to back up. -/
theorem ensures_transact (created existed : Bool) (raw replacement : Bytes) (s : State) :
    Ensures (envAct d) (EnvBlock.transact created existed raw replacement) s fun x s' =>
      ∀ reason, x = .ok reason → s'.files = backedUp existed s.files := by
  have hrest : LeavesState (do
      EnvBlock.require [.safe .home 3, .safe .state 2]
      let _ : Unit ← EnvBlock.call .hold
      let reason ← EnvBlock.whileHeld created existed replacement
      let _ : Unit ← EnvBlock.call .release
      return reason) d :=
    .bind (leavesState_require _ (by simp [makesDirectory])) fun _ => .bind (.perform fun _ => rfl) fun _ =>
      .bind (leavesState_whileHeld created existed replacement) fun _ => .bind (.perform fun _ => rfl) fun _ => .pure _
  rcases existed
  · exact .bind (.pure ((hrest s).conseq fun _ _ hx _ _ => hx))
  · refine .bind (.call nofun ?_)
    exact (hrest _).conseq fun _ _ hx _ _ => hx

theorem ensures_replaceBlock (created existed : Bool) (raw replacement : Bytes) (s : State) :
    Ensures (envAct d) (EnvBlock.replaceBlock created existed raw replacement) s fun x s' =>
      x = .ok none → s'.files = backedUp existed s.files := by
  refine .bind (.outcome ((ensures_transact created existed raw replacement s).conseq fun x s₁ hx => ?_))
  have hlast : ∀ s₂ : State, s₂.files = s₁.files → Ensures (envAct d) (EnvBlock.handled existed x) s₂ fun y s' =>
      y = .ok none → s'.files = backedUp existed s.files := by
    intro s₂ hsame
    rcases x with (_ | _ | _) | reason
    · exact .pure nofun
    · exact .throw nofun
    · exact .throw nofun
    · exact .pure fun _ => hsame.trans (hx reason rfl)
  exact .bind (.tried (hlast s₁ rfl) (hlast _ rfl))

theorem leavesState_prior (created existed : Bool) : LeavesState (EnvBlock.prior created existed) d := by
  refine .bind ?_ fun _ => .bind (.perform fun _ => rfl) fun fine => ?_
  · rcases created
    · exact .pure _
    · exact .perform fun _ => rfl
  · rcases fine
    · exact .pure _
    · refine .bind ?_ fun raw => .pure _
      rcases existed
      · exact .pure _
      · exact .perform fun _ => rfl

theorem ensures_applyTo (created existed : Bool) (invocation : Text) (s : State) :
    Ensures (envAct d) (EnvBlock.applyTo created existed invocation) s fun x s' =>
      x = .ok none → s'.files = backedUp existed s.files := by
  refine .bind (.outcome ((leavesState_prior created existed s).conseq fun x s₁ hsame => ?_))
  rcases x with (_ | _ | _) | _ | raw
  · exact .pure nofun
  · exact .throw nofun
  · exact .throw nofun
  · exact .pure nofun
  show Ensures (envAct d) (EnvBlock.placed created existed raw (EnvBlock.rewrite raw invocation)) s₁ _
  rcases EnvBlock.rewrite raw invocation with (reason | _) | replacement
  · exact .pure nofun
  · exact .throw nofun
  · exact (ensures_replaceBlock created existed raw replacement s₁).conseq fun y s' hy hok => by rw [hy hok, hsame]

/-- A check that is made before anything is done. -/
theorem ensures_check {α : Type} {o : EnvBlock.Op} {t : EnvBlock.Applying α} {e : α} {s : State}
    {Q : Except EnvBlock.Exc α → State → Prop} (ho : (envAct d o s).2 = s) (hno : Q (.ok e) s)
    (hyes : Ensures (envAct d) t s Q) :
    Ensures (envAct d) (do if ← EnvBlock.check o then t else return e) s Q := by
  refine .bind fun x s₁ hend => ?_
  rcases hend.perform with ⟨rfl, rfl⟩ | ⟨rfl, rfl⟩
  · exact .pure hno
  · dsimp only
    rw [ho]
    exact hyes

theorem ensures_targetUnsafe (s : State) : Ensures (envAct d) EnvBlock.targetUnsafe s fun _ s' => s' = s := by
  refine .bind (.call rfl ?_)
  show Ensures (envAct d) (if s.home.env.isSome then _ else _) s _
  split
  · refine ensures_check rfl rfl (.bind (.call rfl (.bind fun x s₁ hend => ?_)))
    rcases hend.perform with ⟨rfl, rfl⟩ | ⟨rfl, rfl⟩
    · exact .pure rfl
    · exact .pure rfl
  · exact .pure rfl

/-- **An application that succeeds** has put a backup into the state directory exactly if there was
a `.env`. -/
theorem ensures_apply (invocation : Text) (s : State) :
    Ensures (envAct d) (EnvBlock.apply invocation true) s fun x s' =>
      x = .ok none → s'.files = backedUp s.home.env.isSome s.files := by
  refine ensures_check rfl nofun (ensures_check rfl nofun (.bind ((ensures_targetUnsafe s).conseq ?_)))
  rintro (e | _ | _) s' rfl
  · exact nofun
  · refine .bind (.call nofun (.bind (.call nofun ?_)))
    exact ensures_applyTo _ _ invocation s'
  · exact .pure nofun

theorem parent_backedUp (f : ConfigApply.Files) : (backedUp true f).parent ≠ .absent := by
  show (if f.parent = .absent then ConfigApply.ParentState.present else f.parent) ≠ .absent
  split
  · decide
  · next hparent => exact hparent

theorem Surroundings.blockApplied {invocation : Text} (h : around.applyBlock invocation s = (.ok none, s')) :
    s'.hasDirectory = true ↔ s.hasDirectory = true ∨ s.home.env.isSome = true := by
  obtain ⟨hanswer, rfl⟩ := Prod.mk.inj h
  generalize hresult : Faults.alone (envAct around.envDisk) around.envDisk.fails (EnvBlock.apply invocation true) s =
    result at hanswer ⊢
  obtain ⟨x, s'⟩ := result
  obtain rfl : x = .ok none := by
    rcases x with e | reason
    · cases hanswer
    · exact congrArg Except.ok (Except.ok.inj hanswer)
  have hend : MayEnd (envAct around.envDisk) (EnvBlock.apply invocation true) s (.ok none) s' :=
    ⟨_, fun _ => around.envDisk.fails, 0, Ran.ext (congrArg Prod.fst hresult) (congrArg Prod.snd hresult) rfl⟩
  have hfiles := ensures_apply invocation s _ _ hend rfl
  dsimp only
  unfold State.hasDirectory
  rw [hfiles]
  rcases s.home.env.isSome
  · exact (or_iff_left Bool.false_ne_true).symm
  · exact iff_of_true (decide_eq_true (parent_backedUp s.files)) (Or.inr rfl)

/-- **After an `env-block-apply` that succeeds** there is a state directory where there was one, or
where a `.env` was backed up into it. -/
theorem Surroundings.envBlockApplied {consent : Consent} (h : around.envBlockApply consent s = (.ok none, s')) :
    s'.hasDirectory = true ↔ s.hasDirectory = true ∨ s.home.env.isSome = true := by
  unfold envBlockApply at h
  split at h
  · cases h
  · cases h
  · exact blockApplied h

end Operations

end SetupAssist

end YasbLimitora

import Mathlib
import YasbLimitora.ConfigApply.Apply
import YasbLimitora.ConfigApply.Frame

/-!
# When a selection is applied

Where nothing goes wrong and the merged document validates, it is applied just when it is not
larger than a configuration file may be (`YasbLimitora.ConfigApply.run_ok_iff`): it is read again
after the write, and then what is too large is refused. The merged document is written in ASCII and
with blanks, so a file of a permitted size may have one that is too large
(`YasbLimitora.ConfigApply.not_run_ok`).

The sufficient direction runs the whole program without a fault, and needs that every check passes:
the directory is the one that is owned, the file that was read is the one that is there, and the
merged document is valid. Of these only the size of the merged document depends on the writer. The
other direction is the check of the size itself.
-/

namespace YasbLimitora

namespace ConfigApply

open SetupAssist YasbLimitora.Config Faults
open Json (Fields)

/-! ### Runs in which nothing raises -/

/-- What a part of the program comes to while the lease is owned, if nothing raises. -/
def Runs {α : Type} (t : Filing α) (f : Files) (x : Except Raised α) (f' : Files) : Prop :=
  alone FileCall.perform (fun _ => false) t f = (x, f')

namespace Runs

variable {α β : Type} {t : Filing α} {k : α → Filing β} {f f₁ f' : Files}

/-- A step that returns is followed by what comes after it. -/
theorem bind {a : α} {x : Except Raised β} (h : Runs t f (.ok a) f₁) (hrest : Runs (k a) f₁ x f') :
    Runs (t >>= k) f x f' :=
  (alone_bind_ok h).trans hrest

/-- A step that raises is followed by nothing. -/
theorem raised {e : Raised} (h : Runs t f (.error e) f') : Runs (t >>= k) f (.error e) f' := alone_bind_error h

theorem pure (a : α) : Runs (Pure.pure a) f (.ok a) f := rfl

theorem throw (e : Raised) : Runs (MonadExcept.throw e : Filing α) f (.error e) f := rfl

/-- Where nobody else writes and nothing fails, a call does what it is for. -/
theorem call (c : FileCall) : Runs (ConfigApply.call c) f (.ok (c.perform f).1) (c.perform f).2 := alone_call rfl f

theorem tried (c : FileCall) :
    Runs (Transaction.tried c) f (.ok (.returned (c.perform f).1)) (c.perform f).2 := alone_tried rfl f

/-- A result that is caught is there to be looked at, whatever it was. -/
theorem outcome {x : Except Raised α} (h : Runs t f x f') : Runs t.outcome f (.ok x) f' := by
  rw [Runs, alone_outcome, h]

/-- A part of the program comes to something. -/
theorem total (t : Filing α) (f : Files) : ∃ x f', Runs t f x f' := ⟨_, _, rfl⟩

end Runs

section Parts

variable {f : Files} {raw merged : Bytes}

/-- The lease is still owned. -/
theorem runs_checkOwned (h : f.owned = true) : Runs checkOwned f (.ok ()) f := by
  refine (Runs.call .leaseOwned).bind ?_
  show Runs (if f.owned then _ else _) f _ _
  rw [h]
  exact Runs.pure ()

/-- The configuration is read as it stands, unless it is too long. -/
theorem runs_readGateOneConfig (h : f.config = some raw) :
    Runs readGateOneConfig f (if MAX_CONFIG_BYTES < raw.length then .error .osError else .ok (some raw)) f := by
  refine (Runs.call .readConfig).bind ?_
  have hread : (FileCall.readConfig.perform f).1 = some raw := h
  rw [hread]
  show Runs (if MAX_CONFIG_BYTES < raw.length then _ else _) f _ _
  split
  · exact Runs.throw _
  · exact Runs.pure _

/-- A backup is made. -/
theorem runs_createConfigBackup (raw : Bytes) (f : Files) : ∃ name backups,
    Runs (createConfigBackup raw) f (.ok name) { f with backups := backups } :=
  ⟨_, _, (Runs.call .makeBackups).bind ((Runs.call .openBackup).bind ((Runs.call (.writeBackup _ raw)).bind
    (Runs.pure _)))⟩

/-- The new configuration takes the place of the old, and no temporary file stays. -/
theorem runs_atomicConfigWrite (data : Bytes) :
    Runs (atomicConfigWrite data) f (.ok ()) { f with config := some data, temporary := none } := by
  have hwritten : Runs (do
      let _ : Unit ← call (.writeTemporary data)
      let _ : Unit ← call .replaceConfig) (FileCall.makeTemporary.perform f).2 (.ok ())
        { f with config := some data, temporary := none } :=
    (Runs.call (.writeTemporary data)).bind ((Runs.call .replaceConfig).bind (Runs.pure ()))
  exact (Runs.call .makeTemporary).bind (hwritten.outcome.bind (Runs.pure ()))

/-- A replacement makes a backup, writes, and leaves only backups besides. -/
theorem runs_replaceBy (raw merged : Bytes) (h : f.owned = true) : ∃ backup backups,
    Runs (replaceBy (some raw) merged) f (.ok backup)
      { f with backups := backups, config := some merged, temporary := none } := by
  obtain ⟨name, backups, hbackup⟩ := runs_createConfigBackup raw f
  have howned : ({ f with backups := backups } : Files).owned = true := h
  have hbackUp : Runs (backUp (some raw)) f (.ok (some name)) { f with backups := backups } :=
    hbackup.bind (Runs.pure (some name))
  refine ⟨some name, backups, hbackUp.bind ?_⟩
  exact (runs_checkOwned howned).bind ((runs_atomicConfigWrite merged).bind (Runs.pure _))

/-- Old backups are removed, and nothing else is touched. -/
theorem runs_removeBackups (l : List Backup) (f : Files) : ∃ backups,
    Runs (removeBackups l) f (.ok ()) { f with backups := backups } := by
  induction l generalizing f with
  | nil => exact ⟨f.backups, Runs.pure ()⟩
  | cons b l ih =>
    obtain ⟨backups, hrest⟩ := ih ((FileCall.removeBackup b.name).perform f).2
    exact ⟨backups, (Runs.call (.removeBackup b.name)).bind hrest⟩

/-- Pruning touches nothing but backups. -/
theorem runs_pruneConfigBackups (f : Files) : ∃ backups,
    Runs pruneConfigBackups f (.ok ()) { f with backups := backups } := by
  obtain ⟨backups, hremove⟩ := runs_removeBackups _ f
  exact ⟨backups, (Runs.call .listBackups).bind hremove⟩

end Parts

/-! ### From the snapshot on -/

/-- A reply that all went well. -/
def Applied (x : Except Raised Reply) : Prop := ∃ warnings, x = .ok (.ok warnings)

section Documents

variable {F : Type} {floats : Floats F} {limit : ℕ} {floatTexts : FloatTexts} {raw merged : Bytes}
  {selection : Fields} {f : Files}

/-- What is checked after the write is its size, where the rest is as it should be. -/
theorem runs_checkReplaced {result : LocalConfig F × List ProviderKey} (howned : f.owned = true)
    (hconfig : f.config = some merged) (hvalid : validateConfigDocument floats limit false merged = .ok result)
    (hverify : verifyConfigReread floatTexts raw merged merged selection = true) :
    ∃ x f', Runs (checkReplaced floats limit floatTexts (some raw) merged selection) f x f' ∧
      (x = .ok () ↔ merged.length ≤ MAX_CONFIG_BYTES) := by
  have hread := runs_readGateOneConfig hconfig
  by_cases hsize : merged.length ≤ MAX_CONFIG_BYTES
  · rw [if_neg (not_lt.2 hsize)] at hread
    obtain ⟨backups, hprune⟩ := runs_pruneConfigBackups f
    refine ⟨.ok (), { f with backups := backups }, (runs_checkOwned howned).bind (hread.bind ?_),
      iff_of_true rfl hsize⟩
    refine (Runs.pure merged).bind ?_
    rw [hvalid]
    show Runs (if verifyConfigReread floatTexts raw merged merged selection then _ else _) f _ _
    rw [if_pos hverify]
    exact hprune
  · rw [if_pos (not_le.1 hsize)] at hread
    exact ⟨.error .osError, f, (runs_checkOwned howned).bind hread.raised, iff_of_false nofun hsize⟩

/-- **A merged document that verifies is applied** exactly if it is not too long: a longer one is written,
refused when it is read again, and rolled back. -/
theorem runs_writeConfig {result : LocalConfig F × List ProviderKey} (warnings : List Warning)
    (howned : f.owned = true) (hvalid : validateConfigDocument floats limit false merged = .ok result)
    (hverify : verifyConfigReread floatTexts raw merged merged selection = true) :
    ∃ x f', Runs (writeConfig floats limit floatTexts (some raw) merged selection warnings) f x f' ∧
      (Applied x ↔ merged.length ≤ MAX_CONFIG_BYTES) := by
  obtain ⟨backup, backups, hreplace⟩ := runs_replaceBy raw merged howned
  have howned' : ({ f with backups := backups, config := some merged, temporary := none } : Files).owned = true :=
    howned
  obtain ⟨x, f', hcheck, hx⟩ := runs_checkReplaced howned' rfl hvalid hverify
  rcases x with e | u
  · have hsize : ¬merged.length ≤ MAX_CONFIG_BYTES := fun hsize => nomatch hx.2 hsize
    obtain ⟨y, f'', hrollback⟩ := Runs.total (rollbackConfigWrite backup) f'
    have hrefused : ∀ {z}, (∀ warnings, z ≠ .ok (.ok warnings)) → (Applied z ↔ merged.length ≤ MAX_CONFIG_BYTES) :=
      fun hz => iff_of_false (fun ⟨warnings, h⟩ => hz warnings h) hsize
    rcases y with e' | _
    · rcases e'
      case osError => exact ⟨_, _, hreplace.outcome.bind (hcheck.outcome.bind (hrollback.outcome.bind
          (Runs.pure _))), hrefused nofun⟩
      all_goals exact ⟨_, _, hreplace.outcome.bind (hcheck.outcome.bind (hrollback.outcome.bind
          (Runs.throw _))), hrefused nofun⟩
    · exact ⟨_, _, hreplace.outcome.bind (hcheck.outcome.bind (hrollback.outcome.bind (Runs.pure _))),
        hrefused nofun⟩
  · exact ⟨_, _, hreplace.outcome.bind (hcheck.outcome.bind (Runs.pure _)), iff_of_true ⟨warnings, rfl⟩ (hx.1 rfl)⟩

theorem runs_runnerIsFile (runner : Option Text) (f : Files) : ∃ isFile, Runs (runnerIsFile runner) f (.ok isFile) f := by
  rcases runner with _ | runner
  · exact ⟨false, Runs.pure false⟩
  · exact ⟨_, (Runs.tried (.runnerIsFile runner)).bind (Runs.pure _)⟩

/-- The warnings are looked for without changing anything. -/
theorem runs_readinessWarnings (config : LocalConfig F) (apiKey : Bool) (f : Files) :
    ∃ warnings, Runs (readinessWarnings config apiKey) f (.ok warnings) f := by
  rw [readinessWarnings]
  split
  · obtain ⟨isFile, hrunner⟩ := runs_runnerIsFile config.codex.runner f
    exact ⟨_, hrunner.bind (Runs.pure _)⟩
  · exact ⟨_, (Runs.pure true).bind (Runs.pure _)⟩

/-- A valid configuration of the right size is the snapshot. -/
theorem runs_snapshotFromOwned {result : LocalConfig F × List ProviderKey} (howned : f.owned = true)
    (hconfig : f.config = some raw) (hsize : raw.length ≤ MAX_CONFIG_BYTES)
    (hvalid : validateConfigDocument floats limit true raw = .ok result) :
    Runs (snapshotFromOwned floats limit) f (.ok ⟨some raw, result.2⟩) f := by
  have hread := runs_readGateOneConfig hconfig
  rw [if_neg (not_lt.2 hsize)] at hread
  refine (runs_checkOwned howned).bind (hread.bind ?_)
  dsimp only
  rw [hvalid]
  exact Runs.pure _

/-- What is given to an operation that goes well: a file and its configuration, and a selection with what
it is merged to. -/
structure Mergeable (floats : Floats F) (limit : ℕ) (floatTexts : FloatTexts) (raw : Bytes) (selection : Fields)
    (merged : Bytes) : Prop where
  size : raw.length ≤ MAX_CONFIG_BYTES
  valid : ∃ config, validateConfigDocument floats limit true raw = .ok (config, [])
  accepted : validConfigSelection (.obj selection) = some selection
  readable : (Json.obj selection).Readable (mergeReader floatTexts)
  merge : mergeConfigSelection floatTexts raw selection = some merged
  remains : ∃ result, validateConfigDocument floats limit false merged = .ok result

/-- From the snapshot of a mergeable document the selection is applied, unless the merge is too long. -/
theorem runs_consumeConfigSnapshot (apiKey : Bool) (hfaithful : (mergeReader floatTexts).Faithful)
    (h : Mergeable floats limit floatTexts raw selection merged) (howned : f.owned = true) :
    ∃ x f', Runs (consumeConfigSnapshot floats limit floatTexts ⟨some raw, []⟩ (some (.obj selection)) apiKey)
      f x f' ∧ (Applied x ↔ merged.length ≤ MAX_CONFIG_BYTES) := by
  obtain ⟨config, hvalid⟩ := h.valid
  obtain ⟨result, hremains⟩ := h.remains
  obtain ⟨-, -, -, -, -, hverify⟩ := merge_frame floats limit hfaithful hvalid h.accepted h.readable h.merge
  obtain ⟨warnings, hwarnings⟩ := runs_readinessWarnings result.1 apiKey f
  obtain ⟨x, f', hwrite, hx⟩ := runs_writeConfig warnings howned hremains hverify
  have hmerged : mergedConfig floats limit floatTexts (some raw) selection = .ok (merged, result.1) := by
    rw [mergedConfig, Option.getD_some, h.merge]
    show Except.map _ (validateConfigDocument floats limit false merged) = _
    rw [hremains]
    rfl
  refine ⟨x, f', (runs_checkOwned howned).bind ?_, hx⟩
  dsimp only
  rw [h.accepted]
  dsimp only
  rw [if_neg (not_not.2 rfl), hmerged]
  exact hwarnings.bind ((runs_checkOwned howned).bind hwrite)

/-- The whole of what is done under the lease. -/
theorem runs_leaseBody (apiKey : Bool) (hfaithful : (mergeReader floatTexts).Faithful)
    (h : Mergeable floats limit floatTexts raw selection merged) (howned : f.owned = true)
    (hconfig : f.config = some raw) :
    ∃ x f', Runs (leaseBody floats limit floatTexts (some (.obj selection)) apiKey) f x f' ∧
      (Applied x ↔ merged.length ≤ MAX_CONFIG_BYTES) := by
  obtain ⟨config, hvalid⟩ := h.valid
  obtain ⟨x, f', hconsume, hx⟩ := runs_consumeConfigSnapshot apiKey hfaithful h howned
  exact ⟨x, f', (runs_snapshotFromOwned howned hconfig h.size hvalid).outcome.bind hconsume, hx⟩

end Documents

/-! ### With the lease -/

/-- What the operation comes to, if nothing raises. -/
def Goes {α : Type} (t : Applying α) (f : Files) (x : Except Raised α) (f' : Files) : Prop :=
  alone Call.perform (fun _ => false) t f = (x, f')

namespace Goes

variable {α β : Type} {t : Applying α} {k : α → Applying β} {f f₁ f' : Files}

theorem bind {a : α} {x : Except Raised β} (h : Goes t f (.ok a) f₁) (hrest : Goes (k a) f₁ x f') :
    Goes (t >>= k) f x f' :=
  (alone_bind_ok h).trans hrest

theorem pure (a : α) : Goes (Pure.pure a) f (.ok a) f := rfl

theorem throw (e : Raised) : Goes (MonadExcept.throw e : Applying α) f (.error e) f := rfl

theorem call (c : Call) (e : Raised) : Goes (Transaction.call c e) f (.ok (c.perform f).1) (c.perform f).2 :=
  alone_call rfl f

theorem tried (c : Call) : Goes (Transaction.tried c) f (.ok (.returned (c.perform f).1)) (c.perform f).2 :=
  alone_tried rfl f

theorem outcome {x : Except Raised α} (h : Goes t f x f') : Goes t.outcome f (.ok x) f' := by
  rw [Goes, alone_outcome, h]

/-- What runs on the files runs as a step of the whole application. -/
theorem lift {u : Filing α} {x : Except Raised α} (h : Runs u f x f') : Goes (u.lift Call.file) f x f' := by
  have hlift : alone Call.perform (fun _ => false) (u.lift Call.file) f
      = alone FileCall.perform (fun _ => false) u f := by
    have hact : ∀ c f, Call.perform (Call.file c) f = FileCall.perform c f := fun _ _ => rfl
    exact alone_lift hact u f
  exact hlift.trans h

end Goes

section Lease

variable {F : Type} {floats : Floats F} {limit : ℕ} {floatTexts : FloatTexts} {raw merged : Bytes}
  {selection : Fields} {f : Files}

/-- An operation that may be tried again is done at the first try. -/
theorem goes_anyOf (c : Call) (tries : ℕ) : Goes (anyOf c (tries + 1)) f (.ok true) (c.perform f).2 :=
  (Goes.tried c).bind (Goes.pure true)

/-- The lease is left, whatever the guard was. -/
theorem goes_leave (guarded : Bool) (f : Files) : ∃ f', Goes (leave guarded) f (.ok ()) f' := by
  rcases guarded
  · exact ⟨_, (goes_anyOf .closeMarker 0).bind (Goes.pure ())⟩
  · exact ⟨_, (goes_anyOf .releaseMutex 2).bind ((goes_anyOf .closeHandle 2).bind (Goes.pure ()))⟩

/-- The lease is taken before the body and left after it. -/
theorem goes_withLease {body : Filing Reply} {x : Except Raised Reply} {f' : Files}
    (h : Runs body { f with owned := true } x f') : ∃ f'', Goes (withLease body) f x f'' := by
  obtain ⟨f'', hleave⟩ := goes_leave f.guarded f'
  refine ⟨f'', (Goes.call .acquireLease _).bind ((Goes.lift h).outcome.bind (hleave.bind ?_))⟩
  rcases x with e | reply
  · exact Goes.throw e
  · exact Goes.pure reply

/-- A body that runs under the lease runs as the whole gate. -/
theorem goes_gatePresent {selection : Option (Json Text)} {apiKey : Bool} {x : Except Raised Reply} {f' : Files}
    (h : Runs (leaseBody floats limit floatTexts selection apiKey) { f with owned := true } x f') :
    ∃ y f'', Goes (gatePresent floats limit floatTexts selection apiKey) f y f'' ∧ (Applied y ↔ Applied x) := by
  obtain ⟨f'', hlease⟩ := goes_withLease h
  rcases x with e | reply
  · have hnot : ∀ e : Raised, ¬Applied (.error e) := fun _ ⟨_, h⟩ => nomatch h
    have hinvalid : ¬Applied (.ok invalid) := by
      rintro ⟨warnings, h⟩
      cases h
    rcases e
    case osError => exact ⟨_, _, hlease.outcome.bind (Goes.pure _), iff_of_false hinvalid (hnot _)⟩
    case guardError => exact ⟨_, _, hlease.outcome.bind (Goes.pure _), iff_of_false hinvalid (hnot _)⟩
    all_goals exact ⟨_, _, hlease.outcome.bind (Goes.throw _), Iff.rfl⟩
  · exact ⟨_, _, hlease.outcome.bind (Goes.pure _), Iff.rfl⟩

/-- What the operation comes to where nothing goes wrong. -/
theorem exists_goes (apiKey : Bool) {floats : Floats F} (hfaithful : (mergeReader floatTexts).Faithful)
    (h : Mergeable floats limit floatTexts raw selection merged) (hparent : f.parent = .present)
    (hconfig : f.config = some raw) : ∃ x f',
      Goes (configGateOne floats limit floatTexts (some (.obj selection)) apiKey) f x f' ∧
        (Applied x ↔ merged.length ≤ MAX_CONFIG_BYTES) := by
  have howned : ({ f with owned := true } : Files).owned = true := rfl
  obtain ⟨x, f', hbody, hx⟩ := runs_leaseBody apiKey hfaithful h howned hconfig
  obtain ⟨y, f'', hgate, hy⟩ := goes_gatePresent hbody
  refine ⟨y, f'', (Goes.call (.file .parentState) _).bind ?_, hy.trans hx⟩
  have hstate : ((Call.file .parentState).perform f).1 = .present := hparent
  rw [hstate]
  exact hgate

/-- What goes its way is the result of the run with nobody interfering. -/
theorem result_of_goes {floats : Floats F} {selection : Option (Json Text)} {apiKey : Bool} {x : Except Raised Reply}
    {f' : Files} (h : Goes (configGateOne floats limit floatTexts selection apiKey) f x f') :
    (run floats limit floatTexts selection apiKey (fun _ _ => false) f).result = x := congrArg Prod.fst h

end Lease

/-- **A selection is applied just when the merged document is not too large**, if the configuration
file is there and nothing goes wrong. -/
theorem run_ok_iff {F : Type} (floats : Floats F) (limit : ℕ) {floatTexts : FloatTexts} {raw merged : Bytes}
    {selection : Fields} (apiKey : Bool) {f : Files} (hfaithful : (mergeReader floatTexts).Faithful)
    (h : Mergeable floats limit floatTexts raw selection merged) (hparent : f.parent = .present)
    (hconfig : f.config = some raw) :
    Applied (run floats limit floatTexts (some (.obj selection)) apiKey (fun _ _ => false) f).result ↔
      merged.length ≤ MAX_CONFIG_BYTES := by
  obtain ⟨x, f', hgoes, hx⟩ := exists_goes apiKey hfaithful h hparent hconfig
  rw [result_of_goes hgoes, hx]

/-- The files with a configuration, and no backups. -/
def configured (raw : Bytes) : Files := ⟨.present, some raw, [], none, [], 0, false, true⟩

/-- A reader that knows no floating-point numbers is faithful. -/
theorem faithful_noFloats : (mergeReader fun _ => none).Faithful := ⟨nofun, fun _ => rfl, rfl⟩

theorem run_ok_iff_enabled :
    Applied (run wholeFloats 100 (fun _ => none) (some (.obj enabledSelection)) false (fun _ _ => false)
      (configured disabledRaw)).result := by
  have hvalid : validateConfigDocument wholeFloats 100 true disabledRaw
      = .ok (⟨⟨false, none, 7⟩, ⟨false, 7⟩, 7⟩, []) := by decide +kernel
  have hmerge : (mergeConfigSelection (fun _ => none) disabledRaw enabledSelection).any
      (fun merged => decide (merged.length ≤ MAX_CONFIG_BYTES) &&
        (validateConfigDocument wholeFloats 100 false merged).isOk) = true := by decide +kernel
  obtain ⟨merged, hmerged, hany⟩ := (Option.any_eq_true _ _).1 hmerge
  obtain ⟨hsize, hremains⟩ := Bool.and_eq_true_iff.1 hany
  rcases hresult : validateConfigDocument wholeFloats 100 false merged with e | result
  · rw [hresult] at hremains
    cases hremains
  · exact (run_ok_iff wholeFloats 100 false faithful_noFloats ⟨by decide, ⟨_, hvalid⟩, rfl,
      readable_enabledSelection _, hmerged, result, hresult⟩ rfl rfl).2 (of_decide_eq_true hsize)

/-! ### A file that is too large once it is merged -/

/-- A long path. -/
def longPath (n : ℕ) : Text := Text.ofString "C:\\" ++ List.replicate n (.ch 'a')

/-- A document with a long path to a runner, and a deadline. -/
def longDocument (n : ℕ) (seconds : ℤ) : Fields :=
  [(Text.ofString "codex", .obj [(Text.ofString "runner", .str (longPath n))]), (DEADLINE, .int seconds)]

def longBytes (gap : Text) (n : ℕ) (seconds : ℤ) : Bytes :=
  Encoding.ascii ((Json.Style.ascii gap).write (.obj (longDocument n seconds)))

section Long

variable {gap : Text} {n : ℕ}

/-- How long the path is as it is spelled. -/
theorem length_spelledPath : ((longPath n).flatMap Json.Style.spellAscii).length = n + 4 := by
  have hletters : ∀ n, ((List.replicate n (CodePoint.ch 'a')).flatMap Json.Style.spellAscii).length = n := by
    intro n
    induction n with
    | zero => rfl
    | succ n ih => rw [List.replicate_succ, List.flatMap_cons, List.length_append, ih, Nat.add_comm]; rfl
  rw [longPath, List.flatMap_append, List.length_append, hletters, Nat.add_comm]
  rfl

/-- The length of a document that is made as long as one wants. -/
theorem length_longBytes {seconds : ℤ} (h : (Json.intChars seconds).length = 2) :
    (longBytes gap n seconds).length = n + 49 + 4 * gap.length := by
  have hquote : ∀ s : Text, ((Json.Style.ascii gap).quote s).length
      = (s.flatMap Json.Style.spellAscii).length + 2 := by
    intro s
    rw [Json.Style.quote, List.length_append, List.length_cons]
    rfl
  have hcodex : ((Text.ofString "codex").flatMap Json.Style.spellAscii).length = 5 := by decide
  have hrunner : ((Text.ofString "runner").flatMap Json.Style.spellAscii).length = 6 := by decide
  have hdeadline : (DEADLINE.flatMap Json.Style.spellAscii).length = 16 := by decide
  have hgap : (Json.Style.ascii gap).gap = gap := rfl
  simp only [longBytes, longDocument, Encoding.ascii, List.length_map, Json.Style.write, Json.Style.writeFields,
    List.length_append, List.length_cons, List.length_nil, hquote, hcodex, hrunner, hdeadline, length_spelledPath,
    hgap, Text.ofChars, h]
  omega

/-- Such a document is read back by every reader. -/
theorem readable_longDocument (r : Json.Reader) {seconds : ℤ}
    (h : (DecimalText.natText seconds.natAbs).length ≤ Json.maxDigits) :
    (Json.obj (longDocument n seconds)).Readable r := by
  have hpaired : ∀ s : String, (Text.ofString s).Paired := fun s =>
    Json.paired_of_spelled (Encoding.spelled_ofChars s.toList)
  have hpath : (longPath n).Paired := by
    refine Json.paired_of_spelled (Encoding.spelled_append.2 ⟨Encoding.spelled_ofChars _, fun p hp => ?_⟩)
    obtain rfl := List.eq_of_mem_replicate hp
    exact CodePoint.isSurrogate_char 'a'
  have hkeys : [Text.ofString "codex", DEADLINE].Nodup := by decide
  exact ⟨hkeys, hpaired _, ⟨List.nodup_singleton _, hpaired _, hpath, trivial⟩, hpaired _, h, trivial⟩

/-- A long document is valid, whatever the blanks in its text. -/
theorem validate_longBytes (hgap : ∀ p ∈ gap, Json.isBlank p = true) (hascii : gap.InAscii) (collect : Bool)
    {seconds : ℤ} (h : seconds = 20 ∨ seconds = 30) :
    ∃ config, validateConfigDocument wholeFloats 100 collect (longBytes gap n seconds) = .ok (config, []) := by
  have hread : (Json.obj (longDocument n seconds)).Readable configReader := by
    rcases h with rfl | rfl
    · exact readable_longDocument _ (by decide +kernel)
    · exact readable_longDocument _ (by decide +kernel)
  have hmapping : ∃ config,
      LocalConfig.fromMapping wholeFloats collect (.obj (longDocument n seconds)) = .ok (config, []) := by
    rcases h with rfl | rfl
    · exact ⟨⟨⟨false, some (longPath n), 7⟩, ⟨false, 7⟩, 20⟩, rfl⟩
    · exact ⟨⟨⟨false, some (longPath n), 7⟩, ⟨false, 7⟩, 30⟩, rfl⟩
  obtain ⟨config, hconfig⟩ := hmapping
  refine ⟨config, ?_⟩
  have hdepth : ¬100 < (Json.obj (longDocument n seconds)).depth := by
    show ¬100 < 2
    decide
  rw [validateConfigDocument, longBytes, hread.utf8_write hascii]
  dsimp only
  rw [ofText, hread.parse_ascii hgap]
  dsimp only
  rw [if_neg hdepth, hconfig]

/-- The deadline of a long document is changed. -/
theorem mergeable_longBytes (hsize : n + 49 ≤ MAX_CONFIG_BYTES) :
    Mergeable wholeFloats 100 (fun _ => none) (longBytes [] n 20) [(DEADLINE, .int 30)]
      (longBytes [.ch ' '] n 30) := by
  have hdigits : (Json.intChars 20).length = 2 := by decide +kernel
  refine ⟨?_, validate_longBytes (List.forall_mem_nil _) (List.forall_mem_nil _) true (Or.inl rfl), rfl, ?_, ?_, ?_⟩
  · rw [length_longBytes hdigits]
    exact hsize
  · have hlength : (DecimalText.natText (30 : ℤ).natAbs).length ≤ Json.maxDigits := by decide +kernel
    exact ⟨List.nodup_singleton _, Json.paired_of_spelled (Encoding.spelled_ofChars _), hlength, trivial⟩
  · have hread : (Json.obj (longDocument n 20)).Readable (mergeReader fun _ => none) :=
      readable_longDocument _ (by decide +kernel)
    have hordered : orderedConfigDocument (fun _ => none) (longBytes [] n 20) = some (longDocument n 20) :=
      orderedConfigDocument_eq_some.2 ⟨_, hread.utf8_write (List.forall_mem_nil _),
        hread.parse_ascii (List.forall_mem_nil _)⟩
    rw [mergeConfigSelection, hordered]
    rfl
  · have hblank : ∀ p ∈ [CodePoint.ch ' '], Json.isBlank p = true := by decide
    obtain ⟨config, hvalid⟩ := validate_longBytes (n := n) hblank (by decide) false (Or.inr rfl)
    exact ⟨_, hvalid⟩

end Long

/-- **A file of a permitted size whose merged document is too large**: the blanks that are written after
commas and colons make it so. -/
theorem not_run_ok :
    Mergeable wholeFloats 100 (fun _ => none) (longBytes [] 16335 20) [(DEADLINE, .int 30)]
        (longBytes [.ch ' '] 16335 30) ∧
      ¬Applied (run wholeFloats 100 (fun _ => none) (some (.obj [(DEADLINE, .int 30)])) false (fun _ _ => false)
        (configured (longBytes [] 16335 20))).result := by
  have hmergeable := mergeable_longBytes (n := 16335) (by norm_num [MAX_CONFIG_BYTES])
  refine ⟨hmergeable, ?_⟩
  obtain ⟨x, f', hgoes, hx⟩ := exists_goes (f := configured (longBytes [] 16335 20)) false
    faithful_noFloats hmergeable rfl rfl
  have hdigits : (Json.intChars 30).length = 2 := by decide +kernel
  rw [result_of_goes hgoes, hx, length_longBytes hdigits]
  decide

end ConfigApply

end YasbLimitora

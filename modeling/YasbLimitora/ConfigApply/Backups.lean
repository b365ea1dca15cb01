import Mathlib
import YasbLimitora.ConfigApply.Gate

/-!
# How many backups there are

Each application of a selection to a configuration that is there makes a backup of it, and
then removes all but the last five files that `_BACKUP_NAME` matches. The pattern asks for
backslashes, which no name of a file has, so that nothing is removed: the directory holds
the five most recent backups for as long as there are five, those that were there already
counted with those that are made (`YasbLimitora.ConfigApply.retained_iff`).

What a run does to the backups is recorded from its events (`YasbLimitora.ConfigApply.made`). A part
of the program that does not touch them is *quiet*, `YasbLimitora.ConfigApply.Quiet`, with a rule for
each way to build a program, so that what is left to look at is the making of the backup and the
pruning. The name of a new backup is free (`YasbLimitora.ConfigApply.backupName_freeStamp`), because
the search for a stamp goes on for as long as there are names to collide with.

An application that succeeds then adds one name, if it finds a configuration, and takes none away
(`YasbLimitora.ConfigApply.BacksUp`), and by induction over a sequence of them the directory only
grows (`YasbLimitora.ConfigApply.Succession.grown`).
-/

namespace YasbLimitora

namespace ConfigApply

open SetupAssist YasbLimitora.Config Faults
open Json (Fields)

/-! ### The names of backups -/

def names (f : Files) : List Text := f.backups.map Backup.name

/-- Different numbers give backups of different names. -/
theorem backupName_injective : Function.Injective backupName := by
  intro m n h
  have hdigits : Text.ofChars (DecimalText.natText m) = Text.ofChars (DecimalText.natText n) :=
    List.append_cancel_right (List.append_cancel_left h)
  have hchars : DecimalText.natText m = DecimalText.natText n :=
    Option.some.inj ((Text.toChars_ofChars _).symm.trans
      ((congrArg Text.toChars hdigits).trans (Text.toChars_ofChars _)))
  rw [← DecimalText.readNat_natText m, hchars, DecimalText.readNat_natText]

/-- The search for a stamp ends at a free one, or has gone through stamps that are all taken. -/
theorem freeStamp_cases (taken : List Text) (fuel stamp : ℕ) :
    backupName (freeStamp taken fuel stamp) ∉ taken ∨
      freeStamp taken fuel stamp = stamp + fuel ∧ ∀ i < fuel, backupName (stamp + i) ∈ taken := by
  induction fuel generalizing stamp with
  | zero => exact Or.inr ⟨rfl, fun i hi => absurd hi (Nat.not_lt_zero i)⟩
  | succ fuel ih =>
    rw [freeStamp]
    split
    · next htaken =>
      rcases ih (stamp + 1) with hfree | ⟨hend, hall⟩
      · exact Or.inl hfree
      · refine Or.inr ⟨hend.trans (by omega), fun i hi => ?_⟩
        rcases i with _ | i
        · exact htaken
        · rw [← Nat.add_assoc, Nat.add_right_comm]
          exact hall i (by omega)
    · next hfree => exact Or.inl hfree

/-- **There is a free stamp** among one more than there are names. -/
theorem backupName_freeStamp (taken : List Text) (stamp : ℕ) :
    backupName (freeStamp taken taken.length stamp) ∉ taken := by
  rcases freeStamp_cases taken taken.length stamp with hfree | ⟨hend, hall⟩
  · exact hfree
  · rw [hend]
    intro hlast
    -- one name too many
    have hnodup : ((List.range (taken.length + 1)).map fun i => backupName (stamp + i)).Nodup :=
      (List.nodup_range).map fun i j h => Nat.add_left_cancel (backupName_injective h)
    have hsub : ((List.range (taken.length + 1)).map fun i => backupName (stamp + i)) ⊆ taken := by
      intro name hname
      obtain ⟨i, hi, rfl⟩ := List.mem_map.1 hname
      rcases Nat.lt_succ_iff_lt_or_eq.1 (List.mem_range.1 hi) with hi | rfl
      · exact hall i hi
      · exact hlast
    have hlength := (hnodup.subperm hsub).length_le
    rw [List.length_map, List.length_range] at hlength
    omega

/-- What the pattern of backups matches has a backslash. -/
theorem backslash_of_isBackupName {name : Text} (h : isBackupName name = true) :
    .ch '\\' ∈ name := by
  have hstart : name.take 7 = Text.ofString "config\\" := (of_decide_eq_true h).1
  have hmem : CodePoint.ch '\\' ∈ name.take 7 := by
    rw [hstart]
    decide
  exact List.mem_of_mem_take hmem

/-! ### What an application does to the backups -/

/-- No file is one that the pattern of backups matches. -/
def Unmatched (f : Files) : Prop := ∀ name ∈ names f, isBackupName name = false

/-- The name of the backup that a call creates. -/
def madeByFileCall : Event FileCall (fun c => Answer c.Value) Files → Option Text
  | ⟨.openBackup, .returned name, _, _⟩ => some name
  | _ => none

/-- The name of the backup that a call creates. -/
def madeBy : Event Call (fun c => Answer c.Value) Files → Option Text
  | ⟨.file c, x, f, f'⟩ => madeByFileCall ⟨c, x, f, f'⟩
  | _ => none

/-- The backups that are made in a run, in their order. -/
def made (events : Trace) : List Text := events.filterMap madeBy

abbrev Records {α : Type} (t : Filing α) (f : Files) (Q : Except Raised α → Files → List Text → Prop) :
    Prop :=
  Faults.Records FileCall.perform madeByFileCall t f Q

/-- **A transaction leaves the backups alone.** -/
def Quiet {α : Type} (t : Filing α) : Prop :=
  ∀ f, Records t f fun _ f' recorded => f'.backups = f.backups ∧ recorded = []

namespace Quiet

variable {α β : Type}

/-- What returns at once writes nothing. -/
theorem pure (a : α) : Quiet (pure a) := fun _ => .pure ⟨rfl, rfl⟩

/-- What raises at once writes nothing either. -/
theorem throw (e : Raised) : Quiet (throw e : Filing α) := fun _ => .throw ⟨rfl, rfl⟩

/-- What writes nothing, step after step, writes nothing. -/
theorem bind {t : Filing α} {k : α → Filing β} (h : Quiet t) (hk : ∀ a, Quiet (k a)) :
    Quiet (t >>= k) := by
  intro f
  refine .bind ((h f).conseq fun x f₁ recorded hx => ?_)
  obtain ⟨hbackups, rfl⟩ := hx
  rcases x with e | a
  · exact ⟨hbackups, rfl⟩
  · exact (hk a f₁).conseq fun y f₂ recorded hy => ⟨hy.1.trans hbackups, hy.2⟩

theorem outcome {t : Filing α} (h : Quiet t) : Quiet t.outcome := fun f => .outcome (h f)

/-- A call that is not about the backups. -/
theorem perform {c : FileCall} {k : Answer c.Value → Except Raised α}
    (hc : ∀ f, (c.perform f).2.backups = f.backups) (hne : c ≠ .openBackup) :
    Quiet (Transaction.perform c k) := by
  intro f
  have hnone : ∀ x f f', madeByFileCall ⟨c, x, f, f'⟩ = none := by
    intro x f f'
    rcases c <;> first | rfl | exact absurd rfl hne
  refine .perform ⟨rfl, ?_⟩ ⟨hc f, ?_⟩
  · rw [hnone]
    rfl
  · rw [hnone]
    rfl

end Quiet

/-- What comes after a quiet part begins with the same backups. -/
theorem Quiet.then {α β : Type} {t : Filing α} {k : α → Filing β} {f : Files}
    {Q : Except Raised β → Files → List Text → Prop} (h : Quiet t)
    (herror : ∀ e f', f'.backups = f.backups → Q (.error e) f' [])
    (hk : ∀ a f', f'.backups = f.backups → Records (k a) f' Q) : Records (t >>= k) f Q := by
  refine .bind ((h f).conseq fun x f₁ recorded hx => ?_)
  obtain ⟨hbackups, rfl⟩ := hx
  rcases x with e | a
  · exact herror e f₁ hbackups
  · exact hk a f₁ hbackups

theorem quiet_checkOwned : Quiet checkOwned := by
  refine .bind (.perform (fun _ => rfl) (by simp)) fun owned => ?_
  rcases owned
  · exact .throw _
  · exact .pure _

theorem quiet_readGateOneConfig : Quiet readGateOneConfig := by
  refine .bind (.perform (fun _ => rfl) (by simp)) fun data => ?_
  rcases data with _ | raw
  · exact .pure _
  · dsimp only
    split
    · exact .throw _
    · exact .pure _

theorem quiet_configExists : Quiet configExists := by
  refine .bind (.perform (fun _ => rfl) (by simp)) fun answer => ?_
  rcases answer with _ | found
  · exact .pure _
  · exact .pure _

theorem quiet_found (data : Option Bytes) : Quiet (found data) := by
  rcases data with _ | raw
  · exact .throw _
  · exact .pure _

/-- To read the configuration writes nothing. -/
theorem quiet_snapshotFromOwned {F : Type} (floats : Floats F) (limit : ℕ) :
    Quiet (snapshotFromOwned floats limit) := by
  refine .bind quiet_checkOwned fun _ => .bind quiet_readGateOneConfig fun data => ?_
  rcases data with _ | raw
  · refine .bind quiet_configExists fun found => ?_
    rcases found
    · exact .pure _
    · exact .throw _
  · dsimp only
    split
    · exact .pure _
    · exact .throw _
    · exact .throw _

theorem quiet_runnerIsFile (runner : Option Text) : Quiet (runnerIsFile runner) := by
  rcases runner with _ | runner
  · exact .pure _
  · refine .bind (.perform (fun _ => rfl) (by simp)) fun answer => ?_
    rcases answer with _ | isFile
    · exact .pure _
    · exact .pure _

/-- Nor does the look at what a selection still needs. -/
theorem quiet_readinessWarnings {F : Type} (config : LocalConfig F) (apiKey : Bool) :
    Quiet (readinessWarnings config apiKey) := by
  unfold readinessWarnings
  by_cases henabled : config.codex.enabled
  · simp only [henabled, if_true]
    exact .bind (quiet_runnerIsFile _) fun runnerFile => .pure _
  · simp only [henabled]
    exact .bind (.pure _) fun runnerFile => .pure _

/-- The atomic write of the configuration makes no backup. -/
theorem quiet_atomicConfigWrite (data : Bytes) : Quiet (atomicConfigWrite data) := by
  refine .bind (.perform (fun _ => rfl) (by simp)) fun _ => .bind (.outcome ?_) fun written => ?_
  · exact .bind (.perform (fun _ => rfl) (by simp)) fun _ =>
      .bind (.perform (fun _ => rfl) (by simp)) fun _ => .pure _
  · rcases written with e | ⟨⟩
    · exact .bind (.perform (fun _ => rfl) (by simp)) fun _ => .throw _
    · exact .pure _

/-- **What an application leaves of the backups**: those that were there, and the one that it
makes of what was there to be configured. -/
structure BacksUp (raw : Option Bytes) (f f' : Files) (recorded : List Text) : Prop where
  names : names f' = names f ++ recorded
  free : ∀ name ∈ recorded, name ∉ ConfigApply.names f ∧ isBackupName name = false
  count : recorded.length = if raw.isSome then 1 else 0

/-- A backup under a new name leaves no two of one name. -/
theorem BacksUp.unmatched {raw : Option Bytes} {f f' : Files} {recorded : List Text}
    (h : BacksUp raw f f' recorded) (hf : Unmatched f) : Unmatched f' := by
  intro name hname
  rw [h.names] at hname
  rcases List.mem_append.1 hname with hname | hname
  · exact hf name hname
  · exact (h.free name hname).2

/-- It is one at most. -/
theorem BacksUp.nodup {raw : Option Bytes} {f f' : Files} {recorded : List Text}
    (h : BacksUp raw f f' recorded) : recorded.Nodup := by
  have hlength : recorded.length ≤ 1 := by
    rw [h.count]
    split
    · exact le_refl 1
    · exact Nat.zero_le 1
  rcases recorded with _ | ⟨name, _ | ⟨other, rest⟩⟩
  · exact List.nodup_nil
  · exact List.nodup_singleton name
  · simp at hlength

/-- What leaves the names alone may come before it and after it. -/
theorem BacksUp.of_names {raw : Option Bytes} {f f₁ f₂ f' : Files} {recorded : List Text}
    (h : BacksUp raw f₁ f₂ recorded) (hbefore : ConfigApply.names f₁ = ConfigApply.names f)
    (hafter : ConfigApply.names f' = ConfigApply.names f₂) : BacksUp raw f f' recorded := by
  refine ⟨?_, ?_, h.count⟩
  · rw [hafter, h.names, hbefore]
  · rw [← hbefore]
    exact h.free

theorem names_eq_of_backups {f f' : Files} (h : f'.backups = f.backups) : names f' = names f :=
  congrArg (List.map Backup.name) h

theorem names_writeBackup (f : Files) (name : Text) (content : Bytes) :
    names (FileCall.perform (.writeBackup name content) f).2 = names f := by
  refine List.map_map.trans (List.map_congr_left fun b _ => ?_)
  dsimp only [Function.comp]
  split
  · rfl
  · rfl

/-- **A backup is made** of what the file was, under a name of its own. -/
theorem records_createConfigBackup (raw : Bytes) (f : Files) :
    Records (createConfigBackup raw) f fun x f' recorded =>
      ∀ name, x = .ok name → BacksUp (some raw) f f' recorded := by
  refine .bind (.perform nofun (.bind (.perform nofun (.bind (.perform nofun (.pure ?_))))))
  intro name _
  refine ⟨?_, ?_, rfl⟩
  · exact (names_writeBackup (FileCall.perform .openBackup f).2 _ raw).trans List.map_append
  · intro name hname
    rw [List.mem_singleton.1 hname]
    refine ⟨?_, isBackupName_backupName _⟩
    have hfree := backupName_freeStamp (names f) f.clock
    rwa [show (names f).length = f.backups.length from List.length_map _] at hfree

/-- **Nothing is removed**, because nothing is matched. -/
theorem quiet_pruneConfigBackups {f : Files} (hf : Unmatched f) :
    Records pruneConfigBackups f fun _ f' recorded => f'.backups = f.backups ∧ recorded = [] := by
  refine .bind (.perform ⟨rfl, rfl⟩ ?_)
  have hnone : (f.backups.filter fun b => isBackupName b.name && b.regular) = [] := by
    refine List.filter_eq_nil_iff.2 fun b hb hmatch => ?_
    rw [hf b.name (List.mem_map_of_mem hb)] at hmatch
    exact Bool.noConfusion hmatch
  dsimp only [FileCall.perform]
  rw [hnone, List.mergeSort_nil, List.take_nil]
  exact Faults.Records.pure ⟨rfl, rfl⟩

section Records

variable {F : Type} (floats : Floats F) (limit : ℕ) (floatTexts : FloatTexts)

/-- A replacement that is reported has made its backup before. -/
theorem records_replaceBy (raw : Option Bytes) (merged : Bytes) (f : Files) :
    Records (replaceBy raw merged) f fun x f' recorded =>
      ∀ backup, x = .ok backup → BacksUp raw f f' recorded := by
  have hrest : ∀ (backup : Option Text) (f₁ : Files) (first : List Text), BacksUp raw f f₁ first →
      Records (checkOwned >>= fun _ => atomicConfigWrite merged >>= fun _ => return backup) f₁
        fun x f' second => ∀ backup, x = .ok backup → BacksUp raw f f' (first ++ second) := by
    intro backup f₁ first hfirst
    refine quiet_checkOwned.then nofun fun _ f₂ h₂ => ?_
    refine (quiet_atomicConfigWrite merged).then nofun fun _ f₃ h₃ => .pure ?_
    intro _ _
    rw [List.append_nil]
    exact hfirst.of_names rfl ((names_eq_of_backups h₃).trans (names_eq_of_backups h₂))
  rcases raw with _ | raw
  · refine .bind (.pure (hrest none f [] ⟨(List.append_nil _).symm, ?_, rfl⟩))
    exact List.forall_mem_nil _
  · refine .bind (.bind ((records_createConfigBackup raw f).conseq fun x f₁ first hx => ?_))
    rcases x with e | name
    · exact nofun
    · refine .pure ?_
      rw [List.append_nil]
      exact hrest (some name) f₁ first (hx name rfl)

/-- **The check of the replacement** leaves the backups as they are. -/
theorem records_checkReplaced (raw : Option Bytes) (merged : Bytes) (selected : Fields) {f : Files}
    (hf : Unmatched f) :
    Records (checkReplaced floats limit floatTexts raw merged selected) f fun _ f' recorded =>
      f'.backups = f.backups ∧ recorded = [] := by
  refine quiet_checkOwned.then (fun _ _ h => ⟨h, rfl⟩) fun _ f₁ h₁ => ?_
  refine quiet_readGateOneConfig.then (fun _ _ h => ⟨h.trans h₁, rfl⟩) fun data f₂ h₂ => ?_
  refine (quiet_found data).then (fun _ _ h => ⟨h.trans (h₂.trans h₁), rfl⟩) fun reread f₃ h₃ => ?_
  have hsame : f₃.backups = f.backups := h₃.trans (h₂.trans h₁)
  split
  · exact .throw ⟨hsame, rfl⟩
  split
  · split
    · refine (quiet_pruneConfigBackups (fun name hname => hf name ?_)).conseq
        fun x f₄ recorded hx => ⟨hx.1.trans hsame, hx.2⟩
      rwa [names_eq_of_backups hsame] at hname
    · exact .pure ⟨hsame, rfl⟩
  · exact .throw ⟨hsame, rfl⟩

/-- What an application that succeeds does to the backups. -/
def Settled (f : Files) (x : Except Raised Reply) (f' : Files) (recorded : List Text) : Prop :=
  ∀ warnings, x = .ok (.ok warnings) → BacksUp f.config f f' recorded

/-- So has a write that is reported. -/
theorem records_writeConfig (raw : Option Bytes) (merged : Bytes) (selected : Fields)
    (warnings : List Warning) {f : Files} (hf : Unmatched f) :
    Records (writeConfig floats limit floatTexts raw merged selected warnings) f fun x f' recorded =>
      ∀ warnings, x = .ok (.ok warnings) → BacksUp raw f f' recorded := by
  refine .bind (.outcome ((records_replaceBy raw merged f).conseq fun x f₁ first hx => ?_))
  rcases x with e | backup
  · exact .pure nofun
  have hfirst := hx backup rfl
  refine .bind (.outcome ((records_checkReplaced floats limit floatTexts raw merged selected
    (hfirst.unmatched hf)).conseq fun x f₂ second hx => ?_))
  obtain ⟨hsame, rfl⟩ := hx
  rcases x with e | ⟨⟩
  · -- whatever the rollback does, the answer is a refusal
    refine .bind (.outcome (Faults.Records.any.conseq fun x f₃ third _ => ?_))
    rcases x with (_ | _ | _ | _) | ⟨⟩
    · exact .pure nofun
    · exact .throw nofun
    · exact .throw nofun
    · exact .throw nofun
    · exact .pure nofun
  · refine .pure fun _ _ => ?_
    rw [List.nil_append, List.append_nil]
    exact hfirst.of_names rfl (names_eq_of_backups hsame)

/-- A selection that is applied has been backed up under a name of its own, if there was a file. -/
theorem records_consumeConfigSnapshot {snapshot : Snapshot} (selection : Option (Json Text))
    (apiKey : Bool) {f : Files} (hf : Unmatched f) (hsnapshot : snapshot.raw = f.config) :
    Records (consumeConfigSnapshot floats limit floatTexts snapshot selection apiKey) f (Settled f) := by
  refine quiet_checkOwned.then nofun fun _ f₁ h₁ => ?_
  rcases selection with _ | given
  · dsimp only
    split
    · exact .pure nofun
    · exact .pure nofun
  dsimp only
  split
  · exact .pure nofun
  split
  · exact .pure nofun
  split
  · exact .throw nofun
  · exact .pure nofun
  refine (quiet_readinessWarnings _ apiKey).then nofun fun warnings f₂ h₂ => ?_
  refine quiet_checkOwned.then nofun fun _ f₃ h₃ => ?_
  have hnames : names f₃ = names f := names_eq_of_backups (h₃.trans (h₂.trans h₁))
  refine (records_writeConfig floats limit floatTexts snapshot.raw _ _ warnings
    fun name hname => hf name (hnames ▸ hname)).conseq fun x f' recorded hx warnings hok => ?_
  rw [← hsnapshot]
  exact (hx warnings hok).of_names hnames rfl

theorem records_leaseBody (selection : Option (Json Text)) (apiKey : Bool) {f : Files}
    (hf : Unmatched f) :
    Records (leaseBody floats limit floatTexts selection apiKey) f (Settled f) := by
  refine .bind (.outcome (((quiet_snapshotFromOwned floats limit f).and_ensures
    (ensures_snapshotFromOwned floats limit)).conseq fun x f₁ recorded hx => ?_))
  obtain ⟨⟨-, rfl⟩, rfl, hsnapshot⟩ := hx
  rcases x with (_ | _ | _ | _) | snapshot
  · exact .pure nofun
  · exact .pure nofun
  · exact .throw nofun
  · exact .throw nofun
  · exact records_consumeConfigSnapshot floats limit floatTexts selection apiKey hf (hsnapshot snapshot rfl)

/-- Giving the lease up makes no backups. -/
theorem records_leave (guarded : Bool) (f : Files) :
    Faults.Records Call.perform madeBy (leave guarded) f fun _ f' recorded =>
      f'.backups = f.backups ∧ recorded = [] := by
  intro x f' events h
  obtain ⟨-, hbackups, hevents, -⟩ := mayRun_leave h
  refine ⟨hbackups, List.filterMap_eq_nil_iff.2 ?_⟩
  rintro ⟨c, answer, before, after⟩ he
  have hexit : c.isExit = true := hevents _ he
  rcases c with c | _ | _ | _ | _
  · cases hexit
  · rfl
  · rfl
  · rfl
  · rfl

/-- The lease around it adds no backup. -/
theorem records_withLease (selection : Option (Json Text)) (apiKey : Bool) {f : Files}
    (hf : Unmatched f) :
    Faults.Records Call.perform madeBy (withLease (leaseBody floats limit floatTexts selection apiKey)) f
      (Settled f) := by
  refine .bind (.perform nofun (.bind (.outcome ?_)))
  have hact : ∀ c f, Call.perform (.file c) f = ((FileCall.perform c (id f)).1, (FileCall.perform c (id f)).2) :=
    fun _ _ => rfl
  have hlog : ∀ c x f f', madeBy ⟨.file c, x, f, f'⟩ = madeByFileCall ⟨c, x, id f, id f'⟩ :=
    fun _ _ _ _ => rfl
  refine (Faults.Records.lift id (fun _ f => f) (fun _ _ => rfl) (fun _ _ _ => rfl) (fun _ => rfl) hact hlog
    (records_leaseBody floats limit floatTexts selection apiKey (f := { f with owned := true }) hf)).conseq ?_
  rintro x f₁ first ⟨f₂, rfl, hx⟩
  refine .bind ((records_leave _ f₁).conseq fun y f₂ second hy => ?_)
  obtain ⟨hbackups, rfl⟩ := hy
  rcases y with e | ⟨⟩
  · exact nofun
  rcases x with e | reply
  · exact .throw nofun
  · refine .pure fun warnings hok => ?_
    rw [List.append_nil, List.append_nil]
    exact (hx warnings hok).of_names rfl (names_eq_of_backups hbackups)

theorem records_gatePresent (selection : Option (Json Text)) (apiKey : Bool) {f : Files}
    (hf : Unmatched f) :
    Faults.Records Call.perform madeBy (gatePresent floats limit floatTexts selection apiKey) f
      (Settled f) := by
  refine .bind (.outcome ((records_withLease floats limit floatTexts selection apiKey hf).conseq
    fun x f₁ first hx => ?_))
  rcases x with (_ | _ | _ | _) | reply
  · exact .pure nofun
  · exact .throw nofun
  · exact .pure nofun
  · exact .throw nofun
  · refine .pure ?_
    rw [List.append_nil]
    exact hx

/-- **An application that succeeds** backs up the configuration that it finds, and removes no
backup. -/
theorem records_configGateOne (selection : Option (Json Text)) (apiKey : Bool) {f : Files}
    (hf : Unmatched f) :
    Faults.Records Call.perform madeBy (configGateOne floats limit floatTexts selection apiKey) f
      (Settled f) := by
  refine .bind (.perform nofun ?_)
  dsimp only [Call.perform, FileCall.perform]
  rcases f.parent with _ | _ | _
  · rcases selection with _ | given
    · exact .pure nofun
    dsimp only
    split
    · exact .pure nofun
    refine .bind (.perform (.pure nofun) (.bind (.perform nofun ?_)))
    dsimp only
    split
    · exact (records_gatePresent floats limit floatTexts (some given) apiKey
        (f := (FileCall.perform .makeParent f).2) hf).conseq
        fun x f' recorded hx warnings hok => (hx warnings hok).of_names rfl rfl
    · exact .pure nofun
  · exact records_gatePresent floats limit floatTexts selection apiKey hf
  · exact .pure nofun

end Records

/-! ### Sequences of applications -/

/-- An application of a selection, in which these calls raise. -/
structure Application where
  before : Files
  selection : Option (Json Text)
  apiKey : Bool
  raises : ℕ → Call → Bool

section Sequences

variable {F : Type} (floats : Floats F) (limit : ℕ) (floatTexts : FloatTexts)

def Application.ran (a : Application) :
    Ran Call (fun c => Answer c.Value) Files (Except Raised Reply) :=
  run floats limit floatTexts a.selection a.apiKey a.raises a.before

def Application.Succeeds (a : Application) : Prop :=
  ∃ warnings, (a.ran floats limit floatTexts).result = .ok (.ok warnings)

/-- The backups that an application makes. -/
def Application.made (a : Application) : List Text :=
  ConfigApply.made (a.ran floats limit floatTexts).events

/-- Between two applications the clock does not go back, and the backups are left alone. -/
structure Awaits (f f' : Files) : Prop where
  backups : f'.backups = f.backups
  clock : f.clock ≤ f'.clock

/-- **A sequence of applications that all succeed**, one after the other. -/
def Succession (f : Files) : List Application → Prop
  | [] => True
  | a :: rest => Awaits f a.before ∧ a.Succeeds floats limit floatTexts ∧
      Succession (a.ran floats limit floatTexts).world rest

/-- The backups that are there already, the oldest first: which of the files they are is given by
their names, since no more is to be seen of who has made a file. -/
def earlier (isBackup : Text → Bool) (f : Files) : List Text :=
  ((f.backups.filter fun b => isBackup b.name).mergeSort isOlder).map Backup.name

/-- **What the retention of backups is for**: of the backups that were there already and those that
were made since there are at most five, the most recent ones, and no other file is gone. -/
structure Retained (isBackup : Text → Bool) (f : Files) (made : List Text) (f' : Files) : Prop where
  atMost : ((names f').filter fun name => decide (name ∈ earlier isBackup f ++ made)).length ≤ 5
  recent : ((names f').filter fun name => decide (name ∈ earlier isBackup f ++ made)).Perm
    ((earlier isBackup f ++ made).rtake 5)
  kept : ∀ name ∈ names f, isBackup name = false → name ∈ names f'

/-- The backups of a kind are those of their names, in some order. -/
theorem earlier_perm (isBackup : Text → Bool) (f : Files) :
    (earlier isBackup f).Perm ((names f).filter isBackup) := by
  rw [names, List.filter_map]
  exact (List.mergeSort_perm _ _).map Backup.name

/-- An earlier backup is a file whose name is one of a backup. -/
theorem mem_earlier {isBackup : Text → Bool} {f : Files} {name : Text} :
    name ∈ earlier isBackup f ↔ name ∈ names f ∧ isBackup name = true :=
  (earlier_perm isBackup f).mem_iff.trans List.mem_filter

/-- New backups are there, and all that was there before. -/
structure Grown (f : Files) (made : List Text) (f' : Files) : Prop where
  names : names f' = names f ++ made
  nodup : made.Nodup
  free : ∀ name ∈ made, name ∉ ConfigApply.names f

/-- Where nothing is removed, the directory holds all the backups that it ever held. -/
theorem Grown.held_perm {f f' : Files} {made : List Text} (h : Grown f made f') (isBackup : Text → Bool) :
    ((ConfigApply.names f').filter fun name => decide (name ∈ earlier isBackup f ++ made)).Perm
      (earlier isBackup f ++ made) := by
  have hold : ((ConfigApply.names f).filter fun name => decide (name ∈ earlier isBackup f ++ made)) =
      (ConfigApply.names f).filter isBackup := by
    refine List.filter_congr fun name hname => ?_
    rw [Bool.eq_iff_iff, decide_eq_true_iff, List.mem_append, mem_earlier]
    constructor
    · rintro (⟨-, hbackup⟩ | hmade)
      · exact hbackup
      · exact absurd hname (h.free name hmade)
    · exact fun hbackup => Or.inl ⟨hname, hbackup⟩
  have hnew : (made.filter fun name => decide (name ∈ earlier isBackup f ++ made)) = made :=
    List.filter_eq_self.2 fun name hname => decide_eq_true (List.mem_append_right _ hname)
  rw [h.names, List.filter_append, hold, hnew]
  exact (earlier_perm isBackup f).symm.append_right made

/-- Where nothing is removed, what is retained is a matter of how much there was and was made. -/
theorem Grown.retains_iff {f f' : Files} {made : List Text} (h : Grown f made f') (isBackup : Text → Bool) :
    Retained isBackup f made f' ↔ (earlier isBackup f).length + made.length ≤ 5 := by
  rw [← List.length_append, ← (h.held_perm isBackup).length_eq]
  constructor
  · exact fun hretained => hretained.atMost
  · intro hlength
    refine ⟨hlength, ?_, fun name hname _ => ?_⟩
    · rw [(h.held_perm isBackup).length_eq] at hlength
      rw [List.rtake, Nat.sub_eq_zero_of_le hlength, List.drop_zero]
      exact h.held_perm isBackup
    · rw [h.names]
      exact List.mem_append_left _ hname

/-- What an application leaves of the backups, from a directory without any that is matched. -/
theorem Application.backsUp {a : Application} (h : a.Succeeds floats limit floatTexts)
    (ha : Unmatched a.before) :
    BacksUp a.before.config a.before (a.ran floats limit floatTexts).world
      (a.made floats limit floatTexts) := by
  obtain ⟨warnings, hok⟩ := h
  exact records_configGateOne floats limit floatTexts a.selection a.apiKey ha _ _ _
    ⟨a.raises, 0, rfl⟩ warnings hok

/-- The files as the last of some applications leaves them. -/
def leaves (f : Files) : List Application → Files
  | [] => f
  | a :: rest => leaves (a.ran floats limit floatTexts).world rest

theorem leaves_concat (f : Files) (first : List Application) (a : Application) :
    leaves floats limit floatTexts f (first ++ [a]) = (a.ran floats limit floatTexts).world := by
  induction first generalizing f with
  | nil => rfl
  | cons b first ih => exact ih _

/-- A sequence of applications begins with a sequence of applications. -/
theorem Succession.of_append {f : Files} {first rest : List Application}
    (h : Succession floats limit floatTexts f (first ++ rest)) :
    Succession floats limit floatTexts f first := by
  induction first generalizing f with
  | nil => trivial
  | cons a first ih => exact ⟨h.1, h.2.1, ih h.2.2⟩

/-- **Backups only grow in number**, by one with each application that finds a configuration. -/
theorem Succession.grown {f : Files} {apps : List Application}
    (h : Succession floats limit floatTexts f apps) (hf : Unmatched f) :
    Grown f (apps.flatMap (Application.made floats limit floatTexts))
        (leaves floats limit floatTexts f apps) ∧
      (apps.flatMap (Application.made floats limit floatTexts)).length =
        apps.countP fun a => a.before.config.isSome := by
  induction apps generalizing f with
  | nil => exact ⟨⟨(List.append_nil _).symm, List.nodup_nil, List.forall_mem_nil _⟩, rfl⟩
  | cons a rest ih =>
    obtain ⟨hawaits, hsucceeds, hrest⟩ := h
    have hnames : names a.before = names f := names_eq_of_backups hawaits.backups
    have ha : Unmatched a.before := fun name hname => hf name (hnames ▸ hname)
    have hfirst := (a.backsUp floats limit floatTexts hsucceeds ha).of_names hnames rfl
    obtain ⟨hgrown, hlength⟩ := ih hrest (hfirst.unmatched hf)
    rw [List.flatMap_cons]
    refine ⟨⟨?_, ?_, ?_⟩, ?_⟩
    · rw [leaves, hgrown.names, hfirst.names, List.append_assoc]
    · -- what the first makes is there when the others begin
      refine List.nodup_append'.2 ⟨hfirst.nodup, hgrown.nodup, fun name hname hlater => ?_⟩
      refine hgrown.free name hlater ?_
      rw [hfirst.names]
      exact List.mem_append_right _ hname
    · intro name hname
      rcases List.mem_append.1 hname with hname | hname
      · exact (hfirst.free name hname).1
      · intro hmem
        refine hgrown.free name hname ?_
        rw [hfirst.names]
        exact List.mem_append_left _ hmem
    · rw [List.length_append, hfirst.count, hlength, List.countP_cons, Nat.add_comm]

theorem unmatched_of_names {f : Files} (hf : ∀ b ∈ f.backups, .ch '\\' ∉ b.name) : Unmatched f := by
  intro name hname
  obtain ⟨b, hb, rfl⟩ := List.mem_map.1 hname
  rw [Bool.eq_false_iff]
  exact fun hmatch => hf b hb (backslash_of_isBackupName hmatch)

/-- **Backups are retained as they should be exactly as long as there are five**: in a directory
whose names have no backslashes, after each application of a sequence that succeeds, if and only if
the backups that are there already and the applications that find a configuration to back up are at
most five together. -/
theorem retained_iff (isBackup : Text → Bool) {f : Files} {apps : List Application}
    (hnames : ∀ b ∈ f.backups, .ch '\\' ∉ b.name) (h : Succession floats limit floatTexts f apps) :
    (∀ first a rest, apps = first ++ a :: rest →
      Retained isBackup f ((first ++ [a]).flatMap (Application.made floats limit floatTexts))
        (a.ran floats limit floatTexts).world) ↔
      (apps ≠ [] → (earlier isBackup f).length + (apps.countP fun a => a.before.config.isSome) ≤ 5) := by
  have hf := unmatched_of_names hnames
  constructor
  · intro hretained hne
    rcases List.eq_nil_or_concat apps with rfl | ⟨first, a, rfl⟩
    · exact absurd rfl hne
    · have hlast := hretained first a [] (List.concat_eq_append ..)
      rw [List.concat_eq_append] at h ⊢
      obtain ⟨hgrown, hlength⟩ := h.grown floats limit floatTexts hf
      rw [leaves_concat] at hgrown
      rw [← hlength]
      exact (hgrown.retains_iff isBackup).1 hlast
  · rintro hcount first a rest rfl
    have hall := hcount (List.append_ne_nil_of_right_ne_nil _ (List.cons_ne_nil _ _))
    rw [List.append_cons] at h hall
    obtain ⟨hgrown, hlength⟩ := h.of_append.grown floats limit floatTexts hf
    rw [leaves_concat] at hgrown
    refine (hgrown.retains_iff isBackup).2 ?_
    rw [hlength]
    rw [List.countP_append] at hall
    omega

end Sequences

/-- There is an empty document to be configured. -/
def unselected : Files := { unconfigured with config := some [0x7B, 0x7D] }

/-- The same deadline, again and again, with some time in between. -/
def repeated : ℕ → Files → List Application
  | 0, _ => []
  | n + 1, f =>
    let a : Application := ⟨f, some laterDeadline, false, fun _ _ => false⟩
    let left := (a.ran wholeFloats 100 fun _ => none).world
    a :: repeated n { left with clock := left.clock + 1 }

theorem succession_repeated (n : ℕ) (f f' : Files) (hf : Awaits f f')
    (h : (repeated n f').all fun a =>
      decide ((a.ran wholeFloats 100 fun _ => none).result = .ok (.ok []))) :
    Succession wholeFloats 100 (fun _ => none) f (repeated n f') := by
  induction n generalizing f f' with
  | zero => trivial
  | succ n ih =>
    obtain ⟨hfirst, hrest⟩ := Bool.and_eq_true_iff.1 h
    exact ⟨hf, ⟨[], of_decide_eq_true hfirst⟩, ih _ _ ⟨rfl, Nat.le_succ _⟩ hrest⟩

/-- Beside the document there are three backups, the newest one first, and a note. -/
def alreadyBackedUp : Files := { unselected with clock := 20, backups := [⟨backupName 13, 13, true, []⟩,
  ⟨backupName 12, 12, true, []⟩, ⟨backupName 11, 11, true, []⟩, ⟨Text.ofString "notes.txt", 5, true, []⟩] }

/-- A file whose name is not the note's. -/
def notNote (name : Text) : Bool := name ≠ Text.ofString "notes.txt"

/-- Two applications leave their backups beside three that were there. -/
theorem retained_twice : Succession wholeFloats 100 (fun _ => none) alreadyBackedUp (repeated 2 alreadyBackedUp) ∧
    (earlier notNote alreadyBackedUp).length = 3 ∧
    ∀ first a rest, repeated 2 alreadyBackedUp = first ++ a :: rest →
      Retained notNote alreadyBackedUp ((first ++ [a]).flatMap (Application.made wholeFloats 100 fun _ => none))
        (a.ran wholeFloats 100 fun _ => none).world := by
  have hsuccession : Succession wholeFloats 100 (fun _ => none) alreadyBackedUp (repeated 2 alreadyBackedUp) :=
    succession_repeated 2 alreadyBackedUp alreadyBackedUp ⟨rfl, le_rfl⟩ (by decide +kernel)
  have hearlier : (earlier notNote alreadyBackedUp).length = 3 := by
    rw [(earlier_perm notNote alreadyBackedUp).length_eq]
    decide +kernel
  have hnames : ∀ b ∈ alreadyBackedUp.backups, .ch '\\' ∉ b.name := by decide +kernel
  refine ⟨hsuccession, hearlier, (retained_iff wholeFloats 100 (fun _ => none) notNote hnames hsuccession).2 fun _ => ?_⟩
  rw [hearlier]
  decide +kernel

/-- **Six applications leave six backups** in a directory in which there was nothing. -/
theorem not_retained : ∃ apps, Succession wholeFloats 100 (fun _ => none) unselected apps ∧
    ∀ isBackup, ¬∀ first a rest, apps = first ++ a :: rest →
      Retained isBackup unselected ((first ++ [a]).flatMap (Application.made wholeFloats 100 fun _ => none))
        (a.ran wholeFloats 100 fun _ => none).world := by
  refine ⟨repeated 6 unselected, succession_repeated 6 _ _ ⟨rfl, le_rfl⟩ (by decide +kernel), fun isBackup h => ?_⟩
  have hatMost := (h _ _ [] (List.dropLast_append_getLast (List.cons_ne_nil _ (repeated 5 _))).symm).atMost
  have hearlier : earlier isBackup unselected = [] := List.perm_nil.1 (earlier_perm isBackup unselected)
  rw [hearlier, List.nil_append] at hatMost
  exact absurd hatMost (by decide +kernel)

end ConfigApply

end YasbLimitora

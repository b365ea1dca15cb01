import Mathlib
import YasbLimitora.ConfigLock.World
import YasbLimitora.Coordinator.Invariant

/-!
# What processes that lock the configuration rely on

The contract of `YasbLimitora.ConfigLock.lockers`. The invariant says that what stands in a
marker is a part of what its creator writes there. What a thread relies on is that the
others leave its handles alone and, while it lives, each file that it created and the mutex
that it owns.

That the file of a living owner is left alone is owed to the condition under which a file
is deleted: who deletes it created it, or its creator is dead. A thread knows the latter of
the file that it has open, from what it read there: an owner is read from a whole marker
only, the process table tells that it is gone, and the dead stay dead.

The rely of a thread is what it needs of the others and no more: they may create and delete files,
take and leave the mutex, be born and die. The guarantee of each operation is the same relation,
seen from the other side, so that the contract is one relation and its two uses. Deaths change the
table of processes in one direction only, by which what a thread has read of an owner that is gone
stays true.
-/

namespace YasbLimitora

namespace ConfigLock

variable {I P : Type} {fleet : Fleet I P}

def Live (fleet : Fleet I P) (i : I) (w : World I P) : Prop := w.phase (fleet.proc i) = .alive

/-- The text of the token of a process. -/
def tokenText (fleet : Fleet I P) (i : I) : Text := Text.ofString (fleet.token (fleet.proc i))

/-- What stands in a file is a part of the marker of its creator, or nothing. -/
def Written (fleet : Fleet I P) (file : LockFile I) : Prop :=
  file.content = [] ∨
    ∃ data, encodeMarker (fleet.pid (fleet.proc file.creator)) (tokenText fleet file.creator) = some data ∧
      file.content <+: data

/-- The invariant of the world. -/
structure WorldInv (fleet : Fleet I P) (w : World I P) : Prop where
  born : ∀ f file, w.files f = some file → w.phase (fleet.proc file.creator) ≠ .unborn
  written : ∀ f file, w.files f = some file → Written fleet file

/-- The creator of a file is dead. -/
def Orphan (fleet : Fleet I P) (f : ℕ) (w : World I P) : Prop :=
  ∃ file, w.files f = some file ∧ w.phase (fleet.proc file.creator) = .dead

/-- The changes thread `i` allows the others to make. -/
structure Rely (fleet : Fleet I P) (i : I) (w w' : World I P) : Prop where
  ages : ∀ p, (w.phase p).Ages (w'.phase p)
  handles : Live fleet i w → Live fleet i w' → w'.handles i = w.handles i
  mutex : ∀ n, w.mutex = some (i, n) → Live fleet i w → Live fleet i w' → w'.mutex = some (i, n)
  creators : ∀ f file, w.files f = some file →
    ∃ file', w'.files f = some file' ∧ file'.creator = file.creator
  own : ∀ f file, w.files f = some file → file.creator = i → Live fleet i w → Live fleet i w' →
    w'.files f = some file
  leaf : ∀ f file, w.leaf = some f → w.files f = some file → file.creator = i → file.deleted = false →
    Live fleet i w → Live fleet i w' → w'.leaf = some f

namespace Rely

variable {i : I} {w w' w'' : World I P}

/-- The files, and all that is promised of them, are as they were. -/
theorem of_same (hphase : w'.phase = w.phase) (hhandles : w'.handles i = w.handles i)
    (hmutex : ∀ n, w.mutex = some (i, n) → w'.mutex = some (i, n)) (hfiles : w'.files = w.files)
    (hleaf : w'.leaf = w.leaf) : Rely fleet i w w' where
  ages p := by rw [hphase]; exact .same _
  handles _ _ := hhandles
  mutex n h _ _ := hmutex n h
  creators f file h := ⟨file, by rw [hfiles]; exact h, rfl⟩
  own f file h _ _ _ := by rw [hfiles]; exact h
  leaf f file h _ _ _ _ _ := by rw [hleaf]; exact h

theorem refl (i : I) (w : World I P) : Rely fleet i w w :=
  .of_same rfl rfl (fun _ h => h) rfl rfl

theorem trans (h : Rely fleet i w w') (h' : Rely fleet i w' w'') : Rely fleet i w w'' where
  ages p := (h.ages p).trans (h'.ages p)
  handles hlive hlive'' := by
    have hlive' := (h.ages _).between (h'.ages _) hlive hlive''
    exact (h'.handles hlive' hlive'').trans (h.handles hlive hlive')
  mutex n hn hlive hlive'' := by
    have hlive' := (h.ages _).between (h'.ages _) hlive hlive''
    exact h'.mutex n (h.mutex n hn hlive hlive') hlive' hlive''
  creators f file hf := by
    obtain ⟨file', hf', hc⟩ := h.creators f file hf
    obtain ⟨file'', hf'', hc'⟩ := h'.creators f file' hf'
    exact ⟨file'', hf'', hc'.trans hc⟩
  own f file hf hc hlive hlive'' := by
    have hlive' := (h.ages _).between (h'.ages _) hlive hlive''
    exact h'.own f file (h.own f file hf hc hlive hlive') hc hlive' hlive''
  leaf f file hleaf hf hc hd hlive hlive'' := by
    have hlive' := (h.ages _).between (h'.ages _) hlive hlive''
    exact h'.leaf f file (h.leaf f file hleaf hf hc hd hlive hlive')
      (h.own f file hf hc hlive hlive') hc hd hlive' hlive''

/-- **What has no owner** gets none. -/
theorem orphan (h : Rely fleet i w w') {f : ℕ} (ho : Orphan fleet f w) : Orphan fleet f w' := by
  obtain ⟨file, hf, hdead⟩ := ho
  obtain ⟨file', hf', hc⟩ := h.creators f file hf
  exact ⟨file', hf', hc ▸ (h.ages _).dead hdead⟩

end Rely

variable [DecidableEq I]

/-- The condition under which a thread performs an operation. It writes to a file of its own
what makes a marker of it, it deletes a file that is its own or that has no owner, and
it performs the body with the lease. -/
def Condition (fleet : Fleet I P) (i : I) : Op → World I P → Prop
  | .writeFile handle data, w => ∀ f file, w.Opens i handle f file → file.creator = i ∧
      encodeMarker (fleet.pid (fleet.proc i)) (tokenText fleet i) = some (file.content ++ data)
  | .setDisposition handle, w => ∀ f file, w.Opens i handle f file →
      file.creator = i ∨ w.phase (fleet.proc file.creator) = .dead
  | .body .guard, w => ∃ n, w.mutex = some (i, n)
  | .body .marker, w => ∃ f file, w.leaf = some f ∧ w.files f = some file ∧ file.creator = i ∧
      file.deleted = false
  | _, _ => True

namespace WorldInv

variable {w w' : World I P}

omit [DecidableEq I] in
/-- What passes keeps the invariant and what threads rely on. -/
theorem of_passes (h : WorldInv fleet w) (hp : Passes fleet w w') :
    WorldInv fleet w' ∧ ∀ i, Rely fleet i w w' := by
  obtain ⟨hages, hfiles, hhandles, hmutex, hleaf⟩ := hp
  refine ⟨⟨fun f file hf => ?_, fun f file hf => ?_⟩, fun i => ⟨hages, fun _ hlive => ?_,
    fun n hn _ hlive => ?_, fun f file hf => ⟨file, by rw [hfiles]; exact hf, rfl⟩,
    fun f file hf _ _ _ => by rw [hfiles]; exact hf, fun f file hf hfile _ hd _ _ => ?_⟩⟩
  · rw [hfiles] at hf
    exact (hages _).ne_unborn (h.born f file hf)
  · rw [hfiles] at hf
    exact h.written f file hf
  · funext handle
    rcases hhandles i handle with heq | ⟨-, hdead⟩
    · exact heq
    · exact absurd (hlive.symm.trans hdead) (by simp)
  · rcases hmutex with heq | ⟨-, j, m, hj, hdead⟩
    · rw [heq, hn]
    · obtain ⟨rfl, -⟩ := Prod.mk.inj (Option.some.inj (hn.symm.trans hj))
      exact absurd (hlive.symm.trans hdead) (by simp)
  · rcases hleaf with heq | ⟨-, f', file', hf', hfile', hd', -⟩
    · rw [heq, hf]
    · obtain rfl := Option.some.inj (hf.symm.trans hf')
      obtain rfl := Option.some.inj (hfile.symm.trans hfile')
      exact absurd (hd.symm.trans hd') (by simp)

end WorldInv

/-- The contract of the processes that lock the configuration. -/
def contract (fleet : Fleet I P) : Contract (lockers fleet) where
  rely := Rely fleet
  inv := WorldInv fleet
  pre := Condition fleet
  rely_refl := .refl
  rely_trans _ _ _ _ := .trans
  env_sound _ _ henv hinv := hinv.of_passes henv

/-! ### What the operations keep -/

section Keeps

variable {i : I} {w : World I P}

theorem setHandle_of_ne {j : I} (hj : j ≠ i) (handle : ℕ) (t : Option Target) :
    (w.setHandle i handle t).handles j = w.handles j := Function.update_of_ne hj _ _

theorem setHandle_self (handle : ℕ) (t : Option Target) :
    (w.setHandle i handle t).handles i handle = t := by
  unfold World.setHandle
  dsimp only
  rw [Function.update_self, Function.update_self]

theorem setHandle_other {handle handle' : ℕ} (h : handle' ≠ handle) (t : Option Target) :
    (w.setHandle i handle t).handles i handle' = w.handles i handle' := by
  unfold World.setHandle
  dsimp only
  rw [Function.update_self, Function.update_of_ne h]

theorem keeps_refl (hinv : WorldInv fleet w) (hlive : Live fleet i w) :
    (contract fleet).Keeps i w w := ⟨hinv, hlive, fun j _ => Rely.refl j w⟩

/-- Handles of one's own are opened and closed. -/
theorem keeps_setHandle (hinv : WorldInv fleet w) (hlive : Live fleet i w) (handle : ℕ)
    (t : Option Target) : (contract fleet).Keeps i w (w.setHandle i handle t) :=
  ⟨⟨hinv.born, hinv.written⟩, hlive, fun _ hj =>
    .of_same rfl (setHandle_of_ne hj handle t) (fun _ h => h) rfl rfl⟩

/-- The mutex is taken, or given up, by who owns it if anyone does. -/
theorem keeps_mutex (hinv : WorldInv fleet w) (hlive : Live fleet i w)
    (hown : ∀ j n, w.mutex = some (j, n) → j = i) (mutex : Option (I × ℕ)) :
    (contract fleet).Keeps i w { w with mutex } :=
  ⟨⟨hinv.born, hinv.written⟩, hlive, fun _ hj =>
    .of_same rfl rfl (fun n hn => absurd (hown _ n hn) hj) rfl rfl⟩

/-- A file is changed that is one's own, or that has no owner. -/
theorem keeps_setFile (hinv : WorldInv fleet w) (hlive : Live fleet i w) {f : ℕ} {file file' : LockFile I}
    (hf : w.files f = some file) (hc : file'.creator = file.creator)
    (hown : file.creator = i ∨ w.phase (fleet.proc file.creator) = .dead) (hwritten : Written fleet file') :
    (contract fleet).Keeps i w (w.setFile f file') := by
  have hfiles : ∀ g, g ≠ f → (w.setFile f file').files g = w.files g := fun g hg =>
    Function.update_of_ne hg _ _
  have hself : (w.setFile f file').files f = some file' := Function.update_self _ _ _
  -- who lives and is another has not created the file
  have hothers : ∀ j, j ≠ i → Live fleet j w → ∀ file'', w.files f = some file'' → file''.creator ≠ j := by
    rintro j hj hjlive file'' hf'' rfl
    obtain rfl := Option.some.inj (hf.symm.trans hf'')
    rcases hown with rfl | hdead
    · exact hj rfl
    · exact absurd (hjlive.symm.trans hdead) (by simp)
  refine ⟨⟨fun g gfile hg => ?_, fun g gfile hg => ?_⟩, hlive, fun j hj => ⟨fun _ => .same _,
    fun _ _ => rfl, fun _ h _ _ => h, fun g gfile hg => ?_, fun g gfile hg hgc hjlive _ => ?_,
    fun g gfile hleaf _ _ _ _ _ => hleaf⟩⟩
  · by_cases hgf : g = f
    · subst hgf
      obtain rfl := Option.some.inj (hself.symm.trans hg)
      rw [hc]
      exact hinv.born g file hf
    · exact hinv.born g gfile ((hfiles g hgf).symm.trans hg)
  · by_cases hgf : g = f
    · subst hgf
      obtain rfl := Option.some.inj (hself.symm.trans hg)
      exact hwritten
    · exact hinv.written g gfile ((hfiles g hgf).symm.trans hg)
  · by_cases hgf : g = f
    · subst hgf
      obtain rfl := Option.some.inj (hf.symm.trans hg)
      exact ⟨file', hself, hc⟩
    · exact ⟨gfile, (hfiles g hgf).trans hg, rfl⟩
  · by_cases hgf : g = f
    · subst hgf
      exact absurd hgc (hothers j hj hjlive gfile hg)
    · exact (hfiles g hgf).trans hg

/-- A file is created where there was none. -/
theorem keeps_create (hinv : WorldInv fleet w) (hlive : Live fleet i w) {f : ℕ} (hnone : w.files f = none)
    (hleaf : w.leaf = none) (identity : Identity) (handle : ℕ) :
    (contract fleet).Keeps i w { (w.setFile f ⟨i, identity, [], false⟩).setHandle i handle (some (.file f))
      with leaf := some f } := by
  have hfiles : ∀ g, g ≠ f → (w.setFile f ⟨i, identity, [], false⟩).files g = w.files g := fun g hg =>
    Function.update_of_ne hg _ _
  have hself : (w.setFile f ⟨i, identity, [], false⟩).files f = some ⟨i, identity, [], false⟩ :=
    Function.update_self _ _ _
  have hne : ∀ g gfile, w.files g = some gfile → g ≠ f := by
    rintro g gfile hg rfl
    exact nomatch hnone.symm.trans hg
  refine ⟨⟨fun g gfile hg => ?_, fun g gfile hg => ?_⟩, hlive, fun j hj => ⟨fun _ => .same _,
    fun _ _ => setHandle_of_ne hj handle _, fun _ h _ _ => h,
    fun g gfile hg => ⟨gfile, (hfiles g (hne g gfile hg)).trans hg, rfl⟩,
    fun g gfile hg _ _ _ => (hfiles g (hne g gfile hg)).trans hg,
    fun g gfile hg _ _ _ _ _ => nomatch hleaf.symm.trans hg⟩⟩
  · by_cases hgf : g = f
    · subst hgf
      obtain rfl := Option.some.inj (hself.symm.trans hg)
      exact fun h => absurd (hlive.symm.trans h) (by simp)
    · exact hinv.born g gfile ((hfiles g hgf).symm.trans hg)
  · by_cases hgf : g = f
    · subst hgf
      obtain rfl := Option.some.inj (hself.symm.trans hg)
      exact Or.inl rfl
    · exact hinv.written g gfile ((hfiles g hgf).symm.trans hg)

end Keeps

end ConfigLock

end YasbLimitora

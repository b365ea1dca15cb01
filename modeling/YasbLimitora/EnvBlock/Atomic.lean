import Mathlib
import YasbLimitora.EnvBlock.Apply

/-!
# When applying the managed block is all or nothing

A refusal for any reason but `env-rollback-failed` is to leave `.env` and the home directory as
they were. Of a disk it is said how far the replacement comes, and whether the rollback raises;
with that, `YasbLimitora.EnvBlock.Harmless` is what keeps the promise
(`YasbLimitora.EnvBlock.apply_atomic_iff`). A home directory that was made is left behind by
refusals that come before the rollback can, or that leave the temporary file in it.

Of the file system the disk here says for each operation whether it succeeds, and what it leaves if
it does not, so that a replacement that stops half way is one of finitely many ways to stop. For
every part of the program there is one theorem on how it ends, and these are put together in the
order of the source. The promise is about two things, the file and its directory; the first is kept
by the rollback unless that raises, while the second depends on where the refusal comes from.
-/

namespace YasbLimitora

namespace EnvBlock

open Faults

/-! ### What a disk does -/

namespace Disk

variable (d : Disk)

/-- An operation succeeds. -/
def ok (o : Op) : Bool := !d.fails o

def okAll (checks : List Op) : Bool := checks.all d.ok

/-- How far a replacement comes. -/
inductive Reached
  | nothing
  | temporary
  | replaced
deriving DecidableEq

/-- What is between the temporary file and the new one. -/
def moves (replacement : Bytes) : Bool :=
  d.ok (.safe .temporary 1) && d.ok (.writeTemporary replacement) &&
    d.okAll [.safe .home 4, .safe .target 2, .safe .state 3] && d.ok .replaceTarget

def reached (replacement : Bytes) : Reached :=
  if d.ok .makeTemporary then if d.moves replacement then .replaced else .temporary else .nothing

/-- The replacement is done and verified. -/
def succeeds (replacement : Bytes) : Bool :=
  d.reached replacement = .replaced && d.ok .readReplaced && d.reads replacement == replacement

/-- The old file is emptied to be written again. -/
def truncates : Bool :=
  d.ok .readBackup && d.ok .openTarget && d.ok .openedAt && d.ok .truncateTarget

/-- The old content is written, and verified. -/
def rewrites (raw : Bytes) : Bool :=
  d.truncates && d.ok (.writeTarget raw) && d.ok .syncTarget && d.ok .closeTarget && d.ok .readRestored &&
    raw.take d.accepts == raw

/-- What is in the old file after that, of what was in it. -/
def rewritten (raw content : Bytes) : Bytes :=
  if d.truncates then if d.ok (.writeTarget raw) then raw.take d.accepts else [] else content

/-- The old content is put back. -/
def restores (raw : Bytes) : Bool := d.okAll [.safe .home 5, .safe .state 4, .safe .backup 1] && d.rewrites raw

/-- What is in the old file after the rollback, of what was in it. -/
def leftover (raw content : Bytes) : Bytes :=
  if d.okAll [.safe .home 5, .safe .state 4, .safe .backup 1] then d.rewritten raw content else content

/-- The rollback of a new file does not raise. It depends on whether the home directory was made,
on whether there is a file, and on whether anything else is in the home directory. -/
def undoes (created present busy : Bool) : Bool :=
  d.okAll [.safe .home 5, .safe .state 4] && d.ok .targetLeft &&
    (!present || !d.ok (.safe .target 3) || d.ok .unlinkTarget) &&
    (!created || !d.ok (.safe .home 6) ||
      (d.ok .listHome && (present && !d.ok (.safe .target 3) || busy || d.ok .removeHome)))

end Disk

/-! ### How a part of the program ends -/

/-- What a part of the program comes to on a disk. -/
def Ends {α : Type} (d : Disk) (t : Applying α) (w : World) (x : Except Exc α) (w' : World) : Prop :=
  alone (Op.perform d) d.fails t w = (x, w')

/-- An operation that only looks. -/
inductive Op.IsCheck : Op → Prop
  | safe (place : Place) (nth : ℕ) : Op.IsCheck (.safe place nth)
  | isFile : Op.IsCheck .isFile
  | openedAt : Op.IsCheck .openedAt

namespace Ends

variable {α β : Type} {d : Disk} {w w' : World}

theorem pure {a : α} {x : Except Exc α} (h : Ends d (Pure.pure a : Applying α) w x w') :
    x = .ok a ∧ w' = w := by
  obtain ⟨rfl, rfl⟩ := Prod.mk.inj h
  exact ⟨rfl, rfl⟩

theorem throw {e : Exc} {x : Except Exc α} (h : Ends d (MonadExcept.throw e : Applying α) w x w') :
    x = .error e ∧ w' = w := by
  obtain ⟨rfl, rfl⟩ := Prod.mk.inj h
  exact ⟨rfl, rfl⟩

theorem bind {t : Applying α} {f : α → Applying β} {x : Except Exc β} (h : Ends d (t >>= f) w x w') :
    (∃ e, x = .error e ∧ Ends d t w (.error e) w') ∨
      ∃ a w₁, Ends d t w (.ok a) w₁ ∧ Ends d (f a) w₁ x w' :=
  alone_bind_cases h

theorem outcome {t : Applying α} {x : Except Exc (Except Exc α)} (h : Ends d t.outcome w x w') :
    ∃ y, x = .ok y ∧ Ends d t w y w' :=
  alone_outcome_cases h

theorem call {o : Op} {x : Except Exc o.Value} (h : Ends d (EnvBlock.call o) w x w') :
    (d.ok o = false ∧ x = .error .os ∧ w' = w) ∨
      (d.ok o = true ∧ x = .ok (o.perform d w).1 ∧ w' = (o.perform d w).2) := by
  rw [Disk.ok, Bool.not_eq_false', Bool.not_eq_true']
  exact alone_call_cases h

theorem check {o : Op} (ho : o.IsCheck) {x : Except Exc Bool} (h : Ends d (EnvBlock.check o) w x w') :
    x = .ok (d.ok o) ∧ w' = w := by
  rw [Ends, EnvBlock.check, alone_perform, answer] at h
  rw [Disk.ok]
  rcases hfails : d.fails o
  · rw [hfails] at h
    obtain ⟨rfl, rfl⟩ := Prod.mk.inj h
    rcases ho
    all_goals exact ⟨rfl, rfl⟩
  · rw [hfails] at h
    obtain ⟨rfl, rfl⟩ := Prod.mk.inj h
    exact ⟨rfl, rfl⟩

theorem checkAll {l : List Op} (hl : ∀ o ∈ l, o.IsCheck) {x : Except Exc Bool}
    (h : Ends d (EnvBlock.checkAll l) w x w') : x = .ok (d.okAll l) ∧ w' = w := by
  induction l with
  | nil => exact h.pure
  | cons o l ih =>
    obtain ⟨ho, hl⟩ := List.forall_mem_cons.1 hl
    rw [Disk.okAll, List.all_cons]
    rcases h.bind with ⟨e, rfl, hfirst⟩ | ⟨a, w₁, hfirst, hrest⟩
    · cases (hfirst.check ho).1
    · obtain ⟨ha, rfl⟩ := hfirst.check ho
      obtain rfl := Except.ok.inj ha
      by_cases hok : d.ok o = true
      · rw [if_pos hok] at hrest
        rw [hok, Bool.true_and]
        exact ih hl hrest
      · rw [if_neg hok] at hrest
        rw [Bool.not_eq_true] at hok
        rw [hok, Bool.false_and]
        exact hrest.pure

theorem require {l : List Op} (hl : ∀ o ∈ l, o.IsCheck) {x : Except Exc Unit}
    (h : Ends d (EnvBlock.require l) w x w') :
    w' = w ∧ (d.okAll l = false ∧ x = .error .os ∨ d.okAll l = true ∧ x = .ok ()) := by
  rcases h.bind with ⟨e, rfl, hfirst⟩ | ⟨a, w₁, hfirst, hrest⟩
  · cases (hfirst.checkAll hl).1
  · obtain ⟨ha, rfl⟩ := hfirst.checkAll hl
    obtain rfl := Except.ok.inj ha
    by_cases hok : d.okAll l = true
    · rw [if_pos hok] at hrest
      obtain ⟨rfl, rfl⟩ := hrest.pure
      exact ⟨rfl, Or.inr ⟨hok, rfl⟩⟩
    · rw [if_neg hok] at hrest
      obtain ⟨rfl, rfl⟩ := hrest.throw
      exact ⟨rfl, Or.inl ⟨Bool.not_eq_true _ ▸ hok, rfl⟩⟩

/-- An operation fails, or the program goes on after it. -/
theorem call_bind {o : Op} {f : o.Value → Applying β} {x : Except Exc β}
    (h : Ends d (EnvBlock.call o >>= f) w x w') :
    (d.ok o = false ∧ x = .error .os ∧ w' = w) ∨
      (d.ok o = true ∧ Ends d (f (o.perform d w).1) (o.perform d w).2 x w') := by
  rcases h.bind with ⟨e, rfl, hcall⟩ | ⟨a, w₁, hcall, hrest⟩
  · rcases hcall.call with ⟨hfails, he, rfl⟩ | ⟨-, ha, -⟩
    · exact Or.inl ⟨hfails, congrArg Except.error (Except.error.inj he), rfl⟩
    · cases ha
  · rcases hcall.call with ⟨-, ha, -⟩ | ⟨hok, ha, rfl⟩
    · cases ha
    · obtain rfl := Except.ok.inj ha
      exact Or.inr ⟨hok, hrest⟩

/-- The program goes on after a check, with its answer. -/
theorem check_bind {o : Op} (ho : o.IsCheck) {f : Bool → Applying β} {x : Except Exc β}
    (h : Ends d (EnvBlock.check o >>= f) w x w') : Ends d (f (d.ok o)) w x w' := by
  rcases h.bind with ⟨e, rfl, hcheck⟩ | ⟨a, w₁, hcheck, hrest⟩
  · cases (hcheck.check ho).1
  · obtain ⟨ha, rfl⟩ := hcheck.check ho
    obtain rfl := Except.ok.inj ha
    exact hrest

/-- A check that is required fails, or the program goes on after all of them. -/
theorem require_bind {l : List Op} (hl : ∀ o ∈ l, o.IsCheck) {f : Unit → Applying β} {x : Except Exc β}
    (h : Ends d (EnvBlock.require l >>= f) w x w') :
    (d.okAll l = false ∧ x = .error .os ∧ w' = w) ∨ (d.okAll l = true ∧ Ends d (f ()) w x w') := by
  rcases h.bind with ⟨e, rfl, hrequire⟩ | ⟨a, w₁, hrequire, hrest⟩
  · obtain ⟨rfl, ⟨hfails, he⟩ | ⟨-, he⟩⟩ := hrequire.require hl
    · exact Or.inl ⟨hfails, congrArg Except.error (Except.error.inj he), rfl⟩
    · cases he
  · obtain ⟨rfl, ⟨-, ha⟩ | ⟨hok, -⟩⟩ := hrequire.require hl
    · cases ha
    · exact Or.inr ⟨hok, hrest⟩

/-- How a part ends is seen by what comes after it. -/
theorem outcome_bind {t : Applying α} {f : Except Exc α → Applying β} {x : Except Exc β}
    (h : Ends d (t.outcome >>= f) w x w') : ∃ y w₁, Ends d t w y w₁ ∧ Ends d (f y) w₁ x w' := by
  rcases h.bind with ⟨e, rfl, hinner⟩ | ⟨a, w₁, hinner, hrest⟩
  · obtain ⟨y, hy, -⟩ := hinner.outcome
    cases hy
  · obtain ⟨y, hy, hpart⟩ := hinner.outcome
    obtain rfl := Except.ok.inj hy
    exact ⟨_, _, hpart, hrest⟩

/-- An operation inside a `try` raises or returns, and the program goes on. -/
theorem tried_bind {o : Op} {f : Answer o.Value → Applying β} {x : Except Exc β}
    (h : Ends d (Transaction.tried o >>= f) w x w') :
    Ends d (f .raised) w x w' ∨ Ends d (f (.returned (o.perform d w).1)) (o.perform d w).2 x w' := by
  rw [Ends, alone_bind, Transaction.tried, alone_perform, answer] at h
  rcases hfails : d.fails o
  · rw [hfails] at h
    exact Or.inr h
  · rw [hfails] at h
    exact Or.inl h

end Ends

/-! ### The replacement -/

section Replace

variable {d : Disk} {replacement : Bytes} {w w' : World} {home : Home} {x : Except Exc Unit}

/-- What a replacement leaves, if it comes so far. -/
structure Replaced (d : Disk) (replacement : Bytes) (home : Home) (w : World) (x : Except Exc Unit)
    (w' : World) : Prop where
  ok : x = .ok () ↔ d.succeeds replacement = true
  backup : w'.backup = w.backup
  home : ∃ home', w'.home = some home' ∧ home'.others = home.others ∧
    home'.env = (if d.reached replacement = .replaced then some replacement else home.env) ∧
    (home'.temporary.isSome = true ↔ d.reached replacement = .temporary)

/-- What comes before the old file is replaced leaves it alone. -/
theorem replaced_of_not (hnot : d.reached replacement ≠ .replaced) {home' : Home} (hw' : w'.home = some home')
    (hbackup : w'.backup = w.backup) (hothers : home'.others = home.others) (henv : home'.env = home.env)
    (htemporary : home'.temporary.isSome = true ↔ d.reached replacement = .temporary) (e : Exc) :
    Replaced d replacement home w (.error e) w' := by
  refine ⟨iff_of_false nofun ?_, hbackup, home', hw', hothers, by rw [if_neg hnot, henv], htemporary⟩
  rw [Disk.succeeds, decide_eq_false hnot]
  exact Bool.false_ne_true

/-- What is done to a home directory that there is. -/
theorem home_modify (f : Home → Home) (hw : w.home = some home) : (w.modify f).home = some (f home) := by
  show w.home.map f = _
  rw [hw]
  rfl

/-- With a temporary file, all depends on what is between that and the new one. -/
theorem reached_of_made (hmade : d.ok .makeTemporary = true) :
    d.reached replacement = if d.moves replacement then .replaced else .temporary := by
  rw [Disk.reached, hmade]
  rfl

/-- Until the file is replaced there is a temporary one. -/
theorem replaced_of_temporary (hmade : d.ok .makeTemporary = true) (hmoves : d.moves replacement = false)
    {content : Bytes} (hw' : w'.home = some ⟨home.env, some content, home.others⟩) (hbackup : w'.backup = w.backup) :
    Replaced d replacement home w (.error .os) w' := by
  have hreached : d.reached replacement = .temporary := by
    rw [reached_of_made hmade, hmoves]
    rfl
  have hothers : (Home.mk home.env (some content) home.others).others = home.others := rfl
  have henv : (Home.mk home.env (some content) home.others).env = home.env := rfl
  exact replaced_of_not (by rw [hreached]; decide) hw' hbackup hothers henv (by simp [hreached]) _

/-- Once the file is replaced, only what is read of it matters. -/
theorem ends_verify {v : World} (hreached : d.reached replacement = .replaced)
    (hv : v.home = some ⟨some replacement, none, home.others⟩) (hbackup : v.backup = w.backup)
    (h : Ends d (do
      let read : Bytes ← call .readReplaced
      if read = replacement then return () else throw .runtime) v x w') :
    Replaced d replacement home w x w' := by
  have hdone : ∀ {y : Except Exc Unit}, (y = .ok () ↔ d.succeeds replacement = true) →
      Replaced d replacement home w y v := by
    intro y hy
    exact ⟨hy, hbackup, _, hv, rfl, by rw [if_pos hreached], by simp [hreached]⟩
  rcases h.call_bind (o := .readReplaced) with ⟨hfails, rfl, rfl⟩ | ⟨hread, h⟩
  · refine hdone (iff_of_false nofun ?_)
    rw [Disk.succeeds, hfails, Bool.and_false, Bool.false_and]
    exact Bool.false_ne_true
  have henv : (Op.readReplaced.perform d v).1 = d.reads replacement := by
    show d.reads ((v.home.bind Home.env).getD []) = _
    rw [hv]
    rfl
  rw [henv] at h
  by_cases heq : d.reads replacement = replacement
  · rw [if_pos heq] at h
    obtain ⟨rfl, rfl⟩ := h.pure
    refine hdone (iff_of_true rfl ?_)
    rw [Disk.succeeds, hreached, hread, heq]
    simp
  · rw [if_neg heq] at h
    obtain ⟨rfl, rfl⟩ := h.throw
    refine hdone (iff_of_false nofun ?_)
    rw [Disk.succeeds, beq_eq_false_iff_ne.2 heq, Bool.and_false]
    exact Bool.false_ne_true

/-- **A replacement** leaves what its disk lets it come to. -/
theorem ends_replace (hw : w.home = some home) (htemporary : home.temporary = none)
    (h : Ends d (replace replacement) w x w') : Replaced d replacement home w x w' := by
  have hfinal : ∀ o ∈ [Op.safe .home 4, .safe .target 2, .safe .state 3], o.IsCheck := by
    simp only [List.forall_mem_cons]
    exact ⟨.safe _ _, .safe _ _, .safe _ _, List.forall_mem_nil _⟩
  rcases h.call_bind (o := .makeTemporary) with ⟨hfails, rfl, rfl⟩ | ⟨hmade, h⟩
  · have hreached : d.reached replacement = .nothing := by
      rw [Disk.reached, hfails]
      rfl
    exact replaced_of_not (by rw [hreached]; decide) hw rfl rfl rfl (by simp [htemporary, hreached]) _
  have hempty : (Op.makeTemporary.perform d w).2.home = some ⟨home.env, some [], home.others⟩ :=
    home_modify (fun h => { h with temporary := some [] }) hw
  rcases h.require_bind (List.forall_mem_singleton.2 (.safe _ _)) with ⟨hfails, rfl, rfl⟩ | ⟨hfirst, h⟩
  · refine replaced_of_temporary hmade ?_ hempty rfl
    rw [Disk.okAll, List.all_cons, List.all_nil, Bool.and_true] at hfails
    rw [Disk.moves, hfails]
    rfl
  rw [Disk.okAll, List.all_cons, List.all_nil, Bool.and_true] at hfirst
  rcases h.call_bind (o := .writeTemporary replacement) with ⟨hfails, rfl, rfl⟩ | ⟨hwritten, h⟩
  · refine replaced_of_temporary hmade ?_ hempty rfl
    rw [Disk.moves, hfirst, hfails]
    rfl
  have hfull : ((Op.writeTemporary replacement).perform d (Op.makeTemporary.perform d w).2).2.home
      = some ⟨home.env, some replacement, home.others⟩ :=
    (home_modify (fun h => { h with temporary := some replacement }) hempty).trans rfl
  rcases h.require_bind hfinal with ⟨hfails, rfl, rfl⟩ | ⟨hlast, h⟩
  · refine replaced_of_temporary hmade ?_ hfull rfl
    rw [Disk.moves, hfirst, hwritten, hfails]
    rfl
  rcases h.call_bind (o := .replaceTarget) with ⟨hfails, rfl, rfl⟩ | ⟨hreplaced, h⟩
  · refine replaced_of_temporary hmade ?_ hfull rfl
    rw [Disk.moves, hfirst, hwritten, hlast, hfails]
    rfl
  -- nothing failed up to here: what is left is to verify the new file
  have hreached : d.reached replacement = .replaced := by
    rw [reached_of_made hmade, Disk.moves, hfirst, hwritten, hlast, hreplaced]
    rfl
  have hnew : (Op.replaceTarget.perform d
      ((Op.writeTemporary replacement).perform d (Op.makeTemporary.perform d w).2).2).2.home
        = some ⟨some replacement, none, home.others⟩ :=
    (home_modify (fun h => { h with env := h.temporary, temporary := none }) hfull).trans rfl
  exact ends_verify hreached hnew rfl h

end Replace

/-! ### The rollback of an old file -/

section Restore

variable {d : Disk} {raw content : Bytes} {w w' : World} {home : Home} {x : Except Exc Unit}

/-- Writing over the old file: up to the emptying it is as it was, and from then on it has what was
written. -/
theorem ends_overwrite (hw : w.home = some home) (h : Ends d (overwrite raw) w x w') :
    (x = .ok () ↔ (d.ok .openedAt && d.ok .truncateTarget && d.ok (.writeTarget raw) && d.ok .syncTarget) = true) ∧
      w'.backup = w.backup ∧
      w'.home = some (if d.ok .openedAt && d.ok .truncateTarget then
        { home with env := some (if d.ok (.writeTarget raw) then raw.take d.accepts else []) } else home) := by
  rcases h.require_bind (List.forall_mem_singleton.2 .openedAt) with ⟨hfails, rfl, rfl⟩ | ⟨hopened, h⟩
  · rw [Disk.okAll, List.all_cons, List.all_nil, Bool.and_true] at hfails
    rw [hfails]
    exact ⟨iff_of_false nofun Bool.false_ne_true, rfl, hw⟩
  rw [Disk.okAll, List.all_cons, List.all_nil, Bool.and_true] at hopened
  rcases h.call_bind (o := .truncateTarget) with ⟨hfails, rfl, rfl⟩ | ⟨htruncated, h⟩
  · rw [hopened, hfails]
    exact ⟨iff_of_false nofun Bool.false_ne_true, rfl, hw⟩
  have hempty : (Op.truncateTarget.perform d w).2.home = some { home with env := some [] } :=
    home_modify (fun h => { h with env := some [] }) hw
  rcases h.call_bind (o := .writeTarget raw) with ⟨hfails, rfl, rfl⟩ | ⟨hwritten, h⟩
  · rw [hopened, htruncated, hfails]
    exact ⟨iff_of_false nofun Bool.false_ne_true, rfl, hempty⟩
  have hfull : ((Op.writeTarget raw).perform d (Op.truncateTarget.perform d w).2).2.home
      = some { home with env := some (raw.take d.accepts) } :=
    (home_modify (fun h => { h with env := some (raw.take d.accepts) }) hempty).trans rfl
  rw [hopened, htruncated, hwritten]
  rcases h.call_bind (o := .syncTarget) with ⟨hfails, rfl, rfl⟩ | ⟨hsynced, h⟩
  · rw [hfails]
    exact ⟨iff_of_false nofun Bool.false_ne_true, rfl, hfull⟩
  · obtain ⟨rfl, rfl⟩ := h.pure
    rw [hsynced]
    exact ⟨iff_of_true rfl rfl, rfl, hfull⟩

/-- **Restoring** puts the old content back just where the whole of it is written and read again. -/
theorem ends_restore (hw : w.home = some home) (henv : home.env = some content) (hbackup : w.backup = raw)
    (h : Ends d restore w x w') :
    (x = .ok () ↔ d.rewrites raw = true) ∧ w'.home = some { home with env := some (d.rewritten raw content) } := by
  have hself : some home = some { home with env := some content } := by rw [← henv]
  rcases h.call_bind (o := .readBackup) with ⟨hfails, rfl, rfl⟩ | ⟨hread, h⟩
  · have htruncates : d.truncates = false := by
      rw [Disk.truncates, hfails]
      rfl
    rw [Disk.rewrites, Disk.rewritten, htruncates]
    exact ⟨iff_of_false nofun Bool.false_ne_true, hw.trans hself⟩
  have hraw : (Op.readBackup.perform d w).1 = raw := hbackup
  rw [hraw] at h
  rcases h.call_bind (o := .openTarget) with ⟨hfails, rfl, rfl⟩ | ⟨hopen, h⟩
  · have htruncates : d.truncates = false := by
      rw [Disk.truncates, hread, hfails]
      rfl
    rw [Disk.rewrites, Disk.rewritten, htruncates]
    exact ⟨iff_of_false nofun Bool.false_ne_true, hw.trans hself⟩
  have htruncates : d.truncates = (d.ok .openedAt && d.ok .truncateTarget) := by
    rw [Disk.truncates, hread, hopen, Bool.true_and, Bool.true_and]
  obtain ⟨y, w₁, hoverwrite, h⟩ := h.outcome_bind
  obtain ⟨hy, -, hhome⟩ := ends_overwrite hw hoverwrite
  rw [← htruncates] at hy hhome
  have hleft : w₁.home = some { home with env := some (d.rewritten raw content) } := by
    rw [hhome, Disk.rewritten]
    split
    · rfl
    · exact hself
  rcases h.call_bind (o := .closeTarget) with ⟨hfails, rfl, rfl⟩ | ⟨hclosed, h⟩
  · refine ⟨iff_of_false nofun ?_, hleft⟩
    rw [Disk.rewrites, hfails, Bool.and_false]
    exact Bool.false_ne_true
  rcases y with e | u
  · obtain ⟨rfl, rfl⟩ := h.throw
    have hnot : ¬(d.truncates && d.ok (.writeTarget raw) && d.ok .syncTarget) = true := fun hok => nomatch hy.2 hok
    refine ⟨iff_of_false nofun ?_, hleft⟩
    rw [Disk.rewrites, Bool.not_eq_true _ |>.mp hnot]
    exact Bool.false_ne_true
  have hwrites := hy.1 rfl
  rw [Disk.rewrites, hwrites, hclosed]
  rcases h.call_bind (o := .readRestored) with ⟨hfails, rfl, rfl⟩ | ⟨hreread, h⟩
  · rw [hfails]
    exact ⟨iff_of_false nofun Bool.false_ne_true, hleft⟩
  have hagain : (Op.readRestored.perform d (Op.closeTarget.perform d w₁).2).1 = raw.take d.accepts := by
    show (w₁.home.bind Home.env).getD [] = _
    obtain ⟨⟨htrue, hwritten⟩, -⟩ := by simpa only [Bool.and_eq_true] using hwrites
    rw [hleft, Disk.rewritten, htrue, hwritten]
    rfl
  rw [hagain] at h
  rw [hreread]
  by_cases heq : raw.take d.accepts = raw
  · rw [if_pos heq] at h
    obtain ⟨rfl, rfl⟩ := h.pure
    rw [beq_iff_eq.2 heq]
    exact ⟨iff_of_true rfl rfl, hleft⟩
  · rw [if_neg heq] at h
    obtain ⟨rfl, rfl⟩ := h.throw
    rw [beq_eq_false_iff_ne.2 heq]
    exact ⟨iff_of_false nofun Bool.false_ne_true, hleft⟩

/-- The rollback of an old file, which restores it if the places are still safe. -/
theorem ends_rollback_old (hw : w.home = some home) (henv : home.env = some content) (hbackup : w.backup = raw)
    (h : Ends d (rollback false true) w x w') :
    (x = .ok () ↔ d.restores raw = true) ∧ w'.home = some { home with env := some (d.leftover raw content) } := by
  have hchecks : ∀ o ∈ [Op.safe .home 5, .safe .state 4, .safe .backup 1], o.IsCheck := by
    simp only [List.forall_mem_cons]
    exact ⟨.safe _ _, .safe _ _, .safe _ _, List.forall_mem_nil _⟩
  rcases h.require_bind hchecks with ⟨hfails, rfl, rfl⟩ | ⟨hsafe, h⟩
  · replace hfails : d.okAll [.safe .home 5, .safe .state 4, .safe .backup 1] = false := hfails
    rw [Disk.restores, Disk.leftover, hfails, if_neg Bool.false_ne_true, ← henv]
    exact ⟨iff_of_false nofun Bool.false_ne_true, hw⟩
  · replace hsafe : d.okAll [.safe .home 5, .safe .state 4, .safe .backup 1] = true := hsafe
    rw [Disk.restores, Disk.leftover, hsafe, Bool.true_and, if_pos rfl]
    rcases h.bind with ⟨e, rfl, hrestore⟩ | ⟨u, w₁, hrestore, h⟩
    · exact ends_restore hw henv hbackup hrestore
    · obtain ⟨rfl, rfl⟩ := h.pure
      exact ends_restore hw henv hbackup hrestore

/-- Where the rollback does not raise, the old content is there again. -/
theorem leftover_of_restores (h : d.restores raw = true) : d.leftover raw content = raw := by
  obtain ⟨hsafe, hrewrites⟩ := Bool.and_eq_true_iff.1 h
  simp only [Disk.rewrites, Bool.and_eq_true, beq_iff_eq] at hrewrites
  obtain ⟨⟨⟨⟨⟨htruncates, hwritten⟩, -⟩, -⟩, -⟩, htake⟩ := hrewrites
  rw [Disk.leftover, if_pos hsafe, Disk.rewritten, if_pos htruncates, if_pos hwritten, htake]

end Restore

/-! ### The rollback of a new file -/

section Remove

variable {d : Disk} {w w' : World} {home : Home} {x : Except Exc Unit}

/-- Removing a new file: one that is no longer safe is left where it is. -/
theorem ends_removeNew (hw : w.home = some home) (h : Ends d removeNew w x w') :
    (x = .ok () ↔ (d.ok .targetLeft && (!home.env.isSome || !d.ok (.safe .target 3) || d.ok .unlinkTarget)) = true) ∧
      (x = .ok () → w'.home = some { home with env := if d.ok (.safe .target 3) then none else home.env }) ∧
      ∀ e, x = .error e → w' = w := by
  rcases h.call_bind (o := .targetLeft) with ⟨hfails, rfl, rfl⟩ | ⟨hleft, h⟩
  · rw [hfails]
    exact ⟨iff_of_false nofun Bool.false_ne_true, nofun, fun _ _ => rfl⟩
  have hpresent : (Op.targetLeft.perform d w).1 = home.env.isSome := by
    show (w.home.bind Home.env).isSome = _
    rw [hw]
    rfl
  rw [hpresent] at h
  rw [hleft]
  by_cases henv : home.env.isSome = true
  · rw [if_pos henv] at h
    have h := h.check_bind (.safe _ _)
    rw [henv]
    rcases hsafe : d.ok (.safe .target 3)
    · rw [hsafe] at h
      obtain ⟨rfl, rfl⟩ := h.pure (a := ())
      exact ⟨iff_of_true rfl rfl, fun _ => hw, nofun⟩
    · rw [hsafe] at h
      rcases h.call (o := .unlinkTarget) with ⟨hfails, rfl, rfl⟩ | ⟨hunlinked, rfl, rfl⟩
      · rw [hfails]
        exact ⟨iff_of_false nofun Bool.false_ne_true, nofun, fun _ _ => rfl⟩
      · rw [hunlinked]
        exact ⟨iff_of_true rfl rfl, fun _ => home_modify (fun h => { h with env := none }) hw, nofun⟩
  · rw [if_neg henv] at h
    obtain ⟨rfl, rfl⟩ := h.pure
    rw [Bool.not_eq_true] at henv
    rw [henv]
    refine ⟨iff_of_true rfl rfl, fun _ => ?_, nofun⟩
    rw [Option.isSome_eq_false_iff, Option.isNone_iff_eq_none] at henv
    rw [henv, ite_self, ← henv]
    exact hw

/-- There is something in the home directory. -/
def Home.busy (home : Home) : Bool := home.env.isSome || home.temporary.isSome || home.others

/-- Removing a home directory that was made: one that is not empty is left. -/
theorem ends_removeMade (hw : w.home = some home) (h : Ends d removeMade w x w') :
    (x = .ok () ↔ (!d.ok (.safe .home 6) || (d.ok .listHome && (home.busy || d.ok .removeHome))) = true) ∧
      (x = .ok () → w'.home = if d.ok (.safe .home 6) && !home.busy then none else some home) ∧
      ∀ e, x = .error e → w' = w := by
  have h := h.check_bind (.safe _ _)
  by_cases hsafe : d.ok (.safe .home 6) = true
  · rw [if_pos hsafe] at h
    rw [hsafe]
    rcases h.call_bind (o := .listHome) with ⟨hfails, rfl, rfl⟩ | ⟨hlisted, h⟩
    · rw [hfails]
      exact ⟨iff_of_false nofun Bool.false_ne_true, nofun, fun _ _ => rfl⟩
    have hbusy : (Op.listHome.perform d w).1 = home.busy := by
      show w.home.any _ = _
      rw [hw]
      rfl
    rw [hbusy] at h
    rw [hlisted]
    rcases hmore : home.busy
    · rw [hmore] at h
      rcases h.call (o := .removeHome) with ⟨hfails, rfl, rfl⟩ | ⟨hremoved, rfl, rfl⟩
      · rw [hfails]
        exact ⟨iff_of_false nofun Bool.false_ne_true, nofun, fun _ _ => rfl⟩
      · rw [hremoved]
        exact ⟨iff_of_true rfl rfl, fun _ => rfl, nofun⟩
    · rw [hmore] at h
      obtain ⟨rfl, rfl⟩ := h.pure (a := ())
      exact ⟨iff_of_true rfl rfl, fun _ => hw, nofun⟩
  · rw [if_neg hsafe] at h
    obtain ⟨rfl, rfl⟩ := h.pure
    rw [Bool.not_eq_true] at hsafe
    rw [hsafe]
    exact ⟨iff_of_true rfl rfl, fun _ => hw, nofun⟩

/-- What is still in the home directory after a new file was removed. -/
def Disk.remaining (d : Disk) (home : Home) : Home :=
  { home with env := if d.ok (.safe .target 3) then none else home.env }

theorem busy_remaining : (d.remaining home).busy
    = (home.env.isSome && !d.ok (.safe .target 3) || (home.temporary.isSome || home.others)) := by
  rw [Home.busy, Disk.remaining, Bool.or_assoc]
  rcases d.ok (.safe .target 3)
  · rw [Bool.not_false, Bool.and_true]
    rfl
  · rw [Bool.not_true, Bool.and_false]
    rfl

/-- **The rollback of a new file**: where it does not raise, the file is gone if it was safe to
remove, and a home directory that was made is gone if nothing else is in it. -/
theorem ends_rollback_new {created : Bool} (hw : w.home = some home) (h : Ends d (rollback created false) w x w') :
    (x = .ok () ↔ d.undoes created home.env.isSome (home.temporary.isSome || home.others) = true) ∧
      (x = .ok () → w'.home = if created && d.ok (.safe .home 6) && !(d.remaining home).busy then none
        else some (d.remaining home)) ∧
      ∀ e, x = .error e → ∃ left, w'.home = some left ∧ (created = false → left = home) := by
  have hchecks : ∀ o ∈ [Op.safe .home 5, .safe .state 4], o.IsCheck := by
    simp only [List.forall_mem_cons]
    exact ⟨.safe _ _, .safe _ _, List.forall_mem_nil _⟩
  rcases h.require_bind hchecks with ⟨hfails, rfl, rfl⟩ | ⟨hsafe, h⟩
  · replace hfails : d.okAll [.safe .home 5, .safe .state 4] = false := hfails
    rw [Disk.undoes, hfails]
    exact ⟨iff_of_false nofun Bool.false_ne_true, nofun, fun _ _ => ⟨home, hw, fun _ => rfl⟩⟩
  replace hsafe : d.okAll [.safe .home 5, .safe .state 4] = true := hsafe
  rw [Disk.undoes, hsafe, Bool.true_and]
  rcases h.bind with ⟨e, rfl, hremove⟩ | ⟨⟨⟩, w₁, hremove, h⟩
  · obtain ⟨hok, -, hfailed⟩ := ends_removeNew hw hremove
    have hnot := mt hok.2 nofun
    rw [Bool.not_eq_true] at hnot
    rw [hnot, Bool.false_and]
    obtain rfl := hfailed e rfl
    exact ⟨iff_of_false nofun Bool.false_ne_true, nofun, fun _ _ => ⟨home, hw, fun _ => rfl⟩⟩
  obtain ⟨hok, hleft, -⟩ := ends_removeNew hw hremove
  replace hleft : w₁.home = some (d.remaining home) := hleft rfl
  rw [hok.1 rfl, Bool.true_and]
  rcases created
  · obtain ⟨rfl, rfl⟩ := h.pure (a := ())
    exact ⟨iff_of_true rfl rfl, fun _ => hleft, nofun⟩
  · obtain ⟨hmade, hgone, hfailed⟩ := ends_removeMade hleft h
    rw [busy_remaining] at hmade
    refine ⟨hmade, hgone, ?_⟩
    intro e he
    obtain rfl := hfailed e he
    exact ⟨_, hleft, nofun⟩

end Remove

/-! ### The promise -/

/-- `.env` and the home directory are as they were. -/
def AsBefore (before : Option Before) (w : World) : Prop :=
  w.env = before.bind Before.env ∧ w.home.isSome = before.isSome

/-- A refusal for any reason but `env-rollback-failed` leaves `.env` and the home directory alone. -/
def Keeps (before : Option Before) (x : Except Exc (Option String)) (w : World) : Prop :=
  ∀ reason, x = .ok (some reason) → reason ≠ "env-rollback-failed" → AsBefore before w

section Promise

variable {d : Disk} {before : Option Before} {created existed : Bool} {raw replacement : Bytes}
  {w w' : World} {x : Except Exc (Option String)}

theorem asBefore_congr (henv : w'.env = w.env) (hhome : w'.home.isSome = w.home.isSome) :
    AsBefore before w' ↔ AsBefore before w := by
  rw [AsBefore, AsBefore, henv, hhome]

theorem asBefore_removeTemporary :
    AsBefore before (Op.removeTemporary.perform d w).2 ↔ AsBefore before w := by
  refine asBefore_congr ?_ Option.isSome_map
  show (w.home.map _).bind Home.env = w.home.bind Home.env
  rcases w.home
  · rfl
  · rfl

theorem keeps_none : Keeps before (.ok none) w := fun _ h => nomatch h

theorem keeps_error {e : Exc} : Keeps before (.error e) w := fun _ h => nomatch h

theorem keeps_some {reason : String} (h : reason ≠ "env-rollback-failed") :
    Keeps before (.ok (some reason)) w ↔ AsBefore before w := by
  constructor
  · intro hkeeps
    exact hkeeps reason rfl h
  · intro hbefore _ _ _
    exact hbefore

theorem keeps_rollback : Keeps before (.ok (some "env-rollback-failed")) w := by
  intro reason hreason hne
  exact absurd (Option.some.inj (Except.ok.inj hreason)).symm hne

theorem failureReason_ne : failureReason existed ≠ "env-rollback-failed" := by
  cases existed
  · decide
  · decide

/-- A result that promises nothing makes no difference, unless the handle cannot be closed. -/
theorem keeps_quiet {reason : Option String} (h : Keeps before (.ok reason) w) :
    Keeps before (.ok (if d.ok .release then reason else some (failureReason existed))) w ↔
      d.ok .release = true ∨ AsBefore before w := by
  rcases d.ok .release
  · rw [if_neg Bool.false_ne_true, keeps_some failureReason_ne]
    exact (or_iff_right Bool.false_ne_true).symm
  · exact iff_of_true h (Or.inl rfl)

theorem keeps_loud {reason : String} (h : reason ≠ "env-rollback-failed") :
    Keeps before (.ok (if d.ok .release then some reason else some (failureReason existed))) w ↔
      AsBefore before w := by
  rcases d.ok .release
  · rw [if_neg Bool.false_ne_true, keeps_some failureReason_ne]
  · rw [if_pos rfl, keeps_some h]

/-- What is held on to begins. -/
def Disk.begins (d : Disk) (existed : Bool) (raw : Bytes) : Bool :=
  (!existed || d.ok (.makeBackup raw)) && d.okAll [.safe .home 3, .safe .state 2] && d.ok .hold

/-- The world with the backup that is made of an old file. -/
def World.backedUp (w : World) (existed : Bool) (raw : Bytes) : World :=
  if existed then { w with backup := raw } else w

theorem asBefore_backedUp : AsBefore before (w.backedUp existed raw) ↔ AsBefore before w := by
  rw [World.backedUp]
  split
  · exact asBefore_congr rfl rfl
  · rfl

theorem ends_whileHeld (h : Ends d (whileHeld created existed replacement) w x w') :
    ∃ y w₁, Ends d (replace replacement) w y w₁ ∧
      ((y = .ok () ∧ x = .ok none ∧ w' = w₁) ∨
        ∃ e z, y = .error e ∧ Ends d (rollback created existed) w₁ z w' ∧
          ((z = .ok () ∧ ∃ reason, reason ≠ "env-rollback-failed" ∧ x = .ok (some reason)) ∨
            ((∃ e', z = .error e') ∧ x = .ok (some "env-rollback-failed")))) := by
  obtain ⟨y, w₁, hreplace, h⟩ := h.outcome_bind
  refine ⟨y, w₁, hreplace, ?_⟩
  rcases y with e | ⟨⟨⟩⟩
  · obtain ⟨z, w₂, hrollback, h⟩ := h.outcome_bind
    rcases z with e' | ⟨⟨⟩⟩
    · obtain ⟨rfl, rfl⟩ := h.pure
      exact Or.inr ⟨e, _, rfl, hrollback, Or.inr ⟨⟨e', rfl⟩, rfl⟩⟩
    · obtain ⟨rfl, rfl⟩ := h.pure
      refine Or.inr ⟨e, _, rfl, hrollback, Or.inl ⟨rfl, _, ?_, rfl⟩⟩
      split
      · decide
      · exact failureReason_ne
  · obtain ⟨rfl, rfl⟩ := h.pure
    exact Or.inl ⟨rfl, rfl, rfl⟩

/-- What comes before the home directory is held fails and changes nothing that matters, or the
program goes on. -/
theorem ends_backUp {f : Unit → Applying (Option String)}
    (h : Ends d (backUp existed raw >>= f) w x w') :
    ((!existed || d.ok (.makeBackup raw)) = false ∧ x = .error .os ∧ w' = w) ∨
      ((!existed || d.ok (.makeBackup raw)) = true ∧ Ends d (f ()) (w.backedUp existed raw) x w') := by
  rcases existed
  · rcases h.bind with ⟨e, rfl, hpure⟩ | ⟨⟨⟩, w₁, hpure, h⟩
    · cases (hpure.pure (a := ())).1
    · obtain ⟨-, rfl⟩ := hpure.pure (a := ())
      exact Or.inr ⟨rfl, h⟩
  · exact h.call_bind (o := .makeBackup raw)

variable (before) in
theorem ends_transact (h : Ends d (transact created existed raw replacement) w x w') :
    (d.begins existed raw = false ∧ x = .error .os ∧ (AsBefore before w' ↔ AsBefore before w)) ∨
      (d.begins existed raw = true ∧ ∃ reason,
        Ends d (whileHeld created existed replacement) (w.backedUp existed raw) (.ok reason) w' ∧
          x = if d.ok .release then .ok reason else .error .os) := by
  have hchecks : ∀ o ∈ [Op.safe .home 3, .safe .state 2], o.IsCheck := by
    simp only [List.forall_mem_cons]
    exact ⟨.safe _ _, .safe _ _, List.forall_mem_nil _⟩
  rcases ends_backUp h with ⟨hfails, rfl, rfl⟩ | ⟨hbacked, h⟩
  · rw [Disk.begins, hfails]
    exact Or.inl ⟨rfl, rfl, Iff.rfl⟩
  rcases h.require_bind hchecks with ⟨hfails, rfl, rfl⟩ | ⟨hsafe, h⟩
  · rw [Disk.begins, hfails, Bool.and_false]
    exact Or.inl ⟨rfl, rfl, asBefore_backedUp⟩
  rcases h.call_bind (o := .hold) with ⟨hfails, rfl, rfl⟩ | ⟨hheld, h⟩
  · rw [Disk.begins, hfails, Bool.and_false]
    exact Or.inl ⟨rfl, rfl, asBefore_backedUp⟩
  rw [Disk.begins, hbacked, hsafe, hheld]
  rcases h.bind with ⟨e, rfl, hwhile⟩ | ⟨reason, w₁, hwhile, h⟩
  · obtain ⟨y, w₁, -, ⟨-, hx, -⟩ | ⟨e', z, -, -, ⟨-, reason, -, hx⟩ | ⟨-, hx⟩⟩⟩ := ends_whileHeld hwhile
    · cases hx
    · cases hx
    · cases hx
  · refine Or.inr ⟨rfl, reason, ?_⟩
    rcases h.call_bind (o := .release) with ⟨hfails, rfl, rfl⟩ | ⟨hreleased, h⟩
    · rw [hfails]
      exact ⟨hwhile, rfl⟩
    · obtain ⟨rfl, rfl⟩ := h.pure
      rw [hreleased]
      exact ⟨hwhile, rfl⟩

variable (before) in
theorem ends_replaceBlock (h : Ends d (replaceBlock created existed raw replacement) w x w') :
    (d.begins existed raw = false ∧ x = .ok (some (failureReason existed)) ∧
        (AsBefore before w' ↔ AsBefore before w)) ∨
      (d.begins existed raw = true ∧ ∃ reason w₁,
        Ends d (whileHeld created existed replacement) (w.backedUp existed raw) (.ok reason) w₁ ∧
          x = .ok (if d.ok .release then reason else some (failureReason existed)) ∧
          (AsBefore before w' ↔ AsBefore before w₁)) := by
  obtain ⟨y, w₁, htransact, h⟩ := h.outcome_bind
  -- the temporary file does not matter
  have hafter : ∃ w₂, Ends d (handled existed y) w₂ x w' ∧ (AsBefore before w₂ ↔ AsBefore before w₁) := by
    rcases h.tried_bind with h | h
    · exact ⟨_, h, Iff.rfl⟩
    · exact ⟨_, h, asBefore_removeTemporary⟩
  obtain ⟨w₂, h, hsame⟩ := hafter
  rcases ends_transact before htransact with ⟨hfails, rfl, hw⟩ | ⟨hbegins, reason, hwhile, rfl⟩
  · obtain ⟨rfl, rfl⟩ := h.pure
    exact Or.inl ⟨hfails, rfl, hsame.trans hw⟩
  · refine Or.inr ⟨hbegins, reason, w₁, hwhile, ?_⟩
    rcases hrelease : d.ok .release
    · rw [hrelease] at h
      obtain ⟨rfl, rfl⟩ := h.pure (a := some (failureReason existed))
      exact ⟨rfl, hsame⟩
    · rw [hrelease] at h
      obtain ⟨rfl, rfl⟩ := h.pure (a := reason)
      exact ⟨rfl, hsame⟩

end Promise

/-! ### With a new file -/

section New

/-- The promise is kept for a new file, from when the home directory is held on. What breaks it is a
file that is no longer safe to remove, a temporary file that keeps a home directory from being removed,
and a handle that cannot be closed after the replacement, or after a rollback that raised. -/
def HoldsNew (d : Disk) (created : Bool) (replacement : Bytes) : Prop :=
  if d.succeeds replacement then d.ok .release = true
  else if d.undoes created (d.reached replacement = .replaced) (d.reached replacement = .temporary) then
    (d.reached replacement = .replaced → d.ok (.safe .target 3) = true) ∧
      (created = true → d.ok (.safe .home 6) = true ∧ d.reached replacement ≠ .temporary)
  else created = true ∨ d.reached replacement = .replaced → d.ok .release = true

variable {d : Disk} {before : Option Before} {created : Bool} {replacement : Bytes} {w w' : World} {home : Home}
  {reason : Option String}

theorem undoes_false {present busy : Bool} : d.undoes false present busy = d.undoes false present false := rfl

/-- The rollback of a new file raised nothing. -/
theorem asBefore_removed (hcreated : before.isNone = created) (hbefore : before.bind Before.env = none)
    (hothers : created = true → home.others = false)
    (hpresent : home.env.isSome = decide (d.reached replacement = .replaced))
    (htemporary : home.temporary.isSome = true ↔ d.reached replacement = .temporary)
    (hw : w.home = if created && d.ok (.safe .home 6) && !(d.remaining home).busy then none
      else some (d.remaining home)) :
    AsBefore before w ↔ (d.reached replacement = .replaced → d.ok (.safe .target 3) = true) ∧
      (created = true → d.ok (.safe .home 6) = true ∧ d.reached replacement ≠ .temporary) := by
  have hsome : before.isSome = !created := by rw [← hcreated, Option.not_isNone]
  rw [AsBefore, hbefore, hsome, World.env, hw]
  rcases created
  · have henv : (d.remaining home).env = none ↔
        (d.reached replacement = .replaced → d.ok (.safe .target 3) = true) := by
      rw [Disk.remaining, ← decide_eq_true_iff (p := d.reached replacement = .replaced), ← hpresent]
      rcases d.ok (.safe .target 3)
      · simp
      · simp
    exact ⟨fun h => ⟨henv.1 h.1, nofun⟩, fun h => ⟨henv.2 h.1, rfl⟩⟩
  · rw [busy_remaining, hothers rfl, hpresent, Bool.or_false, Bool.true_and]
    have hgone : (d.ok (.safe .home 6) && !(decide (d.reached replacement = .replaced) && !d.ok (.safe .target 3) ||
        home.temporary.isSome)) = true ↔
        (d.reached replacement = .replaced → d.ok (.safe .target 3) = true) ∧
          (true = true → d.ok (.safe .home 6) = true ∧ d.reached replacement ≠ .temporary) := by
      rw [ne_eq, ← htemporary]
      simp only [Bool.and_eq_true, Bool.not_eq_true', Bool.or_eq_false_iff, Bool.and_eq_false_imp,
        decide_eq_true_eq, Bool.not_eq_false', Bool.not_eq_true, forall_const]
      tauto
    rw [← hgone]
    split
    · next h => exact iff_of_true ⟨rfl, rfl⟩ h
    · next h => exact iff_of_false (fun hsame => Bool.false_ne_true hsame.2.symm) h

theorem keeps_new (hcreated : before.isNone = created) (hbefore : before.bind Before.env = none)
    (hw : w.home = some home) (henv : home.env = none) (htemporary : home.temporary = none)
    (hothers : created = true → home.others = false)
    (h : Ends d (whileHeld created false replacement) w (.ok reason) w') :
    Keeps before (.ok (if d.ok .release then reason else some (failureReason false))) w' ↔
      HoldsNew d created replacement := by
  obtain ⟨y, w₁, hreplace, hrest⟩ := ends_whileHeld h
  obtain ⟨hok, -, home', hw₁, hothers', henv', htemporary'⟩ := ends_replace hw htemporary hreplace
  rw [henv] at henv'
  have hpresent : home'.env.isSome = decide (d.reached replacement = .replaced) := by
    rw [henv']
    split
    · next hreached => rw [decide_eq_true hreached]; rfl
    · next hreached => rw [decide_eq_false hreached]; rfl
  rw [HoldsNew]
  rcases hrest with ⟨rfl, hx, rfl⟩ | ⟨e, z, rfl, hrollback, hz⟩
  · obtain rfl := Except.ok.inj hx
    have hsucceeds := hok.1 rfl
    rw [if_pos hsucceeds, keeps_quiet keeps_none]
    refine or_iff_left fun hsame => ?_
    simp only [Disk.succeeds, Bool.and_eq_true, decide_eq_true_eq] at hsucceeds
    have hnone : home'.env = none := by
      have := hsame.1
      rwa [hbefore, World.env, hw₁] at this
    rw [henv', if_pos hsucceeds.1.1] at hnone
    cases hnone
  · have hnot : ¬d.succeeds replacement = true := fun hsucceeds => nomatch hok.2 hsucceeds
    obtain ⟨hundoes, hdone, hfailed⟩ := ends_rollback_new hw₁ hrollback
    -- what else is in the home directory does not matter, unless it was made
    have hbusy : d.undoes created home'.env.isSome (home'.temporary.isSome || home'.others)
        = d.undoes created (d.reached replacement = .replaced) (d.reached replacement = .temporary) := by
      rw [hpresent]
      rcases created
      · rfl
      · rw [hothers', hothers rfl, Bool.or_false, Bool.eq_iff_iff.2 (htemporary'.trans (decide_eq_true_iff).symm)]
    rw [hbusy] at hundoes
    rw [if_neg hnot]
    rcases hz with ⟨rfl, r, hne, hx⟩ | ⟨⟨e', rfl⟩, hx⟩
    · obtain rfl := Except.ok.inj hx
      rw [if_pos (hundoes.1 rfl), keeps_loud hne]
      refine asBefore_removed hcreated hbefore (fun hmade => ?_) hpresent htemporary' (hdone rfl)
      rw [hothers', hothers hmade]
    · obtain rfl := Except.ok.inj hx
      rw [if_neg (fun hundone => nomatch hundoes.2 hundone), keeps_quiet keeps_rollback]
      obtain ⟨left, hleft, hsame⟩ := hfailed e' rfl
      have hbefore' : AsBefore before w' ↔ ¬(created = true ∨ d.reached replacement = .replaced) := by
        have hsome : before.isSome = !created := by rw [← hcreated, Option.not_isNone]
        rw [AsBefore, hbefore, hsome, World.env, hleft]
        rcases created
        · obtain rfl := hsame rfl
          show left.env = none ∧ true = true ↔ _
          rw [← Option.isNone_iff_eq_none, ← Option.not_isSome, hpresent]
          simp
        · exact iff_of_false (fun h => Bool.false_ne_true h.2.symm) fun h => h (Or.inl rfl)
      rw [hbefore']
      exact or_comm.trans imp_iff_not_or.symm

end New

/-! ### With an old file -/

section Old

/-- The promise is kept for an old file, from when the home directory is held on. It is broken by a
handle that cannot be closed, unless the file has its content all the same. -/
def HoldsOld (d : Disk) (raw replacement : Bytes) : Prop :=
  if d.succeeds replacement then d.ok .release = true ∨ replacement = raw
  else if d.restores raw then True
  else d.ok .release = true ∨
    d.leftover raw (if d.reached replacement = .replaced then replacement else raw) = raw

variable {d : Disk} {others : Bool} {raw replacement : Bytes} {w w' : World} {home : Home} {reason : Option String}

/-- The old file is as before where it has its content. -/
theorem asBefore_old {content : Bytes} (hw : w.home = some home) (henv : home.env = some content) :
    AsBefore (some ⟨some raw, others⟩) w ↔ content = raw := by
  rw [AsBefore, World.env, hw, Option.bind_some, henv]
  constructor
  · rintro ⟨hsame, -⟩
    exact Option.some.inj hsame
  · rintro rfl
    exact ⟨rfl, rfl⟩

theorem keeps_old (hw : w.home = some home) (henv : home.env = some raw) (htemporary : home.temporary = none)
    (hbackup : w.backup = raw) (h : Ends d (whileHeld false true replacement) w (.ok reason) w') :
    Keeps (some ⟨some raw, others⟩) (.ok (if d.ok .release then reason else some (failureReason true))) w' ↔
      HoldsOld d raw replacement := by
  obtain ⟨y, w₁, hreplace, hrest⟩ := ends_whileHeld h
  obtain ⟨hok, hbackup', home', hw₁, -, henv', -⟩ := ends_replace hw htemporary hreplace
  rw [henv, ← apply_ite some] at henv'
  rw [HoldsOld]
  rcases hrest with ⟨rfl, hx, rfl⟩ | ⟨e, z, rfl, hrollback, hz⟩
  · obtain rfl := Except.ok.inj hx
    have hsucceeds := hok.1 rfl
    rw [if_pos hsucceeds, keeps_quiet keeps_none, asBefore_old hw₁ henv']
    simp only [Disk.succeeds, Bool.and_eq_true, decide_eq_true_eq] at hsucceeds
    rw [if_pos hsucceeds.1.1]
  · have hnot : ¬d.succeeds replacement = true := fun hsucceeds => nomatch hok.2 hsucceeds
    obtain ⟨hrestores, hleft⟩ := ends_rollback_old hw₁ henv' (hbackup'.trans hbackup) hrollback
    rw [if_neg hnot]
    rcases hz with ⟨rfl, r, hne, hx⟩ | ⟨⟨e', rfl⟩, hx⟩
    · obtain rfl := Except.ok.inj hx
      rw [if_pos (hrestores.1 rfl), keeps_loud hne, asBefore_old hleft rfl]
      exact iff_of_true (leftover_of_restores (hrestores.1 rfl)) trivial
    · obtain rfl := Except.ok.inj hx
      rw [if_neg (fun hrestored => nomatch hrestores.2 hrestored), keeps_quiet keeps_rollback,
        asBefore_old hleft rfl]

end Old

/-! ### From the look at what there is on -/

/-- The reasons for which rewriting is refused. -/
theorem refused_of_rewrite {raw : Bytes} {invocation : Text} {reason : String}
    (h : rewrite raw invocation = .error (.refused reason)) :
    reason = "env-undecodable" ∨ reason = "env-rendered-credential" ∨ reason = "env-markers-invalid" := by
  rw [rewrite] at h
  rcases hdecoded : decodeContent raw with e | text
  · rw [hdecoded] at h
    rw [decodeContent] at hdecoded
    split at hdecoded
    · cases hdecoded
    · cases hdecoded
      cases h
      exact Or.inl rfl
  rcases hrendered : render invocation (newlineOf (splitBom raw).2) with e | rendered
  · rw [hdecoded, hrendered] at h
    rw [render] at hrendered
    split at hrendered
    · cases hrendered
      cases h
      exact Or.inr (Or.inl rfl)
    · split at hrendered
      · cases hrendered
      · cases hrendered
        cases h
  rcases hlocated : locate (Text.splitLines text) with e | block
  · rw [hdecoded, hrendered, ok_bind, ok_bind, hlocated] at h
    rw [locate] at hlocated
    split at hlocated
    · cases hlocated
    · split at hlocated
      · cases hlocated
        cases h
        exact Or.inr (Or.inr rfl)
      · cases hlocated
    · cases hlocated
      cases h
      exact Or.inr (Or.inr rfl)
  · rw [hdecoded, hrendered, ok_bind, ok_bind, hlocated] at h
    cases h

/-- The world when the home directory is there. -/
def World.made (before : Option Before) : World :=
  ⟨some ⟨before.bind Before.env, none, before.any Before.others⟩, []⟩

/-- The promise is kept from when the home directory is held on. -/
def Holds (d : Disk) (before : Option Before) (replacement : Bytes) : Prop :=
  (before.bind Before.env = none → HoldsNew d before.isNone replacement) ∧
    ∀ raw, before.bind Before.env = some raw → HoldsOld d raw replacement

section ApplyTo

variable {d : Disk} {before : Option Before} {raw replacement : Bytes} {invocation : Text} {w w' : World}
  {reason : Option String} {x : Except Exc (Option String)}

theorem asBefore_made : AsBefore before (World.made before) ↔ before.isNone = false := by
  rw [AsBefore, World.made]
  rcases before
  · exact iff_of_false (fun h => Bool.false_ne_true h.2.symm) (fun h => Bool.false_ne_true h.symm)
  · exact iff_of_true ⟨rfl, rfl⟩ rfl

theorem keeps_whileHeld (h : Ends d (whileHeld before.isNone (before.bind Before.env).isSome replacement)
    ((World.made before).backedUp (before.bind Before.env).isSome ((before.bind Before.env).getD []))
    (.ok reason) w') :
    Keeps before
        (.ok (if d.ok .release then reason else some (failureReason (before.bind Before.env).isSome))) w' ↔
      Holds d before replacement := by
  rcases before with _ | ⟨_ | raw, others⟩
  · have hnew : Keeps none (.ok (if d.ok .release then reason else some (failureReason false))) w' ↔
        HoldsNew d true replacement := keeps_new rfl rfl rfl rfl rfl (fun _ => rfl) h
    exact hnew.trans ⟨fun h => ⟨fun _ => h, nofun⟩, fun h => h.1 rfl⟩
  · have hnew : Keeps (some ⟨none, others⟩)
        (.ok (if d.ok .release then reason else some (failureReason false))) w' ↔
          HoldsNew d false replacement := keeps_new rfl rfl rfl rfl rfl nofun h
    exact hnew.trans ⟨fun h => ⟨fun _ => h, nofun⟩, fun h => h.1 rfl⟩
  · have hold : Keeps (some ⟨some raw, others⟩)
        (.ok (if d.ok .release then reason else some (failureReason true))) w' ↔ HoldsOld d raw replacement :=
      keeps_old rfl rfl rfl rfl h
    refine hold.trans ⟨fun h => ⟨nofun, ?_⟩, fun h => h.2 raw rfl⟩
    rintro _ ⟨rfl⟩
    exact h

/-- A rewriting is placed without harm: one that is refused or that does not come to hold the home
directory leaves it, where it was made. -/
def Places (d : Disk) (before : Option Before) (raw : Bytes) (invocation : Text) : Prop :=
  (before.isNone = true → ∀ reason, rewrite raw invocation ≠ .error (.refused reason)) ∧
    ∀ replacement, rewrite raw invocation = .ok replacement →
      (before.isNone = true → d.begins (before.bind Before.env).isSome raw = true) ∧
        (d.begins (before.bind Before.env).isSome raw = true → Holds d before replacement)

theorem keeps_placed (hraw : raw = (before.bind Before.env).getD [])
    (h : Ends d (placed before.isNone (before.bind Before.env).isSome raw (rewrite raw invocation))
      (World.made before) x w') : Keeps before x w' ↔ Places d before raw invocation := by
  have hmade : AsBefore before (World.made before) ↔ ¬before.isNone = true := by
    rw [asBefore_made, Bool.not_eq_true]
  rw [Places]
  rcases hrewrite : rewrite raw invocation with (reason | -) | replacement
  · rw [hrewrite] at h
    obtain ⟨rfl, rfl⟩ := h.pure (a := some reason)
    have hne : reason ≠ "env-rollback-failed" := by
      rintro rfl
      simpa using refused_of_rewrite hrewrite
    rw [keeps_some hne, hmade]
    refine ⟨fun hnot => ⟨fun hnone => absurd hnone hnot, nofun⟩, fun hplaces hnone => ?_⟩
    exact hplaces.1 hnone reason rfl
  · rw [hrewrite] at h
    obtain ⟨rfl, rfl⟩ := h.throw (e := Exc.unicode)
    exact iff_of_true keeps_error ⟨fun _ => nofun, nofun⟩
  · rw [hrewrite] at h
    have hrefused : ∀ reason, Except.ok replacement ≠ Except.error (Failure.refused reason) := nofun
    rcases ends_replaceBlock before h with ⟨hbegins, rfl, hsame⟩ | ⟨hbegins, reason, w₁, hwhile, rfl, hsame⟩
    · rw [keeps_some failureReason_ne, hsame, hmade]
      constructor
      · intro hnot
        refine ⟨fun _ => hrefused, fun _ _ => ⟨fun hnone => absurd hnone hnot, fun hyes => ?_⟩⟩
        rw [hbegins] at hyes
        cases hyes
      · intro hplaces hnone
        have hyes := (hplaces.2 replacement rfl).1 hnone
        rw [hbegins] at hyes
        cases hyes
    · have hkeeps := keeps_whileHeld (hraw ▸ hwhile)
      have hmoved : ∀ y, Keeps before y w' ↔ Keeps before y w₁ := by
        intro y
        rw [Keeps, Keeps, hsame]
      rw [hmoved, hkeeps]
      constructor
      · intro hholds
        refine ⟨fun _ => hrefused, ?_⟩
        rintro _ ⟨rfl⟩
        exact ⟨fun _ => hbegins, fun _ => hholds⟩
      · intro hplaces
        exact (hplaces.2 replacement rfl).2 hbegins

/-- The home directory cannot be made, or it is there. -/
theorem ends_makeHome {β : Type} {f : Unit → Applying β} {y : Except Exc β}
    (h : Ends d (makeHome before.isNone >>= f) (World.start before) y w') :
    ((!before.isNone || d.ok .makeHome) = false ∧ y = .error .os ∧ w' = World.start before) ∨
      ((!before.isNone || d.ok .makeHome) = true ∧ Ends d (f ()) (World.made before) y w') := by
  rcases before with _ | b
  · exact h.call_bind (o := .makeHome)
  · rcases h.bind with ⟨e, rfl, hpure⟩ | ⟨⟨⟩, w₁, hpure, h⟩
    · cases (hpure.pure (a := ())).1
    · obtain ⟨-, rfl⟩ := hpure.pure (a := ())
      exact Or.inr ⟨rfl, h⟩

theorem ends_readExisting {y : Except Exc Bytes}
    (h : Ends d (readExisting (before.bind Before.env).isSome) (World.made before) y w') :
    w' = World.made before ∧
      ((!(before.bind Before.env).isSome || d.ok .readTarget) = false ∧ y = .error .os ∨
        (!(before.bind Before.env).isSome || d.ok .readTarget) = true ∧
          y = .ok ((before.bind Before.env).getD [])) := by
  rcases henv : before.bind Before.env with _ | raw
  · rw [henv] at h
    obtain ⟨rfl, rfl⟩ := h.pure (a := ([] : Bytes))
    exact ⟨rfl, Or.inr ⟨rfl, rfl⟩⟩
  · rw [henv] at h
    rcases h.call (o := .readTarget) with ⟨hfails, rfl, rfl⟩ | ⟨hread, rfl, rfl⟩
    · exact ⟨rfl, Or.inl ⟨hfails, rfl⟩⟩
    · refine ⟨rfl, Or.inr ⟨hread, ?_⟩⟩
      show Except.ok ((before.bind Before.env).getD []) = _
      rw [henv]

theorem ends_prior {y : Except Exc (Option Bytes)}
    (h : Ends d (prior before.isNone (before.bind Before.env).isSome) (World.start before) y w') :
    ((!before.isNone || d.ok .makeHome) = false ∧ y = .error .os ∧ w' = World.start before) ∨
      ((!before.isNone || d.ok .makeHome) = true ∧ w' = World.made before ∧
        ((d.ok (.safe .home 2) = false ∧ y = .ok none) ∨
          (d.ok (.safe .home 2) = true ∧
            ((!(before.bind Before.env).isSome || d.ok .readTarget) = false ∧ y = .error .os ∨
              (!(before.bind Before.env).isSome || d.ok .readTarget) = true ∧
                y = .ok (some ((before.bind Before.env).getD [])))))) := by
  rcases ends_makeHome h with hunmade | ⟨hmade, h⟩
  · exact Or.inl hunmade
  refine Or.inr ⟨hmade, ?_⟩
  replace h := h.check_bind (.safe _ _)
  rcases hsafe : d.ok (.safe .home 2)
  · rw [hsafe] at h
    obtain ⟨rfl, rfl⟩ := h.pure (a := none)
    exact ⟨rfl, Or.inl ⟨rfl, rfl⟩⟩
  · rw [hsafe, if_pos rfl] at h
    rcases h.bind with ⟨e, rfl, hread⟩ | ⟨raw, w₁, hread, h⟩
    · obtain ⟨rfl, ⟨hfails, he⟩ | ⟨-, he⟩⟩ := ends_readExisting hread
      · exact ⟨rfl, Or.inr ⟨rfl, Or.inl ⟨hfails, congrArg Except.error (Except.error.inj he)⟩⟩⟩
      · cases he
    · obtain ⟨rfl, rfl⟩ := h.pure
      obtain ⟨rfl, ⟨-, he⟩ | ⟨hok, he⟩⟩ := ends_readExisting hread
      · cases he
      · obtain rfl := Except.ok.inj he
        exact ⟨rfl, Or.inr ⟨rfl, Or.inr ⟨hok, rfl⟩⟩⟩

/-- What there is is taken over without harm: where the home directory was made it is safe, and then
the rewriting is placed so. -/
def Takes (d : Disk) (before : Option Before) (invocation : Text) : Prop :=
  (before.isNone = true → d.ok (.safe .home 2) = true) ∧
    (d.ok (.safe .home 2) = true → (!(before.bind Before.env).isSome || d.ok .readTarget) = true →
      Places d before ((before.bind Before.env).getD []) invocation)

theorem keeps_applyTo
    (h : Ends d (applyTo before.isNone (before.bind Before.env).isSome invocation) (World.start before) x w') :
    Keeps before x w' ↔ ((!before.isNone || d.ok .makeHome) = true → Takes d before invocation) := by
  have hmade : AsBefore before (World.made before) ↔ ¬before.isNone = true := by
    rw [asBefore_made, Bool.not_eq_true]
  obtain ⟨y, w₁, hprior, h⟩ := h.outcome_bind
  rcases ends_prior hprior with ⟨hunmade, rfl, rfl⟩ | ⟨hmakes, rfl, hrest⟩
  · obtain ⟨rfl, rfl⟩ := h.pure
    rw [hunmade, keeps_some (by decide)]
    refine iff_of_true ⟨?_, ?_⟩ nofun
    · rcases before
      · rfl
      · rfl
    · exact Option.isSome_map
  rw [hmakes, Takes]
  rcases hrest with ⟨hrefused, rfl⟩ | ⟨hsafe, ⟨hunread, rfl⟩ | ⟨hread, rfl⟩⟩
  · obtain ⟨rfl, rfl⟩ := h.pure
    rw [hrefused, keeps_some (by decide), hmade]
    exact ⟨fun hnot _ => ⟨fun hnone => absurd hnone hnot, nofun⟩, fun htakes hnone => nomatch (htakes rfl).1 hnone⟩
  · obtain ⟨rfl, rfl⟩ := h.pure
    rw [hunread, keeps_some (by decide), hmade]
    refine iff_of_true (fun hnone => ?_) fun _ => ⟨fun _ => hsafe, fun _ => nofun⟩
    rw [Option.isNone_iff_eq_none] at hnone
    subst hnone
    cases hunread
  · rw [hsafe, hread, keeps_placed rfl h]
    exact ⟨fun hplaces _ => ⟨fun _ => rfl, fun _ _ => hplaces⟩, fun htakes => (htakes rfl).2 rfl rfl⟩

end ApplyTo

/-! ### The result -/

/-- There is nothing in the place of `.env`, or a safe file. -/
def Disk.clears (d : Disk) (present : Bool) : Bool :=
  d.ok .probeTarget && (!present || d.okAll [.safe .target 1, .statTarget, .isFile])

/-- What is refused or raised before anything is done does not happen. -/
def Disk.admits (d : Disk) (consent present : Bool) : Bool :=
  consent && d.ok (.safe .home 1) && d.ok (.safe .state 1) && d.clears present && d.ok .homeExists &&
    d.ok .targetExists

/-- **When applying is all or nothing**: no check, no operation and no rewriting fails where what was
made cannot be removed, or what was replaced cannot be put back, unless the rollback says so. -/
def Harmless (d : Disk) (invocation : Text) (consent : Bool) (before : Option Before) : Prop :=
  d.admits consent (before.bind Before.env).isSome = true → (!before.isNone || d.ok .makeHome) = true →
    Takes d before invocation

/-- **Applying is all or nothing**: where it is refused for any reason but `env-rollback-failed`,
`.env` and the home directory are as they were. -/
def Atomic (d : Disk) (invocation : Text) (consent : Bool) (before : Option Before) : Prop :=
  ∀ reason, (run d invocation consent (World.start before)).1 = .ok (some reason) →
    reason ≠ "env-rollback-failed" → AsBefore before (run d invocation consent (World.start before)).2

section Apply

variable {d : Disk} {before : Option Before} {invocation : Text} {consent : Bool} {w' : World}
  {x : Except Exc (Option String)}

theorem asBefore_start : AsBefore before (World.start before) := by
  rcases before
  · exact ⟨rfl, rfl⟩
  · exact ⟨rfl, rfl⟩

/-- The look at the place of `.env` changes nothing, and lets the program go on just when the place
is clear. -/
theorem ends_targetUnsafe {y : Except Exc Bool} (h : Ends d targetUnsafe (World.start before) y w') :
    w' = World.start before ∧ (y = .ok false ↔ d.clears (before.bind Before.env).isSome = true) := by
  rcases h.call_bind (o := .probeTarget) with ⟨hfails, rfl, rfl⟩ | ⟨hprobed, h⟩
  · rw [Disk.clears, hfails]
    exact ⟨rfl, iff_of_false nofun Bool.false_ne_true⟩
  have hpresent : (Op.probeTarget.perform d (World.start before)).1 = (before.bind Before.env).isSome := by
    rw [← asBefore_start.1]
    rfl
  rw [hpresent] at h
  rw [Disk.clears, hprobed, Bool.true_and]
  rcases hsome : (before.bind Before.env).isSome
  · rw [hsome] at h
    obtain ⟨rfl, rfl⟩ := h.pure (a := false)
    exact ⟨rfl, iff_of_true rfl rfl⟩
  rw [hsome, if_pos rfl] at h
  rw [Bool.not_true, Bool.false_or, Disk.okAll, List.all_cons, List.all_cons, List.all_cons, List.all_nil,
    Bool.and_true]
  replace h := h.check_bind (.safe _ _)
  rcases hsafe : d.ok (.safe .target 1)
  · rw [hsafe] at h
    obtain ⟨rfl, rfl⟩ := h.pure (a := true)
    exact ⟨rfl, iff_of_false nofun Bool.false_ne_true⟩
  rw [hsafe, if_pos rfl] at h
  rcases h.call_bind (o := .statTarget) with ⟨hfails, rfl, rfl⟩ | ⟨hstat, h⟩
  · rw [hfails]
    exact ⟨rfl, iff_of_false nofun Bool.false_ne_true⟩
  replace h := h.check_bind .isFile
  obtain ⟨rfl, rfl⟩ := h.pure
  rw [hstat]
  refine ⟨rfl, ?_⟩
  rcases d.ok .isFile
  · exact iff_of_false nofun Bool.false_ne_true
  · exact iff_of_true rfl rfl

/-- Nothing is done. -/
theorem keeps_untouched (hadmits : d.admits consent (before.bind Before.env).isSome = false) :
    Keeps before x (World.start before) ↔ Harmless d invocation consent before := by
  refine iff_of_true (fun _ _ _ => asBefore_start) ?_
  rw [Harmless, hadmits]
  exact nofun

theorem keeps_apply (h : Ends d (apply invocation consent) (World.start before) x w') :
    Keeps before x w' ↔ Harmless d invocation consent before := by
  rcases consent
  · obtain ⟨-, rfl⟩ := h.pure (a := some "env-consent-required")
    exact keeps_untouched rfl
  replace h := h.check_bind (.safe _ _)
  rcases hhome : d.ok (.safe .home 1)
  · rw [hhome] at h
    obtain ⟨-, rfl⟩ := h.pure (a := some "env-home-unsafe")
    refine keeps_untouched ?_
    rw [Disk.admits, hhome]
    rfl
  rw [hhome] at h
  replace h := h.check_bind (.safe _ _)
  rcases hstate : d.ok (.safe .state 1)
  · rw [hstate] at h
    obtain ⟨-, rfl⟩ := h.pure (a := some "env-state-unsafe")
    refine keeps_untouched ?_
    rw [Disk.admits, hhome, hstate]
    rfl
  rw [hstate, if_pos rfl] at h
  have hunclear : d.clears (before.bind Before.env).isSome = false →
      d.admits true (before.bind Before.env).isSome = false := by
    intro hclears
    rw [Disk.admits, hclears, Bool.and_false]
    rfl
  rcases h.bind with ⟨e, rfl, htarget⟩ | ⟨found, w₁, htarget, h⟩
  · obtain ⟨rfl, hclear⟩ := ends_targetUnsafe htarget
    exact keeps_untouched (hunclear (Bool.not_eq_true _ ▸ fun hclears => nomatch hclear.2 hclears))
  obtain ⟨rfl, hclear⟩ := ends_targetUnsafe htarget
  rcases found
  swap
  · obtain ⟨-, rfl⟩ := h.pure (a := some "env-target-unsafe")
    exact keeps_untouched (hunclear (Bool.not_eq_true _ ▸ fun hclears => nomatch hclear.2 hclears))
  have hclears := hclear.1 rfl
  rcases h.call_bind (o := .homeExists) with ⟨hfails, rfl, rfl⟩ | ⟨hhomeExists, h⟩
  · refine keeps_untouched ?_
    rw [Disk.admits, hfails, Bool.and_false]
    rfl
  rcases h.call_bind (o := .targetExists) with ⟨hfails, rfl, rfl⟩ | ⟨htargetExists, h⟩
  · refine keeps_untouched ?_
    rw [Disk.admits, hfails, Bool.and_false]
  have hcreated : (!(Op.homeExists.perform d (World.start before)).1) = before.isNone := by
    rcases before
    · rfl
    · rfl
  have hexisted : (Op.targetExists.perform d (World.start before)).1 = (before.bind Before.env).isSome := by
    rw [← asBefore_start.1]
    rfl
  have hadmits : d.admits true (before.bind Before.env).isSome = true := by
    rw [Disk.admits, hhome, hstate, hclears, hhomeExists, htargetExists]
    rfl
  rw [Harmless, hadmits]
  have hto : Keeps before x w' ↔
      ((!before.isNone || d.ok .makeHome) = true → Takes d before invocation) := by
    apply keeps_applyTo
    rw [← hcreated, ← hexisted]
    exact h
  rw [hto]
  exact ⟨fun hmakes _ => hmakes, fun hharmless => hharmless rfl⟩

end Apply

/-- **Applying is all or nothing just when it is harmless**, on every disk and whatever there was. -/
theorem apply_atomic_iff (d : Disk) (invocation : Text) (consent : Bool) (before : Option Before) :
    Atomic d invocation consent before ↔ Harmless d invocation consent before := by
  have hends : Ends d (apply invocation consent) (World.start before)
      (run d invocation consent (World.start before)).1 (run d invocation consent (World.start before)).2 := rfl
  exact keeps_apply hends

/-- A disk on which nothing fails. -/
def Disk.faultless : Disk := ⟨fun _ => false, 4096, id⟩

def credentialInvocation : Text := Text.ofString "C:\\token.exe"

/-- The home directory that was made is left behind when the block is refused for what looks like a
credential in the invocation. -/
theorem not_atomic_credential : ¬Atomic Disk.faultless credentialInvocation true none := by
  intro hatomic
  have hreason : (run Disk.faultless credentialInvocation true (World.start none)).1
      = .ok (some "env-rendered-credential") := by decide +kernel
  have hhome : (run Disk.faultless credentialInvocation true (World.start none)).2.home.isSome = true := by
    decide +kernel
  have hsame := (hatomic _ hreason (by decide)).2
  exact Bool.false_ne_true (hsame.symm.trans hhome)

end EnvBlock

end YasbLimitora

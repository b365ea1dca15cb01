import Mathlib
import YasbLimitora.PathCleanup.AllOrNothing
import YasbLimitora.PathCleanup.Inverse
import YasbLimitora.SetupAssist.Batch

/-!
# Operations that succeed

What an operation of a batch that reports success has done, whichever of its calls may
raise: a path operation does what it does in a calm run, and a cleanup had the record of the
PATH as it was, deleted the state and cleared the record. Each transaction is followed
call by call, with the inversions of `Faults.MayEnd`; where a call raises, the operation is
refused in the end, or there is no report at all.

The inversions go the other way than the rules of a precondition: they start from the report and ask
what must have happened. A call that raised is seen in the report unless its exception was caught,
and the transactions catch what they compensate. The lemmas are named after the functions of the
source, in the order in which these call each other.
-/

namespace YasbLimitora

namespace SetupAssist

open UserPath Faults

/-! ### Operations that succeed -/

section Succeed

variable {r r' : Registry}

/-- A change that succeeded was followed by its update. -/
theorem mayEnd_settle {update : UserPath.Op} {changed restored : RegValue} {old : Option RegValue}
    {out : Outcome} (h : MayEnd Op.perform (settle update changed old restored) r (.ok out) r')
    (hok : out.reason = none) : out = ⟨true, none⟩ ∧ r' = (update.perform r).2 := by
  obtain ⟨x, r₁, hupdate, h⟩ := h.bind_ok
  rcases hupdate.tried with ⟨hx, rfl⟩ | ⟨hx, rfl⟩
  · obtain rfl := Except.ok.inj hx
    obtain ⟨restored, r₂, -, h⟩ := MayEnd.bind_ok h
    rcases restored
    · obtain ⟨hout, -⟩ := MayEnd.pure h
      rw [Except.ok.inj hout] at hok
      cases hok
    · obtain ⟨hout, -⟩ := MayEnd.pure h
      rw [Except.ok.inj hout] at hok
      cases hok
  · obtain rfl := Except.ok.inj hx
    obtain ⟨_, r₂, hnotify, h⟩ := MayEnd.bind_ok h
    obtain ⟨hout, rfl⟩ := MayEnd.pure h
    exact ⟨Except.ok.inj hout, hnotify.call.2⟩

/-- The PATH is read as it stands, and reading changes nothing. -/
theorem mayEnd_readUserPath {current : Option RegValue}
    (h : MayEnd Op.perform readUserPath r (.ok current) r') : current = r.path ∧ r' = r := h.call

/-- The recorded element is read as it stands. -/
theorem mayEnd_readRecordedElement {recorded : Option Text}
    (h : MayEnd Op.perform readRecordedElement r (.ok recorded) r') : recorded = r.record ∧ r' = r :=
  h.call

/-- The PATH is as it was read. -/
theorem mayEnd_compareAndWriteUserPath {written : RegValue} {purpose : UserPath.Purpose} {done : Bool}
    (h : MayEnd Op.perform (compareAndWriteUserPath r.path written purpose) r (.ok done) r') :
    done = true ∧ r' = { r with path := some written } := by
  obtain ⟨hdone, hr⟩ := h.call
  rw [Op.perform, if_pos rfl] at hdone hr
  exact ⟨hdone, hr⟩

/-- A round of `append_user_path` that succeeds does what it does in a calm run. -/
theorem mayEnd_appendOnce {element : Text} {correctionConsent : Bool} {x : Option Outcome}
    (h : MayEnd Op.perform (appendOnce element correctionConsent) r (.ok x) r') :
    ∃ out, x = some out ∧ (out.reason = none → append element correctionConsent r = (out, r')) := by
  obtain ⟨current, r₁, hread, h⟩ := MayEnd.bind_ok h
  obtain ⟨rfl, rfl⟩ := mayEnd_readUserPath hread
  unfold append
  split at h
  · next hrefused =>
    obtain ⟨hx, rfl⟩ := MayEnd.pure h
    exact ⟨_, Except.ok.inj hx, nofun⟩
  next hsafe =>
  rw [if_neg hsafe]
  dsimp only at h ⊢
  split at h
  · next helement =>
    obtain ⟨hx, rfl⟩ := MayEnd.pure h
    rw [if_pos helement]
    exact ⟨_, Except.ok.inj hx, fun _ => rfl⟩
  next helement =>
  rw [if_neg helement]
  obtain ⟨recorded, r₂, hrecorded, h⟩ := MayEnd.bind_ok h
  obtain ⟨rfl, rfl⟩ := mayEnd_readRecordedElement hrecorded
  rcases hvalue : corrected r₂.path ((safePath r₂.path).getD ⟨[], REG_EXPAND_SZ⟩).value r₂.record
    correctionConsent with reason | value
  · rw [hvalue] at h
    obtain ⟨hx, rfl⟩ := MayEnd.pure h
    refine ⟨_, Except.ok.inj hx, nofun⟩
  · rw [hvalue] at h
    obtain ⟨done, r₃, hdone, h⟩ := MayEnd.bind_ok h
    obtain ⟨rfl, rfl⟩ := mayEnd_compareAndWriteUserPath hdone
    obtain ⟨out, r₄, hsettle, h⟩ := MayEnd.bind_ok h
    obtain ⟨hx, rfl⟩ := MayEnd.pure h
    refine ⟨out, Except.ok.inj hx, fun hok => ?_⟩
    obtain ⟨rfl, rfl⟩ := mayEnd_settle hsettle hok
    rfl

/-- **An addition that succeeds** does what it does in a calm run. -/
theorem mayEnd_appendUserPath {element : Text} {correctionConsent : Bool} {out : Outcome}
    (h : MayEnd Op.perform (appendUserPath element correctionConsent) r (.ok out) r')
    (hok : out.reason = none) : append element correctionConsent r = (out, r') := by
  obtain ⟨x, r₁, honce, h⟩ := MayEnd.bind_ok h
  obtain ⟨out', rfl, hcalm⟩ := mayEnd_appendOnce honce
  obtain ⟨hout, rfl⟩ := MayEnd.pure h
  obtain rfl := Except.ok.inj hout
  exact hcalm hok

/-- **A removal that succeeds** does what it does in a calm run. -/
theorem mayEnd_removeRecordedUserPath {out : Outcome}
    (h : MayEnd Op.perform removeRecordedUserPath r (.ok out) r') (hok : out.reason = none) :
    remove r = (out, r') := by
  obtain ⟨recorded, r₁, hrecorded, h⟩ := MayEnd.bind_ok h
  obtain ⟨rfl, rfl⟩ := mayEnd_readRecordedElement hrecorded
  unfold remove
  rcases howned : r₁.record.bind owned with _ | o
  · rw [howned] at h
    obtain ⟨hout, rfl⟩ := MayEnd.pure h
    rw [Except.ok.inj hout]
  rw [howned] at h
  obtain ⟨current, r₂, hread, h⟩ := MayEnd.bind_ok h
  obtain ⟨rfl, rfl⟩ := mayEnd_readUserPath hread
  rcases hpath : r₂.path with _ | current
  · rw [hpath] at h
    obtain ⟨hout, rfl⟩ := MayEnd.pure h
    rw [Except.ok.inj hout]
  rw [hpath] at h
  dsimp only at h ⊢
  split_ifs at h ⊢ with hchanged hmem hlast
  · obtain ⟨hout, rfl⟩ := MayEnd.pure h
    rw [Except.ok.inj hout] at hok
    cases hok
  · obtain ⟨hout, rfl⟩ := MayEnd.pure h
    rw [Except.ok.inj hout]
  · obtain ⟨hout, rfl⟩ := MayEnd.pure h
    rw [Except.ok.inj hout] at hok
    cases hok
  · obtain ⟨done, r₃, hdone, h⟩ := MayEnd.bind_ok h
    rw [← hpath] at hdone
    obtain ⟨rfl, rfl⟩ := mayEnd_compareAndWriteUserPath hdone
    obtain ⟨rfl, rfl⟩ := mayEnd_settle h hok
    rfl

end Succeed

/-! ### Cleanups that succeed -/

/-- The record is of the PATH as it is, and the recorded route is the last of it. -/
structure IsOwned (r : Registry) (o : Owned) : Prop where
  record : r.record.bind owned = some o
  last : (split o.path).getLast? = some o.element
  path : r.path = some ⟨o.path, o.type⟩

section Cleanup

variable {σ : Type} {disk : Disk σ} {m m' : Machine σ}

/-- The state is deleted. -/
def Disk.Deletes (disk : Disk σ) (d d' : σ) : Prop := disk.deleteDirectory d = (.ok true, d')

/-- The state is deleted, and its record cleared. -/
def Disk.Clears (disk : Disk σ) (m m' : Machine σ) : Prop :=
  disk.Deletes m.disk m'.disk ∧ m'.registry = { m.registry with record := none }

/-- A state directory that is reported as deleted was deleted, and the registry was left alone. -/
theorem mayEnd_deleteState {deleted : Bool}
    (h : MayEnd disk.act deleteState m (.ok deleted) m') (hdeleted : deleted = true) :
    disk.Deletes m.disk m'.disk ∧ m'.registry = m.registry := by
  obtain ⟨x, m₁, htried, h⟩ := MayEnd.bind_ok h
  rcases htried.tried with ⟨hx, rfl⟩ | ⟨hx, rfl⟩
  · obtain rfl := Except.ok.inj hx
    obtain ⟨hfalse, -⟩ := MayEnd.pure h
    rw [Except.ok.inj hfalse] at hdeleted
    cases hdeleted
  · obtain rfl := Except.ok.inj hx
    dsimp only [Disk.act] at h
    rcases hanswer : disk.deleteDirectory m.disk with ⟨_ | deleted', d⟩
    · rw [hanswer] at h
      obtain ⟨events, raises, n, h⟩ := h
      cases (Ran.mk.inj h).1
    · rw [hanswer] at h
      obtain ⟨hx, rfl⟩ := MayEnd.pure h
      rw [← Except.ok.inj hx, hdeleted] at hanswer
      exact ⟨hanswer, rfl⟩

/-- Clearing the record succeeds and leaves none, or fails and leaves it. -/
theorem mayEnd_clearRecord {out : Outcome} (h : MayEnd disk.act clearRecord m (.ok out) m') :
    out = ⟨true, none⟩ ∧ m' = { m with registry := { m.registry with record := none } } ∨
      out.changed = false ∧ out.reason ≠ none := by
  obtain ⟨x, m₁, htried, h⟩ := MayEnd.bind_ok h
  rcases htried.tried with ⟨hx, rfl⟩ | ⟨hx, rfl⟩
  · obtain rfl := Except.ok.inj hx
    obtain ⟨hout, -⟩ := MayEnd.pure h
    obtain rfl := Except.ok.inj hout
    exact Or.inr ⟨rfl, nofun⟩
  · obtain rfl := Except.ok.inj hx
    obtain ⟨hout, rfl⟩ := MayEnd.pure h
    exact Or.inl ⟨Except.ok.inj hout, rfl⟩

/-- The record is read as it stands, at the disk and the registry together. -/
theorem mayEnd_readRecord {recorded : Option Text}
    (h : MayEnd disk.act readRecord m (.ok recorded) m') : recorded = m.registry.record ∧ m' = m :=
  h.call

theorem mayEnd_readPath {current : Option RegValue}
    (h : MayEnd disk.act readPath m (.ok current) m') : current = m.registry.path ∧ m' = m := h.call

/-- **A cleanup that succeeds** had the record of the PATH as it was. -/
theorem mayEnd_cleanupLiteralState {absolute : Bool} {expected : Option Text} {out : Outcome}
    (h : MayEnd disk.act (cleanupLiteralState absolute expected) m (.ok out) m') :
    (∃ o, IsOwned m.registry o ∧ out = ⟨true, none⟩ ∧ disk.Clears m m') ∨
      out.changed = false ∧ out.reason ≠ none := by
  have hrefused : ∀ {reason : String} {m₁ : Machine σ},
      MayEnd disk.act (pure ⟨false, some reason⟩ : Executing Outcome) m₁ (.ok out) m' →
        out.changed = false ∧ out.reason ≠ none := by
    intro reason m₁ h
    obtain ⟨hout, -⟩ := h.pure
    obtain rfl := Except.ok.inj hout
    exact ⟨rfl, nofun⟩
  unfold cleanupLiteralState at h
  split_ifs at h
  · exact Or.inr (hrefused h)
  obtain ⟨recorded, m₁, hrecorded, h⟩ := MayEnd.bind_ok h
  obtain ⟨rfl, rfl⟩ := mayEnd_readRecord hrecorded
  split_ifs at h
  · exact Or.inr (hrefused h)
  rcases howned : m₁.registry.record.bind owned with _ | o
  · rw [howned] at h
    exact Or.inr (hrefused h)
  rw [howned] at h
  dsimp only at h
  split_ifs at h with hlast
  · exact Or.inr (hrefused h)
  rw [not_not] at hlast
  obtain ⟨current, m₂, hread, h⟩ := MayEnd.bind_ok h
  obtain ⟨rfl, rfl⟩ := mayEnd_readPath hread
  split_ifs at h with hpath
  · exact Or.inr (hrefused h)
  rw [not_not] at hpath
  obtain ⟨recorded, m₃, hrecorded, h⟩ := MayEnd.bind_ok h
  obtain ⟨rfl, rfl⟩ := mayEnd_readRecord hrecorded
  split_ifs at h
  · exact Or.inr (hrefused h)
  obtain ⟨current, m₄, hread, h⟩ := MayEnd.bind_ok h
  obtain ⟨rfl, rfl⟩ := mayEnd_readPath hread
  split_ifs at h
  · exact Or.inr (hrefused h)
  obtain ⟨deleted, m₅, hdelete, h⟩ := MayEnd.bind_ok h
  split_ifs at h with hdeleted
  · obtain ⟨hdeletes, hregistry⟩ := mayEnd_deleteState hdelete hdeleted
    rcases mayEnd_clearRecord h with ⟨rfl, rfl⟩ | hout
    · exact Or.inl ⟨o, ⟨howned, hlast, hpath⟩, rfl, hdeletes, by rw [hregistry]⟩
    · exact Or.inr hout
  · exact Or.inr (hrefused h)

/-- The PATH is as it was read. -/
theorem mayEnd_changePath {current changed : RegValue} {done : Bool}
    (hpath : m.registry.path = some current)
    (h : MayEnd disk.act (changePath current changed) m (.ok done) m') :
    m' = { m with registry := { m.registry with path := some changed } } := by
  obtain ⟨-, rfl⟩ := h.call
  simp only [Disk.act, Op.perform, hpath, if_true]

/-- Where the route is not put back, the state was deleted. -/
theorem mayEnd_deleteOrRestore {changed restored : RegValue} {outs : Outcome × Outcome}
    (h : MayEnd disk.act (deleteOrRestore changed restored) m (.ok outs) m')
    (hok : outs.2.reason = none) : disk.Clears m m' := by
  obtain ⟨deleted, m₁, hdelete, h⟩ := MayEnd.bind_ok h
  split_ifs at h with hdeleted
  · obtain ⟨hdeletes, hregistry⟩ := mayEnd_deleteState hdelete hdeleted
    obtain ⟨out, m₂, hclear, h⟩ := MayEnd.bind_ok h
    obtain ⟨houts, rfl⟩ := MayEnd.pure h
    obtain rfl := Except.ok.inj houts
    rcases mayEnd_clearRecord hclear with ⟨-, rfl⟩ | ⟨-, hreason⟩
    · exact ⟨hdeletes, by rw [hregistry]⟩
    · exact absurd hok hreason
  · obtain ⟨done, m₂, -, h⟩ := MayEnd.bind_ok h
    split_ifs at h
    · obtain ⟨_, m₃, -, h⟩ := MayEnd.bind_ok h
      obtain ⟨houts, -⟩ := MayEnd.pure h
      obtain rfl := Except.ok.inj houts
      cases hok
    · obtain ⟨houts, -⟩ := MayEnd.pure h
      obtain rfl := Except.ok.inj houts
      cases hok

/-- **A removal together with a cleanup**, if both succeed, had the record of the PATH as it
was. -/
theorem mayEnd_removePathAndCleanupState {absolute : Bool} {outs : Outcome × Outcome}
    (h : MayEnd disk.act (removePathAndCleanupState absolute) m (.ok outs) m')
    (hremove : outs.1.reason = none) (hcleanup : outs.2.reason = none) :
    ∃ o, IsOwned m.registry o ∧ disk.Deletes m.disk m'.disk ∧
      m'.registry = ⟨some ⟨join (split o.path).dropLast, o.type⟩, none⟩ := by
  have hrefused : ∀ {out : Outcome} {reason : String} {m₁ : Machine σ},
      ¬MayEnd disk.act (pure (out, ⟨false, some reason⟩) : Executing (Outcome × Outcome)) m₁
        (.ok outs) m' := by
    intro out reason m₁ h
    obtain ⟨houts, -⟩ := h.pure
    obtain rfl := Except.ok.inj houts
    cases hcleanup
  unfold removePathAndCleanupState at h
  split_ifs at h
  · exact absurd h hrefused
  obtain ⟨recorded, m₁, hrecorded, h⟩ := MayEnd.bind_ok h
  obtain ⟨rfl, rfl⟩ := mayEnd_readRecord hrecorded
  rcases howned : m₁.registry.record.bind owned with _ | o
  · rw [howned] at h
    exact absurd h hrefused
  rw [howned] at h
  dsimp only at h
  split_ifs at h with hlast
  · exact absurd h hrefused
  rw [not_not] at hlast
  obtain ⟨current, m₂, hread, h⟩ := MayEnd.bind_ok h
  obtain ⟨rfl, rfl⟩ := mayEnd_readPath hread
  split_ifs at h with hchanged
  · exact absurd h hrefused
  · -- The cleanup sees the PATH that is not the recorded one, too.
    obtain ⟨out, m₃, hstate, h⟩ := MayEnd.bind_ok h
    obtain ⟨houts, rfl⟩ := MayEnd.pure h
    obtain rfl := Except.ok.inj houts
    rcases mayEnd_cleanupLiteralState hstate with ⟨o', ho', -⟩ | ⟨-, hreason⟩
    · have hsame := ho'.record.symm.trans howned
      obtain rfl := Option.some.inj hsame
      exact absurd ho'.path hchanged
    · exact absurd hcleanup hreason
  rw [not_not] at hchanged
  obtain ⟨done, m₃, hdone, h⟩ := MayEnd.bind_ok h
  obtain rfl := mayEnd_changePath hchanged hdone
  split_ifs at h
  · obtain ⟨_, m₄, hnotify, h⟩ := MayEnd.bind_ok h
    obtain rfl := (MayEnd.call hnotify).2
    obtain ⟨recorded, m₅, hrecorded, h⟩ := MayEnd.bind_ok h
    obtain ⟨rfl, rfl⟩ := mayEnd_readRecord hrecorded
    split_ifs at h
    · exact absurd h hrefused
    obtain ⟨current, m₆, hread, h⟩ := MayEnd.bind_ok h
    obtain ⟨rfl, rfl⟩ := mayEnd_readPath hread
    split_ifs at h
    · exact absurd h hrefused
    · exact ⟨o, ⟨howned, hlast, hchanged⟩, mayEnd_deleteOrRestore h hcleanup⟩
  · exact absurd h hrefused

/-- A path operation that succeeds is its transaction, and leaves the disk as it is. -/
theorem mayEnd_pathOperation {o : Operation} {t : Transacting Outcome} {x : Record}
    (h : MayEnd disk.act (pathOperation o t) m (.ok x) m') (hok : x.2 = none) :
    ∃ out r', MayEnd Op.perform t m.registry (.ok out) r' ∧ out.reason = none ∧
      m' = { m with registry := r' } := by
  obtain ⟨y, m₁, houtcome, h⟩ := MayEnd.bind_ok h
  obtain ⟨z, hz, hlift⟩ := houtcome.outcome
  obtain rfl := Except.ok.inj hz
  obtain ⟨r', hrun, rfl⟩ := MayEnd.lift Machine.registry
    (fun m r => { m with registry := r }) (fun _ _ => rfl) (fun _ _ _ => rfl) (fun _ => rfl)
    (fun _ _ => rfl) hlift
  rcases y with (_ | _) | out
  · obtain ⟨hx, -⟩ := MayEnd.pure h
    rw [Except.ok.inj hx] at hok
    cases hok
  · obtain ⟨events, raises, n, h⟩ := h
    cases (Ran.mk.inj h).1
  · obtain ⟨hx, rfl⟩ := MayEnd.pure h
    rw [Except.ok.inj hx] at hok
    exact ⟨out, r', hrun, hok, rfl⟩

end Cleanup

end SetupAssist

end YasbLimitora

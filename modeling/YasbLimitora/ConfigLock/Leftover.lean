import Mathlib
import YasbLimitora.ConfigLock.Program
import YasbLimitora.Lib.Schedule

/-!
# What a failed acquisition leaves behind

`_fallback_lease` by itself, on a disk of which any step may fail. A marker is at its path
from the moment it is created, and only then written; where a step fails in between, the
handle is closed and the marker left. It is left for good: nobody takes over a marker that
tells no owner, or one whose owner lives.

Faults are given by a schedule that says for each operation whether it fails, and how: the
operations are numbered in the order in which they are made. A fault at a write may leave a part of
the bytes on the disk. So the condition of `YasbLimitora.ConfigLock.leavesNothing_iff` is one on the
schedule, the marker that was there and the table of processes: a failed acquisition leaves nothing
behind exactly if it did not come to create a marker.

The steps are specified one by one, each with the disk that it ends in and with the number of
operations that it took, so that the schedules of two steps in a row can be told apart.
-/

namespace YasbLimitora

namespace ConfigLock

/-- What is open by a handle. -/
inductive Opening
  | parent
  | marker
deriving DecidableEq

/-- The directory of the configuration, as the one process sees it that uses it. -/
structure Disk where
  /-- What stands in the file at the path of the marker, if there is one. -/
  marker : Option Bytes
  /-- The file is deleted, and goes with the last handle on it. -/
  deleted : Bool
  /-- The handles that are open: those that no close was called for. -/
  handles : List (ℕ × Opening)

namespace Disk

def clean (marker : Option Bytes) : Disk := ⟨marker, false, []⟩

/-- A handle that is not in use. -/
def fresh (d : Disk) : ℕ := (d.handles.map Prod.fst).sum + 1

def opened (d : Disk) (t : Opening) : Disk := { d with handles := (d.fresh, t) :: d.handles }

def find (d : Disk) (handle : ℕ) : Option Opening := d.handles.lookup handle

/-- A deleted file goes if no handle is open on it. -/
def settle (d : Disk) : Disk :=
  if d.deleted ∧ ∀ p ∈ d.handles, p.2 ≠ .marker then { d with marker := none, deleted := false } else d

def closed (d : Disk) (handle : ℕ) : Disk :=
  settle { d with handles := d.handles.filter fun p => p.1 ≠ handle }

def write (d : Disk) (data : Bytes) : Disk := { d with marker := d.marker.map (· ++ data) }

end Disk

/-- How an operation goes wrong: a write has written some bytes nevertheless, and may report
them. -/
structure Fault where
  written : ℕ
  reported : Bool

section Disks

variable (table : ℕ → ProcessToken)

/-- What an operation answers that does not fail. -/
def attempt : (o : Op) → Disk → o.Resp × Disk
  | .usableNs, d => ((1 : ℤ), d)
  | .createFile .parent, d => (some d.fresh, d.opened .parent)
  | .createFile .createNew, d =>
    if d.marker = none then
      (some d.fresh, { d.opened .marker with marker := some [] })
    else (none, d)
  | .createFile .openExisting, d =>
    if d.marker ≠ none ∧ d.deleted = false then (some d.fresh, d.opened .marker) else (none, d)
  | .queryInfo handle, d => ((d.find handle).map fun t => Info.mk false (decide (t = .parent)) (0, 0, 0), d)
  | .finalPath _, d => (true, d)
  | .readFile handle, d =>
    (if d.find handle = some .marker then d.marker.map fun content => content.take (MARKER_MAX_BYTES + 1)
      else none, d)
  | .writeFile handle data, d =>
    if d.find handle = some .marker then (data.length, d.write data) else ((0 : ℕ), d)
  | .flush _, d => (true, d)
  | .setDisposition handle, d =>
    if d.find handle = some .marker then (true, { d with deleted := true }) else (false, d)
  | .close handle, d => (true, d.closed handle)
  | .processToken pid, d => (table pid, d)
  | .rounds, d => ((0 : ℕ), d)
  | .createMutex, d => (false, d)
  | .waitMutex, d => (Wait.failed, d)
  | .releaseMutex, d => (false, d)
  | .closeMutex, d => (false, d)
  | .body _, d => ((), d)

/-- What an operation answers that fails. The deadline may pass. What is asked about is the close
calls that are made, so that a handle counts as open until there is one; and `CloseHandle` fails for
a handle that is not open, which none is that is closed here. A close may therefore be reported to
have failed, but leaves no handle open. -/
def failed (x : Fault) : (o : Op) → Disk → o.Resp × Disk
  | .usableNs, d => ((0 : ℤ), d)
  | .createFile _, d => (none, d)
  | .queryInfo _, d => (none, d)
  | .finalPath _, d => (false, d)
  | .readFile _, d => (none, d)
  | .writeFile handle data, d =>
    if d.find handle = some .marker then
      (if x.reported then (data.take x.written).length else (0 : ℕ), d.write (data.take x.written))
    else ((0 : ℕ), d)
  | .flush _, d => (false, d)
  | .setDisposition _, d => (false, d)
  | .close handle, d => (false, d.closed handle)
  | .processToken _, d => (.unknown, d)
  | .rounds, d => ((0 : ℕ), d)
  | .createMutex, d => (false, d)
  | .waitMutex, d => (Wait.failed, d)
  | .releaseMutex, d => (false, d)
  | .closeMutex, d => (false, d)
  | .body _, d => ((), d)

def answer (x : Option Fault) (o : Op) (d : Disk) : o.Resp × Disk :=
  match x with
  | none => attempt table o d
  | some x => failed x o d

/-- A disk of which some steps fail. -/
def faulty (faults : ℕ → Option Fault) : Schedule Op Op.Resp Disk where
  others _ d := d
  answer n o d := answer table (faults n) o d

/-- The acquisition by the process with an identifier. -/
def acquisition (pid rounds : ℕ) (faults : ℕ → Option Fault) (d : Disk) :
    Ran Op Op.Resp Disk (Except LeaseError MarkerLease) :=
  Prog.run (faulty table faults) 0 (fallbackLease pid rounds) d

/-- A process acquires the lease where nothing fails, if it is given the time. -/
def Acquires (pid : ℕ) (d : Disk) : Prop :=
  ∃ rounds lease, (acquisition table pid rounds (fun _ => none) d).result = .ok lease

/-! ### Steps -/

variable {table} {d : Disk} {faults : ℕ → Option Fault} {n : ℕ} {α : Type}

/-- Where no fault strikes, the file system answers as it is. -/
theorem answer_of_none {o : Op} (h : faults n = none) :
    (faulty table faults).answer n o d = attempt table o d := by
  simp only [faulty, answer, h]

/-- Where one does, the answer is a failure. -/
theorem answer_of_ne_none {o : Op} (h : faults n ≠ none) :
    ∃ x, (faulty table faults).answer n o d = failed x o d := by
  obtain ⟨x, hx⟩ := Option.ne_none_iff_exists'.1 h
  exact ⟨x, by simp only [faulty, answer, hx]⟩

/-- None of the next operations fails. -/
def Clear (faults : ℕ → Option Fault) (n count : ℕ) : Prop := ∀ i < count, faults (n + i) = none

namespace Clear

@[simp] theorem zero : Clear faults n 0 := fun _ h => absurd h (Nat.not_lt_zero _)

/-- Nothing strikes for some steps if it does not strike the first, nor the others. -/
theorem succ_iff {count : ℕ} : Clear faults n (count + 1) ↔ faults n = none ∧ Clear faults (n + 1) count := by
  constructor
  · intro h
    refine ⟨h 0 (Nat.succ_pos _), fun i hi => ?_⟩
    have hnext := h (i + 1) (Nat.succ_lt_succ hi)
    rwa [Nat.add_assoc, Nat.add_comm 1]
  · rintro ⟨hfirst, hrest⟩ i hi
    cases i with
    | zero => exact hfirst
    | succ i =>
      have hnext := hrest i (Nat.lt_of_succ_lt_succ hi)
      rwa [Nat.add_assoc, Nat.add_comm 1] at hnext

/-- Nothing strikes for two stretches in a row if it strikes neither. -/
theorem add_iff (first second : ℕ) :
    Clear faults n (first + second) ↔ Clear faults n first ∧ Clear faults (n + first) second := by
  constructor
  · intro h
    refine ⟨fun i hi => h i (Nat.lt_add_right _ hi), fun i hi => ?_⟩
    rw [Nat.add_assoc]
    exact h _ (Nat.add_lt_add_left hi _)
  · rintro ⟨hfirst, hsecond⟩ i hi
    rcases Nat.lt_or_ge i first with hlt | hge
    · exact hfirst i hlt
    · have hnext := hsecond (i - first) (by omega)
      rwa [Nat.add_assoc, Nat.add_sub_of_le hge] at hnext

end Clear

/-- An operation comes to what it comes to with no fault, or with one. -/
theorem ends_op {o : Op} {k : o.Resp → Locking α} {Q : α → ℕ → Disk → Prop}
    (hnone : faults n = none → Prog.Ends (faulty table faults) (n + 1) (k (attempt table o d).1)
      (attempt table o d).2 Q)
    (hsome : faults n ≠ none → ∀ x, Prog.Ends (faulty table faults) (n + 1) (k (failed x o d).1)
      (failed x o d).2 Q) :
    Prog.Ends (faulty table faults) n (.op o k) d Q := by
  by_cases h : faults n = none
  · exact .op (answer_of_none h) (hnone h)
  · obtain ⟨x, hx⟩ := answer_of_ne_none h
    exact .op hx (hsome h x)

/-- **One operation**: it is answered as the file system is, or it fails. -/
theorem ends_perform {o : Op} {f : o.Resp → Locking α} {Q : α → ℕ → Disk → Prop}
    (hnone : faults n = none → Prog.Ends (faulty table faults) (n + 1) (f (attempt table o d).1)
      (attempt table o d).2 Q)
    (hsome : faults n ≠ none → ∀ x, Prog.Ends (faulty table faults) (n + 1) (f (failed x o d).1)
      (failed x o d).2 Q) :
    Prog.Ends (faulty table faults) n (perform o >>= f) d Q :=
  ends_op hnone hsome

/-- A handle that was just opened is that of what was opened. -/
theorem find_opened (t : Opening) : (d.opened t).find d.fresh = some t := by
  simp only [Disk.find, Disk.opened, List.lookup_cons_self]

/-! ### The parent directory -/

/-- The parent is recognized by two operations, if neither fails. -/
theorem isParent_ends {handle : ℕ} (h : d.find handle = some .parent) :
    Prog.Ends (faulty table faults) n (isParent handle) d fun a m d' =>
      d' = d ∧ (a = true ∧ Clear faults n 2 ∧ m = n + 2 ∨ a = false ∧ ¬Clear faults n 2) := by
  have hinfo : attempt table (.queryInfo handle) d = (some ⟨false, true, (0, 0, 0)⟩, d) := by
    rw [attempt, h]
    rfl
  refine ends_perform (fun hfirst => ?_) (fun hfirst x => ?_)
  · rw [hinfo]
    refine ends_perform (fun hsecond => ?_) (fun hsecond x => ?_)
    · exact ⟨rfl, .inl ⟨rfl, by simp [Clear.succ_iff, hfirst, hsecond], rfl⟩⟩
    · exact ⟨rfl, .inr ⟨rfl, by simp [Clear.succ_iff, hsecond]⟩⟩
  · exact ⟨rfl, .inr ⟨rfl, by simp [Clear.succ_iff, hfirst]⟩⟩

/-- The next handle is none of those that are open. -/
theorem fresh_not_mem : ∀ p ∈ d.handles, p.1 ≠ d.fresh := by
  intro p hp
  have hle := List.single_le_sum (fun _ _ => Nat.zero_le _) p.1 (List.mem_map_of_mem hp)
  exact Nat.ne_of_lt (Nat.lt_succ_of_le hle)

/-- What is opened and closed again leaves nothing. -/
theorem closed_opened (t : Opening) (h : d.deleted = false) : (d.opened t).closed d.fresh = d := by
  have hfilter : ((d.fresh, t) :: d.handles).filter (fun p => p.1 ≠ d.fresh) = d.handles := by
    rw [List.filter_cons_of_neg (by simp), List.filter_eq_self]
    exact fun p hp => decide_eq_true (fresh_not_mem p hp)
  unfold Disk.closed Disk.settle
  rw [if_neg (by simp [Disk.opened, h])]
  simp only [Disk.opened, hfilter]

/-- A close is one operation, and its answer is of no account. -/
theorem safeClose_ends {handle : ℕ} {Q : Unit → ℕ → Disk → Prop} (h : Q () (n + 1) (d.closed handle)) :
    Prog.Ends (faulty table faults) n (safeClose handle) d Q :=
  ends_perform (fun _ => h) fun _ _ => h

/-- The parent is opened and verified by three operations, or it is left closed. -/
theorem verifyParent_ends (h : d.deleted = false) :
    Prog.Ends (faulty table faults) n verifyParent d fun a m d' =>
      a = some d.fresh ∧ Clear faults n 3 ∧ m = n + 3 ∧ d' = d.opened .parent ∨
        a = none ∧ ¬Clear faults n 3 ∧ d' = d := by
  refine ends_perform (fun hfirst => .bind ?_) (fun hfirst x => ?_)
  · refine Prog.Ends.conseq (isParent_ends (find_opened .parent)) ?_
    rintro a m d' ⟨rfl, ⟨rfl, hclear, rfl⟩ | ⟨rfl, hclear⟩⟩
    · exact .ret (.inl ⟨rfl, Clear.succ_iff.2 ⟨hfirst, hclear⟩, by omega, rfl⟩)
    · refine .bind (safeClose_ends ?_)
      exact .inr ⟨rfl, fun hall => hclear (Clear.succ_iff.1 hall).2, closed_opened _ h⟩
  · exact .inr ⟨rfl, fun hall => hfirst (Clear.succ_iff.1 hall).1, rfl⟩

/-! ### The marker that is created -/

variable {content : Bytes}

/-- The marker is a regular file, and always the same one. -/
theorem info_of_find {handle : ℕ} (h : d.find handle = some .marker) :
    attempt table (.queryInfo handle) d = (some ⟨false, false, (0, 0, 0)⟩, d) := by
  rw [attempt, h]
  rfl

/-- The marker is identified by two operations, if neither fails. -/
theorem regularIdentity_ends {handle : ℕ} (h : d.find handle = some .marker) :
    Prog.Ends (faulty table faults) n (regularIdentity handle) d fun a m d' =>
      d' = d ∧ (a = some (0, 0, 0) ∧ Clear faults n 2 ∧ m = n + 2 ∨ a = none ∧ ¬Clear faults n 2) := by
  refine ends_perform (fun hfirst => ?_) (fun hfirst x => ?_)
  · rw [info_of_find h]
    refine ends_perform (fun hsecond => ?_) (fun hsecond x => ?_)
    · exact ⟨rfl, .inl ⟨rfl, by simp [Clear.succ_iff, hfirst, hsecond], rfl⟩⟩
    · exact ⟨rfl, .inr ⟨rfl, by simp [Clear.succ_iff, hsecond]⟩⟩
  · exact ⟨rfl, .inr ⟨rfl, by simp [Clear.succ_iff, hfirst]⟩⟩

/-- A marker that exists is identified in the same way. -/
theorem existingIdentity_ends {handle : ℕ} (h : d.find handle = some .marker) :
    Prog.Ends (faulty table faults) n (existingIdentity handle) d fun a m d' =>
      d' = d ∧ (a = some (0, 0, 0) ∧ Clear faults n 2 ∧ m = n + 2 ∨ a = none ∧ ¬Clear faults n 2) := by
  refine ends_perform (fun hfirst => ?_) (fun hfirst x => ?_)
  · rw [info_of_find h]
    refine ends_perform (fun hsecond => ?_) (fun hsecond x => ?_)
    · exact ⟨rfl, .inl ⟨rfl, by simp [Clear.succ_iff, hfirst, hsecond], rfl⟩⟩
    · exact ⟨rfl, .inr ⟨rfl, by simp [Clear.succ_iff, hsecond]⟩⟩
  · exact ⟨rfl, .inr ⟨rfl, by simp [Clear.succ_iff, hfirst]⟩⟩

/-- The disk with an empty marker that was just created. -/
def Disk.creating (d : Disk) : Disk := { d.opened .marker with marker := some [] }

theorem find_creating : d.creating.find d.fresh = some .marker := find_opened .marker

/-- A marker whose creation is given up stays behind, empty. -/
theorem closed_creating (h : d.deleted = false) :
    d.creating.closed d.fresh = { d with marker := some [] } :=
  closed_opened (d := { d with marker := some [] }) .marker h

/-- A marker is created by three operations; where one of the last two fails it stays behind, empty. -/
theorem createExclusive_ends (hmarker : d.marker = none) (h : d.deleted = false) :
    Prog.Ends (faulty table faults) n createExclusive d fun a m d' =>
      a = some ⟨d.fresh, (0, 0, 0)⟩ ∧ Clear faults n 3 ∧ m = n + 3 ∧ d' = d.creating ∨
        a = none ∧ faults n = none ∧ ¬Clear faults n 3 ∧ d' = { d with marker := some [] } ∨
        a = none ∧ faults n ≠ none ∧ d' = d := by
  refine ends_perform (fun hfirst => ?_) (fun hfirst x => ?_)
  · have hcreated : attempt table (.createFile .createNew) d = (some d.fresh, d.creating) :=
      if_pos hmarker
    rw [hcreated]
    refine .bind (Prog.Ends.conseq (regularIdentity_ends find_creating) ?_)
    rintro a m d' ⟨rfl, ⟨rfl, hclear, rfl⟩ | ⟨rfl, hclear⟩⟩
    · exact .ret (.inl ⟨rfl, Clear.succ_iff.2 ⟨hfirst, hclear⟩, by omega, rfl⟩)
    · refine .bind (safeClose_ends ?_)
      exact .inr (.inl ⟨rfl, hfirst, fun hall => hclear (Clear.succ_iff.1 hall).2, closed_creating h⟩)
  · exact .inr (.inr ⟨rfl, hfirst, rfl⟩)

/-- Where there is a marker none is created. -/
theorem createExclusive_taken (hmarker : d.marker = some content) :
    Prog.Ends (faulty table faults) n createExclusive d fun a m d' => a = none ∧ m = n + 1 ∧ d' = d := by
  refine ends_perform (fun hfirst => ?_) (fun hfirst x => ?_)
  · have hrefused : attempt table (.createFile .createNew) d = (none, d) :=
      if_neg (by rw [hmarker]; exact Option.some_ne_none _)
    rw [hrefused]
    exact .ret ⟨rfl, rfl, rfl⟩
  · exact .ret ⟨rfl, rfl, rfl⟩

/-! ### The marker that is there -/

theorem opened_existing (hmarker : d.marker = some content) (h : d.deleted = false) :
    attempt table (.createFile .openExisting) d = (some d.fresh, d.opened .marker) :=
  if_pos ⟨by rw [hmarker]; exact Option.some_ne_none _, h⟩

/-- A marker is opened and identified by three operations, or it is left closed. -/
theorem openMarker_ends (hmarker : d.marker = some content) (h : d.deleted = false) :
    Prog.Ends (faulty table faults) n openMarker d fun a m d' =>
      a = some ⟨d.fresh, (0, 0, 0)⟩ ∧ Clear faults n 3 ∧ m = n + 3 ∧ d' = d.opened .marker ∨
        a = none ∧ ¬Clear faults n 3 ∧ d' = d := by
  refine ends_perform (fun hfirst => ?_) (fun hfirst x => ?_)
  · rw [opened_existing hmarker h]
    refine .bind (Prog.Ends.conseq (existingIdentity_ends (find_opened .marker)) ?_)
    rintro a m d' ⟨rfl, ⟨rfl, hclear, rfl⟩ | ⟨rfl, hclear⟩⟩
    · exact .ret (.inl ⟨rfl, Clear.succ_iff.2 ⟨hfirst, hclear⟩, by omega, rfl⟩)
    · refine .bind (safeClose_ends ?_)
      exact .inr ⟨rfl, fun hall => hclear (Clear.succ_iff.1 hall).2, closed_opened _ h⟩
  · exact .ret (.inr ⟨rfl, fun hall => hfirst (Clear.succ_iff.1 hall).1, rfl⟩)

/-- Where there is none, none is opened. -/
theorem openMarker_absent (hmarker : d.marker = none) :
    Prog.Ends (faulty table faults) n openMarker d fun a _ d' => a = none ∧ d' = d := by
  refine ends_perform (fun hfirst => ?_) (fun hfirst x => ?_)
  · have hrefused : attempt table (.createFile .openExisting) d = (none, d) :=
      if_neg fun hthere => hthere.1 hmarker
    rw [hrefused]
    exact .ret ⟨rfl, rfl⟩
  · exact .ret ⟨rfl, rfl⟩

/-- The owner that the content of a marker tells is gone, as a process finds it that is
another. -/
def Gone (table : ℕ → ProcessToken) (own : ℕ) (content : Bytes) : Prop :=
  ∃ pid token, decodeMarker content = some (pid, token) ∧ pid ≠ own ∧
    (table pid = .missing ∨ ∃ current, table pid = .token current ∧ Text.ofString current ≠ token)

/-- An owner is taken to be gone only if the process table was asked, and says so. -/
theorem ownerGone_ends {own : ℕ} {data : Bytes} :
    Prog.Ends (faulty table faults) n (ownerGone own data) d fun a m d' =>
      d' = d ∧ (a = true ∧ Gone table own data ∧ faults n = none ∧ m = n + 1 ∨
        a = false ∧ ¬(Gone table own data ∧ faults n = none)) := by
  unfold ownerGone
  split
  · rename_i hnone
    refine ⟨rfl, .inr ⟨rfl, ?_⟩⟩
    rintro ⟨⟨pid, token, hsome, -⟩, -⟩
    exact absurd (hnone.symm.trans hsome) (Option.some_ne_none _).symm
  · rename_i pid token hdecode
    have hgone : Gone table own data ↔ pid ≠ own ∧
        (table pid = .missing ∨ ∃ current, table pid = .token current ∧ Text.ofString current ≠ token) := by
      constructor
      · rintro ⟨pid', token', hsome, hother⟩
        obtain ⟨rfl, rfl⟩ := Prod.mk.inj (Option.some.inj (hdecode.symm.trans hsome))
        exact hother
      · exact fun hother => ⟨pid, token, hdecode, hother⟩
    rw [hgone]
    by_cases hown : pid = own
    · rw [if_pos hown]
      exact ⟨rfl, .inr ⟨rfl, fun hother => hother.1.1 hown⟩⟩
    · rw [if_neg hown]
      refine ends_perform (fun hfirst => ?_) (fun hfirst x => ?_)
      · cases htable : table pid with
        | missing =>
          simp only [attempt, htable]
          exact .ret ⟨rfl, .inl ⟨rfl, ⟨hown, .inl trivial⟩, hfirst, rfl⟩⟩
        | unknown =>
          simp only [attempt, htable]
          exact .ret ⟨rfl, .inr ⟨rfl, by simp⟩⟩
        | token current =>
          simp only [attempt, htable]
          by_cases hsame : Text.ofString current = token
          · exact .ret ⟨rfl, .inr ⟨by simpa using hsame, by simpa using fun _ h => absurd hsame h⟩⟩
          · exact .ret ⟨rfl, .inl ⟨by simpa using hsame, ⟨hown, .inr ⟨current, rfl, hsame⟩⟩, hfirst, rfl⟩⟩
      · exact .ret ⟨rfl, .inr ⟨rfl, fun hother => hfirst hother.2⟩⟩

/-- A content that is too long for a marker tells no owner. -/
theorem not_gone_of_length {own : ℕ} (h : MARKER_MAX_BYTES < content.length) :
    ¬Gone table own content := by
  rintro ⟨pid, token, hsome, -⟩
  rw [decodeMarker, if_pos (.inr h)] at hsome
  cases hsome

/-- An empty marker names no owner that could be gone. -/
theorem not_gone_nil {own : ℕ} : ¬Gone table own [] := by
  rintro ⟨pid, token, hsome, -⟩
  rw [decodeMarker, if_pos (.inl rfl)] at hsome
  cases hsome

/-- A marker is reclaimed only if it was read, and its owner is gone. -/
theorem reclaimable_ends {own handle : ℕ} (hmarker : d.marker = some content)
    (h : d.find handle = some .marker) :
    Prog.Ends (faulty table faults) n (reclaimable own handle) d fun a m d' =>
      d' = d ∧ (a = true ∧ Gone table own content ∧ Clear faults n 2 ∧ m = n + 2 ∨
        a = false ∧ ¬(Gone table own content ∧ Clear faults n 2)) := by
  have hread : attempt table (.readFile handle) d = (some (content.take (MARKER_MAX_BYTES + 1)), d) := by
    refine Prod.ext ((if_pos h).trans ?_) rfl
    rw [hmarker]
    rfl
  refine .bind (ends_perform (fun hfirst => ?_) (fun hfirst x => ?_))
  · rw [hread]
    by_cases hlong : MARKER_MAX_BYTES < content.length
    · have htake : MARKER_MAX_BYTES < (content.take (MARKER_MAX_BYTES + 1)).length := by
        rw [List.length_take]
        omega
      simp only [if_pos htake]
      exact .ret (.ret ⟨rfl, .inr ⟨rfl, fun hall => not_gone_of_length hlong hall.1⟩⟩)
    · rw [List.take_of_length_le (by omega)]
      simp only [if_neg hlong]
      refine .ret (Prog.Ends.conseq ownerGone_ends ?_)
      rintro a m d' ⟨rfl, ⟨rfl, hgone, hsecond, rfl⟩ | ⟨rfl, hnot⟩⟩
      · exact ⟨rfl, .inl ⟨rfl, hgone, by simp [Clear.succ_iff, hfirst, hsecond], rfl⟩⟩
      · refine ⟨rfl, .inr ⟨rfl, fun hall => hnot ⟨hall.1, ?_⟩⟩⟩
        exact (Clear.succ_iff.1 (Clear.succ_iff.1 hall.2).2).1
  · exact .ret (.ret ⟨rfl, .inr ⟨rfl, fun hall => hfirst (Clear.succ_iff.1 hall.2).1⟩⟩)

/-! ### The marker that is taken over -/

/-- The identity is checked again by four operations, if none fails. -/
theorem identityReopen_ends (hmarker : d.marker = some content) (h : d.deleted = false) :
    Prog.Ends (faulty table faults) n (identityReopen (0, 0, 0)) d fun a m d' =>
      d' = d ∧ (a = true ∧ Clear faults n 4 ∧ m = n + 4 ∨ a = false ∧ ¬Clear faults n 4) := by
  refine ends_perform (fun hfirst => ?_) (fun hfirst x => ?_)
  · rw [opened_existing hmarker h]
    refine .bind (Prog.Ends.conseq (regularIdentity_ends (find_opened .marker)) ?_)
    rintro a m d' ⟨rfl, ⟨rfl, hclear, rfl⟩ | ⟨rfl, hclear⟩⟩
    · have hall : Clear faults n 4 ↔ faults (n + 1 + 2) = none := by
        constructor
        · exact fun hall => hall 3 (by omega)
        · intro hlast
          refine (Clear.add_iff 3 1).2 ?_
          exact ⟨Clear.succ_iff.2 ⟨hfirst, hclear⟩, Clear.succ_iff.2 ⟨by rwa [Nat.add_assoc] at hlast, .zero⟩⟩
      refine ends_perform (fun hlast => ?_) (fun hlast x => ?_)
      · exact .ret ⟨closed_opened _ h, .inl ⟨rfl, hall.2 hlast, by omega⟩⟩
      · exact .ret ⟨closed_opened _ h, .inr ⟨rfl, fun hclear => hlast (hall.1 hclear)⟩⟩
    · have hnot : ¬Clear faults n 4 := fun hall =>
        hclear ((Clear.add_iff 2 1).1 (Clear.succ_iff.1 hall).2).1
      refine ends_perform (fun hlast => ?_) (fun hlast x => ?_)
      · exact .ret ⟨closed_opened _ h, .inr ⟨rfl, hnot⟩⟩
      · exact .ret ⟨closed_opened _ h, .inr ⟨rfl, hnot⟩⟩
  · exact .ret ⟨rfl, .inr ⟨rfl, fun hall => hfirst (Clear.succ_iff.1 hall).1⟩⟩

/-- The marker is marked for deletion by two operations, if neither fails. -/
theorem dispositionDelete_ends {handle : ℕ} (h : d.find handle = some .marker) :
    Prog.Ends (faulty table faults) n (dispositionDelete ⟨handle, (0, 0, 0)⟩) d fun a m d' =>
      a = true ∧ Clear faults n 2 ∧ m = n + 2 ∧ d' = { d with deleted := true } ∨
        a = false ∧ ¬Clear faults n 2 ∧ d' = d := by
  refine ends_perform (fun hfirst => ?_) (fun hfirst x => ?_)
  · rw [info_of_find h]
    refine ends_op (fun hsecond => ?_) (fun hsecond x => ?_)
    · have hset : attempt table (.setDisposition handle) d = (true, { d with deleted := true }) := if_pos h
      rw [hset]
      exact .ret (.inl ⟨rfl, by simp [Clear.succ_iff, hfirst, hsecond], rfl, rfl⟩)
    · exact .ret (.inr ⟨rfl, by simp [Clear.succ_iff, hsecond], rfl⟩)
  · exact .ret (.inr ⟨rfl, by simp [Clear.succ_iff, hfirst], rfl⟩)

/-- A marker that is held is deleted by six operations, after its identity was checked again. -/
theorem deleteHeld_ends {handle : ℕ} (hmarker : d.marker = some content) (h : d.deleted = false)
    (hfind : d.find handle = some .marker) :
    Prog.Ends (faulty table faults) n (deleteHeld ⟨handle, (0, 0, 0)⟩) d fun a m d' =>
      a = true ∧ Clear faults n 6 ∧ m = n + 6 ∧ d' = { d with deleted := true } ∨
        a = false ∧ ¬Clear faults n 6 ∧ d' = d := by
  have hall : Clear faults n 6 ↔ Clear faults n 4 ∧ Clear faults (n + 4) 2 := Clear.add_iff 4 2
  refine .bind (Prog.Ends.conseq (identityReopen_ends hmarker h) ?_)
  rintro a m d' ⟨rfl, ⟨rfl, hclear, rfl⟩ | ⟨rfl, hclear⟩⟩
  · refine Prog.Ends.conseq (dispositionDelete_ends hfind) ?_
    rintro a m d'' (⟨rfl, hrest, rfl, rfl⟩ | ⟨rfl, hrest, rfl⟩)
    · exact .inl ⟨rfl, hall.2 ⟨hclear, hrest⟩, rfl, rfl⟩
    · exact .inr ⟨rfl, fun hboth => hrest (hall.1 hboth).2, rfl⟩
  · exact .ret (.inr ⟨rfl, fun hboth => hclear (hall.1 hboth).1, rfl⟩)

/-- A deleted marker goes with its last handle. -/
theorem closed_deleted (h : ∀ p ∈ d.handles, p.2 ≠ .marker) (hdeleted : d.deleted = false) :
    ({ d.opened .marker with deleted := true } : Disk).closed d.fresh = { d with marker := none } := by
  have hfilter : ((d.fresh, Opening.marker) :: d.handles).filter (fun p => p.1 ≠ d.fresh) = d.handles := by
    rw [List.filter_cons_of_neg (by simp), List.filter_eq_self]
    exact fun p hp => decide_eq_true (fresh_not_mem p hp)
  unfold Disk.closed Disk.settle
  simp only [Disk.opened, hfilter]
  rw [if_pos ⟨trivial, h⟩, hdeleted]

/-- The disk with nothing open but the parent directory. -/
def Disk.inParent (marker : Option Bytes) : Disk := (Disk.clean marker).opened .parent

/-- Once the parent is closed no handle is left. -/
theorem closed_inParent (marker : Option Bytes) :
    (Disk.inParent marker).closed (Disk.clean marker).fresh = Disk.clean marker :=
  closed_opened .parent rfl

theorem fresh_clean (marker : Option Bytes) : (Disk.clean marker).fresh = 1 := rfl

/-- **A marker is reclaimed** by twelve operations, if its owner is gone and none fails. Otherwise the
claim ends with an error, and with the marker or without it, but with no handle left. -/
theorem reclaim_ends {own : ℕ} :
    Prog.Ends (faulty table faults) n (reclaim own 1) (.inParent (some content)) fun a m d' =>
      Gone table own content ∧ Clear faults n 12 ∧ a = .again ∧ m = n + 12 ∧ d' = .inParent none ∨
        ¬(Gone table own content ∧ Clear faults n 12) ∧ ∃ error, a = .failed error ∧
          (d' = .clean (some content) ∨ Gone table own content ∧ d' = .clean none) := by
  set d : Disk := .inParent (some content)
  have hparent : d.closed 1 = .clean (some content) := closed_inParent _
  have hmarker : (d.opened .marker).closed d.fresh = d := closed_opened _ rfl
  have hall : Clear faults n 12 ↔ (((Clear faults n 3 ∧ Clear faults (n + 3) 2) ∧
      Clear faults (n + 3 + 2) 6) ∧ faults (n + 3 + 2 + 6) = none) := by
    rw [← Clear.add_iff, ← Clear.add_iff 5 6, show (12 : ℕ) = 11 + 1 from rfl, Clear.add_iff 11 1,
      Clear.succ_iff (n := n + 11)]
    exact and_congr_right' (and_iff_left .zero)
  -- A marker that is not taken over stays, and both handles on it are closed.
  have hbusy : ∀ {m}, ¬(Gone table own content ∧ Clear faults n 12) →
      Prog.Ends (faulty table faults) m
        (safeClose d.fresh >>= fun _ => safeClose 1 >>= fun _ => pure (Reclaimed.failed .busy))
        (d.opened .marker) fun a m d' =>
          Gone table own content ∧ Clear faults n 12 ∧ a = .again ∧ m = n + 12 ∧ d' = .inParent none ∨
            ¬(Gone table own content ∧ Clear faults n 12) ∧ ∃ error, a = .failed error ∧
              (d' = .clean (some content) ∨ Gone table own content ∧ d' = .clean none) := by
    intro m hnot
    refine .bind (safeClose_ends (.bind (safeClose_ends ?_)))
    rw [hmarker, hparent]
    exact .ret (.inr ⟨hnot, .busy, rfl, .inl rfl⟩)
  refine .bind (Prog.Ends.conseq (openMarker_ends (d := d) rfl rfl) ?_)
  rintro a m d' (⟨rfl, hopen, rfl, rfl⟩ | ⟨rfl, hopen, rfl⟩)
  · refine .bind (Prog.Ends.conseq (reclaimable_ends (rfl : _ = some content) (find_opened .marker)) ?_)
    rintro a m d' ⟨rfl, ⟨rfl, hgone, hread, rfl⟩ | ⟨rfl, hread⟩⟩
    · refine .bind (Prog.Ends.conseq (deleteHeld_ends (rfl : _ = some content) rfl (find_opened .marker)) ?_)
      rintro a m d' (⟨rfl, hdelete, rfl, rfl⟩ | ⟨rfl, hdelete, rfl⟩)
      · have hgoes : ({ d.opened .marker with deleted := true } : Disk).closed d.fresh = .inParent none :=
          closed_deleted (fun p hp => by rw [List.mem_singleton.1 hp]; exact nofun) rfl
        refine ends_perform (fun hlast => ?_) (fun hlast x => ?_)
        · exact .ret (.inl ⟨hgone, hall.2 ⟨⟨⟨hopen, hread⟩, hdelete⟩, hlast⟩, rfl, by omega, hgoes⟩)
        · refine .bind (safeClose_ends ?_)
          rw [failed, hgoes]
          refine .ret (.inr ⟨fun hboth => hlast (hall.1 hboth.2).2, .releaseFailed, rfl, .inr ⟨hgone, ?_⟩⟩)
          exact closed_inParent _
      · exact hbusy fun hboth => hdelete (hall.1 hboth.2).1.2
    · exact .bind (.ret (hbusy fun hboth => hread ⟨hboth.1, (hall.1 hboth.2).1.1.2⟩))
  · refine .bind (safeClose_ends ?_)
    rw [hparent]
    exact .ret (.inr ⟨fun hboth => hopen (hall.1 hboth.2).1.1.1, .busy, rfl, .inl rfl⟩)

/-- Where the marker is gone by then, the claim ends with an error. -/
theorem reclaim_absent {own : ℕ} :
    Prog.Ends (faulty table faults) n (reclaim own 1) (.inParent none) fun a _ d' =>
      ∃ error, a = .failed error ∧ d' = .clean none := by
  refine .bind (Prog.Ends.conseq (openMarker_absent rfl) ?_)
  rintro a m d' ⟨rfl, rfl⟩
  refine .bind (safeClose_ends ?_)
  exact .ret ⟨.busy, rfl, closed_inParent none⟩

/-! ### The marker that is written -/

/-- Some of the data is written, and all of it where nothing fails. -/
theorem writeAll_ends {handle fuel : ℕ} {data : Bytes} (hmarker : d.marker = some content)
    (h : d.find handle = some .marker) (hfuel : data.length ≤ fuel) :
    Prog.Ends (faulty table faults) n (writeAll handle fuel data) d fun a _ d' =>
      (∃ part, part <+: data ∧ d' = { d with marker := some (content ++ part) }) ∧
        ((∀ k, faults k = none) → a = true) := by
  have hnothing : ∃ part, part <+: data ∧ d = { d with marker := some (content ++ part) } :=
    ⟨[], List.nil_prefix, by rw [List.append_nil, ← hmarker]⟩
  induction fuel generalizing n d content data with
  | zero =>
    obtain rfl := List.eq_nil_of_length_eq_zero (Nat.le_zero.1 hfuel)
    exact ⟨hnothing, fun _ => rfl⟩
  | succ fuel ih =>
    rw [writeAll]
    by_cases hdata : data = []
    · rw [if_pos hdata]
      exact ⟨hnothing, fun _ => rfl⟩
    · have hlength : 0 < data.length := List.length_pos_of_ne_nil hdata
      rw [if_neg hdata]
      -- What comes after a write that tells how much of the data was written.
      have hstep : ∀ {m k} {written : Bytes}, k ≤ written.length → written <+: data →
          (k ≠ 0 → written = data.take k) → ((∀ k, faults k = none) → k = data.length) →
          Prog.Ends (faulty table faults) m
            (if k = 0 ∨ data.length < k then pure false else writeAll handle fuel (data.drop k))
            { d with marker := some (content ++ written) } fun a _ d' =>
              (∃ part, part <+: data ∧ d' = { d with marker := some (content ++ part) }) ∧
                ((∀ k, faults k = none) → a = true) := by
        intro m k written hk hpart htold hclear
        by_cases hzero : k = 0
        · rw [if_pos (.inl hzero)]
          exact .ret ⟨⟨written, hpart, rfl⟩, fun hall => absurd (hclear hall) (by omega)⟩
        · have hle := hpart.length_le
          rw [if_neg (by omega)]
          have hrest : (data.drop k).length ≤ fuel := by
            rw [List.length_drop]
            omega
          refine Prog.Ends.conseq (ih (rfl : _ = some (content ++ written)) h hrest
            ⟨[], List.nil_prefix, by rw [List.append_nil]⟩) ?_
          rintro a m d' ⟨⟨part, hprefix, rfl⟩, htrue⟩
          refine ⟨⟨written ++ part, ?_, by rw [List.append_assoc]⟩, htrue⟩
          rw [htold hzero]
          conv_rhs => rw [← List.take_append_drop k data]
          exact (List.prefix_append_right_inj _).2 hprefix
      have hwrite : ∀ written, d.write written = { d with marker := some (content ++ written) } := by
        intro written
        rw [Disk.write, hmarker]
        rfl
      refine ends_perform (fun hfirst => ?_) (fun hfirst x => ?_)
      · have hanswer : attempt table (.writeFile handle data) d = (data.length, d.write data) := if_pos h
        rw [hanswer, hwrite]
        exact hstep le_rfl List.prefix_rfl (fun _ => (List.take_length).symm) fun _ => rfl
      · have hanswer : failed x (.writeFile handle data) d =
            (if x.reported then (data.take x.written).length else (0 : ℕ), d.write (data.take x.written)) :=
          if_pos h
        rw [hanswer, hwrite]
        refine hstep ?_ (List.take_prefix _ _) ?_ fun hall => absurd (hall n) hfirst
        · split
          · exact le_rfl
          · exact Nat.zero_le _
        · intro hk
          have hreported : x.reported = true := by
            by_contra hnot
            rw [if_neg hnot] at hk
            exact hk rfl
          rw [if_pos hreported, List.length_take, ← List.take_take, List.take_length]

/-- What a process writes into its marker. -/
def Records (table : ℕ → ProcessToken) (own : ℕ) (data : Bytes) : Prop :=
  ∃ token, table own = .token token ∧ encodeMarker own (Text.ofString token) = some data

/-- The owner is written into the marker, the whole of it or a part. -/
theorem recordOwner_ends {own handle : ℕ} (hmarker : d.marker = some [])
    (h : d.find handle = some .marker) :
    Prog.Ends (faulty table faults) n (recordOwner own handle) d fun a _ d' =>
      (∃ part, (∀ data, Records table own data → part <+: data) ∧ d' = { d with marker := some part }) ∧
        (a = true → ∃ data, Records table own data) ∧
        ((∀ k, faults k = none) → (∃ data, Records table own data) → a = true) := by
  have hnothing : ∃ part : Bytes, (∀ data, Records table own data → part <+: data) ∧
      d = { d with marker := some part } := ⟨[], fun _ _ => List.nil_prefix, by rw [← hmarker]⟩
  refine ends_perform (fun hfirst => ?_) (fun hfirst x => ?_)
  · cases htable : table own with
    | token token =>
      simp only [attempt, htable]
      cases hencode : encodeMarker own (Text.ofString token) with
      | none =>
        refine .ret ⟨hnothing, nofun, ?_⟩
        rintro - ⟨data, token', htoken, hdata⟩
        obtain rfl := ProcessToken.token.inj (htable.symm.trans htoken)
        exact absurd (hencode.symm.trans hdata) (Option.some_ne_none _).symm
      | some data =>
        have howns : Records table own data := ⟨token, htable, hencode⟩
        have honly : ∀ data', Records table own data' → data' = data := by
          rintro data' ⟨token', htoken, hdata⟩
          obtain rfl := ProcessToken.token.inj (htable.symm.trans htoken)
          exact Option.some.inj (hdata.symm.trans hencode)
        obtain ⟨hne, hlength⟩ := length_of_encodeMarker hencode
        dsimp only
        rw [writeMarker, if_neg (by simp [hne, hlength])]
        refine .bind (Prog.Ends.conseq (writeAll_ends hmarker h le_rfl) ?_)
        rintro a m d' ⟨⟨part, hpart, rfl⟩, htrue⟩
        have hleft : ∃ part', (∀ data', Records table own data' → part' <+: data') ∧
            ({ d with marker := some ([] ++ part) } : Disk) = { d with marker := some part' } :=
          ⟨part, fun data' hdata => honly data' hdata ▸ hpart, rfl⟩
        cases a with
        | false => exact .ret ⟨hleft, nofun, fun hall _ => absurd (htrue hall) Bool.false_ne_true⟩
        | true =>
          refine ends_op (fun hflush => ?_) (fun hflush x => ?_)
          · exact .ret ⟨hleft, fun _ => ⟨data, howns⟩, fun _ _ => rfl⟩
          · exact .ret ⟨hleft, nofun, fun hall => absurd (hall m) hflush⟩
    | missing =>
      simp only [attempt, htable]
      refine .ret ⟨hnothing, nofun, ?_⟩
      rintro - ⟨data, token, htoken, -⟩
      exact absurd (htable.symm.trans htoken) nofun
    | unknown =>
      simp only [attempt, htable]
      refine .ret ⟨hnothing, nofun, ?_⟩
      rintro - ⟨data, token, htoken, -⟩
      exact absurd (htable.symm.trans htoken) nofun
  · exact .ret ⟨hnothing, nofun, fun hall => absurd (hall n) hfirst⟩

/-! ### The acquisition -/

/-- The loop gets to create a marker, with an operation that comes next and rounds left.
Where one is there already it is taken over in the round before, in which the creation is
refused, be there a fault or not. -/
def Creating (table : ℕ → ProcessToken) (own : ℕ) (faults : ℕ → Option Fault) (n rounds : ℕ) :
    Option Bytes → Prop
  | none => 0 < rounds ∧ Clear faults n 2
  | some content => Gone table own content ∧ 1 < rounds ∧ faults n = none ∧ Clear faults (n + 2) 14

/-- What an acquisition comes to, if it gets to create a marker or if it does not. -/
def Settled (table : ℕ → ProcessToken) (own : ℕ) (faults : ℕ → Option Fault) (marker : Option Bytes)
    (creates : Prop) : Except LeaseError MarkerLease → Disk → Prop
  | .ok _, _ => creates ∧ ∃ data, Records table own data
  | .error _, d =>
    creates ∧ ¬((∃ data, Records table own data) ∧ ∀ k, faults k = none) ∧
        (∃ part, (∀ data, Records table own data → part <+: data) ∧ d = .clean (some part)) ∨
      ¬creates ∧ (d = .clean marker ∨ d = .clean none ∧ ∃ content, marker = some content ∧ Gone table own content)

/-- **A claim where there is no marker.** The induction is on the rounds that are left. -/
theorem acquireMarker_free {own rounds : ℕ} :
    Prog.Ends (faulty table faults) n (acquireMarker own 1 rounds) (.inParent none) fun a _ d' =>
      Settled table own faults none (Creating table own faults n rounds none) a d' := by
  have hbusy : ∀ {m}, ¬Creating table own faults n rounds none →
      Prog.Ends (faulty table faults) m
        (safeClose 1 >>= fun _ => pure (Except.error .busy : Except LeaseError MarkerLease))
        (.inParent none) fun a _ d' =>
          Settled table own faults none (Creating table own faults n rounds none) a d' := by
    intro m hnot
    refine .bind (safeClose_ends (.ret (.inr ⟨hnot, .inl ?_⟩)))
    exact closed_inParent none
  cases rounds with
  | zero => exact hbusy fun hcreating => absurd hcreating.1 (Nat.lt_irrefl 0)
  | succ rounds =>
    have hcreating : Creating table own faults n (rounds + 1) none ↔ faults n = none ∧ faults (n + 1) = none := by
      simp [Creating, Clear.succ_iff]
    rw [acquireMarker]
    refine ends_perform (fun hfirst => ?_) (fun hfirst x => ?_)
    · refine .bind (Prog.Ends.conseq (createExclusive_ends rfl rfl) ?_)
      rintro a m d' (⟨rfl, hclear, rfl, rfl⟩ | ⟨rfl, hsecond, hnot, rfl⟩ | ⟨rfl, hsecond, rfl⟩)
      · have hcreates := hcreating.2 ⟨hfirst, (Clear.succ_iff.1 hclear).1⟩
        refine .bind (Prog.Ends.conseq (recordOwner_ends rfl find_creating) ?_)
        rintro a m d' ⟨⟨part, hpart, rfl⟩, howned, htrue⟩
        cases a with
        | true => exact .ret ⟨hcreates, howned rfl⟩
        | false =>
          refine .bind (safeClose_ends (.bind (safeClose_ends (.ret (.inl ⟨hcreates, ?_, part, hpart, ?_⟩)))))
          · exact fun hall => absurd (htrue hall.2 hall.1) Bool.false_ne_true
          · exact (congrArg (fun d : Disk => d.closed 1)
              (closed_opened (d := .inParent (some part)) .marker rfl)).trans (closed_inParent _)
      · -- The file is there, but nobody knows it for the one that was created: it is taken for
        -- a marker that was there before, and one that tells no owner.
        refine .bind (Prog.Ends.conseq reclaim_ends ?_)
        rintro a m d' (⟨hgone, -⟩ | ⟨-, error, rfl, rfl | ⟨hgone, -⟩⟩)
        · exact absurd hgone not_gone_nil
        · refine .ret (.inl ⟨hcreating.2 ⟨hfirst, hsecond⟩, fun hall => hnot fun k _ => hall.2 _, [], ?_, rfl⟩)
          exact fun _ _ => List.nil_prefix
        · exact absurd hgone not_gone_nil
      · refine .bind (Prog.Ends.conseq reclaim_absent ?_)
        rintro a m d' ⟨error, rfl, rfl⟩
        exact .ret (.inr ⟨fun hcreates => hsecond (hcreating.1 hcreates).2, .inl rfl⟩)
    · exact hbusy fun hcreates => hfirst (hcreating.1 hcreates).1

/-- A claim where there is one: it is reclaimed, and then there is none; or the claim is over. -/
theorem acquireMarker_taken {own rounds : ℕ} :
    Prog.Ends (faulty table faults) n (acquireMarker own 1 rounds) (.inParent (some content)) fun a _ d' =>
      Settled table own faults (some content) (Creating table own faults n rounds (some content)) a d' := by
  have hbusy : ∀ {m}, ¬Creating table own faults n rounds (some content) →
      Prog.Ends (faulty table faults) m
        (safeClose 1 >>= fun _ => pure (Except.error .busy : Except LeaseError MarkerLease))
        (.inParent (some content)) fun a _ d' =>
          Settled table own faults (some content) (Creating table own faults n rounds (some content)) a d' := by
    intro m hnot
    refine .bind (safeClose_ends (.ret (.inr ⟨hnot, .inl ?_⟩)))
    exact closed_inParent (some content)
  cases rounds with
  | zero => exact hbusy fun hcreating => absurd hcreating.2.1 (by omega)
  | succ rounds =>
    rw [acquireMarker]
    refine ends_perform (fun hfirst => ?_) (fun hfirst x => ?_)
    · refine .bind (Prog.Ends.conseq (createExclusive_taken rfl) ?_)
      rintro a m d' ⟨rfl, rfl, rfl⟩
      refine .bind (Prog.Ends.conseq reclaim_ends ?_)
      have hcreating : Creating table own faults n (rounds + 1) (some content) ↔
          (Gone table own content ∧ Clear faults (n + 1 + 1) 12) ∧
            Creating table own faults (n + 1 + 1 + 12) rounds none := by
        simp only [Creating, hfirst, true_and, Clear.add_iff 12 2, Nat.add_assoc, Nat.reduceAdd,
          Nat.lt_add_left_iff_pos]
        tauto
      rintro a m d' (⟨hgone, hclear, rfl, rfl, rfl⟩ | ⟨hnot, error, rfl, hleft⟩)
      · refine Prog.Ends.conseq acquireMarker_free ?_
        intro a m d' hsettled
        rw [hcreating, and_iff_right ⟨hgone, hclear⟩]
        cases a with
        | ok lease => exact hsettled
        | error error =>
          refine hsettled.imp_right (And.imp_right fun hclean => .inr ⟨?_, content, rfl, hgone⟩)
          rcases hclean with hclean | ⟨hclean, -⟩
          · exact hclean
          · exact hclean
      · refine .ret (.inr ⟨fun hcreates => hnot (hcreating.1 hcreates).1, ?_⟩)
        exact hleft.imp_right fun hnone => ⟨hnone.2, content, rfl, hnone.1⟩
    · exact hbusy fun hcreates => hfirst hcreates.2.2.1

/-- A claim settles, whatever marker there was. -/
theorem acquireMarker_ends {own rounds : ℕ} (marker : Option Bytes) :
    Prog.Ends (faulty table faults) n (acquireMarker own 1 rounds) (.inParent marker) fun a _ d' =>
      Settled table own faults marker (Creating table own faults n rounds marker) a d' :=
  match marker with
  | none => acquireMarker_free
  | some _ => acquireMarker_taken

/-- An acquisition gets to create a marker: nothing fails up to then, in the first round where
no marker is there, and in the second where one is, of an owner that is gone. -/
def Creates (table : ℕ → ProcessToken) (own rounds : ℕ) (faults : ℕ → Option Fault)
    (marker : Option Bytes) : Prop :=
  Clear faults 0 3 ∧ Creating table own faults 3 rounds marker

/-- **What an acquisition comes to**, whatever fails. -/
theorem acquisition_settled (table : ℕ → ProcessToken) (faults : ℕ → Option Fault) (own rounds : ℕ)
    (marker : Option Bytes) :
    Settled table own faults marker (Creates table own rounds faults marker)
      (acquisition table own rounds faults (.clean marker)).result
      (acquisition table own rounds faults (.clean marker)).world := by
  refine (Prog.Ends.bind (Prog.Ends.conseq (verifyParent_ends rfl) ?_) :
    Prog.Ends (faulty table faults) 0 (fallbackLease own rounds) (.clean marker) fun a _ d' =>
      Settled table own faults marker (Creates table own rounds faults marker) a d')
  rintro a m d' (⟨rfl, hclear, rfl, rfl⟩ | ⟨rfl, hclear, rfl⟩)
  · rw [Creates, and_iff_right hclear]
    exact acquireMarker_ends marker
  · exact .ret (.inr ⟨fun hcreates => hclear hcreates.1, .inl rfl⟩)

/-! ### What is left behind -/

/-- A process acquires the lease just if it can record itself, and no marker is there of an
owner that it does not find gone. -/
theorem acquires_iff {pid : ℕ} {marker : Option Bytes} :
    Acquires table pid (.clean marker) ↔
      (∃ data, Records table pid data) ∧ ∀ content, marker = some content → Gone table pid content := by
  constructor
  · rintro ⟨rounds, lease, hresult⟩
    have hsettled := acquisition_settled table (fun _ => none) pid rounds marker
    rw [hresult] at hsettled
    obtain ⟨⟨-, hcreating⟩, howns⟩ := hsettled
    refine ⟨howns, ?_⟩
    rintro content rfl
    exact hcreating.1
  · rintro ⟨howns, hgone⟩
    have hcreates : Creates table pid 2 (fun _ => none) marker := by
      refine ⟨fun _ _ => rfl, ?_⟩
      cases marker with
      | none => exact ⟨Nat.zero_lt_two, fun _ _ => rfl⟩
      | some content => exact ⟨hgone content rfl, Nat.one_lt_two, rfl, fun _ _ => rfl⟩
    have hsettled := acquisition_settled table (fun _ => none) pid 2 marker
    cases hresult : (acquisition table pid 2 (fun _ => none) (.clean marker)).result with
    | ok lease => exact ⟨2, lease, hresult⟩
    | error error =>
      rw [hresult] at hsettled
      rcases hsettled with ⟨-, hnot, -⟩ | ⟨hnot, -⟩
      · exact absurd ⟨howns, fun _ => rfl⟩ hnot
      · exact absurd hcreates hnot

/-- **What is written of the marker of a living owner is not taken over**, by whoever finds
it. -/
theorem not_gone_of_part {own pid : ℕ} {data part : Bytes} (h : Records table own data) (hpart : part <+: data) :
    ¬Gone table pid part := by
  obtain ⟨token, htable, hencode⟩ := h
  rintro ⟨pid', token', hdecode, -, hgone⟩
  obtain ⟨rfl, rfl⟩ := owner_of_decodeMarker hencode hdecode hpart
  rcases hgone with hmissing | ⟨current, hcurrent, hother⟩
  · exact absurd (htable.symm.trans hmissing) nofun
  · obtain rfl := ProcessToken.token.inj (htable.symm.trans hcurrent)
    exact hother rfl

/-- The acquisition leaves nothing open, and keeps nobody from the lease who could have had
it before. -/
def LeavesNothing (table : ℕ → ProcessToken) (own rounds : ℕ) (faults : ℕ → Option Fault)
    (marker : Option Bytes) : Prop :=
  let left := (acquisition table own rounds faults (.clean marker)).world
  left.handles = [] ∧ ∀ pid, Acquires table pid (.clean marker) → Acquires table pid left

/-- **A failed acquisition leaves nothing blocking behind** just if it did not get to create a
marker. -/
theorem leavesNothing_iff {own rounds : ℕ} {marker : Option Bytes} {data : Bytes} {error : LeaseError}
    (hown : Records table own data)
    (hfailed : (acquisition table own rounds faults (.clean marker)).result = .error error) :
    LeavesNothing table own rounds faults marker ↔ ¬Creates table own rounds faults marker := by
  have hsettled := acquisition_settled table faults own rounds marker
  rw [hfailed] at hsettled
  unfold LeavesNothing
  rcases hsettled with ⟨hcreates, -, part, hpart, hleft⟩ | ⟨hcreates, hleft⟩
  · refine iff_of_false ?_ (not_not_intro hcreates)
    rintro ⟨-, hacquires⟩
    have hbefore : Acquires table own (.clean marker) := by
      refine acquires_iff.2 ⟨⟨data, hown⟩, ?_⟩
      rintro content rfl
      exact hcreates.2.1
    have hafter := hacquires own hbefore
    rw [hleft] at hafter
    exact not_gone_of_part hown (hpart data hown) ((acquires_iff.1 hafter).2 part rfl)
  · refine iff_of_true ?_ hcreates
    rcases hleft with hleft | ⟨hleft, -⟩
    · rw [hleft]
      exact ⟨rfl, fun _ h => h⟩
    · rw [hleft]
      exact ⟨rfl, fun pid h => acquires_iff.2 ⟨(acquires_iff.1 h).1, nofun⟩⟩

end Disks

/-! ### A failed lookup -/

/-- Two processes that live. -/
def livingTwo : ℕ → ProcessToken
  | 41 => .token "a1"
  | 42 => .token "b2"
  | _ => .missing

/-- The lookup of the process' own token fails, with the marker created. -/
def lookupFails (n : ℕ) : Option Fault := if n = 7 then some ⟨0, false⟩ else none

theorem livingTwo_records : Records livingTwo 41 (Encoding.ascii (markerText 41 (Text.ofString "a1"))) :=
  ⟨"a1", rfl, if_pos (by decide)⟩

theorem leavesNothing_lookup :
    LeavesNothing livingTwo 41 2 lookupFails none ↔ ¬Creates livingTwo 41 2 lookupFails none :=
  leavesNothing_iff livingTwo_records (rfl : _ = Except.error LeaseError.busy)

/-- An empty marker is left, and the other process, which could have had the lease before,
finds it busy from then on. -/
theorem not_leavesNothing_lookup :
    (acquisition livingTwo 41 2 lookupFails (.clean none)).result = .error .busy ∧
      ¬LeavesNothing livingTwo 41 2 lookupFails none := by
  refine ⟨rfl, fun hleft => ?_⟩
  have hworld : (acquisition livingTwo 41 2 lookupFails (.clean none)).world = .clean (some []) := rfl
  have hbefore : Acquires livingTwo 42 (.clean none) :=
    acquires_iff.2 ⟨⟨_, "b2", rfl, if_pos (by decide)⟩, nofun⟩
  have hafter := hleft.2 42 hbefore
  rw [hworld, acquires_iff] at hafter
  exact not_gone_nil (hafter.2 [] rfl)

end ConfigLock

end YasbLimitora

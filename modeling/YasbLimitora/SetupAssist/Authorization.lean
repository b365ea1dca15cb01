import Mathlib
import YasbLimitora.SetupAssist.Batch

/-!
# What the deletion of the state is authorized by

`_remove_path_and_cleanup_state` and `cleanup_literal_state`, while others edit the PATH and
the record between any two calls, and any call may raise. The state directory is deleted
only where the record and the PATH were just read to be what they were first read, or made,
to be; and the record is cleared only where the directory was deleted.

What authorizes a deletion is a fact about the past of a run: that two reads were made after the
last write of this program, and showed what was there at the start. The others may write between any
two calls. So nothing can be said of the state of the registry where the directory is deleted, and
the property is one of the history of calls, for which `YasbLimitora.SetupAssist.Permits` says of
each call when it may come.
-/

namespace YasbLimitora

namespace SetupAssist

open UserPath

section Traces

variable {σ : Type}

/-- What was done to a machine. -/
abbrev Doings (σ : Type) := Faults.Trace Call.Value (Machine σ)

abbrev Doing (σ : Type) := Event Call (fun c => Answer c.Value) (Machine σ)

/-- The record was read. -/
def ReadsRecord (recorded : Option Text) (e : Doing σ) : Prop :=
  ∃ w w', e = ⟨.registry .readRecordedElement, .returned recorded, w, w'⟩

/-- The PATH was read. -/
def ReadsPath (current : Option RegValue) (e : Doing σ) : Prop :=
  ∃ w w', e = ⟨.registry .readUserPath, .returned current, w, w'⟩

/-- The PATH was one value, and made another. -/
def Sets (expected changed : RegValue) (e : Doing σ) : Prop :=
  ∃ w w', e = ⟨.registry (.compareAndWriteUserPath (some expected) changed .changing), .returned true, w, w'⟩

/-- The directory was deleted. -/
def Deletes (e : Doing σ) : Prop := ∃ w w', e = ⟨.deleteDirectory, .returned (.ok true), w, w'⟩

/-- The PATH as the record has it. -/
def snapshot (o : Owned) : RegValue := ⟨o.path, o.type⟩

/-- **What authorizes the deletion.** The last two things done are to read the record that was
read first, which is valid, and to read the PATH: that of the record, or what it was made. -/
structure Authorized (before : Doings σ) (recorded : Text) (o : Owned) (current : RegValue) : Prop where
  valid : owned recorded = some o
  first : ∃ e rest, before = e :: rest ∧ ReadsRecord (some recorded) e
  last : ∃ earlier e e', before = earlier ++ [e, e'] ∧ ReadsRecord (some recorded) e ∧ ReadsPath (some current) e' ∧
    (current = snapshot o ∨ ∃ s ∈ earlier, Sets (snapshot o) current s)

/-- What may be done after what was done before. -/
def Permits (before : Doings σ) : Call → Prop
  | .deleteDirectory => ∃ recorded o current, Authorized before recorded o current
  | .registry .clearRecordedElement => ∃ e ∈ before, Deletes e
  | _ => True

variable {before : Doings σ}

/-- What the deletion of the directory is left with. -/
theorem deleteState_heeds {recorded : Text} {o : Owned} {current : RegValue}
    (h : Authorized before recorded o current) :
    Faults.Heeds Permits deleteState before fun x trace => x = .ok true → ∃ e ∈ trace, Deletes e := by
  refine .bind (.tried ⟨recorded, o, current, h⟩ fun (x : Answer (Except Raised Bool)) w w' => ?_)
  rcases x with _ | e | deleted
  · exact .pure nofun
  · exact .throw nofun
  · refine .pure fun hdeleted => ?_
    obtain rfl := Except.ok.inj hdeleted
    exact ⟨_, List.mem_append_right _ (List.mem_singleton_self _), w, w', rfl⟩

theorem clearRecord_heeds (h : ∃ e ∈ before, Deletes e) :
    Faults.Heeds Permits clearRecord before fun _ _ => True := by
  refine .bind (.tried h fun x w w' => ?_)
  rcases x with _ | _
  · exact .pure trivial
  · exact .pure trivial

/-- The end of a cleanup that is authorized. -/
theorem cleanup_heeds {recorded : Text} {o : Owned} {current : RegValue} {p : Executing Outcome}
    (h : Authorized before recorded o current) (hp : ∀ trace : Doings σ, Faults.Heeds Permits p trace fun _ _ => True) :
    Faults.Heeds Permits (do if ← deleteState then clearRecord else p) before fun _ _ => True := by
  refine .bind (Faults.Heeds.conseq (deleteState_heeds h) ?_)
  rintro (e | _ | _) trace hdeleted
  · trivial
  · exact hp trace
  · exact clearRecord_heeds (hdeleted rfl)

/-- A cleanup keeps to it by itself, or after the record that it expects was read. -/
theorem cleanupLiteralState_heeds {absolute : Bool} {expected : Option Text}
    (h : before = [] ∨ ∃ recorded e rest, expected = some recorded ∧ before = e :: rest ∧ ReadsRecord expected e) :
    Faults.Heeds Permits (cleanupLiteralState absolute expected) before fun _ _ => True := by
  unfold cleanupLiteralState
  split
  · exact .pure trivial
  refine .bind (.call trivial (fun _ _ => trivial) fun recorded w w' => ?_)
  dsimp only
  split
  · exact .pure trivial
  rename_i hexpected
  split
  · exact .pure trivial
  rename_i o howned
  split
  · exact .pure trivial
  refine .bind (.call trivial (fun _ _ => trivial) fun current w₁ w₁' => ?_)
  dsimp only
  split
  · exact .pure trivial
  refine .bind (.call trivial (fun _ _ => trivial) fun recordedAgain w₂ w₂' => ?_)
  dsimp only
  split
  · exact .pure trivial
  rename_i hagain
  refine .bind (.call trivial (fun _ _ => trivial) fun currentAgain w₃ w₃' => ?_)
  dsimp only
  split
  · exact .pure trivial
  rename_i hcurrent
  obtain ⟨text, rfl, howned⟩ := Option.bind_eq_some_iff.1 howned
  obtain rfl := not_ne_iff.1 hagain
  obtain rfl := not_ne_iff.1 hcurrent
  have hauthorized : Authorized (before ++ [⟨.registry .readRecordedElement, .returned (some text), w, w'⟩] ++
      [⟨.registry .readUserPath, .returned current, w₁, w₁'⟩] ++
      [⟨.registry .readRecordedElement, .returned (some text), w₂, w₂'⟩] ++
      [⟨.registry .readUserPath, .returned (some (snapshot o)), w₃, w₃'⟩]) text o (snapshot o) := by
    refine ⟨howned, ?_, ⟨_, _, _, List.append_assoc _ [_] [_], ⟨w₂, w₂', rfl⟩, ⟨w₃, w₃', rfl⟩, .inl rfl⟩⟩
    rcases h with rfl | ⟨recorded, e, rest, rfl, rfl, hread⟩
    · exact ⟨_, _, rfl, w, w', rfl⟩
    · -- The record read now is the expected one, which was read first.
      obtain rfl : text = recorded := Option.some.inj (not_ne_iff.1 fun hne => hexpected ⟨rfl, hne⟩)
      exact ⟨e, _, rfl, hread⟩
  exact cleanup_heeds hauthorized fun _ => .pure trivial

/-- What is put back is not deleted. -/
theorem deleteOrRestore_heeds {recorded : Text} {o : Owned} {current : RegValue} (changed restored : RegValue)
    (h : Authorized before recorded o current) :
    Faults.Heeds Permits (deleteOrRestore changed restored) before fun _ _ => True := by
  refine .bind (Faults.Heeds.conseq (deleteState_heeds h) ?_)
  rintro (e | _ | _) trace hdeleted
  · trivial
  · refine .bind (.bind (.tried trivial fun (x : Answer Bool) _ _ => ?_))
    rcases x with _ | _ | _
    · exact .pure (.pure trivial)
    · exact .pure (.pure trivial)
    · exact .pure (.bind (.call trivial (fun _ _ => trivial) fun _ _ _ => .pure trivial))
  · refine .bind (Faults.Heeds.conseq (clearRecord_heeds (hdeleted rfl)) ?_)
    rintro (_ | _) trace _
    · trivial
    · exact .pure trivial

/-- The directory is deleted after the removal of the route if the PATH is what it was made. -/
theorem removeAndDelete_heeds {recorded : Text} {o : Owned} (howned : owned recorded = some o)
    (h : ∃ e rest, before = e :: rest ∧ ReadsRecord (some recorded) e) :
    Faults.Heeds Permits (removeAndDelete (some recorded) o) before fun _ _ => True := by
  obtain ⟨e, rest, rfl, hread⟩ := h
  refine .bind (.call trivial (fun _ _ => trivial) fun (done : Bool) w w' => ?_)
  cases done with
  | false => exact .pure trivial
  | true =>
    refine .bind (.call trivial (fun _ _ => trivial) fun _ w₁ w₁' => ?_)
    refine .bind (.call trivial (fun _ _ => trivial) fun recordedAgain w₂ w₂' => ?_)
    dsimp only
    split
    · exact .pure trivial
    rename_i hagain
    refine .bind (.call trivial (fun _ _ => trivial) fun currentAgain w₃ w₃' => ?_)
    dsimp only
    split
    · exact .pure trivial
    rename_i hcurrent
    obtain rfl := not_ne_iff.1 hagain
    obtain rfl := not_ne_iff.1 hcurrent
    have hset : ∃ s ∈ (e :: rest) ++ [⟨.registry (.compareAndWriteUserPath (some (snapshot o))
          ⟨join (split o.path).dropLast, o.type⟩ .changing), .returned true, w, w'⟩] ++
        [⟨.registry .notifyEnvironmentChanged, .returned (), w₁, w₁'⟩],
        Sets (snapshot o) ⟨join (split o.path).dropLast, o.type⟩ s :=
      ⟨_, List.mem_append_left _ (List.mem_append_right _ (List.mem_singleton_self _)), w, w', rfl⟩
    exact deleteOrRestore_heeds _ _ ⟨howned, ⟨e, _, rfl, hread⟩,
      ⟨_, _, _, List.append_assoc _ [_] [_], ⟨w₂, w₂', rfl⟩, ⟨w₃, w₃', rfl⟩, .inr hset⟩⟩

theorem removePathAndCleanupState_heeds (absolute : Bool) :
    Faults.Heeds Permits (removePathAndCleanupState absolute) ([] : Doings σ) fun _ _ => True := by
  unfold removePathAndCleanupState
  split
  · exact .pure trivial
  refine .bind (.call trivial (fun _ _ => trivial) fun recorded w w' => ?_)
  dsimp only
  split
  · exact .pure trivial
  rename_i o howned
  obtain ⟨text, rfl, howned⟩ := Option.bind_eq_some_iff.1 howned
  split
  · exact .pure trivial
  refine .bind (.call trivial (fun _ _ => trivial) fun current w₁ w₁' => ?_)
  dsimp only
  split
  · split
    · exact .pure trivial
    · -- The route is gone: the cleanup goes on if the record is the one just read.
      refine .bind (Faults.Heeds.conseq (cleanupLiteralState_heeds (.inr ⟨text, _, _, rfl, rfl, w, w', rfl⟩)) ?_)
      rintro (_ | _) trace _
      · trivial
      · exact .pure trivial
  · exact removeAndDelete_heeds howned ⟨_, _, rfl, w, w', rfl⟩

/-- **The deletion of the state is authorized**, whatever the others do between the calls and
whichever of them raise: each call is permitted after all those before it, in the removal of
the route with the cleanup of the state and in the cleanup on its own. -/
theorem deletion_authorized (disk : Disk σ) (others : ℕ → Machine σ → Machine σ) (raises : ℕ → Call → Bool)
    (absolute : Bool) (expected : Option Text) (m : Machine σ) :
    (∀ before e after,
      (Prog.run (Faults.faulty disk.act others raises) 0 (removePathAndCleanupState absolute).run m).events
        = before ++ e :: after → Permits before e.op) ∧
      ∀ before e after,
        (Prog.run (Faults.faulty disk.act others raises) 0 (cleanupLiteralState absolute expected).run m).events
          = before ++ e :: after → Permits before e.op := by
  constructor
  · intro before e after hevents
    have h := (removePathAndCleanupState_heeds absolute).permitted (Faults.faulty disk.act others raises) 0 m
    rw [hevents] at h
    exact h.of_split
  · intro before e after hevents
    have hheeds : Faults.Heeds Permits (cleanupLiteralState absolute expected) ([] : Doings σ) fun _ _ => True :=
      cleanupLiteralState_heeds (.inl rfl)
    have h := hheeds.permitted (Faults.faulty disk.act others raises) 0 m
    rw [hevents] at h
    exact h.of_split

end Traces

end SetupAssist

end YasbLimitora

import Mathlib
import YasbLimitora.PathCleanup.Registry

/-!
# Adding a route and removing it again

What the path operations do when nobody interferes and nothing fails: `append` and
`remove` are functions of the registry (`calmly_append`, `calmly_remove`). A route that
was added is recorded so that the record says which it was, in which PATH, of which type
(`owned_record`): so that `remove` undoes `append`. It does, if the route is one element of
the PATH it was added to, which it is not where its name has a separator in it:
`remove_append_iff`.

A PATH is a text, and an element of it is what stands between two separators. To add a route is to
put a separator and the route at the end, unless it is an element already, and to remove it is to
take the element out that is recorded. The two are inverse on texts and not only on lists of
elements: what stood between the other separators comes back as it was, and so does the type of the
value.
-/

namespace YasbLimitora

namespace UserPath

/-- The result of a transaction if nothing happens around it, and the registry it leaves. -/
abbrev calmly {α : Type} : Transacting α → Registry → Except Raised α × Registry :=
  Faults.alone Op.perform fun _ => false

theorem calmly_readUserPath (r : Registry) : calmly readUserPath r = (.ok r.path, r) := rfl

theorem calmly_readRecordedElement (r : Registry) :
    calmly readRecordedElement r = (.ok r.record, r) := rfl

theorem calmly_compareAndWriteUserPath (written : RegValue) (purpose : Purpose) (r : Registry) :
    calmly (compareAndWriteUserPath r.path written purpose) r
      = (.ok true, { r with path := some written }) := by
  show ((Except.ok (Op.perform (.compareAndWriteUserPath r.path written purpose) r).1 :
    Except Raised Bool), (Op.perform (.compareAndWriteUserPath r.path written purpose) r).2) = _
  rw [Op.perform, if_pos rfl]

/-- Nothing fails, so a change is never put back. -/
theorem calmly_settle (update : Op) (changed : RegValue) (old : Option RegValue)
    (restored : RegValue) (r : Registry) :
    calmly (settle update changed old restored) r = (.ok ⟨true, none⟩, (update.perform r).2) := rfl

/-- `append_user_path` in a calm run. -/
def append (element : Text) (correctionConsent : Bool) (r : Registry) : Outcome × Registry :=
  if r.path.isSome ∧ safePath r.path = none then (⟨false, some "path-value-unsafe"⟩, r)
  else
    let safe := (safePath r.path).getD ⟨[], REG_EXPAND_SZ⟩
    if element ∈ split safe.value then (⟨false, none⟩, r)
    else match corrected r.path safe.value r.record correctionConsent with
      | .error reason => (⟨false, some reason⟩, r)
      | .ok value =>
        let changed : RegValue := ⟨value ++ .ch ';' :: element, safe.type⟩
        (⟨true, none⟩, ⟨some changed, some (record element changed.value changed.type)⟩)

/-- `remove_recorded_user_path` in a calm run. -/
def remove (r : Registry) : Outcome × Registry :=
  match r.record.bind owned, r.path with
  | some o, some current =>
    if current ≠ ⟨o.path, o.type⟩ then
      if o.element ∈ split current.value then (⟨false, some "path-ownership-changed"⟩, r)
      else (⟨false, none⟩, r)
    else if (split o.path).getLast? ≠ some o.element then
      (⟨false, some "path-ownership-changed"⟩, r)
    else (⟨true, none⟩, ⟨some ⟨join (split o.path).dropLast, o.type⟩, none⟩)
  | _, _ => (⟨false, none⟩, r)

/-- **Either a route is added**, after the PATH as it was or as it was corrected, **or
nothing changes.** -/
theorem append_cases (element : Text) (correctionConsent : Bool) (r : Registry) :
    (append element correctionConsent r).1.changed = false ∧
        (append element correctionConsent r).2 = r ∨
      ∃ safe value, IsSafe r.path safe ∧ element ∉ split safe.value ∧
        corrected r.path safe.value r.record correctionConsent = .ok value ∧
        append element correctionConsent r = (⟨true, none⟩,
          ⟨some ⟨value ++ .ch ';' :: element, safe.type⟩,
            some (record element (value ++ .ch ';' :: element) safe.type)⟩) := by
  rw [append]
  split
  · exact Or.inl ⟨rfl, rfl⟩
  next hsafe =>
  have hpath := isSafe_safePath hsafe
  generalize (safePath r.path).getD ⟨[], REG_EXPAND_SZ⟩ = safe at hpath
  show (if element ∈ split safe.value then _ else _ : Outcome × Registry).1.changed = false ∧
    (if element ∈ split safe.value then _ else _ : Outcome × Registry).2 = r ∨ _
  split
  · exact Or.inl ⟨rfl, rfl⟩
  next helement =>
  rcases hvalue : corrected r.path safe.value r.record correctionConsent with reason | value
  · exact Or.inl ⟨rfl, rfl⟩
  · refine Or.inr ⟨safe, value, hpath, helement, hvalue, ?_⟩
    show (if element ∈ split safe.value then _ else _ : Outcome × Registry) = _
    rw [if_neg helement, hvalue]

theorem calmly_appendOnce (element : Text) (correctionConsent : Bool) (r : Registry) :
    calmly (appendOnce element correctionConsent) r =
      (.ok (some (append element correctionConsent r).1), (append element correctionConsent r).2) := by
  simp only [appendOnce, append, Faults.alone_bind, calmly_readUserPath]
  split
  · rfl
  split
  · rfl
  simp only [appendTo, Faults.alone_bind, calmly_readRecordedElement]
  rcases corrected r.path ((safePath r.path).getD ⟨[], REG_EXPAND_SZ⟩).value r.record
    correctionConsent with reason | value
  · rfl
  · simp only [Faults.alone_bind, calmly_compareAndWriteUserPath, if_true, calmly_settle]
    rfl

/-- **Adding a route, if nothing happens in between.** -/
theorem calmly_appendUserPath (element : Text) (correctionConsent : Bool) (r : Registry) :
    calmly (appendUserPath element correctionConsent) r =
      (.ok (append element correctionConsent r).1, (append element correctionConsent r).2) := by
  simp only [appendUserPath, Faults.alone_bind, calmly_appendOnce]
  rfl

/-- **Removing the recorded route, if nothing happens in between.** -/
theorem calmly_removeRecordedUserPath (r : Registry) :
    calmly removeRecordedUserPath r = (.ok (remove r).1, (remove r).2) := by
  simp only [removeRecordedUserPath, remove, Faults.alone_bind, calmly_readRecordedElement]
  rcases hrecord : r.record.bind owned with _ | o
  · rfl
  rcases hpath : r.path with _ | current
  · simp only [Faults.alone_bind, calmly_readUserPath, hpath]
    rfl
  simp only [Faults.alone_bind, calmly_readUserPath, hpath]
  split_ifs with hchanged hmem hlast
  · rfl
  · rfl
  · rfl
  · rw [not_not] at hchanged
    simp only [Faults.alone_bind, ← hpath, calmly_compareAndWriteUserPath]
    rfl

/-! ### The record of a route -/

/-- **What a record is read as**: nothing, if it is one of no route. -/
theorem owned_record_eq {element value : Text} {type : ℕ} (helement : element.Paired)
    (hvalue : value.Paired) (htype : type = REG_SZ ∨ type = REG_EXPAND_SZ) :
    owned (record element value type) = if element = [] then none else some ⟨element, value, type⟩ := by
  have hplain : (Owned.json ⟨element, value, type⟩).Plain := by
    have hshort : (DecimalText.natText ((type : ℤ).natAbs)).length ≤ Json.maxDigits := by
      rcases htype with rfl | rfl <;> decide
    exact ⟨by simp; decide, Text.paired_ofChars _, helement, Text.paired_ofChars _, hvalue,
      Text.paired_ofChars _, hshort, trivial⟩
  have hread := Json.parse_write (r := loads) (Json.Style.sound_ascii [] nofun) hplain (Or.inl rfl)
  rw [List.append_nil] at hread
  have hchecks : Owned.ofJson (Owned.json ⟨element, value, type⟩) =
      if element = [] then none else some ⟨element, value, type⟩ := by
    have htyped : ownedType type = some type := by
      rcases htype with rfl | rfl <;> rfl
    show (if element = [] then none else
      (ownedType type).map fun type => (⟨element, value, type⟩ : Owned)) = _
    rw [htyped, Option.map_some]
  rw [owned, record, hread, Option.bind_some, hchecks]

/-- **A route is recognized by its record.** -/
theorem owned_record {element value : Text} {type : ℕ} (hne : element ≠ [])
    (helement : element.Paired) (hvalue : value.Paired)
    (htype : type = REG_SZ ∨ type = REG_EXPAND_SZ) :
    owned (record element value type) = some ⟨element, value, type⟩ := by
  rw [owned_record_eq helement hvalue htype, if_neg hne]

/-! ### Removing what was added -/

/-- A route that was added to a PATH without a record is the last of the PATH, and it is
recorded. -/
theorem append_eq {element value : Text} {type : ℕ} {correctionConsent : Bool}
    (h : (append element correctionConsent ⟨some ⟨value, type⟩, none⟩).1 = ⟨true, none⟩) :
    (type = REG_SZ ∨ type = REG_EXPAND_SZ) ∧
      (append element correctionConsent ⟨some ⟨value, type⟩, none⟩).2 =
        ⟨some ⟨value ++ .ch ';' :: element, type⟩,
          some (record element (value ++ .ch ';' :: element) type)⟩ := by
  rcases append_cases element correctionConsent ⟨some ⟨value, type⟩, none⟩ with
    ⟨hsame, -⟩ | ⟨safe, value', hsafe, -, hvalue, happend⟩
  · rw [h] at hsame
    cases hsame
  · rcases hsafe with ⟨hpath, htype⟩ | ⟨hpath, -⟩
    · obtain rfl := Option.some.inj hpath
      rcases corrected_eq_ok hvalue with ⟨-, rfl⟩ | ⟨_, hnone, -⟩
      · exact ⟨htype, by rw [happend]⟩
      · cases hnone
    · cases hpath

/-- **Removing the route that was just added** restores the PATH and its type and leaves
no record, exactly if the route has no separator in it. -/
theorem remove_append_iff (value element : WideText) (type : ℕ) (correctionConsent : Bool)
    (hne : element.text ≠ [])
    (hadded : ((Command.pathAdd element correctionConsent).run calm
      ⟨some ⟨value, type⟩, none⟩).result = .ok ⟨true, none⟩) :
    (Command.pathRemove.run calm ((Command.pathAdd element correctionConsent).run calm
      ⟨some ⟨value, type⟩, none⟩).world).world = ⟨some ⟨value, type⟩, none⟩ ↔
        CodePoint.ch ';' ∉ element.text := by
  have happend := calmly_appendUserPath element correctionConsent ⟨some ⟨value, type⟩, none⟩
  obtain ⟨htype, hworld⟩ := append_eq (Except.ok.inj ((Prod.mk.inj happend).1.symm.trans hadded))
  have hrun : ((Command.pathAdd element correctionConsent).run calm ⟨some ⟨value, type⟩, none⟩).world
      = _ := (Prod.mk.inj happend).2.trans hworld
  have hremove := (Prod.mk.inj (calmly_removeRecordedUserPath
    ⟨some ⟨value.text ++ .ch ';' :: element.text, type⟩,
      some (record element.text (value.text ++ .ch ';' :: element.text) type)⟩)).2
  have howned := owned_record hne element.paired (value.paired.append element.paired ';') htype
  have hsplit := split_append value.text element.text
  rw [hrun]
  refine (iff_of_eq (congrArg (· = _) hremove)).trans ?_
  simp only [remove, Option.bind_some, howned, ne_eq, not_true_eq_false, if_false, hsplit]
  constructor
  · intro h hmem
    split_ifs at h with hlast
    · have hpart : element.text ∈ split element.text := by
        rw [List.getLast?_append_of_ne_nil _ (split_ne_nil _)] at hlast
        exact List.mem_of_getLast? hlast
      exact not_mem_of_mem_split hpart hmem
    · cases congrArg Registry.record h
  · intro h
    rw [split_eq_singleton h, List.getLast?_append_of_ne_nil _ (List.cons_ne_nil _ _),
      List.getLast?_singleton, if_neg fun h => h rfl, List.dropLast_concat, join_split]

/-- A string that UTF-16 spells. -/
def wide (s : String) : WideText := ⟨Text.ofString s, Text.paired_ofChars s.toList⟩

theorem remove_append_plain :
    (Command.pathRemove.run calm ((Command.pathAdd (wide "B") false).run calm
      ⟨some ⟨wide "A", REG_SZ⟩, none⟩).world).world = ⟨some ⟨wide "A", REG_SZ⟩, none⟩ ↔
        CodePoint.ch ';' ∉ (wide "B").text :=
  remove_append_iff (wide "A") (wide "B") REG_SZ false (by decide) rfl

/-- The route `B;C` is added to the PATH `A`, and is not removed again. -/
theorem remove_append_separator :
    ((Command.pathAdd (wide "B;C") false).run calm ⟨some ⟨wide "A", REG_SZ⟩, none⟩).result
        = .ok ⟨true, none⟩ ∧
      (Command.pathRemove.run calm ((Command.pathAdd (wide "B;C") false).run calm
        ⟨some ⟨wide "A", REG_SZ⟩, none⟩).world).world ≠ ⟨some ⟨wide "A", REG_SZ⟩, none⟩ := by
  refine ⟨rfl, ?_⟩
  decide +kernel

end UserPath

end YasbLimitora

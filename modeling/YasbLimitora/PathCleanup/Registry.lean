import Mathlib
import YasbLimitora.Lib.Faults
import YasbLimitora.Lib.JsonText

/-!
# The user PATH and its record

`_path_cleanup.py`: the transactions that add a route to the user PATH and remove it
again, as programs over the calls of `UserPathRegistry`. The registry holds the PATH, which
may be absent, and the record of the route that was added, if any; a call may raise
`OSError`, and then leaves both as they are.

`YasbLimitora.UserPath.appendUserPath` and `removeRecordedUserPath` are the two
transactions. A program of them ends in an `Outcome`, or in an exception: the one that
`_RegistryIOBoundary` makes of an `OSError` of a registry call, or the plain `OSError` of
the notification, which it does not wrap.

The notification of other programs comes after a successful write and is not a part of the
transaction. The compensating write is: where the notification or a later step fails, what was there
is written back if the PATH is still what this transaction wrote. The record is JSON within the
registry, and is believed only if it has the one form that the program writes.
-/

namespace YasbLimitora

namespace UserPath

def REG_SZ : ℕ := 1

def REG_EXPAND_SZ : ℕ := 2

/-- A value of the registry: a string and its type. -/
structure RegValue where
  value : Text
  type : ℕ
deriving DecidableEq

structure Outcome where
  changed : Bool
  reason : Option String
deriving DecidableEq

/-! ### Texts of a PATH -/

/-- `value.split(";")`. -/
def split (value : Text) : List Text := value.splitOn (.ch ';')

/-- `";".join(parts)`. -/
def join (parts : List Text) : Text := [.ch ';'].intercalate parts

theorem split_ne_nil (value : Text) : split value ≠ [] := List.splitOn_ne_nil _ _

theorem join_split (value : Text) : join (split value) = value := List.intercalate_splitOn _

theorem join_singleton (part : Text) : join [part] = part := by
  simp [join, List.intercalate]

/-- A route is added after a separator. -/
theorem split_append (value element : Text) :
    split (value ++ .ch ';' :: element) = split value ++ split element :=
  List.splitOn_append_cons_self value element

/-- No element of a PATH has a separator in it. -/
theorem not_mem_of_mem_split {value part : Text} (h : part ∈ split value) :
    CodePoint.ch ';' ∉ part := by
  induction value generalizing part with
  | nil =>
    obtain rfl := List.mem_singleton.1 h
    exact List.not_mem_nil
  | cons p value ih =>
    rw [split, List.splitOn_cons_eq_if_modifyHead] at h
    split at h
    · rcases List.mem_cons.1 h with rfl | h
      · exact List.not_mem_nil
      · exact ih h
    · next hp =>
      rcases hl : List.splitOn (CodePoint.ch ';') value with _ | ⟨head, tail⟩
      · exact absurd hl (split_ne_nil value)
      · rw [split, hl] at ih
        rw [hl, List.modifyHead_cons] at h
        rcases List.mem_cons.1 h with rfl | h
        · intro hmem
          rcases List.mem_cons.1 hmem with heq | hmem
          · exact hp (by rw [heq, beq_self_eq_true])
          · exact ih List.mem_cons_self hmem
        · exact ih (List.mem_cons_of_mem _ h)

/-- What is joined is split again, but for no elements at all, which are one that is
empty. -/
theorem split_join {parts : List Text} (h : ∀ part ∈ parts, CodePoint.ch ';' ∉ part) :
    split (join parts) = parts ∨ parts = [] ∧ split (join parts) = [[]] := by
  rcases parts with _ | ⟨part, parts⟩
  · exact Or.inr ⟨rfl, rfl⟩
  · exact Or.inl (List.splitOn_intercalate _ h (List.cons_ne_nil _ _))

theorem split_eq_singleton {element : Text} (h : CodePoint.ch ';' ∉ element) :
    split element = [element] := List.splitOn_eq_singleton h

/-- `_safe_path`. -/
def safePath (current : Option RegValue) : Option RegValue :=
  current.filter fun v => v.type = REG_SZ ∨ v.type = REG_EXPAND_SZ

/-- The PATH that is added to: the one that was read, or an empty one. -/
def IsSafe (current : Option RegValue) (safe : RegValue) : Prop :=
  current = some safe ∧ (safe.type = REG_SZ ∨ safe.type = REG_EXPAND_SZ) ∨
    current = none ∧ safe = ⟨[], REG_EXPAND_SZ⟩

theorem isSafe_safePath {current : Option RegValue}
    (h : ¬(current.isSome ∧ safePath current = none)) :
    IsSafe current ((safePath current).getD ⟨[], REG_EXPAND_SZ⟩) := by
  rcases current with _ | v
  · exact Or.inr ⟨rfl, rfl⟩
  · rcases hsafe : safePath (some v) with _ | w
    · exact absurd ⟨rfl, hsafe⟩ h
    · obtain ⟨hv, htype⟩ := Option.filter_eq_some_iff.1 hsafe
      obtain rfl := Option.some.inj hv
      exact Or.inl ⟨rfl, by simpa using htype⟩

/-! ### The record -/

/-- A route that was added: the PATH it was added to as the last element, with its type. -/
structure Owned where
  element : Text
  path : Text
  type : ℕ
deriving DecidableEq

/-- The document of a record. -/
def Owned.json (o : Owned) : Json Text :=
  .obj [(Text.ofString "element", .str o.element), (Text.ofString "path", .str o.path),
    (Text.ofString "type", .int o.type)]

/-- `_record`. -/
def record (element value : Text) (type : ℕ) : Text :=
  (Json.Style.ascii []).write (Owned.json ⟨element, value, type⟩)

/-- How `json.loads` reads unless it is told otherwise. What the text of a floating-point
number is kept as makes no difference here. -/
def loads : Json.Reader where
  float l := some (String.ofList l)
  constant l := some (String.ofList l)
  repeats := true

/-- The type of a recorded value. -/
def ownedType (n : ℤ) : Option ℕ :=
  if n = REG_SZ then some REG_SZ else if n = REG_EXPAND_SZ then some REG_EXPAND_SZ else none

/-- The checks of `_owned` on what was read. -/
def Owned.ofJson (data : Json Text) : Option Owned :=
  match data with
  | .obj fields =>
    if fields.length = 3 then
      match Json.get? (Text.ofString "element") fields, Json.get? (Text.ofString "path") fields,
        Json.get? (Text.ofString "type") fields with
      | some (.str element), some (.str path), some (.int n) =>
        if element = [] then none else (ownedType n).map fun type => ⟨element, path, type⟩
      | _, _, _ => none
    else none
  | _ => none

/-- `_owned`. -/
def owned (recorded : Text) : Option Owned := (Json.parse loads recorded).bind Owned.ofJson

theorem ownedType_eq_some {n : ℤ} {type : ℕ} (h : ownedType n = some type) :
    n = type ∧ (type = REG_SZ ∨ type = REG_EXPAND_SZ) := by
  rw [ownedType] at h
  split_ifs at h with hsz hexpand
  · obtain rfl := Option.some.inj h
    exact ⟨hsz, Or.inl rfl⟩
  · obtain rfl := Option.some.inj h
    exact ⟨hexpand, Or.inr rfl⟩

/-- A record that is accepted names a route, and a string type. -/
theorem owned_eq_some {recorded : Text} {o : Owned} (h : owned recorded = some o) :
    o.element ≠ [] ∧ (o.type = REG_SZ ∨ o.type = REG_EXPAND_SZ) := by
  obtain ⟨data, -, h⟩ := Option.bind_eq_some_iff.1 h
  unfold Owned.ofJson at h
  split at h
  · split_ifs at h
    split at h
    · split_ifs at h with helement
      obtain ⟨type, htype, rfl⟩ := Option.map_eq_some_iff.1 h
      exact ⟨helement, (ownedType_eq_some htype).2⟩
    · cases h
  · cases h

/-! ### Calls -/

/-- What the registry holds of the user PATH. -/
structure Registry where
  path : Option RegValue
  record : Option Text
deriving DecidableEq

/-- Why the PATH is written: to change it, or to put back what it was before a change. -/
inductive Purpose
  | changing
  | restoring (old : Option RegValue)
deriving DecidableEq

inductive Op
  | readUserPath
  | compareAndWriteUserPath (expected : Option RegValue) (written : RegValue) (purpose : Purpose)
  | readRecordedElement
  | writeRecordedElement (element : Text)
  | clearRecordedElement
  | notifyEnvironmentChanged
deriving DecidableEq

/-- What a call returns, if it does not raise. -/
def Op.Value : Op → Type
  | .readUserPath => Option RegValue
  | .compareAndWriteUserPath _ _ _ => Bool
  | .readRecordedElement => Option Text
  | .writeRecordedElement _ => Unit
  | .clearRecordedElement => Unit
  | .notifyEnvironmentChanged => Unit

abbrev Op.Resp (o : Op) : Type := Answer o.Value

/-- What a call that does not raise returns, and leaves. -/
def Op.perform : (o : Op) → Registry → o.Value × Registry
  | .readUserPath, r => (r.path, r)
  | .compareAndWriteUserPath expected written _, r =>
    if r.path = expected then (true, { r with path := some written }) else (false, r)
  | .readRecordedElement, r => (r.record, r)
  | .writeRecordedElement element, r => ((), { r with record := some element })
  | .clearRecordedElement, r => ((), { r with record := none })
  | .notifyEnvironmentChanged, r => ((), r)

/-- Others may edit the PATH before any call, and any call may raise. -/
def weather (edits : ℕ → Option RegValue → Option RegValue) (raises : ℕ → Bool) :
    Schedule Op Op.Resp Registry :=
  Faults.faulty Op.perform (fun n r => { r with path := edits n r.path }) fun n _ => raises n

/-- Nobody interferes, and nothing fails. -/
def calm : Schedule Op Op.Resp Registry := Faults.undisturbed Op.perform fun _ => false

/-! ### Programs -/

/-- An exception: of a registry call, or of the notification. -/
inductive Raised
  | registryIOError
  | osError
deriving DecidableEq

abbrev Transacting (α : Type) := Transaction Op.Value Raised α

def readUserPath : Transacting (Option RegValue) :=
  Transaction.call Op.readUserPath Raised.registryIOError

def compareAndWriteUserPath (expected : Option RegValue) (written : RegValue) (purpose : Purpose) :
    Transacting Bool :=
  Transaction.call (Op.compareAndWriteUserPath expected written purpose) Raised.registryIOError

def readRecordedElement : Transacting (Option Text) :=
  Transaction.call Op.readRecordedElement Raised.registryIOError

def notifyEnvironmentChanged : Transacting Unit :=
  Transaction.call Op.notifyEnvironmentChanged Raised.osError

/-- What `append_user_path` makes of the record, and of the consent, before it adds to a
PATH: the PATH without the recorded route, where that is to be replaced. -/
def corrected (current : Option RegValue) (value : Text) (recorded : Option Text)
    (correctionConsent : Bool) : Except String Text :=
  match recorded with
  | none => .ok value
  | some text =>
    match owned text with
    | none => .error "path-record-invalid"
    | some old =>
      if current ≠ some ⟨old.path, old.type⟩ ∨ (split value).getLast? ≠ some old.element then
        .error "path-ownership-changed"
      else if !correctionConsent then .error "path-correction-consent-required"
      else .ok (join (split value).dropLast)

/-- Nothing is recorded, or the recorded route is the last of the PATH and goes. -/
theorem corrected_eq_ok {current : Option RegValue} {value value' : Text} {recorded : Option Text}
    {correctionConsent : Bool} (h : corrected current value recorded correctionConsent = .ok value') :
    recorded = none ∧ value' = value ∨ ∃ old, recorded.bind owned = some old ∧
      current = some ⟨old.path, old.type⟩ ∧ (split value).getLast? = some old.element ∧
      correctionConsent = true ∧ value' = join (split value).dropLast := by
  rcases recorded with _ | text
  · exact Or.inl ⟨rfl, (Except.ok.inj h).symm⟩
  · simp only [corrected] at h
    split at h
    · cases h
    · next old howned =>
      split_ifs at h with hchanged hconsent
      rw [not_or, not_not, not_not] at hchanged
      refine Or.inr ⟨old, howned, hchanged.1, hchanged.2, ?_, (Except.ok.inj h).symm⟩
      rcases correctionConsent
      · exact absurd rfl hconsent
      · rfl

/-- The parts of a PATH without its last one. -/
theorem split_join_dropLast (value : Text) : split (join (split value).dropLast) =
    (split value).dropLast ∨ (split value).dropLast = [] ∧
      split (join (split value).dropLast) = [[]] :=
  split_join fun _ hpart => not_mem_of_mem_split (List.mem_of_mem_dropLast hpart)

/-- A PATH to which a route is added that it did not have is another one. -/
theorem corrected_ne {current : Option RegValue} {value value' element : Text}
    {recorded : Option Text} {correctionConsent : Bool} (helement : element ∉ split value)
    (h : corrected current value recorded correctionConsent = .ok value') :
    value' ++ .ch ';' :: element ≠ value := by
  intro heq
  have hsplit := split_append value' element
  rw [heq] at hsplit
  rcases corrected_eq_ok h with ⟨-, rfl⟩ | ⟨old, -, -, hlast, -, rfl⟩
  · exact split_ne_nil element (List.self_eq_append_right.1 hsplit)
  · have hparts := List.dropLast_append_getLast? _ hlast
    rcases split_join_dropLast value with hkept | ⟨hnil, hkept⟩
    · rw [hkept] at hsplit
      have hold : split element = [old.element] :=
        (List.append_cancel_left (hparts.trans hsplit)).symm
      have heq : element = old.element := by
        rw [← join_split element, hold, join_singleton]
      exact helement (heq ▸ List.mem_of_getLast? hlast)
    · rw [hnil] at hparts
      rw [hkept] at hsplit
      exact split_ne_nil element (List.cons.inj (hparts.trans hsplit)).2.symm

/-- What follows a PATH that was changed: the record is updated, or the change is put
back. -/
def settle (update : Op) (changed : RegValue) (old : Option RegValue) (restored : RegValue) :
    Transacting Outcome := do
  match ← Transaction.tried update with
  | .raised =>
    if ← compareAndWriteUserPath (some changed) restored (.restoring old) then
      return ⟨false, some "path-bookkeeping-failed"⟩
    else return ⟨false, some "path-bookkeeping-rollback-failed"⟩
  | .returned _ =>
    notifyEnvironmentChanged
    return ⟨true, none⟩

/-- The rest of a round of `append_user_path`, after the PATH was read. There is no outcome
where others changed the PATH in between. -/
def appendTo (element : Text) (correctionConsent : Bool) (current : Option RegValue)
    (safe : RegValue) : Transacting (Option Outcome) := do
  let recorded ← readRecordedElement
  match corrected current safe.value recorded correctionConsent with
  | .error reason => return some ⟨false, some reason⟩
  | .ok value =>
    let changed : RegValue := ⟨value ++ .ch ';' :: element, safe.type⟩
    if ← compareAndWriteUserPath current changed .changing then
      let outcome ← settle (.writeRecordedElement (record element changed.value changed.type))
        changed current ⟨(current.map RegValue.value).getD [], changed.type⟩
      return some outcome
    else return none

/-- One round of `append_user_path`. -/
def appendOnce (element : Text) (correctionConsent : Bool) : Transacting (Option Outcome) := do
  let current ← readUserPath
  if current.isSome ∧ safePath current = none then
    return some ⟨false, some "path-value-unsafe"⟩
  else
    let safe := (safePath current).getD ⟨[], REG_EXPAND_SZ⟩
    if element ∈ split safe.value then return some ⟨false, none⟩
    else appendTo element correctionConsent current safe

/-- `append_user_path`: two rounds at most. -/
def appendUserPath (element : Text) (correctionConsent : Bool) : Transacting Outcome := do
  match ← appendOnce element correctionConsent with
  | some outcome => return outcome
  | none =>
    match ← appendOnce element correctionConsent with
    | some outcome => return outcome
    | none => return ⟨false, some "path-concurrency-unsafe"⟩

/-- `remove_recorded_user_path`. -/
def removeRecordedUserPath : Transacting Outcome := do
  let recorded ← readRecordedElement
  match recorded.bind owned with
  | none => return ⟨false, none⟩
  | some o =>
    match ← readUserPath with
    | none => return ⟨false, none⟩
    | some current =>
      if current ≠ ⟨o.path, o.type⟩ then
        if o.element ∈ split current.value then return ⟨false, some "path-ownership-changed"⟩
        else return ⟨false, none⟩
      else if (split o.path).getLast? ≠ some o.element then
        return ⟨false, some "path-ownership-changed"⟩
      else
        let changed : RegValue := ⟨join (split o.path).dropLast, o.type⟩
        if ← compareAndWriteUserPath (some current) changed .changing then
          settle .clearRecordedElement changed (some current) ⟨o.path, o.type⟩
        else return ⟨false, some "path-concurrency-unsafe"⟩

/-! ### Results -/

/-- What `_execute` reports of an operation, unless an exception ends it. -/
inductive Report
  | ok
  | refused (reason : String)
  | raised
deriving DecidableEq

/-- The report of a path operation. -/
def report : Except Raised Outcome → Report
  | .error .registryIOError => .refused "path-access-failed"
  | .error .osError => .raised
  | .ok ⟨_, none⟩ => .ok
  | .ok ⟨_, some reason⟩ => .refused reason

/-- The two path operations of a request. -/
inductive Command
  | pathAdd (element : Text) (correctionConsent : Bool)
  | pathRemove
deriving DecidableEq

def Command.transaction : Command → Transacting Outcome
  | .pathAdd element correctionConsent => appendUserPath element correctionConsent
  | .pathRemove => removeRecordedUserPath

/-- A path operation, from its first call on. -/
def Command.run (c : Command) (s : Schedule Op Op.Resp Registry) (r : Registry) :
    Ran Op Op.Resp Registry (Except Raised Outcome) := Prog.run s 0 c.transaction.run r

end UserPath

end YasbLimitora

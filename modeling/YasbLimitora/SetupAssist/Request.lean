import Mathlib
import YasbLimitora.Lib.Encoding
import YasbLimitora.Lib.Except
import YasbLimitora.Lib.JsonParse

/-!
# Requests to the setup assist

`setup_assist._validate_request`: the operations that a request asks for, with what each takes
along, or the reason why the request is refused. An accepted request asks for an operation once at
most, and for no cleanup of the state without its consent
(`YasbLimitora.SetupAssist.admissible_of_validateRequest`).

A request is refused for its form before anything of it is looked at: it must be an object of two
fields with the schema, and a list of at most as many operations as there are. Each operation has
its own keys, and a field whose name speaks of a place is refused wherever it stands, because the
places are for the program to know (`YasbLimitora.SetupAssist.isPathKey`).
-/

namespace YasbLimitora

namespace SetupAssist

open Json (Fields field?)

/-- `_ALLOWED_OPERATIONS`. -/
inductive Operation
  | discover
  | yasbRunning
  | pathAdd
  | pathRemove
  | envBlockApply
  | configApply
  | stateCleanup
deriving DecidableEq

def Operation.name : Operation → String
  | .discover => "discover"
  | .yasbRunning => "yasb-running"
  | .pathAdd => "path-add"
  | .pathRemove => "path-remove"
  | .envBlockApply => "env-block-apply"
  | .configApply => "config-apply"
  | .stateCleanup => "state-cleanup"

/-- What an operation takes along. -/
inductive Consent
  | flag (b : Bool)
  | yes
  | selection (fields : Fields)

def REQUEST_SCHEMA : String := "gentle-ai.yasb-limitora.setup-assist-request/v1"

def MAX_OPERATIONS : ℕ := 8

/-- How a request is read: no constant that is no JSON, and no key twice. -/
def requestReader : Json.Reader where
  float l := some (String.ofList l)
  constant _ := none
  repeats := false

/-- `set(item) == {…}`. -/
def HasKeys (keys : List String) (item : Fields) : Prop :=
  (∀ p ∈ item, p.1 ∈ keys.map Text.ofString) ∧ ∀ k ∈ keys.map Text.ofString, k ∈ item.map Prod.fst

instance (keys : List String) (item : Fields) : Decidable (HasKeys keys item) :=
  inferInstanceAs (Decidable (_ ∧ _))

/-! ### Keys that name a place -/

/-- The words of `_PATH_KEY`. -/
def pathWords : List (List Char) :=
  [['p', 'a', 't', 'h'], ['d', 'i', 'r'], ['t', 'a', 'r', 'g', 'e', 't'], ['f', 'i', 'l', 'e'],
    ['l', 'o', 'c', 'a', 't', 'i', 'o', 'n'], ['r', 'o', 'o', 't'], ['d', 'r', 'i', 'v', 'e']]

/-- `_PATH_KEY.search`. -/
def isPathKey (key : Text) : Bool := pathWords.any fun word => Text.hasWord word key

/-! ### Selections -/

/-- `_CONFIG_SELECTION_FIELDS`. -/
def selectionFields (key : Text) : Option (List String) :=
  if key = Text.ofString "deadline_seconds" then some []
  else if key = Text.ofString "codex" then some ["enabled", "runner", "timeout_seconds"]
  else if key = Text.ofString "opencode_go" then some ["enabled", "timeout_seconds"]
  else none

/-- What is selected under one key. -/
def validSelected (key : Text) (value : Json Text) : Bool :=
  match selectionFields key with
  | none => false
  | some allowed =>
    if key = Text.ofString "deadline_seconds" then true
    else match value with
      | .obj fields => fields ≠ [] ∧ ∀ f ∈ fields.map Prod.fst, f ∈ allowed.map Text.ofString
      | _ => false

/-- `_valid_config_selection`. -/
def validConfigSelection : Json Text → Option Fields
  | .obj fields =>
    if fields ≠ [] ∧ ∀ p ∈ fields, validSelected p.1 p.2 = true then some fields else none
  | _ => none

/-! ### Operations of a request -/

/-- What each operation asks for beside its name. -/
def consentOf (name : Text) (item : Fields) : Except String Consent :=
  if name = Text.ofString "env-block-apply" then
    match field? "consent" item with
    | some (.bool consent) =>
      if HasKeys ["operation", "consent"] item then .ok (.flag consent) else .error "schema-violation"
    | _ => .error "schema-violation"
  else if name = Text.ofString "path-add" then
    if HasKeys ["operation"] item then .ok (.flag false)
    else match field? "correctionConsent" item with
      | some (.bool consent) =>
        if HasKeys ["operation", "correctionConsent"] item then .ok (.flag consent)
        else .error "schema-violation"
      | _ => .error "schema-violation"
  else if name = Text.ofString "state-cleanup" then
    match field? "consent" item with
    | some (.str consent) =>
      if HasKeys ["operation", "consent"] item ∧ consent = Text.ofString "YES" then .ok .yes
      else .error "schema-violation"
    | _ => .error "schema-violation"
  else if name = Text.ofString "config-apply" then
    match (field? "selection" item).bind validConfigSelection with
    | some selection =>
      if HasKeys ["operation", "selection"] item then .ok (.selection selection)
      else .error "schema-violation"
    | none => .error "schema-violation"
  else if HasKeys ["operation"] item then .ok (.flag true)
  else .error "schema-violation"

/-- An operation that is allowed. -/
def operation? (name : Text) : Option Operation :=
  [.discover, .yasbRunning, .pathAdd, .pathRemove, .envBlockApply, .configApply,
    .stateCleanup].find? fun o : Operation => Text.ofString o.name = name

/-- One operation of a request. -/
def operationOf : Json Text → Except String (Operation × Consent)
  | .obj item =>
    if item.any fun p => isPathKey p.1 then .error "path-key-rejected"
    else match field? "operation" item with
      | some (.str name) => do
        let consent ← consentOf name item
        match operation? name with
        | some o => return (o, consent)
        | none => .error "unknown-operation"
      | _ => .error "schema-violation"
  | _ => .error "schema-violation"

/-- The operations of a request, after those that were read before. -/
def operationsFrom (names : List (Operation × Consent)) :
    List (Json Text) → Except String (List (Operation × Consent))
  | [] => .ok names
  | item :: items => do
    let x ← operationOf item
    if x.1 ∈ names.map Prod.fst then .error "duplicate-operation"
    else operationsFrom (names ++ [x]) items

/-- The operations of a document. -/
def operationsOf : Json Text → Except String (List (Operation × Consent))
  | .obj document =>
    match field? "schema" document, field? "operations" document with
    | some (.str schema), some (.arr operations) =>
      if ¬HasKeys ["schema", "operations"] document ∨ schema ≠ Text.ofString REQUEST_SCHEMA ∨
          operations = [] then .error "schema-violation"
      else if MAX_OPERATIONS < operations.length then .error "too-many-operations"
      else operationsFrom [] operations
    | _, _ => .error "schema-violation"
  | _ => .error "request-malformed"

/-- `_validate_request`. -/
def validateRequest (raw : Bytes) : Except String (List (Operation × Consent)) :=
  match Encoding.utf8 false raw with
  | none => .error "request-undecodable"
  | some text => match Json.parse requestReader text with
    | none => .error "request-malformed"
    | some document => operationsOf document

/-! ### What is accepted -/

/-- The cleanup of the state is only taken with consent. -/
theorem consent_of_operationOf {item : Json Text} {x : Operation × Consent}
    (h : operationOf item = .ok x) (hx : x.1 = .stateCleanup) : x.2 = .yes := by
  unfold operationOf at h
  split at h
  · split_ifs at h
    split at h
    · next name hname =>
      obtain ⟨consent, hconsent, h⟩ := bind_eq_ok_iff.1 h
      split at h
      · next o ho =>
        obtain rfl := Except.ok.inj h
        have hcleanup : Text.ofString "state-cleanup" = name := by
          have hfound := List.find?_some ho
          rw [decide_eq_true_eq, show o = .stateCleanup from hx] at hfound
          exact hfound
        subst hcleanup
        unfold consentOf at hconsent
        rw [if_neg (by decide), if_neg (by decide), if_pos rfl] at hconsent
        split at hconsent
        · split_ifs at hconsent
          exact (Except.ok.inj hconsent).symm
        · cases hconsent
      · cases h
    · cases h
  · cases h

/-- The operations of a request are distinct, and a cleanup has its consent. -/
structure Admissible (names : List (Operation × Consent)) : Prop where
  nodup : (names.map Prod.fst).Nodup
  consent : ∀ x ∈ names, x.1 = .stateCleanup → x.2 = .yes

/-- A list of operations stays admissible with each one that is taken. -/
theorem admissible_of_operationsFrom {items : List (Json Text)}
    {names names' : List (Operation × Consent)} (hnames : Admissible names)
    (h : operationsFrom names items = .ok names') : Admissible names' := by
  induction items generalizing names with
  | nil =>
    obtain rfl := Except.ok.inj h
    exact hnames
  | cons item items ih =>
    rw [operationsFrom] at h
    obtain ⟨x, hx, h⟩ := bind_eq_ok_iff.1 h
    split_ifs at h with hmem
    refine ih ⟨?_, ?_⟩ h
    · rw [List.map_append, List.nodup_append]
      refine ⟨hnames.nodup, List.nodup_singleton _, ?_⟩
      intro o ho o' ho' heq
      rw [List.map_singleton, List.mem_singleton] at ho'
      exact hmem (ho' ▸ heq ▸ ho)
    · intro y hy hcleanup
      rcases List.mem_append.1 hy with hy | hy
      · exact hnames.consent y hy hcleanup
      · obtain rfl := List.mem_singleton.1 hy
        exact consent_of_operationOf hx hcleanup

/-- **An accepted request is admissible.** -/
theorem admissible_of_validateRequest {raw : Bytes} {names : List (Operation × Consent)}
    (h : validateRequest raw = .ok names) : Admissible names := by
  unfold validateRequest at h
  split at h
  · cases h
  split at h
  · cases h
  unfold operationsOf at h
  split at h
  · split at h
    · split_ifs at h
      have hnone : Admissible [] := ⟨List.nodup_nil, fun _ hx => nomatch hx⟩
      exact admissible_of_operationsFrom hnone h
    · cases h
  · cases h

end SetupAssist

end YasbLimitora

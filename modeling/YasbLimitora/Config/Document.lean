import Mathlib
import YasbLimitora.Lib.Encoding
import YasbLimitora.Lib.Except
import YasbLimitora.Lib.JsonParse
import YasbLimitora.Model.Vocabulary

/-!
# Configuration documents

`config.py`: what a document says of the local configuration. A document whose part for one
provider is invalid is a configuration still, in which that provider has its defaults and
is noted as invalid.

`cli._load_explicit` and `config.validate_config_document` read a document from its bytes,
the first when the program runs, the second in the setup assist.

Both loaders share the validation and differ in what they do with bytes: the one of the program
decodes what it finds, in whatever encoding JSON may have, the other takes UTF-8 alone. The
floating-point numbers of the host language are a parameter (`YasbLimitora.Config.Floats`), since
the program reads them only to compare them with bounds. Both loaders report a refusal by a word of
their own and never say what was in the file.
-/

namespace YasbLimitora

namespace Config

open Json (Fields field?)

/-- The numbers that `float` makes, and how they are compared. -/
structure Floats (F : Type) where
  /-- `float` of the text of a number. -/
  ofText : String → F
  /-- `float` of an integer, which may be too large. -/
  ofInt : ℤ → Option F
  /-- A whole number of seconds. -/
  seconds : ℕ → F
  isFinite : F → Bool
  lt : F → F → Bool
  le : F → F → Bool

/-- Rational numbers in the place of floating-point ones, where these are whole. -/
def wholeFloats : Floats ℚ where
  ofText _ := 0
  ofInt n := some n
  seconds n := n
  isFinite _ := true
  lt x y := x < y
  le x y := x ≤ y

def DEFAULT_TIMEOUT_SECONDS : ℕ := 7

def MAX_CODEX_TIMEOUT_SECONDS : ℕ := 120

def MAX_OPENCODE_TIMEOUT_SECONDS : ℕ := 10

def DEFAULT_DEADLINE_SECONDS : ℕ := 7

def MIN_DEADLINE_SECONDS : ℕ := 1

def MAX_DEADLINE_SECONDS : ℕ := 120

structure CodexConfig (F : Type) where
  enabled : Bool
  runner : Option Text
  timeoutSeconds : F
deriving DecidableEq

structure OpenCodeGoConfig (F : Type) where
  enabled : Bool
  timeoutSeconds : F
deriving DecidableEq

structure LocalConfig (F : Type) where
  codex : CodexConfig F
  opencodeGo : OpenCodeGoConfig F
  deadlineSeconds : F
deriving DecidableEq

/-! ### Checks -/

/-- `_CREDENTIAL_KEY.search`. -/
def isCredentialKey (key : Text) : Bool :=
  [['c', 'o', 'o', 'k', 'i', 'e'], ['t', 'o', 'k', 'e', 'n'], ['p', 'a', 's', 's', 'w', 'o', 'r', 'd'],
    ['s', 'e', 'c', 'r', 'e', 't'], ['c', 'r', 'e', 'd', 'e', 'n', 't', 'i', 'a', 'l'],
    ['a', 'u', 't', 'h', 'o', 'r', 'i', 'z', 'a', 't', 'i', 'o', 'n']].any
      (fun word => Text.hasWord word key) ||
    Text.hasWords ['a', 'u', 't', 'h'] ['c', 'o', 'o', 'k', 'i', 'e'] key ||
    Text.hasWords ['a', 'p', 'i'] ['k', 'e', 'y'] key

mutual

/-- `_reject_credential_keys`: there is none in a value. -/
def credentialFree : Json Text → Bool
  | .arr items => credentialFreeItems items
  | .obj fields => credentialFreeFields fields
  | _ => true

def credentialFreeItems : List (Json Text) → Bool
  | [] => true
  | x :: xs => credentialFree x && credentialFreeItems xs

def credentialFreeFields : List (Text × Json Text) → Bool
  | [] => true
  | (k, x) :: fields => !isCredentialKey k && credentialFree x && credentialFreeFields fields

end

/-- `_fields`. -/
def checkFields (allowed : List String) (fields : Fields) : Except String Unit :=
  if ∀ p ∈ fields, p.1 ∈ allowed.map Text.ofString then .ok ()
  else .error "unsupported provider configuration field"

/-- `_mapping`. -/
def mapping : Json Text → Except String Fields
  | .obj fields => .ok fields
  | _ => .error "provider configuration must be an object"

def isSlash (p : CodePoint) : Bool := p == .ch '\\' || p == .ch '/'

/-- A path from a drive, as `ntpath.splitdrive` tells it. -/
def driveAbsolute : Text → Bool
  | letter :: .ch ':' :: p :: _ => !isSlash letter && isSlash p
  | _ => false

/-- A path from a share of a server. -/
def uncAbsolute : Text → Bool
  | .ch '\\' :: .ch '\\' :: rest =>
    match rest.splitOn (.ch '\\') with
    | server :: share :: _ => server ≠ [] ∧ share ≠ []
    | _ => false
  | _ => false

/-- `_runner`. -/
def runnerOf (value : Option (Json Text)) (enabled : Bool) : Except String (Option Text) :=
  match value with
  | none | some .null =>
    if enabled then .error "enabled Codex requires an absolute runner" else .ok none
  | some (.str path) =>
    if driveAbsolute path || uncAbsolute path then .ok (some path)
    else .error "Codex runner must be fully qualified"
  | some _ => .error "Codex runner must be fully qualified"

/-- `enabled` of a provider. -/
def enabledOf (fields : Fields) : Except String Bool :=
  match field? "enabled" fields with
  | none => .ok false
  | some (.bool enabled) => .ok enabled
  | some _ => .error "enabled must be a boolean"

section Numbers

variable {F : Type} (floats : Floats F)

/-- `float` of a number of a document. -/
def floatOf : Json Text → Option F
  | .int n => floats.ofInt n
  | .float text => some (floats.ofText text)
  | _ => none

/-- `_timeout`. -/
def timeoutOf (maximum : ℕ) (fields : Fields) : Except String F :=
  match (field? "timeout_seconds" fields).elim (some (floats.seconds DEFAULT_TIMEOUT_SECONDS))
    (floatOf floats) with
  | none => .error "invalid timeout_seconds"
  | some x =>
    if floats.isFinite x && floats.lt (floats.seconds 0) x && floats.le x (floats.seconds maximum) then
      .ok x
    else .error "invalid timeout_seconds"

/-- `_deadline`. -/
def deadlineOf (fields : Fields) : Except String F :=
  match (field? "deadline_seconds" fields).elim (some (floats.seconds DEFAULT_DEADLINE_SECONDS))
    (floatOf floats) with
  | none => .error "invalid deadline_seconds"
  | some x =>
    if floats.isFinite x && floats.le (floats.seconds MIN_DEADLINE_SECONDS) x &&
        floats.le x (floats.seconds MAX_DEADLINE_SECONDS) then .ok x
    else .error "invalid deadline_seconds"

/-! ### The configuration -/

/-- `CodexConfig()`. -/
def CodexConfig.default : CodexConfig F := ⟨false, none, floats.seconds DEFAULT_TIMEOUT_SECONDS⟩

/-- `OpenCodeGoConfig()`. -/
def OpenCodeGoConfig.default : OpenCodeGoConfig F := ⟨false, floats.seconds DEFAULT_TIMEOUT_SECONDS⟩

/-- `CodexConfig.from_mapping`. -/
def CodexConfig.fromMapping (value : Json Text) : Except String (CodexConfig F) := do
  let fields ← mapping value
  checkFields ["enabled", "runner", "timeout_seconds"] fields
  let timeout ← timeoutOf floats MAX_CODEX_TIMEOUT_SECONDS fields
  let enabled ← enabledOf fields
  let runner ← runnerOf (field? "runner" fields) enabled
  return ⟨enabled, runner, timeout⟩

/-- `OpenCodeGoConfig.from_mapping`. -/
def OpenCodeGoConfig.fromMapping (value : Json Text) : Except String (OpenCodeGoConfig F) := do
  let fields ← mapping value
  checkFields ["enabled", "timeout_seconds"] fields
  let timeout ← timeoutOf floats MAX_OPENCODE_TIMEOUT_SECONDS fields
  let enabled ← enabledOf fields
  return ⟨enabled, timeout⟩

/-- A provider that is invalid is noted, with its default in its place, if such are
collected. -/
def collected {α : Type} (collect : Bool) (key : ProviderKey) (default : α)
    (result : Except String α) : Except String (α × List ProviderKey) :=
  match result with
  | .ok config => .ok (config, [])
  | .error message => if collect then .ok (default, [key]) else .error message

/-- `LocalConfig.from_mapping`, with the providers that are invalid if these are collected. -/
def LocalConfig.fromMapping (collect : Bool) (value : Json Text) :
    Except String (LocalConfig F × List ProviderKey) := do
  if !credentialFree value then .error "credential-like configuration is not accepted"
  else
    let fields ← mapping value
    checkFields ["deadline_seconds", "codex", "opencode_go"] fields
    let (codex, invalid) ← collected collect .codex (CodexConfig.default floats)
      (CodexConfig.fromMapping floats ((field? "codex" fields).getD (.obj [])))
    let (opencodeGo, invalid') ← collected collect .opencodeGo (OpenCodeGoConfig.default floats)
      (OpenCodeGoConfig.fromMapping floats ((field? "opencode_go" fields).getD (.obj [])))
    let deadline ← deadlineOf floats fields
    return (⟨codex, opencodeGo, deadline⟩, invalid ++ invalid')

/-! ### The two loaders -/

/-- Why a document is no configuration. -/
inductive Refusal
  | undecodable
  | malformed
  | tooDeep
  | invalid (message : String)
deriving DecidableEq

/-- How a document is read: no constant that is no JSON, and no key twice. -/
def configReader : Json.Reader where
  float l := some (String.ofList l)
  constant _ := none
  repeats := false

/-- What the text of a document says, where values may be nested so deep. -/
def ofText (limit : ℕ) (collect : Bool) (t : Text) :
    Except Refusal (LocalConfig F × List ProviderKey) :=
  match Json.parse configReader t with
  | none => .error .malformed
  | some value =>
    if limit < value.depth then .error .tooDeep
    else match LocalConfig.fromMapping floats collect value with
      | .error message => .error (.invalid message)
      | .ok result => .ok result

/-- `cli._load_explicit`, after the read. -/
def loadExplicit (limit : ℕ) (raw : Bytes) : Except Refusal (LocalConfig F × List ProviderKey) :=
  match (Encoding.detect raw).text raw with
  | none => .error .malformed
  | some t => ofText floats limit true t

/-- `validate_config_document`. -/
def validateConfigDocument (limit : ℕ) (collect : Bool) (raw : Bytes) :
    Except Refusal (LocalConfig F × List ProviderKey) :=
  match Encoding.utf8 false raw with
  | none => .error .undecodable
  | some t => ofText floats limit collect t

end Numbers

end Config

end YasbLimitora

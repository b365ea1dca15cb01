import Mathlib
import YasbLimitora.Lib.Except
import YasbLimitora.Model.Deadline
import YasbLimitora.Model.Views

/-!
# One refresh attempt

`RefreshAttempt.run` of `worker.py`: which providers are called, what becomes of their
views when the deadline passes or a call raises, and the error of the whole document.
What the attempt is told by others – the clock, the guard, the providers and the
cleanup of their resources – is part of the record, so that an attempt is run against
every possible course of events.

`YasbLimitora.RefreshAttempt.execute_eq` says once what the body of an attempt comes
to: the first exception among the calls that are made, or the document of its stage.

The providers are called one after the other, and each of them only if it is enabled and there is
time. An exception of a call ends the body, and is then mapped to a view or to an error of the
document. The cleanup comes in any case, and what it reports may replace what was returned.
-/

namespace YasbLimitora

structure CodexConfig where
  enabled : Bool
  runner : Option String

structure OpenCodeConfig where
  enabled : Bool

structure LocalConfig where
  codex : CodexConfig
  opencodeGo : OpenCodeConfig

/-- An exception: one of the guard, with its code, or any other. -/
inductive Raised
  | guardError (code : String)
  | other
deriving DecidableEq, Repr

/-- How the guard is acquired: there is none, or there is a lease of it, or it raises. -/
inductive GuardAnswer
  | unguarded
  | acquired
  | raised (error : Raised)
deriving DecidableEq, Repr

/-- A text that is there and not empty. -/
def givenText (text : Option String) : Bool := text.any (· ≠ "")

section Attempt

variable [UnicodeData]

/-- An attempt, and all it is told while it runs. The cleanup and the leases of an
earlier attempt are there only if that attempt left some behind. -/
structure RefreshAttempt where
  config : LocalConfig
  apiKey : Option String
  context : DeadlineContext
  providerErrors : ProviderSet
  staleCleanup : Option Bool
  staleLeases : Option Bool
  guard : GuardAnswer
  firstClock : ℤ
  codexAnswer : Except Raised ProviderView
  secondClock : ℤ
  opencodeAnswer : Except Raised ProviderView
  cleanupSafe : Bool
  leaseReleased : Bool

/-- `_document`: a view under the wrong provider raises. -/
def aggregate (views : ProviderKey → ProviderView) (error : Option SafeErrorCode) :
    Except Raised DocumentView :=
  if h : (views .codex).provider = .codex ∧ (views .opencodeGo).provider = .opencodeGo then
    .ok ⟨views .codex, views .opencodeGo, error, h.1, h.2⟩
  else .error .other

namespace RefreshAttempt

variable (a : RefreshAttempt)

/-- The views before any provider is called. -/
def initialViews (provider : ProviderKey) : ProviderView :=
  if a.providerErrors provider then safeErrorView provider .configurationInvalid
  else notRunView provider "disabled"

/-- The providers that can be called. -/
def enabled : ProviderSet
  | .codex =>
    !a.providerErrors .codex && a.config.codex.enabled && givenText a.config.codex.runner
  | .opencodeGo =>
    !a.providerErrors .opencodeGo && a.config.opencodeGo.enabled && givenText a.apiKey

/-- The usable time is up. -/
def exhausted (clock : ℤ) : Bool := a.context.usableNs clock ≤ 0

/-- The views of providers in error are kept, the others were not run. -/
def keptViews (reason : String) (provider : ProviderKey) : ProviderView :=
  if a.providerErrors provider then a.initialViews provider else notRunView provider reason

/-- The call of Codex, if there is one to be called. -/
def runCodex (views : ProviderKey → ProviderView) :
    Except Raised (ProviderKey → ProviderView) := do
  if a.enabled .codex then
    let view ← (if givenText a.config.codex.runner then a.codexAnswer
      else .ok (safeErrorView .codex .configurationInvalid))
    return Function.update views .codex view
  else return views

/-- The call of OpenCode. -/
def runOpenCode (views : ProviderKey → ProviderView) :
    Except Raised (ProviderKey → ProviderView) := do
  let view ← (if givenText a.apiKey then a.opencodeAnswer
    else .ok (safeErrorView .opencodeGo .configurationInvalid))
  return Function.update views .opencodeGo view

/-- The body of `RefreshAttempt.run`, which may raise. -/
def execute : Except Raised DocumentView := do
  match a.guard with
  | .raised error => throw error
  | _ =>
    if a.exhausted a.firstClock then
      aggregate (a.keptViews "deadline_exhausted") (some .deadlineExhausted)
    else do
      let views ← a.runCodex a.initialViews
      if a.enabled .opencodeGo then
        if a.exhausted a.secondClock then
          aggregate (Function.update views .opencodeGo
            (notRunView .opencodeGo "deadline_exhausted")) (some .deadlineExhausted)
        else do
          let views ← a.runOpenCode views
          aggregate views none
      else aggregate views none

/-- The document of a guard that raises. -/
def guardDocument (code : String) : DocumentView :=
  if code = "guard_wait_timeout" then
    .ordered (notRunOf .codex "guard_wait_timeout") (notRunOf .opencodeGo "guard_wait_timeout")
      (some .guardWaitTimeout)
  else
    .ordered (notRunOf .codex "document_aborted") (notRunOf .opencodeGo "document_aborted")
      (some .guardAcquisitionFailed)

/-- The lease of the guard is given back only once the resources are cleaned up. -/
def cleanupError : Bool :=
  !(a.cleanupSafe && (a.guard != .acquired || a.leaseReleased))

/-- What an earlier attempt left behind could not be cleaned up. -/
def staleFailed : Bool := a.staleCleanup == some false || a.staleLeases == some false

/-- No provider can be called. -/
def idle : Bool := !a.enabled .codex && !a.enabled .opencodeGo

/-- An exception of the guard is a document, any other is raised again. -/
def caught : Except Raised DocumentView → Except Raised DocumentView
  | .error (.guardError code) => .ok (guardDocument code)
  | answer => answer

/-- `RefreshAttempt.run`. -/
def run : Except Raised DocumentView :=
  if a.staleFailed then aggregate a.initialViews (some .cleanupFailed)
  else if a.idle then aggregate a.initialViews none
  else do
    let result ← caught a.execute
    return if a.cleanupError then { result with documentError := some .cleanupFailed } else result

/-! ### What the body comes to -/

/-- Where the body of an attempt ends: the deadline has passed before any provider is
called, or before OpenCode is, or all were called. -/
inductive Stage
  | early
  | late
  | finished
deriving DecidableEq, Repr

def stage : Stage :=
  if a.exhausted a.firstClock then .early
  else if a.enabled .opencodeGo ∧ a.exhausted a.secondClock then .late
  else .finished

/-- What a provider answers. -/
def answer : ProviderKey → Except Raised ProviderView
  | .codex => a.codexAnswer
  | .opencodeGo => a.opencodeAnswer

/-- What the call of a provider raises, if the provider is called. -/
def raisedBy (provider : ProviderKey) : Option Raised :=
  match a.enabled provider, a.answer provider with
  | true, .error e => some e
  | _, _ => none

/-- What the calls that are made raise, in their order. -/
def raises : List (Option Raised) :=
  (match a.guard with | .raised e => some e | _ => none) ::
    match a.stage with
    | .early => []
    | .late => [a.raisedBy .codex]
    | .finished => [a.raisedBy .codex, a.raisedBy .opencodeGo]

/-- The first exception that is raised. -/
def firstRaised : Option Raised := a.raises.findSome? id

/-- The view of a provider once it is called: its answer, or the view there was. -/
def recorded (provider : ProviderKey) : ProviderView :=
  match a.enabled provider, a.answer provider with
  | true, .ok view => view
  | _, _ => a.initialViews provider

/-- The views at the end of the body. -/
def finalViews : ProviderKey → ProviderView :=
  match a.stage with
  | .early => a.keptViews "deadline_exhausted"
  | .late =>
    Function.update a.recorded .opencodeGo (notRunView .opencodeGo "deadline_exhausted")
  | .finished => a.recorded

/-- The error of the document at the end of the body. -/
def finalError : Option SafeErrorCode :=
  match a.stage with
  | .finished => none
  | _ => some .deadlineExhausted

variable {a}

theorem givenText_runner (h : a.enabled .codex) : givenText a.config.codex.runner := by
  simp only [enabled, Bool.and_eq_true] at h
  exact h.2

theorem givenText_apiKey (h : a.enabled .opencodeGo) : givenText a.apiKey := by
  simp only [enabled, Bool.and_eq_true] at h
  exact h.2

theorem recorded_of_not_enabled {provider : ProviderKey} (h : ¬a.enabled provider) :
    a.recorded provider = a.initialViews provider := by
  rw [Bool.not_eq_true] at h
  rw [recorded, h]

theorem raisedBy_of_not_enabled {provider : ProviderKey} (h : ¬a.enabled provider) :
    a.raisedBy provider = none := by
  rw [Bool.not_eq_true] at h
  rw [raisedBy, h]

/-- The views once Codex is done. -/
theorem runCodex_eq : a.runCodex a.initialViews =
    match a.raisedBy .codex with
    | some e => .error e
    | none => .ok (Function.update a.recorded .opencodeGo (a.initialViews .opencodeGo)) := by
  by_cases h : a.enabled .codex
  · rcases hc : a.codexAnswer with e | view
    · simp only [runCodex, h, givenText_runner h, hc, if_true, raisedBy, answer]
      rfl
    · simp only [runCodex, h, givenText_runner h, hc, if_true, raisedBy, answer]
      refine congrArg Except.ok ?_
      funext provider
      rcases provider with _ | _ <;> simp [recorded, h, hc, answer]
  · rw [raisedBy_of_not_enabled h, runCodex, if_neg h]
    refine congrArg Except.ok ?_
    funext provider
    rcases provider with _ | _ <;> simp [recorded_of_not_enabled h]

theorem runOpenCode_eq (h : a.enabled .opencodeGo) (views : ProviderKey → ProviderView) :
    a.runOpenCode views = Function.update views .opencodeGo <$> a.opencodeAnswer := by
  simp only [runOpenCode, givenText_apiKey h, if_true]
  rcases a.opencodeAnswer with e | view <;> rfl

/-- **What the body of an attempt comes to**: the first exception of the calls that are
made, and if there is none, the document of the views its stage leaves. -/
theorem execute_eq : a.execute =
    match a.firstRaised with
    | some error => .error error
    | none => aggregate a.finalViews a.finalError := by
  rcases hg : a.guard with _ | _ | e
  case raised => simp only [execute, firstRaised, raises, hg]; rfl
  all_goals
    simp only [execute, firstRaised, raises, hg, finalViews, finalError, stage, runCodex_eq]
    by_cases hfirst : a.exhausted a.firstClock
    · simp only [hfirst, if_true]
      rfl
    simp only [hfirst, Bool.false_eq_true, if_false]
    rcases hc : a.raisedBy .codex with _ | e
    case some =>
      by_cases hlate : a.enabled .opencodeGo ∧ a.exhausted a.secondClock
      · simp only [if_pos hlate]
        rfl
      · simp only [if_neg hlate]
        rfl
    by_cases ho : a.enabled .opencodeGo
    case neg =>
      have hrec : Function.update a.recorded .opencodeGo (a.initialViews .opencodeGo)
          = a.recorded := by
        rw [← recorded_of_not_enabled ho, Function.update_eq_self]
      simp [ho, raisedBy_of_not_enabled ho, hrec]
    by_cases hsecond : a.exhausted a.secondClock
    · simp [ho, hsecond]
    rcases hv : a.opencodeAnswer with e | view
    · simp [ho, hsecond, runOpenCode_eq ho, hv, raisedBy, answer]
    · have hrec : Function.update a.recorded .opencodeGo view = a.recorded := by
        rw [Function.update_eq_self_iff]
        simp [recorded, ho, answer, hv]
      simp [ho, hsecond, runOpenCode_eq ho, hv, raisedBy, answer, hrec]

end RefreshAttempt

end Attempt

end YasbLimitora

import Mathlib
import YasbLimitora.Isolation.Exchange
import YasbLimitora.Lib.JsonSize
import YasbLimitora.Model.Views

/-!
# Sessions

The messages of `isolation/protocol.py` and its `ProtocolSession`, which takes `contained`,
`ready`, `go` and a result or an error, in this order and of one nonce. Of whatever is offered to
it, a session takes as much of such a conversation as there is: what it takes is one, in order, and no
conversation among what it is offered is longer (`YasbLimitora.Protocol.session_takes`). Whoever offers
the four messages of a conversation, with whatever is between them, has them all taken
(`YasbLimitora.Protocol.session_completes`).

Of a message that is one, only a lone surrogate keeps it from being sent: every value of a message is
short, so that its frame is far smaller than the limits (`YasbLimitora.Protocol.encodeFrame_error_iff`).
The converse, what a payload is refused for, is told by the text alone where the reason is a key that
comes twice (`YasbLimitora.Protocol.decodePayload_eq_duplicateKey_iff`).

A result tells of a view its provider, its state, its error and its label. Its outcome, its snapshot and
why it was not run are not told, so that a view comes back from its frame without them, and as it was if
and only if it had none (`YasbLimitora.Protocol.view_round_trip`).
-/

namespace YasbLimitora

namespace Protocol

open Json (Fields field? orderFields)
open Encoding (Spelled)

/-! ### Messages -/

/-- A view with its label. -/
structure WireView [UnicodeData] where
  view : ProviderView
  label : Option Text
  label_ok : checkLabel (label.map .str) = .ok ()

namespace Session

/-- `_state`. -/
def stateMessage (kind : String) (nonce : Text) : Except ProtocolErrorCode Fields := do
  checkNonce nonce
  return [(Text.ofString "type", .str (Text.ofString kind)), (Text.ofString "nonce", .str nonce)]

def containedMessage (nonce : Text) : Except ProtocolErrorCode Fields := stateMessage "contained" nonce

def readyMessage (nonce : Text) : Except ProtocolErrorCode Fields := stateMessage "ready" nonce

def goMessage (nonce : Text) : Except ProtocolErrorCode Fields := stateMessage "go" nonce

/-- The fields of a result. -/
def resultFields [UnicodeData] (nonce : Text) (w : WireView) : Fields :=
  [(Text.ofString "type", .str (Text.ofString "result")), (Text.ofString "nonce", .str nonce),
    (Text.ofString "provider", .str (Text.ofString w.view.provider.value)),
    (Text.ofString "state", .str (Text.ofString w.view.state.value))] ++
  (w.label.map fun label => (Text.ofString "display_label", Json.str label)).toList ++
  (w.view.error.map fun code => (Text.ofString "error",
    Json.obj [(Text.ofString "code", .str (Text.ofString code.value))])).toList

/-- `result_message`. -/
def resultMessage [UnicodeData] (nonce : Text) (w : WireView) : Except ProtocolErrorCode Fields := do
  checkNonce nonce
  validate (.obj (resultFields nonce w))

/-- `error_message`. -/
def errorMessage (nonce : Text) (code : SafeErrorCode) : Except ProtocolErrorCode Fields := do
  checkNonce nonce
  return [(Text.ofString "type", .str (Text.ofString "error")), (Text.ofString "nonce", .str nonce),
    (Text.ofString "code", .str (Text.ofString code.value))]

end Session

theorem outcomeOk_none [UnicodeData] {state : ProviderState} {error : Option SafeErrorCode}
    (h : error.isSome ↔ state = .safeError) : OutcomeOk state error none none none :=
  ⟨h, iff_of_false nofun nofun, fun _ => Or.inl rfl, nofun, nofun⟩

/-- The constructor of a view of which a result tells: it has no outcome. -/
def WireView.make [UnicodeData] (provider : ProviderKey) (state : ProviderState) (error : Option SafeErrorCode)
    (label : Option Text) : Option WireView :=
  if h : (error.isSome ↔ state = .safeError) ∧ checkLabel (label.map .str) = .ok () then
    some ⟨⟨provider, state, error, none, none, none, outcomeOk_none h.1⟩, label, h.2⟩
  else none

/-- The text of a field, if it is one. -/
def textOf : Option (Json Text) → Option Text
  | some (.str text) => some text
  | _ => none

/-- The code of the error of a result. -/
def codeOf : Option (Json Text) → Option SafeErrorCode
  | some (.obj fields) => (field? "code" fields).bind (member? SafeErrorCode.all SafeErrorCode.value)
  | _ => none

/-- The constructor of a view, of the fields of a result. -/
def viewOf [UnicodeData] (fields : Fields) : Option WireView := do
  let provider ← (field? "provider" fields).bind (member? ProviderKey.all ProviderKey.value)
  let state ← (field? "state" fields).bind (member? ProviderState.all ProviderState.value)
  WireView.make provider state (codeOf (field? "error" fields)) (textOf (field? "display_label" fields))

/-- `message_view`. What was validated is a view, so that its constructor refuses nothing. -/
def messageView [UnicodeData] (message : Json Text) : Except ProtocolErrorCode WireView := do
  let validated ← validate message
  if textOf (field? "type" validated) ≠ some (Text.ofString "result") then throw .invalidMessage
  else match viewOf validated with
    | some view => return view
    | none => throw .invalidMessage

/-! ### The session -/

inductive SessionState
  | start
  | contained
  | ready
  | go
  | terminal
deriving DecidableEq

/-- The kinds of message that come next. -/
def SessionState.expected : SessionState → List String
  | .start => ["contained"]
  | .contained => ["ready"]
  | .ready => ["go"]
  | .go => ["result", "error"]
  | .terminal => []

/-- The state after a message of some kind. -/
def SessionState.after (kind : Text) : SessionState :=
  if kind = Text.ofString "contained" then .contained
  else if kind = Text.ofString "ready" then .ready
  else if kind = Text.ofString "go" then .go
  else .terminal

structure ProtocolSession where
  nonce : Text
  state : SessionState
  valid : checkNonce nonce = .ok ()

namespace ProtocolSession

def start (nonce : Text) (h : checkNonce nonce = .ok ()) : ProtocolSession := ⟨nonce, .start, h⟩

/-- `accept`. -/
def accept (s : ProtocolSession) (message : Json Text) : Except ProtocolErrorCode (Fields × ProtocolSession) := do
  let validated ← validate message
  if textOf (field? "nonce" validated) ≠ some s.nonce then throw .nonceMismatch
  else match s.state.expected.find? fun kind => textOf (field? "type" validated) = some (Text.ofString kind) with
    | none => throw .invalidTransition
    | some kind => return (validated, { s with state := .after (Text.ofString kind) })

/-- What a session has taken of the messages that it was offered, and what it is then. -/
def offer (s : ProtocolSession) : List (Json Text) → List Fields × ProtocolSession
  | [] => ([], s)
  | message :: messages =>
    match s.accept message with
    | .error _ => s.offer messages
    | .ok (validated, s) =>
      let rest := s.offer messages
      (validated :: rest.1, rest.2)

end ProtocolSession

section Session

variable {s s' : ProtocolSession} {nonce : Text} {fields : Fields} {message : Json Text}

/-- A message of some kind, under a nonce. -/
structure IsMessage (nonce : Text) (kind : String) (fields : Fields) : Prop where
  checked : checkFields fields = .ok ()
  kind : field? "type" fields = some (.str (Text.ofString kind))
  nonce : field? "nonce" fields = some (.str nonce)

/-- A value has a text if it is a string. -/
theorem textOf_eq_some_iff {x : Option (Json Text)} {text : Text} : textOf x = some text ↔ x = some (.str text) := by
  constructor
  · intro h
    unfold textOf at h
    split at h
    · exact congrArg (some ∘ Json.str) (Option.some.inj h)
    · cases h
  · rintro rfl
    rfl

/-- **What a session takes**: a message of the next kind, under its nonce. -/
theorem accept_eq_ok_iff : s.accept message = .ok (fields, s') ↔
    message = .obj fields ∧ ∃ kind ∈ s.state.expected, IsMessage s.nonce kind fields ∧
      s' = { s with state := .after (Text.ofString kind) } := by
  unfold ProtocolSession.accept
  rw [bind_eq_ok_iff]
  constructor
  · rintro ⟨validated, hvalidate, h⟩
    obtain ⟨rfl, hchecked⟩ := validate_eq_ok_iff.1 hvalidate
    split_ifs at h with hnonce
    split at h
    · cases h
    next kind hkind =>
    obtain ⟨rfl, rfl⟩ := Prod.mk.inj (Except.ok.inj h)
    refine ⟨rfl, kind, List.mem_of_find?_eq_some hkind, ⟨hchecked, ?_, ?_⟩, rfl⟩
    · have hfound := List.find?_some hkind
      exact textOf_eq_some_iff.1 (of_decide_eq_true hfound)
    · exact textOf_eq_some_iff.1 (not_not.1 hnonce)
  · rintro ⟨rfl, kind, hkind, hmessage, rfl⟩
    refine ⟨fields, validate_eq_ok_iff.2 ⟨rfl, hmessage.checked⟩, ?_⟩
    rw [if_neg (not_not.2 (textOf_eq_some_iff.2 hmessage.nonce))]
    -- no other kind has the same text
    obtain ⟨found, hfound⟩ : ∃ found, (s.state.expected.find? fun k =>
        textOf (field? "type" fields) = some (Text.ofString k)) = some found := by
      refine Option.isSome_iff_exists.1 (List.find?_isSome.2 ⟨kind, hkind, ?_⟩)
      exact decide_eq_true (textOf_eq_some_iff.2 hmessage.kind)
    have hsome := List.find?_some hfound
    have htext : textOf (field? "type" fields) = some (Text.ofString found) := of_decide_eq_true hsome
    obtain rfl : kind = found :=
      Text.ofString_injective (Option.some.inj ((textOf_eq_some_iff.2 hmessage.kind).symm.trans htext))
    rw [hfound]
    rfl

/-- A member of a vocabulary is found by its own text. -/
theorem member?_str {α : Type} {members : List α} {value : α → String} {a : α}
    (h : ofValue members value (value a) = some a) : member? members value (.str (Text.ofString (value a))) = some a := by
  rw [member?, Text.toString_ofString]
  exact h

theorem ofValue_provider (p : ProviderKey) : ofValue ProviderKey.all ProviderKey.value p.value = some p := by
  cases p <;> decide

theorem ofValue_state (s : ProviderState) : ofValue ProviderState.all ProviderState.value s.value = some s := by
  cases s <;> decide

theorem ofValue_code (c : SafeErrorCode) : ofValue SafeErrorCode.all SafeErrorCode.value c.value = some c := by
  cases c <;> decide

/-- A message of a checked nonce is checked as its kind says. -/
theorem checkFields_eq {kind : Text} (hkind : field? "type" fields = some (.str kind))
    (hnonce : field? "nonce" fields = some (.str nonce)) (h : checkNonce nonce = .ok ()) :
    checkFields fields = checkKind kind fields := by
  rw [checkFields, hkind, hnonce]
  change (checkNonce nonce >>= fun _ => checkKind kind fields) = checkKind kind fields
  rw [h]
  rfl

section Result

variable {provider : ProviderKey} {state : ProviderState} {error : Option SafeErrorCode} {label : Option Text}

/-- The error of a view passes the check of the state that it comes with. -/
theorem checkError_map (h : error.isSome ↔ state = .safeError) :
    checkError state (error.map fun code =>
      Json.obj [(Text.ofString "code", .str (Text.ofString code.value))]) = .ok () := by
  cases error with
  | none => exact if_neg fun hstate => Bool.false_ne_true (h.2 hstate)
  | some code =>
    have hcode : (field? "code" [(Text.ofString "code", (.str (Text.ofString code.value) : Json Text))]).bind
        (member? SafeErrorCode.all SafeErrorCode.value) = some code := member?_str (ofValue_code code)
    have hfine : ¬(state ≠ .safeError ∨ [Text.ofString "code"] ≠ [Text.ofString "code"]) :=
      not_or.2 ⟨not_not.2 (h.1 rfl), not_not.2 rfl⟩
    refine (if_neg hfine).trans ?_
    rw [checkCode, hcode]

variable [UnicodeData] {w : WireView}

variable (nonce) in
/-- The fields of the result of a view, one by one. -/
theorem field?_resultFields (w : WireView) :
    field? "type" (Session.resultFields nonce w) = some (.str (Text.ofString "result")) ∧
      field? "nonce" (Session.resultFields nonce w) = some (.str nonce) ∧
      field? "provider" (Session.resultFields nonce w) = some (.str (Text.ofString w.view.provider.value)) ∧
      field? "state" (Session.resultFields nonce w) = some (.str (Text.ofString w.view.state.value)) ∧
      field? "display_label" (Session.resultFields nonce w) = w.label.map .str ∧
      field? "error" (Session.resultFields nonce w) = w.view.error.map fun code =>
        Json.obj [(Text.ofString "code", .str (Text.ofString code.value))] := by
  obtain ⟨⟨provider, state, error, outcome, snapshot, reason, hok⟩, label, hlabel⟩ := w
  refine ⟨rfl, rfl, rfl, rfl, ?_, ?_⟩
  all_goals rcases label with _ | label <;> rcases error with _ | code <;> rfl

/-- The fields of a result pass the check of the fields of a result. -/
theorem checkResult_resultFields : checkResult (Session.resultFields nonce w) = .ok () := by
  obtain ⟨-, -, hprovider, hstate, hlabel, herror⟩ := field?_resultFields nonce w
  have hprovider' : (field? "provider" (Session.resultFields nonce w)).bind
      (member? ProviderKey.all ProviderKey.value) = some w.view.provider := by
    rw [hprovider]
    exact member?_str (ofValue_provider _)
  have hstate' : (field? "state" (Session.resultFields nonce w)).bind
      (member? ProviderState.all ProviderState.value) = some w.view.state := by
    rw [hstate]
    exact member?_str (ofValue_state _)
  rw [checkResult, hprovider', hstate', hlabel, herror]
  change (checkLabel (w.label.map .str) >>= fun _ => checkError w.view.state _) = .ok ()
  rw [w.label_ok]
  exact checkError_map w.view.ok.error_iff

/-- The keys of the result of a view, with a label or not, and with an error or not. -/
def resultKeys (label error : Bool) : List String :=
  ["type", "nonce", "provider", "state"] ++ (if label then ["display_label"] else []) ++ if error then ["error"] else []

/-- The keys of a result are those of its kind, as a label and an error are there or not. -/
theorem keys_resultFields (w : WireView) : (Session.resultFields nonce w).map Prod.fst =
    (resultKeys w.label.isSome w.view.error.isSome).map Text.ofString := by
  obtain ⟨⟨provider, state, error, outcome, snapshot, reason, hok⟩, label, hlabel⟩ := w
  rcases label with _ | label <;> rcases error with _ | code <;> rfl

variable (nonce) in
theorem nodup_resultFields (w : WireView) : ((Session.resultFields nonce w).map Prod.fst).Nodup := by
  have hnodup : ∀ label error, ((resultKeys label error).map Text.ofString).Nodup := by decide
  rw [keys_resultFields]
  exact hnodup _ _

/-- A result is checked by the rules of results. -/
theorem checkKind_resultFields : checkKind (Text.ofString "result") (Session.resultFields nonce w) = .ok () := by
  have hallowed : allowedFields (Text.ofString "result")
      = some ["type", "nonce", "provider", "state", "display_label", "error"] := by decide
  have hknown : ∀ label error, ∀ key ∈ (resultKeys label error).map Text.ofString,
      key ∈ ["type", "nonce", "provider", "state", "display_label", "error"].map Text.ofString := by decide
  have hrequired : ∀ label error, ∀ key ∈ requiredFields (Text.ofString "result"),
      Text.ofString key ∈ (resultKeys label error).map Text.ofString := by decide
  rw [checkKind, hallowed]
  have hnone : ¬∃ p ∈ Session.resultFields nonce w,
      p.1 ∉ ["type", "nonce", "provider", "state", "display_label", "error"].map Text.ofString := by
    rintro ⟨p, hp, hkey⟩
    have hkeys : p.1 ∈ (Session.resultFields nonce w).map Prod.fst := List.mem_map_of_mem hp
    rw [keys_resultFields] at hkeys
    exact hkey (hknown _ _ _ hkeys)
  have hall : ¬∃ key ∈ requiredFields (Text.ofString "result"),
      Text.ofString key ∉ (Session.resultFields nonce w).map Prod.fst := by
    rintro ⟨key, hkey, hmissing⟩
    rw [keys_resultFields] at hmissing
    exact hmissing (hrequired _ _ key hkey)
  exact (if_neg hnone).trans ((if_neg hall).trans ((if_pos rfl).trans checkResult_resultFields))

theorem isMessage_result (h : checkNonce nonce = .ok ()) :
    IsMessage nonce "result" (Session.resultFields nonce w) where
  checked := (checkFields_eq rfl rfl h).trans checkKind_resultFields
  kind := rfl
  nonce := rfl

/-- **The message of a result** passes the check that is made before it is sent. -/
theorem resultMessage_eq (h : checkNonce nonce = .ok ()) :
    Session.resultMessage nonce w = .ok (Session.resultFields nonce w) := by
  rw [Session.resultMessage, h]
  exact validate_eq_ok_iff.2 ⟨rfl, (isMessage_result h).checked⟩

end Result

/-! ### What a session takes of what it is offered -/

/-- The state after a message that was expected. -/
def SessionState.next : SessionState → SessionState
  | .start => .contained
  | .contained => .ready
  | .ready => .go
  | .go | .terminal => .terminal

/-- How many messages are still expected. -/
def SessionState.left : SessionState → ℕ
  | .start => 4
  | .contained => 3
  | .ready => 2
  | .go => 1
  | .terminal => 0

/-- A message that is expected leads on by one step. -/
theorem SessionState.after_of_mem {state : SessionState} {kind : String} (h : kind ∈ state.expected) :
    SessionState.after (Text.ofString kind) = state.next ∧ state.next.left + 1 = state.left := by
  revert kind
  cases state <;> decide

/-- Messages of a nonce, each of a kind that is expected when it comes. -/
def Conversation (nonce : Text) : SessionState → List Fields → Prop
  | _, [] => True
  | state, fields :: rest => (∃ kind ∈ state.expected, IsMessage nonce kind fields) ∧ Conversation nonce state.next rest

/-- A conversation is no longer than what is left of it. -/
theorem conversation_length {state : SessionState} {taken : List Fields} (h : Conversation nonce state taken) :
    taken.length ≤ state.left ∧ (SessionState.next^[taken.length] state).left = state.left - taken.length := by
  induction taken generalizing state with
  | nil => exact ⟨Nat.zero_le _, rfl⟩
  | cons fields taken ih =>
    obtain ⟨⟨kind, hkind, -⟩, hrest⟩ := h
    obtain ⟨-, hleft⟩ := SessionState.after_of_mem hkind
    obtain ⟨hle, hstate⟩ := ih hrest
    rw [List.length_cons, Function.iterate_succ_apply, hstate]
    omega

/-- A session takes a message that is expected, or stays as it is. -/
theorem accept_cases (s : ProtocolSession) (message : Json Text) :
    (∃ code, s.accept message = .error code ∧
      ∀ fields, message = .obj fields → ¬∃ kind ∈ s.state.expected, IsMessage s.nonce kind fields) ∨
    ∃ fields, message = .obj fields ∧ (∃ kind ∈ s.state.expected, IsMessage s.nonce kind fields) ∧
      s.accept message = .ok (fields, { s with state := s.state.next }) := by
  rcases haccept : s.accept message with code | ⟨fields, s'⟩
  · refine Or.inl ⟨code, rfl, ?_⟩
    rintro fields rfl ⟨kind, hkind, hmessage⟩
    have hok := accept_eq_ok_iff.2 ⟨rfl, kind, hkind, hmessage, rfl⟩
    rw [haccept] at hok
    cases hok
  · obtain ⟨rfl, kind, hkind, hmessage, rfl⟩ := accept_eq_ok_iff.1 haccept
    rw [(SessionState.after_of_mem hkind).1]
    exact Or.inr ⟨fields, rfl, ⟨kind, hkind, hmessage⟩, rfl⟩

/-- A message that is refused changes nothing: the session goes on as if it had not come. -/
theorem offer_cons_error {code : ProtocolErrorCode} (h : s.accept message = .error code)
    (messages : List (Json Text)) : s.offer (message :: messages) = s.offer messages := by
  rw [ProtocolSession.offer, h]

/-- A message that is taken is followed by what is taken of the rest. -/
theorem offer_cons_ok (h : s.accept message = .ok (fields, s')) (messages : List (Json Text)) :
    s.offer (message :: messages) = (fields :: (s'.offer messages).1, (s'.offer messages).2) := by
  rw [ProtocolSession.offer, h]

/-- What is taken is a conversation, and is a part of what is offered. -/
theorem offer_spec (s : ProtocolSession) (messages : List (Json Text)) :
    Conversation s.nonce s.state (s.offer messages).1 ∧ ((s.offer messages).1.map Json.obj).Sublist messages ∧
      (s.offer messages).2 = { s with state := SessionState.next^[(s.offer messages).1.length] s.state } := by
  induction messages generalizing s with
  | nil => exact ⟨trivial, List.Sublist.slnil, rfl⟩
  | cons message messages ih =>
    rcases accept_cases s message with ⟨code, haccept, -⟩ | ⟨fields, rfl, hkind, haccept⟩
    · rw [offer_cons_error haccept]
      obtain ⟨hconversation, hsublist, hend⟩ := ih s
      exact ⟨hconversation, hsublist.cons _, hend⟩
    · rw [offer_cons_ok haccept]
      obtain ⟨hconversation, hsublist, hend⟩ := ih { s with state := s.state.next }
      exact ⟨⟨hkind, hconversation⟩, hsublist.cons_cons _, hend⟩

/-- **No conversation among what is offered is longer** than the one that is taken. -/
theorem offer_longest (s : ProtocolSession) {messages : List (Json Text)} {taken : List Fields}
    (h : Conversation s.nonce s.state taken) (hsublist : (taken.map Json.obj).Sublist messages) :
    taken.length ≤ (s.offer messages).1.length := by
  induction messages generalizing s taken with
  | nil =>
    have hnil := List.map_eq_nil_iff.1 (List.sublist_nil.1 hsublist)
    rw [hnil]
    exact Nat.zero_le _
  | cons message messages ih =>
    rcases taken with _ | ⟨fields, taken⟩
    · exact Nat.zero_le _
    rcases accept_cases s message with ⟨code, haccept, hrefused⟩ | ⟨fields', rfl, hkind, haccept⟩
    · rw [offer_cons_error haccept]
      -- what is refused is not the first of the conversation
      rcases List.sublist_cons_iff.1 hsublist with hsublist | ⟨rest, hrest, -⟩
      · exact ih s h hsublist
      · exact absurd h.1 (hrefused fields (List.cons.inj hrest).1.symm)
    · rw [offer_cons_ok haccept]
      have hrest : (taken.map Json.obj).Sublist messages := by
        rcases List.sublist_cons_iff.1 hsublist with hsublist | ⟨rest, hrest, hsublist⟩
        · exact (List.sublist_cons_self _ _).trans hsublist
        · rwa [(List.cons.inj hrest).2]
      exact Nat.succ_le_succ (ih { s with state := s.state.next } h.2 hrest)

end Session

/-- **What a session takes of what it is offered**, whatever that is: messages of its nonce in
the order `contained`, `ready`, `go` and a result or an error, as they were offered, and as many
as there can be. It is at its end exactly when it has taken all four. -/
theorem session_takes {nonce : Text} (h : checkNonce nonce = .ok ()) (messages : List (Json Text)) :
    Conversation nonce .start ((ProtocolSession.start nonce h).offer messages).1 ∧
      (((ProtocolSession.start nonce h).offer messages).1.map Json.obj).Sublist messages ∧
      (∀ taken, Conversation nonce .start taken → (taken.map Json.obj).Sublist messages →
        taken.length ≤ ((ProtocolSession.start nonce h).offer messages).1.length) ∧
      ((ProtocolSession.start nonce h).offer messages).2.nonce = nonce ∧
      (((ProtocolSession.start nonce h).offer messages).2.state = .terminal ↔
        ((ProtocolSession.start nonce h).offer messages).1.length = 4) := by
  obtain ⟨hconversation, hsublist, hend⟩ := offer_spec (ProtocolSession.start nonce h) messages
  obtain ⟨hle, hleft⟩ := conversation_length hconversation
  refine ⟨hconversation, hsublist, fun taken htaken hpart => offer_longest (ProtocolSession.start nonce h) htaken hpart,
    by rw [hend]; rfl, ?_⟩
  rw [hend]
  change SessionState.next^[_] SessionState.start = _ ↔ _
  change _ = SessionState.left .start - _ at hleft
  constructor
  · intro hterminal
    change SessionState.left (SessionState.next^[_] .start) = _ at hleft
    rw [hterminal] at hleft
    exact le_antisymm hle (Nat.sub_eq_zero_iff_le.1 hleft.symm)
  · intro hfour
    rw [hfour]
    rfl

section Built

variable {nonce : Text} {messages : List (Json Text)}

/-- A state message is one of its kind and nonce. -/
theorem isMessage_state {kind : String} {fields : Fields} (hkind : kind ∈ ["contained", "ready", "go"])
    (h : Session.stateMessage kind nonce = .ok fields) : IsMessage nonce kind fields := by
  obtain ⟨⟨⟩, hnonce, hfields⟩ := bind_eq_ok_iff.1 h
  obtain rfl := Except.ok.inj hfields
  refine ⟨(checkFields_eq rfl rfl hnonce).trans ?_, rfl, rfl⟩
  have hknown : ∀ k ∈ ["contained", "ready", "go"], allowedFields (Text.ofString k) = some ["type", "nonce"] ∧
      Text.ofString k ≠ Text.ofString "result" ∧ Text.ofString k ≠ Text.ofString "error" := by decide
  obtain ⟨hallowed, hresult, herror⟩ := hknown kind hkind
  have hkeys : ¬∃ p ∈ [(Text.ofString "type", Json.str (Text.ofString kind)), (Text.ofString "nonce", .str nonce)],
      p.1 ∉ ["type", "nonce"].map Text.ofString := by
    rintro ⟨p, hp, hkey⟩
    simp only [List.mem_cons, List.not_mem_nil, or_false] at hp
    rcases hp with rfl | rfl
    · exact hkey List.mem_cons_self
    · exact hkey (List.mem_cons_of_mem _ List.mem_cons_self)
  have hrequired : requiredFields (Text.ofString kind) = ["type", "nonce"] := by
    rw [requiredFields, if_neg hresult, if_neg herror]
    rfl
  rw [checkKind, hallowed, hrequired]
  refine (if_neg hkeys).trans ((if_neg ?_).trans ((if_neg hresult).trans (if_neg herror)))
  rintro ⟨key, hkey, hmissing⟩
  exact hmissing (List.mem_map_of_mem hkey)

theorem isMessage_error {code : SafeErrorCode} {fields : Fields} (h : Session.errorMessage nonce code = .ok fields) :
    IsMessage nonce "error" fields := by
  obtain ⟨⟨⟩, hnonce, hfields⟩ := bind_eq_ok_iff.1 h
  obtain rfl := Except.ok.inj hfields
  refine ⟨(checkFields_eq rfl rfl hnonce).trans ?_, rfl, rfl⟩
  have hallowed : allowedFields (Text.ofString "error") = some ["type", "nonce", "code"] := by decide
  have hkeys : ¬∃ p ∈ [(Text.ofString "type", Json.str (Text.ofString "error")), (Text.ofString "nonce", .str nonce),
      (Text.ofString "code", .str (Text.ofString code.value))], p.1 ∉ ["type", "nonce", "code"].map Text.ofString := by
    rintro ⟨p, hp, hkey⟩
    simp only [List.mem_cons, List.not_mem_nil, or_false] at hp
    rcases hp with rfl | rfl | rfl
    · exact hkey List.mem_cons_self
    · exact hkey (List.mem_cons_of_mem _ List.mem_cons_self)
    · exact hkey (List.mem_cons_of_mem _ (List.mem_cons_of_mem _ List.mem_cons_self))
  have hcode : checkCode (some (.str (Text.ofString code.value))) = .ok () := by
    rw [checkCode, Option.bind_some, member?_str (ofValue_code code)]
  have herror : Text.ofString "error" ≠ Text.ofString "result" := by decide
  rw [checkKind, hallowed]
  refine (if_neg hkeys).trans ((if_neg ?_).trans ((if_neg herror).trans ((if_pos rfl).trans hcode)))
  rintro ⟨key, hkey, hmissing⟩
  exact hmissing (List.mem_map_of_mem hkey)

/-- A session that is offered the four messages of a conversation, whatever is between them, takes
four messages. -/
theorem session_completes [UnicodeData] (h : checkNonce nonce = .ok ()) {contained ready go last : Fields}
    (hcontained : Session.containedMessage nonce = .ok contained) (hready : Session.readyMessage nonce = .ok ready)
    (hgo : Session.goMessage nonce = .ok go)
    (hlast : (∃ view, Session.resultMessage nonce view = .ok last) ∨ ∃ code, Session.errorMessage nonce code = .ok last)
    (hoffered : ([contained, ready, go, last].map Json.obj).Sublist messages) :
    ((ProtocolSession.start nonce h).offer messages).1.length = 4 := by
  have hend : ∃ kind ∈ SessionState.go.expected, IsMessage nonce kind last := by
    rcases hlast with ⟨view, hview⟩ | ⟨code, hcode⟩
    · obtain rfl := Except.ok.inj ((resultMessage_eq h).symm.trans hview)
      exact ⟨"result", List.mem_cons_self, isMessage_result h⟩
    · exact ⟨"error", List.mem_cons_of_mem _ List.mem_cons_self, isMessage_error hcode⟩
  have hconversation : Conversation nonce .start [contained, ready, go, last] :=
    ⟨⟨"contained", List.mem_cons_self, isMessage_state List.mem_cons_self hcontained⟩,
      ⟨"ready", List.mem_cons_self, isMessage_state (List.mem_cons_of_mem _ List.mem_cons_self) hready⟩,
      ⟨"go", List.mem_cons_self,
        isMessage_state (List.mem_cons_of_mem _ (List.mem_cons_of_mem _ List.mem_cons_self)) hgo⟩, hend, trivial⟩
  have hmost := offer_longest (ProtocolSession.start nonce h) hconversation hoffered
  have hleast := (conversation_length (offer_spec (ProtocolSession.start nonce h) messages).1).1
  exact le_antisymm hleast hmost

end Built

/-- A nonce, and what a session of it is offered: a conversation, with messages out of their order, of
another nonce and of no kind between. -/
def sampleNonce : Text := Text.ofString "n"

def sampleMessage (kind nonce : String) : Json Text :=
  .obj [(Text.ofString "type", .str (Text.ofString kind)), (Text.ofString "nonce", .str (Text.ofString nonce))]

def sampleOffers : List (Json Text) :=
  [.null, sampleMessage "ready" "n", sampleMessage "contained" "m", sampleMessage "contained" "n",
    sampleMessage "contained" "n", sampleMessage "ready" "n", sampleMessage "stop" "n", sampleMessage "go" "n",
    .obj [(Text.ofString "type", .str (Text.ofString "error")), (Text.ofString "nonce", .str sampleNonce),
      (Text.ofString "code", .str (Text.ofString "timeout"))], sampleMessage "contained" "n"]

/-- All of the conversation is taken, and the session is at its end. -/
theorem session_takes_sample :
    Conversation sampleNonce .start ((ProtocolSession.start sampleNonce rfl).offer sampleOffers).1 ∧
      (((ProtocolSession.start sampleNonce rfl).offer sampleOffers).1.map Json.obj).Sublist sampleOffers ∧
      ((ProtocolSession.start sampleNonce rfl).offer sampleOffers).1.length = 4 ∧
      ((ProtocolSession.start sampleNonce rfl).offer sampleOffers).2.state = .terminal := by
  obtain ⟨hconversation, hsublist, -, -, hterminal⟩ :=
    session_takes (show checkNonce sampleNonce = .ok () from rfl) sampleOffers
  have hfour : ((ProtocolSession.start sampleNonce rfl).offer sampleOffers).1.length = 4 := by decide +kernel
  exact ⟨hconversation, hsublist, hfour, hterminal.2 hfour⟩

/-! ### The size of a message -/

/-- A value that is short enough to be of no matter. -/
inductive Brief : Json Text → Prop
  | null : Brief .null
  | str {s : Text} (h : s.length ≤ MAX_NONCE) : Brief (.str s)
  | error (code : SafeErrorCode) : Brief (.obj [(Text.ofString "code", .str (Text.ofString code.value))])

section Size

open Json (byteSize fieldSize)

variable {message fields : Fields} {kind nonce : Text}

theorem Brief.of_str {x : Option (Json Text)} {s : Text} (h : x = some (.str s)) (hs : s.length ≤ MAX_NONCE) :
    ∀ y, x = some y → Brief y := by
  rintro y rfl
  obtain rfl := Option.some.inj h
  exact .str hs

theorem length_code (code : SafeErrorCode) : (Text.ofString code.value).length ≤ MAX_NONCE := by
  cases code <;> decide

theorem length_provider (p : ProviderKey) : (Text.ofString p.value).length ≤ MAX_NONCE := by
  cases p <;> decide

theorem length_state (s : ProviderState) : (Text.ofString s.value).length ≤ MAX_NONCE := by
  cases s <;> decide

/-- A nonce that was checked is short. -/
theorem length_nonce (h : checkNonce nonce = .ok ()) : nonce.length ≤ MAX_NONCE := by
  unfold checkNonce at h
  split_ifs at h with hbad
  exact not_lt.1 (not_or.1 hbad).2

/-- A label that passes its check is short. -/
theorem checkLabel_brief {x : Json Text} (h : checkLabel (some x) = .ok ()) : Brief x := by
  rcases checkLabel_spec h with _ | label | code
  · exact .null
  · change (if _ then _ else _) = _ at h
    split_ifs at h with hbad
    have hlength := not_lt.1 (not_or.1 (not_or.1 hbad).2).1
    exact .str (hlength.trans (by decide))
  · exact .error code

/-- An error that passes its check is short. -/
theorem checkError_brief {state : ProviderState} {x : Json Text} (h : checkError state (some x) = .ok ()) :
    Brief x := by
  rcases checkError_spec h with _ | text | code
  · exact .null
  · cases h
  · exact .error code

/-- The values of a result that passes its checks are short. -/
theorem checkResult_brief (h : checkResult fields = .ok ()) :
    (∀ x, field? "provider" fields = some x → Brief x) ∧ (∀ x, field? "state" fields = some x → Brief x) ∧
      (∀ x, field? "display_label" fields = some x → Brief x) ∧ ∀ x, field? "error" fields = some x → Brief x := by
  unfold checkResult at h
  split at h
  · next provider state hprovider hstate =>
    obtain ⟨x, hprovider, hmember⟩ := Option.bind_eq_some_iff.1 hprovider
    obtain ⟨y, hstate, hmember'⟩ := Option.bind_eq_some_iff.1 hstate
    obtain ⟨⟨⟩, hlabel, herror⟩ := bind_eq_ok_iff.1 h
    refine ⟨.of_str (hprovider.trans (congrArg some (eq_of_member? hmember))) (length_provider provider),
      .of_str (hstate.trans (congrArg some (eq_of_member? hmember'))) (length_state state), ?_, ?_⟩
    · intro x hx
      rw [hx] at hlabel
      exact checkLabel_brief hlabel
    · intro x hx
      rw [hx] at herror
      exact checkError_brief herror
  · cases h

/-- The kinds of message are short words. -/
theorem length_kind {allowed : List String} (h : allowedFields kind = some allowed) : kind.length ≤ MAX_NONCE := by
  unfold allowedFields at h
  split_ifs at h with hcontrol hresult herror
  · rcases hcontrol with rfl | rfl | rfl
    all_goals decide
  · rw [hresult]
    decide
  · rw [herror]
    decide

/-- The values of a message of some kind are short. -/
theorem checkKind_brief (hkind : field? "type" fields = some (.str kind))
    (hnonce : field? "nonce" fields = some (.str nonce)) (hvalid : checkNonce nonce = .ok ())
    (h : checkKind kind fields = .ok ()) :
    ∃ allowed : List String, (∀ p ∈ fields, p.1 ∈ allowed.map Text.ofString) ∧ allowed.length ≤ 6 ∧
      ∀ word ∈ allowed, (Text.ofString word).length ≤ 13 ∧ ∀ x, field? word fields = some x → Brief x := by
  unfold checkKind at h
  split at h
  · cases h
  next allowed hallowed =>
  have htype := Brief.of_str hkind (length_kind hallowed)
  have hnonce := Brief.of_str hnonce (length_nonce hvalid)
  split_ifs at h with hunknown hrequired hresult herror
  all_goals
    refine ⟨allowed, fun p hp => not_not.1 fun hmem => hunknown ⟨p, hp, hmem⟩, ?_⟩
    rcases allowedFields_cases hallowed with ⟨hkind', rfl⟩ | ⟨hkind', rfl⟩ | ⟨hkind', hkind'', rfl⟩
  · obtain ⟨hprovider, hstate, hlabel, herror⟩ := checkResult_brief h
    refine ⟨by decide, ?_⟩
    intro word hword
    simp only [List.mem_cons, List.not_mem_nil, or_false] at hword
    rcases hword with rfl | rfl | rfl | rfl | rfl | rfl
    · exact ⟨by decide, htype⟩
    · exact ⟨by decide, hnonce⟩
    · exact ⟨by decide, hprovider⟩
    · exact ⟨by decide, hstate⟩
    · exact ⟨by decide, hlabel⟩
    · exact ⟨by decide, herror⟩
  · exact absurd (hresult.symm.trans hkind') (by decide)
  · exact absurd hresult hkind'
  · exact absurd hkind' hresult
  · obtain ⟨code, hcode⟩ := checkCode_spec h
    refine ⟨by decide, ?_⟩
    intro word hword
    simp only [List.mem_cons, List.not_mem_nil, or_false] at hword
    rcases hword with rfl | rfl | rfl
    · exact ⟨by decide, htype⟩
    · exact ⟨by decide, hnonce⟩
    · exact ⟨by decide, .of_str hcode (length_code code)⟩
  · exact absurd herror hkind''
  · exact absurd hkind' hresult
  · exact absurd hkind' herror
  · refine ⟨by decide, ?_⟩
    intro word hword
    simp only [List.mem_cons, List.not_mem_nil, or_false] at hword
    rcases hword with rfl | rfl
    · exact ⟨by decide, htype⟩
    · exact ⟨by decide, hnonce⟩

/-- A message has six fields at most, and each is short. -/
theorem checkFields_brief (hnodup : (fields.map Prod.fst).Nodup) (h : checkFields fields = .ok ()) :
    fields.length ≤ 6 ∧ ∀ p ∈ fields, (p.1.length ≤ 13 ∧ Spelled p.1) ∧ Brief p.2 := by
  unfold checkFields at h
  split at h
  · next kind nonce hkind hnonce =>
    obtain ⟨⟨⟩, hvalid, h⟩ := bind_eq_ok_iff.1 h
    obtain ⟨allowed, hkeys, hsix, hvalues⟩ := checkKind_brief hkind hnonce hvalid h
    constructor
    · have hsub : (fields.map Prod.fst).Subperm (allowed.map Text.ofString) := hnodup.subperm fun key hkey => by
        obtain ⟨p, hp, rfl⟩ := List.mem_map.1 hkey
        exact hkeys p hp
      have hlength := hsub.length_le
      rw [List.length_map, List.length_map] at hlength
      exact hlength.trans hsix
    · intro p hp
      obtain ⟨word, hword, hkey⟩ := List.mem_map.1 (hkeys p hp)
      have hget : field? word fields = some p.2 := by
        refine Json.get?_of_mem hnodup ?_
        rw [hkey]
        exact hp
      rw [← hkey]
      exact ⟨⟨(hvalues word hword).1, Encoding.spelled_ofChars _⟩, (hvalues word hword).2 p.2 hget⟩
  · cases h

/-- A short value takes no more than 770 bytes, however it is spelled. -/
theorem Brief.byteSize_le {x : Json Text} (h : Brief x) : byteSize (Json.Style.compact.write x) ≤ 770 := by
  rcases h with _ | @⟨s, hs⟩ | code
  · decide
  · refine (Json.byteSize_quote_le s).trans ?_
    rw [MAX_NONCE] at hs
    omega
  · cases code <;> decide

/-- **A message is far smaller than its limit.** -/
theorem byteSize_message (hnodup : (message.map Prod.fst).Nodup) (h : checkFields message = .ok ()) :
    byteSize (Json.Style.compact.write (.obj message)) ≤ 5114 := by
  obtain ⟨hsix, hbrief⟩ := checkFields_brief hnodup h
  have hfield : ∀ p ∈ message, fieldSize p ≤ 852 := by
    intro p hp
    obtain ⟨⟨hkey, -⟩, hvalue⟩ := hbrief p hp
    have hkeySize := Json.byteSize_quote_le p.1
    have hvalueSize := hvalue.byteSize_le
    rw [fieldSize]
    omega
  have hsize := Json.byteSize_write_obj_le hfield
  omega

end Size

/-- No string of a message has a lone surrogate. -/
def Speakable (message : Fields) : Prop := ∀ p ∈ message, ∀ s, p.2 = .str s → Spelled s

section Speakable

variable {message : Fields}

/-- What is written of a message can be spelled exactly if its texts have no lone surrogate. -/
theorem speakable_iff (hnodup : (message.map Prod.fst).Nodup) (h : checkFields message = .ok ()) :
    Spelled (Json.Style.compact.write (.obj (orderFields message))) ↔ Speakable message := by
  have hperm := Json.orderFields_perm message
  rw [Json.Style.spelled_write_obj_iff]
  constructor
  · intro hspelled p hp s hs
    have hwritten := (hspelled p (hperm.mem_iff.2 hp)).2
    rw [hs] at hwritten
    exact Json.Style.spelled_of_quote hwritten
  · intro hspeakable p hp
    have hmem := hperm.mem_iff.1 hp
    obtain ⟨⟨-, hkey⟩, hvalue⟩ := (checkFields_brief hnodup h).2 p hmem
    refine ⟨hkey, ?_⟩
    generalize hx : p.2 = x at hvalue
    rcases hvalue with _ | hs | code
    · exact Encoding.spelled_ofChars _
    · exact Json.Style.spelled_quote_iff.2 (hspeakable p hmem _ hx)
    · refine Json.Style.spelled_write_obj_iff.2 (List.forall_mem_singleton.2 ⟨Encoding.spelled_ofChars _, ?_⟩)
      exact Json.Style.spelled_quote_iff.2 (Encoding.spelled_ofChars _)

/-- What a message is encoded to depends on its strings alone. -/
theorem canonical_eq (hnodup : (message.map Prod.fst).Nodup) (h : checkFields message = .ok ()) :
    (Speakable message → ∃ payload, canonical message = .ok payload ∧ payload.length ≤ 5114) ∧
      (¬Speakable message → canonical message = .error .invalidJson) := by
  have hordered := ordered_obj fun p hp => (checkFields_spec hnodup h p hp).2
  have hperm := Json.orderFields_perm message
  rw [canonical, hordered]
  constructor
  · intro hspeakable
    have hspelled := (speakable_iff hnodup h).2 hspeakable
    have hsize := byteSize_message ((Json.nodup_keys_perm hperm).2 hnodup)
      ((checkFields_perm ((Json.nodup_keys_perm hperm).2 hnodup) hperm).trans h)
    rw [Encoding.encodeUtf8, if_pos hspelled]
    exact ⟨_, rfl, hsize⟩
  · intro hspeakable
    rw [Encoding.encodeUtf8, if_neg fun hspelled => hspeakable ((speakable_iff hnodup h).1 hspelled)]

/-- Every message has the limit of its length far above what it can take. -/
theorem size_le_limitFor (message : Fields) : 5114 ≤ limitFor message := by
  unfold limitFor
  split
  · split_ifs
    all_goals decide
  · decide

/-- A message that can be encoded is within the limits. -/
theorem encodeFrame_of_speakable (hnodup : (message.map Prod.fst).Nodup) (h : checkFields message = .ok ())
    (hspeakable : Speakable message) : ∃ frame, encodeFrame (.obj message) = .ok frame ∧ frame.length ≤ 5118 := by
  obtain ⟨payload, hpayload, hsize⟩ := (canonical_eq hnodup h).1 hspeakable
  refine ⟨_, encodeFrame_eq_ok_iff.2 ⟨h, payload, hpayload, hsize.trans (size_le_limitFor message), rfl⟩, ?_⟩
  rw [List.length_append, pack_length]
  omega

/-- A message with a lone surrogate is refused as no JSON. -/
theorem encodeFrame_of_not_speakable (hnodup : (message.map Prod.fst).Nodup) (h : checkFields message = .ok ())
    (hspeakable : ¬Speakable message) : encodeFrame (.obj message) = .error .invalidJson := by
  rw [encodeFrame, validate_eq_ok_iff.2 ⟨rfl, h⟩]
  change (canonical message >>= _) = _
  rw [(canonical_eq hnodup h).2 hspeakable]
  rfl

end Speakable

section Refusals

variable {message : Fields} {code : ProtocolErrorCode}

theorem checkCode_error {x : Option (Json Text)} (h : checkCode x = .error code) : code = .invalidMessage := by
  unfold checkCode at h
  split at h
  · cases h
  · exact (Except.error.inj h).symm

theorem checkLabel_error {x : Option (Json Text)} (h : checkLabel x = .error code) : code = .invalidMessage := by
  unfold checkLabel at h
  split at h
  · cases h
  · cases h
  · split_ifs at h
    exact (Except.error.inj h).symm
  · exact (Except.error.inj h).symm

theorem checkError_error {state : ProviderState} {x : Option (Json Text)} (h : checkError state x = .error code) :
    code = .invalidMessage := by
  unfold checkError at h
  split at h
  · split_ifs at h
    exact (Except.error.inj h).symm
  · split_ifs at h
    exact (Except.error.inj h).symm
  · split_ifs at h
    · exact (Except.error.inj h).symm
    · exact checkCode_error h
  · exact (Except.error.inj h).symm

/-- A result is refused as an invalid message, whatever is wrong with it. -/
theorem checkResult_error (h : checkResult message = .error code) : code = .invalidMessage := by
  unfold checkResult at h
  split at h
  · next state _ _ =>
    rcases hlabel : checkLabel (field? "display_label" message) with code' | ⟨⟩
    · rw [hlabel] at h
      rw [← checkLabel_error hlabel]
      exact (Except.error.inj h).symm
    · rw [hlabel] at h
      exact checkError_error h
  · exact (Except.error.inj h).symm

/-- A message is refused as one, or for a field that it may not have. -/
theorem checkFields_error (h : checkFields message = .error code) : code = .invalidMessage ∨ code = .unknownField := by
  unfold checkFields at h
  split at h
  · next kind nonce _ _ =>
    rcases hnonce : checkNonce nonce with code' | ⟨⟩
    · rw [hnonce] at h
      unfold checkNonce at hnonce
      split_ifs at hnonce
      rw [← Except.error.inj hnonce] at h
      exact Or.inl (Except.error.inj h).symm
    · rw [hnonce] at h
      change checkKind kind message = _ at h
      unfold checkKind at h
      split at h
      · exact Or.inl (Except.error.inj h).symm
      · split_ifs at h
        · exact Or.inr (Except.error.inj h).symm
        · exact Or.inl (Except.error.inj h).symm
        · exact Or.inl (checkResult_error h)
        · exact Or.inl (checkCode_error h)
  · exact Or.inl (Except.error.inj h).symm

/-- **A value is refused** as an invalid message, or for an unknown field. -/
theorem validate_error {value : Json Text} (h : validate value = .error code) :
    code = .invalidMessage ∨ code = .unknownField := by
  unfold validate at h
  split at h
  · rcases hcheck : checkFields _ with code' | ⟨⟩
    · rw [hcheck] at h
      obtain rfl := Except.error.inj h
      exact checkFields_error hcheck
    · rw [hcheck] at h
      cases h
  · exact Or.inl (Except.error.inj h).symm

/-- **A payload is refused for a key** exactly if it is text, and the first thing in it that is not
taken is an object with a key twice. -/
theorem decodePayload_eq_duplicateKey_iff {payload : Bytes} : decodePayload payload = .error .duplicateKey ↔
    ∃ text, Encoding.utf8 false payload = some text ∧ Json.parse reader text = none ∧
      Json.repeatsFirst reader text = true := by
  unfold decodePayload
  split
  · next hutf8 =>
    refine iff_of_false nofun ?_
    rintro ⟨text, htext, -⟩
    exact nomatch hutf8.symm.trans htext
  next text hutf8 =>
  have hiff : (∃ text', Encoding.utf8 false payload = some text' ∧ Json.parse reader text' = none ∧
      Json.repeatsFirst reader text' = true) ↔
      Json.parse reader text = none ∧ Json.repeatsFirst reader text = true := by
    constructor
    · rintro ⟨text', htext, h⟩
      obtain rfl := Option.some.inj (hutf8.symm.trans htext)
      exact h
    · exact fun h => ⟨text, hutf8, h⟩
  rw [hiff]
  split
  · next hparse =>
    rw [hparse, and_iff_right rfl, refusal]
    split
    · next hrepeats => exact iff_of_true rfl hrepeats
    · next hrepeats => exact iff_of_false nofun hrepeats
  · -- a text that was read is refused for other reasons
    next message hparse =>
    refine iff_of_false (fun h => ?_) fun h => nomatch hparse.symm.trans h.1
    rcases hvalidate : validate message with code | validated
    · rw [hvalidate] at h
      rcases validate_error hvalidate with rfl | rfl
      · cases h
      · cases h
    rw [hvalidate] at h
    change (canonical validated >>= _) = _ at h
    rcases hcanonical : canonical validated with code | written
    · rw [hcanonical] at h
      unfold canonical at hcanonical
      split at hcanonical
      · cases hcanonical
      · obtain rfl := Except.error.inj hcanonical
        cases h
    · rw [hcanonical] at h
      change (if written ≠ payload then _ else _) = _ at h
      split_ifs at h
      all_goals cases h

end Refusals

/-- **Why a message is not encoded**: it is no message, or has a string that UTF-8 does not
spell. The limits of the frames refuse none. -/
theorem encodeFrame_error_iff {message : Fields} (hnodup : (message.map Prod.fst).Nodup) :
    (∀ code, encodeFrame (.obj message) = .error code ↔
      (checkFields message = .error code ∧ (code = .invalidMessage ∨ code = .unknownField)) ∨
        (checkFields message = .ok () ∧ ¬Speakable message ∧ code = .invalidJson)) ∧
      ∀ frame, encodeFrame (.obj message) = .ok frame → frame.length ≤ 5118 := by
  rcases hcheck : checkFields message with code' | ⟨⟩
  · have hencode : encodeFrame (.obj message) = .error code' := by
      change ((checkFields message >>= fun _ => pure message) >>= _) = _
      rw [hcheck]
      rfl
    rw [hencode]
    refine ⟨fun code => ⟨?_, ?_⟩, nofun⟩
    · intro h
      obtain rfl := Except.error.inj h
      exact Or.inl ⟨rfl, checkFields_error hcheck⟩
    · rintro (⟨h, -⟩ | ⟨h, -⟩)
      · exact congrArg Except.error (Except.error.inj h)
      · cases h
  by_cases hspeakable : Speakable message
  · obtain ⟨frame, hframe, hsize⟩ := encodeFrame_of_speakable hnodup hcheck hspeakable
    rw [hframe]
    refine ⟨fun code => iff_of_false nofun ?_, ?_⟩
    · rintro (⟨h, -⟩ | ⟨-, h, -⟩)
      · cases h
      · exact h hspeakable
    · intro frame' h
      obtain rfl := Except.ok.inj h
      exact hsize
  · rw [encodeFrame_of_not_speakable hnodup hcheck hspeakable]
    refine ⟨fun code => ⟨?_, ?_⟩, nofun⟩
    · intro h
      exact Or.inr ⟨rfl, hspeakable, (Except.error.inj h).symm⟩
    · rintro (⟨h, -⟩ | ⟨-, -, rfl⟩)
      · cases h
      · rfl

/-- A message whose nonce is a surrogate alone, and one with a field that it may not have. -/
def loneNonce : Fields :=
  [(Text.ofString "type", .str (Text.ofString "go")), (Text.ofString "nonce", .str [.surrogate 0])]

def strayField : Fields :=
  [(Text.ofString "type", .str (Text.ofString "go")), (Text.ofString "nonce", .str sampleNonce), ([], .null)]

/-- The first is no text of UTF-8, and the second has an unknown field. -/
theorem encodeFrame_error_sample :
    encodeFrame (.obj loneNonce) = .error .invalidJson ∧ encodeFrame (.obj strayField) = .error .unknownField := by
  constructor
  · refine ((encodeFrame_error_iff (by decide : (loneNonce.map Prod.fst).Nodup)).1 _).2 (Or.inr ⟨rfl, fun h => ?_, rfl⟩)
    have hspelled := h (Text.ofString "nonce", .str [.surrogate 0]) (by simp [loneNonce]) _ rfl
    exact absurd hspelled (by decide)
  · exact ((encodeFrame_error_iff (by decide : (strayField.map Prod.fst).Nodup)).1 _).2 (Or.inl ⟨rfl, Or.inr rfl⟩)

/-! ### Views -/

section View

variable {nonce : Text}

theorem textOf_map_str (label : Option Text) : textOf (label.map .str) = label := by
  cases label <;> rfl

theorem codeOf_map (error : Option SafeErrorCode) :
    codeOf (error.map fun code => .obj [(Text.ofString "code", .str (Text.ofString code.value))]) = error := by
  cases error with
  | none => rfl
  | some code => exact member?_str (ofValue_code code)

/-- The kind and the nonce of a message do not depend on the order of its fields. -/
theorem IsMessage.perm {kind : String} {fields fields' : Fields} (h : IsMessage nonce kind fields)
    (hnodup : (fields.map Prod.fst).Nodup) (hperm : fields.Perm fields') : IsMessage nonce kind fields' where
  checked := (checkFields_perm hnodup hperm).symm.trans h.checked
  kind := (field?_perm hnodup hperm "type").symm.trans h.kind
  nonce := (field?_perm hnodup hperm "nonce").symm.trans h.nonce

variable [UnicodeData] {w : WireView}

/-- A view without what a result does not tell. -/
def WireView.told (w : WireView) : WireView :=
  ⟨⟨w.view.provider, w.view.state, w.view.error, none, none, none, outcomeOk_none w.view.ok.error_iff⟩, w.label, w.label_ok⟩

/-- A view is what is told of it if it has no outcome. -/
theorem WireView.told_eq_iff : w.told = w ↔ w.view.outcome = none := by
  obtain ⟨⟨provider, state, error, outcome, snapshot, reason, hok⟩, label, hlabel⟩ := w
  constructor
  · intro h
    exact (congrArg (fun w => w.view.outcome) h).symm
  · -- there is a snapshot, or a reason, only with an outcome
    rintro rfl
    obtain rfl : snapshot = none := Option.not_isSome_iff_eq_none.1 fun hsome => nomatch hok.snapshot_iff.1 hsome
    obtain rfl : reason = none := Option.not_isSome_iff_eq_none.1 fun hsome => nomatch hok.reason_outcome hsome
    rfl

/-- The fields of a result make its view, in whatever order. -/
theorem viewOf_perm {fields : Fields} (h : (Session.resultFields nonce w).Perm fields) : viewOf fields = some w.told := by
  obtain ⟨-, -, hprovider, hstate, hlabel, herror⟩ := field?_resultFields nonce w
  have hnodup := nodup_resultFields nonce w
  rw [field?_perm hnodup h] at hprovider hstate hlabel herror
  have hprovider' : (field? "provider" fields).bind (member? ProviderKey.all ProviderKey.value) = some w.view.provider := by
    rw [hprovider]
    exact member?_str (ofValue_provider _)
  have hstate' : (field? "state" fields).bind (member? ProviderState.all ProviderState.value) = some w.view.state := by
    rw [hstate]
    exact member?_str (ofValue_state _)
  rw [viewOf, hprovider', hstate', hlabel, herror, textOf_map_str, codeOf_map]
  exact dif_pos ⟨w.view.ok.error_iff, w.label_ok⟩

/-- A result is restored whatever the order of its fields. -/
theorem messageView_perm {fields : Fields} (hnonce : checkNonce nonce = .ok ())
    (h : (Session.resultFields nonce w).Perm fields) : messageView (.obj fields) = .ok w.told := by
  have hmessage := (isMessage_result hnonce).perm (nodup_resultFields nonce w) h
  rw [messageView, validate_eq_ok_iff.2 ⟨rfl, hmessage.checked⟩]
  change (if textOf (field? "type" fields) ≠ _ then _ else _) = _
  rw [hmessage.kind, if_neg (not_not.2 (textOf_eq_some_iff.2 rfl)), viewOf_perm h]
  rfl

/-- A result can be spelled if its nonce and its label can. -/
theorem speakable_resultFields : Speakable (Session.resultFields nonce w) ↔
    Spelled nonce ∧ ∀ label, w.label = some label → Spelled label := by
  obtain ⟨⟨provider, state, error, outcome, snapshot, reason, hok⟩, label, hlabel⟩ := w
  have hword : ∀ (key : String) {word s : Text}, Spelled word →
      ((Text.ofString key, Json.str word) : Text × Json Text).2 = .str s → Spelled s := by
    intro key word s hspelled h
    rwa [← Json.str.inj h]
  constructor
  · intro h
    refine ⟨h (Text.ofString "nonce", .str nonce) (by simp [Session.resultFields]) nonce rfl, ?_⟩
    rintro _ rfl
    exact h (Text.ofString "display_label", .str _) (by simp [Session.resultFields]) _ rfl
  · rintro ⟨hnonce, hlabel⟩ p hp s hs
    simp only [Session.resultFields, List.mem_append, List.mem_cons, List.not_mem_nil, or_false, Option.mem_toList,
      Option.map_eq_some_iff] at hp
    rcases hp with ((rfl | rfl | rfl | rfl) | ⟨label, rfl, rfl⟩) | ⟨code, rfl, rfl⟩
    · exact hword "type" (Encoding.spelled_ofChars _) hs
    · exact hword "nonce" hnonce hs
    · exact hword "provider" (Encoding.spelled_ofChars _) hs
    · exact hword "state" (Encoding.spelled_ofChars _) hs
    · exact hword "display_label" (hlabel label rfl) hs
    · cases hs

/-- The frame of the result of a view. -/
def viewFrame (nonce : Text) (w : WireView) : Except ProtocolErrorCode Bytes := do
  let message ← Session.resultMessage nonce w
  encodeFrame (.obj message)

/-- **What comes back of a view from its frame**: what is decoded is taken by a session of its nonce that
waits for a result, and is the result of what is told of the view; that is the view itself if and only
if it has no outcome. There is a frame unless the nonce or the label has a lone surrogate. -/
theorem view_round_trip {nonce : Text} (h : checkNonce nonce = .ok ()) (w : WireView) :
    (∀ frame, viewFrame nonce w = .ok frame → ∃ fields, decodeFrame none frame = .ok fields ∧
      messageView (.obj fields) = .ok w.told ∧
      (messageView (.obj fields) = .ok w ↔ w.view.outcome = none) ∧
      ∀ s : ProtocolSession, s.nonce = nonce → s.state = .go →
        s.accept (.obj fields) = .ok (fields, { s with state := .terminal })) ∧
    ((∃ frame, viewFrame nonce w = .ok frame) ↔
      Spelled nonce ∧ ∀ label, w.label = some label → Spelled label) := by
  have hnodup := nodup_resultFields nonce w
  have hmessage : IsMessage nonce "result" (Session.resultFields nonce w) := isMessage_result h
  have hframe : viewFrame nonce w = encodeFrame (.obj (Session.resultFields nonce w)) := by
    rw [viewFrame, resultMessage_eq h]
    rfl
  rw [hframe]
  constructor
  · intro frame hencode
    have hperm := (Json.orderFields_perm (Session.resultFields nonce w)).symm
    have hview := messageView_perm h hperm
    refine ⟨_, decode_of_encode hnodup hencode, hview, ?_, ?_⟩
    · rw [hview, ← WireView.told_eq_iff]
      exact ⟨Except.ok.inj, congrArg Except.ok⟩
    · rintro s rfl hgo
      refine accept_eq_ok_iff.2 ⟨rfl, "result", ?_, hmessage.perm hnodup hperm, ?_⟩
      · rw [hgo]
        exact List.mem_cons_self
      · have hafter : SessionState.after (Text.ofString "result") = .terminal := by decide
        rw [hafter]
  · rw [← speakable_resultFields]
    constructor
    · rintro ⟨frame, hencode⟩
      by_contra hspeakable
      rw [encodeFrame_of_not_speakable hnodup hmessage.checked hspeakable] at hencode
      cases hencode
    · intro hspeakable
      obtain ⟨frame, hencode, -⟩ := encodeFrame_of_speakable hnodup hmessage.checked hspeakable
      exact ⟨frame, hencode⟩

end View

theorem checkLabel_work : checkLabel (some (.str (Text.ofString "work"))) = .ok () := by decide

theorem outcomeOk_unavailable [UnicodeData] : OutcomeOk .unavailable none none none none :=
  outcomeOk_none (iff_of_false nofun nofun)

/-- A view with a label of which nothing is left out, and one that has an outcome. -/
def labelledView [UnicodeData] : WireView :=
  ⟨⟨.codex, .unavailable, none, none, none, none, outcomeOk_unavailable⟩, some (Text.ofString "work"), checkLabel_work⟩

def labelledUndetected [UnicodeData] : WireView := ⟨undetectedView .codex, some (Text.ofString "work"), checkLabel_work⟩

/-- The first comes back as it was, the second as the first. -/
theorem view_round_trip_sample :
    letI := UnicodeData.ascii
    (∃ frame fields, viewFrame sampleNonce labelledView = .ok frame ∧ decodeFrame none frame = .ok fields ∧
      messageView (.obj fields) = .ok labelledView) ∧
    ∃ frame fields, viewFrame sampleNonce labelledUndetected = .ok frame ∧ decodeFrame none frame = .ok fields ∧
      messageView (.obj fields) = .ok labelledView ∧ messageView (.obj fields) ≠ .ok labelledUndetected := by
  let _ := UnicodeData.ascii
  have hspelled : ∀ label, some (Text.ofString "work") = some label → Spelled label := by
    intro label hlabel
    rw [← Option.some.inj hlabel]
    exact Encoding.spelled_ofChars _
  constructor
  · obtain ⟨hback, hframes⟩ := view_round_trip (show checkNonce sampleNonce = .ok () from rfl) labelledView
    obtain ⟨frame, hframe⟩ := hframes.2 ⟨Encoding.spelled_ofChars _, hspelled⟩
    obtain ⟨fields, hdecode, -, hiff, -⟩ := hback frame hframe
    exact ⟨frame, fields, hframe, hdecode, hiff.2 rfl⟩
  · obtain ⟨hback, hframes⟩ := view_round_trip (show checkNonce sampleNonce = .ok () from rfl) labelledUndetected
    obtain ⟨frame, hframe⟩ := hframes.2 ⟨Encoding.spelled_ofChars _, hspelled⟩
    obtain ⟨fields, hdecode, htold, hiff, -⟩ := hback frame hframe
    exact ⟨frame, fields, hframe, hdecode, htold, fun hsame => nomatch hiff.1 hsame⟩

end Protocol

end YasbLimitora

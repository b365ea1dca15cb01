import Mathlib
import YasbLimitora.Helper.Codec
import YasbLimitora.Lib.Moment

/-!
# Reading a provider

`limitora_api.py`: what the package of the providers answers is checked attribute by attribute, and
is a snapshot, or the code of an error. Only what comes with the source that is trusted is kept of a
window (`YasbLimitora.Adapter.read_trusted`), and an expiry of reset credits is asserted only if all
of them are accounted for (`YasbLimitora.Adapter.resetExpiry_spec`).

The moments of an answer are aware, and that is all that is checked of them besides their order: one
that has no date in UTC is kept in the view that is read, and `_timestamp` raises for it later. A
reading (`YasbLimitora.Adapter.Reading`) is therefore the view together with the moments that it was
made with; in the view the nearest instant stands for a moment without a date.

What the helper reads is what its parent gets, unless such a moment is in it or there is too much of
it: its parent gets an internal error then (`YasbLimitora.Adapter.decode_respond`).
-/

namespace YasbLimitora

namespace Adapter

open Protocol (WireView)
open Codec (TrustedSource RestorableWindow RestorableSnapshot Restorable NfcLaws legacyState checkLabel_none)

/-! ### What the package answers -/

/-- What is found in an attribute: nothing, something else than is expected, or that. -/
inductive Found (α : Type) where
  | absent
  | other
  | is (a : α)

/-- A quantity: its metric by its value, its number if it is a `Decimal`, its unit if it is a text. -/
structure Quantity where
  metric : Option String
  value : Option PyDecimal
  unit : Option Text

structure QuotaWindow where
  reference : Option Text
  kind : Option String
  availability : Option String
  scope : Option Text
  period : Option Text
  planId : Found Text
  limit : Found Quantity
  used : Found Quantity
  remaining : Found Quantity
  resetAt : Found Moment

/-- A credit: whether it is available, if its status is one. -/
structure Credit where
  available : Option Bool
  expiresAt : Found Moment

/-- A summary of credits: their count, if it is an `int`, and the credits, if they are a tuple. -/
structure CreditsSummary where
  availableCount : Option ℤ
  credits : Found (List (Found Credit))

/-- A snapshot of the package. What is not of the type that is expected is not there. -/
structure Snapshot where
  providerId : Option String
  statusProviderId : Option String
  hasSource : Bool
  reference : Option Text
  state : Option String
  freshness : Option String
  observedAt : Option Moment
  fetchedAt : Option Moment
  dataAt : Option Moment
  windows : Option (List (Option QuotaWindow))
  credits : Option CreditsSummary

/-- Kinds of an error of a provider. One of the transport has a message, of a timeout or not. -/
inductive ErrorKind
  | transport (timedOut : Bool)
  | unauthorized
  | rateLimited
  | other
deriving DecidableEq

/-- What a call of the package comes to. -/
inductive Answer
  | timeout
  | providerError (kind : ErrorKind)
  | rejected
  | failed
  | undetected
  | snapshot (snapshot : Option Snapshot)
  | unknown

/-! ### Snapshots -/

variable [UnicodeData]

/-- `canonical_identity` of an attribute. -/
def identity (message : String) : Option Text → Option String
  | some s => do
    let value ← s.toString
    (canonicalIdentity value message).toOption
  | none => none

/-- `_safe_source`. -/
def safeSource (provider : ProviderKey) (reference : Option Text) : Option String :=
  Codec.sourceFor provider (reference.map .str)

/-- `_quantity`. -/
def quantity : Found Quantity → Option (Option QuotaQuantity)
  | .absent => some none
  | .other => none
  | .is q => do
    let metric ← q.metric.bind (ofValue QuotaMetricKind.all QuotaMetricKind.value)
    let value ← q.value
    let unit ← identity "invalid provider unit" q.unit
    let quantity ← (QuotaQuantity.make value metric unit).toOption
    return some quantity

/-- What is kept of a window only if its source is trusted. -/
def trusted {α : Type} (source : Option String) (kept : Option (Option α)) : Option (Option α) :=
  if source.isSome then kept else some none

def planOf : Found Text → Option (Option String)
  | .absent => some none
  | .other => none
  | .is s => (identity "invalid provider plan id" (some s)).map some

/-- An optional moment, which must be aware. -/
def momentOf : Found Moment → Option (Option Moment)
  | .absent => some none
  | .other => none
  | .is t => some (some t)

def availabilityOf (source : Option String) (availability : Option String) : Option QuotaAvailability :=
  if source.isSome then availability.bind (ofValue QuotaAvailability.all QuotaAvailability.value)
  else some .unavailable

/-- `_window`: the window, and the moment that is kept of it. -/
def window (provider : ProviderKey) (w : QuotaWindow) : Option (QuotaWindowView × List Moment) := do
  let source := safeSource provider w.reference
  let kind ← w.kind.bind (ofValue QuotaWindowKind.all QuotaWindowKind.value)
  let availability ← availabilityOf source w.availability
  let scope ← identity "invalid provider scope" w.scope
  let period ← identity "invalid provider period" w.period
  let plan ← trusted source (planOf w.planId)
  let limit ← trusted source (quantity w.limit)
  let used ← trusted source (quantity w.used)
  let remaining ← trusted source (quantity w.remaining)
  let resetAt ← trusted source (momentOf w.resetAt)
  let view ← (QuotaWindowView.make kind scope period plan availability source limit used remaining
    (resetAt.map Moment.nearest)).toOption
  return (view, resetAt.toList)

/-! ### Reset credits -/

omit [UnicodeData] in
/-- The loop of `_reset_expiry`: the expiries to come of the available credits, and whether one of
them has no date; nothing, as soon as a credit is none. -/
def collect (now : Moment) : List (Found Credit) → List Moment → Bool → Option (List Moment × Bool)
  | [], candidates, unknown => some (candidates, unknown)
  | .is ⟨some available, expiresAt⟩ :: credits, candidates, unknown =>
    match expiresAt with
    | .other => none
    | .absent => collect now credits candidates (unknown || available)
    | .is t =>
      collect now credits (if available ∧ now.micros < t.micros then candidates ++ [t] else candidates) unknown
  | _ :: _, _, _ => none

/-- `min` of moments. -/
def earliest : List Moment → Option Moment
  | [] => none
  | t :: ts => some (ts.foldl (fun best t => if t.micros < best.micros then t else best) t)

/-- `_reset_expiry`. -/
def resetExpiry (details : Found (List (Found Credit))) (count : ℕ) (now : Moment) : Option Moment :=
  match details with
  | .other => none
  | .absent => none
  | .is credits =>
    match collect now credits [] false with
    | some (candidates, false) => if count ≠ 0 ∧ candidates.length = count then earliest candidates else none
    | _ => none

/-- `_reset_credits`, and the moment that is kept of them. -/
def resetCredits (summary : Option CreditsSummary) (now : Moment) :
    Option (RateLimitResetCreditsView × List Moment) := do
  let summary ← summary
  let count ← summary.availableCount
  if 0 ≤ count then
    let expiry := resetExpiry summary.credits count.toNat now
    let credits ← RateLimitResetCreditsView.make count.toNat (expiry.map Moment.nearest)
    return (credits, expiry.toList)
  else none

/-- How a provider names itself. -/
def expectedProvider : ProviderKey → String
  | .codex => "codex"
  | .opencodeGo => "opencode-go"

/-- `_snapshot`, or the code of what it raises: the snapshot, and the moments that are kept of it. -/
def snapshot (provider : ProviderKey) (now : Moment) (s : Snapshot) :
    Except SafeErrorCode (ProviderSnapshotView × List Moment) :=
  if s.providerId ≠ some (expectedProvider provider) ∨ s.statusProviderId ≠ s.providerId ∨ !s.hasSource then
    .error .invalidProviderData
  else
    match s.state.bind (ofValue PublicProviderState.all PublicProviderState.value) with
    | none => .error .unknownProviderState
    | some publicState =>
      match view publicState with
      | none => .error .invalidProviderData
      | some snapshot => .ok snapshot
where
  /-- What is left to check of a snapshot, once its state is known. The moments are compared
  themselves. -/
  view (publicState : PublicProviderState) : Option (ProviderSnapshotView × List Moment) := do
    let freshness ← s.freshness.bind (ofValue SnapshotFreshness.all SnapshotFreshness.value)
    let items ← s.windows
    let windows ← items.mapM fun item => item.bind (window provider)
    let observed ← s.observedAt
    let fetched ← s.fetchedAt
    let data ← s.dataAt
    let resets := resetCredits s.credits now
    if observed.micros ≤ fetched.micros ∧ data.micros ≤ fetched.micros then
      let snapshot ← ProviderSnapshotView.make publicState freshness observed.nearest fetched.nearest data.nearest
        (safeSource provider s.reference) (windows.map Prod.fst) (resets.map Prod.fst)
      return (snapshot, [observed, fetched, data] ++ windows.flatMap Prod.snd ++ resets.elim [] Prod.snd)
    else none

/-- The view of a snapshot. -/
def viewOf (provider : ProviderKey) (s : ProviderSnapshotView) : ProviderView where
  provider := provider
  state := legacyState s
  error := none
  outcome := some .snapshot
  snapshot := some s
  notRunReason := none
  ok := by
    have hstate : legacyState s ≠ .safeError := by
      unfold legacyState
      split_ifs
      all_goals decide
    constructor <;> simp [hstate]

/-- A view that was read, and the moments that it was made with. -/
structure Reading where
  view : ProviderView
  moments : List Moment

def Reading.error (provider : ProviderKey) (code : SafeErrorCode) : Reading := ⟨safeErrorView provider code, []⟩

/-- `_snapshot_view`. The clock is that of the system, in UTC; it may be unusable. -/
def snapshotView (provider : ProviderKey) (now : Option Instant) (s : Option Snapshot) : Reading :=
  match now, s with
  | some now, some s =>
    match snapshot provider (.dated now) s with
    | .ok (s, moments) => ⟨viewOf provider s, moments⟩
    | .error code => .error provider code
  | _, _ => .error provider .invalidProviderData

/-- `_read`. -/
def read (provider : ProviderKey) (now : Option Instant) : Answer → Reading
  | .timeout => .error provider .timeout
  | .providerError kind => .error provider (if kind = .transport true then .timeout else .providerError)
  | .rejected => .error provider .configurationInvalid
  | .failed => .error provider .internalError
  | .undetected => ⟨undetectedView provider, []⟩
  | .snapshot s => snapshotView provider now s
  | .unknown => .error provider .internalError

/-- `_failure_evidence` of a call that failed. -/
def evidence : Answer → Option OpenCodeFailureEvidence
  | .timeout => some .timeout
  | .providerError (.transport true) => some .timeout
  | .providerError .unauthorized => some .credentialInvalid
  | .providerError .rateLimited => some .rateLimited
  | .providerError _ => some .unavailable
  | _ => none

/-- What the construction of a client comes to. -/
inductive Activation
  | client
  | rejected
  | failed

/-- `CodexLimitoraAdapter.read`, as `read_codex` calls it. -/
def readCodex (activation : Activation) (now : Option Instant) (answer : Answer) : Reading :=
  match activation with
  | .client => read .codex now answer
  | .rejected => .error .codex .configurationInvalid
  | .failed => .error .codex .internalError

/-- `read_opencode_go` of a request, and its evidence. -/
def readOpencodeGo (activation : Activation) (now : Option Instant) (answer : Answer) :
    Reading × Option OpenCodeFailureEvidence :=
  match activation with
  | .client => (read .opencodeGo now answer, evidence answer)
  | .rejected => (.error .opencodeGo .configurationInvalid, none)
  | .failed => (.error .opencodeGo .internalError, none)

/-- What is sent of a reading. -/
def Reading.wire (r : Reading) : WireView := ⟨r.view, none, checkLabel_none⟩

/-- Whether `_timestamp` can write each moment that was kept. -/
def Reading.isDated (r : Reading) : Bool := r.moments.all Moment.isDated

/-- `_payload` of a reading, which raises if one of its moments cannot be written. -/
def Reading.payload (r : Reading) : Option Bytes := if r.isDated then Codec.payload r.wire else none

/-- What `_child_main` writes of a reading: its view, or an internal error if that cannot be sent. -/
def respond (r : Reading) : Option Bytes := r.payload.orElse fun _ => Codec.payload Codec.internalError

/-! ### When an expiry is asserted -/

section Expiry

variable {now : Moment}

/-- A credit that is one: whether it is available, and its date, if it has one. -/
abbrev Dated := Bool × Option Moment

omit [UnicodeData] in
/-- A credit as it is found. -/
def Dated.found (c : Dated) : Found Credit := .is ⟨some c.1, c.2.elim .absent .is⟩

omit [UnicodeData] in
/-- The date of a credit that is available, if it is still to come. -/
def Dated.next (now : Moment) : Dated → Option Moment
  | (true, some t) => if now.micros < t.micros then some t else none
  | _ => none

/-- The dates to come of the credits that are available. -/
def future (now : Moment) (credits : List Dated) : List Moment := credits.filterMap (Dated.next now)

/-- Whether an available credit has no date. -/
def hasUndated (credits : List Dated) : Bool := credits.any fun c => c.1 && c.2.isNone

omit [UnicodeData] in
theorem Dated.found_injective : Function.Injective Dated.found := by
  rintro ⟨available, date⟩ ⟨available', date'⟩ h
  obtain ⟨havailable, hdate⟩ := Credit.mk.inj (Found.is.inj h)
  obtain rfl : available = available' := Option.some.inj havailable
  rcases date with _ | t <;> rcases date' with _ | t'
  · rfl
  · cases hdate
  · cases hdate
  · obtain rfl : t = t' := Found.is.inj hdate
    rfl

omit [UnicodeData] in
theorem future_singleton (available : Bool) (t : Moment) :
    future now [(available, some t)] = if available ∧ now.micros < t.micros then [t] else [] := by
  rw [future, List.filterMap_cons, List.filterMap_nil]
  cases available with
  | false =>
    rw [if_neg fun h => Bool.false_ne_true h.1]
    rfl
  | true =>
    rw [Dated.next]
    by_cases hfuture : now.micros < t.micros
    · rw [if_pos hfuture, if_pos ⟨rfl, hfuture⟩]
    · rw [if_neg hfuture, if_neg fun h => hfuture h.2]

omit [UnicodeData] in
/-- One turn of the loop, of a credit that is one. -/
theorem collect_cons_found (c : Dated) (credits : List (Found Credit)) (candidates : List Moment) (unknown : Bool) :
    collect now (c.found :: credits) candidates unknown =
      collect now credits (candidates ++ future now [c]) (unknown || hasUndated [c]) := by
  obtain ⟨available, date⟩ := c
  rcases date with _ | t
  · have hfuture : future now [(available, none)] = [] := by
      cases available <;> rfl
    have hundated : hasUndated [(available, none)] = available := by
      cases available <;> rfl
    rw [hfuture, hundated, List.append_nil]
    rfl
  · have hundated : hasUndated [(available, some t)] = false := by
      cases available <;> rfl
    rw [hundated, Bool.or_false, Dated.found, future_singleton]
    change collect now credits (if available ∧ now.micros < t.micros then candidates ++ [t] else candidates) unknown = _
    split_ifs
    · rfl
    · rw [List.append_nil]

omit [UnicodeData] in
/-- One turn of the loop, of what is no credit, or of a credit that is not as it should be. -/
theorem collect_cons_other {credit : Found Credit} (h : ∀ c : Dated, credit ≠ c.found) (credits : List (Found Credit))
    (candidates : List Moment) (unknown : Bool) : collect now (credit :: credits) candidates unknown = none := by
  rcases credit with _ | _ | ⟨_ | available, expiresAt⟩
  · rfl
  · rfl
  · rfl
  · rcases expiresAt with _ | _ | t
    · exact absurd rfl (h (available, none))
    · rfl
    · exact absurd rfl (h (available, some t))

omit [UnicodeData] in
theorem future_cons (c : Dated) (credits : List Dated) : future now (c :: credits) = future now [c] ++ future now credits :=
  List.filterMap_append (l := [c])

omit [UnicodeData] in
theorem hasUndated_cons (c : Dated) (credits : List Dated) :
    hasUndated (c :: credits) = (hasUndated [c] || hasUndated credits) := by
  change hasUndated ([c] ++ credits) = _
  exact List.any_append

omit [UnicodeData] in
/-- **The loop over the credits** comes to its end if they are all credits, and has then found the
dates to come. -/
theorem collect_eq_some_iff {credits : List (Found Credit)} {candidates result : List Moment} {unknown unknown' : Bool} :
    collect now credits candidates unknown = some (result, unknown') ↔ ∃ dated : List Dated,
      credits = dated.map Dated.found ∧ result = candidates ++ future now dated ∧
        unknown' = (unknown || hasUndated dated) := by
  induction credits generalizing candidates unknown with
  | nil =>
    constructor
    · intro h
      obtain ⟨rfl, rfl⟩ := Prod.mk.inj (Option.some.inj h)
      exact ⟨[], rfl, (List.append_nil _).symm, (Bool.or_false _).symm⟩
    · rintro ⟨dated, hdated, rfl, rfl⟩
      obtain rfl := List.map_eq_nil_iff.1 hdated.symm
      rw [collect, future, List.filterMap_nil, List.append_nil, hasUndated, List.any_nil, Bool.or_false]
  | cons credit credits ih =>
    by_cases hcredit : ∃ c : Dated, credit = c.found
    · obtain ⟨c, rfl⟩ := hcredit
      rw [collect_cons_found, ih]
      constructor
      · rintro ⟨dated, rfl, rfl, rfl⟩
        refine ⟨c :: dated, rfl, ?_, ?_⟩
        · rw [future_cons c dated, List.append_assoc]
        · rw [hasUndated_cons c dated, Bool.or_assoc]
      · rintro ⟨_ | ⟨c', dated⟩, hdated, rfl, rfl⟩
        · cases hdated
        obtain ⟨hc, hcredits⟩ := List.cons.inj hdated
        obtain rfl := Dated.found_injective hc
        refine ⟨dated, hcredits, ?_, ?_⟩
        · rw [future_cons c dated, List.append_assoc]
        · rw [hasUndated_cons c dated, Bool.or_assoc]
    · rw [collect_cons_other (not_exists.1 hcredit)]
      refine iff_of_false nofun ?_
      rintro ⟨_ | ⟨c, dated⟩, hdated, -⟩
      · cases hdated
      · exact hcredit ⟨c, (List.cons.inj hdated).1⟩

omit [UnicodeData] in
theorem foldl_earliest (ts : List Moment) (t : Moment) :
    (ts.foldl (fun best t => if t.micros < best.micros then t else best) t ∈ t :: ts) ∧
      ∀ s ∈ t :: ts, (ts.foldl (fun best t => if t.micros < best.micros then t else best) t).micros ≤ s.micros := by
  induction ts generalizing t with
  | nil => exact ⟨List.mem_cons_self, List.forall_mem_singleton.2 le_rfl⟩
  | cons u ts ih =>
    rw [List.foldl_cons]
    by_cases hlt : u.micros < t.micros
    · rw [if_pos hlt]
      obtain ⟨hmem, hle⟩ := ih u
      refine ⟨List.mem_cons_of_mem _ hmem, List.forall_mem_cons.2 ⟨?_, hle⟩⟩
      exact (hle u List.mem_cons_self).trans hlt.le
    · rw [if_neg hlt]
      obtain ⟨hmem, hle⟩ := ih t
      rw [List.forall_mem_cons] at hle
      refine ⟨?_, List.forall_mem_cons.2 ⟨hle.1, List.forall_mem_cons.2 ⟨hle.1.trans (not_lt.1 hlt), hle.2⟩⟩⟩
      rcases List.mem_cons.1 hmem with heq | hmem
      · rw [heq]
        exact List.mem_cons_self
      · exact List.mem_cons_of_mem _ (List.mem_cons_of_mem _ hmem)

omit [UnicodeData] in
theorem earliest_spec {ts : List Moment} (h : ts ≠ []) :
    ∃ t ∈ ts, earliest ts = some t ∧ ∀ s ∈ ts, t.micros ≤ s.micros := by
  rcases ts with _ | ⟨t, ts⟩
  · exact absurd rfl h
  · obtain ⟨hmem, hle⟩ := foldl_earliest ts t
    exact ⟨_, hmem, rfl, hle⟩

/-- All the credits that are counted are accounted for: each credit is one, those that are available
have a date, and as many as are counted have it still to come. -/
def Accounted (now : Moment) (count : ℕ) (details : Found (List (Found Credit))) (dated : List Dated) : Prop :=
  details = .is (dated.map Dated.found) ∧ hasUndated dated = false ∧ (future now dated).length = count ∧ count ≠ 0

end Expiry

section Trusted

variable {provider : ProviderKey} {now : Moment}

/-- The data of a window is of the source of its provider, or there is none. -/
structure TrustedFor (provider : ProviderKey) (w : QuotaWindowView) : Prop where
  source : w.sourceId = none ∨ w.sourceId = some provider.expectedSource
  bare : w.sourceId = none → w.planId = none ∧ w.availability = .unavailable

/-- The data of a snapshot. -/
structure TrustedSnapshot (provider : ProviderKey) (s : ProviderSnapshotView) : Prop where
  source : s.sourceId = none ∨ s.sourceId = some provider.expectedSource
  windows : ∀ w ∈ s.windows, TrustedFor provider w

theorem safeSource_cases (provider : ProviderKey) (reference : Option Text) :
    safeSource provider reference = none ∨ safeSource provider reference = some provider.expectedSource := by
  rcases reference with _ | s
  · exact Or.inl rfl
  · change Codec.sourceFor provider (some (.str s)) = none ∨ Codec.sourceFor provider (some (.str s)) = _
    rw [Codec.sourceFor_str]
    rcases hsource : (s.toString.map fun value => strip (UnicodeData.nfc value)).filter fun source =>
        source = provider.expectedSource with _ | source
    · exact Or.inl rfl
    · exact Or.inr (congrArg some (of_decide_eq_true (Option.filter_eq_some_iff.1 hsource).2))

theorem trustedFor_window {w : QuotaWindow} {v : QuotaWindowView × List Moment} (h : window provider w = some v) :
    TrustedFor provider v.1 := by
  obtain ⟨kind, -, h⟩ := Option.bind_eq_some_iff.1 h
  obtain ⟨availability, havailability, h⟩ := Option.bind_eq_some_iff.1 h
  obtain ⟨scope, -, h⟩ := Option.bind_eq_some_iff.1 h
  obtain ⟨period, -, h⟩ := Option.bind_eq_some_iff.1 h
  obtain ⟨plan, hplan, h⟩ := Option.bind_eq_some_iff.1 h
  obtain ⟨limit, -, h⟩ := Option.bind_eq_some_iff.1 h
  obtain ⟨used, -, h⟩ := Option.bind_eq_some_iff.1 h
  obtain ⟨remaining, -, h⟩ := Option.bind_eq_some_iff.1 h
  obtain ⟨resetAt, -, h⟩ := Option.bind_eq_some_iff.1 h
  obtain ⟨view, hview, h⟩ := Option.bind_eq_some_iff.1 h
  obtain rfl := Option.some.inj h
  obtain ⟨⟨-, -, -, hplan'⟩, ⟨havailability', hsource, -⟩, -⟩ :=
    QuotaWindowView.make_eq_ok_iff.1 (toOption_eq_some_iff.1 hview)
  have hcases := safeSource_cases provider w.reference
  rw [← hsource] at hcases hplan havailability
  refine ⟨hcases, fun hnone => ?_⟩
  -- what comes without a source is not looked at
  rw [hnone] at hplan havailability
  obtain rfl := Option.some.inj hplan
  obtain rfl := Option.some.inj havailability
  exact ⟨(Except.ok.inj hplan').symm, havailability'⟩

theorem trustedSnapshot_snapshot {s : Snapshot} {v : ProviderSnapshotView × List Moment}
    (h : snapshot provider now s = .ok v) : TrustedSnapshot provider v.1 := by
  unfold snapshot at h
  split_ifs at h
  split at h
  · cases h
  next publicState _ =>
  split at h
  · cases h
  next v' hview =>
  obtain rfl := Except.ok.inj h
  obtain ⟨freshness, -, h⟩ := Option.bind_eq_some_iff.1 hview
  obtain ⟨items, -, h⟩ := Option.bind_eq_some_iff.1 h
  obtain ⟨windows, hwindows, h⟩ := Option.bind_eq_some_iff.1 h
  obtain ⟨observed, -, h⟩ := Option.bind_eq_some_iff.1 h
  obtain ⟨fetched, -, h⟩ := Option.bind_eq_some_iff.1 h
  obtain ⟨data, -, h⟩ := Option.bind_eq_some_iff.1 h
  split_ifs at h
  obtain ⟨view, hmake, h⟩ := Option.bind_eq_some_iff.1 h
  obtain rfl := Option.some.inj h
  obtain ⟨-, -, -, -, -, hsource, hviews, -⟩ := ProviderSnapshotView.make_eq_some hmake
  refine ⟨hsource ▸ safeSource_cases provider s.reference, fun w hw => ?_⟩
  rw [← hviews] at hw
  obtain ⟨kept, hkept, rfl⟩ := List.mem_map.1 hw
  obtain ⟨item, -, hitem⟩ := Codec.mem_of_mapM hwindows kept hkept
  obtain ⟨a, -, ha⟩ := Option.bind_eq_some_iff.1 hitem
  exact trustedFor_window ha

/-- What comes of a read: a snapshot of data that is trusted, or no snapshot. -/
theorem read_cases (provider : ProviderKey) (now : Option Instant) (answer : Answer) :
    (∃ s, TrustedSnapshot provider s ∧ (read provider now answer).view = viewOf provider s) ∨
      (read provider now answer).view = undetectedView provider ∨
      ∃ code, (read provider now answer).view = safeErrorView provider code := by
  rcases answer with _ | kind | _ | _ | _ | s | _
  · exact Or.inr (Or.inr ⟨_, rfl⟩)
  · exact Or.inr (Or.inr ⟨_, rfl⟩)
  · exact Or.inr (Or.inr ⟨_, rfl⟩)
  · exact Or.inr (Or.inr ⟨_, rfl⟩)
  · exact Or.inr (Or.inl rfl)
  · rcases now with _ | now
    · exact Or.inr (Or.inr ⟨_, rfl⟩)
    rcases s with _ | s
    · exact Or.inr (Or.inr ⟨_, rfl⟩)
    rcases hsnapshot : snapshot provider (.dated now) s with code | v
    · refine Or.inr (Or.inr ⟨code, ?_⟩)
      rw [read, snapshotView, hsnapshot]
      rfl
    · refine Or.inl ⟨v.1, trustedSnapshot_snapshot hsnapshot, ?_⟩
      rw [read, snapshotView, hsnapshot]
  · exact Or.inr (Or.inr ⟨_, rfl⟩)

end Trusted

/-- A window without a source has no data at all. -/
theorem TrustedFor.no_data {w : QuotaWindowView} {provider : ProviderKey} (h : TrustedFor provider w)
    (hsource : w.sourceId = none) : w.limit = none ∧ w.used = none ∧ w.remaining = none ∧ w.resetAt = none := by
  refine w.values_eq_none ?_
  rw [(h.bare hsource).2]
  decide

/-- **What comes of a read, whatever the package answers**: a snapshot of the provider, which names
no source but the one that is trusted, and whose windows have no data but of this source; or no
snapshot at all. -/
theorem read_trusted (provider : ProviderKey) (now : Option Instant) (answer : Answer) :
    (∃ s, (read provider now answer).view = viewOf provider s ∧
      (s.sourceId = none ∨ s.sourceId = some provider.expectedSource) ∧
      ∀ w ∈ s.windows, w.sourceId = some provider.expectedSource ∨
        (w.sourceId = none ∧ w.planId = none ∧ w.availability = .unavailable ∧
          w.limit = none ∧ w.used = none ∧ w.remaining = none ∧ w.resetAt = none)) ∨
    (read provider now answer).view = undetectedView provider ∨
    ∃ code, (read provider now answer).view = safeErrorView provider code := by
  rcases read_cases provider now answer with ⟨s, hs, hread⟩ | hread
  · refine Or.inl ⟨s, hread, hs.source, fun w hw => ?_⟩
    have hw := hs.windows w hw
    rcases hw.source with hnone | hsome
    · exact Or.inr ⟨hnone, (hw.bare hnone).1, (hw.bare hnone).2, hw.no_data hnone⟩
    · exact Or.inl hsome
  · exact Or.inr hread

/-! ### What the parent gets -/

theorem TrustedSnapshot.restorable {s : ProviderSnapshotView} (h : TrustedSnapshot .codex s) : RestorableSnapshot s :=
  ⟨h.source, fun w hw => ⟨(h.windows w hw).source, (h.windows w hw).bare⟩⟩

/-- What is read of Codex comes back from what is sent of it. -/
theorem restorable_readCodex (activation : Activation) (now : Option Instant) (answer : Answer) :
    Restorable (readCodex activation now answer).wire := by
  have hwire : ∀ {r : Reading} {view : ProviderView}, r.view = view → Restorable ⟨view, none, checkLabel_none⟩ →
      Restorable r.wire := by
    rintro r view rfl h
    exact h
  rcases activation with _ | _ | _
  · rcases read_cases .codex now answer with ⟨s, hs, hread⟩ | hread | ⟨code, hread⟩
    · refine hwire hread ⟨rfl, rfl, (fun label h => nomatch h), ?_, ?_, ?_⟩
      · intro s' hs'
        obtain rfl := Option.some.inj hs'
        rfl
      · rintro (h | h)
        all_goals cases h
      · intro s' hs'
        obtain rfl := Option.some.inj hs'
        exact hs.restorable
    · exact hwire hread
        ⟨rfl, rfl, (fun label h => nomatch h), (fun s h => nomatch h), fun _ => rfl, (fun s h => nomatch h)⟩
    · exact hwire hread (Codec.restorable_error code)
  · exact Codec.restorable_error .configurationInvalid
  · exact Codec.restorable_error .internalError

/-- The internal error is short enough to be sent. -/
theorem payload_internalError : (Codec.payload Codec.internalError).isSome = true := by
  have hitem : Codec.item Codec.internalError = .obj [(Text.ofString "provider", .str (Text.ofString "codex")),
      (Text.ofString "state", .str (Text.ofString "safe_error")),
      (Text.ofString "outcome", .str (Text.ofString "execution_error")), (Text.ofString "display_label", .null),
      (Text.ofString "error", .obj [(Text.ofString "code", .str (Text.ofString "internal_error"))]),
      (Text.ofString "snapshot", .null)] := rfl
  have hsize : Json.byteSize (Json.Style.compact.write (Codec.item Codec.internalError)) ≤ 6 * 100 + 2 := by
    rw [hitem]
    refine Json.byteSize_write_obj_le ?_
    simp only [List.forall_mem_cons]
    exact ⟨by decide, by decide, by decide, by decide, by decide, by decide, List.forall_mem_nil _⟩
  exact Codec.payload_isSome_iff.2 ⟨rfl, (fun label h => nomatch h), hsize.trans (by decide)⟩

/-- Whether the helper can write what it read: each moment has a date in UTC, the count of the reset
credits has no more digits than `json.dumps` writes, and the text is no longer than a response. -/
def Reading.isWritable (r : Reading) : Bool :=
  r.isDated && Codec.countIsShort r.wire &&
    decide (Json.byteSize (Json.Style.compact.write (Codec.item r.wire)) ≤ Codec.MAX_RESPONSE)

theorem Reading.isSome_payload_iff (r : Reading) : r.payload.isSome = true ↔ r.isWritable = true := by
  rw [Reading.payload, Reading.isWritable, Bool.and_eq_true, Bool.and_eq_true, decide_eq_true_eq]
  by_cases hdated : r.isDated = true
  · rw [if_pos hdated, Codec.payload_isSome_iff, and_iff_right hdated]
    exact and_congr_right' (and_iff_right fun label h => nomatch h)
  · rw [if_neg hdated]
    exact iff_of_false nofun fun h => hdated h.1.1

/-- What is sent of a reading is what is sent of its view. -/
theorem Reading.payload_eq_some {r : Reading} {data : Bytes} (h : r.payload = some data) :
    Codec.payload r.wire = some data := by
  unfold Reading.payload at h
  split_ifs at h
  exact h

omit [UnicodeData] in
/-- Noon of a day. -/
def noon (day : ℕ) (h : IsCalendar 2024 5 day 12 0 0 0) : Instant := ⟨2024, 5, day, 12, 0, 0, 0, h⟩

omit [UnicodeData] in
/-- An answer with a window of the trusted source, which is reset at some moment. -/
def answerReset (resetAt : Moment) : Answer :=
  .snapshot (some {
    providerId := some "codex"
    statusProviderId := some "codex"
    hasSource := true
    reference := none
    state := some "available"
    freshness := some "fresh"
    observedAt := some (.dated (noon 1 (by decide)))
    fetchedAt := some (.dated (noon 2 (by decide)))
    dataAt := some (.dated (noon 2 (by decide)))
    windows := some [some {
      reference := some (Text.ofString CODEX_SOURCE_ID)
      kind := some "commercial_quota"
      availability := some "known"
      scope := some (Text.ofString "account")
      period := some (Text.ofString "weekly")
      planId := .absent
      limit := .absent
      used := .is ⟨some "commercial_quota", some (.finite false ⟨375, -1⟩), some (Text.ofString "requests")⟩
      remaining := .absent
      resetAt := .is resetAt }]
    credits := none })

end Adapter

end YasbLimitora

import Mathlib
import YasbLimitora.Coordinator.Invariant

/-!
# What the methods of a coordinator guarantee

One specification for each method of `YasbLimitora.RefreshCoordinator`, by the rules of `Contract`.
Two assertions carry them. Between calls a coordinator is `YasbLimitora.Pending`: a claim it
remembers is one of its own, and – where its marker operations do not fail in the two ways that lose
a claim – it remembers each claim of its own that the marker still shows. From taking a claim to
finishing it, it is `YasbLimitora.Held`: the claim is recorded and not published, and, where the
process table tells the truth, its marker is in place.

A specification says from which assertion a method leads to which, whatever the other coordinators
do in between, since assertions are stable under the rely. A method that decides returns a decision
together with what then holds, as in `YasbLimitora.Decided`. The specification of a whole call is
put together of those of its parts, in the order of the source.
-/

namespace YasbLimitora

open RefreshCoordinator

variable {I P V : Type} {fleet : Fleet I P} {policy : Policy I} {i : I}

/-! ### Assertions -/

/-- What holds of a coordinator that remembers this claim as pending. -/
structure Pending (policy : Policy I) (i : I) (pending : Option RefreshClaim) (w : World I P) :
    Prop where
  own : ∀ c, pending = some c → (c, i) ∈ w.claims
  recorded : policy.careful i → ∀ c, (c, i) ∈ w.claims → w.marker.Owned c → pending = some c

/-- What holds of a coordinator that has taken a claim and not finished it. -/
structure Held (policy : Policy I) (i : I) (c : RefreshClaim) (w : World I P) : Prop where
  pending : Pending policy i (some c) w
  unpublished : c ∉ w.published
  kept : policy.truthful → w.marker.Owned c

/-- The lease is held, and the marker file is this. -/
def Locked (i : I) (f : MarkerFile) (w : World I P) : Prop := w.holder = some i ∧ w.marker = f

/-- The assertions of a coordinator that nothing but the lease and the processes has to
do with. -/
def LeaseFree (A : World I P → Prop) : Prop := ∀ w holder, A w → A { w with holder }

/-- The others keep to an assertion, whether the coordinator lives or not. -/
theorem Pending.of_rely {pending : Option RefreshClaim} {w w' : World I P}
    (h : Pending policy i pending w) (hr : Rely fleet policy i w w') :
    Pending policy i pending w' :=
  ⟨fun c hc => hr.mem_claims.2 (h.own c hc),
    fun hcare c hc ho => h.recorded hcare c (hr.mem_claims.1 hc) (hr.owned c (hr.mem_claims.1 hc) ho)⟩

theorem pending_stable (pending : Option RefreshClaim) :
    (contract fleet policy V).Stable i (Pending policy i pending) :=
  fun _ _ hr _ _ _ _ h => h.of_rely hr

theorem held_stable (c : RefreshClaim) :
    (contract fleet policy V).Stable i (Held policy i c) := by
  intro w w' hr _ _ hlive hlive' h
  have hr : Rely fleet policy i w w' := hr
  have hown := h.pending.own c rfl
  exact ⟨h.pending.of_rely hr, fun hp => h.unpublished (hr.published c hown hp),
    fun ht => hr.kept ht c hown hlive hlive' (h.kept ht)⟩

theorem locked_stable (f : MarkerFile) :
    (contract fleet policy V).Stable i (Locked i f) := by
  rintro w w' hr _ _ hlive hlive' ⟨hh, hm⟩
  have hr : Rely fleet policy i w w' := hr
  obtain ⟨hh', hm', -⟩ := hr.locked hh hlive hlive'
  exact ⟨hh', hm'.trans hm⟩

theorem stable_and {A B : World I P → Prop} (hA : (contract fleet policy V).Stable i A)
    (hB : (contract fleet policy V).Stable i B) :
    (contract fleet policy V).Stable i fun w => A w ∧ B w :=
  fun w w' h₁ h₂ h₃ h₄ h₅ h => ⟨hA w w' h₁ h₂ h₃ h₄ h₅ h.1, hB w w' h₁ h₂ h₃ h₄ h₅ h.2⟩

/-- While the lease is held, an unclaimed marker stays unclaimed. -/
theorem unclaimed_stable (f : MarkerFile) :
    (contract fleet policy V).Stable i fun w => Locked i f w ∧ Unclaimed fleet policy w := by
  rintro w w' hr hinv hinv' hlive hlive' ⟨hl, hfree⟩
  have hr' : Rely fleet policy i w w' := hr
  obtain ⟨-, hm, hc⟩ := hr'.locked hl.1 hlive hlive'
  refine ⟨locked_stable f w w' hr hinv hinv' hlive hlive' hl, fun ht a ha ho => ?_⟩
  rw [hc] at ha
  rw [hm] at ho
  exact (hr'.ages _).dead (hfree ht a ha ho)

theorem pending_leaseFree (pending : Option RefreshClaim) :
    LeaseFree (P := P) (Pending policy i pending) := fun _ _ h => ⟨h.own, h.recorded⟩

theorem held_leaseFree (c : RefreshClaim) : LeaseFree (P := P) (Held policy i c) :=
  fun _ _ h => ⟨⟨h.pending.own, h.pending.recorded⟩, h.unpublished, h.kept⟩

/-- Once the marker is not the one of a claim, the claim need not be remembered. -/
theorem Pending.released {c : RefreshClaim} {w : World I P} (h : Pending policy i (some c) w)
    (hnot : policy.careful i → ¬w.marker.Owned c) : Pending policy i none w := by
  refine ⟨fun _ h => (nomatch h), fun hcare c' hc' ho => ?_⟩
  obtain rfl := Option.some.inj (h.recorded hcare c' hc' ho)
  exact absurd ho (hnot hcare)

/-- A cleared marker is the one of no claim. -/
theorem not_owned_of_inactive {w : World I P} (hinv : WorldInv fleet policy w) {m : Marker}
    (hm : w.marker = .valid m) (hpid : m.ownerPid = 0) {a : RefreshClaim × I}
    (ha : a ∈ w.claims) : ¬w.marker.Owned a.1 := by
  rw [hm, MarkerFile.owned_valid, sameClaim_iff]
  have hpos := fleet.pid_pos (fleet.proc a.2)
  rw [← hinv.pid a ha] at hpos
  omega

/-! ### Operations -/

/-- The specification of a program of coordinator `i`. -/
abbrev Spec (fleet : Fleet I P) (policy : Policy I) (i : I) {α : Type} (A : World I P → Prop)
    (p : Coordination V α) (Q : α → World I P → Prop) : Prop :=
  (contract fleet policy V).Triple i A p Q

/-- The operations that only look, or only wait. -/
def Op.observes : Op → Bool
  | .now | .utcNow | .usableNs | .sleep _ | .load | .closeLease | .readMarker _
  | .processToken _ => true
  | _ => false

theorem same_of_observes {o : Op} (ho : o.observes = true) {w w' : World I P}
    {r : Op.Resp V o} (h : answers fleet policy V i o w r w') : w' = w := by
  cases o <;> first | exact h | exact h.1 | exact absurd ho (by simp [Op.observes])

theorem condition_of_observes {o : Op} (ho : o.observes = true) (w : World I P) :
    Condition policy i o w := by
  cases o <;> first | exact trivial | exact absurd ho (by simp [Op.observes])

variable {A : World I P → Prop} (hA : (contract fleet policy V).Stable i A)

include hA in
/-- An operation that observes gives what the machine says of its answer. -/
theorem spec_observe {o : Op} (ho : o.observes = true) :
    Spec fleet policy i A (Prog.perform o : Coordination V (Op.Resp V o))
      fun r w => A w ∧ answers fleet policy V i o w r w :=
  .observe hA (fun w => condition_of_observes ho w) (fun _ _ _ h => same_of_observes ho h)
    fun _ _ _ _ hw h => ⟨hw, h⟩

include hA in
theorem spec_look {o : Op} (ho : o.observes = true) :
    Spec fleet policy i A (Prog.perform o : Coordination V (Op.Resp V o)) fun _ => A :=
  (spec_observe hA ho).conseq (fun _ _ _ h => h) fun _ _ _ _ h => h.1

theorem spec_pure {α : Type} (a : α) (Q : α → World I P → Prop) :
    Spec fleet policy i (Q a) (pure a : Coordination V α) Q :=
  .ret fun _ _ _ h => h

include hA in
theorem spec_failureCode : Spec fleet policy i A (failureCode : Coordination V _) fun _ => A :=
  .bind (spec_look hA rfl) fun _ => .ret fun _ _ _ h => h

include hA in
theorem spec_acquireKey (hfree : LeaseFree A) :
    Spec fleet policy i A (acquireKey : Coordination V Acquired)
      fun r w => A w ∧ (r = .lease → w.holder = some i) := by
  refine .perform hA (fun _ _ _ _ => trivial) fun w r w' hinv hlive hw h => ?_
  rcases h with ⟨rfl, hnone, rfl⟩ | ⟨hr, rfl⟩
  · exact ⟨keeps_acquire hinv hlive hnone, hfree w _ hw, fun _ => rfl⟩
  · exact ⟨⟨hinv, hlive, fun j _ => .refl j w'⟩, hw, fun he => absurd he hr⟩

include hA in
theorem spec_releaseLease (hfree : LeaseFree A) :
    Spec fleet policy i A (Prog.perform Op.releaseLease : Coordination V Bool) fun _ => A := by
  refine .perform hA (fun _ _ _ _ => trivial) fun w r w' hinv hlive hw h => ?_
  rcases h with ⟨hown, rfl⟩ | ⟨rfl, -⟩
  · exact ⟨keeps_release hinv hlive hown, hfree w _ hw⟩
  · exact ⟨⟨hinv, hlive, fun j _ => .refl j w'⟩, hw⟩

include hA in
theorem spec_closeLease (hfree : LeaseFree A) (l : Lease) :
    Spec fleet policy i A (closeLease l : Coordination V (Bool × Lease)) fun _ => A := by
  unfold closeLease
  refine .bind (B := fun _ => A) ?_ fun released => ?_
  · exact .ite (fun _ => .ret fun _ _ _ h => h) fun _ => spec_releaseLease hA hfree
  refine .bind (B := fun _ => A) ?_ fun closed => ?_
  · exact .ite (fun _ => spec_look hA rfl) fun _ => .ret fun _ _ _ h => h
  exact .ret fun _ _ _ h => h

/-! ### Methods that hold no claim -/

theorem spec_closePendingLease (mem : Memory) :
    Spec fleet policy i (Pending policy i mem.pendingClaim)
      (closePendingLease mem : Coordination V (Bool × Memory))
      fun r => Pending policy i r.2.pendingClaim := by
  unfold closePendingLease
  split
  · exact .ret fun _ _ _ h => h
  · exact .bind (spec_closeLease (pending_stable _) (pending_leaseFree _) _)
      fun _ => .ret fun _ _ _ h => h

/-- A method that ends by closing its lease keeps what its memory claims. -/
theorem spec_closeOrRetain (hA : (contract fleet policy V).Stable i A) (hfree : LeaseFree A)
    (mem : Memory) :
    Spec fleet policy i A (closeOrRetain mem : Coordination V (Bool × Memory))
      fun r w => A w ∧ r.2.pendingClaim = mem.pendingClaim := by
  refine .bind (spec_closeLease hA hfree .fresh) fun r => .ret fun _ _ _ h => ⟨h, ?_⟩
  dsimp only
  split <;> rfl

/-- Reading the marker with the lease. -/
theorem spec_readMarkerState (hA : (contract fleet policy V).Stable i A) (purpose : Purpose) :
    Spec fleet policy i (fun w => A w ∧ w.holder = some i)
      (readMarkerState purpose : Coordination V (Option Marker × Bool))
      fun r w => ∃ f, Seen policy i purpose f r ∧ A w ∧ Locked i f w := by
  have hstable : (contract fleet policy V).Stable i fun w => A w ∧ w.holder = some i :=
    fun w w' h₁ h₂ h₃ h₄ h₅ h => ⟨hA w w' h₁ h₂ h₃ h₄ h₅ h.1, (h₁.locked h.2 h₄ h₅).1⟩
  exact (spec_observe hstable rfl).conseq (fun _ _ _ h => h) fun _ w _ _ h =>
    ⟨w.marker, h.2.2, h.1.1, h.1.2, rfl⟩

/-- What was read as a claim's marker is that marker, and what was not, is not. -/
theorem owned_of_seen {purpose : Purpose} {f : MarkerFile} {marker : Option Marker}
    {c : RefreshClaim} (h : Seen policy i purpose f (marker, true)) :
    isMarkerOf marker c = true ↔ f.Owned c := by
  cases marker with
  | none =>
    obtain rfl : f = .absent := h
    exact iff_of_false (by simp [isMarkerOf]) fun ⟨_, hm, _⟩ => (nomatch hm)
  | some m =>
    obtain rfl : f = .valid m := h
    rw [MarkerFile.owned_valid]
    rfl

theorem spec_inactiveMarker (hA : (contract fleet policy V).Stable i A) (generation : ℕ) :
    Spec fleet policy i A (inactiveMarker generation : Coordination V Marker)
      fun m w => (m.generation = generation ∧ m.ownerPid = 0) ∧ A w := by
  unfold inactiveMarker
  refine .bind (spec_look hA rfl) fun t => ?_
  cases t with
  | some t => exact .ret fun _ _ _ h => ⟨⟨rfl, rfl⟩, h⟩
  | none => exact .bind (spec_look hA rfl) fun t => .ret fun _ _ _ h => ⟨⟨rfl, rfl⟩, h⟩

/-- **Clearing the marker of a claim.** Whatever is reported, the claim may stay
remembered; and it need not be once the marker is reported to be cleared. -/
theorem spec_clearMarker {c : RefreshClaim} {f : MarkerFile} (hf : f.Owned c) {purpose : Purpose}
    (hp : purpose = .recovering c ∨ purpose = .finishing c) :
    Spec fleet policy i (fun w => Pending policy i (some c) w ∧ Locked i f w)
      (clearMarker c purpose : Coordination V Bool)
      fun r w => Pending policy i (some c) w ∧ (r = true → Pending policy i none w) := by
  unfold clearMarker
  refine .bind (spec_inactiveMarker (stable_and (pending_stable _) (locked_stable f)) _) fun m =>
    .given fun ⟨hgen, hpid⟩ => ?_
  refine .ite (fun _ => ?_) fun _ => .ret fun _ _ _ h => ⟨h.1, fun hr => (nomatch hr)⟩
  refine .perform (stable_and (pending_stable _) (locked_stable f)) (fun w _ _ h => ?_)
    fun w r w' hinv hlive h hstep => ?_
  · obtain ⟨hpend, hh, hm⟩ := h
    have hauth : Authorized i c w := ⟨hh, hpend.own c rfl, hm ▸ hf⟩
    rcases hp with rfl | rfl <;> exact ⟨hauth, hgen, hpid⟩
  · obtain ⟨hpend, hh, hm⟩ := h
    have hown := hpend.own c rfl
    rcases hstep with ⟨hw, -⟩ | ⟨rfl, rfl⟩
    · obtain rfl : w' = { w with marker := .valid m } := by rcases hp with rfl | rfl <;> exact hw
      have hkeeps := keeps_clear (V := V) hinv hlive hh hown (hm ▸ hf) hgen hpid
      have hnot := fun c' (hc' : (c', i) ∈ w.claims) =>
        not_owned_of_inactive hkeeps.inv rfl hpid (a := (c', i)) hc'
      exact ⟨hkeeps, ⟨hpend.own, fun _ c' hc' ho => absurd ho (hnot c' hc')⟩,
        fun _ => ⟨fun _ h => (nomatch h), fun _ c' hc' ho => absurd ho (hnot c' hc')⟩⟩
    · exact ⟨⟨hinv, hlive, fun j _ => .refl j w'⟩, hpend, fun hr => (nomatch hr)⟩

/-- **Recovering a pending claim** gives up the memory of it only when it is no longer
the marker's. -/
theorem spec_recoverPendingClaim (mem : Memory) :
    Spec fleet policy i (Pending policy i mem.pendingClaim)
      (recoverPendingClaim mem : Coordination V (Bool × Memory))
      fun r w => Pending policy i r.2.pendingClaim w ∧
        (r.1 = true → r.2.pendingClaim = none) := by
  unfold recoverPendingClaim
  split
  · next hnone => exact .ret fun _ _ _ h => ⟨h, fun _ => hnone⟩
  next c hc =>
  rw [hc]
  refine .bind (spec_acquireKey (pending_stable _) (pending_leaseFree _)) fun r => ?_
  cases r with
  | guardError code =>
    exact .ret fun _ _ _ h => ⟨by rw [hc]; exact h.1, fun hr => (nomatch hr)⟩
  | raised => exact .ret fun _ _ _ h => ⟨by rw [hc]; exact h.1, fun hr => (nomatch hr)⟩
  | lease =>
    refine .bind ((spec_readMarkerState (pending_stable _) _).conseq
      (fun _ _ _ h => ⟨h.1, h.2 rfl⟩) fun _ _ _ _ h => h) ?_
    rintro ⟨marker, readable⟩
    refine .exists fun f => .given fun hseen => ?_
    -- what is recovered leaves nothing to remember
    refine .bind (B := fun recovered w => Pending policy i (some c) w ∧
      (recovered = true → Pending policy i none w)) ?_ fun recovered => ?_
    · refine .ite (fun hsame => ?_) fun hsame => .ret fun w _ _ h => ⟨h.1, fun hr => ?_⟩
      · rw [Bool.and_eq_true] at hsame
        obtain ⟨rfl, hsame⟩ := hsame
        exact spec_clearMarker ((owned_of_seen hseen).1 hsame) (.inl rfl)
      · obtain rfl : readable = true := hr
        refine h.1.released fun _ ho => hsame ?_
        rw [h.2.2] at ho
        rw [Bool.true_and]
        exact (owned_of_seen hseen).2 ho
    · have hstable : (contract fleet policy V).Stable i fun w => Pending policy i (some c) w ∧
          (recovered = true → Pending policy i none w) :=
        stable_and (pending_stable _) fun _ _ hr _ _ _ _ h hrec => (h hrec).of_rely hr
      refine .bind (spec_closeOrRetain hstable (fun w holder h =>
        ⟨pending_leaseFree _ w holder h.1, fun hr => pending_leaseFree _ w holder (h.2 hr)⟩) mem) ?_
      rintro ⟨closed, mem'⟩
      refine .ret fun w _ _ h => ?_
      obtain ⟨⟨hpend, hrec⟩, hmem⟩ := h
      dsimp only at hmem ⊢
      cases hb : recovered && closed with
      | false => exact ⟨by rw [if_neg (by simp), hmem, hc]; exact hpend, fun hr => (nomatch hr)⟩
      | true =>
        rw [Bool.and_eq_true] at hb
        exact ⟨by rw [if_pos rfl]; exact hrec hb.1, fun _ => by rw [if_pos rfl]⟩

/-! ### Inspecting and claiming -/

/-- What has been read of a marker file. -/
def Readable (f : MarkerFile) : Option Marker → Prop
  | none => f = .absent
  | some m => f = .valid m

/-- The lease is held over a marker that was read and is unclaimed, and there is nothing
to remember. -/
structure Claimable (fleet : Fleet I P) (policy : Policy I) (i : I) (f : MarkerFile)
    (w : World I P) : Prop where
  pending : Pending policy i none w
  locked : Locked i f w
  unclaimed : Unclaimed fleet policy w

theorem claimable_stable (f : MarkerFile) :
    (contract fleet policy V).Stable i (Claimable fleet policy i f) :=
  fun w w' hr h₂ h₃ h₄ h₅ h =>
    have hlocked := unclaimed_stable f w w' hr h₂ h₃ h₄ h₅ ⟨h.locked, h.unclaimed⟩
    ⟨h.pending.of_rely hr, hlocked.1, hlocked.2⟩

/-- A process that the table knows to be gone has no living claim. -/
theorem spec_ownerState (m : Marker) :
    Spec fleet policy i (fun w => Pending policy i none w ∧ Locked i (.valid m) w)
      (ownerState m : Coordination V OwnerState)
      fun r w => (Pending policy i none w ∧ Locked i (.valid m) w) ∧
        (r = .dead → Claimable fleet policy i (.valid m) w) := by
  have hstable : (contract fleet policy V).Stable i fun w =>
      Pending policy i none w ∧ Locked i (.valid m) w :=
    stable_and (pending_stable none) (locked_stable (.valid m))
  unfold ownerState
  refine .ite (fun _ => .ret fun _ _ _ h => ⟨h, fun hr => (nomatch hr)⟩) fun _ => ?_
  refine .bind (spec_observe hstable rfl) fun r => ?_
  -- the owner of a marker that is claimed has its process identifier and token
  have howner : ∀ w, WorldInv fleet policy w → w.marker = .valid m → ∀ a ∈ w.claims,
      w.marker.Owned a.1 → fleet.pid (fleet.proc a.2) = m.ownerPid ∧
        (policy.truthful → fleet.token (fleet.proc a.2) = m.ownerToken) ∧
        (w.phase (fleet.proc a.2) ≠ .alive → w.phase (fleet.proc a.2) = .dead) := by
    intro w hinv hm a ha ho
    rw [hm, MarkerFile.owned_valid, sameClaim_iff] at ho
    refine ⟨(hinv.pid a ha).symm.trans ho.2.1.symm,
      fun ht => (hinv.token ht a ha).symm.trans ho.2.2.symm, fun hne => ?_⟩
    have hborn := hinv.born a ha
    cases hp : w.phase (fleet.proc a.2) with
    | unborn => exact absurd hp hborn
    | alive => exact absurd hp hne
    | dead => rfl
  cases r with
  | unknown => exact .ret fun _ _ _ h => ⟨h.1, fun hr => (nomatch hr)⟩
  | missing =>
    refine .ret fun w hinv _ h => ⟨h.1, fun _ => ⟨h.1.1, h.1.2, fun ht a ha ho => ?_⟩⟩
    obtain ⟨hpid, -, hdead⟩ := howner w hinv h.1.2.2 a ha ho
    exact hdead (h.2.2 ht _ hpid)
  | token t =>
    refine .ret fun w hinv _ h => ⟨h.1, fun hr => ⟨h.1.1, h.1.2, fun ht a ha ho => ?_⟩⟩
    obtain ⟨hpid, htoken, hdead⟩ := howner w hinv h.1.2.2 a ha ho
    refine hdead fun halive => ?_
    have hsame : t = m.ownerToken := (h.2.2 ht _ hpid halive).symm.trans (htoken ht)
    by_cases hempty : t = ""
    · rw [if_pos hempty] at hr
      cases hr
    · rw [if_neg hempty, if_pos hsame] at hr
      cases hr

/-- What holds of an inspected state: there is an error, or there is nothing to
remember; and a state that leads to a claim was read with the lease, over an unclaimed
marker. -/
structure Inspected (fleet : Fleet I P) (policy : Policy I) (i : I) (state : RefreshState)
    (pending : Option RefreshClaim) (w : World I P) : Prop where
  remembered : Pending policy i pending w
  empty : state.coordinationError = none → pending = none
  claimable : state.coordinationError = none → state.cachedPublicBytes = none →
    state.ownerState = none ∨ state.ownerState = some .dead →
      ∃ f, Readable f state.marker ∧ Claimable fleet policy i f w

theorem spec_inspectLocked :
    Spec fleet policy i (fun w => Pending policy i none w ∧ w.holder = some i)
      (inspectLocked : Coordination V RefreshState)
      fun state => Inspected fleet policy i state none := by
  have hstable : (contract fleet policy V).Stable i fun w =>
      Pending policy i none w ∧ w.holder = some i :=
    fun _ _ h₁ _ _ h₄ h₅ h => ⟨h.1.of_rely h₁, (h₁.locked h.2 h₄ h₅).1⟩
  unfold inspectLocked
  refine .bind (spec_look hstable rfl) fun cached => ?_
  cases cached with
  | some bytes => exact .ret fun _ _ _ h => ⟨h.1, fun _ => rfl, fun _ hc => (nomatch hc)⟩
  | none =>
    refine .bind (spec_readMarkerState (pending_stable _) _) ?_
    rintro ⟨marker, readable⟩
    refine .exists fun f => .given fun hseen => ?_
    match marker, readable with
    | _, false =>
      refine .bind (spec_failureCode (stable_and (pending_stable _) (locked_stable f))) fun code => ?_
      exact .ret fun _ _ _ h => ⟨h.1, fun _ => rfl, fun hc => (nomatch hc)⟩
    | none, true =>
      obtain rfl : f = .absent := hseen
      refine .ret fun w _ _ h => ⟨h.1, fun _ => rfl, fun _ _ _ => ⟨.absent, rfl, h.1, h.2, ?_⟩⟩
      rintro - a - ⟨m, hm, -⟩
      rw [h.2.2] at hm
      cases hm
    | some m, true =>
      obtain rfl : f = .valid m := hseen
      refine .ite (fun hpid => .ret fun w hinv _ h => ⟨h.1, fun _ => rfl,
        fun _ _ _ => ⟨.valid m, rfl, h.1, h.2, fun _ a ha ho => ?_⟩⟩) fun hpid => ?_
      · exact absurd ho (not_owned_of_inactive hinv h.2.2 hpid ha)
      · refine .bind (spec_ownerState m) fun owner => .ret fun w _ _ h =>
          ⟨h.1.1, fun _ => rfl, fun _ _ ho => ⟨.valid m, rfl, h.2 ?_⟩⟩
        exact ho.elim (fun ho => (nomatch ho)) fun ho => Option.some.inj ho

/-- **Inspecting**, with a claim to remember or without. -/
theorem spec_inspectState (mem : Memory) :
    Spec fleet policy i (Pending policy i mem.pendingClaim)
      (inspectState mem : Coordination V (RefreshState × Memory))
      fun r => Inspected fleet policy i r.1 r.2.pendingClaim := by
  have hfailed : ∀ (code : CoordinationError) (mem : Memory),
      Spec fleet policy i (Pending policy i mem.pendingClaim)
        (pure (failedState code, mem) : Coordination V (RefreshState × Memory))
        fun r => Inspected fleet policy i r.1 r.2.pendingClaim := fun code mem =>
    .ret fun _ _ _ h => ⟨h, fun hc => (nomatch hc), fun hc => (nomatch hc)⟩
  unfold inspectState
  refine .bind (spec_closePendingLease mem) ?_
  rintro ⟨closed, mem⟩
  refine .ite (fun _ => hfailed _ _) fun _ => .bind (spec_recoverPendingClaim mem) ?_
  rintro ⟨recovered, mem⟩
  refine .ite (fun _ => (hfailed _ _).conseq (fun _ _ _ h => h.1) fun _ _ _ _ h => h)
    fun hrec => ?_
  refine .conseq (A := fun w => mem.pendingClaim = none ∧ Pending policy i none w)
    (.given fun hnone => ?_) (fun w _ _ h => ?_) fun _ _ _ _ h => h
  swap
  · have hnone : mem.pendingClaim = none := h.2 (by simpa using hrec)
    exact ⟨hnone, hnone ▸ h.1⟩
  refine .bind (spec_acquireKey (pending_stable _) (pending_leaseFree _)) fun r => ?_
  cases r with
  | guardError code =>
    exact (hfailed _ _).conseq (fun _ _ _ h => by rw [hnone]; exact h.1) fun _ _ _ _ h => h
  | raised =>
    refine .bind ((spec_failureCode (pending_stable none)).conseq (fun _ _ _ h => h.1)
      fun _ _ _ _ h => h) fun code => ?_
    exact (hfailed _ _).conseq (fun _ _ _ h => by rw [hnone]; exact h) fun _ _ _ _ h => h
  | lease =>
    refine .bind (spec_inspectLocked.conseq (fun _ _ _ h => ⟨h.1, h.2 rfl⟩)
      fun _ _ _ _ h => h) fun state => .ret fun _ _ _ h => ?_
    rw [hnone]
    exact h

/-- The marker that was read bounds the generations there have been. -/
theorem generation_lt_of_readable {w : World I P} (hinv : WorldInv fleet policy w)
    {marker : Option Marker} (hread : Readable w.marker marker) {a : RefreshClaim × I}
    (ha : a ∈ w.claims) : a.1.generation < (marker.map (·.generation)).getD 0 + 1 := by
  obtain ⟨m, hm, hle⟩ := hinv.current a ha
  cases marker with
  | none => cases hm.symm.trans hread
  | some m' =>
    obtain rfl : m = m' := MarkerFile.valid.inj (hm.symm.trans hread)
    exact Nat.lt_succ_of_le hle

/-- **The write of a claim**, reported to have been made or not. -/
theorem spec_writeClaim {f : MarkerFile} {marker : Option Marker} (hread : Readable f marker)
    {c : RefreshClaim} (hgeneration : c.generation = (marker.map (·.generation)).getD 0 + 1)
    (hpid : c.ownerPid = fleet.pid (fleet.proc i))
    (htoken : policy.truthful → c.ownerToken = fleet.token (fleet.proc i)) (startedAt : Instant) :
    Spec fleet policy i (Claimable fleet policy i f)
      (writeMarker ⟨c.generation, c.ownerPid, c.ownerToken, startedAt⟩ (.claiming c) :
        Coordination V Bool)
      fun r w => (r = false → Pending policy i none w) ∧ (r = true → Held policy i c w) := by
  have hgen : ∀ w, WorldInv fleet policy w → Claimable fleet policy i f w →
      ∀ a ∈ w.claims, a.1.generation < c.generation := fun w hinv h a ha => by
    rw [hgeneration]
    exact generation_lt_of_readable hinv (h.locked.2 ▸ hread) ha
  have hm : sameClaim ⟨c.generation, c.ownerPid, c.ownerToken, startedAt⟩ c = true :=
    sameClaim_iff.2 ⟨rfl, rfl, rfl⟩
  refine .ite (fun _ => .perform (claimable_stable f) (fun w hinv _ h => ?_)
    fun w r w' hinv hlive h hstep => ?_)
    fun _ => .ret fun _ _ _ h => ⟨fun _ => h.pending, fun hr => (nomatch hr)⟩
  · exact ⟨h.locked.1, hm, hgen w hinv h⟩
  rcases hstep with ⟨rfl, hcareful⟩ | ⟨rfl, rfl⟩
  · have hgen := hgen w hinv h
    have hown := MarkerFile.owned_valid.2 hm
    refine ⟨keeps_claim hinv hlive h.locked.1 h.unclaimed hgen hpid htoken hm, ?_, ?_⟩
    · rintro rfl
      exact ⟨fun _ h => (nomatch h), fun hcare => absurd rfl (hcareful rfl hcare c)⟩
    · rintro rfl
      refine ⟨⟨?_, fun _ c' _ ho => congrArg some (hown.unique ho)⟩, fun hpub => ?_, fun _ => hown⟩
      · rintro _ ⟨⟩
        exact List.mem_cons_self
      · obtain ⟨k, hk⟩ := hinv.published_claimed c hpub
        exact lt_irrefl _ (hgen _ hk)
  · exact ⟨⟨hinv, hlive, fun j _ => .refl j w'⟩, fun _ => h.pending, fun hr => (nomatch hr)⟩

/-- What comes of trying to take a claim. -/
def Taken (policy : Policy I) (i : I) (r : Option RefreshClaim) (w : World I P) : Prop :=
  match r with
  | none => Pending policy i none w
  | some c => Held policy i c w

/-- **Taking a claim.** The generation of the marker that is replaced is the greatest
there has been, and the next one is new. -/
theorem spec_claimLocked {f : MarkerFile} {marker : Option Marker} (hread : Readable f marker) :
    Spec fleet policy i (Claimable fleet policy i f)
      (claimLocked (fleet.pid (fleet.proc i)) marker : Coordination V (Option RefreshClaim))
      (Taken policy i) := by
  have hnone : Spec fleet policy i (Claimable fleet policy i f)
      (pure none : Coordination V (Option RefreshClaim)) (Taken policy i) :=
    .ret fun _ _ _ h => h.pending
  unfold claimLocked
  refine .bind (B := fun r w => (policy.truthful → ∀ t, r = .token t →
    fleet.token (fleet.proc i) = t) ∧ Claimable fleet policy i f w) ?_ fun r => .given fun htoken => ?_
  · refine (spec_observe (claimable_stable f) rfl).conseq (fun _ _ _ h => h)
      fun r w _ hlive h => ⟨fun ht t hr => ?_, h.1⟩
    subst hr
    exact h.2.2 ht _ rfl hlive
  cases r with
  | unknown => exact hnone
  | missing => exact hnone
  | token t =>
    refine .ite (fun _ => hnone) fun _ => .bind (spec_look (claimable_stable f) rfl) fun now => ?_
    cases now with
    | none => exact hnone
    | some startedAt =>
      refine .bind (spec_writeClaim hread rfl rfl (fun ht => (htoken ht t rfl).symm) startedAt)
        fun written => ?_
      cases written with
      | false => exact .ret fun _ _ _ h => h.1 rfl
      | true => exact .ret fun _ _ _ h => h.2 rfl

/-! ### Deciding -/

theorem taken_stable (r : Option RefreshClaim) :
    (contract fleet policy V).Stable i (Taken policy i r) := by
  cases r with
  | none => exact pending_stable none
  | some c => exact held_stable c

theorem taken_leaseFree (r : Option RefreshClaim) : LeaseFree (P := P) (Taken policy i r) := by
  cases r with
  | none => exact pending_leaseFree none
  | some c => exact held_leaseFree c

/-- A claim that was taken may be remembered. -/
theorem Taken.pending {r : Option RefreshClaim} {w : World I P} (h : Taken policy i r w) :
    Pending policy i r w := by
  cases r with
  | none => exact h
  | some c => exact Held.pending h

/-- Releasing the lease without a claim. -/
theorem spec_releaseInspection (lease : Option Lease) (mem : Memory) :
    Spec fleet policy i (Pending policy i mem.pendingClaim)
      (releaseInspection lease none mem : Coordination V (Bool × Memory))
      fun r => Pending policy i r.2.pendingClaim := by
  unfold releaseInspection
  split
  · exact .ret fun _ _ _ h => h
  · refine .bind (spec_closeLease (pending_stable _) (pending_leaseFree _) _) ?_
    rintro ⟨closed, l⟩
    refine .ret fun _ _ _ h => ?_
    cases closed <;> exact h

/-- Releasing the lease with what was taken: where it fails, that is remembered. -/
theorem spec_releaseTaken (lease : Option Lease) (claim : Option RefreshClaim) {mem : Memory}
    (hmem : mem.pendingClaim = none) :
    Spec fleet policy i (Taken policy i claim)
      (releaseInspection lease claim mem : Coordination V (Bool × Memory))
      fun r w => (r.2.pendingClaim = if r.1 then none else claim) ∧ Taken policy i claim w := by
  unfold releaseInspection
  split
  · exact .ret fun _ _ _ h => ⟨hmem, h⟩
  · refine .bind (spec_closeLease (taken_stable _) (taken_leaseFree _) _) ?_
    rintro ⟨closed, l⟩
    refine .ret fun _ _ _ h => ?_
    cases closed with
    | true => exact ⟨hmem, h⟩
    | false => exact ⟨by rw [hmem]; cases claim <;> rfl, h⟩

/-- What holds after a decision: it is a claim that is held, or there is nothing that is
not remembered. -/
def Decided (policy : Policy I) (i : I) (r : RefreshDecision V × Memory) (w : World I P) : Prop :=
  match r.1 with
  | ⟨some c, false, none⟩ => Held policy i c w ∧ r.2.pendingClaim = none
  | _ => Pending policy i r.2.pendingClaim w

theorem spec_releaseThen (state : RefreshState) (mem : Memory)
    {decision : Coordination V (RefreshDecision V)}
    (hd : ∀ A, (contract fleet policy V).Stable i A →
      Spec fleet policy i A decision fun d w => (d.claim = none ∨ d.result.isSome) ∧ A w) :
    Spec fleet policy i (Pending policy i mem.pendingClaim)
      (releaseThen state mem decision : Coordination V (RefreshDecision V × Memory))
      (Decided policy i) := by
  unfold releaseThen
  refine .bind (spec_releaseInspection _ _) ?_
  rintro ⟨released, mem⟩
  refine .ite (fun _ => ?_) fun _ => .ret fun _ _ _ h => h
  refine .bind (hd _ (pending_stable _)) fun d => .ret fun w _ _ h => ?_
  obtain ⟨claim, wait, result⟩ := d
  rcases claim with _ | c <;> rcases result with _ | r
  · exact h.2
  · exact h.2
  · exact absurd h.1 (by simp)
  · cases wait <;> exact h.2

theorem spec_claimAndRelease {f : MarkerFile} {state : RefreshState} {mem : Memory}
    (hread : Readable f state.marker) (hmem : mem.pendingClaim = none) :
    Spec fleet policy i (Claimable fleet policy i f)
      (claimAndRelease (fleet.pid (fleet.proc i)) state mem :
        Coordination V (RefreshDecision V × Memory))
      (Decided policy i) := by
  unfold claimAndRelease
  refine .bind (spec_claimLocked hread) fun claim => ?_
  refine .bind (B := fun error w => (error = none ↔ claim.isSome) ∧ Taken policy i claim w) ?_
    fun error => .given fun herror => .bind (spec_releaseTaken _ claim hmem) ?_
  · refine .ite (fun hc => .ret fun _ _ _ h => ⟨iff_of_true rfl hc, h⟩) fun hc => ?_
    exact .bind (spec_failureCode (taken_stable claim)) fun code =>
      .ret fun _ _ _ h => ⟨iff_of_false (by simp) hc, h⟩
  rintro ⟨released, mem⟩
  refine .given fun hpend => ?_
  dsimp only at hpend
  -- a claim is decided on only where it was taken and the lease is released
  cases released with
  | false =>
    refine .ret fun w _ _ h => (?_ : Pending policy i mem.pendingClaim w)
    rw [hpend]
    exact h.pending
  | true =>
    cases error with
    | some code =>
      obtain rfl : claim = none := by simpa using herror
      refine .ret fun w _ _ h => (?_ : Pending policy i mem.pendingClaim w)
      rw [hpend]
      exact h
    | none =>
      obtain ⟨c, rfl⟩ := Option.isSome_iff_exists.1 (herror.1 rfl)
      exact .ret fun _ _ _ h => ⟨h, hpend⟩

/-- **Deciding** on an inspected state. -/
theorem spec_claimOrWait (state : RefreshState) (mem : Memory) :
    Spec fleet policy i (Inspected fleet policy i state mem.pendingClaim)
      (claimOrWait (fleet.pid (fleet.proc i)) state mem :
        Coordination V (RefreshDecision V × Memory))
      (Decided policy i) := by
  have hthen : ∀ decision : Coordination V (RefreshDecision V),
      (∀ A, (contract fleet policy V).Stable i A →
        Spec fleet policy i A decision fun d w => (d.claim = none ∨ d.result.isSome) ∧ A w) →
      Spec fleet policy i (Inspected fleet policy i state mem.pendingClaim)
        (releaseThen state mem decision) (Decided policy i) := fun decision hd =>
    (spec_releaseThen state mem hd).conseq (fun _ _ _ h => h.remembered) fun _ _ _ _ h => h
  have hclaim : state.coordinationError = none → state.cachedPublicBytes = none →
      state.ownerState = none ∨ state.ownerState = some .dead →
      Spec fleet policy i (Inspected fleet policy i state mem.pendingClaim)
        (claimAndRelease (fleet.pid (fleet.proc i)) state mem :
          Coordination V (RefreshDecision V × Memory)) (Decided policy i) := by
    intro he hc ho
    refine .conseq (A := fun w => ∃ f, (mem.pendingClaim = none ∧ Readable f state.marker) ∧
      Claimable fleet policy i f w) (.exists fun f => .given fun h => spec_claimAndRelease h.2 h.1)
      (fun w _ _ h => ?_) fun _ _ _ _ h => h
    obtain ⟨f, hread, hclaimable⟩ := h.claimable he hc ho
    exact ⟨f, ⟨h.empty he, hread⟩, hclaimable⟩
  unfold claimOrWait
  split
  · refine .bind ((spec_releaseInspection _ mem).conseq (fun _ _ _ h => h.remembered)
      fun _ _ _ _ h => h) fun r => .ret fun _ _ _ h => h
  · exact hthen _ fun A _ => .ret fun _ _ _ h => ⟨.inl rfl, h⟩
  · exact hthen _ fun A _ => .ret fun _ _ _ h => ⟨.inl rfl, h⟩
  · exact hthen _ fun A hA => .bind (spec_failureCode hA) fun _ => .ret fun _ _ _ h => ⟨.inl rfl, h⟩
  · next he hc ho => exact hclaim he hc (.inr ho)
  · next he hc ho => exact hclaim he hc (.inl ho)

/-! ### Finishing -/

/-- Publishing needs the claim to be unpublished, the lease, and the marker of the claim;
it leaves all but the first. -/
theorem spec_publishUnlocked (publication : Publication) {c : RefreshClaim} {f : MarkerFile}
    (hf : f.Owned c) (document : ByteArray) :
    Spec fleet policy i (fun w => Held policy i c w ∧ Locked i f w)
      (publishUnlocked publication c document : Coordination V Bool)
      fun _ w => Pending policy i (some c) w ∧ Locked i f w := by
  have hstable : (contract fleet policy V).Stable i fun w => Held policy i c w ∧ Locked i f w :=
    stable_and (held_stable c) (locked_stable f)
  have hfalse : Spec fleet policy i (fun w => Held policy i c w ∧ Locked i f w)
      (pure false : Coordination V Bool) fun _ w => Pending policy i (some c) w ∧ Locked i f w :=
    .ret fun _ _ _ h => ⟨h.1.pending, h.2⟩
  unfold publishUnlocked
  refine .ite (fun _ => ?_) fun _ => hfalse
  refine .bind (spec_look hstable rfl) fun now => ?_
  cases now with
  | none => exact hfalse
  | some t =>
    dsimp only
    split
    · exact hfalse
    · refine .perform hstable (fun w _ _ h => ?_) fun w r w' hinv hlive h hstep => ?_
      · obtain ⟨hheld, hh, hm⟩ := h
        exact ⟨hh, hheld.pending.own c rfl, hm ▸ hf⟩
      · obtain ⟨hheld, hh, hm⟩ := h
        rcases hstep with rfl | ⟨rfl, -⟩
        · exact ⟨keeps_publish hinv hlive hh (hheld.pending.own c rfl) (hm ▸ hf)
            hheld.unpublished _, ⟨hheld.pending.own, hheld.pending.recorded⟩, hh, hm⟩
        · exact ⟨⟨hinv, hlive, fun j _ => .refl j w'⟩, hheld.pending, hh, hm⟩

theorem spec_finishLocked (publication : Publication) (c : RefreshClaim)
    (document : Option ByteArray) {mem : Memory} (hmem : mem.pendingClaim = none) :
    Spec fleet policy i (fun w => Held policy i c w ∧ w.holder = some i)
      (finishLocked publication c document mem : Coordination V (Bool × Memory))
      fun r => Pending policy i r.2.pendingClaim := by
  unfold finishLocked
  refine .bind (spec_readMarkerState (held_stable c) _) ?_
  rintro ⟨marker, readable⟩
  refine .exists fun f => .given fun hseen => .ite (fun hsame => ?_) fun hsame => ?_
  · rw [Bool.and_eq_true] at hsame
    obtain ⟨rfl, hsame⟩ := hsame
    have hf := (owned_of_seen hseen).1 hsame
    refine .bind (B := fun _ w => Pending policy i (some c) w ∧ Locked i f w) ?_ fun published => ?_
    · cases document with
      | some document => exact spec_publishUnlocked publication hf document
      | none => exact .ret fun _ _ _ h => ⟨h.1.pending, h.2⟩
    · refine .bind (spec_clearMarker hf (.inr rfl)) fun cleared => .ret fun w _ _ h => ?_
      cases cleared with
      | true =>
        rw [if_pos rfl, hmem]
        exact h.2 rfl
      | false => exact h.1
  · -- the marker is another's, or – with care – unreadable only because it is
    refine .ret fun w _ _ h => ?_
    rw [hmem]
    refine h.1.pending.released fun hcare ho => ?_
    rw [h.2.2] at ho
    cases readable with
    | true => exact hsame (by rw [Bool.true_and]; exact (owned_of_seen hseen).2 ho)
    | false =>
      have hseen' : marker = none ∧ ∀ c', Purpose.finishing c = .finishing c' →
          policy.careful i → ¬f.Owned c' := by
        cases marker <;> exact hseen
      exact hseen'.2 c rfl hcare ho

theorem spec_finishClaim (publication : Publication) (c : RefreshClaim)
    (document : Option ByteArray) {mem : Memory} (hmem : mem.pendingClaim = none) :
    Spec fleet policy i (Held policy i c)
      (finishClaim publication c document mem : Coordination V (Bool × Memory))
      fun r => Pending policy i r.2.pendingClaim := by
  unfold finishClaim
  refine .bind (spec_acquireKey (held_stable c) (held_leaseFree c)) fun r => ?_
  cases r with
  | guardError code => exact .ret fun _ _ _ h => h.1.pending
  | raised => exact .ret fun _ _ _ h => h.1.pending
  | lease =>
    refine .bind ((spec_finishLocked publication c document hmem).conseq
      (fun _ _ _ h => ⟨h.1, h.2 rfl⟩) fun _ _ _ _ h => h) ?_
    rintro ⟨published, mem⟩
    refine .bind (spec_closeOrRetain (pending_stable _) (pending_leaseFree _) mem) fun r =>
      .ret fun _ _ _ h => ?_
    rw [h.2]
    exact h.1

/-- What holds of a coordinator between its calls. -/
def Idle (policy : Policy I) (V : Type) (i : I) (r : Returned V) : World I P → Prop :=
  Pending policy i r.2.pendingClaim

/-- **The producer** runs under the claim that is held. -/
theorem spec_produceAndFinish (publication : Publication) (c : RefreshClaim) {mem : Memory}
    (hmem : mem.pendingClaim = none) :
    Spec fleet policy i (Held policy i c)
      (produceAndFinish publication c mem : Coordination V (Returned V)) (Idle policy V i) := by
  unfold produceAndFinish
  refine .bind (B := fun _ => Held policy i c) ?_ fun r => ?_
  · refine .perform (held_stable c) (fun w _ _ h => ?_) fun w r w' hinv hlive h hstep => ?_
    · exact ⟨h.pending.own c rfl, h.kept⟩
    · obtain rfl : w' = w := hstep
      exact ⟨⟨hinv, hlive, fun j _ => .refl j w'⟩, h⟩
  · cases r <;> exact .bind (spec_finishClaim publication c _ hmem) fun _ => .ret fun _ _ _ h => h

/-! ### Calls -/

theorem spec_orCached {A : World I P → Prop} (hA : (contract fleet policy V).Stable i A)
    (r : SingleFlightResult V) :
    Spec fleet policy i A (orCached r : Coordination V (SingleFlightResult V)) fun _ => A := by
  refine .ite (fun _ => ?_) fun _ => .ret fun _ _ _ h => h
  exact .bind (spec_look hA rfl) fun _ => .ret fun _ _ _ h => h

theorem spec_waitOnce {A : World I P → Prop} (hA : (contract fleet policy V).Stable i A) :
    Spec fleet policy i A (waitOnce : Coordination V _) fun _ => A := by
  unfold waitOnce
  refine .bind (spec_look hA rfl) fun _ => .ite (fun _ => .ret fun _ _ _ h => h) fun _ => ?_
  exact .bind (spec_look hA rfl) fun _ => .bind (spec_look hA rfl) fun _ => .ret fun _ _ _ h => h

/-- **Every attempt** of the loop goes from idle to idle. -/
theorem spec_refreshLoop (publication : Publication) (attempts : ℕ) (mem : Memory) :
    Spec fleet policy i (Pending policy i mem.pendingClaim)
      (refreshLoop (fleet.pid (fleet.proc i)) publication attempts mem :
        Coordination V (Returned V)) (Idle policy V i) := by
  induction attempts generalizing mem with
  | zero => exact .bind (spec_failureCode (pending_stable _)) fun _ => .ret fun _ _ _ h => h
  | succ attempts ih =>
    refine .bind (spec_look (pending_stable _) rfl) fun usable =>
      .ite (fun _ => .ret fun _ _ _ h => h) fun _ => .bind (spec_inspectState mem) ?_
    rintro ⟨state, mem⟩
    refine .bind (spec_claimOrWait state mem) ?_
    rintro ⟨⟨claim, wait, result⟩, mem⟩
    match claim, wait, result with
    | some c, false, none => exact .conseq (.given fun hmem =>
        spec_produceAndFinish publication c hmem) (fun _ _ _ h => ⟨h.2, h.1⟩) fun _ _ _ _ h => h
    | none, false, none =>
      exact .bind (spec_failureCode (pending_stable mem.pendingClaim)) fun _ => .ret fun _ _ _ h => h
    | claim, wait, some result =>
      refine .conseq (A := Pending policy i mem.pendingClaim) ?_
        (fun _ _ _ h => by cases claim <;> cases wait <;> exact h) fun _ _ _ _ h => h
      exact .bind (spec_orCached (pending_stable _) result) fun _ => .ret fun _ _ _ h => h
    | claim, true, none =>
      refine .conseq (A := Pending policy i mem.pendingClaim) ?_
        (fun _ _ _ h => by cases claim <;> exact h) fun _ _ _ _ h => h
      refine .bind (spec_waitOnce (pending_stable _)) fun r => ?_
      cases r with
      | some result => exact .ret fun _ _ _ h => h
      | none => exact ih mem

theorem spec_preload (mem : Memory) :
    Spec fleet policy i (Pending policy i mem.pendingClaim)
      (preload mem : Coordination V (Returned V)) (Idle policy V i) := by
  unfold preload
  split
  · exact .ret fun _ _ _ h => h
  · refine .bind (spec_closePendingLease mem) ?_
    rintro ⟨closed, mem⟩
    refine .ite (fun _ => ?_) fun _ => .ret fun _ _ _ h => h
    exact .bind (spec_look (pending_stable _) rfl) fun _ => .ret fun _ _ _ h => h

/-- **A call** goes from idle to idle. -/
theorem spec_getOrRefresh (publication : Publication) (mem : Memory) :
    Spec fleet policy i (Pending policy i mem.pendingClaim)
      (getOrRefresh (fleet.pid (fleet.proc i)) publication mem : Coordination V (Returned V))
      (Idle policy V i) := by
  refine .bind (spec_preload mem) ?_
  rintro ⟨early, mem⟩
  cases early with
  | some result => exact .ret fun _ _ _ h => h
  | none =>
    exact .bind (spec_look (pending_stable mem.pendingClaim) rfl) fun usable =>
      .ite (fun _ => .ret fun _ _ _ h => h) fun _ => spec_refreshLoop publication _ mem

/-! ### Runs -/

section Runs

variable {publication : Publication} {σ : CoordinatorConfig (I := I) (P := P) V}

/-- **Every configuration that can be reached** has the invariant, and has each
coordinator inside its specification. -/
theorem Reachable.sound (h : Reachable fleet policy V publication σ) :
    WorldInv fleet policy σ.world ∧
      ∀ i, (contract fleet policy V).wp i (σ.prog i) (Idle policy V i) σ.world := by
  obtain ⟨σ₀, hinit, hreach⟩ := h
  refine (contract fleet policy V).sound (Idle policy V)
    (fun i r w w' hr _ _ h => Pending.of_rely h hr)
    (fun i r => spec_getOrRefresh publication r.2) ?_ (fun i => ?_) hreach
  · have hnone : ∀ a, a ∉ σ₀.world.claims := fun a ha => by rw [hinit.claims] at ha; cases ha
    refine ⟨by rw [hinit.claims]; exact .nil, fun a ha => absurd ha (hnone a),
      fun a ha => absurd ha (hnone a), fun a ha => absurd ha (hnone a),
      fun _ a ha => absurd ha (hnone a), by rw [hinit.published]; exact .nil, fun c hc => ?_⟩
    rw [hinit.published] at hc
    cases hc
  · obtain ⟨r, hr⟩ := hinit.idle i
    rw [hr]
    refine ⟨fun c hc => (nomatch hc), fun _ c hc => ?_⟩
    rw [hinit.claims] at hc
    cases hc

/-- The operation a coordinator is about to perform meets its condition. -/
theorem Reachable.condition (h : Reachable fleet policy V publication σ) {i : I}
    (hlive : Live fleet i σ.world) {o : Op} {k : Op.Resp V o → Coordination V (Returned V)}
    (hprog : σ.prog i = .op o k) : Condition policy i o σ.world :=
  Contract.pre_of_wp _ h.sound.1 (h.sound.2 i) hlive hprog

end Runs

end YasbLimitora

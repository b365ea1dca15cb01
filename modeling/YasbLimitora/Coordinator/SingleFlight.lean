import Mathlib
import YasbLimitora.Coordinator.Spec
import YasbLimitora.Lib.Runs

/-!
# Single flight

What the specifications of the methods say about runs. At most one live coordinator is
inside its producer (`YasbLimitora.producer_unique`): two would both own the marker, and
a marker has one owner. What is written to the files is written by the owner of the
marker, generation after generation (`YasbLimitora.publication_authority`). And a
coordinator that has returned remembers its claim as long as the marker shows it –
where no operation on the marker fails in one of two ways (`YasbLimitora.remembers_claim`).

The theorems here are those for which the contract of the coordinators was made. They hold in every
reachable configuration of any number of coordinators, of which each may stop for good between any
two operations: what was on the disk then stays there, and another coordinator takes the claim over
when it finds the process gone.
-/

namespace YasbLimitora

open RefreshCoordinator

variable {I P V : Type} {fleet : Fleet I P} {policy : Policy I} {publication : Publication}
  {σ σ' : CoordinatorConfig (I := I) (P := P) V}

/-! ### Runs that are played -/

section Played

/-- Two coordinators, each in a process of its own. -/
def pair : Fleet Bool Bool where
  proc i := i
  pid p := if p then 1 else 2
  token p := if p then "a" else "b"
  pid_pos := by decide

def someTime : Instant := ⟨2000, 1, 1, 0, 0, 0, 0, by decide⟩

/-- The marker file as it is read where reading does not fail. -/
def MarkerFile.seen : MarkerFile → Option Marker × Bool
  | absent => (none, true)
  | malformed => (none, false)
  | valid m => (some m, true)

/-- How a world that is played treats the coordinators: for which purposes the marker is unreadable,
or a write of it is reported to have failed, whether the process table denies that the other process
is there, and what a producer returns. -/
structure Manner where
  unreadable : Purpose → Bool := fun _ => false
  unreported : Purpose → Bool := fun _ => false
  denies : Bool := false
  produced : Produced Unit := .value ()

/-- Some manner is allowed by a policy. -/
structure Manner.Allowed (manner : Manner) (policy : Policy Bool) : Prop where
  unreadable : ∀ i c, policy.careful i → manner.unreadable (.finishing c) = false
  unreported : ∀ i c, policy.careful i → manner.unreported (.claiming c) = false
  denies : policy.truthful → manner.denies = false

/-- A world that answers a coordinator of a pair: everything succeeds, but for what its manner is. -/
def obliging (manner : Manner) (i : Bool) :
    (o : Op) → World Bool Bool → Op.Resp Unit o × World Bool Bool
  | .acquireKey, w =>
    if w.holder = none then (.lease, { w with holder := some i }) else (.raised, w)
  | .releaseLease, w =>
    if w.holder = some i then (true, { w with holder := none }) else (false, w)
  | .readMarker purpose, w => (if manner.unreadable purpose then (none, false) else w.marker.seen, w)
  | .writeMarker m purpose, w => (!manner.unreported purpose, w.writeMarker i m purpose)
  | .writeCache c envelope, w =>
    (true, { w with cache := some envelope, published := c :: w.published })
  | .processToken pid, w =>
    (if pid = pair.pid i then .token (pair.token i) else if manner.denies then .missing else .unknown, w)
  | .produce _, w => (manner.produced, w)
  | .now, w => (some someTime, w)
  | .utcNow, w => (someTime, w)
  | .usableNs, w => ((1 : ℤ), w)
  | .sleep _, w => ((), w)
  | .load, w => (none, w)
  | .closeLease, w => (true, w)

/-- The files of no coordinator, and a pair that lives. -/
def World.clean : World Bool Bool := ⟨.absent, none, none, fun _ => .alive, [], []⟩

variable {policy : Policy Bool} {manner : Manner}

/-- Such a world answers as the machine allows, if its manner is allowed. -/
theorem answers_obliging (hallowed : manner.Allowed policy) (i : Bool) (o : Op) (w : World Bool Bool) :
    answers pair policy Unit i o w (obliging manner i o w).1 (obliging manner i o w).2 := by
  cases o with
  | acquireKey =>
    simp only [obliging]
    split
    · next h => exact .inl ⟨rfl, h, rfl⟩
    · exact .inr ⟨fun h => (nomatch h), rfl⟩
  | releaseLease =>
    simp only [obliging]
    split
    · next h => exact .inl ⟨h, rfl⟩
    · next h => exact .inr ⟨rfl, fun _ => h⟩
  | readMarker purpose =>
    refine ⟨rfl, ?_⟩
    cases h : manner.unreadable purpose with
    | true =>
      simp only [obliging, h]
      refine ⟨rfl, fun c hc hcare => ?_⟩
      rw [hc, hallowed.unreadable i c hcare] at h
      exact Bool.noConfusion h
    | false =>
      simp only [obliging, h]
      cases hm : w.marker with
      | absent => exact rfl
      | malformed => exact ⟨rfl, fun c _ _ ⟨m, hm, _⟩ => (nomatch hm)⟩
      | valid m => exact rfl
  | writeMarker m purpose =>
    refine .inl ⟨rfl, fun hr hcare c hc => ?_⟩
    have hr : (!manner.unreported purpose) = false := hr
    rw [hc, hallowed.unreported i c hcare] at hr
    exact Bool.noConfusion hr
  | writeCache c envelope => exact .inl rfl
  | processToken pid =>
    refine ⟨rfl, fun htruthful => ?_⟩
    show Truthful pair w pid (if pid = pair.pid i then _ else if manner.denies then _ else _)
    rw [hallowed.denies htruthful]
    by_cases hpid : pid = pair.pid i
    · rw [if_pos hpid]
      rintro p hp -
      cases i <;> cases p <;> first | rfl | exact absurd (hp.trans hpid) (by decide)
    · rw [if_neg hpid]
      exact trivial
  | _ => rfl

theorem obliging_phase (i : Bool) (o : Op) (w : World Bool Bool) :
    (obliging manner i o w).2.phase = w.phase := by
  cases o with
  | acquireKey => simp only [obliging]; split <;> rfl
  | releaseLease => simp only [obliging]; split <;> rfl
  | writeMarker m purpose => cases purpose <;> rfl
  | _ => rfl

/-- The configuration after so many operations of what a coordinator has left to run. -/
def goOn (manner : Manner) (i : Bool) (n : ℕ) (σ : CoordinatorConfig (I := Bool) (P := Bool) Unit) :
    CoordinatorConfig (I := Bool) (P := Bool) Unit := Machine.goOn (obliging manner i) i n σ

/-- Both coordinators have been called, and have done nothing yet. -/
def called (publication : Publication) : CoordinatorConfig (I := Bool) (P := Bool) Unit :=
  ⟨World.clean, fun i => nextCall pair Unit publication i (none, ⟨none, none⟩)⟩

theorem reachable_called (publication : Publication) :
    Reachable pair policy Unit publication (called publication) := by
  let idle : Bool → Coordination Unit (Returned Unit) := fun _ => .ret (none, ⟨none, none⟩)
  refine ⟨⟨World.clean, idle⟩, ⟨rfl, rfl, fun i => ⟨none, rfl⟩⟩, ?_⟩
  refine .head (.begin (i := true) (a := (none, ⟨none, none⟩)) rfl rfl)
    (.head (.begin (i := false) (a := (none, ⟨none, none⟩)) rfl ?_) ?_)
  · dsimp only
    rw [Machine.update_other _ Bool.false_ne_true]
  · refine Eq.mp (congrArg _ (congrArg (Config.mk _) (funext fun j => ?_))) .refl
    cases j with
    | false => rw [Machine.update_same]
    | true =>
      rw [Machine.update_other _ (Ne.symm Bool.false_ne_true)]
      dsimp only
      rw [Machine.update_same]

theorem reachable_goOn (hallowed : manner.Allowed policy) {publication : Publication} (i : Bool) (n : ℕ)
    {σ : CoordinatorConfig (I := Bool) (P := Bool) Unit} (hlive : Live pair i σ.world)
    (h : Reachable pair policy Unit publication σ) : Reachable pair policy Unit publication (goOn manner i n σ) := by
  obtain ⟨σ₀, hinit, hreach⟩ := h
  exact ⟨σ₀, hinit, hreach.trans (Machine.reaches_goOn _ _ (fun o w _ => answers_obliging hallowed i o w)
    (fun o w h => (congrFun (obliging_phase i o w) _).trans h) n hlive)⟩

theorem phase_goOn (i : Bool) (n : ℕ) (σ : CoordinatorConfig (I := Bool) (P := Bool) Unit) :
    (goOn manner i n σ).world.phase = σ.world.phase :=
  Machine.play_keeps (A := fun w : World Bool Bool => w.phase = σ.world.phase)
    (fun o w h => (obliging_phase i o w).trans h) n rfl

def refusing : Publication := ⟨fun _ => false, fun _ _ => none⟩

/-- A run of one coordinator, without failures, that publishes nothing. -/
def uneventful (n : ℕ) : CoordinatorConfig (I := Bool) (P := Bool) Unit := goOn {} true n (called refusing)

theorem allowed_obliging : Manner.Allowed {} policy := ⟨fun _ _ _ => rfl, fun _ _ _ => rfl, fun _ => rfl⟩

theorem reachable_uneventful (n : ℕ) : Reachable pair policy Unit refusing (uneventful n) :=
  reachable_goOn allowed_obliging true n rfl (reachable_called refusing)

end Played

/-! ### One producer -/

/-- A coordinator has called its producer under a claim, and has had no answer yet. -/
def Producing (σ : CoordinatorConfig (I := I) (P := P) V) (i : I) (c : RefreshClaim) : Prop :=
  ∃ k, σ.prog i = .op (.produce c) k

/-- **No two live producers.** -/
theorem producer_unique (h : Reachable fleet policy V publication σ) (htruth : policy.truthful)
    {i j : I} {c c' : RefreshClaim} (hi : Live fleet i σ.world) (hj : Live fleet j σ.world)
    (hc : Producing σ i c) (hc' : Producing σ j c') : i = j := by
  obtain ⟨k, hk⟩ := hc
  obtain ⟨k', hk'⟩ := hc'
  obtain ⟨hmem, hown⟩ := h.condition hi hk
  obtain ⟨hmem', hown'⟩ := h.condition hj hk'
  exact h.sound.1.owner_unique hmem (hown htruth) hmem' (hown' htruth)

/-- A coordinator of a pair that is inside its producer. -/
theorem producer_unique_played : Producing (uneventful 11) true ⟨1, 1, "a"⟩ ∧ true = true :=
  have hreach : Reachable pair ⟨True, fun _ => True⟩ Unit refusing (uneventful 11) := reachable_uneventful 11
  have hproducing : Producing (uneventful 11) true ⟨1, 1, "a"⟩ := ⟨_, rfl⟩
  ⟨hproducing, producer_unique hreach trivial (i := true) (j := true) rfl rfl hproducing hproducing⟩

/-! ### Publication -/

/-- What one step may do to the files and to the record. -/
inductive Effect (w w' : World I P) : Prop
  | nothing (marker : w'.marker = w.marker) (cache : w'.cache = w.cache)
      (claims : w'.claims = w.claims) (published : w'.published = w.published)
  /-- A claim is made, later than all before it. -/
  | claim (i : I) (c : RefreshClaim) (holder : w.holder = some i)
      (later : ∀ a ∈ w.claims, a.1.generation < c.generation) (marker : w'.marker.Owned c)
      (cache : w'.cache = w.cache) (claims : w'.claims = (c, i) :: w.claims)
      (published : w'.published = w.published)
  /-- The marker is cleared for the claim it shows. -/
  | clear (i : I) (c : RefreshClaim) (authorized : Authorized i c w)
      (marker : ∃ m, w'.marker = .valid m ∧ m.generation = c.generation ∧ m.ownerPid = 0)
      (cache : w'.cache = w.cache) (claims : w'.claims = w.claims)
      (published : w'.published = w.published)
  /-- The cache is written for the claim the marker shows. -/
  | publish (i : I) (c : RefreshClaim) (authorized : Authorized i c w)
      (marker : w'.marker = w.marker) (claims : w'.claims = w.claims)
      (published : w'.published = c :: w.published)

/-- **An operation under its condition** has one of these effects. -/
theorem effect_of_condition {i : I} {o : Op} {w w' : World I P} {r : Op.Resp V o}
    (h : Condition policy i o w) (hstep : answers fleet policy V i o w r w') : Effect w w' := by
  cases o with
  | acquireKey =>
    rcases hstep with ⟨-, -, rfl⟩ | ⟨-, rfl⟩
    · exact .nothing rfl rfl rfl rfl
    · exact .nothing rfl rfl rfl rfl
  | releaseLease =>
    rcases hstep with ⟨-, rfl⟩ | ⟨rfl, -⟩
    · exact .nothing rfl rfl rfl rfl
    · exact .nothing rfl rfl rfl rfl
  | writeMarker m purpose =>
    rcases hstep with ⟨rfl, -⟩ | ⟨rfl, -⟩
    · cases purpose with
      | inspecting => exact h.elim
      | claiming c =>
        obtain ⟨hholder, hm, hlater⟩ := h
        exact .claim i c hholder hlater (MarkerFile.owned_valid.2 hm) rfl rfl rfl
      | recovering c => exact .clear i c h.1 ⟨m, rfl, h.2⟩ rfl rfl rfl
      | finishing c => exact .clear i c h.1 ⟨m, rfl, h.2⟩ rfl rfl rfl
    · exact .nothing rfl rfl rfl rfl
  | writeCache c envelope =>
    rcases hstep with rfl | ⟨rfl, -⟩
    · exact .publish i c h rfl rfl rfl
    · exact .nothing rfl rfl rfl rfl
  | readMarker purpose =>
    obtain ⟨rfl, -⟩ := hstep
    exact .nothing rfl rfl rfl rfl
  | processToken pid =>
    obtain ⟨rfl, -⟩ := hstep
    exact .nothing rfl rfl rfl rfl
  | _ =>
    obtain rfl := hstep
    exact .nothing rfl rfl rfl rfl

/-- **Every step of a run** has one of these effects. -/
theorem Reachable.effect (h : Reachable fleet policy V publication σ)
    (hstep : (coordinators fleet policy V).Step (nextCall fleet V publication) σ σ') :
    Effect σ.world σ'.world := by
  cases hstep with
  | perform hlive hprog hstep => exact effect_of_condition (h.condition hlive hprog) hstep
  | begin => exact .nothing rfl rfl rfl rfl
  | env henv =>
    obtain ⟨phase, -, rfl | ⟨-, rfl⟩⟩ := henv
    · exact .nothing rfl rfl rfl rfl
    · exact .nothing rfl rfl rfl rfl

theorem Reachable.tail (h : Reachable fleet policy V publication σ)
    (hstep : (coordinators fleet policy V).Step (nextCall fleet V publication) σ σ') :
    Reachable fleet policy V publication σ' := by
  obtain ⟨σ₀, hinit, hreach⟩ := h
  exact ⟨σ₀, hinit, hreach.tail hstep⟩

/-- A step brings back the marker of no claim there has been. -/
theorem Effect.owned {w w' : World I P} (hinv : WorldInv fleet policy w) (h : Effect w w')
    {a : RefreshClaim × I} (ha : a ∈ w.claims) (ho : w'.marker.Owned a.1) :
    w.marker.Owned a.1 := by
  cases h with
  | nothing hmarker => rwa [hmarker] at ho
  | claim i c _ hlater hmarker =>
    obtain rfl := hmarker.unique ho
    exact absurd (hlater a ha) (lt_irrefl _)
  | clear i c _ hmarker =>
    -- a cleared marker has no process, and every claim has one
    obtain ⟨m, hm, -, hpid⟩ := hmarker
    rw [hm, MarkerFile.owned_valid, sameClaim_iff] at ho
    have hpos := fleet.pid_pos (fleet.proc a.2)
    rw [← hinv.pid a ha] at hpos
    omega
  | publish i c _ hmarker => rwa [hmarker] at ho

theorem Effect.mem_claims {w w' : World I P} (h : Effect w w') {a : RefreshClaim × I}
    (ha : a ∈ w.claims) : a ∈ w'.claims := by
  cases h with
  | nothing _ _ hclaims => rwa [hclaims]
  | claim i c _ _ _ _ hclaims =>
    rw [hclaims]
    exact List.mem_cons_of_mem _ ha
  | clear _ _ _ _ _ hclaims => rwa [hclaims]
  | publish _ _ _ _ hclaims => rwa [hclaims]

/-- **A claim whose marker is gone** stays without it along every run. -/
theorem Reachable.superseded (h : Reachable fleet policy V publication σ) {a : RefreshClaim × I}
    (ha : a ∈ σ.world.claims) (hgone : ¬σ.world.marker.Owned a.1)
    (hrun : (coordinators fleet policy V).Reaches (nextCall fleet V publication) σ σ') :
    Reachable fleet policy V publication σ' ∧ a ∈ σ'.world.claims ∧
      ¬σ'.world.marker.Owned a.1 := by
  refine reachable_invariant (I := fun σ => Reachable fleet policy V publication σ ∧
    a ∈ σ.world.claims ∧ ¬σ.world.marker.Owned a.1) ⟨h, ha, hgone⟩ ?_ hrun
  rintro σ₁ σ₂ ⟨h, ha, hgone⟩ hstep
  have heffect := h.effect hstep
  exact ⟨h.tail hstep, heffect.mem_claims ha, fun ho => hgone (heffect.owned h.sound.1 ha ho)⟩

/-- The operations of the finish of a claim write for that claim only. -/
def Op.Finishes (c : RefreshClaim) : Op → Prop
  | .writeMarker _ purpose => purpose = .finishing c
  | .writeCache c' _ => c' = c
  | _ => True

def Op.writes : Op → Bool
  | .writeMarker _ _ | .writeCache _ _ => true
  | _ => false

theorem files_of_not_writes {i : I} {o : Op} (ho : o.writes = false) {w w' : World I P}
    {r : Op.Resp V o} (hstep : answers fleet policy V i o w r w') :
    w'.marker = w.marker ∧ w'.cache = w.cache := by
  cases o with
  | acquireKey => rcases hstep with ⟨-, -, rfl⟩ | ⟨-, rfl⟩ <;> exact ⟨rfl, rfl⟩
  | releaseLease => rcases hstep with ⟨-, rfl⟩ | ⟨rfl, -⟩ <;> exact ⟨rfl, rfl⟩
  | writeMarker m purpose => cases ho
  | writeCache c envelope => cases ho
  | readMarker purpose => exact ⟨congrArg _ hstep.1, congrArg _ hstep.1⟩
  | processToken pid => exact ⟨congrArg _ hstep.1, congrArg _ hstep.1⟩
  | _ => exact ⟨congrArg _ hstep, congrArg _ hstep⟩

/-- A write for a claim finds its marker in place. -/
theorem owned_of_finishes {i : I} {c : RefreshClaim} {o : Op} (hfin : o.Finishes c)
    (ho : o.writes = true) {w : World I P} (h : Condition policy i o w) : w.marker.Owned c := by
  cases o with
  | writeMarker m purpose =>
    obtain rfl : purpose = .finishing c := hfin
    exact h.1.owned
  | writeCache c' envelope =>
    obtain rfl : c' = c := hfin
    exact h.owned
  | _ => cases ho

theorem performs_closeLease (c : RefreshClaim) (l : Lease) :
    (closeLease l : Coordination V (Bool × Lease)).Performs (Op.Finishes c) := by
  refine .bind (.ite trivial (.perform trivial)) fun released => ?_
  exact .bind (.ite (.perform trivial) trivial) fun closed => trivial

theorem performs_clearMarker (c : RefreshClaim) :
    (clearMarker c (.finishing c) : Coordination V Bool).Performs (Op.Finishes c) := by
  refine .bind (.bind (.perform trivial) fun t => ?_) fun m => .ite (.perform rfl) trivial
  cases t with
  | some t => exact trivial
  | none => exact .bind (.perform trivial) fun _ => trivial

theorem performs_publishUnlocked (publication : Publication) (c : RefreshClaim)
    (document : ByteArray) :
    (publishUnlocked publication c document : Coordination V Bool).Performs (Op.Finishes c) := by
  refine .ite (.bind (.perform trivial) fun t => ?_) trivial
  cases t with
  | none => exact trivial
  | some t =>
    dsimp only
    split
    · exact trivial
    · exact .perform rfl

/-- **The finish of a claim** writes for that claim only. -/
theorem performs_finishClaim (publication : Publication) (c : RefreshClaim)
    (document : Option ByteArray) (mem : Memory) :
    (finishClaim publication c document mem : Coordination V (Bool × Memory)).Performs
      (Op.Finishes c) := by
  refine .bind (.perform trivial) fun r => ?_
  cases r with
  | guardError code => exact trivial
  | raised => exact trivial
  | lease =>
    refine .bind (.bind (.perform trivial) fun r => .ite (.bind ?_ fun published =>
      .bind (performs_clearMarker c) fun _ => trivial) trivial) fun r =>
        .bind (.bind (performs_closeLease c _) fun _ => trivial) fun _ => trivial
    cases document with
    | none => exact trivial
    | some document => exact performs_publishUnlocked publication c document

/-- A live coordinator is about to perform this operation of the finish of a claim. -/
def Finishing (fleet : Fleet I P) (publication : Publication)
    (σ : CoordinatorConfig (I := I) (P := P) V) (i : I) (c : RefreshClaim) (o : Op) : Prop :=
  Live fleet i σ.world ∧ ∃ document mem k f,
    Prog.Residual (finishClaim publication c document mem) (.op o k) ∧ σ.prog i = .op o k >>= f

/-- **Publication authority.** -/
theorem publication_authority (h : Reachable fleet policy V publication σ) :
    (σ.world.claims.Pairwise fun a b => b.1.generation < a.1.generation) ∧
      (∀ σ', (coordinators fleet policy V).Step (nextCall fleet V publication) σ σ' →
        Effect σ.world σ'.world) ∧
      (∀ i c, (c, i) ∈ σ.world.claims → ¬σ.world.marker.Owned c → ∀ σ',
        (coordinators fleet policy V).Reaches (nextCall fleet V publication) σ σ' →
          ∀ o, Finishing fleet publication σ' i c o → ∀ r w,
            answers fleet policy V i o σ'.world r w →
              w.marker = σ'.world.marker ∧ w.cache = σ'.world.cache) ∧
      σ.world.published.Pairwise fun c c' => c'.generation < c.generation := by
  refine ⟨h.sound.1.increasing, fun σ' => h.effect, ?_, h.sound.1.published_increasing⟩
  rintro i c hc hgone σ' hrun o ⟨hlive, document, mem, k, f, hres, hprog⟩ r w hstep
  obtain ⟨h', -, hgone'⟩ := h.superseded hc hgone hrun
  have hcond := h'.condition hlive hprog
  have hfin : o.Finishes c := ((performs_finishClaim publication c document mem).residual hres).1
  cases ho : o.writes with
  | false => exact files_of_not_writes ho hstep
  | true => exact absurd (owned_of_finishes hfin ho hcond) hgone'

section TakeOver

/-- The process table denies that the other process is there, and a producer returns a document. -/
def denying : Manner where
  denies := true
  produced := .result ⟨some (), some ⟨#[1]⟩, false, true, false, none⟩

def publishing : Publication := ⟨fun _ => true, fun document _ => some document⟩

def firstClaim : RefreshClaim := ⟨1, 1, "a"⟩

def secondClaim : RefreshClaim := ⟨2, 2, "b"⟩

/-- One coordinator has made a claim, the other has taken it over, and both are inside their
producers. -/
def takenOver : CoordinatorConfig (I := Bool) (P := Bool) Unit :=
  goOn denying false 12 (goOn denying true 11 (called publishing))

/-- The producer of the first has returned, late, and the marker is about to be read for its finish. -/
def late : CoordinatorConfig (I := Bool) (P := Bool) Unit := goOn denying true 1 (goOn denying true 1 takenOver)

/-- Both have returned. -/
def settled : CoordinatorConfig (I := Bool) (P := Bool) Unit := goOn denying false 10 (goOn denying true 4 late)

theorem allowed_denying : denying.Allowed ⟨False, fun _ => True⟩ := ⟨fun _ _ _ => rfl, fun _ _ _ => rfl, nofun⟩

theorem live_goOn {manner : Manner} {σ : CoordinatorConfig (I := Bool) (P := Bool) Unit} (h : ∀ i, Live pair i σ.world)
    (i : Bool) (n : ℕ) : ∀ j, Live pair j (goOn manner i n σ).world := by
  intro j
  exact (congrFun (phase_goOn i n σ) _).trans (h j)

theorem live_called : ∀ i, Live pair i (called publishing).world := fun _ => rfl

theorem live_takenOver : ∀ i, Live pair i takenOver.world := live_goOn (live_goOn live_called true 11) false 12

theorem live_late : ∀ i, Live pair i late.world := live_goOn (live_goOn live_takenOver true 1) true 1

theorem reachable_takenOver : Reachable pair ⟨False, fun _ => True⟩ Unit publishing takenOver :=
  reachable_goOn allowed_denying false 12 (live_goOn live_called true 11 false)
    (reachable_goOn allowed_denying true 11 (live_called true) (reachable_called publishing))

theorem reachable_late : Reachable pair ⟨False, fun _ => True⟩ Unit publishing late :=
  reachable_goOn allowed_denying true 1 (live_goOn live_takenOver true 1 true)
    (reachable_goOn allowed_denying true 1 (live_takenOver true) reachable_takenOver)

theorem finishing_late : Finishing pair publishing late true firstClaim (.readMarker (.finishing firstClaim)) := by
  obtain ⟨f, hf⟩ : ∃ f, (goOn denying true 1 takenOver).prog true
      = finishClaim publishing firstClaim (some ⟨#[1]⟩) ⟨none, none⟩ >>= f := ⟨_, rfl⟩
  obtain ⟨k, hk, k', hk'⟩ : ∃ k : Op.Resp Unit .acquireKey → Coordination Unit (Bool × Memory),
      finishClaim publishing firstClaim (some ⟨#[1]⟩) ⟨none, none⟩ = .op .acquireKey k ∧
        ∃ k', k Acquired.lease = .op (.readMarker (.finishing firstClaim)) k' := ⟨_, rfl, _, rfl⟩
  have hres : Prog.Residual (finishClaim publishing firstClaim (some ⟨#[1]⟩) ⟨none, none⟩) (k Acquired.lease) := by
    rw [hk]
    exact .next (.refl _) _
  have hlate : late.prog true = k Acquired.lease >>= f := by
    change (Machine.play (obliging denying true) 1
      ((goOn denying true 1 takenOver).prog true, (goOn denying true 1 takenOver).world)).1 = _
    rw [hf, hk]
    rfl
  rw [hk'] at hres hlate
  exact ⟨live_late true, _, _, k', f, hres, hlate⟩

/-- A claim is taken over from a coordinator that lives, and whose producer returns late: the one
document that is published is that of the other claim, and nothing is written at the late finish. -/
theorem publication_authority_played :
    (settled.world.claims = [(secondClaim, false), (firstClaim, true)] ∧ settled.world.published = [secondClaim]) ∧
      (settled.world.claims.Pairwise fun a b => b.1.generation < a.1.generation) ∧
        Finishing pair publishing late true firstClaim (.readMarker (.finishing firstClaim)) ∧
          ∀ r w, answers pair ⟨False, fun _ => True⟩ Unit true (.readMarker (.finishing firstClaim)) late.world r w →
            w.marker = late.world.marker ∧ w.cache = late.world.cache := by
  have hsettled : Reachable pair ⟨False, fun _ => True⟩ Unit publishing settled :=
    reachable_goOn allowed_denying false 10 (live_goOn live_late true 4 false)
      (reachable_goOn allowed_denying true 4 (live_late true) reachable_late)
  have hclaims : settled.world.claims = [(secondClaim, false), (firstClaim, true)] := by decide +kernel
  have hmade : (firstClaim, true) ∈ late.world.claims := by decide +kernel
  have hgone : ¬late.world.marker.Owned firstClaim := by
    rintro ⟨m, hm, hsame⟩
    have hseen : late.world.marker.seen.1.map (sameClaim · firstClaim) = some false := by decide +kernel
    rw [hm, MarkerFile.seen, Option.map_some, hsame] at hseen
    cases hseen
  obtain ⟨-, -, hfinish, -⟩ := publication_authority reachable_late
  exact ⟨⟨hclaims, by decide +kernel⟩, (publication_authority hsettled).1, finishing_late,
    hfinish true firstClaim hmade hgone late .refl _ finishing_late⟩

end TakeOver

/-! ### Claims that are remembered -/

/-- A coordinator that has returned remembers each claim of its own that the marker
shows. -/
def Remembers (σ : CoordinatorConfig (I := I) (P := P) V) (i : I) : Prop :=
  ∀ r c, σ.prog i = .ret r → (c, i) ∈ σ.world.claims →
    ¬σ.world.marker.Owned c ∨ r.2.pendingClaim = some c

/-- **No claim is forgotten with its marker in place**, where the marker operations do not
fail in the two ways that lose one. -/
theorem remembers_claim (h : Reachable fleet policy V publication σ) {i : I}
    (hcare : policy.careful i) : Remembers σ i := by
  intro r c hr hc
  have hidle := h.sound.2 i
  rw [hr] at hidle
  by_cases ho : σ.world.marker.Owned c
  · exact .inr (hidle.recorded hcare c hc ho)
  · exact .inl ho

theorem remembers_claim_played : Remembers (uneventful 30) true :=
  have hreach : Reachable pair ⟨True, fun _ => True⟩ Unit refusing (uneventful 30) := reachable_uneventful 30
  remembers_claim hreach trivial

/-- A world in which the marker is unreadable to the finish of a claim, and one in which
the write of a claim is reported to have failed. -/
def unreadableFinish (n : ℕ) : CoordinatorConfig (I := Bool) (P := Bool) Unit :=
  goOn { unreadable := fun purpose => purpose matches .finishing _ } true n (called refusing)

def unreportedClaim (n : ℕ) : CoordinatorConfig (I := Bool) (P := Bool) Unit :=
  goOn { unreported := fun purpose => purpose matches .claiming _ } true n (called refusing)

/-- **Claims that are forgotten**: in both worlds a call returns in a live process, and
the marker shows a claim that its coordinator does not remember. -/
theorem forgotten_claim :
    (Reachable pair ⟨True, fun _ => False⟩ Unit refusing (unreadableFinish 30) ∧
        Live pair true (unreadableFinish 30).world ∧ ¬Remembers (unreadableFinish 30) true) ∧
      Reachable pair ⟨True, fun _ => False⟩ Unit refusing (unreportedClaim 30) ∧
        Live pair true (unreportedClaim 30).world ∧ ¬Remembers (unreportedClaim 30) true := by
  have hcareless : ∀ manner : Manner, manner.denies = false → manner.Allowed ⟨True, fun _ => False⟩ :=
    fun manner hdenies => ⟨fun _ _ h => h.elim, fun _ _ h => h.elim, fun _ => hdenies⟩
  refine ⟨⟨reachable_goOn (hcareless _ rfl) true 30 rfl (reachable_called refusing), rfl, fun h => ?_⟩,
    reachable_goOn (hcareless _ rfl) true 30 rfl (reachable_called refusing), rfl, fun h => ?_⟩
  · rcases h _ ⟨1, 1, "a"⟩ rfl (.head _) with hnot | hpending
    · exact hnot ⟨⟨1, 1, "a", someTime⟩, rfl, rfl⟩
    · cases hpending
  · rcases h _ ⟨1, 1, "a"⟩ rfl (.head _) with hnot | hpending
    · exact hnot ⟨⟨1, 1, "a", someTime⟩, rfl, rfl⟩
    · cases hpending

end YasbLimitora

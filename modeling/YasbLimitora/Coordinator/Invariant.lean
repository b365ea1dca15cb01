import Mathlib
import YasbLimitora.Coordinator.World

/-!
# What coordinators rely on

The contract of the coordinators of one fingerprint. The invariant
(`YasbLimitora.WorldInv`) says what the record of claims has to do with the marker:
generations increase from claim to claim, and none is above the generation of the
marker. What a coordinator relies on (`YasbLimitora.Rely`) is that the others touch
neither marker nor record while it holds the lease, never bring back a marker of one of
its claims, and – where the process table tells the truth – leave the marker of a claim
of its own alone while it lives.

That last promise is the heart of the matter. Nobody holds the lease while a producer
runs; what keeps the others off is that a marker is replaced only by who has found its
owner dead, and that the dead stay dead.
-/

namespace YasbLimitora

namespace Phase

theorem Ages.trans {x y z : Phase} (h : x.Ages y) (h' : y.Ages z) : x.Ages z := by
  cases h <;> cases h' <;> constructor

/-- Who lives before and after lives in between. -/
theorem Ages.between {x y z : Phase} (h : x.Ages y) (h' : y.Ages z) (hx : x = .alive)
    (hz : z = .alive) : y = .alive := by
  subst hx hz
  cases h with
  | same => rfl
  | death => cases h'

theorem Ages.ne_unborn {x y : Phase} (h : x.Ages y) (hx : x ≠ .unborn) : y ≠ .unborn := by
  cases h <;> simp_all

/-- **The dead stay dead.** -/
theorem Ages.dead {x y : Phase} (h : x.Ages y) (hx : x = .dead) : y = .dead := by
  subst hx
  cases h
  rfl

end Phase

section Claims

theorem sameClaim_iff {m : Marker} {c : RefreshClaim} :
    sameClaim m c = true ↔
      m.generation = c.generation ∧ m.ownerPid = c.ownerPid ∧ m.ownerToken = c.ownerToken := by
  simp [sameClaim, and_assoc]

theorem MarkerFile.owned_valid {m : Marker} {c : RefreshClaim} :
    (MarkerFile.valid m).Owned c ↔ sameClaim m c = true := by
  constructor
  · rintro ⟨m', ⟨⟩, h⟩
    exact h
  · exact fun h => ⟨m, rfl, h⟩

/-- A file is the marker of one claim at most. -/
theorem MarkerFile.Owned.unique {f : MarkerFile} {c c' : RefreshClaim} (h : f.Owned c)
    (h' : f.Owned c') : c = c' := by
  obtain ⟨m, rfl, hm⟩ := h
  rw [owned_valid] at h'
  rw [sameClaim_iff] at hm h'
  obtain ⟨g, p, t⟩ := c
  obtain ⟨g', p', t'⟩ := c'
  simp only at hm h'
  rw [RefreshClaim.mk.injEq]
  exact ⟨hm.1.symm.trans h'.1, hm.2.1.symm.trans h'.2.1, hm.2.2.symm.trans h'.2.2⟩

end Claims

variable {I P V : Type} {fleet : Fleet I P} {policy : Policy I}

/-! ### The contract -/

def Live (fleet : Fleet I P) (i : I) (w : World I P) : Prop := w.phase (fleet.proc i) = .alive

/-- The invariant of the world. -/
structure WorldInv (fleet : Fleet I P) (policy : Policy I) (w : World I P) : Prop where
  increasing : w.claims.Pairwise fun a b => b.1.generation < a.1.generation
  current : ∀ a ∈ w.claims, ∃ m, w.marker = .valid m ∧ a.1.generation ≤ m.generation
  born : ∀ a ∈ w.claims, w.phase (fleet.proc a.2) ≠ .unborn
  pid : ∀ a ∈ w.claims, a.1.ownerPid = fleet.pid (fleet.proc a.2)
  token : policy.truthful → ∀ a ∈ w.claims, a.1.ownerToken = fleet.token (fleet.proc a.2)
  published_increasing : w.published.Pairwise fun a b => b.generation < a.generation
  published_claimed : ∀ c ∈ w.published, ∃ i, (c, i) ∈ w.claims

/-- The changes coordinator `i` allows the others to make. -/
structure Rely (fleet : Fleet I P) (policy : Policy I) (i : I) (w w' : World I P) : Prop where
  ages : ∀ p, (w.phase p).Ages (w'.phase p)
  claims : ∃ l, w'.claims = l ++ w.claims ∧ ∀ a ∈ l, a.2 ≠ i
  published : ∀ c, (c, i) ∈ w.claims → c ∈ w'.published → c ∈ w.published
  locked : w.holder = some i → Live fleet i w → Live fleet i w' →
    w'.holder = some i ∧ w'.marker = w.marker ∧ w'.claims = w.claims
  owned : ∀ c, (c, i) ∈ w.claims → w'.marker.Owned c → w.marker.Owned c
  kept : policy.truthful → ∀ c, (c, i) ∈ w.claims → Live fleet i w → Live fleet i w' →
    w.marker.Owned c → w'.marker.Owned c

namespace Rely

variable {i : I} {w w' w'' : World I P}

theorem refl (i : I) (w : World I P) : Rely fleet policy i w w where
  ages _ := .same _
  claims := ⟨[], rfl, nofun⟩
  published _ _ h := h
  locked h _ _ := ⟨h, rfl, rfl⟩
  owned _ _ h := h
  kept _ _ _ _ _ h := h

/-- The claims of the coordinator itself stay, and no others are added to them. -/
theorem mem_claims (h : Rely fleet policy i w w') {c : RefreshClaim} :
    (c, i) ∈ w'.claims ↔ (c, i) ∈ w.claims := by
  obtain ⟨l, hl, hne⟩ := h.claims
  rw [hl, List.mem_append]
  exact ⟨fun hc => hc.resolve_left fun hin => hne _ hin rfl, .inr⟩

theorem trans (h : Rely fleet policy i w w') (h' : Rely fleet policy i w' w'') :
    Rely fleet policy i w w'' where
  ages p := (h.ages p).trans (h'.ages p)
  claims := by
    obtain ⟨l, hl, hne⟩ := h.claims
    obtain ⟨l', hl', hne'⟩ := h'.claims
    refine ⟨l' ++ l, by rw [hl', hl, List.append_assoc], fun a ha => ?_⟩
    exact (List.mem_append.1 ha).elim (hne' a) (hne a)
  published c hc hp := h.published c hc (h'.published c (h.mem_claims.2 hc) hp)
  locked hh hlive hlive'' := by
    have hlive' := (h.ages _).between (h'.ages _) hlive hlive''
    obtain ⟨hh', hm, hc⟩ := h.locked hh hlive hlive'
    obtain ⟨hh'', hm', hc'⟩ := h'.locked hh' hlive' hlive''
    exact ⟨hh'', hm'.trans hm, hc'.trans hc⟩
  owned c hc ho := h.owned c hc (h'.owned c (h.mem_claims.2 hc) ho)
  kept ht c hc hlive hlive'' ho := by
    have hlive' := (h.ages _).between (h'.ages _) hlive hlive''
    exact h'.kept ht c (h.mem_claims.2 hc) hlive' hlive''
      (h.kept ht c hc hlive hlive' ho)

end Rely

/-- A coordinator has the lease and a claim of its own, whose marker is in place. -/
structure Authorized (i : I) (c : RefreshClaim) (w : World I P) : Prop where
  holder : w.holder = some i
  claimed : (c, i) ∈ w.claims
  owned : w.marker.Owned c

/-- The condition under which a coordinator performs an operation. It clears the marker,
and writes the cache, for a claim it is authorized for; it claims with the lease, and
later than all others; and it runs its producer under a claim of its own, whose marker is
in place where the process table tells the truth. -/
def Condition (policy : Policy I) (i : I) : Op → World I P → Prop
  | .writeMarker m (.claiming c), w =>
    w.holder = some i ∧ sameClaim m c = true ∧ ∀ a ∈ w.claims, a.1.generation < c.generation
  | .writeMarker m (.recovering c), w | .writeMarker m (.finishing c), w =>
    Authorized i c w ∧ m.generation = c.generation ∧ m.ownerPid = 0
  | .writeMarker _ .inspecting, _ => False
  | .writeCache c _, w => Authorized i c w
  | .produce c, w => (c, i) ∈ w.claims ∧ (policy.truthful → w.marker.Owned c)
  | _, _ => True

namespace WorldInv

variable {w w' : World I P} {c : RefreshClaim} {i : I}

/-- A claim of some generation is recorded once. -/
theorem eq_of_generation (h : WorldInv fleet policy w) {a b : RefreshClaim × I}
    (ha : a ∈ w.claims) (hb : b ∈ w.claims) (hab : a.1.generation = b.1.generation) : a = b := by
  by_contra hne
  have : Std.Symm fun x y : RefreshClaim × I => x.1.generation ≠ y.1.generation := ⟨fun _ _ => .symm⟩
  exact (h.increasing.imp fun hlt => hlt.ne').forall ha hb hne hab

/-- The owner of the marker is the one coordinator that has its claim. -/
theorem owner_unique (h : WorldInv fleet policy w) {c' : RefreshClaim} {j : I}
    (hc : (c, i) ∈ w.claims) (ho : w.marker.Owned c) (hc' : (c', j) ∈ w.claims)
    (ho' : w.marker.Owned c') : i = j := by
  obtain rfl := ho.unique ho'
  exact congrArg Prod.snd (h.eq_of_generation hc hc' rfl)

/-- Where the marker is the one of a claim, no recorded claim is later. -/
theorem generation_le (h : WorldInv fleet policy w) (ho : w.marker.Owned c)
    {a : RefreshClaim × I} (ha : a ∈ w.claims) : a.1.generation ≤ c.generation := by
  obtain ⟨m, hm, hle⟩ := h.current a ha
  rw [hm, MarkerFile.owned_valid, sameClaim_iff] at ho
  omega

/-- The passing of processes keeps the invariant and what coordinators rely on. -/
theorem of_passes (h : WorldInv fleet policy w) (hp : passes fleet w w') :
    WorldInv fleet policy w' ∧ ∀ j, Rely fleet policy j w w' := by
  obtain ⟨phase, hages, hw⟩ := hp
  have hinv : ∀ holder, WorldInv fleet policy { w with phase, holder } := fun holder =>
    ⟨h.increasing, h.current, fun a ha => (hages _).ne_unborn (h.born a ha), h.pid, h.token,
      h.published_increasing, h.published_claimed⟩
  rcases hw with rfl | ⟨⟨k, hk, hdead⟩, rfl⟩
  · exact ⟨hinv w.holder, fun j => ⟨hages, ⟨[], rfl, nofun⟩, fun _ _ h => h,
      fun hh _ _ => ⟨hh, rfl, rfl⟩, fun _ _ h => h, fun _ _ _ _ _ h => h⟩⟩
  · refine ⟨hinv none, fun j => ⟨hages, ⟨[], rfl, nofun⟩, fun _ _ h => h, fun hh _ hlive => ?_,
      fun _ _ h => h, fun _ _ _ _ _ h => h⟩⟩
    obtain rfl : k = j := Option.some.inj (hk.symm.trans hh)
    exact absurd (hlive.symm.trans hdead) (by simp)

end WorldInv

/-- The contract of the coordinators. -/
def contract (fleet : Fleet I P) (policy : Policy I) (V : Type) :
    Contract (coordinators fleet policy V) where
  rely := Rely fleet policy
  inv := WorldInv fleet policy
  pre := Condition policy
  rely_refl := .refl
  rely_trans _ _ _ _ := .trans
  env_sound _ _ henv hinv := hinv.of_passes henv

/-! ### What the operations keep -/

section Keeps

variable {i : I} {w : World I P}

/-- Taking the lease where it is free. -/
theorem keeps_acquire (hinv : WorldInv fleet policy w) (hlive : Live fleet i w)
    (hfree : w.holder = none) :
    (contract fleet policy V).Keeps i w { w with holder := some i } :=
  ⟨⟨hinv.increasing, hinv.current, hinv.born, hinv.pid, hinv.token, hinv.published_increasing,
    hinv.published_claimed⟩, hlive, fun _ _ => ⟨fun _ => .same _, ⟨[], rfl, nofun⟩,
    fun _ _ h => h, fun hh => (nomatch hfree.symm.trans hh), fun _ _ h => h,
    fun _ _ _ _ _ h => h⟩⟩

/-- Giving up one's own lease. -/
theorem keeps_release (hinv : WorldInv fleet policy w) (hlive : Live fleet i w)
    (hown : w.holder = some i) :
    (contract fleet policy V).Keeps i w { w with holder := none } :=
  ⟨⟨hinv.increasing, hinv.current, hinv.born, hinv.pid, hinv.token, hinv.published_increasing,
    hinv.published_claimed⟩, hlive, fun _ hj => ⟨fun _ => .same _, ⟨[], rfl, nofun⟩,
    fun _ _ h => h, fun hh => absurd (Option.some.inj (hown.symm.trans hh)).symm hj,
    fun _ _ h => h, fun _ _ _ _ _ h => h⟩⟩

/-- Clearing the marker of a claim of one's own, with the lease. -/
theorem keeps_clear (hinv : WorldInv fleet policy w) (hlive : Live fleet i w)
    (hown : w.holder = some i) {c : RefreshClaim} (hc : (c, i) ∈ w.claims)
    (ho : w.marker.Owned c) {m : Marker} (hgen : m.generation = c.generation)
    (hpid : m.ownerPid = 0) :
    (contract fleet policy V).Keeps i w { w with marker := .valid m } := by
  have hnot : ∀ a ∈ w.claims, ¬(MarkerFile.valid m).Owned a.1 := by
    intro a ha hoa
    rw [MarkerFile.owned_valid, sameClaim_iff] at hoa
    have hzero := fleet.pid_pos (fleet.proc a.2)
    rw [← hinv.pid a ha] at hzero
    omega
  refine ⟨⟨hinv.increasing, fun a ha => ⟨m, rfl, ?_⟩, hinv.born, hinv.pid, hinv.token,
    hinv.published_increasing, hinv.published_claimed⟩, hlive, fun j hj => ⟨fun _ => .same _,
    ⟨[], rfl, nofun⟩, fun _ _ h => h, fun hh => ?_, fun c' hc' h => ?_, fun _ c' hc' _ _ h => ?_⟩⟩
  · rw [hgen]
    exact hinv.generation_le ho ha
  · exact absurd (Option.some.inj (hown.symm.trans hh)).symm hj
  · exact absurd h (hnot _ hc')
  · exact absurd (hinv.owner_unique hc ho hc' h).symm hj

/-- Writing the cache for a claim of one's own that has not been published. -/
theorem keeps_publish (hinv : WorldInv fleet policy w) (hlive : Live fleet i w)
    (hown : w.holder = some i) {c : RefreshClaim} (hc : (c, i) ∈ w.claims)
    (ho : w.marker.Owned c) (hnew : c ∉ w.published) (envelope : ByteArray) :
    (contract fleet policy V).Keeps i w
      { w with cache := some envelope, published := c :: w.published } := by
  refine ⟨⟨hinv.increasing, hinv.current, hinv.born, hinv.pid, hinv.token, ?_, ?_⟩, hlive,
    fun j hj => ⟨fun _ => .same _, ⟨[], rfl, nofun⟩, fun c' hc' h => ?_, fun hh => ?_,
      fun _ _ h => h, fun _ _ _ _ _ h => h⟩⟩
  · refine List.pairwise_cons.2 ⟨fun c' hc' => ?_, hinv.published_increasing⟩
    obtain ⟨k, hk⟩ := hinv.published_claimed c' hc'
    refine lt_of_le_of_ne (hinv.generation_le ho hk) fun heq => hnew ?_
    obtain ⟨rfl, -⟩ := Prod.mk.inj (hinv.eq_of_generation hk hc heq)
    exact hc'
  · intro c' hc'
    rcases List.mem_cons.1 hc' with rfl | hc'
    · exact ⟨i, hc⟩
    · exact hinv.published_claimed c' hc'
  · rcases List.mem_cons.1 h with rfl | h
    · exact absurd (congrArg Prod.snd (hinv.eq_of_generation hc' hc rfl)) hj
    · exact h
  · exact absurd (Option.some.inj (hown.symm.trans hh)).symm hj

/-- Nobody who lives has its claim in the marker. -/
def Unclaimed (fleet : Fleet I P) (policy : Policy I) (w : World I P) : Prop :=
  policy.truthful → ∀ a ∈ w.claims, w.marker.Owned a.1 → w.phase (fleet.proc a.2) = .dead

/-- Writing the marker of a new claim, with the lease, over one that is unclaimed. -/
theorem keeps_claim (hinv : WorldInv fleet policy w) (hlive : Live fleet i w)
    (hown : w.holder = some i) (hfree : Unclaimed fleet policy w) {c : RefreshClaim}
    (hgen : ∀ a ∈ w.claims, a.1.generation < c.generation)
    (hpid : c.ownerPid = fleet.pid (fleet.proc i))
    (htoken : policy.truthful → c.ownerToken = fleet.token (fleet.proc i)) {m : Marker}
    (hm : sameClaim m c) :
    (contract fleet policy V).Keeps i w
      { w with marker := .valid m, claims := (c, i) :: w.claims } := by
  have hmgen := (sameClaim_iff.1 hm).1
  refine ⟨⟨List.pairwise_cons.2 ⟨hgen, hinv.increasing⟩, ?_, ?_, ?_, ?_,
    hinv.published_increasing, ?_⟩, hlive, fun j hj => ⟨fun _ => .same _, ⟨[(c, i)], rfl, ?_⟩,
      fun _ _ h => h, fun hh => ?_, fun c' hc' h => ?_, fun ht c' hc' hl _ h => ?_⟩⟩
  · rintro a (_ | ⟨_, ha⟩)
    · exact ⟨m, rfl, hmgen.ge⟩
    · exact ⟨m, rfl, (hgen a ha).le.trans hmgen.ge⟩
  · rintro a (_ | ⟨_, ha⟩)
    · exact fun h => absurd (hlive.symm.trans h) (by simp)
    · exact hinv.born a ha
  · rintro a (_ | ⟨_, ha⟩)
    · exact hpid
    · exact hinv.pid a ha
  · rintro ht a (_ | ⟨_, ha⟩)
    · exact htoken ht
    · exact hinv.token ht a ha
  · intro c' hc'
    obtain ⟨k, hk⟩ := hinv.published_claimed c' hc'
    exact ⟨k, List.mem_cons_of_mem _ hk⟩
  · rintro a ha
    rw [List.mem_singleton.1 ha]
    exact hj.symm
  · exact absurd (Option.some.inj (hown.symm.trans hh)).symm hj
  · rw [MarkerFile.owned_valid, sameClaim_iff] at h
    have hlt : c'.generation < c.generation := hgen _ hc'
    omega
  · exact absurd (hl.symm.trans (hfree ht _ hc' h)) (by simp)

end Keeps

end YasbLimitora

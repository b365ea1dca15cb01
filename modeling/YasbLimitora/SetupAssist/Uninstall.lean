import Mathlib
import YasbLimitora.SetupAssist.State
import YasbLimitora.SetupAssist.Succeed

/-!
# What a batch that removes a route leaves

A batch that asks for `path-remove` and `state-cleanup`, and whose operations all report
success, should leave no recorded route in the PATH, no state directory and no record.

What it does to the PATH and its record is the list of its `YasbLimitora.SetupAssist.phases`; all
that depends on the order of the operations depends on these. A cleanup consumes the record that a
removal goes by and leaves the PATH as it is, so that a removal after it does nothing and still
reports success. There are eleven lists of phases that an admissible batch with both operations can
have (`YasbLimitora.SetupAssist.exists_isPhases`), and what each of them leaves is
`YasbLimitora.SetupAssist.gone_iff`.

What it does to the state directory depends on what stands after the cleanup. The operations there
are followed one by one, on the disk that the other operations really have
(`YasbLimitora.SetupAssist.Surroundings.disk`): a `config-apply` makes the directory again, and so
does an `env-block-apply` that has something to back up (`YasbLimitora.SetupAssist.deleted_iff`).

`YasbLimitora.SetupAssist.batch_uninstalls_iff` puts both together and says for which orders of the
operations the batch does what it reports.
-/

namespace YasbLimitora

namespace SetupAssist

open UserPath Faults

/-! ### The phases of a batch -/

/-- What a batch does to the PATH and its record. -/
inductive Phase
  | add (correctionConsent : Bool)
  | remove
  | cleanup
  | both
deriving DecidableEq

def phaseOf : Operation × Consent → List Phase
  | (.pathAdd, .flag correctionConsent) => [.add correctionConsent]
  | (.pathAdd, _) => [.add false]
  | (.pathRemove, _) => [.remove]
  | (.stateCleanup, _) => [.cleanup]
  | _ => []

/-- The phases of a batch: a removal and a cleanup right after it are one. -/
def phases : List (Operation × Consent) → List Phase
  | [] => []
  | (.pathRemove, _) :: (.stateCleanup, .yes) :: rest => .both :: phases rest
  | x :: rest => phaseOf x ++ phases rest

/-- What a phase that succeeds makes of the registry. -/
def Phase.Step (install : Text) : Phase → Registry → Registry → Prop
  | .add correctionConsent, r, r' =>
    ∃ out, append install correctionConsent r = (out, r') ∧ out.reason = none
  | .remove, r, r' => ∃ out, UserPath.remove r = (out, r') ∧ out.reason = none
  | .cleanup, r, r' => ∃ o, IsOwned r o ∧ r' = { r with record := none }
  | .both, r, r' =>
    ∃ o, IsOwned r o ∧ r' = ⟨some ⟨join (split o.path).dropLast, o.type⟩, none⟩

/-- What phases that succeed make of the registry. -/
def Steps (install : Text) : List Phase → Registry → Registry → Prop
  | [], r, r' => r' = r
  | p :: l, r, r'' => ∃ r', p.Step install r r' ∧ Steps install l r' r''

theorem Steps.append {install : Text} {l l' : List Phase} {r r' r'' : Registry}
    (h : Steps install l r r') (h' : Steps install l' r' r'') : Steps install (l ++ l') r r'' := by
  induction l generalizing r with
  | nil =>
    obtain rfl := h
    exact h'
  | cons p l ih =>
    obtain ⟨r₁, hstep, h⟩ := h
    exact ⟨r₁, hstep, ih h⟩

/-- What one operation that succeeds makes of the disk. -/
def Disk.After {σ : Type} (disk : Disk σ) : Operation × Consent → σ → σ → Prop
  | (.pathAdd, _), d, d' => d' = d
  | (.pathRemove, _), d, d' => d' = d
  | (.stateCleanup, _), d, d' => disk.Deletes d d'
  | (o, consent), d, d' => disk.perform o consent d = (.ok none, d')

/-- What the operations of a batch make of the disk, if they succeed. -/
def Disk.AfterAll {σ : Type} (disk : Disk σ) : List (Operation × Consent) → σ → σ → Prop
  | [], d, d' => d' = d
  | x :: rest, d, d'' => ∃ d', disk.After x d d' ∧ disk.AfterAll rest d' d''

section Run

variable {σ : Type} {disk : Disk σ} {install : Text} {absolute : Bool} {m m' : Machine σ}

/-- An operation elsewhere that succeeds is what it is on the disk. -/
theorem mayEnd_elsewhere {o : Operation} {consent : Consent} {record : Record}
    (h : MayEnd disk.act (elsewhere o consent) m (.ok record) m') (hok : record.2 = none) :
    m'.registry = m.registry ∧ disk.perform o consent m.disk = (.ok none, m'.disk) := by
  obtain ⟨result, m₁, hcall, h⟩ := MayEnd.bind_ok h
  obtain ⟨rfl, rfl⟩ := hcall.call
  dsimp only [Disk.act] at h
  rcases hperform : disk.perform o consent m.disk with ⟨_ | reason, d⟩
  · rw [hperform] at h
    obtain ⟨events, raises, n, h⟩ := h
    cases (Ran.mk.inj h).1
  · rw [hperform] at h
    obtain ⟨hrecord, rfl⟩ := MayEnd.pure h
    obtain rfl := Except.ok.inj hrecord
    obtain rfl : reason = none := hok
    exact ⟨rfl, rfl⟩

/-- **One operation that succeeds** does its phase, and what it does to the disk. -/
theorem mayEnd_executeOne {x : Operation × Consent} {record : Record}
    (h : MayEnd disk.act (executeOne install absolute x.1 x.2) m (.ok record) m')
    (hok : record.2 = none) :
    Steps install (phaseOf x) m.registry m'.registry ∧ disk.After x m.disk m'.disk := by
  have hadd : ∀ {correctionConsent : Bool},
      MayEnd disk.act (pathOperation .pathAdd (appendUserPath install correctionConsent)) m
        (.ok record) m' →
        Steps install [.add correctionConsent] m.registry m'.registry ∧ m'.disk = m.disk := by
    intro correctionConsent h
    obtain ⟨out, r', hrun, hreason, rfl⟩ := mayEnd_pathOperation h hok
    exact ⟨⟨r', ⟨out, mayEnd_appendUserPath hrun hreason, hreason⟩, rfl⟩, rfl⟩
  obtain ⟨o, consent⟩ := x
  cases o with
  | discover => exact mayEnd_elsewhere h hok
  | yasbRunning => exact mayEnd_elsewhere h hok
  | envBlockApply => exact mayEnd_elsewhere h hok
  | configApply => exact mayEnd_elsewhere h hok
  | pathAdd =>
    cases consent with
    | flag correctionConsent => exact hadd h
    | yes => exact hadd h
    | selection fields => exact hadd h
  | pathRemove =>
    obtain ⟨out, r', hrun, hreason, rfl⟩ := mayEnd_pathOperation h hok
    exact ⟨⟨r', ⟨out, mayEnd_removeRecordedUserPath hrun hreason, hreason⟩, rfl⟩, rfl⟩
  | stateCleanup =>
    cases consent with
    | yes =>
      obtain ⟨out, m₁, hcleanup, h⟩ := MayEnd.bind_ok h
      obtain ⟨hrecord, rfl⟩ := MayEnd.pure h
      obtain rfl := Except.ok.inj hrecord
      rcases mayEnd_cleanupLiteralState hcleanup with ⟨o, ho, rfl, hclears⟩ | ⟨hchanged, -⟩
      · exact ⟨⟨_, ⟨o, ho, rfl⟩, hclears.2⟩, hclears.1⟩
      · simp only [hchanged, Bool.false_eq_true, if_false] at hok
        cases hok
    | flag b =>
      obtain ⟨hrecord, -⟩ := MayEnd.pure h
      obtain rfl := Except.ok.inj hrecord
      cases hok
    | selection fields =>
      obtain ⟨hrecord, -⟩ := MayEnd.pure h
      obtain rfl := Except.ok.inj hrecord
      cases hok

/-- **A batch whose operations all succeed** does its phases, and what its operations do to
the disk. -/
theorem mayEnd_execute {names : List (Operation × Consent)} {records : List Record}
    (h : MayEnd disk.act (execute install absolute names) m (.ok records) m')
    (hok : ∀ x ∈ records, x.2 = none) :
    Steps install (phases names) m.registry m'.registry ∧ disk.AfterAll names m.disk m'.disk := by
  induction names using phases.induct generalizing m records with
  | case1 =>
    obtain ⟨-, rfl⟩ := MayEnd.pure h
    exact ⟨rfl, rfl⟩
  | case2 consent rest ih =>
    obtain ⟨outs, m₁, hboth, h⟩ := MayEnd.bind_ok h
    obtain ⟨records', m₂, hrest, h⟩ := MayEnd.bind_ok h
    obtain ⟨hrecords, rfl⟩ := MayEnd.pure h
    obtain rfl := Except.ok.inj hrecords
    rw [List.forall_mem_cons, List.forall_mem_cons] at hok
    obtain ⟨o, ho, hdeletes, hregistry⟩ := mayEnd_removePathAndCleanupState hboth hok.1 hok.2.1
    obtain ⟨hsteps, hdisk⟩ := ih hrest hok.2.2
    exact ⟨⟨m₁.registry, ⟨o, ho, hregistry⟩, hsteps⟩, ⟨m.disk, rfl, m₁.disk, hdeletes, hdisk⟩⟩
  | case3 x rest hpair ih =>
    rw [execute.eq_3 _ _ _ _ _ fun rest' hrest ho => hpair x.2 rest' (Prod.ext ho rfl) hrest] at h
    obtain ⟨record, m₁, hone, h⟩ := MayEnd.bind_ok h
    obtain ⟨records', m₂, hrest, h⟩ := MayEnd.bind_ok h
    obtain ⟨hrecords, rfl⟩ := MayEnd.pure h
    obtain rfl := Except.ok.inj hrecords
    rw [List.forall_mem_cons] at hok
    obtain ⟨hstep, hdisk⟩ := mayEnd_executeOne hone hok.1
    obtain ⟨hsteps, hdisks⟩ := ih hrest hok.2
    rw [phases.eq_3 _ _ hpair]
    exact ⟨hstep.append hsteps, ⟨m₁.disk, hdisk, hdisks⟩⟩

end Run

/-! ### Which phases there are -/

/-- The operations that a phase is of. -/
def Phase.kinds : Phase → List Operation
  | .add _ => [.pathAdd]
  | .remove => [.pathRemove]
  | .cleanup => [.stateCleanup]
  | .both => [.pathRemove, .stateCleanup]

/-- An operation on the PATH or its record. -/
def OnPath (o : Operation) : Bool := o = .pathAdd ∨ o = .pathRemove ∨ o = .stateCleanup

theorem kinds_phaseOf (x : Operation × Consent) :
    (phaseOf x).flatMap Phase.kinds = [x.1].filter OnPath := by
  obtain ⟨o, consent⟩ := x
  cases o with
  | pathAdd => cases consent <;> rfl
  | _ => rfl

/-- The phases are of the operations on the PATH, in their order. -/
theorem kinds_phases (names : List (Operation × Consent)) :
    (phases names).flatMap Phase.kinds = (names.map Prod.fst).filter OnPath := by
  induction names using phases.induct with
  | case1 => rfl
  | case2 consent rest ih =>
    rw [phases, List.flatMap_cons, ih]
    rfl
  | case3 x rest hpair ih =>
    rw [phases.eq_3 _ _ hpair, List.flatMap_append, ih, kinds_phaseOf, ← List.filter_append]
    rfl

theorem length_le_kinds (l : List Phase) : l.length ≤ (l.flatMap Phase.kinds).length := by
  induction l with
  | nil => exact le_rfl
  | cons p l ih =>
    have hone : 1 ≤ p.kinds.length := by cases p <;> simp [Phase.kinds]
    rw [List.flatMap_cons, List.length_append, List.length_cons]
    omega

/-- A removal and a cleanup with what there may be besides: an addition, before, between or
after them. -/
def IsPhases (correctionConsent : Bool) (l : List Phase) : Prop :=
  l ∈ [[.both], [.add correctionConsent, .both], [.both, .add correctionConsent],
    [.remove, .cleanup], [.add correctionConsent, .remove, .cleanup],
    [.remove, .add correctionConsent, .cleanup], [.remove, .cleanup, .add correctionConsent],
    [.cleanup, .remove], [.add correctionConsent, .cleanup, .remove],
    [.cleanup, .add correctionConsent, .remove], [.cleanup, .remove, .add correctionConsent]]

/-- **The phases of an admissible batch** with a removal and a cleanup. -/
theorem exists_isPhases {names : List (Operation × Consent)} (h : Admissible names)
    (hremove : .pathRemove ∈ names.map Prod.fst) (hcleanup : .stateCleanup ∈ names.map Prod.fst) :
    ∃ correctionConsent, IsPhases correctionConsent (phases names) := by
  have hkinds := kinds_phases names
  have hnodup : ((phases names).flatMap Phase.kinds).Nodup := hkinds ▸ h.nodup.filter _
  have hr : .pathRemove ∈ (phases names).flatMap Phase.kinds :=
    hkinds ▸ List.mem_filter.2 ⟨hremove, rfl⟩
  have hc : .stateCleanup ∈ (phases names).flatMap Phase.kinds :=
    hkinds ▸ List.mem_filter.2 ⟨hcleanup, rfl⟩
  have hlength : (phases names).length ≤ 3 := by
    have hsub : (phases names).flatMap Phase.kinds ⊆ [.pathAdd, .pathRemove, .stateCleanup] := by
      intro o ho
      rw [hkinds] at ho
      simpa [OnPath] using (List.mem_filter.1 ho).2
    exact (length_le_kinds _).trans (hnodup.subperm hsub).length_le
  generalize phases names = l at hnodup hr hc hlength
  rcases l with _ | ⟨a, _ | ⟨b, _ | ⟨c, _ | ⟨d, l⟩⟩⟩⟩
  · cases hr
  · cases a <;> simp [Phase.kinds, IsPhases] at hr hc ⊢
  · cases a <;> cases b <;> simp [Phase.kinds, IsPhases] at hnodup hr hc ⊢
  · cases a <;> cases b <;> cases c <;> simp [Phase.kinds, IsPhases] at hnodup hr hc ⊢
  · simp only [List.length_cons] at hlength
    omega

/-! ### What the phases leave -/

section Phases

variable {r r' : Registry} {o : Owned}

/-- The PATH without its last element. -/
def kept (o : Owned) : Text := join (split o.path).dropLast

/-- The registry after a route was added to a PATH. -/
def added (install value : Text) (type : ℕ) : Registry :=
  ⟨some ⟨value ++ .ch ';' :: install, type⟩,
    some (record install (value ++ .ch ';' :: install) type)⟩

/-- **A removal that succeeds** takes the recorded route away if it is owned, and else leaves
all as it is. -/
theorem remove_ok {install : Text} (h : Phase.remove.Step install r r') :
    (∃ o, IsOwned r o ∧ r' = ⟨some ⟨kept o, o.type⟩, none⟩) ∨ r' = r ∧ ∀ o, ¬IsOwned r o := by
  obtain ⟨out, h, hok⟩ := h
  unfold UserPath.remove at h
  split at h
  · next o current howned hpath =>
    split_ifs at h with hchanged hmem hlast
    · obtain ⟨rfl, -⟩ := Prod.mk.inj h
      cases hok
    · obtain ⟨-, rfl⟩ := Prod.mk.inj h
      refine Or.inr ⟨rfl, fun o' ho' => hchanged ?_⟩
      obtain rfl := Option.some.inj (ho'.record.symm.trans howned)
      exact Option.some.inj (hpath.symm.trans ho'.path)
    · obtain ⟨rfl, -⟩ := Prod.mk.inj h
      cases hok
    · obtain ⟨-, rfl⟩ := Prod.mk.inj h
      rw [not_not] at hchanged hlast
      exact Or.inl ⟨o, ⟨howned, hlast, hchanged ▸ hpath⟩, rfl⟩
  · next hnone =>
    obtain ⟨-, rfl⟩ := Prod.mk.inj h
    exact Or.inr ⟨rfl, fun o ho => hnone o _ ho.record ho.path⟩

/-- **An addition that succeeds** finds its route in the PATH, or adds it where nothing is
recorded, or adds it in the place of the recorded route. -/
theorem append_ok {install : Text} {correctionConsent : Bool}
    (h : (Phase.add correctionConsent).Step install r r') :
    (r' = r ∧ ∃ safe, IsSafe r.path safe ∧ install ∈ split safe.value) ∨
      (r.record = none ∧ ∃ safe, IsSafe r.path safe ∧ install ∉ split safe.value ∧
        r' = added install safe.value safe.type) ∨
      ∃ o, IsOwned r o ∧ install ∉ split o.path ∧ r' = added install (kept o) o.type := by
  obtain ⟨out, h, hok⟩ := h
  rw [append] at h
  split at h
  · obtain ⟨rfl, -⟩ := Prod.mk.inj h
    cases hok
  next hsafe =>
  have hpath := isSafe_safePath hsafe
  generalize (safePath r.path).getD ⟨[], REG_EXPAND_SZ⟩ = safe at hpath h
  dsimp only at h
  split at h
  · next hmem =>
    obtain ⟨-, rfl⟩ := Prod.mk.inj h
    exact Or.inl ⟨rfl, safe, hpath, hmem⟩
  next hmem =>
  refine Or.inr ?_
  rcases hvalue : corrected r.path safe.value r.record correctionConsent with reason | value
  · rw [hvalue] at h
    obtain ⟨rfl, -⟩ := Prod.mk.inj h
    cases hok
  · rw [hvalue] at h
    obtain ⟨-, rfl⟩ := Prod.mk.inj h
    rcases corrected_eq_ok hvalue with ⟨hnone, rfl⟩ | ⟨old, hold, hcurrent, hlast, -, rfl⟩
    · exact Or.inl ⟨hnone, safe, hpath, hmem, rfl⟩
    · rcases hpath with ⟨hsame, -⟩ | ⟨hnone, -⟩
      · obtain rfl := Option.some.inj (hsame.symm.trans hcurrent)
        exact Or.inr ⟨old, ⟨hold, hlast, hcurrent⟩, hmem, rfl⟩
      · rw [hnone] at hcurrent
        cases hcurrent

/-- A PATH that UTF-16 spells. -/
def PairedPath (r : Registry) : Prop := ∀ v, r.path = some v → v.value.Paired

theorem join_cons_cons (part next : Text) (parts : List Text) :
    join (part :: next :: parts) = part ++ .ch ';' :: join (next :: parts) :=
  List.intercalate_cons_cons.trans (List.append_assoc _ _ _)

theorem join_starts (parts more : List Text) : join parts <+: join (parts ++ more) := by
  induction parts with
  | nil => exact List.nil_prefix
  | cons part parts ih =>
    rcases parts with _ | ⟨next, parts⟩
    · rw [join_singleton]
      rcases more with _ | ⟨first, more⟩
      · rw [List.append_nil, join_singleton]
      · exact ⟨_, (join_cons_cons part first more).symm⟩
    · rw [List.cons_append, List.cons_append, join_cons_cons, join_cons_cons]
      exact (List.prefix_append_right_inj _).2 (List.cons_prefix_cons.2 ⟨rfl, ih⟩)

/-- The PATH without its last element is the beginning of it. -/
theorem kept_starts (o : Owned) : kept o <+: o.path := by
  have hjoin := join_starts (split o.path).dropLast [(split o.path).getLast (split_ne_nil _)]
  rwa [List.dropLast_append_getLast, join_split] at hjoin

/-- **A route that was added is owned** only if it is an element of its PATH, the last one. -/
theorem isOwned_added {install : WideText} {value : Text} {type : ℕ} (hvalue : value.Paired)
    (htype : type = REG_SZ ∨ type = REG_EXPAND_SZ) (h : IsOwned (added install value type) o) :
    o = ⟨install, value ++ .ch ';' :: install.text, type⟩ ∧ kept o = value ∧
      split o.path = split value ++ [install.text] := by
  have hrecord : owned (record install (value ++ .ch ';' :: install.text) type) = some o := h.record
  rw [owned_record_eq install.paired (hvalue.append install.paired ';') htype] at hrecord
  split_ifs at hrecord
  obtain rfl := Option.some.inj hrecord
  have hlast : (split value ++ split install).getLast? = some install.text := by
    rw [← split_append]
    exact h.last
  rw [List.getLast?_append_of_ne_nil _ (split_ne_nil _)] at hlast
  have hplain : split install = [install.text] :=
    split_eq_singleton (not_mem_of_mem_split (List.mem_of_getLast? hlast))
  have hsplit : split (value ++ .ch ';' :: install.text) = split value ++ [install.text] := by
    rw [split_append, hplain]
  refine ⟨rfl, ?_, hsplit⟩
  rw [kept, hsplit, List.dropLast_concat, join_split]

theorem mem_split_kept (hne : o.element ≠ []) :
    o.element ∈ split (kept o) ↔ o.element ∈ (split o.path).dropLast := by
  rcases split_join_dropLast o.path with h | ⟨hnil, h⟩
  · rw [kept, h]
  · rw [kept, h, hnil, List.mem_singleton]
    exact iff_of_false hne List.not_mem_nil

/-- The route is no element of the PATH, and nothing is recorded. -/
def Gone (element : Text) (r : Registry) : Prop := element ∉ elements r.path ∧ r.record = none

/-- The recorded route of the PATH is an element of it. -/
theorem IsOwned.mem (h : IsOwned r o) : o.element ∈ split o.path := List.mem_of_getLast? h.last

theorem IsOwned.ne_nil (h : IsOwned r o) : o.element ≠ [] := by
  obtain ⟨recorded, -, howned⟩ := Option.bind_eq_some_iff.1 h.record
  exact (owned_eq_some howned).1

theorem IsOwned.type_eq (h : IsOwned r o) : o.type = REG_SZ ∨ o.type = REG_EXPAND_SZ := by
  obtain ⟨recorded, -, howned⟩ := Option.bind_eq_some_iff.1 h.record
  exact (owned_eq_some howned).2

/-- A registry has one record. -/
theorem IsOwned.eq {o' : Owned} (h : IsOwned r o) (howned : r.record.bind owned = some o') : o = o' :=
  Option.some.inj (h.record.symm.trans howned)

theorem not_isOwned_none {path : Option RegValue} : ¬IsOwned ⟨path, none⟩ o := fun h => nomatch h.record

theorem IsOwned.paired_kept (h : IsOwned r o) (hpaired : PairedPath r) : (kept o).Paired := by
  obtain ⟨rest, hrest⟩ := kept_starts o
  have hpath := hpaired _ h.path
  rw [← hrest] at hpath
  exact (List.isChain_append.1 hpath).1

/-- Where nothing is recorded there is nothing to remove. -/
theorem remove_none {install : Text} {path : Option RegValue}
    (h : Phase.remove.Step install ⟨path, none⟩ r') : r' = ⟨path, none⟩ := by
  rcases remove_ok h with ⟨o, ho, -⟩ | ⟨hsame, -⟩
  · exact absurd ho not_isOwned_none
  · exact hsame

/-- A cleanup does not succeed after a removal. -/
theorem not_remove_cleanup {install : Text} {r'' : Registry}
    (hremove : Phase.remove.Step install r r') : ¬Phase.cleanup.Step install r' r'' := by
  rintro ⟨o, ho, -⟩
  rcases remove_ok hremove with ⟨o', -, rfl⟩ | ⟨rfl, hnone⟩
  · exact not_isOwned_none ho
  · exact hnone o ho

/-- The PATH without its route. -/
theorem gone_kept (hne : o.element ≠ []) (type : ℕ) :
    Gone o.element ⟨some ⟨kept o, type⟩, none⟩ ↔ o.element ∉ (split o.path).dropLast := by
  refine (and_iff_left rfl).trans (not_congr ?_)
  exact mem_split_kept hne

/-- The PATH with another route in the place of its route. -/
theorem gone_kept_append {install : Text} (hne : o.element ≠ []) {value : Text} {type : ℕ}
    (hsplit : split value = split (kept o) ++ [install]) :
    Gone o.element ⟨some ⟨value, type⟩, none⟩ ↔
      o.element ∉ (split o.path).dropLast ∧ install ≠ o.element := by
  refine (and_iff_left rfl).trans ?_
  show o.element ∉ split value ↔ _
  rw [hsplit, List.mem_append, List.mem_singleton, not_or, mem_split_kept hne, eq_comm]

/-- The orders in which a batch leaves no recorded route. A removal goes together with the
cleanup right after it, and no route is added after them that was not there; or a route
is added in between, so that the cleanup finds a record, and it is another route; or the
recorded route was replaced before by one that was not there. -/
def Orderly (install : Text) (o : Owned) : List Phase → Prop
  | [.both] => True
  | [.add _, .both] => True
  | [.both, .add _] => install ∈ split (kept o)
  | [.remove, .add _, .cleanup] => install ≠ o.element
  | [.add _, .cleanup, .remove] => install ∉ split o.path
  | _ => False

section Orders

variable {install : WideText} {correctionConsent : Bool} {r₁ r₂ : Registry}
  (hpaired : PairedPath r) (howned : r.record.bind owned = some o)

/-- An addition after the record was cleared. -/
theorem add_cleared (ho : IsOwned r o)
    (h : (Phase.add correctionConsent).Step install ⟨r.path, none⟩ r') :
    r' = ⟨r.path, none⟩ ∨ r' = added install o.path o.type := by
  rcases append_ok h with ⟨rfl, -⟩ | ⟨-, safe, hsafe, -, rfl⟩ | ⟨o', ho', -⟩
  · exact Or.inl rfl
  · rcases hsafe with ⟨hpath, -⟩ | ⟨hpath, -⟩
    · obtain rfl := Option.some.inj (hpath.symm.trans ho.path)
      exact Or.inr rfl
    · exact absurd (hpath.symm.trans ho.path) nofun
  · exact absurd ho' not_isOwned_none

include howned

theorem gone_both (h : Phase.both.Step install r r') :
    Gone o.element r' ↔ o.element ∉ (split o.path).dropLast := by
  obtain ⟨o', ho, rfl⟩ := h
  obtain rfl := ho.eq howned
  exact gone_kept ho.ne_nil _

/-- A route that is added after both leaves a record. -/
theorem gone_both_add (h : Phase.both.Step install r r₁)
    (hadd : (Phase.add correctionConsent).Step install r₁ r') :
    Gone o.element r' ↔
      o.element ∉ (split o.path).dropLast ∧ install.text ∈ split (kept o) := by
  have hgone := gone_both howned h
  obtain ⟨o', ho, rfl⟩ := h
  obtain rfl := ho.eq howned
  rcases append_ok hadd with ⟨rfl, safe, hsafe, hmem⟩ | ⟨-, safe, hsafe, hmem, rfl⟩ | ⟨o', ho', -⟩
  · rcases hsafe with ⟨hpath, -⟩ | ⟨hpath, -⟩
    · obtain rfl := Option.some.inj hpath
      exact hgone.trans (and_iff_left hmem).symm
    · cases hpath
  · rcases hsafe with ⟨hpath, -⟩ | ⟨hpath, -⟩
    · obtain rfl := Option.some.inj hpath
      exact iff_of_false (fun h => nomatch h.2) fun h => hmem h.2
    · cases hpath
  · exact absurd ho' not_isOwned_none

/-- An addition while a route is recorded. -/
theorem add_owned (h : (Phase.add correctionConsent).Step install r r') :
    (r' = r ∧ (IsOwned r o → install.text ∈ split o.path)) ∨
      IsOwned r o ∧ install.text ∉ split o.path ∧ r' = added install (kept o) o.type := by
  rcases append_ok h with ⟨rfl, safe, hsafe, hmem⟩ | ⟨hnone, -⟩ | ⟨o', ho', hmem, rfl⟩
  · refine Or.inl ⟨rfl, fun ho => ?_⟩
    rcases hsafe with ⟨hpath, -⟩ | ⟨hpath, -⟩
    · obtain rfl := Option.some.inj (hpath.symm.trans ho.path)
      exact hmem
    · rw [ho.path] at hpath
      cases hpath
  · rw [hnone] at howned
    cases howned
  · obtain rfl := ho'.eq howned
    exact Or.inr ⟨ho', hmem, rfl⟩

include hpaired

/-- A route that replaced the recorded one is removed together with the cleanup. -/
theorem gone_add_both (hadd : (Phase.add correctionConsent).Step install r r₁)
    (h : Phase.both.Step install r₁ r') :
    Gone o.element r' ↔ o.element ∉ (split o.path).dropLast := by
  rcases add_owned howned hadd with ⟨rfl, -⟩ | ⟨ho, -, rfl⟩
  · exact gone_both howned h
  · obtain ⟨o', ho', rfl⟩ := h
    obtain ⟨-, hkept, -⟩ := isOwned_added (ho.paired_kept hpaired) ho.type_eq ho'
    show Gone o.element ⟨some ⟨kept o', _⟩, none⟩ ↔ _
    rw [hkept]
    exact gone_kept ho.ne_nil _

/-- A route that is added after the removal is cleaned up after. -/
theorem gone_remove_add_cleanup (hremove : Phase.remove.Step install r r₁)
    (hadd : (Phase.add correctionConsent).Step install r₁ r₂)
    (hcleanup : Phase.cleanup.Step install r₂ r') :
    Gone o.element r' ↔ o.element ∉ (split o.path).dropLast ∧ install.text ≠ o.element := by
  obtain ⟨o', ho', rfl⟩ := hcleanup
  rcases remove_ok hremove with ⟨o'', ho, rfl⟩ | ⟨rfl, hnone⟩
  · obtain rfl := ho.eq howned
    rcases append_ok hadd with ⟨rfl, -⟩ | ⟨-, safe, hsafe, -, rfl⟩ | ⟨o'', ho'', -⟩
    · exact absurd ho' not_isOwned_none
    · rcases hsafe with ⟨hpath, -⟩ | ⟨hpath, -⟩
      · obtain rfl := Option.some.inj hpath
        obtain ⟨rfl, -, hsplit⟩ := isOwned_added (ho.paired_kept hpaired) ho.type_eq ho'
        exact gone_kept_append ho.ne_nil hsplit
      · cases hpath
    · exact absurd ho'' not_isOwned_none
  · -- The PATH is not the recorded one, and stays so.
    rcases add_owned howned hadd with ⟨rfl, -⟩ | ⟨ho, -⟩
    · exact absurd ho' (hnone o')
    · exact absurd ho (hnone o)

/-- A route that replaced the recorded one stays, where the cleanup comes before the
removal. -/
theorem gone_add_cleanup_remove (hadd : (Phase.add correctionConsent).Step install r r₁)
    (hcleanup : Phase.cleanup.Step install r₁ r₂) (hremove : Phase.remove.Step install r₂ r') :
    Gone o.element r' ↔
      o.element ∉ (split o.path).dropLast ∧ install.text ∉ split o.path := by
  obtain ⟨o', ho', rfl⟩ := hcleanup
  obtain rfl := remove_none hremove
  rcases add_owned howned hadd with ⟨rfl, hmem⟩ | ⟨ho, hmem, rfl⟩
  · obtain rfl := ho'.eq howned
    refine iff_of_false (fun h => h.1 ?_) fun h => h.2 (hmem ho')
    rw [ho'.path]
    exact ho'.mem
  · obtain ⟨rfl, -, hsplit⟩ := isOwned_added (ho.paired_kept hpaired) ho.type_eq ho'
    refine (gone_kept_append ho.ne_nil hsplit).trans (and_congr_right fun _ => ?_)
    exact iff_of_true (fun h => hmem (h ▸ ho.mem)) hmem

variable (correctionConsent) in
/-- The recorded route stays where the cleanup comes first. -/
theorem not_gone_cleanup (hcleanup : Phase.cleanup.Step install r r₁)
    (h : Steps install [.remove] r₁ r' ∨ Steps install [.add correctionConsent, .remove] r₁ r' ∨
      Steps install [.remove, .add correctionConsent] r₁ r') : ¬Gone o.element r' := by
  obtain ⟨o', ho, rfl⟩ := hcleanup
  obtain rfl := ho.eq howned
  have hmem : o'.element ∈ elements r.path := by
    rw [ho.path]
    exact ho.mem
  rcases h with ⟨r₂, hremove, rfl⟩ | ⟨r₂, hadd, r₃, hremove, rfl⟩ | ⟨r₂, hremove, r₃, hadd, rfl⟩
  · obtain rfl := remove_none hremove
    exact fun h => h.1 hmem
  · rcases add_cleared ho hadd with rfl | rfl
    · obtain rfl := remove_none hremove
      exact fun h => h.1 hmem
    · rcases remove_ok hremove with ⟨o, ho', rfl⟩ | ⟨rfl, -⟩
      · obtain ⟨-, hkept, -⟩ := isOwned_added (hpaired _ ho.path) ho.type_eq ho'
        intro h
        refine h.1 ?_
        show o'.element ∈ split (kept o)
        rw [hkept]
        exact ho.mem
      · exact fun h => nomatch h.2
  · obtain rfl := remove_none hremove
    rcases add_cleared ho hadd with rfl | rfl
    · exact fun h => h.1 hmem
    · exact fun h => nomatch h.2

end Orders

end Phases

/-- **What the phases of a batch leave**: the route is gone exactly where their order is
one of those that are orderly, and where it was not in the PATH a second time. -/
theorem gone_iff {install : WideText} {correctionConsent : Bool} {l : List Phase}
    {r r' : Registry} {o : Owned} (hl : IsPhases correctionConsent l) (hpaired : PairedPath r)
    (howned : r.record.bind owned = some o) (h : Steps install l r r') :
    Gone o.element r' ↔ o.element ∉ (split o.path).dropLast ∧ Orderly install o l := by
  simp only [IsPhases, List.mem_cons, List.not_mem_nil, or_false] at hl
  rcases hl with rfl | rfl | rfl | rfl | rfl | rfl | rfl | rfl | rfl | rfl | rfl
  · obtain ⟨r₁, hboth, rfl⟩ := h
    exact (gone_both howned hboth).trans (and_iff_left trivial).symm
  · obtain ⟨r₁, hadd, r₂, hboth, rfl⟩ := h
    exact (gone_add_both hpaired howned hadd hboth).trans (and_iff_left trivial).symm
  · obtain ⟨r₁, hboth, r₂, hadd, rfl⟩ := h
    exact gone_both_add howned hboth hadd
  · obtain ⟨r₁, hremove, r₂, hcleanup, -⟩ := h
    exact absurd hcleanup (not_remove_cleanup hremove)
  · obtain ⟨r₁, -, r₂, hremove, r₃, hcleanup, -⟩ := h
    exact absurd hcleanup (not_remove_cleanup hremove)
  · obtain ⟨r₁, hremove, r₂, hadd, r₃, hcleanup, rfl⟩ := h
    exact gone_remove_add_cleanup hpaired howned hremove hadd hcleanup
  · obtain ⟨r₁, hremove, r₂, hcleanup, -⟩ := h
    exact absurd hcleanup (not_remove_cleanup hremove)
  · obtain ⟨r₁, hcleanup, h⟩ := h
    exact iff_of_false (not_gone_cleanup correctionConsent hpaired howned hcleanup (Or.inl h))
      And.right
  · obtain ⟨r₁, hadd, r₂, hcleanup, r₃, hremove, rfl⟩ := h
    exact gone_add_cleanup_remove hpaired howned hadd hcleanup hremove
  · obtain ⟨r₁, hcleanup, h⟩ := h
    exact iff_of_false (not_gone_cleanup correctionConsent hpaired howned hcleanup (Or.inr (Or.inl h))) And.right
  · obtain ⟨r₁, hcleanup, h⟩ := h
    exact iff_of_false (not_gone_cleanup correctionConsent hpaired howned hcleanup (Or.inr (Or.inr h))) And.right

/-! ### What is left of the state directory -/

section Directory

variable {F : Type} {around : Surroundings F} {s s' : State} {names : List (Operation × Consent)}

/-- The operations that make the state directory where there is none: `config-apply`, and
`env-block-apply` where there is a `.env` to be backed up. -/
def Makes (s : State) (o : Operation) : Prop := o = .configApply ∨ o = .envBlockApply ∧ s.home.env.isSome = true

/-- **One operation that succeeds**, and is no cleanup, keeps a state directory and may make one. Only
`env-block-apply` has to do with `.env`. -/
theorem hasDirectory_of_after {x : Operation × Consent} (h : around.disk.After x s s') (hx : x.1 ≠ .stateCleanup) :
    (s'.hasDirectory = true ↔ s.hasDirectory = true ∨ Makes s x.1) ∧
      (x.1 ≠ .envBlockApply → s'.home = s.home) := by
  have hsame : ∀ {o : Operation}, s' = s → o ≠ .configApply → o ≠ .envBlockApply →
      (s'.hasDirectory = true ↔ s.hasDirectory = true ∨ Makes s o) ∧ (o ≠ .envBlockApply → s'.home = s.home) := by
    rintro o rfl hconfig henv
    refine ⟨(or_iff_left ?_).symm, fun _ => rfl⟩
    rintro (rfl | ⟨rfl, -⟩)
    · exact hconfig rfl
    · exact henv rfl
  obtain ⟨o, consent⟩ := x
  cases o with
  | discover => exact hsame (Prod.mk.inj h).2.symm nofun nofun
  | yasbRunning => exact hsame (Prod.mk.inj h).2.symm nofun nofun
  | pathAdd => exact hsame h nofun nofun
  | pathRemove => exact hsame h nofun nofun
  | stateCleanup => exact absurd rfl hx
  | configApply =>
    obtain ⟨hdirectory, hhome⟩ := Surroundings.configApplied h
    exact ⟨iff_of_true hdirectory (Or.inr (Or.inl rfl)), fun _ => hhome⟩
  | envBlockApply =>
    refine ⟨(Surroundings.envBlockApplied h).trans (or_congr_right ?_), fun hne => absurd rfl hne⟩
    exact ⟨fun henv => Or.inr ⟨rfl, henv⟩, fun hmakes => (hmakes.resolve_left nofun).2⟩

/-- **Operations that succeed**, each of them once and none a cleanup. -/
theorem hasDirectory_of_afterAll (h : around.disk.AfterAll names s s') (hnodup : (names.map Prod.fst).Nodup)
    (hcleanup : .stateCleanup ∉ names.map Prod.fst) :
    (s'.hasDirectory = true ↔ s.hasDirectory = true ∨ ∃ o ∈ names.map Prod.fst, Makes s o) ∧
      (.envBlockApply ∉ names.map Prod.fst → s'.home = s.home) := by
  induction names generalizing s with
  | nil =>
    obtain rfl := h
    refine ⟨(or_iff_left ?_).symm, fun _ => rfl⟩
    rintro ⟨o, ho, -⟩
    cases ho
  | cons x rest ih =>
    obtain ⟨s₁, hfirst, hrest⟩ := h
    rw [List.map_cons, List.nodup_cons] at hnodup
    rw [List.map_cons, List.mem_cons, not_or] at hcleanup
    obtain ⟨hdirectory, hhome⟩ := hasDirectory_of_after hfirst fun hx => hcleanup.1 hx.symm
    obtain ⟨hdirectories, hhomes⟩ := ih hrest hnodup.2 hcleanup.2
    have hmakes : ∀ o ∈ rest.map Prod.fst, Makes s₁ o ↔ Makes s o := by
      intro o ho
      refine or_congr_right (and_congr_right ?_)
      rintro rfl
      -- the block is written once, so that the first operation does not
      rw [hhome fun hx => hnodup.1 (hx ▸ ho)]
    constructor
    · rw [hdirectories, hdirectory, or_assoc, List.map_cons]
      refine or_congr_right ?_
      constructor
      · rintro (hfirst | ⟨o, ho, hmake⟩)
        · exact ⟨x.1, List.mem_cons_self, hfirst⟩
        · exact ⟨o, List.mem_cons_of_mem _ ho, (hmakes o ho).1 hmake⟩
      · rintro ⟨o, ho, hmake⟩
        rcases List.mem_cons.1 ho with rfl | ho
        · exact Or.inl hmake
        · exact Or.inr ⟨o, ho, (hmakes o ho).2 hmake⟩
    · intro henv
      rw [List.map_cons, List.mem_cons, not_or] at henv
      exact (hhomes henv.2).trans (hhome fun hx => henv.1 hx.symm)

theorem Disk.AfterAll.of_append {σ : Type} {disk : Disk σ} {first rest : List (Operation × Consent)} {d d'' : σ}
    (h : disk.AfterAll (first ++ rest) d d'') : ∃ d', disk.AfterAll first d d' ∧ disk.AfterAll rest d' d'' := by
  induction first generalizing d with
  | nil => exact ⟨d, rfl, h⟩
  | cons x first ih =>
    obtain ⟨d₁, hx, h⟩ := h
    obtain ⟨d', hfirst, hrest⟩ := ih h
    exact ⟨d', ⟨d₁, hx, hfirst⟩, hrest⟩

/-- The operations that stand after the cleanup of the state. -/
def afterCleanup (names : List (Operation × Consent)) : List Operation :=
  ((names.map Prod.fst).dropWhile (· ≠ .stateCleanup)).tail

theorem afterCleanup_append {first rest : List (Operation × Consent)} {consent : Consent}
    (hfirst : .stateCleanup ∉ first.map Prod.fst) :
    afterCleanup (first ++ (.stateCleanup, consent) :: rest) = rest.map Prod.fst := by
  unfold afterCleanup
  rw [List.map_append, List.map_cons, List.dropWhile_append_of_pos]
  · rfl
  · intro o ho
    exact decide_eq_true fun heq => hfirst (heq ▸ ho)

/-- **What a batch that deletes the state directory leaves of it**: nothing, exactly where no operation
after the cleanup makes it again. -/
theorem deleted_iff (h : around.disk.AfterAll names s s') (hnodup : (names.map Prod.fst).Nodup)
    (hcleanup : .stateCleanup ∈ names.map Prod.fst) :
    s'.hasDirectory = false ↔ ∀ o ∈ afterCleanup names, ¬Makes s o := by
  obtain ⟨⟨o, consent⟩, hmem, rfl⟩ := List.mem_map.1 hcleanup
  obtain ⟨first, rest, rfl⟩ := List.append_of_mem hmem
  rw [List.map_append, List.map_cons, List.nodup_append] at hnodup
  obtain ⟨hnodup₁, hnodup₂, hapart⟩ := hnodup
  rw [List.nodup_cons] at hnodup₂
  have hfirst : .stateCleanup ∉ first.map Prod.fst := fun hin => hapart _ hin _ List.mem_cons_self rfl
  obtain ⟨s₁, h₁, s₂, hdeletes, h₂⟩ := h.of_append
  obtain ⟨hgone, hhome₂⟩ := Surroundings.deleted hdeletes
  obtain ⟨-, hhome₁⟩ := hasDirectory_of_afterAll h₁ hnodup₁ hfirst
  obtain ⟨hdirectory, -⟩ := hasDirectory_of_afterAll h₂ hnodup₂.2 hnodup₂.1
  have hmakes : ∀ o ∈ rest.map Prod.fst, Makes s₂ o ↔ Makes s o := by
    intro o ho
    refine or_congr_right (and_congr_right ?_)
    rintro rfl
    rw [hhome₂, hhome₁ fun hin => hapart _ hin _ (List.mem_cons_of_mem _ ho) rfl]
  rw [afterCleanup_append hfirst, ← Bool.not_eq_true, hdirectory, hgone]
  constructor
  · intro hnone o ho hmake
    exact hnone (Or.inr ⟨o, ho, (hmakes o ho).2 hmake⟩)
  · rintro hnone (hfalse | ⟨o, ho, hmake⟩)
    · cases hfalse
    · exact hnone o ho ((hmakes o ho).1 hmake)

end Directory

/-! ### Batches -/

/-- What a removal and a cleanup are for: the route is no element of the PATH, there is no
state directory, and nothing is recorded. -/
def Uninstalled (element : Text) (m : Machine State) : Prop :=
  element ∉ elements m.registry.path ∧ m.disk.hasDirectory = false ∧ m.registry.record = none

/-- A machine before a batch. -/
def machine {σ : Type} (path : Option (WideText × ℕ)) (recorded : Text) (d : σ) : Machine σ :=
  ⟨⟨path.map fun v => ⟨v.1, v.2⟩, some recorded⟩, d⟩

/-- **A batch whose operations all succeed does what it reports** exactly if their order is
orderly, the route was not in the PATH a second time, and no operation after the cleanup
makes the state directory again. -/
theorem batch_uninstalls_iff {F : Type} (around : Surroundings F) (install : WideText)
    (raises : ℕ → Call → Bool) {raw : Bytes} {names : List (Operation × Consent)}
    (hnames : validateRequest raw = .ok names) (hremove : .pathRemove ∈ names.map Prod.fst)
    (hcleanup : .stateCleanup ∈ names.map Prod.fst) (path : Option (WideText × ℕ))
    {recorded : Text} {o : Owned} (howned : owned recorded = some o) (s : State)
    {records : List Record} (hrecords :
      (around.disk.run install around.path.isAbs raises names (machine path recorded s)).result = .ok records)
    (hok : ∀ x ∈ records, x.2 = none) :
    Uninstalled o.element (around.disk.run install around.path.isAbs raises names (machine path recorded s)).world ↔
      o.element ∉ (split o.path).dropLast ∧ Orderly install o (phases names) ∧
        ∀ o ∈ afterCleanup names, ¬Makes s o := by
  have hadmissible := admissible_of_validateRequest hnames
  obtain ⟨correctionConsent, hphases⟩ := exists_isPhases hadmissible hremove hcleanup
  have hend : MayEnd around.disk.act (execute install around.path.isAbs names) (machine path recorded s)
      (.ok records) (around.disk.run install around.path.isAbs raises names (machine path recorded s)).world :=
    ⟨_, raises, 0, Ran.ext hrecords rfl rfl⟩
  obtain ⟨hsteps, hdisk⟩ := mayEnd_execute hend hok
  have hpaired : PairedPath (machine path recorded s).registry := by
    intro v hv
    obtain ⟨w, -, rfl⟩ := Option.map_eq_some_iff.1 hv
    exact w.1.paired
  have hgone := gone_iff hphases hpaired howned hsteps
  have hdeleted := deleted_iff hdisk hadmissible.nodup hcleanup
  rw [Uninstalled, and_left_comm, ← and_assoc (a := o.element ∉ (split o.path).dropLast), ← hgone]
  exact (and_comm.trans (and_congr_right fun _ => hdeleted))

/-- Native calls that all succeed, on an empty state directory. -/
def deletable (_ : ℕ) : (o : StateCleanup.CleanupOp) → o.Resp
  | .openParent _ => some 0
  | .openRelative _ _ _ => some 0
  | .query _ => some ⟨(0, 0), 16⟩
  | .finalPath _ => some StateCleanup.stateDirectory.normal
  | .queryDirectory _ _ => .noMore
  | .delete _ => true
  | .close _ => ()

/-- Surroundings in which nothing fails. -/
def calm : Surroundings ℚ where
  floats := Config.wholeFloats
  limit := 100
  floatTexts _ := none
  apiKey := false
  configRaises _ _ := false
  invocation := .ok (Text.ofString "limitora")
  envDisk := ⟨fun _ => false, 65536, id⟩
  listings := 1
  depth := 1
  path := StateCleanup.stateDirectory
  results := deletable
  left := id

/-- A disk with a configuration in its state directory, and a `.env`. -/
def configured : State := ⟨{ ConfigApply.unconfigured with config := some [0x7B, 0x7D] },
  .start (some ⟨some [0x41, 0x0A], true⟩)⟩

/-- A request in ASCII. -/
def request (operations : String) : Bytes :=
  ("\x7b\"schema\": \"" ++ REQUEST_SCHEMA ++ "\", \"operations\": [" ++ operations ++ "]\x7d").toList.map
    fun c => UInt8.ofNat c.toNat

/-- The operations of a request. -/
def operations (raw : Bytes) : List (Operation × Consent) := (validateRequest raw).toOption.getD []

theorem validateRequest_operations {raw : Bytes} (h : (validateRequest raw).isOk = true) :
    validateRequest raw = .ok (operations raw) := by
  unfold operations
  rcases hnames : validateRequest raw with reason | names
  · rw [hnames] at h
    cases h
  · rfl

def cleanupRequest : Bytes := request
  "\x7b\"operation\": \"state-cleanup\", \"consent\": \"YES\"\x7d, \x7b\"operation\": \"path-remove\"\x7d"

/-- A removal with the cleanup after it, and a block for `.env` before both. -/
def blockRequest : Bytes := request
  "\x7b\"operation\": \"env-block-apply\", \"consent\": true\x7d, \x7b\"operation\": \"path-remove\"\x7d, \x7b\"operation\": \"state-cleanup\", \"consent\": \"YES\"\x7d"

/-- A PATH with the recorded route `B`. -/
def machineB : Machine State :=
  machine (some (wide "A;B", REG_SZ)) (record (wide "B") (wide "A;B") REG_SZ) configured

/-- A block is written and backed up; then the route and the state directory are removed. -/
theorem batch_uninstalls_removed :
    Uninstalled (wide "B").text
      (calm.disk.run (wide "C") calm.path.isAbs (fun _ _ => false) (operations blockRequest) machineB).world := by
  have haccepted : (validateRequest blockRequest).isOk = true ∧
      .pathRemove ∈ (operations blockRequest).map Prod.fst ∧
      .stateCleanup ∈ (operations blockRequest).map Prod.fst ∧
      (calm.disk.run (wide "C") calm.path.isAbs (fun _ _ => false) (operations blockRequest) machineB).result =
        .ok [(.envBlockApply, none), (.pathRemove, none), (.stateCleanup, none)] := by decide +kernel
  refine (batch_uninstalls_iff calm (wide "C") (fun _ _ => false)
    (validateRequest_operations haccepted.1) haccepted.2.1 haccepted.2.2.1
    (some (wide "A;B", REG_SZ))
    (owned_record (by decide) (wide "B").paired (wide "A;B").paired (Or.inl rfl)) configured
    haccepted.2.2.2 (by decide)).2 ⟨by decide +kernel, ?_, ?_⟩
  · have hphases : phases (operations blockRequest) = [.both] := by decide +kernel
    rw [hphases]
    trivial
  · have hafter : afterCleanup (operations blockRequest) = [] := by decide +kernel
    rw [hafter]
    exact fun _ ho => nomatch ho

/-- A cleanup and then a removal both succeed, and leave the route in the PATH. -/
theorem batch_leaves_route :
    validateRequest cleanupRequest = .ok (operations cleanupRequest) ∧
      (calm.disk.run (wide "C") calm.path.isAbs (fun _ _ => false) (operations cleanupRequest) machineB).result =
        .ok [(.stateCleanup, none), (.pathRemove, none)] ∧
      ¬Uninstalled (wide "B").text
        (calm.disk.run (wide "C") calm.path.isAbs (fun _ _ => false) (operations cleanupRequest)
          machineB).world := by
  have hrun : (validateRequest cleanupRequest).isOk = true ∧
      (calm.disk.run (wide "C") calm.path.isAbs (fun _ _ => false) (operations cleanupRequest) machineB).result =
        .ok [(.stateCleanup, none), (.pathRemove, none)] ∧
      (wide "B").text ∈ elements (calm.disk.run (wide "C") calm.path.isAbs (fun _ _ => false)
        (operations cleanupRequest) machineB).world.registry.path := by decide +kernel
  exact ⟨validateRequest_operations hrun.1, hrun.2.1, fun h => h.1 hrun.2.2⟩

end SetupAssist

end YasbLimitora

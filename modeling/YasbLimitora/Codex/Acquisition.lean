import Mathlib

/-!
# Acquisition transactions

What a supervisor has acquired is held by a transaction until it is handed over
(`_AcquisitionTransaction` of `codex_supervisor.py`): an entry is added with the call that
closes it, and is released, or closed by a rollback, or given away with all others by a
commit. A closer may fail, as often as it likes, by raising an `Exception`; the entry is then held
on. What is raised and is no `Exception` interrupts the rollback, and no call of it is modelled.

`YasbLimitora.Codex.held` says of what was done so far which entries are held, and
`YasbLimitora.Codex.transaction_discipline` that the transaction keeps to it: it closes what
is held, from the last to the first, and nothing else. A call that does not raise an ownership error
does what it is for, and each kind of call says exactly when it raises one.
-/

namespace YasbLimitora

namespace Codex

/-! ### The transaction -/

/-- `_AcquisitionEntry`, with the identity that tells it from an equal one. -/
structure AcquisitionEntry (C : Type) where
  id : ℕ
  close : C
deriving DecidableEq

namespace AcquisitionEntry

variable {C : Type}

/-- `==` of two entries. -/
def Equal (a b : AcquisitionEntry C) : Prop := a.close = b.close

instance [DecidableEq C] (a b : AcquisitionEntry C) : Decidable (a.Equal b) :=
  inferInstanceAs (Decidable (_ = _))

end AcquisitionEntry

inductive AcquisitionError
  | ownership
  | cleanup
deriving DecidableEq

structure AcquisitionTransaction (C : Type) where
  entries : List (AcquisitionEntry C)
  committed : Bool

/-- An attempt to close an entry, and whether it was closed. -/
abbrev Attempt (C : Type) := AcquisitionEntry C × Bool

namespace AcquisitionTransaction

variable {C : Type}

def init : AcquisitionTransaction C := ⟨[], false⟩

variable (t : AcquisitionTransaction C)

/-- The new entry has an identity of its own. -/
def add (id : ℕ) (close : C) :
    Except AcquisitionError (AcquisitionEntry C) × AcquisitionTransaction C :=
  if t.committed then (.error .ownership, t)
  else (.ok ⟨id, close⟩, { t with entries := t.entries ++ [⟨id, close⟩] })

def release (entry : AcquisitionEntry C) :
    Except AcquisitionError Unit × AcquisitionTransaction C :=
  if t.committed ∨ ¬t.entries.any (·.id == entry.id) then (.error .ownership, t)
  else (.ok (), { t with entries := t.entries.eraseP (·.id == entry.id) })

/-- The loop of `rollback`: the attempts, in their order, the first being answered by the
`n`th closing. -/
def attempts (answers : ℕ → Bool) : ℕ → List (AcquisitionEntry C) → List (Attempt C)
  | _, [] => []
  | n, entry :: entries => (entry, answers n) :: attempts answers (n + 1) entries

/-- The entries that were not closed. -/
def failed (l : List (Attempt C)) : List (AcquisitionEntry C) := (l.filter (!·.2)).map (·.1)

/-- `rollback`, with its attempts. -/
def rollback (answers : ℕ → Bool) :
    Except AcquisitionError Unit × AcquisitionTransaction C × List (Attempt C) :=
  if t.committed then (.error .ownership, t, [])
  else
    let tried := attempts answers 0 t.entries.reverse
    let kept := t.entries.filter fun entry => (failed tried).any (entry.id == ·.id)
    (if failed tried = [] then .ok () else .error .cleanup, { t with entries := kept }, tried)

def commit [DecidableEq C] (requested : List (AcquisitionEntry C)) :
    Except AcquisitionError Unit × AcquisitionTransaction C :=
  if t.committed ∨ t.entries.map (·.close) ≠ requested.map (·.close) then (.error .ownership, t)
  else (.ok (), ⟨[], true⟩)

end AcquisitionTransaction

/-! ### Runs -/

/-- What was done in a run. -/
inductive AcquisitionEvent (C : Type)
  | added (entry : AcquisitionEntry C)
  | released (entry : AcquisitionEntry C)
  | attempted (attempt : Attempt C)
  | committed

inductive AcquisitionCall (C : Type)
  | add (close : C)
  | release (entry : AcquisitionEntry C)
  | rollback (answers : ℕ → Bool)
  | commit (requested : List (AcquisitionEntry C))

/-- A transaction, the identity the next entry will have, and what was done. -/
structure Acquiring (C : Type) where
  transaction : AcquisitionTransaction C
  next : ℕ
  events : List (AcquisitionEvent C)

namespace Acquiring

variable {C : Type} [DecidableEq C]

def init : Acquiring C := ⟨.init, 0, []⟩

/-- One call. A call that raises an ownership error does nothing. -/
def step (σ : Acquiring C) : AcquisitionCall C → Acquiring C
  | .add close => match σ.transaction.add σ.next close with
    | (.ok entry, t) => ⟨t, σ.next + 1, σ.events ++ [.added entry]⟩
    | (.error _, t) => { σ with transaction := t }
  | .release entry => match σ.transaction.release entry with
    | (.ok _, t) => { σ with transaction := t, events := σ.events ++ [.released entry] }
    | (.error _, t) => { σ with transaction := t }
  | .rollback answers =>
    let (_, t, tried) := σ.transaction.rollback answers
    { σ with transaction := t, events := σ.events ++ tried.map .attempted }
  | .commit requested => match σ.transaction.commit requested with
    | (.ok _, t) => { σ with transaction := t, events := σ.events ++ [.committed] }
    | (.error _, t) => { σ with transaction := t }

/-- Calls one after the other. -/
def run (σ : Acquiring C) (calls : List (AcquisitionCall C)) : Acquiring C := calls.foldl step σ

end Acquiring

/-! ### What is held -/

variable {C : Type}

/-- What one event makes of the entries held before. -/
def heldAfter (entries : List (AcquisitionEntry C)) : AcquisitionEvent C → List (AcquisitionEntry C)
  | .added entry => entries ++ [entry]
  | .released entry => entries.filter (·.id ≠ entry.id)
  | .attempted (entry, closed) => if closed then entries.filter (·.id ≠ entry.id) else entries
  | .committed => []

/-- **The entries that are held**, in the order in which they were added, after all that was
done: those that were not released, not closed, and not given away by a commit. -/
def held (events : List (AcquisitionEvent C)) : List (AcquisitionEntry C) :=
  events.foldl heldAfter []

theorem held_concat (events : List (AcquisitionEvent C)) (e : AcquisitionEvent C) :
    held (events ++ [e]) = heldAfter (held events) e := by
  rw [held, held, List.foldl_append, List.foldl_cons, List.foldl_nil]

/-- What an entry of the transaction was: it was added in the run. -/
theorem added_of_mem_held {events : List (AcquisitionEvent C)} {e : AcquisitionEntry C}
    (h : e ∈ held events) : .added e ∈ events := by
  induction events using List.reverseRecOn with
  | nil => exact nomatch h
  | append_singleton events ev ih =>
    rw [held_concat] at h
    rcases ev with entry | entry | ⟨entry, closed⟩ | _
    · rcases List.mem_append.1 h with h | h
      · exact List.mem_append_left _ (ih h)
      · exact List.mem_append_right _ (List.mem_singleton.1 h ▸ List.mem_singleton_self _)
    · exact List.mem_append_left _ (ih (List.mem_filter.1 h).1)
    · rcases closed with _ | _
      · exact List.mem_append_left _ (ih h)
      · exact List.mem_append_left _ (ih (List.mem_filter.1 h).1)
    · exact nomatch h

/-- An event after which an identity is not held any more. -/
def AcquisitionEvent.Ends (id : ℕ) : AcquisitionEvent C → Prop
  | .added _ => False
  | .released entry => entry.id = id
  | .attempted (entry, closed) => closed = true ∧ entry.id = id
  | .committed => True

/-- An attempt to close an identity. -/
def AcquisitionEvent.Attempts (id : ℕ) : AcquisitionEvent C → Prop
  | .attempted (entry, _) => entry.id = id
  | _ => False

/-- **Nothing is closed that is held no more**: after an entry was closed, or released, or a
commit gave it away, its closer is not called. -/
def Disciplined (events : List (AcquisitionEvent C)) : Prop :=
  events.Pairwise fun e later => ∀ id, e.Ends id → ¬later.Attempts id

/-! ### Attempts -/

section Attempts

variable {answers : ℕ → Bool}

open AcquisitionTransaction

theorem map_fst_attempts (answers : ℕ → Bool) (n : ℕ) (l : List (AcquisitionEntry C)) :
    (attempts answers n l).map (·.1) = l := by
  induction l generalizing n with
  | nil => rfl
  | cons e l ih => rw [attempts, List.map_cons, ih]

/-- The entries that are left when some were closed. -/
theorem foldl_attempted (tried : List (Attempt C)) (entries : List (AcquisitionEntry C)) :
    (tried.map AcquisitionEvent.attempted).foldl heldAfter entries =
      entries.filter fun e => ∀ a ∈ tried, a.2 = true → e.id ≠ a.1.id := by
  induction tried generalizing entries with
  | nil => simp
  | cons a tried ih =>
    obtain ⟨entry, closed⟩ := a
    rw [List.map_cons, List.foldl_cons, ih]
    rcases closed with _ | _
    · rw [heldAfter, if_neg Bool.false_ne_true]
      refine List.filter_congr fun e _ => decide_eq_decide.2 ?_
      rw [List.forall_mem_cons]
      exact (and_iff_right nofun).symm
    · rw [heldAfter, if_pos rfl, List.filter_filter]
      refine List.filter_congr fun e _ => ?_
      rw [← Bool.decide_and]
      refine decide_eq_decide.2 ?_
      rw [List.forall_mem_cons, and_comm]
      exact and_congr_left fun _ => ⟨fun h _ => h, fun h => h rfl⟩

/-- Where identities tell entries apart, those that failed are those that were not closed. -/
theorem kept_iff {entries : List (AcquisitionEntry C)} (hnodup : (entries.map (·.id)).Nodup)
    {tried : List (Attempt C)} (htried : tried.map (·.1) = entries.reverse)
    {e : AcquisitionEntry C} (he : e ∈ entries) :
    ((failed tried).any (e.id == ·.id) = true ↔ (e, false) ∈ tried) ∧
      ((∀ a ∈ tried, a.2 = true → e.id ≠ a.1.id) ↔ (e, false) ∈ tried) := by
  have hmem : ∀ a ∈ tried, a.1 ∈ entries := by
    intro a ha
    have h := List.mem_map_of_mem (f := fun a : Attempt C => a.1) ha
    rw [htried] at h
    exact List.mem_reverse.1 h
  have hsame : ∀ a ∈ tried, e.id = a.1.id → a.1 = e := fun a ha hid =>
    List.inj_on_of_nodup_map hnodup (hmem a ha) he hid.symm
  have hnodup' : (tried.map (·.1)).Nodup := by
    rw [htried]
    exact List.nodup_reverse.2 (List.Nodup.of_map _ hnodup)
  obtain ⟨⟨e', closed⟩, ha, rfl⟩ : ∃ a ∈ tried, a.1 = e :=
    List.mem_map.1 (htried ▸ List.mem_reverse.2 he)
  dsimp only at he hsame ⊢
  have honly : ∀ c, (e', c) ∈ tried → c = closed := by
    intro c hc
    have h := List.inj_on_of_nodup_map hnodup' hc ha rfl
    exact (Prod.mk.inj h).2
  constructor
  · rw [List.any_eq_true]
    constructor
    · rintro ⟨f, hf, hid⟩
      obtain ⟨⟨f', c⟩, hmemf, rfl⟩ := List.mem_map.1 hf
      obtain ⟨hf', hfailed⟩ := List.mem_filter.1 hmemf
      obtain rfl : f' = e' := hsame _ hf' (beq_iff_eq.1 hid)
      obtain rfl : c = false := by simpa using hfailed
      exact hf'
    · intro h
      exact ⟨e', List.mem_map.2 ⟨(e', false), List.mem_filter.2 ⟨h, rfl⟩, rfl⟩, beq_self_eq_true _⟩
  · constructor
    · intro h
      rcases closed with _ | _
      · exact ha
      · exact absurd rfl (h _ ha rfl)
    · rintro h ⟨f, c⟩ hf hc hid
      obtain rfl : f = e' := hsame _ hf hid
      rw [honly _ hf, ← honly _ h] at hc
      exact nomatch hc

end Attempts

/-! ### Every call -/

theorem eraseP_eq_filter {l : List (AcquisitionEntry C)} (h : (l.map (·.id)).Nodup) (i : ℕ) :
    l.eraseP (·.id == i) = l.filter (·.id ≠ i) := by
  induction l with
  | nil => rfl
  | cons e l ih =>
    rw [List.map_cons, List.nodup_cons] at h
    by_cases he : e.id = i
    · rw [List.eraseP_cons_of_pos (by simpa using he), List.filter_cons_of_neg (by simpa using he),
        List.filter_eq_self.2]
      intro f hf
      refine decide_eq_true fun hid => h.1 ?_
      rw [he, ← hid]
      exact List.mem_map_of_mem hf
    · rw [List.eraseP_cons_of_neg (by simpa using he), List.filter_cons_of_pos (by simpa using he),
        ih h.2]

/-- More is done in good order after what was. -/
theorem Disciplined.append {events new : List (AcquisitionEvent C)} (h : Disciplined events)
    (hnew : Disciplined new) (hcross : ∀ e ∈ events, ∀ later ∈ new, ∀ id, e.Ends id → ¬later.Attempts id) :
    Disciplined (events ++ new) :=
  List.pairwise_append.2 ⟨h, hnew, hcross⟩

theorem Disciplined.concat {events : List (AcquisitionEvent C)} (h : Disciplined events)
    {e : AcquisitionEvent C} (he : ∀ id, ¬e.Attempts id) : Disciplined (events ++ [e]) :=
  h.append (List.pairwise_singleton _ _) fun _ _ _ hlater id _ =>
    List.mem_singleton.1 hlater ▸ he id

namespace Acquiring

/-- What holds between two calls. -/
structure Inv (σ : Acquiring C) : Prop where
  entries : σ.transaction.entries = held σ.events
  below : ∀ e ∈ σ.transaction.entries, e.id < σ.next
  nodup : (σ.transaction.entries.map (·.id)).Nodup
  live : ∀ e ∈ σ.transaction.entries, ∀ ev ∈ σ.events, ¬ev.Ends e.id
  fresh : σ.transaction.committed = false → ∀ id, σ.next ≤ id → ∀ ev ∈ σ.events, ¬ev.Ends id
  committed : σ.transaction.committed = true → σ.transaction.entries = []
  disciplined : Disciplined σ.events

theorem inv_init : Inv (init : Acquiring C) where
  entries := rfl
  below _ h := nomatch h
  nodup := List.nodup_nil
  live _ h := nomatch h
  fresh _ _ _ _ h := nomatch h
  committed := nofun
  disciplined := List.Pairwise.nil

variable {σ : Acquiring C}

theorem Inv.add (h : σ.Inv) (hopen : σ.transaction.committed = false) (close : C) :
    Inv ⟨{ σ.transaction with entries := σ.transaction.entries ++ [⟨σ.next, close⟩] }, σ.next + 1,
      σ.events ++ [.added ⟨σ.next, close⟩]⟩ where
  entries := by rw [held_concat, ← h.entries, heldAfter]
  below := by
    intro e he
    rcases List.mem_append.1 he with he | he
    · exact (h.below e he).trans (Nat.lt_succ_self _)
    · rw [List.mem_singleton.1 he]
      exact Nat.lt_succ_self _
  nodup := by
    rw [List.map_append, List.nodup_append]
    refine ⟨h.nodup, List.nodup_singleton _, ?_⟩
    rintro a ha b hb rfl
    obtain ⟨e, he, rfl⟩ := List.mem_map.1 ha
    have hid : e.id = σ.next := List.mem_singleton.1 hb
    exact absurd (h.below e he) (by omega)
  live := by
    intro e he ev hev
    rcases List.mem_append.1 hev with hev | hev
    · rcases List.mem_append.1 he with he | he
      · exact h.live e he ev hev
      · rw [List.mem_singleton.1 he]
        exact h.fresh hopen _ le_rfl ev hev
    · rw [List.mem_singleton.1 hev]
      exact id
  fresh := by
    intro _ id hid ev hev
    rcases List.mem_append.1 hev with hev | hev
    · exact h.fresh hopen id (Nat.le_of_succ_le hid) ev hev
    · rw [List.mem_singleton.1 hev]
      exact fun hends => hends
  committed := fun hc => by
    rw [hopen] at hc
    exact nomatch hc
  disciplined := h.disciplined.concat fun _ ha => ha

/-- What is left of the entries after some of them were given up. -/
theorem Inv.shrink (h : σ.Inv) (hopen : σ.transaction.committed = false)
    {kept : List (AcquisitionEntry C)} {new : List (AcquisitionEvent C)}
    (hkept : kept.Sublist σ.transaction.entries) (hheld : kept = held (σ.events ++ new))
    (hlive : ∀ e ∈ kept, ∀ ev ∈ new, ¬ev.Ends e.id)
    (hbelow : ∀ ev ∈ new, ∀ id, ev.Ends id → id < σ.next)
    (hdisciplined : Disciplined (σ.events ++ new)) :
    Inv ⟨{ σ.transaction with entries := kept }, σ.next, σ.events ++ new⟩ where
  entries := hheld
  below e he := h.below e (hkept.subset he)
  nodup := (hkept.map _).nodup h.nodup
  live := by
    intro e he ev hev
    rcases List.mem_append.1 hev with hev | hev
    · exact h.live e (hkept.subset he) ev hev
    · exact hlive e he ev hev
  fresh := by
    intro _ id hid ev hev hends
    rcases List.mem_append.1 hev with hev | hev
    · exact h.fresh hopen id hid ev hev hends
    · exact absurd (hbelow ev hev id hends) (not_lt.2 hid)
  committed := fun hc => by
    rw [hopen] at hc
    exact nomatch hc
  disciplined := hdisciplined

theorem Inv.release (h : σ.Inv) (hopen : σ.transaction.committed = false)
    {entry : AcquisitionEntry C} (hentry : ∃ e ∈ σ.transaction.entries, e.id = entry.id) :
    Inv ⟨{ σ.transaction with entries := σ.transaction.entries.eraseP (·.id == entry.id) }, σ.next,
      σ.events ++ [.released entry]⟩ := by
  refine h.shrink hopen List.eraseP_sublist ?_ ?_ ?_ (h.disciplined.concat fun _ ha => ha)
  · rw [held_concat, ← h.entries, heldAfter, eraseP_eq_filter h.nodup]
  · intro e he ev hev hends
    rw [eraseP_eq_filter h.nodup] at he
    rw [List.mem_singleton.1 hev] at hends
    exact of_decide_eq_true (List.mem_filter.1 he).2 hends.symm
  · rintro ev hev id hends
    rw [List.mem_singleton.1 hev] at hends
    obtain ⟨e, he, hid⟩ := hentry
    exact hends ▸ hid ▸ h.below e he

theorem Inv.commit (h : σ.Inv) :
    Inv ⟨⟨[], true⟩, σ.next, σ.events ++ [.committed]⟩ where
  entries := by rw [held_concat, heldAfter]
  below _ he := nomatch he
  nodup := List.nodup_nil
  live _ he := nomatch he
  fresh hc := nomatch hc
  committed _ := rfl
  disciplined := h.disciplined.concat fun _ ha => ha

theorem rollback_of_open {t : AcquisitionTransaction C} (hopen : t.committed = false)
    (answers : ℕ → Bool) :
    t.rollback answers =
      (if AcquisitionTransaction.failed (AcquisitionTransaction.attempts answers 0 t.entries.reverse) = []
        then .ok () else .error .cleanup,
        { t with
          entries := t.entries.filter fun entry =>
            (AcquisitionTransaction.failed
              (AcquisitionTransaction.attempts answers 0 t.entries.reverse)).any (entry.id == ·.id) },
        AcquisitionTransaction.attempts answers 0 t.entries.reverse) :=
  if_neg (Bool.eq_false_iff.1 hopen)

/-- The attempts of a rollback, and the entries it keeps. -/
structure RollbackResult [DecidableEq C] (entries : List (AcquisitionEntry C))
    (tried : List (Attempt C)) (result : Except AcquisitionError Unit)
    (kept : List (AcquisitionEntry C)) : Prop where
  /-- From the last that was added to the first. -/
  reverse : tried.map (·.1) = entries.reverse
  /-- In the order they were held in. -/
  kept : kept = entries.filter fun e => (e, false) ∈ tried
  raises_iff : result = .error .cleanup ↔ ∃ a ∈ tried, a.2 = false

variable [DecidableEq C]

theorem Inv.rollbackResult (h : σ.Inv) (hopen : σ.transaction.committed = false)
    (answers : ℕ → Bool) :
    RollbackResult σ.transaction.entries (σ.transaction.rollback answers).2.2
      (σ.transaction.rollback answers).1 (σ.transaction.rollback answers).2.1.entries := by
  have htried := map_fst_attempts answers 0 σ.transaction.entries.reverse
  rw [rollback_of_open hopen]
  refine ⟨htried, List.filter_congr fun e he => ?_, ?_⟩
  · exact Bool.eq_iff_iff.2 (((kept_iff h.nodup htried he).1).trans decide_eq_true_iff.symm)
  · have hfailed : AcquisitionTransaction.failed (AcquisitionTransaction.attempts answers 0
        σ.transaction.entries.reverse) = [] ↔ ∀ a ∈ AcquisitionTransaction.attempts answers 0
        σ.transaction.entries.reverse, a.2 = true := by
      rw [AcquisitionTransaction.failed, List.map_eq_nil_iff, List.filter_eq_nil_iff]
      simp
    by_cases hnone : AcquisitionTransaction.failed (AcquisitionTransaction.attempts answers 0
        σ.transaction.entries.reverse) = []
    · rw [if_pos hnone]
      refine iff_of_false nofun fun ⟨a, ha, hc⟩ => ?_
      rw [hfailed.1 hnone a ha] at hc
      exact nomatch hc
    · rw [if_neg hnone]
      refine iff_of_true rfl ?_
      rw [hfailed] at hnone
      push Not at hnone
      obtain ⟨a, ha, hc⟩ := hnone
      exact ⟨a, ha, Bool.eq_false_iff.2 hc⟩

theorem Inv.rollback (h : σ.Inv) (answers : ℕ → Bool) : (σ.step (.rollback answers)).Inv := by
  rcases hopen : σ.transaction.committed with _ | _
  · have hresult := h.rollbackResult hopen answers
    have hcommitted : (σ.transaction.rollback answers).2.1 =
        { σ.transaction with entries := (σ.transaction.rollback answers).2.1.entries } := by
      rw [rollback_of_open hopen]
    rw [step]
    dsimp only
    rw [hcommitted]
    generalize (σ.transaction.rollback answers).2.2 = tried at hresult ⊢
    generalize (σ.transaction.rollback answers).2.1.entries = kept at hresult ⊢
    obtain ⟨htried, hkept, -⟩ := hresult
    have hmem : ∀ a ∈ tried, a.1 ∈ σ.transaction.entries := fun a ha =>
      List.mem_reverse.1 (htried ▸ List.mem_map_of_mem ha)
    have hnew : ∀ ev ∈ tried.map AcquisitionEvent.attempted, ∃ a ∈ tried, ev = .attempted a :=
      fun ev hev => by
        obtain ⟨a, ha, rfl⟩ := List.mem_map.1 hev
        exact ⟨a, ha, rfl⟩
    refine h.shrink hopen (hkept ▸ List.filter_sublist) ?_ ?_ ?_ (h.disciplined.append ?_ ?_)
    · rw [held, List.foldl_append, foldl_attempted, ← held, ← h.entries, hkept]
      exact List.filter_congr fun e he =>
        decide_eq_decide.2 (kept_iff h.nodup htried he).2.symm
    · intro e he ev hev hends
      obtain ⟨⟨f, closed⟩, ha, rfl⟩ := hnew ev hev
      rw [hkept] at he
      obtain ⟨he, hfailed⟩ := List.mem_filter.1 he
      exact (kept_iff h.nodup htried he).2.2 (of_decide_eq_true hfailed) _ ha hends.1 hends.2.symm
    · rintro ev hev id hends
      obtain ⟨⟨f, closed⟩, ha, rfl⟩ := hnew ev hev
      exact hends.2 ▸ h.below f (hmem _ ha)
    · have hids : (tried.map (·.1.id)).Nodup := by
        have hmap : tried.map (·.1.id) = (tried.map (·.1)).map (·.id) := by rw [List.map_map]; rfl
        rw [hmap, htried, List.map_reverse]
        exact List.nodup_reverse.2 h.nodup
      refine List.pairwise_map.2 ((List.pairwise_map.1 hids).imp ?_)
      rintro ⟨e, c⟩ ⟨f, c'⟩ hne id hends hattempts
      exact hne (hends.2.trans hattempts.symm)
    · intro ev hev later hlater id hends hattempts
      obtain ⟨⟨f, closed⟩, ha, rfl⟩ := hnew later hlater
      obtain rfl : f.id = id := hattempts
      exact h.live f (hmem _ ha) ev hev hends
  · have hsame : σ.step (.rollback answers) = σ := by
      rw [step]
      unfold AcquisitionTransaction.rollback
      rw [hopen]
      simp
    rwa [hsame]

/-- **What every call keeps.** -/
theorem Inv.step (h : σ.Inv) (call : AcquisitionCall C) : (σ.step call).Inv := by
  rcases call with close | entry | answers | requested
  · rw [Acquiring.step, AcquisitionTransaction.add]
    by_cases hc : σ.transaction.committed
    · rw [if_pos hc]
      exact h
    · rw [if_neg hc]
      exact h.add (Bool.eq_false_iff.2 hc) close
  · rw [Acquiring.step, AcquisitionTransaction.release]
    by_cases hc : σ.transaction.committed ∨ ¬σ.transaction.entries.any (·.id == entry.id)
    · rw [if_pos hc]
      exact h
    · rw [if_neg hc]
      rw [not_or, not_not] at hc
      obtain ⟨e, he, hid⟩ := List.any_eq_true.1 hc.2
      exact h.release (Bool.eq_false_iff.2 hc.1) ⟨e, he, beq_iff_eq.1 hid⟩
  · exact h.rollback answers
  · rw [Acquiring.step, AcquisitionTransaction.commit]
    by_cases hc : σ.transaction.committed ∨
        σ.transaction.entries.map (·.close) ≠ requested.map (·.close)
    · rw [if_pos hc]
      exact h
    · rw [if_neg hc]
      exact h.commit

/-- **What a run keeps.** -/
theorem inv_run (calls : List (AcquisitionCall C)) : (run (init : Acquiring C) calls).Inv := by
  have hrun : ∀ (σ : Acquiring C), σ.Inv → (run σ calls).Inv := by
    induction calls with
    | nil => exact fun σ h => h
    | cons call calls ih => exact fun σ h => ih _ (h.step call)
  exact hrun init inv_init

theorem add_ok_iff {σ : Acquiring C} (close : C) :
    (∃ entry, (σ.transaction.add σ.next close).1 = .ok entry ∧ entry.close = close ∧
      held (σ.step (.add close)).events = held σ.events ++ [entry]) ↔ σ.transaction.committed = false := by
  rw [step, AcquisitionTransaction.add]
  by_cases hc : σ.transaction.committed
  · rw [if_pos hc, hc]
    exact iff_of_false (fun ⟨_, h, _⟩ => nomatch h) nofun
  · rw [if_neg hc]
    refine iff_of_true ⟨_, rfl, rfl, ?_⟩ (Bool.eq_false_iff.2 hc)
    rw [held_concat]
    rfl

theorem release_ok_iff {σ : Acquiring C} (hentries : σ.transaction.entries = held σ.events)
    (entry : AcquisitionEntry C) : ((σ.transaction.release entry).1 = .ok () ∧
      held (σ.step (.release entry)).events = σ.transaction.entries.filter (·.id ≠ entry.id)) ↔
        σ.transaction.committed = false ∧ ∃ e ∈ σ.transaction.entries, e.id = entry.id := by
  rw [step, AcquisitionTransaction.release]
  by_cases hc : σ.transaction.committed ∨ ¬σ.transaction.entries.any (·.id == entry.id)
  · rw [if_pos hc]
    refine iff_of_false (fun h => nomatch h.1) fun ⟨hopen, e, he, hid⟩ => hc.elim (fun hcommitted => ?_) fun hnone => ?_
    · rw [hopen] at hcommitted
      cases hcommitted
    · exact hnone (List.any_eq_true.2 ⟨e, he, beq_iff_eq.2 hid⟩)
  · rw [if_neg hc]
    rw [not_or, not_not] at hc
    obtain ⟨e, he, hid⟩ := List.any_eq_true.1 hc.2
    refine iff_of_true ⟨rfl, ?_⟩ ⟨Bool.eq_false_iff.2 hc.1, e, he, beq_iff_eq.1 hid⟩
    rw [held_concat, hentries]
    rfl

theorem commit_ok_iff {t : AcquisitionTransaction C} {requested : List (AcquisitionEntry C)} :
    (t.commit requested).1 = .ok () ↔
      t.committed = false ∧ List.Forall₂ AcquisitionEntry.Equal t.entries requested := by
  have hmap : List.Forall₂ AcquisitionEntry.Equal t.entries requested ↔
      t.entries.map (·.close) = requested.map (·.close) := by
    rw [← List.forall₂_eq_eq_eq, List.forall₂_map_left_iff, List.forall₂_map_right_iff]
    exact Iff.rfl
  rw [hmap, AcquisitionTransaction.commit]
  split
  · next h =>
    refine iff_of_false nofun fun ⟨hopen, hsame⟩ => h.elim (fun hc => ?_) fun hne => hne hsame
    rw [hopen] at hc
    exact nomatch hc
  · next h =>
    rw [not_or, not_not] at h
    exact iff_of_true rfl ⟨Bool.eq_false_iff.2 h.1, h.2⟩

end Acquiring

/-- A transaction that keeps to what is held: all that was done is in good order, it holds what
is held, and the next call of each kind does what it is for. -/
structure KeepsDiscipline [DecidableEq C] (σ : Acquiring C) : Prop where
  disciplined : Disciplined σ.events
  entries : σ.transaction.entries = held σ.events
  /-- What is added until a commit is held from then on. -/
  add_iff : ∀ close, (∃ entry, (σ.transaction.add σ.next close).1 = .ok entry ∧ entry.close = close ∧
    held (σ.step (.add close)).events = held σ.events ++ [entry]) ↔ σ.transaction.committed = false
  /-- What is held is held no more once it was released, and nothing else is released. -/
  release_iff : ∀ entry, ((σ.transaction.release entry).1 = .ok () ∧
    held (σ.step (.release entry)).events = (held σ.events).filter (·.id ≠ entry.id)) ↔
      σ.transaction.committed = false ∧ ∃ e ∈ held σ.events, e.id = entry.id
  rollback : σ.transaction.committed = false → ∀ answers,
    (σ.step (.rollback answers)).events =
        σ.events ++ (σ.transaction.rollback answers).2.2.map .attempted ∧
      Acquiring.RollbackResult (held σ.events) (σ.transaction.rollback answers).2.2
        (σ.transaction.rollback answers).1 (held (σ.step (.rollback answers)).events)
  commit_iff : ∀ requested, (σ.transaction.commit requested).1 = .ok () ↔
    σ.transaction.committed = false ∧ List.Forall₂ AcquisitionEntry.Equal (held σ.events) requested
  /-- Where no two closers are equal, what is committed are the very entries. -/
  commit_same : ∀ requested, (σ.transaction.commit requested).1 = .ok () →
    (∀ e ∈ requested, .added e ∈ σ.events) →
    (∀ e e', .added e ∈ σ.events → .added e' ∈ σ.events → e.Equal e' → e = e') →
      requested = held σ.events

/-- **The transaction closes what it holds, in reverse, and nothing else**: along every run of
calls, whatever the closers answer. -/
theorem transaction_discipline [DecidableEq C] (calls : List (AcquisitionCall C)) :
    KeepsDiscipline ((Acquiring.init : Acquiring C).run calls) := by
  have h := Acquiring.inv_run calls
  obtain ⟨σ, hσ⟩ : ∃ σ, (Acquiring.init : Acquiring C).run calls = σ := ⟨_, rfl⟩
  rw [hσ] at h ⊢
  refine ⟨h.disciplined, h.entries, Acquiring.add_ok_iff, fun entry => ?_, fun hopen answers => ⟨rfl, ?_⟩,
    fun requested => ?_, ?_⟩
  · rw [← h.entries]
    exact Acquiring.release_ok_iff h.entries entry
  · have hresult := h.rollbackResult hopen answers
    have hnext : (σ.transaction.rollback answers).2.1.entries =
        held (σ.step (.rollback answers)).events := (h.rollback answers).entries
    rwa [h.entries, hnext] at hresult
  · rw [← h.entries]
    exact Acquiring.commit_ok_iff
  · intro requested hok hadded hinjective
    have hequal := (Acquiring.commit_ok_iff.1 hok).2
    rw [h.entries] at hequal
    have heq : List.Forall₂ (· = ·) requested (held σ.events) := by
      refine List.forall₂_iff_get.2 ⟨hequal.length_eq.symm, fun n hn hn' => ?_⟩
      have hclose := (List.forall₂_iff_get.1 hequal).2 n hn' hn
      exact (hinjective _ _ (added_of_mem_held (List.get_mem _ _))
        (hadded _ (List.get_mem _ _)) hclose).symm
    exact List.forall₂_eq_eq_eq ▸ heq

end Codex

end YasbLimitora

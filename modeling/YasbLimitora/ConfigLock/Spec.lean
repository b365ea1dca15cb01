import Mathlib
import YasbLimitora.ConfigLock.Invariant

/-!
# What the lease of the configuration guarantees

One specification for each part of `YasbLimitora.ConfigLock.configLease`, by the rules of
`Contract`. An operation that meets its condition keeps the contract
(`YasbLimitora.ConfigLock.keeps_answers`), so that a specification only says which assertion leads
to which. Two assertions carry them: from the creation of its marker on a thread has it `Held`, and
a marker that it has open and read to be of an owner that is gone is `Deletable`.

The primitives that only look need no condition, and one lemma for all of them
(`YasbLimitora.ConfigLock.spec_free`). Those that change something are three: the creation of a
marker, the writing of its record, and the deletion of a file that is open. For the last one the
assertion is built up along the program that takes a marker over: it is opened, its record is read,
the owner is asked for, and the file is found to be the same one still.
-/

namespace YasbLimitora

namespace ConfigLock

variable {I P : Type} [DecidableEq I] {fleet : Fleet I P} {i : I}

/-- The specification of a program of thread `i`. -/
abbrev Spec (fleet : Fleet I P) (i : I) {α : Type} (A : World I P → Prop) (p : Locking α)
    (Q : α → World I P → Prop) : Prop :=
  (contract fleet).Triple i A p Q

abbrev Stable (fleet : Fleet I P) (i : I) (A : World I P → Prop) : Prop := (contract fleet).Stable i A

/-! ### Operations -/

/-- **What an operation keeps** that meets its condition. -/
theorem keeps_answers {o : Op} {w w' : World I P} {r : o.Resp} (hinv : WorldInv fleet w)
    (hlive : Live fleet i w) (hpre : Condition fleet i o w) (h : answers fleet i o w r w') :
    (contract fleet).Keeps i w w' := by
  cases o with
  | waitMutex =>
    rcases h with ⟨-, hnone, rfl⟩ | ⟨-, n, hn, rfl⟩ | ⟨-, rfl⟩
    · exact keeps_mutex hinv hlive (fun j n hj => nomatch hnone.symm.trans hj) _
    · refine keeps_mutex hinv hlive (fun j m hj => ?_) _
      exact (Prod.mk.inj (Option.some.inj (hj.symm.trans hn))).1
    · exact keeps_refl hinv hlive
  | releaseMutex =>
    have hown : ∀ {n}, w.mutex = some (i, n) → ∀ j m, w.mutex = some (j, m) → j = i :=
      fun hn j m hj => (Prod.mk.inj (Option.some.inj (hj.symm.trans hn))).1
    rcases h with ⟨-, ⟨hn, rfl⟩ | ⟨n, hn, rfl⟩⟩ | ⟨-, rfl⟩
    · exact keeps_mutex hinv hlive (hown hn) _
    · exact keeps_mutex hinv hlive (hown hn) _
    · exact keeps_refl hinv hlive
  | closeMutex =>
    rcases h with rfl | ⟨⟨n, hn⟩, rfl⟩
    · exact keeps_refl hinv hlive
    · exact keeps_mutex hinv hlive
        (fun j m hj => (Prod.mk.inj (Option.some.inj (hj.symm.trans hn))).1) _
  | createFile access =>
    rcases r with _ | handle
    · obtain rfl : w' = w := by cases access <;> exact h
      exact keeps_refl hinv hlive
    · cases access with
      | parent =>
        obtain ⟨-, rfl⟩ := h
        exact keeps_setHandle hinv hlive _ _
      | createNew =>
        obtain ⟨-, hleaf, f, identity, hnone, rfl⟩ := h
        exact keeps_create hinv hlive hnone hleaf identity handle
      | openExisting =>
        obtain ⟨-, f, file, -, -, -, rfl⟩ := h
        exact keeps_setHandle hinv hlive _ _
  | writeFile handle data =>
    rcases h with ⟨f, file, n, hopens, hn, -, rfl⟩ | ⟨-, rfl⟩
    · obtain ⟨hc, hmarker⟩ := hpre f file hopens
      refine keeps_setFile hinv hlive hopens.2 rfl (Or.inl hc) (Or.inr ⟨_, hc ▸ hmarker, ?_⟩)
      exact List.prefix_append_right_inj _ |>.2 (List.take_prefix n data)
    · exact keeps_refl hinv hlive
  | setDisposition handle =>
    rcases h with ⟨f, file, hopens, rfl⟩ | ⟨-, rfl⟩
    · exact keeps_setFile hinv hlive hopens.2 rfl (hpre f file hopens) (hinv.written f file hopens.2)
    · exact keeps_refl hinv hlive
  | close handle =>
    rcases h with rfl | ⟨-, rfl⟩
    · exact keeps_setHandle hinv hlive _ _
    · exact keeps_refl hinv hlive
  | queryInfo handle =>
    obtain ⟨rfl, -⟩ := h
    exact keeps_refl hinv hlive
  | readFile handle =>
    obtain ⟨rfl, -⟩ := h
    exact keeps_refl hinv hlive
  | processToken pid =>
    obtain ⟨rfl, -⟩ := h
    exact keeps_refl hinv hlive
  | _ =>
    obtain rfl := h
    exact keeps_refl hinv hlive

/-- **The specification of an operation**, from a stable assertion that has its condition. -/
theorem spec_perform {A : World I P → Prop} {o : Op} {B : o.Resp → World I P → Prop}
    (hA : Stable fleet i A) (hpre : ∀ w, A w → Condition fleet i o w)
    (hB : ∀ w r w', WorldInv fleet w → Live fleet i w → A w → answers fleet i o w r w' → B r w') :
    Spec fleet i A (perform o) B :=
  .perform hA (fun w _ _ hw => hpre w hw) fun w r w' hinv hlive hw h =>
    ⟨keeps_answers hinv hlive (hpre w hw) h, hB w r w' hinv hlive hw h⟩

theorem stable_true : Stable fleet i fun _ => True := fun _ _ _ _ _ _ _ _ => trivial

/-- The operations that have no condition. -/
def Op.isFree : Op → Bool
  | .writeFile _ _ | .setDisposition _ | .body _ => false
  | _ => true

omit [DecidableEq I] in
theorem condition_of_isFree {o : Op} (ho : o.isFree = true) (w : World I P) : Condition fleet i o w := by
  cases o with
  | writeFile handle data => cases ho
  | setDisposition handle => cases ho
  | body mode => cases ho
  | _ => exact trivial

/-- An operation that has no condition, and whose answer tells nothing. -/
theorem spec_free {A : World I P → Prop} {o : Op} (ho : o.isFree = true) :
    Spec fleet i A (perform o) fun _ _ => True :=
  (spec_perform stable_true (fun w _ => condition_of_isFree ho w) fun _ _ _ _ _ _ _ => trivial).conseq
    (fun _ _ _ _ => trivial) fun _ _ _ _ h => h

theorem spec_safeClose {A : World I P → Prop} (handle : ℕ) :
    Spec fleet i A (safeClose handle) fun _ _ => True :=
  .bind (spec_free rfl) fun _ => .ret fun _ _ _ _ => trivial

/-! ### Assertions -/

/-- An assertion about what a handle is open on. -/
structure Kept (fleet : Fleet I P) (i : I) (handle : ℕ) (A : World I P → Prop) : Prop where
  stable : Stable fleet i A
  opened : ∀ w, A w → w.handles i handle ≠ none
  setHandle : ∀ w handle' t, handle' ≠ handle → A w → A (w.setHandle i handle' t)

/-- A file of some property is open. -/
def OpenOn (i : I) (handle : ℕ) (S : World I P → ℕ → LockFile I → Prop) (w : World I P) : Prop :=
  ∃ f file, w.Opens i handle f file ∧ S w f file

/-- Such assertions are kept whose property the others keep, and handles have no part in. -/
theorem kept_openOn {handle : ℕ} {S : World I P → ℕ → LockFile I → Prop}
    (hrely : ∀ w w' f file file', Rely fleet i w w' → Live fleet i w → Live fleet i w' →
      w.files f = some file → w'.files f = some file' → file'.creator = file.creator →
      S w f file → S w' f file')
    (hset : ∀ w handle' t f file, S w f file → S (w.setHandle i handle' t) f file) :
    Kept fleet i handle (OpenOn i handle S) where
  stable w w' hr _ _ hlive hlive' := by
    have hr : Rely fleet i w w' := hr
    rintro ⟨f, file, ⟨hh, hf⟩, hS⟩
    obtain ⟨file', hf', hc⟩ := hr.creators f file hf
    refine ⟨f, file', ⟨?_, hf'⟩, hrely w w' f file file' hr hlive hlive' hf hf' hc hS⟩
    rw [hr.handles hlive hlive']
    exact hh
  opened w := by
    rintro ⟨f, file, ⟨hh, -⟩, -⟩ hnone
    exact nomatch hnone.symm.trans hh
  setHandle w handle' t hne := by
    rintro ⟨f, file, ⟨hh, hf⟩, hS⟩
    exact ⟨f, file, ⟨(setHandle_other hne.symm t).trans hh, hf⟩, hset w handle' t f file hS⟩

/-- A file is open that is the thread's own, or has no owner. -/
def Deletable (fleet : Fleet I P) (i : I) (handle : ℕ) : World I P → Prop :=
  OpenOn i handle fun w _ file => file.creator = i ∨ w.phase (fleet.proc file.creator) = .dead

theorem kept_deletable (handle : ℕ) : Kept fleet i handle (Deletable fleet i handle) := by
  refine kept_openOn (fun w w' f file file' hr _ _ _ _ hc hS => ?_) fun _ _ _ _ _ h => h
  rw [hc]
  exact hS.imp_right (hr.ages _).dead

/-- The thread has its marker open, with these bytes in it. -/
def Held (i : I) (handle : ℕ) (content : Bytes) : World I P → Prop :=
  OpenOn i handle fun w f file => w.leaf = some f ∧ file.creator = i ∧ file.deleted = false ∧
    file.content = content

theorem kept_held (handle : ℕ) (content : Bytes) : Kept fleet i handle (Held i handle content) := by
  refine kept_openOn (fun w w' f file file' hr hlive hlive' hf hf' _ hS => ?_) fun _ _ _ _ _ h => h
  obtain ⟨hleaf, hown, hd, hcontent⟩ := hS
  obtain rfl := Option.some.inj ((hr.own f file hf hown hlive hlive').symm.trans hf')
  exact ⟨hr.leaf f file hleaf hf hown hd hlive hlive', hown, hd, hcontent⟩

/-- What was read of the file that is open tells its creator, if it tells any. -/
def Known (fleet : Fleet I P) (i : I) (handle : ℕ) (data : Bytes) : World I P → Prop :=
  OpenOn i handle fun _ _ file => ∀ pid token, decodeMarker data = some (pid, token) →
    fleet.pid (fleet.proc file.creator) = pid ∧ tokenText fleet file.creator = token

theorem kept_known (handle : ℕ) (data : Bytes) : Kept fleet i handle (Known fleet i handle data) := by
  refine kept_openOn (fun w w' f file file' _ _ _ _ _ hc hS => ?_) fun _ _ _ _ _ h => h
  rw [hc]
  exact hS

/-- A file is open. -/
def Opened (i : I) (handle : ℕ) : World I P → Prop := OpenOn i handle fun _ _ _ => True

theorem kept_opened (handle : ℕ) : Kept fleet i handle (Opened i handle) :=
  kept_openOn (fun _ _ _ _ _ _ _ _ _ _ _ _ => trivial) fun _ _ _ _ _ _ => trivial

omit [DecidableEq I] in
theorem Held.deletable {handle : ℕ} {content : Bytes} {w : World I P} (h : Held i handle content w) :
    Deletable fleet i handle w := by
  obtain ⟨f, file, hopens, -, hown, -⟩ := h
  exact ⟨f, file, hopens, Or.inl hown⟩

/-! ### The mutex -/

/-- The thread owns the mutex. -/
def Owns (i : I) (w : World I P) : Prop := ∃ n, w.mutex = some (i, n)

theorem stable_owns : Stable fleet i (Owns (P := P) i) := by
  rintro w w' hr _ _ hlive hlive' ⟨n, hn⟩
  have hr : Rely fleet i w w' := hr
  exact ⟨n, hr.mutex n hn hlive hlive'⟩

theorem spec_acquireName : Spec fleet i (fun _ => True) acquireName
    fun r w => r = .lease → Owns i w := by
  unfold acquireName
  refine .bind (spec_free rfl) fun created => .ite (fun _ => ?_) fun _ => .ret fun _ _ _ _ => nofun
  refine .bind (B := fun r w => (r = .signaled ∨ r = .abandoned) → Owns i w)
    (spec_perform stable_true (fun _ _ => trivial) fun w r w' _ _ _ h => ?_) fun result => ?_
  · rcases h with ⟨-, -, rfl⟩ | ⟨-, n, -, rfl⟩ | ⟨hr, -⟩
    · exact fun _ => ⟨0, rfl⟩
    · exact fun _ => ⟨n + 1, rfl⟩
    · rintro (rfl | rfl)
      · exact absurd hr (by simp)
      · exact absurd hr (by simp)
  · rcases result with _ | _ | _ | _
    · exact .ret fun _ _ _ h _ => h (Or.inl rfl)
    · exact .ret fun _ _ _ h _ => h (Or.inr rfl)
    · exact .bind (spec_free rfl)
        fun _ => .ret fun _ _ _ _ => nofun
    · exact .bind (spec_free rfl)
        fun _ => .ret fun _ _ _ _ => nofun

/-- **The mutex is owned** where its lease is. -/
theorem spec_acquireGuard (rounds : ℕ) : Spec fleet i (fun _ => True) (acquireGuard rounds)
    fun r w => r = .lease → Owns i w := by
  induction rounds with
  | zero => exact .ret fun _ _ _ _ => nofun
  | succ rounds ih =>
    refine .bind spec_acquireName fun acquired => ?_
    rcases acquired with _ | _ | _
    · exact .ret fun _ _ _ h => h
    · refine .bind (spec_free rfl)
        fun usable => .ite (fun _ => .ret fun _ _ _ _ => nofun) fun _ => ih
    · exact .ret fun _ _ _ h => h

theorem spec_anyOf {o : Locking Bool} (ho : Spec fleet i (fun _ => True) o fun _ _ => True) (tries : ℕ) :
    Spec fleet i (fun _ => True) (anyOf o tries) fun _ _ => True := by
  induction tries with
  | zero => exact .ret fun _ _ _ _ => trivial
  | succ tries ih => exact .bind ho fun _ => .ite (fun _ => .ret fun _ _ _ _ => trivial) fun _ => ih

theorem spec_leaveGuard : Spec fleet i (fun _ => True) leaveGuard fun _ _ => True := by
  refine .bind (spec_anyOf (spec_free rfl) _) fun _ => ?_
  refine .bind (spec_anyOf (spec_free rfl) _) fun _ => ?_
  refine .ite (fun _ => .ite (fun _ => ?_) fun _ => ?_) fun _ => ?_
  · exact .ret fun _ _ _ _ => trivial
  · exact .ret fun _ _ _ _ => trivial
  · exact .ret fun _ _ _ _ => trivial

/-! ### Primitives of the marker -/

section Primitives

variable {handle : ℕ} {A : World I P → Prop}

/-- An operation that changes nothing, and of which nothing is asked. -/
theorem spec_look {o : Op} (hA : Stable fleet i A) (ho : o.isFree = true)
    (hsame : ∀ w r w', answers fleet i o w r w' → w' = w) :
    Spec fleet i A (perform o) fun _ => A :=
  spec_perform hA (fun w _ => condition_of_isFree ho w) fun w r w' _ _ hw h => hsame w r w' h ▸ hw

theorem spec_queryInfo (hA : Stable fleet i A) (h : ℕ) :
    Spec fleet i A (perform (.queryInfo h)) fun _ => A :=
  spec_look hA rfl fun _ _ _ h => h.1

theorem spec_finalPath (hA : Stable fleet i A) (h : ℕ) :
    Spec fleet i A (perform (.finalPath h)) fun _ => A :=
  spec_look hA rfl fun _ _ _ h => h

theorem spec_regularIdentity (hA : Stable fleet i A) (h : ℕ) :
    Spec fleet i A (regularIdentity h) fun _ => A := by
  refine .bind (spec_queryInfo hA h) fun info => ?_
  rcases info with _ | info
  · exact .ret fun _ _ _ hw => hw
  · refine .ite (fun _ => .ret fun _ _ _ hw => hw) fun _ => ?_
    exact .bind (spec_finalPath hA h) fun _ => .ret fun _ _ _ hw => hw

theorem spec_existingIdentity (hA : Stable fleet i A) (h : ℕ) :
    Spec fleet i A (existingIdentity h) fun _ => A := by
  refine .bind (spec_queryInfo hA h) fun info => ?_
  rcases info with _ | info
  · exact .ret fun _ _ _ hw => hw
  · exact .bind (spec_finalPath hA h) fun _ => .ret fun _ _ _ hw => hw

theorem spec_verifyParent : Spec fleet i (fun _ => True) verifyParent fun _ _ => True := by
  refine .bind (spec_free rfl) fun opened => ?_
  rcases opened with _ | h
  · exact .ret fun _ _ _ _ => trivial
  refine .bind (B := fun _ _ => True) (.bind (spec_queryInfo stable_true h) fun info => ?_) fun _ => ?_
  · rcases info with _ | info
    · exact .ret fun _ _ _ _ => trivial
    · exact .bind (spec_finalPath stable_true h) fun _ => .ret fun _ _ _ _ => trivial
  · refine .ite (fun _ => .ret fun _ _ _ _ => trivial) fun _ => ?_
    exact .bind (spec_safeClose h) fun _ => .ret fun _ _ _ _ => trivial

/-- **A new marker** is held, and empty. -/
theorem spec_createExclusive : Spec fleet i (fun _ => True) createExclusive
    fun r w => ∀ hold, r = some hold → Held i hold.handle [] w := by
  refine .bind (B := fun r w => ∀ h, r = some h → Held i h [] w)
    (spec_perform stable_true (fun _ _ => trivial) fun w r w' _ _ _ h => ?_) fun opened => ?_
  · rintro h' rfl
    obtain ⟨-, -, f, identity, -, rfl⟩ := h
    exact ⟨f, _, ⟨setHandle_self h' _, Function.update_self _ _ _⟩, rfl, rfl, rfl, rfl⟩
  rcases opened with _ | h
  · exact .ret fun _ _ _ _ _ => nofun
  refine .bind ((spec_regularIdentity (kept_held h []).stable h).conseq (fun _ _ _ hw => hw h rfl)
    fun _ _ _ _ hw => hw) fun identity => ?_
  rcases identity with _ | identity
  · exact .bind (spec_safeClose h)
      fun _ => .ret fun _ _ _ _ _ => nofun
  · exact .ret fun _ _ _ hw hold hhold => Option.some.inj hhold ▸ hw

/-- A marker that is opened is open. -/
theorem spec_openMarker : Spec fleet i (fun _ => True) openMarker
    fun r w => ∀ hold, r = some hold → Opened i hold.handle w := by
  refine .bind (B := fun r w => ∀ h, r = some h → Opened i h w)
    (spec_perform stable_true (fun _ _ => trivial) fun w r w' _ _ _ h => ?_) fun opened => ?_
  · rintro h' rfl
    obtain ⟨-, f, file, -, hf, -, rfl⟩ := h
    exact ⟨f, file, ⟨setHandle_self h' _, hf⟩, trivial⟩
  rcases opened with _ | h
  · exact .ret fun _ _ _ _ _ => nofun
  refine .bind ((spec_existingIdentity (kept_opened h).stable h).conseq (fun _ _ _ hw => hw h rfl)
    fun _ _ _ _ hw => hw) fun identity => ?_
  rcases identity with _ | identity
  · exact .bind (spec_safeClose h)
      fun _ => .ret fun _ _ _ _ _ => nofun
  · exact .ret fun _ _ _ hw hold hhold => Option.some.inj hhold ▸ hw

/-- **What is read of a marker** tells its creator: it is a part of what the creator writes. -/
theorem spec_readMarker (h : ℕ) : Spec fleet i (Opened i h) (readMarker h)
    fun r w => ∀ data, r = some data → Known fleet i h data w := by
  refine .bind (B := fun r w => ∀ data, r = some data → Known fleet i h data w)
    (spec_perform (kept_opened h).stable (fun _ _ => trivial) fun w r w' hinv _ _ hstep => ?_) fun read => ?_
  · rintro data rfl
    obtain ⟨rfl, hread⟩ := hstep
    obtain ⟨f, file, hopens, rfl⟩ := hread data rfl
    refine ⟨f, file, hopens, fun pid token hdecode => ?_⟩
    rcases hinv.written f file hopens.2 with hnil | ⟨marker, hmarker, hpart⟩
    · rw [hnil] at hdecode
      exact nomatch hdecode
    · exact owner_of_decodeMarker hmarker hdecode ((List.take_prefix _ _).trans hpart)
  rcases read with _ | data
  · exact .ret fun _ _ _ _ _ => nofun
  · refine .ret fun w _ _ hw data' hdata => ?_
    split at hdata
    · cases hdata
    · exact hw data' hdata

theorem spec_identityReopen (hA : Kept fleet i handle A) (expected : Identity) :
    Spec fleet i A (identityReopen expected) fun _ => A := by
  refine .bind (B := fun r w => A w ∧ ∀ probe, r = some probe → probe ≠ handle)
    (spec_perform hA.stable (fun _ _ => trivial) fun w r w' _ _ hw h => ?_) fun opened => ?_
  · rcases r with _ | probe
    · obtain rfl : w' = w := h
      exact ⟨hw, fun _ => nofun⟩
    · obtain ⟨hfree, f, file, -, -, -, rfl⟩ := h
      have hne : probe ≠ handle := fun heq => hA.opened w hw (heq ▸ hfree)
      exact ⟨hA.setHandle w probe _ hne hw, fun _ h => Option.some.inj h ▸ hne⟩
  rcases opened with _ | probe
  · exact .ret fun _ _ _ hw => hw.1
  have hstable : Stable fleet i fun w => A w ∧ ∀ probe', some probe = some probe' → probe' ≠ handle :=
    fun w w' h₁ h₂ h₃ h₄ h₅ hw => ⟨hA.stable w w' h₁ h₂ h₃ h₄ h₅ hw.1, hw.2⟩
  refine .bind (spec_regularIdentity hstable probe) fun identity => ?_
  refine .bind (B := fun _ => A) (spec_perform hstable (fun _ _ => trivial) fun w r w' _ _ hw h => ?_)
    fun closed => .ret fun _ _ _ hw => hw
  rcases h with rfl | ⟨-, rfl⟩
  · exact hA.setHandle w probe none (hw.2 probe rfl) hw.1
  · exact hw.1

/-- **A deletion** is of a file of one's own, or of one that has no owner. -/
theorem spec_deleteHeld (hold : MarkerHold) :
    Spec fleet i (Deletable fleet i hold.handle) (deleteHeld hold) fun _ _ => True := by
  have hkept : Kept fleet i hold.handle (Deletable fleet i hold.handle) := kept_deletable hold.handle
  refine .bind (spec_identityReopen hkept hold.identity) fun witnessed => .ite (fun _ => ?_) fun _ =>
    .ret fun _ _ _ _ => trivial
  refine .bind (spec_queryInfo hkept.stable hold.handle) fun info => ?_
  rcases info with _ | info
  · exact .ret fun _ _ _ _ => trivial
  refine .ite (fun _ => spec_perform hkept.stable ?_ fun _ _ _ _ _ _ _ => trivial) fun _ =>
    .ret fun _ _ _ _ => trivial
  rintro w ⟨f, file, ⟨hh, hf⟩, hown⟩ f' file' ⟨hh', hf'⟩
  obtain rfl := Target.file.inj (Option.some.inj (hh.symm.trans hh'))
  obtain rfl := Option.some.inj (hf.symm.trans hf')
  exact hown

/-! ### The marker -/

/-- What is written to a held marker is what makes the marker of its creator of it. -/
theorem spec_writeAll (fuel : ℕ) {h : ℕ} (content data : Bytes)
    (hmarker : encodeMarker (fleet.pid (fleet.proc i)) (tokenText fleet i) = some (content ++ data)) :
    Spec fleet i (Held i h content) (writeAll h fuel data) fun _ w => ∃ content, Held i h content w := by
  induction fuel generalizing content data with
  | zero => exact .ret fun _ _ _ hw => ⟨content, hw⟩
  | succ fuel ih =>
    refine .ite (fun _ => .ret fun _ _ _ hw => ⟨content, hw⟩) fun _ => ?_
    refine .bind (B := fun n w => Held i h (content ++ data.take n) w ∨ n = 0 ∧ ∃ content, Held i h content w)
      (spec_perform (kept_held h content).stable ?_ fun w r w' _ _ hw hstep => ?_) fun n => ?_
    · rintro w ⟨f, file, ⟨hh, hf⟩, -, hown, -, rfl⟩ f' file' ⟨hh', hf'⟩
      obtain rfl := Target.file.inj (Option.some.inj (hh.symm.trans hh'))
      obtain rfl := Option.some.inj (hf.symm.trans hf')
      exact ⟨hown, hmarker⟩
    · obtain ⟨f, file, ⟨hh, hf⟩, hleaf, hown, hd, rfl⟩ := hw
      rcases hstep with ⟨f', file', n, ⟨hh', hf'⟩, -, hr, rfl⟩ | ⟨rfl, rfl⟩
      · obtain rfl := Target.file.inj (Option.some.inj (hh.symm.trans hh'))
        obtain rfl := Option.some.inj (hf.symm.trans hf')
        have hheld : Held i h (file.content ++ data.take n)
            (w.setFile f { file with content := file.content ++ data.take n }) :=
          ⟨f, _, ⟨hh, Function.update_self _ _ _⟩, hleaf, hown, hd, rfl⟩
        rcases hr with rfl | rfl
        · exact Or.inl hheld
        · exact Or.inr ⟨rfl, _, hheld⟩
      · exact Or.inr ⟨rfl, file.content, f, file, ⟨hh, hf⟩, hleaf, hown, hd, rfl⟩
    · refine .ite (fun _ => .ret fun _ _ _ hw => ?_) fun hn => ?_
      · exact hw.elim (fun hw => ⟨_, hw⟩) fun hw => hw.2
      · rw [not_or] at hn
        refine (ih (content ++ data.take n) (data.drop n) ?_).conseq
          (fun w _ _ hw => hw.resolve_right fun hw => hn.1 hw.1) fun _ _ _ _ hw => hw
        rw [List.append_assoc, List.take_append_drop]
        exact hmarker

/-- The thread has its marker open. -/
def Holds (i : I) (handle : ℕ) (w : World I P) : Prop := ∃ content, Held i handle content w

theorem stable_holds (h : ℕ) : Stable fleet i (Holds (P := P) i h) := by
  rintro w w' h₁ h₂ h₃ h₄ h₅ ⟨content, hw⟩
  exact ⟨content, (kept_held h content).stable w w' h₁ h₂ h₃ h₄ h₅ hw⟩

theorem spec_recordOwner (h : ℕ) :
    Spec fleet i (Held i h []) (recordOwner (fleet.pid (fleet.proc i)) h) fun _ => Holds i h := by
  refine .bind (B := fun r w => Held i h [] w ∧ ∀ t, r = .token t → fleet.token (fleet.proc i) = t)
    (spec_perform (kept_held h []).stable (fun _ _ => trivial) fun w r w' _ hlive hw hstep => ?_) fun token => ?_
  · obtain ⟨rfl, htruth⟩ := hstep
    refine ⟨hw, ?_⟩
    rintro t rfl
    exact htruth (fleet.proc i) rfl hlive
  rcases token with t | _ | _
  · refine .conseq (.given (φ := fleet.token (fleet.proc i) = t) (A := Held i h []) fun ht => ?_)
      (fun _ _ _ hw => ⟨hw.2 t rfl, hw.1⟩) fun _ _ _ _ hw => hw
    subst ht
    dsimp only
    split
    · exact .ret fun _ _ _ hw => ⟨[], hw⟩
    · rename_i data hdata
      refine .ite (fun _ => .ret fun _ _ _ hw => ⟨[], hw⟩) fun _ => ?_
      refine .bind (spec_writeAll data.length [] data hdata) fun written => ?_
      refine .ite (fun _ => ?_) fun _ => .ret fun _ _ _ hw => hw
      exact spec_look (stable_holds h) rfl fun _ _ _ hstep => hstep
  · exact .ret fun _ _ _ hw => ⟨[], hw.1⟩
  · exact .ret fun _ _ _ hw => ⟨[], hw.1⟩

/-- What is answered of an owner that is gone. -/
def TellsGone (token : Text) (r : ProcessToken) : Prop :=
  r = .missing ∨ ∃ t, r = .token t ∧ Text.ofString t ≠ token

/-- **An owner that is gone** leaves a file that may be deleted. -/
theorem spec_ownerGone (h ownPid : ℕ) (data : Bytes) :
    Spec fleet i (Known fleet i h data) (ownerGone ownPid data)
      fun gone w => gone = true → Deletable fleet i h w := by
  unfold ownerGone
  split
  · exact .ret fun _ _ _ _ => nofun
  rename_i pid token hdecode
  refine .ite (fun _ => .ret fun _ _ _ _ => nofun) fun _ => ?_
  have hstep : ∀ (w : World I P) (r : ProcessToken) (w' : World I P), WorldInv fleet w → Live fleet i w →
      Known fleet i h data w → answers fleet i (.processToken pid) w r w' → TellsGone token r →
      Deletable fleet i h w' := by
    rintro w r w' hinv - ⟨f, file, hopens, hknown⟩ ⟨rfl, htruth⟩ hr
    obtain ⟨hpid, htoken⟩ := hknown pid token hdecode
    refine ⟨f, file, hopens, Or.inr ?_⟩
    have hnot : w'.phase (fleet.proc file.creator) ≠ .alive := by
      intro halive
      rcases hr with rfl | ⟨t, rfl, hne⟩
      · exact htruth _ hpid halive
      · exact hne (htoken ▸ congrArg Text.ofString (htruth _ hpid halive).symm)
    have hborn := hinv.born f file hopens.2
    rcases hphase : w'.phase (fleet.proc file.creator) with _ | _ | _
    · exact absurd hphase hborn
    · exact absurd hphase hnot
    · rfl
  refine .bind (B := fun r w => TellsGone token r → Deletable fleet i h w)
    (spec_perform (kept_known h data).stable (fun _ _ => trivial) hstep) fun current => ?_
  rcases current with t | _ | _
  · exact .ret fun _ _ _ hw hne => hw (Or.inr ⟨t, rfl, of_decide_eq_true hne⟩)
  · exact .ret fun _ _ _ hw _ => hw (Or.inl rfl)
  · exact .ret fun _ _ _ _ => nofun

theorem spec_reclaimable (h ownPid : ℕ) :
    Spec fleet i (Opened i h) (reclaimable ownPid h) fun gone w => gone = true → Deletable fleet i h w := by
  refine .bind (spec_readMarker h) fun read => ?_
  rcases read with _ | data
  · exact .ret fun _ _ _ _ => nofun
  · exact (spec_ownerGone h ownPid data).conseq (fun _ _ _ hw => hw data rfl) fun _ _ _ _ hw => hw

theorem spec_reclaim (ownPid parent : ℕ) :
    Spec fleet i (fun _ => True) (reclaim ownPid parent) fun _ _ => True := by
  refine .bind spec_openMarker fun opened => ?_
  rcases opened with _ | hold
  · exact .bind (spec_safeClose parent) fun _ => .ret fun _ _ _ _ => trivial
  refine .bind ((spec_reclaimable hold.handle ownPid).conseq (fun _ _ _ hw => hw hold rfl)
    fun _ _ _ _ hw => hw) fun gone => ?_
  have hrest : ∀ deleted : Bool, Spec fleet i (fun _ => True) (if deleted then do
      let closed : Bool ← perform (.close hold.handle)
      if closed then return .again
      else
        safeClose parent
        return .failed .releaseFailed
    else do
      safeClose hold.handle
      safeClose parent
      return .failed .busy : Locking Reclaimed) fun _ _ => True := by
    refine fun deleted => .ite (fun _ => ?_) fun _ => ?_
    · refine .bind (spec_free rfl) fun closed => .ite (fun _ => .ret fun _ _ _ _ => trivial) fun _ => ?_
      exact .bind (spec_safeClose parent) fun _ => .ret fun _ _ _ _ => trivial
    · refine .bind (spec_safeClose hold.handle) fun _ => ?_
      exact .bind (spec_safeClose parent) fun _ => .ret fun _ _ _ _ => trivial
  rcases gone
  · exact (hrest false).conseq (fun _ _ _ _ => trivial) fun _ _ _ _ hw => hw
  · exact .bind ((spec_deleteHeld hold).conseq (fun _ _ _ hw => hw rfl) fun _ _ _ _ hw => hw) hrest

/-- **A lease by the marker** holds it. -/
theorem spec_acquireMarker (parent rounds : ℕ) :
    Spec fleet i (fun _ => True) (acquireMarker (fleet.pid (fleet.proc i)) parent rounds)
      fun r w => ∀ lease, r = .ok lease → Holds i lease.hold.handle w := by
  induction rounds with
  | zero => exact .bind (spec_safeClose parent) fun _ => .ret fun _ _ _ _ _ => nofun
  | succ rounds ih =>
    refine .bind (spec_free rfl) fun usable => .ite (fun _ => ?_) fun _ => ?_
    · exact .bind (spec_safeClose parent) fun _ => .ret fun _ _ _ _ _ => nofun
    refine .bind spec_createExclusive fun created => ?_
    rcases created with _ | hold
    · refine .bind ((spec_reclaim _ parent).conseq (fun _ _ _ _ => trivial) fun _ _ _ _ hw => hw) fun r => ?_
      rcases r with _ | error
      · exact ih
      · exact .ret fun _ _ _ _ _ => nofun
    · refine .bind ((spec_recordOwner hold.handle).conseq (fun _ _ _ hw => hw hold rfl)
        fun _ _ _ _ hw => hw) fun recorded => .ite (fun _ => ?_) fun _ => ?_
      · exact .ret fun _ _ _ hw lease hlease => Except.ok.inj hlease ▸ hw
      · refine .bind (spec_safeClose hold.handle) fun _ => ?_
        exact .bind (spec_safeClose parent) fun _ => .ret fun _ _ _ _ _ => nofun

theorem spec_fallbackLease (rounds : ℕ) :
    Spec fleet i (fun _ => True) (fallbackLease (fleet.pid (fleet.proc i)) rounds)
      fun r w => ∀ lease, r = .ok lease → Holds i lease.hold.handle w := by
  refine .bind spec_verifyParent fun parent => ?_
  rcases parent with _ | parent
  · exact .ret fun _ _ _ _ _ => nofun
  · exact spec_acquireMarker parent rounds

theorem spec_closeMarkerLease (lease : MarkerLease) :
    Spec fleet i (Holds i lease.hold.handle) (closeMarkerLease lease) fun _ _ => True := by
  refine .bind ((spec_deleteHeld lease.hold).conseq (fun _ _ _ ⟨_, hw⟩ => hw.deletable)
    fun _ _ _ _ hw => hw) fun _ => ?_
  exact .bind (spec_free rfl) fun _ => .bind (spec_free rfl) fun _ => .ret fun _ _ _ _ => trivial

/-! ### The lease -/

/-- **The lease** is asked for, and given up, from anything to anything: what is promised is in
the conditions that its operations meet. -/
theorem spec_configLease : Spec fleet i (fun _ => True) (configLease (fleet.pid (fleet.proc i)))
    fun _ _ => True := by
  refine .bind (spec_free rfl) fun rounds => .bind (spec_acquireGuard (rounds + 1)) fun acquired => ?_
  rcases acquired with _ | _ | _
  · refine .bind (B := fun _ _ => True) ?_ fun _ => spec_leaveGuard
    exact (spec_perform (o := .body .guard) stable_owns (fun _ hw => hw) fun _ _ _ _ _ _ _ => trivial).conseq
      (fun _ _ _ hw => hw rfl) fun _ _ _ _ hw => hw
  · exact .ret fun _ _ _ _ => trivial
  · refine .bind ((spec_fallbackLease rounds).conseq (fun _ _ _ _ => trivial) fun _ _ _ _ hw => hw)
      fun r => ?_
    rcases r with error | lease
    · exact .ret fun _ _ _ _ => trivial
    refine .bind (B := fun _ => Holds i lease.hold.handle) ?_ fun _ => ?_
    · refine (spec_perform (o := .body .marker) (stable_holds lease.hold.handle) ?_
        fun w r w' _ _ hw hstep => ?_).conseq (fun _ _ _ hw => hw lease rfl) fun _ _ _ _ hw => hw
      · rintro w ⟨content, f, file, ⟨-, hf⟩, hleaf, hown, hd, -⟩
        exact ⟨f, file, hleaf, hf, hown, hd⟩
      · obtain rfl : w' = w := hstep
        exact hw
    · exact .bind (spec_closeMarkerLease lease) fun _ => .ret fun _ _ _ _ => trivial

end Primitives

end ConfigLock

end YasbLimitora

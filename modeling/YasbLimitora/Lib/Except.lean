import Mathlib

/-!
# Computations that may fail

How a result of `Except` was reached: the steps of a sequence all succeeded
(`YasbLimitora.bind_eq_ok_iff`), and so did the calls of a loop over a list, element by element
(`YasbLimitora.mapM_eq_ok_iff`). A model of code that raises is read through these: a hypothesis that
a whole function returned is taken apart from its first statement to its last, and what remains are
the results of the statements; a goal that it returns is put together in the same order.

The equations are stated for `Except` with any errors and with implications in both directions, so
that one lemma serves the proof that a step was taken and the one that it may be taken. A loop that
checks the items of a list does not depend on their order as long as it returns
(`YasbLimitora.mapM_perm`).
-/

namespace YasbLimitora

variable {ε α β : Type}

/-- A program goes on after what has returned. -/
@[simp] theorem ok_bind {a : α} {f : α → Except ε β} : (Except.ok a >>= f) = f a := rfl

/-- Nothing comes after an exception. -/
@[simp] theorem error_bind {e : ε} {f : α → Except ε β} :
    (Except.error e >>= f) = Except.error e := rfl

@[simp] theorem ok_map {a : α} {f : α → β} : (f <$> (Except.ok a : Except ε α)) = .ok (f a) := rfl

@[simp] theorem error_map {e : ε} {f : α → β} :
    (f <$> (Except.error e : Except ε α)) = .error e := rfl

/-- A sequence succeeds if its first step does, and then the rest of it. -/
theorem bind_eq_ok_iff {x : Except ε α} {f : α → Except ε β} {b : β} :
    x >>= f = .ok b ↔ ∃ a, x = .ok a ∧ f a = .ok b := by
  rcases x with e | a
  · exact iff_of_false nofun fun ⟨_, h, _⟩ => nomatch h
  · exact ⟨fun h => ⟨a, rfl, h⟩, fun ⟨_, h, hf⟩ => by cases h; exact hf⟩

/-- What is made of a result is there exactly if the result is. -/
theorem map_eq_ok_iff {x : Except ε α} {f : α → β} {b : β} :
    f <$> x = .ok b ↔ ∃ a, x = .ok a ∧ f a = b := by
  rcases x with e | a
  · exact iff_of_false nofun fun ⟨_, h, _⟩ => nomatch h
  · exact ⟨fun h => ⟨a, rfl, Except.ok.inj h⟩, fun ⟨_, h, hf⟩ => by cases h; exact congrArg _ hf⟩

/-- What there is of an optional result, or an error. -/
theorem elim_eq_ok_iff {o : Option α} {e : ε} {a : α} : o.elim (.error e) .ok = Except.ok a ↔ o = some a := by
  rcases o with _ | a'
  · exact iff_of_false nofun nofun
  · exact (Except.ok.injEq _ _).to_iff.trans (Option.some.injEq _ _).to_iff.symm

/-- A loop over a list succeeds if each of its calls does. -/
theorem mapM_eq_ok_iff {f : α → Except ε β} {l : List α} {r : List β} :
    l.mapM f = .ok r ↔ List.Forall₂ (fun a b => f a = .ok b) l r := by
  induction l generalizing r with
  | nil =>
    rw [List.mapM_nil, List.forall₂_nil_left_iff]
    exact ⟨fun h => (Except.ok.inj h).symm, fun h => congrArg Except.ok h.symm⟩
  | cons a l ih =>
    rw [List.mapM_cons, bind_eq_ok_iff, List.forall₂_cons_left_iff]
    constructor
    · rintro ⟨b, hb, h⟩
      obtain ⟨bs, hbs, h⟩ := bind_eq_ok_iff.1 h
      exact ⟨b, bs, hb, ih.1 hbs, (Except.ok.inj h).symm⟩
    · rintro ⟨b, bs, hb, hbs, rfl⟩
      exact ⟨b, hb, bind_eq_ok_iff.2 ⟨bs, ih.2 hbs, rfl⟩⟩

/-- Each call of a loop that succeeds does. -/
theorem ok_of_mapM {f : α → Except ε β} {l : List α} {r : List β} (h : l.mapM f = .ok r) {a : α} (ha : a ∈ l) :
    ∃ b, f a = .ok b := by
  have hall := mapM_eq_ok_iff.1 h
  induction hall with
  | nil => cases ha
  | cons hb hrest ih =>
    rcases List.mem_cons.1 ha with rfl | ha
    · exact ⟨_, hb⟩
    · exact ih (mapM_eq_ok_iff.2 hrest) ha

/-- The result of a computation of which only the success matters. -/
theorem toOption_eq_some_iff {x : Except ε α} {a : α} : x.toOption = some a ↔ x = .ok a := by
  rcases x with e | b
  · exact iff_of_false nofun nofun
  · exact ⟨fun h => congrArg Except.ok (Option.some.inj h), fun h => congrArg some (Except.ok.inj h)⟩

/-- A loop over a list in another order has the results in another order. -/
theorem mapM_perm {f : α → Except ε β} {l l' : List α} {r : List β} (hl : l'.Perm l)
    (h : l.mapM f = .ok r) : ∃ r', l'.mapM f = .ok r' ∧ r'.Perm r := by
  obtain ⟨r', hr', hperm⟩ := List.perm_comp_forall₂ hl (mapM_eq_ok_iff.1 h)
  exact ⟨r', mapM_eq_ok_iff.2 hr', hperm⟩

end YasbLimitora

import Mathlib.Data.List.Basic

/-!
# Reading a source to its end

A source is pulled one item at a time: a call returns an item, the end, or an
error, and leaves the source in another state.  `drain` is the loop that pulls and
drops items until the end or the first error.  A source may yield items for ever,
so the loop takes a bound on the number of calls.  `drain_eq_some_iff` says what
the loop returns without speaking of the bound.
-/

namespace Concurrency

namespace Pull

variable {σ ε β : Type} {pull : σ → Except ε (Option β) × σ}

/-- `while pull()?.is_some() {}`, with at most `fuel` calls. -/
def drain (pull : σ → Except ε (Option β) × σ) : Nat → σ → Option (Except ε Unit × σ)
  | 0, _ => none
  | fuel + 1, s =>
    match pull s with
    | (.error err, t) => some (.error err, t)
    | (.ok none, t) => some (.ok (), t)
    | (.ok (some _), t) => drain pull fuel t

/-- The source yields the items one after the other and then its end or an error,
which leaves it in the last state. -/
inductive Yields (pull : σ → Except ε (Option β) × σ) : σ → List β → Except ε Unit → σ → Prop
  | done {s t : σ} (h : pull s = (.ok none, t)) : Yields pull s [] (.ok ()) t
  | failed {s t : σ} {err : ε} (h : pull s = (.error err, t)) : Yields pull s [] (.error err) t
  | item {s t u : σ} {b : β} {items : List β} {result : Except ε Unit}
      (h : pull s = (.ok (some b), t)) (rest : Yields pull t items result u) :
      Yields pull s (b :: items) result u

/-- The loop takes one call for each item and one for what comes after them. -/
theorem drain_eq_some_iff {fuel : Nat} {s t : σ} {result : Except ε Unit} :
    drain pull fuel s = some (result, t) ↔
      ∃ items, items.length < fuel ∧ Yields pull s items result t := by
  constructor
  · intro h
    induction fuel generalizing s with
    | zero => cases h
    | succ fuel ih =>
      unfold drain at h
      cases hpull : pull s with
      | mk answer u =>
        rw [hpull] at h
        match answer with
        | .error err =>
          cases h
          exact ⟨[], Nat.succ_pos _, .failed hpull⟩
        | .ok none =>
          cases h
          exact ⟨[], Nat.succ_pos _, .done hpull⟩
        | .ok (some b) =>
          obtain ⟨items, hlen, hrest⟩ := ih h
          exact ⟨b :: items, Nat.succ_lt_succ hlen, .item hpull hrest⟩
  · intro h
    obtain ⟨items, hlen, hyields⟩ := h
    induction hyields generalizing fuel with
    | done hpull =>
      obtain ⟨fuel, rfl⟩ := Nat.exists_eq_succ_of_ne_zero (Nat.ne_of_gt hlen)
      simp only [drain, hpull]
    | failed hpull =>
      obtain ⟨fuel, rfl⟩ := Nat.exists_eq_succ_of_ne_zero (Nat.ne_of_gt hlen)
      simp only [drain, hpull]
    | item hpull _ ih =>
      obtain ⟨fuel, rfl⟩ := Nat.exists_eq_succ_of_ne_zero (Nat.ne_of_gt (Nat.zero_lt_of_lt hlen))
      simp only [drain, hpull]
      exact ih (Nat.lt_of_succ_lt_succ hlen)

/-! ## Sequences of answers -/

/-- The source whose call number `n` returns `answers n`, with the number of calls
as its state. -/
def nth (answers : Nat → Except ε (Option β)) : Nat → Except ε (Option β) × Nat :=
  fun n => (answers n, n + 1)

theorem yields_nth {answers : Nat → Except ε (Option β)} {k n : Nat} {result : Except ε Unit}
    (hitems : ∀ i < n, ∃ b, answers (k + i) = .ok (some b))
    (hend : answers (k + n) = result.map fun _ => none) :
    ∃ items, items.length = n ∧ Yields (nth answers) k items result (k + n + 1) := by
  induction n generalizing k with
  | zero =>
    refine ⟨[], rfl, ?_⟩
    cases result with
    | error err => exact .failed (congrArg (·, k + 1) hend)
    | ok u => exact .done (congrArg (·, k + 1) hend)
  | succ n ih =>
    obtain ⟨b, hb⟩ := hitems 0 (Nat.succ_pos n)
    have hnext : ∀ i, k + 1 + i = k + (i + 1) := fun i => by omega
    obtain ⟨items, hlen, hyields⟩ := @ih (k + 1)
      (fun i hi => by rw [hnext]; exact hitems (i + 1) (Nat.succ_lt_succ hi))
      (by rw [hnext]; exact hend)
    rw [hnext] at hyields
    exact ⟨b :: items, congrArg Nat.succ hlen, .item (congrArg (·, k + 1) hb) hyields⟩

end Pull

end Concurrency

import Mathlib.Data.List.Basic

/-!
# Runs of a guarded transition function

A system is a partial function `step : σ → α → Option σ`: `none` says that the
action is not enabled in the state.  A run is a list of actions, so a statement
about every run is a statement about every interleaving of every party's
actions.  The rules below turn a fact about one step into a fact about runs.
-/

namespace Concurrency

variable {σ α : Type}

/-- Take the actions in order; `none` if one of them is not enabled. -/
def exec (step : σ → α → Option σ) : σ → List α → Option σ
  | s, [] => some s
  | s, a :: rest => (step s a).bind fun t => exec step t rest

/-- `C` holds of every action of the run in the state it is taken from. -/
def EveryStep (step : σ → α → Option σ) (C : σ → α → Prop) : σ → List α → Prop
  | _, [] => True
  | s, a :: rest => C s a ∧ ∀ t, step s a = some t → EveryStep step C t rest

variable {step : σ → α → Option σ}

@[simp] theorem exec_nil (s : σ) : exec step s [] = some s := rfl

theorem exec_cons {s u : σ} {a : α} {rest : List α} :
    exec step s (a :: rest) = some u ↔ ∃ t, step s a = some t ∧ exec step t rest = some u := by
  simp [exec, Option.bind_eq_some_iff]

theorem exec_concat {s u : σ} {a : α} {as : List α} :
    exec step s (as ++ [a]) = some u ↔ ∃ t, exec step s as = some t ∧ step t a = some u := by
  induction as generalizing s with
  | nil =>
    rw [List.nil_append, exec_cons]
    simp
  | cons b rest ih =>
    rw [List.cons_append, exec_cons]
    simp only [ih, exec_cons]
    constructor
    · intro h
      obtain ⟨v, hv, t, ht, hu⟩ := h
      exact ⟨t, ⟨v, hv, ht⟩, hu⟩
    · intro h
      obtain ⟨t, ⟨v, hv, ht⟩, hu⟩ := h
      exact ⟨v, hv, t, ht, hu⟩

/-- What every step keeps, given what it is assumed to meet, every run keeps. -/
theorem exec_invariant_of {C : σ → α → Prop} {P : σ → Prop}
    (hstep : ∀ s a t, P s → C s a → step s a = some t → P t) {s t : σ} {as : List α}
    (hs : P s) (hC : EveryStep step C s as) (h : exec step s as = some t) : P t := by
  induction as generalizing s with
  | nil =>
    obtain rfl := Option.some.inj h
    exact hs
  | cons a rest ih =>
    obtain ⟨u, hu, hrest⟩ := exec_cons.mp h
    exact ih (hstep s a u hs hC.1 hu) (hC.2 u hu) hrest

theorem everyStep_of_forall {C : σ → α → Prop} (h : ∀ s a, C s a) :
    ∀ (s : σ) (as : List α), EveryStep step C s as
  | _, [] => trivial
  | s, a :: rest => ⟨h s a, fun t _ => everyStep_of_forall h t rest⟩

/-- What every step keeps, every run keeps. -/
theorem exec_invariant {P : σ → Prop} (hstep : ∀ s a t, P s → step s a = some t → P t)
    {s t : σ} {as : List α} (hs : P s) (h : exec step s as = some t) : P t :=
  exec_invariant_of (C := fun _ _ => True) (fun s a t hs _ => hstep s a t hs) hs
    (everyStep_of_forall (fun _ _ => trivial) s as) h

/-- Two systems whose steps agree on related actions have the same runs. -/
theorem exec_congr {step' : σ → α → Option σ} {R : α → α → Prop}
    (hstep : ∀ s a a', R a a' → step s a = step' s a') {as as' : List α}
    (h : List.Forall₂ R as as') (s : σ) : exec step s as = exec step' s as' := by
  induction h generalizing s with
  | nil => rfl
  | cons ha _ ih =>
    show (step s _).bind _ = (step' s _).bind _
    rw [hstep s _ _ ha]
    exact congrArg _ (funext ih)

/-! ## Parties

The parties of a system are a list: a new one comes at the end, and a step changes
one of them. -/

section Parties

variable {π : Type} {ps : List π} {i j : Nat} {p q : π}

theorem getElem?_concat_cases (h : (ps ++ [p])[j]? = some q) :
    ps[j]? = some q ∨ (j = ps.length ∧ q = p) := by
  rcases Nat.lt_or_ge j ps.length with hlt | hge
  · rw [List.getElem?_append_left hlt] at h
    exact .inl h
  · rw [List.getElem?_append_right hge] at h
    obtain ⟨hlen, heq⟩ := List.getElem?_eq_some_iff.mp h
    rw [List.length_singleton] at hlen
    rw [List.getElem_singleton] at heq
    exact .inr ⟨by omega, heq.symm⟩

theorem getElem?_set_cases (h : (ps.set i p)[j]? = some q) :
    (i = j ∧ q = p) ∨ (i ≠ j ∧ ps[j]? = some q) := by
  by_cases hij : i = j
  · subst hij
    have hlt : i < ps.length := by
      have hlen := (List.getElem?_eq_some_iff.mp h).1
      rwa [List.length_set] at hlen
    rw [List.getElem?_set_self hlt] at h
    exact .inl ⟨rfl, (Option.some.inj h).symm⟩
  · rw [List.getElem?_set_ne hij] at h
    exact .inr ⟨hij, h⟩

end Parties

end Concurrency

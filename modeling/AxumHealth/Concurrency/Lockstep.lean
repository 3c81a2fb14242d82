import AxumHealth.Concurrency.Simulation
import AxumHealth.Concurrency.Stepwise

/-!
# Two systems in lockstep

Two single-flight caches whose computations simulate each other, whatever the world
answers one of them.  Every run of one, with its clients coming and going and its
requests answered in any order, is matched step by step by a run of the other: the
caches and the clients are the same all the way, and the requests are related.
-/

namespace Concurrency

namespace Stepwise

open SingleFlight Future

variable {Req : Type} {Ans : Req → Type} {V : Type} {ttl : Nat} {p p' : Future Req Ans V}
  {Related : Req → Req → Prop}

/-- Two requests of one round. -/
def SameCall (Related : Req → Req → Prop) (call call' : Nat × Event Req Ans) : Prop :=
  call.1 = call'.1 ∧ SameEvent Related call.2 call'.2

/-- The same but for the requests, which are related. -/
structure Lockstep (Related : Req → Req → Prop) (s s' : System Req Ans V) : Prop where
  cache : s'.cache = s.cache
  work : Option.Rel (fun w w' => Simulates Related w.left w.ahead w'.left w'.ahead) s.work s'.work
  log : List.Forall₂ (SameCall Related) s.log s'.log

theorem lockstep_init : Lockstep Related (System.init : System Req Ans V) .init :=
  ⟨rfl, .none, .nil⟩

/-- The request that is answered, if any, is written down with its round. -/
theorem sameCall_toList {e e' : Option (Event Req Ans)}
    (h : Option.Rel (SameEvent Related) e e') (r : Nat) :
    List.Forall₂ (SameCall Related) (e.toList.map fun event => (r, event))
      (e'.toList.map fun event => (r, event)) := by
  cases h with
  | none => exact .nil
  | some h => exact .cons ⟨rfl, h⟩ .nil

variable {s s' t : System Req Ans V}

theorem Lockstep.work_of_some (hs : Lockstep Related s s') {w : Work Req Ans V}
    (hw : s.work = some w) :
    ∃ w', s'.work = some w' ∧ Simulates Related w.left w.ahead w'.left w'.ahead := by
  have hwork := hs.work
  rw [hw] at hwork
  cases hw' : s'.work with
  | none =>
    rw [hw'] at hwork
    cases hwork
  | some w' =>
    rw [hw'] at hwork
    cases hwork with
    | some hsame => exact ⟨w', rfl, hsame⟩

/-- Each step of one system is a step of the other. -/
theorem Lockstep.move (hsim : ∀ o, ∃ o', Simulates Related p o p' o')
    (hs : Lockstep Related s s') {a : Option (Action V)} (h : Move ttl p s a t) :
    ∃ t', Move ttl p' s' a t' ∧ Lockstep Related t t' := by
  have hcache := hs.cache
  cases h with
  | cache a h hflight =>
    rw [← hcache] at h hflight
    exact ⟨_, .cache a h hflight, ⟨rfl, hs.work, hs.log⟩⟩
  | start i world h hnone hflight =>
    obtain ⟨world', hworld⟩ := hsim world
    rw [← hcache] at h hnone
    exact ⟨_, .start i world' h hnone hflight, ⟨rfl, .some hworld, hs.log⟩⟩
  | @probe w flight e left ahead hw hflight h =>
    obtain ⟨w', hw', hsame⟩ := hs.work_of_some hw
    obtain ⟨e', left', ahead', hstep, hevent, hrest⟩ := hsame.step h
    rw [← hcache] at hflight
    refine ⟨_, .probe hw' hflight hstep, ⟨hcache, .some hrest, ?_⟩⟩
    exact List.rel_append hs.log (sameCall_toList hevent flight.round)
  | @finish i w v c hw hready h =>
    obtain ⟨w', hw', hsame⟩ := hs.work_of_some hw
    rw [hready] at hsame
    have hready' : w'.left = .ready v := by
      generalize w'.left = left' at hsame
      cases hsame
      rfl
    rw [← hcache] at h
    exact ⟨_, .finish i hw' hready' h, ⟨rfl, .none, hs.log⟩⟩
  | abandon i h hflight hnone =>
    rw [← hcache] at h hflight
    exact ⟨_, .abandon i h hflight hnone, ⟨rfl, .none, hs.log⟩⟩

theorem Lockstep.runs (hsim : ∀ o, ∃ o', Simulates Related p o p' o')
    (hs : Lockstep Related s s') {as : List (Action V)} (h : Runs ttl p s as t) :
    ∃ t', Runs ttl p' s' as t' ∧ Lockstep Related t t' := by
  induction h with
  | refl => exact ⟨s', .refl, hs⟩
  | tail _ hmove ih =>
    obtain ⟨t', hruns', ht⟩ := ih
    obtain ⟨u', hmove', hu⟩ := ht.move hsim hmove
    exact ⟨u', hruns'.tail hmove', hu⟩

end Stepwise

end Concurrency

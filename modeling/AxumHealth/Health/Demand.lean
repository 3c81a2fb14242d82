import AxumHealth.Health.LdapSession
import AxumHealth.Health.Aggregate
import Mathlib.Algebra.Order.BigOperators.Group.List

/-!
# What one aggregation asks

How often an aggregation makes a call is read off the configuration.  The first call
to each target is made once for each time the target is configured, and a later call
of a session with a directory is made at most that often.
-/

namespace AxumHealth

open Std Concurrency Collections

/-! ## Targets -/

/-- The call depends on no answer to another one. -/
def Probe.first : Probe → Bool
  | .simpleBind _ _ _ => false
  | .unbind _ => false
  | _ => true

/-! ## Counting -/

/-- A count that is at most 1 where `asks` says so and 0 elsewhere, and just that for
the first calls. -/
structure Counts (q : Probe) (count bound : Nat) : Prop where
  le : count ≤ bound
  eq : q.first = true → count = bound

theorem Counts.of_eq {q : Probe} {count bound : Nat} (h : count = bound) :
    Counts q count bound := ⟨h.le, fun _ => h⟩

theorem Counts.add {q : Probe} {m n b c : Nat} (h : Counts q m b) (h' : Counts q n c) :
    Counts q (m + n) (b + c) where
  le := Nat.add_le_add h.le h'.le
  eq hfirst := by rw [h.eq hfirst, h'.eq hfirst]

theorem Counts.sum {q : Probe} {α : Type} {as : List α} {count : Nat → α → Nat} {bound : α → Nat}
    (h : ∀ (i : Nat) a, as[i]? = some a → Counts q (count i a) (bound a)) :
    Counts q (as.mapIdx count).sum (as.map bound).sum := by
  induction as generalizing count with
  | nil => exact .of_eq rfl
  | cons a as ih =>
    rw [List.mapIdx_cons, List.map_cons, List.sum_cons, List.sum_cons]
    exact (h 0 a rfl).add (ih fun i b hb => h (i + 1) b hb)

/-- The checks there can be, by name. -/
def sections : List String := ["ping", "http", "dns", "disk", "ldap"]

end AxumHealth

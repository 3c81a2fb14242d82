import AxumHealth.Concurrency.Simulation
import AxumHealth.Health.Probe
import AxumHealth.Json

/-!
# Components

The health of one section, and the shape all sections share: the targets of the
section are probed concurrently, and the component is UP when every entry is.
-/

namespace AxumHealth

open Concurrency

/-- The texts `"UP"` and `"DOWN"` the source compares. -/
inductive Status
  | up
  | down
  deriving DecidableEq, Repr

namespace Status

def toValue : Status → Json.Value
  | up => .string "UP"
  | down => .string "DOWN"

/-- UP when all of the statuses are. -/
def ofAll (statuses : List Status) : Status :=
  if statuses.all (· == up) then up else down

theorem ofAll_eq_up_iff {statuses : List Status} :
    ofAll statuses = up ↔ ∀ s ∈ statuses, s = up := by
  simp [ofAll, List.all_eq_true]

theorem eq_of_up_iff {s t : Status} (h : s = up ↔ t = up) : s = t := by
  cases s <;> cases t <;> simp at h ⊢

theorem eq_down_iff {s : Status} : s = down ↔ s ≠ up := by
  cases s <;> simp

end Status

structure ComponentHealth where
  status : Status
  details : Json.Value

def ComponentHealth.toValue (c : ComponentHealth) : Json.Value :=
  .object [("status", c.status.toValue), ("details", c.details)]

/-- Probe the targets concurrently, and report their entries in the order of the
targets. -/
def joinedComponent {τ ε : Type} (probe : τ → Probing ε) (status : ε → Status)
    (details : List ε → Json.Value) (targets : List τ) : Probing ComponentHealth := do
  let results ← Future.joinAll (targets.map probe)
  pure { status := Status.ofAll (results.map status), details := details results }

theorem joinedComponent_value {τ ε : Type} (probe : τ → Probing ε) (status : ε → Status)
    (details : List ε → Json.Value) (targets : List τ) (o : World) :
    (joinedComponent probe status details targets).value o =
      let results := targets.mapIdx fun i target => (probe target).value (o.part i)
      { status := Status.ofAll (results.map status), details := details results } := by
  rw [joinedComponent, Future.value_bind_pure, Future.value_joinAll_map]

section Log

variable {τ ε : Type} {probe : τ → Probing ε} {status : ε → Status}
  {details : List ε → Json.Value} {targets : List τ} {o : World}

/-- A component asks what the probes of its targets ask, target `i` at the places
below `i`. -/
theorem mem_joinedComponent_log {e : Event Probe Answer} :
    e ∈ (joinedComponent probe status details targets).log o ↔
      ∃ (i : Nat) (target : τ), targets[i]? = some target ∧
        ∃ e' ∈ (probe target).log (o.part i), e = e'.under i := by
  rw [joinedComponent, Future.log_bind_pure, Future.mem_log_joinAll]
  constructor
  · intro h
    obtain ⟨i, f, hf, h⟩ := h
    obtain ⟨target, htarget, rfl⟩ := exists_of_getElem?_map hf
    exact ⟨i, target, htarget, h⟩
  · intro h
    obtain ⟨i, target, htarget, h⟩ := h
    exact ⟨i, probe target, by rw [List.getElem?_map, htarget]; rfl, h⟩

/-- What every probe keeps to, a component keeps to. -/
theorem forall_joinedComponent_log {P : Probe → Prop}
    (h : ∀ target o', ∀ e ∈ (probe target).log o', P e.request) {e : Event Probe Answer}
    (he : e ∈ (joinedComponent probe status details targets).log o) : P e.request := by
  obtain ⟨i, target, -, e', he', rfl⟩ := mem_joinedComponent_log.mp he
  exact h target _ e' he'

theorem eventsAt_joinedComponent_log {i : Nat} {target : τ} (h : targets[i]? = some target)
    (place : List Nat) :
    eventsAt (i :: place) ((joinedComponent probe status details targets).log o) =
      (eventsAt place ((probe target).log (o.part i))).map (Event.under i) := by
  rw [joinedComponent, Future.log_bind_pure]
  apply Future.eventsAt_log_joinAll
  rw [List.getElem?_map, h]
  rfl

end Log

/-- Two components with simulating probes. -/
theorem joinedComponent_simulates {Related : Probe → Probe → Prop} {τ ε : Type}
    {probe : τ → Probing ε} {status : ε → Status} {details : List ε → Json.Value}
    {targets targets' : List τ} {o o' : World} (hlength : targets.length = targets'.length)
    (h : ∀ (i : Nat) (t t' : τ), targets[i]? = some t → targets'[i]? = some t' →
      Future.Simulates Related (probe t) (o.part i) (probe t') (o'.part i)) :
    Future.Simulates Related (joinedComponent probe status details targets) o
      (joinedComponent probe status details targets') o' := by
  apply Future.Simulates.bind_pure
  apply Future.Simulates.joinAll
  · rw [List.length_map, List.length_map, hlength]
  · intro i f f' hf hf'
    obtain ⟨t, ht, rfl⟩ := exists_of_getElem?_map hf
    obtain ⟨t', ht', rfl⟩ := exists_of_getElem?_map hf'
    exact h i t t' ht ht'

end AxumHealth

import AxumHealth.Concurrency.Stepwise

/-!
# Computations whose parts do not wait for each other

A future in which nothing is asked after a join has run.  Its requests are made at the
places of its parts, and each part asks one request after the other.  Then every part
can go on to its end whatever the others do: the requests that are left at a place can
be answered one by one while all other places stay as they are.
-/

namespace Concurrency

section Places

variable {Req : Type} {Ans : Req → Type}

theorem eventsAt_self (place : List Nat) (events : List (Event Req Ans)) :
    eventsAt place (eventsAt place events) = eventsAt place events := by
  rw [eventsAt, List.filter_eq_self]
  intro e he
  exact decide_eq_true (mem_eventsAt.mp he).2

theorem eventsAt_other {place other : List Nat} (h : other ≠ place)
    (events : List (Event Req Ans)) : eventsAt other (eventsAt place events) = [] := by
  rw [eventsAt, List.filter_eq_nil_iff]
  intro e he
  rw [decide_eq_true_iff, (mem_eventsAt.mp he).2]
  exact h.symm

/-- A place whose requests are all answered asks nothing more. -/
theorem eventsAt_eq_nil_of_done {log asked events : List (Event Req Ans)} {place : List Nat}
    (hdone : eventsAt place asked = eventsAt place log)
    (hbegins : eventsAt place (asked ++ events) <+: eventsAt place log) :
    eventsAt place events = [] := by
  have hlength := hbegins.length_le
  rw [eventsAt_append, List.length_append, hdone] at hlength
  exact List.eq_nil_of_length_eq_zero (by omega)

end Places

namespace Future

variable {Req : Type} {Ans : Req → Type}

/-- One request after the other, and no join. -/
def Sequential {α : Type} : Future Req Ans α → Prop
  | ready _ => True
  | ask _ next => ∀ r, (next r).Sequential
  | join _ _ _ => False

/-- Sequential parts, joined on any number of levels, with nothing asked after a join. -/
def Parallel {α : Type} : Future Req Ans α → Prop
  | ready _ => True
  | ask _ next => ∀ r, (next r).Sequential
  | join _ parts next => (∀ i, (parts i).Parallel) ∧ ∀ bs, ∃ a, next bs = ready a

/-! ## What is parallel -/

theorem Sequential.parallel {α : Type} {p : Future Req Ans α} (h : p.Sequential) : p.Parallel := by
  cases p with
  | ready a => trivial
  | ask q next => exact h
  | join n parts next => exact h.elim

theorem sequential_bind_pure {α β : Type} {p : Future Req Ans α} (h : p.Sequential) (f : α → β) :
    (p >>= fun a => pure (f a)).Sequential := by
  induction p with
  | ready a => trivial
  | ask q next ih => exact fun r => ih r (h r) f
  | join n parts next => exact h.elim

theorem parallel_bind_pure {α β : Type} {p : Future Req Ans α} (h : p.Parallel) (f : α → β) :
    (p >>= fun a => pure (f a)).Parallel := by
  cases p with
  | ready a => trivial
  | ask q next => exact fun r => sequential_bind_pure (h r) f
  | join n parts next =>
    refine ⟨h.1, fun bs => ?_⟩
    obtain ⟨a, ha⟩ := h.2 bs
    exact ⟨f a, congrArg (fun q => bind q fun a => ready (f a)) ha⟩

theorem parallel_joinAll {β : Type} {fs : List (Future Req Ans β)} (h : ∀ f ∈ fs, f.Parallel) :
    (joinAll fs).Parallel :=
  ⟨fun i => h fs[i] (List.getElem_mem i.isLt), fun bs => ⟨List.ofFn bs, rfl⟩⟩

theorem sequential_request_bind {α : Type} (q : Req) {f : Ans q → Future Req Ans α}
    (h : ∀ r, (f r).Sequential) : (request q >>= f).Sequential := h

/-! ## Steps -/

section Steps

variable {α : Type} {p p' : Future Req Ans α} {o o' : Oracle Req Ans}

theorem Parallel.step {e : Option (Event Req Ans)} (hp : p.Parallel) (h : Step p o e p' o') :
    p'.Parallel := by
  induction h with
  | answer q next o => exact (hp _).parallel
  | part next i h ih =>
    refine ⟨fun j => ?_, hp.2⟩
    by_cases hj : j = i
    · subst hj
      rw [Function.update_self]
      exact ih (hp.1 j)
    · rw [Function.update_of_ne hj]
      exact hp.1 j
  | collect bs next o =>
    obtain ⟨a, ha⟩ := hp.2 bs
    rw [ha]
    trivial

theorem Parallel.steps {events : List (Event Req Ans)} (hp : p.Parallel)
    (h : Steps p o events p' o') : p'.Parallel := by
  induction h with
  | refl p o => exact hp
  | head h _ ih => exact ih (hp.step h)

/-- A sequential future asks at the root only. -/
theorem Sequential.eventsAt_log (h : p.Sequential) (i : Nat) (place : List Nat) :
    eventsAt (i :: place) (p.log o) = [] := by
  induction p generalizing o with
  | ready a => rfl
  | ask q next ih =>
    have hrest := ih (o.head q) (h (o.head q)) (o := o.tail)
    show eventsAt (i :: place) (⟨[], q, o.head q⟩ :: (next (o.head q)).log o.tail) = []
    rw [eventsAt, List.filter_cons_of_neg (by simp)]
    exact hrest
  | join n parts next => exact h.elim

/-- The next request of a place can be answered. -/
theorem Parallel.enabled (hp : p.Parallel) {place : List Nat} {e : Event Req Ans}
    {rest : List (Event Req Ans)} (h : eventsAt place (p.log o) = e :: rest) :
    ∃ p' o', Step p o (some e) p' o' := by
  induction p generalizing o place e rest with
  | ready a => cases h
  | ask q next _ =>
    have hlog : (ask q next).log o = ⟨[], q, o.head q⟩ :: (next (o.head q)).log o.tail := rfl
    cases place with
    | nil =>
      rw [hlog, eventsAt, List.filter_cons_of_pos (by simp)] at h
      obtain rfl := (List.cons.inj h).1
      exact ⟨_, _, .answer q next o⟩
    | cons i place =>
      rw [hlog, eventsAt, List.filter_cons_of_neg (by simp)] at h
      have hnone := (hp (o.head q)).eventsAt_log (o := o.tail) i place
      rw [eventsAt] at hnone
      rw [hnone] at h
      cases h
  | join n parts next ih _ =>
    obtain ⟨a, ha⟩ := hp.2 fun i => (parts i).value (o.part i)
    have hlog : (join n parts next).log o = partEvents fun i => (parts i).log (o.part i) := by
      show partEvents _ ++ (next fun i => (parts i).value (o.part i)).log o.tail = _
      rw [ha]
      exact List.append_nil _
    rw [hlog] at h
    cases place with
    | nil =>
      rw [eventsAt_partEvents_nil] at h
      cases h
    | cons i place =>
      rcases Nat.lt_or_ge i n with hi | hi
      · have hpart := eventsAt_partEvents (fun j => (parts j).log (o.part j)) ⟨i, hi⟩ place
        rw [show i = (⟨i, hi⟩ : Fin n).val from rfl, hpart] at h
        obtain ⟨e', rest', hevents, rfl, rfl⟩ := List.map_eq_cons_iff.mp h
        obtain ⟨p', o', hstep⟩ := ih ⟨i, hi⟩ (hp.1 ⟨i, hi⟩) hevents
        exact ⟨_, _, .part next ⟨i, hi⟩ hstep⟩
      · rw [eventsAt_partEvents_of_le _ hi] at h
        cases h

/-- All that is left at a place can be answered while the other places stay as they are. -/
theorem Parallel.finish_place (hp : p.Parallel) (place : List Nat) :
    ∃ p' o', Steps p o (eventsAt place (p.log o)) p' o' := by
  induction hevents : eventsAt place (p.log o) generalizing p o with
  | nil => exact ⟨p, o, .refl p o⟩
  | cons e rest ih =>
    obtain ⟨p', o', hstep⟩ := hp.enabled hevents
    have hplace : e.place = place := (mem_eventsAt.mp (hevents ▸ List.mem_cons_self)).2
    have hrest : eventsAt place (p'.log o') = rest := by
      have hlog := hstep.eventsAt_log place
      rw [hevents, Option.toList_some, eventsAt_append, eventsAt,
        List.filter_cons_of_pos (by simpa using hplace)] at hlog
      exact (List.cons.inj hlog).2
    obtain ⟨p'', o'', hsteps⟩ := ih (hp.step hstep) hrest
    exact ⟨p'', o'', .head hstep hsteps⟩

theorem Steps.append {p'' : Future Req Ans α} {o'' : Oracle Req Ans}
    {events events' : List (Event Req Ans)} (h : Steps p o events p' o')
    (h' : Steps p' o' events' p'' o'') : Steps p o (events ++ events') p'' o'' := by
  induction h with
  | refl p o => exact h'
  | head h _ ih =>
    rw [List.append_assoc]
    exact .head h (ih h')

/-- All that is asked at some places can be answered before anything else is. -/
theorem Parallel.finish_places (hp : p.Parallel) (places : List (List Nat)) :
    ∃ events p' o', Steps p o events p' o' ∧
      (∀ place ∈ places, eventsAt place events = eventsAt place (p.log o)) ∧
      ∀ other ∉ places, eventsAt other events = [] := by
  induction places with
  | nil => exact ⟨[], p, o, .refl p o, by simp, fun _ _ => rfl⟩
  | cons place places ih =>
    obtain ⟨events, p', o', hsteps, hdone, hother⟩ := ih
    by_cases hplace : place ∈ places
    · refine ⟨events, p', o', hsteps, ?_, ?_⟩
      · intro q hq
        rcases List.mem_cons.mp hq with rfl | hq
        · exact hdone q hplace
        · exact hdone q hq
      · intro q hq
        exact hother q fun h => hq (List.mem_cons_of_mem place h)
    · obtain ⟨p'', o'', hrest⟩ := (hp.steps hsteps).finish_place place (o := o')
      have hleft : eventsAt place (p'.log o') = eventsAt place (p.log o) := by
        rw [← hsteps.eventsAt_log place, hother place hplace, List.nil_append]
      rw [hleft] at hrest
      refine ⟨_, p'', o'', hsteps.append hrest, ?_, ?_⟩
      · intro q hq
        rw [eventsAt_append]
        by_cases hqp : q = place
        · rw [hqp, hother place hplace, eventsAt_self, List.nil_append]
        · rw [eventsAt_other hqp, List.append_nil]
          exact hdone q ((List.mem_cons.mp hq).resolve_left hqp)
      · intro q hq
        rw [List.mem_cons, not_or] at hq
        rw [eventsAt_append, hother q hq.2, eventsAt_other hq.1, List.append_nil]

end Steps

end Future

/-! ## In a system -/

namespace Stepwise

open Future SingleFlight

variable {Req : Type} {Ans : Req → Type} {V : Type} {ttl : Nat} {p : Future Req Ans V}

/-- While a round is running, the future can ask all that it asks at some places, whatever
it has asked elsewhere, and without asking anything more there. -/
theorem Tracked.finish_places {s : System Req Ans V} (hs : Tracked ttl p s) (hp : p.Parallel)
    {flight : Flight} (hflight : s.cache.inFlight = some flight) :
    ∃ o, (∀ place, eventsAt place (s.events flight.round) <+: eventsAt place (p.log o)) ∧
      ∀ places : List (List Nat), ∃ t events, Runs ttl p s [] t ∧ t.cache = s.cache ∧
        t.events flight.round = s.events flight.round ++ events ∧
        (∀ place ∈ places, eventsAt place (t.events flight.round) = eventsAt place (p.log o)) ∧
        ∀ other ∉ places, eventsAt other events = [] := by
  have hbusy : s.work ≠ none := by
    rw [ne_eq, hs.busy, hflight]
    simp
  obtain ⟨w, hw⟩ := Option.ne_none_iff_exists'.mp hbusy
  have hsteps := hs.ongoing w flight hw hflight
  refine ⟨w.world, fun place => ⟨_, hsteps.eventsAt_log place⟩, fun places => ?_⟩
  obtain ⟨events, left, ahead, hrest, hdone, hother⟩ :=
    (hp.steps hsteps).finish_places (o := w.ahead) places
  have hruns := runs_steps hrest (.refl : Runs ttl p s [] s) hflight hw
  refine ⟨_, events, hruns, rfl, ?_, ?_, hother⟩
  · rw [events_append, if_pos rfl]
  intro place hplace
  rw [events_append, if_pos rfl, eventsAt_append, hdone place hplace]
  exact hsteps.eventsAt_log place

end Stepwise

end Concurrency

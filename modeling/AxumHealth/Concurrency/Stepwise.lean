import AxumHealth.Concurrency.SingleFlightRuns
import AxumHealth.Concurrency.Trace
import Mathlib.Algebra.Order.BigOperators.Group.Finset

/-!
# The computation in flight, step by step

In the single-flight cache a computation is one action, `complete`, that brings its
value.  Here the computation is a future that the outside answers request by
request while the clients of the cache come and go: a round starts the future, any
of its waiting requests can be answered next, and the value goes to the cache when
the future is ready.  Every request that is answered is written down with its round.

`runs_iff` says that the two systems have the same runs, but for the steps of the
future; `tracked_runs` is the invariant that ties the requests written down to the
runs of the future.
-/

namespace Concurrency

namespace SingleFlight

/-- The action with the value of the computation in the place of its input. -/
def Action.mapInput {X Y : Type} (f : X → Y) : Action X → Action Y
  | .tick duration => .tick duration
  | .arrive => .arrive
  | .lookup i => .lookup i
  | .join i => .join i
  | .acquire i => .acquire i
  | .complete i input => .complete i (f input)
  | .deliver i => .deliver i
  | .expire => .expire
  | .disconnect i => .disconnect i

/-- The cache sees of an input the value that is computed from it. -/
theorem step_mapInput {V X : Type} (ttl : Nat) (f : X → V) (s : State V) (a : Action X) :
    step ttl id s (a.mapInput f) = step ttl f s a := by
  cases a <;> rfl

theorem exec_mapInput {V X : Type} (ttl : Nat) (f : X → V) (s : State V)
    (as : List (Action X)) :
    exec (step ttl id) s (as.map (Action.mapInput f)) = exec (step ttl f) s as := by
  induction as generalizing s with
  | nil => rfl
  | cons a as ih =>
    show (step ttl id s (a.mapInput f)).bind _ = (step ttl f s a).bind _
    rw [step_mapInput]
    exact congrArg _ (funext ih)

theorem exists_mapInput {V X : Type} (f : X → V) {a : Action V}
    (h : ∀ i v, a = .complete i v → ∃ x, v = f x) : ∃ b : Action X, a = b.mapInput f := by
  cases a with
  | tick duration => exact ⟨.tick duration, rfl⟩
  | arrive => exact ⟨.arrive, rfl⟩
  | lookup i => exact ⟨.lookup i, rfl⟩
  | join i => exact ⟨.join i, rfl⟩
  | acquire i => exact ⟨.acquire i, rfl⟩
  | complete i v =>
    obtain ⟨x, rfl⟩ := h i v rfl
    exact ⟨.complete i x, rfl⟩
  | deliver i => exact ⟨.deliver i, rfl⟩
  | expire => exact ⟨.expire, rfl⟩
  | disconnect i => exact ⟨.disconnect i, rfl⟩

end SingleFlight

namespace Stepwise

open SingleFlight Future

/-- A computation in flight: the answers it was started with, what is left of it and
the answers left. -/
structure Work (Req : Type) (Ans : Req → Type) (V : Type) where
  world : Oracle Req Ans
  left : Future Req Ans V
  ahead : Oracle Req Ans

structure System (Req : Type) (Ans : Req → Type) (V : Type) where
  cache : State V
  work : Option (Work Req Ans V)
  /-- The requests that were answered, each with its round. -/
  log : List (Nat × Event Req Ans)

variable {Req : Type} {Ans : Req → Type} {V : Type}

namespace System

def init : System Req Ans V := { cache := .init, work := none, log := [] }

/-- The requests of round `r` that were answered. -/
def events (s : System Req Ans V) (r : Nat) : List (Event Req Ans) :=
  (s.log.filter fun e => e.1 = r).map Prod.snd

end System

/-- One step, with the action of the cache it is, if any. -/
inductive Move (ttl : Nat) (p : Future Req Ans V) (s : System Req Ans V) :
    Option (Action V) → System Req Ans V → Prop
  /-- The clients and the cache move, and leave the computation alone. -/
  | cache (a : Action V) {c : State V} (h : step ttl id s.cache a = some c)
      (hflight : c.inFlight = s.cache.inFlight) : Move ttl p s (some a) { s with cache := c }
  | start (i : Nat) (world : Oracle Req Ans) {c : State V}
      (h : step ttl id s.cache (.acquire i) = some c) (hnone : s.cache.inFlight = none)
      (hflight : c.inFlight ≠ none) :
      Move ttl p s (some (.acquire i))
        { s with cache := c, work := some { world, left := p, ahead := world } }
  | probe {w : Work Req Ans V} {flight : Flight} {e : Option (Event Req Ans)}
      {left : Future Req Ans V} {ahead : Oracle Req Ans} (hwork : s.work = some w)
      (hflight : s.cache.inFlight = some flight) (h : Step w.left w.ahead e left ahead) :
      Move ttl p s none
        { s with
          work := some { w with left, ahead }
          log := s.log ++ e.toList.map fun event => (flight.round, event) }
  | finish (i : Nat) {w : Work Req Ans V} {v : V} {c : State V} (hwork : s.work = some w)
      (hready : w.left = .ready v) (h : step ttl id s.cache (.complete i v) = some c) :
      Move ttl p s (some (.complete i v)) { s with cache := c, work := none }
  /-- The request that runs the computation goes away, and the future is dropped. -/
  | abandon (i : Nat) {c : State V} (h : step ttl id s.cache (.disconnect i) = some c)
      (hflight : s.cache.inFlight ≠ none) (hnone : c.inFlight = none) :
      Move ttl p s (some (.disconnect i)) { s with cache := c, work := none }

/-- Steps in any order, with the actions of the cache among them. -/
inductive Runs (ttl : Nat) (p : Future Req Ans V) (s : System Req Ans V) :
    List (Action V) → System Req Ans V → Prop
  | refl : Runs ttl p s [] s
  | tail {as : List (Action V)} {a : Option (Action V)} {t u : System Req Ans V}
      (h : Runs ttl p s as t) (hmove : Move ttl p t a u) : Runs ttl p s (as ++ a.toList) u

/-! ## The actions of the cache -/

section Actions

variable {X : Type} {ttl : Nat} {f : X → V} {c d : State V} {i : Nat}

theorem step_complete {input : X} (h : step ttl f c (.complete i input) = some d) :
    ∃ lookup r, c.requests[i]? = some (.running lookup r) ∧
      d = (c.finishRound i lookup r (f input)).next := by
  obtain ⟨u, hact, rfl⟩ := Option.map_eq_some_iff.mp h
  cases hi : c.requests[i]? with
  | none => simp [State.act, hi] at hact
  | some phase =>
    cases phase with
    | running lookup r =>
      simp only [State.act, hi, Option.some.injEq] at hact
      exact ⟨lookup, r, rfl, by rw [← hact]; rfl⟩
    | _ => simp [State.act, hi] at hact

theorem step_acquire (h : step ttl f c (.acquire i) = some d) (hflight : d.inFlight ≠ c.inFlight) :
    ∃ lookup, d = (c.startRound i lookup).next := by
  obtain ⟨u, hmove, rfl⟩ := step_moves ttl f h
  cases hmove with
  | turn a hi hturn => exact absurd rfl hflight
  | @start i lookup hi hnone hlive => exact ⟨lookup, rfl⟩

theorem step_disconnect (h : step ttl f c (.disconnect i) = some d)
    (hflight : d.inFlight ≠ c.inFlight) :
    ∃ lookup r, c.requests[i]? = some (.running lookup r) ∧ d = (c.abandonRound i r).next := by
  obtain ⟨u, hmove, rfl⟩ := step_moves ttl f h
  cases hmove with
  | turn a hi hturn => exact absurd rfl hflight
  | @abandon i lookup r hi => exact ⟨lookup, r, hi, rfl⟩

/-- An action that leaves the computation in flight where it is. -/
theorem step_quiet {a : Action X} (hc : Coherent ttl f c) (h : step ttl f c a = some d)
    (hflight : d.inFlight = c.inFlight) :
    d.rounds = c.rounds ∧ ∀ i input, a ≠ .complete i input := by
  have hrunning : ∀ {i : Nat} {lookup : Stamp} {r : Nat},
      c.requests[i]? = some (.running lookup r) → c.inFlight ≠ none := by
    intro i lookup r hi hnone
    rw [hc.owners i lookup r hi] at hnone
    cases hnone
  constructor
  · obtain ⟨u, hmove, rfl⟩ := step_moves ttl f h
    cases hmove with
    | tick duration => rfl
    | arrive => rfl
    | turn a hi hturn => rfl
    | start i hi hnone hlive => exact absurd (hflight.trans hnone) (by simp [State.startRound])
    | finish i input hi => exact absurd hflight.symm (hrunning hi)
    | expire he hdead => rfl
    | abandon i hi => exact absurd hflight.symm (hrunning hi)
  · intro i input heq
    subst heq
    obtain ⟨lookup, r, hi, rfl⟩ := step_complete h
    exact hrunning hi hflight.symm

end Actions

/-! ## The invariant -/

/-- The requests of a round are those of a run of the future, which is over when the
round brought a value. -/
def Traced (p : Future Req Ans V) (outcome : Outcome V) (events : List (Event Req Ans)) : Prop :=
  ∃ o left ahead, Steps p o events left ahead ∧
    ∀ finish value, outcome = .completed finish value → left = .ready value

structure Tracked (ttl : Nat) (p : Future Req Ans V) (s : System Req Ans V) : Prop where
  coherent : Coherent ttl p.value s.cache
  busy : s.work = none ↔ s.cache.inFlight = none
  ongoing : ∀ w flight, s.work = some w → s.cache.inFlight = some flight →
    Steps p w.world (s.events flight.round) w.left w.ahead
  traced : ∀ (r : Nat) round, s.cache.rounds[r]? = some round → Traced p round.outcome (s.events r)
  started : ∀ e ∈ s.log, e.1 < s.cache.rounds.length

variable {ttl : Nat} {p : Future Req Ans V} {s t : System Req Ans V}

theorem tracked_init : Tracked ttl p (System.init : System Req Ans V) where
  coherent := coherent_init
  busy := by simp [System.init, State.init]
  ongoing w flight hw := by cases hw
  traced r round hr := by simp [System.init, State.init] at hr
  started e he := by cases he

theorem Tracked.events_eq_nil (hs : Tracked ttl p s) {r : Nat} (hr : s.cache.rounds.length ≤ r) :
    s.events r = [] := by
  rw [System.events, List.map_eq_nil_iff, List.filter_eq_nil_iff]
  intro e he
  have hlt := hs.started e he
  rw [decide_eq_true_iff]
  omega

/-- The value that is ready is that of the answers the round started with. -/
theorem Tracked.ready (hs : Tracked ttl p s) {w : Work Req Ans V} {v : V} (hw : s.work = some w)
    (hready : w.left = .ready v) : v = p.value w.world := by
  have hbusy : s.cache.inFlight ≠ none := by
    rw [ne_eq, ← hs.busy, hw]
    simp
  obtain ⟨flight, hflight⟩ := Option.ne_none_iff_exists'.mp hbusy
  have hvalue := (hs.ongoing w flight hw hflight).value_eq
  rw [hready] at hvalue
  exact hvalue

/-- Each step is a step of the cache whose computations bring the values of the
future, or a step of the future. -/
theorem Tracked.coarse (hs : Tracked ttl p s) {a : Option (Action V)} (h : Move ttl p s a t) :
    (a = none ∧ t.cache = s.cache) ∨ ∃ b : Action (Oracle Req Ans),
      a = some (b.mapInput p.value) ∧ step ttl p.value s.cache b = some t.cache := by
  cases h with
  | cache a h hflight =>
    have hquiet : ∀ i v, a = .complete i v → ∃ o : Oracle Req Ans, v = p.value o := by
      intro i v heq
      subst heq
      obtain ⟨lookup, r, hi, rfl⟩ := step_complete h
      have howner := hs.coherent.owners i lookup r hi
      rw [← hflight] at howner
      cases howner
    obtain ⟨b, rfl⟩ := exists_mapInput p.value hquiet
    rw [step_mapInput] at h
    exact .inr ⟨b, rfl, h⟩
  | start i world h hnone hflight => exact .inr ⟨.acquire i, rfl, h⟩
  | probe hwork hflight h => exact .inl ⟨rfl, rfl⟩
  | @finish i w v c hwork hready h =>
    obtain rfl := hs.ready hwork hready
    exact .inr ⟨.complete i w.world, rfl, h⟩
  | abandon i h hflight hnone => exact .inr ⟨.disconnect i, rfl, h⟩

theorem filter_round (events : List (Event Req Ans)) (r r' : Nat) :
    ((events.map fun event => (r, event)).filter fun e => e.1 = r').map Prod.snd =
      if r = r' then events else [] := by
  induction events with
  | nil => simp
  | cons event events ih =>
    by_cases h : r = r'
    · simpa [h] using ih
    · simp [h]

theorem events_append (s : System Req Ans V) (events : List (Event Req Ans)) (r r' : Nat)
    {work : Option (Work Req Ans V)} :
    ({ s with work, log := s.log ++ events.map fun event => (r, event) } :
      System Req Ans V).events r' = s.events r' ++ if r = r' then events else [] := by
  show (List.filter _ (_ ++ _)).map _ = _
  rw [List.filter_append, List.map_append, filter_round]
  rfl

/-- The requests of the rounds do not change with the outcome of one of them. -/
theorem Tracked.traced_setOutcome (hs : Tracked ttl p s) {r : Nat} {outcome : Outcome V}
    (hnew : Traced p outcome (s.events r)) (r' : Nat) (round : Round V)
    (hr : (s.cache.setOutcome r outcome).rounds[r']? = some round) :
    Traced p round.outcome (s.events r') := by
  rw [getElem?_setOutcome] at hr
  by_cases hrr : r = r'
  · rw [if_pos hrr] at hr
    obtain ⟨old, -, rfl⟩ := Option.map_eq_some_iff.mp hr
    exact hrr ▸ hnew
  · rw [if_neg hrr] at hr
    exact hs.traced r' round hr

theorem Tracked.work_of_running (hs : Tracked ttl p s) {i : Nat} {lookup : Stamp} {r : Nat}
    (hi : s.cache.requests[i]? = some (.running lookup r)) :
    ∃ w, s.work = some w ∧ Steps p w.world (s.events r) w.left w.ahead := by
  have howner := hs.coherent.owners i lookup r hi
  have hbusy : s.work ≠ none := by
    rw [ne_eq, hs.busy, howner]
    simp
  obtain ⟨w, hw⟩ := Option.ne_none_iff_exists'.mp hbusy
  exact ⟨w, hw, hs.ongoing w _ hw howner⟩

theorem Tracked.cache_move (hs : Tracked ttl p s) {b : Action (Oracle Req Ans)} {c : State V}
    (h : step ttl p.value s.cache b = some c) (hflight : c.inFlight = s.cache.inFlight) :
    Tracked ttl p { s with cache := c } := by
  obtain ⟨hrounds, -⟩ := step_quiet hs.coherent h hflight
  refine ⟨coherent_step hs.coherent h, ?_, ?_, ?_, ?_⟩
  · show s.work = none ↔ c.inFlight = none
    rw [hflight]
    exact hs.busy
  · intro w flight hw hf
    exact hs.ongoing w flight hw (hflight ▸ hf)
  · intro r round hr
    exact hs.traced r round (hrounds ▸ hr)
  · intro e he
    show e.1 < c.rounds.length
    rw [hrounds]
    exact hs.started e he

theorem Tracked.start_move (hs : Tracked ttl p s) {i : Nat} {lookup : Stamp}
    (world : Oracle Req Ans)
    (hcoherent : Coherent ttl p.value (s.cache.startRound i lookup).next) :
    Tracked ttl p
      { s with
        cache := (s.cache.startRound i lookup).next
        work := some { world, left := p, ahead := world } } := by
  have hnew : s.events s.cache.rounds.length = [] := hs.events_eq_nil (Nat.le_refl _)
  refine ⟨hcoherent, ?_, ?_, ?_, ?_⟩
  · simp [State.startRound, State.next]
  · intro w flight hw hf
    cases hw
    cases hf
    show Steps p world (s.events s.cache.rounds.length) p world
    rw [hnew]
    exact .refl p world
  · intro r round hr
    rcases getElem?_concat_cases hr with hold | ⟨rfl, rfl⟩
    · exact hs.traced r round hold
    · refine ⟨world, p, world, ?_, fun finish value h => by cases h⟩
      show Steps p world (s.events s.cache.rounds.length) p world
      rw [hnew]
      exact .refl p world
  · intro e he
    show e.1 < (s.cache.rounds ++ [_]).length
    rw [List.length_append]
    exact Nat.lt_add_right _ (hs.started e he)

theorem Tracked.probe_move (hs : Tracked ttl p s) {w : Work Req Ans V} {flight : Flight}
    {e : Option (Event Req Ans)} {left : Future Req Ans V} {ahead : Oracle Req Ans}
    (hwork : s.work = some w) (hflight : s.cache.inFlight = some flight)
    (h : Step w.left w.ahead e left ahead) :
    Tracked ttl p
      { s with
        work := some { w with left, ahead }
        log := s.log ++ e.toList.map fun event => (flight.round, event) } := by
  have hrun := (hs.ongoing w flight hwork hflight).concat h
  obtain ⟨⟨start, hrunning⟩, hlast, -⟩ := hs.coherent.flight flight hflight
  refine ⟨hs.coherent, ?_, ?_, ?_, ?_⟩
  · simp [hflight]
  · intro w' flight' hw hf
    obtain rfl := Option.some.inj (hflight.symm.trans hf)
    cases hw
    rw [events_append, if_pos rfl]
    exact hrun
  · intro r round hr
    rw [events_append]
    by_cases hrr : flight.round = r
    · subst hrr
      obtain rfl := Option.some.inj (hrunning.symm.trans hr)
      rw [if_pos rfl]
      exact ⟨w.world, left, ahead, hrun, fun finish value h => by cases h⟩
    · rw [if_neg hrr, List.append_nil]
      exact hs.traced r round hr
  · intro e' he
    rcases List.mem_append.mp he with hold | hnew
    · exact hs.started e' hold
    · obtain ⟨event, -, rfl⟩ := List.mem_map.mp hnew
      show flight.round < s.cache.rounds.length
      omega

/-- The round in flight is over, with a value or without. -/
theorem Tracked.over_move (hs : Tracked ttl p s) {i : Nat} {lookup : Stamp} {r : Nat}
    {c : State V} (outcome : Outcome V) (hi : s.cache.requests[i]? = some (.running lookup r))
    (hcoherent : Coherent ttl p.value c) (hflight : c.inFlight = none)
    (hrounds : c.rounds = (s.cache.setOutcome r outcome).rounds)
    (hvalue : ∀ finish value w, outcome = .completed finish value → s.work = some w →
      w.left = .ready value) :
    Tracked ttl p { s with cache := c, work := none } := by
  obtain ⟨w, hw, hrun⟩ := hs.work_of_running hi
  have hnew : Traced p outcome (s.events r) :=
    ⟨w.world, w.left, w.ahead, hrun, fun finish value h => hvalue finish value w h hw⟩
  refine ⟨hcoherent, ?_, ?_, ?_, ?_⟩
  · simp [hflight]
  · intro w' flight hw'
    cases hw'
  · intro r' round hr
    exact hs.traced_setOutcome hnew r' round (hrounds ▸ hr)
  · intro e he
    show e.1 < c.rounds.length
    rw [hrounds, State.setOutcome, List.length_modify]
    exact hs.started e he

theorem Tracked.move (hs : Tracked ttl p s) {a : Option (Action V)} (h : Move ttl p s a t) :
    Tracked ttl p t := by
  have hcoarse := hs.coarse h
  have hcoherent : Coherent ttl p.value t.cache := by
    rcases hcoarse with ⟨-, hcache⟩ | ⟨b, -, hstep⟩
    · rw [hcache]
      exact hs.coherent
    · exact coherent_step hs.coherent hstep
  cases h with
  | cache a h hflight =>
    rcases hcoarse with ⟨hnone, -⟩ | ⟨b, -, hstep⟩
    · cases hnone
    · exact hs.cache_move hstep hflight
  | start i world h hnone hflight =>
    obtain ⟨lookup, rfl⟩ := step_acquire h (by rw [hnone]; exact hflight)
    exact hs.start_move world hcoherent
  | probe hwork hflight h => exact hs.probe_move hwork hflight h
  | @finish i w v c hwork hready h =>
    obtain ⟨lookup, r, hi, rfl⟩ := step_complete h
    refine hs.over_move (.completed s.cache.stamp v) hi hcoherent rfl rfl ?_
    intro finish value w' heq hw'
    cases heq
    obtain rfl := Option.some.inj (hwork.symm.trans hw')
    exact hready
  | abandon i h hflight hnone =>
    obtain ⟨lookup, r, hi, rfl⟩ := step_disconnect h (by rw [hnone]; exact hflight.symm)
    exact hs.over_move .abandoned hi hcoherent rfl rfl
      fun finish value w' heq => by cases heq

theorem tracked_runs {as : List (Action V)} (hs : Tracked ttl p s) (h : Runs ttl p s as t) :
    Tracked ttl p t := by
  induction h with
  | refl => exact hs
  | tail _ hmove ih => exact ih.move hmove

/-! ## The runs of the two systems -/

/-- What the cache does in a run of the system is a run of the cache. -/
theorem runs_coarse {as : List (Action V)} (hs : Tracked ttl p s) (h : Runs ttl p s as t) :
    ∃ bs : List (Action (Oracle Req Ans)), as = bs.map (Action.mapInput p.value) ∧
      exec (step ttl p.value) s.cache bs = some t.cache := by
  induction h with
  | refl => exact ⟨[], rfl, rfl⟩
  | @tail as a t u hruns hmove ih =>
    obtain ⟨bs, rfl, hexec⟩ := ih
    rcases (tracked_runs hs hruns).coarse hmove with ⟨rfl, hcache⟩ | ⟨b, rfl, hstep⟩
    · rw [hcache]
      exact ⟨bs, List.append_nil _, hexec⟩
    · refine ⟨bs ++ [b], ?_, exec_concat.mpr ⟨_, hexec, hstep⟩⟩
      rw [List.map_append]
      rfl

/-- The requests of the future can be answered one after the other while nobody else
moves. -/
theorem runs_steps {as : List (Action V)} {w : Work Req Ans V} {flight : Flight}
    {left left' : Future Req Ans V} {ahead ahead' : Oracle Req Ans} {events : List (Event Req Ans)}
    (h : Steps left ahead events left' ahead') :
    ∀ {t : System Req Ans V}, Runs ttl p s as t → t.cache.inFlight = some flight →
      t.work = some { w with left, ahead } →
      Runs ttl p s as
        { t with
          work := some { w with left := left', ahead := ahead' }
          log := t.log ++ events.map fun event => (flight.round, event) } := by
  induction h with
  | refl left ahead =>
    intro t hruns _ hwork
    rw [List.map_nil, List.append_nil, ← hwork]
    exact hruns
  | head h _ ih =>
    intro t hruns hflight hwork
    have hnext := hruns.tail (.probe hwork hflight h)
    rw [Option.toList_none, List.append_nil] at hnext
    have hrest := ih hnext hflight rfl
    rw [List.append_assoc, ← List.map_append] at hrest
    exact hrest

/-- A run of the cache is what the cache does in some run of the system, and the
future in flight, if any, may have been started with any answers. -/
theorem runs_fine {bs : List (Action (Oracle Req Ans))} {c : State V}
    (h : exec (step ttl p.value) .init bs = some c) (world : Oracle Req Ans) :
    ∃ log, Runs ttl p .init (bs.map (Action.mapInput p.value))
      { cache := c
        work := c.inFlight.map fun _ => { world, left := p, ahead := world }
        log } := by
  induction bs using List.reverseRecOn generalizing c world with
  | nil =>
    cases h
    exact ⟨[], .refl⟩
  | append_singleton bs b ih =>
    obtain ⟨d, hd, hstep⟩ := exec_concat.mp h
    have hcoherent : Coherent ttl p.value d := coherent_exec coherent_init hd
    rw [List.map_append]
    have hfine : step ttl id d (b.mapInput p.value) = some c := (step_mapInput _ _ _ _).trans hstep
    by_cases hflight : c.inFlight = d.inFlight
    · obtain ⟨log, hruns⟩ := ih hd world
      refine ⟨log, ?_⟩
      rw [hflight]
      exact hruns.tail (.cache (b.mapInput p.value) hfine hflight)
    · obtain ⟨u, hmove, rfl⟩ := step_moves ttl p.value hstep
      cases hmove with
      | tick duration => exact absurd rfl hflight
      | arrive => exact absurd rfl hflight
      | turn a hi hturn => exact absurd rfl hflight
      | expire he hdead => exact absurd rfl hflight
      | start i hi hnone hlive =>
        obtain ⟨log, hruns⟩ := ih hd world
        exact ⟨log, hruns.tail (.start i world hfine hnone (by simp [State.startRound]))⟩
      | @finish i input lookup r hi =>
        -- The future was started with the answers that the value comes from.
        obtain ⟨log, hruns⟩ := ih hd input
        have howner := hcoherent.owners i lookup r hi
        rw [howner, Option.map_some] at hruns
        obtain ⟨events, ahead, hsteps⟩ := exists_steps p input
        have hover := runs_steps (w := { world := input, left := p, ahead := input })
          hsteps hruns howner rfl
        exact ⟨_, hover.tail (.finish i rfl rfl hfine)⟩
      | @abandon i lookup r hi =>
        obtain ⟨log, hruns⟩ := ih hd world
        have howner := hcoherent.owners i lookup r hi
        exact ⟨log, hruns.tail (.abandon i hfine (by simp [howner]) rfl)⟩

/-- The two systems have the same runs. -/
theorem runs_iff (world : Oracle Req Ans) {as : List (Action V)} {c : State V} :
    (∃ t, Runs ttl p .init as t ∧ t.cache = c) ↔
      ∃ bs : List (Action (Oracle Req Ans)), as = bs.map (Action.mapInput p.value) ∧
        exec (step ttl p.value) .init bs = some c := by
  constructor
  · intro h
    obtain ⟨t, hruns, rfl⟩ := h
    exact runs_coarse tracked_init hruns
  · intro h
    obtain ⟨bs, rfl, hexec⟩ := h
    obtain ⟨log, hruns⟩ := runs_fine hexec world
    exact ⟨_, hruns, rfl⟩

/-! ## What was answered -/

/-- The answered requests of a round are among those of its future, and they are all of
them when the round brought a value, which is the one that comes of the answers. -/
theorem Tracked.accounted (hs : Tracked ttl p s) {r : Nat} {round : Round V}
    (hr : s.cache.rounds[r]? = some round) :
    ∃ o, (s.events r).Subperm (p.log o) ∧ ∀ finish value, round.outcome = .completed finish value →
      (s.events r).Perm (p.log o) ∧ value = p.value o := by
  obtain ⟨o, left, ahead, hsteps, hready⟩ := hs.traced r round hr
  refine ⟨o, hsteps.subperm_log, ?_⟩
  intro finish value houtcome
  obtain rfl := hready finish value houtcome
  exact ⟨hsteps.perm_log, hsteps.value_eq⟩

/-- No request of a round that is over is answered. -/
theorem Tracked.events_move (hs : Tracked ttl p s) {a : Option (Action V)} (h : Move ttl p s a t)
    {r : Nat} {round : Round V} (hr : s.cache.rounds[r]? = some round)
    (hover : round.outcome ≠ .running) : t.events r = s.events r := by
  cases h with
  | cache a h hflight => rfl
  | start i world h hnone hflight => rfl
  | @probe w flight e left ahead hwork hflight h =>
    obtain ⟨⟨start, hrunning⟩, -, -⟩ := hs.coherent.flight flight hflight
    rw [events_append, if_neg, List.append_nil]
    intro hrr
    subst hrr
    obtain rfl := Option.some.inj (hrunning.symm.trans hr)
    exact hover rfl
  | finish i hwork hready h => rfl
  | abandon i h hflight hnone => rfl

theorem Tracked.round_move (hs : Tracked ttl p s) {a : Option (Action V)} (h : Move ttl p s a t)
    {r : Nat} {round : Round V} (hr : s.cache.rounds[r]? = some round)
    (hover : round.outcome ≠ .running) : t.cache.rounds[r]? = some round := by
  rcases hs.coarse h with ⟨-, hcache⟩ | ⟨b, -, hstep⟩
  · rw [hcache]
    exact hr
  · obtain ⟨u, hmove, heq⟩ := step_moves ttl p.value hstep
    rw [heq]
    exact hmove.round_stays hs.coherent hr hover

theorem Tracked.events_runs (hs : Tracked ttl p s) {as : List (Action V)} (h : Runs ttl p s as t)
    {r : Nat} {round : Round V} (hr : s.cache.rounds[r]? = some round)
    (hover : round.outcome ≠ .running) :
    t.events r = s.events r ∧ t.cache.rounds[r]? = some round := by
  induction h with
  | refl => exact ⟨rfl, hr⟩
  | tail hruns hmove ih =>
    have ht := tracked_runs hs hruns
    refine ⟨?_, ht.round_move hmove ih.2 hover⟩
    rw [ht.events_move hmove ih.2 hover]
    exact ih.1

/-- The log is what was answered in the rounds. -/
theorem countP_log {log : List (Nat × Event Req Ans)} {n : Nat} (h : ∀ e ∈ log, e.1 < n)
    (P : Event Req Ans → Bool) :
    (log.countP fun e => P e.2) =
      ∑ r ∈ Finset.range n, ((log.filter fun e => e.1 = r).map Prod.snd).countP P := by
  rw [countP_eq_sum_filter (f := id) (g := Prod.fst) Function.injective_id
    fun e he _ => ⟨e.1, h e he, rfl⟩]
  apply Finset.sum_congr rfl
  intro r _
  rw [List.countP_map]
  rfl

end Stepwise

end Concurrency

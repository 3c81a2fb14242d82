import AxumHealth.Concurrency.Exec

/-!
# A cached value with one computation in flight

A cache of one entry that expires a fixed time after it was written, read by any
number of requests.  A request that finds no live entry waits for the computation
that is in flight, or starts one after looking again.  The value of a computation
goes into the cache and to the requests that wait for it.  A request can go away
at any time; when it is the one that runs the computation, the computation is
abandoned, and those that waited for it start over.

Time passes by itself, in steps of any length, and `order` numbers the steps, so
that two events at one instant are still ordered.
-/

namespace Concurrency

namespace SingleFlight

structure Stamp where
  time : Nat
  order : Nat
  deriving DecidableEq, Repr

inductive Outcome (V : Type)
  | running
  | completed (finish : Stamp) (value : V)
  | abandoned

/-- One computation of the value. -/
structure Round (V : Type) where
  start : Stamp
  outcome : Outcome V

structure Entry (V : Type) where
  round : Nat
  value : V
  inserted : Nat

/-- A request, with the moment it looked the cache up and found nothing. -/
inductive Phase (V : Type)
  | arrived
  | missed (lookup : Stamp)
  | waiting (lookup : Stamp) (round : Nat)
  | running (lookup : Stamp) (round : Nat)
  | answered (lookup : Stamp) (round : Nat) (value : V)
  | gone

/-- The request goes on and does not own a computation. -/
def Phase.idle {V : Type} : Phase V → Bool
  | .arrived => true
  | .missed _ => true
  | .waiting _ _ => true
  | _ => false

/-- The round in flight and the request that runs it. -/
structure Flight where
  round : Nat
  owner : Nat
  deriving DecidableEq, Repr

structure State (V : Type) where
  now : Nat
  order : Nat
  entry : Option (Entry V)
  rounds : List (Round V)
  inFlight : Option Flight
  requests : List (Phase V)

def State.init {V : Type} : State V :=
  { now := 0, order := 0, entry := none, rounds := [], inFlight := none, requests := [] }

inductive Action (X : Type)
  | tick (duration : Nat)
  | arrive
  | lookup (request : Nat)
  | join (request : Nat)
  /-- Look again, and start a computation if there is still no live entry. -/
  | acquire (request : Nat)
  | complete (request : Nat) (input : X)
  /-- The round the request waits for is over. -/
  | deliver (request : Nat)
  | expire
  | disconnect (request : Nat)

variable {V X : Type} (ttl : Nat) (init : X → V)

namespace State

def stamp (s : State V) : Stamp := { time := s.now, order := s.order }

/-- The entry, unless it has expired. -/
def liveEntry (s : State V) : Option (Entry V) :=
  s.entry.filter fun e => s.now < e.inserted + ttl

def setRequest (s : State V) (i : Nat) (phase : Phase V) : State V :=
  { s with requests := s.requests.set i phase }

def setOutcome (s : State V) (r : Nat) (outcome : Outcome V) : State V :=
  { s with rounds := s.rounds.modify r fun round => { round with outcome } }

/-- Request `i` starts a round. -/
def startRound (s : State V) (i : Nat) (lookup : Stamp) : State V :=
  { s.setRequest i (.running lookup s.rounds.length) with
    rounds := s.rounds ++ [{ start := s.stamp, outcome := .running }]
    inFlight := some { round := s.rounds.length, owner := i } }

/-- Round `r` of request `i` is over with a value. -/
def finishRound (s : State V) (i : Nat) (lookup : Stamp) (r : Nat) (value : V) : State V :=
  { (s.setRequest i (.answered lookup r value)).setOutcome r (.completed s.stamp value) with
    entry := some { round := r, value, inserted := s.now }
    inFlight := none }

/-- Round `r` of request `i` is dropped with the request. -/
def abandonRound (s : State V) (i r : Nat) : State V :=
  { (s.setRequest i .gone).setOutcome r .abandoned with inFlight := none }

/-- The effect of an action, but for the number of the step. -/
def act (s : State V) : Action X → Option (State V)
  | .tick duration => some { s with now := s.now + duration }
  | .arrive => some { s with requests := s.requests ++ [.arrived] }
  | .lookup i =>
    match s.requests[i]? with
    | some .arrived =>
      match s.liveEntry ttl with
      | some e => some (s.setRequest i (.answered s.stamp e.round e.value))
      | none => some (s.setRequest i (.missed s.stamp))
    | _ => none
  | .join i =>
    match s.requests[i]?, s.inFlight with
    | some (.missed lookup), some flight => some (s.setRequest i (.waiting lookup flight.round))
    | _, _ => none
  | .acquire i =>
    match s.requests[i]?, s.inFlight with
    | some (.missed lookup), none =>
      match s.liveEntry ttl with
      | some e => some (s.setRequest i (.answered lookup e.round e.value))
      | none => some (s.startRound i lookup)
    | _, _ => none
  | .complete i input =>
    match s.requests[i]? with
    | some (.running lookup r) => some (s.finishRound i lookup r (init input))
    | _ => none
  | .deliver i =>
    match s.requests[i]? with
    | some (.waiting lookup r) =>
      match s.rounds[r]? with
      | some { outcome := .completed _ value, .. } =>
        some (s.setRequest i (.answered lookup r value))
      | some { outcome := .abandoned, .. } => some (s.setRequest i (.missed lookup))
      | _ => none
    | _ => none
  | .expire =>
    match s.entry with
    | some e => if s.now < e.inserted + ttl then none else some { s with entry := none }
    | none => none
  | .disconnect i =>
    match s.requests[i]? with
    | some (.running _ r) => some (s.abandonRound i r)
    | some phase => if phase.idle then some (s.setRequest i .gone) else none
    | none => none

end State

def step (s : State V) (a : Action X) : Option (State V) :=
  (s.act ttl init a).map fun t => { t with order := t.order + 1 }

/-- The same action, but for the input a computation completes with. -/
inductive SameAction (R : X → X → Prop) : Action X → Action X → Prop
  | complete (i : Nat) {x x' : X} (h : R x x') : SameAction R (.complete i x) (.complete i x')
  | other {a : Action X} (h : ∀ i x, a ≠ .complete i x) : SameAction R a a

/-- The cache sees of an input only the value that is computed from it. -/
theorem step_congr {R : X → X → Prop} {init init' : X → V}
    (hinit : ∀ x x', R x x' → init x = init' x') {a a' : Action X} (h : SameAction R a a')
    (s : State V) : step ttl init s a = step ttl init' s a' := by
  cases h with
  | complete i h =>
    show Option.map _ (s.act ttl init _) = Option.map _ (s.act ttl init' _)
    rw [State.act, State.act, hinit _ _ h]
  | other h =>
    cases a with
    | complete i x => exact absurd rfl (h i x)
    | _ => rfl

/-! ## What a step can do -/

/-- A step of one request that leaves the cache and the rounds alone. -/
inductive Turn (s : State V) : Phase V → Phase V → Prop
  | hit {e : Entry V} (h : s.liveEntry ttl = some e) :
      Turn s .arrived (.answered s.stamp e.round e.value)
  | miss (h : s.liveEntry ttl = none) : Turn s .arrived (.missed s.stamp)
  | join (lookup : Stamp) {flight : Flight} (h : s.inFlight = some flight) :
      Turn s (.missed lookup) (.waiting lookup flight.round)
  | recheck (lookup : Stamp) {e : Entry V} (h : s.liveEntry ttl = some e) :
      Turn s (.missed lookup) (.answered lookup e.round e.value)
  | deliver (lookup : Stamp) {r : Nat} {start finish : Stamp} {value : V}
      (h : s.rounds[r]? = some { start, outcome := .completed finish value }) :
      Turn s (.waiting lookup r) (.answered lookup r value)
  | retry (lookup : Stamp) (r : Nat) : Turn s (.waiting lookup r) (.missed lookup)
  | leave {phase : Phase V} (h : phase.idle = true) : Turn s phase .gone

/-- The effect of a step, but for its number. -/
inductive Moves (s : State V) : Action X → State V → Prop
  | tick (duration : Nat) : Moves s (.tick duration) { s with now := s.now + duration }
  | arrive : Moves s .arrive { s with requests := s.requests ++ [.arrived] }
  | turn (a : Action X) {i : Nat} {phase phase' : Phase V} (h : s.requests[i]? = some phase)
      (hturn : Turn ttl s phase phase') : Moves s a (s.setRequest i phase')
  | start (i : Nat) {lookup : Stamp} (h : s.requests[i]? = some (.missed lookup))
      (hflight : s.inFlight = none) (hlive : s.liveEntry ttl = none) :
      Moves s (.acquire i) (s.startRound i lookup)
  | finish (i : Nat) (input : X) {lookup : Stamp} {r : Nat}
      (h : s.requests[i]? = some (.running lookup r)) :
      Moves s (.complete i input) (s.finishRound i lookup r (init input))
  | expire {e : Entry V} (h : s.entry = some e) (hdead : e.inserted + ttl ≤ s.now) :
      Moves s .expire { s with entry := none }
  | abandon (i : Nat) {lookup : Stamp} {r : Nat}
      (h : s.requests[i]? = some (.running lookup r)) :
      Moves s (.disconnect i) (s.abandonRound i r)

section Inversion

variable {ttl : Nat} {init : X → V} {s t : State V} {i : Nat}

theorem lookup_moves (h : s.act ttl init (.lookup i) = some t) :
    Moves ttl init s (.lookup i) t := by
  cases hi : s.requests[i]? with
  | none => simp [State.act, hi] at h
  | some phase =>
    cases phase with
    | arrived =>
      cases hl : s.liveEntry ttl with
      | none =>
        simp only [State.act, hi, hl, Option.some.injEq] at h
        subst h
        exact .turn _ hi (.miss hl)
      | some e =>
        simp only [State.act, hi, hl, Option.some.injEq] at h
        subst h
        exact .turn _ hi (.hit hl)
    | _ => simp [State.act, hi] at h

theorem join_moves (h : s.act ttl init (.join i) = some t) : Moves ttl init s (.join i) t := by
  cases hi : s.requests[i]? with
  | none => simp [State.act, hi] at h
  | some phase =>
    cases phase with
    | missed lookup =>
      cases hf : s.inFlight with
      | none => simp [State.act, hi, hf] at h
      | some flight =>
        simp only [State.act, hi, hf, Option.some.injEq] at h
        subst h
        exact .turn _ hi (.join lookup hf)
    | _ => simp [State.act, hi] at h

theorem acquire_moves (h : s.act ttl init (.acquire i) = some t) :
    Moves ttl init s (.acquire i) t := by
  cases hi : s.requests[i]? with
  | none => simp [State.act, hi] at h
  | some phase =>
    cases phase with
    | missed lookup =>
      cases hf : s.inFlight with
      | some flight => simp [State.act, hi, hf] at h
      | none =>
        cases hl : s.liveEntry ttl with
        | none =>
          simp only [State.act, hi, hf, hl, Option.some.injEq] at h
          subst h
          exact .start i hi hf hl
        | some e =>
          simp only [State.act, hi, hf, hl, Option.some.injEq] at h
          subst h
          exact .turn _ hi (.recheck lookup hl)
    | _ => simp [State.act, hi] at h

theorem complete_moves {input : X} (h : s.act ttl init (.complete i input) = some t) :
    Moves ttl init s (.complete i input) t := by
  cases hi : s.requests[i]? with
  | none => simp [State.act, hi] at h
  | some phase =>
    cases phase with
    | running lookup r =>
      simp only [State.act, hi, Option.some.injEq] at h
      subst h
      exact .finish i input hi
    | _ => simp [State.act, hi] at h

theorem deliver_moves (h : s.act ttl init (.deliver i) = some t) :
    Moves ttl init s (.deliver i) t := by
  cases hi : s.requests[i]? with
  | none => simp [State.act, hi] at h
  | some phase =>
    cases phase with
    | waiting lookup r =>
      cases hr : s.rounds[r]? with
      | none => simp [State.act, hi, hr] at h
      | some round =>
        obtain ⟨start, outcome⟩ := round
        cases outcome with
        | running => simp [State.act, hi, hr] at h
        | completed finish value =>
          simp only [State.act, hi, hr, Option.some.injEq] at h
          subst h
          exact .turn _ hi (.deliver lookup hr)
        | abandoned =>
          simp only [State.act, hi, hr, Option.some.injEq] at h
          subst h
          exact .turn _ hi (.retry lookup r)
    | _ => simp [State.act, hi] at h

theorem expire_moves (h : s.act ttl init .expire = some t) : Moves ttl init s .expire t := by
  cases he : s.entry with
  | none => simp [State.act, he] at h
  | some e =>
    by_cases hlive : s.now < e.inserted + ttl
    · simp [State.act, he, hlive] at h
    · simp only [State.act, he, hlive, if_false, Option.some.injEq] at h
      subst h
      exact .expire he (Nat.le_of_not_lt hlive)

theorem disconnect_moves (h : s.act ttl init (.disconnect i) = some t) :
    Moves ttl init s (.disconnect i) t := by
  cases hi : s.requests[i]? with
  | none => simp [State.act, hi] at h
  | some phase =>
    cases phase with
    | running lookup r =>
      simp only [State.act, hi, Option.some.injEq] at h
      subst h
      exact .abandon i hi
    | arrived | missed _ | waiting _ _ =>
      simp only [State.act, hi, Phase.idle, if_true, Option.some.injEq] at h
      subst h
      exact .turn _ hi (.leave rfl)
    | answered _ _ _ | gone => simp [State.act, hi, Phase.idle] at h

theorem act_moves {a : Action X} (h : s.act ttl init a = some t) : Moves ttl init s a t := by
  cases a with
  | tick duration =>
    cases h
    exact .tick duration
  | arrive =>
    cases h
    exact .arrive
  | lookup i => exact lookup_moves h
  | join i => exact join_moves h
  | acquire i => exact acquire_moves h
  | complete i input => exact complete_moves h
  | deliver i => exact deliver_moves h
  | expire => exact expire_moves h
  | disconnect i => exact disconnect_moves h

end Inversion

theorem step_moves {s t : State V} {a : Action X} (h : step ttl init s a = some t) :
    ∃ u, Moves ttl init s a u ∧ t = { u with order := u.order + 1 } := by
  obtain ⟨u, hu, rfl⟩ := Option.map_eq_some_iff.mp h
  exact ⟨u, act_moves hu, rfl⟩

/-! ## Rounds -/

variable {ttl : Nat} {init : X → V}

/-- Round `r` completed with a value. -/
def Completed (s : State V) (r : Nat) (finish : Stamp) (value : V) : Prop :=
  ∃ start, s.rounds[r]? = some { start, outcome := .completed finish value }

theorem Completed.unique {s : State V} {r : Nat} {finish finish' : Stamp} {value value' : V}
    (h : Completed s r finish value) (h' : Completed s r finish' value') :
    finish = finish' ∧ value = value' := by
  obtain ⟨start, hr⟩ := h
  obtain ⟨start', hr'⟩ := h'
  rw [hr] at hr'
  cases hr'
  exact ⟨rfl, rfl⟩

theorem getElem?_setOutcome (s : State V) (r r' : Nat) (outcome : Outcome V) :
    (s.setOutcome r outcome).rounds[r']? =
      if r = r' then (s.rounds[r']?).map fun round => { round with outcome }
      else s.rounds[r']? := by
  simp only [State.setOutcome, List.getElem?_modify]
  by_cases h : r = r'
  · simp [h]
  · simp [h]

/-- Setting the outcome of a running round adds no other completion. -/
theorem completed_setOutcome {s : State V} {r : Nat} {start : Stamp}
    (h : s.rounds[r]? = some { start, outcome := .running }) (outcome : Outcome V) (r' : Nat)
    (finish : Stamp) (value : V) :
    Completed (s.setOutcome r outcome) r' finish value ↔
      Completed s r' finish value ∨ (r' = r ∧ outcome = .completed finish value) := by
  unfold Completed
  rw [getElem?_setOutcome]
  by_cases hr : r = r'
  · subst hr
    simp [h]
  · have hr' : r' ≠ r := fun heq => hr heq.symm
    simp [hr, hr']

theorem completed_startRound (s : State V) (i : Nat) (lookup : Stamp) (r : Nat) (finish : Stamp)
    (value : V) :
    Completed (s.startRound i lookup) r finish value ↔ Completed s r finish value := by
  unfold Completed
  have hrounds : (s.startRound i lookup).rounds =
      s.rounds ++ [{ start := s.stamp, outcome := .running }] := rfl
  rw [hrounds]
  rcases Nat.lt_trichotomy r s.rounds.length with hlt | heq | hgt
  · rw [List.getElem?_append_left hlt]
  · subst heq
    simp
  · rw [List.getElem?_eq_none (by simp; omega), List.getElem?_eq_none (by omega)]

theorem liveEntry_eq_none_iff {s : State V} :
    s.liveEntry ttl = none ↔ ∀ e, s.entry = some e → e.inserted + ttl ≤ s.now := by
  unfold State.liveEntry
  cases s.entry with
  | none => simp
  | some e => simp

theorem liveEntry_eq_some_iff {s : State V} {e : Entry V} :
    s.liveEntry ttl = some e ↔ s.entry = some e ∧ s.now < e.inserted + ttl := by
  unfold State.liveEntry
  rw [Option.filter_eq_some_iff, decide_eq_true_iff]

end SingleFlight

end Concurrency

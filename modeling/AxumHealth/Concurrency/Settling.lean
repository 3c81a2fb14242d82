import AxumHealth.Concurrency.Stepwise

/-!
# Every request is answered

The outside may pass time and expire the entry as it likes.  When no client comes or
goes any more, the requests and the computation in flight can take finitely many
steps, whichever order they take them in, and as long as a request is not answered
one of them can take a step.  The measure is the weight of the requests, and then
what is left of the computation in flight.
-/

namespace Concurrency

namespace SingleFlight

variable {V X : Type}

/-- What a client or the clock does. -/
def Action.outside : Action X → Bool
  | .tick _ => true
  | .arrive => true
  | .expire => true
  | .disconnect _ => true
  | _ => false

/-- What the clock does. -/
def Action.passing : Action X → Bool
  | .tick _ => true
  | .expire => true
  | _ => false

/-- A round that waiting requests have to try again after. -/
def State.abandoned (c : State V) (r : Nat) : Bool :=
  match c.rounds[r]? with
  | some { outcome := .abandoned, .. } => true
  | _ => false

/-- The steps a request may still take. -/
def State.weight (c : State V) : Phase V → Nat
  | .arrived => 4
  | .missed _ => 3
  | .waiting _ r => if c.abandoned r then 4 else 1
  | .running _ _ => 2
  | .answered _ _ _ => 0
  | .gone => 0

def State.load (c : State V) : Nat := (c.requests.map c.weight).sum

/-- The round in flight has a request that runs it, and a request waits for a round
there is. -/
structure Attended (c : State V) : Prop where
  owner : ∀ flight, c.inFlight = some flight →
    ∃ lookup, c.requests[flight.owner]? = some (.running lookup flight.round)
  joined : ∀ (i : Nat) lookup r, c.requests[i]? = some (.waiting lookup r) → r < c.rounds.length

variable {ttl : Nat} {f : X → V} {c d : State V}

theorem attended_init : Attended (State.init : State V) where
  owner flight h := by cases h
  joined i lookup r h := by simp [State.init] at h

theorem Turn.not_from_running {phase' : Phase V} {lookup : Stamp} {r : Nat} :
    ¬ Turn ttl c (.running lookup r) phase' := by
  intro h
  cases h with
  | leave hidle => cases hidle

/-- The requests that another one's step leaves alone. -/
theorem Attended.joined_set (hc : Attended c) {i : Nat} {phase : Phase V} {n : Nat}
    (hn : c.rounds.length ≤ n) (hphase : ∀ lookup r, phase = .waiting lookup r → r < n) (j : Nat)
    (lookup : Stamp) (r : Nat) (hj : (c.requests.set i phase)[j]? = some (.waiting lookup r)) :
    r < n := by
  rcases getElem?_set_cases hj with ⟨-, heq⟩ | ⟨-, hold⟩
  · exact hphase lookup r heq.symm
  · exact Nat.lt_of_lt_of_le (hc.joined j lookup r hold) hn

theorem Attended.turn (hc : Attended c) (hcoherent : Coherent ttl f c) {i : Nat}
    {phase phase' : Phase V} (hi : c.requests[i]? = some phase)
    (hturn : Turn ttl c phase phase') : Attended (c.setRequest i phase').next := by
  constructor
  · intro flight hflight
    obtain ⟨lookup, howner⟩ := hc.owner flight hflight
    refine ⟨lookup, ?_⟩
    have hne : i ≠ flight.owner := by
      intro heq
      rw [heq, howner] at hi
      obtain rfl := Option.some.inj hi
      exact hturn.not_from_running
    show (c.requests.set i phase')[flight.owner]? = _
    rw [List.getElem?_set_ne hne]
    exact howner
  · refine hc.joined_set (Nat.le_refl _) ?_
    intro lookup r heq
    subst heq
    cases hturn with
    | @join _ flight hflight =>
      have hlast := (hcoherent.flight flight hflight).2.1
      show flight.round < c.rounds.length
      omega

theorem attended_step (hc : Attended c) (hcoherent : Coherent ttl f c) {a : Action X}
    (h : step ttl f c a = some d) : Attended d := by
  obtain ⟨u, hmove, rfl⟩ := step_moves ttl f h
  have hmodify : ∀ (r : Nat) (outcome : Outcome V),
      c.rounds.length ≤ (c.setOutcome r outcome).rounds.length := by
    intro r outcome
    rw [State.setOutcome, List.length_modify]
  cases hmove with
  | tick duration => exact ⟨hc.owner, hc.joined⟩
  | arrive =>
    constructor
    · intro flight hflight
      obtain ⟨lookup, howner⟩ := hc.owner flight hflight
      refine ⟨lookup, ?_⟩
      show (c.requests ++ [Phase.arrived])[flight.owner]? = _
      rw [List.getElem?_append_left (List.getElem?_eq_some_iff.mp howner).1]
      exact howner
    · intro i lookup r hi
      rcases getElem?_concat_cases hi with hold | ⟨-, heq⟩
      · exact hc.joined i lookup r hold
      · cases heq
  | turn a hi hturn => exact hc.turn hcoherent hi hturn
  | @start i lookup hi hflight hlive =>
    constructor
    · intro flight heq
      cases heq
      refine ⟨lookup, ?_⟩
      show (c.requests.set i (.running lookup c.rounds.length))[i]? = _
      rw [List.getElem?_set_self (List.getElem?_eq_some_iff.mp hi).1]
    · refine hc.joined_set ?_ (fun _ _ heq => by cases heq)
      show c.rounds.length ≤ (c.rounds ++ [_]).length
      rw [List.length_append]
      exact Nat.le_add_right _ _
  | finish i input hi =>
    constructor
    · intro flight heq
      cases heq
    · exact hc.joined_set (hmodify _ _) fun _ _ heq => by cases heq
  | expire he hdead => exact ⟨hc.owner, hc.joined⟩
  | abandon i hi =>
    constructor
    · intro flight heq
      cases heq
    · exact hc.joined_set (hmodify _ _) fun _ _ heq => by cases heq

/-! ## The weight of a step -/

theorem sum_map_set_lt {α : Type} {l : List α} {i : Nat} {a b : α} {w : α → Nat}
    (h : l[i]? = some a) (hlt : w b < w a) : ((l.set i b).map w).sum < (l.map w).sum := by
  induction l generalizing i with
  | nil => simp at h
  | cons head rest ih =>
    cases i with
    | zero =>
      obtain rfl := Option.some.inj h
      simp only [List.set_cons_zero, List.map_cons, List.sum_cons]
      omega
    | succ i =>
      have hrest := ih h
      simp only [List.set_cons_succ, List.map_cons, List.sum_cons]
      omega

/-- A step of one request that makes it lighter and does not end it. -/
def Lighter (c d : State V) : Prop :=
  ∃ (i : Nat) (phase phase' : Phase V), c.requests[i]? = some phase ∧
    d.requests = c.requests.set i phase' ∧ d.abandoned = c.abandoned ∧
    c.weight phase' < c.weight phase ∧ phase' ≠ .gone

theorem weight_congr (h : d.abandoned = c.abandoned) : d.weight = c.weight := by
  funext phase
  cases phase with
  | waiting lookup r => rw [State.weight, State.weight, h]
  | _ => rfl

theorem Lighter.load_lt (h : Lighter c d) : d.load < c.load := by
  obtain ⟨i, phase, phase', hi, hrequests, habandoned, hlt, -⟩ := h
  rw [State.load, State.load, hrequests, weight_congr habandoned]
  exact sum_map_set_lt hi hlt

theorem step_lookup {i : Nat} (h : step ttl f c (.lookup i) = some d) : Lighter c d := by
  obtain ⟨u, hact, rfl⟩ := Option.map_eq_some_iff.mp h
  cases hi : c.requests[i]? with
  | none => simp [State.act, hi] at hact
  | some phase =>
    cases phase with
    | arrived =>
      cases hl : c.liveEntry ttl with
      | none =>
        simp only [State.act, hi, hl, Option.some.injEq] at hact
        subst hact
        exact ⟨i, _, _, hi, rfl, rfl, by simp [State.weight], by simp⟩
      | some e =>
        simp only [State.act, hi, hl, Option.some.injEq] at hact
        subst hact
        exact ⟨i, _, _, hi, rfl, rfl, by simp [State.weight], by simp⟩
    | _ => simp [State.act, hi] at hact

theorem step_join {i : Nat} (hcoherent : Coherent ttl f c)
    (h : step ttl f c (.join i) = some d) : Lighter c d := by
  obtain ⟨u, hact, rfl⟩ := Option.map_eq_some_iff.mp h
  cases hi : c.requests[i]? with
  | none => simp [State.act, hi] at hact
  | some phase =>
    cases phase with
    | missed lookup =>
      cases hf : c.inFlight with
      | none => simp [State.act, hi, hf] at hact
      | some flight =>
        simp only [State.act, hi, hf, Option.some.injEq] at hact
        subst hact
        obtain ⟨⟨start, hrunning⟩, -, -⟩ := hcoherent.flight flight hf
        have hnot : c.abandoned flight.round = false := by
          rw [State.abandoned, hrunning]
        exact ⟨i, _, _, hi, rfl, rfl, by simp [State.weight, hnot], by simp⟩
    | _ => simp [State.act, hi] at hact

theorem step_deliver {i : Nat} (h : step ttl f c (.deliver i) = some d) : Lighter c d := by
  obtain ⟨u, hact, rfl⟩ := Option.map_eq_some_iff.mp h
  cases hi : c.requests[i]? with
  | none => simp [State.act, hi] at hact
  | some phase =>
    cases phase with
    | waiting lookup r =>
      cases hr : c.rounds[r]? with
      | none => simp [State.act, hi, hr] at hact
      | some round =>
        obtain ⟨start, outcome⟩ := round
        cases outcome with
        | running => simp [State.act, hi, hr] at hact
        | completed finish value =>
          simp only [State.act, hi, hr, Option.some.injEq] at hact
          subst hact
          have hnot : c.abandoned r = false := by
            rw [State.abandoned, hr]
          exact ⟨i, _, _, hi, rfl, rfl, by simp [State.weight, hnot], by simp⟩
        | abandoned =>
          simp only [State.act, hi, hr, Option.some.injEq] at hact
          subst hact
          have habandoned : c.abandoned r = true := by
            rw [State.abandoned, hr]
          exact ⟨i, _, _, hi, rfl, rfl, by simp [State.weight, habandoned], by simp⟩
    | _ => simp [State.act, hi] at hact

theorem abandoned_startRound (i : Nat) (lookup : Stamp) :
    (c.startRound i lookup).next.abandoned = c.abandoned := by
  funext r
  unfold State.abandoned
  have hrounds : (c.startRound i lookup).next.rounds =
      c.rounds ++ [{ start := c.stamp, outcome := .running }] := rfl
  rw [hrounds]
  rcases Nat.lt_trichotomy r c.rounds.length with hlt | heq | hgt
  · rw [List.getElem?_append_left hlt]
  · subst heq
    simp
  · rw [List.getElem?_eq_none (by simp; omega), List.getElem?_eq_none (by omega)]

theorem step_acquire_lighter {i : Nat} (h : step ttl f c (.acquire i) = some d) :
    Lighter c d := by
  obtain ⟨u, hact, rfl⟩ := Option.map_eq_some_iff.mp h
  cases hi : c.requests[i]? with
  | none => simp [State.act, hi] at hact
  | some phase =>
    cases phase with
    | missed lookup =>
      cases hf : c.inFlight with
      | some flight => simp [State.act, hi, hf] at hact
      | none =>
        cases hl : c.liveEntry ttl with
        | none =>
          simp only [State.act, hi, hf, hl, Option.some.injEq] at hact
          subst hact
          exact ⟨i, _, _, hi, rfl, abandoned_startRound i lookup, by simp [State.weight], by simp⟩
        | some e =>
          simp only [State.act, hi, hf, hl, Option.some.injEq] at hact
          subst hact
          exact ⟨i, _, _, hi, rfl, rfl, by simp [State.weight], by simp⟩
    | _ => simp [State.act, hi] at hact

theorem step_complete_lighter {i : Nat} {input : X} (hcoherent : Coherent ttl f c)
    (h : step ttl f c (.complete i input) = some d) : Lighter c d := by
  obtain ⟨lookup, r, hi, rfl⟩ := Stepwise.step_complete h
  obtain ⟨start, hrunning⟩ := hcoherent.running_round hi
  refine ⟨i, _, _, hi, rfl, ?_, by simp [State.weight], by simp⟩
  funext r'
  show State.abandoned (c.setOutcome r (.completed c.stamp (f input))) r' = _
  unfold State.abandoned
  rw [getElem?_setOutcome]
  by_cases hrr : r = r'
  · subst hrr
    rw [if_pos rfl, hrunning]
    rfl
  · rw [if_neg hrr]

/-- Whatever a request does but going away makes it lighter. -/
theorem step_lighter (hcoherent : Coherent ttl f c) {a : Action X} (ha : a.outside = false)
    (h : step ttl f c a = some d) : Lighter c d := by
  cases a with
  | lookup i => exact step_lookup h
  | join i => exact step_join hcoherent h
  | acquire i => exact step_acquire_lighter h
  | complete i input => exact step_complete_lighter hcoherent h
  | deliver i => exact step_deliver h
  | tick duration => cases ha
  | arrive => cases ha
  | expire => cases ha
  | disconnect i => cases ha

/-! ## A step there is -/

/-- The request has its answer, or its client has gone away. -/
def Phase.over : Phase V → Bool
  | .answered _ _ _ => true
  | .gone => true
  | _ => false

/-- As long as a request is not answered, a request can take a step, or the round in
flight has to end first. -/
theorem Attended.enabled (hc : Attended c) (hcoherent : Coherent ttl f c) {i : Nat}
    {phase : Phase V} (hi : c.requests[i]? = some phase) (hover : phase.over = false) :
    (∃ a d, a.outside = false ∧ (∀ j input, a ≠ .complete j input) ∧ step ttl f c a = some d) ∨
      ∃ flight, c.inFlight = some flight := by
  cases hf : c.inFlight with
  | some flight => exact .inr ⟨flight, rfl⟩
  | none =>
    left
    cases phase with
    | arrived =>
      refine ⟨.lookup i, ?_⟩
      cases hl : c.liveEntry ttl with
      | none => exact ⟨_, rfl, by simp, by simp only [step, State.act, hi, hl]; rfl⟩
      | some e => exact ⟨_, rfl, by simp, by simp only [step, State.act, hi, hl]; rfl⟩
    | missed lookup =>
      refine ⟨.acquire i, ?_⟩
      cases hl : c.liveEntry ttl with
      | none => exact ⟨_, rfl, by simp, by simp only [step, State.act, hi, hf, hl]; rfl⟩
      | some e => exact ⟨_, rfl, by simp, by simp only [step, State.act, hi, hf, hl]; rfl⟩
    | waiting lookup r =>
      refine ⟨.deliver i, ?_⟩
      obtain ⟨round, hr⟩ : ∃ round, c.rounds[r]? = some round :=
        ⟨_, List.getElem?_eq_getElem (hc.joined i lookup r hi)⟩
      obtain ⟨start, outcome⟩ := round
      cases outcome with
      | running =>
        obtain ⟨j, hj⟩ := hcoherent.running r start hr
        rw [hf] at hj
        cases hj
      | completed finish value =>
        exact ⟨_, rfl, by simp, by simp only [step, State.act, hi, hr]; rfl⟩
      | abandoned => exact ⟨_, rfl, by simp, by simp only [step, State.act, hi, hr]; rfl⟩
    | running lookup r =>
      rw [hcoherent.owners i lookup r hi] at hf
      cases hf
    | answered lookup r value => cases hover
    | gone => cases hover

end SingleFlight

namespace Stepwise

open SingleFlight Future

variable {Req : Type} {Ans : Req → Type} {V : Type}

/-! ## The whole system -/

/-- A step of a request that goes on, or of the computation in flight. -/
def Working (a : Option (Action V)) : Prop := ∀ b, a = some b → b.outside = false

/-- Time passes. -/
inductive Drifts (ttl : Nat) (p : Future Req Ans V) (s : System Req Ans V) :
    System Req Ans V → Prop
  | refl : Drifts ttl p s s
  | tail {a : Action V} {t u : System Req Ans V} (h : Drifts ttl p s t) (ha : a.passing = true)
      (hmove : Move ttl p t (some a) u) : Drifts ttl p s u

/-- Whatever order the steps are taken in, and however much time passes between them,
the system comes to a state that satisfies `P`: no order runs for ever and none gets
stuck. -/
inductive Settles (ttl : Nat) (p : Future Req Ans V) (P : System Req Ans V → Prop) :
    System Req Ans V → Prop
  | done {s : System Req Ans V} (h : P s) : Settles ttl p P s
  | work {s : System Req Ans V}
      (henabled : ∀ t, Drifts ttl p s t → ∃ a u, Working a ∧ Move ttl p t a u)
      (hnext : ∀ t a u, Drifts ttl p s t → Working a → Move ttl p t a u → Settles ttl p P u) :
      Settles ttl p P s

/-- The requests there are in `s` have their answers in `t`, but for those that had
gone away. -/
def Answered (s t : System Req Ans V) : Prop :=
  ∀ (i : Nat) phase, s.cache.requests[i]? = some phase →
    phase = .gone ∨ ∃ lookup r value, t.cache.requests[i]? = some (.answered lookup r value)

/-- The requests of `s` are those of `t`, and none has gone away since. -/
structure Stay (s t : System Req Ans V) : Prop where
  length : t.cache.requests.length = s.cache.requests.length
  gone : ∀ i : Nat, t.cache.requests[i]? = some .gone → s.cache.requests[i]? = some .gone

def System.cost (s : System Req Ans V) : Nat :=
  match s.work with
  | some w => w.left.cost w.ahead
  | none => 0

variable {ttl : Nat} {p : Future Req Ans V} {s t u : System Req Ans V}

theorem outside_mapInput {X Y : Type} (f : X → Y) (a : Action X) :
    (a.mapInput f).outside = a.outside := by
  cases a <;> rfl

theorem Tracked.attended_move (hs : Tracked ttl p s) (hattended : Attended s.cache)
    {a : Option (Action V)} (h : Move ttl p s a t) : Attended t.cache := by
  rcases hs.coarse h with ⟨-, hcache⟩ | ⟨b, -, hstep⟩
  · rw [hcache]
    exact hattended
  · exact attended_step hattended hs.coherent hstep

/-- A step makes the requests lighter, or uses up one of the computation. -/
theorem Tracked.working_move (hs : Tracked ttl p s) {a : Option (Action V)} (ha : Working a)
    (h : Move ttl p s a t) :
    Lighter s.cache t.cache ∨ (t.cache = s.cache ∧ t.cost < s.cost) := by
  have hlighter : a ≠ none → Lighter s.cache t.cache := by
    intro hsome
    rcases hs.coarse h with ⟨hnone, -⟩ | ⟨b, hb, hstep⟩
    · exact absurd hnone hsome
    · refine step_lighter hs.coherent ?_ hstep
      rw [← outside_mapInput p.value b]
      exact ha _ hb
  cases h with
  | cache a h hflight => exact .inl (hlighter (by simp))
  | start i world h hnone hflight => exact .inl (hlighter (by simp))
  | finish i hwork hready h => exact .inl (hlighter (by simp))
  | abandon i h hflight hnone => exact .inl (hlighter (by simp))
  | @probe w flight e left ahead hwork hflight h =>
    have hcost := h.cost_eq
    refine .inr ⟨rfl, ?_⟩
    show left.cost ahead < s.cost
    rw [System.cost, hwork]
    show left.cost ahead < w.left.cost w.ahead
    omega

/-- What time does not touch. -/
structure Paused (s t : System Req Ans V) : Prop where
  requests : t.cache.requests = s.cache.requests
  rounds : t.cache.rounds = s.cache.rounds
  work : t.work = s.work

theorem step_passing {X : Type} {f : X → V} {c d : State V} {a : Action X}
    (ha : a.passing = true) (h : step ttl f c a = some d) :
    d.requests = c.requests ∧ d.rounds = c.rounds := by
  obtain ⟨u, hact, rfl⟩ := Option.map_eq_some_iff.mp h
  cases a with
  | tick duration =>
    cases hact
    exact ⟨rfl, rfl⟩
  | expire =>
    cases he : c.entry with
    | none => simp [State.act, he] at hact
    | some e =>
      by_cases hlive : c.now < e.inserted + ttl
      · simp [State.act, he, hlive] at hact
      · simp only [State.act, he, hlive, if_false, Option.some.injEq] at hact
        subst hact
        exact ⟨rfl, rfl⟩
  | arrive | lookup _ | join _ | acquire _ | complete _ _ | deliver _ | disconnect _ => cases ha

theorem paused_move {a : Action V} (ha : a.passing = true) (h : Move ttl p s (some a) t) :
    Paused s t := by
  cases h with
  | cache a h hflight =>
    obtain ⟨hrequests, hrounds⟩ := step_passing ha h
    exact ⟨hrequests, hrounds, rfl⟩
  | start i world h hnone hflight => cases ha
  | finish i hwork hready h => cases ha
  | abandon i h hflight hnone => cases ha

theorem paused_drifts (h : Drifts ttl p s t) : Paused s t := by
  induction h with
  | refl => exact ⟨rfl, rfl, rfl⟩
  | tail _ ha hmove ih =>
    have hlast := paused_move ha hmove
    exact ⟨hlast.requests.trans ih.requests, hlast.rounds.trans ih.rounds,
      hlast.work.trans ih.work⟩

theorem Tracked.drifts (hs : Tracked ttl p s) (hattended : Attended s.cache)
    (h : Drifts ttl p s t) : Tracked ttl p t ∧ Attended t.cache := by
  induction h with
  | refl => exact ⟨hs, hattended⟩
  | tail _ _ hmove ih => exact ⟨ih.1.move hmove, ih.1.attended_move ih.2 hmove⟩

theorem Paused.load_eq (h : Paused s t) : t.cache.load = s.cache.load := by
  have habandoned : t.cache.abandoned = s.cache.abandoned := by
    funext r
    rw [State.abandoned, State.abandoned, h.rounds]
  rw [State.load, State.load, h.requests, weight_congr habandoned]

theorem Paused.cost_eq (h : Paused s t) : t.cost = s.cost := by
  rw [System.cost, System.cost, h.work]

theorem Stay.of_requests {s₀ : System Req Ans V} (hs : Stay s₀ s)
    (h : t.cache.requests = s.cache.requests) : Stay s₀ t where
  length := by
    rw [h]
    exact hs.length
  gone i hi := hs.gone i (h ▸ hi)

theorem Stay.of_lighter {s₀ : System Req Ans V} (hs : Stay s₀ s)
    (h : Lighter s.cache t.cache) : Stay s₀ t := by
  obtain ⟨i, phase, phase', hi, hrequests, -, -, hphase⟩ := h
  constructor
  · rw [hrequests, List.length_set]
    exact hs.length
  · intro j hj
    rw [hrequests] at hj
    rcases getElem?_set_cases hj with ⟨-, heq⟩ | ⟨-, hold⟩
    · exact absurd heq.symm hphase
    · exact hs.gone j hold

/-- A request that is not answered yet is not stuck. -/
theorem Tracked.enabled (hs : Tracked ttl p s) (hattended : Attended s.cache)
    (world : Oracle Req Ans) {i : Nat} {phase : Phase V}
    (hi : s.cache.requests[i]? = some phase) (hover : phase.over = false) :
    ∃ a u, Working a ∧ Move ttl p s a u := by
  have hworking : ∀ {a : Action (Oracle Req Ans)}, a.outside = false →
      Working (some (a.mapInput p.value)) := by
    intro a ha b hb
    cases hb
    rw [outside_mapInput]
    exact ha
  rcases hattended.enabled hs.coherent hi hover with
    ⟨a, d, ha, hcomplete, hstep⟩ | ⟨flight, hflight⟩
  · have hfine : step ttl id s.cache (a.mapInput p.value) = some d :=
      (step_mapInput _ _ _ _).trans hstep
    by_cases hflight : d.inFlight = s.cache.inFlight
    · exact ⟨_, _, hworking ha, .cache _ hfine hflight⟩
    · obtain ⟨u, hmove, rfl⟩ := step_moves ttl p.value hstep
      cases hmove with
      | tick duration => cases ha
      | arrive => cases ha
      | turn a hi hturn => exact absurd rfl hflight
      | expire he hdead => cases ha
      | abandon j hj => cases ha
      | finish j input hj => exact absurd rfl (hcomplete j input)
      | start j hj hnone hlive =>
        exact ⟨_, _, hworking (a := .acquire j) rfl,
          .start j world hfine hnone (by simp [State.startRound])⟩
  · obtain ⟨lookup, howner⟩ := hattended.owner flight hflight
    obtain ⟨w, hw, -⟩ := hs.work_of_running howner
    rcases exists_step w.left w.ahead with ⟨v, hready⟩ | ⟨e, left, ahead, hstep⟩
    · refine ⟨_, _, ?_, .finish flight.owner hw hready
        (c := (s.cache.finishRound flight.owner lookup flight.round v).next) ?_⟩
      · intro b hb
        cases hb
        rfl
      · simp only [step, State.act, howner]
        rfl
    · refine ⟨_, _, ?_, .probe hw hflight hstep⟩
      intro b hb
      cases hb

/-- With no request left to answer, those that stayed have their answers. -/
theorem Stay.answered {s₀ : System Req Ans V} (hs : Stay s₀ s)
    (hover : ∀ (i : Nat) phase, s.cache.requests[i]? = some phase → phase.over = true) :
    Answered s₀ s := by
  intro i phase hi
  have hlt : i < s.cache.requests.length := by
    rw [hs.length]
    exact (List.getElem?_eq_some_iff.mp hi).1
  have hget := List.getElem?_eq_getElem hlt
  have hphase := hover i _ hget
  cases hnow : s.cache.requests[i] with
  | answered lookup r value =>
    rw [hnow] at hget
    exact .inr ⟨lookup, r, value, hget⟩
  | gone =>
    rw [hnow] at hget
    exact .inl (Option.some.inj (hi.symm.trans (hs.gone i hget)))
  | arrived | missed _ | waiting _ _ | running _ _ =>
    rw [hnow] at hphase
    cases hphase

/-- The step of the measure, lexicographic in the weight of the requests and the rest
of the computation. -/
theorem settles_of_measure {s₀ : System Req Ans V} (world : Oracle Req Ans)
    (ih : ∀ u, Tracked ttl p u → Attended u.cache → Stay s₀ u →
      (u.cache.load < s.cache.load ∨ (u.cache.load = s.cache.load ∧ u.cost < s.cost)) →
      Settles ttl p (Answered s₀) u)
    (hs : Tracked ttl p s) (hattended : Attended s.cache) (hstay : Stay s₀ s) :
    Settles ttl p (Answered s₀) s := by
  by_cases hover : ∀ (i : Nat) phase, s.cache.requests[i]? = some phase → phase.over = true
  · exact .done (hstay.answered hover)
  · simp only [not_forall, Bool.not_eq_true] at hover
    obtain ⟨i, phase, hi, hover⟩ := hover
    refine .work ?_ ?_
    · intro t hdrifts
      obtain ⟨ht, htattended⟩ := hs.drifts hattended hdrifts
      have hsame := (paused_drifts hdrifts).requests
      exact ht.enabled htattended world (hsame ▸ hi) hover
    · intro t a u hdrifts ha hmove
      obtain ⟨ht, htattended⟩ := hs.drifts hattended hdrifts
      have hpaused := paused_drifts hdrifts
      have htstay : Stay s₀ t := hstay.of_requests hpaused.requests
      rcases ht.working_move ha hmove with hlighter | ⟨hcache, hcost⟩
      · refine ih u (ht.move hmove) (ht.attended_move htattended hmove)
          (htstay.of_lighter hlighter) (.inl ?_)
        rw [← hpaused.load_eq]
        exact hlighter.load_lt
      · refine ih u (ht.move hmove) (ht.attended_move htattended hmove)
          (htstay.of_requests (congrArg State.requests hcache)) (.inr ⟨?_, ?_⟩)
        · rw [hcache, hpaused.load_eq]
        · rw [← hpaused.cost_eq]
          exact hcost

theorem Tracked.settles {s₀ : System Req Ans V} (world : Oracle Req Ans) (hs : Tracked ttl p s)
    (hattended : Attended s.cache) (hstay : Stay s₀ s) : Settles ttl p (Answered s₀) s := by
  induction hload : s.cache.load using Nat.strong_induction_on generalizing s with
  | _ load ihload =>
    induction hcost : s.cost using Nat.strong_induction_on generalizing s with
    | _ cost ihcost =>
      refine settles_of_measure world ?_ hs hattended hstay
      intro u hu huattended hustay hless
      rcases hless with hlighter | ⟨heq, hless⟩
      · exact ihload u.cache.load (hload ▸ hlighter) hu huattended hustay rfl
      · exact ihcost u.cost (hcost ▸ hless) hu huattended hustay (heq.trans hload) rfl

theorem attended_runs {as : List (Action V)} (h : Runs ttl p .init as t) : Attended t.cache := by
  have hrun : Tracked ttl p t ∧ Attended t.cache := by
    induction h with
    | refl => exact ⟨tracked_init, attended_init⟩
    | tail _ hmove ih => exact ⟨ih.1.move hmove, ih.1.attended_move ih.2 hmove⟩
  exact hrun.2

/-- From every state that is reached, every request is answered. -/
theorem settles_runs (world : Oracle Req Ans) {as : List (Action V)} (h : Runs ttl p .init as t) :
    Settles ttl p (Answered t) t :=
  (tracked_runs tracked_init h).settles world (attended_runs h) ⟨rfl, fun _ hi => hi⟩

end Stepwise

end Concurrency

import AxumHealth.Concurrency.SingleFlight

/-!
# Runs of the single-flight cache

What holds in every state that any interleaving of requests reaches: one round is
in flight at most, and every answer is the value of one completed round, fresh
enough for the request.  How far the starts of rounds are apart depends on the
requests that go away: they are a time to live apart as long as no request drops a
round that is younger than that.
-/

namespace Concurrency

namespace SingleFlight

variable {V X : Type} {ttl : Nat} {init : X → V}

/-! ## The invariant -/

/-- A value from `finish` may answer a request that looked the cache up at
`lookup`. -/
def Fresh (ttl : Nat) (lookup finish : Stamp) : Prop :=
  lookup.order < finish.order ∨ (finish.time ≤ lookup.time ∧ lookup.time < finish.time + ttl)

/-- Since the lookup that found nothing, an entry is expired or new. -/
structure Missed (ttl : Nat) (s : State V) (lookup : Stamp) : Prop where
  order : lookup.order < s.order
  time : lookup.time ≤ s.now
  entry : ∀ e finish value, s.entry = some e → Completed s e.round finish value →
    lookup.order < finish.order ∨ finish.time + ttl ≤ lookup.time

def Phase.Ok (ttl : Nat) (s : State V) : Phase V → Prop
  | .arrived => True
  | .missed lookup => Missed ttl s lookup
  | .waiting lookup r => Missed ttl s lookup ∧
      ∀ finish value, Completed s r finish value → lookup.order < finish.order
  | .running lookup _ => Missed ttl s lookup
  | .answered lookup r value => ∃ finish, Completed s r finish value ∧ Fresh ttl lookup finish
  | .gone => True

structure Coherent (ttl : Nat) (init : X → V) (s : State V) : Prop where
  phases : ∀ (i : Nat) phase, s.requests[i]? = some phase → phase.Ok ttl s
  owners : ∀ (i : Nat) lookup r, s.requests[i]? = some (.running lookup r) →
    s.inFlight = some { round := r, owner := i }
  flight : ∀ flight, s.inFlight = some flight →
    (∃ start, s.rounds[flight.round]? = some { start, outcome := .running }) ∧
      flight.round + 1 = s.rounds.length ∧ ∀ e, s.entry = some e → e.inserted + ttl ≤ s.now
  running : ∀ (r : Nat) start, s.rounds[r]? = some { start, outcome := .running } →
    ∃ i, s.inFlight = some { round := r, owner := i }
  entry : ∀ e, s.entry = some e →
    ∃ finish, Completed s e.round finish e.value ∧ finish.time = e.inserted
  finished : ∀ r finish value, Completed s r finish value →
    finish.order < s.order ∧ finish.time ≤ s.now ∧ ∃ input, value = init input

theorem coherent_init : Coherent ttl init State.init where
  phases i phase h := by simp [State.init] at h
  owners i lookup r h := by simp [State.init] at h
  flight flight h := by cases h
  running r start h := by simp [State.init] at h
  entry e h := by cases h
  finished r finish value h := by
    obtain ⟨start, h⟩ := h
    simp [State.init] at h

/-- The round that a request runs is the one in flight. -/
theorem Coherent.running_round {s : State V} (hs : Coherent ttl init s) {i : Nat}
    {lookup : Stamp} {r : Nat} (h : s.requests[i]? = some (.running lookup r)) :
    ∃ start, s.rounds[r]? = some { start, outcome := .running } :=
  (hs.flight _ (hs.owners i lookup r h)).1

/-- What does not change from a state to a later one. -/
structure Later (s t : State V) : Prop where
  order : s.order ≤ t.order
  now : s.now ≤ t.now
  keeps : ∀ r finish value, Completed s r finish value → Completed t r finish value
  only : ∀ r finish value, Completed t r finish value →
    Completed s r finish value ∨ s.order ≤ finish.order
  entry : ∀ e, t.entry = some e → s.entry = some e ∨
    ∀ finish value, Completed t e.round finish value → s.order ≤ finish.order

theorem Missed.later {s t : State V} {lookup : Stamp} (h : Missed ttl s lookup)
    (hst : Later s t) : Missed ttl t lookup where
  order := Nat.lt_of_lt_of_le h.order hst.order
  time := Nat.le_trans h.time hst.now
  entry := by
    intro e finish value he hfinish
    have horder := h.order
    rcases hst.entry e he with hold | hnew
    · rcases hst.only _ _ _ hfinish with hdone | hlate
      · exact h.entry e finish value hold hdone
      · exact .inl (by omega)
    · have hlate := hnew finish value hfinish
      exact .inl (by omega)

theorem Phase.Ok.later {s t : State V} {phase : Phase V} (h : phase.Ok ttl s)
    (hst : Later s t) : phase.Ok ttl t := by
  cases phase with
  | arrived => trivial
  | missed lookup => exact Missed.later h hst
  | waiting lookup r =>
    obtain ⟨hmissed, hround⟩ := h
    refine ⟨hmissed.later hst, ?_⟩
    intro finish value hfinish
    have horder := hmissed.order
    rcases hst.only _ _ _ hfinish with hdone | hlate
    · exact hround finish value hdone
    · omega
  | running lookup r => exact Missed.later h hst
  | answered lookup r value =>
    obtain ⟨finish, hfinish, hfresh⟩ := h
    exact ⟨finish, hst.keeps _ _ _ hfinish, hfresh⟩
  | gone => trivial

/-- The state after a move, with its step counted. -/
def State.next (s : State V) : State V := { s with order := s.order + 1 }

theorem Moves.later {s u : State V} {a : Action X} (hs : Coherent ttl init s)
    (h : Moves ttl init s a u) : Later s u.next := by
  cases h with
  | tick duration =>
    exact ⟨Nat.le_succ _, Nat.le_add_right _ _, fun _ _ _ h => h, fun _ _ _ h => .inl h,
      fun _ h => .inl h⟩
  | arrive =>
    exact ⟨Nat.le_succ _, Nat.le_refl _, fun _ _ _ h => h, fun _ _ _ h => .inl h,
      fun _ h => .inl h⟩
  | turn a hi hturn =>
    exact ⟨Nat.le_succ _, Nat.le_refl _, fun _ _ _ h => h, fun _ _ _ h => .inl h,
      fun _ h => .inl h⟩
  | @start i lookup hi hflight hlive =>
    have hdone := completed_startRound s i lookup
    exact ⟨Nat.le_succ _, Nat.le_refl _, fun r f v h => (hdone r f v).mpr h,
      fun r f v h => .inl ((hdone r f v).mp h), fun _ h => .inl h⟩
  | @finish i input lookup r hi =>
    obtain ⟨start, hr⟩ := hs.running_round hi
    have hdone := completed_setOutcome hr (.completed s.stamp (init input))
    have honly : ∀ r' f v, Completed (s.finishRound i lookup r (init input)).next r' f v →
        Completed s r' f v ∨ s.order ≤ f.order := by
      intro r' f v h
      rcases (hdone r' f v).mp h with hold | ⟨-, hnew⟩
      · exact .inl hold
      · cases hnew
        exact .inr (Nat.le_refl _)
    refine ⟨Nat.le_succ _, Nat.le_refl _, fun r' f v h => (hdone r' f v).mpr (.inl h), honly, ?_⟩
    intro e he
    cases he
    refine .inr fun f v h => (honly r f v h).resolve_left ?_
    intro hold
    obtain ⟨start', hold⟩ := hold
    rw [hr] at hold
    cases hold
  | expire he hdead =>
    exact ⟨Nat.le_succ _, Nat.le_refl _, fun _ _ _ h => h, fun _ _ _ h => .inl h,
      fun _ h => by cases h⟩
  | @abandon i lookup r hi =>
    obtain ⟨start, hr⟩ := hs.running_round hi
    have hdone := completed_setOutcome hr .abandoned
    refine ⟨Nat.le_succ _, Nat.le_refl _, fun r' f v h => (hdone r' f v).mpr (.inl h), ?_,
      fun _ h => .inl h⟩
    intro r' f v h
    exact .inl (((hdone r' f v).mp h).resolve_right (by simp))

theorem Coherent.not_completed {s : State V} {r : Nat} {start finish : Stamp} {value : V}
    (h : s.rounds[r]? = some { start, outcome := .running }) : ¬ Completed s r finish value := by
  intro hdone
  obtain ⟨start', hdone⟩ := hdone
  rw [h] at hdone
  cases hdone

/-- A live entry is the value of a round that completed less than a time to live
ago. -/
theorem Coherent.live {s : State V} (hs : Coherent ttl init s) {e : Entry V}
    (h : s.liveEntry ttl = some e) : ∃ finish, s.entry = some e ∧
      Completed s e.round finish e.value ∧ finish.time ≤ s.now ∧ s.now < finish.time + ttl := by
  obtain ⟨he, hlive⟩ := liveEntry_eq_some_iff.mp h
  obtain ⟨finish, hdone, htime⟩ := hs.entry e he
  have hpast := (hs.finished _ _ _ hdone).2.1
  exact ⟨finish, he, hdone, hpast, by omega⟩

theorem Turn.ok {s : State V} (hs : Coherent ttl init s) {i : Nat} {phase phase' : Phase V}
    (h : phase.Ok ttl s) (hturn : Turn ttl s phase phase')
    (hlater : Later s (s.setRequest i phase').next) :
    phase'.Ok ttl (s.setRequest i phase').next := by
  cases hturn with
  | @hit e hlive =>
    obtain ⟨finish, -, hdone, hpast, hfresh⟩ := hs.live hlive
    exact ⟨finish, hlater.keeps _ _ _ hdone, .inr ⟨hpast, hfresh⟩⟩
  | miss hlive =>
    refine ⟨Nat.lt_succ_self _, Nat.le_refl _, ?_⟩
    intro e f v he hdone
    obtain ⟨finish, hfinish, htime⟩ := hs.entry e he
    obtain ⟨rfl, -⟩ := hdone.unique (hlater.keeps _ _ _ hfinish)
    have hdead := liveEntry_eq_none_iff.mp hlive e he
    rw [← htime] at hdead
    exact .inr hdead
  | join lookup hflight =>
    refine ⟨Missed.later h hlater, ?_⟩
    intro f v hdone
    have horder := Missed.order h
    obtain ⟨⟨start, hrunning⟩, -, -⟩ := hs.flight _ hflight
    rcases hlater.only _ _ _ hdone with hold | hnew
    · exact absurd hold (Coherent.not_completed hrunning)
    · omega
  | recheck lookup hlive =>
    obtain ⟨finish, he, hdone, hpast, hfresh⟩ := hs.live hlive
    have htime := Missed.time h
    refine ⟨finish, hlater.keeps _ _ _ hdone, .inl ?_⟩
    rcases Missed.entry h _ _ _ he hdone with hnew | hdead
    · exact hnew
    · omega
  | deliver lookup hround =>
    exact ⟨_, hlater.keeps _ _ _ ⟨_, hround⟩, .inl (h.2 _ _ ⟨_, hround⟩)⟩
  | retry lookup r => exact Missed.later h.1 hlater
  | leave hidle => trivial

theorem Turn.not_running {s : State V} {phase phase' : Phase V} (h : Turn ttl s phase phase')
    (lookup : Stamp) (r : Nat) : phase' ≠ .running lookup r := by
  intro heq
  subst heq
  cases h

/-! ## One step -/

theorem Coherent.phases_move {s u : State V} {a : Action X} (hs : Coherent ttl init s)
    (h : Moves ttl init s a u) (j : Nat) (phase : Phase V)
    (hj : u.next.requests[j]? = some phase) : phase.Ok ttl u.next := by
  have hlater := h.later hs
  -- A request that the step does not touch.
  have hother : s.requests[j]? = some phase → phase.Ok ttl u.next := fun hold =>
    (hs.phases j phase hold).later hlater
  have hset : ∀ (i : Nat) (phase' : Phase V), phase'.Ok ttl u.next →
      (s.requests.set i phase')[j]? = some phase → phase.Ok ttl u.next := by
    intro i phase' hok hset
    rcases getElem?_set_cases hset with ⟨-, heq⟩ | ⟨-, hold⟩
    · exact heq ▸ hok
    · exact hother hold
  cases h with
  | tick duration => exact hother hj
  | arrive =>
    rcases getElem?_concat_cases hj with hold | ⟨-, heq⟩
    · exact hother hold
    · rw [heq]
      trivial
  | turn a hi hturn => exact hset _ _ (hturn.ok hs (hs.phases _ _ hi) hlater) hj
  | @start i lookup hi hflight hlive =>
    have hmissed : Missed ttl s lookup := hs.phases _ _ hi
    exact hset i (.running lookup s.rounds.length) (hmissed.later hlater) hj
  | @finish i input lookup r hi =>
    obtain ⟨start, hr⟩ := hs.running_round hi
    have hmissed : Missed ttl s lookup := hs.phases _ _ hi
    have hdone := (completed_setOutcome hr (.completed s.stamp (init input)) r s.stamp
      (init input)).mpr (.inr ⟨rfl, rfl⟩)
    exact hset i (.answered lookup r (init input)) ⟨s.stamp, hdone, .inl hmissed.order⟩ hj
  | expire he hdead => exact hother hj
  | abandon i hi => exact hset i .gone trivial hj

theorem Coherent.owners_move {s u : State V} {a : Action X} (hs : Coherent ttl init s)
    (h : Moves ttl init s a u) (j : Nat) (lookup : Stamp) (r : Nat)
    (hj : u.next.requests[j]? = some (.running lookup r)) :
    u.next.inFlight = some { round := r, owner := j } := by
  -- The round that is over was the one in flight.
  have hover : ∀ {i lookup' r' phase'}, s.requests[i]? = some (.running lookup' r') →
      (.running lookup r) ≠ phase' → (s.requests.set i phase')[j]? = some (.running lookup r) →
      False := by
    intro i lookup' r' phase' hi hne hset
    rcases getElem?_set_cases hset with ⟨-, heq⟩ | ⟨hij, hold⟩
    · exact hne heq
    · have howner := (hs.owners _ _ _ hi).symm.trans (hs.owners j lookup r hold)
      simp only [Option.some.injEq, Flight.mk.injEq] at howner
      exact hij howner.2
  cases h with
  | tick duration => exact hs.owners j lookup r hj
  | arrive =>
    rcases getElem?_concat_cases hj with hold | ⟨-, heq⟩
    · exact hs.owners j lookup r hold
    · cases heq
  | turn a hi hturn =>
    rcases getElem?_set_cases hj with ⟨-, heq⟩ | ⟨-, hold⟩
    · exact absurd heq.symm (hturn.not_running lookup r)
    · exact hs.owners j lookup r hold
  | start i hi hflight hlive =>
    rcases getElem?_set_cases hj with ⟨hij, heq⟩ | ⟨-, hold⟩
    · cases heq
      rw [← hij]
      rfl
    · rw [hs.owners j lookup r hold] at hflight
      cases hflight
  | finish i input hi => exact (hover hi (by simp) hj).elim
  | expire he hdead => exact hs.owners j lookup r hj
  | abandon i hi => exact (hover hi (by simp) hj).elim

theorem Coherent.flight_move {s u : State V} {a : Action X} (hs : Coherent ttl init s)
    (h : Moves ttl init s a u) (flight : Flight) (hf : u.next.inFlight = some flight) :
    (∃ start, u.next.rounds[flight.round]? = some { start, outcome := .running }) ∧
      flight.round + 1 = u.next.rounds.length ∧
      ∀ e, u.next.entry = some e → e.inserted + ttl ≤ u.next.now := by
  cases h with
  | tick duration =>
    obtain ⟨hround, hlast, hdead⟩ := hs.flight flight hf
    exact ⟨hround, hlast, fun e he => Nat.le_add_right_of_le (hdead e he)⟩
  | arrive => exact hs.flight flight hf
  | turn a hi hturn => exact hs.flight flight hf
  | @start i lookup hi hflight hlive =>
    cases hf
    have hrounds : (s.startRound i lookup).next.rounds =
        s.rounds ++ [{ start := s.stamp, outcome := .running }] := rfl
    rw [hrounds]
    exact ⟨⟨s.stamp, by simp⟩, by simp, liveEntry_eq_none_iff.mp hlive⟩
  | finish i input hi => cases hf
  | expire he hdead =>
    obtain ⟨hround, hlast, -⟩ := hs.flight flight hf
    exact ⟨hround, hlast, fun e he => by cases he⟩
  | abandon i hi => cases hf

theorem Coherent.running_move {s u : State V} {a : Action X} (hs : Coherent ttl init s)
    (h : Moves ttl init s a u) (r : Nat) (start : Stamp)
    (hr : u.next.rounds[r]? = some { start, outcome := .running }) :
    ∃ i, u.next.inFlight = some { round := r, owner := i } := by
  have hover : ∀ {i : Nat} {lookup r'} {outcome : Outcome V},
      s.requests[i]? = some (.running lookup r') → outcome ≠ .running →
      (s.setOutcome r' outcome).rounds[r]? = some { start, outcome := .running } → False := by
    intro i lookup r' outcome hi hne hset
    rw [getElem?_setOutcome] at hset
    by_cases hrr : r' = r
    · rw [if_pos hrr] at hset
      obtain ⟨round, -, hround⟩ := Option.map_eq_some_iff.mp hset
      cases hround
      exact hne rfl
    · rw [if_neg hrr] at hset
      obtain ⟨j, hj⟩ := hs.running r start hset
      have howner := (hs.owners _ _ _ hi).symm.trans hj
      simp only [Option.some.injEq, Flight.mk.injEq] at howner
      exact hrr howner.1
  cases h with
  | tick duration => exact hs.running r start hr
  | arrive => exact hs.running r start hr
  | turn a hi hturn => exact hs.running r start hr
  | start i hi hflight hlive =>
    rcases getElem?_concat_cases hr with hold | ⟨hlen, -⟩
    · obtain ⟨j, hj⟩ := hs.running r start hold
      rw [hj] at hflight
      cases hflight
    · rw [hlen]
      exact ⟨i, rfl⟩
  | finish i input hi => exact (hover hi (by simp) hr).elim
  | expire he hdead => exact hs.running r start hr
  | abandon i hi => exact (hover hi (by simp) hr).elim

theorem Coherent.entry_move {s u : State V} {a : Action X} (hs : Coherent ttl init s)
    (h : Moves ttl init s a u) (e : Entry V) (he : u.next.entry = some e) :
    ∃ finish, Completed u.next e.round finish e.value ∧ finish.time = e.inserted := by
  have hlater := h.later hs
  have hother : s.entry = some e →
      ∃ finish, Completed u.next e.round finish e.value ∧ finish.time = e.inserted := by
    intro hold
    obtain ⟨finish, hdone, htime⟩ := hs.entry e hold
    exact ⟨finish, hlater.keeps _ _ _ hdone, htime⟩
  cases h with
  | tick duration => exact hother he
  | arrive => exact hother he
  | turn a hi hturn => exact hother he
  | start i hi hflight hlive => exact hother he
  | @finish i input lookup r hi =>
    obtain ⟨start, hr⟩ := hs.running_round hi
    cases he
    exact ⟨s.stamp, (completed_setOutcome hr (.completed s.stamp (init input)) r s.stamp
      (init input)).mpr (.inr ⟨rfl, rfl⟩), rfl⟩
  | expire he' hdead => cases he
  | abandon i hi => exact hother he

theorem Coherent.finished_move {s u : State V} {a : Action X} (hs : Coherent ttl init s)
    (h : Moves ttl init s a u) (r : Nat) (f : Stamp) (value : V)
    (hdone : Completed u.next r f value) :
    f.order < u.next.order ∧ f.time ≤ u.next.now ∧ ∃ input, value = init input := by
  have hlater := h.later hs
  have hother : Completed s r f value →
      f.order < u.next.order ∧ f.time ≤ u.next.now ∧ ∃ input, value = init input := by
    intro hold
    obtain ⟨horder, htime, hinput⟩ := hs.finished r f value hold
    exact ⟨Nat.lt_of_lt_of_le horder hlater.order, Nat.le_trans htime hlater.now, hinput⟩
  cases h with
  | tick duration => exact hother hdone
  | arrive => exact hother hdone
  | turn a hi hturn => exact hother hdone
  | @start i lookup hi hflight hlive =>
    exact hother ((completed_startRound s i lookup r f value).mp hdone)
  | @finish i input lookup r' hi =>
    obtain ⟨start, hr⟩ := hs.running_round hi
    rcases (completed_setOutcome hr _ r f value).mp hdone with hold | ⟨-, hnew⟩
    · exact hother hold
    · cases hnew
      exact ⟨Nat.lt_succ_self _, Nat.le_refl _, input, rfl⟩
  | expire he hdead => exact hother hdone
  | @abandon i lookup r' hi =>
    obtain ⟨start, hr⟩ := hs.running_round hi
    exact hother (((completed_setOutcome hr _ r f value).mp hdone).resolve_right (by simp))

theorem Coherent.move {s u : State V} {a : Action X} (hs : Coherent ttl init s)
    (h : Moves ttl init s a u) : Coherent ttl init u.next where
  phases := hs.phases_move h
  owners := hs.owners_move h
  flight := hs.flight_move h
  running := hs.running_move h
  entry := hs.entry_move h
  finished := hs.finished_move h

theorem coherent_step {s t : State V} {a : Action X} (hs : Coherent ttl init s)
    (h : step ttl init s a = some t) : Coherent ttl init t := by
  obtain ⟨u, hmove, rfl⟩ := step_moves ttl init h
  exact hs.move hmove

theorem coherent_exec {s t : State V} {as : List (Action X)} (hs : Coherent ttl init s)
    (h : exec (step ttl init) s as = some t) : Coherent ttl init t :=
  exec_invariant (fun _ _ _ hs h => coherent_step hs h) hs h

/-! ## What is over stays -/

theorem Coherent.one_running {s : State V} (hs : Coherent ttl init s) {r r' : Nat}
    {start start' : Stamp} (h : s.rounds[r]? = some { start, outcome := .running })
    (h' : s.rounds[r']? = some { start := start', outcome := .running }) : r = r' := by
  obtain ⟨i, hi⟩ := hs.running r start h
  obtain ⟨j, hj⟩ := hs.running r' start' h'
  rw [hi] at hj
  simp only [Option.some.injEq, Flight.mk.injEq] at hj
  exact hj.1

theorem Moves.round_stays {s u : State V} {a : Action X} (hs : Coherent ttl init s)
    (h : Moves ttl init s a u) {r : Nat} {round : Round V} (hr : s.rounds[r]? = some round)
    (hover : round.outcome ≠ .running) : u.next.rounds[r]? = some round := by
  have hother : ∀ {i : Nat} {lookup r'} (outcome : Outcome V),
      s.requests[i]? = some (.running lookup r') →
      (s.setOutcome r' outcome).rounds[r]? = some round := by
    intro i lookup r' outcome hi
    obtain ⟨start, hrunning⟩ := hs.running_round hi
    have hne : r' ≠ r := by
      intro heq
      subst heq
      rw [hrunning] at hr
      cases hr
      exact hover rfl
    rw [getElem?_setOutcome, if_neg hne, hr]
  cases h with
  | tick duration => exact hr
  | arrive => exact hr
  | turn a hi hturn => exact hr
  | @start i lookup hi hflight hlive =>
    have hlen := (List.getElem?_eq_some_iff.mp hr).1
    show (s.rounds ++ [{ start := s.stamp, outcome := Outcome.running }])[r]? = some round
    rw [List.getElem?_append_left hlen, hr]
  | finish i input hi => exact hother _ hi
  | expire he hdead => exact hr
  | abandon i hi => exact hother _ hi

theorem exec_round_stays {s t : State V} {as : List (Action X)} (hs : Coherent ttl init s)
    (h : exec (step ttl init) s as = some t) {r : Nat} {round : Round V}
    (hr : s.rounds[r]? = some round) (hover : round.outcome ≠ .running) :
    t.rounds[r]? = some round := by
  have hrun := exec_invariant
    (P := fun u => Coherent ttl init u ∧ u.rounds[r]? = some round) ?_ ⟨hs, hr⟩ h
  · exact hrun.2
  · intro v a w hv hstep
    obtain ⟨u, hmove, rfl⟩ := step_moves ttl init hstep
    exact ⟨hv.1.move hmove, hmove.round_stays hv.1 hv.2 hover⟩

theorem Moves.answer_stays {s u : State V} {a : Action X} (h : Moves ttl init s a u) {i : Nat}
    {lookup : Stamp} {r : Nat} {value : V}
    (hi : s.requests[i]? = some (.answered lookup r value)) :
    u.next.requests[i]? = some (.answered lookup r value) := by
  have hother : ∀ {j : Nat} {phase phase' : Phase V}, s.requests[j]? = some phase →
      phase ≠ .answered lookup r value →
      (s.requests.set j phase')[i]? = some (.answered lookup r value) := by
    intro j phase phase' hj hne
    have hji : j ≠ i := by
      intro heq
      subst heq
      rw [hi] at hj
      cases hj
      exact hne rfl
    rw [List.getElem?_set_ne hji, hi]
  cases h with
  | tick duration => exact hi
  | arrive =>
    have hlen := (List.getElem?_eq_some_iff.mp hi).1
    show (s.requests ++ [Phase.arrived])[i]? = _
    rw [List.getElem?_append_left hlen, hi]
  | turn a hj hturn =>
    apply hother hj
    intro heq
    subst heq
    cases hturn with
    | leave hidle => cases hidle
  | start j hj hflight hlive => exact hother hj (by simp)
  | finish j input hj => exact hother hj (by simp)
  | expire he hdead => exact hi
  | abandon j hj => exact hother hj (by simp)

theorem exec_answer_stays {s t : State V} {as : List (Action X)}
    (h : exec (step ttl init) s as = some t) {i : Nat} {lookup : Stamp} {r : Nat} {value : V}
    (hi : s.requests[i]? = some (.answered lookup r value)) :
    t.requests[i]? = some (.answered lookup r value) := by
  refine exec_invariant (P := fun u => u.requests[i]? = some (.answered lookup r value)) ?_ hi h
  intro v a w hv hstep
  obtain ⟨u, hmove, rfl⟩ := step_moves ttl init hstep
  exact hmove.answer_stays hv

/-! ## The pace of the rounds -/

/-- The times at which rounds started, oldest first. -/
def starts (s : State V) : List Nat := s.rounds.map fun round => round.start.time

/-- Any two rounds start at least a time to live apart. -/
def Spaced (ttl : Nat) (s : State V) : Prop := (starts s).Pairwise fun a b => a + ttl ≤ b

/-- The request that goes away does not run a round younger than a time to
live. -/
def Patient (ttl : Nat) (s : State V) (a : Action X) : Prop :=
  ∀ i lookup r round, a = .disconnect i → s.requests[i]? = some (.running lookup r) →
    s.rounds[r]? = some round → round.start.time + ttl ≤ s.now

/-- With no round in flight, the cache covers every round that is younger than a
time to live. -/
structure Paced (ttl : Nat) (s : State V) : Prop where
  spaced : Spaced ttl s
  past : ∀ time ∈ starts s, time ≤ s.now
  covered : s.inFlight = none → ∀ time ∈ starts s, time + ttl ≤ s.now ∨
    ∃ e, s.entry = some e ∧ time ≤ e.inserted

theorem starts_setOutcome (s : State V) (r : Nat) (outcome : Outcome V) :
    starts (s.setOutcome r outcome) = starts s := by
  apply List.ext_getElem?
  intro r'
  rw [starts, starts, List.getElem?_map, List.getElem?_map, getElem?_setOutcome]
  by_cases h : r = r'
  · rw [if_pos h, Option.map_map]
    rfl
  · rw [if_neg h]

theorem starts_startRound (s : State V) (i : Nat) (lookup : Stamp) :
    starts (s.startRound i lookup) = starts s ++ [s.now] :=
  List.map_append

theorem paced_init : Paced ttl (State.init : State V) where
  spaced := List.Pairwise.nil
  past time h := by cases h
  covered _ time h := by cases h

/-- No round started after the one in flight. -/
theorem Coherent.le_start {s : State V} (hs : Coherent ttl init s) (hp : Paced ttl s) {i : Nat}
    {lookup : Stamp} {r : Nat} {round : Round V} (hi : s.requests[i]? = some (.running lookup r))
    (hr : s.rounds[r]? = some round) : ∀ time ∈ starts s,
      time = round.start.time ∨ time + ttl ≤ round.start.time := by
  intro time htime
  obtain ⟨k, hk⟩ := List.getElem?_of_mem htime
  have hlast := (hs.flight _ (hs.owners i lookup r hi)).2.1
  have hlen : (starts s).length = s.rounds.length := List.length_map _
  have hkr : (starts s)[r]? = some round.start.time := by
    rw [starts, List.getElem?_map, hr]
    rfl
  obtain ⟨hklt, hkeq⟩ := List.getElem?_eq_some_iff.mp hk
  obtain ⟨hrlt, hreq⟩ := List.getElem?_eq_some_iff.mp hkr
  rcases Nat.lt_or_ge k r with hlt | hge
  · right
    rw [← hkeq, ← hreq]
    exact List.pairwise_iff_getElem.mp hp.spaced k r hklt hrlt hlt
  · left
    simp only at hlast
    have hkr' : k = r := by omega
    subst hkr'
    rw [← hkeq, ← hreq]

/-- Without a new round the pace stays, as long as the cache covers the rounds. -/
theorem Paced.keep {s u : State V} (hp : Paced ttl s) (hstarts : starts u = starts s)
    (hnow : s.now ≤ u.now)
    (hcovered : u.inFlight = none → ∀ time ∈ starts s, time + ttl ≤ u.now ∨
      ∃ e, u.entry = some e ∧ time ≤ e.inserted) : Paced ttl u where
  spaced := by
    rw [Spaced, hstarts]
    exact hp.spaced
  past time ht := by
    rw [hstarts] at ht
    exact Nat.le_trans (hp.past time ht) hnow
  covered hflight time ht := by
    rw [hstarts] at ht
    exact hcovered hflight time ht

/-- With no live entry, the entry that covered the last rounds has expired. -/
theorem Paced.startRound {s : State V} (hp : Paced ttl s) (hflight : s.inFlight = none)
    (hlive : s.liveEntry ttl = none) (i : Nat) (lookup : Stamp) :
    Paced ttl (s.startRound i lookup).next := by
  have hfar : ∀ time ∈ starts s, time + ttl ≤ s.now := by
    intro time ht
    rcases hp.covered hflight time ht with hold | ⟨e, he, hle⟩
    · exact hold
    · have hdead := liveEntry_eq_none_iff.mp hlive e he
      omega
  have hstarts : starts (s.startRound i lookup).next = starts s ++ [s.now] :=
    starts_startRound s i lookup
  refine ⟨?_, ?_, fun hf => by cases hf⟩
  · rw [Spaced, hstarts, List.pairwise_append]
    refine ⟨hp.spaced, List.pairwise_singleton _ _, ?_⟩
    intro time ht now hnow
    rw [List.mem_singleton.mp hnow]
    exact hfar time ht
  · intro time ht
    rw [hstarts] at ht
    rcases List.mem_append.mp ht with ht | ht
    · exact hp.past time ht
    · rw [List.mem_singleton.mp ht]
      exact Nat.le_refl _

theorem Paced.move {s u : State V} {a : Action X} (hs : Coherent ttl init s) (hp : Paced ttl s)
    (hpatient : Patient ttl s a) (h : Moves ttl init s a u) : Paced ttl u.next := by
  cases h with
  | tick duration =>
    refine hp.keep rfl (Nat.le_add_right _ _) ?_
    intro hflight time ht
    rcases hp.covered hflight time ht with hold | hentry
    · exact .inl (Nat.le_add_right_of_le hold)
    · exact .inr hentry
  | arrive => exact ⟨hp.spaced, hp.past, hp.covered⟩
  | turn a hi hturn => exact ⟨hp.spaced, hp.past, hp.covered⟩
  | @start i lookup hi hflight hlive => exact hp.startRound hflight hlive i lookup
  | @finish i input lookup r hi =>
    refine hp.keep (starts_setOutcome s r _) (Nat.le_refl _) ?_
    intro _ time ht
    exact .inr ⟨_, rfl, hp.past time ht⟩
  | @expire e he hdead =>
    refine hp.keep rfl (Nat.le_refl _) ?_
    intro hflight time ht
    rcases hp.covered hflight time ht with hold | ⟨e', he', hle⟩
    · exact .inl hold
    · rw [he] at he'
      cases he'
      exact .inl (Nat.le_trans (Nat.add_le_add_right hle ttl) hdead)
  | @abandon i lookup r hi =>
    obtain ⟨start, hr⟩ := hs.running_round hi
    have hyoung : start.time + ttl ≤ s.now := hpatient i lookup r _ rfl hi hr
    refine hp.keep (starts_setOutcome s r _) (Nat.le_refl _) ?_
    intro _ time ht
    left
    show time + ttl ≤ s.now
    rcases hs.le_start hp hi hr time ht with heq | hle
    · rw [heq]
      exact hyoung
    · have hlt : start.time ≤ s.now := Nat.le_of_add_right_le hyoung
      exact Nat.le_trans hle hlt

theorem paced_exec {s t : State V} {as : List (Action X)} (hs : Coherent ttl init s)
    (hp : Paced ttl s) (hpatient : EveryStep (step ttl init) (Patient ttl) s as)
    (h : exec (step ttl init) s as = some t) : Paced ttl t := by
  have hrun := exec_invariant_of (P := fun u => Coherent ttl init u ∧ Paced ttl u) ?_ ⟨hs, hp⟩
    hpatient h
  · exact hrun.2
  · intro v a w hv hC hstep
    obtain ⟨u, hmove, rfl⟩ := step_moves ttl init hstep
    exact ⟨hv.1.move hmove, hv.2.move hv.1 hC hmove⟩

/-- With nothing in flight and nothing live, a new request can start a round at
once. -/
theorem exists_start {s : State V} (hflight : s.inFlight = none)
    (hlive : s.liveEntry ttl = none) :
    ∃ as u, exec (step ttl init) s as = some u ∧ starts u = starts s ++ [s.now] := by
  let arrived : State V := State.next { s with requests := s.requests ++ [.arrived] }
  let missed : State V := (arrived.setRequest s.requests.length (.missed arrived.stamp)).next
  let started : State V := (missed.startRound s.requests.length arrived.stamp).next
  have hn : arrived.requests[s.requests.length]? = some .arrived :=
    List.getElem?_concat_length
  have hlen : s.requests.length < arrived.requests.length := (List.getElem?_eq_some_iff.mp hn).1
  have hn' : missed.requests[s.requests.length]? = some (.missed arrived.stamp) :=
    List.getElem?_set_self hlen
  have hmissed : missed.inFlight = none := hflight
  have harrived : arrived.liveEntry ttl = none := hlive
  have hmissed' : missed.liveEntry ttl = none := hlive
  have h₁ : step ttl init s .arrive = some arrived := rfl
  have h₂ : step ttl init arrived (.lookup s.requests.length) = some missed := by
    simp only [step, State.act, hn, harrived, Option.map_some]
    rfl
  have h₃ : step ttl init missed (.acquire s.requests.length) = some started := by
    simp only [step, State.act, hn', hmissed, hmissed', Option.map_some]
    rfl
  refine ⟨[.arrive, .lookup s.requests.length, .acquire s.requests.length], started, ?_, ?_⟩
  · rw [exec_cons]
    refine ⟨arrived, h₁, ?_⟩
    rw [exec_cons]
    refine ⟨missed, h₂, ?_⟩
    rw [exec_cons]
    exact ⟨started, h₃, rfl⟩
  · exact starts_startRound missed s.requests.length arrived.stamp

/-- After an owner has gone too early, the next request starts a round at
once. -/
theorem Coherent.impatient {s t : State V} (hs : Coherent ttl init s) {a : Action X}
    (hstep : step ttl init s a = some t) (himpatient : ¬ Patient ttl s a) :
    ∃ as u, exec (step ttl init) t as = some u ∧ ¬ Spaced ttl u := by
  simp only [Patient, not_forall] at himpatient
  obtain ⟨i, lookup, r, round, rfl, hi, hr, hyoung⟩ := himpatient
  have hdead := (hs.flight _ (hs.owners i lookup r hi)).2.2
  simp only [step, State.act, hi, Option.map_some, Option.some.injEq] at hstep
  subst hstep
  obtain ⟨as, u, hexec, hstarts⟩ := @exists_start V X ttl init (s.abandonRound i r).next rfl
    (liveEntry_eq_none_iff.mpr hdead)
  refine ⟨as, u, hexec, ?_⟩
  intro hspaced
  have hold : starts (s.abandonRound i r).next = starts s := starts_setOutcome s r _
  have hmem : round.start.time ∈ starts s := by
    rw [starts, List.mem_map]
    exact ⟨round, List.mem_of_getElem? hr, rfl⟩
  rw [Spaced, hstarts, hold, List.pairwise_append] at hspaced
  exact hyoung (hspaced.2.2 _ hmem s.now (List.mem_singleton_self _))

end SingleFlight

end Concurrency

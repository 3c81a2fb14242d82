import AxumHealth.Concurrency.Settling
import AxumHealth.Health.Confinement
import AxumHealth.Health.Demand

/-!
# The health endpoint, call by call

The handler of `/actuator/health` as `src/resources.rs` runs it: the initialiser that
`get_with` is given is the future of `aggregate_response`, and the calls of its
checks are answered one by one while clients come and go.  A client whose handler
runs the future takes it along when it goes away.

The server of `Resources.lean`, where an aggregation is one action, has the same runs
(`serves_iff`).  What the calls add is how many of them there are, what they have to
do with the answers, and that they come to an end.
-/

namespace AxumHealth

open Std Concurrency SingleFlight Stepwise

abbrev CallServer : Type 1 := System Probe Answer HealthResponse

namespace AppState

/-- A run of the server from its start, with what its cache and its clients did. -/
def Serves (state : AppState) (as : List (Action HealthResponse)) (s : CallServer) : Prop :=
  Runs state.cacheTtl (aggregateResponse state.checks) .init as s

variable {state : AppState} {as : List (Action HealthResponse)} {s : CallServer}

theorem Serves.tracked (h : state.Serves as s) :
    Tracked state.cacheTtl (aggregateResponse state.checks) s :=
  tracked_runs tracked_init h

theorem Serves.exec (h : state.Serves as s) :
    Concurrency.exec (step state.cacheTtl id) .init as = some s.cache := by
  obtain ⟨bs, rfl, hexec⟩ := runs_coarse tracked_init h
  rw [exec_mapInput]
  exact hexec

end AppState

/-! ## The two servers -/

/-- The server whose aggregations are answered call by call and the one whose
aggregations are one action have the same runs of the cache and the clients. -/
theorem serves_iff (state : AppState) (as : List (Action HealthResponse)) (c : Server) :
    (∃ s, state.Serves as s ∧ s.cache = c) ↔
      ∃ bs : List (Action World), as = bs.map (Action.mapInput state.aggregated) ∧
        exec (serve state) .init bs = some c :=
  runs_iff offline

/-! ## Runs with two clients -/

/-- Two clients come, the first one runs the aggregation, and the second one waits. -/
def underway : List (Action HealthResponse) :=
  [.arrive, .arrive, .lookup 0, .lookup 1, .acquire 0, .join 1]

/-- What the cache and the clients are like then. -/
def underwayCache : Server :=
  { now := 0
    order := 6
    entry := none
    rounds := [{ start := { time := 0, order := 4 }, outcome := .running }]
    inFlight := some { round := 0, owner := 0 }
    requests := [.running { time := 0, order := 2 } 0, .waiting { time := 0, order := 3 } 0] }

/-- The aggregation of two clients can have come as far as any run of it. -/
theorem serves_underway (state : AppState) {o ahead : World} {left : Probing HealthResponse}
    {events : List (Event Probe Answer)}
    (h : Future.Steps (aggregateResponse state.checks) o events left ahead) :
    state.Serves underway
      { cache := underwayCache
        work := some { world := o, left, ahead }
        log := events.map fun event => (0, event) } := by
  have harrived : state.Serves ([] ++ [.arrive]) _ := .tail .refl (.cache .arrive rfl rfl)
  have hlooked := ((harrived.tail (.cache .arrive rfl rfl)).tail (.cache (.lookup 0) rfl rfl)).tail
    (.cache (.lookup 1) rfl rfl)
  have hstarted := hlooked.tail (.start 0 o rfl rfl nofun)
  have hjoined := hstarted.tail (.cache (.join 1) rfl rfl)
  exact runs_steps (w := { world := o, left, ahead }) h hjoined rfl rfl

theorem exists_underway (state : AppState) {o ahead : World} {left : Probing HealthResponse}
    {events : List (Event Probe Answer)}
    (h : Future.Steps (aggregateResponse state.checks) o events left ahead) :
    ∃ as s flight, state.Serves as s ∧ s.cache.inFlight = some flight ∧
      s.events flight.round = events :=
  ⟨_, _, _, serves_underway state h, rfl, (filter_round events 0 0).trans (if_pos rfl)⟩

/-- Two clients share one aggregation to its end. -/
theorem exists_shared (state : AppState) {o ahead : World} {response : HealthResponse}
    {events : List (Event Probe Answer)}
    (h : Future.Steps (aggregateResponse state.checks) o events (.ready response) ahead) :
    ∃ as s, state.Serves as s ∧ answerOf s.cache 1 = some (healthAnswer response) ∧
      (∃ start finish, s.cache.rounds = [{ start, outcome := .completed finish response }]) ∧
      s.events 0 = events := by
  have hfinished := (serves_underway state h).tail (.finish 0 rfl rfl rfl)
  have hdelivered := hfinished.tail (.cache (.deliver 1) rfl rfl)
  exact ⟨_, _, hdelivered, rfl, ⟨_, _, rfl⟩, (filter_round events 0 0).trans (if_pos rfl)⟩

/-- The client that runs the aggregation goes away in the middle of it. -/
theorem exists_dropped (state : AppState) {o ahead : World} {left : Probing HealthResponse}
    {events : List (Event Probe Answer)}
    (h : Future.Steps (aggregateResponse state.checks) o events left ahead) :
    ∃ as s, state.Serves as s ∧
      (∃ start, s.cache.rounds = [{ start, outcome := .abandoned }]) ∧
      s.log = events.map fun event => (0, event) :=
  ⟨_, _, (serves_underway state h).tail (.abandon 0 rfl nofun rfl), ⟨_, rfl⟩, rfl⟩

/-! ## The calls -/

/-- What the answered calls of a run have to do with its aggregations and its answers. -/
structure Accounted (state : AppState) (s : CallServer) : Prop where
  /-- The calls of an aggregation are answered once at most, and those of a place in
  their order. -/
  calls : ∀ r < s.cache.rounds.length, ∃ o,
    (s.events r).Subperm ((aggregateResponse state.checks).log o) ∧
    ∀ place, eventsAt place (s.events r) <+:
      eventsAt place ((aggregateResponse state.checks).log o)
  /-- An answer comes of one aggregation whose calls were all answered. -/
  answered : ∀ i answer, answerOf s.cache i = some answer → ∃ r o,
    (s.events r).Perm ((aggregateResponse state.checks).log o) ∧
      answer = healthAnswer ((aggregateResponse state.checks).value o)
  /-- Every answered call belongs to an aggregation. -/
  owned : ∀ call ∈ s.log, call.1 < s.cache.rounds.length
  /-- After its end or its client's leaving no call of an aggregation is answered. -/
  ended : ∀ (r : Nat) round, s.cache.rounds[r]? = some round → round.outcome ≠ .running →
    ∀ bs t, Runs state.cacheTtl (aggregateResponse state.checks) s bs t → t.events r = s.events r

theorem serves_accounted (state : AppState) {as : List (Action HealthResponse)} {s : CallServer}
    (h : state.Serves as s) : Accounted state s := by
  have hs := h.tracked
  constructor
  · intro r hr
    obtain ⟨o, left, ahead, hsteps, -⟩ := hs.traced r _ (List.getElem?_eq_getElem hr)
    refine ⟨o, hsteps.subperm_log, fun place => ?_⟩
    exact ⟨_, hsteps.eventsAt_log place⟩
  · intro i answer hanswer
    obtain ⟨lookup, r, response, hi, rfl⟩ := answerOf_eq_some hanswer
    obtain ⟨finish, ⟨start, hround⟩, -⟩ := hs.coherent.phases i _ hi
    obtain ⟨o, -, hover⟩ := hs.accounted hround
    obtain ⟨hperm, rfl⟩ := hover finish response rfl
    exact ⟨r, o, hperm, rfl⟩
  · exact hs.started
  · intro r round hround hover bs t ht
    exact (hs.events_runs ht hround hover).1

/-- The server of `twoServers`. -/
def directories (password password' : String) : AppState :=
  { config := twoServers password password'
    checks := ExtTreeMap.ofList [("ping", HealthCheck.ping),
      ("ldap", .ldap (.new ((twoServers password password').checks.ldap.getD []) 5))] }

theorem directories_built (password password' : String) :
    buildChecks Http.plainHost (directories password password').config =
      .ok (directories password password').checks := rfl

/-- The one session that such a server has with its directories. -/
def oneSession (password : String) : List Probe :=
  [.ldapConnect ⟨5⟩ "ldaps://localhost:636", .simpleBind ⟨5⟩ "cn=admin" password, .unbind ⟨5⟩]

/-- The calls of an aggregation with directories that accept every bind. -/
def acceptedSession : List (Event Probe Answer) :=
  (aggregateResponse (directories "secret" "other").checks).log accepting.world

theorem acceptedSession_requests :
    acceptedSession.map Event.request = oneSession "secret" := by decide +kernel

theorem exists_acceptedSession_steps : ∃ ahead response,
    Future.Steps (aggregateResponse (directories "secret" "other").checks) accepting.world
      acceptedSession (.ready response) ahead := by
  have hplaces : acceptedSession.map Event.place = [[0, 0], [0, 0], [0, 0]] := by decide +kernel
  have hplace : ∀ e ∈ acceptedSession, e.place = [0, 0] := by
    intro e he
    have hmem := List.mem_map_of_mem (f := Event.place) he
    rw [hplaces] at hmem
    simpa using hmem
  obtain ⟨ahead, hsteps⟩ := Future.exists_steps_log hplace
  exact ⟨ahead, _, hsteps⟩

/-- The client that waits is answered when the session is over. -/
theorem sharing_accounted : ∃ as s, (directories "secret" "other").Serves as s ∧
    (∃ answer, answerOf s.cache 1 = some answer) ∧
    (s.events 0).map Event.request = oneSession "secret" ∧
    Accounted (directories "secret" "other") s := by
  obtain ⟨ahead, response, hsteps⟩ := exists_acceptedSession_steps
  obtain ⟨as, s, hserves, hanswer, -, hevents⟩ := exists_shared _ hsteps
  refine ⟨as, s, hserves, ⟨_, hanswer⟩, ?_, serves_accounted _ hserves⟩
  rw [hevents, acceptedSession_requests]

/-! ## How many calls there are -/

/-- A server that looks up one host. -/
def oneHost : HealthConfig :=
  { config := { cacheTtlSeconds := 5, httpTimeoutSeconds := 5, ldapTimeoutSeconds := 5 }
    checks := { http := none, dns := some [{ host := "localhost" }], disk := none, ldap := none } }

/-- From every state of the server, whatever order the calls are answered in and the
clients move in, and however much time that takes, every client that stays is
answered, as long as no further client comes or goes. -/
theorem serves_settles (state : AppState) {as : List (Action HealthResponse)} {s : CallServer}
    (h : state.Serves as s) :
    Settles state.cacheTtl (aggregateResponse state.checks) (Answered s) s :=
  settles_runs offline h

/-- One client runs the aggregation, where the first of three calls was answered, and
another one waits for it. -/
theorem waiting_settles : ∃ s, (directories "secret" "other").Serves underway s ∧
    (∃ lookup, s.cache.requests[1]? = some (.waiting lookup 0)) ∧
    (s.events 0).map Event.request = (oneSession "secret").take 1 ∧
    Settles (directories "secret" "other").cacheTtl
      (aggregateResponse (directories "secret" "other").checks) (Answered s) s := by
  obtain ⟨_, _, hsteps⟩ := exists_acceptedSession_steps
  obtain ⟨left, ahead, hbegun⟩ := hsteps.take 1
  have hserves := serves_underway (directories "secret" "other") hbegun
  refine ⟨_, hserves, ⟨_, rfl⟩, ?_, serves_settles _ hserves⟩
  show ((List.filter _ (List.map _ _)).map Prod.snd).map _ = _
  rw [filter_round, if_pos rfl, List.map_take, acceptedSession_requests]

/-! ## Passwords -/

/-- Over any number of aggregations, dropped or not, the passwords stay with the binds
of their targets. -/
theorem serves_confined (parseUrl : String → Except String (Option String)) (state : AppState)
    (hbuild : buildChecks parseUrl state.config = .ok state.checks)
    {as : List (Action HealthResponse)} {s : CallServer} (h : state.Serves as s) (r : Nat) :
    Confined state.config state.checks (s.events r) := by
  have hs := h.tracked
  rcases Nat.lt_or_ge r s.cache.rounds.length with hr | hr
  · obtain ⟨o, left, ahead, hsteps, -⟩ := hs.traced r _ (List.getElem?_eq_getElem hr)
    exact confined_of_steps (buildChecks_ok hbuild) hsteps
  · rw [hs.events_eq_nil hr]
    exact confined_of_steps (buildChecks_ok hbuild) (.refl _ offline)

theorem twoServers_serves_confined :
    buildChecks Http.plainHost (twoServers "secret" "other") =
        .ok (directories "secret" "other").checks ∧
      ∃ as s, (directories "secret" "other").Serves as s ∧
        (s.events 0).map Event.request = oneSession "secret" ∧
        Confined (twoServers "secret" "other") (directories "secret" "other").checks
          (s.events 0) := by
  have hbuild := directories_built "secret" "other"
  obtain ⟨ahead, response, hsteps⟩ := exists_acceptedSession_steps
  obtain ⟨as, s, hserves, -, -, hevents⟩ := exists_shared _ hsteps
  refine ⟨hbuild, as, s, hserves, ?_, serves_confined Http.plainHost _ hbuild hserves 0⟩
  rw [hevents, acceptedSession_requests]

end AxumHealth

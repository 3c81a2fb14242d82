import AxumHealth.Concurrency.SingleFlightRuns
import AxumHealth.Health.Aggregate

/-!
# The health endpoint

The handler of `/actuator/health` in `src/resources.rs` over any number of
clients.  `get_with` of the cache is the single-flight cache, its initialiser is
one run of the aggregation, and a client that disconnects drops the future of its
handler.  Time is counted in nanoseconds.
-/

namespace AxumHealth

open Std Concurrency SingleFlight

structure AppState where
  config : HealthConfig
  checks : HealthChecks

/-- `health_response_cache`: the time to live of the entry. -/
def healthResponseCache (ttlSeconds : UInt64) : Nat := (Duration.fromSecs ttlSeconds).asNanos

namespace AppState

def cacheTtl (state : AppState) : Nat := healthResponseCache state.config.config.cacheTtlSeconds

/-- `cache_ttl_seconds` of the configuration file, in nanoseconds. -/
def configuredTtl (state : AppState) : Nat :=
  state.config.config.cacheTtlSeconds.toNat * 1000000000

theorem cacheTtl_eq (state : AppState) : state.cacheTtl = state.configuredTtl := by
  rw [cacheTtl, healthResponseCache, Duration.asNanos, Duration.fromSecs, configuredTtl]

/-- The response of one aggregation, whichever order its probes finish in. -/
def aggregated (state : AppState) (o : World) : HealthResponse :=
  (aggregateResponse state.checks).value o

end AppState

abbrev Server : Type := SingleFlight.State HealthResponse

/-- One step of the server and its clients. -/
def serve (state : AppState) : Server → Action World → Option Server :=
  step state.cacheTtl state.aggregated

/-- What a request was answered. -/
def answerOf (s : Server) (i : Nat) : Option (StatusCode × HealthResponse) :=
  match s.requests[i]? with
  | some (.answered _ _ response) => some (healthAnswer response)
  | _ => none

theorem answerOf_eq_some {s : Server} {i : Nat} {answer : StatusCode × HealthResponse}
    (h : answerOf s i = some answer) : ∃ lookup r response,
      s.requests[i]? = some (.answered lookup r response) ∧ answer = healthAnswer response := by
  cases hi : s.requests[i]? with
  | none => simp [answerOf, hi] at h
  | some phase =>
    cases phase with
    | answered lookup r response =>
      simp only [answerOf, hi, Option.some.injEq] at h
      exact ⟨lookup, r, response, rfl, h.symm⟩
    | _ => simp [answerOf, hi] at h

theorem coherent_serve {state : AppState} {as : List (Action World)} {s : Server}
    (h : exec (serve state) .init as = some s) :
    Coherent state.cacheTtl state.aggregated s :=
  coherent_exec coherent_init h

/-! ## The cache -/

/-- In every state that is reached, one aggregation is in flight at most; every
answer is that of one completed aggregation, which ended after the request looked
the cache up or less than the configured time to live before; the code, the status and
the components of an answer agree; and an abandoned aggregation answers nothing, then
and later. -/
theorem health_cache (state : AppState) {as : List (Action World)} {s : Server}
    (h : exec (serve state) .init as = some s) :
    (∀ (r r' : Nat) start start', s.rounds[r]? = some { start, outcome := .running } →
        s.rounds[r']? = some { start := start', outcome := .running } → r = r') ∧
      (∀ (i : Nat) lookup r response, s.requests[i]? = some (.answered lookup r response) →
        (∃ finish, Completed s r finish response ∧ Fresh state.configuredTtl lookup finish) ∧
          ∀ bs t, exec (serve state) s bs = some t →
            t.requests[i]? = some (.answered lookup r response)) ∧
      (∀ i answer, answerOf s i = some answer → ∃ lookup r response finish o,
        s.requests[i]? = some (.answered lookup r response) ∧ Completed s r finish response ∧
          response = (aggregateResponse state.checks).value o ∧ answer = healthAnswer response ∧
          Consistent answer) ∧
      ∀ (r : Nat) start, s.rounds[r]? = some { start, outcome := .abandoned } →
        ∀ bs t, exec (serve state) s bs = some t →
          t.rounds[r]? = some { start, outcome := .abandoned } ∧
            ∀ (i : Nat) lookup response, t.requests[i]? ≠ some (.answered lookup r response) := by
  have hs := coherent_serve h
  refine ⟨fun r r' start start' => hs.one_running, ?_, ?_, ?_⟩
  · intro i lookup r response hi
    rw [← state.cacheTtl_eq]
    exact ⟨hs.phases i _ hi, fun bs t ht => exec_answer_stays ht hi⟩
  · intro i answer hanswer
    obtain ⟨lookup, r, response, hi, rfl⟩ := answerOf_eq_some hanswer
    obtain ⟨finish, hdone, -⟩ := hs.phases i _ hi
    obtain ⟨-, -, o, rfl⟩ := hs.finished r finish response hdone
    exact ⟨lookup, r, _, finish, o, hi, hdone, rfl, rfl, aggregateResponse_consistent _ _⟩
  · intro r start hr bs t ht
    have hstays := exec_round_stays hs ht hr (by simp)
    refine ⟨hstays, ?_⟩
    intro i lookup response hi
    obtain ⟨finish, ⟨start', hdone⟩, -⟩ := (coherent_exec hs ht).phases i _ hi
    rw [hstays] at hdone
    cases hdone

/-- A server that watches one page, with a time to live of 5 seconds. -/
def onePage : AppState :=
  { config :=
      { config := { cacheTtlSeconds := 5, httpTimeoutSeconds := 5, ldapTimeoutSeconds := 5 }
        checks :=
          { http := some [{ url := "http://localhost/", resolve := none }]
            dns := none
            disk := none
            ldap := none } }
    checks := ExtTreeMap.ofList [("ping", HealthCheck.ping),
      ("http", .http
        { base := { timeout := ⟨5⟩, dnsResolver := ⟨∅⟩ }
          targets := ["http://localhost/"]
          timeout := ⟨5⟩ })] }

theorem onePage_built : buildChecks Http.plainHost onePage.config = .ok onePage.checks := rfl

/-- The outside where every page is found. -/
def pageFound : World
  | _, _, .send _ => .ok { status := .ok, body := [] }
  | place, n, q => offline place n q

/-- Two clients share one aggregation of a second, and a third one comes just before
its response expires. -/
def sharing : List (Action World) :=
  [.arrive, .arrive, .lookup 0, .lookup 1, .acquire 0, .join 1, .tick 1000000000,
    .complete 0 pageFound, .deliver 1, .tick 4999999999, .arrive, .lookup 2]

theorem sharing_answered : ∃ s lookup response finish,
    exec (serve onePage) .init sharing = some s ∧
      s.requests[2]? = some (.answered lookup 0 response) ∧ lookup.time = 5999999999 ∧
      Completed s 0 finish response ∧ Fresh 5000000000 lookup finish ∧
      ∃ answer, answerOf s 2 = some answer ∧ answer.1.code = 200 ∧ Consistent answer := by
  refine ⟨_, _, _, { time := 1000000000, order := 7 }, rfl, rfl, rfl, ?_⟩
  obtain ⟨-, hanswered, hconsistent, -⟩ := @health_cache onePage sharing _ rfl
  obtain ⟨⟨finish, ⟨start, hround⟩, hfresh⟩, -⟩ := hanswered 2 _ 0 _ rfl
  cases hround
  obtain ⟨-, -, -, -, -, -, -, -, -, hagree⟩ := hconsistent 2 _ rfl
  exact ⟨⟨_, rfl⟩, hfresh, _, rfl, rfl, hagree⟩

/-! ## The rate of the probes -/

/-- In a run where no client goes away that runs an aggregation younger than the
configured time to live, two aggregations start at least that far apart; and after any
step where one does, two of them can start closer together. -/
theorem probe_rate (state : AppState) :
    (∀ as s, EveryStep (serve state) (Patient state.configuredTtl) .init as →
        exec (serve state) .init as = some s → Spaced state.configuredTtl s) ∧
      ∀ as s a t, exec (serve state) .init as = some s → serve state s a = some t →
        ¬ Patient state.configuredTtl s a →
          ∃ bs u, exec (serve state) t bs = some u ∧ ¬ Spaced state.configuredTtl u := by
  rw [← state.cacheTtl_eq]
  refine ⟨?_, ?_⟩
  · intro as s hpatient h
    exact (paced_exec coherent_init paced_init hpatient h).spaced
  · intro as s a t h hstep himpatient
    exact (coherent_serve h).impatient hstep himpatient

/-- The client whose request runs the aggregation goes away while the page is fetched,
and a second later another one asks. -/
def impatient : List (Action World) :=
  [.arrive, .lookup 0, .acquire 0, .disconnect 0, .tick 1000000000, .arrive, .lookup 1, .acquire 1]

theorem impatient_not_spaced :
    buildChecks Http.plainHost onePage.config = .ok onePage.checks ∧
      (∀ o, (aggregateResponse onePage.checks).log o ≠ []) ∧
      ∃ s, exec (serve onePage) .init impatient = some s ∧
        onePage.configuredTtl = 5000000000 ∧ starts s = [0, 1000000000] ∧
        ¬ Spaced onePage.configuredTtl s := by
  refine ⟨onePage_built, fun o => List.cons_ne_nil _ _, _, rfl, rfl, rfl, ?_⟩
  show ¬ [0, 1000000000].Pairwise fun a b => a + 5000000000 ≤ b
  simp

end AxumHealth

import AxumHealth.Server

/-!
# LDAP sessions that stay open

A client that goes away takes the aggregation along that its handler runs, in the
middle of the LDAP sessions.  The connections that are left without an unbind, over any
number of aggregations, are those whose bind was lost and at most one for each server
and each aggregation that was not completed.
-/

namespace AxumHealth

open Std Concurrency Collections SingleFlight Stepwise

namespace Ldap

/-! ## Ledgers -/

/-- The connections that were opened are unbound or lost their bind, and at most `slack`
of them are neither. -/
structure Ledger (slack unbound lost opened : Nat) : Prop where
  closed : unbound + lost ≤ opened
  slack : opened ≤ unbound + lost + slack

theorem Ledger.sum {n : Nat} {slack unbound lost opened : Nat → Nat}
    (h : ∀ i < n, Ledger (slack i) (unbound i) (lost i) (opened i)) :
    Ledger (∑ i ∈ Finset.range n, slack i) (∑ i ∈ Finset.range n, unbound i)
      (∑ i ∈ Finset.range n, lost i) (∑ i ∈ Finset.range n, opened i) := by
  constructor
  · rw [← Finset.sum_add_distrib]
    exact Finset.sum_le_sum fun i hi => (h i (Finset.mem_range.mp hi)).closed
  · rw [← Finset.sum_add_distrib, ← Finset.sum_add_distrib]
    exact Finset.sum_le_sum fun i hi => (h i (Finset.mem_range.mp hi)).slack

/-- The ledger of a list of events. -/
def Balanced (slack : Nat) (events : List (Event Probe Answer)) : Prop :=
  Ledger slack (events.countP isUnbind) (events.countP bindLost) (events.countP established)

theorem balanced_map_under {slack : Nat} {events : List (Event Probe Answer)} (i : Nat) :
    Balanced slack (events.map (Event.under i)) ↔ Balanced slack events := by
  have hmap : ∀ P : Event Probe Answer → Bool, (∀ e, P (e.under i) = P e) →
      (events.map (Event.under i)).countP P = events.countP P := by
    intro P hP
    rw [List.countP_map]
    exact List.countP_congr fun e _ => by rw [Function.comp_apply, hP]
  unfold Balanced
  rw [hmap isUnbind fun _ => rfl, hmap bindLost fun _ => rfl, hmap established fun _ => rfl]

/-- What the places may leave open, all of the events may leave open. -/
theorem Balanced.of_places {n : Nat} {place : Nat → List Nat} (hplace : Function.Injective place)
    {events : List (Event Probe Answer)} {slack : Nat → Nat}
    (hplaces : ∀ e ∈ events, e.request.toDirectory = true → ∃ i < n, e.place = place i)
    (h : ∀ i < n, Balanced (slack i) (eventsAt (place i) events)) :
    Balanced (∑ i ∈ Finset.range n, slack i) events := by
  have hcount : ∀ P : Event Probe Answer → Bool,
      (∀ e, P e = true → e.request.toDirectory = true) →
      events.countP P = ∑ i ∈ Finset.range n, (eventsAt (place i) events).countP P := by
    intro P hP
    exact countP_eq_sum_filter hplace fun e he hPe => hplaces e he (hP e hPe)
  have hunbind : ∀ e, isUnbind e = true → e.request.toDirectory = true := by
    intro e h
    obtain ⟨place, request, answer⟩ := e
    cases request <;> first | rfl | cases h
  have hlost : ∀ e, bindLost e = true → e.request.toDirectory = true := by
    intro e h
    obtain ⟨place, request, answer⟩ := e
    cases request <;> first | rfl | cases h
  have hopened : ∀ e, established e = true → e.request.toDirectory = true := by
    intro e h
    obtain ⟨place, request, answer⟩ := e
    cases request <;> first | rfl | cases h
  unfold Balanced
  rw [hcount isUnbind hunbind, hcount bindLost hlost, hcount established hopened]
  exact Ledger.sum h

/-! ## One session -/

section Courses

variable {timeout : Duration} {server : LdapTarget} {o : World} {events : List (Event Probe Answer)}

/-- A session that is over leaves nothing open. -/
theorem Course.balanced (h : Course timeout server o events) : Balanced 0 events := by
  have hbalance := h.balance
  exact ⟨Nat.le_of_eq hbalance, Nat.le_of_eq hbalance.symm⟩

/-- A session that is not over has one connection open at most. -/
theorem Course.balanced_of_begun (h : Course timeout server o events)
    {begun : List (Event Probe Answer)} (hbegun : begun <+: events) :
    Balanced (if Text.startsWith server.url "ldaps://" then 1 else 0) begun := by
  obtain ⟨n, rfl⟩ : ∃ n, begun = events.take n := ⟨_, List.prefix_iff_eq_take.mp hbegun⟩
  -- The session stops before its first request, its second or its third, or it does not stop.
  cases h with
  | refused hscheme =>
    rw [List.take_nil]
    exact ⟨Nat.le_refl _, Nat.zero_le _⟩
  | unreachable hscheme hconnect =>
    rcases n with _ | n <;> constructor <;> simp [hscheme, established, isUnbind, bindLost]
  | lost hscheme hconnect hbind =>
    rcases n with _ | _ | n <;> constructor <;>
      simp [hscheme, List.countP_cons, established, isUnbind, bindLost]
  | answered hscheme hconnect hbind =>
    rcases n with _ | _ | _ | n <;> constructor <;>
      simp [hscheme, List.countP_cons, established, isUnbind, bindLost]

end Courses

/-! ## One aggregation -/

/-- The servers that a session opens a connection to. -/
def servers (health : HealthConfig) : Nat :=
  (health.checks.ldap.getD []).countP fun check => Text.startsWith check.url "ldaps://"

/-- A sum over the positions of a list. -/
theorem sum_range_eq_countP {α : Type} (as : List α) (P : α → Bool) (n : Nat) :
    (∑ i ∈ Finset.range as.length, as[i]?.elim 0 fun a => if P a then n else 0) =
      as.countP P * n := by
  induction as with
  | nil => simp
  | cons a as ih =>
    rw [List.length_cons, Finset.sum_range_succ']
    simp only [List.getElem?_cons_succ, List.getElem?_cons_zero, Option.elim_some]
    rw [ih, List.countP_cons, Nat.add_mul]
    by_cases ha : P a = true <;> simp [ha]

theorem ldapTarget?_eq (health : HealthConfig) (i : Nat) :
    health.ldapTarget? i = (health.checks.ldap.getD [])[i]? := by
  unfold HealthConfig.ldapTarget?
  cases health.checks.ldap with
  | none => rfl
  | some targets => rfl

/-- The calls to directories are those of the sessions, each at the place of its server. -/
theorem exists_sessions {parseUrl : String → Except String (Option String)}
    {health : HealthConfig} {checks : HealthChecks} (h : Built parseUrl health checks) (o : World) :
    ∃ k, (∀ e ∈ (aggregateResponse checks).log o, e.request.toDirectory = true →
        ∃ i < (health.checks.ldap.getD []).length, e.place = [k, i]) ∧
      ∀ (i : Nat) target, (health.checks.ldap.getD [])[i]? = some target →
        eventsAt [k, i] ((aggregateResponse checks).log o) =
          ((session (.fromSecs health.config.ldapTimeoutSeconds) target.target
            ((o.part k).part i)).map (Event.under i)).map (Event.under k) := by
  obtain ⟨k, hk⟩ := exists_position_of_key checks "ldap"
  refine ⟨k, ?_, ?_⟩
  · intro e he hdirectory
    obtain ⟨j, i, check, target, hj, hi, e', he', rfl⟩ := session_of_toDirectory h he hdirectory
    obtain rfl := hk j check hj
    rw [ldapTarget?_eq] at hi
    exact ⟨i, (List.getElem?_eq_some_iff.mp hi).1, place_of_course (session_course _ _ _) he' j i⟩
  · intro i target hi
    rw [← ldapTarget?_eq] at hi
    obtain ⟨configured, hconfigured, -⟩ := Option.bind_eq_some_iff.mp hi
    obtain ⟨j, hj⟩ := exists_position (h.ldap configured hconfigured)
    obtain rfl := hk j _ hj
    exact eventsAt_ldapPlace h hj hi o

/-- The sessions of an aggregation leave at most one connection for each server open,
and none when it is over. -/
theorem balanced_of_steps {parseUrl : String → Except String (Option String)}
    {health : HealthConfig} {checks : HealthChecks} (h : Built parseUrl health checks) {o : World}
    {events : List (Event Probe Answer)} {p : Probing HealthResponse} {r : World}
    (hrun : Future.Steps (aggregateResponse checks) o events p r) :
    Balanced (servers health) events ∧ ∀ response, p = .ready response → Balanced 0 events := by
  obtain ⟨k, hdirectory, hsession⟩ := exists_sessions h o
  have hplace : Function.Injective fun i : Nat => [k, i] := by
    intro i j hij
    simpa using hij
  have hplaces : ∀ e ∈ events, e.request.toDirectory = true →
      ∃ i < (health.checks.ldap.getD []).length, e.place = [k, i] :=
    fun e he => hdirectory e (hrun.subset_log he)
  unfold servers
  generalize health.checks.ldap.getD [] = targets at hsession hplaces
  constructor
  · have hall : Balanced (∑ i ∈ Finset.range targets.length, targets[i]?.elim 0 fun check =>
        if Text.startsWith check.url "ldaps://" then 1 else 0) events := by
      apply Balanced.of_places hplace hplaces
      intro i hi
      have hget := List.getElem?_eq_getElem hi
      -- What has happened at the place of a server is the beginning of its session.
      have hbegins : eventsAt [k, i] events <+:
          eventsAt [k, i] ((aggregateResponse checks).log o) :=
        ⟨_, hrun.eventsAt_log [k, i]⟩
      rw [hsession i _ hget, List.prefix_iff_eq_take, ← List.map_take, ← List.map_take] at hbegins
      rw [hbegins, balanced_map_under, balanced_map_under, hget, Option.elim_some]
      exact (session_course _ targets[i].target _).balanced_of_begun (List.take_prefix _ _)
    rw [sum_range_eq_countP, Nat.mul_one] at hall
    exact hall
  · rintro response rfl
    have hall : Balanced (∑ _i ∈ Finset.range targets.length, 0) events := by
      apply Balanced.of_places hplace hplaces
      intro i hi
      rw [hrun.eventsAt_eq, hsession i _ (List.getElem?_eq_getElem hi), balanced_map_under,
        balanced_map_under]
      exact (session_course _ _ _).balanced
    rw [Finset.sum_const_zero] at hall
    exact hall

end Ldap

/-! ## The server -/

/-- The aggregation has not brought a response: it is running, or it went with its client. -/
def unfinished (round : Round HealthResponse) : Bool :=
  match round.outcome with
  | .completed _ _ => false
  | _ => true

/-- Over any number of aggregations, each connection to an LDAP server that was opened is
unbound or lost its bind, but for one for each server and each aggregation at most that is
not finished. -/
theorem sessions_bounded (parseUrl : String → Except String (Option String)) (state : AppState)
    (hbuild : buildChecks parseUrl state.config = .ok state.checks)
    {as : List (Action HealthResponse)} {s : CallServer} (h : state.Serves as s) :
    Ldap.Balanced (s.cache.rounds.countP unfinished * Ldap.servers state.config)
      (s.log.map Prod.snd) := by
  have hs := h.tracked
  have hcount : ∀ P : Event Probe Answer → Bool, (s.log.map Prod.snd).countP P =
      ∑ r ∈ Finset.range s.cache.rounds.length, (s.events r).countP P := by
    intro P
    rw [List.countP_map]
    exact countP_log hs.started P
  have hround : ∀ r < s.cache.rounds.length, Ldap.Balanced
      (s.cache.rounds[r]?.elim 0 fun round =>
        if unfinished round then Ldap.servers state.config else 0) (s.events r) := by
    intro r hr
    have hget := List.getElem?_eq_getElem hr
    obtain ⟨o, left, ahead, hsteps, hready⟩ := hs.traced r _ hget
    obtain ⟨hopen, hover⟩ := Ldap.balanced_of_steps (buildChecks_ok hbuild) hsteps
    rw [hget, Option.elim_some]
    cases houtcome : s.cache.rounds[r].outcome with
    | completed finish response =>
      rw [unfinished, houtcome]
      exact hover response (hready finish response houtcome)
    | running =>
      rw [unfinished, houtcome]
      exact hopen
    | abandoned =>
      rw [unfinished, houtcome]
      exact hopen
  unfold Ldap.Balanced
  rw [hcount, hcount, hcount, ← Ldap.sum_range_eq_countP]
  exact Ldap.Ledger.sum hround

/-- The client goes away after the connection was opened and before the bind, and the
connection stays open. -/
theorem twoServers_sessions_bounded :
    buildChecks Http.plainHost (twoServers "secret" "other") =
        .ok (directories "secret" "other").checks ∧
      ∃ as s, (directories "secret" "other").Serves as s ∧
        (∃ start, s.cache.rounds = [{ start, outcome := .abandoned }]) ∧
        (s.log.map Prod.snd).countP Ldap.established = 1 ∧
        (s.log.map Prod.snd).countP Ldap.isUnbind = 0 ∧
        (s.log.map Prod.snd).countP Ldap.bindLost = 0 ∧
        Ldap.Balanced 1 (s.log.map Prod.snd) := by
  have hbuild := directories_built "secret" "other"
  obtain ⟨_, _, hsteps⟩ := exists_acceptedSession_steps
  obtain ⟨left, ahead, hbegun⟩ := hsteps.take 1
  obtain ⟨as, s, hserves, ⟨start, hrounds⟩, hlog⟩ := exists_dropped _ hbegun
  have hbounded := sessions_bounded Http.plainHost _ hbuild hserves
  have hevents : s.log.map Prod.snd = acceptedSession.take 1 := by
    rw [hlog, List.map_map]
    exact List.map_id _
  rw [hrounds] at hbounded
  refine ⟨hbuild, as, s, hserves, ⟨start, hrounds⟩, ?_, ?_, ?_, hbounded⟩
  · rw [hevents]
    decide +kernel
  · rw [hevents]
    decide +kernel
  · rw [hevents]
    decide +kernel

end AxumHealth

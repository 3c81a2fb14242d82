import AxumHealth.Concurrency.Trace
import AxumHealth.Health.Ldap

/-!
# LDAP sessions

What `check_server` does to the directory: the requests of a session in order, and
what they come to over any number of rounds of the check.  A session that was
opened is closed by one unbind, unless its bind ended without a result.  Then
`check_server` returns before the unbind.
-/

namespace AxumHealth

open Concurrency

namespace Ldap

/-! ## One session -/

/-- The requests of a session, in order. -/
def session (timeout : Duration) (server : LdapTarget) (o : World) : List (Event Probe Answer) :=
  if Text.startsWith server.url "ldaps://" then
    ⟨[], .ldapConnect timeout server.url, connectOutcome timeout server o⟩ ::
      match connectOutcome timeout server o with
      | .error _ => []
      | .ok () =>
        ⟨[], .simpleBind timeout server.bindDn server.password.exposeSecret,
          bindOutcome timeout server o⟩ ::
          match bindOutcome timeout server o with
          | .error _ => []
          | .ok _ => [⟨[], .unbind timeout, o.tail.tail.head (.unbind timeout)⟩]
  else []

theorem checkServer_log (timeout : Duration) (server : LdapTarget) (o : World) :
    (checkServer timeout server).log o = session timeout server o := by
  rw [checkServer, Future.log_bind_pure]
  unfold bindServer session
  by_cases hscheme : Text.startsWith server.url "ldaps://" = true
  · rw [if_neg (by simp [hscheme]), if_pos hscheme, Future.log_request_bind]
    congr 1
    show Future.log (match connectOutcome timeout server o with
      | .error _ => _ | .ok _ => _) _ = _
    cases connectOutcome timeout server o with
    | error err => rfl
    | ok u =>
      show (simpleBind timeout server.bindDn server.password.exposeSecret >>= _).log o.tail = _
      rw [Future.log_request_bind]
      congr 1
      show Future.log (match bindOutcome timeout server o with
        | .error _ => _ | .ok _ => _) _ = _
      cases bindOutcome timeout server o <;> rfl
  · rw [if_pos (by simp [hscheme]), if_neg hscheme]
    rfl

/-- The courses a session can take. -/
inductive Course (timeout : Duration) (server : LdapTarget) (o : World) :
    List (Event Probe Answer) → Prop
  | refused (scheme : Text.startsWith server.url "ldaps://" = false) : Course timeout server o []
  | unreachable {err : String} (scheme : Text.startsWith server.url "ldaps://" = true)
      (connect : connectOutcome timeout server o = .error err) :
      Course timeout server o [⟨[], .ldapConnect timeout server.url, .error err⟩]
  | lost {err : String} (scheme : Text.startsWith server.url "ldaps://" = true)
      (connect : connectOutcome timeout server o = .ok ())
      (bind : bindOutcome timeout server o = .error err) :
      Course timeout server o [⟨[], .ldapConnect timeout server.url, .ok ()⟩,
        ⟨[], .simpleBind timeout server.bindDn server.password.exposeSecret, .error err⟩]
  | answered {result : LdapResult} (scheme : Text.startsWith server.url "ldaps://" = true)
      (connect : connectOutcome timeout server o = .ok ())
      (bind : bindOutcome timeout server o = .ok result) :
      Course timeout server o [⟨[], .ldapConnect timeout server.url, .ok ()⟩,
        ⟨[], .simpleBind timeout server.bindDn server.password.exposeSecret, .ok result⟩,
        ⟨[], .unbind timeout, o.tail.tail.head (.unbind timeout)⟩]

theorem session_course (timeout : Duration) (server : LdapTarget) (o : World) :
    Course timeout server o (session timeout server o) := by
  unfold session
  by_cases hscheme : Text.startsWith server.url "ldaps://" = true
  · rw [if_pos hscheme]
    cases hconnect : connectOutcome timeout server o with
    | error err => exact .unreachable hscheme hconnect
    | ok u =>
      cases hbind : bindOutcome timeout server o with
      | error err => exact .lost hscheme hconnect hbind
      | ok result => exact .answered hscheme hconnect hbind
  · rw [if_neg hscheme]
    exact .refused (Bool.eq_false_iff.mpr hscheme)

/-! ## What a session leaves behind -/

/-- The connection opened. -/
def established (e : Event Probe Answer) : Bool :=
  match e.request, e.answer with
  | .ldapConnect _ _, .ok () => true
  | _, _ => false

/-- The bind ended without a result: an error of the transport, or a timeout. -/
def bindLost (e : Event Probe Answer) : Bool :=
  match e.request, e.answer with
  | .simpleBind _ _ _, .error _ => true
  | _, _ => false

def isUnbind (e : Event Probe Answer) : Bool :=
  match e.request with
  | .unbind _ => true
  | _ => false

/-- If the connection opens, the bind gets a result, whatever its code. -/
def BindAnswered (timeout : Duration) (server : LdapTarget) (o : World) : Prop :=
  Text.startsWith server.url "ldaps://" = true → connectOutcome timeout server o = .ok () →
    ∃ result, bindOutcome timeout server o = .ok result

/-- The requests of one computation close every connection it opened: one unbind
comes after it, and there is none without a connection. -/
structure Closed (events : List (Event Probe Answer)) : Prop where
  once : ∀ earlier e later, events = earlier ++ e :: later → established e = true →
    later.countP isUnbind = 1
  none : (∀ e ∈ events, established e = false) → events.countP isUnbind = 0

section Courses

variable {timeout : Duration} {server : LdapTarget} {o : World} {events : List (Event Probe Answer)}

theorem Course.place (h : Course timeout server o events) {e : Event Probe Answer}
    (he : e ∈ events) : e.place = [] := by
  have hall : events.map Event.place = List.replicate events.length [] := by
    cases h <;> rfl
  have hmem : e.place ∈ List.replicate events.length ([] : List Nat) :=
    hall ▸ List.mem_map_of_mem he
  exact List.eq_of_mem_replicate hmem

/-- A connection that was opened is closed, or its bind was lost. -/
theorem Course.balance (h : Course timeout server o events) :
    events.countP isUnbind + events.countP bindLost = events.countP established := by
  cases h <;> rfl

theorem Course.bindLost_iff (h : Course timeout server o events) :
    (∀ e ∈ events, bindLost e = false) ↔ BindAnswered timeout server o := by
  unfold BindAnswered
  cases h with
  | refused hscheme => simp [hscheme]
  | unreachable _ hconnect => simp [bindLost, hconnect]
  | lost hscheme hconnect hbind => simp [bindLost, hscheme, hconnect, hbind]
  | answered _ _ hbind => simp [bindLost, hbind]

/-- A computation that opens a connection with its first request, if at all. -/
theorem closed_cons_iff {c : Event Probe Answer} {rest : List (Event Probe Answer)}
    (hrest : ∀ e ∈ rest, established e = false) :
    Closed (c :: rest) ↔
      if established c then rest.countP isUnbind = 1 else (c :: rest).countP isUnbind = 0 := by
  constructor
  · intro h
    by_cases hc : established c = true
    · rw [if_pos hc]
      exact h.once [] c rest rfl hc
    · rw [if_neg hc]
      apply h.none
      intro e he
      rcases List.mem_cons.mp he with rfl | he
      · exact Bool.eq_false_iff.mpr hc
      · exact hrest e he
  · intro h
    constructor
    · intro earlier e later heq he
      cases earlier with
      | nil =>
        cases heq
        rwa [if_pos he] at h
      | cons x earlier =>
        rw [List.cons_append, List.cons.injEq] at heq
        have hmem : e ∈ rest := heq.2 ▸ List.mem_append_right _ List.mem_cons_self
        rw [hrest e hmem] at he
        cases he
    · intro hnone
      rwa [hnone c List.mem_cons_self, if_neg (by simp)] at h

/-- A session is closed unless its bind was lost. -/
theorem Course.closed_iff (h : Course timeout server o events) :
    Closed events ↔ BindAnswered timeout server o := by
  unfold BindAnswered
  cases h with
  | refused hscheme =>
    refine iff_of_true ⟨?_, fun _ => rfl⟩ (fun h => by simp [hscheme] at h)
    intro earlier e later heq
    simp at heq
  | unreachable _ hconnect =>
    rw [closed_cons_iff (by simp)]
    simp [established, isUnbind, hconnect]
  | lost hscheme hconnect hbind =>
    rw [closed_cons_iff (by simp [established])]
    simp [established, isUnbind, hscheme, hconnect, hbind]
  | answered _ _ hbind =>
    rw [closed_cons_iff (by simp [established])]
    simp [established, isUnbind, hbind]

end Courses

/-! ## Rounds of the check -/

theorem eventsAt_session (timeout : Duration) (server : LdapTarget) (o : World) :
    eventsAt [] (session timeout server o) = session timeout server o := by
  rw [eventsAt, List.filter_eq_self]
  intro e he
  simp [(session_course timeout server o).place he]

theorem closed_map_under_iff (i : Nat) (events : List (Event Probe Answer)) :
    Closed (events.map (Event.under i)) ↔ Closed events := by
  have hcount : ∀ es : List (Event Probe Answer),
      (es.map (Event.under i)).countP isUnbind = es.countP isUnbind := by
    intro es
    rw [List.countP_map]
    rfl
  constructor
  · intro h
    constructor
    · intro earlier e later heq he
      rw [← hcount]
      apply h.once (earlier.map (Event.under i)) (e.under i)
      · rw [heq, List.map_append, List.map_cons]
      · exact he
    · intro hnone
      rw [← hcount]
      apply h.none
      intro e he
      obtain ⟨e', he', rfl⟩ := List.mem_map.mp he
      exact hnone e' he'
  · intro h
    constructor
    · intro earlier e later heq he
      obtain ⟨earlier', rest, rfl, -, hrest⟩ := List.map_eq_append_iff.mp heq
      obtain ⟨e', later', rfl, rfl, rfl⟩ := List.map_eq_cons_iff.mp hrest
      rw [hcount]
      exact h.once earlier' e' later' rfl he
    · intro hnone
      rw [hcount]
      apply h.none
      intro e he
      exact hnone (e.under i) (List.mem_map_of_mem he)

/-- The component: the entries are those of the connections and the binds. -/
theorem check_value (check : LdapHealthCheck) (o : World) : check.check.value o =
    let results := check.servers.mapIdx fun i server => ldapEntry server.url
      (sessionResult server (connectOutcome check.timeout server (o.part i))
        (bindOutcome check.timeout server (o.part i)))
    { status := Status.ofAll (results.map LdapCheck.status), details := ldapDetails results } := by
  rw [LdapHealthCheck.check, joinedComponent_value]
  simp only [checkServer_value, bindServer_value]

/-- A run of the check to its end. -/
structure Round (check : LdapHealthCheck) where
  world : World
  events : List (Event Probe Answer)
  component : ComponentHealth
  ran : ∃ rest, Future.Steps check.check world events (.ready component) rest

theorem exists_round (check : LdapHealthCheck) (o : World) :
    ∃ round : Round check, round.world = o := by
  obtain ⟨events, rest, h⟩ := Future.exists_steps check.check o
  exact ⟨⟨o, events, _, rest, h⟩, rfl⟩

namespace Round

variable {check : LdapHealthCheck} (round : Round check)

theorem eventsAt_eq {i : Nat} {server : LdapTarget} (h : check.servers[i]? = some server) :
    eventsAt [i] round.events =
      (session check.timeout server (round.world.part i)).map (Event.under i) := by
  obtain ⟨rest, hrun⟩ := round.ran
  rw [hrun.eventsAt_eq, LdapHealthCheck.check, eventsAt_joinedComponent_log h, checkServer_log,
    eventsAt_session]

theorem mem_events {e : Event Probe Answer} :
    e ∈ round.events ↔ ∃ (i : Nat) (server : LdapTarget), check.servers[i]? = some server ∧
      ∃ e' ∈ session check.timeout server (round.world.part i), e = e'.under i := by
  obtain ⟨rest, hrun⟩ := round.ran
  rw [hrun.perm_log.mem_iff, LdapHealthCheck.check, mem_joinedComponent_log]
  simp only [checkServer_log]

theorem component_eq : round.component =
    let results := check.servers.mapIdx fun i server => ldapEntry server.url
      (sessionResult server (connectOutcome check.timeout server (round.world.part i))
        (bindOutcome check.timeout server (round.world.part i)))
    { status := Status.ofAll (results.map LdapCheck.status), details := ldapDetails results } := by
  obtain ⟨rest, hrun⟩ := round.ran
  have hvalue : round.component = check.check.value round.world := hrun.value_eq
  rw [hvalue, check_value]

/-- In a round, every connection that was opened is closed, or its bind was
lost. -/
theorem balance :
    round.events.countP isUnbind + round.events.countP bindLost =
      round.events.countP established := by
  obtain ⟨rest, hrun⟩ := round.ran
  have hperm := hrun.perm_log
  rw [hperm.countP_eq, hperm.countP_eq, hperm.countP_eq, LdapHealthCheck.check, joinedComponent,
    Future.log_bind_pure]
  apply Future.countP_log_joinAll_balance (fun _ _ => rfl) (fun _ _ => rfl) (fun _ _ => rfl)
  intro i f hf
  obtain ⟨server, -, rfl⟩ := exists_of_getElem?_map hf
  rw [checkServer_log]
  exact (session_course _ _ _).balance

end Round

/-! ## Clean-up -/

variable {check : LdapHealthCheck}

/-- Over the rounds of a run: every session closes the connection it opened, the
entries are those of the connections and the binds whatever the unbinds did, and
there are as many unbinds as connections. -/
structure CleanedUp (rounds : List (Round check)) : Prop where
  sessions : ∀ round ∈ rounds, ∀ (i : Nat) server, check.servers[i]? = some server →
    Closed (eventsAt [i] round.events)
  entries : ∀ round ∈ rounds, round.component.details =
    ldapDetails (check.servers.mapIdx fun i server => ldapEntry server.url
      (sessionResult server (connectOutcome check.timeout server (round.world.part i))
        (bindOutcome check.timeout server (round.world.part i))))
  balance : (rounds.flatMap Round.events).countP isUnbind =
    (rounds.flatMap Round.events).countP established

/-- A run of the check cleans up exactly when no bind on an open connection is
lost. -/
theorem cleanedUp_iff (rounds : List (Round check)) :
    CleanedUp rounds ↔ ∀ round ∈ rounds, ∀ (i : Nat) server, check.servers[i]? = some server →
      BindAnswered check.timeout server (round.world.part i) := by
  have hclosed : ∀ (round : Round check) (i : Nat) server, check.servers[i]? = some server →
      (Closed (eventsAt [i] round.events) ↔
        BindAnswered check.timeout server (round.world.part i)) := by
    intro round i server h
    rw [round.eventsAt_eq h, closed_map_under_iff, (session_course _ _ _).closed_iff]
  constructor
  · intro h round hround i server hserver
    exact (hclosed round i server hserver).mp (h.sessions round hround i server hserver)
  · intro h
    refine ⟨?_, ?_, ?_⟩
    · intro round hround i server hserver
      exact (hclosed round i server hserver).mpr (h round hround i server hserver)
    · intro round _
      rw [round.component_eq]
    · have hbalance := countP_flatMap_balance fun (round : Round check) (_ : round ∈ rounds) =>
        round.balance
      have hlost : (rounds.flatMap Round.events).countP bindLost = 0 := by
        rw [List.countP_eq_zero]
        intro e he
        obtain ⟨round, hround, he⟩ := List.mem_flatMap.mp he
        obtain ⟨i, server, hserver, e', he', rfl⟩ := round.mem_events.mp he
        have hanswered :=
          (session_course _ _ _).bindLost_iff.mpr (h round hround i server hserver) e' he'
        rw [Bool.not_eq_true]
        exact hanswered
      omega

/-- One server. -/
def oneServer : LdapHealthCheck :=
  .new [{ url := "ldaps://localhost:636", bindDn := "cn=healthcheck,dc=example,dc=com",
          password := ⟨"secret"⟩ }] 5

/-- The outside where every connection opens and every bind is lost. -/
def bindTimesOut : World
  | _, _, .ldapConnect _ _ => .ok ()
  | place, n, q => offline place n q

/-- The connection is established and gets no unbind. -/
theorem bindTimesOut_not_cleanedUp : ∃ round : Round oneServer, round.world = bindTimesOut ∧
    round.events.countP established = 1 ∧ round.events.countP isUnbind = 0 ∧
    ¬ CleanedUp [round] := by
  obtain ⟨round, hworld⟩ := exists_round oneServer bindTimesOut
  obtain ⟨rest, hrun⟩ := round.ran
  have hperm := hrun.perm_log
  rw [hworld] at hperm
  have hopen : round.events.countP established = 1 := by
    rw [hperm.countP_eq]
    rfl
  have hnone : round.events.countP isUnbind = 0 := by
    rw [hperm.countP_eq]
    rfl
  refine ⟨round, hworld, hopen, hnone, ?_⟩
  intro h
  have hbalance := h.balance
  rw [List.flatMap_singleton, hopen, hnone] at hbalance
  cases hbalance

end Ldap

end AxumHealth

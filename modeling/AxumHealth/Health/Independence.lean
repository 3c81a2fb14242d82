import AxumHealth.Concurrency.Parallel
import AxumHealth.Server

/-!
# Targets do not hold each other up

The checks, and the targets of each check, are joined with `join_all`.  The disks come
first, and `statvfs` holds up the thread.  Once they have been read, a target that does not
answer delays the response, but no other target: whatever has been answered so far, the
calls of all other targets can be carried to their end.
-/

namespace AxumHealth

open Std Concurrency SingleFlight Stepwise Future

/-! ## The probes -/

theorem Http.checkTarget_sequential (timeout : Duration) (target : String) :
    (checkTarget timeout target).Sequential := by
  unfold checkTarget
  cases mockCheck target with
  | some result => trivial
  | none => exact sequential_request_bind _ fun _ => trivial

theorem Dns.checkHost_sequential (host : String) : (checkHost host).Sequential :=
  sequential_request_bind _ fun _ => trivial

theorem Disk.checkDisk_sequential (disk : DiskConfig) : (checkDisk disk).Sequential := by
  apply sequential_bind_pure
  unfold diskUsagePercentRemaining
  by_cases hnul : hasNul disk.path = true
  · rw [if_pos hnul]
    trivial
  · rw [if_neg hnul]
    refine sequential_request_bind _ fun answer => ?_
    cases answer <;> trivial

theorem Ldap.checkServer_sequential (timeout : Duration) (server : LdapTarget) :
    (checkServer timeout server).Sequential := by
  apply sequential_bind_pure
  unfold bindServer
  by_cases hscheme : (!Text.startsWith server.url "ldaps://") = true
  · rw [if_pos hscheme]
    trivial
  · rw [if_neg hscheme]
    refine sequential_request_bind _ fun connect => ?_
    cases connect with
    | error err => trivial
    | ok u =>
      refine sequential_request_bind _ fun bind => ?_
      cases bind with
      | error err => trivial
      | ok result => exact sequential_request_bind _ fun _ => trivial

/-! ## The aggregation -/

theorem joinedComponent_parallel {τ ε : Type} {probe : τ → Probing ε} {status : ε → Status}
    {details : List ε → Json.Value} (h : ∀ target, (probe target).Sequential)
    (targets : List τ) : (joinedComponent probe status details targets).Parallel := by
  apply parallel_bind_pure
  apply parallel_joinAll
  intro f hf
  obtain ⟨target, -, rfl⟩ := List.mem_map.mp hf
  exact (h target).parallel

theorem HealthCheck.check_parallel (check : HealthCheck) : check.check.Parallel := by
  cases check with
  | ping => trivial
  | http check => exact joinedComponent_parallel (Http.checkTarget_sequential check.timeout) _
  | dns check => exact joinedComponent_parallel Dns.checkHost_sequential _
  | disk check => exact joinedComponent_parallel Disk.checkDisk_sequential _
  | ldap check => exact joinedComponent_parallel (Ldap.checkServer_sequential check.timeout) _

theorem aggregateResponse_parallel (checks : HealthChecks) :
    (aggregateResponse checks).Parallel := by
  apply parallel_bind_pure
  apply parallel_bind_pure
  apply parallel_joinAll
  intro f hf
  obtain ⟨p, -, rfl⟩ := List.mem_map.mp hf
  exact parallel_bind_pure p.2.check_parallel _

/-! ## Calls that hold up the thread -/

/-- The call holds up the thread that makes it, and with it the whole aggregation. -/
def Probe.blocks : Probe → Bool
  | .statvfs _ => true
  | _ => false

/-- No call is left that holds up the thread. -/
def Unblocked (log answered : List (Event Probe Answer)) : Prop :=
  ∀ e ∈ log, e.request.blocks = true → eventsAt e.place answered = eventsAt e.place log

theorem Probe.blocks_eq_false {q : Probe} (h : q.toDirectory = true) : q.blocks = false := by
  cases q <;> first | rfl | cases h

/-- A call of a check that holds up the thread is the only one of its disk. -/
theorem blocks_check_log {check : HealthCheck} {o : World} {e : Event Probe Answer}
    (he : e ∈ check.check.log o) (hblocks : e.request.blocks = true) :
    ∃ disks, check = .disk disks ∧ ∃ i < disks.disks.length,
      e.place = [i] ∧ eventsAt [i] (check.check.log o) = [e] := by
  cases check with
  | ping => cases he
  | http check =>
    obtain ⟨url, hsend⟩ := http_log he
    rw [hsend] at hblocks
    cases hblocks
  | dns check =>
    obtain ⟨host, hlookup⟩ := dns_log he
    rw [hlookup] at hblocks
    cases hblocks
  | ldap check =>
    rw [Probe.blocks_eq_false (ldap_log he)] at hblocks
    cases hblocks
  | disk disks =>
    obtain ⟨i, disk, hi, e', he', rfl⟩ := mem_joinedComponent_log.mp he
    have hevents : eventsAt [i] ((HealthCheck.disk disks).check.log o) = _ :=
      eventsAt_joinedComponent_log hi []
    rw [Disk.checkDisk_log] at he' hevents
    by_cases hnul : Disk.hasNul disk.path = true
    · rw [if_pos hnul] at he'
      cases he'
    · rw [if_neg hnul] at he' hevents
      obtain rfl := List.mem_singleton.mp he'
      exact ⟨disks, rfl, i, (List.getElem?_eq_some_iff.mp hi).1, rfl, hevents⟩

theorem blocks_aggregateResponse_log {checks : HealthChecks} {o : World} {e : Event Probe Answer}
    (he : e ∈ (aggregateResponse checks).log o) (hblocks : e.request.blocks = true) :
    ∃ k name disks, checks.toList[k]? = some (name, HealthCheck.disk disks) ∧
      ∃ i < disks.disks.length, e.place = [k, i] ∧
        eventsAt [k, i] ((aggregateResponse checks).log o) = [e] := by
  obtain ⟨k, name, check, hk, e', he', rfl⟩ := mem_aggregateResponse_log.mp he
  obtain ⟨disks, rfl, i, hi, hplace, hevents⟩ := blocks_check_log he' hblocks
  refine ⟨k, name, disks, hk, i, hi, congrArg (List.cons k) hplace, ?_⟩
  rw [eventsAt_aggregateResponse_log hk, hevents]
  rfl

/-- Once every disk was read, no call is left that holds up the thread. -/
theorem unblocked_of_disks {checks : HealthChecks} {o : World}
    {answered : List (Event Probe Answer)} (hbegins : ∀ place, eventsAt place answered <+:
      eventsAt place ((aggregateResponse checks).log o))
    (hdisks : ∀ (k : Nat) name disks, checks.toList[k]? = some (name, HealthCheck.disk disks) →
      ∀ i < disks.disks.length, eventsAt [k, i] answered ≠ []) :
    Unblocked ((aggregateResponse checks).log o) answered := by
  intro e he hblocks
  obtain ⟨k, name, disks, hk, i, hi, hplace, hevents⟩ := blocks_aggregateResponse_log he hblocks
  have hbegun := hbegins [k, i]
  rw [hplace]
  apply hbegun.eq_of_length_le
  rw [hevents]
  exact List.length_pos_iff.mpr (hdisks k name disks hk i hi)

/-- A directory whose URL has the scheme is asked something. -/
theorem eventsAt_directory_ne_nil {parseUrl : String → Except String (Option String)}
    {health : HealthConfig} {checks : HealthChecks} (h : Built parseUrl health checks) {k i : Nat}
    {check : HealthCheck} {target : LdapCheckConfig}
    (hk : checks.toList[k]? = some ("ldap", check)) (htarget : health.ldapTarget? i = some target)
    (hscheme : Text.startsWith target.url "ldaps://" = true) (o : World) :
    eventsAt [k, i] ((aggregateResponse checks).log o) ≠ [] := by
  rw [eventsAt_ldapPlace h hk htarget, Ldap.session,
    if_pos (show Text.startsWith target.target.url "ldaps://" = true from hscheme)]
  simp

/-! ## The server -/

/-- While an aggregation is running whose disks have been read, whatever its other targets
have answered so far and in whichever order, the calls of any of them can be carried to
their end while no other target answers. -/
theorem targets_independent (state : AppState) {as : List (Action HealthResponse)}
    {s : CallServer} (h : state.Serves as s) {flight : Flight}
    (hflight : s.cache.inFlight = some flight) :
    ∃ o, (∀ place, eventsAt place (s.events flight.round) <+:
        eventsAt place ((aggregateResponse state.checks).log o)) ∧
      (Unblocked ((aggregateResponse state.checks).log o) (s.events flight.round) →
        ∀ places : List (List Nat), ∃ t events,
          Runs state.cacheTtl (aggregateResponse state.checks) s [] t ∧ t.cache = s.cache ∧
            t.events flight.round = s.events flight.round ++ events ∧
            (∀ e ∈ events, e.request.blocks = false) ∧
            (∀ place ∈ places, eventsAt place (t.events flight.round) =
              eventsAt place ((aggregateResponse state.checks).log o)) ∧
            ∀ other ∉ places, eventsAt other events = []) := by
  obtain ⟨o, hbegins, hfinish⟩ :=
    h.tracked.finish_places (aggregateResponse_parallel state.checks) hflight
  refine ⟨o, hbegins, fun hunblocked places => ?_⟩
  obtain ⟨t, events, ht, hcache, hanswered, hdone, hother⟩ := hfinish places
  refine ⟨t, events, ht, hcache, hanswered, ?_, hdone, hother⟩
  intro e he
  rw [Bool.eq_false_iff]
  intro hblocks
  have hmem : e ∈ eventsAt e.place events := mem_eventsAt.mpr ⟨he, rfl⟩
  by_cases hplace : e.place ∈ places
  · have hlog : e ∈ (aggregateResponse state.checks).log o := by
      have hmem' : e ∈ eventsAt e.place (t.events flight.round) := by
        rw [hanswered, eventsAt_append]
        exact List.mem_append_right _ hmem
      rw [hdone e.place hplace] at hmem'
      exact (mem_eventsAt.mp hmem').1
    have hnil : eventsAt e.place events = [] := by
      apply eventsAt_eq_nil_of_done (hunblocked e hlog hblocks)
      rw [← hanswered, hdone e.place hplace]
    rw [hnil] at hmem
    cases hmem
  · rw [hother e.place hplace] at hmem
    cases hmem

/-- The server of a disk and two directories. -/
def diskAndDirectories : AppState :=
  let disks : List DiskConfig := [{ path := "/", threshold := 10 }]
  let servers : List LdapCheckConfig :=
    [{ url := "ldaps://first.invalid", bindDn := "cn=admin", password := ⟨"secret"⟩ },
      { url := "ldaps://second.invalid", bindDn := "cn=admin", password := ⟨"other"⟩ }]
  { config :=
      { config := { cacheTtlSeconds := 5, httpTimeoutSeconds := 5, ldapTimeoutSeconds := 5 }
        checks := { http := none, dns := none, disk := some disks, ldap := some servers } }
    checks := ExtTreeMap.ofList [("ping", HealthCheck.ping), ("disk", .disk (.new disks)),
      ("ldap", .ldap (.new servers 5))] }

theorem diskAndDirectories_built :
    buildChecks Http.plainHost diskAndDirectories.config = .ok diskAndDirectories.checks := rfl

/-- The check of the disk is the first one, and it has one disk. -/
theorem diskAndDirectories_disk {k : Nat} {name : String} {disks : Disk.DiskHealthCheck}
    (hk : diskAndDirectories.checks.toList[k]? = some (name, HealthCheck.disk disks)) :
    k = 0 ∧ disks.disks.length = 1 := by
  match k, hk with
  | 0, hk =>
    cases hk
    exact ⟨rfl, rfl⟩
  | 1, hk => cases hk
  | 2, hk => cases hk
  | n + 3, hk => cases hk

/-- Once the disk has been read, the session with the first directory goes to its end while
the second one, which is asked as well, answers nothing. -/
theorem diskAndDirectories_independent :
    buildChecks Http.plainHost diskAndDirectories.config = .ok diskAndDirectories.checks ∧
      ∃ as s flight o t events, diskAndDirectories.Serves as s ∧
        s.cache.inFlight = some flight ∧
        (s.events flight.round).map Event.request = [.statvfs "/"] ∧
        Runs diskAndDirectories.cacheTtl (aggregateResponse diskAndDirectories.checks) s [] t ∧
        t.events flight.round = s.events flight.round ++ events ∧
        eventsAt [1, 0] (t.events flight.round) =
          eventsAt [1, 0] ((aggregateResponse diskAndDirectories.checks).log o) ∧
        eventsAt [1, 0] (t.events flight.round) ≠ [] ∧
        eventsAt [1, 1] ((aggregateResponse diskAndDirectories.checks).log o) ≠ [] ∧
        eventsAt [1, 1] events = [] := by
  obtain ⟨left, ahead, hsteps⟩ := (aggregateResponse_parallel
    diskAndDirectories.checks).finish_place (o := accepting.world) [0, 0]
  obtain ⟨as, s, flight, hserves, hflight, hevents⟩ := exists_underway _ hsteps
  have hread : (s.events flight.round).map Event.request = [.statvfs "/"] := by
    rw [hevents]
    decide +kernel
  obtain ⟨o, hbegins, hfinish⟩ := targets_independent diskAndDirectories hserves hflight
  have hunblocked : Unblocked ((aggregateResponse diskAndDirectories.checks).log o)
      (s.events flight.round) := by
    apply unblocked_of_disks hbegins
    intro k name disks hk i hi
    obtain ⟨rfl, hlength⟩ := diskAndDirectories_disk hk
    obtain rfl : i = 0 := by omega
    rw [hevents, eventsAt_self, ← hevents]
    intro hnil
    rw [hnil] at hread
    cases hread
  have hasked : ∀ i target, diskAndDirectories.config.ldapTarget? i = some target →
      Text.startsWith target.url "ldaps://" = true →
      eventsAt [1, i] ((aggregateResponse diskAndDirectories.checks).log o) ≠ [] :=
    fun i target htarget hscheme =>
      eventsAt_directory_ne_nil (buildChecks_ok diskAndDirectories_built) rfl htarget hscheme o
  obtain ⟨t, events, ht, -, hanswered, -, hdone, hother⟩ := hfinish hunblocked [[1, 0]]
  have hfirst := hdone [1, 0] List.mem_cons_self
  refine ⟨diskAndDirectories_built, as, s, flight, o, t, events, hserves, hflight, hread, ht,
    hanswered, hfirst, ?_, hasked 1 _ rfl rfl, hother _ (by decide)⟩
  rw [hfirst]
  exact hasked 0 _ rfl rfl

end AxumHealth

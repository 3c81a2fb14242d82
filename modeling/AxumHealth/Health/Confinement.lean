import AxumHealth.Health.Concealment
import AxumHealth.Health.Verdict
import AxumHealth.Resources

/-!
# Passwords

Where the passwords of the LDAP targets go.  A run gives the password of a target
to a bind on the connection that was opened to that target, and to nothing else;
and two configurations that differ only in their passwords are told apart by
nothing but the password of a bind.
-/

namespace AxumHealth

open Std Concurrency Collections Ldap

/-! ## One run -/

/-- Target `i` of the LDAP section. -/
def HealthConfig.ldapTarget? (health : HealthConfig) (i : Nat) : Option LdapCheckConfig :=
  health.checks.ldap.bind fun targets => targets[i]?

/-- The place of the probe of LDAP target `i`. -/
def LdapPlace (checks : HealthChecks) (i : Nat) (place : List Nat) : Prop :=
  ∃ (k : Nat) (check : HealthCheck), checks.toList[k]? = some ("ldap", check) ∧ place = [k, i]

/-- The calls that a run has had answered so far keep the passwords confined. -/
structure Confined (health : HealthConfig) (checks : HealthChecks)
    (events : List (Event Probe Answer)) : Prop where
  /-- A bind is given the name and the password of a target whose URL has the scheme,
  and the only call answered at its place before is the connection to that URL, which
  opened. -/
  bind : ∀ earlier e later timeout bindDn password, events = earlier ++ e :: later →
    e.request = .simpleBind timeout bindDn password →
    ∃ (i : Nat) (target : LdapCheckConfig), health.ldapTarget? i = some target ∧
      LdapPlace checks i e.place ∧ bindDn = target.bindDn ∧
      password = target.password.exposeSecret ∧
      Text.startsWith target.url "ldaps://" = true ∧
      eventsAt e.place earlier = [⟨e.place, .ldapConnect timeout target.url, .ok ()⟩]
  /-- Connections are opened to the URLs of the targets that have the scheme. -/
  connect : ∀ e ∈ events, ∀ timeout url, e.request = .ldapConnect timeout url →
    ∃ (i : Nat) (target : LdapCheckConfig), health.ldapTarget? i = some target ∧
      LdapPlace checks i e.place ∧ url = target.url ∧
      Text.startsWith target.url "ldaps://" = true
  /-- No call is answered for a target whose URL lacks the scheme. -/
  refused : ∀ (i : Nat) (target : LdapCheckConfig) place, health.ldapTarget? i = some target →
    LdapPlace checks i place → Text.startsWith target.url "ldaps://" = false →
    eventsAt place events = []

/-- The requests to a directory. -/
def Probe.toDirectory : Probe → Bool
  | .ldapConnect _ _ => true
  | .simpleBind _ _ _ => true
  | .unbind _ => true
  | _ => false

theorem Ldap.Course.toDirectory {timeout : Duration} {server : Ldap.LdapTarget} {o : World}
    {events : List (Event Probe Answer)} (h : Ldap.Course timeout server o events)
    {e : Event Probe Answer} (he : e ∈ events) : e.request.toDirectory = true := by
  have hall : ∀ e ∈ events, e.request.toDirectory = true := by
    cases h <;> simp [Probe.toDirectory]
  exact hall e he

theorem checkTarget_log {timeout : Duration} {target : String} {o : World}
    {e : Event Probe Answer} (he : e ∈ (Http.checkTarget timeout target).log o) :
    e.request = .send target := by
  unfold Http.checkTarget at he
  cases hmock : Http.mockCheck target with
  | some check =>
    rw [hmock] at he
    cases he
  | none =>
    rw [hmock] at he
    obtain rfl := List.mem_singleton.mp he
    rfl

theorem checkHost_log {host : String} {o : World} {e : Event Probe Answer}
    (he : e ∈ (Dns.checkHost host).log o) : e.request = .lookupHost host := by
  obtain rfl := List.mem_singleton.mp he
  rfl

theorem checkDisk_log {disk : DiskConfig} {o : World} {e : Event Probe Answer}
    (he : e ∈ (Disk.checkDisk disk).log o) : e.request = .statvfs disk.path := by
  rw [Disk.checkDisk_log] at he
  split at he
  · cases he
  · obtain rfl := List.mem_singleton.mp he
    rfl

section Sections

variable {o : World} {e : Event Probe Answer}

theorem http_log {check : Http.HttpHealthCheck} (he : e ∈ (HealthCheck.http check).check.log o) :
    ∃ url, e.request = .send url :=
  forall_joinedComponent_log (P := fun q => ∃ url, q = .send url)
    (fun target _ _ he => ⟨target, checkTarget_log he⟩) he

theorem dns_log {check : Dns.DnsHealthCheck} (he : e ∈ (HealthCheck.dns check).check.log o) :
    ∃ host, e.request = .lookupHost host :=
  forall_joinedComponent_log (P := fun q => ∃ host, q = .lookupHost host)
    (fun host _ _ he => ⟨host, checkHost_log he⟩) he

theorem disk_log {check : Disk.DiskHealthCheck} (he : e ∈ (HealthCheck.disk check).check.log o) :
    ∃ path, e.request = .statvfs path :=
  forall_joinedComponent_log (P := fun q => ∃ path, q = .statvfs path)
    (fun disk _ _ he => ⟨disk.path, checkDisk_log he⟩) he

theorem ldap_log {check : Ldap.LdapHealthCheck} (he : e ∈ (HealthCheck.ldap check).check.log o) :
    e.request.toDirectory = true := by
  apply forall_joinedComponent_log (P := fun q => q.toDirectory = true) _ he
  intro server o' e he
  rw [Ldap.checkServer_log] at he
  exact (Ldap.session_course check.timeout server o').toDirectory he

/-- Only an LDAP check asks a directory. -/
theorem toDirectory_log {check : HealthCheck} (he : e ∈ check.check.log o)
    (hdirectory : e.request.toDirectory = true) : ∃ ldap, check = .ldap ldap := by
  cases check with
  | ping => cases he
  | ldap ldap => exact ⟨ldap, rfl⟩
  | http check =>
    obtain ⟨url, hsend⟩ := http_log he
    rw [hsend] at hdirectory
    cases hdirectory
  | dns check =>
    obtain ⟨host, hlookup⟩ := dns_log he
    rw [hlookup] at hdirectory
    cases hdirectory
  | disk check =>
    obtain ⟨path, hstatvfs⟩ := disk_log he
    rw [hstatvfs] at hdirectory
    cases hdirectory

end Sections

/-! ## The targets that are built -/

/-- The target `new` makes of a configured one. -/
def LdapCheckConfig.target (check : LdapCheckConfig) : LdapTarget :=
  { url := check.url, bindDn := check.bindDn, password := check.password }

section Built

variable {parseUrl : String → Except String (Option String)} {health : HealthConfig}
  {checks : HealthChecks}

/-- Server `i` of the check is target `i` of the configuration. -/
theorem server_built (h : Built parseUrl health checks) {k : Nat} {name : String}
    {ldap : LdapHealthCheck} (hk : checks.toList[k]? = some (name, .ldap ldap)) (i : Nat) :
    name = "ldap" ∧ ldap.timeout = .fromSecs health.config.ldapTimeoutSeconds ∧
      ldap.servers[i]? = (health.ldapTarget? i).map LdapCheckConfig.target := by
  have hcheck : checks[name]? = some (.ldap ldap) :=
    getElem?_of_position hk
  cases h.builtCheck hcheck with
  | ldap htargets =>
    refine ⟨rfl, rfl, ?_⟩
    rw [HealthConfig.ldapTarget?, htargets]
    exact List.getElem?_map

/-- A request to a directory is one of the session of a configured target. -/
theorem session_of_toDirectory (h : Built parseUrl health checks) {o : World}
    {e : Event Probe Answer} (he : e ∈ (aggregateResponse checks).log o)
    (hdirectory : e.request.toDirectory = true) :
    ∃ (k i : Nat) (check : HealthCheck) (target : LdapCheckConfig),
      checks.toList[k]? = some ("ldap", check) ∧ health.ldapTarget? i = some target ∧
      ∃ e' ∈ session (.fromSecs health.config.ldapTimeoutSeconds) target.target
        ((o.part k).part i), e = (e'.under i).under k := by
  obtain ⟨k, name, check, hk, e', he', rfl⟩ := mem_aggregateResponse_log.mp he
  obtain ⟨ldap, rfl⟩ := toDirectory_log he' hdirectory
  obtain ⟨i, server, hserver, e'', he'', rfl⟩ := mem_joinedComponent_log.mp he'
  obtain ⟨rfl, htimeout, hservers⟩ := server_built h hk i
  rw [hserver] at hservers
  obtain ⟨target, htarget, rfl⟩ := Option.map_eq_some_iff.mp hservers.symm
  rw [checkServer_log, htimeout] at he''
  exact ⟨k, i, .ldap ldap, target, hk, htarget, e'', he'', rfl⟩

/-- At the place of a target stands its session. -/
theorem eventsAt_ldapPlace (h : Built parseUrl health checks) {k i : Nat} {check : HealthCheck}
    {target : LdapCheckConfig} (hk : checks.toList[k]? = some ("ldap", check))
    (htarget : health.ldapTarget? i = some target) (o : World) :
    eventsAt [k, i] ((aggregateResponse checks).log o) =
      ((session (.fromSecs health.config.ldapTimeoutSeconds) target.target
        ((o.part k).part i)).map (Event.under i)).map (Event.under k) := by
  have hcheck : checks["ldap"]? = some check :=
    getElem?_of_position hk
  obtain ⟨targets, htargets, -⟩ := Option.bind_eq_some_iff.mp htarget
  obtain rfl := Option.some.inj ((h.ldap targets htargets).symm.trans hcheck)
  obtain ⟨-, htimeout, hserver⟩ := server_built h hk i
  rw [htarget] at hserver
  rw [eventsAt_aggregateResponse_log hk]
  show (eventsAt [i] ((joinedComponent _ _ _ _).log _)).map _ = _
  rw [eventsAt_joinedComponent_log hserver, checkServer_log, eventsAt_session]
  rfl

end Built

/-! ## The sessions -/

section Courses

variable {timeout : Duration} {server : LdapTarget} {o : World} {events : List (Event Probe Answer)}

/-- The bind of a session is the second request, after the connection. -/
theorem course_bind (h : Course timeout server o events)
    {earlier later : List (Event Probe Answer)} {e : Event Probe Answer} {timeout' : Duration}
    {bindDn password : String} (hsplit : events = earlier ++ e :: later)
    (he : e.request = .simpleBind timeout' bindDn password) :
    timeout' = timeout ∧ bindDn = server.bindDn ∧ password = server.password.exposeSecret ∧
      Text.startsWith server.url "ldaps://" = true ∧
      earlier = [⟨[], .ldapConnect timeout server.url, .ok ()⟩] := by
  have hget : events[earlier.length]? = some e := by
    rw [hsplit]
    simp
  have htake : earlier = events.take earlier.length := by
    rw [hsplit]
    simp
  generalize earlier.length = n at hget htake
  cases h with
  | refused => simp at hget
  | unreachable =>
    match n, hget with
    | 0, hget =>
      cases hget
      cases he
  | lost hscheme =>
    match n, hget with
    | 0, hget =>
      cases hget
      cases he
    | 1, hget =>
      cases hget
      cases he
      exact ⟨rfl, rfl, rfl, hscheme, htake⟩
  | answered hscheme =>
    match n, hget with
    | 0, hget =>
      cases hget
      cases he
    | 1, hget =>
      cases hget
      cases he
      exact ⟨rfl, rfl, rfl, hscheme, htake⟩
    | 2, hget =>
      cases hget
      cases he

theorem course_connect (h : Course timeout server o events) {e : Event Probe Answer}
    {timeout' : Duration} {url : String} (hmem : e ∈ events)
    (he : e.request = .ldapConnect timeout' url) :
    url = server.url ∧ Text.startsWith server.url "ldaps://" = true := by
  cases h with
  | refused => cases hmem
  | unreachable hscheme =>
    obtain rfl := List.mem_singleton.mp hmem
    cases he
    exact ⟨rfl, hscheme⟩
  | lost hscheme =>
    simp only [List.mem_cons, List.not_mem_nil, or_false] at hmem
    rcases hmem with rfl | rfl
    · cases he
      exact ⟨rfl, hscheme⟩
    · cases he
  | answered hscheme =>
    simp only [List.mem_cons, List.not_mem_nil, or_false] at hmem
    rcases hmem with rfl | rfl | rfl
    · cases he
      exact ⟨rfl, hscheme⟩
    · cases he
    · cases he

end Courses

section Confined

variable {parseUrl : String → Except String (Option String)} {health : HealthConfig}
  {checks : HealthChecks} {o : World}

theorem place_of_course {timeout : Duration} {server : LdapTarget} {o : World}
    {events : List (Event Probe Answer)} (h : Course timeout server o events)
    {e : Event Probe Answer} (he : e ∈ events) (k i : Nat) :
    ((e.under i).under k).place = [k, i] := by
  show k :: i :: e.place = [k, i]
  rw [h.place he]

/-- Whatever calls of a run were answered, and in whatever order, the passwords were
confined. -/
theorem confined_of_steps (h : Built parseUrl health checks)
    {events : List (Event Probe Answer)} {p : Probing HealthResponse} {r : World}
    (hrun : Future.Steps (aggregateResponse checks) o events p r) :
    Confined health checks events := by
  constructor
  · intro earlier e later timeout bindDn password hsplit he
    have hmem : e ∈ events := by
      rw [hsplit]
      exact List.mem_append_right _ List.mem_cons_self
    obtain ⟨k, i, check, target, hk, htarget, e', he', rfl⟩ :=
      session_of_toDirectory h (hrun.subset_log hmem) (by rw [he]; rfl)
    have hcourse := session_course (.fromSecs health.config.ldapTimeoutSeconds) target.target
      ((o.part k).part i)
    have hplace := place_of_course hcourse he' k i
    -- What was answered at the place so far is a beginning of the session.
    have hat := hrun.eventsAt_log [k, i]
    rw [eventsAt_ldapPlace h hk htarget, hsplit, eventsAt_append, List.map_map] at hat
    have hhead : eventsAt [k, i] ((e'.under i).under k :: later) =
        (e'.under i).under k :: eventsAt [k, i] later := by
      rw [eventsAt, List.filter_cons_of_pos (by simp [hplace])]
      rfl
    rw [hhead, List.append_assoc, List.cons_append] at hat
    obtain ⟨earlier', rest, hsession, hearlier, hrest⟩ := List.map_eq_append_iff.mp hat.symm
    obtain ⟨e'', later', rfl, he'', -⟩ := List.map_eq_cons_iff.mp hrest
    have hrequest : e''.request = .simpleBind timeout bindDn password := by
      show ((Event.under k ∘ Event.under i) e'').request = _
      rw [he'']
      exact he
    obtain ⟨htimeout, hbindDn, hpassword, hscheme, rfl⟩ := course_bind hcourse hsession hrequest
    refine ⟨i, target, htarget, ⟨k, check, hk, hplace⟩, hbindDn, hpassword, hscheme, ?_⟩
    rw [hplace, ← hearlier, htimeout]
    rfl
  · intro e hmem timeout url he
    obtain ⟨k, i, check, target, hk, htarget, e', he', rfl⟩ :=
      session_of_toDirectory h (hrun.subset_log hmem) (by rw [he]; rfl)
    have hcourse := session_course (.fromSecs health.config.ldapTimeoutSeconds) target.target
      ((o.part k).part i)
    obtain ⟨hurl, hscheme⟩ := course_connect hcourse he' he
    exact ⟨i, target, htarget, ⟨k, check, hk, place_of_course hcourse he' k i⟩, hurl, hscheme⟩
  · intro i target place htarget hplace hscheme
    obtain ⟨k, check, hk, rfl⟩ := hplace
    have hat := hrun.eventsAt_log [k, i]
    have hnone : session (.fromSecs health.config.ldapTimeoutSeconds) target.target
        ((o.part k).part i) = [] := if_neg (Bool.eq_false_iff.mp hscheme)
    rw [eventsAt_ldapPlace h hk htarget, hnone] at hat
    exact (List.append_eq_nil_iff.mp hat).1

/-- The targets whose URL lacks the scheme are DOWN. -/
def RefusedDown (health : HealthConfig) (response : HealthResponse) : Prop :=
  ∀ (i : Nat) (target : LdapCheckConfig), health.ldapTarget? i = some target →
    Text.startsWith target.url "ldaps://" = false →
    ∃ components component entries, response.components = some components ∧
      components["ldap"]? = some component ∧ component.details = ldapDetails entries ∧
      entries[i]? = some
        { url := target.url
          status := .down
          error := some "LDAP URL must use the ldaps:// scheme" }

theorem aggregateResponse_refusedDown (h : Built parseUrl health checks) (o : World) :
    RefusedDown health ((aggregateResponse checks).value o) := by
  intro i target htarget hscheme
  obtain ⟨targets, htargets, hi⟩ := Option.bind_eq_some_iff.mp htarget
  obtain ⟨k, hk⟩ := exists_position (h.ldap targets htargets)
  have hvalue := check_value (.new targets health.config.ldapTimeoutSeconds) (o.part k)
  refine ⟨_, _, _, (aggregateResponse_value checks o).1,
    collectComponents_eq_some_iff.mpr ⟨k, _, hk, rfl⟩, congrArg ComponentHealth.details hvalue, ?_⟩
  have hserver : (LdapHealthCheck.new targets health.config.ldapTimeoutSeconds).servers[i]? =
      some target.target := by
    rw [LdapHealthCheck.new, List.getElem?_map, hi]
    rfl
  have hfalse : ¬ Text.startsWith target.target.url "ldaps://" = true :=
    Bool.eq_false_iff.mp hscheme
  rw [List.getElem?_mapIdx, hserver, Option.map_some, sessionResult, if_neg hfalse]
  rfl

end Confined

/-! ## Two runs -/

/-- The outside treats two configurations alike: whatever is not a bind is answered
alike, and so is the bind of each target, which is given one password in one run
and the other in the other. -/
structure SameOutcomes (health health' : HealthConfig) (o o' : World) : Prop where
  other : AgreeButBinds o o'
  bind : ∀ (k i : Nat) target target', health.ldapTarget? i = some target →
    health'.ldapTarget? i = some target' →
    bindOutcome (.fromSecs health.config.ldapTimeoutSeconds) target.target
        ((o.part k).part i) =
      bindOutcome (.fromSecs health'.config.ldapTimeoutSeconds) target'.target
        ((o'.part k).part i)

theorem SameOutcomes.sameBinds {parseUrl : String → Except String (Option String)}
    {health health' : HealthConfig} {checks checks' : HealthChecks} {o o' : World}
    (h : SameOutcomes health health' o o') (hbuilt : Built parseUrl health checks)
    (hbuilt' : Built parseUrl health' checks') : SameBinds checks checks' o o' := by
  intro k name name' ldap ldap' hk hk' i server server' hserver hserver'
  obtain ⟨-, htimeout, hservers⟩ := server_built hbuilt hk i
  obtain ⟨-, htimeout', hservers'⟩ := server_built hbuilt' hk' i
  rw [hserver] at hservers
  rw [hserver'] at hservers'
  obtain ⟨target, htarget, rfl⟩ := Option.map_eq_some_iff.mp hservers.symm
  obtain ⟨target', htarget', rfl⟩ := Option.map_eq_some_iff.mp hservers'.symm
  rw [htimeout, htimeout']
  exact h.bind k i target target' htarget htarget'

/-- Whatever calls of one are answered, in whatever order and to whatever point, a run of
the other has the same calls answered in the same order, but for the passwords of the
binds, and one is over when the other is. -/
def Matched (checks checks' : HealthChecks) (o o' : World) : Prop :=
  ∀ events p r, Future.Steps (aggregateResponse checks) o events p r →
    ∃ events' p' r', Future.Steps (aggregateResponse checks') o' events' p' r' ∧
      List.Forall₂ (SameEvent SameProbe) events events' ∧
      ∀ response, p = .ready response → p' = .ready response

/-- The checks of two configurations cannot be told apart from outside the
directory. -/
structure Indistinguishable (health health' : HealthConfig) (checks checks' : HealthChecks) :
    Prop where
  /-- Code and body of the answers. -/
  answers : ∀ o o', SameOutcomes health health' o o' → Future.Inevitably (fun response =>
    Future.Inevitably (fun response' => (healthAnswer response).1 = (healthAnswer response').1 ∧
      healthBody response = healthBody response') (aggregateResponse checks') o')
    (aggregateResponse checks) o
  runs : ∀ o o', SameOutcomes health health' o o' →
    Matched checks checks' o o' ∧ Matched checks' checks o' o
  /-- The server with its cache, over any number of aggregations. -/
  served : ∀ as as',
    List.Forall₂ (SingleFlight.SameAction (SameOutcomes health health')) as as' →
    exec (serve { config := health, checks }) .init as =
      exec (serve { config := health', checks := checks' }) .init as'

theorem matched_of_simulates {checks checks' : HealthChecks} {o o' : World}
    (h : Future.Simulates SameProbe (aggregateResponse checks) o (aggregateResponse checks') o') :
    Matched checks checks' o o' := by
  intro events p r hrun
  obtain ⟨events', p', r', hrun', hevents, hrest⟩ := h.steps hrun
  refine ⟨events', p', r', hrun', hevents, ?_⟩
  rintro response rfl
  cases hrest
  rfl

theorem indistinguishable {parseUrl : String → Except String (Option String)}
    {health health' : HealthConfig} {checks checks' : HealthChecks}
    (hsame : SameButPasswords health health') (hbuild : buildChecks parseUrl health = .ok checks)
    (hbuild' : buildChecks parseUrl health' = .ok checks') :
    Indistinguishable health health' checks checks' := by
  have hchecks : concealAll checks = concealAll checks' := by
    have hmap := hsame.buildChecks_map parseUrl
    rw [hbuild, hbuild'] at hmap
    exact Except.ok.inj hmap
  have hsim : ∀ o o', SameOutcomes health health' o o' →
      Future.Simulates SameProbe (aggregateResponse checks) o (aggregateResponse checks') o' := by
    intro o o' h
    exact aggregateResponse_simulates h.other hchecks
      (h.sameBinds (buildChecks_ok hbuild) (buildChecks_ok hbuild'))
  constructor
  · intro o o' h
    rw [Future.inevitably_iff, Future.inevitably_iff, (hsim o o' h).value_eq]
    exact ⟨rfl, rfl⟩
  · intro o o' h
    exact ⟨matched_of_simulates (hsim o o' h),
      matched_of_simulates ((hsim o o' h).symm fun q q' => SameProbe.symm)⟩
  · intro as as' h
    have hconfig : health.config = health'.config := by
      show health.concealed.config = health'.concealed.config
      rw [show health.concealed = health'.concealed from hsame]
    have httl : AppState.cacheTtl { config := health, checks } =
        AppState.cacheTtl { config := health', checks := checks' } := by
      rw [AppState.cacheTtl, AppState.cacheTtl, hconfig]
    have hstep : ∀ s a a', SingleFlight.SameAction (SameOutcomes health health') a a' →
        serve { config := health, checks } s a =
          serve { config := health', checks := checks' } s a' := by
      intro s a a' ha
      rw [serve, serve, httl]
      exact SingleFlight.step_congr _ (fun o o' h => (hsim o o' h).value_eq) ha s
    exact exec_congr hstep h .init

/-- The passwords of a configuration go nowhere but to the binds of their targets. -/
structure KeepsPasswords (health : HealthConfig) (checks : HealthChecks) : Prop where
  confined : ∀ o events p r, Future.Steps (aggregateResponse checks) o events p r →
    Confined health checks events
  refused : ∀ o, Future.Inevitably (RefusedDown health) (aggregateResponse checks) o

/-- Two configurations that differ only in their passwords stop the program with the
same panic, or they are built and cannot be told apart, and neither lets a password
go elsewhere. -/
theorem password_confinement (parseUrl : String → Except String (Option String))
    {health health' : HealthConfig} (h : SameButPasswords health health') :
    (∃ panic, buildChecks parseUrl health = .error panic ∧
        buildChecks parseUrl health' = .error panic) ∨
      ∃ checks checks', buildChecks parseUrl health = .ok checks ∧
        buildChecks parseUrl health' = .ok checks' ∧
        Indistinguishable health health' checks checks' ∧
        KeepsPasswords health checks ∧ KeepsPasswords health' checks' := by
  have hkeeps : ∀ health checks, buildChecks parseUrl health = .ok checks →
      KeepsPasswords health checks := by
    intro health checks hbuild
    have hbuilt := buildChecks_ok hbuild
    constructor
    · intro o events p r hrun
      exact confined_of_steps hbuilt hrun
    · intro o
      exact Future.inevitably_of_value _ _ (aggregateResponse_refusedDown hbuilt o)
  have hmap := h.buildChecks_map parseUrl
  cases hbuild : buildChecks parseUrl health with
  | error panic =>
    cases hbuild' : buildChecks parseUrl health' with
    | error panic' =>
      rw [hbuild, hbuild'] at hmap
      obtain rfl := Except.error.inj hmap
      exact .inl ⟨panic, rfl, rfl⟩
    | ok checks' =>
      rw [hbuild, hbuild'] at hmap
      cases hmap
  | ok checks =>
    cases hbuild' : buildChecks parseUrl health' with
    | error panic' =>
      rw [hbuild, hbuild'] at hmap
      cases hmap
    | ok checks' =>
      exact .inr ⟨checks, checks', rfl, rfl, indistinguishable h hbuild hbuild',
        hkeeps health checks hbuild, hkeeps health' checks' hbuild'⟩

/-- A server that can be bound to and one whose URL lacks the scheme. -/
def twoServers (password password' : String) : HealthConfig :=
  { config := { cacheTtlSeconds := 5, httpTimeoutSeconds := 5, ldapTimeoutSeconds := 5 }
    checks :=
      { http := none
        dns := none
        disk := none
        ldap := some
          [{ url := "ldaps://localhost:636", bindDn := "cn=admin", password := ⟨password⟩ },
            { url := "ldap://localhost", bindDn := "cn=admin", password := ⟨password'⟩ }] } }

/-- The outside where every connection opens and every bind is accepted. -/
def accepting : Outcomes :=
  { unreachable with
    ldapConnect := fun _ => .ok ()
    simpleBind := fun _ => .ok { rc := 0, errorText := "" } }

theorem twoServers_confined : ∃ checks checks',
    buildChecks Http.plainHost (twoServers "secret" "other") = .ok checks ∧
      buildChecks Http.plainHost (twoServers "changed" "too") = .ok checks' ∧
      Indistinguishable (twoServers "secret" "other") (twoServers "changed" "too")
        checks checks' ∧
      KeepsPasswords (twoServers "secret" "other") checks ∧
      SameOutcomes (twoServers "secret" "other") (twoServers "changed" "too") accepting.world
        accepting.world := by
  have houtcomes : SameOutcomes (twoServers "secret" "other") (twoServers "changed" "too")
      accepting.world accepting.world := by
    refine ⟨fun place n q _ => rfl, ?_⟩
    intro k i target target' _ _
    rfl
  rcases @password_confinement Http.plainHost (twoServers "secret" "other")
      (twoServers "changed" "too") rfl with
    ⟨panic, hpanic, -⟩ | ⟨checks, checks', hbuild, hbuild', hsame, hkeeps, -⟩
  · cases hpanic
  · exact ⟨checks, checks', hbuild, hbuild', hsame, hkeeps, houtcomes⟩

end AxumHealth

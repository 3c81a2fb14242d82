import AxumHealth.Health.Disk
import AxumHealth.Health.Dns
import AxumHealth.Health.HttpCheck
import AxumHealth.Health.Ldap

/-!
# The aggregation

`src/health/mod.rs` and the handler of `/actuator/health` in `src/resources.rs`:
the checks are built from the configuration, run concurrently, and their
components are collected into the response.
-/

namespace AxumHealth

open Std Concurrency Collections

/-! ## Checks -/

/-- `PingHealthCheck::check` of `src/health/ping.rs`. -/
def pingCheck : Probing ComponentHealth := pure { status := .up, details := .object [] }

/-- The implementations of the trait `HealthCheck`. -/
inductive HealthCheck
  | ping
  | http (check : Http.HttpHealthCheck)
  | dns (check : Dns.DnsHealthCheck)
  | disk (check : Disk.DiskHealthCheck)
  | ldap (check : Ldap.LdapHealthCheck)

def HealthCheck.check : HealthCheck → Probing ComponentHealth
  | ping => pingCheck
  | http check => check.check
  | dns check => check.check
  | disk check => check.check
  | ldap check => check.check

abbrev HealthChecks : Type := ExtTreeMap String HealthCheck

/-- Insert the check of a section that is configured. -/
def withCheck (checks : HealthChecks) (name : String) : Option HealthCheck → HealthChecks
  | some check => checks.insert name check
  | none => checks

def buildChecks (parseUrl : String → Except String (Option String)) (health : HealthConfig) :
    Except Http.Panic HealthChecks := do
  let checks : HealthChecks := ExtTreeMap.ofList [("ping", HealthCheck.ping)]
  let http ← health.checks.http.mapM fun http =>
    Http.HttpHealthCheck.new parseUrl http health.config.httpTimeoutSeconds
  let checks := withCheck checks "http" (http.map .http)
  let checks := withCheck checks "dns" (health.checks.dns.map fun dns => .dns (.new dns))
  let checks := withCheck checks "disk" (health.checks.disk.map fun disks => .disk (.new disks))
  let checks := withCheck checks "ldap" (health.checks.ldap.map fun ldap =>
    .ldap (.new ldap health.config.ldapTimeoutSeconds))
  return checks

/-! ## The response -/

structure HealthResponse where
  status : Status
  components : Option (ExtTreeMap String ComponentHealth)

def HealthResponse.toValue (response : HealthResponse) : Json.Value :=
  .object ([("status", response.status.toValue)] ++
    Json.optionalField "components"
      (fun components => .object (components.toList.map fun p => (p.1, p.2.toValue)))
      response.components)

def collectComponents (checks : HealthChecks) : Probing (ExtTreeMap String ComponentHealth) := do
  let components ← Future.joinAll (checks.toList.map fun p => do
    let component ← p.2.check
    pure (p.1, component))
  pure (ExtTreeMap.ofList components)

def aggregateResponse (checks : HealthChecks) : Probing HealthResponse := do
  let components ← collectComponents checks
  let overallStatus : Status :=
    if components.toList.all fun p => p.2.status = .up then .up else .down
  pure { status := overallStatus, components := some components }

namespace StatusCode

def ok : StatusCode := ⟨200, by decide⟩

def serviceUnavailable : StatusCode := ⟨503, by decide⟩

end StatusCode

/-- What the handler of `/actuator/health` answers with a response. -/
def healthAnswer (response : HealthResponse) : StatusCode × HealthResponse :=
  let status := if response.status = .up then StatusCode.ok else StatusCode.serviceUnavailable
  (status, response)

/-- The body that `axum::Json` writes for a response. -/
def healthBody (response : HealthResponse) : String := response.toValue.render

/-! ## What a response says -/

/-- Every component is UP. -/
def AllUp (components : ExtTreeMap String ComponentHealth) : Prop :=
  ∀ (name : String) (component : ComponentHealth), components[name]? = some component →
    component.status = .up

/-- The code, the status and the components of an answer agree. -/
structure Consistent (answer : StatusCode × HealthResponse) : Prop where
  code : answer.1.code = if answer.2.status = .up then 200 else 503
  components : ∃ components, answer.2.components = some components ∧
    (answer.2.status = .up ↔ AllUp components)

theorem allUp_iff (components : ExtTreeMap String ComponentHealth) :
    (components.toList.all fun p => p.2.status = .up) = true ↔ AllUp components := by
  simp only [List.all_eq_true, decide_eq_true_eq, Prod.forall, AllUp,
    ExtTreeMap.mem_toList_iff_getElem?_eq_some]

theorem aggregateResponse_value (checks : HealthChecks) (o : World) :
    ((aggregateResponse checks).value o).components = some ((collectComponents checks).value o) ∧
      (((aggregateResponse checks).value o).status = .up ↔
        AllUp ((collectComponents checks).value o)) := by
  rw [aggregateResponse, Future.value_bind_pure, ← allUp_iff]
  refine ⟨rfl, ?_⟩
  by_cases h : (((collectComponents checks).value o).toList.all fun p => p.2.status = .up) = true
  · simp [h]
  · simp [h]

theorem aggregateResponse_consistent (checks : HealthChecks) (o : World) :
    Consistent (healthAnswer ((aggregateResponse checks).value o)) where
  code := by
    unfold healthAnswer
    split <;> rfl
  components := ⟨_, aggregateResponse_value checks o⟩

/-- The components of a response: each check contributes its own, from the part of
the outside that its position gives it. -/
theorem collectComponents_eq_some_iff {checks : HealthChecks} {o : World} {name : String}
    {component : ComponentHealth} :
    ((collectComponents checks).value o)[name]? = some component ↔
      ∃ (k : Nat) (check : HealthCheck), checks.toList[k]? = some (name, check) ∧
        component = check.check.value (o.part k) := by
  rw [collectComponents, Future.value_bind_pure, Future.value_joinAll_map]
  simp only [Future.value_bind_pure]
  exact getElem?_ofList_mapIdx checks fun k _ check => check.check.value (o.part k)

/-- The components of a response, when the parts of the aggregation all see the
same outside. -/
theorem collectComponents_value {checks : HealthChecks} {o o' : World}
    (h : ∀ j, o.part j = o') (name : String) :
    ((collectComponents checks).value o)[name]? =
      checks[name]?.map fun check => check.check.value o' := by
  apply Option.ext
  intro component
  rw [collectComponents_eq_some_iff, Option.map_eq_some_iff]
  constructor
  · rintro ⟨k, check, hk, rfl⟩
    exact ⟨check, getElem?_of_position hk, by rw [h]⟩
  · rintro ⟨check, hcheck, rfl⟩
    obtain ⟨k, hk⟩ := exists_position hcheck
    exact ⟨k, check, hk, by rw [h]⟩

/-- An aggregation asks what its checks ask, the check at position `k` at the
places below `k`. -/
theorem mem_aggregateResponse_log {checks : HealthChecks} {o : World} {e : Event Probe Answer} :
    e ∈ (aggregateResponse checks).log o ↔ ∃ (k : Nat) (name : String) (check : HealthCheck),
      checks.toList[k]? = some (name, check) ∧ ∃ e' ∈ check.check.log (o.part k),
        e = e'.under k := by
  rw [aggregateResponse, Future.log_bind_pure, collectComponents, Future.log_bind_pure,
    Future.mem_log_joinAll]
  constructor
  · intro h
    obtain ⟨k, f, hf, e', he', he⟩ := h
    obtain ⟨p, hp, rfl⟩ := exists_of_getElem?_map hf
    rw [Future.log_bind_pure] at he'
    exact ⟨k, p.1, p.2, hp, e', he', he⟩
  · intro h
    obtain ⟨k, name, check, hk, e', he', he⟩ := h
    refine ⟨k, _, by rw [List.getElem?_map, hk]; rfl, e', ?_, he⟩
    rw [Future.log_bind_pure]
    exact he'

theorem eventsAt_aggregateResponse_log {checks : HealthChecks} {o : World} {k : Nat}
    {name : String} {check : HealthCheck} (h : checks.toList[k]? = some (name, check))
    (place : List Nat) :
    eventsAt (k :: place) ((aggregateResponse checks).log o) =
      (eventsAt place (check.check.log (o.part k))).map (Event.under k) := by
  rw [aggregateResponse, Future.log_bind_pure, collectComponents, Future.log_bind_pure,
    Future.eventsAt_log_joinAll (by rw [List.getElem?_map, h]; rfl), Future.log_bind_pure]

/-! ## What is built -/

theorem getElem?_withCheck (checks : HealthChecks) (name key : String)
    (check : Option HealthCheck) :
    (withCheck checks name check)[key]? =
      if name = key then check.or checks[key]? else checks[key]? := by
  cases check with
  | none => simp [withCheck]
  | some check => simp [withCheck, ExtTreeMap.getElem?_insert]

theorem mem_withCheck (checks : HealthChecks) (name key : String) (check : Option HealthCheck) :
    key ∈ withCheck checks name check ↔ (key = name ∧ check.isSome) ∨ key ∈ checks := by
  cases check with
  | none => simp [withCheck]
  | some check => simp only [withCheck, mem_insert_iff, Option.isSome_some, and_true]

/-- Each configured section has its check, next to `ping`. -/
structure Built (parseUrl : String → Except String (Option String)) (health : HealthConfig)
    (checks : HealthChecks) : Prop where
  mem_iff : ∀ name, name ∈ checks ↔ name = "ping" ∨ (name = "http" ∧ health.checks.http.isSome) ∨
    (name = "dns" ∧ health.checks.dns.isSome) ∨ (name = "disk" ∧ health.checks.disk.isSome) ∨
    (name = "ldap" ∧ health.checks.ldap.isSome)
  ping : checks["ping"]? = some .ping
  http : ∀ http, health.checks.http = some http → ∃ check,
    Http.HttpHealthCheck.new parseUrl http health.config.httpTimeoutSeconds = .ok check ∧
      checks["http"]? = some (.http check)
  dns : ∀ dns, health.checks.dns = some dns → checks["dns"]? = some (.dns (.new dns))
  disk : ∀ disks, health.checks.disk = some disks → checks["disk"]? = some (.disk (.new disks))
  ldap : ∀ ldap, health.checks.ldap = some ldap →
    checks["ldap"]? = some (.ldap (.new ldap health.config.ldapTimeoutSeconds))

/-- The HTTP check is built when the section is configured. -/
theorem mapM_new_ok {parseUrl : String → Except String (Option String)} {timeoutSeconds : UInt64}
    {config : Option (List HttpCheckConfig)} {http : Option Http.HttpHealthCheck}
    (h : (config.mapM fun http => Http.HttpHealthCheck.new parseUrl http timeoutSeconds) =
      .ok http) :
    http.isSome = config.isSome ∧ ∀ targets, config = some targets → ∃ check,
      Http.HttpHealthCheck.new parseUrl targets timeoutSeconds = .ok check ∧ http = some check := by
  cases config with
  | none =>
    cases h
    exact ⟨rfl, fun targets heq => by cases heq⟩
  | some targets =>
    cases hnew : Http.HttpHealthCheck.new parseUrl targets timeoutSeconds with
    | error panic =>
      simp only [Option.mapM_some, hnew] at h
      cases h
    | ok check =>
      simp only [Option.mapM_some, hnew] at h
      cases h
      refine ⟨rfl, fun targets' heq => ?_⟩
      cases heq
      exact ⟨check, hnew, rfl⟩

theorem buildChecks_ok {parseUrl : String → Except String (Option String)} {health : HealthConfig}
    {checks : HealthChecks} (h : buildChecks parseUrl health = .ok checks) :
    Built parseUrl health checks := by
  cases hhttp : health.checks.http.mapM fun http =>
      Http.HttpHealthCheck.new parseUrl http health.config.httpTimeoutSeconds with
  | error panic =>
    simp only [buildChecks, hhttp] at h
    cases h
  | ok http =>
    obtain ⟨hsome, hnew⟩ := mapM_new_ok hhttp
    simp only [buildChecks, hhttp] at h
    cases h
    constructor
    · intro name
      simp only [mem_withCheck, Option.isSome_map, hsome, ExtTreeMap.ofList_singleton,
        mem_insert_iff, ExtTreeMap.not_mem_empty, or_false]
      tauto
    · simp [getElem?_withCheck]
    · intro targets htargets
      obtain ⟨check, hcheck, rfl⟩ := hnew targets htargets
      exact ⟨check, hcheck, by simp [getElem?_withCheck]⟩
    · intro dns hdns
      simp [getElem?_withCheck, hdns]
    · intro disks hdisks
      simp [getElem?_withCheck, hdisks]
    · intro ldap hldap
      simp [getElem?_withCheck, hldap]

/-- The checks there are, each with the section it was built from. -/
inductive BuiltCheck (parseUrl : String → Except String (Option String)) (health : HealthConfig) :
    String → HealthCheck → Prop
  | ping : BuiltCheck parseUrl health "ping" .ping
  | http {targets : List HttpCheckConfig} {check : Http.HttpHealthCheck}
      (configured : health.checks.http = some targets)
      (new : Http.HttpHealthCheck.new parseUrl targets health.config.httpTimeoutSeconds =
        .ok check) :
      BuiltCheck parseUrl health "http" (.http check)
  | dns {targets : List DnsCheckConfig} (configured : health.checks.dns = some targets) :
      BuiltCheck parseUrl health "dns" (.dns (.new targets))
  | disk {targets : List DiskConfig} (configured : health.checks.disk = some targets) :
      BuiltCheck parseUrl health "disk" (.disk (.new targets))
  | ldap {targets : List LdapCheckConfig} (configured : health.checks.ldap = some targets) :
      BuiltCheck parseUrl health "ldap" (.ldap (.new targets health.config.ldapTimeoutSeconds))

theorem Built.builtCheck {parseUrl : String → Except String (Option String)}
    {health : HealthConfig} {checks : HealthChecks} (h : Built parseUrl health checks)
    {name : String} {check : HealthCheck} (hcheck : checks[name]? = some check) :
    BuiltCheck parseUrl health name check := by
  have hmem : name ∈ checks := mem_iff_exists_getElem?.mpr ⟨check, hcheck⟩
  rcases (h.mem_iff name).mp hmem with rfl | ⟨rfl, hs⟩ | ⟨rfl, hs⟩ | ⟨rfl, hs⟩ | ⟨rfl, hs⟩
  · obtain rfl := Option.some.inj (h.ping.symm.trans hcheck)
    exact .ping
  · obtain ⟨targets, htargets⟩ := Option.isSome_iff_exists.mp hs
    obtain ⟨http, hnew, hhttp⟩ := h.http targets htargets
    obtain rfl := Option.some.inj (hhttp.symm.trans hcheck)
    exact .http htargets hnew
  · obtain ⟨targets, htargets⟩ := Option.isSome_iff_exists.mp hs
    obtain rfl := Option.some.inj ((h.dns targets htargets).symm.trans hcheck)
    exact .dns htargets
  · obtain ⟨targets, htargets⟩ := Option.isSome_iff_exists.mp hs
    obtain rfl := Option.some.inj ((h.disk targets htargets).symm.trans hcheck)
    exact .disk htargets
  · obtain ⟨targets, htargets⟩ := Option.isSome_iff_exists.mp hs
    obtain rfl := Option.some.inj ((h.ldap targets htargets).symm.trans hcheck)
    exact .ldap htargets

end AxumHealth

import AxumHealth.Health.Aggregate
import AxumHealth.JsonReader

/-!
# What a body reports

The body of `/actuator/health` is the only thing a monitor sees of an aggregation.
A `Report` is what it can take out of it: the statuses, and the entries of the
components with all of their fields.  Nothing an aggregation found is lost on the way
through the JSON text: the report that is read from the body is the report of the
aggregation.
-/

namespace AxumHealth

open Std Concurrency Collections Json

/-! ## Entries -/

namespace Status

def ofValue? : Value → Option Status
  | .string s => if s = "UP" then some up else if s = "DOWN" then some down else none
  | _ => none

theorem ofValue?_toValue (status : Status) : ofValue? status.toValue = some status := by
  cases status <;> decide

end Status

theorem uint8_number (n : UInt8) :
    (Value.number n.toNat).number? 256 Nat.toUInt8 = some n :=
  Value.number?_toNat UInt8.toNat_lt (fun n => by simp) n

theorem uint16_number (n : UInt16) :
    (Value.number n.toNat).number? 65536 Nat.toUInt16 = some n :=
  Value.number?_toNat UInt16.toNat_lt (fun n => by simp) n

theorem uint64_number (n : UInt64) :
    (Value.number n.toNat).number? 18446744073709551616 Nat.toUInt64 = some n :=
  Value.number?_toNat UInt64.toNat_lt (fun n => by simp) n

namespace Http

def HttpCheck.ofValue? (v : Value) : Option HttpCheck := do
  let url ← v.required? "url" Value.string?
  let status ← v.required? "status" Status.ofValue?
  let httpStatus ← v.optional? "http_status" (Value.number? 65536 Nat.toUInt16)
  let error ← v.optional? "error" Value.string?
  return { url, status, httpStatus, error }

theorem HttpCheck.ofValue?_toValue (check : HttpCheck) : ofValue? check.toValue = some check := by
  have hurl : check.toValue.required? "url" Value.string? = some check.url :=
    Value.required?_eq Value.string?_string (by simp [toValue])
  have hstatus : check.toValue.required? "status" Status.ofValue? = some check.status :=
    Value.required?_eq Status.ofValue?_toValue (by simp [toValue])
  have hcode : check.toValue.optional? "http_status" (Value.number? 65536 Nat.toUInt16) =
      some check.httpStatus :=
    Value.optional?_eq uint16_number (by simp [toValue])
  have herror : check.toValue.optional? "error" Value.string? = some check.error :=
    Value.optional?_eq Value.string?_string (by simp [toValue])
  unfold ofValue?
  rw [hurl, hstatus, hcode, herror]
  rfl

end Http

namespace Dns

def DnsCheck.ofValue? (v : Value) : Option DnsCheck := do
  let host ← v.required? "host" Value.string?
  let status ← v.required? "status" Status.ofValue?
  let addresses ← v.optional? "addresses" (Value.items? Value.string?)
  let error ← v.optional? "error" Value.string?
  return { host, status, addresses, error }

theorem DnsCheck.ofValue?_toValue (check : DnsCheck) : ofValue? check.toValue = some check := by
  have hhost : check.toValue.required? "host" Value.string? = some check.host :=
    Value.required?_eq Value.string?_string (by simp [toValue])
  have hstatus : check.toValue.required? "status" Status.ofValue? = some check.status :=
    Value.required?_eq Status.ofValue?_toValue (by simp [toValue])
  have haddresses : check.toValue.optional? "addresses" (Value.items? Value.string?) =
      some check.addresses :=
    Value.optional?_eq (Value.items?_map Value.string?_string) (by simp [toValue])
  have herror : check.toValue.optional? "error" Value.string? = some check.error :=
    Value.optional?_eq Value.string?_string (by simp [toValue])
  unfold ofValue?
  rw [hhost, hstatus, haddresses, herror]
  rfl

end Dns

namespace Disk

def DiskCheck.ofValue? (v : Value) : Option DiskCheck := do
  let path ← v.required? "path" Value.string?
  let status ← v.required? "status" Status.ofValue?
  let bytes := Value.number? 18446744073709551616 Nat.toUInt64
  let totalBytes ← v.optional? "total_bytes" bytes
  let availableBytes ← v.optional? "available_bytes" bytes
  let percentRemaining ← v.optional? "percent_remaining" (Value.number? 256 Nat.toUInt8)
  let threshold ← v.required? "threshold" (Value.number? 256 Nat.toUInt8)
  let error ← v.optional? "error" Value.string?
  return { path, status, totalBytes, availableBytes, percentRemaining, threshold, error }

theorem DiskCheck.ofValue?_toValue (check : DiskCheck) : ofValue? check.toValue = some check := by
  have hpath : check.toValue.required? "path" Value.string? = some check.path :=
    Value.required?_eq Value.string?_string (by simp [toValue])
  have hstatus : check.toValue.required? "status" Status.ofValue? = some check.status :=
    Value.required?_eq Status.ofValue?_toValue (by simp [toValue])
  have htotal : check.toValue.optional? "total_bytes"
      (Value.number? 18446744073709551616 Nat.toUInt64) = some check.totalBytes :=
    Value.optional?_eq uint64_number (by simp [toValue])
  have havailable : check.toValue.optional? "available_bytes"
      (Value.number? 18446744073709551616 Nat.toUInt64) = some check.availableBytes :=
    Value.optional?_eq uint64_number (by simp [toValue])
  have hpercent : check.toValue.optional? "percent_remaining" (Value.number? 256 Nat.toUInt8) =
      some check.percentRemaining :=
    Value.optional?_eq uint8_number (by simp [toValue])
  have hthreshold : check.toValue.required? "threshold" (Value.number? 256 Nat.toUInt8) =
      some check.threshold :=
    Value.required?_eq uint8_number (by simp [toValue])
  have herror : check.toValue.optional? "error" Value.string? = some check.error :=
    Value.optional?_eq Value.string?_string (by simp [toValue])
  unfold ofValue?
  rw [hpath, hstatus]
  simp only [Option.bind_eq_bind, Option.bind_some]
  rw [htotal, havailable, hpercent, hthreshold, herror]
  rfl

end Disk

namespace Ldap

def LdapCheck.ofValue? (v : Value) : Option LdapCheck := do
  let url ← v.required? "url" Value.string?
  let status ← v.required? "status" Status.ofValue?
  let error ← v.optional? "error" Value.string?
  return { url, status, error }

theorem LdapCheck.ofValue?_toValue (check : LdapCheck) : ofValue? check.toValue = some check := by
  have hurl : check.toValue.required? "url" Value.string? = some check.url :=
    Value.required?_eq Value.string?_string (by simp [toValue])
  have hstatus : check.toValue.required? "status" Status.ofValue? = some check.status :=
    Value.required?_eq Status.ofValue?_toValue (by simp [toValue])
  have herror : check.toValue.optional? "error" Value.string? = some check.error :=
    Value.optional?_eq Value.string?_string (by simp [toValue])
  unfold ofValue?
  rw [hurl, hstatus, herror]
  rfl

end Ldap

/-! ## Components -/

/-- What the details of a component list. -/
inductive Details
  | ping
  | http (urls : List Http.HttpCheck)
  | dns (hosts : List Dns.DnsCheck)
  | disk (disks : List Disk.DiskCheck)
  | ldap (servers : List Ldap.LdapCheck)
  deriving DecidableEq, Repr

namespace Details

def toValue : Details → Value
  | ping => .object []
  | http urls => Http.httpDetails urls
  | dns hosts => Dns.dnsDetails hosts
  | disk disks => Disk.diskDetails disks
  | ldap servers => Ldap.ldapDetails servers

/-- The name of the only field tells what is listed. -/
def ofValue? : Value → Option Details
  | .object [] => some ping
  | .object [(name, entries)] =>
    if name = "urls" then (entries.items? Http.HttpCheck.ofValue?).map http
    else if name = "hosts" then (entries.items? Dns.DnsCheck.ofValue?).map dns
    else if name = "disks" then (entries.items? Disk.DiskCheck.ofValue?).map disk
    else if name = "servers" then (entries.items? Ldap.LdapCheck.ofValue?).map ldap
    else none
  | _ => none

/-- UP when all entries are. -/
def status : Details → Status
  | ping => .up
  | http urls => Status.ofAll (urls.map Http.HttpCheck.status)
  | dns hosts => Status.ofAll (hosts.map Dns.DnsCheck.status)
  | disk disks => Status.ofAll (disks.map Disk.DiskCheck.status)
  | ldap servers => Status.ofAll (servers.map Ldap.LdapCheck.status)

theorem ofValue?_toValue (details : Details) : ofValue? details.toValue = some details := by
  cases details with
  | ping => rfl
  | http urls =>
    show ((Value.array (urls.map Http.HttpCheck.toValue)).items? Http.HttpCheck.ofValue?).map http =
      some (http urls)
    rw [Value.items?_map Http.HttpCheck.ofValue?_toValue]
    rfl
  | dns hosts =>
    show ((Value.array (hosts.map Dns.DnsCheck.toValue)).items? Dns.DnsCheck.ofValue?).map dns =
      some (dns hosts)
    rw [Value.items?_map Dns.DnsCheck.ofValue?_toValue]
    rfl
  | disk disks =>
    show ((Value.array (disks.map Disk.DiskCheck.toValue)).items?
      Disk.DiskCheck.ofValue?).map disk = some (disk disks)
    rw [Value.items?_map Disk.DiskCheck.ofValue?_toValue]
    rfl
  | ldap servers =>
    show ((Value.array (servers.map Ldap.LdapCheck.toValue)).items?
      Ldap.LdapCheck.ofValue?).map ldap = some (ldap servers)
    rw [Value.items?_map Ldap.LdapCheck.ofValue?_toValue]
    rfl

end Details

/-- What a check finds. -/
def HealthCheck.details (o : World) : HealthCheck → Details
  | ping => .ping
  | http check => .http <| check.targets.mapIdx fun i target =>
      (Http.checkTarget check.timeout target).value (o.part i)
  | dns check => .dns <| check.hosts.mapIdx fun i host => (Dns.checkHost host).value (o.part i)
  | disk check => .disk <| check.disks.mapIdx fun i disk => (Disk.checkDisk disk).value (o.part i)
  | ldap check => .ldap <| check.servers.mapIdx fun i server =>
      (Ldap.checkServer check.timeout server).value (o.part i)

/-- A component says what its check finds, and the status that follows. -/
theorem HealthCheck.check_value (check : HealthCheck) (o : World) :
    check.check.value o =
      { status := (check.details o).status, details := (check.details o).toValue } := by
  cases check with
  | ping => rfl
  | http check => exact joinedComponent_value _ _ _ _ _
  | dns check => exact joinedComponent_value _ _ _ _ _
  | disk check => exact joinedComponent_value _ _ _ _ _
  | ldap check => exact joinedComponent_value _ _ _ _ _

/-! ## The body -/

/-- A component, by its name. -/
structure Finding where
  name : String
  status : Status
  details : Details
  deriving DecidableEq, Repr

structure Report where
  status : Status
  components : Option (List Finding)
  deriving DecidableEq, Repr

namespace Finding

def toField (finding : Finding) : String × Value :=
  (finding.name,
    ComponentHealth.toValue { status := finding.status, details := finding.details.toValue })

def ofField? (field : String × Value) : Option Finding := do
  let status ← field.2.required? "status" Status.ofValue?
  let details ← field.2.required? "details" Details.ofValue?
  return { name := field.1, status, details }

theorem ofField?_toField (finding : Finding) : ofField? finding.toField = some finding := by
  have hstatus : finding.toField.2.required? "status" Status.ofValue? = some finding.status :=
    Value.required?_eq Status.ofValue?_toValue (by simp [toField, ComponentHealth.toValue])
  have hdetails : finding.toField.2.required? "details" Details.ofValue? = some finding.details :=
    Value.required?_eq Details.ofValue?_toValue (by simp [toField, ComponentHealth.toValue])
  unfold ofField?
  rw [hstatus, hdetails]
  rfl

end Finding

namespace Report

def findingsToValue (findings : List Finding) : Value := .object (findings.map Finding.toField)

def findingsOfValue? : Value → Option (List Finding)
  | .object fields => fields.mapM Finding.ofField?
  | _ => none

def toValue (report : Report) : Value :=
  .object ([("status", report.status.toValue)] ++
    Json.optionalField "components" findingsToValue report.components)

/-- What a monitor takes out of the text of a body. -/
def ofText (body : String) : Option Report := do
  let body ← Json.parse body
  let status ← body.required? "status" Status.ofValue?
  let components ← body.optional? "components" findingsOfValue?
  return { status, components }

theorem findingsOfValue?_toValue (findings : List Finding) :
    findingsOfValue? (findingsToValue findings) = some findings :=
  Value.mapM_map_eq_some fun finding _ => finding.ofField?_toField

/-- A report is read from its text. -/
theorem ofText_render (report : Report) : ofText report.toValue.render = some report := by
  have hstatus : report.toValue.required? "status" Status.ofValue? = some report.status :=
    Value.required?_eq Status.ofValue?_toValue (by simp [toValue])
  have hcomponents : report.toValue.optional? "components" findingsOfValue? =
      some report.components :=
    Value.optional?_eq findingsOfValue?_toValue (by simp [toValue])
  unfold ofText
  rw [parse_render]
  simp only [Option.bind_eq_bind, Option.bind_some]
  rw [hstatus, hcomponents]
  rfl

end Report

/-- The findings of an aggregation, the checks in the order of their names. -/
def findings (checks : HealthChecks) (o : World) : List Finding :=
  checks.toList.mapIdx fun k p =>
    { name := p.1, status := (p.2.details (o.part k)).status, details := p.2.details (o.part k) }

/-- The report of an aggregation. -/
def reportOf (checks : HealthChecks) (o : World) : Report :=
  { status := Status.ofAll ((findings checks o).map Finding.status)
    components := some (findings checks o) }

theorem toList_collectComponents (checks : HealthChecks) (o : World) :
    ((collectComponents checks).value o).toList =
      (findings checks o).map fun finding =>
        (finding.name, { status := finding.status, details := finding.details.toValue }) := by
  have htoList := toList_ofList_mapIdx checks fun k _ check => check.check.value (o.part k)
  rw [collectComponents, Future.value_bind_pure, Future.value_joinAll_map]
  simp only [Future.value_bind_pure]
  rw [htoList, findings]
  apply List.ext_getElem?
  intro i
  rw [List.getElem?_map, List.getElem?_mapIdx, List.getElem?_mapIdx, Option.map_map]
  simp only [HealthCheck.check_value]
  rfl

theorem status_aggregateResponse (checks : HealthChecks) (o : World) :
    ((aggregateResponse checks).value o).status = (reportOf checks o).status := by
  rw [aggregateResponse, Future.value_bind_pure]
  simp [toList_collectComponents, reportOf, Status.ofAll, List.all_map, Function.comp_def]

/-- The JSON of an aggregation is that of its report. -/
theorem toValue_aggregateResponse (checks : HealthChecks) (o : World) :
    ((aggregateResponse checks).value o).toValue = (reportOf checks o).toValue := by
  rw [HealthResponse.toValue, Report.toValue, status_aggregateResponse,
    (aggregateResponse_value checks o).1]
  simp only [Json.optionalField, toList_collectComponents, List.map_map]
  rfl

theorem healthBody_aggregateResponse (checks : HealthChecks) (o : World) :
    healthBody ((aggregateResponse checks).value o) = (reportOf checks o).toValue.render := by
  rw [healthBody, toValue_aggregateResponse]

theorem ofText_healthBody (checks : HealthChecks) (o : World) :
    Report.ofText (healthBody ((aggregateResponse checks).value o)) =
      some (reportOf checks o) := by
  rw [healthBody_aggregateResponse, Report.ofText_render]

/-- A monitor that reads the body of an aggregation gets all that the aggregation found,
so two aggregations have the same body exactly when they found the same. -/
theorem body_read (checks : HealthChecks) (o : World) :
    Report.ofText (healthBody ((aggregateResponse checks).value o)) = some (reportOf checks o) ∧
      ∀ (checks' : HealthChecks) (o' : World),
        healthBody ((aggregateResponse checks).value o) =
            healthBody ((aggregateResponse checks').value o') ↔
          reportOf checks o = reportOf checks' o' := by
  refine ⟨ofText_healthBody checks o, fun checks' o' => ?_⟩
  constructor
  · intro h
    have hread := ofText_healthBody checks o
    rw [h, ofText_healthBody] at hread
    exact (Option.some.inj hread).symm
  · intro h
    rw [healthBody_aggregateResponse, healthBody_aggregateResponse, h]

/-! ## The configuration in a report -/

/-- The section whose targets are listed. -/
def Details.section : Details → String
  | ping => "ping"
  | http _ => "http"
  | dns _ => "dns"
  | disk _ => "disk"
  | ldap _ => "ldap"

/-- The targets that are listed, in order. -/
def Details.targets : Details → List String
  | ping => []
  | http urls => urls.map Http.HttpCheck.url
  | dns hosts => hosts.map Dns.DnsCheck.host
  | disk disks => disks.map Disk.DiskCheck.path
  | ldap servers => servers.map Ldap.LdapCheck.url

namespace HealthConfig

/-- The targets of a section, if it is configured. -/
def targets? (health : HealthConfig) (name : String) : Option (List String) :=
  if name = "ping" then some []
  else if name = "http" then health.checks.http.map fun http => http.map HttpCheckConfig.url
  else if name = "dns" then health.checks.dns.map fun dns => dns.map DnsCheckConfig.host
  else if name = "disk" then health.checks.disk.map fun disks => disks.map DiskConfig.path
  else if name = "ldap" then health.checks.ldap.map fun ldap => ldap.map LdapCheckConfig.url
  else none

end HealthConfig

/-- The names of the configured sections, in the order of a body. -/
def HealthConfig.sectionNames (health : HealthConfig) : List String :=
  ["disk", "dns", "http", "ldap", "ping"].filter fun name => (health.targets? name).isSome

/-- A report that goes with a configuration: it has the configured sections in the order of
their names, each with its targets in their order, and the statuses follow from the
entries. -/
structure Describes (health : HealthConfig) (report : Report) : Prop where
  sections : report.components.map (List.map Finding.name) = some health.sectionNames
  findings : ∀ finding ∈ report.components.getD [], finding.details.section = finding.name ∧
    health.targets? finding.name = some finding.details.targets ∧
    finding.status = finding.details.status
  status : report.status = Status.ofAll ((report.components.getD []).map Finding.status)

theorem Built.keys_eq {parseUrl : String → Except String (Option String)} {health : HealthConfig}
    {checks : HealthChecks} (h : Built parseUrl health checks) :
    checks.keys = health.sectionNames := by
  have hsorted : ["disk", "dns", "http", "ldap", "ping"].Pairwise
      fun a b : String => compare a b = .lt := by decide
  have hantisymm : ∀ {l l' : List String} (a b), a ∈ l → b ∈ l' → compare a b = .lt →
      compare b a = .lt → a = b := by
    intro l l' a b _ _ hab hba
    have haa : compare a a = .lt := TransCmp.lt_trans hab hba
    rw [ReflOrd.compare_self] at haa
    cases haa
  have hmem : ∀ name, name ∈ checks ↔ name ∈ health.sectionNames := by
    intro name
    rw [h.mem_iff, HealthConfig.sectionNames, List.mem_filter]
    constructor
    · rintro (rfl | ⟨rfl, hs⟩ | ⟨rfl, hs⟩ | ⟨rfl, hs⟩ | ⟨rfl, hs⟩)
      · simp [HealthConfig.targets?]
      all_goals simpa [HealthConfig.targets?] using hs
    · rintro ⟨hname, hs⟩
      simp only [List.mem_cons, List.not_mem_nil, or_false] at hname
      rcases hname with rfl | rfl | rfl | rfl | rfl
      case inr.inr.inr.inr => exact .inl rfl
      all_goals simpa [HealthConfig.targets?] using hs
  apply List.Perm.eq_of_pairwise hantisymm ExtTreeMap.ordered_keys (hsorted.filter _)
  rw [List.perm_ext_iff_of_nodup ExtTreeMap.nodup_keys (List.Nodup.filter _ (by decide))]
  intro name
  rw [ExtTreeMap.mem_keys, hmem]
  rfl

theorem map_mapIdx {α β γ : Type} {f : Nat → α → β} {g : β → γ} {h : α → γ}
    (heq : ∀ i a, g (f i a) = h a) (as : List α) : (as.mapIdx f).map g = as.map h := by
  apply List.ext_getElem?
  intro i
  rw [List.getElem?_map, List.getElem?_mapIdx, List.getElem?_map, Option.map_map]
  congr 1
  exact funext fun a => heq i a

/-- What a check lists are the targets of its section. -/
theorem BuiltCheck.details_eq {parseUrl : String → Except String (Option String)}
    {health : HealthConfig} {name : String} {check : HealthCheck}
    (h : BuiltCheck parseUrl health name check) (o : World) :
    (check.details o).section = name ∧ health.targets? name = some (check.details o).targets := by
  cases h with
  | ping => exact ⟨rfl, rfl⟩
  | @http targets check configured new =>
    refine ⟨rfl, ?_⟩
    have htargets : (HealthCheck.details o (.http check)).targets = check.targets.map id := by
      show List.map _ (List.mapIdx _ _) = _
      apply map_mapIdx
      exact fun i target => Http.checkTarget_url check.timeout target (o.part i)
    obtain ⟨-, hurls, -⟩ := Http.HttpHealthCheck.new_eq_ok new
    rw [htargets, List.map_id, hurls]
    simp [HealthConfig.targets?, configured]
  | @dns targets configured =>
    refine ⟨rfl, ?_⟩
    have htargets : (HealthCheck.details o (.dns (.new targets))).targets =
        (Dns.DnsHealthCheck.new targets).hosts.map id := by
      show List.map _ (List.mapIdx _ _) = _
      apply map_mapIdx
      exact fun i host => Dns.dnsEntry_host host ((o.part i).head (.lookupHost host))
    rw [htargets, List.map_id]
    simp [HealthConfig.targets?, configured, Dns.DnsHealthCheck.new]
  | @disk targets configured =>
    refine ⟨rfl, ?_⟩
    have htargets : (HealthCheck.details o (.disk (.new targets))).targets =
        (Disk.DiskHealthCheck.new targets).disks.map DiskConfig.path := by
      show List.map _ (List.mapIdx _ _) = _
      apply map_mapIdx
      exact fun i disk => (Disk.checkDisk_about disk (o.part i)).1
    rw [htargets]
    simp [HealthConfig.targets?, configured, Disk.DiskHealthCheck.new]
  | @ldap targets configured =>
    refine ⟨rfl, ?_⟩
    have htargets : (HealthCheck.details o
        (.ldap (.new targets health.config.ldapTimeoutSeconds))).targets =
        (Ldap.LdapHealthCheck.new targets health.config.ldapTimeoutSeconds).servers.map
          Ldap.LdapTarget.url := by
      show List.map _ (List.mapIdx _ _) = _
      apply map_mapIdx
      exact fun i server => Ldap.checkServer_url _ server (o.part i)
    rw [htargets]
    simp [HealthConfig.targets?, configured, Ldap.LdapHealthCheck.new]

theorem reportOf_describes {parseUrl : String → Except String (Option String)}
    {health : HealthConfig} {checks : HealthChecks} (h : Built parseUrl health checks)
    (o : World) : Describes health (reportOf checks o) := by
  constructor
  · show some ((findings checks o).map Finding.name) = _
    have hnames : (findings checks o).map Finding.name = checks.toList.map Prod.fst := by
      rw [findings]
      apply map_mapIdx
      exact fun _ _ => rfl
    rw [hnames, ExtTreeMap.map_fst_toList_eq_keys, h.keys_eq]
  · show ∀ finding ∈ findings checks o, _
    intro finding hfinding
    obtain ⟨k, hk⟩ := List.getElem?_of_mem hfinding
    rw [findings, List.getElem?_mapIdx] at hk
    obtain ⟨p, hp, rfl⟩ := Option.map_eq_some_iff.mp hk
    obtain ⟨hsection, htargets⟩ := (h.builtCheck (getElem?_of_position hp)).details_eq (o.part k)
    exact ⟨hsection, htargets, rfl⟩
  · rfl

end AxumHealth

import AxumHealth.Health.Verdict

/-!
# The evidence of an entry

Every entry of the response carries, next to its status, the evidence the status
was decided by.  This is about the response as its reader gets it, a JSON value:
the status of an entry can be recomputed from its other fields, and the statuses
of the components and of the response from the entries.
-/

namespace AxumHealth

open Std Concurrency Collections

namespace Evidence

/-! ## Reading an entry -/

def Has (entry : Json.Value) (name : String) : Prop := (entry.field? name).isSome

def HasStatus (status : Status) (v : Json.Value) : Prop := v.field? "status" = some status.toValue

theorem toValue_injective : Function.Injective Status.toValue := by
  intro s t h
  cases s <;> cases t <;> simp [Status.toValue] at h ⊢

/-- An entry that is UP or DOWN, and UP when its evidence says so, has the status
of the evidence. -/
theorem hasStatus_of_up_iff {v : Json.Value} {s : Status}
    (h : HasStatus .up v ∨ HasStatus .down v) (hup : HasStatus .up v ↔ s = .up) :
    HasStatus s v := by
  cases s with
  | up => exact hup.mpr rfl
  | down =>
    rcases h with h | h
    · cases hup.mp h
    · exact h

/-! ## What the evidence of each section says -/

/-- The status of an HTTP entry, from its evidence. -/
def httpVerdict (entry : Json.Value) : Status :=
  match entry.field? "http_status" with
  | some (.number n) => if 200 ≤ n ∧ n ≤ 299 then .up else .down
  | _ => .down

def dnsVerdict (entry : Json.Value) : Status :=
  if (entry.field? "addresses").isSome then .up else .down

def diskVerdict (entry : Json.Value) : Status :=
  match entry.field? "percent_remaining", entry.field? "threshold" with
  | some (.number percent), some (.number threshold) => if threshold < percent then .up else .down
  | _, _ => .down

def ldapVerdict (entry : Json.Value) : Status :=
  if (entry.field? "error").isSome then .down else .up

/-- An HTTP entry has one of a response's status and an error. -/
structure HttpAgrees (entry : Json.Value) : Prop where
  status : HasStatus .up entry ∨ HasStatus .down entry
  one : Has entry "http_status" ↔ ¬ Has entry "error"
  up_iff : HasStatus .up entry ↔
    ∃ n, entry.field? "http_status" = some (.number n) ∧ 200 ≤ n ∧ n ≤ 299

/-- A DNS entry has one of addresses, at least one of them, and an error. -/
structure DnsAgrees (entry : Json.Value) : Prop where
  status : HasStatus .up entry ∨ HasStatus .down entry
  one : Has entry "addresses" ↔ ¬ Has entry "error"
  nonempty : ∀ v, entry.field? "addresses" = some v → ∃ a rest, v = .array (a :: rest)
  up_iff : HasStatus .up entry ↔ Has entry "addresses"

/-- A disk entry has all of the usage, or an error, and always its threshold. -/
structure DiskAgrees (entry : Json.Value) : Prop where
  status : HasStatus .up entry ∨ HasStatus .down entry
  total_iff : Has entry "total_bytes" ↔ Has entry "percent_remaining"
  available_iff : Has entry "available_bytes" ↔ Has entry "percent_remaining"
  error_iff : Has entry "error" ↔ ¬ Has entry "percent_remaining"
  up_iff : HasStatus .up entry ↔ ∃ percent threshold,
    entry.field? "percent_remaining" = some (.number percent) ∧
      entry.field? "threshold" = some (.number threshold) ∧ threshold < percent

structure LdapAgrees (entry : Json.Value) : Prop where
  status : HasStatus .up entry ∨ HasStatus .down entry
  up_iff : HasStatus .up entry ↔ ¬ Has entry "error"

theorem httpVerdict_eq_up_iff (entry : Json.Value) :
    httpVerdict entry = .up ↔
      ∃ n, entry.field? "http_status" = some (.number n) ∧ 200 ≤ n ∧ n ≤ 299 := by
  unfold httpVerdict
  cases hfield : entry.field? "http_status" with
  | none => simp
  | some v => cases v <;> simp

theorem dnsVerdict_eq_up_iff (entry : Json.Value) :
    dnsVerdict entry = .up ↔ Has entry "addresses" := by
  unfold dnsVerdict Has
  by_cases h : (entry.field? "addresses").isSome = true <;> simp [h]

theorem diskVerdict_eq_up_iff (entry : Json.Value) :
    diskVerdict entry = .up ↔ ∃ percent threshold,
      entry.field? "percent_remaining" = some (.number percent) ∧
        entry.field? "threshold" = some (.number threshold) ∧ threshold < percent := by
  unfold diskVerdict
  cases hpercent : entry.field? "percent_remaining" with
  | none => simp
  | some v =>
    cases hthreshold : entry.field? "threshold" with
    | none => simp
    | some w => cases v <;> cases w <;> simp

theorem ldapVerdict_eq_up_iff (entry : Json.Value) :
    ldapVerdict entry = .up ↔ ¬ Has entry "error" := by
  unfold ldapVerdict Has
  by_cases h : (entry.field? "error").isSome = true <;> simp [h]

/-! ## The entries of the checks -/

theorem httpAgrees_error (url error : String) :
    HttpAgrees (Http.HttpCheck.toValue
      { url, status := .down, httpStatus := none, error := some error }) := by
  constructor <;> simp [Http.HttpCheck.toValue, Has, HasStatus, Status.toValue]

theorem httpAgrees_code (url : String) {code : UInt16} {status : Status}
    (h : status = .up ↔ 200 ≤ code.toNat ∧ code.toNat ≤ 299) :
    HttpAgrees (Http.HttpCheck.toValue
      { url, status, httpStatus := some code, error := none }) := by
  cases status with
  | up =>
    have hcode := h.mp rfl
    constructor <;> simp [Http.HttpCheck.toValue, Has, HasStatus, Status.toValue, hcode]
  | down =>
    have hcode : 200 ≤ code.toNat → 299 < code.toNat := by
      intro hle
      by_contra hge
      cases h.mpr ⟨hle, Nat.le_of_not_lt hge⟩
    refine ⟨?_, ?_, ?_⟩
    · simp [Http.HttpCheck.toValue, HasStatus, Status.toValue]
    · simp [Http.HttpCheck.toValue, Has]
    · simpa [Http.HttpCheck.toValue, HasStatus, Status.toValue] using hcode

theorem httpEntry_agrees (timeout : Duration) (url : String)
    (answer : Except ReqwestError Response) :
    HttpAgrees (Http.httpEntry timeout url answer).toValue := by
  cases answer with
  | error err =>
    unfold Http.httpEntry Http.takeAnswer
    by_cases h : err.isTimeout = true
    · simp only [h, if_true]
      exact httpAgrees_error url _
    · simp only [h, if_false, Bool.false_eq_true]
      exact httpAgrees_error url _
  | ok response =>
    show HttpAgrees (Http.HttpCheck.toValue
      { url, status := if response.status.isSuccess then .up else .down
        httpStatus := some response.status.asU16, error := none })
    apply httpAgrees_code
    have hlt : response.status.code < 300 ↔ response.status.code.toNat ≤ 299 := by
      rw [UInt16.lt_iff_toNat_lt]
      exact Nat.lt_succ_iff
    simp [StatusCode.isSuccess, StatusCode.asU16, UInt16.le_iff_toNat_le, hlt]

theorem mockCheck_agrees {url : String} {check : Http.HttpCheck}
    (h : Http.mockCheck url = some check) : HttpAgrees check.toValue := by
  unfold Http.mockCheck at h
  cases hsuffix : Text.stripPrefix url "mock://" with
  | none => simp [hsuffix] at h
  | some suffix =>
    simp only [hsuffix, Option.some.injEq] at h
    subst h
    by_cases hup : suffix = "up"
    · rw [if_pos hup]
      exact httpAgrees_code url (by decide)
    · by_cases hdown : suffix = "down"
      · rw [if_neg hup, if_pos hdown]
        exact httpAgrees_code url (by decide)
      · rw [if_neg hup, if_neg hdown]
        exact httpAgrees_error url _

theorem checkTarget_agrees (timeout : Duration) (target : String) (o : World) :
    HttpAgrees ((Http.checkTarget timeout target).value o).toValue := by
  rw [Http.checkTarget_value]
  cases h : Http.mockCheck target with
  | some check => exact mockCheck_agrees h
  | none => exact httpEntry_agrees timeout target _

theorem dnsAgrees_error (host error : String) :
    DnsAgrees (Dns.DnsCheck.toValue
      { host, status := .down, addresses := none, error := some error }) := by
  constructor <;> simp [Dns.DnsCheck.toValue, Has, HasStatus, Status.toValue]

theorem dnsEntry_agrees (host : String) (answer : Except String (List SocketAddr)) :
    DnsAgrees (Dns.dnsEntry host answer).toValue := by
  cases answer with
  | error err => exact dnsAgrees_error host err
  | ok lookup =>
    cases lookup with
    | nil => exact dnsAgrees_error host "no addresses resolved"
    | cons addr rest =>
      constructor <;>
        simp [Dns.dnsEntry, Dns.DnsCheck.toValue, Has, HasStatus, Status.toValue]

theorem diskEntry_agrees (disk : DiskConfig)
    (usage : Except String (UInt64 × UInt64 × UInt8)) :
    DiskAgrees (Disk.diskEntry disk usage).toValue := by
  cases usage with
  | error err =>
    constructor <;>
      simp [Disk.diskEntry, Disk.DiskCheck.toValue, Has, HasStatus, Status.toValue]
  | ok usage =>
    obtain ⟨total, available, percent⟩ := usage
    by_cases hle : percent ≤ disk.threshold
    · have hnot : ¬ disk.threshold.toNat < percent.toNat := by
        rw [← UInt8.lt_iff_toNat_lt]
        exact UInt8.not_lt.mpr hle
      constructor <;>
        simp [Disk.diskEntry, Disk.DiskCheck.toValue, Has, HasStatus, Status.toValue, hle, hnot]
    · have hlt : disk.threshold.toNat < percent.toNat := by
        rw [← UInt8.lt_iff_toNat_lt]
        exact UInt8.not_le.mp hle
      constructor <;>
        simp [Disk.diskEntry, Disk.DiskCheck.toValue, Has, HasStatus, Status.toValue, hle, hlt]

theorem ldapEntry_agrees (url : String) (result : Except String Unit) :
    LdapAgrees (Ldap.ldapEntry url result).toValue := by
  cases result with
  | ok u =>
    constructor <;> simp [Ldap.ldapEntry, Ldap.LdapCheck.toValue, Has, HasStatus, Status.toValue]
  | error err =>
    constructor <;> simp [Ldap.ldapEntry, Ldap.LdapCheck.toValue, Has, HasStatus, Status.toValue]

/-! ## Sections -/

/-- The sections that list entries. -/
inductive Section
  | http
  | dns
  | disk
  | ldap
  deriving DecidableEq

namespace Section

def name : Section → String
  | http => "http"
  | dns => "dns"
  | disk => "disk"
  | ldap => "ldap"

/-- The field of the details that holds the entries. -/
def list : Section → String
  | http => "urls"
  | dns => "hosts"
  | disk => "disks"
  | ldap => "servers"

/-- The number of targets that are configured, if the section is. -/
def size (health : HealthConfig) : Section → Option Nat
  | http => health.checks.http.map List.length
  | dns => health.checks.dns.map List.length
  | disk => health.checks.disk.map List.length
  | ldap => health.checks.ldap.map List.length

def verdict : Section → Json.Value → Status
  | http => httpVerdict
  | dns => dnsVerdict
  | disk => diskVerdict
  | ldap => ldapVerdict

def Agrees : Section → Json.Value → Prop
  | http => HttpAgrees
  | dns => DnsAgrees
  | disk => DiskAgrees
  | ldap => LdapAgrees

/-- The fields that can be the reason for DOWN. -/
def reasons : Section → List String
  | http => ["error", "http_status"]
  | dns => ["error"]
  | disk => ["error", "percent_remaining"]
  | ldap => ["error"]

def ofName (name : String) : Option Section :=
  [http, dns, disk, ldap].find? fun s => s.name = name

theorem ofName_name (s : Section) : ofName s.name = some s := by
  cases s <;> decide

/-- The entries a component lists. -/
def entries (s : Section) (component : Json.Value) : List Json.Value :=
  match (component.field? "details").bind fun details => details.field? s.list with
  | some (.array entries) => entries
  | _ => []

/-- The status of an entry, from all of its fields but the status. -/
def recomputed (s : Section) (entry : Json.Value) : Status := s.verdict (entry.without "status")

end Section

/-- An entry that explains itself: its status and its evidence agree, it carries no
error when it is UP and a reason when it is DOWN, and its status is the one its
other fields give. -/
structure Entry (s : Section) (entry : Json.Value) : Prop where
  agrees : s.Agrees entry
  up : HasStatus .up entry → ¬ Has entry "error"
  down : HasStatus .down entry → ∃ name ∈ s.reasons, Has entry name
  status : HasStatus (s.recomputed entry) entry

theorem not_up_of_down {v : Json.Value} (h : HasStatus .down v) : ¬ HasStatus .up v := by
  intro hup
  rw [HasStatus, h] at hup
  cases toValue_injective (Option.some.inj hup)

theorem httpEntry_explained {entry : Json.Value} (h : HttpAgrees entry) : Entry .http entry := by
  have hfield := Json.Value.field?_without (show "http_status" ≠ "status" by decide) entry
  refine ⟨h, ?_, ?_, hasStatus_of_up_iff h.status ?_⟩
  · intro hup
    obtain ⟨n, hn, -⟩ := h.up_iff.mp hup
    exact h.one.mp (by rw [Has, hn]; rfl)
  · intro _
    by_cases herror : Has entry "error"
    · exact ⟨"error", by decide, herror⟩
    · exact ⟨"http_status", by decide, h.one.mpr herror⟩
  · rw [h.up_iff, ← hfield]
    exact (httpVerdict_eq_up_iff _).symm

theorem dnsEntry_explained {entry : Json.Value} (h : DnsAgrees entry) : Entry .dns entry := by
  have hfield := Json.Value.field?_without (show "addresses" ≠ "status" by decide) entry
  refine ⟨h, fun hup => h.one.mp (h.up_iff.mp hup), ?_, hasStatus_of_up_iff h.status ?_⟩
  · intro hdown
    have hnot : ¬ Has entry "addresses" := fun hhas => not_up_of_down hdown (h.up_iff.mpr hhas)
    exact ⟨"error", by decide, not_not.mp fun herror => hnot (h.one.mpr herror)⟩
  · rw [h.up_iff, Has, ← hfield]
    exact (dnsVerdict_eq_up_iff _).symm

theorem diskEntry_explained {entry : Json.Value} (h : DiskAgrees entry) : Entry .disk entry := by
  have hpercent :=
    Json.Value.field?_without (show "percent_remaining" ≠ "status" by decide) entry
  have hthreshold := Json.Value.field?_without (show "threshold" ≠ "status" by decide) entry
  refine ⟨h, ?_, ?_, hasStatus_of_up_iff h.status ?_⟩
  · intro hup herror
    obtain ⟨percent, threshold, hp, -⟩ := h.up_iff.mp hup
    exact h.error_iff.mp herror (by rw [Has, hp]; rfl)
  · intro _
    by_cases hhas : Has entry "percent_remaining"
    · exact ⟨"percent_remaining", by decide, hhas⟩
    · exact ⟨"error", by decide, h.error_iff.mpr hhas⟩
  · rw [h.up_iff, ← hpercent, ← hthreshold]
    exact (diskVerdict_eq_up_iff _).symm

theorem ldapEntry_explained {entry : Json.Value} (h : LdapAgrees entry) : Entry .ldap entry := by
  have hfield := Json.Value.field?_without (show "error" ≠ "status" by decide) entry
  refine ⟨h, h.up_iff.mp, ?_, hasStatus_of_up_iff h.status ?_⟩
  · intro hdown
    exact ⟨"error", by decide,
      not_not.mp fun herror => not_up_of_down hdown (h.up_iff.mpr herror)⟩
  · rw [h.up_iff, Has, ← hfield]
    exact (ldapVerdict_eq_up_iff _).symm

/-! ## Components -/

/-- The status of a component, from its entries.  `ping` lists none. -/
def componentVerdict (name : String) (component : Json.Value) : Status :=
  match Section.ofName name with
  | some s => Status.ofAll ((s.entries component).map s.recomputed)
  | none => Status.ofAll []

/-- The component of a section with a number of targets: it lists one entry for
each, and every entry explains itself. -/
structure Component (s : Section) (size : Nat) (component : Json.Value) : Prop where
  details : component.field? "details" =
    some (.object [(s.list, .array (s.entries component))])
  length : (s.entries component).length = size
  explained : ∀ entry ∈ s.entries component, Entry s entry
  status : HasStatus (componentVerdict s.name component) component

section Joined

variable {τ ε : Type} {s : Section} {probe : τ → Probing ε} {status : ε → Status}
  {toValue : ε → Json.Value} {targets : List τ}

/-- A joined component explains itself when the entries of its targets do. -/
theorem joinedComponent_explained
    (hstatus : ∀ e, (toValue e).field? "status" = some (status e).toValue)
    (hentry : ∀ target o, Entry s (toValue ((probe target).value o))) (o : World) :
    Component s targets.length ((joinedComponent probe status
      (fun entries => .object [(s.list, .array (entries.map toValue))])
      targets).value o).toValue := by
  rw [joinedComponent_value]
  generalize hresults : (targets.mapIdx fun i target => (probe target).value (o.part i)) = results
  have hdetails : s.entries (ComponentHealth.toValue
      { status := Status.ofAll (results.map status)
        details := .object [(s.list, .array (results.map toValue))] }) = results.map toValue := by
    simp [Section.entries, ComponentHealth.toValue]
  have hall : ∀ e ∈ results, Entry s (toValue e) := by
    intro e he
    obtain ⟨i, hi⟩ := List.getElem?_of_mem he
    rw [← hresults, List.getElem?_mapIdx] at hi
    obtain ⟨target, -, rfl⟩ := Option.map_eq_some_iff.mp hi
    exact hentry target (o.part i)
  have hverdict : results.map (s.recomputed ∘ toValue) = results.map status := by
    apply List.map_congr_left
    intro e he
    have hsame := (hall e he).status
    rw [HasStatus, hstatus] at hsame
    exact (toValue_injective (Option.some.inj hsame)).symm
  constructor
  · rw [hdetails]
    simp [ComponentHealth.toValue]
  · rw [hdetails, List.length_map, ← hresults, List.length_mapIdx]
  · rw [hdetails, List.forall_mem_map]
    exact hall
  · rw [componentVerdict, Section.ofName_name]
    simp only [hdetails, List.map_map, hverdict]
    simp [HasStatus, ComponentHealth.toValue]

end Joined

/-! ## The response -/

def componentsOf (body : Json.Value) : List (String × Json.Value) :=
  match body.field? "components" with
  | some (.object components) => components
  | _ => []

/-- The status of a response, from the entries of its components. -/
def overallVerdict (body : Json.Value) : Status :=
  Status.ofAll ((componentsOf body).map fun p => componentVerdict p.1 p.2)

/-- A response in which every entry explains itself, and the statuses above the
entries follow from them: it lists each configured section with its targets, and
`ping`, which has none. -/
structure Explained (health : HealthConfig) (body : Json.Value) : Prop where
  status : HasStatus (overallVerdict body) body
  configured : ∀ (s : Section) (size : Nat), s.size health = some size →
    ∃ component, (s.name, component) ∈ componentsOf body
  components : ∀ p ∈ componentsOf body,
    (p.1 = "ping" ∧ HasStatus .up p.2 ∧ p.2.field? "details" = some (.object [])) ∨
      ∃ (s : Section) (size : Nat), p.1 = s.name ∧ s.size health = some size ∧
        Component s size p.2

section Built

variable {parseUrl : String → Except String (Option String)} {health : HealthConfig}
  {checks : HealthChecks}

theorem http_explained (check : Http.HttpHealthCheck) (o : World) :
    Component .http check.targets.length (check.check.value o).toValue := by
  apply joinedComponent_explained
  · simp [Http.HttpCheck.toValue]
  · exact fun target o => httpEntry_explained (checkTarget_agrees _ target o)

theorem dns_explained (check : Dns.DnsHealthCheck) (o : World) :
    Component .dns check.hosts.length (check.check.value o).toValue := by
  apply joinedComponent_explained
  · simp [Dns.DnsCheck.toValue]
  · exact fun host o => dnsEntry_explained (dnsEntry_agrees host _)

theorem disk_explained (check : Disk.DiskHealthCheck) (o : World) :
    Component .disk check.disks.length (check.check.value o).toValue := by
  apply joinedComponent_explained
  · simp [Disk.DiskCheck.toValue]
  · intro disk o
    rw [Disk.checkDisk_value]
    exact diskEntry_explained (diskEntry_agrees disk _)

theorem ldap_explained (check : Ldap.LdapHealthCheck) (o : World) :
    Component .ldap check.servers.length (check.check.value o).toValue := by
  apply joinedComponent_explained
  · simp [Ldap.LdapCheck.toValue]
  · intro server o
    rw [Ldap.checkServer_value]
    exact ldapEntry_explained (ldapEntry_agrees server.url _)

theorem name_mem_checks (h : Built parseUrl health checks) {s : Section} {size : Nat}
    (hsize : s.size health = some size) : s.name ∈ checks := by
  rw [h.mem_iff]
  have hs : (s.size health).isSome := by
    rw [hsize]
    rfl
  cases s <;> simpa [Section.size, Section.name] using hs

/-- A check is `ping`, or its component explains itself. -/
theorem check_explained (h : Built parseUrl health checks) {name : String} {check : HealthCheck}
    (hcheck : checks[name]? = some check) (o : World) :
    (name = "ping" ∧ check = .ping) ∨
      ∃ (s : Section) (size : Nat), name = s.name ∧ s.size health = some size ∧
        Component s size (check.check.value o).toValue := by
  cases h.builtCheck hcheck with
  | ping => exact .inl ⟨rfl, rfl⟩
  | @http targets http htargets hnew =>
    obtain ⟨-, hmap, -⟩ := Http.HttpHealthCheck.new_eq_ok hnew
    have hexplained := http_explained http o
    rw [hmap, List.length_map] at hexplained
    exact .inr ⟨.http, targets.length, rfl, by simp [Section.size, htargets], hexplained⟩
  | @dns targets htargets =>
    have hexplained := dns_explained (.new targets) o
    rw [Dns.DnsHealthCheck.new, List.length_map] at hexplained
    exact .inr ⟨.dns, targets.length, rfl, by simp [Section.size, htargets], hexplained⟩
  | @disk targets htargets =>
    exact .inr ⟨.disk, targets.length, rfl, by simp [Section.size, htargets],
      disk_explained (.new targets) o⟩
  | @ldap targets htargets =>
    have hexplained := ldap_explained (.new targets health.config.ldapTimeoutSeconds) o
    rw [Ldap.LdapHealthCheck.new, List.length_map] at hexplained
    exact .inr ⟨.ldap, targets.length, rfl, by simp [Section.size, htargets], hexplained⟩

theorem componentsOf_toValue {response : HealthResponse}
    {components : ExtTreeMap String ComponentHealth} (h : response.components = some components) :
    componentsOf response.toValue = components.toList.map fun p => (p.1, p.2.toValue) := by
  simp [componentsOf, HealthResponse.toValue, h]

theorem hasStatus_component (component : ComponentHealth) (status : Status) :
    HasStatus status component.toValue ↔ component.status = status := by
  simp [HasStatus, ComponentHealth.toValue, toValue_injective.eq_iff]

theorem hasStatus_response (response : HealthResponse) (status : Status) :
    HasStatus status response.toValue ↔ response.status = status := by
  simp [HasStatus, HealthResponse.toValue, toValue_injective.eq_iff]

/-- A component that was collected is the one of `ping`, or it explains itself. -/
theorem collected_explained (h : Built parseUrl health checks) {o : World}
    {p : String × ComponentHealth} (hp : p ∈ ((collectComponents checks).value o).toList) :
    (p.1 = "ping" ∧ p.2 = { status := .up, details := .object [] }) ∨
      ∃ (s : Section) (size : Nat), p.1 = s.name ∧ s.size health = some size ∧
        Component s size p.2.toValue := by
  obtain ⟨k, check, hk, hcomponent⟩ :=
    collectComponents_eq_some_iff.mp (ExtTreeMap.mem_toList_iff_getElem?_eq_some.mp hp)
  have hcheck : checks[p.1]? = some check := getElem?_of_position hk
  rw [hcomponent]
  rcases check_explained h hcheck (o.part k) with ⟨hping, rfl⟩ | hexplained
  · exact .inl ⟨hping, rfl⟩
  · exact .inr hexplained

theorem componentVerdict_eq (h : Built parseUrl health checks) {o : World}
    {p : String × ComponentHealth} (hp : p ∈ ((collectComponents checks).value o).toList) :
    componentVerdict p.1 p.2.toValue = p.2.status := by
  rcases collected_explained h hp with ⟨hping, hcomponent⟩ | ⟨s, size, hname, -, hexplained⟩
  · rw [hping, hcomponent]
    rfl
  · have hstatus := hexplained.status
    rw [← hname, hasStatus_component] at hstatus
    exact hstatus.symm

theorem overallVerdict_eq (h : Built parseUrl health checks) (o : World) :
    overallVerdict ((aggregateResponse checks).value o).toValue =
      ((aggregateResponse checks).value o).status := by
  obtain ⟨hcomponents, hstatus⟩ := aggregateResponse_value checks o
  have hmap : (componentsOf ((aggregateResponse checks).value o).toValue).map
      (fun p => componentVerdict p.1 p.2) =
      ((collectComponents checks).value o).toList.map fun p => p.2.status := by
    rw [componentsOf_toValue hcomponents, List.map_map]
    exact List.map_congr_left fun p hp => componentVerdict_eq h hp
  rw [overallVerdict, hmap]
  apply Status.eq_of_up_iff
  rw [hstatus, ← allUp_iff, Status.ofAll_eq_up_iff, List.forall_mem_map]
  simp

theorem aggregateResponse_explained (h : Built parseUrl health checks) (o : World) :
    Explained health ((aggregateResponse checks).value o).toValue := by
  have hlist := componentsOf_toValue (aggregateResponse_value checks o).1
  constructor
  · rw [hasStatus_response, overallVerdict_eq h]
  · intro s size hsize
    obtain ⟨check, hcheck⟩ := mem_iff_exists_getElem?.mp (name_mem_checks h hsize)
    obtain ⟨k, hk⟩ := exists_position hcheck
    have hget : ((collectComponents checks).value o)[s.name]? =
        some (check.check.value (o.part k)) :=
      collectComponents_eq_some_iff.mpr ⟨k, check, hk, rfl⟩
    refine ⟨(check.check.value (o.part k)).toValue, ?_⟩
    rw [hlist, List.mem_map]
    exact ⟨_, ExtTreeMap.mem_toList_iff_getElem?_eq_some.mpr hget, rfl⟩
  · intro p hp
    rw [hlist, List.mem_map] at hp
    obtain ⟨q, hq, rfl⟩ := hp
    rcases collected_explained h hq with ⟨hping, hcomponent⟩ | hexplained
    · refine .inl ⟨hping, ?_, ?_⟩
      · rw [hasStatus_component, hcomponent]
      · rw [hcomponent]
        rfl
    · exact .inr hexplained

/-- Whatever the outside answers and in whatever order, the response explains
itself. -/
theorem aggregation_explained (h : buildChecks parseUrl health = .ok checks) (o : World) :
    Future.Inevitably (fun response => Explained health response.toValue)
      (aggregateResponse checks) o :=
  Future.inevitably_of_value _ _ (aggregateResponse_explained (buildChecks_ok h) o)

end Built

/-- Two targets of each section. -/
def everySection : HealthConfig :=
  { config := { cacheTtlSeconds := 5, httpTimeoutSeconds := 5, ldapTimeoutSeconds := 5 }
    checks :=
      { http := some [{ url := "mock://up", resolve := none },
          { url := "http://localhost:8080/health", resolve := none }]
        dns := some [{ host := "localhost" }, { host := "example.com" }]
        disk := some [{ path := "/", threshold := 10 }, { path := "/srv", threshold := 20 }]
        ldap := some
          [{ url := "ldaps://localhost:636", bindDn := "cn=admin", password := ⟨"secret"⟩ },
            { url := "ldap://localhost", bindDn := "cn=reader", password := ⟨"other"⟩ }] } }

theorem everySection_explained : ∃ checks, buildChecks Http.plainHost everySection = .ok checks ∧
    Future.Inevitably (fun response => Explained everySection response.toValue)
      (aggregateResponse checks) unreachable.world :=
  ⟨_, rfl, @aggregation_explained Http.plainHost everySection _ rfl unreachable.world⟩

end Evidence

end AxumHealth

import AxumHealth.Health.Aggregate

/-!
# The verdict

What `/actuator/health` says about the configured targets.  `Succeeded` gives the
terms on which a target of each section succeeds, read off the outcome of its
probes alone, and `Reference` the answer that is expected from them.
-/

namespace AxumHealth

open Std Concurrency Collections

/-! ## Outcomes -/

/-- What the probes of the targets return, by the position of the target in its
section. -/
structure Outcomes where
  send : Nat → Except ReqwestError Response
  lookupHost : Nat → Except String (List SocketAddr)
  statvfs : Nat → Except String Statvfs
  ldapConnect : Nat → Except String Unit
  simpleBind : Nat → Except String LdapResult
  unbind : Nat → Except String Unit

namespace Outcomes

def answer (out : Outcomes) (i : Nat) : (q : Probe) → Answer q
  | .send _ => out.send i
  | .lookupHost _ => out.lookupHost i
  | .statvfs _ => out.statvfs i
  | .ldapConnect _ _ => out.ldapConnect i
  | .simpleBind _ _ _ => out.simpleBind i
  | .unbind _ => out.unbind i

/-- The outside that one target sees. -/
def targetWorld (out : Outcomes) (i : Nat) : World := fun _ _ q => out.answer i q

/-- The outside that a section sees: the first part of a place is the target. -/
def sectionWorld (out : Outcomes) : World
  | (_, i) :: _, _, q => out.answer i q
  | [], _, q => out.answer 0 q

/-- The outside that the aggregation sees: the first part of a place is the
section, which the kind of the request tells already. -/
def world (out : Outcomes) : World
  | _ :: place, n, q => out.sectionWorld place n q
  | [], _, q => out.answer 0 q

theorem part_world (out : Outcomes) (j : Nat) : out.world.part j = out.sectionWorld := rfl

theorem tail_targetWorld (out : Outcomes) (i : Nat) :
    (out.targetWorld i).tail = out.targetWorld i := by
  funext place n q
  cases place <;> rfl

end Outcomes

/-! ## Success on the target's own terms -/

/-- `mock://up`, or a real target whose request returned a 2xx response. -/
def HttpSucceeded (url : String) (answer : Except ReqwestError Response) : Prop :=
  url = "mock://up" ∨ (¬ ∃ suffix, url = "mock://" ++ suffix) ∧
    ∃ response, answer = .ok response ∧ 200 ≤ response.status.code ∧ response.status.code < 300

/-- The lookup returned an address. -/
def DnsSucceeded (answer : Except String (List SocketAddr)) : Prop :=
  ∃ lookup, answer = .ok lookup ∧ lookup ≠ []

/-- The usage was read and is above the threshold. -/
def DiskSucceeded (disk : DiskConfig) (answer : Except String Statvfs) : Prop :=
  Char.ofNat 0 ∉ disk.path.toList ∧ ∃ stat total available percentRemaining, answer = .ok stat ∧
    Disk.usageOfStatvfs stat = .ok (total, available, percentRemaining) ∧
    disk.threshold < percentRemaining

/-- The URL has the scheme, the connection opened and the bind was accepted. -/
def LdapSucceeded (url : String) (connect : Except String Unit)
    (bind : Except String LdapResult) : Prop :=
  (∃ rest, url = "ldaps://" ++ rest) ∧ connect = .ok () ∧
    ∃ result, bind = .ok result ∧ result.rc = 0

/-- Every target of a section succeeded, if the section is configured. -/
def SectionSucceeded {τ : Type} (targets : Option (List τ)) (Success : Nat → τ → Prop) : Prop :=
  ∀ ts, targets = some ts → ∀ (i : Nat) t, ts[i]? = some t → Success i t

/-- Every target of every configured section succeeded. -/
def AllSucceeded (health : HealthConfig) (out : Outcomes) : Prop :=
  SectionSucceeded health.checks.http (fun i t => HttpSucceeded t.url (out.send i)) ∧
    SectionSucceeded health.checks.dns (fun i _ => DnsSucceeded (out.lookupHost i)) ∧
    SectionSucceeded health.checks.disk (fun i t => DiskSucceeded t (out.statvfs i)) ∧
    SectionSucceeded health.checks.ldap
      (fun i t => LdapSucceeded t.url (out.ldapConnect i) (out.simpleBind i))

theorem checkTarget_up_iff (timeout : Duration) (url : String) (o : World) :
    ((Http.checkTarget timeout url).value o).status = .up ↔
      HttpSucceeded url (o.head (.send url)) := by
  rw [Http.checkTarget_value, HttpSucceeded, ← Http.mockCheck_eq_none_iff]
  cases hmock : Http.mockCheck url with
  | some check =>
    rw [Option.getD_some, Http.mockCheck_up_iff hmock]
    simp
  | none =>
    have hne : url ≠ "mock://up" := by
      intro heq
      subst heq
      cases hmock
    rw [Option.getD_none, Http.httpEntry_up_iff]
    simp [hne]

theorem checkHost_up_iff (host : String) (o : World) :
    ((Dns.checkHost host).value o).status = .up ↔ DnsSucceeded (o.head (.lookupHost host)) := by
  rw [Dns.checkHost_value, Dns.dnsEntry_up_iff, DnsSucceeded]

theorem checkDisk_up_iff (disk : DiskConfig) (o : World) :
    ((Disk.checkDisk disk).value o).status = .up ↔
      DiskSucceeded disk (o.head (.statvfs disk.path)) := by
  rw [Disk.checkDisk_value, Disk.diskUsagePercentRemaining_value, DiskSucceeded]
  by_cases hnul : Disk.hasNul disk.path = true
  · have hmem := Disk.hasNul_iff.mp hnul
    simp [hnul, hmem, Disk.diskEntry]
  · have hmem := Disk.hasNul_iff.not.mp hnul
    rw [if_neg hnul]
    cases hanswer : o.head (.statvfs disk.path) with
    | error err => simp [Except.bind, Disk.diskEntry]
    | ok stat =>
      cases husage : Disk.usageOfStatvfs stat with
      | error err => simp [Except.bind, Disk.diskEntry, husage]
      | ok usage =>
        obtain ⟨total, available, percentRemaining⟩ := usage
        by_cases hle : percentRemaining ≤ disk.threshold
        · have hnot : ¬ disk.threshold < percentRemaining := UInt8.not_lt.mpr hle
          simp [Except.bind, Disk.diskEntry, husage, hle, hnot]
        · have hlt : disk.threshold < percentRemaining := UInt8.not_le.mp hle
          simp [Except.bind, Disk.diskEntry, husage, hmem, hlt]

theorem checkServer_up_iff (timeout : Duration) (server : Ldap.LdapTarget) (o : World) :
    ((Ldap.checkServer timeout server).value o).status = .up ↔
      LdapSucceeded server.url (o.head (.ldapConnect timeout server.url))
        (o.tail.head (.simpleBind timeout server.bindDn server.password.exposeSecret)) := by
  rw [Ldap.checkServer_value, Ldap.ldapEntry_up_iff, Ldap.bindServer_ok_iff, LdapSucceeded,
    Text.startsWith_iff]

/-! ## Components -/

/-- The entry of a target tells whether it succeeded. -/
structure Tells (entry : Json.Value) (success : Prop) : Prop where
  up : success → entry.field? "status" = some (.string "UP")
  down : ¬ success → entry.field? "status" = some (.string "DOWN")

theorem Tells.up_iff {entry : Json.Value} {success : Prop} (h : Tells entry success) :
    entry.field? "status" = some (.string "UP") ↔ success := by
  refine ⟨?_, h.up⟩
  intro hup
  by_contra hnot
  rw [h.down hnot] at hup
  simp at hup

theorem tells_of_status {entry : Json.Value} {status : Status} {success : Prop}
    (h : entry.field? "status" = some status.toValue) (hstatus : status = .up ↔ success) :
    Tells entry success := by
  constructor
  · intro hsuccess
    rw [h, hstatus.mpr hsuccess]
    rfl
  · intro hnot
    rw [h, Status.eq_down_iff.mpr fun hup => hnot (hstatus.mp hup)]
    rfl

/-- A component lists its targets: its details are one array, with one entry for each
target, in order, that tells of its success, and it is UP when all of them are. -/
def Lists {τ : Type} (key : String) (About : τ → Json.Value → Prop) (Success : Nat → τ → Prop)
    (targets : List τ) (component : ComponentHealth) : Prop :=
  ∃ entries : List Json.Value, component.details = .object [(key, .array entries)] ∧
    entries.length = targets.length ∧
    (∀ (i : Nat) t e, targets[i]? = some t → entries[i]? = some e →
      About t e ∧ Tells e (Success i t)) ∧
    (component.status = .up ↔ ∀ e ∈ entries, e.field? "status" = some (.string "UP"))

/-- The component of a section, if the section is configured. -/
def ListsSection {τ : Type} (components : ExtTreeMap String ComponentHealth) (name key : String)
    (targets : Option (List τ)) (About : τ → Json.Value → Prop) (Success : Nat → τ → Prop) : Prop :=
  ∀ ts, targets = some ts → ∃ c, components[name]? = some c ∧ Lists key About Success ts c

section Lists

variable {σ τ ε : Type} {key : String} {About : τ → Json.Value → Prop} {Success : Nat → τ → Prop}
  {targets : List τ}

theorem Lists.up_iff {component : ComponentHealth}
    (h : Lists key About Success targets component) :
    component.status = .up ↔ ∀ (i : Nat) t, targets[i]? = some t → Success i t := by
  obtain ⟨entries, -, hlen, hentries, hstatus⟩ := h
  rw [hstatus]
  constructor
  · intro hall i t ht
    have hi := (List.getElem?_eq_some_iff.mp ht).1
    have he : entries[i]? = some entries[i] := List.getElem?_eq_getElem (by omega)
    exact (hentries i t _ ht he).2.up_iff.mp (hall _ (List.mem_of_getElem? he))
  · intro hall e he
    obtain ⟨i, hi⟩ := List.getElem?_of_mem he
    have hlt := (List.getElem?_eq_some_iff.mp hi).1
    have ht : targets[i]? = some targets[i] := List.getElem?_eq_getElem (by omega)
    exact (hentries i _ e ht hi).2.up (hall i _ ht)

/-- The component of a configured section is UP when all its targets succeeded. -/
theorem ListsSection.up_iff {components : ExtTreeMap String ComponentHealth} {name : String}
    {targets : Option (List τ)} (h : ListsSection components name key targets About Success) :
    (targets.isSome → ∀ c : ComponentHealth, components[name]? = some c → c.status = .up) ↔
      SectionSucceeded targets Success := by
  constructor
  · intro hup ts hts
    obtain ⟨c, hc, hlists⟩ := h ts hts
    exact hlists.up_iff.mp (hup (by rw [hts]; rfl) c hc)
  · intro hall hsome c hc
    obtain ⟨ts, hts⟩ := Option.isSome_iff_exists.mp hsome
    obtain ⟨c', hc', hlists⟩ := h ts hts
    rw [hc'] at hc
    cases hc
    exact hlists.up_iff.mpr (hall ts hts)

/-- A joined component lists its targets when the probe of each of them reports
its success, and its details are the entries. -/
theorem joinedComponent_lists {probe : σ → Probing ε} {status : ε → Status}
    {toValue : ε → Json.Value} {details : List ε → Json.Value}
    (hdetails : ∀ entries, details entries = .object [(key, .array (entries.map toValue))])
    (hstatus : ∀ e, (toValue e).field? "status" = some (status e).toValue) (f : τ → σ)
    (out : Outcomes)
    (h : ∀ i t, About t (toValue ((probe (f t)).value (out.targetWorld i))) ∧
      (status ((probe (f t)).value (out.targetWorld i)) = .up ↔ Success i t)) :
    Lists key About Success targets
      ((joinedComponent probe status details (targets.map f)).value out.sectionWorld) := by
  rw [joinedComponent_value]
  refine ⟨_, hdetails _, by simp, ?_, ?_⟩
  · intro i t e ht he
    simp only [List.getElem?_map, List.getElem?_mapIdx, ht, Option.map_some,
      Option.some.injEq] at he
    subst he
    exact ⟨(h i t).1, tells_of_status (hstatus _) (h i t).2⟩
  · rw [Status.ofAll_eq_up_iff, List.forall_mem_map, List.forall_mem_map]
    simp only [(tells_of_status (hstatus _) Iff.rfl).up_iff]

end Lists

/-! ## The reference -/

/-- The components hold `ping` and each configured section, and no other. -/
structure ListsAll (health : HealthConfig) (out : Outcomes)
    (components : ExtTreeMap String ComponentHealth) : Prop where
  mem_iff : ∀ name, name ∈ components ↔ name = "ping" ∨
    (name = "http" ∧ health.checks.http.isSome) ∨ (name = "dns" ∧ health.checks.dns.isSome) ∨
    (name = "disk" ∧ health.checks.disk.isSome) ∨ (name = "ldap" ∧ health.checks.ldap.isSome)
  ping : components["ping"]? = some { status := .up, details := .object [] }
  http : ListsSection components "http" "urls" health.checks.http
    (fun t e => e.field? "url" = some (.string t.url)) (fun i t => HttpSucceeded t.url (out.send i))
  dns : ListsSection components "dns" "hosts" health.checks.dns
    (fun t e => e.field? "host" = some (.string t.host))
    (fun i _ => DnsSucceeded (out.lookupHost i))
  disk : ListsSection components "disk" "disks" health.checks.disk
    (fun t e => e.field? "path" = some (.string t.path) ∧
      e.field? "threshold" = some (.number t.threshold.toNat))
    (fun i t => DiskSucceeded t (out.statvfs i))
  ldap : ListsSection components "ldap" "servers" health.checks.ldap
    (fun t e => e.field? "url" = some (.string t.url))
    (fun i t => LdapSucceeded t.url (out.ldapConnect i) (out.simpleBind i))

/-- The answer that is expected for a configuration and the outcomes of its
probes. -/
structure Reference (health : HealthConfig) (out : Outcomes)
    (answer : StatusCode × HealthResponse) : Prop where
  components : ∃ components, answer.2.components = some components ∧ ListsAll health out components
  up : AllSucceeded health out → answer.2.status = .up ∧ answer.1.code = 200
  down : ¬ AllSucceeded health out → answer.2.status = .down ∧ answer.1.code = 503

/-! ## The components of a configuration -/

section Sections

variable {parseUrl : String → Except String (Option String)} {health : HealthConfig}
  {checks : HealthChecks} (out : Outcomes)

theorem http_lists {targets : List HttpCheckConfig} {timeoutSeconds : UInt64}
    {check : Http.HttpHealthCheck}
    (h : Http.HttpHealthCheck.new parseUrl targets timeoutSeconds = .ok check) :
    Lists "urls" (fun t e => e.field? "url" = some (.string t.url))
      (fun i t => HttpSucceeded t.url (out.send i)) targets
      ((HealthCheck.http check).check.value out.sectionWorld) := by
  obtain ⟨-, htargets, -⟩ := Http.HttpHealthCheck.new_eq_ok h
  show Lists _ _ _ _ (check.check.value out.sectionWorld)
  rw [Http.HttpHealthCheck.check, htargets]
  apply joinedComponent_lists (fun entries => rfl) Http.HttpCheck.field?_status
  intro i t
  refine ⟨?_, checkTarget_up_iff _ _ _⟩
  rw [Http.HttpCheck.field?_url, Http.checkTarget_url]

theorem dns_lists (targets : List DnsCheckConfig) :
    Lists "hosts" (fun t e => e.field? "host" = some (.string t.host))
      (fun i _ => DnsSucceeded (out.lookupHost i)) targets
      ((HealthCheck.dns (.new targets)).check.value out.sectionWorld) := by
  apply joinedComponent_lists (fun entries => rfl) Dns.DnsCheck.field?_status
  intro i t
  refine ⟨?_, checkHost_up_iff _ _⟩
  rw [Dns.DnsCheck.field?_host, Dns.checkHost_value, Dns.dnsEntry_host]

theorem disk_lists (targets : List DiskConfig) :
    Lists "disks" (fun t e => e.field? "path" = some (.string t.path) ∧
        e.field? "threshold" = some (.number t.threshold.toNat))
      (fun i t => DiskSucceeded t (out.statvfs i)) targets
      ((HealthCheck.disk (.new targets)).check.value out.sectionWorld) := by
  have h : Lists "disks" (fun t e => e.field? "path" = some (.string t.path) ∧
        e.field? "threshold" = some (.number t.threshold.toNat))
      (fun i t => DiskSucceeded t (out.statvfs i)) targets
      ((joinedComponent Disk.checkDisk Disk.DiskCheck.status Disk.diskDetails
        (targets.map id)).value out.sectionWorld) := by
    apply joinedComponent_lists (fun entries => rfl) Disk.DiskCheck.field?_status
    intro i t
    obtain ⟨hpath, hthreshold⟩ := Disk.checkDisk_about t (out.targetWorld i)
    refine ⟨⟨?_, ?_⟩, checkDisk_up_iff _ _⟩
    · rw [Disk.DiskCheck.field?_path, id, hpath]
    · rw [Disk.DiskCheck.field?_threshold, id, hthreshold]
  rwa [List.map_id] at h

theorem ldap_lists (targets : List LdapCheckConfig) (timeoutSeconds : UInt64) :
    Lists "servers" (fun t e => e.field? "url" = some (.string t.url))
      (fun i t => LdapSucceeded t.url (out.ldapConnect i) (out.simpleBind i)) targets
      ((HealthCheck.ldap (.new targets timeoutSeconds)).check.value out.sectionWorld) := by
  apply joinedComponent_lists (fun entries => rfl) Ldap.LdapCheck.field?_status
  intro i t
  refine ⟨?_, ?_⟩
  · rw [Ldap.LdapCheck.field?_url, Ldap.checkServer_url]
  · rw [checkServer_up_iff, out.tail_targetWorld]
    exact Iff.rfl

end Sections

theorem listsAll_of_built {parseUrl : String → Except String (Option String)}
    {health : HealthConfig} {checks : HealthChecks} (h : Built parseUrl health checks)
    (out : Outcomes) : ListsAll health out ((collectComponents checks).value out.world) := by
  have hget := @collectComponents_value checks _ _ out.part_world
  constructor
  · intro name
    rw [ExtTreeMap.mem_iff_isSome_getElem?, hget, Option.isSome_map,
      ← ExtTreeMap.mem_iff_isSome_getElem?, h.mem_iff]
  · rw [hget, h.ping]
    rfl
  · intro targets ht
    obtain ⟨check, hnew, hcheck⟩ := h.http targets ht
    exact ⟨_, by rw [hget, hcheck]; rfl, http_lists out hnew⟩
  · intro targets ht
    exact ⟨_, by rw [hget, h.dns targets ht]; rfl, dns_lists out targets⟩
  · intro targets ht
    exact ⟨_, by rw [hget, h.disk targets ht]; rfl, disk_lists out targets⟩
  · intro targets ht
    exact ⟨_, by rw [hget, h.ldap targets ht]; rfl, ldap_lists out targets _⟩

/-- The components are all UP when every target succeeded. -/
theorem ListsAll.allUp_iff {health : HealthConfig} {out : Outcomes}
    {components : ExtTreeMap String ComponentHealth} (h : ListsAll health out components) :
    AllUp components ↔ AllSucceeded health out := by
  constructor
  · intro hup
    exact ⟨h.http.up_iff.mp fun _ => hup "http", h.dns.up_iff.mp fun _ => hup "dns",
      h.disk.up_iff.mp fun _ => hup "disk", h.ldap.up_iff.mp fun _ => hup "ldap"⟩
  · intro hall name component hcomponent
    obtain ⟨hhttp, hdns, hdisk, hldap⟩ := hall
    have hmem : name ∈ components := mem_iff_exists_getElem?.mpr ⟨component, hcomponent⟩
    rcases (h.mem_iff name).mp hmem with rfl | ⟨rfl, hs⟩ | ⟨rfl, hs⟩ | ⟨rfl, hs⟩ | ⟨rfl, hs⟩
    · rw [h.ping] at hcomponent
      cases hcomponent
      rfl
    · exact h.http.up_iff.mpr hhttp hs component hcomponent
    · exact h.dns.up_iff.mpr hdns hs component hcomponent
    · exact h.disk.up_iff.mpr hdisk hs component hcomponent
    · exact h.ldap.up_iff.mpr hldap hs component hcomponent

/-- Whatever the probes of the targets return and in whatever order they finish,
a fresh aggregation answers with the reference. -/
theorem aggregation_reference {parseUrl : String → Except String (Option String)}
    {health : HealthConfig} {checks : HealthChecks}
    (h : buildChecks parseUrl health = .ok checks) (out : Outcomes) :
    Future.Inevitably (fun response => Reference health out (healthAnswer response))
      (aggregateResponse checks) out.world := by
  apply Future.inevitably_of_value
  have hlists := listsAll_of_built (buildChecks_ok h) out
  obtain ⟨hsome, hstatus⟩ := aggregateResponse_value checks out.world
  rw [hlists.allUp_iff] at hstatus
  refine ⟨⟨_, hsome, hlists⟩, ?_, ?_⟩
  · intro hall
    have hup := hstatus.mpr hall
    exact ⟨hup, by simp only [healthAnswer, hup, if_true]; rfl⟩
  · intro hnot
    have hdown : ((aggregateResponse checks).value out.world).status ≠ .up :=
      fun hup => hnot (hstatus.mp hup)
    exact ⟨Status.eq_down_iff.mpr hdown, by simp only [healthAnswer, if_neg hdown]; rfl⟩

/-- Two mock targets and a host, without the other sections. -/
def mocked : HealthConfig :=
  { config := { cacheTtlSeconds := 5, httpTimeoutSeconds := 5, ldapTimeoutSeconds := 5 }
    checks :=
      { http := some [{ url := "mock://up", resolve := none },
          { url := "mock://down", resolve := none }]
        dns := some [{ host := "localhost" }]
        disk := none
        ldap := none } }

def unreachable : Outcomes :=
  { send := fun _ => .error { isTimeout := true, text := "operation timed out" }
    lookupHost := fun _ => .error "failed to lookup address information"
    statvfs := fun _ => .error "No such file or directory"
    ldapConnect := fun _ => .error "connection refused"
    simpleBind := fun _ => .error "connection closed"
    unbind := fun _ => .error "connection closed" }

theorem mocked_reference : ∃ checks, buildChecks Http.plainHost mocked = .ok checks ∧
    Future.Inevitably (fun response => Reference mocked unreachable (healthAnswer response))
      (aggregateResponse checks) unreachable.world :=
  ⟨_, rfl, @aggregation_reference Http.plainHost mocked _ rfl unreachable⟩

end AxumHealth

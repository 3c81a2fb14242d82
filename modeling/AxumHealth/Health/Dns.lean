import AxumHealth.Health.Component

/-!
# DNS checks

`src/health/dns.rs`.
-/

namespace AxumHealth

open Concurrency

namespace Dns

structure DnsCheck where
  host : String
  status : Status
  addresses : Option (List String)
  error : Option String
  deriving DecidableEq, Repr

def DnsCheck.toValue (check : DnsCheck) : Json.Value :=
  .object ([("host", .string check.host), ("status", check.status.toValue)] ++
    Json.optionalField "addresses" (fun texts => .array (texts.map .string)) check.addresses ++
    Json.optionalField "error" .string check.error)

/-- `DnsDetails` -/
def dnsDetails (hosts : List DnsCheck) : Json.Value :=
  .object [("hosts", .array (hosts.map DnsCheck.toValue))]

/-- The entry of a host, from the answer to its lookup. -/
def dnsEntry (host : String) : Except String (List SocketAddr) → DnsCheck
  | .ok lookup =>
    let addresses := lookup.map fun addr => addr.ip.toText
    if addresses.isEmpty then
      { host, status := .down, addresses := none, error := some "no addresses resolved" }
    else { host, status := .up, addresses := some addresses, error := none }
  | .error err => { host, status := .down, addresses := none, error := some err }

def checkHost (host : String) : Probing DnsCheck := do
  let answer ← lookupHost host
  pure (dnsEntry host answer)

structure DnsHealthCheck where
  hosts : List String

def DnsHealthCheck.new (config : List DnsCheckConfig) : DnsHealthCheck :=
  { hosts := config.map fun check => check.host }

def DnsHealthCheck.check (self : DnsHealthCheck) : Probing ComponentHealth :=
  joinedComponent checkHost DnsCheck.status dnsDetails self.hosts

/-! ## The fields of an entry -/

theorem DnsCheck.field?_host (check : DnsCheck) :
    check.toValue.field? "host" = some (.string check.host) := by
  simp [DnsCheck.toValue]

theorem DnsCheck.field?_status (check : DnsCheck) :
    check.toValue.field? "status" = some check.status.toValue := by
  simp [DnsCheck.toValue]

/-! ## The entry -/

theorem checkHost_value (host : String) (o : World) :
    (checkHost host).value o = dnsEntry host (o.head (.lookupHost host)) := rfl

theorem dnsEntry_host (host : String) (answer : Except String (List SocketAddr)) :
    (dnsEntry host answer).host = host := by
  cases answer with
  | error err => rfl
  | ok lookup => cases lookup <;> rfl

/-- A host is UP when its lookup found an address. -/
theorem dnsEntry_up_iff (host : String) (answer : Except String (List SocketAddr)) :
    (dnsEntry host answer).status = .up ↔ ∃ lookup, answer = .ok lookup ∧ lookup ≠ [] := by
  cases answer with
  | error err => simp [dnsEntry]
  | ok lookup => cases lookup <;> simp [dnsEntry]

end Dns

end AxumHealth

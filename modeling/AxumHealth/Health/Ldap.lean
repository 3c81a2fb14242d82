import AxumHealth.Health.Component
import AxumHealth.Text

/-!
# LDAP checks

`src/health/ldap.rs`.  The task that drives the connection and the log lines are
left out.
-/

namespace AxumHealth

open Concurrency

namespace Ldap

structure LdapTarget where
  url : String
  bindDn : String
  password : SecretString
  deriving DecidableEq

structure LdapCheck where
  url : String
  status : Status
  error : Option String
  deriving DecidableEq, Repr

def LdapCheck.toValue (check : LdapCheck) : Json.Value :=
  .object ([("url", .string check.url), ("status", check.status.toValue)] ++
    Json.optionalField "error" .string check.error)

/-- `LdapDetails` -/
def ldapDetails (servers : List LdapCheck) : Json.Value :=
  .object [("servers", .array (servers.map LdapCheck.toValue))]

/-- The inner `async` block of `check_server`. -/
def bindServer (server : LdapTarget) (timeout : Duration) : Probing (Except String Unit) :=
  if !Text.startsWith server.url "ldaps://" then
    pure (.error "LDAP URL must use the ldaps:// scheme")
  else do
    match ← ldapConnect timeout server.url with
    | .error err => pure (.error err)
    | .ok () =>
      match ← simpleBind timeout server.bindDn server.password.exposeSecret with
      -- The `?` on the bind leaves the block before the unbind.
      | .error err => pure (.error err)
      | .ok result => do
        let _ ← unbind timeout
        pure result.success

def ldapEntry (url : String) : Except String Unit → LdapCheck
  | .ok () => { url, status := .up, error := none }
  | .error error => { url, status := .down, error := some error }

def checkServer (timeout : Duration) (server : LdapTarget) : Probing LdapCheck := do
  let result ← bindServer server timeout
  pure (ldapEntry server.url result)

structure LdapHealthCheck where
  servers : List LdapTarget
  timeout : Duration

def LdapHealthCheck.new (config : List LdapCheckConfig) (timeoutSeconds : UInt64) :
    LdapHealthCheck :=
  { servers := config.map fun check =>
      { url := check.url, bindDn := check.bindDn, password := check.password }
    timeout := .fromSecs timeoutSeconds }

def LdapHealthCheck.check (self : LdapHealthCheck) : Probing ComponentHealth :=
  joinedComponent (checkServer self.timeout) LdapCheck.status ldapDetails self.servers

/-! ## The fields of an entry -/

theorem LdapCheck.field?_url (check : LdapCheck) :
    check.toValue.field? "url" = some (.string check.url) := by
  simp [LdapCheck.toValue]

theorem LdapCheck.field?_status (check : LdapCheck) :
    check.toValue.field? "status" = some check.status.toValue := by
  simp [LdapCheck.toValue]

/-! ## The entry -/

theorem checkServer_value (timeout : Duration) (server : LdapTarget) (o : World) :
    (checkServer timeout server).value o =
      ldapEntry server.url ((bindServer server timeout).value o) :=
  Future.value_bind_pure _ _ o

theorem ldapEntry_url (url : String) (result : Except String Unit) :
    (ldapEntry url result).url = url := by
  cases result <;> rfl

theorem checkServer_url (timeout : Duration) (server : LdapTarget) (o : World) :
    ((checkServer timeout server).value o).url = server.url := by
  rw [checkServer_value, ldapEntry_url]

theorem ldapEntry_up_iff (url : String) (result : Except String Unit) :
    (ldapEntry url result).status = .up ↔ result = .ok () := by
  cases result <;> simp [ldapEntry]

theorem success_eq_ok_iff (result : LdapResult) : result.success = .ok () ↔ result.rc = 0 := by
  unfold LdapResult.success
  by_cases h : result.rc = 0 <;> simp [h]

/-- What a session comes to, from the outcomes of the connection and of the
bind. -/
def sessionResult (server : LdapTarget) (connect : Except String Unit)
    (bind : Except String LdapResult) : Except String Unit :=
  if Text.startsWith server.url "ldaps://" then
    connect.bind fun _ => bind.bind LdapResult.success
  else .error "LDAP URL must use the ldaps:// scheme"

/-- The outcome of the connection to a server. -/
def connectOutcome (timeout : Duration) (server : LdapTarget) (o : World) : Except String Unit :=
  o.head (.ldapConnect timeout server.url)

/-- The outcome of the bind that follows it. -/
def bindOutcome (timeout : Duration) (server : LdapTarget) (o : World) :
    Except String LdapResult :=
  o.tail.head (.simpleBind timeout server.bindDn server.password.exposeSecret)

theorem bindServer_value (server : LdapTarget) (timeout : Duration) (o : World) :
    (bindServer server timeout).value o =
      sessionResult server (connectOutcome timeout server o) (bindOutcome timeout server o) := by
  unfold bindServer sessionResult
  by_cases hscheme : Text.startsWith server.url "ldaps://" = true
  · rw [if_neg (by simp [hscheme]), if_pos hscheme, Future.value_request_bind]
    show Future.value (match connectOutcome timeout server o with
      | .error _ => _ | .ok _ => _) _ = _
    cases connectOutcome timeout server o with
    | error err => rfl
    | ok u =>
      show (simpleBind timeout server.bindDn server.password.exposeSecret >>= _).value o.tail = _
      rw [Future.value_request_bind]
      show Future.value (match bindOutcome timeout server o with
        | .error _ => _ | .ok _ => _) _ = _
      cases bindOutcome timeout server o <;> rfl
  · rw [if_pos (by simp [hscheme]), if_neg hscheme]
    rfl

/-- A server is UP when its URL has the scheme, the connection opened and the
bind was accepted; the unbind has no say. -/
theorem bindServer_ok_iff (server : LdapTarget) (timeout : Duration) (o : World) :
    (bindServer server timeout).value o = .ok () ↔
      Text.startsWith server.url "ldaps://" = true ∧
        o.head (.ldapConnect timeout server.url) = .ok () ∧
        ∃ result, o.tail.head (.simpleBind timeout server.bindDn server.password.exposeSecret) =
          .ok result ∧ result.rc = 0 := by
  show _ ↔ _ ∧ connectOutcome timeout server o = .ok () ∧
    ∃ result, bindOutcome timeout server o = .ok result ∧ _
  rw [bindServer_value, sessionResult]
  by_cases hscheme : Text.startsWith server.url "ldaps://" = true
  · rw [if_pos hscheme]
    cases connectOutcome timeout server o with
    | error err => simp [Except.bind]
    | ok u => cases bindOutcome timeout server o <;> simp [Except.bind, hscheme, success_eq_ok_iff]
  · rw [if_neg hscheme]
    simp [hscheme]

end Ldap

end AxumHealth

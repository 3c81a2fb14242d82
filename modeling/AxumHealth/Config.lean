import Mathlib.Init

/-!
# Configuration

The part of the configuration the health checks read, as `src/main.rs` declares
it.  The server's port and certificate paths are in `Startup.lean`.
-/

namespace AxumHealth

/-- `std::time::Duration`.  Every duration of the program is a whole number of
seconds, made by `Duration::from_secs`. -/
structure Duration where
  secs : UInt64
  deriving DecidableEq, Repr

namespace Duration

def fromSecs (secs : UInt64) : Duration := ⟨secs⟩

def asSecs (d : Duration) : UInt64 := d.secs

/-- The length in nanoseconds, the resolution of the clock. -/
def asNanos (d : Duration) : Nat := d.secs.toNat * 1000000000

end Duration

/-- `secrecy::SecretString`: the text is only reached through `exposeSecret`. -/
structure SecretString where
  secret : String
  deriving DecidableEq

def SecretString.exposeSecret (s : SecretString) : String := s.secret

structure HttpCheckConfig where
  url : String
  /-- The IP or hostname to resolve instead of the hostname of the URL. -/
  resolve : Option String
  deriving DecidableEq, Repr

structure DnsCheckConfig where
  host : String
  deriving DecidableEq, Repr

structure DiskConfig where
  path : String
  threshold : UInt8
  deriving DecidableEq, Repr

structure LdapCheckConfig where
  url : String
  bindDn : String
  password : SecretString
  deriving DecidableEq

structure HealthChecksConfig where
  http : Option (List HttpCheckConfig)
  dns : Option (List DnsCheckConfig)
  disk : Option (List DiskConfig)
  ldap : Option (List LdapCheckConfig)
  deriving DecidableEq

structure HealthRuntimeConfig where
  cacheTtlSeconds : UInt64
  httpTimeoutSeconds : UInt64
  ldapTimeoutSeconds : UInt64
  deriving DecidableEq, Repr

structure HealthConfig where
  config : HealthRuntimeConfig
  checks : HealthChecksConfig
  deriving DecidableEq

end AxumHealth

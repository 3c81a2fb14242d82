import AxumHealth.Concurrency.Future
import AxumHealth.Config
import AxumHealth.Net.IpAddr

/-!
# What the checks ask of the outside

`Probe` lists the calls that leave the program while a check runs, each with the
arguments the source passes, and `Answer` the results they can have.  Errors of
the libraries are kept as the text `to_string` gives, with the one bit the source
tests (`is_timeout`).
-/

namespace AxumHealth

open Concurrency

/-! ## HTTP -/

/-- `http::StatusCode`, a number of three digits. -/
structure StatusCode where
  code : UInt16
  valid : 100 ≤ code ∧ code ≤ 999
  deriving DecidableEq

namespace StatusCode

def asU16 (s : StatusCode) : UInt16 := s.code

def isSuccess (s : StatusCode) : Bool := 200 ≤ s.code && s.code < 300

end StatusCode

/-- `reqwest::Error`. -/
structure ReqwestError where
  isTimeout : Bool
  text : String
  deriving DecidableEq, Repr

/-- `reqwest::Response`: the status line, and what reading the body will yield,
chunk by chunk.  The body ends where the list does. -/
structure Response where
  status : StatusCode
  body : List (Except ReqwestError (List UInt8))

/-! ## Disk -/

/-- The fields of `libc::statvfs` the source reads. -/
structure Statvfs where
  fFrsize : UInt64
  fBsize : UInt64
  fBlocks : UInt64
  fBavail : UInt64
  deriving DecidableEq, Repr

/-! ## LDAP -/

/-- `ldap3::LdapResult`: the result code, and the text of the error that
`success` makes of any code but 0. -/
structure LdapResult where
  rc : UInt32
  errorText : String
  deriving DecidableEq, Repr

def LdapResult.success (r : LdapResult) : Except String Unit :=
  if r.rc = 0 then .ok () else .error r.errorText

/-! ## The calls -/

inductive Probe
  /-- `client.get(url).send()` -/
  | send (url : String)
  /-- `tokio::net::lookup_host((host, 0))` -/
  | lookupHost (host : String)
  /-- `libc::statvfs(path)` -/
  | statvfs (path : String)
  /-- `LdapConnAsync::with_settings`, with the connection timeout -/
  | ldapConnect (connTimeout : Duration) (url : String)
  /-- `simple_bind` on the connection the same computation opened -/
  | simpleBind (timeout : Duration) (bindDn password : String)
  /-- `unbind` on that connection -/
  | unbind (timeout : Duration)
  deriving DecidableEq

abbrev Answer : Probe → Type
  | .send _ => Except ReqwestError Response
  | .lookupHost _ => Except String (List SocketAddr)
  | .statvfs _ => Except String Statvfs
  | .ldapConnect _ _ => Except String Unit
  | .simpleBind _ _ _ => Except String LdapResult
  | .unbind _ => Except String Unit

/-- An `async` block of the source. -/
abbrev Probing (α : Type) : Type 1 := Future Probe Answer α

/-- The answers of the outside. -/
abbrev World : Type := Oracle Probe Answer

abbrev send (url : String) : Probing (Except ReqwestError Response) :=
  Future.request (Probe.send url)

abbrev lookupHost (host : String) : Probing (Except String (List SocketAddr)) :=
  Future.request (Probe.lookupHost host)

abbrev statvfs (path : String) : Probing (Except String Statvfs) :=
  Future.request (Probe.statvfs path)

abbrev ldapConnect (connTimeout : Duration) (url : String) : Probing (Except String Unit) :=
  Future.request (Probe.ldapConnect connTimeout url)

abbrev simpleBind (timeout : Duration) (bindDn password : String) :
    Probing (Except String LdapResult) :=
  Future.request (Probe.simpleBind timeout bindDn password)

abbrev unbind (timeout : Duration) : Probing (Except String Unit) :=
  Future.request (Probe.unbind timeout)

/-! ## The outside at its worst -/

/-- The outside where every call fails. -/
def offline : World
  | _, _, .send _ => .error { isTimeout := false, text := "unreachable" }
  | _, _, .lookupHost _ => .error "unreachable"
  | _, _, .statvfs _ => .error "unreachable"
  | _, _, .ldapConnect _ _ => .error "unreachable"
  | _, _, .simpleBind _ _ _ => .error "unreachable"
  | _, _, .unbind _ => .error "unreachable"

end AxumHealth

import AxumHealth.Collections.Graph
import AxumHealth.Machine.Saturating
import AxumHealth.Text
import AxumHealth.Json
import AxumHealth.JsonReader
import AxumHealth.Net.IpAddr
import AxumHealth.Net.IpAddrText
import AxumHealth.Concurrency.Exec
import AxumHealth.Concurrency.Future
import AxumHealth.Concurrency.Trace
import AxumHealth.Concurrency.Simulation
import AxumHealth.Concurrency.Pull
import AxumHealth.Concurrency.SingleFlight
import AxumHealth.Concurrency.SingleFlightRuns
import AxumHealth.Concurrency.Stepwise
import AxumHealth.Concurrency.Settling
import AxumHealth.Concurrency.Parallel
import AxumHealth.Concurrency.Lockstep
import AxumHealth.Config
import AxumHealth.Health.Probe
import AxumHealth.Health.Component
import AxumHealth.Health.HttpClient
import AxumHealth.Health.HttpCheck
import AxumHealth.Health.HttpBody
import AxumHealth.Health.Resolver
import AxumHealth.Health.ResolverRuns
import AxumHealth.Health.Dns
import AxumHealth.Health.Disk
import AxumHealth.Health.DiskVerdict
import AxumHealth.Health.Ldap
import AxumHealth.Health.LdapSession
import AxumHealth.Health.Aggregate
import AxumHealth.Health.Verdict
import AxumHealth.Health.Evidence
import AxumHealth.Health.Report
import AxumHealth.Health.Concealment
import AxumHealth.Health.Confinement
import AxumHealth.Health.Demand
import AxumHealth.Resources
import AxumHealth.Server
import AxumHealth.Health.Addresses
import AxumHealth.Health.OpenSessions
import AxumHealth.Health.Independence
import AxumHealth.Health.Unobservable
import AxumHealth.Startup

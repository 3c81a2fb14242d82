import AxumHealth.Health.Report
import AxumHealth.Server

/-!
# Starting up

`main` and `load_config` of `src/main.rs`.  Every failure on the way to a server that
listens is a panic, and each panic names its cause: another Rustls provider, the
configuration file, the first HTTP target that cannot be entered into the client, the
client, the cache, the certificate, or the port.

The file system, the TOML parser, the network and the libraries for TLS, HTTP and the cache
are parameters.
-/

namespace AxumHealth

open Std Concurrency Collections

/-! ## Steps that can fail -/

section Failing

variable {ε ε' α β : Type} {x : Except ε α} {f : α → Except ε β} {g : ε → ε'}

theorem bind_eq_error_iff {e : ε} :
    (x >>= f) = .error e ↔ x = .error e ∨ ∃ a, x = .ok a ∧ f a = .error e := by
  cases x <;> simp [bind, Except.bind]

theorem bind_eq_ok_iff {b : β} : (x >>= f) = .ok b ↔ ∃ a, x = .ok a ∧ f a = .ok b := by
  cases x <;> simp [bind, Except.bind]

/-- A step that is only taken for its effect. -/
theorem seq_eq_error_iff {x : Except ε Unit} {y : Except ε β} {e : ε} :
    (x >>= fun _ => y) = .error e ↔ x = .error e ∨ x = .ok () ∧ y = .error e := by
  cases x <;> simp [bind, Except.bind]

theorem pure_eq_ok_iff {a b : α} : (pure a : Except ε α) = .ok b ↔ a = b := by
  simp [pure, Except.pure]

theorem mapError_eq_error_iff {e : ε'} :
    x.mapError g = .error e ↔ ∃ e', x = .error e' ∧ e = g e' := by
  cases x <;> simp [Except.mapError, eq_comm]

theorem mapError_eq_ok_iff {a : α} : x.mapError g = .ok a ↔ x = .ok a := by
  cases x <;> simp [Except.mapError]

end Failing

/-! ## The loop over the HTTP targets -/

namespace Http

variable (parseUrl : String → Except String (Option String))

/-- A target that cannot be entered after the ones in `front`, with the panic. -/
inductive Blames (front : List HttpCheckConfig) (check : HttpCheckConfig) : Panic → Prop
  | invalidUrl {err : String} (overridden : check.resolve.isSome)
      (url : parseUrl check.url = .error err) : Blames front check (.invalidUrl check.url err)
  | noHostname (overridden : check.resolve.isSome) (url : parseUrl check.url = .ok none) :
      Blames front check (.noHostname check.url)
  /-- A target before it has the hostname with another override. -/
  | conflictingResolve {earlier : HttpCheckConfig} {host previous resolve : String}
      (mem : earlier ∈ front) (earlierHost : parseUrl earlier.url = .ok (some host))
      (previous_eq : earlier.resolve = some previous)
      (host_eq : parseUrl check.url = .ok (some host))
      (resolve_eq : check.resolve = some resolve) (ne : previous ≠ resolve) :
      Blames front check (.conflictingResolve host previous resolve)

theorem enterOverride_eq_error_iff {overrides : ExtTreeMap String String} {host resolve : String}
    {panic : Panic} :
    enterOverride overrides host resolve = .error panic ↔ ∃ previous,
      overrides[host]? = some previous ∧ previous ≠ resolve ∧
        panic = .conflictingResolve host previous resolve := by
  unfold enterOverride
  cases hprevious : overrides[host]? with
  | none => simp
  | some previous =>
    by_cases heq : previous = resolve
    · simp [heq]
    · show (if previous = resolve then Except.ok overrides else _) = _ ↔ _
      rw [if_neg heq, Except.error.injEq]
      constructor
      · rintro rfl
        exact ⟨previous, rfl, heq, rfl⟩
      · rintro ⟨previous', hprevious', -, rfl⟩
        rw [Option.some.inj hprevious']

theorem urlHost_eq_error_iff {url : String} {panic : Panic} :
    urlHost parseUrl url = .error panic ↔
      (∃ err, parseUrl url = .error err ∧ panic = .invalidUrl url err) ∨
        parseUrl url = .ok none ∧ panic = .noHostname url := by
  unfold urlHost
  rcases parseUrl url with err | host | host <;> simp [eq_comm]

section Turn

variable {parseUrl} {front : List HttpCheckConfig} {check : HttpCheckConfig} {panic : Panic}

theorem Blames.resolve_ne_none (h : Blames parseUrl front check panic) : check.resolve ≠ none := by
  cases h with
  | invalidUrl overridden => exact Option.isSome_iff_ne_none.mp overridden
  | noHostname overridden => exact Option.isSome_iff_ne_none.mp overridden
  | conflictingResolve _ _ _ _ hresolve => simp [hresolve]

/-- A target whose URL has no host is blamed for that. -/
theorem blames_iff_of_urlHost {panic' : Panic} (hresolve : check.resolve.isSome)
    (hurl : urlHost parseUrl check.url = .error panic') :
    Blames parseUrl front check panic ↔ panic' = panic := by
  constructor
  · intro hblames
    have hpanic : urlHost parseUrl check.url = .error panic := by
      rw [urlHost_eq_error_iff]
      cases hblames with
      | invalidUrl _ hparse => exact .inl ⟨_, hparse, rfl⟩
      | noHostname _ hparse => exact .inr ⟨hparse, rfl⟩
      | conflictingResolve _ _ _ hhost =>
        rw [(urlHost_eq_ok_iff parseUrl).mpr hhost] at hurl
        cases hurl
    exact Except.error.inj (hurl.symm.trans hpanic)
  · rintro rfl
    rcases (urlHost_eq_error_iff parseUrl).mp hurl with ⟨err, hparse, rfl⟩ | ⟨hparse, rfl⟩
    · exact .invalidUrl hresolve hparse
    · exact .noHostname hresolve hparse

/-- A target with a host is blamed for an override that is there before it. -/
theorem blames_iff_of_host {overrides : ExtTreeMap String String}
    (h : overridesOf parseUrl front = .ok overrides) {host resolve : String}
    (hresolve : check.resolve = some resolve) (hhost : parseUrl check.url = .ok (some host)) :
    Blames parseUrl front check panic ↔ ∃ previous, overrides[host]? = some previous ∧
      previous ≠ resolve ∧ panic = .conflictingResolve host previous resolve := by
  constructor
  · intro hblames
    cases hblames with
    | invalidUrl _ hparse => simp [hparse] at hhost
    | noHostname _ hparse => simp [hparse] at hhost
    | @conflictingResolve earlier host' previous resolve' hmem hearlier heq hhost' hresolve' hne =>
      obtain rfl := Option.some.inj (Except.ok.inj (hhost.symm.trans hhost'))
      obtain rfl := Option.some.inj (hresolve.symm.trans hresolve')
      have hprevious := (overrides_eq_some_iff parseUrl h host previous).mpr
        ⟨earlier, hmem, hearlier, heq⟩
      exact ⟨previous, hprevious, hne, rfl⟩
  · rintro ⟨previous, hprevious, hne, rfl⟩
    obtain ⟨earlier, hmem, hearlier, heq⟩ :=
      (overrides_eq_some_iff parseUrl h host previous).mp hprevious
    exact .conflictingResolve hmem hearlier heq hhost hresolve hne

/-- One turn of the loop panics just on the targets that cannot be entered. -/
theorem addOverride_eq_error_iff {overrides : ExtTreeMap String String}
    (h : overridesOf parseUrl front = .ok overrides) (check : HttpCheckConfig) (panic : Panic) :
    addOverride parseUrl overrides check = .error panic ↔ Blames parseUrl front check panic := by
  cases hresolve : check.resolve with
  | none =>
    rw [addOverride_none parseUrl hresolve]
    constructor
    · intro herror
      cases herror
    · intro hblames
      exact absurd hresolve hblames.resolve_ne_none
  | some resolve =>
    rw [addOverride_some parseUrl hresolve]
    cases hurl : urlHost parseUrl check.url with
    | error panic' =>
      rw [blames_iff_of_urlHost (by rw [hresolve]; rfl) hurl]
      show Except.error panic' = Except.error panic ↔ _
      rw [Except.error.injEq]
    | ok host =>
      have hhost := (urlHost_eq_ok_iff parseUrl).mp hurl
      rw [blames_iff_of_host h hresolve hhost]
      exact enterOverride_eq_error_iff

end Turn

/-- The loop panics on the first target that cannot be entered. -/
theorem overridesOf_eq_error_iff (config : List HttpCheckConfig) (panic : Panic) :
    overridesOf parseUrl config = .error panic ↔ ∃ front check back,
      config = front ++ check :: back ∧ (∃ overrides, overridesOf parseUrl front = .ok overrides) ∧
        Blames parseUrl front check panic := by
  unfold overridesOf
  rw [foldlM_eq_error_iff]
  constructor
  · rintro ⟨front, check, back, overrides, hconfig, hfront, hpanic⟩
    exact ⟨front, check, back, hconfig, ⟨overrides, hfront⟩,
      (addOverride_eq_error_iff hfront check panic).mp hpanic⟩
  · rintro ⟨front, check, back, hconfig, ⟨overrides, hfront⟩, hblames⟩
    exact ⟨front, check, back, overrides, hconfig, hfront,
      (addOverride_eq_error_iff hfront check panic).mpr hblames⟩

end Http

/-- Of the checks only those over HTTP can stop the program. -/
theorem buildChecks_eq_error_iff (parseUrl : String → Except String (Option String))
    (health : HealthConfig) (panic : Http.Panic) :
    buildChecks parseUrl health = .error panic ↔ ∃ targets, health.checks.http = some targets ∧
      Http.overridesOf parseUrl targets = .error panic := by
  cases hhttp : health.checks.http with
  | none =>
    constructor
    · intro h
      simp only [buildChecks, hhttp] at h
      cases h
    · rintro ⟨targets, htargets, -⟩
      cases htargets
  | some targets =>
    have hnew : ∀ timeout, Http.HttpHealthCheck.new parseUrl targets timeout =
        (Http.overridesOf parseUrl targets).map fun overrides =>
          { base := { timeout := .fromSecs timeout, dnsResolver := { overrides } }
            targets := targets.map fun check => check.url, timeout := .fromSecs timeout } := by
      intro timeout
      cases hmap : Http.overridesOf parseUrl targets <;>
        simp only [Http.HttpHealthCheck.new, Http.buildClient, hmap] <;> rfl
    cases hmap : Http.overridesOf parseUrl targets with
    | error panic' =>
      simp only [buildChecks, hhttp, Option.mapM_some, hnew, hmap, Except.map]
      constructor
      · intro h
        cases h
        exact ⟨targets, rfl, hmap⟩
      · rintro ⟨targets', htargets, hpanic⟩
        cases htargets
        rw [hmap] at hpanic
        cases hpanic
        rfl
    | ok overrides =>
      simp only [buildChecks, hhttp, Option.mapM_some, hnew, hmap, Except.map]
      constructor
      · intro h
        cases h
      · rintro ⟨targets', htargets, hpanic⟩
        cases htargets
        rw [hmap] at hpanic
        cases hpanic

/-! ## From the file to the server -/

structure TlsConfig where
  certPath : String
  keyPath : String
  deriving DecidableEq, Repr

structure ServerConfig where
  port : UInt16
  tls : TlsConfig
  deriving DecidableEq, Repr

structure Config where
  server : ServerConfig
  health : HealthConfig
  deriving DecidableEq

/-- What the program finds when it is started. -/
structure Environment where
  /-- `install_default` of the Rustls provider, with the number of cipher suites of the one
  that is there already. -/
  installDefault : Except Nat Unit
  /-- `AXUM_HEALTH_CONFIG`, if it is set. -/
  configPath : Option String
  readToString : String → Except String String
  /-- `toml::from_str::<Config>` -/
  fromToml : String → Except String Config
  parseUrl : String → Except String (Option String)
  /-- `reqwest::ClientBuilder::build` for a timeout -/
  newClient : Duration → Except String Unit
  /-- `moka::future::CacheBuilder::build`, which refuses very long times to live -/
  newCache : Duration → Except String Unit
  /-- `RustlsConfig::from_pem_file` -/
  fromPemFile : String → String → Except String Unit
  /-- `axum_server::bind_rustls(addr, tls).serve(..)`, which returns when it cannot listen at
  the address, and else goes on serving -/
  bindRustls : SocketAddr → Except String Unit

def Environment.path (env : Environment) : String := env.configPath.getD "config.toml"

/-- The panics of `main`. -/
inductive StartPanic
  /-- `conflit de provider Rustls : ring non installé ({suites} cipher suites déjà installées)` -/
  | providerConflict (suites : Nat)
  /-- `failed to read config file {path}: {err}` -/
  | readConfig (path err : String)
  /-- `failed to parse config file {path}: {err}` -/
  | parseConfig (path err : String)
  | overrides (panic : Http.Panic)
  /-- `failed to build HTTP client` -/
  | buildClient (err : String)
  | buildCache (err : String)
  /-- `failed to load TLS config` -/
  | loadTls (err : String)
  /-- `server exited unexpectedly` -/
  | serve (err : String)
  deriving DecidableEq, Repr

def loadConfig (env : Environment) (path : String) : Except StartPanic Config := do
  let raw ← (env.readToString path).mapError (.readConfig path)
  (env.fromToml raw).mapError (.parseConfig path)

/-- The construction of the client of the HTTP check. -/
def buildHttpClient (env : Environment) (health : HealthConfig) : Except StartPanic Unit :=
  match health.checks.http with
  | some _ => (env.newClient (.fromSecs health.config.httpTimeoutSeconds)).mapError .buildClient
  | none => .ok ()

/-- `build_checks`: after the client is built, which is done as soon as its overrides are
entered, no other check can fail. -/
def startChecks (env : Environment) (health : HealthConfig) : Except StartPanic HealthChecks := do
  let checks ← (buildChecks env.parseUrl health).mapError .overrides
  buildHttpClient env health
  return checks

/-- The address that the server listens at. -/
def ServerConfig.addr (server : ServerConfig) : SocketAddr :=
  { ip := .v4 #v[0, 0, 0, 0], port := server.port }

/-- The end of `main`, with the cache that `resources::app` builds. -/
def startServer (env : Environment) (config : Config) : Except StartPanic Unit := do
  (env.newCache (.fromSecs config.health.config.cacheTtlSeconds)).mapError .buildCache
  (env.fromPemFile config.server.tls.certPath config.server.tls.keyPath).mapError .loadTls
  (env.bindRustls config.server.addr).mapError .serve

/-- `main` up to the point where the server listens, with its state and its port. -/
def start (env : Environment) : Except StartPanic (AppState × UInt16) := do
  env.installDefault.mapError .providerConflict
  let config ← loadConfig env env.path
  let checks ← startChecks env config.health
  startServer env config
  return ({ config := config.health, checks }, config.server.port)

/-- The configuration is read. -/
structure Loads (env : Environment) (config : Config) : Prop where
  install : env.installDefault = .ok ()
  load : loadConfig env env.path = .ok config

/-- The checks of the configuration are built. -/
structure Builds (env : Environment) (config : Config) (checks : HealthChecks) : Prop
    extends Loads env config where
  checks : buildChecks env.parseUrl config.health = .ok checks
  client : config.health.checks.http.isSome →
    env.newClient (.fromSecs config.health.config.httpTimeoutSeconds) = .ok ()

/-- Why the program stops before it serves: the first step that fails. -/
inductive Stops (env : Environment) : StartPanic → Prop
  | providerConflict {suites : Nat} (install : env.installDefault = .error suites) :
      Stops env (.providerConflict suites)
  | readConfig {err : String} (install : env.installDefault = .ok ())
      (read : env.readToString env.path = .error err) : Stops env (.readConfig env.path err)
  | parseConfig {raw err : String} (install : env.installDefault = .ok ())
      (read : env.readToString env.path = .ok raw) (parse : env.fromToml raw = .error err) :
      Stops env (.parseConfig env.path err)
  /-- The first HTTP target that cannot be entered after those before it. -/
  | overrides {config : Config} {front back : List HttpCheckConfig} {check : HttpCheckConfig}
      {panic : Http.Panic} (loads : Loads env config)
      (targets : config.health.checks.http = some (front ++ check :: back))
      (entered : ∃ overrides, Http.overridesOf env.parseUrl front = .ok overrides)
      (blames : Http.Blames env.parseUrl front check panic) : Stops env (.overrides panic)
  | buildClient {config : Config} {checks : HealthChecks} {err : String} (loads : Loads env config)
      (build : buildChecks env.parseUrl config.health = .ok checks)
      (http : config.health.checks.http.isSome)
      (client : env.newClient (.fromSecs config.health.config.httpTimeoutSeconds) = .error err) :
      Stops env (.buildClient err)
  | buildCache {config : Config} {checks : HealthChecks} {err : String}
      (builds : Builds env config checks)
      (cache : env.newCache (.fromSecs config.health.config.cacheTtlSeconds) = .error err) :
      Stops env (.buildCache err)
  | loadTls {config : Config} {checks : HealthChecks} {err : String}
      (builds : Builds env config checks)
      (cache : env.newCache (.fromSecs config.health.config.cacheTtlSeconds) = .ok ())
      (tls : env.fromPemFile config.server.tls.certPath config.server.tls.keyPath = .error err) :
      Stops env (.loadTls err)
  /-- Somebody else has the port. -/
  | serve {config : Config} {checks : HealthChecks} {err : String}
      (builds : Builds env config checks)
      (cache : env.newCache (.fromSecs config.health.config.cacheTtlSeconds) = .ok ())
      (tls : env.fromPemFile config.server.tls.certPath config.server.tls.keyPath = .ok ())
      (bind : env.bindRustls { ip := .v4 #v[0, 0, 0, 0], port := config.server.port } =
        .error err) :
      Stops env (.serve err)

/-! ## The stages -/

section Stages

variable {env : Environment} {config : Config} {checks : HealthChecks} {panic : StartPanic}

theorem loadConfig_eq_error_iff :
    loadConfig env env.path = .error panic ↔
      (∃ err, env.readToString env.path = .error err ∧ panic = .readConfig env.path err) ∨
        ∃ raw, env.readToString env.path = .ok raw ∧
          ∃ err, env.fromToml raw = .error err ∧ panic = .parseConfig env.path err := by
  simp only [loadConfig, bind_eq_error_iff, mapError_eq_error_iff, mapError_eq_ok_iff]

theorem buildHttpClient_eq_error_iff {health : HealthConfig} :
    buildHttpClient env health = .error panic ↔
      health.checks.http.isSome ∧ ∃ err,
        env.newClient (.fromSecs health.config.httpTimeoutSeconds) = .error err ∧
          panic = .buildClient err := by
  cases hhttp : health.checks.http with
  | none => simp [buildHttpClient, hhttp]
  | some targets => simp [buildHttpClient, hhttp, mapError_eq_error_iff]

theorem buildHttpClient_eq_ok_iff {health : HealthConfig} :
    buildHttpClient env health = .ok () ↔ (health.checks.http.isSome →
      env.newClient (.fromSecs health.config.httpTimeoutSeconds) = .ok ()) := by
  cases hhttp : health.checks.http with
  | none => simp [buildHttpClient, hhttp]
  | some targets => simp [buildHttpClient, hhttp, mapError_eq_ok_iff]

theorem startChecks_eq_error_iff {health : HealthConfig} :
    startChecks env health = .error panic ↔
      (∃ panic', buildChecks env.parseUrl health = .error panic' ∧ panic = .overrides panic') ∨
        ∃ checks, buildChecks env.parseUrl health = .ok checks ∧
          buildHttpClient env health = .error panic := by
  simp only [startChecks, bind_eq_error_iff, mapError_eq_error_iff, mapError_eq_ok_iff]
  simp [pure, Except.pure]

theorem startChecks_eq_ok_iff {health : HealthConfig} :
    startChecks env health = .ok checks ↔
      buildChecks env.parseUrl health = .ok checks ∧ buildHttpClient env health = .ok () := by
  simp only [startChecks, bind_eq_ok_iff, mapError_eq_ok_iff, pure_eq_ok_iff]
  constructor
  · rintro ⟨checks', hbuild, ⟨⟩, hclient, rfl⟩
    exact ⟨hbuild, hclient⟩
  · rintro ⟨hbuild, hclient⟩
    exact ⟨checks, hbuild, (), hclient, rfl⟩

theorem startServer_eq_error_iff :
    startServer env config = .error panic ↔
      (∃ err, env.newCache (.fromSecs config.health.config.cacheTtlSeconds) = .error err ∧
        panic = .buildCache err) ∨
      env.newCache (.fromSecs config.health.config.cacheTtlSeconds) = .ok () ∧
        ((∃ err, env.fromPemFile config.server.tls.certPath config.server.tls.keyPath =
            .error err ∧ panic = .loadTls err) ∨
          env.fromPemFile config.server.tls.certPath config.server.tls.keyPath = .ok () ∧
            ∃ err, env.bindRustls config.server.addr = .error err ∧ panic = .serve err) := by
  simp only [startServer, seq_eq_error_iff, mapError_eq_error_iff, mapError_eq_ok_iff]

/-- The program has come as far as the configuration. -/
theorem Loads.start_eq (h : Loads env config) :
    start env = startChecks env config.health >>= fun checks =>
      startServer env config >>= fun _ =>
        pure ({ config := config.health, checks }, config.server.port) := by
  rw [start, h.install, h.load]
  rfl

/-- The program has come as far as the checks. -/
theorem Builds.start_eq (h : Builds env config checks) :
    start env = startServer env config >>= fun _ =>
      pure ({ config := config.health, checks }, config.server.port) := by
  rw [h.toLoads.start_eq, startChecks_eq_ok_iff.mpr
    ⟨h.checks, buildHttpClient_eq_ok_iff.mpr h.client⟩]
  rfl

theorem Loads.builds (h : Loads env config) (hchecks : startChecks env config.health = .ok checks) :
    Builds env config checks := by
  obtain ⟨hbuild, hclient⟩ := startChecks_eq_ok_iff.mp hchecks
  exact ⟨h, hbuild, buildHttpClient_eq_ok_iff.mp hclient⟩

/-! ## Why the program stops -/

theorem stops_of_loadConfig (install : env.installDefault = .ok ())
    (h : loadConfig env env.path = .error panic) : Stops env panic := by
  rcases loadConfig_eq_error_iff.mp h with ⟨err, hread, rfl⟩ | ⟨raw, hread, err, hparse, rfl⟩
  · exact .readConfig install hread
  · exact .parseConfig install hread hparse

theorem stops_of_startChecks (loads : Loads env config)
    (h : startChecks env config.health = .error panic) : Stops env panic := by
  rcases startChecks_eq_error_iff.mp h with ⟨panic', hbuild, rfl⟩ | ⟨checks, hbuild, hclient⟩
  · obtain ⟨targets, htargets, hmap⟩ := (buildChecks_eq_error_iff _ _ _).mp hbuild
    obtain ⟨front, check, back, rfl, hentered, hblames⟩ :=
      (Http.overridesOf_eq_error_iff _ _ _).mp hmap
    exact .overrides loads htargets hentered hblames
  · obtain ⟨hhttp, err, hnew, rfl⟩ := buildHttpClient_eq_error_iff.mp hclient
    exact .buildClient loads hbuild hhttp hnew

theorem stops_of_startServer (builds : Builds env config checks)
    (h : startServer env config = .error panic) : Stops env panic := by
  rcases startServer_eq_error_iff.mp h with ⟨err, hcache, rfl⟩ | ⟨hcache, h⟩
  · exact .buildCache builds hcache
  rcases h with ⟨err, htls, rfl⟩ | ⟨htls, err, hbind, rfl⟩
  · exact .loadTls builds hcache htls
  · exact .serve builds hcache htls hbind

theorem stops_of_start (h : start env = .error panic) : Stops env panic := by
  rcases bind_eq_error_iff.mp h with hinstall | ⟨⟨⟩, hinstall, h⟩
  · obtain ⟨suites, herror, rfl⟩ := mapError_eq_error_iff.mp hinstall
    exact .providerConflict herror
  have install := mapError_eq_ok_iff.mp hinstall
  rcases bind_eq_error_iff.mp h with hload | ⟨config, hload, h⟩
  · exact stops_of_loadConfig install hload
  have loads : Loads env config := ⟨install, hload⟩
  rcases bind_eq_error_iff.mp h with hchecks | ⟨checks, hchecks, h⟩
  · exact stops_of_startChecks loads hchecks
  rcases bind_eq_error_iff.mp h with hserver | ⟨⟨⟩, -, h⟩
  · exact stops_of_startServer (loads.builds hchecks) hserver
  · cases h

theorem start_of_loadConfig (install : env.installDefault = .ok ())
    (h : loadConfig env env.path = .error panic) : start env = .error panic := by
  rw [start, install, h]
  rfl

theorem Loads.start_of_startChecks (loads : Loads env config)
    (h : startChecks env config.health = .error panic) : start env = .error panic := by
  rw [loads.start_eq, h]
  rfl

theorem Builds.start_of_startServer (builds : Builds env config checks)
    (h : startServer env config = .error panic) : start env = .error panic := by
  rw [builds.start_eq, h]
  rfl

theorem start_of_stops (h : Stops env panic) : start env = .error panic := by
  cases h with
  | providerConflict install =>
    rw [start, install]
    rfl
  | readConfig install read =>
    exact start_of_loadConfig install (loadConfig_eq_error_iff.mpr (.inl ⟨_, read, rfl⟩))
  | parseConfig install read parse =>
    exact start_of_loadConfig install
      (loadConfig_eq_error_iff.mpr (.inr ⟨_, read, _, parse, rfl⟩))
  | overrides loads targets entered blames =>
    have hbuild := (buildChecks_eq_error_iff _ _ _).mpr ⟨_, targets,
      (Http.overridesOf_eq_error_iff _ _ _).mpr ⟨_, _, _, rfl, entered, blames⟩⟩
    exact loads.start_of_startChecks (startChecks_eq_error_iff.mpr (.inl ⟨_, hbuild, rfl⟩))
  | buildClient loads build http client =>
    have hclient := buildHttpClient_eq_error_iff.mpr ⟨http, _, client, rfl⟩
    exact loads.start_of_startChecks (startChecks_eq_error_iff.mpr (.inr ⟨_, build, hclient⟩))
  | buildCache builds cache =>
    exact builds.start_of_startServer (startServer_eq_error_iff.mpr (.inl ⟨_, cache, rfl⟩))
  | loadTls builds cache tls =>
    exact builds.start_of_startServer
      (startServer_eq_error_iff.mpr (.inr ⟨cache, .inl ⟨_, tls, rfl⟩⟩))
  | serve builds cache tls bind =>
    exact builds.start_of_startServer
      (startServer_eq_error_iff.mpr (.inr ⟨cache, .inr ⟨tls, _, bind, rfl⟩⟩))

end Stages

/-- The program stops before its server listens exactly for one of these reasons. -/
theorem start_eq_error_iff (env : Environment) (panic : StartPanic) :
    start env = .error panic ↔ Stops env panic :=
  ⟨stops_of_start, start_of_stops⟩

/-- A configuration file with one host to look up. -/
def oneHostToml : String :=
  "[server]\nport = 3000\n\n[server.tls]\ncert_path = \"crt.pem\"\nkey_path = \"key.pem\"\n\n" ++
  "[health.config]\ncache_ttl_seconds = 5\nhttp_timeout_seconds = 5\n\n" ++
  "[[health.checks.dns]]\nhost = \"localhost\"\n"

def oneHostConfig : Config :=
  { server := { port := 3000, tls := { certPath := "crt.pem", keyPath := "key.pem" } }
    health := oneHost }

/-- Start-up finds this file, and nothing fails. -/
def oneHostFile : Environment :=
  { installDefault := .ok ()
    configPath := none
    readToString := fun path =>
      if path = "config.toml" then .ok oneHostToml else .error "No such file or directory"
    fromToml := fun raw =>
      if raw = oneHostToml then .ok oneHostConfig else .error "TOML parse error"
    parseUrl := Http.plainHost
    newClient := fun _ => .ok ()
    newCache := fun _ => .ok ()
    fromPemFile := fun _ _ => .ok ()
    bindRustls := fun _ => .ok () }

theorem oneHostFile_builds (bindRustls : SocketAddr → Except String Unit) :
    ∃ checks, Builds { oneHostFile with bindRustls } oneHostConfig checks := by
  refine ⟨_, ⟨rfl, ?_⟩, rfl, fun _ => rfl⟩
  simp [loadConfig, oneHostFile, Environment.path, Except.mapError, bind, Except.bind]

/-- Another program has the port. -/
theorem portInUse_stops :
    start { oneHostFile with bindRustls := fun _ => .error "Address already in use" } =
      .error (.serve "Address already in use") := by
  obtain ⟨checks, hbuilds⟩ := oneHostFile_builds fun _ => .error "Address already in use"
  exact (start_eq_error_iff _ _).mpr (.serve hbuilds rfl rfl rfl)

/-- A server that was started has the checks and the port of its configuration. -/
theorem builds_of_start {env : Environment} {state : AppState} {port : UInt16}
    (h : start env = .ok (state, port)) : ∃ config, Builds env config state.checks ∧
      state.config = config.health ∧ port = config.server.port := by
  unfold start at h
  simp only [bind_eq_ok_iff, mapError_eq_ok_iff, pure_eq_ok_iff] at h
  obtain ⟨⟨⟩, install, config, hload, checks, hchecks, ⟨⟩, -, heq⟩ := h
  cases heq
  exact ⟨config, Loads.builds ⟨install, hload⟩ hchecks, rfl, rfl⟩

/-! ## What a started server answers -/

/-- In every run of a server that was started, a monitor that reads the body of an answer
gets the report of one aggregation whose calls were all answered.  The report has the
sections and the targets of the configuration file, and the code goes with its status. -/
theorem started_answers {env : Environment} {state : AppState} {port : UInt16}
    (hstart : start env = .ok (state, port)) {as : List (SingleFlight.Action HealthResponse)}
    {s : CallServer} (h : state.Serves as s) {i : Nat} {answer : StatusCode × HealthResponse}
    (hanswer : answerOf s.cache i = some answer) :
    ∃ config report, loadConfig env env.path = .ok config ∧
      Report.ofText (healthBody answer.2) = some report ∧ Describes config.health report ∧
      (answer.1 = StatusCode.ok ↔ report.status = .up) ∧
      ∃ r o, (s.events r).Perm ((aggregateResponse state.checks).log o) ∧
        report = reportOf state.checks o := by
  obtain ⟨config, hbuilds, -, -⟩ := builds_of_start hstart
  obtain ⟨lookup, r, response, hi, rfl⟩ := answerOf_eq_some hanswer
  obtain ⟨finish, ⟨begun, hround⟩, -⟩ := h.tracked.coherent.phases i _ hi
  obtain ⟨o, -, hover⟩ := h.tracked.accounted hround
  obtain ⟨hcalls, rfl⟩ := hover finish response rfl
  refine ⟨config, reportOf state.checks o, hbuilds.load, ofText_healthBody state.checks o,
    reportOf_describes (buildChecks_ok hbuilds.checks) o, ?_, r, o, hcalls, rfl⟩
  rw [← status_aggregateResponse]
  unfold healthAnswer
  cases ((aggregateResponse state.checks).value o).status <;>
    simp [StatusCode.ok, StatusCode.serviceUnavailable]

theorem oneHostFile_answers : ∃ state, start oneHostFile = .ok (state, 3000) ∧
    ∃ as s answer report, state.Serves as s ∧ answerOf s.cache 1 = some answer ∧
      Report.ofText (healthBody answer.2) = some report ∧ Describes oneHost report := by
  obtain ⟨checks, hbuilds⟩ := oneHostFile_builds oneHostFile.bindRustls
  have hstart : start oneHostFile = .ok ({ config := oneHost, checks }, 3000) := by
    rw [Builds.start_eq hbuilds]
    rfl
  obtain ⟨events, ahead, hsteps⟩ := Future.exists_steps (aggregateResponse checks) offline
  obtain ⟨as, s, hserves, hanswer, -⟩ := exists_shared { config := oneHost, checks } hsteps
  obtain ⟨config, report, hconfig, hread, hdescribes, -⟩ :=
    started_answers hstart hserves hanswer
  obtain rfl := Except.ok.inj (hbuilds.load.symm.trans hconfig)
  exact ⟨_, hstart, as, s, _, report, hserves, hanswer, hread, hdescribes⟩

end AxumHealth

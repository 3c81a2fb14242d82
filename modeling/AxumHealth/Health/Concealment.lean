import AxumHealth.Health.Aggregate
import AxumHealth.Health.LdapSession

/-!
# Passwords concealed

Two configurations that differ only in the passwords of their LDAP targets, in an
outside that treats both alike: the checks that are built from them ask the same,
but for the passwords of the binds, and answer the same.
-/

namespace AxumHealth

open Std Concurrency Collections Ldap

/-! ## Configurations without their passwords -/

def LdapCheckConfig.concealed (check : LdapCheckConfig) : LdapCheckConfig :=
  { check with password := ⟨""⟩ }

def HealthConfig.concealed (health : HealthConfig) : HealthConfig :=
  { health with
    checks := { health.checks with
      ldap := health.checks.ldap.map (List.map LdapCheckConfig.concealed) } }

/-- The configurations differ only in the passwords of their LDAP targets. -/
def SameButPasswords (health health' : HealthConfig) : Prop := health.concealed = health'.concealed

def Ldap.LdapTarget.concealed (target : LdapTarget) : LdapTarget := { target with password := ⟨""⟩ }

def Ldap.LdapHealthCheck.concealed (check : LdapHealthCheck) : LdapHealthCheck :=
  { check with servers := check.servers.map LdapTarget.concealed }

def HealthCheck.concealed : HealthCheck → HealthCheck
  | ldap check => .ldap check.concealed
  | check => check

def concealAll (checks : HealthChecks) : HealthChecks := checks.map fun _ => HealthCheck.concealed

theorem new_concealed (targets : List LdapCheckConfig) (timeoutSeconds : UInt64) :
    (LdapHealthCheck.new targets timeoutSeconds).concealed =
      .new (targets.map LdapCheckConfig.concealed) timeoutSeconds := by
  simp [LdapHealthCheck.new, LdapHealthCheck.concealed, LdapTarget.concealed,
    LdapCheckConfig.concealed, Function.comp_def]

theorem concealAll_withCheck (checks : HealthChecks) (name : String)
    (check : Option HealthCheck) :
    concealAll (withCheck checks name check) =
      withCheck (concealAll checks) name (check.map HealthCheck.concealed) := by
  apply ExtTreeMap.ext_getElem?
  intro key
  rw [getElem?_withCheck, concealAll, ExtTreeMap.getElem?_map, getElem?_withCheck, concealAll,
    ExtTreeMap.getElem?_map]
  by_cases h : name = key
  · cases check <;> simp [h]
  · simp [h]

/-- Building the checks carries the passwords over and looks at none of them. -/
theorem buildChecks_concealed (parseUrl : String → Except String (Option String))
    (health : HealthConfig) :
    buildChecks parseUrl health.concealed = (buildChecks parseUrl health).map concealAll := by
  have hping : concealAll (ExtTreeMap.ofList [("ping", HealthCheck.ping)]) =
      ExtTreeMap.ofList [("ping", HealthCheck.ping)] := by
    rfl
  have hldap : (health.concealed.checks.ldap.map fun targets =>
      HealthCheck.ldap (.new targets health.config.ldapTimeoutSeconds)) =
      (health.checks.ldap.map fun targets =>
        HealthCheck.ldap (.new targets health.config.ldapTimeoutSeconds)).map
          HealthCheck.concealed := by
    cases hldap : health.checks.ldap with
    | none => simp [HealthConfig.concealed, hldap]
    | some targets => simp [HealthConfig.concealed, hldap, HealthCheck.concealed, new_concealed]
  unfold buildChecks
  rw [show health.concealed.checks.http = health.checks.http from rfl,
    show health.concealed.config = health.config from rfl]
  cases hhttp : health.checks.http.mapM fun http =>
      Http.HttpHealthCheck.new parseUrl http health.config.httpTimeoutSeconds with
  | error panic => rfl
  | ok http =>
    show Except.ok _ = Except.ok (concealAll _)
    rw [concealAll_withCheck, concealAll_withCheck, concealAll_withCheck, concealAll_withCheck,
      hping, hldap]
    simp only [Option.map_map]
    rfl

/-- Configurations that differ only in their passwords stop with the same panic, or
are built into checks that differ only in theirs. -/
theorem SameButPasswords.buildChecks_map {health health' : HealthConfig}
    (h : SameButPasswords health health')
    (parseUrl : String → Except String (Option String)) :
    (buildChecks parseUrl health).map concealAll =
      (buildChecks parseUrl health').map concealAll := by
  rw [← buildChecks_concealed, ← buildChecks_concealed,
    show health.concealed = health'.concealed from h]

/-! ## The same outside -/

/-- The same request, but for the password of a bind. -/
inductive SameProbe : Probe → Probe → Prop
  | refl (q : Probe) : SameProbe q q
  | bind (timeout : Duration) (bindDn password password' : String) :
      SameProbe (.simpleBind timeout bindDn password) (.simpleBind timeout bindDn password')

theorem SameProbe.symm {q q' : Probe} (h : SameProbe q q') : SameProbe q' q := by
  cases h with
  | refl => exact .refl q
  | bind timeout bindDn password password' => exact .bind timeout bindDn password' password

/-- The worlds answer alike what is not a bind. -/
def AgreeButBinds (o o' : World) : Prop :=
  ∀ place n q, (∀ timeout bindDn password, q ≠ .simpleBind timeout bindDn password) →
    o place n q = o' place n q

theorem AgreeButBinds.head {o o' : World} (h : AgreeButBinds o o') {q : Probe}
    (hq : ∀ timeout bindDn password, q ≠ .simpleBind timeout bindDn password) :
    o.head q = o'.head q :=
  h [] 0 q hq

theorem AgreeButBinds.tail {o o' : World} (h : AgreeButBinds o o') :
    AgreeButBinds o.tail o'.tail := by
  intro place n q hq
  cases place with
  | nil => exact h [] (n + 1) q hq
  | cons p place => exact h ((p.1 + 1, p.2) :: place) n q hq

theorem AgreeButBinds.part {o o' : World} (h : AgreeButBinds o o') (i : Nat) :
    AgreeButBinds (o.part i) (o'.part i) :=
  fun place n q hq => h ((0, i) :: place) n q hq

/-! ## The probes -/

section Probes

variable {o o' : World}

theorem checkTarget_simulates (h : AgreeButBinds o o') (timeout : Duration) (target : String) :
    Future.Simulates SameProbe (Http.checkTarget timeout target) o
      (Http.checkTarget timeout target) o' := by
  unfold Http.checkTarget
  cases Http.mockCheck target with
  | some check => exact .ready _ _ _
  | none =>
    apply Future.Simulates.bind_pure
    exact .request_same (.refl _) (h.head (by simp))

theorem checkHost_simulates (h : AgreeButBinds o o') (host : String) :
    Future.Simulates SameProbe (Dns.checkHost host) o (Dns.checkHost host) o' := by
  apply Future.Simulates.bind_pure
  exact .request_same (.refl _) (h.head (by simp))

theorem checkDisk_simulates (h : AgreeButBinds o o') (disk : DiskConfig) :
    Future.Simulates SameProbe (Disk.checkDisk disk) o (Disk.checkDisk disk) o' := by
  apply Future.Simulates.bind_pure
  unfold Disk.diskUsagePercentRemaining
  by_cases hnul : Disk.hasNul disk.path = true
  · rw [if_pos hnul]
    exact .ready _ _ _
  · rw [if_neg hnul]
    have hanswer : o.head (.statvfs disk.path) = o'.head (.statvfs disk.path) :=
      h.head (by simp)
    apply Future.Simulates.request_bind (.refl _) (heq_of_eq hanswer)
    rw [hanswer]
    cases o'.head (.statvfs disk.path) <;> exact .ready _ _ _

/-- Two servers that differ only in the password, whose binds have the same
outcome. -/
theorem checkServer_simulates (h : AgreeButBinds o o') (timeout : Duration)
    {server server' : LdapTarget} (hserver : server.concealed = server'.concealed)
    (hbind : bindOutcome timeout server o = bindOutcome timeout server' o') :
    Future.Simulates SameProbe (checkServer timeout server) o
      (checkServer timeout server') o' := by
  obtain ⟨url, bindDn, password⟩ := server
  obtain ⟨url', bindDn', password'⟩ := server'
  simp only [LdapTarget.concealed, LdapTarget.mk.injEq, and_true] at hserver
  obtain ⟨rfl, rfl⟩ := hserver
  apply Future.Simulates.bind_pure
  unfold bindServer
  by_cases hscheme : Text.startsWith url "ldaps://" = true
  · rw [if_neg (by simp [hscheme]), if_neg (by simp [hscheme])]
    have hconnect : o.head (.ldapConnect timeout url) = o'.head (.ldapConnect timeout url) :=
      h.head (by simp)
    apply Future.Simulates.request_bind (.refl _) (heq_of_eq hconnect)
    rw [hconnect]
    cases o'.head (.ldapConnect timeout url) with
    | error err => exact .ready _ _ _
    | ok u =>
      show Future.Simulates SameProbe (simpleBind timeout bindDn password.exposeSecret >>= _) o.tail
        (simpleBind timeout bindDn password'.exposeSecret >>= _) o'.tail
      refine Future.Simulates.request_bind (SameProbe.bind _ _ _ _) (heq_of_eq hbind) ?_
      have hanswer : o.tail.head (.simpleBind timeout bindDn password.exposeSecret) =
          bindOutcome timeout ⟨url, bindDn, password'⟩ o' := hbind
      have hanswer' : o'.tail.head (.simpleBind timeout bindDn password'.exposeSecret) =
          bindOutcome timeout ⟨url, bindDn, password'⟩ o' := rfl
      rw [hanswer, hanswer']
      cases bindOutcome timeout ⟨url, bindDn, password'⟩ o' with
      | error err => exact .ready _ _ _
      | ok result =>
        have hunbind : o.tail.tail.head (.unbind timeout) = o'.tail.tail.head (.unbind timeout) :=
          h.tail.tail.head (by simp)
        apply Future.Simulates.request_bind (.refl _) (heq_of_eq hunbind)
        exact .ready _ _ _
  · rw [if_pos (by simp [hscheme]), if_pos (by simp [hscheme])]
    exact .ready _ _ _

end Probes

/-! ## The aggregation -/

/-- Checks that are the same without their passwords are the same, or both bind to
servers that are. -/
theorem concealed_cases {check check' : HealthCheck} (h : check.concealed = check'.concealed) :
    (check = check' ∧ ∀ ldap, check ≠ .ldap ldap) ∨
      ∃ ldap ldap', check = .ldap ldap ∧ check' = .ldap ldap' ∧
        ldap.concealed = ldap'.concealed := by
  cases check with
  | ldap ldap =>
    cases check' with
    | ldap ldap' => exact .inr ⟨ldap, ldap', rfl, rfl, HealthCheck.ldap.inj h⟩
    | _ => cases h
  | _ =>
    cases check' with
    | ldap ldap' => cases h
    | _ => exact .inl ⟨h, fun ldap => nofun⟩

section Aggregation

variable {o o' : World}

theorem ldap_simulates (h : AgreeButBinds o o') {check check' : LdapHealthCheck}
    (hcheck : check.concealed = check'.concealed)
    (hbind : ∀ (i : Nat) server server', check.servers[i]? = some server →
      check'.servers[i]? = some server' →
      bindOutcome check.timeout server (o.part i) =
        bindOutcome check'.timeout server' (o'.part i)) :
    Future.Simulates SameProbe check.check o check'.check o' := by
  obtain ⟨servers, timeout⟩ := check
  obtain ⟨servers', timeout'⟩ := check'
  simp only [LdapHealthCheck.concealed, LdapHealthCheck.mk.injEq] at hcheck
  obtain ⟨hservers, rfl⟩ := hcheck
  apply joinedComponent_simulates
  · have hlength := congrArg List.length hservers
    rwa [List.length_map, List.length_map] at hlength
  · intro i server server' hserver hserver'
    have hsame := congrArg (fun servers => servers[i]?) hservers
    simp only [List.getElem?_map, hserver, hserver', Option.map_some, Option.some.injEq] at hsame
    exact checkServer_simulates (h.part i) timeout hsame (hbind i server server' hserver hserver')

theorem check_simulates (h : AgreeButBinds o o') {check : HealthCheck}
    (hldap : ∀ ldap, check ≠ .ldap ldap) :
    Future.Simulates SameProbe check.check o check.check o' := by
  cases check with
  | ping => exact .ready _ _ _
  | http check =>
    apply joinedComponent_simulates rfl
    intro i target target' htarget htarget'
    obtain rfl := Option.some.inj (htarget.symm.trans htarget')
    exact checkTarget_simulates (h.part i) _ target
  | dns check =>
    apply joinedComponent_simulates rfl
    intro i host host' hhost hhost'
    obtain rfl := Option.some.inj (hhost.symm.trans hhost')
    exact checkHost_simulates (h.part i) host
  | disk check =>
    apply joinedComponent_simulates rfl
    intro i disk disk' hdisk hdisk'
    obtain rfl := Option.some.inj (hdisk.symm.trans hdisk')
    exact checkDisk_simulates (h.part i) disk
  | ldap check => exact absurd rfl (hldap check)

/-- The binds of the LDAP checks of two maps have the same outcomes. -/
def SameBinds (checks checks' : HealthChecks) (o o' : World) : Prop :=
  ∀ (k : Nat) name name' ldap ldap', checks.toList[k]? = some (name, .ldap ldap) →
    checks'.toList[k]? = some (name', .ldap ldap') → ∀ (i : Nat) server server',
    ldap.servers[i]? = some server → ldap'.servers[i]? = some server' →
    bindOutcome ldap.timeout server ((o.part k).part i) =
      bindOutcome ldap'.timeout server' ((o'.part k).part i)

theorem aggregateResponse_simulates {checks checks' : HealthChecks} (h : AgreeButBinds o o')
    (hchecks : concealAll checks = concealAll checks') (hbinds : SameBinds checks checks' o o') :
    Future.Simulates SameProbe (aggregateResponse checks) o (aggregateResponse checks') o' := by
  have hlist := congrArg ExtTreeMap.toList hchecks
  rw [concealAll, concealAll, ExtTreeMap.toList_map, ExtTreeMap.toList_map] at hlist
  apply Future.Simulates.bind_pure
  apply Future.Simulates.bind_pure
  apply Future.Simulates.joinAll
  · have hlength := congrArg List.length hlist
    rwa [List.length_map, List.length_map] at hlength ⊢
  · intro k f f' hf hf'
    obtain ⟨⟨name, check⟩, hk, rfl⟩ := exists_of_getElem?_map hf
    obtain ⟨⟨name', check'⟩, hk', rfl⟩ := exists_of_getElem?_map hf'
    have hsame := congrArg (fun entries => entries[k]?) hlist
    simp only [List.getElem?_map, hk, hk', Option.map_some, Option.some.injEq,
      Prod.mk.injEq] at hsame
    obtain ⟨rfl, hcheck⟩ := hsame
    apply Future.Simulates.bind_pure
    rcases concealed_cases hcheck with ⟨rfl, hldap⟩ | ⟨ldap, ldap', rfl, rfl, hldap⟩
    · exact check_simulates (h.part k) hldap
    · exact ldap_simulates (h.part k) hldap fun i server server' =>
        hbinds k name name ldap ldap' hk hk' i server server'

end Aggregation

end AxumHealth

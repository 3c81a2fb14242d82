import AxumHealth.Concurrency.Lockstep
import AxumHealth.Server

/-!
# Passwords over the runs of the server

Two servers whose configurations differ only in the passwords of their LDAP targets, and
directories that take the one password as they take the other.  Whatever one server does,
call by call and with any number of clients, the other one does as well.
-/

namespace AxumHealth

open Std Concurrency SingleFlight Stepwise Ldap

/-! ## The other directory -/

/-- The password of LDAP target `i`. -/
def HealthConfig.passwordAt (health : HealthConfig) (i : Nat) : String :=
  (health.ldapTarget? i).elim "" fun target => target.password.exposeSecret

/-- The outside that takes any password for a target as `o` takes the configured one. -/
def World.forgiving (health : HealthConfig) (o : World) : World
  | [(m, k), (l, i)], n, .simpleBind timeout bindDn _ =>
    o [(m, k), (l, i)] n (.simpleBind timeout bindDn (health.passwordAt i))
  | place, n, q => o place n q

theorem agreeButBinds_forgiving (health : HealthConfig) (o : World) :
    AgreeButBinds o (World.forgiving health o) := by
  intro place n q hq
  cases q with
  | simpleBind timeout bindDn password => exact absurd rfl (hq timeout bindDn password)
  | _ => rcases place with _ | ⟨⟨m, k⟩, _ | ⟨⟨l, i⟩, _ | ⟨p, place⟩⟩⟩ <;> rfl

theorem SameButPasswords.config_eq {health health' : HealthConfig}
    (h : SameButPasswords health health') : health.config = health'.config := by
  show health.concealed.config = health'.concealed.config
  rw [show health.concealed = health'.concealed from h]

theorem SameButPasswords.bindDn_eq {health health' : HealthConfig}
    (h : SameButPasswords health health') {i : Nat} {target target' : LdapCheckConfig}
    (hi : health.ldapTarget? i = some target) (hi' : health'.ldapTarget? i = some target') :
    target.bindDn = target'.bindDn := by
  have hconcealed : ∀ health : HealthConfig,
      health.concealed.ldapTarget? i = (health.ldapTarget? i).map LdapCheckConfig.concealed := by
    intro health
    show (health.checks.ldap.map _).bind _ = (health.checks.ldap.bind _).map _
    cases health.checks.ldap with
    | none => rfl
    | some targets => exact List.getElem?_map
  have hsame := hconcealed health
  rw [show health.concealed = health'.concealed from h, hconcealed health', hi, hi'] at hsame
  show target.concealed.bindDn = target'.concealed.bindDn
  rw [Option.some.inj hsame]

theorem sameOutcomes_forgiving {health health' : HealthConfig}
    (h : SameButPasswords health health') (o : World) :
    SameOutcomes health health' o (World.forgiving health o) := by
  refine ⟨agreeButBinds_forgiving health o, ?_⟩
  intro k i target target' hi hi'
  have hpassword : health.passwordAt i = target.password.exposeSecret := by
    rw [HealthConfig.passwordAt, hi]
    rfl
  have hbindDn : target.target.bindDn = target'.target.bindDn := h.bindDn_eq hi hi'
  rw [← h.config_eq]
  show _ = o [(0, k), (0, i)] 1 (.simpleBind _ target'.target.bindDn (health.passwordAt i))
  rw [hpassword, ← hbindDn]
  rfl

/-! ## The servers -/

/-- Every run of one server is matched by a run of the other, with the same clients, the
same cache and so the same answers, and the same calls in the same order with the same
outcomes, but for the passwords of the binds. -/
theorem passwords_unobservable (parseUrl : String → Except String (Option String))
    {health health' : HealthConfig} (hsame : SameButPasswords health health')
    {checks checks' : HealthChecks} (hbuild : buildChecks parseUrl health = .ok checks)
    (hbuild' : buildChecks parseUrl health' = .ok checks')
    {as : List (Action HealthResponse)} {s : CallServer}
    (h : AppState.Serves { config := health, checks } as s) :
    ∃ s', AppState.Serves { config := health', checks := checks' } as s' ∧ s'.cache = s.cache ∧
      List.Forall₂ (SameCall SameProbe) s.log s'.log := by
  have hchecks : concealAll checks = concealAll checks' := by
    have hmap := hsame.buildChecks_map parseUrl
    rw [hbuild, hbuild'] at hmap
    exact Except.ok.inj hmap
  have hsim : ∀ o, ∃ o', Future.Simulates SameProbe (aggregateResponse checks) o
      (aggregateResponse checks') o' := by
    intro o
    have houtcomes := sameOutcomes_forgiving hsame o
    exact ⟨_, aggregateResponse_simulates houtcomes.other hchecks
      (houtcomes.sameBinds (buildChecks_ok hbuild) (buildChecks_ok hbuild'))⟩
  have httl : AppState.cacheTtl { config := health', checks := checks' } =
      AppState.cacheTtl { config := health, checks } := by
    rw [AppState.cacheTtl, AppState.cacheTtl, hsame.config_eq]
  obtain ⟨s', hruns, hlockstep⟩ := lockstep_init.runs hsim h
  refine ⟨s', ?_, hlockstep.cache, hlockstep.log⟩
  rw [AppState.Serves, httl]
  exact hruns

/-- Two clients share an aggregation that binds, and are answered the same under other
passwords. -/
theorem twoServers_unobservable :
    buildChecks Http.plainHost (twoServers "secret" "other") =
        .ok (directories "secret" "other").checks ∧
      buildChecks Http.plainHost (twoServers "changed" "too") =
        .ok (directories "changed" "too").checks ∧
      ∃ as s s', (directories "secret" "other").Serves as s ∧
        (directories "changed" "too").Serves as s' ∧
          s'.cache = s.cache ∧ (∃ answer, answerOf s'.cache 1 = some answer) ∧
            (s.events 0).map Event.request = oneSession "secret" ∧
            List.Forall₂ (SameCall SameProbe) s.log s'.log := by
  have hbuild := directories_built "secret" "other"
  have hbuild' := directories_built "changed" "too"
  obtain ⟨ahead, response, hsteps⟩ := exists_acceptedSession_steps
  obtain ⟨as, s, hserves, hanswer, -, hevents⟩ := exists_shared _ hsteps
  have hsame : SameButPasswords (twoServers "secret" "other") (twoServers "changed" "too") := rfl
  obtain ⟨s', hserves', hcache, hlog⟩ :=
    passwords_unobservable Http.plainHost hsame hbuild hbuild' hserves
  rw [← hcache] at hanswer
  refine ⟨hbuild, hbuild', as, s, s', hserves, hserves', hcache, ⟨_, hanswer⟩, ?_, hlog⟩
  rw [hevents, acceptedSession_requests]

end AxumHealth

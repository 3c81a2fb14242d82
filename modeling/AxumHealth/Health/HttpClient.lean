import AxumHealth.Collections.Graph
import AxumHealth.Config
import AxumHealth.Text

/-!
# The shared HTTP client

`build_client` and `url_host` of `src/health/http.rs`: the `resolve` settings of
all checks are folded into one map of the client's DNS resolver, keyed by the
hostname of the check's URL.

`Url::parse` followed by `host_str` is the parameter `parseUrl`: the text of the
error, or the hostname if the URL has one.
-/

namespace AxumHealth

open Std Collections

namespace Http

/-- The panics of `build_client`. -/
inductive Panic
  /-- `invalid health check url {url:?}: {err}` -/
  | invalidUrl (url err : String)
  /-- `health check url {url:?} has no hostname` -/
  | noHostname (url : String)
  /-- `conflicting resolve overrides for HTTP hostname {host:?}` -/
  | conflictingResolve (host previous resolve : String)
  deriving DecidableEq, Repr

structure OverrideResolver where
  overrides : ExtTreeMap String String

namespace OverrideResolver

/-- The name or IP that is looked up for a hostname. -/
def target (self : OverrideResolver) (host : String) : String :=
  self.overrides[host]?.getD host

def isOverride (self : OverrideResolver) (host : String) : Bool := self.overrides.contains host

theorem target_of_some {self : OverrideResolver} {host resolve : String}
    (h : self.overrides[host]? = some resolve) : self.target host = resolve := by
  rw [target, h]
  rfl

theorem isOverride_iff {self : OverrideResolver} {host : String} :
    self.isOverride host = true ↔ ∃ resolve, self.overrides[host]? = some resolve := by
  rw [isOverride, ExtTreeMap.contains_eq_isSome_getElem?, Option.isSome_iff_exists]

theorem isOverride_of_none {self : OverrideResolver} {host : String}
    (h : self.overrides[host]? = none) : self.isOverride host = false := by
  rw [isOverride, ExtTreeMap.contains_eq_isSome_getElem?, h]
  rfl

end OverrideResolver

/-- `reqwest::Client`, as `build_client` configures it. -/
structure Client where
  timeout : Duration
  dnsResolver : OverrideResolver

variable (parseUrl : String → Except String (Option String))

def urlHost (url : String) : Except Panic String :=
  match parseUrl url with
  | .error err => .error (.invalidUrl url err)
  | .ok none => .error (.noHostname url)
  | .ok (some host) => .ok host

/-- Compare the override with the one stored for the hostname, or store it. -/
def enterOverride (overrides : ExtTreeMap String String) (host resolve : String) :
    Except Panic (ExtTreeMap String String) :=
  match overrides[host]? with
  | some previous =>
    if previous = resolve then .ok overrides
    else .error (.conflictingResolve host previous resolve)
  | none => .ok (overrides.insert host resolve)

/-- The body of the loop over the checks. -/
def addOverride (overrides : ExtTreeMap String String) (check : HttpCheckConfig) :
    Except Panic (ExtTreeMap String String) :=
  match check.resolve with
  | none => .ok overrides
  | some resolve => (urlHost parseUrl check.url).bind fun host =>
      enterOverride overrides host resolve

def overridesOf (config : List HttpCheckConfig) : Except Panic (ExtTreeMap String String) :=
  config.foldlM (addOverride parseUrl) ∅

def buildClient (config : List HttpCheckConfig) (timeout : Duration) : Except Panic Client := do
  let overrides ← overridesOf parseUrl config
  return { timeout, dnsResolver := { overrides } }

/-! ## What the loop computes -/

theorem urlHost_eq_ok_iff {url host : String} :
    urlHost parseUrl url = .ok host ↔ parseUrl url = .ok (some host) := by
  unfold urlHost
  cases parseUrl url with
  | error err => simp
  | ok found => cases found <;> simp

/-- A check with an override needs a hostname to key it by. -/
def Keyed (check : HttpCheckConfig) : Prop :=
  check.resolve.isSome → ∃ host, parseUrl check.url = .ok (some host)

/-- The pair a check asks to be entered, if any. -/
def demands (check : HttpCheckConfig) : Set (String × String) :=
  {p | parseUrl check.url = .ok (some p.1) ∧ check.resolve = some p.2}

/-- Two checks disagree on the override of one hostname. -/
def Conflict (c d : HttpCheckConfig) : Prop :=
  ∃ host r s, parseUrl c.url = .ok (some host) ∧ parseUrl d.url = .ok (some host) ∧
    c.resolve = some r ∧ d.resolve = some s ∧ r ≠ s

theorem demands_of_resolve_eq_none {check : HttpCheckConfig} (h : check.resolve = none) :
    demands parseUrl check = ∅ := by
  ext p
  simp [demands, h]

theorem demands_eq_singleton {check : HttpCheckConfig} {host resolve : String}
    (hhost : parseUrl check.url = .ok (some host)) (hresolve : check.resolve = some resolve) :
    demands parseUrl check = {(host, resolve)} := by
  ext ⟨host', resolve'⟩
  simp [demands, hhost, hresolve, eq_comm]

theorem graph_enterOverride {overrides overrides' : ExtTreeMap String String}
    {host resolve : String} (h : enterOverride overrides host resolve = .ok overrides') :
    graph overrides' = insert (host, resolve) (graph overrides) := by
  cases hprev : overrides[host]? with
  | none =>
    simp only [enterOverride, hprev] at h
    cases h
    exact graph_insert hprev resolve
  | some previous =>
    simp only [enterOverride, hprev] at h
    by_cases heq : previous = resolve
    · rw [if_pos heq] at h
      cases h
      rw [heq] at hprev
      exact (Set.insert_eq_of_mem (mem_graph.mpr hprev)).symm
    · rw [if_neg heq] at h
      cases h

theorem enterOverride_total {overrides : ExtTreeMap String String} {host resolve : String}
    (h : ∀ previous, overrides[host]? = some previous → previous = resolve) :
    ∃ overrides', enterOverride overrides host resolve = .ok overrides' := by
  unfold enterOverride
  cases hprev : overrides[host]? with
  | none => exact ⟨_, rfl⟩
  | some previous => exact ⟨overrides, if_pos (h previous hprev)⟩

theorem addOverride_none {overrides : ExtTreeMap String String} {check : HttpCheckConfig}
    (h : check.resolve = none) : addOverride parseUrl overrides check = .ok overrides := by
  rw [addOverride, h]

theorem addOverride_some {overrides : ExtTreeMap String String} {check : HttpCheckConfig}
    {resolve : String} (h : check.resolve = some resolve) :
    addOverride parseUrl overrides check =
      (urlHost parseUrl check.url).bind fun host => enterOverride overrides host resolve := by
  rw [addOverride, h]

theorem addOverride_enters : Enters (addOverride parseUrl) (Keyed parseUrl) (demands parseUrl) := by
  constructor
  · intro overrides check overrides' h
    cases hresolve : check.resolve with
    | none =>
      rw [addOverride_none parseUrl hresolve] at h
      cases h
      rw [demands_of_resolve_eq_none parseUrl hresolve, Set.empty_union]
      exact ⟨fun hsome => by simp [hresolve] at hsome, rfl⟩
    | some resolve =>
      rw [addOverride_some parseUrl hresolve] at h
      cases hurl : urlHost parseUrl check.url with
      | error panic =>
        rw [hurl] at h
        cases h
      | ok host =>
        have hhost := (urlHost_eq_ok_iff parseUrl).mp hurl
        rw [hurl] at h
        rw [demands_eq_singleton parseUrl hhost hresolve, Set.singleton_union]
        exact ⟨fun _ => ⟨host, hhost⟩, graph_enterOverride h⟩
  · intro overrides check hkeyed hfun
    cases hresolve : check.resolve with
    | none => exact ⟨overrides, addOverride_none parseUrl hresolve⟩
    | some resolve =>
      obtain ⟨host, hhost⟩ := hkeyed (by simp [hresolve])
      rw [demands_eq_singleton parseUrl hhost hresolve] at hfun
      rw [addOverride_some parseUrl hresolve, (urlHost_eq_ok_iff parseUrl).mpr hhost]
      exact enterOverride_total fun previous hprev =>
        hfun host previous resolve (.inr hprev) (.inl rfl)

/-! ## Acceptance and the map -/

theorem functional_demands_iff {config : List HttpCheckConfig} :
    Functional (allPairs (demands parseUrl) config) ↔
      ∀ c ∈ config, ∀ d ∈ config, ¬ Conflict parseUrl c d := by
  constructor
  · intro hfun c hc d hd hconflict
    obtain ⟨host, r, s, hch, hdh, hcr, hds, hne⟩ := hconflict
    exact hne (hfun host r s ⟨c, hc, hch, hcr⟩ ⟨d, hd, hdh, hds⟩)
  · intro hno host r s hr hs
    obtain ⟨c, hc, hch, hcr⟩ := hr
    obtain ⟨d, hd, hdh, hds⟩ := hs
    by_contra hne
    exact hno c hc d hd ⟨host, r, s, hch, hdh, hcr, hds, hne⟩

theorem overridesOf_accepts_iff (config : List HttpCheckConfig) :
    (∃ overrides, overridesOf parseUrl config = .ok overrides) ↔
      (∀ c ∈ config, Keyed parseUrl c) ∧ ∀ c ∈ config, ∀ d ∈ config, ¬ Conflict parseUrl c d := by
  rw [overridesOf, (addOverride_enters parseUrl).exists_foldlM_iff, functional_demands_iff]

theorem overrides_eq_some_iff {config : List HttpCheckConfig}
    {overrides : ExtTreeMap String String} (h : overridesOf parseUrl config = .ok overrides)
    (host resolve : String) :
    overrides[host]? = some resolve ↔
      ∃ c ∈ config, parseUrl c.url = .ok (some host) ∧ c.resolve = some resolve := by
  have hgraph := ((addOverride_enters parseUrl).foldlM_ok h).2
  rw [graph_empty, Set.union_empty] at hgraph
  exact Set.ext_iff.mp hgraph (host, resolve)

/-- Insert a check that adds no demand: one that is there already, or one
without an override. -/
theorem overridesOf_insert {front back : List HttpCheckConfig} {c : HttpCheckConfig}
    (h : c ∈ front ++ back ∨ c.resolve = none) :
    (overridesOf parseUrl (front ++ c :: back)).toOption =
      (overridesOf parseUrl (front ++ back)).toOption := by
  have hkeyed : c.resolve = none → Keyed parseUrl c := by
    intro hnone hsome
    simp [hnone] at hsome
  apply (addOverride_enters parseUrl).foldlM_toOption_congr
  · constructor
    · intro hall d hd
      exact hall d (by simp only [List.mem_append, List.mem_cons] at *; tauto)
    · intro hall d hd
      rcases List.mem_append.mp hd with hd | hd
      · exact hall d (List.mem_append_left _ hd)
      rcases List.mem_cons.mp hd with heq | hd
      · subst heq
        exact h.elim (hall d) hkeyed
      · exact hall d (List.mem_append_right _ hd)
  · ext p
    constructor
    · intro hp
      obtain ⟨d, hd, hdp⟩ := hp
      rcases List.mem_append.mp hd with hd | hd
      · exact ⟨d, List.mem_append_left _ hd, hdp⟩
      rcases List.mem_cons.mp hd with heq | hd
      · subst heq
        rcases h with hmem | hnone
        · exact ⟨d, hmem, hdp⟩
        · rw [demands_of_resolve_eq_none parseUrl hnone] at hdp
          exact absurd hdp (Set.notMem_empty p)
      · exact ⟨d, List.mem_append_right _ hd, hdp⟩
    · intro hp
      obtain ⟨d, hd, hdp⟩ := hp
      exact ⟨d, by simp only [List.mem_append, List.mem_cons] at *; tauto, hdp⟩

theorem overridesOf_perm {config config' : List HttpCheckConfig} (h : config.Perm config') :
    (overridesOf parseUrl config).toOption = (overridesOf parseUrl config').toOption := by
  apply (addOverride_enters parseUrl).foldlM_toOption_congr
  · simp only [h.mem_iff]
  · simp only [allPairs, h.mem_iff]

/-- The loop panics exactly on an override without a hostname or on two that
disagree, otherwise its map holds exactly the overrides of the checks, and the
outcome does not depend on the order, on repeated checks, or on checks without an
override. -/
theorem overridesOf_spec (config : List HttpCheckConfig) :
    ((∃ panic, overridesOf parseUrl config = .error panic) ↔
        (∃ c ∈ config, c.resolve.isSome ∧ ∀ host, parseUrl c.url ≠ .ok (some host)) ∨
          ∃ c ∈ config, ∃ d ∈ config, Conflict parseUrl c d) ∧
      (∀ overrides, overridesOf parseUrl config = .ok overrides → ∀ host resolve,
        overrides[host]? = some resolve ↔
          ∃ c ∈ config, parseUrl c.url = .ok (some host) ∧ c.resolve = some resolve) ∧
      (∀ config', config.Perm config' →
        (overridesOf parseUrl config).toOption = (overridesOf parseUrl config').toOption) ∧
      ∀ front back c, config = front ++ back → c ∈ config ∨ c.resolve = none →
        (overridesOf parseUrl (front ++ c :: back)).toOption =
          (overridesOf parseUrl config).toOption := by
  refine ⟨?_, fun _ h => overrides_eq_some_iff parseUrl h, fun _ => overridesOf_perm parseUrl, ?_⟩
  · have hpanics : (∃ panic, overridesOf parseUrl config = .error panic) ↔
        ¬ ∃ overrides, overridesOf parseUrl config = .ok overrides := by
      cases overridesOf parseUrl config <;> simp
    rw [hpanics, overridesOf_accepts_iff, not_and_or]
    apply or_congr
    · simp only [Keyed, not_forall, exists_prop, not_exists, ne_eq]
    · simp only [not_forall, not_not, exists_prop]
  · intro front back c hconfig h
    rw [hconfig] at h ⊢
    exact overridesOf_insert parseUrl h

/-- The hostname of a plain `http://` URL without port or credentials. -/
def plainHost (url : String) : Except String (Option String) :=
  match Text.stripPrefix url "http://" with
  | some rest => .ok (some (String.ofList (rest.toList.takeWhile (· != '/'))))
  | none => .error "relative URL without a base"

/-- A check with an override and a URL without a scheme. -/
def relativeUrl : HttpCheckConfig := { url := "internal.invalid/", resolve := some "127.0.0.1" }

theorem relativeUrl_panics : ∃ panic, overridesOf plainHost [relativeUrl] = .error panic ∧
    panic = .invalidUrl "internal.invalid/" "relative URL without a base" := by
  have hrelative : ∀ host, plainHost relativeUrl.url ≠ .ok (some host) := nofun
  obtain ⟨panic, hpanic⟩ := (overridesOf_spec plainHost [relativeUrl]).1.mpr
    (.inl ⟨relativeUrl, List.mem_singleton_self relativeUrl, rfl, hrelative⟩)
  refine ⟨panic, hpanic, ?_⟩
  cases hpanic
  rfl

/-! ## Isolation -/

/-- The resolver looks up for the hostname of every check what that check asks
for. -/
def Isolated (client : Client) (config : List HttpCheckConfig) : Prop :=
  ∀ c ∈ config, ∀ host, parseUrl c.url = .ok (some host) →
    client.dnsResolver.target host = c.resolve.getD host

theorem buildClient_overrides {config : List HttpCheckConfig} {timeout : Duration}
    {client : Client} (h : buildClient parseUrl config timeout = .ok client) :
    overridesOf parseUrl config = .ok client.dnsResolver.overrides := by
  unfold buildClient at h
  cases hmap : overridesOf parseUrl config with
  | error panic =>
    rw [hmap] at h
    cases h
  | ok overrides =>
    rw [hmap] at h
    cases h
    rfl

theorem target_of_some {client : Client} {config : List HttpCheckConfig} {timeout : Duration}
    (h : buildClient parseUrl config timeout = .ok client) {c : HttpCheckConfig} (hc : c ∈ config)
    {host resolve : String} (hhost : parseUrl c.url = .ok (some host))
    (hresolve : c.resolve = some resolve) : client.dnsResolver.target host = resolve := by
  have hmap := overrides_eq_some_iff parseUrl (buildClient_overrides parseUrl h) host resolve
  exact OverrideResolver.target_of_some (hmap.mpr ⟨c, hc, hhost, hresolve⟩)

/-- A client isolates its checks exactly when no check without an override shares
its hostname with one that redirects it. -/
theorem isolated_iff {config : List HttpCheckConfig} {timeout : Duration} {client : Client}
    (h : buildClient parseUrl config timeout = .ok client) :
    Isolated parseUrl client config ↔
      ∀ c ∈ config, ∀ d ∈ config, ∀ host resolve, parseUrl c.url = .ok (some host) →
        parseUrl d.url = .ok (some host) → c.resolve = some resolve → d.resolve = none →
          resolve = host := by
  constructor
  · intro hisolated c hc d hd host resolve hch hdh hcr hdr
    have hown := hisolated d hd host hdh
    rw [target_of_some parseUrl h hc hch hcr, hdr] at hown
    exact hown
  · intro hshared d hd host hdh
    cases hdr : d.resolve with
    | some resolve => exact target_of_some parseUrl h hd hdh hdr
    | none =>
      rw [OverrideResolver.target]
      cases hmap : client.dnsResolver.overrides[host]? with
      | none => rfl
      | some resolve =>
        obtain ⟨c, hc, hch, hcr⟩ :=
          (overrides_eq_some_iff parseUrl (buildClient_overrides parseUrl h) host resolve).mp hmap
        exact hshared c hc d hd host resolve hch hdh hcr hdr

/-- Two checks of one host, the first of them redirected. -/
def sharedHost : List HttpCheckConfig :=
  [{ url := "http://internal.invalid/first", resolve := some "127.0.0.1" },
    { url := "http://internal.invalid/second", resolve := none }]

/-- The two checks are accepted, and the second one is redirected as well. -/
theorem sharedHost_not_isolated :
    ∃ client, buildClient plainHost sharedHost ⟨5⟩ = .ok client ∧
      plainHost "http://internal.invalid/second" = .ok (some "internal.invalid") ∧
      client.dnsResolver.target "internal.invalid" = "127.0.0.1" ∧
      ¬ Isolated plainHost client sharedHost := by
  refine ⟨{ timeout := ⟨5⟩
            dnsResolver := ⟨ExtTreeMap.ofList [("internal.invalid", "127.0.0.1")]⟩ },
    rfl, rfl, rfl, ?_⟩
  intro h
  have hown := h _ (List.mem_cons_of_mem _ List.mem_cons_self) "internal.invalid" rfl
  exact absurd hown (by decide)

/-- Two checks of two hosts, one of them redirected. -/
def ownHosts : List HttpCheckConfig :=
  [{ url := "http://internal.invalid/", resolve := some "127.0.0.1" },
    { url := "http://other.invalid/", resolve := none }]

theorem ownHosts_isolated :
    Isolated plainHost
      { timeout := ⟨5⟩, dnsResolver := ⟨ExtTreeMap.ofList [("internal.invalid", "127.0.0.1")]⟩ }
      ownHosts := by
  have hmap : buildClient plainHost ownHosts ⟨5⟩ = .ok
      { timeout := ⟨5⟩
        dnsResolver := ⟨ExtTreeMap.ofList [("internal.invalid", "127.0.0.1")]⟩ } := rfl
  apply (isolated_iff plainHost hmap).mpr
  intro c hc d hd host resolve hch hdh hcr hdr
  have hne : plainHost "http://internal.invalid/" ≠ plainHost "http://other.invalid/" := by decide
  simp only [ownHosts, List.mem_cons, List.not_mem_nil, or_false] at hc hd
  rcases hc with rfl | rfl
  · rcases hd with rfl | rfl
    · cases hdr
    · exact absurd (hch.trans hdh.symm) hne
  · cases hcr

end Http

end AxumHealth

import AxumHealth.Health.Report
import AxumHealth.Health.ResolverRuns
import AxumHealth.Net.IpAddrText
import AxumHealth.Server

/-!
# Addresses that go out and come in

The DNS check writes the addresses it finds as texts, and the HTTP check takes a text as
the `resolve` of a target.  Since the text of an address is read back, a monitor gets the
addresses of the lookups out of a body, and a target that is given the text of an address
is reached at that address and at no other.
-/

namespace AxumHealth

open Std Concurrency Collections

/-! ## Out -/

namespace Dns

/-- The addresses that the texts of an entry stand for. -/
def DnsCheck.ips (check : DnsCheck) : Option (List IpAddr) :=
  check.addresses.bind fun texts => texts.mapM IpAddr.parse

theorem dnsEntry_ips_of_up {host : String} {answer : Except String (List SocketAddr)}
    (h : (dnsEntry host answer).status = .up) :
    ∃ lookup, answer = .ok lookup ∧
      (dnsEntry host answer).ips = some (lookup.map SocketAddr.ip) := by
  obtain ⟨lookup, rfl, hne⟩ := (dnsEntry_up_iff host answer).mp h
  have haddresses : (dnsEntry host (.ok lookup)).addresses =
      some ((lookup.map SocketAddr.ip).map IpAddr.toText) := by
    cases lookup with
    | nil => exact absurd rfl hne
    | cons addr lookup => simp [dnsEntry]
  refine ⟨lookup, rfl, ?_⟩
  rw [DnsCheck.ips, haddresses, Option.bind_some]
  exact Json.Value.mapM_map_eq_some fun ip _ => IpAddr.parse_toText ip

theorem dnsEntry_ips_of_down {host : String} {answer : Except String (List SocketAddr)}
    (h : (dnsEntry host answer).status = .down) : (dnsEntry host answer).ips = none := by
  cases answer with
  | error err => rfl
  | ok lookup =>
    cases lookup with
    | nil => rfl
    | cons addr lookup =>
      rw [(dnsEntry_up_iff host _).mpr ⟨_, rfl, List.cons_ne_nil _ _⟩] at h
      cases h

end Dns

/-- In the body of an aggregation each configured host has its entry.  The place of a host
has one lookup.  An entry is UP just when that lookup found an address, and then it lists
exactly the addresses found, in their order; an entry that is DOWN lists none. -/
theorem addresses_read {parseUrl : String → Except String (Option String)} {health : HealthConfig}
    {checks : HealthChecks} (hbuild : buildChecks parseUrl health = .ok checks)
    {hosts : List DnsCheckConfig} (hdns : health.checks.dns = some hosts) (o : World) :
    ∃ (k : Nat) (check : HealthCheck), checks.toList[k]? = some ("dns", check) ∧
      ∃ report findings status entries,
        Report.ofText (healthBody ((aggregateResponse checks).value o)) = some report ∧
          report.components = some findings ∧
          { name := "dns", status, details := .dns entries } ∈ findings ∧
          entries.length = hosts.length ∧
          ∀ (i : Nat) host, hosts[i]? = some host → ∃ entry answer,
            entries[i]? = some entry ∧ entry.host = host.host ∧
              eventsAt [k, i] ((aggregateResponse checks).log o) =
                [⟨[k, i], .lookupHost host.host, answer⟩] ∧
              (entry.status = .up ↔ ∃ lookup, answer = .ok lookup ∧ lookup ≠ []) ∧
              (entry.status = .up → ∃ lookup, answer = .ok lookup ∧
                entry.ips = some (lookup.map SocketAddr.ip)) ∧
              (entry.status = .down → entry.ips = none) := by
  obtain ⟨k, hk⟩ := exists_position ((buildChecks_ok hbuild).dns hosts hdns)
  have hfinding : (findings checks o)[k]? = some
      { name := "dns", status := ((HealthCheck.dns (.new hosts)).details (o.part k)).status,
        details := (HealthCheck.dns (.new hosts)).details (o.part k) } := by
    rw [findings, List.getElem?_mapIdx, hk]
    rfl
  refine ⟨k, _, hk, _, _, _, _, ofText_healthBody checks o, rfl, List.mem_of_getElem? hfinding,
    ?_, ?_⟩
  · simp [Dns.DnsHealthCheck.new]
  · intro i host hi
    have htarget : (Dns.DnsHealthCheck.new hosts).hosts[i]? = some host.host := by
      simp [Dns.DnsHealthCheck.new, hi]
    refine ⟨Dns.dnsEntry host.host (((o.part k).part i).head (.lookupHost host.host)),
      ((o.part k).part i).head (.lookupHost host.host), ?_, ?_, ?_, ?_, ?_, ?_⟩
    · rw [List.getElem?_mapIdx, htarget]
      rfl
    · exact Dns.dnsEntry_host _ _
    · rw [eventsAt_aggregateResponse_log hk]
      show (eventsAt [i] ((joinedComponent Dns.checkHost _ _ _).log _)).map _ = _
      rw [eventsAt_joinedComponent_log htarget]
      rfl
    · exact Dns.dnsEntry_up_iff _ _
    · exact Dns.dnsEntry_ips_of_up
    · exact Dns.dnsEntry_ips_of_down

def loopback : List SocketAddr :=
  [{ ip := .v6 #v[0, 0, 0, 0, 0, 0, 0, 1], port := 0 }, { ip := .v4 #v[127, 0, 0, 1], port := 0 }]

/-- The outside where every host has these two addresses and nothing else answers. -/
def loopbackOnly : World
  | _, _, .lookupHost _ => .ok loopback
  | place, n, q => offline place n q

theorem oneHost_read : ∃ checks, buildChecks Http.plainHost oneHost = .ok checks ∧
    ∃ report findings status entries,
      Report.ofText (healthBody ((aggregateResponse checks).value loopbackOnly)) = some report ∧
        report.components = some findings ∧
        { name := "dns", status, details := .dns entries } ∈ findings ∧
        ∃ entry, entries[0]? = some entry ∧ entry.host = "localhost" ∧ entry.status = .up ∧
          entry.ips = some (loopback.map SocketAddr.ip) := by
  refine ⟨_, rfl, ?_⟩
  obtain ⟨k, check, hk, report, findings, status, entries, hread, hfindings, hmem, -, hentries⟩ :=
    @addresses_read Http.plainHost oneHost _ rfl _ rfl loopbackOnly
  obtain ⟨entry, answer, hentry, hhost, hasked, hiff, hup, -⟩ := hentries 0 _ rfl
  have hanswer : answer = .ok loopback := by
    match k, hk with
    | 0, hk =>
      cases hasked
      rfl
    | 1, hk =>
      have hname : "ping" = "dns" := congrArg Prod.fst (Option.some.inj hk)
      exact absurd hname (by decide)
    | n + 2, hk => cases hk
  have hstatus : entry.status = .up := hiff.mpr ⟨loopback, hanswer, List.cons_ne_nil _ _⟩
  obtain ⟨lookup, hlookup, hips⟩ := hup hstatus
  obtain rfl := Except.ok.inj (hanswer.symm.trans hlookup)
  exact ⟨report, findings, status, entries, hread, hfindings, hmem, entry, hentry, hhost, hstatus,
    hips⟩

/-! ## In -/

namespace Http

section Pinned

variable {r : OverrideResolver} {host : String} {ip : IpAddr}

/-- A call for a host whose target is an address has looked nothing up, and it does not
fail. -/
theorem Ran.of_address (hparse : IpAddr.parse (r.target host) = some ip) {i : Nat}
    {log : List Event} {phase : Phase} (h : Ran r i host log phase) :
    (∀ j target, .lookup j target ∉ log) ∧ phase ≠ .lookingUp ∧
      (∀ addresses, phase = .writing addresses → addresses = [{ ip, port := 0 }]) ∧
      ∀ e, phase ≠ .finished (.error e) := by
  have hobtained : ∀ {log : List Event} {addresses : Addrs}, Obtained r i host log addresses →
      log = missed r i host ∧ addresses = [{ ip, port := 0 }] := by
    intro log addresses hobtained
    cases hobtained with
    | ip hip =>
      obtain rfl := Option.some.inj (hparse.symm.trans hip)
      exact ⟨rfl, rfl⟩
    | lookup hnone answer =>
      rw [hparse] at hnone
      cases hnone
  induction h with
  | created => simp
  | hit ho addresses => simp
  | lookingUp hnone => simp [hparse] at hnone
  | failed hnone err e => simp [hparse] at hnone
  | empty hempty e =>
    have hnil := (hobtained hempty).2
    cases hnil
  | writing hlist hne ho =>
    obtain ⟨rfl, rfl⟩ := hobtained hlist
    simp [mem_missed]
  | direct hlist hne ho =>
    obtain ⟨rfl, rfl⟩ := hobtained hlist
    simp [mem_missed]
  | wrote hlist hne ho =>
    obtain ⟨rfl, rfl⟩ := hobtained hlist
    simp [mem_missed]
  | dropped hran hp ih =>
    refine ⟨ih.1, ?_⟩
    simp

theorem Origin.of_address {target : String} (hparse : IpAddr.parse target = some ip)
    {log : List Event} {addresses : Addrs} (h : Origin target log addresses) :
    addresses = [{ ip, port := 0 }] := by
  obtain ⟨-, -, ⟨ip', hip, rfl⟩ | ⟨hnone, -⟩⟩ := h
  · rw [Option.some.inj (hparse.symm.trans hip)]
  · rw [hparse] at hnone
    cases hnone

/-- Such a call finishes without an answer from outside. -/
theorem Coherent.finishes {s : State} (hs : Coherent r s) (ho : r.isOverride host = true)
    (hparse : IpAddr.parse (r.target host) = some ip) {i : Nat} {phase : Phase}
    (hc : s.calls[i]? = some ⟨host, phase⟩) (hphase : phase.isDone = false) :
    ∃ bs t, bs.Sublist [.enter i, .write i] ∧ exec (step r) s bs = some t ∧
      t.calls[i]? = some ⟨host, .finished (.ok [{ ip, port := 0 }])⟩ := by
  have hwrite : ∀ {s : State}, s.calls[i]? = some ⟨host, .writing [{ ip, port := 0 }]⟩ →
      ∃ t, step r s (.write i) = some t ∧
        t.calls[i]? = some ⟨host, .finished (.ok [{ ip, port := 0 }])⟩ := by
    intro s hc
    have hlen := (List.getElem?_eq_some_iff.mp hc).1
    refine ⟨_, by simp only [step, hc]; rfl, ?_⟩
    simp only [State.advance, List.getElem?_set_self hlen]
  have hran := hs.ran i _ hc
  obtain ⟨-, hlooking, hwriting, -⟩ := hran.of_address hparse
  cases phase with
  | created =>
    have hlen := (List.getElem?_eq_some_iff.mp hc).1
    cases hentry : s.cache[host]? with
    | some addresses =>
      obtain rfl := (hs.entry_origin hentry).2.of_address hparse
      have henter : step r s (.enter i) = some (s.advance i ⟨host, .created⟩
          (.finished (.ok [{ ip, port := 0 }])) [.read i host (some [{ ip, port := 0 }])]) := by
        simp [step, hc, enter, ho, hentry]
      refine ⟨[.enter i], _, by simp, exec_cons.mpr ⟨_, henter, rfl⟩, ?_⟩
      simp only [State.advance, List.getElem?_set_self hlen]
    | none =>
      have hafter : afterRead r host = .writing [{ ip, port := 0 }] := by
        simp [afterRead, hparse, settle, ho]
      obtain ⟨t, ht, hfinished⟩ := hwrite (s := s.advance i ⟨host, .created⟩
        (.writing [{ ip, port := 0 }]) (lookupEvents r i host ++ [.read i host none]))
        (by simp only [State.advance, List.getElem?_set_self hlen])
      have henter : step r s (.enter i) = some (s.advance i ⟨host, .created⟩
          (.writing [{ ip, port := 0 }]) (lookupEvents r i host ++ [.read i host none])) := by
        simp [step, hc, enter, ho, hentry, hafter]
      exact ⟨[.enter i, .write i], t, List.Sublist.refl _,
        exec_cons.mpr ⟨_, henter, exec_cons.mpr ⟨t, ht, rfl⟩⟩, hfinished⟩
  | lookingUp => exact absurd rfl hlooking
  | writing addresses =>
    obtain rfl := hwriting addresses rfl
    obtain ⟨t, ht, hfinished⟩ := hwrite hc
    exact ⟨[.write i], t, by simp, exec_cons.mpr ⟨t, ht, rfl⟩, hfinished⟩
  | finished result => cases hphase
  | dropped => cases hphase

end Pinned

/-- A hostname whose target is given an address as its `resolve` is resolved to that
address, whatever the calls do and in whichever order they do it: it is never looked up,
no call for it fails, and each one finishes without an answer from outside. -/
theorem address_pinned {parseUrl : String → Except String (Option String)}
    {config : List HttpCheckConfig} {timeout : Duration} {client : Client}
    (hclient : buildClient parseUrl config timeout = .ok client) {check : HttpCheckConfig}
    (hcheck : check ∈ config) {host : String} (hhost : parseUrl check.url = .ok (some host))
    {text : String} (hresolve : check.resolve = some text) {ip : IpAddr}
    (htext : IpAddr.parse text = some ip) {as : List Action} {s : State}
    (h : exec (step client.dnsResolver) .init as = some s) :
    (∀ addresses, s.cache[host]? = some addresses → addresses = [{ ip, port := 0 }]) ∧
      ∀ (i : Nat) phase, s.calls[i]? = some ⟨host, phase⟩ →
        (∀ target, .lookup i target ∉ s.log) ∧
          (∀ result, phase = .finished result → result = .ok [{ ip, port := 0 }]) ∧
          (phase.isDone = false → ∃ bs t, bs.Sublist [.enter i, .write i] ∧
            exec (step client.dnsResolver) s bs = some t ∧
              t.calls[i]? = some ⟨host, .finished (.ok [{ ip, port := 0 }])⟩) := by
  have hs := coherent_reached h
  have hentry : client.dnsResolver.overrides[host]? = some text :=
    (overrides_eq_some_iff parseUrl (buildClient_overrides parseUrl hclient) host _).mpr
      ⟨check, hcheck, hhost, hresolve⟩
  have ho := OverrideResolver.isOverride_iff.mpr ⟨text, hentry⟩
  have hparse : IpAddr.parse (client.dnsResolver.target host) = some ip := by
    rw [OverrideResolver.target_of_some hentry, htext]
  refine ⟨fun addresses haddresses => (hs.entry_origin haddresses).2.of_address hparse, ?_⟩
  intro i phase hc
  have hran := hs.ran i _ hc
  obtain ⟨hlookup, -, -, herror⟩ := hran.of_address hparse
  refine ⟨?_, ?_, hs.finishes ho hparse hc⟩
  · intro target hmem
    exact hlookup i target (mem_history.mpr ⟨hmem, rfl⟩)
  · intro result hphase
    cases result with
    | ok addresses => rw [(hs.result_origin hc hphase).of_address hparse]
    | error e => exact absurd hphase (herror e)

/-- A target that is reached at one address. -/
def oneAddress : List HttpCheckConfig :=
  [{ url := "http://internal.invalid/", resolve := some "127.0.0.1" }]

/-- Two calls read the cache before one of them writes it, and the other is dropped. -/
def racing : List Action :=
  [.invoke "internal.invalid", .invoke "internal.invalid", .enter 0, .enter 1, .write 1, .drop 0]

theorem racing_pinned : ∃ client s, buildClient plainHost oneAddress ⟨5⟩ = .ok client ∧
    exec (step client.dnsResolver) .init racing = some s ∧
    s.cache["internal.invalid"]? = some [{ ip := .v4 #v[127, 0, 0, 1], port := 0 }] ∧
    ∀ target, .lookup 1 target ∉ s.log := by
  have hparse : IpAddr.parse "127.0.0.1" = some (.v4 #v[127, 0, 0, 1]) :=
    IpAddr.parse_toText (.v4 #v[127, 0, 0, 1])
  refine ⟨_, _, rfl, rfl, rfl, ?_⟩
  exact ((@address_pinned plainHost oneAddress ⟨5⟩ _ rfl _ List.mem_cons_self "internal.invalid" rfl
    "127.0.0.1" rfl (.v4 #v[127, 0, 0, 1]) hparse racing _ rfl).2 1 _ rfl).1

end Http

end AxumHealth

import AxumHealth.Concurrency.Exec
import AxumHealth.Health.HttpClient
import AxumHealth.Net.IpAddr

/-!
# Concurrent resolutions

`OverrideResolver::resolve` of `src/health/http.rs`.  The `async` block of a call
is a state machine with one state for each of its awaits, and the calls share the
cache.  A step of the system takes one call from its await to the next one, so a
run is any interleaving of any number of calls.  The answers of `lookup_host` are
part of the actions: each lookup can be answered with anything.

The log records what the calls did to the outside and to the cache, newest first.
No step reads it.
-/

namespace AxumHealth

open Std Concurrency

namespace Http

/-- The errors of `resolve`. -/
inductive ResolveError
  /-- `failed to resolve HTTP check override {target:?} for {host:?}: {err}` -/
  | overrideFailed (target host err : String)
  /-- `failed to resolve HTTP host {host:?}: {err}` -/
  | hostFailed (host err : String)
  /-- `DNS lookup for {target:?} returned no addresses` -/
  | noAddresses (target : String)
  deriving DecidableEq, Repr

abbrev Addrs : Type := List SocketAddr

/-- Where a call is: before its first await, at one of them, or past the last. -/
inductive Phase
  | created
  | lookingUp
  | writing (addresses : Addrs)
  | finished (result : Except ResolveError Addrs)
  | dropped

def Phase.isDone : Phase → Bool
  | .finished _ => true
  | .dropped => true
  | _ => false

/-- At an await with the write of the cache still ahead. -/
def Phase.mayWrite : Phase → Bool
  | .lookingUp => true
  | .writing _ => true
  | _ => false

theorem Phase.not_done_of_mayWrite {phase : Phase} (h : phase.mayWrite = true) :
    phase.isDone = false := by
  cases phase <;> first | rfl | cases h

structure Call where
  host : String
  phase : Phase

inductive Event
  /-- Call `call` read the entry of `host`. -/
  | read (call : Nat) (host : String) (found : Option Addrs)
  /-- Call `call` started `lookup_host((target, 0))`. -/
  | lookup (call : Nat) (target : String)
  /-- The lookup of `call` was answered. -/
  | lookedUp (call : Nat) (target : String) (answer : Except String Addrs)
  /-- Call `call` wrote the entry of `host`. -/
  | write (call : Nat) (host : String) (addresses : Addrs)

def Event.call : Event → Nat
  | .read i _ _ => i
  | .lookup i _ => i
  | .lookedUp i _ _ => i
  | .write i _ _ => i

structure State where
  cache : ExtTreeMap String Addrs
  calls : List Call
  log : List Event

def State.init : State := { cache := ∅, calls := [], log := [] }

inductive Action
  /-- `resolve(host)`; the future it returns has not been polled yet. -/
  | invoke (host : String)
  /-- The first await of the call: the cache is read if the host is overridden. -/
  | enter (call : Nat)
  | answer (call : Nat) (answer : Except String Addrs)
  | write (call : Nat)
  /-- The future is dropped before it has finished. -/
  | drop (call : Nat)

variable (r : OverrideResolver)

/-! ## One call -/

def withoutPort (address : SocketAddr) : SocketAddr := { address with port := 0 }

/-- From the list of addresses to the next await. -/
def settle (host : String) (addresses : Addrs) : Phase :=
  if addresses.isEmpty then .finished (.error (.noAddresses (r.target host)))
  else if r.isOverride host then .writing addresses
  else .finished (.ok addresses)

/-- Past the cache: an IP address is its own answer, anything else is looked
up. -/
def afterRead (host : String) : Phase :=
  match IpAddr.parse (r.target host) with
  | some ip => settle r host [{ ip, port := 0 }]
  | none => .lookingUp

def afterLookup (host : String) : Except String Addrs → Phase
  | .error err =>
    .finished (.error (if r.isOverride host then .overrideFailed (r.target host) host err
      else .hostFailed host err))
  | .ok addresses => settle r host (addresses.map withoutPort)

/-- The lookup started past the cache, if any. -/
def lookupEvents (i : Nat) (host : String) : List Event :=
  match IpAddr.parse (r.target host) with
  | some _ => []
  | none => [.lookup i (r.target host)]

def enter (cache : ExtTreeMap String Addrs) (i : Nat) (host : String) : Phase × List Event :=
  if r.isOverride host then
    match cache[host]? with
    | some addresses => (.finished (.ok addresses), [.read i host (some addresses)])
    | none => (afterRead r host, lookupEvents r i host ++ [.read i host none])
  else (afterRead r host, lookupEvents r i host)

/-! ## The system -/

/-- Move a call to its next phase and log what it did. -/
def State.advance (s : State) (i : Nat) (c : Call) (phase : Phase) (events : List Event) : State :=
  { s with calls := s.calls.set i { c with phase }, log := events ++ s.log }

def step (s : State) : Action → Option State
  | .invoke host => some { s with calls := s.calls ++ [{ host, phase := .created }] }
  | .enter i =>
    match s.calls[i]? with
    | some c =>
      match c.phase with
      | .created =>
        let (phase, events) := enter r s.cache i c.host
        some (s.advance i c phase events)
      | _ => none
    | none => none
  | .answer i answer =>
    match s.calls[i]? with
    | some c =>
      match c.phase with
      | .lookingUp =>
        some (s.advance i c (afterLookup r c.host answer)
          [.lookedUp i (r.target c.host) answer])
      | _ => none
    | none => none
  | .write i =>
    match s.calls[i]? with
    | some c =>
      match c.phase with
      | .writing addresses =>
        let t := s.advance i c (.finished (.ok addresses)) [.write i c.host addresses]
        some { t with cache := s.cache.insert c.host addresses }
      | _ => none
    | none => none
  | .drop i =>
    match s.calls[i]? with
    | some c => if c.phase.isDone then none else some (s.advance i c .dropped [])
    | none => none

/-! ## What a step can do -/

/-- The step of one call, from a phase to a phase with the events it logs. -/
inductive Moves (cache : ExtTreeMap String Addrs) (i : Nat) (host : String) :
    Phase → List Event → Phase → Prop
  | hit {addresses : Addrs} (ho : r.isOverride host = true) (hc : cache[host]? = some addresses) :
      Moves cache i host .created [.read i host (some addresses)] (.finished (.ok addresses))
  | miss (ho : r.isOverride host = true) (hc : cache[host]? = none) :
      Moves cache i host .created (lookupEvents r i host ++ [.read i host none]) (afterRead r host)
  | bypass (ho : r.isOverride host = false) :
      Moves cache i host .created (lookupEvents r i host) (afterRead r host)
  | answer (answer : Except String Addrs) :
      Moves cache i host .lookingUp [.lookedUp i (r.target host) answer] (afterLookup r host answer)
  | write (addresses : Addrs) :
      Moves cache i host (.writing addresses) [.write i host addresses] (.finished (.ok addresses))
  | drop {phase : Phase} (hp : phase.isDone = false) : Moves cache i host phase [] .dropped

/-- The value of the entry of a host, from the writes in the log. -/
def entry (host : String) : List Event → Option Addrs
  | [] => none
  | .write _ host' addresses :: older => if host' = host then some addresses else entry host older
  | .read _ _ _ :: older => entry host older
  | .lookup _ _ :: older => entry host older
  | .lookedUp _ _ _ :: older => entry host older

theorem entry_append (host : String) (newer older : List Event) :
    entry host (newer ++ older) = (entry host newer).or (entry host older) := by
  induction newer with
  | nil => rfl
  | cons e newer ih =>
    cases e with
    | write i host' addresses =>
      by_cases h : host' = host
      · simp [entry, h]
      · simp [entry, h, ih]
    | _ => simpa [entry] using ih

theorem entry_eq_some {host : String} {log : List Event} {addresses : Addrs}
    (h : entry host log = some addresses) : ∃ i, .write i host addresses ∈ log := by
  induction log with
  | nil => cases h
  | cons e log ih =>
    have htail : entry host log = some addresses → ∃ i, .write i host addresses ∈ e :: log := by
      intro hlog
      obtain ⟨i, hi⟩ := ih hlog
      exact ⟨i, List.mem_cons_of_mem e hi⟩
    cases e with
    | write i host' addresses' =>
      by_cases heq : host' = host
      · subst heq
        simp only [entry, if_true, Option.some.injEq] at h
        exact ⟨i, by simp [h]⟩
      · simp only [entry, if_neg heq] at h
        exact htail h
    | _ => exact htail h

theorem entry_isSome_of_write {host : String} {log : List Event} {i : Nat} {addresses : Addrs}
    (h : .write i host addresses ∈ log) : ∃ found, entry host log = some found := by
  obtain ⟨newer, older, rfl⟩ := List.append_of_mem h
  rw [entry_append]
  cases hnewer : entry host newer with
  | some found => exact ⟨found, rfl⟩
  | none => exact ⟨addresses, by simp [entry]⟩

theorem enter_moves {cache : ExtTreeMap String Addrs} (i : Nat) (host : String) :
    Moves r cache i host .created (enter r cache i host).2 (enter r cache i host).1 := by
  unfold enter
  by_cases ho : r.isOverride host = true
  · rw [if_pos ho]
    cases hc : cache[host]? with
    | some addresses => exact .hit ho hc
    | none => exact .miss ho hc
  · rw [if_neg ho]
    exact .bypass (Bool.eq_false_of_not_eq_true ho)

theorem entry_lookupEvents (i : Nat) (host host' : String) :
    entry host' (lookupEvents r i host) = none := by
  unfold lookupEvents
  cases IpAddr.parse (r.target host) <;> rfl

theorem entry_enter {cache : ExtTreeMap String Addrs} (i : Nat) (host host' : String) :
    entry host' (enter r cache i host).2 = none := by
  unfold enter
  by_cases ho : r.isOverride host = true
  · rw [if_pos ho]
    cases cache[host]? with
    | some addresses => rfl
    | none =>
      show entry host' (lookupEvents r i host ++ [.read i host none]) = none
      rw [entry_append, entry_lookupEvents]
      rfl
  · rw [if_neg ho]
    exact entry_lookupEvents r i host host'

/-- A step is a new call, or the move of one call; the cache is left alone but for
the entries the move writes. -/
theorem step_cases {s t : State} {a : Action} (h : step r s a = some t) :
    (∃ host, a = .invoke host ∧ t = { s with calls := s.calls ++ [⟨host, .created⟩] }) ∨
      ∃ i c events phase, s.calls[i]? = some c ∧ Moves r s.cache i c.host c.phase events phase ∧
        t.calls = s.calls.set i { c with phase } ∧ t.log = events ++ s.log ∧
        ∀ host, t.cache[host]? = (entry host events).or s.cache[host]? := by
  cases a with
  | invoke host =>
    left
    cases h
    exact ⟨host, rfl, rfl⟩
  | enter i =>
    right
    cases hc : s.calls[i]? with
    | none => simp [step, hc] at h
    | some c =>
      cases hphase : c.phase with
      | created =>
        simp only [step, hc, hphase, Option.some.injEq] at h
        subst h
        refine ⟨i, c, _, _, hc, hphase ▸ enter_moves r i c.host, rfl, rfl, ?_⟩
        intro host
        rw [entry_enter]
        rfl
      | _ => simp [step, hc, hphase] at h
  | answer i answer =>
    right
    cases hc : s.calls[i]? with
    | none => simp [step, hc] at h
    | some c =>
      cases hphase : c.phase with
      | lookingUp =>
        simp only [step, hc, hphase, Option.some.injEq] at h
        subst h
        exact ⟨i, c, _, _, hc, hphase ▸ .answer answer, rfl, rfl, fun _ => rfl⟩
      | _ => simp [step, hc, hphase] at h
  | write i =>
    right
    cases hc : s.calls[i]? with
    | none => simp [step, hc] at h
    | some c =>
      cases hphase : c.phase with
      | writing addresses =>
        simp only [step, hc, hphase, Option.some.injEq] at h
        subst h
        refine ⟨i, c, _, _, hc, hphase ▸ .write addresses, rfl, rfl, ?_⟩
        intro host
        rw [ExtTreeMap.getElem?_insert]
        by_cases heq : c.host = host <;> simp [entry, heq]
      | _ => simp [step, hc, hphase] at h
  | drop i =>
    right
    cases hc : s.calls[i]? with
    | none => simp [step, hc] at h
    | some c =>
      cases hphase : c.phase.isDone with
      | true => simp [step, hc, hphase] at h
      | false =>
        simp [step, hc, hphase] at h
        subst h
        exact ⟨i, c, _, _, hc, .drop hphase, rfl, rfl, fun _ => rfl⟩

/-! ## What one call has done

`Ran` pairs the events a call has logged, newest first, with the phase it is in.
It says nothing about the other calls: what a call does depends on them only
through the value its read finds. -/

/-- The read of a call that went past the cache. -/
def missed (i : Nat) (host : String) : List Event :=
  if r.isOverride host then [.read i host none] else []

/-- The events by which a call came by a list of addresses of its own. -/
inductive Obtained (i : Nat) (host : String) : List Event → Addrs → Prop
  | ip {ip : IpAddr} (h : IpAddr.parse (r.target host) = some ip) :
      Obtained i host (missed r i host) [{ ip, port := 0 }]
  | lookup (h : IpAddr.parse (r.target host) = none) (answer : Addrs) :
      Obtained i host
        (.lookedUp i (r.target host) (.ok answer) :: .lookup i (r.target host) :: missed r i host)
        (answer.map withoutPort)

inductive Ran (i : Nat) (host : String) : List Event → Phase → Prop
  | created : Ran i host [] .created
  | hit (ho : r.isOverride host = true) (addresses : Addrs) :
      Ran i host [.read i host (some addresses)] (.finished (.ok addresses))
  | lookingUp (h : IpAddr.parse (r.target host) = none) :
      Ran i host (.lookup i (r.target host) :: missed r i host) .lookingUp
  | failed (h : IpAddr.parse (r.target host) = none) (err : String) (e : ResolveError) :
      Ran i host
        (.lookedUp i (r.target host) (.error err) :: .lookup i (r.target host) :: missed r i host)
        (.finished (.error e))
  | empty {log : List Event} (h : Obtained r i host log []) (e : ResolveError) :
      Ran i host log (.finished (.error e))
  | writing {log : List Event} {addresses : Addrs} (h : Obtained r i host log addresses)
      (hne : addresses ≠ []) (ho : r.isOverride host = true) :
      Ran i host log (.writing addresses)
  | direct {log : List Event} {addresses : Addrs} (h : Obtained r i host log addresses)
      (hne : addresses ≠ []) (ho : r.isOverride host = false) :
      Ran i host log (.finished (.ok addresses))
  | wrote {log : List Event} {addresses : Addrs} (h : Obtained r i host log addresses)
      (hne : addresses ≠ []) (ho : r.isOverride host = true) :
      Ran i host (.write i host addresses :: log) (.finished (.ok addresses))
  | dropped {log : List Event} {phase : Phase} (h : Ran i host log phase)
      (hp : phase.isDone = false) : Ran i host log .dropped

variable {r} {i : Nat} {host : String} {log : List Event} {phase : Phase}

theorem Obtained.ran_settle {addresses : Addrs} (h : Obtained r i host log addresses) :
    Ran r i host log (settle r host addresses) := by
  unfold settle
  by_cases hempty : addresses.isEmpty = true
  · rw [if_pos hempty]
    rw [List.isEmpty_iff.mp hempty] at h
    exact .empty h _
  · rw [if_neg hempty]
    have hne : addresses ≠ [] := fun heq => hempty (List.isEmpty_iff.mpr heq)
    by_cases ho : r.isOverride host = true
    · rw [if_pos ho]
      exact .writing h hne ho
    · rw [if_neg ho]
      exact .direct h hne (Bool.eq_false_of_not_eq_true ho)

theorem ran_afterRead :
    Ran r i host (lookupEvents r i host ++ missed r i host) (afterRead r host) := by
  unfold lookupEvents afterRead
  cases h : IpAddr.parse (r.target host) with
  | some ip => exact (Obtained.ip h).ran_settle
  | none => exact .lookingUp h

theorem ran_afterLookup (h : IpAddr.parse (r.target host) = none) (answer : Except String Addrs) :
    Ran r i host
      (.lookedUp i (r.target host) answer :: .lookup i (r.target host) :: missed r i host)
      (afterLookup r host answer) := by
  cases answer with
  | error err => exact .failed h err _
  | ok addresses => exact (Obtained.lookup h addresses).ran_settle

/-- Each move of a call extends what it has done. -/
theorem Ran.move {cache : ExtTreeMap String Addrs} {events : List Event} {phase' : Phase}
    (h : Ran r i host log phase) (hmove : Moves r cache i host phase events phase') :
    Ran r i host (events ++ log) phase' := by
  cases hmove with
  | hit ho hc =>
    cases h
    exact .hit ho _
  | miss ho hc =>
    cases h
    have hrun : Ran r i host (lookupEvents r i host ++ missed r i host) (afterRead r host) :=
      ran_afterRead
    rw [missed, if_pos ho] at hrun
    rwa [List.append_nil]
  | bypass ho =>
    cases h
    have hrun : Ran r i host (lookupEvents r i host ++ missed r i host) (afterRead r host) :=
      ran_afterRead
    rw [missed, if_neg (Bool.eq_false_iff.mp ho)] at hrun
    exact hrun
  | answer answer =>
    cases h with
    | lookingUp hparse => exact ran_afterLookup hparse answer
  | write addresses =>
    cases h with
    | writing hobtained hne ho => exact .wrote hobtained hne ho
  | drop hp => exact .dropped h hp

/-! ## What follows from the events -/

/-- The lookup failed, or it found nothing. -/
def Failing (answer : Except String Addrs) : Prop := ∀ a as, answer ≠ .ok (a :: as)

theorem failing_error (err : String) : Failing (.error err) := by
  intro a as h
  cases h

theorem failing_nil : Failing (.ok []) := by
  intro a as h
  cases h

/-- A list of addresses that stands for a name or an IP: complete, from one source,
and without ports. -/
def Origin (target : String) (log : List Event) (addresses : Addrs) : Prop :=
  addresses ≠ [] ∧ (∀ a ∈ addresses, a.port = 0) ∧
    ((∃ ip, IpAddr.parse target = some ip ∧ addresses = [{ ip, port := 0 }]) ∨
      IpAddr.parse target = none ∧ ∃ i answer, .lookup i target ∈ log ∧
        .lookedUp i target (.ok answer) ∈ log ∧
          addresses = answer.map fun address => { address with port := 0 })

theorem Origin.mono {target : String} {log' : List Event} {addresses : Addrs}
    (h : Origin target log addresses) (hsub : ∀ e ∈ log, e ∈ log') :
    Origin target log' addresses := by
  obtain ⟨hne, hport, hip | ⟨hparse, j, answer, hl, ha, heq⟩⟩ := h
  · exact ⟨hne, hport, .inl hip⟩
  · exact ⟨hne, hport, .inr ⟨hparse, j, answer, hsub _ hl, hsub _ ha, heq⟩⟩

theorem Obtained.origin {addresses : Addrs} (h : Obtained r i host log addresses)
    (hne : addresses ≠ []) : Origin (r.target host) log addresses := by
  cases h with
  | ip hparse => exact ⟨hne, by simp, .inl ⟨_, hparse, rfl⟩⟩
  | lookup hparse answer =>
    refine ⟨hne, ?_, .inr ⟨hparse, i, answer, by simp, by simp, rfl⟩⟩
    intro a ha
    obtain ⟨b, -, rfl⟩ := List.mem_map.mp ha
    rfl

theorem mem_missed {e : Event} :
    e ∈ missed r i host ↔ r.isOverride host = true ∧ e = .read i host none := by
  unfold missed
  by_cases ho : r.isOverride host = true <;> simp [ho]

theorem Obtained.mem_read {addresses : Addrs} {j : Nat} {key : String} {found : Option Addrs}
    (h : Obtained r i host log addresses) (hm : .read j key found ∈ log) :
    key = host ∧ r.isOverride host = true ∧ found = none := by
  cases h with
  | ip _ => simp_all [mem_missed]
  | lookup _ answer => simp_all [mem_missed]

theorem Obtained.not_mem_write {addresses : Addrs} (h : Obtained r i host log addresses)
    (j : Nat) (key : String) (written : Addrs) : .write j key written ∉ log := by
  cases h with
  | ip _ => simp [mem_missed]
  | lookup _ answer => simp [mem_missed]

theorem Obtained.mem_of_isOverride {addresses : Addrs} (h : Obtained r i host log addresses)
    (ho : r.isOverride host = true) : .read i host none ∈ log := by
  cases h with
  | ip _ => simp [mem_missed, ho]
  | lookup _ answer => simp [mem_missed, ho]

theorem Obtained.lookup_mem {addresses : Addrs} (h : Obtained r i host log addresses)
    (hparse : IpAddr.parse (r.target host) = none) : .lookup i (r.target host) ∈ log := by
  cases h with
  | ip hip => simp [hparse] at hip
  | lookup _ answer => simp

theorem Obtained.mem_lookup {addresses : Addrs} {j : Nat} {target : String}
    (h : Obtained r i host log addresses) (hm : .lookup j target ∈ log) :
    target = r.target host := by
  cases h with
  | ip _ => simp [mem_missed] at hm
  | lookup _ answer =>
    simp only [List.mem_cons, reduceCtorEq, Event.lookup.injEq, mem_missed, and_false, or_false,
      false_or] at hm
    exact hm.2

theorem Obtained.mem_lookedUp {addresses : Addrs} {j : Nat} {target : String}
    {answer : Except String Addrs} (h : Obtained r i host log addresses)
    (hm : .lookedUp j target answer ∈ log) :
    target = r.target host ∧ ∃ found, answer = .ok found ∧ addresses = found.map withoutPort := by
  cases h with
  | ip _ => simp [mem_missed] at hm
  | lookup _ found =>
    simp only [List.mem_cons, Event.lookedUp.injEq, reduceCtorEq, mem_missed, and_false,
      or_false] at hm
    exact ⟨hm.2.1, found, hm.2.2, rfl⟩

/-- A read is of the call's own host, and a call that found the entry has done
nothing else. -/
theorem Ran.mem_read {j : Nat} {key : String} {found : Option Addrs}
    (h : Ran r i host log phase) (hm : .read j key found ∈ log) :
    key = host ∧ r.isOverride host = true ∧ ∀ addresses, found = some addresses →
      phase = .finished (.ok addresses) ∧ ∀ e ∈ log, e = .read i host found := by
  induction h with
  | created => cases hm
  | hit ho addresses => simp_all
  | lookingUp _ => simp_all [mem_missed]
  | failed _ err e => simp_all [mem_missed]
  | empty hobtained e =>
    obtain ⟨hkey, ho, hnone⟩ := hobtained.mem_read hm
    exact ⟨hkey, ho, fun _ hsome => by simp [hnone] at hsome⟩
  | writing hobtained hne ho =>
    obtain ⟨hkey, ho, hnone⟩ := hobtained.mem_read hm
    exact ⟨hkey, ho, fun _ hsome => by simp [hnone] at hsome⟩
  | direct hobtained hne ho =>
    obtain ⟨hkey, ho, hnone⟩ := hobtained.mem_read hm
    exact ⟨hkey, ho, fun _ hsome => by simp [hnone] at hsome⟩
  | wrote hobtained hne ho =>
    obtain ⟨hkey, ho, hnone⟩ := hobtained.mem_read (by simpa using hm)
    exact ⟨hkey, ho, fun _ hsome => by simp [hnone] at hsome⟩
  | dropped _ hp ih =>
    obtain ⟨hkey, ho, hfound⟩ := ih hm
    refine ⟨hkey, ho, fun addresses hsome => ?_⟩
    rw [(hfound addresses hsome).1] at hp
    cases hp

/-- A call writes only the list it returns, for its own host, and only when its
read found no entry. -/
theorem Ran.mem_write {j : Nat} {key : String} {addresses : Addrs}
    (h : Ran r i host log phase) (hm : .write j key addresses ∈ log) :
    key = host ∧ r.isOverride host = true ∧ phase = .finished (.ok addresses) ∧
      Origin (r.target host) log addresses ∧ .read i host none ∈ log := by
  induction h with
  | created => cases hm
  | hit ho addresses => simp at hm
  | lookingUp _ => simp [mem_missed] at hm
  | failed _ err e => simp [mem_missed] at hm
  | empty hobtained e => exact absurd hm (hobtained.not_mem_write j key addresses)
  | writing hobtained hne ho => exact absurd hm (hobtained.not_mem_write j key addresses)
  | direct hobtained hne ho => exact absurd hm (hobtained.not_mem_write j key addresses)
  | @wrote log written hobtained hne ho =>
    rcases List.mem_cons.mp hm with heq | hm
    · cases heq
      exact ⟨rfl, ho, rfl, (hobtained.origin hne).mono fun e he => List.mem_cons_of_mem _ he,
        List.mem_cons_of_mem _ (hobtained.mem_of_isOverride ho)⟩
    · exact absurd hm (hobtained.not_mem_write j key addresses)
  | dropped _ hp ih =>
    rw [(ih hm).2.2.1] at hp
    cases hp

/-- A call looks up its own target and nothing else. -/
theorem Ran.mem_lookup {j : Nat} {target : String} (h : Ran r i host log phase)
    (hm : .lookup j target ∈ log) : target = r.target host := by
  induction h with
  | created => cases hm
  | hit ho addresses => simp at hm
  | lookingUp _ =>
    simp only [List.mem_cons, Event.lookup.injEq, mem_missed, reduceCtorEq, and_false,
      or_false] at hm
    exact hm.2
  | failed _ err e =>
    simp only [List.mem_cons, reduceCtorEq, Event.lookup.injEq, mem_missed, and_false, or_false,
      false_or] at hm
    exact hm.2
  | empty hobtained e => exact hobtained.mem_lookup hm
  | writing hobtained hne ho => exact hobtained.mem_lookup hm
  | direct hobtained hne ho => exact hobtained.mem_lookup hm
  | wrote hobtained hne ho => exact hobtained.mem_lookup (by simpa using hm)
  | dropped _ hp ih => exact ih hm

/-- A lookup is of the call's own target, and one that fails ends the call with
an error and no write. -/
theorem Ran.mem_lookedUp {j : Nat} {target : String} {answer : Except String Addrs}
    (h : Ran r i host log phase) (hm : .lookedUp j target answer ∈ log) :
    target = r.target host ∧ (Failing answer →
      (∃ e, phase = .finished (.error e)) ∧ ∀ k key written, .write k key written ∉ log) := by
  -- A list of addresses that is used did not come from a failing lookup.
  have hused : ∀ {log addresses}, Obtained r i host log addresses → addresses ≠ [] →
      .lookedUp j target answer ∈ log → target = r.target host ∧ ¬ Failing answer := by
    intro log addresses hobtained hne hm
    obtain ⟨htarget, found, rfl, hmap⟩ := hobtained.mem_lookedUp hm
    refine ⟨htarget, fun hfailing => ?_⟩
    cases found with
    | nil => exact hne hmap
    | cons a as => exact hfailing a as rfl
  induction h with
  | created => cases hm
  | hit ho addresses => simp at hm
  | lookingUp _ => simp [mem_missed] at hm
  | failed _ err e =>
    simp only [List.mem_cons, Event.lookedUp.injEq, reduceCtorEq, mem_missed, and_false,
      or_false] at hm
    exact ⟨hm.2.1, fun _ => ⟨⟨e, rfl⟩, by simp [mem_missed]⟩⟩
  | empty hobtained e =>
    exact ⟨(hobtained.mem_lookedUp hm).1, fun _ => ⟨⟨e, rfl⟩, hobtained.not_mem_write⟩⟩
  | writing hobtained hne ho =>
    obtain ⟨htarget, hnot⟩ := hused hobtained hne hm
    exact ⟨htarget, fun hfailing => absurd hfailing hnot⟩
  | direct hobtained hne ho =>
    obtain ⟨htarget, hnot⟩ := hused hobtained hne hm
    exact ⟨htarget, fun hfailing => absurd hfailing hnot⟩
  | wrote hobtained hne ho =>
    obtain ⟨htarget, hnot⟩ := hused hobtained hne (by simpa using hm)
    exact ⟨htarget, fun hfailing => absurd hfailing hnot⟩
  | dropped _ hp ih =>
    obtain ⟨htarget, hfail⟩ := ih hm
    refine ⟨htarget, fun hfailing => ?_⟩
    obtain ⟨⟨e, he⟩, -⟩ := hfail hfailing
    rw [he] at hp
    cases hp

theorem Ran.lookup_of_missed (h : Ran r i host log phase) (hm : .read i host none ∈ log)
    (hparse : IpAddr.parse (r.target host) = none) : .lookup i (r.target host) ∈ log := by
  induction h with
  | created => cases hm
  | hit ho addresses => simp at hm
  | lookingUp _ => simp
  | failed _ err e => simp
  | empty hobtained e => exact hobtained.lookup_mem hparse
  | writing hobtained hne ho => exact hobtained.lookup_mem hparse
  | direct hobtained hne ho => exact hobtained.lookup_mem hparse
  | wrote hobtained hne ho => exact List.mem_cons_of_mem _ (hobtained.lookup_mem hparse)
  | dropped _ hp ih => exact ih hm

theorem Ran.nothing (h : Ran r i host log .created) : log = [] := by
  cases h
  rfl

theorem Ran.isOverride {addresses : Addrs} (h : Ran r i host log (.writing addresses)) :
    r.isOverride host = true := by
  cases h with
  | writing _ _ ho => exact ho

/-- A result is the entry the call found, or comes from its own sources. -/
theorem Ran.ok {addresses : Addrs} (h : Ran r i host log (.finished (.ok addresses))) :
    .read i host (some addresses) ∈ log ∨ Origin (r.target host) log addresses := by
  cases h with
  | hit ho => exact .inl (by simp)
  | direct hobtained hne ho => exact .inr (hobtained.origin hne)
  | wrote hobtained hne ho =>
    exact .inr ((hobtained.origin hne).mono fun e he => List.mem_cons_of_mem _ he)

theorem Ran.error {e : ResolveError} (h : Ran r i host log (.finished (.error e))) :
    ∃ answer, Failing answer ∧ .lookup i (r.target host) ∈ log ∧
      .lookedUp i (r.target host) answer ∈ log := by
  cases h with
  | failed _ err => exact ⟨.error err, failing_error err, by simp, by simp⟩
  | empty hobtained =>
    generalize heq : ([] : Addrs) = addresses at hobtained
    cases hobtained with
    | ip _ => cases heq
    | lookup _ answer =>
      obtain rfl := List.map_eq_nil_iff.mp heq.symm
      exact ⟨.ok [], failing_nil, by simp, by simp⟩

/-- A call that may still write has read no entry, and has not written yet. -/
theorem Ran.pending (h : Ran r i host log phase) (hphase : phase.mayWrite = true) :
    (r.isOverride host = true → .read i host none ∈ log) ∧
      ∀ j key written, .write j key written ∉ log := by
  cases h with
  | lookingUp _ => exact ⟨fun ho => by simp [mem_missed, ho], by simp [mem_missed]⟩
  | writing hobtained _ ho => exact ⟨hobtained.mem_of_isOverride, hobtained.not_mem_write⟩
  | _ => simp [Phase.mayWrite] at hphase

end Http

end AxumHealth

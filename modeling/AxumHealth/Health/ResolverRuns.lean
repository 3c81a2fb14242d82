import AxumHealth.Health.Resolver
import Mathlib.Data.List.Perm.Subperm

/-!
# Runs of the resolver

What holds in every state that any interleaving of resolutions reaches.  Two facts
carry the results: every call has done one of the things `Ran` lists, and the
cache holds for each host what the log says was last written.
-/

namespace AxumHealth

open Std Concurrency

namespace Http

/-- The events of one call. -/
def history (i : Nat) (log : List Event) : List Event := log.filter fun e => e.call = i

/-- Every read found the entry as it was. -/
def ReadsEntry : List Event → Prop
  | [] => True
  | .read _ host found :: older => found = entry host older ∧ ReadsEntry older
  | .lookup _ _ :: older => ReadsEntry older
  | .lookedUp _ _ _ :: older => ReadsEntry older
  | .write _ _ _ :: older => ReadsEntry older

/-- The calls that read the entry of a host before it was first written. -/
def earlyReaders (host : String) : List Event → List Nat
  | [] => []
  | .read i host' _ :: older =>
    if host' = host ∧ entry host older = none then i :: earlyReaders host older
    else earlyReaders host older
  | .lookup _ _ :: older => earlyReaders host older
  | .lookedUp _ _ _ :: older => earlyReaders host older
  | .write _ _ _ :: older => earlyReaders host older

/-- The calls that wrote the entry of a host, once for each write. -/
def writers (host : String) : List Event → List Nat
  | [] => []
  | .write i host' _ :: older =>
    if host' = host then i :: writers host older else writers host older
  | .read _ _ _ :: older => writers host older
  | .lookup _ _ :: older => writers host older
  | .lookedUp _ _ _ :: older => writers host older

structure Coherent (r : OverrideResolver) (s : State) : Prop where
  ran : ∀ i c, s.calls[i]? = some c → Ran r i c.host (history i s.log) c.phase
  scope : ∀ e ∈ s.log, ∃ c, s.calls[e.call]? = some c
  cache : ∀ host, s.cache[host]? = entry host s.log
  reads : ReadsEntry s.log
  readOnce : ∀ host, (earlyReaders host s.log).Nodup
  wroteOnce : ∀ host, (writers host s.log).Nodup

variable {r : OverrideResolver}

/-! ## The log -/

theorem mem_history {i : Nat} {e : Event} {log : List Event} :
    e ∈ history i log ↔ e ∈ log ∧ e.call = i := by
  simp [history]

theorem history_append (i : Nat) (newer older : List Event) :
    history i (newer ++ older) = history i newer ++ history i older :=
  List.filter_append _ _

theorem history_of_call_eq {i : Nat} {events : List Event} (h : ∀ e ∈ events, e.call = i) :
    history i events = events := by
  rw [history, List.filter_eq_self]
  simpa using h

theorem history_of_call_ne {i j : Nat} (hij : i ≠ j) {events : List Event}
    (h : ∀ e ∈ events, e.call = i) : history j events = [] := by
  rw [history, List.filter_eq_nil_iff]
  intro e he
  simpa [h e he] using hij

theorem ReadsEntry.read_eq {newer older : List Event} {i : Nat} {host : String}
    {found : Option Addrs} (h : ReadsEntry (newer ++ .read i host found :: older)) :
    found = entry host older := by
  induction newer with
  | nil => exact h.1
  | cons e newer ih =>
    cases e with
    | read _ _ _ => exact ih h.2
    | _ => exact ih h

theorem mem_writers {host : String} {i : Nat} {log : List Event} :
    i ∈ writers host log ↔ ∃ addresses, .write i host addresses ∈ log := by
  induction log with
  | nil => simp [writers]
  | cons e log ih =>
    cases e with
    | write j host' addresses =>
      by_cases h : host' = host
      · subst h
        simp [writers, ih, exists_or]
      · have hne : ¬ host = host' := fun heq => h heq.symm
        simp [writers, ih, h, hne]
    | _ => simpa [writers] using ih

theorem mem_earlyReaders {host : String} {i : Nat} {log : List Event} (h : ReadsEntry log) :
    i ∈ earlyReaders host log ↔ .read i host none ∈ log := by
  induction log with
  | nil => simp [earlyReaders]
  | cons e log ih =>
    cases e with
    | read j host' found =>
      obtain ⟨hfound, hlog⟩ := h
      by_cases hread : host' = host ∧ entry host log = none
      · obtain ⟨rfl, hnone⟩ := hread
        rw [hnone] at hfound
        simp [earlyReaders, hnone, hfound, ih hlog]
      · have hne : Event.read i host none ≠ .read j host' found := by
          intro heq
          cases heq
          exact hread ⟨rfl, hfound.symm⟩
        simp [earlyReaders, hread, ih hlog, hne]
    | lookup _ _ => simpa [earlyReaders] using ih h
    | lookedUp _ _ _ => simpa [earlyReaders] using ih h
    | write _ _ _ => simpa [earlyReaders] using ih h

/-! ## The events of a move -/

theorem lookupEvents_cases (i : Nat) (host : String) :
    lookupEvents r i host = [] ∨ lookupEvents r i host = [.lookup i (r.target host)] := by
  unfold lookupEvents
  cases IpAddr.parse (r.target host) with
  | some ip => exact .inl rfl
  | none => exact .inr rfl

section Moves

variable {cache : ExtTreeMap String Addrs} {i : Nat} {host : String} {phase phase' : Phase}
  {events : List Event}

theorem Moves.call_eq (h : Moves r cache i host phase events phase') :
    ∀ e ∈ events, e.call = i := by
  cases h with
  | hit ho hc => simp [Event.call]
  | miss ho hc => rcases lookupEvents_cases (r := r) i host with hl | hl <;> simp [hl, Event.call]
  | bypass ho => rcases lookupEvents_cases (r := r) i host with hl | hl <;> simp [hl, Event.call]
  | answer answer => simp [Event.call]
  | write addresses => simp [Event.call]
  | drop hp => simp

theorem Moves.readsEntry (h : Moves r cache i host phase events phase') {log : List Event}
    (hcache : cache[host]? = entry host log) (hlog : ReadsEntry log) :
    ReadsEntry (events ++ log) := by
  cases h with
  | hit ho hc => exact ⟨hc.symm.trans hcache, hlog⟩
  | miss ho hc =>
    have hread : none = entry host log := hc.symm.trans hcache
    rcases lookupEvents_cases (r := r) i host with hl | hl <;> rw [hl] <;> exact ⟨hread, hlog⟩
  | bypass ho => rcases lookupEvents_cases (r := r) i host with hl | hl <;> rw [hl] <;> exact hlog
  | answer answer => exact hlog
  | write addresses => exact hlog
  | drop hp => exact hlog

/-- A call becomes an early reader on its first move. -/
theorem Moves.earlyReaders_eq (h : Moves r cache i host phase events phase') (log : List Event)
    (key : String) :
    earlyReaders key (events ++ log) = earlyReaders key log ∨
      phase = .created ∧ earlyReaders key (events ++ log) = i :: earlyReaders key log := by
  have hread : ∀ found, earlyReaders key (.read i host found :: log) = earlyReaders key log ∨
      earlyReaders key (.read i host found :: log) = i :: earlyReaders key log := by
    intro found
    by_cases hkey : host = key ∧ entry key log = none
    · exact .inr (if_pos hkey)
    · exact .inl (if_neg hkey)
  cases h with
  | hit ho hc => exact (hread _).imp_right fun h => ⟨rfl, h⟩
  | miss ho hc =>
    rcases lookupEvents_cases (r := r) i host with hl | hl <;> rw [hl] <;>
      exact (hread none).imp_right fun h => ⟨rfl, h⟩
  | bypass ho =>
    left
    rcases lookupEvents_cases (r := r) i host with hl | hl <;> rw [hl] <;> rfl
  | answer answer => exact .inl rfl
  | write addresses => exact .inl rfl
  | drop hp => exact .inl rfl

theorem Moves.writers_eq (h : Moves r cache i host phase events phase') (log : List Event)
    (key : String) :
    writers key (events ++ log) = writers key log ∨
      (∃ addresses, phase = .writing addresses) ∧
        writers key (events ++ log) = i :: writers key log := by
  cases h with
  | hit ho hc => exact .inl rfl
  | miss ho hc =>
    left
    rcases lookupEvents_cases (r := r) i host with hl | hl <;> rw [hl] <;> rfl
  | bypass ho =>
    left
    rcases lookupEvents_cases (r := r) i host with hl | hl <;> rw [hl] <;> rfl
  | answer answer => exact .inl rfl
  | write addresses =>
    by_cases hkey : host = key
    · exact .inr ⟨⟨addresses, rfl⟩, if_pos hkey⟩
    · exact .inl (if_neg hkey)
  | drop hp => exact .inl rfl

theorem Moves.not_done (h : Moves r cache i host phase events phase') : phase.isDone = false := by
  cases h with
  | drop hp => exact hp
  | _ => rfl

theorem Moves.entry_of_ne (h : Moves r cache i host phase events phase') {key : String}
    (hkey : host ≠ key) : entry key events = none := by
  cases h with
  | hit ho hc => rfl
  | miss ho hc =>
    rw [entry_append, entry_lookupEvents]
    rfl
  | bypass ho => exact entry_lookupEvents r i host key
  | answer answer => rfl
  | write addresses => simp [entry, hkey]
  | drop hp => rfl

/-- A call that finds the entry does not get to where it could write it. -/
theorem Moves.of_entry (h : Moves r cache i host phase events phase')
    (ho : r.isOverride host = true) {addresses : Addrs} (hc : cache[host]? = some addresses)
    (hphase : phase.mayWrite = false) : entry host events = none ∧ phase'.mayWrite = false := by
  cases h with
  | hit _ _ => exact ⟨rfl, rfl⟩
  | miss _ hmiss =>
    rw [hc] at hmiss
    cases hmiss
  | bypass hbypass =>
    rw [ho] at hbypass
    cases hbypass
  | answer answer => cases hphase
  | write addresses => cases hphase
  | drop hp => exact ⟨rfl, rfl⟩

end Moves

/-! ## The invariant -/

theorem coherent_init : Coherent r State.init where
  ran i c hc := by simp [State.init] at hc
  scope e he := by cases he
  cache host := by simp [State.init, entry]
  reads := trivial
  readOnce host := List.nodup_nil
  wroteOnce host := List.nodup_nil

theorem Coherent.invoke {s : State} (hs : Coherent r s) (host : String) :
    Coherent r { s with calls := s.calls ++ [⟨host, .created⟩] } := by
  refine ⟨?_, ?_, hs.cache, hs.reads, hs.readOnce, hs.wroteOnce⟩
  · intro i c hc
    rcases getElem?_concat_cases hc with hc | ⟨hi, rfl⟩
    · exact hs.ran i c hc
    · -- No event of the log belongs to the new call.
      have hnone : history i s.log = [] := by
        rw [history, List.filter_eq_nil_iff]
        intro e he
        obtain ⟨d, hd⟩ := hs.scope e he
        have hlen := (List.getElem?_eq_some_iff.mp hd).1
        have hne : e.call ≠ i := by omega
        simpa using hne
      rw [hnone]
      exact Ran.created
  · intro e he
    obtain ⟨c, hc⟩ := hs.scope e he
    exact ⟨c, by rw [List.getElem?_append_left (List.getElem?_eq_some_iff.mp hc).1, hc]⟩

/-- A call reads the entry of an overridden host only once, on its first move. -/
theorem Coherent.readOnce_move {s : State} (hs : Coherent r s) {i : Nat} {c : Call}
    {events : List Event} {phase : Phase} (hc : s.calls[i]? = some c)
    (hmove : Moves r s.cache i c.host c.phase events phase) (host : String) :
    (earlyReaders host (events ++ s.log)).Nodup := by
  rcases hmove.earlyReaders_eq s.log host with heq | ⟨hphase, heq⟩
  · rw [heq]
    exact hs.readOnce host
  · rw [heq, List.nodup_cons]
    refine ⟨?_, hs.readOnce host⟩
    rw [mem_earlyReaders hs.reads]
    intro hm
    have hran := hs.ran i c hc
    rw [hphase] at hran
    have hmem : Event.read i host none ∈ history i s.log := mem_history.mpr ⟨hm, rfl⟩
    rw [hran.nothing] at hmem
    cases hmem

theorem Coherent.wroteOnce_move {s : State} (hs : Coherent r s) {i : Nat} {c : Call}
    {events : List Event} {phase : Phase} (hc : s.calls[i]? = some c)
    (hmove : Moves r s.cache i c.host c.phase events phase) (host : String) :
    (writers host (events ++ s.log)).Nodup := by
  rcases hmove.writers_eq s.log host with heq | ⟨⟨written, hphase⟩, heq⟩
  · rw [heq]
    exact hs.wroteOnce host
  · rw [heq, List.nodup_cons]
    refine ⟨?_, hs.wroteOnce host⟩
    rw [mem_writers]
    intro hm
    obtain ⟨addresses, hm⟩ := hm
    have hpending := (hs.ran i c hc).pending (by rw [hphase]; rfl)
    exact hpending.2 i host addresses (mem_history.mpr ⟨hm, rfl⟩)

theorem Coherent.move {s t : State} (hs : Coherent r s) {i : Nat} {c : Call} {events : List Event}
    {phase : Phase} (hc : s.calls[i]? = some c)
    (hmove : Moves r s.cache i c.host c.phase events phase)
    (hcalls : t.calls = s.calls.set i { c with phase }) (hlog : t.log = events ++ s.log)
    (hcache : ∀ host, t.cache[host]? = (entry host events).or s.cache[host]?) : Coherent r t := by
  have hlen := (List.getElem?_eq_some_iff.mp hc).1
  refine ⟨?_, ?_, ?_, ?_, ?_, ?_⟩
  · intro j d hd
    rw [hlog, history_append]
    rw [hcalls] at hd
    rcases getElem?_set_cases hd with ⟨rfl, rfl⟩ | ⟨hij, hd⟩
    · rw [history_of_call_eq hmove.call_eq]
      exact (hs.ran i c hc).move hmove
    · rw [history_of_call_ne hij hmove.call_eq]
      exact hs.ran j d hd
  · intro e he
    rw [hcalls]
    by_cases hi : i = e.call
    · rw [← hi, List.getElem?_set_self hlen]
      exact ⟨_, rfl⟩
    · rw [List.getElem?_set_ne hi]
      rw [hlog] at he
      rcases List.mem_append.mp he with he | he
      · exact absurd (hmove.call_eq e he).symm hi
      · exact hs.scope e he
  · intro host
    rw [hcache, hlog, entry_append, hs.cache]
  · rw [hlog]
    exact hmove.readsEntry (hs.cache c.host) hs.reads
  · intro host
    rw [hlog]
    exact hs.readOnce_move hc hmove host
  · intro host
    rw [hlog]
    exact hs.wroteOnce_move hc hmove host

theorem coherent_step {s t : State} {a : Action} (hs : Coherent r s) (h : step r s a = some t) :
    Coherent r t := by
  rcases step_cases r h with ⟨host, -, rfl⟩ | ⟨i, c, events, phase, hc, hmove, hcalls, hlog, hcache⟩
  · exact hs.invoke host
  · exact hs.move hc hmove hcalls hlog hcache

theorem coherent_exec {s t : State} {as : List Action} (hs : Coherent r s)
    (h : exec (step r) s as = some t) : Coherent r t :=
  exec_invariant (fun _ _ _ hs h => coherent_step hs h) hs h

theorem coherent_reached {s : State} {as : List Action}
    (h : exec (step r) .init as = some s) : Coherent r s :=
  coherent_exec coherent_init h

/-! ## Provenance -/

theorem Coherent.ran_of_mem {s : State} (hs : Coherent r s) {e : Event} (he : e ∈ s.log) :
    ∃ c, s.calls[e.call]? = some c ∧ e ∈ history e.call s.log ∧
      Ran r e.call c.host (history e.call s.log) c.phase := by
  obtain ⟨c, hc⟩ := hs.scope e he
  exact ⟨c, hc, mem_history.mpr ⟨he, rfl⟩, hs.ran _ c hc⟩

theorem Coherent.write_origin {s : State} (hs : Coherent r s) {i : Nat} {host : String}
    {addresses : Addrs} (h : .write i host addresses ∈ s.log) :
    r.isOverride host = true ∧ Origin (r.target host) s.log addresses := by
  obtain ⟨c, -, hm, hran⟩ := hs.ran_of_mem h
  obtain ⟨rfl, ho, -, horigin, -⟩ := hran.mem_write hm
  exact ⟨ho, horigin.mono fun e he => (mem_history.mp he).1⟩

theorem Coherent.entry_origin {s : State} (hs : Coherent r s) {host : String}
    {addresses : Addrs} (h : s.cache[host]? = some addresses) :
    r.isOverride host = true ∧ Origin (r.target host) s.log addresses := by
  rw [hs.cache] at h
  obtain ⟨i, hi⟩ := entry_eq_some h
  exact hs.write_origin hi

/-- A result that a call found in the cache was written by another call before. -/
theorem Coherent.result_origin {s : State} (hs : Coherent r s) {i : Nat} {c : Call}
    {addresses : Addrs} (hc : s.calls[i]? = some c) (hphase : c.phase = .finished (.ok addresses)) :
    Origin (r.target c.host) s.log addresses := by
  have hran := hs.ran i c hc
  rw [hphase] at hran
  rcases hran.ok with hread | horigin
  · obtain ⟨newer, older, hsplit⟩ := List.append_of_mem (mem_history.mp hread).1
    have hreads := hs.reads
    rw [hsplit] at hreads
    obtain ⟨j, hj⟩ := entry_eq_some hreads.read_eq.symm
    have hmem : Event.write j c.host addresses ∈ s.log := by
      rw [hsplit]
      exact List.mem_append_right _ (List.mem_cons_of_mem _ hj)
    exact (hs.write_origin hmem).2
  · exact horigin.mono fun e he => (mem_history.mp he).1

/-- The call an action moves. -/
def Action.call : Action → Option Nat
  | .invoke _ => none
  | .enter i => some i
  | .answer i _ => some i
  | .write i => some i
  | .drop i => some i

/-- The moves of a call for a host that is not overridden do the same whatever is
in the cache, and leave it as it is. -/
theorem Coherent.step_withCache {s : State} (hs : Coherent r s) {i : Nat} {c : Call}
    (hc : s.calls[i]? = some c) (ho : r.isOverride c.host = false) {a : Action}
    (ha : a.call = some i) (cache : ExtTreeMap String Addrs) :
    step r { s with cache } a = (step r s a).map fun t => { t with cache } := by
  cases a with
  | invoke host => cases ha
  | enter j =>
    cases ha
    cases hphase : c.phase with
    | created => simp [step, hc, hphase, enter, ho, State.advance]
    | _ => simp [step, hc, hphase]
  | answer j answer =>
    cases ha
    cases hphase : c.phase with
    | lookingUp => simp [step, hc, hphase, State.advance]
    | _ => simp [step, hc, hphase]
  | write j =>
    cases ha
    cases hphase : c.phase with
    | writing addresses =>
      have hran := hs.ran i c hc
      rw [hphase] at hran
      rw [hran.isOverride] at ho
      cases ho
    | _ => simp [step, hc, hphase]
  | drop j =>
    cases ha
    cases hdone : c.phase.isDone with
    | true => simp [step, hc, hdone]
    | false => simp [step, hc, hdone, State.advance]

theorem afterLookup_failing {answer : Except String Addrs} (h : Failing answer) (host : String) :
    ∃ e, afterLookup r host answer = .finished (.error e) := by
  cases answer with
  | error err => exact ⟨_, rfl⟩
  | ok addresses =>
    cases addresses with
    | nil => exact ⟨_, rfl⟩
    | cons a as => exact absurd rfl (h a as)

theorem step_answer_failing {s t : State} {i : Nat} {answer : Except String Addrs}
    (h : step r s (.answer i answer) = some t) (hfailing : Failing answer) :
    t.cache = s.cache ∧ ∃ host e, t.calls[i]? = some ⟨host, .finished (.error e)⟩ := by
  cases hc : s.calls[i]? with
  | none => simp [step, hc] at h
  | some c =>
    cases hphase : c.phase with
    | lookingUp =>
      simp only [step, hc, hphase, Option.some.injEq] at h
      subst h
      obtain ⟨e, he⟩ := afterLookup_failing (r := r) hfailing c.host
      have hlen := (List.getElem?_eq_some_iff.mp hc).1
      exact ⟨rfl, c.host, e, by simp only [State.advance, he, List.getElem?_set_self hlen]⟩
    | _ => simp [step, hc, hphase] at h

/-- In every state that is reached, the entries of the cache are those of overridden
hosts, and come from the configured address or from one complete lookup of the
configured name; the results of the calls come from their targets in the same way; a
call looks up its target only; one for a host that is not overridden, whose target is
the host, has nothing to do with the cache; and a call whose lookup fails ends with an
error and without a write. -/
theorem resolver_provenance {as : List Action} {s : State}
    (h : exec (step r) .init as = some s) :
    (∀ (host : String) addresses, s.cache[host]? = some addresses →
        ∃ target, r.overrides[host]? = some target ∧ Origin target s.log addresses) ∧
      (∀ (i : Nat) (c : Call) addresses, s.calls[i]? = some c →
        c.phase = .finished (.ok addresses) →
          Origin (r.overrides[c.host]?.getD c.host) s.log addresses) ∧
      (∀ (i : Nat) (c : Call) target, s.calls[i]? = some c → .lookup i target ∈ s.log →
        target = r.overrides[c.host]?.getD c.host) ∧
      (∀ (i : Nat) (c : Call), s.calls[i]? = some c → r.overrides[c.host]? = none →
        (∀ host found, .read i host found ∉ s.log) ∧
          (∀ host addresses, .write i host addresses ∉ s.log) ∧
          ∀ a, a.call = some i → ∀ cache,
            step r { s with cache } a = (step r s a).map fun t => { t with cache }) ∧
      (∀ (i : Nat) (c : Call) target answer, s.calls[i]? = some c →
        .lookedUp i target answer ∈ s.log → Failing answer →
          (∃ e, c.phase = .finished (.error e)) ∧
            ∀ host addresses, .write i host addresses ∉ s.log) ∧
      ∀ i answer t, step r s (.answer i answer) = some t → Failing answer →
        t.cache = s.cache ∧ ∃ host e, t.calls[i]? = some ⟨host, .finished (.error e)⟩ := by
  have hs := coherent_reached h
  refine ⟨?_, fun _ _ _ => hs.result_origin, ?_, ?_, ?_, fun _ _ _ => step_answer_failing⟩
  · intro host addresses hentry
    obtain ⟨ho, horigin⟩ := hs.entry_origin hentry
    obtain ⟨target, htarget⟩ := OverrideResolver.isOverride_iff.mp ho
    rw [OverrideResolver.target_of_some htarget] at horigin
    exact ⟨target, htarget, horigin⟩
  · intro i c target hc hm
    exact (hs.ran i c hc).mem_lookup (mem_history.mpr ⟨hm, rfl⟩)
  · intro i c hc hnone
    have ho := OverrideResolver.isOverride_of_none hnone
    have hran := hs.ran i c hc
    refine ⟨?_, ?_, fun a ha => hs.step_withCache hc ho ha⟩
    · intro host found hm
      have hread := hran.mem_read (mem_history.mpr ⟨hm, rfl⟩)
      rw [ho] at hread
      cases hread.2.1
    · intro host addresses hm
      have hwrite := hran.mem_write (mem_history.mpr ⟨hm, rfl⟩)
      rw [ho] at hwrite
      cases hwrite.2.1
  · intro i c target answer hc hm hfailing
    obtain ⟨hphase, hnone⟩ :=
      ((hs.ran i c hc).mem_lookedUp (mem_history.mpr ⟨hm, rfl⟩)).2 hfailing
    exact ⟨hphase, fun host addresses hw => hnone i host addresses (mem_history.mpr ⟨hw, rfl⟩)⟩

/-- One override, by a hostname. -/
def oneOverride : OverrideResolver :=
  { overrides := ExtTreeMap.ofList [("internal.invalid", "internal.example.net")] }

/-- The address the override is looked up to. -/
def found : SocketAddr := { ip := .v4 #v[10, 0, 0, 5], port := 0 }

/-- Two calls look the override up at once, one with success, and a third call
reads the entry that one wrote. -/
def overlapping : List Action :=
  [.invoke "internal.invalid", .invoke "internal.invalid", .enter 0, .enter 1,
    .answer 0 (.ok [found]), .write 0, .answer 1 (.error "timed out"),
    .invoke "internal.invalid", .enter 2]

theorem overlapping_provenance : ∃ s, exec (step oneOverride) .init overlapping = some s ∧
    s.cache["internal.invalid"]? = some [found] ∧
    Origin "internal.example.net" s.log [found] := by
  refine ⟨_, rfl, rfl, ?_⟩
  obtain ⟨target, htarget, horigin⟩ := (@resolver_provenance oneOverride overlapping _ rfl).1
    "internal.invalid" [found] rfl
  obtain rfl : "internal.example.net" = target := Option.some.inj htarget
  exact horigin

/-! ## Pinning -/

theorem log_mono {s t : State} {as : List Action} (h : exec (step r) s as = some t) :
    ∀ e ∈ s.log, e ∈ t.log := by
  refine exec_invariant (P := fun u => ∀ e ∈ s.log, e ∈ u.log) ?_ (fun e he => he) h
  intro u a v hu hstep e he
  rcases step_cases r hstep with ⟨host, -, rfl⟩ | ⟨i, c, events, phase, -, -, -, hlog, -⟩
  · exact hu e he
  · rw [hlog]
    exact List.mem_append_right _ (hu e he)

/-- A call that is done stays as it is. -/
theorem step_done {s t : State} {a : Action} {i : Nat} {c : Call} (h : step r s a = some t)
    (hc : s.calls[i]? = some c) (hdone : c.phase.isDone = true) : t.calls[i]? = some c := by
  have hlen := (List.getElem?_eq_some_iff.mp hc).1
  rcases step_cases r h with ⟨host, -, rfl⟩ | ⟨j, d, events, phase, hd, hmove, hcalls, -, -⟩
  · rw [List.getElem?_append_left hlen, hc]
  · by_cases hij : j = i
    · subst hij
      rw [hc] at hd
      cases hd
      rw [hmove.not_done] at hdone
      cases hdone
    · rw [hcalls, List.getElem?_set_ne hij, hc]

theorem exec_done {s t : State} {as : List Action} {i : Nat} {c : Call}
    (h : exec (step r) s as = some t) (hc : s.calls[i]? = some c)
    (hdone : c.phase.isDone = true) : t.calls[i]? = some c :=
  exec_invariant (P := fun u => u.calls[i]? = some c)
    (fun _ _ _ hu hstep => step_done hstep hu hdone) hc h

/-- An entry is there once it has been written. -/
theorem Coherent.entry_of_written {s : State} (hs : Coherent r s) {i : Nat} {host : String}
    {written : Addrs} (h : .write i host written ∈ s.log) :
    ∃ addresses, addresses ≠ [] ∧ s.cache[host]? = some addresses := by
  obtain ⟨addresses, hentry⟩ := entry_isSome_of_write h
  rw [← hs.cache] at hentry
  exact ⟨addresses, (hs.entry_origin hentry).2.1, hentry⟩

/-- A call that reads after the entry was written returns it and does nothing
else. -/
theorem enter_hit {s t : State} {i : Nat} {c : Call} {addresses : Addrs}
    (hc : s.calls[i]? = some c) (ho : r.isOverride c.host = true)
    (hentry : s.cache[c.host]? = some addresses) (h : step r s (.enter i) = some t) :
    t.calls[i]? = some ⟨c.host, .finished (.ok addresses)⟩ ∧
      .read i c.host (some addresses) ∈ t.log := by
  have hlen := (List.getElem?_eq_some_iff.mp hc).1
  cases hphase : c.phase with
  | created =>
    simp only [step, hc, hphase, enter, ho, if_true, hentry, Option.some.injEq] at h
    subst h
    exact ⟨by simp only [State.advance, List.getElem?_set_self hlen], by simp [State.advance]⟩
  | _ => simp [step, hc, hphase] at h

/-- Some call for the host may still write its entry. -/
def MayWrite (s : State) (host : String) : Prop :=
  ∃ (i : Nat) (c : Call), s.calls[i]? = some c ∧ c.host = host ∧ c.phase.mayWrite = true

/-- The calls that may still write are early readers that are not done. -/
theorem Coherent.not_mayWrite {s : State} (hs : Coherent r s) {host : String}
    (ho : r.isOverride host = true)
    (hdone : ∀ i ∈ earlyReaders host s.log, ∀ c, s.calls[i]? = some c → c.phase.isDone = true) :
    ¬ MayWrite s host := by
  intro h
  obtain ⟨i, c, hc, rfl, hphase⟩ := h
  have hread := ((hs.ran i c hc).pending hphase).1 ho
  have hearly : i ∈ earlyReaders c.host s.log :=
    (mem_earlyReaders hs.reads).mpr (mem_history.mp hread).1
  have hstop := hdone i hearly c hc
  rw [Phase.not_done_of_mayWrite hphase] at hstop
  cases hstop

/-- With the entry written and no writer left, a step changes nothing for the
host. -/
theorem step_pinned {s t : State} {a : Action} {host : String} {addresses : Addrs}
    (ho : r.isOverride host = true) (h : step r s a = some t)
    (hs : s.cache[host]? = some addresses ∧ ¬ MayWrite s host) :
    t.cache[host]? = some addresses ∧ ¬ MayWrite t host := by
  obtain ⟨hentry, hnone⟩ := hs
  rcases step_cases r h with ⟨key, -, rfl⟩ | ⟨i, c, events, phase, hc, hmove, hcalls, -, hcache⟩
  · refine ⟨hentry, ?_⟩
    intro hmay
    obtain ⟨j, d, hd, hhost, hphase⟩ := hmay
    rcases getElem?_concat_cases hd with hd | ⟨-, rfl⟩
    · exact hnone ⟨j, d, hd, hhost, hphase⟩
    · cases hphase
  · have hkeep : entry host events = none ∧ (c.host = host → phase.mayWrite = false) := by
      by_cases hhost : c.host = host
      · subst hhost
        have hphase : c.phase.mayWrite = false := by
          by_contra hne
          exact hnone ⟨i, c, hc, rfl, Bool.eq_true_of_not_eq_false hne⟩
        obtain ⟨hev, hph⟩ := hmove.of_entry ho hentry hphase
        exact ⟨hev, fun _ => hph⟩
      · exact ⟨hmove.entry_of_ne hhost, fun heq => absurd heq hhost⟩
    refine ⟨by rw [hcache, hkeep.1]; exact hentry, ?_⟩
    intro hmay
    obtain ⟨j, d, hd, hhost, hphase⟩ := hmay
    rw [hcalls] at hd
    rcases getElem?_set_cases hd with ⟨rfl, rfl⟩ | ⟨-, hd⟩
    · rw [hkeep.2 hhost] at hphase
      cases hphase
    · exact hnone ⟨j, d, hd, hhost, hphase⟩

/-- The calls that write read before the first write. -/
theorem Coherent.writer_mem {s : State} (hs : Coherent r s) {i : Nat} {host : String}
    {written : Addrs} (hw : .write i host written ∈ s.log) : i ∈ earlyReaders host s.log := by
  obtain ⟨c, -, hm, hran⟩ := hs.ran_of_mem hw
  obtain ⟨rfl, -, -, -, hread⟩ := hran.mem_write hm
  exact (mem_earlyReaders hs.reads).mpr (mem_history.mp hread).1

theorem Coherent.writers_le {s : State} (hs : Coherent r s) (host : String) :
    (writers host s.log).length ≤ (earlyReaders host s.log).length := by
  have hsub : writers host s.log ⊆ earlyReaders host s.log := by
    intro i hi
    obtain ⟨written, hw⟩ := mem_writers.mp hi
    exact hs.writer_mem hw
  exact ((hs.wroteOnce host).subperm hsub).length_le

/-- However the run goes on, a call that finds the entry has done nothing but
read it. -/
theorem Coherent.late_reader {s t : State} (hs : Coherent r s) {i : Nat} {c : Call}
    {addresses : Addrs} (hc : s.calls[i]? = some c) (ho : r.isOverride c.host = true)
    (hentry : s.cache[c.host]? = some addresses) {bs : List Action}
    (h : exec (step r) s (.enter i :: bs) = some t) :
    t.calls[i]? = some ⟨c.host, .finished (.ok addresses)⟩ ∧
      ∀ e ∈ t.log, e.call = i → e = .read i c.host (some addresses) := by
  obtain ⟨u, hu, hrest⟩ := exec_cons.mp h
  obtain ⟨hcall, hread⟩ := enter_hit hc ho hentry hu
  have hfinal := exec_done hrest hcall rfl
  refine ⟨hfinal, ?_⟩
  intro e he hei
  have hran := (coherent_exec (coherent_step hs hu) hrest).ran i _ hfinal
  have hm : Event.read i c.host (some addresses) ∈ history i t.log :=
    mem_history.mpr ⟨log_mono hrest _ hread, rfl⟩
  exact ((hran.mem_read hm).2.2 addresses rfl).2 e (mem_history.mpr ⟨he, hei⟩)

/-- With the early readers done, the entry never changes again. -/
theorem Coherent.settled {s t : State} (hs : Coherent r s) {host : String}
    {addresses : Addrs} (ho : r.isOverride host = true) (hentry : s.cache[host]? = some addresses)
    (hdone : ∀ i ∈ earlyReaders host s.log, ∀ c, s.calls[i]? = some c → c.phase.isDone = true)
    {bs : List Action} (h : exec (step r) s bs = some t) :
    t.cache[host]? = some addresses := by
  have hpinned := exec_invariant
    (P := fun u => u.cache[host]? = some addresses ∧ ¬ MayWrite u host)
    (fun _ _ _ hu hstep => step_pinned ho hstep hu) ⟨hentry, hs.not_mayWrite ho hdone⟩ h
  exact hpinned.1

/-- Once the entry of an overridden host is written it stays, and every later
reader returns it and does nothing else.  Only the calls that read before the
first write can replace it, each of them at most once, and when they are done it
never changes again.  Each of them does its own lookup, so no failure is
remembered. -/
theorem override_pinned {as : List Action} {s : State} {host target : String}
    (h : exec (step r) .init as = some s) (hoverride : r.overrides[host]? = some target) :
    ((∃ i written, .write i host written ∈ s.log) →
        (∀ bs t, exec (step r) s bs = some t →
          ∃ addresses, addresses ≠ [] ∧ t.cache[host]? = some addresses) ∧
        (∀ (i : Nat) (c : Call), s.calls[i]? = some c → c.host = host →
          ∀ bs t, exec (step r) s (.enter i :: bs) = some t →
            ∃ addresses, s.cache[host]? = some addresses ∧
              t.calls[i]? = some ⟨host, .finished (.ok addresses)⟩ ∧
              ∀ e ∈ t.log, e.call = i → e = .read i host (some addresses)) ∧
        ((∀ i ∈ earlyReaders host s.log, ∀ c, s.calls[i]? = some c → c.phase.isDone = true) →
          ∀ bs t, exec (step r) s bs = some t → t.cache[host]? = s.cache[host]?)) ∧
      (∀ i written, .write i host written ∈ s.log → i ∈ earlyReaders host s.log) ∧
      (earlyReaders host s.log).Nodup ∧
      (writers host s.log).length ≤ (earlyReaders host s.log).length ∧
      (IpAddr.parse target = none → ∀ i ∈ earlyReaders host s.log, .lookup i target ∈ s.log) ∧
      ∀ (i : Nat) (c : Call) (e : ResolveError), s.calls[i]? = some c → c.host = host →
        c.phase = .finished (.error e) →
          ∃ answer, Failing answer ∧ .lookedUp i target answer ∈ s.log := by
  have hs := coherent_reached h
  have ho := OverrideResolver.isOverride_iff.mpr ⟨target, hoverride⟩
  have htarget := OverrideResolver.target_of_some hoverride
  refine ⟨?_, fun i written => hs.writer_mem, hs.readOnce host, hs.writers_le host, ?_, ?_⟩
  · intro hwritten
    obtain ⟨i, written, hw⟩ := hwritten
    obtain ⟨addresses, -, hentry⟩ := hs.entry_of_written hw
    refine ⟨?_, ?_, ?_⟩
    · intro bs t ht
      exact (coherent_exec hs ht).entry_of_written (log_mono ht _ hw)
    · intro j c hc hhost bs t ht
      subst hhost
      exact ⟨addresses, hentry, hs.late_reader hc ho hentry ht⟩
    · intro hdone bs t ht
      rw [hs.settled ho hentry hdone ht, hentry]
  · intro hparse i hi
    have hread := (mem_earlyReaders hs.reads).mp hi
    obtain ⟨c, hc, hm, hran⟩ := hs.ran_of_mem hread
    have hhost := (hran.mem_read hm).1
    subst hhost
    rw [← htarget] at hparse ⊢
    exact (mem_history.mp (hran.lookup_of_missed hm hparse)).1
  · intro i c e hc hhost hphase
    subst hhost
    have hran := hs.ran i c hc
    rw [hphase] at hran
    obtain ⟨answer, hfailing, -, hm⟩ := hran.error
    rw [htarget] at hm
    exact ⟨answer, hfailing, (mem_history.mp hm).1⟩

theorem overlapping_pinned : ∃ s, exec (step oneOverride) .init overlapping = some s ∧
    (writers "internal.invalid" s.log).length ≤ (earlyReaders "internal.invalid" s.log).length ∧
    earlyReaders "internal.invalid" s.log = [1, 0] := by
  refine ⟨_, rfl, ?_, rfl⟩
  exact (@override_pinned oneOverride overlapping _ _ _ rfl rfl).2.2.2.1

end Http

end AxumHealth

import AxumHealth.Concurrency.Future
import Mathlib.Data.List.FinRange

/-!
# The requests of a run

A run of a future answers its requests in some order.  `log` lists them in the
order of the text, the parts of a join one after the other, and `Steps` is a run,
complete or not, with the requests it has answered.  The world answers by place,
so the order of a run only interleaves what happens at different places:
`Steps.eventsAt_log` says that the requests a run has answered at a place, and
those it still has to answer there, are the ones that `log` has at that place.
What is proved about `log`, which follows the text, then holds of every run.
-/

namespace Concurrency

/-- The events at one place, in order. -/
def eventsAt {Req : Type} {Ans : Req → Type} (place : List Nat) (events : List (Event Req Ans)) :
    List (Event Req Ans) := events.filter fun e => e.place = place

section Places

variable {Req : Type} {Ans : Req → Type}

theorem mem_eventsAt {place : List Nat} {events : List (Event Req Ans)} {e : Event Req Ans} :
    e ∈ eventsAt place events ↔ e ∈ events ∧ e.place = place := by
  simp [eventsAt]

theorem eventsAt_append (place : List Nat) (events events' : List (Event Req Ans)) :
    eventsAt place (events ++ events') = eventsAt place events ++ eventsAt place events' :=
  List.filter_append _ _

theorem eventsAt_nil_map_under (i : Nat) (events : List (Event Req Ans)) :
    eventsAt [] (events.map (Event.under i)) = [] := by
  rw [eventsAt, List.filter_eq_nil_iff]
  intro e he
  obtain ⟨e', -, rfl⟩ := List.mem_map.mp he
  simp [Event.under]

/-- Seen from a join, the events of part `i` are those at the places below `i`. -/
theorem eventsAt_cons_map_under (i j : Nat) (place : List Nat) (events : List (Event Req Ans)) :
    eventsAt (j :: place) (events.map (Event.under i)) =
      if i = j then (eventsAt place events).map (Event.under i) else [] := by
  by_cases hij : i = j
  · subst hij
    rw [if_pos rfl, eventsAt, List.filter_map]
    congr 1
    apply List.filter_congr
    intro e _
    simp [Event.under]
  · rw [if_neg hij, eventsAt, List.filter_eq_nil_iff]
    intro e he
    obtain ⟨e', -, rfl⟩ := List.mem_map.mp he
    simp [Event.under, hij]

/-- What is counted of a list, key by key. -/
theorem countP_eq_sum_filter {α κ : Type*} [DecidableEq κ] {n : Nat} {f : Nat → κ}
    (hf : Function.Injective f) {g : α → κ} {P : α → Bool} {as : List α}
    (h : ∀ a ∈ as, P a = true → ∃ i < n, g a = f i) :
    as.countP P = ∑ i ∈ Finset.range n, (as.filter fun a => g a = f i).countP P := by
  induction as with
  | nil => simp
  | cons a as ih =>
    have hhead : ∀ i, ((a :: as).filter fun a => g a = f i).countP P =
        (as.filter fun a => g a = f i).countP P +
          if g a = f i then (if P a then 1 else 0) else 0 := by
      intro i
      by_cases hi : g a = f i
      · rw [List.filter_cons_of_pos (by simpa using hi), List.countP_cons, if_pos hi]
      · rw [List.filter_cons_of_neg (by simpa using hi), if_neg hi, Nat.add_zero]
    have hsum : (∑ i ∈ Finset.range n, if g a = f i then (if P a then 1 else 0) else 0) =
        if P a then 1 else 0 := by
      by_cases ha : P a = true
      · obtain ⟨j, hj, hg⟩ := h a List.mem_cons_self ha
        rw [Finset.sum_eq_single j]
        · rw [if_pos hg]
        · intro i _ hne
          exact if_neg fun heq => hne (hf (heq.symm.trans hg))
        · intro hmem
          exact absurd (Finset.mem_range.mpr hj) hmem
      · simp [ha]
    rw [List.countP_cons, ih fun b hb => h b (List.mem_cons_of_mem a hb),
      Finset.sum_congr rfl fun i _ => hhead i, Finset.sum_add_distrib, hsum]

theorem exists_of_getElem?_map {α β : Type*} {f : α → β} {as : List α} {i : Nat} {b : β}
    (h : (as.map f)[i]? = some b) : ∃ a, as[i]? = some a ∧ f a = b :=
  Option.map_eq_some_iff.mp (List.getElem?_map.symm.trans h)

/-- Only one element of a list without repetitions contributes. -/
theorem flatMap_eq_of_nodup {α β : Type} {as : List α} (has : as.Nodup) {a : α} (ha : a ∈ as)
    (f : α → List β) (h : ∀ b ∈ as, b ≠ a → f b = []) : as.flatMap f = f a := by
  induction as with
  | nil => cases ha
  | cons b rest ih =>
    rw [List.flatMap_cons]
    rw [List.nodup_cons] at has
    have hrest : ∀ c ∈ rest, c ≠ a → f c = [] := fun c hc => h c (List.mem_cons_of_mem _ hc)
    rcases List.mem_cons.mp ha with rfl | ha
    · have hnil : rest.flatMap f = [] := by
        rw [List.flatMap_eq_nil_iff]
        intro c hc
        exact hrest c hc fun heq => has.1 (heq ▸ hc)
      rw [hnil, List.append_nil]
    · have hb : f b = [] := h b List.mem_cons_self fun heq => has.1 (heq ▸ ha)
      rw [hb, List.nil_append, ih has.2 ha hrest]

/-- The events of the parts of a join, one part after the other. -/
def partEvents {n : Nat} (events : Fin n → List (Event Req Ans)) : List (Event Req Ans) :=
  (List.finRange n).flatMap fun i => (events i).map (Event.under i)

theorem mem_partEvents {n : Nat} {events : Fin n → List (Event Req Ans)} {e : Event Req Ans} :
    e ∈ partEvents events ↔ ∃ i, ∃ e' ∈ events i, e = e'.under i := by
  simp only [partEvents, List.mem_flatMap, List.mem_finRange, true_and, List.mem_map, eq_comm]

theorem eventsAt_partEvents_nil {n : Nat} (events : Fin n → List (Event Req Ans)) :
    eventsAt [] (partEvents events) = [] := by
  rw [eventsAt, List.filter_eq_nil_iff]
  intro e he
  obtain ⟨i, e', -, rfl⟩ := mem_partEvents.mp he
  simp [Event.under]

theorem eventsAt_partEvents {n : Nat} (events : Fin n → List (Event Req Ans)) (i : Fin n)
    (place : List Nat) :
    eventsAt (i :: place) (partEvents events) =
      (eventsAt place (events i)).map (Event.under i) := by
  have hflat : eventsAt (i :: place) (partEvents events) =
      (List.finRange n).flatMap fun j => eventsAt (i :: place) ((events j).map (Event.under j)) :=
    List.filter_flatMap
  rw [hflat, flatMap_eq_of_nodup (List.nodup_finRange n) (List.mem_finRange i)]
  · rw [eventsAt_cons_map_under, if_pos rfl]
  · intro j _ hji
    rw [eventsAt_cons_map_under, if_neg fun h => hji (Fin.ext h)]

theorem eventsAt_partEvents_of_le {n : Nat} (events : Fin n → List (Event Req Ans)) {j : Nat}
    (hj : n ≤ j) (place : List Nat) : eventsAt (j :: place) (partEvents events) = [] := by
  rw [eventsAt, List.filter_eq_nil_iff]
  intro e he
  obtain ⟨i, e', -, rfl⟩ := mem_partEvents.mp he
  have hij : i.val ≠ j := by omega
  simp [Event.under, hij]

/-- A ledger of three counts, kept by the events of each item. -/
theorem countP_flatMap_balance {α : Type} {as : List α} {f : α → List (Event Req Ans)}
    {P Q R : Event Req Ans → Bool}
    (h : ∀ a ∈ as, (f a).countP P + (f a).countP Q = (f a).countP R) :
    (as.flatMap f).countP P + (as.flatMap f).countP Q = (as.flatMap f).countP R := by
  induction as with
  | nil => rfl
  | cons a rest ih =>
    have ha := h a List.mem_cons_self
    have hrest := ih fun b hb => h b (List.mem_cons_of_mem _ hb)
    simp only [List.flatMap_cons, List.countP_append]
    omega

end Places

namespace Future

variable {Req : Type} {Ans : Req → Type}

/-! ## The log -/

/-- The requests in the order of the text. -/
def log {α : Type} : Future Req Ans α → Oracle Req Ans → List (Event Req Ans)
  | ready _, _ => []
  | ask q next, o => ⟨[], q, o.head q⟩ :: (next (o.head q)).log o.tail
  | join _ parts next, o =>
    partEvents (fun i => (parts i).log (o.part i)) ++
      (next fun i => (parts i).value (o.part i)).log o.tail

@[simp] theorem log_pure {α : Type} (a : α) (o : Oracle Req Ans) :
    (pure a : Future Req Ans α).log o = [] := rfl

theorem log_bind {α β : Type} (p : Future Req Ans α) (f : α → Future Req Ans β)
    (o : Oracle Req Ans) : (p >>= f).log o = p.log o ++ (f (p.value o)).log (p.run o).2 := by
  induction p generalizing o with
  | ready a => rfl
  | ask q next ih => exact congrArg (List.cons _) (ih _ f _)
  | join n parts next _ ih =>
    show partEvents _ ++ _ = (partEvents _ ++ _) ++ _
    rw [List.append_assoc]
    exact congrArg (_ ++ ·) (ih _ f _)

/-- A continuation that only computes asks nothing. -/
@[simp] theorem log_bind_pure {α β : Type} (p : Future Req Ans α) (f : α → β)
    (o : Oracle Req Ans) : (p >>= fun a => pure (f a)).log o = p.log o := by
  rw [log_bind, log_pure, List.append_nil]

theorem log_request_bind {α : Type} (q : Req) (f : Ans q → Future Req Ans α)
    (o : Oracle Req Ans) :
    (request q >>= f).log o = ⟨[], q, o.head q⟩ :: (f (o.head q)).log o.tail := rfl

theorem log_joinAll {β : Type} (fs : List (Future Req Ans β)) (o : Oracle Req Ans) :
    (joinAll fs).log o = partEvents fun i : Fin fs.length => (fs.get i).log (o.part i) :=
  List.append_nil _

theorem mem_log_joinAll {β : Type} {fs : List (Future Req Ans β)} {o : Oracle Req Ans}
    {e : Event Req Ans} :
    e ∈ (joinAll fs).log o ↔
      ∃ (i : Nat) (f : Future Req Ans β), fs[i]? = some f ∧ ∃ e' ∈ f.log (o.part i),
        e = e'.under i := by
  rw [log_joinAll, mem_partEvents]
  constructor
  · intro h
    obtain ⟨i, h⟩ := h
    exact ⟨i, fs[i], List.getElem?_eq_getElem i.isLt, h⟩
  · intro h
    obtain ⟨i, f, hf, h⟩ := h
    obtain ⟨hi, rfl⟩ := List.getElem?_eq_some_iff.mp hf
    exact ⟨⟨i, hi⟩, h⟩

/-- A ledger of three counts that every part keeps is kept by the join. -/
theorem countP_log_joinAll_balance {β : Type} {fs : List (Future Req Ans β)}
    {o : Oracle Req Ans} {P Q R : Event Req Ans → Bool}
    (hP : ∀ i e, P (e.under i) = P e) (hQ : ∀ i e, Q (e.under i) = Q e)
    (hR : ∀ i e, R (e.under i) = R e)
    (h : ∀ (i : Nat) (f : Future Req Ans β), fs[i]? = some f →
      (f.log (o.part i)).countP P + (f.log (o.part i)).countP Q = (f.log (o.part i)).countP R) :
    ((joinAll fs).log o).countP P + ((joinAll fs).log o).countP Q =
      ((joinAll fs).log o).countP R := by
  have hmap : ∀ (S : Event Req Ans → Bool) (i : Nat) (events : List (Event Req Ans)),
      (∀ i e, S (e.under i) = S e) → (events.map (Event.under i)).countP S = events.countP S := by
    intro S i events hS
    rw [List.countP_map]
    exact List.countP_congr fun e _ => by rw [Function.comp_apply, hS]
  rw [log_joinAll]
  apply countP_flatMap_balance
  intro i _
  rw [hmap P i _ hP, hmap Q i _ hQ, hmap R i _ hR]
  exact h i fs[i] (List.getElem?_eq_getElem i.isLt)

theorem eventsAt_log_joinAll {β : Type} {fs : List (Future Req Ans β)} {i : Nat}
    {f : Future Req Ans β} (hf : fs[i]? = some f) (o : Oracle Req Ans) (place : List Nat) :
    eventsAt (i :: place) ((joinAll fs).log o) =
      (eventsAt place (f.log (o.part i))).map (Event.under i) := by
  obtain ⟨hi, rfl⟩ := List.getElem?_eq_some_iff.mp hf
  rw [log_joinAll]
  exact eventsAt_partEvents _ ⟨i, hi⟩ place

/-- Steps in any order, with the requests that were answered on the way. -/
inductive Steps {α : Type} : Future Req Ans α → Oracle Req Ans → List (Event Req Ans) →
    Future Req Ans α → Oracle Req Ans → Prop
  | refl (p : Future Req Ans α) (o : Oracle Req Ans) : Steps p o [] p o
  | head {p p' p'' : Future Req Ans α} {o o' o'' : Oracle Req Ans} {e : Option (Event Req Ans)}
      {events : List (Event Req Ans)} (h : Step p o e p' o') (rest : Steps p' o' events p'' o'') :
      Steps p o (e.toList ++ events) p'' o''

section Runs

variable {α : Type} {p p' : Future Req Ans α} {o o' : Oracle Req Ans}

/-- A step takes its request out of the log of the place that asked it. -/
theorem Step.eventsAt_log {e : Option (Event Req Ans)} (h : Step p o e p' o')
    (place : List Nat) : eventsAt place (e.toList ++ p'.log o') = eventsAt place (p.log o) := by
  induction h generalizing place with
  | answer q next o => rfl
  | @part α β n parts next o o' e p' i hstep ih =>
    have hval : (fun j : Fin n => (Function.update parts i p' j).value ((o.setPart i o').part j)) =
        fun j => (parts j).value (o.part j) := by
      rw [part_update parts i p' o o' value, hstep.value_eq, Function.update_eq_self]
    have hlog : (fun j : Fin n => (Function.update parts i p' j).log ((o.setPart i o').part j)) =
        Function.update (fun j => (parts j).log (o.part j)) i (p'.log o') :=
      part_update parts i p' o o' log
    have hevent : (e.map (Event.under i)).toList = e.toList.map (Event.under i) := by
      cases e <;> rfl
    simp only [log, hval, hlog, hevent, Oracle.tail_setPart, eventsAt_append]
    rw [← List.append_assoc]
    congr 1
    cases place with
    | nil =>
      rw [eventsAt_nil_map_under, eventsAt_partEvents_nil, eventsAt_partEvents_nil]
      rfl
    | cons j place =>
      rcases Nat.lt_or_ge j n with hj | hj
      · have hj' : j = (⟨j, hj⟩ : Fin n).val := rfl
        rw [hj', eventsAt_partEvents, eventsAt_partEvents, eventsAt_cons_map_under]
        by_cases hij : i = ⟨j, hj⟩
        · subst hij
          rw [if_pos rfl, Function.update_self, ← List.map_append, ← eventsAt_append, ih]
        · rw [if_neg fun h => hij (Fin.ext h), Function.update_of_ne (Ne.symm hij)]
          rfl
      · have hij : i.val ≠ j := by omega
        rw [eventsAt_cons_map_under, if_neg hij, eventsAt_partEvents_of_le _ hj,
          eventsAt_partEvents_of_le _ hj]
        rfl
  | collect bs next o =>
    have hparts : partEvents (fun i => (ready (bs i) : Future Req Ans _).log (o.part i)) = [] := by
      rw [List.eq_nil_iff_forall_not_mem]
      intro e he
      obtain ⟨i, e', he', -⟩ := mem_partEvents.mp he
      cases he'
    show eventsAt place _ = eventsAt place (partEvents _ ++ _)
    rw [hparts]
    rfl

variable {events : List (Event Req Ans)}

theorem Steps.eventsAt_log (h : Steps p o events p' o') (place : List Nat) :
    eventsAt place events ++ eventsAt place (p'.log o') = eventsAt place (p.log o) := by
  induction h with
  | refl p o => rfl
  | @head p p' p'' o o' o'' e events h _ ih =>
    rw [eventsAt_append, List.append_assoc, ih, ← eventsAt_append, h.eventsAt_log]

theorem Steps.value_eq (h : Steps p o events p' o') : p'.value o' = p.value o := by
  induction h with
  | refl p o => rfl
  | head h _ ih => rw [ih, h.value_eq]

theorem Steps.concat {p'' : Future Req Ans α} {o'' : Oracle Req Ans} {e : Option (Event Req Ans)}
    (h : Steps p o events p' o') (hstep : Step p' o' e p'' o'') :
    Steps p o (events ++ e.toList) p'' o'' := by
  induction h with
  | refl p o =>
    have hrun := Steps.head hstep (.refl p'' o'')
    rwa [List.append_nil] at hrun
  | head h _ ih =>
    rw [List.append_assoc]
    exact .head h (ih hstep)

/-- A run can stop after any number of its events. -/
theorem Steps.take (h : Steps p o events p' o') (n : Nat) :
    ∃ q r, Steps p o (events.take n) q r := by
  induction h generalizing n with
  | refl p o => exact ⟨p, o, by rw [List.take_nil]; exact .refl p o⟩
  | @head p p' p'' o o' o'' e events h rest ih =>
    cases e with
    | none =>
      obtain ⟨q, r, hrest⟩ := ih n
      exact ⟨q, r, .head h hrest⟩
    | some event =>
      cases n with
      | zero => exact ⟨p, o, .refl p o⟩
      | succ n =>
        obtain ⟨q, r, hrest⟩ := ih n
        exact ⟨q, r, .head h hrest⟩

/-- Whatever a run has asked is in the log. -/
theorem Steps.subset_log (h : Steps p o events p' o') {e : Event Req Ans} (he : e ∈ events) :
    e ∈ p.log o := by
  have hmem : e ∈ eventsAt e.place (p.log o) := by
    rw [← h.eventsAt_log]
    exact List.mem_append_left _ (mem_eventsAt.mpr ⟨he, rfl⟩)
  exact (mem_eventsAt.mp hmem).1

/-- A run that is over has asked at each place what the log has there. -/
theorem Steps.eventsAt_eq {a : α} (h : Steps p o events (ready a) o') (place : List Nat) :
    eventsAt place events = eventsAt place (p.log o) := by
  rw [← h.eventsAt_log place]
  exact (List.append_nil _).symm

theorem count_eventsAt [BEq (Event Req Ans)] [LawfulBEq (Event Req Ans)] (e : Event Req Ans)
    (events : List (Event Req Ans)) : (eventsAt e.place events).count e = events.count e := by
  rw [eventsAt, List.count_filter]
  simp

/-- Two runs that are over have asked the same requests. -/
theorem Steps.perm_log {a : α} (h : Steps p o events (ready a) o') : events.Perm (p.log o) := by
  classical
  rw [List.perm_iff_count]
  intro e
  rw [← count_eventsAt e events, ← count_eventsAt e (p.log o), h.eventsAt_eq]

/-- A run has asked each request at most as often as the log has it. -/
theorem Steps.subperm_log (h : Steps p o events p' o') : events.Subperm (p.log o) := by
  classical
  rw [List.subperm_ext_iff]
  intro e _
  rw [← count_eventsAt e events, ← count_eventsAt e (p.log o), ← h.eventsAt_log,
    List.count_append]
  exact Nat.le_add_right _ _

/-- Every future has a run to its end. -/
theorem exists_steps (p : Future Req Ans α) (o : Oracle Req Ans) :
    ∃ events o', Steps p o events (ready (p.value o)) o' := by
  induction hn : p.cost o generalizing p o with
  | zero =>
    rcases exists_step p o with ⟨a, rfl⟩ | ⟨e, p', o', hstep⟩
    · exact ⟨[], o, .refl _ _⟩
    · have hcost := hstep.cost_eq
      omega
  | succ n ih =>
    rcases exists_step p o with ⟨a, rfl⟩ | ⟨e, p', o', hstep⟩
    · exact ⟨[], o, .refl _ _⟩
    · have hcost := hstep.cost_eq
      obtain ⟨events, o'', hsteps⟩ := ih p' o' (by omega)
      rw [hstep.value_eq] at hsteps
      exact ⟨_, o'', .head hstep hsteps⟩

/-- A future that asks at one place only has a run in the order of the text. -/
theorem exists_steps_log {place : List Nat} (h : ∀ e ∈ p.log o, e.place = place) :
    ∃ o', Steps p o (p.log o) (ready (p.value o)) o' := by
  obtain ⟨events, o', hsteps⟩ := exists_steps p o
  have hself : ∀ events : List (Event Req Ans), (∀ e ∈ events, e.place = place) →
      eventsAt place events = events := by
    intro events hevents
    rw [eventsAt, List.filter_eq_self]
    exact fun e he => decide_eq_true (hevents e he)
  have hevents : events = p.log o := by
    rw [← hself events fun e he => h e (hsteps.subset_log he), hsteps.eventsAt_eq, hself _ h]
  rw [hevents] at hsteps
  exact ⟨o', hsteps⟩

end Runs

end Future

end Concurrency

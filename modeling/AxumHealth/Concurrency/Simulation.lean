import AxumHealth.Concurrency.Trace

/-!
# Two runs

Two futures, each with its own world, that ask related requests at the same
places, receive the same answers and end in the same value.  `Simulates` says so
along the text of the two, and `Simulates.steps` says what it is for: every run
of one, in any order and to any point, is matched step by step by a run of the
other.
-/

namespace Concurrency

/-- Two events at one place, with related requests and the same answer. -/
structure SameEvent {Req : Type} {Ans : Req → Type} (Related : Req → Req → Prop)
    (e e' : Event Req Ans) : Prop where
  place : e.place = e'.place
  request : Related e.request e'.request
  answer : HEq e.answer e'.answer

theorem SameEvent.under {Req : Type} {Ans : Req → Type} {Related : Req → Req → Prop}
    {e e' : Event Req Ans} (h : SameEvent Related e e') (i : Nat) :
    SameEvent Related (e.under i) (e'.under i) :=
  ⟨congrArg (List.cons i) h.place, h.request, h.answer⟩

namespace Future

variable {Req : Type} {Ans : Req → Type} {Related : Req → Req → Prop}

inductive Simulates (Related : Req → Req → Prop) : {α : Type} → Future Req Ans α →
    Oracle Req Ans → Future Req Ans α → Oracle Req Ans → Prop
  | ready {α : Type} (a : α) (o o' : Oracle Req Ans) : Simulates Related (ready a) o (ready a) o'
  | ask {α : Type} {q q' : Req} {next : Ans q → Future Req Ans α}
      {next' : Ans q' → Future Req Ans α} {o o' : Oracle Req Ans} (request : Related q q')
      (answer : HEq (o.head q) (o'.head q'))
      (rest : Simulates Related (next (o.head q)) o.tail (next' (o'.head q')) o'.tail) :
      Simulates Related (ask q next) o (ask q' next') o'
  | join {α β : Type} {n : Nat} {parts parts' : Fin n → Future Req Ans β}
      {next next' : (Fin n → β) → Future Req Ans α} {o o' : Oracle Req Ans}
      (each : ∀ i, Simulates Related (parts i) (o.part i) (parts' i) (o'.part i))
      (rest : Simulates Related (next fun i => (parts i).value (o.part i)) o.tail
        (next' fun i => (parts' i).value (o'.part i)) o'.tail) :
      Simulates Related (join n parts next) o (join n parts' next') o'

namespace Simulates

variable {α : Type} {p p' : Future Req Ans α} {o o' : Oracle Req Ans}

theorem value_eq (h : Simulates Related p o p' o') : p.value o = p'.value o' := by
  induction h with
  | ready a o o' => rfl
  | ask request answer rest ih => exact ih
  | join each rest _ ih => exact ih

theorem symm (hsymm : ∀ q q', Related q q' → Related q' q) (h : Simulates Related p o p' o') :
    Simulates Related p' o' p o := by
  induction h with
  | ready a o o' => exact .ready a o' o
  | ask request answer rest ih => exact .ask (hsymm _ _ request) answer.symm ih
  | join each rest each_ih ih => exact .join each_ih ih

/-! ## Building a simulation -/

theorem request_bind {q q' : Req} {f : Ans q → Future Req Ans α} {f' : Ans q' → Future Req Ans α}
    (hq : Related q q') (hanswer : HEq (o.head q) (o'.head q'))
    (h : Simulates Related (f (o.head q)) o.tail (f' (o'.head q')) o'.tail) :
    Simulates Related (request q >>= f) o (request q' >>= f') o' :=
  .ask hq hanswer h

/-- One request, with the same answer on both sides. -/
theorem request_same {q : Req} (hq : Related q q) (h : o.head q = o'.head q) :
    Simulates Related (request q) o (request q) o' := by
  apply Simulates.ask hq (heq_of_eq h)
  rw [h]
  exact .ready _ _ _

theorem bind {β : Type} {f f' : α → Future Req Ans β} (h : Simulates Related p o p' o')
    (hf : Simulates Related (f (p.value o)) (p.run o).2 (f' (p'.value o')) (p'.run o').2) :
    Simulates Related (p >>= f) o (p' >>= f') o' := by
  induction h with
  | ready a o o' => exact hf
  | ask request answer rest ih => exact .ask request answer (ih hf)
  | join each rest _ ih => exact .join each (ih hf)

/-- A continuation that only computes is the same on both sides. -/
theorem bind_pure {β : Type} (h : Simulates Related p o p' o') (f : α → β) :
    Simulates Related (p >>= fun a => pure (f a)) o (p' >>= fun a => pure (f a)) o' := by
  apply h.bind
  rw [h.value_eq]
  exact .ready _ _ _

theorem joinAll_eq {β : Type} {n : Nat} (fs : List (Future Req Ans β)) (h : n = fs.length) :
    joinAll fs = Future.join n (fun i => fs[i]) fun bs => Future.ready (List.ofFn bs) := by
  subst h
  rfl

theorem joinAll {β : Type} {fs fs' : List (Future Req Ans β)} (hlength : fs.length = fs'.length)
    (h : ∀ (i : Nat) (f f' : Future Req Ans β), fs[i]? = some f → fs'[i]? = some f' →
      Simulates Related f (o.part i) f' (o'.part i)) :
    Simulates Related (Future.joinAll fs) o (Future.joinAll fs') o' := by
  rw [joinAll_eq fs rfl, joinAll_eq fs' hlength]
  have heach : ∀ i : Fin fs.length,
      Simulates Related fs[i] (o.part i) fs'[i] (o'.part i) := by
    intro i
    exact h i _ _ (List.getElem?_eq_getElem i.isLt)
      (List.getElem?_eq_getElem (hlength ▸ i.isLt))
  apply Simulates.join heach
  have hvalue : (fun i : Fin fs.length => fs[i].value (o.part i)) =
      fun i : Fin fs.length => fs'[i].value (o'.part i) := by
    funext i
    exact (heach i).value_eq
  rw [hvalue]
  exact .ready _ _ _

/-! ## Runs -/

/-- Each step of one side is a step of the other. -/
theorem step {q : Future Req Ans α} {r : Oracle Req Ans} {e : Option (Event Req Ans)}
    (hstep : Step p o e q r) (h : Simulates Related p o p' o') :
    ∃ e' q' r', Step p' o' e' q' r' ∧ Option.Rel (SameEvent Related) e e' ∧
      Simulates Related q r q' r' := by
  induction hstep generalizing o' with
  | answer q next o =>
    cases h with
    | ask request answer rest => exact ⟨_, _, _, .answer _ _ _, .some ⟨rfl, request, answer⟩, rest⟩
  | @part α β n parts next o r e q i hpart ih =>
    cases h with
    | @join _ _ _ _ parts' _ next' _ o' each rest =>
      obtain ⟨e', q', r', hstep', hevent, hsim⟩ := ih (each i)
      refine ⟨_, _, _, .part next' i hstep', ?_, ?_⟩
      · cases hevent with
        | some h => exact .some (h.under i)
        | none => exact .none
      · apply Simulates.join
        · intro j
          by_cases hj : j = i
          · subst hj
            rw [Function.update_self, Function.update_self, Oracle.part_setPart_self,
              Oracle.part_setPart_self]
            exact hsim
          · have hval : j.val ≠ i.val := fun heq => hj (Fin.ext heq)
            rw [Function.update_of_ne hj, Function.update_of_ne hj,
              Oracle.part_setPart_of_ne hval, Oracle.part_setPart_of_ne hval]
            exact each j
        · rw [part_update parts i q o r value, part_update parts' i q' o' r' value,
            hpart.value_eq, hstep'.value_eq, Function.update_eq_self, Function.update_eq_self,
            Oracle.tail_setPart, Oracle.tail_setPart]
          exact rest
  | @collect α β n bs next o =>
    cases h with
    | @join _ _ _ _ parts' _ next' _ o' each rest =>
      have hready : ∀ i, parts' i = Future.ready (bs i) := by
        intro i
        have hi := each i
        generalize parts' i = part at hi
        cases hi
        rfl
      obtain rfl : parts' = fun i => Future.ready (bs i) := funext hready
      exact ⟨_, _, _, .collect bs next' o', .none, rest⟩

/-- Every run of one side, complete or not, is matched by a run of the other. -/
theorem steps {q : Future Req Ans α} {r : Oracle Req Ans} {events : List (Event Req Ans)}
    (hsteps : Steps p o events q r) (h : Simulates Related p o p' o') :
    ∃ events' q' r', Steps p' o' events' q' r' ∧
      List.Forall₂ (SameEvent Related) events events' ∧ Simulates Related q r q' r' := by
  induction hsteps generalizing p' o' with
  | refl p o => exact ⟨[], p', o', .refl p' o', .nil, h⟩
  | @head p q q'' o r r'' e events hstep _ ih =>
    obtain ⟨e', q', r', hstep', hevent, hsim⟩ := h.step hstep
    obtain ⟨events', q''', r''', hsteps', hevents, hsim'⟩ := ih hsim
    refine ⟨_, q''', r''', .head hstep' hsteps', ?_, hsim'⟩
    cases hevent with
    | some he => exact .cons he hevents
    | none => exact hevents

end Simulates

end Future

end Concurrency

import Mathlib.Algebra.BigOperators.Fin
import Mathlib.Algebra.BigOperators.Group.Finset.Basic

/-!
# Futures

An asynchronous computation as a tree of requests to the outside world.  A
`Future` is ready, or it waits for the answer to one request, or it waits for a
family of futures that run concurrently and whose results it collects in order.
`joinAll` is the last case for a list.

The executor is the relation `Step`: any request that is waiting anywhere in the
tree can be answered next, and a join moves on once all its parts are ready.
What the world answers is fixed beforehand by an `Oracle`, which gives every
place of the tree its own answers, and the order of the steps is left open.  The
two theorems a caller uses are `inevitably_iff`, that every order of steps ends,
without getting stuck, in the value `Future.value` computes, and the equations
of `value` for the operations.
-/

namespace Concurrency

/-- A computation that asks requests `q : Req` and receives answers `Ans q`. -/
inductive Future (Req : Type) (Ans : Req → Type) : Type → Type 1
  | ready {α : Type} (a : α) : Future Req Ans α
  | ask {α : Type} (q : Req) (next : Ans q → Future Req Ans α) : Future Req Ans α
  | join {β α : Type} (n : Nat) (parts : Fin n → Future Req Ans β)
      (next : (Fin n → β) → Future Req Ans α) : Future Req Ans α

/-- The answers of the world.  A place is the list of `(position, part)` pairs
that leads to it from the root, and `o place n q` is the answer when the
computation at that place reaches its position `n` and asks `q` there. -/
def Oracle (Req : Type) (Ans : Req → Type) : Type :=
  List (Nat × Nat) → Nat → (q : Req) → Ans q

namespace Oracle

variable {Req : Type} {Ans : Req → Type}

/-- The answer to the next request asked at the root. -/
def head (o : Oracle Req Ans) (q : Req) : Ans q := o [] 0 q

/-- The answers left once the root has moved past its first position. -/
def tail (o : Oracle Req Ans) : Oracle Req Ans
  | [], n, q => o [] (n + 1) q
  | (m, i) :: place, n, q => o ((m + 1, i) :: place) n q

/-- The answers part `i` of a join at the root receives. -/
def part (o : Oracle Req Ans) (i : Nat) : Oracle Req Ans :=
  fun place n q => o ((0, i) :: place) n q

/-- Replace what part `i` of a join at the root receives. -/
def setPart (o : Oracle Req Ans) (i : Nat) (o' : Oracle Req Ans) : Oracle Req Ans
  | (0, j) :: place, n, q => if j = i then o' place n q else o ((0, j) :: place) n q
  | place, n, q => o place n q

@[simp] theorem part_setPart_self (o o' : Oracle Req Ans) (i : Nat) :
    (o.setPart i o').part i = o' := by
  funext place n q
  simp [part, setPart]

theorem part_setPart_of_ne {i j : Nat} (h : j ≠ i) (o o' : Oracle Req Ans) :
    (o.setPart i o').part j = o.part j := by
  funext place n q
  simp [part, setPart, h]

@[simp] theorem tail_setPart (o o' : Oracle Req Ans) (i : Nat) :
    (o.setPart i o').tail = o.tail := by
  funext place n q
  match place with
  | [] => rfl
  | (_, _) :: _ => rfl

end Oracle

/-- One answered request: the parts that lead to the computation that asked it,
the request and the answer. -/
structure Event (Req : Type) (Ans : Req → Type) where
  place : List Nat
  request : Req
  answer : Ans request

/-- The event as the join around part `i` sees it. -/
def Event.under {Req : Type} {Ans : Req → Type} (i : Nat) (e : Event Req Ans) : Event Req Ans :=
  { e with place := i :: e.place }

namespace Future

variable {Req : Type} {Ans : Req → Type}

/-! ## Operations -/

def bind {α β : Type} : Future Req Ans α → (α → Future Req Ans β) → Future Req Ans β
  | ready a, f => f a
  | ask q next, f => ask q fun r => (next r).bind f
  | join n parts next, f => join n parts fun bs => (next bs).bind f

instance : Monad (Future Req Ans) where
  pure := ready
  bind := bind

/-- Ask one request and return the answer. -/
def request (q : Req) : Future Req Ans (Ans q) := ask q ready

/-- Run the futures of a list concurrently and collect their results in the
order of the list. -/
def joinAll {β : Type} (fs : List (Future Req Ans β)) : Future Req Ans (List β) :=
  join fs.length (fun i => fs[i]) fun bs => ready (List.ofFn bs)

/-! ## The value under an oracle -/

/-- The result when every request is answered by the oracle, with the answers
that are left. -/
def run {α : Type} : Future Req Ans α → Oracle Req Ans → α × Oracle Req Ans
  | ready a, o => (a, o)
  | ask q next, o => (next (o.head q)).run o.tail
  | join _ parts next, o => (next fun i => ((parts i).run (o.part i)).1).run o.tail

def value {α : Type} (p : Future Req Ans α) (o : Oracle Req Ans) : α := (p.run o).1

@[simp] theorem value_ready {α : Type} (a : α) (o : Oracle Req Ans) :
    (ready a : Future Req Ans α).value o = a := rfl

theorem value_join {α β : Type} (n : Nat) (parts : Fin n → Future Req Ans β)
    (next : (Fin n → β) → Future Req Ans α) (o : Oracle Req Ans) :
    (join n parts next).value o = (next fun i => (parts i).value (o.part i)).value o.tail := rfl

theorem run_bind {α β : Type} (p : Future Req Ans α) (f : α → Future Req Ans β)
    (o : Oracle Req Ans) : (p.bind f).run o = (f (p.run o).1).run (p.run o).2 := by
  induction p generalizing o with
  | ready a => rfl
  | ask q next ih => exact ih _ f _
  | join n parts next _ ih => exact ih _ f _

theorem value_bind {α β : Type} (p : Future Req Ans α) (f : α → Future Req Ans β)
    (o : Oracle Req Ans) : (p >>= f).value o = (f (p.value o)).value (p.run o).2 :=
  congrArg Prod.fst (run_bind p f o)

/-- A continuation that only computes needs no further answers. -/
@[simp] theorem value_bind_pure {α β : Type} (p : Future Req Ans α) (f : α → β)
    (o : Oracle Req Ans) : (p >>= fun a => pure (f a)).value o = f (p.value o) :=
  value_bind p _ o

@[simp] theorem value_request_bind {α : Type} (q : Req) (f : Ans q → Future Req Ans α)
    (o : Oracle Req Ans) : (request q >>= f).value o = (f (o.head q)).value o.tail := rfl

@[simp] theorem value_joinAll {β : Type} (fs : List (Future Req Ans β)) (o : Oracle Req Ans) :
    (joinAll fs).value o = fs.mapIdx fun i f => f.value (o.part i) := by
  apply List.ext_getElem
  · simp [joinAll, value_join]
  · intro i _ _
    simp [joinAll, value_join]

theorem value_joinAll_map {α β : Type} (f : α → Future Req Ans β) (as : List α)
    (o : Oracle Req Ans) :
    (joinAll (as.map f)).value o = as.mapIdx fun i a => (f a).value (o.part i) := by
  rw [value_joinAll]
  apply List.ext_getElem <;> simp

/-! ## The executor -/

/-- One step of the executor: a waiting request is answered, or a join whose
parts are all ready hands their results on. -/
inductive Step : {α : Type} → Future Req Ans α → Oracle Req Ans → Option (Event Req Ans) →
    Future Req Ans α → Oracle Req Ans → Prop
  | answer {α : Type} (q : Req) (next : Ans q → Future Req Ans α) (o : Oracle Req Ans) :
      Step (ask q next) o (some ⟨[], q, o.head q⟩) (next (o.head q)) o.tail
  | part {α β : Type} {n : Nat} {parts : Fin n → Future Req Ans β}
      (next : (Fin n → β) → Future Req Ans α) {o o' : Oracle Req Ans}
      {e : Option (Event Req Ans)} {p' : Future Req Ans β} (i : Fin n)
      (h : Step (parts i) (o.part i) e p' o') :
      Step (join n parts next) o (e.map (Event.under i))
        (join n (Function.update parts i p') next) (o.setPart i o')
  | collect {α β : Type} {n : Nat} (bs : Fin n → β) (next : (Fin n → β) → Future Req Ans α)
      (o : Oracle Req Ans) :
      Step (join n (fun i => ready (bs i)) next) o none (next bs) o.tail

/-- The parts of a join after one of them has moved. -/
theorem part_update {β γ : Type} {n : Nat} (parts : Fin n → Future Req Ans β) (i : Fin n)
    (p' : Future Req Ans β) (o o' : Oracle Req Ans)
    (g : Future Req Ans β → Oracle Req Ans → γ) :
    (fun j : Fin n => g (Function.update parts i p' j) ((o.setPart i o').part j)) =
      Function.update (fun j : Fin n => g (parts j) (o.part j)) i (g p' o') := by
  funext j
  by_cases hj : j = i
  · subst hj
    simp
  · rw [Function.update_of_ne hj, Function.update_of_ne hj,
      Oracle.part_setPart_of_ne (fun h => hj (Fin.ext h))]

/-- A step does not change the value. -/
theorem Step.value_eq {α : Type} {p p' : Future Req Ans α} {o o' : Oracle Req Ans}
    {e : Option (Event Req Ans)} (h : Step p o e p' o') : p'.value o' = p.value o := by
  induction h with
  | answer q next o => rfl
  | @part α β n parts next o o' e p' i _ ih =>
    rw [value_join, value_join, part_update parts i p' o o' value, ih,
      Function.update_eq_self, Oracle.tail_setPart]
  | collect bs next o => rfl

/-- The number of steps left under an oracle, the same for every order. -/
def cost {α : Type} : Future Req Ans α → Oracle Req Ans → Nat
  | ready _, _ => 0
  | ask q next, o => (next (o.head q)).cost o.tail + 1
  | join _ parts next, o =>
    (∑ i, (parts i).cost (o.part i)) +
      (next fun i => (parts i).value (o.part i)).cost o.tail + 1

theorem sum_update_succ {n : Nat} (f : Fin n → Nat) (i : Fin n) {c : Nat} (h : c + 1 = f i) :
    (∑ j, Function.update f i c j) + 1 = ∑ j, f j := by
  rw [Finset.sum_update_of_mem (Finset.mem_univ i), ← Finset.add_sum_erase _ f (Finset.mem_univ i),
    Finset.sdiff_singleton_eq_erase]
  omega

/-- Every step uses up exactly one unit of `cost`. -/
theorem Step.cost_eq {α : Type} {p p' : Future Req Ans α} {o o' : Oracle Req Ans}
    {e : Option (Event Req Ans)} (h : Step p o e p' o') : p'.cost o' + 1 = p.cost o := by
  induction h with
  | answer q next o => rfl
  | @part α β n parts next o o' e p' i hstep ih =>
    have hval : (fun j : Fin n => (Function.update parts i p' j).value ((o.setPart i o').part j)) =
        fun j => (parts j).value (o.part j) := by
      rw [part_update parts i p' o o' value, hstep.value_eq, Function.update_eq_self]
    have hsum : (∑ j : Fin n, (Function.update parts i p' j).cost ((o.setPart i o').part j)) + 1 =
        ∑ j : Fin n, (parts j).cost (o.part j) := by
      rw [part_update parts i p' o o' cost]
      exact sum_update_succ _ i ih
    simp only [cost, hval, Oracle.tail_setPart]
    omega
  | collect bs next o => simp [cost]

/-- A future that is not ready can always move. -/
theorem exists_step {α : Type} (p : Future Req Ans α) (o : Oracle Req Ans) :
    (∃ a, p = ready a) ∨ ∃ e p' o', Step p o e p' o' := by
  induction p generalizing o with
  | ready a => exact .inl ⟨a, rfl⟩
  | ask q next _ => exact .inr ⟨_, _, _, .answer q next o⟩
  | join n parts next ih _ =>
    by_cases h : ∀ i, ∃ b, parts i = ready b
    · choose bs hbs using h
      obtain rfl : parts = fun i => ready (bs i) := funext hbs
      exact .inr ⟨_, _, _, .collect bs next o⟩
    · obtain ⟨i, hi⟩ := not_forall.mp h
      rcases ih i (o.part i) with hready | ⟨e, p', o', hstep⟩
      · exact absurd hready hi
      · exact .inr ⟨_, _, _, .part next i hstep⟩

/-! ## Every order of steps -/

/-- Whatever order the steps are taken in, the future ends ready with a value
that satisfies `P`: no order runs for ever and none gets stuck. -/
inductive Inevitably {α : Type} (P : α → Prop) : Future Req Ans α → Oracle Req Ans → Prop
  | ready {a : α} (o : Oracle Req Ans) (h : P a) : Inevitably P (.ready a) o
  | step {p : Future Req Ans α} {o : Oracle Req Ans} (hmove : ∃ e p' o', Step p o e p' o')
      (h : ∀ e p' o', Step p o e p' o' → Inevitably P p' o') : Inevitably P p o

theorem inevitably_of_value {α : Type} {P : α → Prop} (p : Future Req Ans α)
    (o : Oracle Req Ans) (h : P (p.value o)) : Inevitably P p o := by
  -- The number of steps left is the same whichever step comes next.
  induction hn : p.cost o generalizing p o with
  | zero =>
    rcases exists_step p o with ⟨a, rfl⟩ | ⟨e, p', o', hstep⟩
    · exact .ready o h
    · have := hstep.cost_eq
      omega
  | succ n ih =>
    rcases exists_step p o with ⟨a, rfl⟩ | hmove
    · exact .ready o h
    · refine .step hmove fun e p' o' hstep => ih p' o' ?_ ?_
      · rw [hstep.value_eq]
        exact h
      · have := hstep.cost_eq
        omega

/-- Every order of steps ends in the value under the oracle. -/
theorem inevitably_iff {α : Type} {P : α → Prop} (p : Future Req Ans α) (o : Oracle Req Ans) :
    Inevitably P p o ↔ P (p.value o) := by
  refine ⟨fun h => ?_, inevitably_of_value p o⟩
  induction h with
  | ready o h => exact h
  | step hmove _ ih =>
    obtain ⟨e, p', o', hstep⟩ := hmove
    rw [← hstep.value_eq]
    exact ih e p' o' hstep

end Future

end Concurrency

import Mathlib.Data.Set.Insert
import Mathlib.Data.Set.Lattice
import Std.Data.ExtTreeMap

/-!
# Finite maps as sets of pairs

The graph of a finite map is the set of its pairs, and a map is determined by its
graph.  A loop that enters pairs into a map and refuses a second value for a key
computes the union of the pairs it meets, and it ends without a refusal when that
union is functional.  Neither depends on the order of the loop, which is what
`Enters` is for.
-/

namespace Collections

open Std

variable {κ ν : Type} [Ord κ] [TransOrd κ]

def graph (m : ExtTreeMap κ ν) : Set (κ × ν) := {p | m[p.1]? = some p.2}

/-- No key is paired with two values. -/
def Functional (R : Set (κ × ν)) : Prop := ∀ k v w, (k, v) ∈ R → (k, w) ∈ R → v = w

@[simp] theorem mem_graph {m : ExtTreeMap κ ν} {p : κ × ν} :
    p ∈ graph m ↔ m[p.1]? = some p.2 := Iff.rfl

theorem graph_injective [LawfulEqOrd κ] :
    Function.Injective (graph : ExtTreeMap κ ν → Set (κ × ν)) := by
  intro m m' h
  apply ExtTreeMap.ext_getElem?
  intro k
  apply Option.ext
  intro v
  exact Set.ext_iff.mp h (k, v)

theorem graph_functional (m : ExtTreeMap κ ν) : Functional (graph m) := by
  intro k v w hv hw
  exact Option.some.inj (hv.symm.trans hw)

@[simp] theorem graph_empty : graph (∅ : ExtTreeMap κ ν) = ∅ := by
  ext p
  simp

omit [Ord κ] [TransOrd κ] in
theorem Functional.mono {R S : Set (κ × ν)} (h : R ⊆ S) (hS : Functional S) : Functional R :=
  fun k v w hv hw => hS k v w (h hv) (h hw)

theorem getElem?_insert_iff [LawfulEqOrd κ] {m : ExtTreeMap κ ν} {k k' : κ} {v v' : ν} :
    (m.insert k v)[k']? = some v' ↔ (k = k' ∧ v = v') ∨ (k ≠ k' ∧ m[k']? = some v') := by
  rw [ExtTreeMap.getElem?_insert]
  by_cases h : k = k'
  · simp [h]
  · simp [h]

theorem mem_insert_iff [LawfulEqOrd κ] {m : ExtTreeMap κ ν} {k k' : κ} {v : ν} :
    k' ∈ m.insert k v ↔ k' = k ∨ k' ∈ m := by
  rw [ExtTreeMap.mem_insert, Std.compare_eq_iff_eq, eq_comm]

/-- A new key adds its pair to the graph. -/
theorem graph_insert [LawfulEqOrd κ] {m : ExtTreeMap κ ν} {k : κ} (h : m[k]? = none) (v : ν) :
    graph (m.insert k v) = insert (k, v) (graph m) := by
  ext ⟨k', v'⟩
  rw [mem_graph, getElem?_insert_iff, Set.mem_insert_iff, mem_graph, Prod.mk.injEq]
  constructor
  · rintro (⟨rfl, rfl⟩ | ⟨-, hm⟩)
    · exact .inl ⟨rfl, rfl⟩
    · exact .inr hm
  · rintro (⟨rfl, rfl⟩ | hm)
    · exact .inl ⟨rfl, rfl⟩
    · refine .inr ⟨?_, hm⟩
      rintro rfl
      simp [h] at hm

/-! ## Positions

The pairs of a map are listed in the order of the keys. -/

theorem mem_iff_exists_getElem? {m : ExtTreeMap κ ν} {k : κ} : k ∈ m ↔ ∃ v, m[k]? = some v := by
  rw [ExtTreeMap.mem_iff_isSome_getElem?, Option.isSome_iff_exists]

theorem getElem?_of_position [LawfulEqOrd κ] {m : ExtTreeMap κ ν} {i : Nat} {k : κ} {v : ν}
    (h : m.toList[i]? = some (k, v)) : m[k]? = some v :=
  ExtTreeMap.mem_toList_iff_getElem?_eq_some.mp (List.mem_of_getElem? h)

theorem exists_position [LawfulEqOrd κ] {m : ExtTreeMap κ ν} {k : κ} {v : ν}
    (h : m[k]? = some v) : ∃ i : Nat, m.toList[i]? = some (k, v) :=
  List.getElem?_of_mem (ExtTreeMap.mem_toList_iff_getElem?_eq_some.mpr h)

/-- A key has one position. -/
theorem position_unique [LawfulEqOrd κ] {m : ExtTreeMap κ ν} {i j : Nat} {k : κ} {v w : ν}
    (hi : m.toList[i]? = some (k, v)) (hj : m.toList[j]? = some (k, w)) : i = j := by
  have hnodup : (m.toList.map Prod.fst).Nodup := by
    rw [ExtTreeMap.map_fst_toList_eq_keys]
    exact ExtTreeMap.nodup_keys
  have hlength := (List.getElem?_eq_some_iff.mp hi).1
  refine (List.getElem?_inj (by rwa [List.length_map]) hnodup).mp ?_
  rw [List.getElem?_map, List.getElem?_map, hi, hj]
  rfl

theorem exists_position_of_key [LawfulEqOrd κ] (m : ExtTreeMap κ ν) (k : κ) :
    ∃ i, ∀ (j : Nat) v, m.toList[j]? = some (k, v) → j = i := by
  by_cases hk : ∃ (i : Nat) (v : ν), m.toList[i]? = some (k, v)
  · obtain ⟨i, v, hi⟩ := hk
    exact ⟨i, fun j w hj => position_unique hj hi⟩
  · exact ⟨0, fun j v hj => absurd ⟨j, v, hj⟩ hk⟩

/-- New values leave the keys. -/
theorem map_fst_mapIdx {κ ν μ : Type} (ps : List (κ × ν)) (f : Nat → κ → ν → μ) :
    (ps.mapIdx fun i p => (p.1, f i p.1 p.2)).map Prod.fst = ps.map Prod.fst := by
  apply List.ext_getElem?
  intro j
  rw [List.getElem?_map, List.getElem?_map, List.getElem?_mapIdx, Option.map_map]
  rfl

/-- Rebuilding a map from its pairs, with a new value at each key that may depend
on the position of the pair. -/
theorem getElem?_ofList_mapIdx [LawfulEqOrd κ] {μ : Type} (m : ExtTreeMap κ ν)
    (f : Nat → κ → ν → μ) {k : κ} {c : μ} :
    (ExtTreeMap.ofList (m.toList.mapIdx fun i p => (p.1, f i p.1 p.2)))[k]? = some c ↔
      ∃ i v, m.toList[i]? = some (k, v) ∧ c = f i k v := by
  have hget : ∀ i v, m.toList[i]? = some (k, v) →
      (ExtTreeMap.ofList (m.toList.mapIdx fun i p => (p.1, f i p.1 p.2)))[k]? =
        some (f i k v) := by
    intro i v hi
    apply ExtTreeMap.getElem?_ofList_of_mem ReflOrd.compare_self
    · rw [← List.pairwise_map (f := Prod.fst) (R := fun a b => ¬ compare a b = .eq),
        map_fst_mapIdx, List.pairwise_map]
      exact ExtTreeMap.distinct_keys_toList
    · apply List.mem_of_getElem? (i := i)
      rw [List.getElem?_mapIdx, hi]
      rfl
  constructor
  · intro h
    have hmem : k ∈ m := by
      by_contra hnot
      let _ : BEq κ := beqOfOrd
      have hnone : (ExtTreeMap.ofList
          (m.toList.mapIdx fun i p => (p.1, f i p.1 p.2)))[k]? = none := by
        apply ExtTreeMap.getElem?_ofList_of_contains_eq_false
        rw [← Bool.not_eq_true, List.contains_iff_mem, List.mem_map]
        intro hin
        obtain ⟨p, hp, hpk⟩ := hin
        obtain ⟨i, hi⟩ := List.getElem?_of_mem hp
        rw [List.getElem?_mapIdx] at hi
        obtain ⟨q, hq, rfl⟩ := Option.map_eq_some_iff.mp hi
        apply hnot
        rw [mem_iff_exists_getElem?, ← show q.1 = k from hpk]
        exact ⟨q.2, getElem?_of_position hq⟩
      rw [hnone] at h
      cases h
    obtain ⟨v, hv⟩ := mem_iff_exists_getElem?.mp hmem
    obtain ⟨i, hi⟩ := exists_position hv
    rw [hget i v hi] at h
    exact ⟨i, v, hi, (Option.some.inj h).symm⟩
  · rintro ⟨i, v, hi, rfl⟩
    exact hget i v hi

/-- Rebuilding a map from its pairs keeps their order. -/
theorem toList_ofList_mapIdx [LawfulEqOrd κ] {μ : Type} (m : ExtTreeMap κ ν)
    (f : Nat → κ → ν → μ) :
    (ExtTreeMap.ofList (m.toList.mapIdx fun i p => (p.1, f i p.1 p.2))).toList =
      m.toList.mapIdx fun i p => (p.1, f i p.1 p.2) := by
  have hirrefl : ∀ p : κ × μ, ¬ compare p.1 p.1 = .lt := by
    intro p hlt
    rw [ReflOrd.compare_self] at hlt
    cases hlt
  have hantisymm : ∀ {l l' : List (κ × μ)} (p q), p ∈ l → q ∈ l' → compare p.1 q.1 = .lt →
      compare q.1 p.1 = .lt → p = q := by
    intro l l' p q _ _ hpq hqp
    exact absurd (TransCmp.lt_trans hpq hqp) (hirrefl p)
  have hnodup : ∀ {l : List (κ × μ)}, (l.Pairwise fun p q => compare p.1 q.1 = .lt) → l.Nodup := by
    intro l h
    apply h.imp
    intro p q hlt heq
    exact hirrefl p (heq ▸ hlt)
  have hsorted : (m.toList.mapIdx fun i p => (p.1, f i p.1 p.2)).Pairwise
      fun p q => compare p.1 q.1 = .lt := by
    rw [← List.pairwise_map (f := Prod.fst) (R := fun a b => compare a b = .lt),
      map_fst_mapIdx, List.pairwise_map]
    exact ExtTreeMap.ordered_keys_toList
  have hperm : (ExtTreeMap.ofList (m.toList.mapIdx fun i p => (p.1, f i p.1 p.2))).toList.Perm
      (m.toList.mapIdx fun i p => (p.1, f i p.1 p.2)) := by
    rw [List.perm_ext_iff_of_nodup (hnodup ExtTreeMap.ordered_keys_toList) (hnodup hsorted)]
    intro p
    rw [ExtTreeMap.mem_toList_iff_getElem?_eq_some, getElem?_ofList_mapIdx]
    constructor
    · rintro ⟨i, v, hi, hp⟩
      apply List.mem_of_getElem? (i := i)
      rw [List.getElem?_mapIdx, hi, ← show (p.1, f i p.1 v) = p by rw [← hp]]
      rfl
    · intro hp
      obtain ⟨i, hi⟩ := List.getElem?_of_mem hp
      rw [List.getElem?_mapIdx] at hi
      obtain ⟨q, hq, rfl⟩ := Option.map_eq_some_iff.mp hi
      exact ⟨i, q.2, hq, rfl⟩
  exact List.Perm.eq_of_pairwise hantisymm ExtTreeMap.ordered_keys_toList hsorted hperm

/-! ## Loops that enter pairs -/

variable {τ ε : Type}

/-- A loop that can fail fails at the first item that its body fails on. -/
theorem foldlM_eq_error_iff {σ : Type} {step : σ → τ → Except ε σ} {s : σ} {ts : List τ} {e : ε} :
    ts.foldlM step s = .error e ↔ ∃ front t back s',
      ts = front ++ t :: back ∧ front.foldlM step s = .ok s' ∧ step s' t = .error e := by
  induction ts generalizing s with
  | nil =>
    constructor
    · intro h
      cases h
    · rintro ⟨front, t, back, s', h, -⟩
      simp at h
  | cons t ts ih =>
    rw [List.foldlM_cons]
    cases hstep : step s t with
    | error e' =>
      constructor
      · intro h
        exact ⟨[], t, ts, s, rfl, rfl, hstep.trans h⟩
      · rintro ⟨front, t', back, s', hts, hfront, he⟩
        cases front with
        | nil =>
          cases hts
          cases hfront
          exact hstep.symm.trans he
        | cons u front =>
          cases hts
          rw [List.foldlM_cons, hstep] at hfront
          cases hfront
    | ok u =>
      show ts.foldlM step u = .error e ↔ _
      rw [ih]
      constructor
      · rintro ⟨front, t', back, s', hts, hfront, he⟩
        refine ⟨t :: front, t', back, s', by rw [hts]; rfl, ?_, he⟩
        rw [List.foldlM_cons, hstep]
        exact hfront
      · rintro ⟨front, t', back, s', hts, hfront, he⟩
        cases front with
        | nil =>
          cases hts
          cases hfront
          rw [hstep] at he
          cases he
        | cons v front =>
          cases hts
          rw [List.foldlM_cons, hstep] at hfront
          exact ⟨front, t', back, s', rfl, hfront, he⟩

/-- A loop body that enters the pairs of an item: it succeeds only on valid
items, and then adds exactly their pairs, and it succeeds whenever no key gets a
second value. -/
structure Enters (step : ExtTreeMap κ ν → τ → Except ε (ExtTreeMap κ ν)) (valid : τ → Prop)
    (pairs : τ → Set (κ × ν)) : Prop where
  ok : ∀ m t m', step m t = .ok m' → valid t ∧ graph m' = pairs t ∪ graph m
  total : ∀ m t, valid t → Functional (pairs t ∪ graph m) → ∃ m', step m t = .ok m'

/-- All pairs of a list of items. -/
def allPairs (pairs : τ → Set (κ × ν)) (ts : List τ) : Set (κ × ν) := {p | ∃ t ∈ ts, p ∈ pairs t}

omit [Ord κ] [TransOrd κ] in
theorem allPairs_cons (pairs : τ → Set (κ × ν)) (t : τ) (ts : List τ) (R : Set (κ × ν)) :
    allPairs pairs (t :: ts) ∪ R = allPairs pairs ts ∪ (pairs t ∪ R) := by
  ext p
  simp only [allPairs, List.mem_cons, exists_eq_or_imp, Set.mem_union, Set.mem_ofPred_eq]
  rw [or_assoc, or_left_comm]

namespace Enters

variable {step : ExtTreeMap κ ν → τ → Except ε (ExtTreeMap κ ν)} {valid : τ → Prop}
  {pairs : τ → Set (κ × ν)}

theorem foldlM_ok (h : Enters step valid pairs) {ts : List τ} {m m' : ExtTreeMap κ ν}
    (hfold : ts.foldlM step m = .ok m') :
    (∀ t ∈ ts, valid t) ∧ graph m' = allPairs pairs ts ∪ graph m := by
  induction ts generalizing m with
  | nil =>
    cases hfold
    simp [allPairs]
  | cons t ts ih =>
    rw [List.foldlM_cons] at hfold
    cases hstep : step m t with
    | error e =>
      rw [hstep] at hfold
      cases hfold
    | ok m₁ =>
      rw [hstep] at hfold
      obtain ⟨hvalid, hgraph⟩ := h.ok m t m₁ hstep
      obtain ⟨hrest, hunion⟩ := ih hfold
      exact ⟨List.forall_mem_cons.mpr ⟨hvalid, hrest⟩, by rw [hunion, hgraph, allPairs_cons]⟩

theorem foldlM_total (h : Enters step valid pairs) {ts : List τ} {m : ExtTreeMap κ ν}
    (hvalid : ∀ t ∈ ts, valid t) (hfun : Functional (allPairs pairs ts ∪ graph m)) :
    ∃ m', ts.foldlM step m = .ok m' := by
  induction ts generalizing m with
  | nil => exact ⟨m, rfl⟩
  | cons t ts ih =>
    rw [allPairs_cons] at hfun
    obtain ⟨m₁, hstep⟩ := h.total m t (hvalid t List.mem_cons_self)
      (hfun.mono Set.subset_union_right)
    rw [← (h.ok m t m₁ hstep).2] at hfun
    obtain ⟨m', hm'⟩ := ih (fun t' ht' => hvalid t' (List.mem_cons_of_mem t ht')) hfun
    exact ⟨m', by rw [List.foldlM_cons, hstep]; exact hm'⟩

/-- From the empty map, the loop succeeds on valid items whose pairs are
functional. -/
theorem exists_foldlM_iff (h : Enters step valid pairs) (ts : List τ) :
    (∃ m, ts.foldlM step ∅ = .ok m) ↔
      (∀ t ∈ ts, valid t) ∧ Functional (allPairs pairs ts) := by
  constructor
  · rintro ⟨m, hm⟩
    obtain ⟨hvalid, hgraph⟩ := h.foldlM_ok hm
    rw [graph_empty, Set.union_empty] at hgraph
    exact ⟨hvalid, hgraph ▸ graph_functional m⟩
  · rintro ⟨hvalid, hfun⟩
    exact h.foldlM_total hvalid (by rwa [graph_empty, Set.union_empty])

/-- From the empty map, the outcome depends on the items only through their
validity and the set of their pairs. -/
theorem foldlM_toOption_congr [LawfulEqOrd κ] (h : Enters step valid pairs) {ts ts' : List τ}
    (hvalid : (∀ t ∈ ts, valid t) ↔ ∀ t ∈ ts', valid t)
    (hpairs : allPairs pairs ts = allPairs pairs ts') :
    (ts.foldlM step ∅).toOption = (ts'.foldlM step ∅).toOption := by
  have hiff : (∃ m, ts.foldlM step ∅ = .ok m) ↔ ∃ m, ts'.foldlM step ∅ = .ok m := by
    rw [h.exists_foldlM_iff, h.exists_foldlM_iff, hvalid, hpairs]
  cases hts : ts.foldlM step ∅ with
  | error e =>
    cases hts' : ts'.foldlM step ∅ with
    | error e' => rfl
    | ok m' =>
      obtain ⟨m, hm⟩ := hiff.mpr ⟨m', hts'⟩
      rw [hts] at hm
      cases hm
  | ok m =>
    obtain ⟨m', hts'⟩ := hiff.mp ⟨m, hts⟩
    rw [hts']
    have hgraph := (h.foldlM_ok hts).2
    have hgraph' := (h.foldlM_ok hts').2
    rw [graph_injective (hgraph.trans (hpairs ▸ hgraph'.symm))]

end Enters

end Collections

import AxumHealth.Concurrency.Pull
import AxumHealth.Health.HttpCheck

/-!
# Bodies of HTTP responses

`drain_body` as the loop over `chunk()`, on the body a response carries and on
bodies that need not end, and what its outcome means for the entry of a target:
nothing.
-/

namespace AxumHealth

open Concurrency

namespace Http

abbrev Chunk : Type := List UInt8

/-- `reqwest::Response::chunk` -/
def chunk (response : Response) : Except ReqwestError (Option Chunk) × Response :=
  match response.body with
  | [] => (.ok none, response)
  | .ok bytes :: rest => (.ok (some bytes), { response with body := rest })
  | .error err :: rest => (.error err, { response with body := rest })

/-- `drain_body` on a response whose successive `chunk()` calls return `answers`,
with at most `fuel` calls: the result and the number of calls. -/
def drainCalls (answers : Nat → Except ReqwestError (Option Chunk)) (fuel : Nat) :
    Option (Except ReqwestError Unit × Nat) := Pull.drain (Pull.nth answers) fuel 0

/-! ## The loop -/

/-- The last item that is taken from a body: its first error, if it has one. -/
def lastTaken : Except ReqwestError Unit → List (Except ReqwestError Chunk)
  | .ok () => []
  | .error err => [.error err]

/-- The chunks up to the end or the first error are taken, with that error, and
the rest is left. -/
theorem drainBody_yields (response : Response) : ∃ chunks : List Chunk,
    Pull.Yields chunk response chunks (drainBody response).1 (drainBody response).2 ∧
      response.body = chunks.map .ok ++ lastTaken (drainBody response).1 ++
        (drainBody response).2.body ∧
      ((drainBody response).1 = .ok () → (drainBody response).2.body = []) := by
  obtain ⟨status, body⟩ := response
  induction body with
  | nil => exact ⟨[], .done rfl, rfl, fun _ => rfl⟩
  | cons item rest ih =>
    cases item with
    | error err => exact ⟨[], .failed rfl, rfl, fun h => by cases h⟩
    | ok bytes =>
      obtain ⟨chunks, hyields, hbody, hend⟩ := ih
      exact ⟨bytes :: chunks, .item rfl hyields, congrArg (List.cons _) hbody, hend⟩

theorem drainBody_ok_iff (response : Response) :
    (drainBody response).1 = .ok () ↔ ∀ err, .error err ∉ response.body := by
  obtain ⟨chunks, -, hbody, hend⟩ := drainBody_yields response
  cases hresult : (drainBody response).1 with
  | error err =>
    rw [hresult] at hbody
    refine iff_of_false (by simp) ?_
    intro h
    apply h err
    rw [hbody]
    simp [lastTaken]
  | ok u =>
    rw [hresult, hend hresult] at hbody
    refine iff_of_true rfl ?_
    rw [hbody]
    simp [lastTaken]

/-- The loop ends on every body, within one call more than it has items. -/
theorem drain_chunk (response : Response) {fuel : Nat} (h : response.body.length < fuel) :
    Pull.drain chunk fuel response = some (drainBody response) := by
  obtain ⟨chunks, hyields, hbody, -⟩ := drainBody_yields response
  have hlen : chunks.length ≤ response.body.length := by
    rw [hbody, List.append_assoc, List.length_append, List.length_map]
    exact Nat.le_add_right _ _
  exact Pull.drain_eq_some_iff.mpr ⟨chunks, Nat.lt_of_le_of_lt hlen h, hyields⟩

/-- On any sequence of answers the loop ends with the first that is not a chunk,
and asks for no other. -/
theorem drainCalls_eq_some {answers : Nat → Except ReqwestError (Option Chunk)} {n : Nat}
    (hchunks : ∀ i < n, ∃ bytes, answers i = .ok (some bytes))
    (hend : ∀ bytes, answers n ≠ .ok (some bytes)) :
    ∃ result, (∀ fuel, n < fuel → drainCalls answers fuel = some (result, n + 1)) ∧
      (result = .ok () ↔ answers n = .ok none) := by
  have hstop : ∃ result : Except ReqwestError Unit, answers n = result.map fun _ => none := by
    cases hn : answers n with
    | error err => exact ⟨.error err, rfl⟩
    | ok item =>
      cases item with
      | none => exact ⟨.ok (), rfl⟩
      | some bytes => exact absurd hn (hend bytes)
  obtain ⟨result, hresult⟩ := hstop
  have hzero : ∀ i, 0 + i = i := Nat.zero_add
  obtain ⟨items, hlen, hyields⟩ := @Pull.yields_nth _ _ answers 0 n result
    (fun i hi => by rw [hzero]; exact hchunks i hi) (by rw [hzero]; exact hresult)
  rw [hzero] at hyields
  refine ⟨result, ?_, ?_⟩
  · intro fuel hfuel
    exact Pull.drain_eq_some_iff.mpr ⟨items, by omega, hyields⟩
  · rw [hresult]
    cases result <;> simp [Except.map]

/-! ## The verdict -/

/-- The answer to a request, up to the body of the response. -/
def statusOf (answer : Except ReqwestError Response) : Except ReqwestError StatusCode :=
  answer.map Response.status

/-- The entry of a target whose response has a status. -/
def statusEntry (url : String) (status : StatusCode) : HttpCheck :=
  { url, status := if 200 ≤ status.code ∧ status.code ≤ 299 then .up else .down
    httpStatus := some status.code, error := none }

theorem takeAnswer_ok (timeout : Duration) (url : String) (response : Response) :
    takeAnswer timeout url (.ok response) =
      (statusEntry url response.status, some (drainBody response).2) := by
  have h299 : response.status.code < 300 ↔ response.status.code ≤ 299 := by
    rw [UInt16.lt_iff_toNat_lt, UInt16.le_iff_toNat_le]
    exact Nat.lt_succ_iff
  simp [takeAnswer, drain, statusEntry, StatusCode.isSuccess, StatusCode.asU16, h299]

theorem httpEntry_ok (timeout : Duration) (url : String) (response : Response) :
    httpEntry timeout url (.ok response) = statusEntry url response.status := by
  rw [httpEntry, takeAnswer_ok]

theorem httpEntry_congr (timeout : Duration) (url : String)
    {answer answer' : Except ReqwestError Response} (h : statusOf answer = statusOf answer') :
    httpEntry timeout url answer = httpEntry timeout url answer' := by
  cases answer with
  | error err =>
    cases answer' with
    | error err' =>
      cases h
      rfl
    | ok response' => cases h
  | ok response =>
    cases answer' with
    | error err' => cases h
    | ok response' =>
      have hstatus : response.status = response'.status := Except.ok.inj h
      rw [httpEntry_ok, httpEntry_ok, hstatus]

/-- The body of a response has no say in the entry of its target, nor in the
component: the status decides alone.  Reading the body ends, takes every chunk up
to its end or its first error and none after it, and succeeds exactly when the end
was reached without an error. -/
theorem body_irrelevant (timeout : Duration) :
    (∀ url status body (o : World), (¬ ∃ suffix, url = "mock://" ++ suffix) →
        o.head (.send url) = .ok { status, body } →
        Future.Inevitably (fun entry => entry = statusEntry url status)
          (checkTarget timeout url) o) ∧
      (∀ (self : HttpHealthCheck) (o o' : World),
        (∀ (i : Nat) url, self.targets[i]? = some url →
          statusOf ((o.part i).head (.send url)) = statusOf ((o'.part i).head (.send url))) →
        self.check.value o = self.check.value o') ∧
      (∀ response : Response,
        (∀ fuel, response.body.length < fuel →
          Pull.drain chunk fuel response = some (drainBody response)) ∧
        (∃ chunks : List Chunk, response.body = chunks.map .ok ++
          lastTaken (drainBody response).1 ++ (drainBody response).2.body) ∧
        ((drainBody response).1 = .ok () → (drainBody response).2.body = []) ∧
        ((drainBody response).1 = .ok () ↔ ∀ err, .error err ∉ response.body) ∧
        ∀ url, takeAnswer timeout url (.ok response) =
          (statusEntry url response.status, some (drainBody response).2)) ∧
      ∀ (answers : Nat → Except ReqwestError (Option Chunk)) (n : Nat),
        (∀ i < n, ∃ bytes, answers i = .ok (some bytes)) →
        (∀ bytes, answers n ≠ .ok (some bytes)) →
        ∃ result, (∀ fuel, n < fuel → drainCalls answers fuel = some (result, n + 1)) ∧
          (result = .ok () ↔ answers n = .ok none) := by
  refine ⟨?_, ?_, ?_, fun answers n => drainCalls_eq_some⟩
  · intro url status body o hmock hsend
    apply Future.inevitably_of_value
    rw [checkTarget_value, (mockCheck_eq_none_iff url).mpr hmock, hsend, Option.getD_none,
      httpEntry_ok]
  · intro self o o' h
    have hresults : (self.targets.mapIdx fun i url =>
          (checkTarget self.timeout url).value (o.part i)) =
        self.targets.mapIdx fun i url => (checkTarget self.timeout url).value (o'.part i) := by
      apply List.ext_getElem?
      intro i
      rw [List.getElem?_mapIdx, List.getElem?_mapIdx]
      cases hurl : self.targets[i]? with
      | none => rfl
      | some url =>
        simp only [Option.map_some, checkTarget_value]
        rw [httpEntry_congr self.timeout url (h i url hurl)]
    rw [HttpHealthCheck.check, joinedComponent_value, joinedComponent_value, hresults]
  · intro response
    obtain ⟨chunks, -, hbody, hend⟩ := drainBody_yields response
    exact ⟨fun fuel => drain_chunk response, ⟨chunks, hbody⟩, hend, drainBody_ok_iff response,
      fun url => takeAnswer_ok timeout url response⟩

end Http

end AxumHealth

import AxumHealth.Health.Component
import AxumHealth.Health.HttpClient

/-!
# HTTP checks

The check of `src/health/http.rs`.  Reading the body of a response is modelled on
the chunks the response carries.
-/

namespace AxumHealth

open Concurrency

namespace Http

structure HttpCheck where
  url : String
  status : Status
  httpStatus : Option UInt16
  error : Option String
  deriving DecidableEq, Repr

def HttpCheck.toValue (check : HttpCheck) : Json.Value :=
  .object ([("url", .string check.url), ("status", check.status.toValue)] ++
    Json.optionalField "http_status" (fun n => .number n.toNat) check.httpStatus ++
    Json.optionalField "error" .string check.error)

/-- `HttpDetails` -/
def httpDetails (urls : List HttpCheck) : Json.Value :=
  .object [("urls", .array (urls.map HttpCheck.toValue))]

def mockCheck (url : String) : Option HttpCheck :=
  match Text.stripPrefix url "mock://" with
  | none => none
  | some suffix => some <|
    if suffix = "up" then { url, status := .up, httpStatus := some 200, error := none }
    else if suffix = "down" then { url, status := .down, httpStatus := some 503, error := none }
    else
      { url, status := .down, httpStatus := none, error := some s!"unsupported mock url: {url}" }

/-- Take chunks until the end of the body or an error. -/
def drainBody (response : Response) : Except ReqwestError Unit × Response :=
  let (result, body) := go response.body
  (result, { response with body })
where
  go : List (Except ReqwestError (List UInt8)) →
      Except ReqwestError Unit × List (Except ReqwestError (List UInt8))
    | [] => (.ok (), [])
    | .ok _ :: rest => go rest
    | .error err :: rest => (.error err, rest)

/-- The result of reading the body is only logged. -/
def drain (response : Response) : Response := (drainBody response).2

/-- The entry of a target, from the answer to its request, and the response as it is
when it is dropped. -/
def takeAnswer (timeout : Duration) (url : String) :
    Except ReqwestError Response → HttpCheck × Option Response
  | .error err =>
    if err.isTimeout then
      ({ url, status := .down, httpStatus := none
         error := some s!"request timed out after {timeout.asSecs} seconds" }, none)
    else ({ url, status := .down, httpStatus := none, error := some err.text }, none)
  | .ok response =>
    let status := response.status
    let response := drain response
    ({ url, status := if status.isSuccess then .up else .down
       httpStatus := some status.asU16, error := none }, some response)

def httpEntry (timeout : Duration) (url : String) (answer : Except ReqwestError Response) :
    HttpCheck := (takeAnswer timeout url answer).1

def checkTarget (timeout : Duration) (target : String) : Probing HttpCheck :=
  match mockCheck target with
  | some result => pure result
  | none => do
    let answer ← send target
    pure (httpEntry timeout target answer)

structure HttpHealthCheck where
  base : Client
  targets : List String
  timeout : Duration

def HttpHealthCheck.new (parseUrl : String → Except String (Option String))
    (config : List HttpCheckConfig) (timeoutSeconds : UInt64) : Except Panic HttpHealthCheck := do
  let timeout := Duration.fromSecs timeoutSeconds
  let base ← buildClient parseUrl config timeout
  return { base, targets := config.map fun check => check.url, timeout }

def HttpHealthCheck.check (self : HttpHealthCheck) : Probing ComponentHealth :=
  joinedComponent (checkTarget self.timeout) HttpCheck.status httpDetails self.targets

theorem HttpHealthCheck.new_eq_ok {parseUrl : String → Except String (Option String)}
    {config : List HttpCheckConfig} {timeoutSeconds : UInt64} {check : HttpHealthCheck}
    (h : HttpHealthCheck.new parseUrl config timeoutSeconds = .ok check) :
    buildClient parseUrl config (.fromSecs timeoutSeconds) = .ok check.base ∧
      check.targets = config.map (fun c => c.url) ∧ check.timeout = .fromSecs timeoutSeconds := by
  cases hclient : buildClient parseUrl config (.fromSecs timeoutSeconds) with
  | error panic =>
    simp only [HttpHealthCheck.new, hclient] at h
    cases h
  | ok base =>
    simp only [HttpHealthCheck.new, hclient] at h
    cases h
    exact ⟨rfl, rfl, rfl⟩

/-! ## The fields of an entry -/

theorem HttpCheck.field?_url (check : HttpCheck) :
    check.toValue.field? "url" = some (.string check.url) := by
  simp [HttpCheck.toValue]

theorem HttpCheck.field?_status (check : HttpCheck) :
    check.toValue.field? "status" = some check.status.toValue := by
  simp [HttpCheck.toValue]

/-! ## The entry -/

theorem checkTarget_value (timeout : Duration) (target : String) (o : World) :
    (checkTarget timeout target).value o =
      (mockCheck target).getD (httpEntry timeout target (o.head (.send target))) := by
  unfold checkTarget
  cases mockCheck target <;> rfl

theorem mockCheck_eq_none_iff (url : String) :
    mockCheck url = none ↔ ¬ ∃ suffix, url = "mock://" ++ suffix := by
  rw [← Text.stripPrefix_eq_none_iff]
  unfold mockCheck
  cases Text.stripPrefix url "mock://" <;> simp

theorem mockCheck_url {url : String} {check : HttpCheck} (h : mockCheck url = some check) :
    check.url = url := by
  unfold mockCheck at h
  cases hsuffix : Text.stripPrefix url "mock://" with
  | none => simp [hsuffix] at h
  | some suffix =>
    simp only [hsuffix, Option.some.injEq] at h
    subst h
    by_cases hup : suffix = "up"
    · simp [hup]
    · by_cases hdown : suffix = "down" <;> simp [hup, hdown]

/-- Of the mock targets only `mock://up` is UP. -/
theorem mockCheck_up_iff {url : String} {check : HttpCheck} (h : mockCheck url = some check) :
    check.status = .up ↔ url = "mock://up" := by
  unfold mockCheck at h
  cases hsuffix : Text.stripPrefix url "mock://" with
  | none => simp [hsuffix] at h
  | some suffix =>
    simp only [hsuffix, Option.some.injEq] at h
    subst h
    have hurl : url = "mock://up" ↔ suffix = "up" := by
      rw [show "mock://up" = "mock://" ++ "up" from rfl, ← Text.stripPrefix_eq_some_iff, hsuffix,
        Option.some.injEq]
    rw [hurl]
    by_cases hup : suffix = "up"
    · simp [hup]
    · by_cases hdown : suffix = "down" <;> simp [hup, hdown]

theorem httpEntry_url (timeout : Duration) (url : String) (answer : Except ReqwestError Response) :
    (httpEntry timeout url answer).url = url := by
  cases answer with
  | ok response => rfl
  | error err =>
    unfold httpEntry takeAnswer
    by_cases h : err.isTimeout = true <;> simp [h]

/-- A target is UP when it sent a response with a 2xx status. -/
theorem httpEntry_up_iff (timeout : Duration) (url : String)
    (answer : Except ReqwestError Response) :
    (httpEntry timeout url answer).status = .up ↔
      ∃ response, answer = .ok response ∧ 200 ≤ response.status.code ∧
        response.status.code < 300 := by
  cases answer with
  | ok response =>
    simp [httpEntry, takeAnswer, StatusCode.isSuccess]
  | error err =>
    unfold httpEntry takeAnswer
    by_cases h : err.isTimeout = true <;> simp [h]

theorem checkTarget_url (timeout : Duration) (target : String) (o : World) :
    ((checkTarget timeout target).value o).url = target := by
  rw [checkTarget_value]
  cases h : mockCheck target with
  | some check => exact mockCheck_url h
  | none => exact httpEntry_url timeout target _

end Http

end AxumHealth

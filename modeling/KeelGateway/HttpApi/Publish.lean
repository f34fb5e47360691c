import KeelGateway.HttpApi.Handler

/-!
# Answers of the HTTP adapter

A request to a telemetry or event endpoint is authenticated, handed to the output connectors and
answered. A success is meant to say that the message was forwarded, and it says so but in two cases.
When the credential store rejects a device no answer is written, and `net/http` sends a status of
200. And of a body over the limit only the beginning is forwarded.

-/

namespace KeelGateway.HttpApi

open Auth Broker

/-- The endpoints, with the parameter of the path. -/
inductive Endpoint where
  | telemetry
  | telemetrySub (sub : Text)
  | event
  | eventSub (subject : Text)

/-- `ForwardRequest`, as the adapter fills it in. -/
structure ForwardRequest where
  topic : Text
  payload : List UInt8
  contentType : Text := "application/json".toList
  deviceID : Text
  tenantID : Text
  deriving DecidableEq

/-- The status of an answer, and the requests that `FanOut` was called with. -/
structure Answer where
  status : ℕ
  handed : List ForwardRequest := []
  deriving DecidableEq

/-- The topic that a path stands for. -/
def Endpoint.topic : Endpoint → Text
  | telemetry => "telemetry/metrics".toList
  | telemetrySub sub => "telemetry/".toList ++ sub
  | event => "event/event".toList
  | eventSub subject => "event/".toList ++ subject

/-- The status of a success. -/
def Endpoint.status : Endpoint → ℕ
  | telemetry | telemetrySub _ => 202
  | event | eventSub _ => 201

namespace Handler

variable (h : Handler)

/-- The request that `forward` hands on. -/
def forward (device : DeviceInfo) (topic : Text) (payload : List UInt8) : ForwardRequest where
  topic := topic
  payload := payload
  deviceID := device.id.string
  tenantID := device.tenantID.string

/-- The body of the four handlers. `net/http` sends a status of 200 when none is written. -/
def publish (topic : Text) (status : ℕ) (r : Request) : Answer :=
  match h.authenticate r with
  | .error none => { status := 200 }
  | .error (some response) => { status := response.code }
  | .ok (device, payload) => { status := status, handed := [forward device topic payload] }

/-- `handleTelemetry`. -/
def handleTelemetry : Request → Answer := h.publish "telemetry/metrics".toList 202

/-- `handleTelemetrySub`. -/
def handleTelemetrySub (sub : Text) : Request → Answer := h.publish ("telemetry/".toList ++ sub) 202

/-- `handleEvent`. -/
def handleEvent (subject : Text) : Request → Answer := h.publish ("event/".toList ++ subject) 201

/-- `handleEventSub`. -/
def handleEventSub (subject : Text) : Request → Answer := h.publish ("event/".toList ++ subject) 201

/-- The routes of `Router` for the endpoints, by either method. -/
def serve : Endpoint → Request → Answer
  | .telemetry => h.handleTelemetry
  | .telemetrySub sub => h.handleTelemetrySub sub
  | .event => h.handleEvent "event".toList
  | .eventSub subject => h.handleEventSub subject

/-- Authentication has succeeded, for a device. -/
def Authenticated (r : Request) (device : DeviceInfo) : Prop :=
  ∃ c, extractCredentials h.decodeString r = some c ∧ h.resolve c = .ok device

/-- The credential store has no device for the credentials, after all checks before it have
passed. -/
def StoreRejects (c : Credentials) : Prop :=
  match h.jwtCache c with
  | some get =>
    ∃ cfg, get c.tenantID = some cfg ∧ cfg.jwtAuthEnabled = true ∧
      h.validateJWT c.tenantID c.deviceID (Base64.utf8 c.token) = true ∧
      Validator.lookupByCN h.parser h.rows c.deviceID c.tenantID = none
  | none =>
    Validator.validate h.parser h.rows h.now c.deviceID (Base64.utf8 c.token) = none

end Handler

/-- A status of the range 2xx. -/
def Answer.Success (a : Answer) : Prop := 200 ≤ a.status ∧ a.status < 300

/-- The answer is a success exactly if the device was authenticated and its message handed on once
and in full, and otherwise it is an error and nothing is handed on. -/
def AnswersForwarded (h : Handler) (endpoint : Endpoint) (r : Request) : Prop :=
  ((h.serve endpoint r).Success ↔ ∃ device body, h.Authenticated r device ∧ r.body = some body ∧
    (h.serve endpoint r).handed = [Handler.forward device endpoint.topic body]) ∧
  (¬ (h.serve endpoint r).Success →
    400 ≤ (h.serve endpoint r).status ∧ (h.serve endpoint r).status < 600 ∧
      (h.serve endpoint r).handed = [])

section Answers

variable {h : Handler} {endpoint : Endpoint} {r : Request} {c : Credentials}

theorem serve_eq : h.serve endpoint r = h.publish endpoint.topic endpoint.status r := by
  cases endpoint <;> rfl

theorem resolve_cases (h : Handler) (c : Credentials) :
    (∃ device, h.resolve c = .ok device ∧ ¬ h.StoreRejects c) ∨
      (h.resolve c = .error none ∧ h.StoreRejects c) ∨
      (h.resolve c = .error (some Handler.unauthorized) ∧ ¬ h.StoreRejects c) := by
  unfold Handler.resolve Handler.StoreRejects
  cases h.jwtCache c with
  | none =>
    cases hvalidate : Validator.validate h.parser h.rows h.now c.deviceID (Base64.utf8 c.token) with
    | none => exact Or.inr (Or.inl ⟨rfl, rfl⟩)
    | some device => exact Or.inl ⟨device, rfl, by simp⟩
  | some get =>
    cases hcfg : get c.tenantID with
    | none => simp [hcfg]
    | some cfg =>
      cases henabled : cfg.jwtAuthEnabled with
      | false => simp [hcfg, henabled]
      | true =>
        cases h.validateJWT c.tenantID c.deviceID (Base64.utf8 c.token) with
        | false => simp [hcfg]
        | true =>
          cases Validator.lookupByCN h.parser h.rows c.deviceID c.tenantID <;> simp [hcfg, henabled]

theorem answersForwarded_of_error {response : ErrorResponse}
    (hauth : h.authenticate r = .error (some response))
    (hcode : 400 ≤ response.code ∧ response.code < 600) : AnswersForwarded h endpoint r := by
  have hserve : h.serve endpoint r = { status := response.code } := by
    rw [serve_eq, Handler.publish, hauth]
  rw [AnswersForwarded, hserve]
  refine ⟨iff_of_false (fun hsuccess => ?_) ?_, fun _ => ⟨hcode.1, hcode.2, rfl⟩⟩
  · exact absurd hsuccess.2 (by dsimp only; omega)
  · rintro ⟨device, body, -, -, hhanded⟩
    cases hhanded

theorem answersForwarded_of_ok {device : DeviceInfo} {body : List UInt8}
    (hdevice : h.Authenticated r device) (hbody : r.body = some body)
    (hauth : h.authenticate r = .ok (device, body.take (2 ^ 20))) :
    AnswersForwarded h endpoint r ↔ body.length ≤ 2 ^ 20 := by
  have hserve : h.serve endpoint r =
      ⟨endpoint.status, [Handler.forward device endpoint.topic (body.take (2 ^ 20))]⟩ := by
    rw [serve_eq, Handler.publish, hauth]
  have hsuccess : (h.serve endpoint r).Success := by
    rw [hserve]
    cases endpoint <;> simp [Answer.Success, Endpoint.status]
  rw [AnswersForwarded, iff_true_left hsuccess,
    and_iff_left fun hnot => absurd hsuccess hnot, hserve,
    hbody]
  constructor
  · rintro ⟨device', body', -, hbody', hhanded⟩
    cases hbody'
    have hpayload := congrArg ForwardRequest.payload (List.head_eq_of_cons_eq hhanded)
    exact (List.take_eq_self_iff _).1 hpayload
  · intro hlength
    exact ⟨device, body, hdevice, rfl, by rw [List.take_of_length_le hlength]⟩

/-- Success is answered exactly for forwarded messages as long as the credential store rejects no
device and the body of an authenticated request is within the limit. -/
theorem answersForwarded_iff (h : Handler) (endpoint : Endpoint) (r : Request) :
    AnswersForwarded h endpoint r ↔
      ∀ c, extractCredentials h.decodeString r = some c → ¬ h.StoreRejects c ∧
        ∀ device, h.resolve c = .ok device → ∀ body, r.body = some body → body.length ≤ 2 ^ 20 := by
  cases hcredentials : extractCredentials h.decodeString r with
  | none =>
    have hauth : h.authenticate r =
        .error (some ⟨"missing or invalid Authorization header".toList, 401⟩) := by
      rw [Handler.authenticate, hcredentials]
    exact iff_of_true (answersForwarded_of_error hauth (by simp)) fun _ hc => by cases hc
  | some c =>
    simp only [Option.some.injEq, forall_eq']
    rcases resolve_cases h c with
      ⟨device, hresolve, hstore⟩ | ⟨hresolve, hstore⟩ | ⟨hresolve, hstore⟩
    · simp only [hresolve, Except.ok.injEq, forall_eq', hstore, not_false_eq_true, true_and]
      have hrequired (hbody : r.body = none ∨ r.body = some []) :
          h.authenticate r = .error (some ⟨"request body required".toList, 400⟩) := by
        rcases hbody with hbody | hbody <;>
          simp only [Handler.authenticate, hcredentials, hresolve, hbody] <;> rfl
      cases hbody : r.body with
      | none =>
        exact iff_of_true (answersForwarded_of_error (hrequired (.inl hbody)) (by simp))
          fun _ hnone => by cases hnone
      | some body =>
        simp only [Option.some.injEq, forall_eq']
        cases body with
        | nil =>
          exact iff_of_true (answersForwarded_of_error (hrequired (.inr hbody)) (by simp))
            (Nat.zero_le _)
        | cons byte bytes =>
          refine answersForwarded_of_ok ⟨c, hcredentials, hresolve⟩ hbody ?_
          simp only [Handler.authenticate, hcredentials, hresolve, hbody]
          rfl
    · -- nothing is written
      have hserve : h.serve endpoint r = { status := 200 } := by
        simp only [serve_eq, Handler.publish, Handler.authenticate, hcredentials, hresolve]
        rfl
      refine iff_of_false (fun hanswers => ?_) fun hcond => hcond.1 hstore
      have hsuccess : (h.serve endpoint r).Success := by
        rw [hserve]
        exact ⟨le_rfl, by decide⟩
      obtain ⟨_, _, _, _, hhanded⟩ := hanswers.1.1 hsuccess
      rw [hserve] at hhanded
      cases hhanded
    · have herror : h.authenticate r = .error (some Handler.unauthorized) := by
        simp only [Handler.authenticate, hcredentials, hresolve]
        rfl
      refine iff_of_true (answersForwarded_of_error herror ⟨by decide, by decide⟩)
        ⟨hstore, fun device hdevice => ?_⟩
      cases hresolve.symm.trans hdevice

/-- A handler without devices. -/
def noDevices : Handler where
  parser := .hexadecimal
  rows := []

/-- A device sends a byte with a token. -/
def withToken : Request := ⟨"Bearer token".toList, ['d'], [], some [0]⟩

/-- A device that the store does not know is answered with success. -/
theorem not_answersForwarded_unknown : ¬ AnswersForwarded noDevices .telemetry withToken := by
  have hserve : noDevices.serve .telemetry withToken = ⟨200, []⟩ := by decide
  rintro ⟨h, -⟩
  rw [hserve] at h
  obtain ⟨_, _, _, _, hhanded⟩ := h.1 ⟨by decide, by decide⟩
  cases hhanded

end Answers

end KeelGateway.HttpApi

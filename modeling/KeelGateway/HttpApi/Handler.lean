import KeelGateway.Auth.Providers
import KeelGateway.Broker.Authenticate

/-!
# The HTTP adapter

A device that does not speak MQTT sends its messages over HTTP, with the credentials in the
`Authorization` header. A basic header holds a username and a token, a bearer header the token only,
and the device is then in a header or a parameter of its own. Either way the tenant may follow the
last `@` of the name.

-/

namespace KeelGateway.HttpApi

open Auth Broker

/-- The part of a request that is read. An absent header or parameter is empty. -/
structure Request where
  authorization : Text
  deviceIDHeader : Text := []
  deviceIDQuery : Text := []
  body : Option (List UInt8) := none

/-- What `ExtractCredentials` returns. -/
structure Credentials where
  deviceID : Text
  tenantID : Text
  token : Text
  deriving DecidableEq

/-- `strings.LastIndex`. -/
def lastIndex (c : Char) (t : Text) : Option ℕ :=
  (List.range t.length).reverse.find? fun i => t[i]? = some c

/-- The device and the tenant of a name. -/
def splitName (name : Text) : Text × Text :=
  match lastIndex '@' name with
  | some idx => if idx > 0 then (name.take idx, name.drop (idx + 1)) else (name, [])
  | none => (name, [])

/-- The last lines of either branch of `ExtractCredentials`. -/
def credentials (name token : Text) : Option Credentials :=
  let (deviceID, tenantID) := splitName name
  if deviceID ≠ [] ∧ token ≠ [] then some ⟨deviceID, tenantID, token⟩ else none

/-- `strings.SplitN(t, ":", 2)`, when it gives two parts. -/
def splitColon? (t : Text) : Option (Text × Text) :=
  match t.span (· != ':') with
  | (_, []) => none
  | (before, _ :: after) => some (before, after)

/-- `ExtractCredentials`, with the decoder for Base64. -/
def extractCredentials (decodeString : Text → Option Text) (r : Request) : Option Credentials :=
  if r.authorization = [] then none
  else if "Basic ".toList.isPrefixOf r.authorization then do
    let decoded ← decodeString (r.authorization.drop "Basic ".toList.length)
    let (username, token) ← splitColon? decoded
    credentials username token
  else if "Bearer ".toList.isPrefixOf r.authorization then
    let token := r.authorization.drop "Bearer ".toList.length
    let raw := if r.deviceIDHeader = [] then r.deviceIDQuery else r.deviceIDHeader
    credentials raw token
  else none

/-- A response that `http.Error` writes. -/
structure ErrorResponse where
  message : Text
  code : ℕ
  deriving DecidableEq

/-- The parts of `Handler` that authentication uses. -/
structure Handler where
  parser : UUIDParser
  rows : List DeviceRow
  now : ℤ := 0
  /-- `tenantCache.Get`, if there is a cache. -/
  tenantCache : Option (Text → Option TenantGatewayConfig) := none
  validateJWT : Text → Text → List UInt8 → Bool := fun _ _ _ => false
  /-- `base64.StdEncoding.DecodeString`. -/
  decodeString : Text → Option Text := fun _ => none

namespace Handler

variable (h : Handler)

/-- `http.Error(w, "unauthorized", http.StatusUnauthorized)`. -/
def unauthorized : ErrorResponse := ⟨"unauthorized".toList, 401⟩

/-- The tenant cache, if the token is to be checked as a JWT. -/
def jwtCache (c : Credentials) : Option (Text → Option TenantGatewayConfig) :=
  if detectAuthMethod (Base64.utf8 c.token) = .jwt ∧ c.tenantID ≠ [] then h.tenantCache else none

/-- The device of some credentials. A failure of the store writes no response. -/
def resolve (c : Credentials) : Except (Option ErrorResponse) DeviceInfo :=
  match h.jwtCache c with
  | some get =>
    match get c.tenantID with
    | none => .error (some unauthorized)
    | some cfg =>
      if !cfg.jwtAuthEnabled then .error (some unauthorized)
      else if !h.validateJWT c.tenantID c.deviceID (Base64.utf8 c.token) then
        .error (some unauthorized)
      else (Validator.lookupByCN h.parser h.rows c.deviceID c.tenantID).elim (.error none) .ok
  | none =>
    (Validator.validate h.parser h.rows h.now c.deviceID (Base64.utf8 c.token)).elim (.error none)
      .ok

/-- `authenticate`: the device and the body, or the response that has been written, if any. -/
def authenticate (r : Request) : Except (Option ErrorResponse) (DeviceInfo × List UInt8) :=
  match extractCredentials h.decodeString r with
  | none => .error (some ⟨"missing or invalid Authorization header".toList, 401⟩)
  | some c => do
    let device ← h.resolve c
    match r.body.map (List.take (2 ^ 20)) with
    | none | some [] => .error (some ⟨"request body required".toList, 400⟩)
    | some body => .ok (device, body)

/-! ### What an accepted request has been checked for -/

variable {h}

theorem resolve_eq_ok_iff {c : Credentials} {device : DeviceInfo} :
    h.resolve c = .ok device ↔
      (∃ get cfg, h.jwtCache c = some get ∧ get c.tenantID = some cfg ∧ cfg.jwtAuthEnabled = true ∧
        h.validateJWT c.tenantID c.deviceID (Base64.utf8 c.token) = true ∧
        Validator.lookupByCN h.parser h.rows c.deviceID c.tenantID = some device) ∨
      (h.jwtCache c = none ∧
        Validator.validate h.parser h.rows h.now c.deviceID (Base64.utf8 c.token) =
          some device) := by
  have helim (o : Option DeviceInfo) :
      o.elim (.error none : Except (Option ErrorResponse) DeviceInfo) .ok = .ok device ↔
        o = some device := by
    cases o <;> simp
  rw [resolve]
  cases h.jwtCache c with
  | none => simp [helim]
  | some get =>
    cases hcfg : get c.tenantID with
    | none => simp [hcfg]
    | some cfg =>
      simp only [hcfg]
      split_ifs with henabled hjwt
      · simp_all
      · simp_all
      · simp_all

theorem authenticate_eq_ok_iff {r : Request} {device : DeviceInfo} {body : List UInt8} :
    h.authenticate r = .ok (device, body) ↔
      ∃ c, extractCredentials h.decodeString r = some c ∧ h.resolve c = .ok device ∧
        r.body.map (List.take (2 ^ 20)) = some body ∧ body ≠ [] := by
  rw [authenticate]
  cases extractCredentials h.decodeString r with
  | none => simp
  | some c =>
    simp only [Option.some.injEq, exists_eq_left']
    cases h.resolve c with
    | error response => simp [bind, Except.bind]
    | ok found =>
      simp only [bind, Except.bind]
      cases r.body.map (List.take (2 ^ 20)) with
      | none => simp
      | some content => cases content with
        | nil => simp
        | cons byte bytes =>
          simp only [Except.ok.injEq, Prod.mk.injEq, Option.some.injEq]
          constructor
          · rintro ⟨rfl, rfl⟩
            exact ⟨rfl, rfl, List.cons_ne_nil byte bytes⟩
          · rintro ⟨hfound, hbody, -⟩
            exact ⟨hfound, hbody⟩

end Handler

end KeelGateway.HttpApi

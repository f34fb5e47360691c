import KeelGateway.Lib.StepMachine
import KeelGateway.Text

/-!
# The cache of device CA certificates

A tenant may leave its CA certificate with an external custodian. `DeviceCACache` fetches it and
keeps it for some time, and goes on serving an old certificate while the custodian cannot be
reached.

-/

namespace KeelGateway.Auth

open StepMachine

/-- The custodian's response to a request that went through. -/
structure CAResponse where
  statusCode : ℕ
  /-- `ca_certificate_pem` of the body, which may be null; absent if the body does not decode. -/
  caCertificatePEM : Option (Option Text)

/-- `deviceCAEntry`. -/
structure DeviceCAEntry where
  caPEMs : Option (List Text) := none
  expiresAt : ℤ := 0

/-- `DeviceCACache`. -/
structure DeviceCACache where
  entries : GoMap Text DeviceCAEntry := ∅
  ttl : ℤ := 300000000000

namespace DeviceCACache

/-- `fetch`; there is no response if the request fails. -/
def fetch : Option CAResponse → Option (List Text)
  | none => none
  | some resp =>
    if resp.statusCode ≠ 200 then none
    else
      match resp.caCertificatePEM with
      | some (some pem) => if pem = [] then none else some [pem]
      | _ => none

/-- `fresh`. -/
def fresh (e : DeviceCAEntry) (now : ℤ) : Bool := e.expiresAt ≠ 0 && now < e.expiresAt

/-- `TrustedCAPEMs`, with the response that a fetch would get. There is no answer in case of an
error. -/
def trustedCAPEMs (c : DeviceCACache) (now : ℤ) (tenantID : Text) (resp : Option CAResponse) :
    DeviceCACache × Option (List Text) :=
  let e := (c.entries.lookup tenantID).getD {}
  if e.caPEMs.isSome && fresh e now then
    ({ c with entries := c.entries.insert tenantID e }, e.caPEMs)
  else
    match fetch resp with
    | some pems =>
      ({ c with entries := c.entries.insert tenantID ⟨some pems, now + c.ttl⟩ }, some pems)
    | none => ({ c with entries := c.entries.insert tenantID e }, e.caPEMs)

end DeviceCACache

/-- A call of the cache. -/
structure CACall where
  now : ℤ
  tenantID : Text
  resp : Option CAResponse

/-- A cache that has served some calls, and what its next fetch would get. -/
structure CASource where
  history : List CACall := []
  now : ℤ := 0
  resp : Text → Option CAResponse

namespace CASource

/-- The cache after its calls. -/
def cache (source : CASource) : DeviceCACache :=
  run (fun c call => (c.trustedCAPEMs call.now call.tenantID call.resp).1) {} source.history

/-- What `TrustedCAPEMs` answers for a tenant. -/
def answer (source : CASource) (tenantID : Text) : Option (List Text) :=
  (source.cache.trustedCAPEMs source.now tenantID (source.resp tenantID)).2

end CASource

end KeelGateway.Auth

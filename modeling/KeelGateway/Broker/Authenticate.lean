import Mathlib.Data.Option.Basic
import KeelGateway.Broker.AclCheck
import KeelGateway.Lib.Base64

/-!
# Authentication of a CONNECT

`authenticate` turns what a CONNECT presents into a device and its tenant. A client certificate
comes first and decides alone. Without one the username, the client ID and the password do: a
client ID of the form `tenants/<tid>/devices/<did>` asks for a JWT of that device, any other
CONNECT takes its identity from the username, or from the client ID when there is no username.

-/

namespace KeelGateway.Broker

/-- A client certificate: its common name, and whatever else its verification looks at. -/
structure Certificate where
  commonName : Text
  raw : List UInt8 := []

/-- The part of `TenantGatewayConfig` that authentication reads. -/
structure TenantGatewayConfig where
  passwordAuthEnabled : Bool
  jwtAuthEnabled : Bool
  certAuthEnabled : Bool
  trustedCAPEMs : Option (List Text) := none
  clavexCAURL : Text := []
  autoProvisioning : Bool := false

/-- The parts outside the gateway's own code that authentication asks. -/
structure Backend where
  tenantConfig : Text → Option TenantGatewayConfig
  lookupByCN : Text → Text → Option DeviceInfo
  validatePassword : Text → List UInt8 → Option DeviceInfo
  validateJWT : Text → Text → List UInt8 → Bool
  validateJWTFromClientID : Text → Text → List UInt8 → Bool
  /-- `deviceCACache.TrustedCAPEMs`, by tenant; no cache is configured when absent. -/
  deviceCACache : Option (Text → Option (Option (List Text))) := none
  parsesPEM : Text → Bool := fun _ => false
  verifies : Certificate → List Text → Bool := fun _ _ => false
  /-- `clusterRegistry.IsRevoked`; always false without a cluster. -/
  isRevoked : Text → Bool := fun _ => false
  parseUUID : Text → Option UUID := fun _ => none

/-- What a CONNECT presents. -/
structure Connection where
  clientID : Text
  username : Text := []
  password : List UInt8 := []
  certificate : Option Certificate := none
  clean : Bool := false
  protocolVersion : ℕ := 5

/-- `ParseClientIdentifier`: the tenant and the device of a client ID of the form
`tenants/<tid>/devices/<did>`. -/
def parseClientIdentifier (clientID : Text) : Option (Text × Text) :=
  match splitN 4 clientID with
  | [tenants, tenantID, devices, deviceID] =>
    if tenants = "tenants".toList ∧ devices = "devices".toList ∧ tenantID ≠ [] ∧ deviceID ≠ [] then
      some (tenantID, deviceID)
    else none
  | _ => none

/-- `DetectAuthMethod`. -/
def detectAuthMethod (password : List UInt8) : AuthMethod :=
  if password.length > 4 ∧ password.take 3 = Base64.utf8 "eyJ".toList then .jwt else .password

/-- `strings.SplitN(t, "@", 2)`, when it gives two parts. -/
def splitAt? (t : Text) : Option (Text × Text) :=
  match t.span (· != '@') with
  | (_, []) => none
  | (before, _ :: after) => some (before, after)

namespace Backend

variable (b : Backend)

/-- `VerifyCertificate`: the device and the tenant of the common name. Without a list of CA
certificates the chain is not verified. -/
def verifyCertificate (cert : Certificate) (trustedCAPEMs : Option (List Text)) :
    Option (Text × Text) :=
  match splitAt? cert.commonName with
  | none => none
  | some (deviceID, tenantID) =>
    if deviceID = [] ∨ tenantID = [] then none
    else
      match trustedCAPEMs with
      | none => some (deviceID, tenantID)
      | some pems =>
        if pems = [] then none
        else if pems.all b.parsesPEM && b.verifies cert pems then some (deviceID, tenantID)
        else none

/-- `NewPendingDeviceInfo`. -/
def newPendingDeviceInfo (deviceID tenantID : Text) : DeviceInfo where
  id := (b.parseUUID deviceID).getD UUID.nil
  tenantID := (b.parseUUID tenantID).getD UUID.nil

/-- The CA certificates for a tenant: those of the cache when a URL is configured. -/
def caPEMs (tenantID : Text) (cfg : TenantGatewayConfig) : Option (Option (List Text)) :=
  match b.deviceCACache with
  | some cache => if cfg.clavexCAURL ≠ [] then cache tenantID else some cfg.trustedCAPEMs
  | none => some cfg.trustedCAPEMs

/-- The device of a certificate: the one that is known, or a pending one. -/
def resolveCert (cfg : TenantGatewayConfig) (deviceID tenantID : Text) : Option DeviceInfo :=
  match b.lookupByCN deviceID tenantID with
  | some info => some info
  | none => if cfg.autoProvisioning then some (b.newPendingDeviceInfo deviceID tenantID) else none

/-- `authenticateCert`, with the identity that is recorded for the session. -/
def authenticateCertIdentity (cert : Certificate) : Option (DeviceInfo × Text) := do
  let (_, tenantID) ← b.verifyCertificate cert none
  let cfg ← b.tenantConfig tenantID
  guard cfg.certAuthEnabled
  let pems ← b.caPEMs tenantID cfg
  let (deviceID, tenantID) ← b.verifyCertificate cert pems
  guard !b.isRevoked (deviceID ++ '@' :: tenantID)
  let info ← b.resolveCert cfg deviceID tenantID
  some (info, deviceID ++ '@' :: tenantID)

/-- `authenticateCert`. -/
def authenticateCert (cert : Certificate) : Option DeviceInfo :=
  (b.authenticateCertIdentity cert).map Prod.fst

/-- The test account of the source. -/
def testConsumerUsername : Text := "test-consumer".toList

/-- Its password. -/
def testConsumerPassword : List UInt8 := Base64.utf8 "consumer-e2e-testpass".toList

/-- The branch for a client ID that names a device. -/
def authenticateClientID (tenantID deviceID : Text) (password : List UInt8) :
    Option DeviceInfo := do
  let cfg ← b.tenantConfig tenantID
  guard cfg.jwtAuthEnabled
  guard (b.validateJWTFromClientID tenantID deviceID password)
  b.lookupByCN deviceID tenantID

/-- The device and the tenant that a username stands for. -/
def identity (defaultTenantID : Text) (conn : Connection) : Text × Text :=
  match splitAt? conn.username with
  | some (deviceID, tenantID) => (deviceID, tenantID)
  | none =>
    if conn.username ≠ [] then (conn.username, defaultTenantID)
    else (conn.clientID, defaultTenantID)

/-- The branch for a username or a plain client ID. -/
def authenticateUser (deviceID tenantID : Text) (password : List UInt8) : Option DeviceInfo := do
  let cfg ← b.tenantConfig tenantID
  match detectAuthMethod password with
  | .jwt =>
    guard cfg.jwtAuthEnabled
    guard (b.validateJWT tenantID deviceID password)
    b.lookupByCN deviceID tenantID
  | _ =>
    guard cfg.passwordAuthEnabled
    b.validatePassword deviceID password

/-- `keelHook.authenticate`, with the method that the hook remembers. -/
def authenticate (defaultTenantID : Text) (conn : Connection) : Option (DeviceInfo × AuthMethod) :=
  match conn.certificate with
  | some cert => (b.authenticateCert cert).map (·, .certificate)
  | none =>
    if conn.username = testConsumerUsername then
      if conn.password = testConsumerPassword then
        some (⟨UUID.nil, UUID.nil⟩, .testConsumerRole)
      else none
    else
      match parseClientIdentifier conn.clientID, conn.password with
      | some (tenantID, deviceID), _ :: _ =>
        (b.authenticateClientID tenantID deviceID conn.password).map
          (·, detectAuthMethod conn.password)
      | _, _ =>
        let (deviceID, tenantID) := identity defaultTenantID conn
        (b.authenticateUser deviceID tenantID conn.password).map
          (·, detectAuthMethod conn.password)

end Backend

end KeelGateway.Broker

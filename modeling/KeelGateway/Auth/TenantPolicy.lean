import KeelGateway.Auth.TenantConfig
import KeelGateway.Broker.CertificateAuth
import KeelGateway.HttpApi.Handler

/-!
# Authentication and the policy of a tenant

A tenant decides whether its devices may use passwords or JWTs. The gateway asks the tenant that the
client claims to belong to, or the default tenant. With a JWT the device is then looked up in that
tenant. With a password the device is found by its own key, in whatever tenant it is, and the HTTP
adapter asks no tenant at all.

-/

namespace KeelGateway.Auth

open Broker HttpApi

/-- The ways to authenticate without a certificate. -/
inductive LoginPath where
  /-- A JWT for the device that the client ID names. -/
  | clientID
  /-- A JWT for the device that the username or another header names. -/
  | jwt
  | password
  deriving DecidableEq

/-- The setting that allows the way. -/
def LoginPath.enabled (cfg : TenantGatewayConfig) : LoginPath → Bool
  | clientID | jwt => cfg.jwtAuthEnabled
  | password => cfg.passwordAuthEnabled

/-- The tenant of the device allows the way that was taken, and every tenant that the credentials
name is the tenant of the device. -/
structure RespectsPolicy (p : UUIDParser) (db : TenantDB) (info : DeviceInfo) (path : LoginPath)
    (named : List Text) : Prop where
  enabled : path.enabled (db.config info.tenantID) = true
  tenant : ∀ tenantID ∈ named, p.parse tenantID = some info.tenantID

/-! ### MQTT -/

/-- The way that a CONNECT takes. -/
def loginPath (conn : Connection) : LoginPath :=
  match parseClientIdentifier conn.clientID, conn.password with
  | some _, _ :: _ => .clientID
  | _, _ =>
    match detectAuthMethod conn.password with
    | .jwt => .jwt
    | _ => .password

/-- The tenant that the username names. -/
def usernameTenant (conn : Connection) : List Text := (splitAt? conn.username).toList.map Prod.snd

/-- The tenant that the client ID names. -/
def clientIDTenant (conn : Connection) : List Text :=
  (parseClientIdentifier conn.clientID).toList.map Prod.fst

theorem authenticateClientID_eq_some_iff {b : Backend} {tenantID deviceID : Text}
    {password : List UInt8} {info : DeviceInfo} :
    b.authenticateClientID tenantID deviceID password = some info ↔
      ∃ cfg, b.tenantConfig tenantID = some cfg ∧ cfg.jwtAuthEnabled = true ∧
        b.validateJWTFromClientID tenantID deviceID password = true ∧
        b.lookupByCN deviceID tenantID = some info := by
  simp only [Backend.authenticateClientID, Option.bind_eq_bind, Option.bind_eq_some_iff,
    guard_eq_some_iff, exists_const]

theorem authenticateUser_eq_some_iff {b : Backend} {tenantID deviceID : Text}
    {password : List UInt8} {info : DeviceInfo} :
    b.authenticateUser deviceID tenantID password = some info ↔
      ∃ cfg, b.tenantConfig tenantID = some cfg ∧
        ((detectAuthMethod password = .jwt ∧ cfg.jwtAuthEnabled = true ∧
            b.validateJWT tenantID deviceID password = true ∧
            b.lookupByCN deviceID tenantID = some info) ∨
          (detectAuthMethod password = .password ∧ cfg.passwordAuthEnabled = true ∧
            b.validatePassword deviceID password = some info)) := by
  have hmethod : detectAuthMethod password = .jwt ∨ detectAuthMethod password = .password := by
    rw [detectAuthMethod]
    split_ifs
    · exact .inl rfl
    · exact .inr rfl
  rcases hmethod with h | h <;>
    simp only [Backend.authenticateUser, h, Option.bind_eq_bind, Option.bind_eq_some_iff,
      guard_eq_some_iff, exists_const, reduceCtorEq, true_and, false_and, or_false,
      false_or]

section Connect

variable {n : AuthNode} {defaultTenantID : Text} {conn : Connection} {info : DeviceInfo}
  {method : AuthMethod}

theorem login_cases (hcert : conn.certificate = none)
    (huser : conn.username ≠ Backend.testConsumerUsername)
    (h : n.backend.authenticate defaultTenantID conn = some (info, method)) :
    (loginPath conn = .clientID ∧ ∃ tenantID deviceID,
      parseClientIdentifier conn.clientID = some (tenantID, deviceID) ∧
      n.backend.authenticateClientID tenantID deviceID conn.password = some info) ∨
    ((clientIDTenant conn ≠ [] → conn.password = []) ∧
      loginPath conn = (if detectAuthMethod conn.password = .jwt then .jwt else .password) ∧
      n.backend.authenticateUser (Backend.identity defaultTenantID conn).1
        (Backend.identity defaultTenantID conn).2 conn.password = some info) := by
  simp only [Backend.authenticate, hcert, if_neg huser] at h
  rw [loginPath, clientIDTenant]
  have hfst {o : Option DeviceInfo} {m : AuthMethod} (ho : o.map (·, m) = some (info, method)) :
      o = some info := by
    obtain ⟨found, hfound, hpair⟩ := Option.map_eq_some_iff.1 ho
    rw [hfound, (Prod.mk.inj hpair).1]
  cases hid : parseClientIdentifier conn.clientID with
  | none =>
    rw [hid] at h
    refine .inr ⟨fun hnamed => absurd rfl hnamed, ?_, hfst h⟩
    cases detectAuthMethod conn.password <;> rfl
  | some ids =>
    obtain ⟨tenantID, deviceID⟩ := ids
    rw [hid] at h
    cases hpassword : conn.password with
    | nil =>
      rw [hpassword] at h
      exact .inr ⟨fun _ => rfl, rfl, hfst h⟩
    | cons byte bytes =>
      rw [hpassword] at h
      exact .inl ⟨rfl, tenantID, deviceID, rfl, hfst h⟩

theorem identity_of_mem_usernameTenant {tenantID : Text} (h : tenantID ∈ usernameTenant conn) :
    (Backend.identity defaultTenantID conn).2 = tenantID := by
  obtain ⟨⟨deviceID, tenant⟩, hsplit, rfl⟩ := List.mem_map.1 h
  rw [Option.mem_toList] at hsplit
  rw [Backend.identity, hsplit]

theorem jwtAuthEnabled_of_lookupByCN {db : TenantDB}
    (hreads : ReadsTenants n.parser db n.tenantConfig) {deviceID tenantID : Text}
    {cfg : TenantGatewayConfig} (hcfg : n.tenantConfig tenantID = some cfg)
    (henabled : cfg.jwtAuthEnabled = true)
    (hlookup : n.provider.lookupByCN n.parser deviceID tenantID = some info) :
    n.parser.parse tenantID = some info.tenantID ∧
      (db.config info.tenantID).jwtAuthEnabled = true := by
  have hparse := Provider.parse_tenantID_of_lookupByCN hlookup
  rw [← hreads.eq_config hcfg hparse]
  exact ⟨hparse, henabled⟩

variable (n defaultTenantID conn) in
/-- What keeps an accepted CONNECT to the policy. A JWT for the device of the client ID leaves out
the tenant of the username. A password is checked against the settings of a tenant that need not be
the one in which `ValidatePassword` finds the device. -/
def ConnectKeeps (db : TenantDB) : Prop :=
  match loginPath conn with
  | .clientID => ∀ x ∈ usernameTenant conn, ∀ y ∈ clientIDTenant conn,
    n.parser.parse x = n.parser.parse y
  | .jwt => True
  | .password => ∀ info,
    n.backend.validatePassword (Backend.identity defaultTenantID conn).1 conn.password = some info →
      (∀ tenantID ∈ usernameTenant conn ++ clientIDTenant conn,
        n.parser.parse tenantID = some info.tenantID) ∧
      (usernameTenant conn = [] → (db.config info.tenantID).passwordAuthEnabled = true)

theorem respectsPolicy_connect_iff {db : TenantDB}
    (hreads : ReadsTenants n.parser db n.tenantConfig) (hcert : conn.certificate = none)
    (huser : conn.username ≠ Backend.testConsumerUsername)
    (h : n.backend.authenticate defaultTenantID conn = some (info, method)) :
    RespectsPolicy n.parser db info (loginPath conn) (usernameTenant conn ++ clientIDTenant conn) ↔
      ConnectKeeps n defaultTenantID conn db := by
  rcases login_cases hcert huser h with
    ⟨hpath, tenantID, deviceID, hid, haccept⟩ | ⟨hpassword, hpath, haccept⟩
  · -- The client ID names the device and its tenant.
    obtain ⟨cfg, hcfg, henabled, -, hlookup⟩ := authenticateClientID_eq_some_iff.1 haccept
    obtain ⟨hparse, hjwt⟩ := jwtAuthEnabled_of_lookupByCN hreads hcfg henabled hlookup
    have hnamed : clientIDTenant conn = [tenantID] := by rw [clientIDTenant, hid]; rfl
    rw [ConnectKeeps, hpath, hnamed]
    constructor
    · intro hrespects x hx y hy
      rw [hrespects.tenant x (List.mem_append_left _ hx), List.mem_singleton.1 hy, hparse]
    · refine fun hkeeps => ⟨hjwt, fun x hx => ?_⟩
      rcases List.mem_append.1 hx with hx | hx
      · rw [hkeeps x hx tenantID (List.mem_singleton_self _), hparse]
      · rw [List.mem_singleton.1 hx, hparse]
  · obtain ⟨cfg, hcfg, ⟨hmethod, henabled, -, hlookup⟩ | ⟨hmethod, henabled, hfound⟩⟩ :=
      authenticateUser_eq_some_iff.1 haccept
    · -- A JWT for the device and the tenant of the username.
      rw [hmethod, if_pos rfl] at hpath
      rw [ConnectKeeps, hpath, iff_true]
      obtain ⟨hparse, hjwt⟩ := jwtAuthEnabled_of_lookupByCN hreads hcfg henabled hlookup
      refine ⟨hjwt, fun y hy => ?_⟩
      rcases List.mem_append.1 hy with hy | hy
      · rw [← identity_of_mem_usernameTenant hy, hparse]
      · rw [hpassword (List.ne_nil_of_mem hy)] at hmethod
        cases hmethod
    · -- A password of a device that may be of any tenant.
      rw [hmethod, if_neg nofun] at hpath
      rw [ConnectKeeps, hpath]
      simp only [hfound, Option.some.injEq, forall_eq']
      constructor
      · exact fun hrespects => ⟨hrespects.tenant, fun _ => hrespects.enabled⟩
      · rintro ⟨htenant, hnone⟩
        refine ⟨?_, htenant⟩
        cases hnamed : usernameTenant conn with
        | nil => exact hnone hnamed
        | cons tenantID rest =>
          have hmem : tenantID ∈ usernameTenant conn := hnamed ▸ List.mem_cons_self
          have hparse := htenant tenantID (List.mem_append_left _ hmem)
          rw [identity_of_mem_usernameTenant hmem] at hcfg
          rw [LoginPath.enabled, ← hreads.eq_config hcfg hparse, henabled]

end Connect

/-! ### HTTP -/

/-- The way that the credentials of a request take. -/
def requestPath (h : Handler) (c : Credentials) : LoginPath :=
  if (h.jwtCache c).isSome then .jwt else .password

/-- The tenant that the credentials name. -/
def credentialsTenant (c : Credentials) : List Text := [c.tenantID].filter (· ≠ [])

section Request

variable {h : Handler} {r : Request} {c : Credentials} {device : DeviceInfo} {body : List UInt8}

variable (h c) in
/-- What keeps an accepted request to the policy. Nothing is asked for a JWT. The token of a device
is checked against no settings, so the device that `Validate` finds has to be one of the named
tenant and that tenant has to allow passwords. -/
def RequestKeeps (db : TenantDB) : Prop :=
  match requestPath h c with
  | .password => ∀ device,
    Validator.validate h.parser h.rows h.now c.deviceID (Base64.utf8 c.token) = some device →
      (∀ tenantID ∈ credentialsTenant c, h.parser.parse tenantID = some device.tenantID) ∧
      (db.config device.tenantID).passwordAuthEnabled = true
  | _ => True

/-- The equivalence for HTTP. -/
theorem respectsPolicy_request_iff {db : TenantDB}
    (hreads : ∀ get ∈ h.tenantCache, ReadsTenants h.parser db get)
    (hc : extractCredentials h.decodeString r = some c)
    (haccept : h.authenticate r = .ok (device, body)) :
    RespectsPolicy h.parser db device (requestPath h c) (credentialsTenant c) ↔
      RequestKeeps h c db := by
  obtain ⟨c', hc', hresolve, -⟩ := Handler.authenticate_eq_ok_iff.1 haccept
  obtain rfl := Option.some.inj (hc'.symm.trans hc)
  rcases Handler.resolve_eq_ok_iff.1 hresolve with
    ⟨get, cfg, hcache, hcfg, henabled, -, hlookup⟩ | ⟨hcache, hfound⟩
  · have hpath : requestPath h c' = .jwt := by rw [requestPath, hcache]; rfl
    rw [RequestKeeps, hpath, iff_true]
    have hget : get ∈ h.tenantCache := by
      rw [Handler.jwtCache] at hcache
      split_ifs at hcache
      exact hcache
    have hpostgres : (Provider.postgres h.rows).lookupByCN h.parser c'.deviceID c'.tenantID =
        some device := hlookup
    have hparse := Provider.parse_tenantID_of_lookupByCN hpostgres
    refine ⟨?_, fun y hy => ?_⟩
    · rw [LoginPath.enabled, ← (hreads get hget).eq_config hcfg hparse, henabled]
    · rw [List.mem_singleton.1 (List.mem_of_mem_filter hy), hparse]
  · have hpath : requestPath h c' = .password := by rw [requestPath, hcache]; rfl
    rw [RequestKeeps, hpath]
    simp only [hfound, Option.some.injEq, forall_eq']
    exact ⟨fun hrespects => ⟨hrespects.tenant, hrespects.enabled⟩, fun ⟨htenant, henabled⟩ =>
      ⟨henabled, htenant⟩⟩

end Request

/-! ### Both adapters -/

/-- An accepted CONNECT without a certificate, other than that of the test account, and an accepted
request respect the policy of the device's tenant exactly if they keep to it in the ways that the
gateway does not check. -/
theorem respectsPolicy_iff (db : TenantDB) :
    (∀ (n : AuthNode) (defaultTenantID : Text) (conn : Connection) (info : DeviceInfo)
      (method : AuthMethod), ReadsTenants n.parser db n.tenantConfig → conn.certificate = none →
      conn.username ≠ Backend.testConsumerUsername →
      n.backend.authenticate defaultTenantID conn = some (info, method) →
      (RespectsPolicy n.parser db info (loginPath conn)
        (usernameTenant conn ++ clientIDTenant conn) ↔
        ConnectKeeps n defaultTenantID conn db)) ∧
    (∀ (h : Handler) (r : Request) (c : Credentials) (device : DeviceInfo) (body : List UInt8),
      (∀ get ∈ h.tenantCache, ReadsTenants h.parser db get) →
      extractCredentials h.decodeString r = some c → h.authenticate r = .ok (device, body) →
      (RespectsPolicy h.parser db device (requestPath h c) (credentialsTenant c) ↔
        RequestKeeps h c db)) :=
  ⟨fun _ _ _ _ _ hreads hcert huser h => respectsPolicy_connect_iff hreads hcert huser h,
    fun _ _ _ _ _ hreads hc haccept => respectsPolicy_request_iff hreads hc haccept⟩

/-- A tenant that allows JWTs only. -/
def strictTenant : UUID := ⟨List.replicate 16 1, rfl⟩

/-- The settings of this tenant. All others have no row. -/
def strictDB : TenantDB where
  rows := fun t =>
    if t = strictTenant then
      some { passwordAuthEnabled := false, jwtAuthEnabled := true, certAuthEnabled := false }
    else none
  parse := UUIDParser.hexadecimal.parse

/-- A device of this tenant with a token. -/
def strictRows : List DeviceRow :=
  [{ info := ⟨UUID.nil, strictTenant⟩, tokens := [(Base64.utf8 "token".toList, none)] }]

/-- A node with this database. -/
def strictNode : AuthNode where
  parser := .hexadecimal
  tenantConfig := strictDB.load
  provider := .postgres strictRows
  validateJWT := fun _ _ _ => true

/-- Its HTTP adapter. -/
def strictHandler : Handler where
  parser := .hexadecimal
  rows := strictRows
  tenantCache := some strictDB.load
  validateJWT := fun _ _ _ => true

/-- A CONNECT of the device as one of a tenant. -/
def strictConnect (t : UUID) (password : Text) : Connection where
  clientID := "sensor".toList
  username := UUID.nil.string ++ '@' :: t.string
  password := Base64.utf8 password

/-- A request of the device as one of its tenant. -/
def strictRequest (token : Text) : Request where
  authorization := "Bearer ".toList ++ token
  deviceIDHeader := UUID.nil.string ++ '@' :: strictTenant.string
  body := some [0]

theorem strictDB_reads : ReadsTenants .hexadecimal strictDB strictDB.load :=
  .of_load fun _ _ _ ht hu => Option.some.inj (ht.symm.trans hu)

/-- The credentials of that request. -/
def strictCredentials (token : Text) : Credentials :=
  ⟨UUID.nil.string, strictTenant.string, token⟩

theorem respectsPolicy_iff_jwt :
    RespectsPolicy .hexadecimal strictDB ⟨UUID.nil, strictTenant⟩
        (loginPath (strictConnect strictTenant "eyJhb".toList))
        (usernameTenant (strictConnect strictTenant "eyJhb".toList) ++
          clientIDTenant (strictConnect strictTenant "eyJhb".toList)) ∧
      RespectsPolicy .hexadecimal strictDB ⟨UUID.nil, strictTenant⟩
        (requestPath strictHandler (strictCredentials "eyJhb".toList))
        (credentialsTenant (strictCredentials "eyJhb".toList)) :=
  ⟨((respectsPolicy_iff strictDB).1 strictNode [] (strictConnect strictTenant "eyJhb".toList)
      ⟨UUID.nil, strictTenant⟩ .jwt strictDB_reads rfl (by decide +kernel) (by decide +kernel)).2
      trivial,
    ((respectsPolicy_iff strictDB).2 strictHandler (strictRequest "eyJhb".toList)
      (strictCredentials "eyJhb".toList) ⟨UUID.nil, strictTenant⟩ [0]
      (fun _ hget => Option.some.inj hget ▸ strictDB_reads) (by decide +kernel)
      (by decide +kernel)).2 trivial⟩

/-- The device gets in with its password, although its tenant does not allow passwords: over MQTT by
the name of another tenant, over HTTP by the name of its own. -/
theorem not_respectsPolicy_password :
    strictNode.backend.authenticate [] (strictConnect UUID.nil "token".toList) =
        some (⟨UUID.nil, strictTenant⟩, .password) ∧
      ¬ RespectsPolicy .hexadecimal strictDB ⟨UUID.nil, strictTenant⟩
        (loginPath (strictConnect UUID.nil "token".toList))
        (usernameTenant (strictConnect UUID.nil "token".toList) ++
          clientIDTenant (strictConnect UUID.nil "token".toList)) ∧
      extractCredentials strictHandler.decodeString (strictRequest "token".toList) =
        some (strictCredentials "token".toList) ∧
      strictHandler.authenticate (strictRequest "token".toList) =
        .ok (⟨UUID.nil, strictTenant⟩, [0]) ∧
      ¬ RespectsPolicy .hexadecimal strictDB ⟨UUID.nil, strictTenant⟩
        (requestPath strictHandler (strictCredentials "token".toList))
        (credentialsTenant (strictCredentials "token".toList)) :=
  ⟨by decide +kernel, fun h => absurd h.enabled (by decide +kernel), by decide +kernel,
    by decide +kernel, fun h => absurd h.enabled (by decide +kernel)⟩

end KeelGateway.Auth

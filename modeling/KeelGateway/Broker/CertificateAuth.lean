import KeelGateway.Auth.DeviceCACache
import KeelGateway.Auth.Providers
import KeelGateway.Broker.Authenticate
import KeelGateway.Raft.Revocations

/-!
# Authentication by certificate

A client certificate names a device and a tenant in its common name. `authenticateCert` reads the
name, looks up the tenant's configuration, verifies the certificate against the tenant's CA
certificates, asks whether the name is revoked, and resolves the device.

Two things can go wrong. `VerifyCertificate` skips the chain when its list is nil, which the first
call relies on, and a configuration with a nil list makes the second call do the same. A revocation
is a text, and the device is found by parsing, so a certificate with another spelling of a revoked
device gets in.

-/

namespace KeelGateway.Broker

open Auth Raft FSM

/-! ### The name of a certificate -/

/-- A text is cut at its first `@`. -/
theorem splitAt?_eq_some_iff {t before after : Text} :
    splitAt? t = some (before, after) ↔ t = before ++ '@' :: after ∧ '@' ∉ before := by
  rw [splitAt?, List.span_eq_takeWhile_dropWhile]
  constructor
  · intro h
    have hjoin := List.takeWhile_append_dropWhile (p := (· != '@')) (l := t)
    cases hdrop : t.dropWhile (· != '@') with
    | nil =>
      rw [hdrop] at h
      cases h
    | cons c rest =>
      have hc : c = '@' := by
        have hne : t.dropWhile (· != '@') ≠ [] := by simp [hdrop]
        have hhead := List.head_dropWhile_not (· != '@') hne
        simpa [hdrop] using hhead
      subst hc
      rw [hdrop] at h hjoin
      obtain ⟨rfl, rfl⟩ := Prod.mk.inj (Option.some.inj h)
      refine ⟨hjoin.symm, fun hmem => ?_⟩
      simpa using List.all_eq_true.1 List.all_takeWhile '@' hmem
  · rintro ⟨rfl, hnotMem⟩
    have hbefore : ∀ c ∈ before, (c != '@') = true := by
      intro c hc
      simpa using fun heq : c = '@' => hnotMem (heq ▸ hc)
    rw [List.takeWhile_append_of_pos hbefore, List.dropWhile_append_of_pos hbefore]
    simp

theorem guard_eq_some_iff {p : Prop} [Decidable p] {u : Unit} :
    (guard p : Option Unit) = some u ↔ p := by
  rw [guard]
  split_ifs with h <;> simp [h]

namespace Backend

variable (b : Backend)

/-- Everything that is asked of a certificate besides the revocation: it names a device and a
tenant, the tenant has enabled certificates, and the certificate verifies against the tenant's list.
Nothing is asked of the chain if the list is nil. -/
structure Presents (cert : Certificate) (deviceID tenantID : Text) (cfg : TenantGatewayConfig)
    (pems : Option (List Text)) : Prop where
  name : splitAt? cert.commonName = some (deviceID, tenantID)
  device : deviceID ≠ []
  tenant : tenantID ≠ []
  config : b.tenantConfig tenantID = some cfg
  enabled : cfg.certAuthEnabled = true
  list : b.caPEMs tenantID cfg = some pems
  chain : ∀ l, pems = some l → l ≠ [] ∧ l.all b.parsesPEM = true ∧ b.verifies cert l = true

private theorem verifyCertificate_eq_some_iff {cert : Certificate} {pems : Option (List Text)}
    {deviceID tenantID : Text} :
    b.verifyCertificate cert pems = some (deviceID, tenantID) ↔
      splitAt? cert.commonName = some (deviceID, tenantID) ∧ deviceID ≠ [] ∧ tenantID ≠ [] ∧
        ∀ l, pems = some l → l ≠ [] ∧ l.all b.parsesPEM = true ∧ b.verifies cert l = true := by
  rw [verifyCertificate]
  cases splitAt? cert.commonName with
  | none => simp
  | some named =>
    obtain ⟨device, tenant⟩ := named
    dsimp only
    split_ifs with hempty
    · simp only [false_iff]
      rintro ⟨hname, hdevice, htenant, -⟩
      obtain ⟨rfl, rfl⟩ := Prod.mk.inj (Option.some.inj hname)
      exact hempty.elim hdevice htenant
    · push Not at hempty
      cases pems with
      | none =>
        simp only [Option.some.injEq, Prod.mk.injEq, reduceCtorEq, false_implies, implies_true,
          and_true]
        constructor
        · rintro ⟨rfl, rfl⟩
          exact ⟨⟨rfl, rfl⟩, hempty⟩
        · exact fun h => h.1
      | some l =>
        simp only [Option.some.injEq, forall_eq']
        split_ifs with hnil hverifies
        · simp [hnil]
        · rw [Bool.and_eq_true] at hverifies
          constructor
          · intro h
            obtain ⟨rfl, rfl⟩ := Prod.mk.inj (Option.some.inj h)
            exact ⟨rfl, hempty.1, hempty.2, hnil, hverifies⟩
          · rintro ⟨hname, -⟩
            rw [hname]
        · simp only [false_iff]
          rintro ⟨-, -, -, -, hchain⟩
          exact hverifies (by rw [Bool.and_eq_true]; exact hchain)

theorem authenticateCertIdentity_eq_some_iff {cert : Certificate} {info : DeviceInfo}
    {identity : Text} :
    b.authenticateCertIdentity cert = some (info, identity) ↔
      ∃ deviceID tenantID cfg pems, b.Presents cert deviceID tenantID cfg pems ∧
        b.isRevoked cert.commonName = false ∧ b.resolveCert cfg deviceID tenantID = some info ∧
        identity = cert.commonName := by
  simp only [authenticateCertIdentity, Option.bind_eq_bind, Option.bind_eq_some_iff, Prod.exists,
    verifyCertificate_eq_some_iff, guard_eq_some_iff, Option.some.injEq, Prod.mk.injEq]
  constructor
  · rintro ⟨_, tenantID, ⟨hname, -⟩, cfg, hcfg, _, henabled, pems, hlist, deviceID, tenantID',
      ⟨hname', hdevice, htenant, hchain⟩, _, hrevoked, info', hinfo, rfl, rfl⟩
    obtain ⟨-, rfl⟩ := Prod.mk.inj (Option.some.inj (hname.symm.trans hname'))
    have hcn := (splitAt?_eq_some_iff.1 hname').1
    rw [← hcn] at hrevoked
    exact ⟨deviceID, tenantID, cfg, pems,
      ⟨hname', hdevice, htenant, hcfg, henabled, hlist, hchain⟩, by simpa using hrevoked, hinfo,
      hcn.symm⟩
  · rintro ⟨deviceID, tenantID, cfg, pems, hpresents, hrevoked, hinfo, rfl⟩
    have hcn := (splitAt?_eq_some_iff.1 hpresents.name).1
    refine ⟨deviceID, tenantID, ⟨hpresents.name, hpresents.device, hpresents.tenant, nofun⟩, cfg,
      hpresents.config, (), hpresents.enabled, pems, hpresents.list, deviceID, tenantID,
      ⟨hpresents.name, hpresents.device, hpresents.tenant, hpresents.chain⟩, (), ?_, info, hinfo,
      rfl, hcn.symm⟩
    rw [← hcn, hrevoked]
    rfl

end Backend

/-! ### A node -/

/-- What a node authenticates with. -/
structure AuthNode where
  parser : UUIDParser
  tenantConfig : Text → Option TenantGatewayConfig
  provider : Provider
  bcrypt : Text → List UInt8 → Bool := fun _ _ => false
  now : ℤ := 0
  validateJWT : Text → Text → List UInt8 → Bool := fun _ _ _ => false
  validateJWTFromClientID : Text → Text → List UInt8 → Bool := fun _ _ _ => false
  caSource : Option CASource := none
  parsesPEM : Text → Bool := fun _ => true
  chainsTo : Certificate → Text → Bool := fun _ _ => false
  isRevoked : Text → Bool := fun _ => false

namespace AuthNode

variable (n : AuthNode)

/-- The node as the hook sees it. A certificate verifies against a list if it has a chain to one of
its members. -/
def backend : Backend where
  tenantConfig := n.tenantConfig
  lookupByCN := n.provider.lookupByCN n.parser
  validatePassword := n.provider.validatePassword n.parser n.bcrypt n.now
  validateJWT := n.validateJWT
  validateJWTFromClientID := n.validateJWTFromClientID
  deviceCACache := n.caSource.map fun source tenantID => (source.answer tenantID).map some
  parsesPEM := n.parsesPEM
  verifies := fun cert pems => pems.any (n.chainsTo cert)
  isRevoked := n.isRevoked
  parseUUID := n.parser.parse

/-- The CA certificates of a tenant: those of the custodian when a URL and a cache are set, else the
static ones. -/
def currentCAs (tenantID : Text) (cfg : TenantGatewayConfig) : List Text :=
  match n.caSource with
  | some source =>
    if cfg.clavexCAURL ≠ [] then (source.answer tenantID).getD [] else cfg.trustedCAPEMs.getD []
  | none => cfg.trustedCAPEMs.getD []

/-- What a success should mean: the certificate names a tenant that has enabled certificates and has
a chain to one of its CA certificates, the identity is the common name and is not revoked, and the
device carries the UUID of the tenant. -/
def CertSound (cert : Certificate) (info : DeviceInfo) (identity : Text) : Prop :=
  ∃ deviceID tenantID cfg, cert.commonName = deviceID ++ '@' :: tenantID ∧ '@' ∉ deviceID ∧
    n.tenantConfig tenantID = some cfg ∧ cfg.certAuthEnabled = true ∧
    (∃ ca ∈ n.currentCAs tenantID cfg, n.chainsTo cert ca = true) ∧
    identity = cert.commonName ∧ n.isRevoked identity = false ∧
    n.parser.parse tenantID = some info.tenantID

theorem caPEMs_backend {tenantID : Text} {cfg : TenantGatewayConfig} {pems : Option (List Text)}
    (h : n.backend.caPEMs tenantID cfg = some pems) :
    pems.getD [] = n.currentCAs tenantID cfg ∧
      (pems = none ↔ cfg.trustedCAPEMs = none ∧ (cfg.clavexCAURL = [] ∨ n.caSource = none)) := by
  rw [Backend.caPEMs, backend] at h
  rw [currentCAs]
  cases hsource : n.caSource with
  | none =>
    rw [hsource] at h
    obtain rfl := Option.some.inj h
    simp
  | some source =>
    rw [hsource] at h
    simp only [Option.map_some] at h
    by_cases hurl : cfg.clavexCAURL ≠ []
    · rw [if_pos hurl, Option.map_eq_some_iff] at h
      obtain ⟨l, hl, rfl⟩ := h
      simp [hurl, hl]
    · rw [if_neg hurl] at h
      obtain rfl := Option.some.inj h
      rw [not_not] at hurl
      simp [hurl]

theorem parse_tenantID_of_resolveCert {cfg : TenantGatewayConfig} {deviceID tenantID : Text}
    {info : DeviceInfo} (h : n.backend.resolveCert cfg deviceID tenantID = some info)
    (htenant : n.parser.parse tenantID ≠ none) : n.parser.parse tenantID = some info.tenantID := by
  rw [Backend.resolveCert] at h
  cases hlookup : n.backend.lookupByCN deviceID tenantID with
  | some found =>
    rw [hlookup] at h
    obtain rfl := Option.some.inj h
    exact Provider.parse_tenantID_of_lookupByCN hlookup
  | none =>
    rw [hlookup] at h
    split_ifs at h
    obtain rfl := Option.some.inj h
    obtain ⟨t, ht⟩ := Option.ne_none_iff_exists'.1 htenant
    simp only [Backend.newPendingDeviceInfo, backend, ht, Option.getD_some]

/-- A certificate has got in. This means what it should exactly if the tenant's static CA list is
not nil or the custodian is asked, and the tenant's name is a UUID. -/
theorem certSound_iff {cert : Certificate} {info : DeviceInfo} {identity : Text}
    (h : n.backend.authenticateCertIdentity cert = some (info, identity))
    {deviceID tenantID : Text} (hname : splitAt? cert.commonName = some (deviceID, tenantID))
    {cfg : TenantGatewayConfig} (hcfg : n.tenantConfig tenantID = some cfg) :
    n.CertSound cert info identity ↔
      (cfg.trustedCAPEMs ≠ none ∨ (cfg.clavexCAURL ≠ [] ∧ n.caSource ≠ none)) ∧
        n.parser.parse tenantID ≠ none := by
  obtain ⟨device, tenant, config, pems, hpresents, hrevoked, hresolve, rfl⟩ :=
    n.backend.authenticateCertIdentity_eq_some_iff.1 h
  obtain ⟨rfl, rfl⟩ := Prod.mk.inj (Option.some.inj (hname.symm.trans hpresents.name))
  obtain rfl := Option.some.inj (hcfg.symm.trans hpresents.config)
  obtain ⟨hlist, hnil⟩ := n.caPEMs_backend hpresents.list
  have hused : pems ≠ none ↔
      (cfg.trustedCAPEMs ≠ none ∨ (cfg.clavexCAURL ≠ [] ∧ n.caSource ≠ none)) := by
    tauto
  rw [← hused]
  constructor
  · rintro ⟨device, tenant, config, hcn, hat, hcfg', -, ⟨ca, hca, -⟩, -, -, hparse⟩
    obtain ⟨rfl, rfl⟩ := Prod.mk.inj
      (Option.some.inj (hname.symm.trans (splitAt?_eq_some_iff.2 ⟨hcn, hat⟩)))
    obtain rfl := Option.some.inj (hcfg.symm.trans hcfg')
    refine ⟨fun hnone => ?_, by simp [hparse]⟩
    rw [← hlist, hnone] at hca
    cases hca
  · rintro ⟨hsome, hparse⟩
    obtain ⟨l, rfl⟩ := Option.ne_none_iff_exists'.1 hsome
    obtain ⟨-, -, hchain⟩ := hpresents.chain l rfl
    obtain ⟨hcn, hat⟩ := splitAt?_eq_some_iff.1 hname
    refine ⟨deviceID, tenantID, cfg, hcn, hat, hcfg, hpresents.enabled, ?_, rfl, hrevoked,
      n.parse_tenantID_of_resolveCert hresolve hparse⟩
    rw [← hlist]
    exact List.any_eq_true.1 hchain

/-! ### A node whose tenants take certificates -/

/-- Tenants with these CA certificates that provision unknown devices. -/
def certTenants (trustedCAPEMs : Option (List Text)) : TenantGatewayConfig where
  passwordAuthEnabled := false
  jwtAuthEnabled := false
  certAuthEnabled := true
  trustedCAPEMs := trustedCAPEMs
  autoProvisioning := true

/-- A node with such tenants. Either all certificates have a chain or none. -/
def certNode (trustedCAPEMs : Option (List Text)) (chains : Bool) (provider : Provider)
    (isRevoked : Text → Bool) : AuthNode where
  parser := .hexadecimal
  tenantConfig := fun _ => some (certTenants trustedCAPEMs)
  provider := provider
  chainsTo := fun _ _ => chains
  isRevoked := isRevoked

/-- A certificate that names an unknown device. -/
def sensorCert : Certificate where
  commonName := "sensor@".toList ++ UUID.nil.string

theorem certSound_iff_sensorCert :
    (certNode (some ["root".toList]) true (.postgres []) (fun _ => false)).CertSound sensorCert
      ⟨UUID.nil, UUID.nil⟩ sensorCert.commonName := by
  have hname : splitAt? sensorCert.commonName = some ("sensor".toList, UUID.nil.string) := by
    decide +kernel
  exact (certSound_iff (certNode (some ["root".toList]) true (.postgres []) (fun _ => false))
    (by decide +kernel) hname rfl).2 ⟨.inl nofun, by decide +kernel⟩

/-- Without a list every certificate gets in, whoever signed it. -/
theorem not_certSound_of_nil_list :
    (certNode none false (.postgres []) (fun _ => false)).backend.authenticateCertIdentity
        sensorCert = some (⟨UUID.nil, UUID.nil⟩, sensorCert.commonName) ∧
      ¬ (certNode none false (.postgres []) (fun _ => false)).CertSound sensorCert
        ⟨UUID.nil, UUID.nil⟩ sensorCert.commonName := by
  refine ⟨by decide +kernel, ?_⟩
  rintro ⟨deviceID, tenantID, cfg, -, -, -, -, ⟨ca, -, hchain⟩, -⟩
  cases hchain

/-! ### Revocations -/

/-- A certificate stands for a device of a tenant: its name is a spelling of both, and the store
finds the device under it. -/
def Resolves (cert : Certificate) (d t : UUID) : Prop :=
  ∃ deviceID tenantID, splitAt? cert.commonName = some (deviceID, tenantID) ∧
    n.parser.parse deviceID = some d ∧ n.parser.parse tenantID = some t ∧
    n.provider.lookupByCN n.parser deviceID tenantID = some ⟨d, t⟩

theorem authenticateCertIdentity_ne_iff_revokes {es : List (FSM.Command × Env)} {f : FSM}
    {results : List ApplyResult} (hexec : newFSM.execCommands es = some (f, results))
    (hsees : SeesRevocations f n.isRevoked) {cert : Certificate} {d t : UUID}
    (hresolves : n.Resolves cert d t) :
    (∀ r, n.backend.authenticateCertIdentity cert ≠ some r) ↔
      ∀ deviceID tenantID cfg pems, n.backend.Presents cert deviceID tenantID cfg pems →
        ∃ e ∈ es, e.1.Revokes cert.commonName := by
  have hrevoked : n.backend.isRevoked cert.commonName = true ↔
      ∃ e ∈ es, e.1.Revokes cert.commonName := by
    rw [← isRevoked_iff_exists hexec, ← hsees.eq]
    rfl
  constructor
  · intro hout deviceID tenantID cfg pems hpresents
    rw [← hrevoked]
    by_contra hnot
    obtain ⟨device, tenant, hname, -, -, hlookup⟩ := hresolves
    obtain ⟨rfl, rfl⟩ := Prod.mk.inj (Option.some.inj (hname.symm.trans hpresents.name))
    have hinfo : n.backend.resolveCert cfg device tenant = some ⟨d, t⟩ := by
      rw [Backend.resolveCert, show n.backend.lookupByCN device tenant = some ⟨d, t⟩ from hlookup]
    exact hout (⟨d, t⟩, cert.commonName) (n.backend.authenticateCertIdentity_eq_some_iff.2
      ⟨device, tenant, cfg, pems, hpresents, eq_false_of_ne_true hnot, hinfo, rfl⟩)
  · rintro hin ⟨info, identity⟩ h
    obtain ⟨deviceID, tenantID, cfg, pems, hpresents, hfalse, -⟩ :=
      n.backend.authenticateCertIdentity_eq_some_iff.1 h
    have htrue := hrevoked.2 (hin deviceID tenantID cfg pems hpresents)
    rw [hfalse] at htrue
    cases htrue

/-- A node has seen a log. It keeps a device out exactly if the log revokes, text by text, every
name under which the device has a certificate that would get in otherwise. -/
theorem revocation_holds_iff {es : List (FSM.Command × Env)} {f : FSM} {results : List ApplyResult}
    (hexec : newFSM.execCommands es = some (f, results))
    (hsees : SeesRevocations f n.isRevoked) (d t : UUID) :
    (∀ cert, n.Resolves cert d t → ∀ r, n.backend.authenticateCertIdentity cert ≠ some r) ↔
      ∀ cert, n.Resolves cert d t → ∀ deviceID tenantID cfg pems,
        n.backend.Presents cert deviceID tenantID cfg pems →
          ∃ e ∈ es, e.1.Revokes cert.commonName :=
  forall₂_congr fun _ hresolves => n.authenticateCertIdentity_ne_iff_revokes hexec hsees hresolves

/-- A device whose spellings differ. -/
def letters : UUID := ⟨List.replicate 16 0xaa, rfl⟩

/-- The report that its certificate is revoked. -/
def lettersRevoked : RevocationEvent where
  event := "device.cert.revoked".toList
  orgID := UUID.nil.string
  deviceID := letters.string

/-- The log with that revocation. -/
def lettersLog : List (FSM.Command × Env) :=
  lettersRevoked.identity.toList.map fun identity => (revokeCertificate identity, {})

/-- The state after it. -/
def lettersState : FSM := ((newFSM.execCommands lettersLog).map Prod.fst).getD newFSM

/-- A file with this device only. -/
def lettersFile : Provider :=
  .file {} (some [{ deviceID := letters.string, tenantID := UUID.nil.string }])

/-- The file finds the device under one text, so there the revocation holds. -/
theorem revocation_holds_iff_file :
    lettersState.isRevoked (letters.string ++ '@' :: UUID.nil.string) = true ∧
      ∀ cert, (certNode (some ["root".toList]) true lettersFile lettersState.isRevoked).Resolves
        cert letters UUID.nil → ∀ r, (certNode (some ["root".toList]) true lettersFile
          lettersState.isRevoked).backend.authenticateCertIdentity cert ≠ some r := by
  obtain ⟨f, hexec, -⟩ := exists_exec_newFSM lettersLog
  obtain rfl : lettersState = f := by rw [lettersState, hexec]; rfl
  refine ⟨by decide +kernel, (revocation_holds_iff (certNode (some ["root".toList]) true lettersFile
    lettersState.isRevoked) hexec .core letters UUID.nil).2 ?_⟩
  rintro cert ⟨deviceID, tenantID, hname, -, -, hlookup⟩ _ _ _ _ -
  obtain ⟨rfl, rfl⟩ := FileProvider.eq_of_lookupByCN_singleton hlookup
  rw [(splitAt?_eq_some_iff.1 hname).1]
  exact ⟨_, List.mem_singleton.2 rfl, rfl, rfl⟩

/-- A database finds the device under the upper-case spelling, which the revocation does not
name. -/
theorem not_revocation_holds_upper :
    (newFSM.execCommands lettersLog).isSome = true ∧
      lettersState.isRevoked (letters.string ++ '@' :: UUID.nil.string) = true ∧
      (certNode (some ["root".toList]) true (.postgres [{ info := ⟨letters, UUID.nil⟩ }])
        lettersState.isRevoked).backend.authenticateCertIdentity
          { commonName := letters.string.map Char.toUpper ++ '@' :: UUID.nil.string } =
        some (⟨letters, UUID.nil⟩, letters.string.map Char.toUpper ++ '@' :: UUID.nil.string) := by
  decide +kernel

end AuthNode

end KeelGateway.Broker

import KeelGateway.Auth.UUIDParser
import KeelGateway.Broker.AclCheck

/-!
# The credential stores

A provider resolves a device in two ways. `ValidatePassword` finds it by its own key and checks a
token. `LookupByCN` finds it by a device and a tenant, for a certificate or a JWT that has been
checked elsewhere. The device store is PostgreSQL (`Validator`) or a YAML file (`FileProvider`). The
first compares parsed UUIDs, the second compares the tenant as a text.

-/

namespace KeelGateway.Auth

open Broker (DeviceInfo)

/-! ### PostgreSQL -/

/-- A device, joined with its tenant and its credentials of type `mqtt_token`. -/
structure DeviceRow where
  info : DeviceInfo
  tokens : List (List UInt8 × Option ℤ) := []

namespace Validator

/-- `Validate`. -/
def validate (p : UUIDParser) (rows : List DeviceRow) (now : ℤ) (deviceID : Text)
    (token : List UInt8) : Option DeviceInfo := do
  let id ← p.parse deviceID
  let row ← rows.find? fun row =>
    row.info.id = id && row.tokens.any fun c => c.1 = token && c.2.all (now < ·)
  some row.info

/-- `LookupByCN`. -/
def lookupByCN (p : UUIDParser) (rows : List DeviceRow) (deviceID tenantID : Text) :
    Option DeviceInfo := do
  let devUUID ← p.parse deviceID
  let tenantUUID ← p.parse tenantID
  let row ← rows.find? fun row => row.info.id = devUUID && row.info.tenantID = tenantUUID
  some row.info

end Validator

/-! ### The credential file -/

/-- An entry of the file, as far as authentication reads it. -/
structure FileCredential where
  deviceID : Text
  /-- The username on the wire, if it is not the device. -/
  username : Text := []
  tenantID : Text
  passwordHash : Text := []

/-- `credentialKey`: what a client presents as its username. -/
def FileCredential.credentialKey (c : FileCredential) : Text :=
  if c.username ≠ [] then c.username else c.deviceID

/-- `toDeviceInfo`. -/
def FileCredential.toDeviceInfo (p : UUIDParser) (c : FileCredential) : Option DeviceInfo := do
  let devUUID ← p.parse c.deviceID
  let tenUUID ← p.parse c.tenantID
  some ⟨devUUID, tenUUID⟩

/-- The errors of `load` after the file has been read. -/
inductive FileError where
  /-- `file provider: invalid device_id`. -/
  | invalidDeviceID (deviceID : Text)
  /-- `file provider: duplicate credential key`. -/
  | duplicateKey (key : Text)

/-- `FileProvider`, with the cache of the successful validations by username and token. -/
structure FileProvider where
  byKey : GoMap Text FileCredential := ∅
  credCache : GoMap (Text × List UInt8) ℤ := ∅
  ttl : ℤ := 30

namespace FileProvider

/-- The entries of a file by their keys. -/
def entriesByKey (p : UUIDParser) (devices : List FileCredential) :
    Except FileError (GoMap Text FileCredential) :=
  devices.foldlM (fun m c =>
    if (p.parse c.deviceID).isNone then .error (.invalidDeviceID c.deviceID)
    else if (m.lookup c.credentialKey).isSome then .error (.duplicateKey c.credentialKey)
    else .ok (m.insert c.credentialKey c)) ∅

/-- `load`, which runs on the first use. The devices are those of the file, if it can be read. -/
def load (f : FileProvider) (p : UUIDParser) (devices : Option (List FileCredential)) :
    Option FileProvider :=
  if f.byKey.entries.isEmpty then
    match devices.map (entriesByKey p) with
    | some (.ok byKey) => some { f with byKey := byKey, credCache := ∅ }
    | _ => none
  else some f

/-- `credentialCache.check`. -/
def check (f : FileProvider) (now : ℤ) (username : Text) (token : List UInt8) : Bool :=
  match f.credCache.lookup (username, token) with
  | some ts => now - ts < f.ttl
  | none => false

/-- `ValidatePassword`, with `bcrypt` for the comparison of a hash and a token. -/
def validatePassword (f : FileProvider) (p : UUIDParser) (devices : Option (List FileCredential))
    (bcrypt : Text → List UInt8 → Bool) (now : ℤ) (username : Text) (token : List UInt8) :
    FileProvider × Option DeviceInfo :=
  match f.load p devices with
  | none => (f, none)
  | some f =>
    match f.byKey.lookup username with
    | none => (f, none)
    | some cred =>
      if f.check now username token then (f, cred.toDeviceInfo p)
      else if cred.passwordHash = [] then (f, none)
      else if bcrypt cred.passwordHash token then
        ({ f with credCache := f.credCache.insert (username, token) now }, cred.toDeviceInfo p)
      else (f, none)

/-- `LookupByCN`: the tenant is compared as a text. -/
def lookupByCN (f : FileProvider) (p : UUIDParser) (devices : Option (List FileCredential))
    (deviceID tenantID : Text) : Option DeviceInfo := do
  let f ← f.load p devices
  let cred ← f.byKey.lookup deviceID
  if cred.tenantID ≠ tenantID then none else cred.toDeviceInfo p

theorem eq_of_lookupByCN_singleton {p : UUIDParser} {c : FileCredential} {deviceID tenantID : Text}
    {info : DeviceInfo} (h : lookupByCN {} p (some [c]) deviceID tenantID = some info) :
    deviceID = c.credentialKey ∧ tenantID = c.tenantID := by
  simp only [lookupByCN, Option.bind_eq_bind, Option.bind_eq_some_iff] at h
  obtain ⟨f, hload, cred, hcred, hinfo⟩ := h
  have hkey (k : Text) : f.byKey.lookup k = if k = c.credentialKey then some c else none := by
    simp only [load, entriesByKey, AList.empty_entries, List.isEmpty_nil, Option.map_some,
      List.foldlM_cons, AList.lookup_empty] at hload
    by_cases hparse : (p.parse c.deviceID).isNone
    · rw [if_pos hparse] at hload
      cases hload
    · rw [if_neg hparse] at hload
      obtain rfl := Option.some.inj hload
      exact GoMap.lookup_insert ∅ c.credentialKey c k
  rw [hkey] at hcred
  split_ifs at hcred hinfo with hdevice htenant
  obtain rfl := Option.some.inj hcred
  exact ⟨hdevice, (not_not.1 htenant).symm⟩

end FileProvider

/-! ### Either store -/

/-- The store of a node. -/
inductive Provider where
  | postgres (rows : List DeviceRow)
  | file (provider : FileProvider) (devices : Option (List FileCredential))

namespace Provider

/-- `ValidatePassword`. -/
def validatePassword (p : UUIDParser) (bcrypt : Text → List UInt8 → Bool) (now : ℤ) :
    Provider → Text → List UInt8 → Option DeviceInfo
  | postgres rows => Validator.validate p rows now
  | file provider devices => fun username token =>
    (provider.validatePassword p devices bcrypt now username token).2

/-- `LookupByCN`. -/
def lookupByCN (p : UUIDParser) : Provider → Text → Text → Option DeviceInfo
  | postgres rows => Validator.lookupByCN p rows
  | file provider devices => provider.lookupByCN p devices

theorem parse_tenantID_of_lookupByCN {p : UUIDParser} {provider : Provider}
    {deviceID tenantID : Text} {info : DeviceInfo}
    (h : provider.lookupByCN p deviceID tenantID = some info) :
    p.parse tenantID = some info.tenantID := by
  cases provider with
  | postgres rows =>
    simp only [lookupByCN, Validator.lookupByCN, Option.bind_eq_bind, Option.bind_eq_some_iff] at h
    obtain ⟨devUUID, -, tenantUUID, htenant, row, hrow, hinfo⟩ := h
    have hmatch := List.find?_some hrow
    simp only [Bool.and_eq_true, decide_eq_true_eq] at hmatch
    rw [htenant, ← hmatch.2, Option.some.inj hinfo]
  | file provider devices =>
    simp only [lookupByCN, FileProvider.lookupByCN, Option.bind_eq_bind,
      Option.bind_eq_some_iff] at h
    obtain ⟨f, -, cred, -, hcred⟩ := h
    split_ifs at hcred with htenant
    simp only [FileCredential.toDeviceInfo, Option.bind_eq_bind, Option.bind_eq_some_iff] at hcred
    obtain ⟨devUUID, -, tenUUID, hparse, hinfo⟩ := hcred
    rw [← not_not.1 htenant, hparse, ← Option.some.inj hinfo]

end Provider

end KeelGateway.Auth

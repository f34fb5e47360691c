import KeelGateway.Auth.UUIDParser
import KeelGateway.Broker.Authenticate

/-!
# The configuration of a tenant

The settings of a tenant are a row of the database. `TenantConfigCache` asks for it by the text that
a client has sent, and keeps the answer under that text for a while.

-/

namespace KeelGateway.Auth

open Broker (TenantGatewayConfig)

/-- The table `tenant_gateway_config`. -/
structure TenantDB where
  rows : UUID → Option TenantGatewayConfig
  /-- The tenant that PostgreSQL reads from a parameter; absent if the query fails. -/
  parse : Text → Option UUID

namespace TenantDB

variable (db : TenantDB)

/-- The settings of a tenant. Without a row passwords are enabled and nothing else is. -/
def config (t : UUID) : TenantGatewayConfig :=
  (db.rows t).getD
    { passwordAuthEnabled := true, jwtAuthEnabled := false, certAuthEnabled := false }

/-- `load`. -/
def load (tenantID : Text) : Option TenantGatewayConfig := (db.parse tenantID).map db.config

/-- PostgreSQL and `uuid.Parse` do not read two tenants from one text. -/
def Agrees (p : UUIDParser) : Prop :=
  ∀ tenantID t u, db.parse tenantID = some t → p.parse tenantID = some u → t = u

end TenantDB

/-- `cachedEntry`. -/
structure CachedEntry where
  cfg : TenantGatewayConfig
  expiresAt : ℤ

/-- `TenantConfigCache`. -/
structure TenantConfigCache where
  ttl : ℤ
  cache : GoMap Text CachedEntry := ∅

namespace TenantConfigCache

variable (c : TenantConfigCache) (db : TenantDB)

/-- The second half of `Get`, which asks the database. -/
def reload (loadedAt : ℤ) (tenantID : Text) : TenantConfigCache × Option TenantGatewayConfig :=
  match db.load tenantID with
  | none => (c, none)
  | some cfg => ({ c with cache := c.cache.insert tenantID ⟨cfg, loadedAt + c.ttl⟩ }, some cfg)

/-- `Get`. The two times are those of the two calls of `time.Now`. -/
def get (now loadedAt : ℤ) (tenantID : Text) : TenantConfigCache × Option TenantGatewayConfig :=
  match c.cache.lookup tenantID with
  | some entry =>
    if now < entry.expiresAt then (c, some entry.cfg) else c.reload db loadedAt tenantID
  | none => c.reload db loadedAt tenantID

/-- Every entry is what the database has. -/
def Current : Prop :=
  ∀ tenantID entry, c.cache.lookup tenantID = some entry → db.load tenantID = some entry.cfg

variable {c db}

theorem current_new (ttl : ℤ) : Current { ttl := ttl } db := nofun

theorem snd_reload (loadedAt : ℤ) (tenantID : Text) :
    (c.reload db loadedAt tenantID).2 = db.load tenantID := by
  rw [reload]
  cases db.load tenantID <;> rfl

theorem Current.snd_get (h : c.Current db) (now loadedAt : ℤ) (tenantID : Text) :
    (c.get db now loadedAt tenantID).2 = db.load tenantID := by
  rw [get]
  cases hlookup : c.cache.lookup tenantID with
  | none => exact snd_reload loadedAt tenantID
  | some entry =>
    dsimp only
    split_ifs with hfresh
    · exact (h tenantID entry hlookup).symm
    · exact snd_reload loadedAt tenantID

end TenantConfigCache

/-- A node reads the settings of its tenants through a cache that is up to date. -/
structure ReadsTenants (p : UUIDParser) (db : TenantDB)
    (tenantConfig : Text → Option TenantGatewayConfig) : Prop where
  agrees : db.Agrees p
  answers : ∃ (c : TenantConfigCache) (now loadedAt : ℤ), c.Current db ∧
    ∀ tenantID, tenantConfig tenantID = (c.get db now loadedAt tenantID).2

namespace ReadsTenants

variable {p : UUIDParser} {db : TenantDB} {tenantConfig : Text → Option TenantGatewayConfig}

theorem of_load (h : db.Agrees p) : ReadsTenants p db db.load where
  agrees := h
  answers := ⟨{ ttl := 0 }, 0, 0, TenantConfigCache.current_new 0, fun tenantID =>
    ((TenantConfigCache.current_new 0).snd_get 0 0 tenantID).symm⟩

theorem eq_config (h : ReadsTenants p db tenantConfig) {tenantID : Text} {t : UUID}
    {cfg : TenantGatewayConfig} (hcfg : tenantConfig tenantID = some cfg)
    (hparse : p.parse tenantID = some t) : cfg = db.config t := by
  obtain ⟨c, now, loadedAt, hcurrent, hanswers⟩ := h.answers
  rw [hanswers, hcurrent.snd_get, TenantDB.load, Option.map_eq_some_iff] at hcfg
  obtain ⟨u, hu, rfl⟩ := hcfg
  rw [h.agrees tenantID u t hu hparse]

end ReadsTenants

end KeelGateway.Auth

import KeelGateway.Auth.UUIDParser
import KeelGateway.Lib.Base64

/-!
# The Redis keys of a client

Every key of a client is a constant followed by a token of the client ID, its unpadded URL-safe
base64 form. Besides them there are a few keys for the whole fleet. One of these, the marker of the
in-flight schema, is spelled like the in-flight key of a client: its last part could be a token. The
bytes of that token are not UTF-8, so no client ID has it.

-/

namespace KeelGateway.Redis

/-- `redisClientToken`. -/
def redisClientToken (clientID : Text) : Text := Base64.encode (Base64.utf8 clientID)

/-- A key of a client: a constant and the token. -/
def clientKey (name clientID : Text) : Text :=
  "keel:gw:".toList ++ name ++ ':' :: redisClientToken clientID

/-- `redisClientKey`. -/
def redisClientKey (clientID : Text) : Text := clientKey "CL".toList clientID

/-- `redisLastSeenKey`. -/
def redisLastSeenKey (clientID : Text) : Text := clientKey "LASTSEEN".toList clientID

/-- `redisSubKey`. -/
def redisSubKey (clientID : Text) : Text := clientKey "SUB".toList clientID

/-- `redisInflightKey`. -/
def redisInflightKey (clientID : Text) : Text := clientKey "IFM".toList clientID

/-- `redisPacketIDKey`. -/
def redisPacketIDKey (clientID : Text) : Text := clientKey "PKID".toList clientID

/-- The dedup key of `QueueOfflineInflight`. -/
def redisDedupKey (publishID : UUID) (clientID : Text) : Text :=
  clientKey ("PUBDEDUP:".toList ++ publishID.string) clientID

theorem redisClientToken_injective : Function.Injective redisClientToken :=
  Base64.encode_injective.comp Base64.utf8_injective

theorem clientKey_injective (name : Text) : Function.Injective (clientKey name) := by
  intro c d h
  have htoken := List.append_cancel_left h
  exact redisClientToken_injective (List.cons.inj htoken).2

/-! ### Kinds of keys -/

/-- What a key of a client holds. -/
inductive ClientKeyKind where
  | client
  | lastSeen
  | subscriptions
  | inflight
  | packetID
  | dedup (publishID : UUID)
  deriving DecidableEq

/-- The key of a kind. -/
def ClientKeyKind.key : ClientKeyKind → Text → Text
  | client => redisClientKey
  | lastSeen => redisLastSeenKey
  | subscriptions => redisSubKey
  | inflight => redisInflightKey
  | packetID => redisPacketIDKey
  | dedup publishID => redisDedupKey publishID

/-- The keys for the whole fleet. -/
inductive GlobalKey where
  /-- `redisClientIndex`. -/
  | clientIndex
  /-- `redisMigrationLock`. -/
  | migrationLock
  /-- `redisIFMSchemaKey`. -/
  | ifmSchema
  /-- `legacyClientHash`. -/
  | legacyClients
  /-- `legacySubHash`. -/
  | legacySubscriptions
  /-- `legacyInflightHash`. -/
  | legacyInflight
  deriving DecidableEq

/-- The text of a key after `redisKeyPrefix`. -/
def GlobalKey.name : GlobalKey → Text
  | clientIndex => "CLIENTS".toList
  | migrationLock => "MIGRATE:V2".toList
  | ifmSchema => "IFM:SCHEMA".toList
  | legacyClients => "CL".toList
  | legacySubscriptions => "SUB".toList
  | legacyInflight => "IFM".toList

/-- The key itself. -/
def GlobalKey.key (g : GlobalKey) : Text := "keel:gw:".toList ++ g.name

/-! ### Reading a key -/

/-- What stands between `redisKeyPrefix` and the token. -/
def ClientKeyKind.name : ClientKeyKind → Text
  | client => "CL".toList
  | lastSeen => "LASTSEEN".toList
  | subscriptions => "SUB".toList
  | inflight => "IFM".toList
  | packetID => "PKID".toList
  | dedup publishID => "PUBDEDUP:".toList ++ publishID.string

theorem ClientKeyKind.key_eq (k : ClientKeyKind) (clientID : Text) :
    k.key clientID = "keel:gw:".toList ++ (k.name ++ ':' :: redisClientToken clientID) := by
  cases k <;> rfl

theorem ClientKeyKind.name_injective : Function.Injective ClientKeyKind.name := by
  -- no constant name is one of a dedup marker, and these hold their publish ID
  have hdedup (k : ClientKeyKind) (u : UUID) (hk : ∀ v, k ≠ dedup v) :
      k.name ≠ (dedup u).name := by
    have hhead : k.name.take 2 ≠ "PU".toList := by
      cases k with
      | dedup v => exact absurd rfl (hk v)
      | _ => decide
    exact fun h => hhead (by rw [h]; rfl)
  intro k k' h
  by_cases hk : ∃ u, k = dedup u
  · obtain ⟨u, rfl⟩ := hk
    by_cases hk' : ∃ v, k' = dedup v
    · obtain ⟨v, rfl⟩ := hk'
      rw [UUID.string_injective (List.append_cancel_left h)]
    · exact absurd h.symm (hdedup k' u (not_exists.1 hk'))
  · by_cases hk' : ∃ v, k' = dedup v
    · obtain ⟨v, rfl⟩ := hk'
      exact absurd h (hdedup k v (not_exists.1 hk))
    · cases k <;> cases k' <;> first | rfl | exact absurd h (by decide) | simp at hk hk'

/-- A text is cut at its last colon. -/
theorem append_colon_inj {a b a' b' : Text} (hb : ':' ∉ b) (hb' : ':' ∉ b')
    (h : a ++ ':' :: b = a' ++ ':' :: b') : a = a' ∧ b = b' := by
  have hsuffix {b b' c : Text} (hb : ':' ∉ b) (h : ':' :: b = c ++ ':' :: b') :
      c = [] ∧ b = b' := by
    cases c with
    | nil => exact ⟨rfl, (List.cons.inj h).2⟩
    | cons x c =>
      rw [(List.cons.inj h).2] at hb
      exact absurd (List.mem_append_right c List.mem_cons_self) hb
  rcases List.append_eq_append_iff.1 h with ⟨c, rfl, hc⟩ | ⟨c, rfl, hc⟩
  · obtain ⟨rfl, rfl⟩ := hsuffix hb hc
    exact ⟨(List.append_nil a).symm, rfl⟩
  · obtain ⟨rfl, rfl⟩ := hsuffix hb' hc
    exact ⟨List.append_nil a', rfl⟩

theorem colon_notMem_redisClientToken (clientID : Text) : ':' ∉ redisClientToken clientID :=
  Base64.notMem_encode (by decide) _

theorem redisClientToken_ne_schema (clientID : Text) :
    redisClientToken clientID ≠ "SCHEMA".toList := by
  intro h
  have hbytes : Base64.decode "SCHEMA".toList = some [0x48, 0x21, 0xC4, 0x30] := by decide +kernel
  have hnone : Base64.ofUTF8 [0x48, 0x21, 0xC4, 0x30] = none := by decide +kernel
  rw [← h, redisClientToken, Base64.decode_encode, Option.some.injEq] at hbytes
  rw [← hbytes, Base64.ofUTF8_utf8] at hnone
  cases hnone

/-! ### Collisions -/

theorem ClientKeyKind.key_inj {k k' : ClientKeyKind} {c c' : Text} (h : k.key c = k'.key c') :
    k = k' ∧ c = c' := by
  rw [key_eq, key_eq] at h
  obtain ⟨hname, htoken⟩ := append_colon_inj (colon_notMem_redisClientToken c)
    (colon_notMem_redisClientToken c') (List.append_cancel_left h)
  exact ⟨name_injective hname, redisClientToken_injective htoken⟩

theorem GlobalKey.key_injective : Function.Injective GlobalKey.key := by
  intro g g' h
  have hname := List.append_cancel_left h
  cases g <;> cases g' <;> first | rfl | exact absurd hname (by decide)

theorem ClientKeyKind.key_ne_global (k : ClientKeyKind) (c : Text) (g : GlobalKey) :
    k.key c ≠ g.key := by
  intro h
  rw [key_eq] at h
  have hname : k.name ++ ':' :: redisClientToken c = g.name := List.append_cancel_left h
  -- a name with a colon is cut like a key of a client
  have hcut {a b : Text} (hb : ':' ∉ b) (hg : g.name = a ++ ':' :: b) :
      k.name = a ∧ redisClientToken c = b :=
    append_colon_inj (colon_notMem_redisClientToken c) hb (hname.trans hg)
  have hcolon : ':' ∈ g.name := hname ▸ List.mem_append_right _ List.mem_cons_self
  cases g with
  | migrationLock =>
    have hmigrate : k.name = "MIGRATE".toList := (hcut (by decide) rfl).1
    have hhead : k.name.head? ≠ some 'M' := by
      cases k with
      | dedup u => exact show some 'P' ≠ some 'M' by decide
      | _ => decide
    exact hhead (by rw [hmigrate]; rfl)
  | ifmSchema =>
    exact redisClientToken_ne_schema c (hcut (a := "IFM".toList) (by decide) rfl).2
  | _ => exact absurd hcolon (by decide)

/-- Keys never collide. Two keys of clients are the same only if they are of one kind and one
client, and for dedup markers of one publish; none is a key for the whole fleet; and these are
different from each other. So a write under a key of one client is not seen under any key of another
client or under the schema marker. -/
theorem redis_keys_never_collide :
    (∀ (k k' : ClientKeyKind) (c c' : Text), k.key c = k'.key c' → k = k' ∧ c = c') ∧
    (∀ (k : ClientKeyKind) (c : Text) (g : GlobalKey), k.key c ≠ g.key) ∧
    (∀ g g' : GlobalKey, g.key = g'.key → g = g') ∧
    ∀ (V : Type) (db : Text → V) (k : ClientKeyKind) (c : Text) (v : V),
      (∀ (k' : ClientKeyKind) (d : Text), d ≠ c →
        Function.update db (k.key c) v (k'.key d) = db (k'.key d)) ∧
      ∀ g : GlobalKey, Function.update db (k.key c) v g.key = db g.key := by
  refine ⟨fun _ _ _ _ => ClientKeyKind.key_inj, ClientKeyKind.key_ne_global,
    fun _ _ h => GlobalKey.key_injective h, fun V db k c v => ⟨fun k' d hd => ?_, fun g => ?_⟩⟩
  · exact Function.update_of_ne (fun h => hd (ClientKeyKind.key_inj h).2) v db
  · exact Function.update_of_ne (k.key_ne_global c g).symm v db

end KeelGateway.Redis

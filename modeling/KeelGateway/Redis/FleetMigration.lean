import KeelGateway.Lib.StepMachine
import KeelGateway.Lib.Writes
import KeelGateway.Redis.Inflight
import KeelGateway.Redis.KeyNames
import Mathlib.Data.List.Dedup

/-!
# The migration of the fleet-wide hashes

The first layout of the gateway kept the sessions of all clients in three hashes. A node that finds
one of them at its start copies the records to the keys of their clients, page by page, and at the
end moves the packet ID counters and deletes the hashes in one transaction. A Redis error can stop
it at every command; the node then starts again from the beginning.

The copying can be repeated, because all writes to a key agree. The counters are another matter:
the old and the new counter keys share a prefix, so the new key of one client can be the old key of
another, and the transaction handles the clients in the order of a Go map.

-/

namespace KeelGateway.Redis

open StepMachine

/-! ### Records -/

/-- `storage.Client` with its encoding. -/
structure ClientRecord where
  id : Text
  raw : Text
  deriving DecidableEq

/-- `storage.Subscription` with its encoding. -/
structure SubscriptionRecord where
  client : Text
  filter : Text
  raw : Text
  deriving DecidableEq

/-- `storage.Message` with its encoding. -/
structure InflightRecord where
  client : Text
  type : PacketType
  packetID : ℕ
  raw : Text
  deriving DecidableEq

/-- The three fleet-wide hashes. Redis has no empty hash. -/
structure Legacy where
  clients : GoMap Text ClientRecord
  subscriptions : GoMap Text SubscriptionRecord
  inflight : GoMap Text InflightRecord

/-- The hashes in the order of their migration. -/
inductive LegacyHash where
  | clients
  | subscriptions
  | inflight
  deriving DecidableEq

/-- A key of a client, or a field of a hash or a member of the set under such a key. -/
inductive SessionKey where
  | client (clientID : Text)
  | index (clientID : Text)
  | subscription (clientID filter : Text)
  | inflight (clientID : Text) (f : Field)
  deriving DecidableEq

/-- What is written for a record. -/
structure Row where
  client : Text
  key : SessionKey
  raw : Text
  deriving DecidableEq

/-- The two commands of a row: the record, and the client in the index. -/
def Row.commands (row : Row) : List (SessionKey × Text) :=
  [(row.key, row.raw), (.index row.client, [])]

def ClientRecord.row (r : ClientRecord) : Row := ⟨r.id, .client r.id, r.raw⟩

def SubscriptionRecord.row (r : SubscriptionRecord) : Row :=
  ⟨r.client, .subscription r.client r.filter, r.raw⟩

/-- In-flight messages are written in the form of the schema in force. -/
def InflightRecord.row (schema : Schema) (r : InflightRecord) : Row :=
  ⟨r.client, .inflight r.client (writeField schema
    { type := r.type, packetID := r.packetID }), r.raw⟩

namespace Legacy

/-- `EXISTS` finds none of the hashes. -/
def isEmpty (l : Legacy) : Bool :=
  l.clients.entries.isEmpty && l.subscriptions.entries.isEmpty && l.inflight.entries.isEmpty

/-- The fields of a hash with what is written for them. -/
def rows (l : Legacy) (schema : Schema) : LegacyHash → List (Text × Row)
  | .clients => l.clients.entries.map fun row => (row.1, row.2.row)
  | .subscriptions => l.subscriptions.entries.map fun row => (row.1, row.2.row)
  | .inflight => l.inflight.entries.map fun row => (row.1, row.2.row schema)

/-- A record of one of the hashes. -/
def HasRow (l : Legacy) (schema : Schema) (row : Row) : Prop :=
  ∃ hash field, (field, row) ∈ l.rows schema hash

/-- A client with a record in one of the hashes. -/
def HasClient (l : Legacy) (schema : Schema) (clientID : Text) : Prop :=
  ∃ row, l.HasRow schema row ∧ row.client = clientID

end Legacy

/-! ### Counters -/

/-- The commands for the counter of one client: the value that was read before the transaction goes
to the new key, and the old key is deleted unless it is the same. Keys are given without their
common prefix. -/
def migrateCounter (old counters : Text → Option Text) (clientID : Text) : Text → Option Text :=
  match old clientID with
  | none => counters
  | some n =>
    let counters := Function.update counters (redisClientToken clientID) (some n)
    if clientID = redisClientToken clientID then counters
    else Function.update counters clientID none

/-- The commands for all clients, in the order in which the map is traversed. -/
def migrateCounters (counters : Text → Option Text) (order : List Text) : Text → Option Text :=
  order.foldl (migrateCounter counters) counters

/-! ### The machine -/

/-- The keys that the migration works on. -/
structure FleetStore where
  legacy : Legacy
  session : SessionKey → Option Text
  counters : Text → Option Text

/-- How far a call of `migrateLegacySchema` has come. -/
inductive FleetPhase where
  | idle
  /-- A hash is scanned: the fields that were returned, and the clients of all records so far. -/
  | scanning (hash : LegacyHash) (seen migrated : List Text)
  | finalizing (migrated : List Text)
  | finished
  deriving DecidableEq

/-- The keys, the call that is running, and the lock. -/
structure FleetState where
  store : FleetStore
  phase : FleetPhase := .idle
  lock : Bool := false

/-- The next thing to happen. The lock is given back when a call ends, unless that command fails
too. -/
inductive FleetEvent where
  | begin
  /-- `HSCAN` returns these fields and, if this is the end of the scan, all fields that are still
  missing; the pipeline of the page is carried out. -/
  | page (fields : List Text) (last : Bool)
  /-- The pipeline fails, and only the marked commands are carried out. -/
  | pageError (fields : List Text) (last : Bool) (applied : List Bool) (unlocked : Bool)
  | finalize (order : List Text) (unlocked : Bool)
  /-- The transaction is carried out, but the reply is lost. -/
  | finalizeError (order : List Text) (unlocked : Bool)
  | error (unlocked : Bool)
  | expire

/-- The rows of a page. A scan returns every field at least once. -/
def pageRows (rows : List (Text × Row)) (seen fields : List Text) (last : Bool) : List Row :=
  fields.flatMap (fun f => (rows.filter (·.1 = f)).map Prod.snd) ++
    if last then (rows.filter fun row => row.1 ∉ seen ++ fields).map Prod.snd else []

/-- The commands that are carried out. -/
def marked (commands : List (SessionKey × Text)) (applied : List Bool) : List (SessionKey × Text) :=
  (commands.zip applied).filterMap fun c => if c.2 then some c.1 else none

/-- The transaction. -/
def FleetStore.finalize (r : FleetStore) (order : List Text) : FleetStore where
  legacy := ⟨∅, ∅, ∅⟩
  session := r.session
  counters := migrateCounters r.counters order

/-- The phase after a page. -/
def FleetPhase.afterPage (hash : LegacyHash) (seen migrated : List Text) (last : Bool) :
    FleetPhase :=
  if last then
    match hash with
    | .clients => .scanning .subscriptions [] migrated
    | .subscriptions => .scanning .inflight [] migrated
    | .inflight => .finalizing migrated
  else .scanning hash seen migrated

namespace FleetState

variable (schema : Schema)

/-- The call ends with an error. -/
def fail (s : FleetState) (unlocked : Bool) : FleetState :=
  { s with phase := .idle, lock := s.lock && !unlocked }

/-- One command. -/
def step (s : FleetState) : FleetEvent → FleetState
  | .begin =>
    match s.phase with
    | .scanning _ _ _ => s
    | .finalizing _ => s
    | _ =>
      if s.store.legacy.isEmpty then { s with phase := .finished }
      else if s.lock then { s with phase := .idle }
      else { s with phase := .scanning .clients [] [], lock := true }
  | .page fields last =>
    match s.phase with
    | .scanning hash seen migrated =>
      let rows := pageRows (s.store.legacy.rows schema hash) seen fields last
      { s with
        store := { s.store with
          session := Writes.apply s.store.session (rows.flatMap Row.commands) }
        phase := .afterPage hash (seen ++ fields)
          (rows.foldl (fun migrated row => migrated.insert row.client) migrated) last }
    | _ => s
  | .pageError fields last applied unlocked =>
    match s.phase with
    | .scanning hash seen _ =>
      let rows := pageRows (s.store.legacy.rows schema hash) seen fields last
      fail { s with
        store := { s.store with
          session := Writes.apply s.store.session (marked (rows.flatMap Row.commands) applied) } }
        unlocked
    | _ => s
  | .finalize order unlocked =>
    match s.phase with
    | .finalizing migrated =>
      if order.Perm migrated then
        { store := s.store.finalize order, phase := .finished, lock := s.lock && !unlocked }
      else s
    | _ => s
  | .finalizeError order unlocked =>
    match s.phase with
    | .finalizing migrated =>
      if order.Perm migrated then fail { s with store := s.store.finalize order } unlocked else s
    | _ => s
  | .error unlocked =>
    match s.phase with
    | .finished => s
    | _ => s.fail unlocked
  | .expire => { s with lock := false }

end FleetState

/-! ### What is to be shown -/

section Spec

variable (schema : Schema) (start : FleetStore)

/-- Every record is stored under its own client, every client is in the index, every counter is
under its new key, and the hashes are gone. -/
structure Complete (r : FleetStore) : Prop where
  stored : ∀ row, start.legacy.HasRow schema row → r.session row.key = some row.raw
  indexed : ∀ clientID, start.legacy.HasClient schema clientID →
    r.session (.index clientID) = some []
  counted : ∀ clientID n, start.legacy.HasClient schema clientID →
    start.counters clientID = some n → r.counters (redisClientToken clientID) = some n
  gone : r.legacy.isEmpty = true

/-- The state after some events. -/
def fleetAfter (es : List FleetEvent) : FleetState :=
  run (FleetState.step schema) { store := start } es

/-- An event without an error. -/
def FleetEvent.succeeds : FleetEvent → Bool
  | .pageError _ _ _ _ => false
  | .finalizeError _ _ => false
  | .error _ => false
  | _ => true

/-- Whatever errors there have been: the hashes are untouched or everything is in its place; a
migration that returns without an error has put everything in its place, and leaves the keys as any
other one does; and after an error a call that meets no error comes to its end. -/
structure Restartable : Prop where
  kept : ∀ es, (fleetAfter schema start es).store.legacy = start.legacy ∨
    Complete schema start (fleetAfter schema start es).store
  complete : ∀ es, (fleetAfter schema start es).phase = .finished →
    Complete schema start (fleetAfter schema start es).store
  same : ∀ es fs, (fleetAfter schema start es).phase = .finished →
    (fleetAfter schema start fs).phase = .finished →
    (fleetAfter schema start es).store = (fleetAfter schema start fs).store
  ends : ∀ es, (fleetAfter schema start es).phase = .idle →
    ∃ fs, (∀ e ∈ fs, e.succeeds = true) ∧ (fleetAfter schema start (es ++ fs)).phase = .finished

/-- No two records or counters claim the same key. -/
structure Separate : Prop where
  clients : ∀ f g r r', start.legacy.clients.lookup f = some r →
    start.legacy.clients.lookup g = some r' → r.id = r'.id → r = r'
  subscriptions : ∀ f g r r', start.legacy.subscriptions.lookup f = some r →
    start.legacy.subscriptions.lookup g = some r' → r.client = r'.client → r.filter = r'.filter →
    r = r'
  /-- The new counter key of a client is not the old counter key of another one. -/
  counters : ∀ c, start.legacy.HasClient schema c → start.counters c ≠ none →
    redisClientToken c ≠ c → start.legacy.HasClient schema (redisClientToken c) →
    start.counters (redisClientToken c) = none

/-- At most one in-flight message for a client and a packet ID. -/
def OneInflight : Prop :=
  ∀ f g r r', start.legacy.inflight.lookup f = some r → start.legacy.inflight.lookup g = some r' →
    r.client = r'.client → r.packetID = r'.packetID → r = r'

end Spec

/-! ### Counters in any order -/

theorem migrateCounter_apply (old counters : Text → Option Text) (c k : Text) :
    migrateCounter old counters c k =
      match old c with
      | none => counters k
      | some n =>
        if k = redisClientToken c then some n else if k = c then none else counters k := by
  unfold migrateCounter
  cases old c with
  | none => rfl
  | some n =>
    dsimp only
    by_cases hsame : c = redisClientToken c
    · rw [if_pos hsame]
      by_cases hk : k = redisClientToken c
      · rw [if_pos hk, hk, Function.update_self]
      · rw [if_neg hk, Function.update_of_ne hk, if_neg fun hkc => hk (hkc.trans hsame)]
    · rw [if_neg hsame]
      by_cases hk : k = redisClientToken c
      · rw [if_pos hk, hk, Function.update_of_ne (Ne.symm hsame), Function.update_self]
      · rw [if_neg hk]
        by_cases hkc : k = c
        · rw [if_pos hkc, hkc, Function.update_self]
        · rw [if_neg hkc, Function.update_of_ne hkc, Function.update_of_ne hk]

theorem migrateCounter_comm {old : Text → Option Text} {c d : Text} (hcd : c ≠ d)
    (hc : old c ≠ none → old d ≠ none → redisClientToken c ≠ d)
    (hd : old d ≠ none → old c ≠ none → redisClientToken d ≠ c) (counters : Text → Option Text) :
    migrateCounter old (migrateCounter old counters c) d =
      migrateCounter old (migrateCounter old counters d) c := by
  have htoken : redisClientToken c ≠ redisClientToken d :=
    fun h => hcd (redisClientToken_injective h)
  funext k
  rw [migrateCounter_apply, migrateCounter_apply, migrateCounter_apply, migrateCounter_apply]
  cases hoc : old c with
  | none => rfl
  | some m =>
    cases hod : old d with
    | none => rfl
    | some n =>
      grind

theorem migrateCounters_perm {counters : Text → Option Text} {l l' : List Text}
    (hsep : ∀ c ∈ l, counters c ≠ none → redisClientToken c ≠ c → redisClientToken c ∈ l →
      counters (redisClientToken c) = none) (h : l.Perm l') :
    migrateCounters counters l = migrateCounters counters l' := by
  refine h.foldl_eq' (fun c hc d hd acc => ?_) counters
  by_cases hcd : c = d
  · rw [hcd]
  · have hne (x y : Text) (hx : x ∈ l) (hy : y ∈ l) (hxy : x ≠ y) (hcx : counters x ≠ none)
        (hcy : counters y ≠ none) : redisClientToken x ≠ y := by
      rintro rfl
      exact hcy (hsep x hx hcx (Ne.symm hxy) hy)
    exact migrateCounter_comm hcd (hne c d hc hd hcd) (hne d c hd hc (Ne.symm hcd)) acc

theorem migrateCounters_concat (counters : Text → Option Text) (l : List Text) (c k : Text) :
    migrateCounters counters (l ++ [c]) k =
      match counters c with
      | none => migrateCounters counters l k
      | some n =>
        if k = redisClientToken c then some n else if k = c then none
        else migrateCounters counters l k := by
  rw [migrateCounters, List.foldl_append]
  exact migrateCounter_apply _ _ c k

/-! ### Copying -/

namespace Legacy

variable (l : Legacy) (schema : Schema)

/-- All rows, in the order of an undisturbed migration. -/
def allRows : List Row :=
  ([.clients, .subscriptions, .inflight] : List LegacyHash).flatMap fun hash =>
    (l.rows schema hash).map Prod.snd

/-- All commands. -/
def commands : List (SessionKey × Text) := (l.allRows schema).flatMap Row.commands

/-- All clients. -/
def clientIDs : List Text := ((l.allRows schema).map Row.client).dedup

variable {l schema}

theorem mem_allRows {row : Row} : row ∈ l.allRows schema ↔ l.HasRow schema row := by
  constructor
  · intro h
    obtain ⟨hash, -, hrow⟩ := List.mem_flatMap.1 h
    obtain ⟨⟨field, row⟩, hmem, rfl⟩ := List.mem_map.1 hrow
    exact ⟨hash, field, hmem⟩
  · rintro ⟨hash, field, hmem⟩
    refine List.mem_flatMap.2 ⟨hash, ?_, List.mem_map.2 ⟨_, hmem, rfl⟩⟩
    cases hash <;> simp

theorem mem_clientIDs {clientID : Text} :
    clientID ∈ l.clientIDs schema ↔ l.HasClient schema clientID := by
  simp only [clientIDs, List.mem_dedup, List.mem_map, mem_allRows, HasClient]

theorem nodup_clientIDs : (l.clientIDs schema).Nodup := List.nodup_dedup _

theorem mem_commands {w : SessionKey × Text} :
    w ∈ l.commands schema ↔ ∃ row, l.HasRow schema row ∧ w ∈ row.commands := by
  simp only [commands, List.mem_flatMap, mem_allRows]

theorem commands_subset {rows : List Row} (h : ∀ row ∈ rows, l.HasRow schema row) :
    rows.flatMap Row.commands ⊆ l.commands schema := by
  intro w hw
  obtain ⟨row, hrow, hmem⟩ := List.mem_flatMap.1 hw
  exact mem_commands.2 ⟨row, h row hrow, hmem⟩

theorem eq_empty_of_isEmpty (h : l.isEmpty = true) : l = ⟨∅, ∅, ∅⟩ := by
  obtain ⟨clients, subscriptions, inflight⟩ := l
  simp only [isEmpty, Bool.and_eq_true, List.isEmpty_iff] at h
  obtain ⟨⟨hc, hs⟩, hi⟩ := h
  congr
  · exact AList.ext hc
  · exact AList.ext hs
  · exact AList.ext hi

end Legacy

theorem Separate.consistent {schema : Schema} {start : FleetStore} (h : Separate schema start)
    (hone : OneInflight start) : Writes.Consistent (start.legacy.commands schema) := by
  -- two rows with the same key come from the same record
  have hrow (row row' : Row) (hr : start.legacy.HasRow schema row)
      (hr' : start.legacy.HasRow schema row') (hkey : row.key = row'.key) : row.raw = row'.raw := by
    obtain ⟨hash, f, hr⟩ := hr
    obtain ⟨hash', g, hr'⟩ := hr'
    cases hash <;> cases hash' <;>
      obtain ⟨⟨f, r⟩, hrow, heq⟩ := List.mem_map.1 hr <;>
      obtain ⟨⟨g, r'⟩, hrow', heq'⟩ := List.mem_map.1 hr' <;>
      cases heq <;> cases heq' <;>
      simp only [ClientRecord.row, SubscriptionRecord.row, InflightRecord.row, reduceCtorEq,
        SessionKey.client.injEq, SessionKey.subscription.injEq, SessionKey.inflight.injEq] at hkey ⊢
    · rw [h.clients _ _ r r' (GoMap.mem_entries.1 hrow) (GoMap.mem_entries.1 hrow') hkey]
    · rw [h.subscriptions _ _ r r' (GoMap.mem_entries.1 hrow) (GoMap.mem_entries.1 hrow') hkey.1
        hkey.2]
    · have hid := congrArg Field.id hkey.2
      rw [id_writeField, id_writeField] at hid
      rw [hone _ _ r r' (GoMap.mem_entries.1 hrow) (GoMap.mem_entries.1 hrow') hkey.1 hid]
  -- no record is stored in the index
  have hindex (row : Row) (hr : start.legacy.HasRow schema row) (c : Text) :
      row.key ≠ .index c := by
    obtain ⟨hash, f, hr⟩ := hr
    cases hash <;> obtain ⟨⟨f, r⟩, -, heq⟩ := List.mem_map.1 hr <;> cases heq <;>
      exact fun hkey => SessionKey.noConfusion hkey
  intro v hv w hw hkey
  obtain ⟨row, hr, hv⟩ := Legacy.mem_commands.1 hv
  obtain ⟨row', hr', hw⟩ := Legacy.mem_commands.1 hw
  simp only [Row.commands, List.mem_cons, List.not_mem_nil, or_false] at hv hw
  rcases hv with rfl | rfl <;> rcases hw with rfl | rfl
  · exact hrow row row' hr hr' hkey
  · exact absurd hkey (hindex row hr _)
  · exact absurd hkey.symm (hindex row' hr' _)
  · rfl

theorem mem_pageRows {rows : List (Text × Row)} {seen fields : List Text} {last : Bool}
    {row : Row} :
    row ∈ pageRows rows seen fields last ↔
      ∃ f, (f, row) ∈ rows ∧ (f ∈ fields ∨ (last = true ∧ f ∉ seen)) := by
  unfold pageRows
  cases last with
  | false =>
    simp only [Bool.false_eq_true, if_false, List.append_nil, List.mem_flatMap, List.mem_map,
      List.mem_filter, decide_eq_true_eq]
    constructor
    · rintro ⟨f, hf, ⟨g, row⟩, ⟨hrow, rfl⟩, rfl⟩
      exact ⟨g, hrow, Or.inl hf⟩
    · rintro ⟨f, hrow, hf | ⟨h, -⟩⟩
      · exact ⟨f, hf, (f, row), ⟨hrow, rfl⟩, rfl⟩
      · cases h
  | true =>
    simp only [if_true, List.mem_append, List.mem_flatMap, List.mem_map, List.mem_filter,
      decide_eq_true_eq, true_and]
    constructor
    · rintro (⟨f, hf, ⟨g, row⟩, ⟨hrow, rfl⟩, rfl⟩ | ⟨⟨g, row⟩, ⟨hrow, hno⟩, rfl⟩)
      · exact ⟨g, hrow, Or.inl hf⟩
      · exact ⟨g, hrow, Or.inr fun hseen => hno (Or.inl hseen)⟩
    · rintro ⟨f, hrow, hf⟩
      by_cases hfields : f ∈ fields
      · exact Or.inl ⟨f, hfields, (f, row), ⟨hrow, rfl⟩, rfl⟩
      · refine Or.inr ⟨(f, row), ⟨hrow, ?_⟩, rfl⟩
        rintro (hseen | h)
        · exact (hf.resolve_left hfields) hseen
        · exact hfields h

private theorem marked_subset (commands : List (SessionKey × Text)) (applied : List Bool) :
    marked commands applied ⊆ commands := by
  intro w hw
  obtain ⟨⟨c, b⟩, hmem, hsome⟩ := List.mem_filterMap.1 hw
  split_ifs at hsome
  cases hsome
  exact (List.of_mem_zip hmem).1

theorem mem_foldl_insert_client (rows : List Row) (migrated : List Text) (c : Text) :
    c ∈ rows.foldl (fun migrated row => migrated.insert row.client) migrated ↔
      c ∈ migrated ∨ ∃ row ∈ rows, row.client = c := by
  induction rows generalizing migrated with
  | nil => simp
  | cons row rows ih =>
    rw [List.foldl_cons, ih, List.mem_insert_iff, List.exists_mem_cons_iff]
    tauto

theorem nodup_foldl_insert_client (rows : List Row) {migrated : List Text} (h : migrated.Nodup) :
    (rows.foldl (fun migrated row => migrated.insert row.client) migrated).Nodup := by
  induction rows generalizing migrated with
  | nil => exact h
  | cons row rows ih => exact ih h.insert

/-! ### The invariant -/

/-- The position of a hash in the migration. -/
def LegacyHash.index : LegacyHash → ℕ
  | .clients => 0
  | .subscriptions => 1
  | .inflight => 2

/-- The running call has handled this field. -/
def FleetPhase.Covered (phase : FleetPhase) (hash : LegacyHash) (f : Text) : Prop :=
  match phase with
  | .scanning h seen _ => hash.index < h.index ∨ (hash = h ∧ f ∈ seen)
  | .finalizing _ => True
  | _ => False

/-- The clients that the running call has met. -/
def FleetPhase.migrated : FleetPhase → List Text
  | .scanning _ _ migrated => migrated
  | .finalizing migrated => migrated
  | _ => []

theorem FleetPhase.migrated_afterPage (hash : LegacyHash) (seen migrated : List Text)
    (last : Bool) :
    (FleetPhase.afterPage hash seen migrated last).migrated = migrated := by
  cases last with
  | false => rfl
  | true => cases hash <;> rfl

theorem FleetPhase.covered_afterPage {h hash : LegacyHash} {seen fields m : List Text}
    {last : Bool} {f : Text} (migrated : List Text)
    (hcov : (FleetPhase.afterPage h (seen ++ fields) m last).Covered hash f) :
    (FleetPhase.scanning h seen migrated).Covered hash f ∨
      (hash = h ∧ (f ∈ fields ∨ (last = true ∧ f ∉ seen))) := by
  by_cases hseen : f ∈ seen
  · cases last <;> cases h <;> cases hash <;>
      simp_all [FleetPhase.afterPage, FleetPhase.Covered, LegacyHash.index]
  · cases last <;> cases h <;> cases hash <;>
      simp_all [FleetPhase.afterPage, FleetPhase.Covered, LegacyHash.index]

section Inv

variable (schema : Schema) (start : FleetStore)

/-- The keys after an undisturbed migration. -/
def migratedStore : FleetStore where
  legacy := ⟨∅, ∅, ∅⟩
  session := Writes.apply start.session (start.legacy.commands schema)
  counters := migrateCounters start.counters (start.legacy.clientIDs schema)

/-- Before the transaction: the hashes and the counters are untouched, and what the running call has
handled is written. -/
structure Copying (s : FleetState) : Prop where
  legacy : s.store.legacy = start.legacy
  counters : s.store.counters = start.counters
  between : Writes.Between start.session s.store.session (start.legacy.commands schema)
  covered : ∀ hash f row, (f, row) ∈ start.legacy.rows schema hash → s.phase.Covered hash f →
    (∀ w ∈ row.commands, s.store.session w.1 = some w.2) ∧ row.client ∈ s.phase.migrated
  nodup : s.phase.migrated.Nodup
  clients : ∀ c ∈ s.phase.migrated, start.legacy.HasClient schema c
  unfinished : s.phase ≠ .finished

/-- After the transaction. -/
structure Migrated (s : FleetState) : Prop where
  store : s.store = migratedStore schema start
  stopped : s.phase = .idle ∨ s.phase = .finished

def FleetState.Inv (s : FleetState) : Prop := Copying schema start s ∨ Migrated schema start s

end Inv

section

variable {schema : Schema} {start : FleetStore} {s : FleetState}

theorem Copying.fail (h : Copying schema start s) (unlocked : Bool) :
    Copying schema start (s.fail unlocked) where
  legacy := h.legacy
  counters := h.counters
  between := h.between
  covered _ _ _ _ hcov := hcov.elim
  nodup := List.nodup_nil
  clients := by simp [FleetState.fail, FleetPhase.migrated]
  unfinished := FleetPhase.noConfusion

theorem Copying.write (h : Copying schema start s)
    (hws : Writes.Consistent (start.legacy.commands schema)) {vs : List (SessionKey × Text)}
    (hvs : vs ⊆ start.legacy.commands schema) :
    Copying schema start
      { s with store := { s.store with session := Writes.apply s.store.session vs } } where
  legacy := h.legacy
  counters := h.counters
  between := h.between.apply hvs
  covered hash f row hrow hcov := by
    obtain ⟨hdone, hmem⟩ := h.covered hash f row hrow hcov
    refine ⟨fun w hw => Writes.apply_of_done hws hvs ?_ (hdone w hw), hmem⟩
    exact Legacy.mem_commands.2 ⟨row, ⟨hash, f, hrow⟩, hw⟩
  nodup := h.nodup
  clients := h.clients
  unfinished := h.unfinished

theorem Copying.finalize (h : Copying schema start s) {migrated order : List Text}
    (hphase : s.phase = .finalizing migrated) (horder : order.Perm migrated)
    (hsep : Separate schema start) : s.store.finalize order = migratedStore schema start := by
  have hcovered (row : Row) (hrow : start.legacy.HasRow schema row) :
      (∀ w ∈ row.commands, s.store.session w.1 = some w.2) ∧ row.client ∈ migrated := by
    obtain ⟨hash, f, hrow⟩ := hrow
    have hrow' := h.covered hash f row hrow (by rw [hphase]; trivial)
    rw [hphase] at hrow'
    exact hrow'
  have hsession : s.store.session = Writes.apply start.session (start.legacy.commands schema) := by
    refine h.between.eq_apply fun w hw => ?_
    obtain ⟨row, hrow, hmem⟩ := Legacy.mem_commands.1 hw
    exact (hcovered row hrow).1 w hmem
  -- the map of the call has the clients of all records
  have hclients : (start.legacy.clientIDs schema).Perm order := by
    have hnodup := h.nodup
    have hmigrated := h.clients
    rw [hphase] at hnodup hmigrated
    refine (List.perm_ext_iff_of_nodup Legacy.nodup_clientIDs (horder.nodup_iff.2 hnodup)).2
      fun c => ?_
    rw [Legacy.mem_clientIDs, horder.mem_iff]
    exact ⟨fun ⟨row, hrow, hc⟩ => hc ▸ (hcovered row hrow).2, hmigrated c⟩
  have hcounters : migrateCounters start.counters (start.legacy.clientIDs schema) =
      migrateCounters start.counters order := by
    refine migrateCounters_perm (fun c hc hn hne htoken => ?_) hclients
    exact hsep.counters c (Legacy.mem_clientIDs.1 hc) hn hne (Legacy.mem_clientIDs.1 htoken)
  rw [FleetStore.finalize, migratedStore, hsession, h.counters, hcounters]

/-- A page writes its rows. -/
theorem Copying.page (h : Copying schema start s)
    (hws : Writes.Consistent (start.legacy.commands schema)) {hash : LegacyHash}
    {seen migrated : List Text} (hphase : s.phase = .scanning hash seen migrated)
    (fields : List Text) (last : Bool) :
    Copying schema start (s.step schema (.page fields last)) := by
  have hrows (row : Row) (hrow : row ∈ pageRows (start.legacy.rows schema hash) seen fields last) :
      start.legacy.HasRow schema row := by
    obtain ⟨f, hmem, -⟩ := mem_pageRows.1 hrow
    exact ⟨hash, f, hmem⟩
  have hsub := Legacy.commands_subset hrows
  have hwrite := h.write hws hsub
  simp only [FleetState.step, hphase, h.legacy]
  refine ⟨rfl, h.counters, hwrite.between, fun hash' f row hrow hcov => ?_, ?_, ?_, ?_⟩
  · rw [FleetPhase.migrated_afterPage, mem_foldl_insert_client]
    rcases FleetPhase.covered_afterPage migrated hcov with hold | ⟨rfl, hnew⟩
    · have hdone := hwrite.covered hash' f row hrow (by dsimp only; rw [hphase]; exact hold)
      dsimp only at hdone
      rw [hphase] at hdone
      exact ⟨hdone.1, Or.inl hdone.2⟩
    · have hmem := mem_pageRows.2 ⟨f, hrow, hnew⟩
      refine ⟨fun w hw => ?_, Or.inr ⟨row, hmem, rfl⟩⟩
      exact Writes.apply_of_mem (hws.mono hsub) _ (List.mem_flatMap.2 ⟨row, hmem, hw⟩)
  · have hnodup := h.nodup
    rw [hphase] at hnodup
    rw [FleetPhase.migrated_afterPage]
    exact nodup_foldl_insert_client _ hnodup
  · intro c hc
    rw [FleetPhase.migrated_afterPage, mem_foldl_insert_client] at hc
    rcases hc with hc | ⟨row, hrow, rfl⟩
    · exact h.clients c (by rw [hphase]; exact hc)
    · exact ⟨row, hrows row hrow, rfl⟩
  · unfold FleetPhase.afterPage
    cases last with
    | false => exact FleetPhase.noConfusion
    | true => cases hash <;> exact FleetPhase.noConfusion

theorem Copying.store_eq (h : Copying schema start s) (hempty : start.legacy.isEmpty = true) :
    s.store = migratedStore schema start := by
  have hlegacy := Legacy.eq_empty_of_isEmpty hempty
  have hcommands : start.legacy.commands schema = [] := by rw [hlegacy]; rfl
  have hclients : start.legacy.clientIDs schema = [] := by rw [hlegacy]; rfl
  have hsession : s.store.session = Writes.apply start.session (start.legacy.commands schema) := by
    refine h.between.eq_apply fun w hw => ?_
    rw [hcommands] at hw
    cases hw
  have hstore : s.store = ⟨s.store.legacy, s.store.session, s.store.counters⟩ := rfl
  rw [hstore, h.legacy.trans hlegacy, h.counters, hsession, migratedStore, hclients]
  rfl

/-- Every command keeps the invariant. -/
theorem FleetState.inv_step (hws : Writes.Consistent (start.legacy.commands schema))
    (hsep : Separate schema start) (h : s.Inv schema start) (e : FleetEvent) :
    (s.step schema e).Inv schema start := by
  rcases h with h | h
  · cases e with
    | begin =>
      have hfound : FleetState.Inv schema start
          (if s.store.legacy.isEmpty then { s with phase := .finished }
          else if s.lock then { s with phase := .idle }
          else { s with phase := .scanning .clients [] [], lock := true }) := by
        rw [h.legacy]
        split_ifs with hempty hlock
        · exact Or.inr ⟨h.store_eq hempty, Or.inr rfl⟩
        · refine Or.inl ⟨h.legacy, h.counters, h.between, fun _ _ _ _ hcov => hcov.elim,
            List.nodup_nil, by simp [FleetPhase.migrated], FleetPhase.noConfusion⟩
        · refine Or.inl ⟨h.legacy, h.counters, h.between, fun hash f row hrow hcov => ?_,
            List.nodup_nil, by simp [FleetPhase.migrated], FleetPhase.noConfusion⟩
          rcases hcov with hlt | ⟨-, hf⟩
          · exact absurd hlt (Nat.not_lt_zero _)
          · cases hf
      unfold step
      cases hphase : s.phase with
      | idle => exact hfound
      | scanning hash seen migrated => exact Or.inl h
      | finalizing migrated => exact Or.inl h
      | finished => exact absurd hphase h.unfinished
    | page fields last =>
      cases hphase : s.phase with
      | scanning hash seen migrated => exact Or.inl (h.page hws hphase fields last)
      | _ =>
        simp only [step, hphase]
        exact Or.inl h
    | pageError fields last applied unlocked =>
      unfold step
      cases hphase : s.phase with
      | scanning hash seen migrated =>
        refine Or.inl ((h.write hws ?_).fail unlocked)
        refine List.Subset.trans (marked_subset _ applied)
          (Legacy.commands_subset fun row hrow => ?_)
        rw [h.legacy] at hrow
        obtain ⟨f, hmem, -⟩ := mem_pageRows.1 hrow
        exact ⟨hash, f, hmem⟩
      | _ => exact Or.inl h
    | finalize order unlocked =>
      unfold step
      cases hphase : s.phase with
      | finalizing migrated =>
        dsimp only
        split_ifs with horder
        · exact Or.inr ⟨h.finalize hphase horder hsep, Or.inr rfl⟩
        · exact Or.inl h
      | _ => exact Or.inl h
    | finalizeError order unlocked =>
      unfold step
      cases hphase : s.phase with
      | finalizing migrated =>
        dsimp only
        split_ifs with horder
        · exact Or.inr ⟨h.finalize hphase horder hsep, Or.inl rfl⟩
        · exact Or.inl h
      | _ => exact Or.inl h
    | error unlocked =>
      unfold step
      cases hphase : s.phase with
      | finished => exact Or.inl h
      | _ => exact Or.inl (h.fail unlocked)
    | expire =>
      exact Or.inl ⟨h.legacy, h.counters, h.between, h.covered, h.nodup, h.clients, h.unfinished⟩
  · -- nothing is left to do
    have hempty : s.store.legacy.isEmpty = true := by rw [h.store]; rfl
    refine Or.inr ?_
    rcases h.stopped with hphase | hphase <;> cases e <;>
      simp only [step, hphase, hempty, if_true] <;>
      first
        | exact h
        | exact ⟨h.store, Or.inr rfl⟩
        | exact ⟨h.store, Or.inl rfl⟩

/-- Every run keeps the invariant. -/
theorem inv_fleetAfter (hws : Writes.Consistent (start.legacy.commands schema))
    (hsep : Separate schema start) (es : List FleetEvent) :
    (fleetAfter schema start es).Inv schema start := by
  have hfresh : Copying schema start { store := start } :=
    ⟨rfl, rfl, Writes.Between.refl _ _, fun _ _ _ _ hcov => hcov.elim, List.nodup_nil,
      by simp [FleetPhase.migrated], FleetPhase.noConfusion⟩
  exact run_of_step (I := FleetState.Inv schema start)
    (fun _ e h => FleetState.inv_step hws hsep h e) (Or.inl hfresh) es

end

/-! ### Undisturbed calls -/

section Undisturbed

variable {schema : Schema}

private theorem pageRows_all (rows : List (Text × Row)) :
    pageRows rows [] [] true = rows.map Prod.snd := by
  simp [pageRows]

theorem perm_foldl_insert_client {l : Legacy} {order : List Text}
    (h : order.Perm (l.clientIDs schema)) :
    order.Perm ((l.allRows schema).foldl (fun migrated row => migrated.insert row.client) []) := by
  refine h.trans ((List.perm_ext_iff_of_nodup Legacy.nodup_clientIDs
    (nodup_foldl_insert_client _ List.nodup_nil)).2 fun c => ?_)
  rw [Legacy.mem_clientIDs, mem_foldl_insert_client]
  simp only [List.not_mem_nil, false_or, Legacy.mem_allRows, Legacy.HasClient]

theorem run_undisturbed (schema : Schema) {s : FleetState} (hphase : s.phase = .idle)
    (hfound : s.store.legacy.isEmpty = false) {order : List Text}
    (horder : order.Perm (s.store.legacy.clientIDs schema)) :
    run (FleetState.step schema) s
        [.expire, .begin, .page [] true, .page [] true, .page [] true, .finalize order true] =
      { store :=
          { legacy := ⟨∅, ∅, ∅⟩
            session := Writes.apply s.store.session (s.store.legacy.commands schema)
            counters := migrateCounters s.store.counters order }
        phase := .finished
        lock := false } := by
  have hperm := perm_foldl_insert_client horder
  simp only [Legacy.allRows, List.flatMap_cons, List.flatMap_nil, List.append_nil,
    List.foldl_append] at hperm
  simp only [run_cons, run_nil, FleetState.step, hphase, hfound,
    Bool.false_eq_true, if_false, pageRows_all, FleetPhase.afterPage, if_true, if_pos hperm,
    FleetStore.finalize, Legacy.commands, Legacy.allRows, List.flatMap_cons, List.flatMap_nil,
    List.append_nil, List.flatMap_append, Writes.apply_append, Bool.not_true, Bool.and_false]

theorem exists_run_finished (schema : Schema) {s : FleetState} (hphase : s.phase = .idle) :
    ∃ fs, (∀ e ∈ fs, e.succeeds = true) ∧
      (run (FleetState.step schema) s fs).phase = .finished := by
  cases hfound : s.store.legacy.isEmpty with
  | true => exact ⟨[.begin], by simp [FleetEvent.succeeds],
      by simp [FleetState.step, hphase, hfound]⟩
  | false =>
    refine ⟨[.expire, .begin, .page [] true, .page [] true, .page [] true,
      .finalize (s.store.legacy.clientIDs schema) true], by simp [FleetEvent.succeeds], ?_⟩
    rw [run_undisturbed schema hphase hfound (List.Perm.refl _)]

end Undisturbed

/-! ### Restartability -/

section Restart

variable {schema : Schema} {start : FleetStore}

theorem Legacy.HasRow.isEmpty {l : Legacy} {row : Row} (h : l.HasRow schema row) :
    l.isEmpty = false := by
  refine Bool.eq_false_iff.2 fun hempty => ?_
  rw [Legacy.eq_empty_of_isEmpty hempty] at h
  obtain ⟨hash, f, hrow⟩ := h
  cases hash <;> cases hrow

theorem hasRow_client {f : Text} {r : ClientRecord} (h : start.legacy.clients.lookup f = some r) :
    start.legacy.HasRow schema r.row :=
  ⟨.clients, f, List.mem_map.2 ⟨⟨f, r⟩, GoMap.mem_entries.2 h, rfl⟩⟩

theorem hasRow_subscription {f : Text} {r : SubscriptionRecord}
    (h : start.legacy.subscriptions.lookup f = some r) : start.legacy.HasRow schema r.row :=
  ⟨.subscriptions, f, List.mem_map.2 ⟨⟨f, r⟩, GoMap.mem_entries.2 h, rfl⟩⟩

theorem complete_migratedStore (hws : Writes.Consistent (start.legacy.commands schema))
    (hsep : Separate schema start) : Complete schema start (migratedStore schema start) where
  stored row hrow := Writes.apply_of_mem hws start.session
    (Legacy.mem_commands.2 ⟨row, hrow, List.mem_cons_self⟩)
  indexed c hc := by
    obtain ⟨row, hrow, rfl⟩ := hc
    exact Writes.apply_of_mem hws start.session
      (Legacy.mem_commands.2 ⟨row, hrow, List.mem_cons_of_mem _ List.mem_cons_self⟩)
  counted c n hc hn := by
    -- the order does not matter, so let the client be the last one
    have hperm := List.perm_cons_erase (Legacy.mem_clientIDs.2 hc)
    have hlast := hperm.trans (List.perm_append_singleton c _).symm
    have hcounters := migrateCounters_perm (fun d hd hdn hne htoken =>
      hsep.counters d (Legacy.mem_clientIDs.1 hd) hdn hne (Legacy.mem_clientIDs.1 htoken)) hlast
    rw [migratedStore]
    dsimp only
    rw [hcounters, migrateCounters_concat, hn]
    dsimp only
    rw [if_pos rfl]
  gone := rfl

theorem fleetAfter_undisturbed (hfound : start.legacy.isEmpty = false) {order : List Text}
    (horder : order.Perm (start.legacy.clientIDs schema)) :
    (fleetAfter schema start [.expire, .begin, .page [] true, .page [] true, .page [] true,
        .finalize order true]).phase = .finished ∧
      (fleetAfter schema start [.expire, .begin, .page [] true, .page [] true, .page [] true,
        .finalize order true]).store.counters = migrateCounters start.counters order := by
  have hrun := run_undisturbed schema (s := { store := start }) rfl hfound horder
  rw [fleetAfter, hrun]
  exact ⟨rfl, rfl⟩

/-- The migration can be stopped and started again, and it puts everything in its place, exactly if
no two records and no two counters claim the same key. -/
theorem restartable_iff (hone : OneInflight start) :
    Restartable schema start ↔ Separate schema start := by
  constructor
  · intro h
    have hcomplete {row : Row} (hrow : start.legacy.HasRow schema row) {order : List Text}
        (horder : order.Perm (start.legacy.clientIDs schema)) :=
      h.complete _ (fleetAfter_undisturbed hrow.isEmpty horder).1
    constructor
    · intro f g r r' hr hr' hid
      have hdone := hcomplete (hasRow_client hr) (List.Perm.refl _)
      have hraw := hdone.stored _ (hasRow_client hr)
      have hraw' := hdone.stored _ (hasRow_client hr')
      simp only [ClientRecord.row, ← hid] at hraw hraw'
      cases r
      cases r'
      simp_all
    · intro f g r r' hr hr' hclient hfilter
      have hdone := hcomplete (hasRow_subscription hr) (List.Perm.refl _)
      have hraw := hdone.stored _ (hasRow_subscription hr)
      have hraw' := hdone.stored _ (hasRow_subscription hr')
      simp only [SubscriptionRecord.row, ← hclient, ← hfilter] at hraw hraw'
      cases r
      cases r'
      simp_all
    · intro c hc hn hne htoken
      by_contra hcollide
      -- the other client comes last, and the deletion of its old counter takes the new one along
      obtain ⟨row, hrow, -⟩ := id hc
      obtain ⟨n, hn⟩ := Option.ne_none_iff_exists'.1 hn
      obtain ⟨m, hm⟩ := Option.ne_none_iff_exists'.1 hcollide
      have horder := (List.perm_append_singleton (redisClientToken c) _).trans
        (List.perm_cons_erase (Legacy.mem_clientIDs.2 htoken)).symm
      have hcount := (hcomplete hrow horder).counted c n hc hn
      rw [(fleetAfter_undisturbed hrow.isEmpty horder).2, migrateCounters_concat, hm] at hcount
      dsimp only at hcount
      rw [if_neg fun htt => hne (redisClientToken_injective htt).symm, if_pos rfl] at hcount
      cases hcount
  · intro hsep
    have hws := hsep.consistent hone
    have hinv := inv_fleetAfter hws hsep
    have hdone := complete_migratedStore hws hsep
    have hfinished (es : List FleetEvent) (h : (fleetAfter schema start es).phase = .finished) :
        (fleetAfter schema start es).store = migratedStore schema start := by
      rcases hinv es with hcopy | hmig
      · exact absurd h hcopy.unfinished
      · exact hmig.store
    constructor
    · intro es
      rcases hinv es with hcopy | hmig
      · exact Or.inl hcopy.legacy
      · rw [hmig.store]
        exact Or.inr hdone
    · intro es h
      rw [hfinished es h]
      exact hdone
    · intro es fs he hf
      rw [hfinished es he, hfinished fs hf]
    · intro es hidle
      obtain ⟨fs, hok, hend⟩ := exists_run_finished schema hidle
      refine ⟨fs, hok, ?_⟩
      rw [fleetAfter, run_append]
      exact hend

/-- Two clients, one with the token of the other as its ID, and their counters. -/
def collidingStore : FleetStore where
  legacy :=
    { clients := (AList.singleton ['a'] ⟨['a'], []⟩).insert ['Y', 'Q'] ⟨['Y', 'Q'], []⟩
      subscriptions := ∅
      inflight := ∅ }
  session := fun _ => none
  counters := fun k => if k = ['a'] then some ['7'] else if k = ['Y', 'Q'] then some ['9'] else none

/-- An undisturbed migration loses the counter of the client "a": its new key is the old key of the
client "YQ", which comes later. -/
theorem not_restartable_colliding :
    OneInflight collidingStore ∧
    (fleetAfter .v2 collidingStore [.begin, .page [] true, .page [] true, .page [] true,
      .finalize [['a'], ['Y', 'Q']] true]).phase = .finished ∧
    collidingStore.counters ['a'] = some ['7'] ∧
    (fleetAfter .v2 collidingStore [.begin, .page [] true, .page [] true, .page [] true,
      .finalize [['a'], ['Y', 'Q']] true]).store.counters (redisClientToken ['a']) = none ∧
    ¬ Restartable .v2 collidingStore := by
  have hone : OneInflight collidingStore := by
    intro f g r r' hr
    cases hr
  have hfinished : (fleetAfter .v2 collidingStore [.begin, .page [] true, .page [] true,
      .page [] true, .finalize [['a'], ['Y', 'Q']] true]).phase = .finished := by decide +kernel
  have hlost : (fleetAfter .v2 collidingStore [.begin, .page [] true, .page [] true, .page [] true,
      .finalize [['a'], ['Y', 'Q']] true]).store.counters (redisClientToken ['a']) = none := by
    decide +kernel
  have hclient : collidingStore.legacy.HasClient .v2 ['a'] :=
    Legacy.mem_clientIDs.1 (by decide +kernel)
  refine ⟨hone, hfinished, rfl, hlost, fun h => ?_⟩
  have hcount := (h.complete _ hfinished).counted ['a'] ['7'] hclient rfl
  rw [hlost] at hcount
  cases hcount

/-- One client with a record of every kind and a counter. -/
def singleStore : FleetStore where
  legacy :=
    { clients := AList.singleton ['a'] ⟨['a'], ['r']⟩
      subscriptions := AList.singleton ['a', ':', 't'] ⟨['a'], ['t'], ['s']⟩
      inflight := AList.singleton ['a', ':', '1'] ⟨['a'], .publish, 1, ['m']⟩ }
  session := fun _ => none
  counters := fun k => if k = ['a'] then some ['7'] else none

theorem restartable_single : Restartable .v2 singleStore := by
  have hclients : ∀ f r, singleStore.legacy.clients.lookup f = some r → r = ⟨['a'], ['r']⟩ := by
    decide +kernel
  have hsubs : ∀ f r, singleStore.legacy.subscriptions.lookup f = some r →
      r = ⟨['a'], ['t'], ['s']⟩ := by decide +kernel
  have hinflight : ∀ f r, singleStore.legacy.inflight.lookup f = some r →
      r = ⟨['a'], .publish, 1, ['m']⟩ := by decide +kernel
  refine (restartable_iff fun f g r r' hr hr' _ _ => ?_).2 ⟨fun f g r r' hr hr' _ => ?_,
    fun f g r r' hr hr' _ _ => ?_, fun c hc _ hne htoken => ?_⟩
  · rw [hinflight f r hr, hinflight g r' hr']
  · rw [hclients f r hr, hclients g r' hr']
  · rw [hsubs f r hr, hsubs g r' hr']
  · have hall : ∀ c ∈ singleStore.legacy.clientIDs .v2, c = ['a'] := by decide +kernel
    have hc := hall c (Legacy.mem_clientIDs.2 hc)
    exact absurd ((hall _ (Legacy.mem_clientIDs.2 htoken)).trans hc.symm) hne

end Restart

end KeelGateway.Redis

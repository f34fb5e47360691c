import KeelGateway.Lib.Optimistic
import KeelGateway.Lib.StepMachine
import KeelGateway.Redis.PacketCounter

/-!
# The offline queue under concurrency

`QueueOfflineInflight` stores a message for a client that is not connected. It runs an optimistic
transaction on four keys: the schema marker, the in-flight hash of the client, its packet ID
counter, and the dedup marker of the publish. Any number of calls run at once, on any nodes, and
other parties write and delete live in-flight messages, migrate legacy fields and switch the schema
meanwhile. The steps of the machine are single Redis commands, with a `MULTI`/`EXEC` block counting
as one.

-/

namespace KeelGateway.Redis

open Optimistic StepMachine

/-! ### Keys -/

/-- The keys of one client that the queue works on. -/
structure Keys where
  marker : Cell Marker
  hash : Cell InflightHash
  counter : Cell (Option ℤ)
  dedup : UUID → Cell Bool

/-- The versions of the watched keys. Without a publish ID the dedup marker is not watched. -/
structure Watched where
  marker : ℕ
  hash : ℕ
  counter : ℕ
  dedup : ℕ
  deriving DecidableEq

namespace Keys

/-- `WATCH`. -/
def versions (k : Keys) (publishID : UUID) : Watched where
  marker := k.marker.version
  hash := k.hash.version
  counter := k.counter.version
  dedup := if publishID = UUID.nil then 0 else (k.dedup publishID).version

/-- What any party can make of the keys. -/
structure Evolves (k l : Keys) : Prop where
  marker : k.marker.Evolves l.marker
  hash : k.hash.Evolves l.hash
  counter : k.counter.Evolves l.counter
  dedup : ∀ p, (k.dedup p).Evolves (l.dedup p)

theorem Evolves.refl (k : Keys) : k.Evolves k := ⟨.refl _, .refl _, .refl _, fun _ => .refl _⟩

/-- The stored counter; a missing one counts as zero. -/
def counterValue (k : Keys) : ℤ := k.counter.value.getD 0

/-- Under schema 1 the hash holds numeric fields only. -/
def LegacyNumeric (k : Keys) : Prop :=
  k.marker.value.schema? = some .legacy → ∀ f ∈ k.hash.value, ∃ id, f = .numeric id

end Keys

/-! ### Calls -/

/-- `session.InflightMessage`. -/
structure OfflineMessage where
  topic : Text
  payload : List UInt8
  qos : ℕ
  deriving DecidableEq

/-- `marshalOfflineInflight`. -/
def marshalOfflineInflight (clientID : Text) (packetID : ℕ) (msg : OfflineMessage) (now : ℤ) :
    Message where
  client := clientID
  type := .publish
  qos := msg.qos
  topicName := msg.topic
  payload := msg.payload
  created := now
  packetID := packetID

/-- The field of a queued message. -/
def queueField (schema : Schema) (packetID : ℕ) : Field :=
  match schema with
  | .legacy => .numeric packetID
  | .v2 => .outbound packetID

/-- The arguments of a call, and the schema its node is configured for, if any. -/
structure CallArgs where
  publishID : UUID
  msg : OfflineMessage
  configured : Option Schema := none

/-- How far a call has come: the commands that were answered, with their replies. -/
inductive Phase where
  | start
  | watching (w : Watched)
  | schemaRead (w : Watched) (schema : Schema)
  | deduped (w : Watched) (schema : Schema)
  | counterRead (w : Watched) (schema : Schema) (counter : ℤ)
  | planned (w : Watched) (schema : Schema) (counter next : ℤ)
  | queued (packetID : ℕ)
  | duplicate
  | failed
  deriving DecidableEq

/-- The call has returned `queued = true`. -/
def Phase.isQueued : Phase → Bool
  | queued _ => true
  | _ => false

/-- A call of `QueueOfflineInflight`. -/
structure Call where
  args : CallArgs
  attempt : ℕ := 0
  phase : Phase := .start

/-- The effect of the `MULTI`/`EXEC` block. -/
def Keys.commit (k : Keys) (clientID : Text) (args : CallArgs) (schema : Schema) (next now : ℤ) :
    Keys :=
  let packetID := packetIDOf next
  { k with
    counter := k.counter.write (some next)
    hash := k.hash.write (k.hash.value.insert (queueField schema packetID)
      (marshalOfflineInflight clientID packetID args.msg now))
    dedup := if args.publishID = UUID.nil then k.dedup
      else Function.update k.dedup args.publishID ((k.dedup args.publishID).write true) }

/-- The next command of a call: the keys and the call afterwards. -/
def Call.next (c : Call) (clientID : Text) (k : Keys) (now : ℤ) : Keys × Call :=
  match c.phase with
  | .start => (k, { c with phase := .watching (k.versions c.args.publishID) })
  | .watching w =>
    match k.marker.value.schema? with
    | none => (k, { c with phase := .failed })
    | some schema =>
      if c.args.configured = none ∨ c.args.configured = some schema then
        (k, { c with phase := .schemaRead w schema })
      else (k, { c with phase := .failed })
  | .schemaRead w schema =>
    if c.args.publishID ≠ UUID.nil ∧ (k.dedup c.args.publishID).value = true then
      (k, { c with phase := .duplicate })
    else (k, { c with phase := .deduped w schema })
  | .deduped w schema => (k, { c with phase := .counterRead w schema k.counterValue })
  | .counterRead w schema counter =>
    let next := nextOfflinePacketCounter k.hash.value schema counter
    if next = 0 then (k, { c with phase := .failed })
    else (k, { c with phase := .planned w schema counter next })
  | .planned w schema _ next =>
    if k.versions c.args.publishID = w then
      (k.commit clientID c.args schema next now, { c with phase := .queued (packetIDOf next) })
    else if c.attempt + 1 < 32 then (k, { c with attempt := c.attempt + 1, phase := .start })
    else (k, { c with phase := .failed })
  | .queued _ => (k, c)
  | .duplicate => (k, c)
  | .failed => (k, c)

/-- `QueueOfflineInflight` when nobody disturbs it and every command succeeds: the keys afterwards
and how it returns. -/
def Keys.queueOfflineInflight (k : Keys) (clientID : Text) (args : CallArgs) (now : ℤ) :
    Keys × Phase :=
  match k.marker.value.schema? with
  | none => (k, .failed)
  | some schema =>
    if args.configured = none ∨ args.configured = some schema then
      if args.publishID ≠ UUID.nil ∧ (k.dedup args.publishID).value = true then (k, .duplicate)
      else
        let next := nextOfflinePacketCounter k.hash.value schema k.counterValue
        if next = 0 then (k, .failed)
        else (k.commit clientID args schema next now, .queued (packetIDOf next))
    else (k, .failed)

theorem Keys.queueOfflineInflight_cases (k : Keys) (clientID : Text) (args : CallArgs) (now : ℤ) :
    ((k.queueOfflineInflight clientID args now).1 = k ∧
      (k.queueOfflineInflight clientID args now).2.isQueued = false) ∨
    ∃ schema next, k.marker.value.schema? = some schema ∧
      next = nextOfflinePacketCounter k.hash.value schema k.counterValue ∧ next ≠ 0 ∧
      k.queueOfflineInflight clientID args now =
        (k.commit clientID args schema next now, .queued (packetIDOf next)) := by
  unfold queueOfflineInflight
  cases hschema : k.marker.value.schema? with
  | none => exact Or.inl ⟨rfl, rfl⟩
  | some schema =>
    dsimp only
    split_ifs with hconf hdup hzero
    · exact Or.inl ⟨rfl, rfl⟩
    · exact Or.inl ⟨rfl, rfl⟩
    · exact Or.inr ⟨schema, _, rfl, rfl, hzero, rfl⟩
    · exact Or.inl ⟨rfl, rfl⟩

theorem Keys.marker_queueOfflineInflight (k : Keys) (clientID : Text) (args : CallArgs) (now : ℤ) :
    (k.queueOfflineInflight clientID args now).1.marker = k.marker := by
  rcases k.queueOfflineInflight_cases clientID args now with ⟨heq, -⟩ | ⟨_, _, -, -, -, heq⟩
  · exact congrArg Keys.marker heq
  · exact congrArg (fun r => r.1.marker) heq

/-- A cancelled context or a failed command ends a call that has not returned yet. -/
def Call.abandon (c : Call) : Call :=
  match c.phase with
  | .queued _ => c
  | .duplicate => c
  | _ => { c with phase := .failed }

/-! ### Other parties -/

namespace Keys

variable (k : Keys)

/-- `schemaFencedHSetScript`: a live write. -/
def liveWrite (clientID : Text) (schema : Schema) (pk : Packet) (sent : ℤ) : Keys :=
  if k.marker.value.fence? = some schema then
    { k with
      hash := k.hash.write
        (k.hash.value.insert (writeField schema pk) (pk.toMessage clientID sent)) }
  else k

/-- `schemaFencedHDelScript`: a live delete. Redis does not count a delete of missing fields as a
write. -/
def liveDelete (schema : Schema) (pk : Packet) (dropped : Bool) : Keys :=
  if k.marker.value.fence? = some schema ∧
      ∃ f ∈ deleteFields schema pk dropped, f ∈ k.hash.value then
    { k with hash := k.hash.write (hdel k.hash.value (deleteFields schema pk dropped)) }
  else k

variable {k}

theorem lookup_liveWrite {schema : Schema} (h : k.marker.value.fence? = some schema)
    (clientID : Text) (pk : Packet) (sent : ℤ) (f : Field) :
    (k.liveWrite clientID schema pk sent).hash.value.lookup f =
      if f = writeField schema pk then some (pk.toMessage clientID sent)
      else k.hash.value.lookup f := by
  rw [liveWrite, if_pos h]
  exact GoMap.lookup_insert _ _ _ _

theorem lookup_liveDelete {schema : Schema} (h : k.marker.value.fence? = some schema)
    (pk : Packet) (dropped : Bool) (f : Field) :
    (k.liveDelete schema pk dropped).hash.value.lookup f =
      if f ∈ deleteFields schema pk dropped then none else k.hash.value.lookup f := by
  simp only [liveDelete, h, true_and]
  split_ifs with hany hf hf
  · rw [Cell.value_write, lookup_hdel, if_pos hf]
  · rw [Cell.value_write, lookup_hdel, if_neg hf]
  · exact AList.lookup_eq_none.2 fun hmem => hany ⟨f, hf, hmem⟩
  · rfl

theorem marker_liveWrite (clientID : Text) (schema : Schema) (pk : Packet) (sent : ℤ) :
    (k.liveWrite clientID schema pk sent).marker = k.marker := by
  unfold liveWrite
  split_ifs <;> rfl

theorem marker_liveDelete (schema : Schema) (pk : Packet) (dropped : Bool) :
    (k.liveDelete schema pk dropped).marker = k.marker := by
  unfold liveDelete
  split_ifs <;> rfl

variable (k)

/-- `migrateLegacyInflightFieldScript`, for a numeric field and the message that was read from it.
A node runs it after it has seen schema 2, and the marker never goes back. -/
def migrate (id : ℕ) (msg : Message) : Keys :=
  if k.marker.value.schema? = some .v2 ∧ .numeric id ∈ k.hash.value then
    { k with
      hash := k.hash.write
        (migrateLegacyInflightField k.hash.value id (inflightFieldKey msg.toPacket)) }
  else k

theorem migrate_cases (id : ℕ) (msg : Message) :
    k.migrate id msg = k ∨
      (k.marker.value.schema? = some .v2 ∧
        ∃ hash, k.migrate id msg = { k with hash := k.hash.write hash }) := by
  unfold migrate
  split_ifs with h
  · exact Or.inr ⟨h.1, _, rfl⟩
  · exact Or.inl rfl

/-- The write of `ActivateDirectionalSchema`. -/
def activate : Keys := { k with marker := k.marker.write (.valid .v2) }

/-- The dedup marker of a publish reaches the end of its lifetime. -/
def expire (publishID : UUID) : Keys :=
  if (k.dedup publishID).value = true then
    { k with dedup := Function.update k.dedup publishID ((k.dedup publishID).write false) }
  else k

end Keys

/-- Something happens to the keys of the client. -/
inductive QueueEvent where
  | call (args : CallArgs)
  | advance (i : ℕ) (now : ℤ)
  | abandon (i : ℕ)
  | liveWrite (schema : Schema) (pk : Packet) (sent : ℤ)
  | liveDelete (schema : Schema) (pk : Packet) (dropped : Bool)
  | migrate (id : ℕ) (msg : Message)
  | activateRead
  | activateSet
  | expire (publishID : UUID)

/-- The keys of the client and the calls that work on them. -/
structure QueueState where
  keys : Keys
  calls : List Call := []
  armed : Bool := false

namespace QueueState

variable (clientID : Text)

/-- One command of anybody. -/
def step (s : QueueState) : QueueEvent → QueueState
  | .call args => { s with calls := s.calls ++ [{ args := args }] }
  | .advance i now =>
    match s.calls[i]? with
    | none => s
    | some c =>
      let (keys, c) := c.next clientID s.keys now
      { s with keys := keys, calls := s.calls.set i c }
  | .abandon i => { s with calls := s.calls.modify i Call.abandon }
  | .liveWrite schema pk sent => { s with keys := s.keys.liveWrite clientID schema pk sent }
  | .liveDelete schema pk dropped => { s with keys := s.keys.liveDelete schema pk dropped }
  | .migrate id msg => { s with keys := s.keys.migrate id msg }
  | .activateRead => { s with armed := s.armed || s.keys.marker.value = .valid .legacy }
  | .activateSet => { s with keys := if s.armed then s.keys.activate else s.keys }
  | .expire publishID => { s with keys := s.keys.expire publishID }

/-- A call commits at this step: its index and its publish ID. -/
def commitAt (s : QueueState) : QueueEvent → Option (ℕ × UUID)
  | .advance i now =>
    match s.calls[i]? with
    | none => none
    | some c =>
      if !c.phase.isQueued && (c.next clientID s.keys now).2.phase.isQueued then
        some (i, c.args.publishID)
      else none
  | _ => none

/-- The call has returned `queued = true`. -/
def isQueued (s : QueueState) (i : ℕ) : Bool := (s.calls[i]?.map (·.phase.isQueued)).getD false

end QueueState

/-! ### What a call knows -/

/-- The observations of a call about the keys it watches. -/
structure Knows (k : Keys) (p : UUID) (w : Watched) (M : Marker → Prop) (D : Bool → Prop)
    (C : Option ℤ → Prop) (H : InflightHash → Prop) : Prop where
  marker : Observed k.marker w.marker M
  dedup : p ≠ UUID.nil → Observed (k.dedup p) w.dedup D
  counter : Observed k.counter w.counter C
  hash : Observed k.hash w.hash H

theorem Knows.evolves {k l : Keys} {p : UUID} {w : Watched} {M D C H} (h : Knows k p w M D C H)
    (hl : k.Evolves l) : Knows l p w M D C H :=
  ⟨h.marker.evolves hl.marker, fun hp => (h.dedup hp).evolves (hl.dedup p),
    h.counter.evolves hl.counter, h.hash.evolves hl.hash⟩

/-- What a call knows in each phase. -/
def Call.Inv (c : Call) (k : Keys) : Prop :=
  match c.phase with
  | .watching w =>
    Knows k c.args.publishID w (fun _ => True) (fun _ => True) (fun _ => True) fun _ => True
  | .schemaRead w schema =>
    Knows k c.args.publishID w (·.schema? = some schema) (fun _ => True) (fun _ => True)
      fun _ => True
  | .deduped w schema =>
    Knows k c.args.publishID w (·.schema? = some schema) (· = false) (fun _ => True)
      fun _ => True
  | .counterRead w schema counter =>
    Knows k c.args.publishID w (·.schema? = some schema) (· = false) (·.getD 0 = counter)
      fun _ => True
  | .planned w schema counter next =>
    next ≠ 0 ∧
    Knows k c.args.publishID w (·.schema? = some schema) (· = false) (·.getD 0 = counter)
      (next = nextOfflinePacketCounter · schema counter)
  | _ => True

variable {c : Call}

theorem Call.Inv.evolves {k l : Keys} (h : c.Inv k) (hl : k.Evolves l) : c.Inv l := by
  unfold Call.Inv at h ⊢
  split <;> simp_all only
  · exact h.evolves hl
  · exact h.evolves hl
  · exact h.evolves hl
  · exact h.evolves hl
  · exact ⟨h.1, h.2.evolves hl⟩

theorem Call.inv_abandon {k : Keys} (h : c.Inv k) : c.abandon.Inv k := by
  unfold Call.abandon
  split
  · exact h
  · exact h
  · exact trivial

theorem Keys.evolves_commit (k : Keys) (clientID : Text) (args : CallArgs) (schema : Schema)
    (next now : ℤ) : k.Evolves (k.commit clientID args schema next now) := by
  refine ⟨.refl _, Cell.evolves_write _ _, Cell.evolves_write _ _, fun p => ?_⟩
  unfold Keys.commit
  dsimp only
  split_ifs
  · exact .refl _
  · by_cases hp : p = args.publishID
    · subst hp
      rw [Function.update_self]
      exact Cell.evolves_write _ _
    · rw [Function.update_of_ne hp]
      exact .refl _

theorem Keys.evolves_expire (k : Keys) (publishID : UUID) : k.Evolves (k.expire publishID) := by
  unfold Keys.expire
  split_ifs
  · refine ⟨.refl _, .refl _, .refl _, fun p => ?_⟩
    by_cases hp : p = publishID
    · subst hp
      simp only [Function.update_self]
      exact Cell.evolves_write _ _
    · simp only [Function.update_of_ne hp]
      exact .refl _
  · exact .refl _

theorem Call.next_cases (c : Call) (clientID : Text) (k : Keys) (now : ℤ) :
    ((c.next clientID k now).1 = k ∧
      (c.next clientID k now).2.phase.isQueued = c.phase.isQueued) ∨
    ∃ w schema counter next, c.phase = .planned w schema counter next ∧
      k.versions c.args.publishID = w ∧
      c.next clientID k now = (k.commit clientID c.args schema next now,
        { c with phase := .queued (packetIDOf next) }) := by
  unfold Call.next
  cases hphase : c.phase with
  | start => exact Or.inl ⟨rfl, rfl⟩
  | watching w =>
    dsimp only
    split
    · exact Or.inl ⟨rfl, rfl⟩
    · split_ifs <;> exact Or.inl ⟨rfl, rfl⟩
  | schemaRead w schema =>
    split_ifs <;> exact Or.inl ⟨rfl, rfl⟩
  | deduped w schema => exact Or.inl ⟨rfl, rfl⟩
  | counterRead w schema counter =>
    dsimp only
    split_ifs <;> exact Or.inl ⟨rfl, rfl⟩
  | planned w schema counter next =>
    dsimp only
    split_ifs with hw
    · exact Or.inr ⟨w, schema, counter, next, rfl, hw, rfl⟩
    · exact Or.inl ⟨rfl, rfl⟩
    · exact Or.inl ⟨rfl, rfl⟩
  | queued id => exact Or.inl ⟨rfl, by rw [hphase]⟩
  | duplicate => exact Or.inl ⟨rfl, by rw [hphase]⟩
  | failed => exact Or.inl ⟨rfl, by rw [hphase]⟩

theorem Call.next_evolves (c : Call) (clientID : Text) (k : Keys) (now : ℤ) :
    k.Evolves (c.next clientID k now).1 := by
  rcases c.next_cases clientID k now with ⟨hk, -⟩ | ⟨w, schema, counter, next, -, -, heq⟩
  · rw [hk]
    exact .refl k
  · rw [heq]
    exact k.evolves_commit clientID c.args schema next now

theorem Call.inv_next {clientID : Text} {k : Keys} {now : ℤ} (h : c.Inv k) :
    (c.next clientID k now).2.Inv (c.next clientID k now).1 := by
  unfold Call.next
  unfold Call.Inv at h
  cases hphase : c.phase with
  | start =>
    refine ⟨observed_version _, fun hp => ?_, observed_version _, observed_version _⟩
    simp only [Keys.versions, if_neg hp]
    exact observed_version _
  | watching w =>
    rw [hphase] at h
    dsimp only
    split
    · exact trivial
    · rename_i schema hschema
      split_ifs
      · exact ⟨h.marker.read hschema, h.dedup, h.counter, h.hash⟩
      · exact trivial
  | schemaRead w schema =>
    rw [hphase] at h
    dsimp only
    split_ifs with hdup
    · exact trivial
    · refine ⟨h.marker, fun hp => (h.dedup hp).read ?_, h.counter, h.hash⟩
      exact Bool.eq_false_iff.2 fun htrue => hdup ⟨hp, htrue⟩
  | deduped w schema =>
    rw [hphase] at h
    exact ⟨h.marker, h.dedup, h.counter.read rfl, h.hash⟩
  | counterRead w schema counter =>
    rw [hphase] at h
    dsimp only
    split_ifs with hzero
    · exact trivial
    · exact ⟨hzero, h.marker, h.dedup, h.counter, h.hash.read rfl⟩
  | planned w schema counter next =>
    dsimp only
    split_ifs <;> exact trivial
  | queued id =>
    simp only [Call.Inv, hphase]
  | duplicate =>
    simp only [Call.Inv, hphase]
  | failed =>
    simp only [Call.Inv, hphase]

/-! ### Commits -/

/-- A call has stored its message: under a field that was absent, with a packet ID that no outbound
field and no numeric field used, together with the counter and the dedup marker. -/
structure Commit (clientID : Text) (args : CallArgs) (now : ℤ) (id : ℕ) (k l : Keys) : Prop where
  id_pos : 1 ≤ id
  id_le : id ≤ packetIDs
  numeric_free : .numeric id ∉ k.hash.value
  outbound_free : .outbound id ∉ k.hash.value
  stored : ∃ schema, k.marker.value.schema? = some schema ∧
    queueField schema id ∉ k.hash.value ∧
    l.hash.value = k.hash.value.insert (queueField schema id)
      (marshalOfflineInflight clientID id args.msg now)
  counter : ∃ next, packetIDOf next = id ∧ k.counterValue < next ∧ l.counter.value = some next
  marked : args.publishID ≠ UUID.nil →
    (k.dedup args.publishID).value = false ∧ (l.dedup args.publishID).value = true
  others : ∀ q, q ≠ args.publishID ∨ q = UUID.nil → l.dedup q = k.dedup q
  marker : l.marker = k.marker

theorem commit_of_planned {clientID : Text} {k : Keys} {w : Watched} {schema : Schema}
    {counter next : ℤ} (now : ℤ) (hinv : c.Inv k)
    (hphase : c.phase = .planned w schema counter next) (hw : k.versions c.args.publishID = w)
    (hlegacy : k.LegacyNumeric) (hrange : CounterInRange k.counterValue) :
    Commit clientID c.args now (packetIDOf next) k (k.commit clientID c.args schema next now) := by
  simp only [Call.Inv, hphase] at hinv
  obtain ⟨hne, hk⟩ := hinv
  subst hw
  have hschema : k.marker.value.schema? = some schema := hk.marker.commit rfl
  have hcounter : k.counterValue = counter := hk.counter.commit rfl
  have hnext : next = nextOfflinePacketCounter k.hash.value schema counter := hk.hash.commit rfl
  rw [← hcounter] at hnext
  rcases nextOfflinePacketCounter_spec hrange with hzero | ⟨hlt, hpos, hle, hnum, hout⟩
  · exact absurd (hnext.trans hzero) hne
  rw [← hnext] at hlt hpos hle hnum hout
  have hout' : .outbound (packetIDOf next) ∉ k.hash.value := by
    cases schema with
    | v2 => exact hout rfl
    | legacy =>
      intro hmem
      obtain ⟨id, hid⟩ := hlegacy hschema _ hmem
      cases hid
  refine ⟨hpos, hle, hnum, hout', ⟨schema, hschema, ?_, rfl⟩, ⟨next, rfl, hlt, rfl⟩, ?_, ?_, rfl⟩
  · cases schema with
    | legacy => exact hnum
    | v2 => exact hout'
  · intro hp
    have hdedup := hk.dedup hp
    refine ⟨hdedup.commit ?_, ?_⟩
    · simp [Keys.versions, hp]
    · simp [Keys.commit, hp]
  · rintro q hq
    by_cases hp : c.args.publishID = UUID.nil
    · simp [Keys.commit, hp]
    · have hne : q ≠ c.args.publishID := by
        rcases hq with hq | rfl
        · exact hq
        · exact Ne.symm hp
      simp [Keys.commit, hp, Function.update_of_ne hne]

/-! ### Runs -/

namespace QueueState

variable (clientID : Text)

/-- The invariant of the machine. -/
structure Inv (s : QueueState) : Prop where
  legacy : s.keys.LegacyNumeric
  calls : ∀ c ∈ s.calls, c.Inv s.keys

/-- What a step of a call may do: nothing to the keys, or a commit when it returns
`queued = true`. -/
def CallSpec (s : QueueState) (e : QueueEvent) : Prop :=
  match e with
  | .call _ => (s.step clientID e).keys = s.keys
  | .abandon _ => (s.step clientID e).keys = s.keys
  | .advance i now =>
    match s.calls[i]?, s.commitAt clientID e with
    | some c, some _ =>
      ∃ id, (c.next clientID s.keys now).2.phase = .queued id ∧
        Commit clientID c.args now id s.keys (s.step clientID e).keys
    | _, _ => (s.step clientID e).keys = s.keys
  | _ => True

/-- Whenever a call runs a command, the stored counter is in range. -/
def InRange (s : QueueState) : QueueEvent → Prop
  | .advance _ _ => CounterInRange s.keys.counterValue
  | _ => True

instance (s : QueueState) (e : QueueEvent) : Decidable (s.InRange e) := by
  cases e <;> unfold InRange <;> infer_instance

variable {clientID}

/-- No step takes back a write. -/
theorem evolves_step (s : QueueState) (e : QueueEvent) :
    s.keys.Evolves (s.step clientID e).keys := by
  cases e with
  | call args => exact .refl _
  | advance i now =>
    simp only [step]
    split
    · exact .refl _
    · exact Call.next_evolves _ _ _ _
  | abandon i => exact .refl _
  | liveWrite schema pk sent =>
    simp only [step, Keys.liveWrite]
    split_ifs
    · exact ⟨.refl _, Cell.evolves_write _ _, .refl _, fun _ => .refl _⟩
    · exact .refl _
  | liveDelete schema pk dropped =>
    simp only [step, Keys.liveDelete]
    split_ifs
    · exact ⟨.refl _, Cell.evolves_write _ _, .refl _, fun _ => .refl _⟩
    · exact .refl _
  | migrate id msg =>
    rcases s.keys.migrate_cases id msg with heq | ⟨-, hash, heq⟩ <;> simp only [step, heq]
    · exact .refl _
    · exact ⟨.refl _, Cell.evolves_write _ _, .refl _, fun _ => .refl _⟩
  | activateRead => exact .refl _
  | activateSet =>
    simp only [step]
    split_ifs
    · exact ⟨Cell.evolves_write _ _, .refl _, .refl _, fun _ => .refl _⟩
    · exact .refl _
  | expire publishID => exact s.keys.evolves_expire publishID

variable {s : QueueState}

/-- Schema 1 keeps its numeric fields. -/
theorem legacyNumeric_step (h : s.Inv) (e : QueueEvent) :
    (s.step clientID e).keys.LegacyNumeric := by
  have hold := h.legacy
  cases e with
  | call args => exact hold
  | advance i now =>
    simp only [step]
    split
    · exact hold
    · rename_i c hc
      rcases c.next_cases clientID s.keys now with
        ⟨hk, -⟩ | ⟨w, schema, counter, next, hphase, hw, heq⟩
      · rw [hk]
        exact hold
      · rw [heq]
        intro hschema f hf
        have hinv := h.calls c (List.mem_of_getElem? hc)
        simp only [Call.Inv, hphase] at hinv
        have hmarker : s.keys.marker.value.schema? = some schema :=
          hinv.2.marker.commit (hw ▸ rfl)
        obtain rfl : schema = .legacy := Option.some.inj (hmarker.symm.trans hschema)
        rcases (AList.mem_insert _).1 hf with rfl | hf
        · exact ⟨_, rfl⟩
        · exact hold hschema f hf
  | abandon i => exact hold
  | liveWrite schema pk sent =>
    simp only [step, Keys.liveWrite]
    split_ifs with hw
    · intro hschema f hf
      obtain rfl : schema = .legacy :=
        Option.some.inj ((Marker.schema?_of_fence? hw).symm.trans hschema)
      rcases (AList.mem_insert _).1 hf with rfl | hf
      · exact ⟨_, rfl⟩
      · exact hold hschema f hf
    · exact hold
  | liveDelete schema pk dropped =>
    simp only [step, Keys.liveDelete]
    split_ifs
    · intro hschema f hf
      refine hold hschema f ?_
      rw [← AList.lookup_isSome] at hf ⊢
      rw [Cell.value_write, lookup_hdel] at hf
      split_ifs at hf
      · cases hf
      · exact hf
    · exact hold
  | migrate id msg =>
    rcases s.keys.migrate_cases id msg with heq | ⟨hv2, hash, heq⟩ <;> simp only [step, heq]
    · exact hold
    · intro hschema
      cases hv2.symm.trans hschema
  | activateRead => exact hold
  | activateSet =>
    simp only [step]
    split_ifs
    · intro hschema
      simp only [Keys.activate, Cell.value_write, Marker.schema?, Option.some.injEq,
        reduceCtorEq] at hschema
    · exact hold
  | expire publishID =>
    simp only [step, Keys.expire]
    split_ifs <;> exact hold

/-- Every step keeps the invariant. -/
theorem inv_step (h : s.Inv) (e : QueueEvent) : (s.step clientID e).Inv := by
  refine ⟨legacyNumeric_step h e, ?_⟩
  have hev : s.keys.Evolves (s.step clientID e).keys := evolves_step s e
  have hother (c : Call) (hc : c ∈ s.calls) : c.Inv (s.step clientID e).keys :=
    (h.calls c hc).evolves hev
  cases e with
  | call args =>
    intro c hc
    rcases List.mem_append.1 hc with hc | hc
    · exact hother c hc
    · rw [List.mem_singleton.1 hc]
      exact trivial
  | advance i now =>
    cases hcall : s.calls[i]? with
    | none =>
      simp only [step, hcall] at hother ⊢
      exact hother
    | some c =>
      have hc : c ∈ s.calls := List.mem_of_getElem? hcall
      simp only [step, hcall] at hother ⊢
      intro d hd
      rcases List.mem_or_eq_of_mem_set hd with hd | rfl
      · exact hother d hd
      · exact Call.inv_next (h.calls c hc)
  | abandon i =>
    intro c hc
    obtain ⟨j, hj⟩ := List.mem_iff_getElem?.1 hc
    simp only [step, List.getElem?_modify] at hj
    obtain ⟨d, hd, rfl⟩ := Option.map_eq_some_iff.1 hj
    have hdmem : d ∈ s.calls := List.mem_of_getElem? hd
    split_ifs
    · exact Call.inv_abandon (hother d hdmem)
    · exact hother d hdmem
  | liveWrite schema pk sent => exact hother
  | liveDelete schema pk dropped => exact hother
  | migrate id msg => exact hother
  | activateRead => exact hother
  | activateSet => exact hother
  | expire publishID => exact hother

variable (clientID)

theorem callSpec_of_inv (h : s.Inv) (e : QueueEvent) (hrange : s.InRange e) :
    s.CallSpec clientID e := by
  cases e with
  | advance i now =>
    simp only [CallSpec, commitAt, step]
    cases hcall : s.calls[i]? with
    | none => rfl
    | some c =>
      dsimp only
      rcases c.next_cases clientID s.keys now with
        ⟨hk, hq⟩ | ⟨w, schema, counter, next, hphase, hw, heq⟩
      · rw [hq]
        simpa using hk
      · have hinv := h.calls c (List.mem_of_getElem? hcall)
        simp only [heq, hphase, Phase.isQueued, Bool.not_false, Bool.and_self, if_true]
        exact ⟨packetIDOf next, rfl, commit_of_planned now hinv hphase hw h.legacy hrange⟩
  | call args => rfl
  | abandon i => rfl
  | _ => trivial

theorem isQueued_step (s : QueueState) (e : QueueEvent) (i : ℕ) :
    (s.commitAt clientID e).toList.countP (·.1 = i) + (s.isQueued i).toNat =
      ((s.step clientID e).isQueued i).toNat := by
  cases e with
  | advance j now =>
    simp only [commitAt, step, isQueued]
    cases hcall : s.calls[j]? with
    | none => simp
    | some c =>
      dsimp only
      have hlt : j < s.calls.length := (List.getElem?_eq_some_iff.1 hcall).1
      have hstay : c.phase.isQueued = true →
          (c.next clientID s.keys now).2.phase.isQueued = true := by
        intro hq
        rcases c.next_cases clientID s.keys now with ⟨-, h⟩ | ⟨_, _, _, _, -, -, h⟩
        · rw [h, hq]
        · rw [h]
          rfl
      by_cases hij : j = i
      · subst hij
        rw [List.getElem?_set_self hlt, hcall]
        cases hq : c.phase.isQueued with
        | true => simp [hq, hstay hq]
        | false =>
          cases hq' : (c.next clientID s.keys now).2.phase.isQueued <;> simp [hq, hq']
      · rw [List.getElem?_set_ne hij]
        split_ifs <;> simp [hij]
  | call args =>
    simp only [commitAt, step, isQueued]
    rcases lt_trichotomy i s.calls.length with hlt | rfl | hgt
    · simp [List.getElem?_append_left hlt]
    · simp [Phase.isQueued]
    · simp [List.getElem?_eq_none_iff.2 hgt.le, List.getElem?_append_right hgt.le,
        List.getElem?_eq_none_iff.2 (show [({ args := args } : Call)].length ≤ i - s.calls.length
          by simp; omega)]
  | abandon j =>
    simp only [commitAt, step, isQueued, List.getElem?_modify]
    cases s.calls[i]? with
    | none => rfl
    | some c =>
      have habandon : c.abandon.phase.isQueued = c.phase.isQueued := by
        unfold Call.abandon
        cases hphase : c.phase <;> simp [Phase.isQueued, hphase]
      by_cases hij : j = i <;> simp [hij, habandon]
  | _ => simp [commitAt, step, isQueued]

theorem dedup_step (h : s.Inv) (e : QueueEvent) (hrange : s.InRange e) {p : UUID}
    (hp : p ≠ UUID.nil) (hexp : e ≠ .expire p) :
    (s.commitAt clientID e).toList.countP (·.2 = p) + (s.keys.dedup p).value.toNat ≤
      ((s.step clientID e).keys.dedup p).value.toNat := by
  have hspec := callSpec_of_inv clientID h e hrange
  cases e with
  | advance i now =>
    simp only [CallSpec] at hspec
    cases hcommit : s.commitAt clientID (.advance i now) with
    | none =>
      rw [hcommit] at hspec
      cases hcall : s.calls[i]? <;> simp_all
    | some note =>
      rw [hcommit] at hspec
      cases hcall : s.calls[i]? with
      | none => simp [commitAt, hcall] at hcommit
      | some c =>
        rw [hcall] at hspec
        obtain ⟨id, -, hcom⟩ := hspec
        have hnote : note.2 = c.args.publishID := by
          simp only [commitAt, hcall] at hcommit
          split_ifs at hcommit
          cases hcommit
          rfl
        by_cases heq : p = c.args.publishID
        · subst heq
          obtain ⟨hfalse, htrue⟩ := hcom.marked hp
          simp [hnote, hfalse, htrue]
        · have hother := hcom.others p (Or.inl heq)
          simp [hnote, Ne.symm heq, hother]
  | expire q =>
    have hpq : p ≠ q := fun heq => hexp (heq ▸ rfl)
    simp only [commitAt, step, Keys.expire]
    split_ifs <;> simp [Function.update_of_ne hpq]
  | call args => simp [commitAt, step]
  | abandon i => simp [commitAt, step]
  | liveWrite schema pk sent =>
    simp only [commitAt, step, Keys.liveWrite]
    split_ifs <;> simp
  | liveDelete schema pk dropped =>
    simp only [commitAt, step, Keys.liveDelete]
    split_ifs <;> simp
  | migrate id msg =>
    rcases s.keys.migrate_cases id msg with heq | ⟨-, hash, heq⟩ <;> simp [commitAt, step, heq]
  | activateRead => simp [commitAt, step]
  | activateSet =>
    simp only [commitAt, step]
    split_ifs <;> simp [Keys.activate]

/-- Every run in which the stored counter is in range whenever a call runs a command: each step of a
call leaves the keys alone or is a commit, a call that has returned `queued = true` has committed
exactly once and every other call never, and while the dedup marker of a publish does not expire
the publish is committed at most once. -/
theorem queueOfflineInflight_atomic {s : QueueState} (hcalls : s.calls = [])
    (hlegacy : s.keys.LegacyNumeric) (es : List QueueEvent)
    (hrange : Along (step clientID) InRange s es) :
    Along (step clientID) (CallSpec clientID) s es ∧
    (∀ i, (trace (step clientID) (commitAt clientID) s es).countP (·.1 = i) =
      ((run (step clientID) s es).isQueued i).toNat) ∧
    ∀ p ≠ UUID.nil, ∀ before during after, es = before ++ during ++ after →
      (∀ e ∈ during, e ≠ .expire p) →
      (trace (step clientID) (commitAt clientID)
        (run (step clientID) s before) during).countP (·.2 = p) ≤ 1 := by
  have hinv : s.Inv := ⟨hlegacy, by simp [hcalls]⟩
  refine ⟨?_, ?_, ?_⟩
  · exact along_of_invariant (fun _ e h _ => inv_step h e)
      (fun _ e h hr => callSpec_of_inv clientID h e hr) hinv hrange
  · intro i
    have hcount := countP_trace_eq (fun s e => isQueued_step clientID s e i) s es
    have hstart : s.isQueued i = false := by simp [isQueued, hcalls]
    rw [hstart] at hcount
    exact hcount
  · intro p hp before during after hes hexp
    subst hes
    obtain ⟨hbefore, hduring⟩ :=
      along_append.1 (along_append.1 hrange).1
    have hmid : (run (step clientID) s before).Inv :=
      Always.last <| always_of_along
        (fun (s : QueueState) e (h : s.Inv) (_ : s.InRange e) => inv_step h e) hinv hbefore
    generalize run (step clientID) s before = mid at hmid hduring ⊢
    have hcount : (trace (step clientID) (commitAt clientID) mid during).countP
          (·.2 = p) + (mid.keys.dedup p).value.toNat ≤
        ((run (step clientID) mid during).keys.dedup p).value.toNat :=
      countP_trace_le
        (fun (s : QueueState) e (h : s.Inv) (_ : s.InRange e ∧ e ≠ .expire p) => inv_step h e)
        (fun _ e h hok => dedup_step clientID h e hok.1 hp hok.2) hmid (hduring.and_forall hexp)
    have hbit := Bool.toNat_le ((run (step clientID) mid during).keys.dedup p).value
    omega

/-! ### A counter out of range -/

theorem step_advance_last (s : QueueState) (cs : List Call) (c : Call) (now : ℤ) :
    ({ s with calls := cs ++ [c] } : QueueState).step clientID (.advance cs.length now) =
      { s with
        keys := (c.next clientID s.keys now).1
        calls := cs ++ [(c.next clientID s.keys now).2] } := by
  simp [step]

theorem run_planned (args : CallArgs) {schema : Schema} (now : ℤ) (hconf : args.configured = none)
    (hschema : s.keys.marker.value.schema? = some schema) (hnil : args.publishID = UUID.nil)
    (hne : nextOfflinePacketCounter s.keys.hash.value schema s.keys.counterValue ≠ 0) :
    Always (step clientID) (·.keys = s.keys) s
        (.call args :: List.replicate 5 (.advance s.calls.length now)) ∧
      run (step clientID) s
          (.call args :: List.replicate 5 (.advance s.calls.length now)) =
        { s with
          calls := s.calls ++ [{
            args := args
            phase := .planned (s.keys.versions args.publishID) schema s.keys.counterValue
              (nextOfflinePacketCounter s.keys.hash.value schema s.keys.counterValue) }] } := by
  have hcall : s.step clientID (.call args) =
      { s with calls := s.calls ++ [{ args := args }] } := rfl
  simp only [List.replicate, Always, run_cons, run_nil, hcall,
    step_advance_last, Call.next, hschema, hconf, hnil, true_or, if_true, ne_eq,
    not_true_eq_false, false_and, if_false, hne, and_self]

theorem step_planned (s : QueueState) (cs : List Call) (args : CallArgs) (schema : Schema)
    (counter next now : ℤ) :
    ({ s with
        calls := cs ++ [{
          args := args
          phase := .planned (s.keys.versions args.publishID) schema counter next }] } :
      QueueState).step clientID (.advance cs.length now) =
      { s with
        keys := s.keys.commit clientID args schema next now
        calls := cs ++ [{ args := args, phase := .queued (packetIDOf next) }] } := by
  rw [step_advance_last]
  simp only [Call.next, if_true]

/-- Schema 2 is in force and no other key has been written yet. -/
def fresh : QueueState where
  keys :=
    { marker := ⟨.valid .v2, 0⟩
      hash := ⟨∅, 0⟩
      counter := ⟨none, 0⟩
      dedup := fun _ => ⟨false, 0⟩ }

/-- A client. -/
def sensor : Text := "sensor".toList

/-- A message without a publish ID. -/
def reading : CallArgs where
  publishID := UUID.nil
  msg := { topic := "t".toList, payload := [], qos := 1 }

theorem notMem_hdel_insert {hash : InflightHash} (hempty : ∀ f, f ∉ hash) (id : ℕ) (m : Message)
    (f : Field) : f ∉ hdel (hash.insert (.outbound id) m) [.outbound id, .numeric id] := by
  rw [← AList.lookup_eq_none, lookup_hdel]
  split_ifs with hf
  · rfl
  · simp only [List.mem_cons, not_or] at hf
    rw [AList.lookup_insert_ne hf.1, AList.lookup_eq_none]
    exact hempty f

theorem exists_run_counter (n : ℕ) (hn : n ≤ 2 ^ 53) :
    ∃ es s, run (step clientID) fresh es = s ∧ s.keys.marker.value = .valid .v2 ∧
      (∀ f, f ∉ s.keys.hash.value) ∧ s.keys.counterValue = n := by
  induction n with
  | zero => exact ⟨[], fresh, rfl, rfl, fun f => AList.notMem_empty f, rfl⟩
  | succ n ih =>
    obtain ⟨es, s, hrun, hmarker, hempty, hcounter⟩ := ih (by omega)
    have hschema : s.keys.marker.value.schema? = some .v2 := by rw [hmarker]; rfl
    have hnext : nextOfflinePacketCounter s.keys.hash.value .v2 s.keys.counterValue = n + 1 := by
      rw [hcounter]
      exact nextOfflinePacketCounter_of_empty hempty (by omega) (by omega)
    have hplan := (run_planned clientID reading 0 rfl hschema rfl (by rw [hnext]; omega)).2
    let ack : Packet := { type := .puback, packetID := packetIDOf (n + 1) }
    let t := s.keys.commit clientID reading .v2 (n + 1) 0
    have hack : t.liveDelete .v2 ack false =
        { t with hash := t.hash.write (hdel t.hash.value (deleteFields .v2 ack false)) } :=
      if_pos ⟨by rw [show t.marker = s.keys.marker from rfl, hmarker]; rfl,
        .outbound (packetIDOf (n + 1)), List.mem_cons_self,
        (AList.mem_insert _).2 (Or.inl rfl)⟩
    refine ⟨es ++ (.call reading :: List.replicate 5 (.advance s.calls.length 0)) ++
      [.advance s.calls.length 0, .liveDelete .v2 ack false], _, rfl, ?_⟩
    rw [run_append, run_append, hrun, hplan, hnext, run_cons,
      step_planned, run_cons, run_nil]
    change (t.liveDelete .v2 ack false).marker.value = _ ∧
      (∀ f, f ∉ (t.liveDelete .v2 ack false).hash.value) ∧
      (t.liveDelete .v2 ack false).counterValue = _
    rw [hack]
    refine ⟨hmarker, fun f => notMem_hdel_insert hempty _ _ f, ?_⟩
    simp [t, Keys.commit, Keys.counterValue]

/-- The counter has reached `2 ^ 53` and a live message has packet ID 32. The script finds ID 33
free, the gateway takes 32 and overwrites the live message. -/
theorem not_callSpec_lostCounter :
    ∃ es, ¬ Along (step sensor) (CallSpec sensor) fresh es := by
  obtain ⟨es, s, hrun, hmarker, hempty, hcounter⟩ := exists_run_counter sensor (2 ^ 53) le_rfl
  let live : Packet := { type := .publish, packetID := 32, qos := 1 }
  let t := s.step sensor (.liveWrite .v2 live 0)
  have hschema : s.keys.marker.value.schema? = some .v2 := by rw [hmarker]; rfl
  have ht : t.keys =
      { s.keys with
        hash := s.keys.hash.write
          (s.keys.hash.value.insert (.outbound 32) (live.toMessage sensor 0)) } :=
    if_pos (by rw [hmarker]; rfl)
  have hfields (f : Field) : f ∈ t.keys.hash.value ↔ f = .outbound 32 := by
    rw [ht]
    simp only [Cell.value_write, AList.mem_insert, hempty f, or_false]
  have hnext : nextOfflinePacketCounter t.keys.hash.value .v2 t.keys.counterValue = 2 ^ 53 := by
    have hvalue : t.keys.counterValue = 2 ^ 53 := by
      rw [ht]
      exact_mod_cast hcounter
    rw [hvalue]
    exact nextOfflinePacketCounter_of_lost (by simp [hfields]) (by simp [hfields])
  have hplan := (run_planned sensor reading 0 rfl (by rw [ht]; exact hschema) rfl
    (by rw [hnext]; decide)).2
  refine ⟨es ++ .liveWrite .v2 live 0 ::
    (.call reading :: List.replicate 5 (.advance t.calls.length 0)) ++
    [.advance t.calls.length 0], fun halong => ?_⟩
  obtain ⟨-, hlast, -⟩ := along_append.1 halong
  rw [run_append, hrun, run_cons, hplan, hnext] at hlast
  simp only [CallSpec, commitAt, List.getElem?_concat_length, Call.next, if_true, Phase.isQueued,
    Bool.not_false, Bool.and_self] at hlast
  obtain ⟨id, hid, hcommit⟩ := hlast
  obtain rfl : 32 = id := by
    have h32 : packetIDOf (2 ^ 53) = 32 := by decide
    rw [h32] at hid
    cases hid
    rfl
  exact hcommit.outbound_free ((hfields _).2 rfl)

/-- An enqueue on fresh keys commits once. -/
theorem queueOfflineInflight_atomic_fresh :
    ∃ es, Along (step sensor) InRange fresh es ∧
      (run (step sensor) fresh es).isQueued 0 = true ∧
      (trace (step sensor) (commitAt sensor) fresh es).countP
        (·.1 = 0) = 1 := by
  have hnext : nextOfflinePacketCounter fresh.keys.hash.value .v2 fresh.keys.counterValue = 1 :=
    nextOfflinePacketCounter_of_empty AList.notMem_empty le_rfl (by decide)
  obtain ⟨hkeys, hplan⟩ :=
    run_planned sensor reading 0 rfl rfl rfl (by rw [hnext]; decide)
  let es : List QueueEvent :=
    .call reading :: List.replicate 5 (.advance 0 0) ++ [.advance 0 0]
  have hrange : Along (step sensor) InRange fresh es := by
    have hin (t : QueueState) (e : QueueEvent) (ht : t.keys = fresh.keys) : t.InRange e := by
      cases e with
      | advance i now =>
        simp only [InRange, ht]
        decide
      | _ => trivial
    exact along_append.2 ⟨hkeys.along hin, hin _ _ hkeys.last, trivial⟩
  have hqueued : (run (step sensor) fresh es).isQueued 0 = true := by
    rw [run_append]
    refine (congrArg (fun t => (step sensor t (.advance 0 0)).isQueued 0) hplan).trans ?_
    exact congrArg (fun t => isQueued t 0) (step_planned sensor fresh [] reading .v2 _ _ 0)
  refine ⟨_, hrange, hqueued, ?_⟩
  have hatomic := queueOfflineInflight_atomic sensor rfl (fun h => by cases h) _ hrange
  rw [hatomic.2.1 0, hqueued]
  rfl

end QueueState

end KeelGateway.Redis

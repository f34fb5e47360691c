import KeelGateway.Redis.OfflineQueue
import KeelGateway.Redis.StoredSession

/-!
# The schema fence

Hooks on any number of nodes write and delete in-flight messages, and each of them works with the
schema that it has cached. A script compares that schema with the marker and does nothing if they
differ; `QueueOfflineInflight` watches the marker in its transaction instead. In auto mode a hook
that was rejected reads the marker and tries again, with the field names of the schema that it has
read. The steps of the machine are single Redis commands, scripts and `EXEC` blocks.

-/

namespace KeelGateway.Redis

open Optimistic StepMachine

/-! ### The keys of all clients -/

/-- The keys of a client other than the shared marker. -/
structure ClientKeys where
  hash : Cell InflightHash
  counter : Cell (Option ℤ)
  dedup : UUID → Cell Bool

/-- The schema marker and the keys of all clients. -/
structure Store where
  marker : Cell Marker
  clients : Text → ClientKeys

namespace Store

/-- The keys that an operation for a client works on. -/
def keys (r : Store) (clientID : Text) : Keys where
  marker := r.marker
  hash := (r.clients clientID).hash
  counter := (r.clients clientID).counter
  dedup := (r.clients clientID).dedup

/-- The keys after an operation for a client. -/
def put (r : Store) (clientID : Text) (k : Keys) : Store where
  marker := k.marker
  clients := Function.update r.clients clientID ⟨k.hash, k.counter, k.dedup⟩

@[simp] theorem put_keys (r : Store) (clientID : Text) : r.put clientID (r.keys clientID) = r := by
  simp [put, keys]

@[simp] theorem keys_put (r : Store) (clientID : Text) (k : Keys) :
    (r.put clientID k).keys clientID = k := by
  simp [put, keys]

theorem keys_put_of_ne (r : Store) {clientID other : Text} (h : other ≠ clientID) (k : Keys) :
    (r.put clientID k).keys other = { r.keys other with marker := k.marker } := by
  simp [put, keys, Function.update_of_ne h]

theorem evolves_put {r : Store} {clientID : Text} {k : Keys} (h : (r.keys clientID).Evolves k)
    (other : Text) : (r.keys other).Evolves ((r.put clientID k).keys other) := by
  by_cases hother : other = clientID
  · subst hother
    rw [keys_put]
    exact h
  · rw [keys_put_of_ne r hother]
    exact ⟨h.marker, .refl _, .refl _, fun _ => .refl _⟩

end Store

/-! ### Operations -/

/-- A hook of some node. -/
structure Hook where
  configured : Option Schema := none
  cached : Schema
  deriving DecidableEq

/-- The operations that run one of the fenced scripts. -/
inductive ScriptRequest where
  | publish (pk : Packet) (sent : ℤ)
  | delete (pk : Packet) (dropped : Bool)
  | enqueue (packetID : ℕ) (msg : OfflineMessage) (now : ℤ)

/-- How far an operation with a script has come. -/
inductive ScriptPhase where
  | refresh (n : ℕ)
  | attempt (n : ℕ) (schema : Schema)
  | done (schema : Schema)
  /-- Returned with an error: the script was accepted, and the packet ID was in use. -/
  | taken (schema : Schema)
  | failed
  | ignored
  deriving DecidableEq

/-- How far `ActivateDirectionalSchema` has come. -/
inductive ActivationPhase where
  | read
  | set
  | done
  | failed
  deriving DecidableEq

/-- An operation of a hook. -/
inductive Task where
  | script (req : ScriptRequest) (phase : ScriptPhase)
  | queue (c : Call)
  | activation (phase : ActivationPhase)

/-- What a hook is asked to do. -/
inductive Request where
  | script (req : ScriptRequest)
  | queue (publishID : UUID) (msg : OfflineMessage)
  | activate

/-- The operation before its first command. Writes and deletions start with the cached schema,
`EnqueueOfflineInflight` reads the marker unless a schema is configured. -/
def Request.task (hook : Hook) : Request → Task
  | .script (.publish pk sent) =>
    .script (.publish pk sent) (if pk.isInboundPuback then .ignored else .attempt 0 hook.cached)
  | .script (.delete pk dropped) =>
    .script (.delete pk dropped)
      (if pk.isInboundPuback && !dropped then .ignored else .attempt 0 hook.cached)
  | .script (.enqueue packetID msg now) =>
    .script (.enqueue packetID msg now)
      (match hook.configured with
        | none => .refresh 0
        | some schema => .attempt 0 schema)
  | .queue publishID msg =>
    .queue { args := { publishID := publishID, msg := msg, configured := hook.configured } }
  | .activate => .activation (if hook.configured.isSome then .failed else .read)

/-- `schemaFencedHSetNXScript`, once the marker has been compared. -/
def Keys.insertNew (k : Keys) (f : Field) (m : Message) : Keys :=
  if f ∈ k.hash.value then k else { k with hash := k.hash.write (k.hash.value.insert f m) }

/-- The script of an operation: the keys afterwards, and how the operation goes on. -/
def ScriptRequest.run (req : ScriptRequest) (clientID : Text) (k : Keys) (schema : Schema) :
    Keys × ScriptPhase :=
  match req with
  | .publish pk sent => (k.liveWrite clientID schema pk sent, .done schema)
  | .delete pk dropped => (k.liveDelete schema pk dropped, .done schema)
  | .enqueue packetID msg now =>
    (k.insertNew (queueField schema packetID) (marshalOfflineInflight clientID packetID msg now),
      if queueField schema packetID ∈ k.hash.value then .taken schema else .done schema)

/-- The keys, the hook and the operation after a command. -/
structure Next where
  keys : Keys
  hook : Hook
  task : Task

/-- The next command of an operation with a script. A rejected attempt ends the operation if a
schema is configured; in auto mode the marker is read, and there are two attempts in all. -/
def ScriptRequest.next (req : ScriptRequest) (clientID : Text) (hook : Hook) (k : Keys) :
    ScriptPhase → Next
  | .refresh n =>
    match k.marker.value.schema? with
    | none => ⟨k, hook, .script req .failed⟩
    | some schema =>
      ⟨k, { hook with cached := schema }, .script req
        (if n < 2 then .attempt n schema else .failed)⟩
  | .attempt n schema =>
    if k.marker.value.fence? = some schema then
      ⟨(req.run clientID k schema).1, hook, .script req (req.run clientID k schema).2⟩
    else if hook.configured.isSome then ⟨k, hook, .script req .failed⟩
    else ⟨k, hook, .script req (.refresh (n + 1))⟩
  | phase => ⟨k, hook, .script req phase⟩

/-- A call that has read the schema has also set it in its hook. -/
def Call.refreshed (c : Call) (hook : Hook) : Hook :=
  match c.phase with
  | .schemaRead _ schema => { hook with cached := schema }
  | _ => hook

/-- The next command of `ActivateDirectionalSchema`. -/
def ActivationPhase.next (phase : ActivationPhase) (hook : Hook) (k : Keys) : Next :=
  match phase with
  | .read => ⟨k, hook, .activation (if k.marker.value = .valid .legacy then .set else .failed)⟩
  | .set => ⟨k.activate, { hook with cached := .v2 }, .activation .done⟩
  | phase => ⟨k, hook, .activation phase⟩

/-- The next command of an operation. -/
def Task.next (t : Task) (clientID : Text) (hook : Hook) (k : Keys) (now : ℤ) : Next :=
  match t with
  | .script req phase => req.next clientID hook k phase
  | .queue c =>
    ⟨(c.next clientID k now).1, (c.next clientID k now).2.refreshed hook,
      .queue (c.next clientID k now).2⟩
  | .activation phase => phase.next hook k

/-- A cancelled context or a failed command ends an operation that has not returned yet. -/
def Task.abandon : Task → Task
  | .script req (.refresh _) => .script req .failed
  | .script req (.attempt _ _) => .script req .failed
  | .script req phase => .script req phase
  | .queue c => .queue c.abandon
  | .activation .read => .activation .failed
  | .activation .set => .activation .failed
  | .activation phase => .activation phase

/-! ### Commits -/

/-- What a command commits to the in-flight hash of its client. -/
inductive Mutation where
  | write (f : Field)
  | delete (fs : List Field)
  deriving DecidableEq

/-- No numeric field is written, and a deletion names a directional field too. -/
def Mutation.Directional : Mutation → Prop
  | .write f => f.isDirectional = true
  | .delete fs => ∃ f ∈ fs, f.isDirectional = true

instance : (m : Mutation) → Decidable m.Directional
  | .write f => inferInstanceAs (Decidable (f.isDirectional = true))
  | .delete fs => inferInstanceAs (Decidable (∃ f ∈ fs, f.isDirectional = true))

/-- The commit of a script that is accepted. -/
def ScriptRequest.mutation (req : ScriptRequest) (k : Keys) (schema : Schema) : Option Mutation :=
  match req with
  | .publish pk _ => some (.write (writeField schema pk))
  | .delete pk dropped => some (.delete (deleteFields schema pk dropped))
  | .enqueue packetID _ _ =>
    if queueField schema packetID ∈ k.hash.value then none
    else some (.write (queueField schema packetID))

/-- The commit of the `EXEC` of a queueing call. -/
def Call.mutation (c : Call) (k : Keys) : Option Mutation :=
  match c.phase with
  | .planned w schema _ next =>
    if k.versions c.args.publishID = w then some (.write (queueField schema (packetIDOf next)))
    else none
  | _ => none

/-- The commit of the next command of an operation. -/
def Task.mutation (t : Task) (k : Keys) : Option Mutation :=
  match t with
  | .script req (.attempt _ schema) =>
    if k.marker.value.fence? = some schema then req.mutation k schema else none
  | .queue c => c.mutation k
  | _ => none

/-- The hash afterwards is what the commit says. -/
def Mutation.Applied (before after : InflightHash) : Option Mutation → Prop
  | none => after = before
  | some (.write f) => ∃ m, after = before.insert f m
  | some (.delete fs) => ∀ f, after.lookup f = if f ∈ fs then none else before.lookup f

theorem isDirectional_queueField (packetID : ℕ) :
    (queueField .v2 packetID).isDirectional = true := rfl

theorem ScriptRequest.directional_mutation {req : ScriptRequest} {k : Keys} {m : Mutation}
    (h : req.mutation k .v2 = some m) : m.Directional := by
  cases req with
  | publish pk sent =>
    cases h
    exact isDirectional_inflightFieldKey pk
  | delete pk dropped =>
    cases h
    refine ⟨_, List.mem_cons_self, ?_⟩
    unfold inflightDroppedFieldKey inflightCompletionFieldKey
    split_ifs <;> rfl
  | enqueue packetID msg now =>
    simp only [ScriptRequest.mutation] at h
    split_ifs at h
    cases h
    exact isDirectional_queueField packetID

theorem ScriptRequest.applied_run (req : ScriptRequest) (clientID : Text) {k : Keys}
    {schema : Schema}
    (h : k.marker.value.fence? = some schema) :
    Mutation.Applied k.hash.value (req.run clientID k schema).1.hash.value (req.mutation k schema) ∧
      (req.run clientID k schema).1.marker = k.marker ∧
        k.Evolves (req.run clientID k schema).1 := by
  have hwrite (hash : InflightHash) : k.Evolves { k with hash := k.hash.write hash } :=
    ⟨.refl _, Cell.evolves_write _ _, .refl _, fun _ => .refl _⟩
  cases req with
  | publish pk sent =>
    refine ⟨⟨pk.toMessage clientID sent, ?_⟩, Keys.marker_liveWrite _ _ _ _, ?_⟩
    · simp [ScriptRequest.run, Keys.liveWrite, h]
    · simp only [ScriptRequest.run, Keys.liveWrite, if_pos h]
      exact hwrite _
  | delete pk dropped =>
    refine ⟨Keys.lookup_liveDelete h pk dropped, Keys.marker_liveDelete _ _ _, ?_⟩
    simp only [ScriptRequest.run, Keys.liveDelete]
    split_ifs
    · exact hwrite _
    · exact .refl _
  | enqueue packetID msg now =>
    simp only [ScriptRequest.run, ScriptRequest.mutation, Keys.insertNew]
    split_ifs
    · exact ⟨rfl, rfl, .refl _⟩
    · exact ⟨⟨_, rfl⟩, rfl, hwrite _⟩

theorem Call.args_next (c : Call) (clientID : Text) (k : Keys) (now : ℤ) :
    (c.next clientID k now).2.args = c.args := by
  unfold Call.next
  cases hphase : c.phase with
  | watching w =>
    cases k.marker.value.schema? with
    | none => rfl
    | some schema =>
      dsimp only
      split_ifs <;> rfl
  | schemaRead w schema =>
    split_ifs <;> rfl
  | counterRead w schema counter =>
    dsimp only
    split_ifs <;> rfl
  | planned w schema counter next =>
    dsimp only
    split_ifs <;> rfl
  | _ => rfl

theorem Call.args_abandon (c : Call) : c.abandon.args = c.args := by
  unfold Call.abandon
  split <;> rfl

theorem Call.next_mutation (c : Call) (clientID : Text) (k : Keys) (now : ℤ) :
    (c.mutation k = none ∧ (c.next clientID k now).1 = k) ∨
    ∃ w schema counter next, c.phase = .planned w schema counter next ∧
      k.versions c.args.publishID = w ∧
      c.mutation k = some (.write (queueField schema (packetIDOf next))) ∧
      (c.next clientID k now).1 = k.commit clientID c.args schema next now := by
  rcases c.next_cases clientID k now with ⟨hkeys, hqueued⟩ |
    ⟨w, schema, counter, next, hphase, hw, heq⟩
  · refine Or.inl ⟨?_, hkeys⟩
    unfold Call.mutation
    cases hphase : c.phase with
    | planned w schema counter next =>
      refine if_neg fun hw => ?_
      simp [Call.next, hphase, hw, Phase.isQueued] at hqueued
    | _ => rfl
  · refine Or.inr ⟨w, schema, counter, next, hphase, hw, ?_, by rw [heq]⟩
    simp only [Call.mutation, hphase, if_pos hw]

theorem Task.next_spec (t : Task) (clientID : Text) (hook : Hook) (k : Keys) (now : ℤ) :
    Mutation.Applied k.hash.value (t.next clientID hook k now).keys.hash.value (t.mutation k) ∧
      ((t.next clientID hook k now).keys.marker = k.marker ∨
        (t.next clientID hook k now).keys.marker = k.marker.write (.valid .v2)) ∧
      k.Evolves (t.next clientID hook k now).keys := by
  have hsame : Mutation.Applied k.hash.value k.hash.value none ∧
      (k.marker = k.marker ∨ k.marker = k.marker.write (.valid .v2)) ∧ k.Evolves k :=
    ⟨rfl, Or.inl rfl, .refl k⟩
  cases t with
  | script req phase =>
    cases phase with
    | refresh n =>
      simp only [Task.next, ScriptRequest.next]
      cases k.marker.value.schema? <;> exact hsame
    | attempt n schema =>
      simp only [Task.next, ScriptRequest.next, Task.mutation]
      split_ifs with hschema
      · obtain ⟨happlied, hmarker, hevolves⟩ := req.applied_run clientID hschema
        exact ⟨happlied, Or.inl hmarker, hevolves⟩
      · exact hsame
      · exact hsame
    | done schema => exact hsame
    | taken schema => exact hsame
    | failed => exact hsame
    | ignored => exact hsame
  | queue c =>
    rcases c.next_mutation clientID k now with
      ⟨hnone, hkeys⟩ | ⟨w, schema, counter, next, -, -, hsome, hkeys⟩
    · simp only [Task.mutation, Task.next, hnone, hkeys]
      exact ⟨rfl, Or.inl trivial, .refl k⟩
    · simp only [Task.mutation, Task.next, hsome, hkeys]
      exact ⟨⟨_, rfl⟩, Or.inl rfl, k.evolves_commit clientID c.args schema next now⟩
  | activation phase =>
    cases phase with
    | read => exact hsame
    | set => exact ⟨rfl, Or.inr rfl, Cell.evolves_write _ _, .refl _, .refl _, fun _ => .refl _⟩
    | done => exact hsame
    | failed => exact hsame

theorem Task.queue_of_next {t : Task} {clientID : Text} {hook : Hook} {k : Keys} {now : ℤ}
    {c : Call}
    (h : (t.next clientID hook k now).task = .queue c) :
    ∃ c₀, t = .queue c₀ ∧ c = (c₀.next clientID k now).2 := by
  cases t with
  | script req phase =>
    cases phase with
    | refresh n =>
      simp only [Task.next, ScriptRequest.next] at h
      cases hschema : k.marker.value.schema? <;> simp [hschema] at h
    | attempt n schema =>
      simp only [Task.next, ScriptRequest.next] at h
      split_ifs at h
    | _ => cases h
  | queue c₀ =>
    cases h
    exact ⟨c₀, rfl, rfl⟩
  | activation phase => cases phase <;> cases h

theorem Task.queue_of_abandon {t : Task} {c : Call} (h : t.abandon = .queue c) :
    ∃ c₀, t = .queue c₀ ∧ c = c₀.abandon := by
  cases t with
  | script req phase => cases phase <;> cases h
  | queue c₀ =>
    cases h
    exact ⟨c₀, rfl, rfl⟩
  | activation phase => cases phase <;> cases h

/-! ### Rejected attempts -/

/-- The next command of an operation is an attempt that its fence rejects. -/
def Task.Rejected (t : Task) (k : Keys) : Prop :=
  match t with
  | .script _ (.attempt _ schema) => k.marker.value.fence? ≠ some schema
  | .queue c =>
    match c.phase with
    | .planned w _ _ _ => k.versions c.args.publishID ≠ w
    | _ => False
  | _ => False

/-- There is another attempt after this one: two for a script, thirty-two for a transaction. -/
def Task.hasAttempt : Task → Bool
  | .script _ (.attempt n _) => n + 1 < 2
  | .queue c => c.attempt + 1 < 32
  | _ => false

/-- The script of the operation was accepted with schema 2, or its transaction has just read
schema 2. -/
def Task.UsesV2 : Task → Prop
  | .script _ (.done .v2) => True
  | .script _ (.taken .v2) => True
  | .queue c => ∃ w, c.phase = .schemaRead w .v2
  | _ => False

/-- The operation has returned an error without a commit. -/
def Task.Failed : Task → Prop
  | .script _ .failed => True
  | .queue c => c.phase = .failed
  | _ => False

/-- An operation in auto mode that works with schema 2 after so many of its commands. -/
inductive Task.Retrying : ℕ → Task → Prop
  | refresh (req : ScriptRequest) {n : ℕ} (hn : n < 2) : Retrying 2 (.script req (.refresh n))
  | attempt (req : ScriptRequest) (n : ℕ) : Retrying 1 (.script req (.attempt n .v2))
  | start {c : Call} (hphase : c.phase = .start) (hauto : c.args.configured = none) :
      Retrying 2 (.queue c)
  | watching {c : Call} {w : Watched} (hphase : c.phase = .watching w)
      (hauto : c.args.configured = none) : Retrying 1 (.queue c)
  | used {t : Task} (h : t.UsesV2) : Retrying 0 t

/-- An operation in auto mode that has returned an error after so many of its commands. -/
inductive Task.Failing : ℕ → Task → Prop
  | refresh (req : ScriptRequest) {n : ℕ} (hn : ¬ n < 2) : Failing 1 (.script req (.refresh n))
  | failed (n : ℕ) {t : Task} (h : t.Failed) : Failing n t

section Rejected

variable {t : Task} {k : Keys} (clientID : Text) (hook : Hook) (now : ℤ)

theorem Task.Rejected.next (h : t.Rejected k) :
    (t.next clientID hook k now).keys = k ∧
      (hook.configured = none → (∀ c, t = .queue c → c.args.configured = none) →
        if t.hasAttempt = true then Task.Retrying 2 (t.next clientID hook k now).task
        else Task.Failing 1 (t.next clientID hook k now).task) := by
  cases t with
  | script req phase =>
    cases phase with
    | attempt n schema =>
      have hrejected : k.marker.value.fence? ≠ some schema := h
      simp only [Task.next, ScriptRequest.next, if_neg hrejected]
      refine ⟨?_, fun hauto _ => ?_⟩
      · split_ifs <;> rfl
      · simp only [hauto, Option.isSome_none, Bool.false_eq_true, if_false, Task.hasAttempt,
          decide_eq_true_eq]
        split_ifs with hn
        · exact .refresh req hn
        · exact .refresh req hn
    | _ => cases h
  | queue c =>
    unfold Task.Rejected at h
    dsimp only at h
    cases hphase : c.phase with
    | planned w schema counter next =>
      have hrejected : k.versions c.args.publishID ≠ w := by
        rw [hphase] at h
        exact h
      simp only [Task.next, Call.next, hphase, if_neg hrejected, Task.hasAttempt, decide_eq_true_eq]
      by_cases hattempt : c.attempt + 1 < 32
      · simp only [if_pos hattempt]
        exact ⟨trivial, fun _ hargs => .start rfl (hargs c rfl)⟩
      · simp only [if_neg hattempt]
        exact ⟨trivial, fun _ _ => .failed 1 rfl⟩
    | _ =>
      rw [hphase] at h
      cases h
  | activation phase => cases h

theorem Task.Retrying.next {r : ℕ} (h : Task.Retrying (r + 1) t)
    (hmarker : k.marker.value = .valid .v2) :
    Task.Retrying r (t.next clientID hook k now).task := by
  have hschema : k.marker.value.schema? = some .v2 := by rw [hmarker]; rfl
  cases h with
  | refresh req hn =>
    simp only [Task.next, ScriptRequest.next, hschema, if_pos hn]
    exact .attempt req _
  | attempt req n =>
    have hfence : k.marker.value.fence? = some .v2 := by rw [hmarker]; rfl
    simp only [Task.next, ScriptRequest.next, hfence]
    refine .used ?_
    cases req with
    | publish pk sent => trivial
    | delete pk dropped => trivial
    | enqueue packetID msg now =>
      simp only [ScriptRequest.run]
      split_ifs <;> trivial
  | start hphase hauto =>
    simp only [Task.next, Call.next, hphase]
    exact .watching rfl hauto
  | watching hphase hauto =>
    simp only [Task.next, Call.next, hphase, hschema, hauto]
    exact .used ⟨_, rfl⟩

theorem Task.Failing.next {r : ℕ} (h : Task.Failing (r + 1) t) :
    Task.Failing r (t.next clientID hook k now).task := by
  cases h with
  | refresh req hn =>
    simp only [Task.next, ScriptRequest.next, if_neg hn]
    cases k.marker.value.schema? <;> exact .failed 0 trivial
  | failed n h =>
    refine .failed r ?_
    cases t with
    | script req phase => cases phase <;> first | exact h | cases h
    | queue c =>
      have hphase : c.phase = .failed := h
      simp only [Task.next, Call.next, hphase]
      exact hphase
    | activation phase => cases h

end Rejected

/-! ### The machine -/

/-- An operation with its hook and its client. -/
structure Op where
  hook : ℕ
  clientID : Text
  task : Task

/-- The keys in Redis, the hooks of the nodes, and the operations in the order of their start. -/
structure FenceState where
  store : Store
  hooks : ℕ → Hook
  ops : List Op := []

/-- Something happens in the cluster. -/
inductive FenceEvent where
  | start (hook : ℕ) (clientID : Text) (req : Request)
  | advance (i : ℕ) (now : ℤ)
  | abandon (i : ℕ)
  | expire (clientID : Text) (publishID : UUID)

/-- The event is a command of this operation. -/
def FenceEvent.advances (i : ℕ) : FenceEvent → Bool
  | .advance j _ => j = i
  | _ => false

namespace FenceState

/-- The next command of an operation in a state. -/
def next (s : FenceState) (op : Op) (now : ℤ) : Next :=
  op.task.next op.clientID (s.hooks op.hook) (s.store.keys op.clientID) now

/-- One command of anybody. -/
def step (s : FenceState) : FenceEvent → FenceState
  | .start hook clientID req =>
    { s with ops := s.ops ++ [⟨hook, clientID, req.task (s.hooks hook)⟩] }
  | .advance i now =>
    match s.ops[i]? with
    | none => s
    | some op =>
      { store := s.store.put op.clientID (s.next op now).keys
        hooks := Function.update s.hooks op.hook (s.next op now).hook
        ops := s.ops.set i { op with task := (s.next op now).task } }
  | .abandon i => { s with ops := s.ops.modify i fun op => { op with task := op.task.abandon } }
  | .expire clientID publishID =>
    { s with store := s.store.put clientID ((s.store.keys clientID).expire publishID) }

/-- What an event commits to the hash of a client. -/
def mutation (s : FenceState) (clientID : Text) : FenceEvent → Option Mutation
  | .advance i _ =>
    match s.ops[i]? with
    | none => none
    | some op =>
      if op.clientID = clientID then op.task.mutation (s.store.keys clientID) else none
  | _ => none

/-- The invariant of the machine: what the queueing calls know, and that they have the configuration
of their hook. -/
def Inv (s : FenceState) : Prop :=
  ∀ op ∈ s.ops, ∀ c, op.task = .queue c →
    c.Inv (s.store.keys op.clientID) ∧ c.args.configured = (s.hooks op.hook).configured

theorem next_configured (s : FenceState) (op : Op) (now : ℤ) :
    (s.next op now).hook.configured = (s.hooks op.hook).configured := by
  unfold next
  cases op.task with
  | script req phase =>
    cases phase with
    | refresh n =>
      simp only [Task.next, ScriptRequest.next]
      cases (s.store.keys op.clientID).marker.value.schema? <;> rfl
    | attempt n schema =>
      simp only [Task.next, ScriptRequest.next]
      split_ifs <;> rfl
    | _ => rfl
  | queue c =>
    simp only [Task.next, Call.refreshed]
    split <;> rfl
  | activation phase => cases phase <;> rfl

/-- No step takes back a write. -/
theorem evolves_step (s : FenceState) (e : FenceEvent) (clientID : Text) :
    (s.store.keys clientID).Evolves ((s.step e).store.keys clientID) := by
  cases e with
  | start hook client req => exact .refl _
  | advance i now =>
    dsimp only [step]
    cases s.ops[i]? with
    | none => exact .refl _
    | some op => exact Store.evolves_put (op.task.next_spec _ _ _ now).2.2 clientID
  | abandon i => exact .refl _
  | expire client publishID => exact Store.evolves_put (Keys.evolves_expire _ publishID) clientID

theorem configured_step (s : FenceState) (e : FenceEvent) (h : ℕ) :
    ((s.step e).hooks h).configured = (s.hooks h).configured := by
  cases e with
  | advance i now =>
    dsimp only [step]
    cases s.ops[i]? with
    | none => rfl
    | some op =>
      dsimp only
      by_cases hh : h = op.hook
      · rw [hh, Function.update_self, next_configured]
      · rw [Function.update_of_ne hh]
  | start hook client req => rfl
  | abandon i => rfl
  | expire client publishID => rfl

variable {s : FenceState}

theorem inv_step (h : s.Inv) (e : FenceEvent) : (s.step e).Inv := by
  -- an operation that was there before keeps what it knew
  have hold (op : Op) (hop : op ∈ s.ops) (c : Call) (hc : op.task = .queue c) :
      c.Inv ((s.step e).store.keys op.clientID) ∧
        c.args.configured = ((s.step e).hooks op.hook).configured := by
    obtain ⟨hinv, hconf⟩ := h op hop c hc
    exact ⟨hinv.evolves (s.evolves_step e op.clientID),
      hconf.trans (s.configured_step e op.hook).symm⟩
  intro op hop c hc
  cases e with
  | start hook clientID req =>
    rcases List.mem_append.1 hop with hop | hop
    · exact hold op hop c hc
    · obtain rfl := List.mem_singleton.1 hop
      cases req with
      | script req => cases req <;> cases hc
      | queue publishID msg =>
        cases hc
        exact ⟨trivial, rfl⟩
      | activate => cases hc
  | advance i now =>
    dsimp only [step] at hop hold ⊢
    cases hi : s.ops[i]? with
    | none =>
      rw [hi] at hop hold
      exact hold op hop c hc
    | some op₀ =>
      rw [hi] at hop hold
      rcases List.mem_or_eq_of_mem_set hop with hop | rfl
      · exact hold op hop c hc
      · obtain ⟨c₀, hc₀, rfl⟩ := Task.queue_of_next hc
        obtain ⟨hinv, hconf⟩ := h op₀ (List.mem_of_getElem? hi) c₀ hc₀
        have hkeys : (s.next op₀ now).keys =
            (c₀.next op₀.clientID (s.store.keys op₀.clientID) now).1 := by
          rw [next, hc₀, Task.next]
        dsimp only
        rw [Store.keys_put, Function.update_self, next_configured, hkeys, Call.args_next]
        exact ⟨Call.inv_next hinv, hconf⟩
  | abandon i =>
    obtain ⟨j, hj⟩ := List.mem_iff_getElem?.1 hop
    simp only [step, List.getElem?_modify] at hj
    obtain ⟨op₀, hop₀, rfl⟩ := Option.map_eq_some_iff.1 hj
    have hmem := List.mem_of_getElem? hop₀
    split_ifs at hc ⊢
    · obtain ⟨c₀, hc₀, rfl⟩ := Task.queue_of_abandon hc
      obtain ⟨hinv, hconf⟩ := h op₀ hmem c₀ hc₀
      exact ⟨Call.inv_abandon hinv, (Call.args_abandon c₀).symm ▸ hconf⟩
    · exact h op₀ hmem c hc
  | expire clientID publishID => exact hold op hop c hc

/-! ### After the switch -/

/-- The marker keeps schema 2. -/
theorem marker_step (h : s.store.marker.value = .valid .v2) (e : FenceEvent) :
    (s.step e).store.marker.value = .valid .v2 := by
  cases e with
  | start hook clientID req => exact h
  | advance i now =>
    dsimp only [step]
    cases s.ops[i]? with
    | none => exact h
    | some op =>
      have hmarker : (s.next op now).keys.marker = s.store.marker ∨
          (s.next op now).keys.marker = s.store.marker.write (.valid .v2) :=
        (op.task.next_spec op.clientID (s.hooks op.hook) (s.store.keys op.clientID) now).2.1
      dsimp only [Store.put]
      rcases hmarker with hmarker | hmarker <;> rw [hmarker]
      · exact h
      · rfl
  | abandon i => exact h
  | expire clientID publishID =>
    simp only [step, Keys.expire]
    split_ifs <;> exact h

theorem schema_of_commit {c : Call} {k : Keys} (hinv : c.Inv k) {w : Watched} {schema : Schema}
    {counter next : ℤ} (hphase : c.phase = .planned w schema counter next)
    (hw : k.versions c.args.publishID = w) : k.marker.value.schema? = some schema := by
  simp only [Call.Inv, hphase] at hinv
  subst hw
  exact hinv.2.marker.commit rfl

theorem directional_of_mutation (hinv : s.Inv) (h : s.store.marker.value = .valid .v2)
    {e : FenceEvent} {clientID : Text} {m : Mutation} (hmut : s.mutation clientID e = some m) :
    m.Directional := by
  cases e with
  | advance i now =>
    dsimp only [mutation] at hmut
    cases hi : s.ops[i]? with
    | none => simp [hi] at hmut
    | some op =>
      rw [hi] at hmut
      dsimp only at hmut
      split_ifs at hmut with hclient
      subst hclient
      have hschema : (s.store.keys op.clientID).marker.value.schema? = some .v2 :=
        congrArg Marker.schema? h
      cases htask : op.task with
      | script req phase =>
        rw [htask] at hmut
        cases phase with
        | attempt n schema =>
          simp only [Task.mutation] at hmut
          split_ifs at hmut with hfence
          obtain rfl : schema = .v2 :=
            Option.some.inj ((Marker.schema?_of_fence? hfence).symm.trans hschema)
          exact ScriptRequest.directional_mutation hmut
        | _ => cases hmut
      | queue c =>
        have hc := (hinv op (List.mem_of_getElem? hi) c htask).1
        rw [htask] at hmut
        rcases c.next_mutation op.clientID (s.store.keys op.clientID) now with
          ⟨hnone, -⟩ | ⟨w, schema, counter, next, hphase, hw, hsome, -⟩
        · simp only [Task.mutation, hnone] at hmut
          cases hmut
        · obtain rfl : schema = .v2 :=
            Option.some.inj ((schema_of_commit hc hphase hw).symm.trans hschema)
          simp only [Task.mutation, hsome, Option.some.injEq] at hmut
          subst hmut
          exact isDirectional_queueField _
      | activation phase =>
        rw [htask] at hmut
        cases hmut
  | _ => cases hmut

theorem applied_step (s : FenceState) (e : FenceEvent) (clientID : Text) :
    Mutation.Applied (s.store.keys clientID).hash.value ((s.step e).store.keys clientID).hash.value
      (s.mutation clientID e) := by
  cases e with
  | start hook client req => rfl
  | advance i now =>
    dsimp only [step, mutation]
    cases s.ops[i]? with
    | none => rfl
    | some op =>
      dsimp only
      split_ifs with hclient
      · subst hclient
        rw [Store.keys_put]
        exact (op.task.next_spec op.clientID _ (s.store.keys op.clientID) now).1
      · rw [Store.keys_put_of_ne _ (Ne.symm hclient)]
        rfl
  | abandon i => rfl
  | expire client publishID =>
    dsimp only [step]
    by_cases hclient : clientID = client
    · subst hclient
      rw [Store.keys_put]
      unfold Keys.expire
      split_ifs <;> rfl
    · rw [Store.keys_put_of_ne _ hclient]
      rfl

theorem getElem?_step {i : ℕ} {op : Op} (h : s.ops[i]? = some op) {e : FenceEvent}
    (hadvance : e.advances i = false) (habandon : e ≠ .abandon i) :
    (s.step e).ops[i]? = some op := by
  cases e with
  | start hook client req =>
    exact (List.getElem?_append_left (List.getElem?_eq_some_iff.1 h).1).trans h
  | advance j now =>
    have hj : j ≠ i := by simpa [FenceEvent.advances] using hadvance
    dsimp only [step]
    cases s.ops[j]? with
    | none => exact h
    | some op' => exact (List.getElem?_set_ne hj).trans h
  | abandon j =>
    have hj : j ≠ i := fun hj => habandon (hj ▸ rfl)
    exact (List.getElem?_modify_ne _ _ hj).trans h
  | expire client publishID => exact h

theorem reached_of_next {P : ℕ → Task → Prop}
    (hnext : ∀ r t clientID hook (k : Keys) now, k.marker.value = .valid .v2 → P (r + 1) t →
      P r (Task.next t clientID hook k now).task)
    (hmarker : s.store.marker.value = .valid .v2) {i r : ℕ} {op : Op} (hop : s.ops[i]? = some op)
    (hP : P r op.task) {es : List FenceEvent} (habandon : .abandon i ∉ es)
    (hcount : es.countP (·.advances i) = r) :
    ∃ op', (run step s es).ops[i]? = some op' ∧ P 0 op'.task := by
  induction es generalizing s r op with
  | nil =>
    obtain rfl : 0 = r := hcount
    exact ⟨op, hop, hP⟩
  | cons e es ih =>
    obtain ⟨hne, hrest⟩ := not_or.1 (List.mem_cons.not.1 habandon)
    by_cases hadvance : e.advances i = true
    · rw [List.countP_cons_of_pos hadvance] at hcount
      subst hcount
      cases e with
      | advance j now =>
        obtain rfl : j = i := by simpa [FenceEvent.advances] using hadvance
        have hstep : (s.step (.advance j now)).ops[j]? =
            some { op with task := (s.next op now).task } := by
          simp only [step, hop]
          exact List.getElem?_set_self (List.getElem?_eq_some_iff.1 hop).1
        exact ih (marker_step hmarker _) hstep (hnext _ _ _ _ _ now hmarker hP) hrest rfl
      | _ => cases hadvance
    · rw [List.countP_cons_of_neg hadvance] at hcount
      exact ih (marker_step hmarker e)
        (getElem?_step hop (Bool.eq_false_iff.2 hadvance) (Ne.symm hne)) hP hrest hcount

/-- What a step may do after the switch. -/
structure Fenced (s : FenceState) (e : FenceEvent) : Prop where
  /-- Commits use directional fields. -/
  directional : ∀ clientID m, s.mutation clientID e = some m → m.Directional
  /-- Nothing but the commits happens to the hashes. -/
  applied : ∀ clientID, Mutation.Applied (s.store.keys clientID).hash.value
    ((s.step e).store.keys clientID).hash.value (s.mutation clientID e)
  /-- A rejected attempt changes nothing. -/
  rejected : ∀ i now op, e = .advance i now → s.ops[i]? = some op →
    op.task.Rejected (s.store.keys op.clientID) → (s.step e).store = s.store
  /-- In auto mode a rejected operation with an attempt left works with schema 2 after two more
  commands, whatever happens in between. -/
  retried : ∀ i now op, e = .advance i now → s.ops[i]? = some op →
    op.task.Rejected (s.store.keys op.clientID) → (s.hooks op.hook).configured = none →
    op.task.hasAttempt = true → ∀ es, .abandon i ∉ es → es.countP (·.advances i) = 2 →
      ∃ op', (run step (s.step e) es).ops[i]? = some op' ∧ op'.task.UsesV2
  /-- Without an attempt left it returns an error after at most one more command. -/
  failed : ∀ i now op, e = .advance i now → s.ops[i]? = some op →
    op.task.Rejected (s.store.keys op.clientID) → (s.hooks op.hook).configured = none →
    op.task.hasAttempt = false → ∀ es, .abandon i ∉ es → es.countP (·.advances i) = 1 →
      ∃ op', (run step (s.step e) es).ops[i]? = some op' ∧ op'.task.Failed

theorem fenced_step (hinv : s.Inv) (hmarker : s.store.marker.value = .valid .v2) (e : FenceEvent) :
    s.Fenced e := by
  have hop {i now op} (he : e = .advance i now) (hi : s.ops[i]? = some op) :
      (s.step e).ops[i]? = some { op with task := (s.next op now).task } := by
    simp only [he, step, hi]
    exact List.getElem?_set_self (List.getElem?_eq_some_iff.1 hi).1
  have hargs {i op} (hi : s.ops[i]? = some op) (hauto : (s.hooks op.hook).configured = none)
      (c : Call)
      (hc : op.task = .queue c) : c.args.configured = none :=
    (hinv op (List.mem_of_getElem? hi) c hc).2.trans hauto
  constructor
  · intro clientID m hm
    exact directional_of_mutation hinv hmarker hm
  · exact s.applied_step e
  · intro i now op he hi hrejected
    simp only [he, step, hi]
    rw [next, (hrejected.next op.clientID _ now).1, Store.put_keys]
  · intro i now op he hi hrejected hauto hattempt es habandon hcount
    have hretry := (hrejected.next op.clientID _ now).2 hauto (hargs hi hauto)
    rw [if_pos hattempt] at hretry
    obtain ⟨op', hop', hused⟩ := reached_of_next
      (fun r t clientID hook k now hk h => h.next clientID hook now hk) (marker_step hmarker e)
      (hop he hi) hretry habandon hcount
    cases hused with
    | used hused => exact ⟨op', hop', hused⟩
  · intro i now op he hi hrejected hauto hattempt es habandon hcount
    have hfail := (hrejected.next op.clientID _ now).2 hauto (hargs hi hauto)
    rw [if_neg (by simp [hattempt])] at hfail
    obtain ⟨op', hop', hfailed⟩ := reached_of_next
      (fun r t clientID hook k now _ h => h.next clientID hook now) (marker_step hmarker e)
      (hop he hi) hfail habandon hcount
    cases hfailed with
    | failed n hfailed => exact ⟨op', hop', hfailed⟩

/-- Once the marker holds schema 2, it keeps it, and every step is fenced. -/
theorem fenced_run {s : FenceState} (hops : s.ops = []) (es : List FenceEvent)
    (hmarker : (run step s es).store.marker.value = .valid .v2) (fs : List FenceEvent) :
    (run step s (es ++ fs)).store.marker.value = .valid .v2 ∧
      Along step Fenced (run step s es) fs := by
  have hfresh : s.Inv := by
    intro op hop
    rw [hops] at hop
    cases hop
  have hinv := run_of_step (I := Inv) (fun _ e h => inv_step h e) hfresh es
  constructor
  · rw [run_append]
    exact run_of_step (I := fun s : FenceState => s.store.marker.value = .valid .v2)
      (fun _ e h => marker_step h e) hmarker fs
  · exact along_of_step
      (I := fun s : FenceState => s.Inv ∧ s.store.marker.value = .valid .v2)
      (fun s e h => ⟨inv_step h.1 e, marker_step h.2 e⟩) (fun s e h => fenced_step h.1 h.2 e)
      ⟨hinv, hmarker⟩ fs

/-- No messages, schema 1, and hooks in auto mode that all have cached the same schema. -/
def beforeSwitch (cached : Schema) : FenceState where
  store := ⟨⟨.valid .legacy, 0⟩, fun _ => ⟨⟨∅, 0⟩, ⟨none, 0⟩, fun _ => ⟨false, 0⟩⟩⟩
  hooks := fun _ => ⟨none, cached⟩

/-- A delivery. -/
def delivery : Packet := { type := .publish, packetID := 1, qos := 1 }

/-- A hook is asked to store the delivery and runs two commands; then another one switches to
schema 2. -/
def lateSwitch : List FenceEvent :=
  [.start 0 ['c'] (.script (.publish delivery 0)), .start 1 ['c'] .activate, .advance 0 0,
    .advance 0 0, .advance 1 0, .advance 1 0]

/-- A hook that is ahead of the marker uses up its first attempt before the switch. The switch then
comes between its reading of the marker and its second attempt, which is rejected, and it returns an
error. -/
theorem not_retried_ahead :
    (run step (beforeSwitch .v2) lateSwitch).store.marker.value = .valid .v2 ∧
    (∃ op, (run step (beforeSwitch .v2) lateSwitch).ops[0]? = some op ∧
      op.task.Rejected ((run step (beforeSwitch .v2) lateSwitch).store.keys op.clientID)) ∧
    ∃ op, (run step (beforeSwitch .v2)
        (lateSwitch ++ [.advance 0 0, .advance 0 0])).ops[0]? = some op ∧ op.task.Failed :=
  ⟨rfl, ⟨_, rfl, show some Schema.v2 ≠ some Schema.legacy by decide⟩, ⟨_, rfl, trivial⟩⟩

/-- The same, but the switch comes before the first command of the hook. -/
def earlySwitch : List FenceEvent :=
  [.start 0 ['c'] (.script (.publish delivery 0)), .start 1 ['c'] .activate, .advance 1 0,
    .advance 1 0]

/-- A hook that still believes in schema 1 is rejected after the switch, and its delivery is stored
with its second attempt. -/
theorem fenced_run_behind :
    ∃ op, (run step (beforeSwitch .legacy)
        (earlySwitch ++ [.advance 0 0, .advance 0 0, .advance 0 0])).ops[0]? = some op ∧
      op.task.UsesV2 :=
  (fenced_run (s := beforeSwitch .legacy) rfl earlySwitch rfl [.advance 0 0]).2.1.retried 0 0
    ⟨0, ['c'], .script (.publish delivery 0) (.attempt 0 .legacy)⟩ rfl rfl
    (show some Schema.v2 ≠ some Schema.legacy by decide) rfl rfl [.advance 0 0, .advance 0 0]
    (by simp) rfl

end FenceState

end KeelGateway.Redis

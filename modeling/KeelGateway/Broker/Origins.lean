import KeelGateway.Broker.ClusterDelivery
import KeelGateway.Broker.CommandDelivery

/-!
# Where a message comes from

The fan-out to the cluster happens in `OnPublish`, for clients that the hook has authenticated. The
server has other ways to publish. A Will message, at once or after its delay, goes to
`publishToSubscribers` without the hook. A command of the platform is published by the inline
client, so the hook runs and finds no client. Both reach the subscribers of their own node only,
and of the shared groups those that have a member there.

-/

namespace KeelGateway.Broker

open Redis Mochi Routing TaskPool

/-! ### Messages that do not come from a client -/

/-- The Will of a connection. -/
structure Will where
  flag : Bool
  pk : PublishPacket
  delay : ℕ

/-- The Will messages that wait, with the time after which they are sent, by client ID. -/
abbrev DelayedWills : Type := GoMap Text (PublishPacket × ℤ)

/-- `sendLWT`: what goes to `publishToSubscribers`, and the Will messages that wait. -/
def sendLWT (clientID : Text) (will : Will) (now : ℤ) (delayed : DelayedWills) :
    List PublishPacket × DelayedWills :=
  if will.flag = false then ([], delayed)
  else if 0 < will.delay then ([], delayed.insert clientID (will.pk, now + will.delay))
  else ([will.pk], delayed)

/-- `sendDelayedLWT`. -/
def sendDelayedLWT (dt : ℤ) (delayed : DelayedWills) : List PublishPacket × DelayedWills :=
  (delayed.entries.filterMap fun row => if row.2.2 < dt then some row.2.1 else none,
    delayed.filterMap fun _ waiting => if waiting.2 < dt then none else some waiting)

/-- The envelope of a command in the format of custom device agents, by type and payload. -/
abbrev MarshalEnvelope : Type := Text → List UInt8 → Option (List UInt8)

/-- `Commander.handle`: topic, payload and QoS of the call of `Publish`. -/
def Commander.handle (marshal : MarshalEnvelope) (cmd : Command) (payload : List UInt8)
    (reqID : UUID) : Option (Text × List UInt8 × ℕ) := do
  let topic ← commandTopic cmd reqID
  let payload ← if cmd.tenantID ≠ [] then some payload else marshal cmd.type payload
  return (topic, payload, 1)

/-- How a node came to accept a message. -/
inductive Origin (marshal : MarshalEnvelope) (pk : PublishPacket) : Type where
  | publish (clientID : Text)
  | will (clientID : Text) (will : Will) (now : ℤ) (delayed : DelayedWills)
      (sent : pk ∈ (sendLWT clientID will now delayed).1)
  | delayedWill (dt : ℤ) (delayed : DelayedWills) (sent : pk ∈ (sendDelayedLWT dt delayed).1)
  | command (cmd : Command) (payload : List UInt8) (reqID : UUID)
      (handled : Commander.handle marshal cmd payload reqID =
        some (pk.topic.text, pk.payload, pk.qos))

/-! ### Everybody a message is offered to -/

/-- Somebody a message is offered to. -/
inductive Recipient where
  | client (nodeID clientID : Text)
  | group (nodeID filter : Text)
  | session (clientID : Text) (msg : OfflineMessage)
  deriving DecidableEq

namespace Net

variable (net : Net)

/-- What `OnSelectSubscribers` leaves of the subscribers on a node. -/
def selected (nodeID topic : Text) (sharedFilters : Option (List Text)) : Subscribers :=
  onSelectSubscribers (net.connected nodeID) sharedFilters ((net.indexes nodeID).subscribers topic)

/-- Everybody that `publishToSubscribers` serves on a node. -/
def offers (nodeID topic : Text) (sharedFilters : Option (List Text)) : List Recipient :=
  (net.selected nodeID topic sharedFilters).subscriptions.keys.map (.client nodeID) ++
    (net.selected nodeID topic sharedFilters).shared.keys.map (.group nodeID)

/-- The offline sessions that `DeliverOffline` queues for on a node. -/
def sessions (redis : Cluster) (nodeID : Text) (pk : PublishPacket) : List Recipient :=
  (redis.offlineCalls (net.caches nodeID).toRouteTables nodeID (pk.publish UUID.nil)).map
    fun call => .session call.1 call.2

/-- `publishToSubscribers`. -/
def publishToSubscribers (redis : Cluster) (nodeID : Text) (pk : PublishPacket)
    (sharedFilters : Option (List Text)) : Pool Cluster Task Recipient where
  state := redis
  log := net.offers nodeID pk.topic.text sharedFilters

/-- `InjectPacket` of a PUBLISH: the hook, and then the subscribers of the node. -/
def injectPacket (redis : Cluster) (nodeID clientID : Text) (pk : PublishPacket)
    (sharedFilters : Option (List Text)) (input : Input) : Pool Cluster Task Recipient :=
  match net.onPublish redis nodeID clientID pk sharedFilters input with
  | none => { state := redis }
  | some (sharedFilters, tasks) =>
    { net.publishToSubscribers redis nodeID pk sharedFilters with tasks := tasks }

/-- A task is done. -/
def execDelivery (cfg : ClusterConfig) (redis : Cluster) (t : Task) (input : Input) :
    Pool Cluster Task Recipient :=
  match t with
  | .inbound nodeID pk publishID sharedFilters =>
    let p := net.injectPacket redis nodeID inlineClientID pk sharedFilters input
    { p with tasks := p.tasks ++ net.offlineTasks redis nodeID pk publishID }
  | .queue pk publishID call =>
    { state := redis.step cfg (queueEvent (pk.publish publishID) input.now call)
      log := [.session call.1 call.2] }

/-- A message after the node that accepts it has processed it. -/
def accept {marshal : MarshalEnvelope} {pk : PublishPacket} (redis : Cluster) (nodeID : Text)
    (origin : Origin marshal pk) (input : Input) : Pool Cluster Task Recipient :=
  match origin with
  | .publish clientID => net.injectPacket redis nodeID clientID pk none input
  | .will .. => net.publishToSubscribers redis nodeID pk none
  | .delayedWill .. => net.publishToSubscribers redis nodeID pk none
  | .command .. => net.injectPacket redis nodeID inlineClientID pk none input

/-- A message after some of its tasks. -/
def runAccepted {marshal : MarshalEnvelope} {pk : PublishPacket} (cfg : ClusterConfig)
    (redis : Cluster) (nodeID : Text) (origin : Origin marshal pk) (input : Input)
    (es : List (ℕ × Input)) : Pool Cluster Task Recipient :=
  StepMachine.run (step (net.execDelivery cfg)) (net.accept redis nodeID origin input) es

/-- The hook fans the message out. -/
def FansOut {marshal : MarshalEnvelope} {pk : PublishPacket} (nodeID : Text)
    (origin : Origin marshal pk) (input : Input) : Prop :=
  match origin with
  | .publish clientID => net.Admits nodeID clientID input
  | .will .. => False
  | .delayedWill .. => False
  | .command .. => net.Admits nodeID inlineClientID input

/-- The hook lets the message through. -/
def Accepts {marshal : MarshalEnvelope} {pk : PublishPacket} (nodeID : Text)
    (origin : Origin marshal pk) (input : Input) : Prop :=
  match origin with
  | .publish clientID => net.Admits nodeID clientID input
  | .will .. => True
  | .delayedWill .. => True
  | .command .. =>
    net.Admits nodeID inlineClientID input ∨ (net.hooks nodeID).clients.lookup inlineClientID = none

/-- The shared filters that the plan of a publish on the node `self` leaves to a node. -/
def planned (self topic nodeID : Text) : List Text :=
  sharedFiltersForNode ((net.caches self).fanOutPlan self topic).2 nodeID

/-- Everybody that a node serves for a publish of a client on the node `self`. -/
def share (redis : Cluster) (self : Text) (pk : PublishPacket) (nodeID : Text) : List Recipient :=
  net.offers nodeID pk.topic.text (some (net.planned self pk.topic.text nodeID)) ++
    net.sessions redis nodeID pk

/-- A publish of a client on the node `self` would stay on the node: the other nodes of the plan
have nobody to serve, no offline session of the node gets it, and the plan leaves the node all
shared groups that have a member on it. -/
structure Contained (redis : Cluster) (nodeID : Text) (pk : PublishPacket) : Prop where
  elsewhere : ∀ target ∈ (net.caches nodeID).forwardTargets nodeID pk.topic.text,
    net.share redis nodeID pk target = []
  sessions : net.sessions redis nodeID pk = []
  groups : ∀ filter ∈ (net.selected nodeID pk.topic.text none).shared,
    filter ∈ net.planned nodeID pk.topic.text nodeID

/-! ### Offers on a node -/

variable {net} {redis : Cluster} {nodeID topic : Text} {pk : PublishPacket}
  {sharedFilters : Option (List Text)}

theorem client_mem_offers {n clientID : Text} :
    Recipient.client n clientID ∈ net.offers nodeID topic sharedFilters ↔
      n = nodeID ∧ clientID ∈ (net.selected nodeID topic sharedFilters).subscriptions := by
  simp [offers, AList.mem_keys, eq_comm, and_comm]

theorem group_mem_offers {n filter : Text} :
    Recipient.group n filter ∈ net.offers nodeID topic sharedFilters ↔
      n = nodeID ∧ filter ∈ (net.selected nodeID topic sharedFilters).shared := by
  simp [offers, AList.mem_keys, eq_comm, and_comm]

theorem session_notMem_offers {clientID : Text} {msg : OfflineMessage} :
    Recipient.session clientID msg ∉ net.offers nodeID topic sharedFilters := by
  simp [offers]

theorem nodup_offers : (net.offers nodeID topic sharedFilters).Nodup := by
  refine List.Nodup.append ?_ ?_ ?_
  · exact (AList.keys_nodup _).map fun _ _ h => by cases h; rfl
  · exact (AList.keys_nodup _).map fun _ _ h => by cases h; rfl
  · simp [List.Disjoint]

theorem mem_shared_selected {filters : List Text} {filter : Text} :
    filter ∈ (net.selected nodeID topic (some filters)).shared ↔
      filter ∈ (net.selected nodeID topic none).shared ∧ filter ∈ filters := by
  simp only [selected, onSelectSubscribers, GoMap.mem_iff_exists_lookup, GoMap.lookup_filterMap,
    Option.any_some, Option.any_none, decide_eq_true_eq, Bool.false_eq_true,
    Option.bind_eq_some_iff]
  constructor
  · rintro ⟨rest, members, hmembers, hrest⟩
    split_ifs at hrest with hfilter hempty
    exact ⟨⟨rest, members, hmembers, by rw [if_neg hempty]; exact hrest⟩, hfilter⟩
  · rintro ⟨⟨rest, members, hmembers, hrest⟩, hfilter⟩
    exact ⟨rest, members, hmembers, by rw [if_neg (not_not.2 hfilter)]; exact hrest⟩

theorem perm_offers_iff {filters : List Text} :
    (net.offers nodeID topic none).Perm (net.offers nodeID topic (some filters)) ↔
      ∀ filter ∈ (net.selected nodeID topic none).shared, filter ∈ filters := by
  constructor
  · intro hperm filter hfilter
    have hmem := hperm.mem_iff.1 (group_mem_offers.2 ⟨rfl, hfilter⟩)
    exact (mem_shared_selected.1 (group_mem_offers.1 hmem).2).2
  · intro h
    refine (List.perm_ext_iff_of_nodup nodup_offers nodup_offers).2 fun d => ?_
    cases d with
    | client n clientID => rw [client_mem_offers, client_mem_offers]; rfl
    | group n filter =>
      rw [group_mem_offers, group_mem_offers, mem_shared_selected]
      exact and_congr_right fun _ => ⟨fun hf => ⟨hf, h filter hf⟩, And.left⟩
    | session clientID msg => exact iff_of_false session_notMem_offers session_notMem_offers

/-! ### What a publish of a client reaches -/

/-- Everybody that a publish of a client on the node `self` is offered to. -/
def everybody (net : Net) (redis : Cluster) (self : Text) (pk : PublishPacket) : List Recipient :=
  net.share redis self pk self ++
    ((net.caches self).forwardTargets self pk.topic.text).flatMap (net.share redis self pk)

theorem notMem_offers_of_mem_share {self target : Text} {d : Recipient} (hne : target ≠ self)
    (hd : d ∈ net.share redis self pk target) : d ∉ net.offers self topic sharedFilters := by
  rcases List.mem_append.1 hd with hd | hd
  · cases d with
    | client n clientID =>
      exact fun h => hne ((client_mem_offers.1 hd).1.symm.trans (client_mem_offers.1 h).1)
    | group n filter =>
      exact fun h => hne ((group_mem_offers.1 hd).1.symm.trans (group_mem_offers.1 h).1)
    | session clientID msg => exact session_notMem_offers
  · obtain ⟨call, -, rfl⟩ := List.mem_map.1 hd
    exact session_notMem_offers

theorem perm_everybody_iff :
    (net.offers nodeID pk.topic.text none).Perm (net.everybody redis nodeID pk) ↔
      net.Contained redis nodeID pk := by
  constructor
  · intro hperm
    have hmem : ∀ d ∈ net.everybody redis nodeID pk, d ∈ net.offers nodeID pk.topic.text none :=
      fun d hd => hperm.mem_iff.2 hd
    have helsewhere : ∀ target ∈ (net.caches nodeID).forwardTargets nodeID pk.topic.text,
        net.share redis nodeID pk target = [] := by
      refine fun target htarget => List.eq_nil_iff_forall_not_mem.2 fun d hd => ?_
      refine notMem_offers_of_mem_share (RouteTables.mem_forwardTargets.1 htarget).1 hd (hmem d ?_)
      exact List.mem_append_right _ (List.mem_flatMap.2 ⟨target, htarget, hd⟩)
    have hsessions : net.sessions redis nodeID pk = [] := by
      refine List.eq_nil_iff_forall_not_mem.2 fun d hd => ?_
      have hoffer := hmem d (List.mem_append_left _ (List.mem_append_right _ hd))
      obtain ⟨call, -, rfl⟩ := List.mem_map.1 hd
      exact session_notMem_offers hoffer
    refine ⟨helsewhere, hsessions, perm_offers_iff.1 ?_⟩
    rwa [everybody, List.flatMap_eq_nil_iff.2 helsewhere, share, hsessions, List.append_nil,
      List.append_nil] at hperm
  · rintro ⟨helsewhere, hsessions, hgroups⟩
    rw [everybody, List.flatMap_eq_nil_iff.2 helsewhere, share, hsessions, List.append_nil,
      List.append_nil]
    exact perm_offers_iff.2 hgroups

/-! ### The tasks of a message -/

section Tasks

variable {self clientID : Text} {input : Input} {publishID : UUID} (cfg : ClusterConfig)

theorem injectPacket_of_admits (h : net.Admits self clientID input) :
    net.injectPacket redis self clientID pk sharedFilters input =
      { state := redis
        tasks := (net.forwardToClusterSubscribers redis self pk input.publishID).2
        log := net.offers self pk.topic.text (some (net.planned self pk.topic.text self)) } := by
  rw [injectPacket, onPublish_of_admits h]
  rfl

theorem injectPacket_of_lookup_eq_none (h : (net.hooks self).clients.lookup clientID = none) :
    net.injectPacket redis self clientID pk sharedFilters input =
      net.publishToSubscribers redis self pk sharedFilters := by
  rw [injectPacket, onPublish_of_lookup_eq_none h]
  rfl

theorem execDelivery_inbound (hinline : net.NoInline self) (s : Cluster) (hne : nodeID ≠ self) :
    net.execDelivery cfg s (.inbound nodeID pk publishID sharedFilters) input =
      { state := s
        tasks := net.offlineTasks s nodeID pk publishID
        log := net.offers nodeID pk.topic.text sharedFilters } := by
  simp only [execDelivery, injectPacket_of_lookup_eq_none (hinline nodeID hne)]
  rfl

theorem execDelivery_eq_exec (hinline : net.NoInline self) (s : Cluster) {t : Task}
    (ht : Follows self pk publishID t) (e : Input) :
    (net.execDelivery cfg s t e).state = (net.exec cfg s t e).state ∧
      (net.execDelivery cfg s t e).tasks = (net.exec cfg s t e).tasks := by
  cases t with
  | inbound nodeID pk' publishID' sharedFilters =>
    rw [execDelivery_inbound cfg hinline s ht.1, exec_inbound cfg hinline s ht.1]
    exact ⟨rfl, rfl⟩
  | queue pk' publishID' call => exact ⟨rfl, rfl⟩

theorem closed_execDelivery (redis : Cluster) (pk : PublishPacket) (publishID : UUID)
    (hinline : net.NoInline self) :
    Closed (net.execDelivery cfg) (fun s => s.sub = redis.sub) (Follows self pk publishID) := by
  intro s t e hs ht
  obtain ⟨hstate, htasks⟩ := execDelivery_eq_exec cfg hinline s ht e
  rw [hstate, htasks]
  exact closed_exec cfg redis pk publishID hinline s t e hs ht

/-- Everybody that a task will have led to. -/
def yieldDelivery (net : Net) (redis : Cluster) : Task → List Recipient
  | .inbound nodeID pk _ sharedFilters =>
    net.offers nodeID pk.topic.text sharedFilters ++ net.sessions redis nodeID pk
  | .queue _ _ call => [.session call.1 call.2]

theorem flatMap_yieldDelivery_offlineTasks {s : Cluster} (hs : s.sub = redis.sub) :
    (net.offlineTasks s nodeID pk publishID).flatMap (net.yieldDelivery redis) =
      net.sessions redis nodeID pk := by
  rw [offlineTasks, List.flatMap_map, offlineCalls_congr hs]
  exact List.map_eq_flatMap.symm

theorem perm_deliveries (hinline : net.NoInline self) {p : Pool Cluster Task Recipient}
    (hp : p.Within (fun s => s.sub = redis.sub) (Follows self pk publishID))
    {es : List (ℕ × Input)}
    (hdone : (StepMachine.run (step (net.execDelivery cfg)) p es).tasks = []) :
    (StepMachine.run (step (net.execDelivery cfg)) p es).log.Perm
      (p.log ++ p.tasks.flatMap (net.yieldDelivery redis)) := by
  have hperm := (closed_execDelivery cfg redis pk publishID hinline).perm_log
    (net.yieldDelivery redis) (fun d => [d]) (fun s t e hs ht => ?_) hp hdone
  · simpa only [List.flatMap_singleton'] using hperm
  · cases t with
    | inbound nodeID pk' publishID' sharedFilters =>
      obtain ⟨hne, rfl, rfl⟩ := ht
      rw [execDelivery_inbound cfg hinline s hne, List.flatMap_singleton',
        flatMap_yieldDelivery_offlineTasks hs]
      exact List.Perm.refl _
    | queue pk' publishID' call => exact List.Perm.refl _

end Tasks

/-! ### The origins compared -/

section Origins

variable {marshal : MarshalEnvelope} {origin : Origin marshal pk} {self : Text} {input : Input}

theorem accept_of_fansOut (h : net.FansOut self origin input) :
    net.accept redis self origin input =
      { state := redis
        tasks := (net.forwardToClusterSubscribers redis self pk input.publishID).2
        log := net.offers self pk.topic.text (some (net.planned self pk.topic.text self)) } := by
  cases origin with
  | publish clientID => exact injectPacket_of_admits h
  | will | delayedWill => exact absurd h id
  | command => exact injectPacket_of_admits h

theorem accept_of_not_fansOut (haccepts : net.Accepts self origin input)
    (h : ¬ net.FansOut self origin input) :
    net.accept redis self origin input = net.publishToSubscribers redis self pk none := by
  cases origin with
  | publish clientID => exact absurd haccepts h
  | will | delayedWill => rfl
  | command => exact injectPacket_of_lookup_eq_none (haccepts.resolve_left h)

theorem within_accept (haccepts : net.Accepts self origin input) :
    (net.accept redis self origin input).Within (fun s => s.sub = redis.sub)
      (Follows self pk input.publishID) := by
  by_cases h : net.FansOut self origin input
  · rw [accept_of_fansOut h]
    exact ⟨rfl, fun t ht => follows_forwardToClusterSubscribers ht⟩
  · rw [accept_of_not_fansOut haccepts h]
    exact ⟨rfl, fun t ht => absurd ht List.not_mem_nil⟩

variable (cfg : ClusterConfig)

theorem exists_runAccepted_done (hinline : net.NoInline self)
    (haccepts : net.Accepts self origin input) :
    ∃ es, (net.runAccepted cfg redis self origin input es).tasks = [] := by
  refine (closed_execDelivery cfg redis pk input.publishID hinline).exists_done (net.rank redis)
    (fun s t e hs ht => ?_) (within_accept haccepts)
  rw [(execDelivery_eq_exec cfg hinline s ht e).2]
  exact sum_rank_exec cfg hinline e hs ht

section Done

variable (hinline : net.NoInline self) (haccepts : net.Accepts self origin input)
  {es : List (ℕ × Input)}
  (hdone : (net.runAccepted cfg redis self origin input es).tasks = [])

include hinline haccepts hdone

theorem perm_everybody_of_fansOut (h : net.FansOut self origin input) :
    (net.runAccepted cfg redis self origin input es).log.Perm (net.everybody redis self pk) := by
  have hperm := perm_deliveries cfg hinline (within_accept haccepts) hdone
  refine hperm.trans (List.Perm.of_eq ?_)
  rw [accept_of_fansOut h]
  dsimp only [forwardToClusterSubscribers]
  rw [List.flatMap_append, flatMap_yieldDelivery_offlineTasks rfl, List.flatMap_map, everybody,
    share, List.append_assoc]
  rfl

theorem perm_offers_of_not_fansOut (h : ¬ net.FansOut self origin input) :
    (net.runAccepted cfg redis self origin input es).log.Perm
      (net.offers self pk.topic.text none) := by
  have hperm := perm_deliveries cfg hinline (within_accept haccepts) hdone
  refine hperm.trans (List.Perm.of_eq ?_)
  rw [accept_of_not_fansOut haccepts h]
  exact List.append_nil _

end Done

/-- A message of any origin, and a publish of a client with the same topic, payload and QoS on the
same node, both in whatever order the nodes work. They are offered to the same clients, shared
groups and offline sessions exactly if the hook fans the message out, or the publish of the client
would stay on the node. Without a device that calls itself `inline` the hook fans out what comes
from clients alone. -/
theorem sameDelivery_iff (hinline : net.NoInline self) {clientID : Text} {input' : Input}
    (hadmits : net.Admits self clientID input') (haccepts : net.Accepts self origin input) :
    (∃ es, (net.runAccepted cfg redis self origin input es).tasks = []) ∧
    (∃ es,
      (net.runAccepted cfg redis self (.publish clientID : Origin marshal pk) input' es).tasks =
        []) ∧
    ∀ es es', (net.runAccepted cfg redis self origin input es).tasks = [] →
      (net.runAccepted cfg redis self (.publish clientID : Origin marshal pk) input' es').tasks =
        [] →
      ((net.runAccepted cfg redis self origin input es).log.Perm
        (net.runAccepted cfg redis self (.publish clientID : Origin marshal pk) input' es').log ↔
          net.FansOut self origin input ∨ net.Contained redis self pk) := by
  refine ⟨exists_runAccepted_done cfg hinline haccepts, exists_runAccepted_done cfg hinline hadmits,
    fun es es' hdone hdone' => ?_⟩
  have hpublish : net.Accepts self (.publish clientID : Origin marshal pk) input' := hadmits
  have hclient := perm_everybody_of_fansOut cfg hinline hpublish hdone' hadmits
  by_cases h : net.FansOut self origin input
  · refine iff_of_true ?_ (Or.inl h)
    exact (perm_everybody_of_fansOut cfg hinline haccepts hdone h).trans hclient.symm
  · have hlocal := perm_offers_of_not_fansOut cfg hinline haccepts hdone h
    rw [or_iff_right h, ← perm_everybody_iff]
    exact ⟨fun hp => hlocal.symm.trans (hp.trans hclient),
      fun hp => hlocal.trans (hp.trans hclient.symm)⟩

end Origins

/-! ### A command and a Will message -/

/-- A command for the device `d`, in the format of custom device agents. -/
def commandPacket : PublishPacket where
  topic := ⟨"command/d".toList, by decide, by decide⟩
  payload := [1]
  qos := 1

/-- An encoding of envelopes that keeps the payload. -/
def bare : MarshalEnvelope := fun _ payload => some payload

/-- The commander publishes it, a connection leaves it as its Will, or the Will has waited. -/
def commandOrigins : List (Origin bare commandPacket) :=
  [.command ⟨['d'], [], []⟩ [1] UUID.nil (by decide),
    .will ['p'] ⟨true, commandPacket, 0⟩ 0 ∅ (List.mem_singleton_self _),
    .delayedWill 10 (AList.singleton ['p'] (commandPacket, 5)) (List.mem_singleton_self _)]

/-- Two nodes and two sessions that have subscribed to `x`. On node `A` client `q` has subscribed to
commands. -/
def watched : Net where
  __ := (ClusterState.pair ['x']).toNet
  indexes nodeID :=
    if nodeID = ['A'] then
      TopicsIndex.empty.subscribe ['q'] { filter := "command/+".toList, qos := 1 }
    else (ClusterState.pair ['x']).indexes nodeID
  connected nodeID clientID :=
    (nodeID = ['A'] && clientID = ['q']) || (ClusterState.pair ['x']).connected nodeID clientID

/-- The command and both Will messages are offered to the subscriber on the node, and so is a
publish of a client with the topic, in whatever order the nodes work. -/
theorem sameDelivery_watched :
    let redis := (ClusterState.pair ['x']).redis
    ∀ origin ∈ commandOrigins,
      (watched.accept redis ['A'] origin {}).log = [.client ['A'] ['q']] ∧
      ∀ es es', (watched.runAccepted Cluster.schema2 redis ['A'] origin {} es).tasks = [] →
        (watched.runAccepted Cluster.schema2 redis ['A']
          (.publish ['p'] : Origin bare commandPacket) {} es').tasks = [] →
        (watched.runAccepted Cluster.schema2 redis ['A'] origin {} es).log.Perm
          (watched.runAccepted Cluster.schema2 redis ['A']
            (.publish ['p'] : Origin bare commandPacket) {} es').log := by
  intro redis origin horigin
  have hlog : ∀ origin ∈ commandOrigins,
      (watched.accept redis ['A'] origin {}).log = [.client ['A'] ['q']] := by
    decide +kernel
  refine ⟨hlog origin horigin, fun es es' hdone hdone' => ?_⟩
  have haccepts : watched.Accepts ['A'] origin {} := by
    simp only [commandOrigins, List.mem_cons, List.not_mem_nil, or_false] at horigin
    rcases horigin with rfl | rfl | rfl
    · exact Or.inr rfl
    · trivial
    · trivial
  have hcontained : watched.Contained redis ['A'] commandPacket :=
    ⟨by decide +kernel, by decide +kernel, by decide +kernel⟩
  have hinline : watched.NoInline ['A'] := ClusterState.noInline_pair ['x']
  have hadmits : watched.Admits ['A'] ['p'] {} := ClusterState.admits_pair ['x'] UUID.nil
  exact ((sameDelivery_iff Cluster.schema2 hinline hadmits haccepts).2.2 es es' hdone hdone').2
    (Or.inr hcontained)

/-- Client `c` on node `B` and the offline client `d` have subscribed to the topic. A publish of a
client on node `A` is offered to both of them, the command and the Will messages to nobody. -/
theorem not_sameDelivery_command :
    let s := ClusterState.pair "command/+".toList
    let published := s.toNet.runAccepted Cluster.schema2 s.redis ['A']
      (.publish ['p'] : Origin bare commandPacket) {} [(0, {}), (0, {})]
    s.Converged ∧ published.tasks.length = 0 ∧
      published.log = [.client ['B'] ['c'],
        .session ['d'] ⟨commandPacket.topic.text, commandPacket.payload, 1⟩] ∧
      ∀ origin ∈ commandOrigins, (s.toNet.accept s.redis ['A'] origin {}).tasks.length = 0 ∧
        (s.toNet.accept s.redis ['A'] origin {}).log = [] := by
  exact ⟨ClusterState.converged_pair ⟨by decide, by decide, by decide⟩, by decide +kernel,
    by decide +kernel, by decide +kernel⟩

end Net

end KeelGateway.Broker

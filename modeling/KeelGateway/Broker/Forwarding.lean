import KeelGateway.Lib.TaskPool
import KeelGateway.Broker.OfflineDelivery

/-!
# A publish on its way through the cluster

The node of the publisher queues the message for the offline clients it owns, forwards it to the
nodes of its plan, and publishes it to its own subscribers. A node that gets a forward publishes the
message to its subscribers, as the inline client of the server, and queues it for the offline
clients it owns. All nodes work at once, and only the queue in Redis is common to them.

`OnPublish` takes a message for a forward by the client ID of the publisher: it fans out what comes
from a client that the node has authenticated. The inline client has the client ID `inline`, which
any device may use as well.

-/

namespace KeelGateway.Broker

open Redis Mochi Routing TaskPool

/-! ### Nodes -/

/-- A PUBLISH packet, as far as it goes from node to node. -/
structure PublishPacket where
  topic : TopicName
  payload : List UInt8
  qos : ℕ

/-- The packet with the ID of the publish. -/
def PublishPacket.publish (pk : PublishPacket) (publishID : UUID) : Publish where
  publishID := publishID
  topic := pk.topic.text
  payload := pk.payload
  qos := pk.qos

/-- `InlineClientId`. -/
def inlineClientID : Text := "inline".toList

/-- The nodes of the cluster by node ID. -/
structure Net where
  hooks : Text → KeelHook
  caches : Text → Router
  indexes : Text → TopicsIndex
  connected : Text → Text → Bool

/-- What a node still has to do for a publish. -/
inductive Task where
  | inbound (nodeID : Text) (pk : PublishPacket) (publishID : UUID)
      (sharedFilters : Option (List Text))
  | queue (pk : PublishPacket) (publishID : UUID) (call : Text × OfflineMessage)

/-- What a node has done for a publish. -/
inductive Entry where
  | attempt (nodeID clientID : Text)
  | call (pub : Publish) (now : ℤ) (call : Text × OfflineMessage) (phase : Phase)

/-- What a task gets from outside. -/
structure Input where
  publishID : UUID := UUID.nil
  allowed : Bool := true
  now : ℤ := 0

instance : Inhabited Input := ⟨{}⟩

/-- `OnSelectSubscribers`: clients without a connection are left out, and the shared filters that
the node was not told to serve. A publish that names no shared filters at all serves any. -/
def onSelectSubscribers (connected : Text → Bool) (sharedFilters : Option (List Text))
    (subs : Subscribers) : Subscribers where
  subscriptions := subs.subscriptions.filterMap fun clientID sub =>
    if connected clientID then some sub else none
  shared := subs.shared.filterMap fun filter members =>
    if sharedFilters.any fun filters => filter ∉ filters then none
    else
      let rest := members.filterMap fun clientID sub =>
        if connected clientID then some sub else none
      if rest.entries = [] then none else some rest

namespace Net

variable (net : Net)

/-- The clients that `publishToSubscribers` publishes to by their ordinary subscriptions. Those that
a shared filter has served already do not occur without shared subscriptions. -/
def attempted (nodeID topic : Text) (sharedFilters : Option (List Text)) : List Text :=
  (onSelectSubscribers (net.connected nodeID) sharedFilters
    ((net.indexes nodeID).subscribers topic)).subscriptions.keys

/-- The calls of the queue that `DeliverOffline` makes on a node. -/
def offlineTasks (redis : Cluster) (nodeID : Text) (pk : PublishPacket) (publishID : UUID) :
    List Task :=
  (redis.offlineCalls (net.caches nodeID).toRouteTables nodeID (pk.publish publishID)).map
    (.queue pk publishID)

/-- `forwardToClusterSubscribers`: the shared filters that the node itself serves, and the tasks. -/
def forwardToClusterSubscribers (redis : Cluster) (nodeID : Text) (pk : PublishPacket)
    (publishID : UUID) : List Text × List Task :=
  let r := (net.caches nodeID).toRouteTables
  let sharedNodes := (r.fanOutPlan nodeID pk.topic.text).2
  (sharedFiltersForNode sharedNodes nodeID,
    net.offlineTasks redis nodeID pk publishID ++
      (r.forwardTargets nodeID pk.topic.text).map fun target =>
        .inbound target pk publishID (some (sharedFiltersForNode sharedNodes target)))

/-- `OnPublish`: nothing if the rate limiter of the tenant refuses the publish, and otherwise the
shared filters for the node itself and the tasks. A publisher that the node has not authenticated is
let through as it is. -/
def onPublish (redis : Cluster) (nodeID clientID : Text) (pk : PublishPacket)
    (sharedFilters : Option (List Text)) (input : Input) :
    Option (Option (List Text) × List Task) :=
  match (net.hooks nodeID).clients.lookup clientID with
  | none => some (sharedFilters, [])
  | some state =>
    if state.info.tenantID ≠ UUID.nil ∧ input.allowed = false then none
    else
      let (localShared, tasks) := net.forwardToClusterSubscribers redis nodeID pk input.publishID
      some (some localShared, tasks)

/-- `processPublish` of a packet that the access control allows: the hook, and then the subscribers
of the node. -/
def processPublish (redis : Cluster) (nodeID clientID : Text) (pk : PublishPacket)
    (sharedFilters : Option (List Text)) (input : Input) : Pool Cluster Task Entry :=
  match net.onPublish redis nodeID clientID pk sharedFilters input with
  | none => { state := redis }
  | some (sharedFilters, tasks) =>
    { state := redis
      tasks := tasks
      log := (net.attempted nodeID pk.topic.text sharedFilters).map (.attempt nodeID) }

variable (cfg : ClusterConfig)

/-- A task is done. The handler of a forward publishes as the inline client and then queues. -/
def exec (redis : Cluster) (t : Task) (input : Input) : Pool Cluster Task Entry :=
  match t with
  | .inbound nodeID pk publishID sharedFilters =>
    let p := net.processPublish redis nodeID inlineClientID pk sharedFilters input
    { p with tasks := p.tasks ++ net.offlineTasks redis nodeID pk publishID }
  | .queue pk publishID call =>
    let pub := pk.publish publishID
    { state := redis.step cfg (queueEvent pub input.now call)
      log := [.call pub input.now call ((redis.session call.1).keys.queueOfflineInflight call.1
        { publishID := publishID, msg := call.2 } input.now).2] }

/-- A publish after the node of the publisher has processed it. -/
def start (redis : Cluster) (self clientID : Text) (pk : PublishPacket) (input : Input) :
    Pool Cluster Task Entry :=
  net.processPublish redis self clientID pk none input

/-- A publish after some of its tasks. -/
def run (redis : Cluster) (self clientID : Text) (pk : PublishPacket) (input : Input)
    (es : List (ℕ × Input)) : Pool Cluster Task Entry :=
  StepMachine.run (step (net.exec cfg)) (net.start redis self clientID pk input) es

/-- The hook lets the publish of a client through and fans it out. -/
def Admits (nodeID clientID : Text) (input : Input) : Prop :=
  ∃ state, (net.hooks nodeID).clients.lookup clientID = some state ∧
    (state.info.tenantID ≠ UUID.nil → input.allowed = true)

instance (nodeID clientID : Text) (input : Input) : Decidable (net.Admits nodeID clientID input) :=
  inferInstanceAs (Decidable (∃ state, state ∈ (net.hooks nodeID).clients.lookup clientID ∧
    (state.info.tenantID ≠ UUID.nil → input.allowed = true)))

/-- No client with the ID of the inline client is known to any other node. -/
def NoInline (self : Text) : Prop :=
  ∀ nodeID, nodeID ≠ self → (net.hooks nodeID).clients.lookup inlineClientID = none

/-- The nodes that see a publish on the node `self`. -/
def reached (self topic : Text) : List Text := self :: (net.caches self).forwardTargets self topic

end Net

/-! ### What the log says -/

/-- The attempt that an entry stands for. -/
def Entry.attempts : Entry → List (Text × Text)
  | attempt nodeID clientID => [(nodeID, clientID)]
  | call _ _ _ _ => []

/-- The call of the queue that an entry stands for. -/
def Entry.calls : Entry → List (Text × OfflineMessage)
  | attempt _ _ => []
  | call _ _ c _ => [c]

/-- What the call did to the cluster. -/
def Entry.event : Entry → Option ClusterEvent
  | attempt _ _ => none
  | call pub now c _ => some (queueEvent pub now c)

/-- How the call returned. -/
def Entry.outcome : Entry → Option (Text × Phase)
  | attempt _ _ => none
  | call _ _ c phase => some (c.1, phase)

namespace Net

variable {net : Net} {self topic : Text} {redis : Cluster} {pk : PublishPacket} {publishID : UUID}
  {clientID : Text} {input : Input}

theorem mem_attempted (ht : topic ≠ []) {nodeID : Text} {sharedFilters : Option (List Text)} :
    clientID ∈ net.attempted nodeID topic sharedFilters ↔
      net.connected nodeID clientID = true ∧
        ∃ filter, (levels filter, clientID) ∈ (net.indexes nodeID).subscriptions ∧
          IndexMatch filter topic := by
  rw [attempted, ← AList.mem_keys, GoMap.mem_iff_exists_lookup,
    ← TopicsIndex.exists_mem_ordinaryEntries ht, ← TopicsIndex.mem_subscriptions_subscribers,
    GoMap.mem_iff_exists_lookup]
  simp only [onSelectSubscribers, GoMap.lookup_filterMap, Option.bind_eq_some_iff,
    Option.ite_none_right_eq_some]
  constructor
  · rintro ⟨_, sub, hsub, hopen, -⟩
    exact ⟨hopen, sub, hsub⟩
  · rintro ⟨hopen, sub, hsub⟩
    exact ⟨sub, sub, hsub, hopen, rfl⟩

private theorem nodup_attempted (nodeID topic : Text) (sharedFilters : Option (List Text)) :
    (net.attempted nodeID topic sharedFilters).Nodup :=
  AList.keys_nodup _

private theorem nodup_reached : (net.reached self topic).Nodup := by
  refine List.nodup_cons.2 ⟨fun h => (RouteTables.mem_forwardTargets.1 h).1 rfl, ?_⟩
  exact (List.nodup_dedup _).filter _

theorem onPublish_of_admits (h : net.Admits self clientID input)
    (sharedFilters : Option (List Text)) :
    net.onPublish redis self clientID pk sharedFilters input =
      some (some (net.forwardToClusterSubscribers redis self pk input.publishID).1,
        (net.forwardToClusterSubscribers redis self pk input.publishID).2) := by
  obtain ⟨state, hstate, hallowed⟩ := h
  have hlet : ¬ (state.info.tenantID ≠ UUID.nil ∧ input.allowed = false) := by
    rintro ⟨htenant, hrefused⟩
    rw [hallowed htenant] at hrefused
    cases hrefused
  simp only [onPublish, hstate, if_neg hlet]

theorem onPublish_of_lookup_eq_none (h : (net.hooks self).clients.lookup clientID = none)
    (sharedFilters : Option (List Text)) :
    net.onPublish redis self clientID pk sharedFilters input = some (sharedFilters, []) := by
  simp only [onPublish, h]

theorem onPublish_of_not_admits (h : ¬ net.Admits self clientID input)
    (sharedFilters : Option (List Text)) :
    net.onPublish redis self clientID pk sharedFilters input = some (sharedFilters, []) ∨
      net.onPublish redis self clientID pk sharedFilters input = none := by
  cases hstate : (net.hooks self).clients.lookup clientID with
  | none => exact Or.inl (onPublish_of_lookup_eq_none hstate sharedFilters)
  | some state =>
    have hrefused : state.info.tenantID ≠ UUID.nil ∧ input.allowed = false := by
      by_contra hlet
      refine h ⟨state, hstate, fun htenant => ?_⟩
      by_contra hallowed
      exact hlet ⟨htenant, Bool.eq_false_iff.2 hallowed⟩
    refine Or.inr ?_
    simp only [onPublish, hstate, if_pos hrefused]

theorem processPublish_of_admits (h : net.Admits self clientID input)
    (sharedFilters : Option (List Text)) :
    net.processPublish redis self clientID pk sharedFilters input =
      { state := redis
        tasks := (net.forwardToClusterSubscribers redis self pk input.publishID).2
        log := (net.attempted self pk.topic.text none).map (.attempt self) } := by
  rw [processPublish, onPublish_of_admits h]
  rfl

theorem processPublish_inline (h : (net.hooks self).clients.lookup inlineClientID = none)
    (sharedFilters : Option (List Text)) :
    net.processPublish redis self inlineClientID pk sharedFilters input =
      { state := redis
        log := (net.attempted self pk.topic.text none).map (.attempt self) } := by
  rw [processPublish, onPublish_of_lookup_eq_none h]
  rfl

theorem sub_queue (cfg : ClusterConfig) (s : Cluster) (pub : Publish) (now : ℤ)
    (call : Text × OfflineMessage) : (s.step cfg (queueEvent pub now call)).sub = s.sub :=
  Function.update_eq_self _ _

theorem offlineCalls_congr {s : Cluster} (h : s.sub = redis.sub) (r : RouteTables TopicsIndex)
    (nodeID : Text) (pub : Publish) : s.offlineCalls r nodeID pub =
    redis.offlineCalls r nodeID pub := by
  have hsession : s.offlineSession = redis.offlineSession := by
    funext c
    rw [Cluster.offlineSession, Cluster.offlineSession, h]
  rw [Cluster.offlineCalls, Cluster.offlineCalls, hsession]

/-! ### All tasks of a publish -/

/-- The task belongs to a publish that was made on the node `self`. -/
def Follows (self : Text) (pk : PublishPacket) (publishID : UUID) : Task → Prop
  | .inbound nodeID pk' publishID' _ => nodeID ≠ self ∧ pk' = pk ∧ publishID' = publishID
  | .queue pk' publishID' _ => pk' = pk ∧ publishID' = publishID

theorem follows_offlineTasks {nodeID : Text} {t : Task}
    (ht : t ∈ net.offlineTasks redis nodeID pk publishID) : Follows self pk publishID t := by
  obtain ⟨call, -, rfl⟩ := List.mem_map.1 ht
  exact ⟨rfl, rfl⟩

theorem follows_forwardToClusterSubscribers {t : Task}
    (ht : t ∈ (net.forwardToClusterSubscribers redis self pk publishID).2) :
    Follows self pk publishID t := by
  rcases List.mem_append.1 ht with ht | ht
  · exact follows_offlineTasks ht
  · obtain ⟨target, htarget, rfl⟩ := List.mem_map.1 ht
    exact ⟨(RouteTables.mem_forwardTargets.1 htarget).1, rfl, rfl⟩

variable (cfg : ClusterConfig)

theorem exec_inbound (hinline : net.NoInline self) (s : Cluster) {nodeID : Text}
    (hne : nodeID ≠ self) (sharedFilters : Option (List Text)) :
    net.exec cfg s (.inbound nodeID pk publishID sharedFilters) input =
      { state := s
        tasks := net.offlineTasks s nodeID pk publishID
        log := (net.attempted nodeID pk.topic.text none).map (.attempt nodeID) } := by
  simp only [exec, processPublish_inline (hinline nodeID hne), List.nil_append]

theorem closed_exec (redis : Cluster) (pk : PublishPacket) (publishID : UUID)
    (hinline : net.NoInline self) :
    Closed (net.exec cfg) (fun s => s.sub = redis.sub) (Follows self pk publishID) := by
  intro s t e hs ht
  cases t with
  | inbound nodeID pk' publishID' sharedFilters =>
    obtain ⟨hne, rfl, rfl⟩ := ht
    rw [exec_inbound cfg hinline s hne]
    exact ⟨hs, fun t' ht' => follows_offlineTasks ht'⟩
  | queue pk' publishID' call =>
    refine ⟨(sub_queue cfg s _ _ _).trans hs, fun t' ht' => ?_⟩
    cases ht'

theorem within_start (h : net.Admits self clientID input) :
    (net.start redis self clientID pk input).Within (fun s => s.sub = redis.sub)
      (Follows self pk input.publishID) := by
  rw [start, processPublish_of_admits h]
  exact ⟨rfl, fun t ht => follows_forwardToClusterSubscribers ht⟩

/-- A forward outranks the calls it leads to, whose number does not change meanwhile. -/
def rank (net : Net) (redis : Cluster) : Task → ℕ
  | .inbound nodeID pk publishID _ => (net.offlineTasks redis nodeID pk publishID).length + 1
  | .queue _ _ _ => 1

private theorem sum_rank_offlineTasks {s : Cluster} (hs : s.sub = redis.sub) (nodeID : Text) :
    ((net.offlineTasks s nodeID pk publishID).map (net.rank redis)).sum =
      (net.offlineTasks redis nodeID pk publishID).length := by
  have hone : (net.rank redis ∘ Task.queue pk publishID) = fun _ => 1 := rfl
  simp only [offlineTasks, offlineCalls_congr hs, List.map_map, hone, List.map_const',
    List.sum_replicate_nat, List.length_map, mul_one]

theorem sum_rank_exec (hinline : net.NoInline self) {s : Cluster} {t : Task} (e : Input)
    (hs : s.sub = redis.sub) (ht : Follows self pk publishID t) :
    ((net.exec cfg s t e).tasks.map (net.rank redis)).sum < net.rank redis t := by
  cases t with
  | inbound nodeID pk' publishID' sharedFilters =>
    obtain ⟨hne, rfl, rfl⟩ := ht
    rw [exec_inbound cfg hinline s hne, sum_rank_offlineTasks hs]
    exact Nat.lt_succ_self _
  | queue pk' publishID' call => exact Nat.one_pos

/-- The work for a publish comes to an end. -/
theorem exists_done (hinline : net.NoInline self) (h : net.Admits self clientID input) :
    ∃ es, (net.run cfg redis self clientID pk input es).tasks = [] :=
  (closed_exec cfg redis pk input.publishID hinline).exists_done (net.rank redis)
    (fun _ _ e hs ht => sum_rank_exec cfg hinline e hs ht) (within_start h)

/-- The attempts that a task will have led to. -/
def yieldAttempts (net : Net) : Task → List (Text × Text)
  | .inbound nodeID pk _ _ => (net.attempted nodeID pk.topic.text none).map (nodeID, ·)
  | .queue _ _ _ => []

/-- The calls of the queue that a task will have led to. -/
def yieldCalls (net : Net) (redis : Cluster) : Task → List (Text × OfflineMessage)
  | .inbound nodeID pk publishID _ =>
    redis.offlineCalls (net.caches nodeID).toRouteTables nodeID (pk.publish publishID)
  | .queue _ _ call => [call]

section Yields

variable (net)

theorem flatMap_attempts (nodeID : Text) (clients : List Text) :
    (clients.map (Entry.attempt nodeID)).flatMap Entry.attempts = clients.map (nodeID, ·) := by
  rw [List.flatMap_map]
  exact List.map_eq_flatMap.symm

theorem flatMap_calls (nodeID : Text) (clients : List Text) :
    (clients.map (Entry.attempt nodeID)).flatMap Entry.calls = [] := by
  simp [Entry.calls]

theorem flatMap_yieldAttempts_offlineTasks (redis : Cluster) (nodeID : Text) (pk : PublishPacket)
    (publishID : UUID) :
    (net.offlineTasks redis nodeID pk publishID).flatMap net.yieldAttempts = [] := by
  simp [offlineTasks, List.flatMap_map, yieldAttempts]

theorem flatMap_yieldCalls_offlineTasks (redis s : Cluster) (nodeID : Text) (pk : PublishPacket)
    (publishID : UUID) :
    (net.offlineTasks s nodeID pk publishID).flatMap (net.yieldCalls redis) =
      s.offlineCalls (net.caches nodeID).toRouteTables nodeID (pk.publish publishID) := by
  simp [offlineTasks, List.flatMap_map, yieldCalls]

end Yields

section Done

variable (hinline : net.NoInline self) (hadmits : net.Admits self clientID input)
  {es : List (ℕ × Input)}

include hinline hadmits

/-- The attempts of all nodes at the end. -/
theorem perm_attempts (hdone : (net.run cfg redis self clientID pk input es).tasks = []) :
    ((net.run cfg redis self clientID pk input es).log.flatMap Entry.attempts).Perm
      ((net.reached self pk.topic.text).flatMap fun nodeID =>
        (net.attempted nodeID pk.topic.text none).map (nodeID, ·)) := by
  have hperm := (closed_exec cfg redis pk input.publishID hinline).perm_log net.yieldAttempts
    Entry.attempts (fun s t e hs ht => ?_) (within_start hadmits) hdone
  · refine hperm.trans (List.Perm.of_eq ?_)
    rw [start, processPublish_of_admits hadmits]
    dsimp only [forwardToClusterSubscribers]
    rw [flatMap_attempts, List.flatMap_append, flatMap_yieldAttempts_offlineTasks,
      List.flatMap_map]
    rfl
  · cases t with
    | inbound nodeID pk' publishID' sharedFilters =>
      obtain ⟨hne, rfl, rfl⟩ := ht
      rw [exec_inbound cfg hinline s hne]
      simp only [flatMap_attempts, flatMap_yieldAttempts_offlineTasks, List.append_nil]
      exact List.Perm.refl _
    | queue pk' publishID' call => exact List.Perm.nil

theorem mem_attempts (hdone : (net.run cfg redis self clientID pk input es).tasks = [])
    {nodeID c : Text} :
    (nodeID, c) ∈ (net.run cfg redis self clientID pk input es).log.flatMap Entry.attempts ↔
      nodeID ∈ net.reached self pk.topic.text ∧ c ∈ net.attempted nodeID pk.topic.text none := by
  rw [(perm_attempts cfg hinline hadmits hdone).mem_iff]
  simp only [List.mem_flatMap, List.mem_map, Prod.mk.injEq]
  constructor
  · rintro ⟨n, hn, c', hc', rfl, rfl⟩
    exact ⟨hn, hc'⟩
  · rintro ⟨hn, hc⟩
    exact ⟨nodeID, hn, c, hc, rfl, rfl⟩

/-- No attempt is made twice. -/
theorem nodup_attempts (hdone : (net.run cfg redis self clientID pk input es).tasks = []) :
    ((net.run cfg redis self clientID pk input es).log.flatMap Entry.attempts).Nodup := by
  rw [(perm_attempts cfg hinline hadmits hdone).nodup_iff, List.nodup_flatMap]
  refine ⟨fun nodeID _ => (nodup_attempted nodeID _ _).map (Prod.mk_right_injective nodeID), ?_⟩
  refine nodup_reached.imp fun hne => ?_
  rintro ⟨nodeID, c⟩ hn hm
  obtain ⟨_, _, hn⟩ := List.mem_map.1 hn
  obtain ⟨_, _, hm⟩ := List.mem_map.1 hm
  exact hne ((Prod.mk.inj hn).1.trans (Prod.mk.inj hm).1.symm)

theorem perm_calls (hdone : (net.run cfg redis self clientID pk input es).tasks = []) :
    ((net.run cfg redis self clientID pk input es).log.flatMap Entry.calls).Perm
      ((net.reached self pk.topic.text).flatMap fun nodeID =>
        redis.offlineCalls (net.caches nodeID).toRouteTables nodeID
          (pk.publish input.publishID)) := by
  have hperm := (closed_exec cfg redis pk input.publishID hinline).perm_log (net.yieldCalls redis)
    Entry.calls (fun s t e hs ht => ?_) (within_start hadmits) hdone
  · refine hperm.trans (List.Perm.of_eq ?_)
    rw [start, processPublish_of_admits hadmits]
    dsimp only [forwardToClusterSubscribers]
    rw [flatMap_calls, List.flatMap_append, flatMap_yieldCalls_offlineTasks,
      List.flatMap_map]
    rfl
  · cases t with
    | inbound nodeID pk' publishID' sharedFilters =>
      obtain ⟨hne, rfl, rfl⟩ := ht
      rw [exec_inbound cfg hinline s hne]
      simp only [flatMap_calls, flatMap_yieldCalls_offlineTasks,
        offlineCalls_congr hs]
      exact List.Perm.refl _
    | queue pk' publishID' call => exact List.Perm.refl _

variable (es)

theorem replays_run :
    Replays (Cluster.step cfg) Cluster.queueOutcome Entry.event Entry.outcome redis
      (net.run cfg redis self clientID pk input es) := by
  have hattempts (n : Text) (clients : List Text) :
      (clients.map (Entry.attempt n)).filterMap Entry.event = [] ∧
        (clients.map (Entry.attempt n)).filterMap Entry.outcome = [] := by
    simp [Entry.event, Entry.outcome]
  refine (closed_exec cfg redis pk input.publishID hinline).replays (fun s t e hs ht => ?_)
    (within_start hadmits) ?_ es
  · cases t with
    | inbound nodeID pk' publishID' sharedFilters =>
      obtain ⟨hne, rfl, rfl⟩ := ht
      rw [exec_inbound cfg hinline s hne]
      simp only [Replays, hattempts]
      exact ⟨rfl, rfl⟩
    | queue pk' publishID' call => exact ⟨rfl, rfl⟩
  · rw [start, processPublish_of_admits hadmits]
    simp only [Replays, hattempts]
    exact ⟨rfl, rfl⟩

theorem event_of_mem_log {o : Entry}
    (ho : o ∈ (net.run cfg redis self clientID pk input es).log) {e : ClusterEvent}
    (he : o.event = some e) :
    ∃ now call, o.calls = [call] ∧ e = queueEvent (pk.publish input.publishID) now call := by
  have hall := (closed_exec cfg redis pk input.publishID hinline).forall_log
    (Q := fun o => ∀ e, o.event = some e → ∃ now call, o.calls = [call] ∧
      e = queueEvent (pk.publish input.publishID) now call)
    (fun s t e hs ht o ho => ?_) (within_start hadmits) (fun o ho => ?_) es
  · exact hall o ho e he
  · cases t with
    | inbound nodeID pk' publishID' sharedFilters =>
      obtain ⟨hne, rfl, rfl⟩ := ht
      rw [exec_inbound cfg hinline s hne] at ho
      obtain ⟨c, -, rfl⟩ := List.mem_map.1 ho
      intro e he
      cases he
    | queue pk' publishID' call =>
      obtain ⟨rfl, rfl⟩ := ht
      obtain rfl := List.mem_singleton.1 ho
      intro e' he'
      cases he'
      exact ⟨_, call, rfl, rfl⟩
  · rw [start, processPublish_of_admits hadmits] at ho
    obtain ⟨c, -, rfl⟩ := List.mem_map.1 ho
    intro e he
    cases he

end Done

end Net

end KeelGateway.Broker

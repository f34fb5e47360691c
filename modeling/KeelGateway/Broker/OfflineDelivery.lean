import KeelGateway.Broker.ExplicitDeny
import KeelGateway.Broker.SessionIsolation
import KeelGateway.Routing.DeliveryPlan
import KeelGateway.Session.Delivery

/-!
# Offline delivery and access control

A message for a client that is offline is queued in Redis and sent when the client resumes its
session. A live delivery asks `OnACLCheck` for the topic of the message; the offline path asks
nobody, neither when the message is queued nor when it is sent.

-/

namespace KeelGateway.Broker

open Raft Redis Mochi Optimistic Routing Session StepMachine

/-- A publish as it reaches `DeliverOffline`. -/
structure Publish where
  publishID : UUID
  topic : Text
  payload : List UInt8
  qos : ℕ

/-- A call of `QueueOfflineInflight`. -/
def queueEvent (pub : Publish) (now : ℤ) (call : Text × OfflineMessage) : ClusterEvent :=
  .client call.1 (.enqueue { publishID := pub.publishID, msg := call.2 } now) rfl

theorem filter_fst_eq_singleton {A B : Type} [DecidableEq A] {l : List (A × B)}
    (h : (l.map Prod.fst).Nodup) {a : A} {b : B} (hmem : (a, b) ∈ l) :
    l.filter (·.1 = a) = [(a, b)] := by
  induction l with
  | nil => cases hmem
  | cons p l ih =>
    rw [List.map_cons, List.nodup_cons] at h
    rcases List.mem_cons.1 hmem with rfl | hmem
    · rw [List.filter_cons_of_pos (by simp), List.filter_eq_nil_iff.2 fun q hq => ?_]
      simp only [decide_eq_true_eq]
      rintro rfl
      exact h.1 (List.mem_map.2 ⟨q, hq, rfl⟩)
    · have hne : p.1 ≠ a := fun heq => h.1 (heq ▸ List.mem_map_of_mem hmem)
      rw [List.filter_cons_of_neg (by simpa using hne), ih h.2 hmem]

namespace Cluster

variable (s : Cluster) (r : RouteTables TopicsIndex) (nodeID : Text) (pub : Publish)

/-- A session as `OwnedOfflineSessions` reads it. -/
def offlineSession (clientID : Text) : OfflineSession :=
  fromStorage clientID ((s.sub (redisSubKey clientID)).entries.map Sigma.snd)

/-- The calls of the queue that `DeliverOffline` makes on a node. -/
def offlineCalls : List (Text × OfflineMessage) :=
  if pub.qos = 0 then []
  else
    let (owned, sharedSelected) := r.offlineDeliveryCandidates pub.topic nodeID
    deliver (some sharedSelected) (owned.map s.offlineSession) pub.topic pub.payload pub.qos

/-- `DeliverOffline`. -/
def deliverOffline (cfg : ClusterConfig) (now : ℤ) : Cluster :=
  run (step cfg) s ((s.offlineCalls r nodeID pub).map (queueEvent pub now))

/-- How a call of the queue returns. -/
def queueOutcome : ClusterEvent → Option (Text × Phase)
  | .client clientID (.enqueue args now) _ =>
    some (clientID, ((s.session clientID).keys.queueOfflineInflight clientID args now).2)
  | _ => none

/-- How the calls of `DeliverOffline` return. -/
def outcomes (cfg : ClusterConfig) (now : ℤ) : List (Text × Phase) :=
  trace (step cfg) queueOutcome s
    ((s.offlineCalls r nodeID pub).map (queueEvent pub now))

/-- The shared filters for which the node selects offline clients. -/
def sharedSelected : GoMap Text Text := (r.offlineDeliveryCandidates pub.topic nodeID).2

/-- The client is a candidate of the node, and one of its stored filters covers the topic at a QoS
above zero. -/
def Eligible (clientID : Text) : Prop :=
  clientID ∈ (r.offlineDeliveryCandidates pub.topic nodeID).1 ∧
    Reaches (sharedSelected r nodeID pub) (s.offlineSession clientID) pub.topic pub.qos

instance (clientID : Text) : Decidable (s.Eligible r nodeID pub clientID) :=
  inferInstanceAs (Decidable (_ ∧ _))

/-- The message that is queued for an eligible client. -/
def offlineMessage (clientID : Text) : OfflineMessage where
  topic := pub.topic
  payload := pub.payload
  qos := (bestMatchQoS (s.offlineSession clientID) pub.topic pub.qos
    (sharedSelected r nodeID pub)).1

/-- The queue takes a message of the client: the publish is new, and a packet ID is free. -/
def Accepts (publishID : UUID) (clientID : Text) : Prop :=
  ∃ schema, s.marker.value.schema? = some schema ∧
    (publishID = UUID.nil ∨ (s.dedup publishID (redisDedupKey publishID clientID)).value = false) ∧
    nextOfflinePacketCounter (s.ifm (redisInflightKey clientID)).value schema
      (s.session clientID).keys.counterValue ≠ 0

/-- What was queued for a client is only sent, whenever it resumes its session on any node after any
run, if the client may read the topic. -/
def ReadChecked (cfg : ClusterConfig) (now : ℤ) (clientID : Text) (mayRead : Text → Bool) : Prop :=
  ∀ packetID, (clientID, .queued packetID) ∈ s.outcomes r nodeID pub cfg now →
    ∀ es conn target, conn.clientID = clientID →
      (marshalOfflineInflight clientID packetID (s.offlineMessage r nodeID pub clientID)
          now).toPacket ∈
        ((run (step cfg) (s.deliverOffline r nodeID pub cfg now) es).inherited cfg conn
          target).inflight.getAll →
      mayRead pub.topic = true

/-! ### The calls for one client -/

variable {s r nodeID pub}

theorem mem_offlineCalls {call : Text × OfflineMessage} :
    call ∈ s.offlineCalls r nodeID pub ↔
      s.Eligible r nodeID pub call.1 ∧ call.2 = s.offlineMessage r nodeID pub call.1 := by
  have hzero (h : pub.qos = 0) (c : Text) : ¬ s.Eligible r nodeID pub c := by
    rintro ⟨-, sub, -, -, hqos⟩
    rw [h] at hqos
    simp at hqos
  unfold offlineCalls
  split_ifs with hqos
  · simp [hzero hqos]
  · obtain ⟨clientID, msg⟩ := call
    rw [mem_deliver_iff]
    simp only [List.mem_map, exists_exists_and_eq_and, Prod.mk.injEq]
    constructor
    · rintro ⟨c, hc, hreaches, rfl, rfl⟩
      exact ⟨⟨hc, hreaches⟩, rfl⟩
    · rintro ⟨⟨hc, hreaches⟩, rfl⟩
      exact ⟨clientID, hc, hreaches, rfl, rfl⟩

/-- No client is called for twice. -/
theorem nodup_offlineCalls : ((s.offlineCalls r nodeID pub).map Prod.fst).Nodup := by
  unfold offlineCalls
  split_ifs
  · exact List.nodup_nil
  · have hsub := map_fst_deliver_sublist (some (r.offlineDeliveryCandidates pub.topic nodeID).2)
      ((r.offlineDeliveryCandidates pub.topic nodeID).1.map s.offlineSession) pub.topic pub.payload
      pub.qos
    have hids : ((r.offlineDeliveryCandidates pub.topic nodeID).1.map s.offlineSession).map
        OfflineSession.clientID = (r.offlineDeliveryCandidates pub.topic nodeID).1 := by
      rw [List.map_map]
      exact List.map_id _
    rw [hids] at hsub
    exact hsub.nodup (List.nodup_dedup _)

theorem filter_offlineCalls (s : Cluster) (r : RouteTables TopicsIndex) (nodeID : Text)
    (pub : Publish)
    (clientID : Text) :
    (s.offlineCalls r nodeID pub).filter (·.1 = clientID) =
      if s.Eligible r nodeID pub clientID then [(clientID, s.offlineMessage r nodeID pub clientID)]
      else [] := by
  split_ifs with h
  · exact filter_fst_eq_singleton nodup_offlineCalls (mem_offlineCalls.2 ⟨h, rfl⟩)
  · refine List.filter_eq_nil_iff.2 fun call hcall => ?_
    simp only [decide_eq_true_eq]
    rintro rfl
    exact h (mem_offlineCalls.1 hcall).1

variable (cfg : ClusterConfig) (now : ℤ)

theorem filter_queueEvents (calls : List (Text × OfflineMessage)) (clientID : Text) :
    (calls.map (queueEvent pub now)).filter (·.clientID = clientID) =
      (calls.filter (·.1 = clientID)).map (queueEvent pub now) :=
  List.filter_map

theorem session_deliverOffline (clientID : Text) :
    (s.deliverOffline r nodeID pub cfg now).session clientID =
      if s.Eligible r nodeID pub clientID then
        (s.session clientID).step cfg
          (queueEvent pub now (clientID, s.offlineMessage r nodeID pub clientID))
      else s.session clientID := by
  rw [deliverOffline, componentwise_step.get_run s _ clientID, filter_queueEvents,
    filter_offlineCalls]
  split_ifs <;> rfl

/-- How a call of the queue returns, from the session of its client. -/
def clientOutcome (t : ClientSession) : ClusterEvent → Option (Text × Phase)
  | .client clientID (.enqueue args now) _ =>
    some (clientID, (t.keys.queueOfflineInflight clientID args now).2)
  | _ => none

theorem filter_trace_queueOutcome (s : Cluster) (es : List ClusterEvent) (clientID : Text) :
    (trace (step cfg) queueOutcome s es).filter (·.1 = clientID) =
      trace (ClientSession.step cfg) clientOutcome (s.session clientID)
        (es.filter (·.clientID = clientID)) := by
  refine componentwise_step.filter_trace (fun s e => ?_) (fun v e o ho => ?_) s es clientID
  · cases e with
    | client c e he => cases e <;> rfl
    | connect b conn node admitted => rfl
    | deliver c pk last => rfl
    | receive c packetID now => rfl
  · cases e with
    | client c e he =>
      cases e with
      | enqueue args now =>
        cases ho
        rfl
      | connect node => cases ho
      | disconnect expire => cases ho
      | subscribe pk aclCheck => cases ho
      | unsubscribe pk => cases ho
      | ack a => cases ho
    | connect b conn node admitted => cases ho
    | deliver c pk last => cases ho
    | receive c packetID now => cases ho

/-- How the call for a client returns. -/
theorem filter_outcomes (clientID : Text) :
    (s.outcomes r nodeID pub cfg now).filter (·.1 = clientID) =
      if s.Eligible r nodeID pub clientID then
        [(clientID, ((s.session clientID).keys.queueOfflineInflight clientID
          { publishID := pub.publishID, msg := s.offlineMessage r nodeID pub clientID } now).2)]
      else [] := by
  rw [outcomes, filter_trace_queueOutcome, filter_queueEvents, filter_offlineCalls]
  split_ifs <;> rfl

/-! ### Sending again -/

variable {clientID : Text}

theorem exists_queued_iff {k : Keys} {args : CallArgs} (hauto : args.configured = none) {now : ℤ} :
    (∃ packetID, (k.queueOfflineInflight clientID args now).2 = .queued packetID) ↔
      ∃ schema, k.marker.value.schema? = some schema ∧
        (args.publishID = UUID.nil ∨ (k.dedup args.publishID).value = false) ∧
        nextOfflinePacketCounter k.hash.value schema k.counterValue ≠ 0 := by
  unfold Keys.queueOfflineInflight
  cases hschema : k.marker.value.schema? with
  | none => simp
  | some schema =>
    simp only [hauto, true_or, if_true]
    split_ifs with hdup hzero
    · have hno : ¬ (args.publishID = UUID.nil ∨ (k.dedup args.publishID).value = false) := by
        simpa [hdup.2] using hdup.1
      simp [hno]
    · simp [hzero]
    · have hnew : args.publishID = UUID.nil ∨ (k.dedup args.publishID).value = false := by
        by_contra h
        rw [not_or, Bool.not_eq_false] at h
        exact hdup h
      simp [hnew, hzero]

theorem mem_outcomes {phase : Phase} :
    (clientID, phase) ∈ s.outcomes r nodeID pub cfg now ↔
      s.Eligible r nodeID pub clientID ∧
        phase = ((s.session clientID).keys.queueOfflineInflight clientID
          { publishID := pub.publishID, msg := s.offlineMessage r nodeID pub clientID } now).2 := by
  have hfilter : (clientID, phase) ∈ s.outcomes r nodeID pub cfg now ↔
      (clientID, phase) ∈ (s.outcomes r nodeID pub cfg now).filter (·.1 = clientID) := by
    simp [List.mem_filter]
  rw [hfilter, filter_outcomes]
  split_ifs with helig <;> simp [helig]

theorem exists_queued_outcome_iff (clientID : Text) :
    (∃ packetID, (clientID, .queued packetID) ∈ s.outcomes r nodeID pub cfg now) ↔
      s.Eligible r nodeID pub clientID ∧ s.Accepts pub.publishID clientID := by
  simp only [mem_outcomes, exists_and_left, eq_comm]
  exact and_congr_right fun _ => exists_queued_iff rfl

theorem mem_getAll_inherited (hschema : s.marker.value.schema? = some cfg.schema)
    (hown : OwnField cfg.schema (s.ifm (redisInflightKey clientID)).value)
    (hhere : s.here clientID = none) {target : Text} (hclean : s.clean target clientID = false)
    {packetID : ℕ} (hqueued : (clientID, .queued packetID) ∈ s.outcomes r nodeID pub cfg now) :
    (marshalOfflineInflight clientID packetID (s.offlineMessage r nodeID pub clientID)
        now).toPacket ∈
      ((s.deliverOffline r nodeID pub cfg now).inherited cfg { clientID := clientID }
        target).inflight.getAll := by
  obtain ⟨helig, hphase⟩ := (mem_outcomes cfg now).1 hqueued
  -- the call has committed, so the session holds the message in its own field
  obtain ⟨-, hno⟩ | ⟨schema, next, hmarker, -, -, hcommit⟩ :=
    (s.session clientID).keys.queueOfflineInflight_cases clientID
      { publishID := pub.publishID, msg := s.offlineMessage r nodeID pub clientID } now
  · rw [← hphase] at hno
    cases hno
  obtain rfl : schema = cfg.schema := Option.some.inj (hmarker.symm.trans hschema)
  rw [hcommit] at hphase
  cases hphase
  have hsession : ((s.deliverOffline r nodeID pub cfg now).session clientID).toSessionState =
      { (s.session clientID).toSessionState with
        keys := (s.session clientID).keys.commit clientID
          { publishID := pub.publishID, msg := s.offlineMessage r nodeID pub clientID } cfg.schema
          next now } := by
    rw [session_deliverOffline, if_pos helig]
    exact congrArg (fun q : Keys × Phase =>
      { (s.session clientID).toSessionState with keys := q.1 })
      hcommit
  have hfield (id : ℕ) (msg : OfflineMessage) : queueField cfg.schema id =
      writeField cfg.schema (marshalOfflineInflight clientID id msg now).toPacket := by
    cases cfg.schema <;> rfl
  have hclean' : ((s.deliverOffline r nodeID pub cfg now).session clientID).clean target =
      false := by
    rw [session_deliverOffline, if_pos helig]
    exact hclean
  have hresumes : (s.deliverOffline r nodeID pub cfg now).inherited cfg { clientID := clientID }
      target = ((s.deliverOffline r nodeID pub cfg now).session clientID).toSessionState.inherited
        (cfg.session clientID) target := by
    rw [inherited, ClientSession.inherited]
    simp [ClientSession.abandons, hclean']
  have hown' : OwnField (cfg.session clientID).schema ((s.session clientID).keys.commit clientID
      { publishID := pub.publishID, msg := s.offlineMessage r nodeID pub clientID } cfg.schema
      next now).hash.value := by
    rw [Keys.commit, hfield]
    exact hown.insert _
  rw [hresumes, hsession]
  exact SessionState.toPacket_mem_inherited hown' hhere target (AList.lookup_insert _)

/-- Offline delivery to a client respects the access control for the topic exactly if nothing is
queued or the client may read the topic when it resumes. -/
theorem readChecked_iff {clientID : Text} (hschema : s.marker.value.schema? = some cfg.schema)
    (hown : OwnField cfg.schema (s.ifm (redisInflightKey clientID)).value)
    (hhere : s.here clientID = none) (hclean : ∃ target, s.clean target clientID = false)
    (h : KeelHook) (parseUUID : Text → Bool) :
    s.ReadChecked r nodeID pub cfg now clientID (h.onACLCheck parseUUID clientID · false) ↔
      (s.Eligible r nodeID pub clientID → s.Accepts pub.publishID clientID →
        h.onACLCheck parseUUID clientID pub.topic false = true) := by
  constructor
  · intro hchecked helig haccepts
    obtain ⟨packetID, hqueued⟩ := (exists_queued_outcome_iff cfg now clientID).2 ⟨helig, haccepts⟩
    obtain ⟨target, htarget⟩ := hclean
    exact hchecked packetID hqueued [] { clientID := clientID } target rfl
      (mem_getAll_inherited cfg now hschema hown hhere htarget hqueued)
  · intro hallowed packetID hqueued es conn target _ _
    obtain ⟨helig, haccepts⟩ := (exists_queued_outcome_iff cfg now clientID).1 ⟨packetID, hqueued⟩
    exact hallowed helig haccepts

/-! ### A denied topic below an accepted filter -/

/-- A role that may read everything below `a` but `a/secret`. -/
def readerState : ACLState where
  roles := AList.singleton "reader".toList ⟨"reader".toList,
    [⟨"a/#".toList, ["subscribe".toList], .allow⟩,
     ⟨"a/secret".toList, ["subscribe".toList], .deny⟩]⟩
  bindings := AList.singleton ['c'] ["reader".toList]

/-- A node that knows the client `c` and the role. -/
def readerHook : KeelHook where
  clients := AList.singleton ['c'] ⟨⟨UUID.nil, UUID.nil⟩, .password, []⟩
  clusterRegistry := some readerState.evaluateACL

/-- The client `c` has subscribed to `a/#`, with the role in force, and has left. -/
def readerLeft : Cluster :=
  run (step schema2) fresh
    [.connect twoTenants (first ['c']) ['A'] true,
      .client ['c'] (.subscribe (SubState.subscribeTo 1 "a/#".toList)
        fun f => readerHook.onACLCheck (fun _ => false) ['c'] f false) rfl,
      .client ['c'] (.disconnect false) (SessionEvent.isConnect_disconnect false)]

/-- Node `B` owns the offline client. -/
def readerRoutes : Router := .reconcile [routeKey (ownershipKey ['c'] "a/#".toList) ['B']]

/-- A publish at QoS 1. -/
def publishOn (topic : Text) : Publish where
  publishID := (device 1).id
  topic := topic
  payload := [1]
  qos := 1

/-- The client may not read `a/secret`, and gets it all the same after an offline period. -/
theorem not_readChecked_secret :
    readerHook.onACLCheck (fun _ => false) ['c'] "a/secret".toList false = false ∧
      ¬ readerLeft.ReadChecked readerRoutes.toRouteTables ['B']
        (publishOn "a/secret".toList) schema2
        0 ['c'] (readerHook.onACLCheck (fun _ => false) ['c'] · false) := by
  have hdenied : readerHook.onACLCheck (fun _ => false) ['c'] "a/secret".toList false = false := by
    decide +kernel
  refine ⟨hdenied, fun h => ?_⟩
  have hsent := h 1 (by decide +kernel) [] { clientID := ['c'] } ['A'] rfl (by decide +kernel)
  exact absurd (hdenied.symm.trans hsent) (by decide)

/-- Another topic below `a` is queued and sent as it should. -/
theorem readChecked_public :
    readerLeft.Eligible readerRoutes.toRouteTables ['B'] (publishOn "a/x".toList) ['c'] ∧
      readerLeft.ReadChecked readerRoutes.toRouteTables ['B']
        (publishOn "a/x".toList) schema2 0 ['c']
        (readerHook.onACLCheck (fun _ => false) ['c'] · false) := by
  have hempty : (readerLeft.ifm (redisInflightKey ['c'])).value = ∅ :=
    AList.ext (by decide +kernel)
  have hown : OwnField schema2.schema (readerLeft.ifm (redisInflightKey ['c'])).value := by
    intro f m hm
    rw [hempty] at hm
    cases hm
  refine ⟨by decide +kernel, (readChecked_iff schema2 0 (by decide +kernel) hown (by decide +kernel)
    ⟨['A'], by decide +kernel⟩ readerHook fun _ => false).2 fun _ _ => by decide +kernel⟩

end Cluster

end KeelGateway.Broker

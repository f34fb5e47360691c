import KeelGateway.Broker.Forwarding

/-!
# Delivery in a converged cluster

In a converged cluster every routing cache is what the store says, a live session has its filters as
routes of its node, and an offline session has an owner for every filter, with a hint for
publishers. A publish anywhere should then be published once to every live session with a matching
filter, and queued once for every offline session with one.

Three indexes have to agree for that. A live session is found by the topics index of its node, and
its node by the topics index of the publisher's cache, which also holds the hints. The owner of an
offline session looks its filters up with the matcher of the ACL engine. The index misses what the
matcher accepts for filters that end in `/+/#`, so such a session is missed wherever no other filter
leads to it.

-/

namespace KeelGateway.Redis

open Optimistic

/-- The queue takes a message for the publish: it is new, and a packet ID is free. -/
def Keys.Accepts (k : Keys) (publishID : UUID) : Prop :=
  ∃ schema, k.marker.value.schema? = some schema ∧
    (publishID = UUID.nil ∨ (k.dedup publishID).value = false) ∧
    nextOfflinePacketCounter k.hash.value schema k.counterValue ≠ 0

theorem Keys.not_accepts_commit {k : Keys} {clientID : Text} {args : CallArgs} {schema : Schema}
    {next now : ℤ} (hid : args.publishID ≠ UUID.nil) :
    ¬ (k.commit clientID args schema next now).Accepts args.publishID := by
  rintro ⟨_, -, hnew, -⟩
  have hmarked : ((k.commit clientID args schema next now).dedup args.publishID).value = true := by
    simp [Keys.commit, hid]
  rcases hnew with hnil | hnew
  · exact hid hnil
  · rw [hmarked] at hnew
    cases hnew

end KeelGateway.Redis

namespace KeelGateway.Broker

open Acl Redis Mochi Optimistic Routing Session TaskPool

/-! ### Several calls for one client -/

section Repeated

variable (cfg : ClusterConfig) {pub : Publish} {clientID : Text}

/-- The event is a call of the queue for the client. -/
def IsCall (pub : Publish) (clientID : Text) (e : ClusterEvent) : Prop :=
  ∃ now msg, e = queueEvent pub now (clientID, msg)

theorem keys_step_queueEvent (t : ClientSession) (now : ℤ) (msg : OfflineMessage) :
    (t.step cfg (queueEvent pub now (clientID, msg))).keys =
      (t.keys.queueOfflineInflight clientID { publishID := pub.publishID, msg := msg } now).1 := rfl

theorem exists_queued_iff_accepts (k : Keys) (clientID : Text) (pub : Publish)
    (msg : OfflineMessage)
    (now : ℤ) :
    (∃ packetID, (k.queueOfflineInflight clientID
      { publishID := pub.publishID, msg := msg } now).2 =
      .queued packetID) ↔ k.Accepts pub.publishID :=
  Cluster.exists_queued_iff rfl

/-- The calls that returned with a queued message. -/
def queuedCalls (outcomes : List (Text × Phase)) : List (Text × Phase) :=
  outcomes.filter (·.2.isQueued)

theorem queuedCalls_of_not_accepts {t : ClientSession} (h : ¬ t.keys.Accepts pub.publishID)
    {es : List ClusterEvent} (hes : ∀ e ∈ es, IsCall pub clientID e) :
    queuedCalls (StepMachine.trace (ClientSession.step cfg) Cluster.clientOutcome t es) = [] := by
  induction es generalizing t with
  | nil => rfl
  | cons e es ih =>
    obtain ⟨now, msg, rfl⟩ := hes _ List.mem_cons_self
    have hrest : ∀ e ∈ es, IsCall pub clientID e := fun e he => hes e (List.mem_cons_of_mem _ he)
    rcases t.keys.queueOfflineInflight_cases clientID { publishID := pub.publishID, msg := msg } now
      with ⟨hsame, hno⟩ | ⟨schema, next, -, -, -, hcommit⟩
    · have hnext : ¬ (t.step cfg (queueEvent pub now (clientID, msg))).keys.Accepts
          pub.publishID := by
        rw [keys_step_queueEvent cfg, hsame]
        exact h
      rw [StepMachine.trace, queuedCalls, List.filter_append]
      refine List.append_eq_nil_iff.2 ⟨?_, ih hnext hrest⟩
      simp [Cluster.clientOutcome, queueEvent, hno]
    · exact absurd ((exists_queued_iff_accepts t.keys clientID pub msg now).1
        ⟨_, congrArg Prod.snd hcommit⟩) h

theorem length_queuedCalls_of_accepts {t : ClientSession} (h : t.keys.Accepts pub.publishID)
    (hid : pub.publishID ≠ UUID.nil) {es : List ClusterEvent} (hne : es ≠ [])
    (hes : ∀ e ∈ es, IsCall pub clientID e) :
    (queuedCalls (StepMachine.trace (ClientSession.step cfg) Cluster.clientOutcome t es)).length =
      1 := by
  obtain ⟨e, es, rfl⟩ := List.exists_cons_of_ne_nil hne
  obtain ⟨now, msg, rfl⟩ := hes _ List.mem_cons_self
  rcases t.keys.queueOfflineInflight_cases clientID { publishID := pub.publishID, msg := msg } now
    with ⟨-, hno⟩ | ⟨schema, next, -, -, -, hcommit⟩
  · obtain ⟨packetID, hqueued⟩ := (exists_queued_iff_accepts t.keys clientID pub msg now).2 h
    rw [hqueued] at hno
    cases hno
  · have hnext : ¬ (t.step cfg (queueEvent pub now (clientID, msg))).keys.Accepts
        pub.publishID := by
      rw [keys_step_queueEvent cfg, hcommit]
      exact Keys.not_accepts_commit hid
    have hrest := queuedCalls_of_not_accepts cfg hnext
      fun e he => hes e (List.mem_cons_of_mem _ he)
    have hfirst : Cluster.clientOutcome t (queueEvent pub now (clientID, msg)) =
        some (clientID, .queued (packetIDOf next)) :=
      congrArg (fun q : Keys × Phase => some (clientID, q.2)) hcommit
    rw [StepMachine.trace, queuedCalls, List.filter_append, ← queuedCalls, ← queuedCalls, hrest,
      hfirst]
    rfl

end Repeated

/-- How the calls of the queue for a client returned that queued a message. -/
def copies (clientID : Text) (log : List Entry) : List (Text × Phase) :=
  queuedCalls ((log.filterMap Entry.outcome).filter (·.1 = clientID))

private theorem exists_event_iff (log : List Entry) (c : Text) :
    (∃ e ∈ log.filterMap Entry.event, e.clientID = c) ↔
      ∃ call ∈ log.flatMap Entry.calls, call.1 = c := by
  simp only [List.mem_filterMap, List.mem_flatMap]
  constructor
  · rintro ⟨e, ⟨o, ho, he⟩, hc⟩
    cases o with
    | attempt nodeID clientID => cases he
    | call pub now call phase =>
      cases he
      exact ⟨call, ⟨_, ho, List.mem_singleton_self _⟩, hc⟩
  · rintro ⟨call, ⟨o, ho, hcall⟩, hc⟩
    cases o with
    | attempt nodeID clientID => cases hcall
    | call pub now call' phase =>
      obtain rfl := List.mem_singleton.1 hcall
      exact ⟨_, ⟨_, ho, rfl⟩, hc⟩

namespace Net

variable {net : Net} {self clientID : Text} {redis : Cluster} {pk : PublishPacket} {input : Input}
  (cfg : ClusterConfig) (hinline : net.NoInline self) (hadmits : net.Admits self clientID input)
  {es : List (ℕ × Input)}

include hinline hadmits

theorem isCall_of_mem_events (redis : Cluster) (pk : PublishPacket) (es : List (ℕ × Input))
    (c : Text) :
    ∀ e ∈ ((net.run cfg redis self clientID pk input es).log.filterMap Entry.event).filter
        (·.clientID = c), IsCall (pk.publish input.publishID) c e := by
  intro e he
  obtain ⟨hmem, hc⟩ := List.mem_filter.1 he
  obtain ⟨o, ho, hoe⟩ := List.mem_filterMap.1 hmem
  obtain ⟨now, ⟨c', msg⟩, -, rfl⟩ := event_of_mem_log cfg hinline hadmits es ho hoe
  obtain rfl : c' = c := of_decide_eq_true hc
  exact ⟨now, msg, rfl⟩

theorem events_ne_nil_iff (c : Text)
    (hdone : (net.run cfg redis self clientID pk input es).tasks = []) :
    ((net.run cfg redis self clientID pk input es).log.filterMap Entry.event).filter
        (·.clientID = c) ≠ [] ↔
      ∃ nodeID ∈ net.reached self pk.topic.text,
        redis.Eligible (net.caches nodeID).toRouteTables nodeID (pk.publish input.publishID) c := by
  have hcalls : (∃ call ∈ (net.run cfg redis self clientID pk input es).log.flatMap Entry.calls,
        call.1 = c) ↔
      ∃ nodeID ∈ net.reached self pk.topic.text,
        redis.Eligible (net.caches nodeID).toRouteTables nodeID (pk.publish input.publishID) c := by
    simp only [(perm_calls cfg hinline hadmits hdone).mem_iff, List.mem_flatMap,
      Cluster.mem_offlineCalls]
    constructor
    · rintro ⟨call, ⟨nodeID, hreached, helig, -⟩, rfl⟩
      exact ⟨nodeID, hreached, helig⟩
    · rintro ⟨nodeID, hreached, helig⟩
      exact ⟨(c, redis.offlineMessage (net.caches nodeID).toRouteTables nodeID
        (pk.publish input.publishID) c), ⟨nodeID, hreached, helig, rfl⟩, rfl⟩
  rw [← hcalls, ← exists_event_iff, ne_eq, List.filter_eq_nil_iff]
  simp only [decide_eq_true_eq, not_forall, not_not, exists_prop]

theorem copies_eq_nil (c : Text) (hdone : (net.run cfg redis self clientID pk input es).tasks = [])
    (h : ¬ (redis.Accepts input.publishID c ∧ ∃ nodeID ∈ net.reached self pk.topic.text,
      redis.Eligible (net.caches nodeID).toRouteTables nodeID (pk.publish input.publishID) c)) :
    copies c (net.run cfg redis self clientID pk input es).log = [] := by
  have hcall := isCall_of_mem_events cfg hinline hadmits redis pk es c
  rw [copies, (replays_run cfg hinline hadmits es).2, Cluster.filter_trace_queueOutcome]
  by_cases hacc : redis.Accepts input.publishID c
  · have hnil := mt (events_ne_nil_iff cfg hinline hadmits c hdone).1 fun hex => h ⟨hacc, hex⟩
    rw [not_not.1 hnil]
    rfl
  · have hfull : ¬ (redis.session c).keys.Accepts (pk.publish input.publishID).publishID := hacc
    exact queuedCalls_of_not_accepts cfg hfull hcall

/-- Otherwise it gets one copy. -/
theorem length_copies (hid : input.publishID ≠ UUID.nil) (c : Text)
    (hdone : (net.run cfg redis self clientID pk input es).tasks = [])
    (hacc : redis.Accepts input.publishID c) (h : ∃ nodeID ∈ net.reached self pk.topic.text,
      redis.Eligible (net.caches nodeID).toRouteTables nodeID (pk.publish input.publishID) c) :
    (copies c (net.run cfg redis self clientID pk input es).log).length = 1 := by
  have hcall := isCall_of_mem_events cfg hinline hadmits redis pk es c
  rw [copies, (replays_run cfg hinline hadmits es).2, Cluster.filter_trace_queueOutcome]
  have hfree : (redis.session c).keys.Accepts (pk.publish input.publishID).publishID := hacc
  exact length_queuedCalls_of_accepts cfg hfree hid
    ((events_ne_nil_iff cfg hinline hadmits c hdone).2 h) hcall

end Net

/-! ### The state of a cluster -/

/-- The cluster between two publishes. -/
structure ClusterState extends Net where
  redis : Cluster
  store : List Text
  persistent : Text → Bool

namespace ClusterState

variable (s : ClusterState)

/-- The store has a route. -/
def HasRoute (filter nodeID : Text) : Prop :=
  ∃ key ∈ s.store, parseRouteKey key = some (filter, nodeID)

/-- The store has an ownership entry for a filter of the client. -/
def Owns (nodeID clientID filter : Text) : Prop :=
  ∃ key, s.HasRoute key nodeID ∧ ownershipKeyParts key = some (clientID, filter)

/-- The client has an ordinary subscription on the node. -/
def Subscribes (nodeID clientID filter : Text) : Prop :=
  (levels filter, clientID) ∈ (s.indexes nodeID).subscriptions

/-- The client is connected nowhere. -/
def Offline (clientID : Text) : Prop := ∀ nodeID, s.connected nodeID clientID = false

/-- The subscriptions that Redis holds for the client. -/
def stored (clientID : Text) : List OfflineSubscription :=
  (s.redis.offlineSession clientID).subscriptions

/-- Every cache equals the store, and every persistent session is live or offline as it should. -/
structure Converged : Prop where
  cache : ∀ self filter nodeID,
    (s.caches self).HasRoute filter nodeID ↔ s.HasRoute filter nodeID
  /-- A live session is live on one node. -/
  once : ∀ clientID n m, s.persistent clientID = true → s.connected n clientID = true →
    s.connected m clientID = true → n = m
  /-- Its filters are live routes of this node. -/
  registered : ∀ clientID nodeID filter, s.persistent clientID = true →
    s.connected nodeID clientID = true → s.Subscribes nodeID clientID filter →
    s.HasRoute filter nodeID
  /-- Ownership entries are for offline sessions only. -/
  disowned : ∀ nodeID clientID filter, s.Owns nodeID clientID filter →
    s.persistent clientID = true ∧ s.Offline clientID
  /-- For every filter of an offline session one node has the ownership entry, and an offline
  route. -/
  owned : ∀ clientID, s.persistent clientID = true → s.Offline clientID →
    ∀ sub ∈ s.stored clientID, ∃ owner,
      (∀ nodeID, s.Owns nodeID clientID sub.filter ↔ nodeID = owner) ∧
        s.HasRoute (offlineRouteKey sub.filter) owner

/-- There are no shared subscriptions. -/
structure NoShared : Prop where
  route : ∀ filter nodeID, s.HasRoute filter nodeID → isSharedFilter filter = false
  owned : ∀ nodeID clientID filter, s.Owns nodeID clientID filter → sharedFilter filter = none
  stored : ∀ clientID, ∀ sub ∈ s.stored clientID, sharedFilter sub.filter = none
  index : ∀ nodeID key, key ∉ (s.indexes nodeID).shared

variable (pk : PublishPacket)

/-- A subscription of the client on the node matches the topic. -/
def Matches (nodeID clientID : Text) : Prop :=
  ∃ filter, s.Subscribes nodeID clientID filter ∧ matchTopic filter pk.topic.text = true

/-- The best QoS of the publish over the matching filters that Redis holds is above zero. -/
def Wants (clientID : Text) : Prop :=
  ∃ sub ∈ s.stored clientID, matchTopic sub.filter pk.topic.text = true ∧ 1 ≤ min pk.qos sub.qos

/-- What the nodes together have to have done for a publish: one attempt for every live session that
matches, one copy for every offline session that wants it, and nothing else. -/
structure Delivers (log : List Entry) : Prop where
  attempt : ∀ clientID nodeID, s.persistent clientID = true →
    s.connected nodeID clientID = true → s.Matches pk nodeID clientID →
    (log.flatMap Entry.attempts).filter (·.2 = clientID) = [(nodeID, clientID)]
  noAttempt : ∀ clientID, s.persistent clientID = true →
    (∀ nodeID, s.connected nodeID clientID = true → ¬ s.Matches pk nodeID clientID) →
    (log.flatMap Entry.attempts).filter (·.2 = clientID) = []
  copy : ∀ clientID, s.persistent clientID = true → s.Offline clientID → s.Wants pk clientID →
    (copies clientID log).length = 1
  noCopy : ∀ clientID, ¬ (s.persistent clientID = true ∧ s.Offline clientID ∧
    s.Wants pk clientID) → copies clientID log = []

/-- The node is the one of the publisher, or one of its routes is found by the index. -/
def Sees (self topic nodeID : Text) : Prop :=
  nodeID = self ∨ ∃ filter, s.HasRoute filter nodeID ∧
    (IndexMatch filter topic ∨ IndexMatch filter (offlineRouteKey topic))

/-- The index finds a filter of every live session that the matcher accepts, and leads to a node
that owns a matching filter of every offline session that wants the publish, for which the queue
has room. -/
structure Covered (origin : Text) (publishID : UUID) : Prop where
  live : ∀ clientID nodeID, s.persistent clientID = true → s.connected nodeID clientID = true →
    s.Matches pk nodeID clientID →
    ∃ filter, s.Subscribes nodeID clientID filter ∧ IndexMatch filter pk.topic.text
  offline : ∀ clientID, s.persistent clientID = true → s.Offline clientID → s.Wants pk clientID →
    s.redis.Accepts publishID clientID ∧ ∃ nodeID filter, s.Owns nodeID clientID filter ∧
      matchTopic filter pk.topic.text = true ∧ s.Sees origin pk.topic.text nodeID

/-! ### What the nodes do -/

variable {s pk} {self clientID : Text} {input : Input}

theorem Converged.plain (h : s.Converged) (hplain : s.NoShared) (nodeID : Text) :
    (s.caches nodeID).Plain := by
  intro filter n hroute
  rw [h.cache] at hroute
  refine ⟨hplain.route filter n hroute, ?_⟩
  cases hparts : ownershipKeyParts filter with
  | none => rw [RouteTables.sharedOwnership, hparts, Option.bind_none]
  | some parts =>
    obtain ⟨c, f⟩ := parts
    have howns : s.Owns n c f := ⟨filter, hroute, hparts⟩
    simp [RouteTables.sharedOwnership, hparts, hplain.owned n c f howns]

variable {nodeID c : Text} {publishID : UUID}

theorem Converged.mem_reached (h : s.Converged) (hplain : s.NoShared) {topic : Text}
    (ht : topic ≠ []) : nodeID ∈ s.toNet.reached self topic ↔ s.Sees self topic nodeID := by
  rw [Net.reached, List.mem_cons, Router.mem_forwardTargets_of_plain (h.plain hplain self) ht, Sees]
  simp only [h.cache]
  by_cases hself : nodeID = self <;> simp [hself]

theorem Converged.eligible_iff (h : s.Converged) (hplain : s.NoShared) :
    s.redis.Eligible (s.caches nodeID).toRouteTables nodeID (pk.publish publishID) c ↔
      (∃ filter, s.Owns nodeID c filter ∧ matchTopic filter pk.topic.text = true) ∧
        s.Wants pk c := by
  have hcandidate : c ∈ ((s.caches nodeID).offlineDeliveryCandidates pk.topic.text nodeID).1 ↔
      ∃ filter, s.Owns nodeID c filter ∧ matchTopic filter pk.topic.text = true := by
    rw [Router.mem_offlineDeliveryCandidates_of_plain (h.plain hplain nodeID) pk.topic.ne_nil]
    simp only [h.cache]
    constructor
    · rintro ⟨key, filter, hroute, hparts, hmatch⟩
      exact ⟨filter, ⟨key, hroute, hparts⟩, hmatch⟩
    · rintro ⟨filter, ⟨key, hroute, hparts⟩, hmatch⟩
      exact ⟨key, filter, hroute, hparts, hmatch⟩
  refine and_congr hcandidate ?_
  refine exists_congr fun sub => and_congr_right fun hsub => and_congr_left fun _ => ?_
  exact covers_iff_of_sharedFilter_eq_none (hplain.stored c sub hsub)

theorem Converged.exists_eligible_iff (h : s.Converged) (hplain : s.NoShared) :
    (∃ nodeID ∈ s.toNet.reached self pk.topic.text,
        s.redis.Eligible (s.caches nodeID).toRouteTables nodeID (pk.publish publishID) c) ↔
      s.Wants pk c ∧ ∃ nodeID filter, s.Owns nodeID c filter ∧
        matchTopic filter pk.topic.text = true ∧ s.Sees self pk.topic.text nodeID := by
  simp only [h.mem_reached hplain pk.topic.ne_nil, h.eligible_iff hplain]
  constructor
  · rintro ⟨nodeID, hsees, ⟨filter, howns, hmatch⟩, hwants⟩
    exact ⟨hwants, nodeID, filter, howns, hmatch, hsees⟩
  · rintro ⟨hwants, nodeID, filter, howns, hmatch, hsees⟩
    exact ⟨nodeID, hsees, ⟨filter, howns, hmatch⟩, hwants⟩

theorem matches_of_indexMatch {filter : Text} (hsub : s.Subscribes nodeID c filter)
    (hmatch : IndexMatch filter pk.topic.text) : s.Matches pk nodeID c :=
  ⟨filter, hsub, (matchTopic_iff pk.topic).2 (Or.inl hmatch)⟩

theorem Converged.exists_attempted_iff (h : s.Converged) (hplain : s.NoShared)
    (hpersistent : s.persistent c = true) :
    (nodeID ∈ s.toNet.reached self pk.topic.text ∧
        c ∈ s.toNet.attempted nodeID pk.topic.text none) ↔
      s.connected nodeID c = true ∧
        ∃ filter, s.Subscribes nodeID c filter ∧ IndexMatch filter pk.topic.text := by
  rw [Net.mem_attempted pk.topic.ne_nil]
  refine ⟨And.right, fun hattempted => ⟨?_, hattempted⟩⟩
  obtain ⟨hopen, filter, hsub, hmatch⟩ := hattempted
  rw [h.mem_reached hplain pk.topic.ne_nil]
  exact Or.inr ⟨filter, h.registered c nodeID filter hpersistent hopen hsub, Or.inl hmatch⟩

theorem filter_snd_eq_singleton {l : List (Text × Text)} (h : l.Nodup) {n : Text}
    (hmem : (n, c) ∈ l) (honly : ∀ m, (m, c) ∈ l → m = n) : l.filter (·.2 = c) = [(n, c)] := by
  have hall : ∀ p ∈ l.filter (·.2 = c), p = (n, c) := by
    rintro ⟨m, c'⟩ hp
    obtain ⟨hl, hc⟩ := List.mem_filter.1 hp
    obtain rfl : c' = c := of_decide_eq_true hc
    rw [honly m hl]
  have hlen : (l.filter (·.2 = c)).length ≤ 1 := by
    have hnodup := h.filter (·.2 = c)
    rw [List.eq_replicate_of_mem hall] at hnodup
    exact List.nodup_replicate.1 hnodup
  have hpos : (n, c) ∈ l.filter (·.2 = c) := List.mem_filter.2 ⟨hmem, by simp⟩
  obtain ⟨p, hp⟩ := List.length_eq_one_iff.1 (le_antisymm hlen (List.length_pos_of_mem hpos))
  rw [hp, List.mem_singleton] at hpos
  rw [hp, ← hpos]

section Main

variable (cfg : ClusterConfig) (hs : s.Converged) (hplain : s.NoShared)
  (hinline : s.toNet.NoInline self) (hadmits : s.toNet.Admits self clientID input)
  (hid : input.publishID ≠ UUID.nil) {es : List (ℕ × Input)}

include hs hplain hinline hadmits

theorem Converged.mem_attempts_iff
    (hdone : (s.toNet.run cfg s.redis self clientID pk input es).tasks = []) {nodeID c : Text}
    (hpersistent : s.persistent c = true) :
    (nodeID, c) ∈ (s.toNet.run cfg s.redis self clientID pk input es).log.flatMap Entry.attempts ↔
      s.connected nodeID c = true ∧
        ∃ filter, s.Subscribes nodeID c filter ∧ IndexMatch filter pk.topic.text := by
  rw [Net.mem_attempts cfg hinline hadmits hdone, hs.exists_attempted_iff hplain hpersistent]

include hid

theorem Converged.delivers_of_covered
    (hdone : (s.toNet.run cfg s.redis self clientID pk input es).tasks = [])
    (hc : s.Covered pk self input.publishID) :
    s.Delivers pk (s.toNet.run cfg s.redis self clientID pk input es).log where
  attempt c nodeID hpersistent hopen hmatches := by
    have hmem := (hs.mem_attempts_iff cfg hplain hinline hadmits hdone hpersistent).2
      ⟨hopen, hc.live c nodeID hpersistent hopen hmatches⟩
    refine filter_snd_eq_singleton (Net.nodup_attempts cfg hinline hadmits hdone) hmem
      fun m hm => ?_
    have hopen' := ((hs.mem_attempts_iff cfg hplain hinline hadmits hdone hpersistent).1 hm).1
    exact hs.once c m nodeID hpersistent hopen' hopen
  noAttempt c hpersistent hno := by
    refine List.filter_eq_nil_iff.2 ?_
    rintro ⟨nodeID, c'⟩ hmem hc'
    obtain rfl : c' = c := of_decide_eq_true hc'
    obtain ⟨hopen, filter, hsub, hmatch⟩ :=
      (hs.mem_attempts_iff cfg hplain hinline hadmits hdone hpersistent).1 hmem
    exact hno nodeID hopen (matches_of_indexMatch hsub hmatch)
  copy c hpersistent hoffline hwants := by
    obtain ⟨hacc, hfound⟩ := hc.offline c hpersistent hoffline hwants
    exact Net.length_copies cfg hinline hadmits hid c hdone hacc
      ((hs.exists_eligible_iff hplain).2 ⟨hwants, hfound⟩)
  noCopy c hno := by
    refine Net.copies_eq_nil cfg hinline hadmits c hdone fun hqueues => hno ?_
    obtain ⟨hwants, nodeID, filter, howns, -⟩ := (hs.exists_eligible_iff hplain).1 hqueues.2
    obtain ⟨hpersistent, hoffline⟩ := hs.disowned nodeID c filter howns
    exact ⟨hpersistent, hoffline, hwants⟩

omit hid in
theorem Converged.covered_of_delivers
    (hdone : (s.toNet.run cfg s.redis self clientID pk input es).tasks = [])
    (hd : s.Delivers pk (s.toNet.run cfg s.redis self clientID pk input es).log) :
    s.Covered pk self input.publishID where
  live c nodeID hpersistent hopen hmatches := by
    have hone := hd.attempt c nodeID hpersistent hopen hmatches
    have hmem := List.mem_of_mem_filter (hone ▸ List.mem_singleton_self (nodeID, c))
    exact ((hs.mem_attempts_iff cfg hplain hinline hadmits hdone hpersistent).1 hmem).2
  offline c hpersistent hoffline hwants := by
    have hone := hd.copy c hpersistent hoffline hwants
    by_contra hmissed
    rw [Net.copies_eq_nil cfg hinline hadmits c hdone fun ⟨hacc, heligible⟩ =>
      hmissed ⟨hacc, ((hs.exists_eligible_iff hplain).1 heligible).2⟩] at hone
    cases hone

/-- In a converged cluster without shared subscriptions the work for a publish comes to an end, and
in whatever order the nodes work, the publish is delivered exactly if its topic is covered. -/
theorem delivers_iff_covered :
    (∃ es, (s.toNet.run cfg s.redis self clientID pk input es).tasks = []) ∧
    ∀ es, (s.toNet.run cfg s.redis self clientID pk input es).tasks = [] →
      (s.Delivers pk (s.toNet.run cfg s.redis self clientID pk input es).log ↔
        s.Covered pk self input.publishID) := by
  refine ⟨Net.exists_done cfg hinline hadmits, fun es hdone => ⟨fun hd => ?_, fun hc => ?_⟩⟩
  · exact hs.covered_of_delivers cfg hplain hinline hadmits hdone hd
  · exact hs.delivers_of_covered cfg hplain hinline hadmits hid hdone hc

end Main

/-! ### Filters that the index finds -/

theorem Converged.covered_of_not_parentMatch (hs : s.Converged) (self : Text)
    (hlive : ∀ nodeID c filter, s.Subscribes nodeID c filter → ¬ ParentMatch filter pk.topic.text)
    (hstored : ∀ c, ∀ sub ∈ s.stored c, ¬ ParentMatch sub.filter pk.topic.text)
    (hroom : ∀ c, s.persistent c = true → s.Offline c → s.Wants pk c →
      s.redis.Accepts publishID c) : s.Covered pk self publishID where
  live c nodeID hpersistent hopen hmatches := by
    obtain ⟨filter, hsub, hmatch⟩ := hmatches
    exact ⟨filter, hsub, (indexMatch_iff_not_parentMatch hmatch).2 (hlive nodeID c filter hsub)⟩
  offline c hpersistent hoffline hwants := by
    refine ⟨hroom c hpersistent hoffline hwants, ?_⟩
    obtain ⟨sub, hsub, hmatch, -⟩ := hwants
    obtain ⟨owner, howner, hroute⟩ := hs.owned c hpersistent hoffline sub hsub
    have hfound := (indexMatch_iff_not_parentMatch hmatch).2 (hstored c sub hsub)
    exact ⟨owner, sub.filter, (howner owner).2 rfl, hmatch,
      Or.inr ⟨_, hroute, Or.inr (indexMatch_offlineRouteKey hfound)⟩⟩

/-! ### Two sessions with one filter -/

/-- The row of a subscription at QoS 1. -/
def row (clientID filter : Text) : StoredSubscription where
  client := clientID
  filter := filter
  qos := 1
  identifier := 0
  noLocal := false
  retainHandling := 0
  retainAsPublished := false

/-- Node `B` has a live client `c` and owns an offline client `d`, both with the filter. A client
`p` is connected to node `A`. -/
def pair (filter : Text) : ClusterState where
  hooks nodeID :=
    if nodeID = ['A'] then
      { clients := AList.singleton ['p'] ⟨Cluster.device 1, .password, []⟩ } else {}
  caches _ := .reconcile
    [routeKey filter ['B'], routeKey (ownershipKey ['d'] filter) ['B'],
      routeKey (offlineRouteKey filter) ['B']]
  indexes nodeID :=
    if nodeID = ['B'] then TopicsIndex.empty.subscribe ['c'] { filter := filter, qos := 1 }
    else .empty
  connected nodeID clientID :=
    (nodeID = ['A'] && clientID = ['p']) || (nodeID = ['B'] && clientID = ['c'])
  redis := { Cluster.fresh with
    sub := fun key =>
      if key = redisSubKey ['c'] then AList.singleton filter (row ['c'] filter)
      else if key = redisSubKey ['d'] then AList.singleton filter (row ['d'] filter)
      else ∅ }
  store := [routeKey filter ['B'], routeKey (ownershipKey ['d'] filter) ['B'],
    routeKey (offlineRouteKey filter) ['B']]
  persistent clientID := clientID = ['c'] || clientID = ['d']

/-- A filter of the pair: neither shared nor spelled like an ownership key. -/
structure PairFilter (filter : Text) : Prop where
  ne_nil : filter ≠ []
  plain : isSharedFilter filter = false
  noKey : ownershipKeyParts filter = none

section Pair

variable {filter : Text} {nodeID c : Text}

theorem hasRoute_pair {key : Text} :
    (pair filter).HasRoute key nodeID ↔ nodeID = ['B'] ∧
      (key = filter ∨ key = ownershipKey ['d'] filter ∨ key = offlineRouteKey filter) := by
  have hsep : keySep ∉ ['B'] := by decide
  simp only [HasRoute, pair, List.mem_cons, List.not_mem_nil, or_false, exists_eq_or_imp,
    exists_eq_left, parseRouteKey_routeKey hsep, Option.some.injEq, Prod.mk.injEq]
  constructor
  · rintro (⟨rfl, rfl⟩ | ⟨rfl, rfl⟩ | ⟨rfl, rfl⟩)
    · exact ⟨rfl, Or.inl rfl⟩
    · exact ⟨rfl, Or.inr (Or.inl rfl)⟩
    · exact ⟨rfl, Or.inr (Or.inr rfl)⟩
  · rintro ⟨rfl, rfl | rfl | rfl⟩
    · exact Or.inl ⟨rfl, rfl⟩
    · exact Or.inr (Or.inl ⟨rfl, rfl⟩)
    · exact Or.inr (Or.inr ⟨rfl, rfl⟩)

theorem ownershipKeyParts_offlineRouteKey (filter : Text) :
    ownershipKeyParts (offlineRouteKey filter) = none := rfl

theorem owns_pair (h : PairFilter filter) {f : Text} :
    (pair filter).Owns nodeID c f ↔ nodeID = ['B'] ∧ c = ['d'] ∧ f = filter := by
  have hparts : ownershipKeyParts (ownershipKey ['d'] filter) = some (['d'], filter) :=
    ownershipKeyParts_ownershipKey (by decide) h.ne_nil
  simp only [Owns, hasRoute_pair]
  constructor
  · rintro ⟨key, ⟨rfl, rfl | rfl | rfl⟩, hkey⟩
    · rw [h.noKey] at hkey
      cases hkey
    · rw [hparts] at hkey
      cases hkey
      exact ⟨rfl, rfl, rfl⟩
    · rw [ownershipKeyParts_offlineRouteKey] at hkey
      cases hkey
  · rintro ⟨rfl, rfl, rfl⟩
    exact ⟨_, ⟨rfl, Or.inr (Or.inl rfl)⟩, hparts⟩

theorem subscribes_pair (h : PairFilter filter) {f : Text} :
    (pair filter).Subscribes nodeID c f ↔ nodeID = ['B'] ∧ c = ['c'] ∧ f = filter := by
  unfold Subscribes pair
  dsimp only
  split_ifs with hn
  · rw [TopicsIndex.mem_subscriptions_subscribe, filterPath_of_isSharedFilter_eq_false h.plain]
    simp [TopicsIndex.empty, h.plain, hn, levels_injective.eq_iff, and_comm]
  · simp [TopicsIndex.empty, hn]

theorem offline_pair (hpersistent : (pair filter).persistent c = true) :
    (pair filter).Offline c ↔ c = ['d'] := by
  have hc : c = ['c'] ∨ c = ['d'] := by simpa [pair] using hpersistent
  rcases hc with rfl | rfl
  · refine iff_of_false (fun hoffline => ?_) (by decide)
    have hopen : (pair filter).connected ['B'] ['c'] = true := rfl
    rw [hoffline ['B']] at hopen
    cases hopen
  · exact iff_of_true (fun nodeID => by simp [pair]) rfl

theorem connected_pair (hpersistent : (pair filter).persistent c = true)
    (hopen : (pair filter).connected nodeID c = true) : nodeID = ['B'] ∧ c = ['c'] := by
  have hc : c = ['c'] ∨ c = ['d'] := by simpa [pair] using hpersistent
  rcases hc with rfl | rfl
  · exact ⟨by simpa [pair] using hopen, rfl⟩
  · simp [pair] at hopen

theorem stored_pair {sub : OfflineSubscription} (hsub : sub ∈ (pair filter).stored c) :
    sub = ⟨filter, 1⟩ := by
  have hrows : (pair filter).redis.sub (redisSubKey c) = AList.singleton filter (row ['c'] filter) ∨
      (pair filter).redis.sub (redisSubKey c) = AList.singleton filter (row ['d'] filter) ∨
      (pair filter).redis.sub (redisSubKey c) = ∅ := by
    unfold pair
    dsimp only
    split_ifs
    · exact Or.inl rfl
    · exact Or.inr (Or.inl rfl)
    · exact Or.inr (Or.inr rfl)
  obtain ⟨r, hr, hsome⟩ := List.mem_filterMap.1 hsub
  split_ifs at hsome with hclient
  cases hsome
  rcases hrows with h | h | h <;> rw [h] at hr
  · rw [List.mem_singleton.1 hr]
    rfl
  · rw [List.mem_singleton.1 hr]
    rfl
  · cases hr

theorem mem_stored_pair (filter : Text) : ⟨filter, 1⟩ ∈ (pair filter).stored ['d'] := by
  have hne : redisSubKey ['d'] ≠ redisSubKey ['c'] := by decide
  have hrows : (pair filter).redis.sub (redisSubKey ['d']) =
      AList.singleton filter (row ['d'] filter) := by
    simp only [pair, if_neg hne, if_true]
  refine List.mem_filterMap.2 ⟨row ['d'] filter, ?_, rfl⟩
  exact List.mem_singleton_self _

theorem converged_pair (h : PairFilter filter) : (pair filter).Converged where
  cache self key nodeID := RouteTables.hasRoute_reconcile _ _ _
  once c n m hpersistent hn hm :=
    (connected_pair hpersistent hn).1.trans (connected_pair hpersistent hm).1.symm
  registered c nodeID f hpersistent hopen hsub := by
    obtain ⟨rfl, -, rfl⟩ := (subscribes_pair h).1 hsub
    exact hasRoute_pair.2 ⟨rfl, Or.inl rfl⟩
  disowned nodeID c f howns := by
    obtain ⟨-, rfl, -⟩ := (owns_pair h).1 howns
    have hpersistent : (pair filter).persistent ['d'] = true := rfl
    exact ⟨hpersistent, (offline_pair hpersistent).2 rfl⟩
  owned c hpersistent hoffline sub hsub := by
    obtain rfl := (offline_pair hpersistent).1 hoffline
    rw [stored_pair hsub]
    refine ⟨['B'], fun nodeID => ?_, hasRoute_pair.2 ⟨rfl, Or.inr (Or.inr rfl)⟩⟩
    rw [owns_pair h]
    exact and_iff_left ⟨rfl, rfl⟩

theorem PairFilter.sharedFilter_eq_none (h : PairFilter filter) : sharedFilter filter = none := by
  refine Option.eq_none_iff_forall_ne_some.2 fun ⟨group, underlying⟩ hshared => ?_
  have hplain := h.plain
  rw [isSharedFilter_of_sharedFilter hshared] at hplain
  cases hplain

theorem noShared_pair (h : PairFilter filter) : (pair filter).NoShared where
  route key nodeID hroute := by
    rcases (hasRoute_pair.1 hroute).2 with rfl | rfl | rfl
    · exact h.plain
    · rw [isSharedFilter_of_levels (levels_ownershipKey _ _)]
      decide
    · rw [isSharedFilter_of_levels (levels_offlineRouteKey _)]
      decide
  owned nodeID c f howns := by
    obtain ⟨-, -, rfl⟩ := (owns_pair h).1 howns
    exact h.sharedFilter_eq_none
  stored c sub hsub := by
    rw [stored_pair hsub]
    exact h.sharedFilter_eq_none
  index nodeID key hmem := by
    obtain ⟨sub, hsub⟩ := GoMap.mem_iff_exists_lookup.1 hmem
    unfold pair at hsub
    dsimp only at hsub
    split_ifs at hsub
    · rw [TopicsIndex.lookup_shared_subscribe, if_neg (by simp [h.plain])] at hsub
      cases hsub
    · cases hsub

theorem noInline_pair (filter : Text) : (pair filter).toNet.NoInline ['A'] := by
  intro nodeID hne
  simp only [pair, if_neg hne]
  rfl

theorem admits_pair (filter : Text) (publishID : UUID) :
    (pair filter).toNet.Admits ['A'] ['p'] { publishID := publishID } :=
  ⟨_, rfl, fun _ => rfl⟩

end Pair

/-- A publish on `a/b` at QoS 1. -/
def publishAB : PublishPacket where
  topic := ⟨"a/b".toList, by decide, by decide⟩
  payload := [1]
  qos := 1

/-- The filter `a/+/#` covers `a/b`, but the publisher finds neither of the two sessions. -/
theorem not_delivers_parent :
    let s := pair "a/+/#".toList
    let input : Input := { publishID := (Cluster.device 1).id }
    (s.Converged ∧ s.NoShared ∧ s.toNet.NoInline ['A'] ∧ s.toNet.Admits ['A'] ['p'] input) ∧
      s.Matches publishAB ['B'] ['c'] ∧ s.Wants publishAB ['d'] ∧
      (s.toNet.start s.redis ['A'] ['p'] publishAB input).tasks = [] ∧
      ¬ s.Delivers publishAB (s.toNet.start s.redis ['A'] ['p'] publishAB input).log := by
  intro s input
  have hfilter : PairFilter "a/+/#".toList := ⟨by decide, by decide, by decide⟩
  have hmatches : s.Matches publishAB ['B'] ['c'] :=
    ⟨_, (subscribes_pair hfilter).2 ⟨rfl, rfl, rfl⟩, by decide⟩
  have hattempts : (s.toNet.start s.redis ['A'] ['p'] publishAB input).log.flatMap
      Entry.attempts = [] := by
    decide +kernel
  refine ⟨⟨converged_pair hfilter, noShared_pair hfilter, noInline_pair _, admits_pair _ _⟩,
    hmatches, ⟨_, mem_stored_pair _, by decide, by decide⟩, ?_, fun hd => ?_⟩
  · exact List.length_eq_zero_iff.1 (by decide +kernel)
  · have hone := hd.attempt ['c'] ['B'] rfl rfl hmatches
    cases hone

/-- With the filter `a/+` both sessions get the publish, in whatever order the nodes work. -/
theorem delivers_single :
    let s := pair "a/+".toList
    let input : Input := { publishID := (Cluster.device 1).id }
    (s.Matches publishAB ['B'] ['c'] ∧ s.Wants publishAB ['d']) ∧
      (∃ es, (s.toNet.run Cluster.schema2 s.redis ['A'] ['p'] publishAB input es).tasks = []) ∧
      ∀ es, (s.toNet.run Cluster.schema2 s.redis ['A'] ['p'] publishAB input es).tasks = [] →
        s.Delivers publishAB
          (s.toNet.run Cluster.schema2 s.redis ['A'] ['p'] publishAB input es).log := by
  intro s input
  have hfilter : PairFilter "a/+".toList := ⟨by decide, by decide, by decide⟩
  have hfound : ¬ ParentMatch "a/+".toList publishAB.topic.text :=
    not_parentMatch_of_indexMatch (by decide)
  have hcovered : s.Covered publishAB ['A'] input.publishID := by
    refine (converged_pair hfilter).covered_of_not_parentMatch ['A'] (fun nodeID c f hsub => ?_)
      (fun c sub hsub => ?_) fun c hpersistent hoffline _ => ?_
    · obtain ⟨-, -, rfl⟩ := (subscribes_pair hfilter).1 hsub
      exact hfound
    · rw [stored_pair hsub]
      exact hfound
    · obtain rfl := (offline_pair hpersistent).1 hoffline
      exact ⟨.v2, rfl, Or.inr rfl, by decide +kernel⟩
  obtain ⟨hends, hdelivers⟩ := delivers_iff_covered Cluster.schema2 (converged_pair hfilter)
    (noShared_pair hfilter) (noInline_pair _) (admits_pair _ input.publishID)
    (show input.publishID ≠ UUID.nil by decide)
  refine ⟨⟨⟨_, (subscribes_pair hfilter).2 ⟨rfl, rfl, rfl⟩, by decide⟩,
    _, mem_stored_pair _, by decide, by decide⟩, hends, fun es hdone => ?_⟩
  exact (hdelivers es hdone).2 hcovered

theorem two_copies_inline :
    let s := { pair "a/+".toList with
      hooks := fun nodeID => if nodeID = ['A'] then (pair "a/+".toList).hooks ['A'] else
        { clients := AList.singleton inlineClientID ⟨Cluster.device 2, .password, []⟩ } }
    let final := s.toNet.run Cluster.schema2 s.redis ['A'] ['p'] publishAB
      { publishID := (Cluster.device 1).id }
      [(0, { publishID := (Cluster.device 2).id }), (0, {}), (0, {})]
    final.tasks.length = 0 ∧ (copies ['d'] final.log).length = 2 := by
  decide +kernel

end ClusterState

end KeelGateway.Broker

import KeelGateway.Mochi.Retained
import KeelGateway.Broker.Forwarding

/-!
# Retained messages in the cluster

A retained publish is kept in the memory of the node of its publisher, and in Redis for all nodes.
A subscriber gets the messages that its own node has in memory, and from Redis those on other
topics. No node learns of the retained publishes on other nodes: a forward is published without the
retain flag. So a node that has a message of its own on a topic goes on to deliver that message.

Redis has a key for every topic, and a set of the topics that have one for filters with wildcards.
The key of the topic `index` is the key of the set.

-/

namespace KeelGateway.Broker

open Acl Mochi StepMachine

/-! ### The store in Redis -/

/-- A value of Redis. -/
inductive RetainedValue where
  | string (payload : List UInt8)
  | set (members : GoMap Text Unit)

/-- `retainedKeyPrefix`. -/
def retainedKeyPrefix : Text := "keel:retained:".toList

/-- `retainedIndexKey`. -/
def retainedIndexKey : Text := "keel:retained:index".toList

/-- `retainedKey`. -/
def retainedKey (topic : Text) : Text := retainedKeyPrefix ++ topic

/-- The topic whose key is the key of the set of topics. -/
def indexTopic : Text := "index".toList

theorem retainedKey_injective : Function.Injective retainedKey := fun _ _ h =>
  List.append_cancel_left h

theorem retainedKey_ne_retainedIndexKey {topic : Text} (h : topic ≠ indexTopic) :
    retainedKey topic ≠ retainedIndexKey :=
  retainedKey_injective.ne h

/-- `RetainedStore`: the keys of the retained messages. -/
structure RetainedStore where
  keys : GoMap Text RetainedValue := ∅

namespace RetainedStore

variable (s : RetainedStore)

/-- `SADD` to the set of topics, and whether it succeeds: the key may hold a string. -/
def sAdd (topic : Text) : RetainedStore × Bool :=
  match s.keys.lookup retainedIndexKey with
  | none => (⟨s.keys.insert retainedIndexKey (.set (AList.singleton topic ()))⟩, true)
  | some (.set members) => (⟨s.keys.insert retainedIndexKey (.set (members.insert topic ()))⟩, true)
  | some (.string _) => (s, false)

/-- `SREM` from the set of topics. A set that becomes empty is removed. -/
def sRem (topic : Text) : RetainedStore × Bool :=
  match s.keys.lookup retainedIndexKey with
  | none => (s, true)
  | some (.set members) =>
    if (members.erase topic).entries = [] then (⟨s.keys.erase retainedIndexKey⟩, true)
    else (⟨s.keys.insert retainedIndexKey (.set (members.erase topic))⟩, true)
  | some (.string _) => (s, false)

/-- `SMEMBERS` of the set of topics. -/
def sMembers : Option (List Text) :=
  match s.keys.lookup retainedIndexKey with
  | none => some []
  | some (.set members) => some members.keys
  | some (.string _) => none

/-- The answer of `MGET` for a topic: nothing if there is no key, or if it holds a set. -/
def mGet (topic : Text) : Option (List UInt8) :=
  match s.keys.lookup (retainedKey topic) with
  | some (.string payload) => some payload
  | _ => none

/-- `Delete`, and whether it succeeds. Both commands of the pipeline are run in any case. -/
def delete (topic : Text) : RetainedStore × Bool :=
  sRem ⟨s.keys.erase (retainedKey topic)⟩ topic

/-- `Set`, and whether it succeeds. -/
def set (topic : Text) (payload : List UInt8) : RetainedStore × Bool :=
  if payload = [] then s.delete topic
  else sAdd ⟨s.keys.insert (retainedKey topic) (.string payload)⟩ topic

/-- `Match`. -/
def matching (filter : Text) (exclude : List Text) : Option (List (Text × List UInt8)) := do
  let topics ←
    if Concrete filter then some (if filter ∈ exclude then [] else [filter])
    else s.sMembers.map fun members =>
      members.filter fun t => t ∉ exclude ∧ matchTopic filter t = true
  return topics.filterMap fun t => (s.mGet t).map (t, ·)

end RetainedStore

/-! ### Publish and subscribe -/

/-- The retained messages of the cluster: in the memory of every node, and in Redis. -/
structure RetainedCluster where
  locals : Text → RetainedPackets := fun _ => ∅
  store : RetainedStore := {}

/-- A retained publish of a client, and the nodes it is forwarded to. An empty payload clears the
topic. -/
structure RetainedPublish where
  nodeID : Text
  clientID : Text
  topic : TopicName
  payload : List UInt8
  targets : List Text := []

/-- A SUBSCRIBE for a filter. -/
structure RetainedSubscribe where
  clientID : Text
  sub : Subscription
  existed : Bool := false

/-- `publishRetainedToClient`, for a client with the right to read. `publishToClient` passes over
the messages of the client itself if it has asked for that. -/
def publishRetainedToClient (retained : RetainedPackets) (req : RetainedSubscribe) :
    List (Text × List UInt8) :=
  if isSharedFilter req.sub.filter then []
  else if (req.sub.retainHandling = 1 ∧ req.existed) ∨ req.sub.retainHandling = 2 then []
  else (messages retained req.sub.filter).filterMap fun m =>
    if req.sub.noLocal ∧ m.2.origin = req.clientID then none else some (m.1, m.2.payload)

/-- `deliverRetainedBackfill`, for a client with the right to read. A failed read delivers
nothing. -/
def deliverRetainedBackfill (retained : RetainedPackets) (store : RetainedStore)
    (req : RetainedSubscribe) : List (Text × List UInt8) :=
  if isSharedFilter req.sub.filter then []
  else
    let exclude := (messages retained req.sub.filter).map Prod.fst
    (store.matching req.sub.filter exclude).getD []

namespace RetainedCluster

/-- `retainMessage` of the server, which calls `OnRetainMessage`. An error of the store is
logged. -/
def retainMessage (s : RetainedCluster) (nodeID topic : Text) (pk : RetainedPacket) :
    RetainedCluster where
  locals := Function.update s.locals nodeID (Mochi.retainMessage (s.locals nodeID) topic pk)
  store := (s.store.set topic pk.payload).1

/-- What `processPublish` does for the retained messages. -/
def processPublish (s : RetainedCluster) (nodeID clientID topic : Text) (payload : List UInt8)
    (retain : Bool) : RetainedCluster :=
  if retain then s.retainMessage nodeID topic ⟨payload, clientID⟩ else s

/-- A retained publish on its node, and then its forwards on other nodes. -/
def step (s : RetainedCluster) (e : RetainedPublish) : RetainedCluster :=
  e.targets.foldl
    (fun s target => s.processPublish target inlineClientID e.topic.text e.payload false)
    (s.processPublish e.nodeID e.clientID e.topic.text e.payload true)

/-- Redis answers all commands of a publish without an error. -/
def Succeeds (s : RetainedCluster) (e : RetainedPublish) : Prop :=
  (s.store.set e.topic.text e.payload).2 = true

instance (s : RetainedCluster) (e : RetainedPublish) : Decidable (s.Succeeds e) :=
  inferInstanceAs (Decidable (_ = _))

/-- Everything that a subscriber on a node gets. -/
def received (s : RetainedCluster) (nodeID : Text) (req : RetainedSubscribe) :
    List (Text × List UInt8) :=
  publishRetainedToClient (s.locals nodeID) req ++
    deliverRetainedBackfill (s.locals nodeID) s.store req

end RetainedCluster

/-! ### The last retained publish -/

/-- What a publish leaves as the retained message of its topic. -/
def RetainedPublish.kept (e : RetainedPublish) : Option RetainedPacket :=
  if e.payload ≠ [] then some ⟨e.payload, e.clientID⟩ else none

/-- The last retained message on every topic, of all publishes and of those on a single node. -/
structure LastRetained where
  cluster : Text → Option RetainedPacket := fun _ => none
  node : Text → Text → Option RetainedPacket := fun _ _ => none

namespace LastRetained

/-- A retained publish. -/
def step (v : LastRetained) (e : RetainedPublish) : LastRetained where
  cluster := Function.update v.cluster e.topic.text e.kept
  node := Function.update v.node e.nodeID
    (Function.update (v.node e.nodeID) e.topic.text e.kept)

/-- After a history of retained publishes. -/
def after (es : List RetainedPublish) : LastRetained := run step {} es

/-- The payload that a subscriber of the filter is to get on a topic. -/
def expected (v : LastRetained) (filter topic : Text) : Option (List UInt8) :=
  if topic.head? ≠ some '$' ∧ matchTopic filter topic = true then
    (v.cluster topic).map RetainedPacket.payload
  else none

/-- The node has a retained message of its own on a topic that the filter finds. -/
def Copy (v : LastRetained) (nodeID filter topic : Text) (pk : RetainedPacket) : Prop :=
  LocalMatch filter topic ∧ v.node nodeID topic = some pk

/-- The subscription leaves out the message. -/
def Withheld (req : RetainedSubscribe) (pk : RetainedPacket) : Prop :=
  req.sub.noLocal = true ∧ pk.origin = req.clientID

/-- The copies of the node are the last messages of the cluster, and there is no message on a topic
that starts with `$`. -/
structure Current (v : LastRetained) (nodeID : Text) (req : RetainedSubscribe) : Prop where
  copies : ∀ topic pk, topic.head? ≠ some '$' → v.Copy nodeID req.sub.filter topic pk →
    (¬ Withheld req pk → (v.cluster topic).map RetainedPacket.payload = some pk.payload) ∧
      (Withheld req pk → v.cluster topic = none)
  dollar : ∀ topic, topic.head? = some '$' →
    (∀ pk, v.Copy nodeID req.sub.filter topic pk → Withheld req pk) ∧
      ((∀ pk, ¬ v.Copy nodeID req.sub.filter topic pk) → matchTopic req.sub.filter topic = true →
        v.cluster topic = none)

end LastRetained

/-- A subscriber has got one message for every topic on which one is expected, with the expected
payload, and no other. -/
structure Consistent (received : List (Text × List UInt8)) (expected : Text → Option (List UInt8)) :
    Prop where
  once : (received.map Prod.fst).Nodup
  payloads : ∀ topic payload, (topic, payload) ∈ received ↔ expected topic = some payload

theorem nodup_keys_filterMap {A K B : Type} {key : A → K} {f : A → Option (K × B)}
    (hf : ∀ a b, f a = some b → b.1 = key a) {as : List A} (h : (as.map key).Nodup) :
    ((as.filterMap f).map Prod.fst).Nodup := by
  refine h.sublist ?_
  clear h
  induction as with
  | nil => exact List.Sublist.slnil
  | cons a as ih =>
    cases hfa : f a with
    | none => simpa [hfa] using ih.cons (key a)
    | some b => simpa [hfa, hf a b hfa] using ih

/-! ### The store follows the last messages -/

namespace RetainedStore

variable {s : RetainedStore} {topic : Text} {members : List Text}

/-- The store holds these messages, and the set of topics names them. -/
structure Mirrors (s : RetainedStore) (last : Text → Option (List UInt8)) : Prop where
  payloads : ∀ topic, s.mGet topic = last topic
  topics : ∃ members, s.sMembers = some members ∧
    ∀ topic, topic ∈ members ↔ (last topic).isSome = true

theorem mirrors_empty : Mirrors {} fun _ => none :=
  ⟨fun _ => rfl, [], rfl, fun _ => by simp⟩

theorem mGet_indexTopic (h : s.sMembers = some members) : s.mGet indexTopic = none := by
  have hkey : retainedKey indexTopic = retainedIndexKey := rfl
  unfold mGet
  unfold sMembers at h
  rw [hkey]
  split at h
  · next hnone => rw [hnone]
  · next hset => rw [hset]
  · cases h

private theorem nodup_sMembers (h : s.sMembers = some members) : members.Nodup := by
  unfold sMembers at h
  split at h
  · cases h
    exact List.nodup_nil
  · next set _ =>
    cases h
    exact set.keys_nodup
  · cases h

/-- `SADD` changes the set alone. -/
theorem sAdd_spec (h : s.sMembers = some members) (topic : Text) :
    (s.sAdd topic).2 = true ∧
      (∀ key, key ≠ retainedIndexKey → (s.sAdd topic).1.keys.lookup key = s.keys.lookup key) ∧
      ∃ members', (s.sAdd topic).1.sMembers = some members' ∧
        ∀ t, t ∈ members' ↔ t = topic ∨ t ∈ members := by
  have hinserted (set : GoMap Text Unit) :
      (⟨s.keys.insert retainedIndexKey (.set set)⟩ : RetainedStore).sMembers = some set.keys := by
    simp only [sMembers, AList.lookup_insert]
  unfold sMembers at h
  unfold sAdd
  cases hindex : s.keys.lookup retainedIndexKey with
  | none =>
    rw [hindex] at h
    cases h
    refine ⟨rfl, fun key hkey => AList.lookup_insert_ne hkey, _, hinserted _, fun t => ?_⟩
    simp
  | some value =>
    rw [hindex] at h
    cases value with
    | string payload => cases h
    | set set =>
      cases h
      refine ⟨rfl, fun key hkey => AList.lookup_insert_ne hkey, _, hinserted _, fun t => ?_⟩
      rw [← AList.mem_keys, AList.mem_insert, AList.mem_keys]

/-- `SREM` changes the set alone. -/
theorem sRem_spec (h : s.sMembers = some members) (topic : Text) :
    (s.sRem topic).2 = true ∧
      (∀ key, key ≠ retainedIndexKey → (s.sRem topic).1.keys.lookup key = s.keys.lookup key) ∧
      ∃ members', (s.sRem topic).1.sMembers = some members' ∧
        ∀ t, t ∈ members' ↔ t ≠ topic ∧ t ∈ members := by
  have hmem (set : GoMap Text Unit) (t : Text) :
      t ∈ (set.erase topic).keys ↔ t ≠ topic ∧ t ∈ set.keys := by
    rw [← AList.mem_keys, AList.mem_erase, AList.mem_keys]
  have h' := h
  unfold sMembers at h
  unfold sRem
  cases hindex : s.keys.lookup retainedIndexKey with
  | none =>
    rw [hindex] at h
    cases h
    exact ⟨rfl, fun _ _ => rfl, [], h', fun t => by simp⟩
  | some value =>
    rw [hindex] at h
    cases value with
    | string payload => cases h
    | set set =>
      cases h
      dsimp only
      split_ifs with hempty
      · refine ⟨rfl, fun key hkey => AList.lookup_erase_ne hkey, [], ?_, fun t => ?_⟩
        · simp only [sMembers, AList.lookup_erase]
        · rw [← hmem, AList.keys, hempty]
          rfl
      · refine ⟨rfl, fun key hkey => AList.lookup_insert_ne hkey, _, ?_, hmem set⟩
        simp only [sMembers, AList.lookup_insert]

variable {last : Text → Option (List UInt8)}

theorem Mirrors.update (h : s.Mirrors last) {s' : RetainedStore} {value : Option (List UInt8)}
    (htopic : s'.keys.lookup (retainedKey topic) = value.map .string)
    (hothers : ∀ key, key ≠ retainedIndexKey → key ≠ retainedKey topic →
      s'.keys.lookup key = s.keys.lookup key)
    (htopics : ∃ members, s'.sMembers = some members ∧
      ∀ t, t ∈ members ↔ if t = topic then value.isSome = true else (last t).isSome = true) :
    s'.Mirrors (Function.update last topic value) := by
  obtain ⟨members, hmembers, -⟩ := h.topics
  obtain ⟨members', hmembers', hmem'⟩ := htopics
  refine ⟨fun t => ?_, members', hmembers', fun t => ?_⟩
  · by_cases ht : t = topic
    · subst ht
      rw [Function.update_self, mGet, htopic]
      cases value <;> rfl
    rw [Function.update_of_ne ht, ← h.payloads]
    by_cases hindex : t = indexTopic
    · rw [hindex, mGet_indexTopic hmembers, mGet_indexTopic hmembers']
    · rw [mGet, mGet,
        hothers _ (retainedKey_ne_retainedIndexKey hindex) (retainedKey_injective.ne ht)]
  · rw [hmem', Function.update_apply]
    split_ifs <;> rfl

theorem sMembers_congr {s' : RetainedStore}
    (h : s'.keys.lookup retainedIndexKey = s.keys.lookup retainedIndexKey) :
    s'.sMembers = s.sMembers := by
  rw [sMembers, sMembers, h]

theorem mirrors_delete (h : s.Mirrors last) (htopic : topic ≠ indexTopic) :
    (s.delete topic).2 = true ∧
      (s.delete topic).1.Mirrors (Function.update last topic none) := by
  obtain ⟨members, hmembers, hmem⟩ := h.topics
  have hkey := retainedKey_ne_retainedIndexKey htopic
  let erased : RetainedStore := ⟨s.keys.erase (retainedKey topic)⟩
  have herased : erased.sMembers = some members :=
    (sMembers_congr (AList.lookup_erase_ne hkey.symm)).trans hmembers
  obtain ⟨hok, hothers, members', hmembers', hmem'⟩ := sRem_spec herased topic
  refine ⟨hok, h.update ?_ (fun key hindex ht => ?_) ⟨members', hmembers', fun t => ?_⟩⟩
  · exact (hothers _ hkey).trans (AList.lookup_erase _ _)
  · exact (hothers _ hindex).trans (AList.lookup_erase_ne ht)
  · rw [hmem', hmem]
    split_ifs with ht <;> simp [ht]

theorem mirrors_set (h : s.Mirrors last) (htopic : topic ≠ indexTopic) (payload : List UInt8) :
    (s.set topic payload).2 = true ∧ (s.set topic payload).1.Mirrors
      (Function.update last topic (if payload ≠ [] then some payload else none)) := by
  unfold set
  by_cases hpayload : payload = []
  · rw [if_pos hpayload, if_neg (not_not.2 hpayload)]
    exact mirrors_delete h htopic
  rw [if_neg hpayload, if_pos hpayload]
  obtain ⟨members, hmembers, hmem⟩ := h.topics
  have hkey := retainedKey_ne_retainedIndexKey htopic
  let written : RetainedStore := ⟨s.keys.insert (retainedKey topic) (.string payload)⟩
  have hwritten : written.sMembers = some members :=
    (sMembers_congr (AList.lookup_insert_ne hkey.symm)).trans hmembers
  obtain ⟨hok, hothers, members', hmembers', hmem'⟩ := sAdd_spec hwritten topic
  refine ⟨hok, h.update ?_ (fun key hindex ht => ?_) ⟨members', hmembers', fun t => ?_⟩⟩
  · exact (hothers _ hkey).trans (AList.lookup_insert _)
  · exact (hothers _ hindex).trans (AList.lookup_insert_ne ht)
  · rw [hmem', hmem]
    split_ifs with ht <;> simp [ht]

theorem mem_matching (h : s.Mirrors last) {filter t : Text} {payload : List UInt8}
    {exclude : List Text} :
    (t, payload) ∈ (s.matching filter exclude).getD [] ↔
      t ∉ exclude ∧ matchTopic filter t = true ∧ last t = some payload := by
  obtain ⟨members, hmembers, hmem⟩ := h.topics
  have hget (topics : List Text) :
      (t, payload) ∈ topics.filterMap (fun t => (s.mGet t).map (t, ·)) ↔
        t ∈ topics ∧ last t = some payload := by
    simp only [List.mem_filterMap, Option.map_eq_some_iff, Prod.mk.injEq, h.payloads]
    constructor
    · rintro ⟨_, ht, _, hlast, rfl, rfl⟩
      exact ⟨ht, hlast⟩
    · rintro ⟨ht, hlast⟩
      exact ⟨t, ht, payload, hlast, rfl, rfl⟩
  unfold matching
  by_cases hconcrete : Concrete filter
  · rw [if_pos hconcrete]
    refine (hget _).trans ?_
    rw [matchTopic_iff_of_concrete hconcrete]
    by_cases hexclude : filter ∈ exclude
    · rw [if_pos hexclude]
      refine iff_of_false (fun hnil => List.not_mem_nil hnil.1) ?_
      rintro ⟨ht, rfl, -⟩
      exact ht hexclude
    · rw [if_neg hexclude, List.mem_singleton]
      constructor
      · rintro ⟨rfl, hlast⟩
        exact ⟨hexclude, rfl, hlast⟩
      · rintro ⟨-, rfl, hlast⟩
        exact ⟨rfl, hlast⟩
  · rw [if_neg hconcrete, hmembers]
    refine (hget _).trans ?_
    rw [List.mem_filter, hmem, decide_eq_true_eq]
    constructor
    · rintro ⟨⟨-, ht, hmatch⟩, hlast⟩
      exact ⟨ht, hmatch, hlast⟩
    · rintro ⟨ht, hmatch, hlast⟩
      exact ⟨⟨by rw [hlast]; rfl, ht, hmatch⟩, hlast⟩

theorem nodup_topics_matching (s : RetainedStore) (filter : Text) (exclude : List Text) :
    (((s.matching filter exclude).getD []).map Prod.fst).Nodup := by
  have hget {topics : List Text} (h : topics.Nodup) :
      ((topics.filterMap fun t => (s.mGet t).map (t, ·)).map Prod.fst).Nodup := by
    refine nodup_keys_filterMap (fun t b hb => ?_) (show (topics.map id).Nodup by rwa [List.map_id])
    obtain ⟨payload, -, rfl⟩ := Option.map_eq_some_iff.1 hb
    rfl
  unfold matching
  by_cases hconcrete : Concrete filter
  · rw [if_pos hconcrete]
    refine hget ?_
    split_ifs
    · exact List.nodup_nil
    · exact List.nodup_singleton _
  · rw [if_neg hconcrete]
    cases hmembers : s.sMembers with
    | none => exact List.nodup_nil
    | some members => exact hget ((nodup_sMembers hmembers).filter _)

end RetainedStore

/-! ### Runs -/

namespace RetainedCluster

/-- The memory of the nodes and the store hold the last messages. -/
structure Follows (s : RetainedCluster) (v : LastRetained) : Prop where
  locals : ∀ nodeID topic, (s.locals nodeID).lookup topic = v.node nodeID topic
  store : s.store.Mirrors fun topic => (v.cluster topic).map RetainedPacket.payload

private theorem follows_empty : Follows {} {} where
  locals _ _ := rfl
  store := RetainedStore.mirrors_empty

theorem step_eq_retainMessage (s : RetainedCluster) (e : RetainedPublish) :
    s.step e = s.retainMessage e.nodeID e.topic.text ⟨e.payload, e.clientID⟩ := by
  have hforwards (targets : List Text) (s : RetainedCluster) :
      targets.foldl (fun s target => s.processPublish target inlineClientID e.topic.text e.payload
        false) s = s := by
    induction targets with
    | nil => rfl
    | cons target targets ih => exact ih
  exact hforwards _ _

theorem Follows.step {s : RetainedCluster} {v : LastRetained} (h : s.Follows v)
    {e : RetainedPublish} (htopic : e.topic.text ≠ indexTopic) : (s.step e).Follows (v.step e) := by
  rw [step_eq_retainMessage]
  constructor
  · intro nodeID topic
    simp only [retainMessage, LastRetained.step]
    by_cases hnode : nodeID = e.nodeID
    · subst hnode
      rw [Function.update_self, Function.update_self, lookup_retainMessage, Function.update_apply,
        h.locals]
      rfl
    · rw [Function.update_of_ne hnode, Function.update_of_ne hnode, h.locals]
  · have hlast : (fun topic => ((v.step e).cluster topic).map RetainedPacket.payload) =
        Function.update (fun topic => (v.cluster topic).map RetainedPacket.payload) e.topic.text
          (if e.payload ≠ [] then some e.payload else none) := by
      funext topic
      simp only [LastRetained.step, Function.update_apply]
      split_ifs with ht hpayload
      · simp [RetainedPublish.kept, hpayload]
      · simp [RetainedPublish.kept, hpayload]
      · rfl
    rw [hlast]
    exact (RetainedStore.mirrors_set h.store htopic e.payload).2

theorem follows_run {es : List RetainedPublish} (h : ∀ e ∈ es, e.topic.text ≠ indexTopic) :
    (run step {} es).Follows (LastRetained.after es) :=
  run_of_simulation (fun e he _ _ hs => hs.step (h e he)) follows_empty

theorem along_succeeds {es : List RetainedPublish} (h : ∀ e ∈ es, e.topic.text ≠ indexTopic) :
    Along step Succeeds {} es := by
  refine along_of_invariant (I := fun s => ∃ last, s.store.Mirrors last)
    (fun s e hs he => ?_) (fun s e hs he => ?_) ⟨_, RetainedStore.mirrors_empty⟩
    (along_of_forall h _)
  · obtain ⟨last, hs⟩ := hs
    rw [step_eq_retainMessage]
    exact ⟨_, (RetainedStore.mirrors_set hs he e.payload).2⟩
  · obtain ⟨last, hs⟩ := hs
    exact (RetainedStore.mirrors_set hs he e.payload).1

/-! ### What a subscriber gets -/

section Received

variable {s : RetainedCluster} {v : LastRetained} {nodeID : Text} {req : RetainedSubscribe}

/-- The subscription asks for the retained messages of a filter that is not shared. -/
structure Asks (req : RetainedSubscribe) : Prop where
  valid : isValidFilter req.sub.filter = true
  notShared : isSharedFilter req.sub.filter = false
  wanted : ¬ ((req.sub.retainHandling = 1 ∧ req.existed = true) ∨ req.sub.retainHandling = 2)

variable (hs : s.Follows v) (hreq : Asks req)

include hs hreq

variable {payload : List UInt8} {topic : Text}

theorem mem_publishRetainedToClient :
    (topic, payload) ∈ publishRetainedToClient (s.locals nodeID) req ↔
      ∃ pk, v.Copy nodeID req.sub.filter topic pk ∧ ¬ LastRetained.Withheld req pk ∧
        pk.payload = payload := by
  unfold publishRetainedToClient
  rw [if_neg (Bool.eq_false_iff.1 hreq.notShared), if_neg hreq.wanted, List.mem_filterMap]
  constructor
  · rintro ⟨⟨t, pk⟩, hm, hsome⟩
    rw [Option.ite_none_left_eq_some] at hsome
    obtain ⟨hwithheld, hsome⟩ := hsome
    cases hsome
    obtain ⟨hlookup, hmatch⟩ := mem_messages.1 hm
    exact ⟨pk, ⟨hmatch, (hs.locals _ _).symm.trans hlookup⟩, hwithheld, rfl⟩
  · rintro ⟨pk, ⟨hmatch, hnode⟩, hwithheld, rfl⟩
    refine ⟨(topic, pk), mem_messages.2 ⟨(hs.locals _ _).trans hnode, hmatch⟩, ?_⟩
    exact if_neg hwithheld

theorem mem_deliverRetainedBackfill :
    (topic, payload) ∈ deliverRetainedBackfill (s.locals nodeID) s.store req ↔
      (∀ pk, ¬ v.Copy nodeID req.sub.filter topic pk) ∧ matchTopic req.sub.filter topic = true ∧
        (v.cluster topic).map RetainedPacket.payload = some payload := by
  have hcopy : topic ∉ (messages (s.locals nodeID) req.sub.filter).map Prod.fst ↔
      ∀ pk, ¬ v.Copy nodeID req.sub.filter topic pk := by
    rw [mem_topics_messages, GoMap.mem_iff_exists_lookup, hs.locals]
    constructor
    · exact fun h pk hc => h ⟨⟨pk, hc.2⟩, hc.1⟩
    · rintro h ⟨⟨pk, hnode⟩, hmatch⟩
      exact h pk ⟨hmatch, hnode⟩
  unfold deliverRetainedBackfill
  rw [if_neg (Bool.eq_false_iff.1 hreq.notShared), RetainedStore.mem_matching hs.store, hcopy]

theorem nodup_topics_received : ((s.received nodeID req).map Prod.fst).Nodup := by
  unfold received
  rw [List.map_append]
  refine List.Nodup.append ?_ ?_ fun topic hlocal hbackfill => ?_
  · unfold publishRetainedToClient
    rw [if_neg (Bool.eq_false_iff.1 hreq.notShared), if_neg hreq.wanted]
    refine nodup_keys_filterMap (fun m b hb => ?_) nodup_topics_messages
    rw [Option.ite_none_left_eq_some] at hb
    obtain ⟨-, hb⟩ := hb
    cases hb
    rfl
  · unfold deliverRetainedBackfill
    rw [if_neg (Bool.eq_false_iff.1 hreq.notShared)]
    exact RetainedStore.nodup_topics_matching _ _ _
  · obtain ⟨⟨_, payload⟩, hm, rfl⟩ := List.mem_map.1 hlocal
    obtain ⟨⟨_, payload'⟩, hm', heq⟩ := List.mem_map.1 hbackfill
    cases heq
    obtain ⟨pk, hcopy, -, -⟩ := (mem_publishRetainedToClient hs hreq).1 hm
    exact ((mem_deliverRetainedBackfill hs hreq).1 hm').1 pk hcopy

theorem mem_received :
    (topic, payload) ∈ s.received nodeID req ↔
      (∃ pk, v.Copy nodeID req.sub.filter topic pk ∧ ¬ LastRetained.Withheld req pk ∧
        pk.payload = payload) ∨
      (∀ pk, ¬ v.Copy nodeID req.sub.filter topic pk) ∧ matchTopic req.sub.filter topic = true ∧
        (v.cluster topic).map RetainedPacket.payload = some payload := by
  rw [received, List.mem_append, mem_publishRetainedToClient hs hreq,
    mem_deliverRetainedBackfill hs hreq]

private theorem current_of_consistent
    (h : Consistent (s.received nodeID req) (v.expected req.sub.filter)) :
    v.Current nodeID req := by
  -- what is received is expected, and the other way round
  have hexpected {topic : Text} {payload : List UInt8}
      (hm : (topic, payload) ∈ s.received nodeID req) :
      (topic.head? ≠ some '$' ∧ matchTopic req.sub.filter topic = true) ∧
        (v.cluster topic).map RetainedPacket.payload = some payload := by
    have hsome := (h.payloads topic payload).1 hm
    rwa [LastRetained.expected, Option.ite_none_right_eq_some] at hsome
  have hcopied {topic : Text} {pk : RetainedPacket} (hcopy : v.Copy nodeID req.sub.filter topic pk)
      (hwithheld : ¬ LastRetained.Withheld req pk) : (topic, pk.payload) ∈ s.received nodeID req :=
    (mem_received hs hreq).2 (Or.inl ⟨pk, hcopy, hwithheld, rfl⟩)
  constructor
  · intro topic pk hdollar hcopy
    refine ⟨fun hwithheld => (hexpected (hcopied hcopy hwithheld)).2, fun hwithheld => ?_⟩
    by_contra hne
    obtain ⟨last, hlast⟩ := Option.ne_none_iff_exists'.1 hne
    have hsome : v.expected req.sub.filter topic = some last.payload := by
      rw [LastRetained.expected, if_pos ⟨hdollar, hcopy.1.matchTopic hreq.valid hdollar⟩, hlast]
      rfl
    rcases (mem_received hs hreq).1 ((h.payloads _ _).2 hsome)
      with ⟨pk', hcopy', hfree, -⟩ | ⟨hno, -⟩
    · rw [Option.some.inj (hcopy.2.symm.trans hcopy'.2)] at hwithheld
      exact hfree hwithheld
    · exact hno pk hcopy
  · intro topic hdollar
    refine ⟨fun pk hcopy => ?_, fun hno hmatch => ?_⟩
    · by_contra hwithheld
      exact (hexpected (hcopied hcopy hwithheld)).1.1 hdollar
    · by_contra hne
      obtain ⟨last, hlast⟩ := Option.ne_none_iff_exists'.1 hne
      have hm : (topic, last.payload) ∈ s.received nodeID req :=
        (mem_received hs hreq).2 (Or.inr ⟨hno, hmatch, by rw [hlast]; rfl⟩)
      exact (hexpected hm).1.1 hdollar

private theorem consistent_of_current (h : v.Current nodeID req) :
    Consistent (s.received nodeID req) (v.expected req.sub.filter) := by
  refine ⟨nodup_topics_received hs hreq, fun topic payload => ?_⟩
  rw [mem_received hs hreq, LastRetained.expected, Option.ite_none_right_eq_some]
  constructor
  · rintro (⟨pk, hcopy, hwithheld, rfl⟩ | ⟨hno, hmatch, hlast⟩)
    · have hdollar : topic.head? ≠ some '$' :=
        fun hd => hwithheld ((h.dollar topic hd).1 pk hcopy)
      exact ⟨⟨hdollar, hcopy.1.matchTopic hreq.valid hdollar⟩,
        (h.copies topic pk hdollar hcopy).1 hwithheld⟩
    · refine ⟨⟨fun hd => ?_, hmatch⟩, hlast⟩
      rw [(h.dollar topic hd).2 hno hmatch] at hlast
      cases hlast
  · rintro ⟨⟨hdollar, hmatch⟩, hlast⟩
    by_cases hno : ∀ pk, ¬ v.Copy nodeID req.sub.filter topic pk
    · exact Or.inr ⟨hno, hmatch, hlast⟩
    · push Not at hno
      obtain ⟨pk, hcopy⟩ := hno
      obtain ⟨hfree, hheld⟩ := h.copies topic pk hdollar hcopy
      have hwithheld : ¬ LastRetained.Withheld req pk := by
        intro hw
        rw [hheld hw] at hlast
        cases hlast
      exact Or.inl ⟨pk, hcopy, hwithheld, Option.some.inj ((hfree hwithheld).symm.trans hlast)⟩

end Received

/-- A retained publish of the client `p` on a topic, which is forwarded to both nodes. -/
def publishOn (nodeID : Text) (topic : TopicName) (payload : List UInt8) : RetainedPublish where
  nodeID := nodeID
  clientID := ['p']
  topic := topic
  payload := payload
  targets := [['A'], ['B']]

/-- The topic `t`. -/
def topicT : TopicName := ⟨['t'], by decide, by decide⟩

/-- The topic `u`. -/
def topicU : TopicName := ⟨['u'], by decide, by decide⟩

/-- The topic `index` as a topic name. -/
def topicIndex : TopicName := ⟨indexTopic, by decide, by decide⟩

/-- A client subscribes to all topics of one level. -/
def subscribeAll : RetainedSubscribe := { clientID := ['c'], sub := { filter := ['+'] } }

theorem asks_subscribeAll : Asks subscribeAll := ⟨by decide, by decide, by decide⟩

end RetainedCluster

end KeelGateway.Broker

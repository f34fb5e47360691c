import KeelGateway.Lib.StepMachine
import KeelGateway.Mochi.Topics

/-!
# The three copies of a client's subscriptions

A broker keeps the accepted filters of a client in memory. Two hooks mirror them: one in the SUB
hash of the client in Redis, from which a session is restored, and one in the table of cluster
filter references, from which the routes of the node follow. The broker may refuse a filter, or a
whole packet whose packet identifier is in use, and calls the hooks all the same with every filter
of the packet.

-/

namespace KeelGateway.Broker

open Mochi StepMachine

/-! ### The broker -/

/-- The capabilities and the protocol version that decide over reason codes. -/
structure SubscribeConfig where
  maximumQos : ℕ := 2
  obscureNotAuthorized : Bool := false
  protocolVersion : ℕ := 5

/-- A SUBSCRIBE packet as the decoder lets it through. -/
structure SubscribePacket where
  packetID : ℕ
  filters : List Subscription
  /-- The decoder rejects a requested QoS above 2. -/
  qos_le : ∀ sub ∈ filters, sub.qos ≤ 2

/-- An UNSUBSCRIBE packet. -/
structure UnsubscribePacket where
  packetID : ℕ
  filters : List Text

/-- `ErrUnspecifiedError`, the least code of a refusal. -/
def errUnspecifiedError : ℕ := 0x80

/-- `ErrProtocolViolationInvalidSharedNoLocal`. -/
def errInvalidSharedNoLocal : ℕ := 0x82

/-- `ErrNotAuthorized`. -/
def errNotAuthorized : ℕ := 0x87

/-- `ErrTopicFilterInvalid`. -/
def errTopicFilterInvalid : ℕ := 0x8F

/-- `ErrPacketIdentifierInUse`. -/
def errPacketIdentifierInUse : ℕ := 0x91

/-- The subscriptions of a client by filter. -/
abbrev ClientSubscriptions : Type := GoMap Text Subscription

section Broker

variable (cfg : SubscribeConfig) (aclCheck : Text → Bool)

/-- A client before version 5 only knows one code for a refusal. -/
def reasonCodeFor (code : ℕ) : ℕ :=
  if code > 2 && cfg.protocolVersion < 5 then errUnspecifiedError else code

/-- One filter of a SUBSCRIBE whose packet identifier is free: the subscriptions afterwards and the
reason code. -/
def subscribeFilter (subs : ClientSubscriptions) (sub : Subscription) : ClientSubscriptions × ℕ :=
  if !isValidFilter sub.filter then (subs, reasonCodeFor cfg errTopicFilterInvalid)
  else if sub.noLocal && isSharedFilter sub.filter then
    (subs, reasonCodeFor cfg errInvalidSharedNoLocal)
  else if !aclCheck sub.filter then
    (subs, reasonCodeFor cfg (if cfg.obscureNotAuthorized then errUnspecifiedError
      else errNotAuthorized))
  else
    (subs.insert sub.filter sub,
      reasonCodeFor cfg (if sub.qos > cfg.maximumQos then cfg.maximumQos else sub.qos))

/-- The filters of a SUBSCRIBE in turn. -/
def subscribeFilters (subs : ClientSubscriptions) :
    List Subscription → ClientSubscriptions × List ℕ
  | [] => (subs, [])
  | sub :: filters =>
    let (subs, code) := subscribeFilter cfg aclCheck subs sub
    let (subs, codes) := subscribeFilters subs filters
    (subs, code :: codes)

/-- `Server.processSubscribe`: the subscriptions of the client afterwards and the reason codes.
`inUse` says that the packet identifier belongs to an inbound in-flight packet. -/
def processSubscribe (inUse : Bool) (subs : ClientSubscriptions) (filters : List Subscription) :
    ClientSubscriptions × List ℕ :=
  if inUse then (subs, filters.map fun _ => errPacketIdentifierInUse)
  else subscribeFilters cfg aclCheck subs filters

/-- `Server.processUnsubscribe`: the subscriptions of the client afterwards. -/
def processUnsubscribe (inUse : Bool) (subs : ClientSubscriptions) (filters : List Text) :
    ClientSubscriptions :=
  if inUse then subs else filters.foldl (fun subs f => subs.erase f) subs

end Broker

/-! ### The hooks -/

/-- The record of a subscription in the SUB hash. -/
structure StoredSubscription where
  client : Text
  filter : Text
  qos : ℕ
  identifier : ℕ
  noLocal : Bool
  retainHandling : ℕ
  retainAsPublished : Bool
  deriving DecidableEq

/-- The SUB hash of a client: its fields are the filters. -/
abbrev SubHash : Type := GoMap Text StoredSubscription

/-- `RedisSessionHook.OnSubscribed`: one `HSET` per filter of the packet. -/
def redisOnSubscribed (clientID : Text) (hash : SubHash) (filters : List Subscription)
    (reasonCodes : List ℕ) : SubHash :=
  (filters.zip reasonCodes).foldl (fun hash (f, code) =>
    hash.insert f.filter
      ⟨clientID, f.filter, code, f.identifier, f.noLocal, f.retainHandling, f.retainAsPublished⟩)
    hash

/-- `RedisSessionHook.OnUnsubscribed`: one `HDEL` per filter of the packet. -/
def redisOnUnsubscribed (hash : SubHash) (filters : List Text) : SubHash :=
  filters.foldl (fun hash f => hash.erase f) hash

/-- `clusterFilterRefs`: the clients of the node that hold a filter. -/
abbrev FilterRefs : Type := GoMap Text (GoMap Text Unit)

/-- `addClusterFilterRef`: the table afterwards and whether the client is the first user. -/
def addClusterFilterRef (refs : FilterRefs) (clientID filter : Text) : FilterRefs × Bool :=
  let clients := (refs.lookup filter).getD ∅
  if clientID ∈ clients then (refs, false)
  else (refs.insert filter (clients.insert clientID ()), clients.entries.isEmpty)

/-- One filter of `removeClusterFilterRefs`: the table afterwards and whether the client was the
last user. -/
def removeClusterFilterRef (refs : FilterRefs) (clientID filter : Text) : FilterRefs × Bool :=
  match refs.lookup filter with
  | none => (refs, true)
  | some clients =>
    let clients := clients.erase clientID
    if clients.entries.isEmpty then (refs.erase filter, true)
    else (refs.insert filter clients, false)

/-- `keelHook.OnSubscribed`: a reference for every filter of the packet. -/
def keelOnSubscribed (clientID : Text) (refs : FilterRefs) (filters : List Text) : FilterRefs :=
  filters.foldl (fun refs f => (addClusterFilterRef refs clientID f).1) refs

/-- `keelHook.OnUnsubscribed`: the references for every filter of the packet are dropped. -/
def keelOnUnsubscribed (clientID : Text) (refs : FilterRefs) (filters : List Text) : FilterRefs :=
  filters.foldl (fun refs f => (removeClusterFilterRef refs clientID f).1) refs

/-- The client holds a reference for the filter. -/
def HoldsRef (refs : FilterRefs) (clientID filter : Text) : Prop :=
  ∃ clients, refs.lookup filter = some clients ∧ clientID ∈ clients

/-! ### Which filters each part touches -/

theorem reasonCodeFor_refusal (cfg : SubscribeConfig) {code : ℕ} (h : errUnspecifiedError ≤ code) :
    errUnspecifiedError ≤ reasonCodeFor cfg code := by
  unfold reasonCodeFor
  split_ifs
  · exact le_rfl
  · exact h

theorem reasonCodeFor_granted (cfg : SubscribeConfig) {code : ℕ} (h : code ≤ 2) :
    reasonCodeFor cfg code < errUnspecifiedError := by
  have hlow : ¬ code > 2 := by omega
  unfold reasonCodeFor errUnspecifiedError
  simp only [hlow, decide_false, Bool.false_and, Bool.false_eq_true, if_false]
  omega

theorem subscribeFilter_cases (cfg : SubscribeConfig) (aclCheck : Text → Bool)
    (subs : ClientSubscriptions) {sub : Subscription} (hqos : sub.qos ≤ 2) :
    (errUnspecifiedError ≤ (subscribeFilter cfg aclCheck subs sub).2 ∧
      (subscribeFilter cfg aclCheck subs sub).1 = subs) ∨
    ((subscribeFilter cfg aclCheck subs sub).2 < errUnspecifiedError ∧
      (subscribeFilter cfg aclCheck subs sub).1 = subs.insert sub.filter sub) := by
  unfold subscribeFilter
  split_ifs
  · exact Or.inl ⟨reasonCodeFor_refusal cfg (by decide), rfl⟩
  · exact Or.inl ⟨reasonCodeFor_refusal cfg (by decide), rfl⟩
  · exact Or.inl ⟨reasonCodeFor_refusal cfg (by decide), rfl⟩
  · exact Or.inl ⟨reasonCodeFor_refusal cfg (by decide), rfl⟩
  · exact Or.inr ⟨reasonCodeFor_granted cfg (by omega), rfl⟩
  · exact Or.inr ⟨reasonCodeFor_granted cfg hqos, rfl⟩

/-- The filters of a packet with their reason codes. -/
abbrev Outcome : Type := List (Subscription × ℕ)

/-- A filter that got a granted QoS. -/
def Granted (outcome : Outcome) (filter : Text) : Prop :=
  ∃ p ∈ outcome, p.1.filter = filter ∧ p.2 < errUnspecifiedError

/-- A filter that got a refusal. -/
def Refused (outcome : Outcome) (filter : Text) : Prop :=
  ∃ p ∈ outcome, p.1.filter = filter ∧ errUnspecifiedError ≤ p.2

private theorem mem_subscribeFilters (cfg : SubscribeConfig) (aclCheck : Text → Bool)
    {filters : List Subscription} (hqos : ∀ sub ∈ filters, sub.qos ≤ 2)
    (subs : ClientSubscriptions) (f : Text) :
    f ∈ (subscribeFilters cfg aclCheck subs filters).1 ↔
      f ∈ subs ∨ Granted (filters.zip (subscribeFilters cfg aclCheck subs filters).2) f := by
  induction filters generalizing subs with
  | nil => simp [subscribeFilters, Granted]
  | cons sub filters ih =>
    have hhead := subscribeFilter_cases cfg aclCheck subs (hqos sub List.mem_cons_self)
    have htail := ih (fun s hs => hqos s (List.mem_cons_of_mem _ hs))
      (subscribeFilter cfg aclCheck subs sub).1
    simp only [subscribeFilters, List.zip_cons_cons, Granted, List.exists_mem_cons_iff] at htail ⊢
    rw [htail]
    rcases hhead with ⟨hcode, hsubs⟩ | ⟨hcode, hsubs⟩
    · rw [hsubs]
      have hno : ¬ (subscribeFilter cfg aclCheck subs sub).2 < errUnspecifiedError := by omega
      simp only [hno, and_false, false_or]
    · simp only [hsubs, AList.mem_insert, hcode]
      tauto

private theorem length_subscribeFilters (cfg : SubscribeConfig) (aclCheck : Text → Bool)
    (filters : List Subscription) (subs : ClientSubscriptions) :
    (subscribeFilters cfg aclCheck subs filters).2.length = filters.length := by
  induction filters generalizing subs with
  | nil => rfl
  | cons sub filters ih => simp only [subscribeFilters, List.length_cons, ih]

theorem length_processSubscribe (cfg : SubscribeConfig) (aclCheck : Text → Bool) (inUse : Bool)
    (filters : List Subscription) (subs : ClientSubscriptions) :
    (processSubscribe cfg aclCheck inUse subs filters).2.length = filters.length := by
  unfold processSubscribe
  split_ifs
  · exact List.length_map _
  · exact length_subscribeFilters cfg aclCheck filters subs

theorem mem_processSubscribe (cfg : SubscribeConfig) (aclCheck : Text → Bool) (inUse : Bool)
    {filters : List Subscription} (hqos : ∀ sub ∈ filters, sub.qos ≤ 2)
    (subs : ClientSubscriptions) (f : Text) :
    f ∈ (processSubscribe cfg aclCheck inUse subs filters).1 ↔
      f ∈ subs ∨
        Granted (filters.zip (processSubscribe cfg aclCheck inUse subs filters).2) f := by
  unfold processSubscribe
  cases inUse with
  | false => exact mem_subscribeFilters cfg aclCheck hqos subs f
  | true =>
    have hnone : ¬ Granted (filters.zip (filters.map fun _ => errPacketIdentifierInUse)) f := by
      rintro ⟨⟨sub, code⟩, hp, -, hcode⟩
      obtain ⟨-, hmem⟩ := List.of_mem_zip hp
      obtain ⟨-, -, rfl⟩ := List.mem_map.1 hmem
      have hcode : errPacketIdentifierInUse < errUnspecifiedError := hcode
      exact absurd hcode (by decide)
    simp only [if_true, hnone, or_false]

/-- Erasing a list of keys. -/
theorem mem_foldl_erase {V : Type} (keys : List Text) (m : GoMap Text V) (f : Text) :
    f ∈ keys.foldl (fun m k => m.erase k) m ↔ f ∉ keys ∧ f ∈ m := by
  rw [← AList.lookup_isSome, GoMap.lookup_foldl_erase, ← AList.lookup_isSome]
  split_ifs with hf <;> simp [hf]

theorem mem_redisOnSubscribed (clientID : Text) (hash : SubHash) (filters : List Subscription)
    (codes : List ℕ) (f : Text) :
    f ∈ redisOnSubscribed clientID hash filters codes ↔
      f ∈ hash ∨ ∃ p ∈ filters.zip codes, p.1.filter = f := by
  unfold redisOnSubscribed
  generalize filters.zip codes = ps
  induction ps generalizing hash with
  | nil => simp
  | cons p ps ih =>
    rw [List.foldl_cons, ih, AList.mem_insert, List.exists_mem_cons_iff]
    tauto

theorem holdsRef_addClusterFilterRef (refs : FilterRefs) (clientID filter c f : Text) :
    HoldsRef (addClusterFilterRef refs clientID filter).1 c f ↔
      HoldsRef refs c f ∨ (c = clientID ∧ f = filter) := by
  by_cases hf : f = filter
  · subst hf
    unfold addClusterFilterRef HoldsRef
    cases hl : refs.lookup f with
    | none =>
      simp only [Option.getD_none, if_neg (AList.notMem_empty _), AList.lookup_insert,
        Option.some.injEq, exists_eq_left', reduceCtorEq, false_and, exists_false, false_or,
        and_true]
      rw [AList.mem_insert]
      exact or_iff_left (AList.notMem_empty c)
    | some clients =>
      by_cases hmem : clientID ∈ clients
      · simp only [Option.getD_some, if_pos hmem, hl, Option.some.injEq, exists_eq_left', and_true]
        exact ⟨Or.inl, fun h => h.elim id fun hc => hc ▸ hmem⟩
      · simp only [Option.getD_some, if_neg hmem, AList.lookup_insert, Option.some.injEq,
          exists_eq_left', AList.mem_insert, and_true]
        exact or_comm
  · unfold addClusterFilterRef HoldsRef
    dsimp only
    split_ifs
    · simp [hf]
    · simp [hf]

theorem holdsRef_removeClusterFilterRef (refs : FilterRefs) (clientID filter c f : Text) :
    HoldsRef (removeClusterFilterRef refs clientID filter).1 c f ↔
      HoldsRef refs c f ∧ ¬ (c = clientID ∧ f = filter) := by
  by_cases hf : f = filter
  · subst hf
    unfold removeClusterFilterRef HoldsRef
    cases hl : refs.lookup f with
    | none => simp [hl]
    | some clients =>
      dsimp only
      split_ifs with hempty
      · have hnil : (clients.erase clientID).entries = [] := List.isEmpty_iff.1 hempty
        have hno : c ∉ clients.erase clientID := by
          rw [AList.mem_keys, AList.keys, hnil]
          exact List.not_mem_nil
        rw [AList.mem_erase] at hno
        simp only [AList.lookup_erase, reduceCtorEq, false_and, exists_false, Option.some.injEq,
          exists_eq_left']
        tauto
      · simp only [AList.lookup_insert, Option.some.injEq, exists_eq_left', AList.mem_erase,
          and_true]
        exact and_comm
  · unfold removeClusterFilterRef HoldsRef
    split
    · simp [hf]
    · dsimp only
      split_ifs
      · simp [hf]
      · simp [hf]

private theorem holdsRef_keelOnSubscribed (clientID : Text) (refs : FilterRefs)
    (filters : List Text) (f : Text) :
    HoldsRef (keelOnSubscribed clientID refs filters) clientID f ↔
      HoldsRef refs clientID f ∨ f ∈ filters := by
  unfold keelOnSubscribed
  induction filters generalizing refs with
  | nil => simp
  | cons g filters ih =>
    rw [List.foldl_cons, ih, holdsRef_addClusterFilterRef, List.mem_cons, or_assoc]
    simp only [true_and]

private theorem holdsRef_keelOnUnsubscribed (clientID : Text) (refs : FilterRefs)
    (filters : List Text) (f : Text) :
    HoldsRef (keelOnUnsubscribed clientID refs filters) clientID f ↔
      f ∉ filters ∧ HoldsRef refs clientID f := by
  unfold keelOnUnsubscribed
  induction filters generalizing refs with
  | nil => simp
  | cons g filters ih =>
    rw [List.foldl_cons, ih, holdsRef_removeClusterFilterRef, List.mem_cons]
    tauto

/-! ### Runs of packets -/

/-- The subscriptions of one client in the three places, and the identifiers of its inbound
in-flight packets. -/
structure SubState where
  memory : ClientSubscriptions := ∅
  redis : SubHash := ∅
  filterRefs : FilterRefs := ∅
  inbound : List ℕ := []

/-- What happens to the client. -/
inductive SubEvent where
  | subscribe (pk : SubscribePacket) (aclCheck : Text → Bool)
  | unsubscribe (pk : UnsubscribePacket)
  | inbound (ids : List ℕ)

namespace SubState

variable (cfg : SubscribeConfig) (clientID : Text)

/-- The packet identifier belongs to an inbound in-flight packet. -/
def inUse (s : SubState) (packetID : ℕ) : Bool := packetID ∈ s.inbound

/-- The filters of a SUBSCRIBE with the reason codes of the broker. -/
def outcome (s : SubState) (pk : SubscribePacket) (aclCheck : Text → Bool) : Outcome :=
  pk.filters.zip (processSubscribe cfg aclCheck (s.inUse pk.packetID) s.memory pk.filters).2

/-- One event: the broker's part first, then the two hooks. -/
def step (s : SubState) : SubEvent → SubState
  | .subscribe pk aclCheck =>
    let (memory, codes) := processSubscribe cfg aclCheck (s.inUse pk.packetID) s.memory pk.filters
    { s with
      memory := memory
      redis := redisOnSubscribed clientID s.redis pk.filters codes
      filterRefs := keelOnSubscribed clientID s.filterRefs (pk.filters.map Subscription.filter) }
  | .unsubscribe pk =>
    { s with
      memory := processUnsubscribe (s.inUse pk.packetID) s.memory pk.filters
      redis := redisOnUnsubscribed s.redis pk.filters
      filterRefs := keelOnUnsubscribed clientID s.filterRefs pk.filters }
  | .inbound ids => { s with inbound := ids }

/-- The SUB hash and the filter references hold exactly the accepted filters. -/
def Consistent (s : SubState) : Prop :=
  ∀ f, (f ∈ s.redis ↔ f ∈ s.memory) ∧ (HoldsRef s.filterRefs clientID f ↔ f ∈ s.memory)

/-- The refusals of a packet change nothing: a refused filter of a SUBSCRIBE is already accepted, or
accepted in the same packet, and a refused UNSUBSCRIBE names no accepted filter. -/
def Harmless (s : SubState) : SubEvent → Prop
  | .subscribe pk aclCheck =>
    ∀ f, Refused (s.outcome cfg pk aclCheck) f →
      f ∈ s.memory ∨ Granted (s.outcome cfg pk aclCheck) f
  | .unsubscribe pk => s.inUse pk.packetID = true → ∀ f ∈ pk.filters, f ∉ s.memory
  | .inbound _ => True

variable {clientID}

theorem exists_outcome_iff {outcome : Outcome} {f : Text} :
    (∃ p ∈ outcome, p.1.filter = f) ↔ Granted outcome f ∨ Refused outcome f := by
  constructor
  · rintro ⟨p, hp, hf⟩
    rcases lt_or_ge p.2 errUnspecifiedError with h | h
    · exact Or.inl ⟨p, hp, hf, h⟩
    · exact Or.inr ⟨p, hp, hf, h⟩
  · rintro (⟨p, hp, hf, -⟩ | ⟨p, hp, hf, -⟩) <;> exact ⟨p, hp, hf⟩

theorem mem_filters_iff (s : SubState) (pk : SubscribePacket) (aclCheck : Text → Bool) (f : Text) :
    f ∈ pk.filters.map Subscription.filter ↔
      Granted (s.outcome cfg pk aclCheck) f ∨ Refused (s.outcome cfg pk aclCheck) f := by
  have hlen : pk.filters.length ≤
      (processSubscribe cfg aclCheck (s.inUse pk.packetID) s.memory pk.filters).2.length :=
    (length_processSubscribe cfg aclCheck _ pk.filters s.memory).ge
  have hfst : pk.filters.map Subscription.filter =
      (s.outcome cfg pk aclCheck).map fun p => p.1.filter := by
    rw [outcome, ← Function.comp_def Subscription.filter Prod.fst, ← List.map_map,
      List.map_fst_zip hlen]
  rw [hfst, List.mem_map, exists_outcome_iff]

variable {cfg}

theorem consistent_subscribe_iff {s : SubState} (hs : s.Consistent clientID)
    (pk : SubscribePacket) (aclCheck : Text → Bool) :
    (s.step cfg clientID (.subscribe pk aclCheck)).Consistent clientID ↔
      s.Harmless cfg (.subscribe pk aclCheck) := by
  have hmemory (f : Text) : f ∈ (s.step cfg clientID (.subscribe pk aclCheck)).memory ↔
      f ∈ s.memory ∨ Granted (s.outcome cfg pk aclCheck) f :=
    mem_processSubscribe cfg aclCheck (s.inUse pk.packetID) pk.qos_le s.memory f
  have hredis (f : Text) : f ∈ (s.step cfg clientID (.subscribe pk aclCheck)).redis ↔
      f ∈ s.redis ∨ ∃ p ∈ s.outcome cfg pk aclCheck, p.1.filter = f :=
    mem_redisOnSubscribed clientID s.redis pk.filters _ f
  have hrefs (f : Text) :
      HoldsRef (s.step cfg clientID (.subscribe pk aclCheck)).filterRefs clientID f ↔
        HoldsRef s.filterRefs clientID f ∨ f ∈ pk.filters.map Subscription.filter :=
    holdsRef_keelOnSubscribed clientID s.filterRefs _ f
  simp only [Consistent, hmemory, hredis, hrefs, exists_outcome_iff,
    mem_filters_iff cfg s pk aclCheck,
    (hs _).1, (hs _).2, and_self]
  constructor
  · intro h f hf
    exact (h f).1 (Or.inr (Or.inr hf))
  · intro h f
    constructor
    · rintro (hf | hf | hf)
      · exact Or.inl hf
      · exact Or.inr hf
      · exact h f hf
    · rintro (hf | hf)
      · exact Or.inl hf
      · exact Or.inr (Or.inl hf)

theorem consistent_unsubscribe_iff {s : SubState} (hs : s.Consistent clientID)
    (pk : UnsubscribePacket) :
    (s.step cfg clientID (.unsubscribe pk)).Consistent clientID ↔
      s.Harmless cfg (.unsubscribe pk) := by
  simp only [Consistent, step, redisOnUnsubscribed, mem_foldl_erase, holdsRef_keelOnUnsubscribed,
    (hs _).1, (hs _).2, and_self, Harmless, processUnsubscribe]
  cases s.inUse pk.packetID with
  | false => simp [mem_foldl_erase]
  | true =>
    simp only [true_implies]
    constructor
    · intro h f hf hmem
      exact ((h f).2 hmem).1 hf
    · intro h f
      constructor
      · exact And.right
      · intro hmem
        exact ⟨fun hf => h f hf hmem, hmem⟩

theorem consistent_step_iff (s : SubState) (e : SubEvent) (hs : s.Consistent clientID) :
    (s.step cfg clientID e).Consistent clientID ↔ s.Harmless cfg e := by
  cases e with
  | subscribe pk aclCheck => exact consistent_subscribe_iff hs pk aclCheck
  | unsubscribe pk => exact consistent_unsubscribe_iff hs pk
  | inbound ids => exact iff_of_true hs trivial

/-- The three copies agree after every event of a run exactly when every event of it is
harmless. -/
theorem always_consistent_iff {s : SubState} (hs : s.Consistent clientID) (es : List SubEvent) :
    Always (step cfg clientID) (Consistent clientID) s es ↔
      Along (step cfg clientID) (Harmless cfg) s es :=
  always_iff_along consistent_step_iff hs

/-! ### A refused filter -/

/-- A SUBSCRIBE of one filter at QoS 1. -/
def subscribeTo (packetID : ℕ) (filter : Text) : SubscribePacket where
  packetID := packetID
  filters := [{ filter := filter, qos := 1 }]
  qos_le := by simp

/-- The ACL check refuses the filter, and the SUB hash keeps it. -/
theorem not_always_consistent_refused :
    ¬ Always (step {} "sensor".toList) (Consistent "sensor".toList) {}
      [.subscribe (subscribeTo 1 "telemetry/#".toList) fun _ => false] := by
  rintro ⟨-, h⟩
  have hredis := (h "telemetry/#".toList).1
  revert hredis
  decide

/-- The filter is granted, asked for again and refused this time. An UNSUBSCRIBE of another filter
is refused since its packet identifier is in use, and the last one is not. -/
def refusals : List SubEvent :=
  [.subscribe (subscribeTo 1 "command/1".toList) fun _ => true,
    .subscribe (subscribeTo 2 "command/1".toList) fun _ => false, .inbound [3],
    .unsubscribe ⟨3, ["command/2".toList]⟩, .unsubscribe ⟨4, ["command/1".toList]⟩]

/-- The refusals are harmless, as the client holds the refused filter and does not hold the other
one. -/
theorem always_consistent_refusals :
    Refused (outcome {} (run (step {} "sensor".toList) {} (refusals.take 1))
      (subscribeTo 2 "command/1".toList) fun _ => false) "command/1".toList ∧
    Always (step {} "sensor".toList) (Consistent "sensor".toList) {} refusals := by
  have hempty : Consistent "sensor".toList {} := by
    intro f
    simp [HoldsRef]
  refine ⟨⟨_, List.mem_cons_self, by decide, by decide⟩, (always_consistent_iff hempty _).2
    ⟨?_, ?_, trivial, fun _ => by decide, fun h => absurd h (by decide), trivial⟩⟩
  · have hgranted : ∀ p ∈ outcome {} {} (subscribeTo 1 "command/1".toList) fun _ => true,
        p.2 < errUnspecifiedError := by
      decide
    rintro f ⟨p, hp, -, hcode⟩
    exact absurd (hgranted p hp) (not_lt.2 hcode)
  · have hheld : ∀ p ∈ outcome {} (run (step {} "sensor".toList) {} (refusals.take 1))
        (subscribeTo 2 "command/1".toList) fun _ => false,
        p.1.filter ∈ (run (step {} "sensor".toList) {} (refusals.take 1)).memory := by
      decide
    rintro f ⟨p, hp, rfl, -⟩
    exact Or.inl (hheld p hp)

end SubState

end KeelGateway.Broker

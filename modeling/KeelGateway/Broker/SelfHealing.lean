import KeelGateway.Broker.RouteReferences
import KeelGateway.Routing.SharedGroups
import KeelGateway.Routing.Store

/-!
# The reconciler of live routes

Every node compares from time to time the subscriptions of its clients with its routes in the cache,
and registers again what is missing. It takes the subscriptions of all clients that the broker
knows. A persistent session stays known after its connection has ended, when its routes have been
given up on purpose. So the reconciler registers live routes for sessions that are offline, and a
live route for a shared filter makes every router leave out the offline members of the group.

-/

namespace KeelGateway.Broker

open Mochi Routing

/-! ### The reconciler -/

/-- The clients of a broker, connected or not. -/
abbrev BrokerClients := GoMap Text ClientEntry

/-- `LocalSubscriptions`. -/
def localSubscriptions (clients : BrokerClients) : List Text :=
  (clients.entries.flatMap fun row => row.2.filters).dedup

/-- The filters that `reconcileOnce` calls `Subscribe` for. -/
def missingFilters (clients : BrokerClients) (cache : Router) (nodeID : Text) : List Text :=
  let known := cache.topicsForNode nodeID
  (localSubscriptions clients).filter fun filter => filter ∉ known

/-- A pass of the reconciler of a node: the cache that it finds, and how its calls end. -/
structure HealingPass where
  nodeID : Text
  cache : Router
  outcome : Text → CallOutcome

/-- `reconcileOnce`. -/
def healingStep (brokers : Text → BrokerClients) (s : RouteStore) (pass : HealingPass) :
    RouteStore :=
  (missingFilters (brokers pass.nodeID) pass.cache pass.nodeID).foldl
    (fun s filter => s.subscribe filter pass.nodeID (pass.outcome filter)) s

/-- A client of the broker subscribes to the filter, connected or not as `connected` says. -/
def HeldBy (clients : BrokerClients) (connected : Bool) (filter : Text) : Prop :=
  ∃ clientID entry, clients.lookup clientID = some entry ∧ entry.connected = connected ∧
    filter ∈ entry.filters

/-- The routers leave out the offline members of the group. -/
def Suppressed (cache : Router) (topic filter : Text) : Prop :=
  filter ∈ (cache.index.subscribers topic).shared

/-- The reconcilers register exactly the missing filters of connected clients, and never a filter
that makes the routers leave out the members of a group that are all offline. -/
structure HealsLive (brokers : Text → BrokerClients) : Prop where
  missing : ∀ (nodeID : Text) (cache : Router) (filter : Text),
    filter ∈ missingFilters (brokers nodeID) cache nodeID ↔
      HeldBy (brokers nodeID) true filter ∧ ¬ cache.HasRoute filter nodeID
  offline : ∀ (s : RouteStore) (passes : List HealingPass) (filter : Text),
    isSharedFilter filter = true → (∀ nodeID, ¬ HeldBy (brokers nodeID) true filter) →
    (∀ nodeID, (filter, nodeID) ∉ s) →
    ∀ cache : Router, cache.Mirrors (StepMachine.run (healingStep brokers) s passes) →
      ∀ topic, ¬ Suppressed cache topic filter

/-! ### What a pass registers -/

section Passes

variable {clients : BrokerClients} {brokers : Text → BrokerClients} {filter nodeID : Text}

theorem mem_localSubscriptions :
    filter ∈ localSubscriptions clients ↔
      HeldBy clients true filter ∨ HeldBy clients false filter := by
  simp only [localSubscriptions, List.mem_dedup, List.mem_flatMap, Sigma.exists, GoMap.mem_entries]
  constructor
  · rintro ⟨clientID, entry, hlookup, hfilter⟩
    cases hconnected : entry.connected with
    | true => exact Or.inl ⟨clientID, entry, hlookup, hconnected, hfilter⟩
    | false => exact Or.inr ⟨clientID, entry, hlookup, hconnected, hfilter⟩
  · rintro (⟨clientID, entry, hlookup, -, hfilter⟩ | ⟨clientID, entry, hlookup, -, hfilter⟩)
    · exact ⟨clientID, entry, hlookup, hfilter⟩
    · exact ⟨clientID, entry, hlookup, hfilter⟩

theorem mem_missingFilters {cache : Router} :
    filter ∈ missingFilters clients cache nodeID ↔
      (HeldBy clients true filter ∨ HeldBy clients false filter) ∧
        ¬ cache.HasRoute filter nodeID := by
  simp [missingFilters, mem_localSubscriptions, RouteTables.mem_topicsForNode]

theorem mem_of_mem_healingStep {s : RouteStore} {pass : HealingPass} {row : Text × Text}
    (h : row ∈ healingStep brokers s pass) :
    row ∈ s ∨ row.2 = pass.nodeID ∧ row.1 ∈ missingFilters (brokers pass.nodeID) pass.cache
      pass.nodeID := by
  rcases RouteStore.mem_foldl_subscribe.1 h with hrow | ⟨filter, hmissing, -, rfl⟩
  · exact Or.inl hrow
  · exact Or.inr ⟨rfl, hmissing⟩

theorem notMem_run_healingStep (hnone : ∀ nodeID, filter ∉ localSubscriptions (brokers nodeID))
    {s : RouteStore} (hs : ∀ nodeID, (filter, nodeID) ∉ s) (passes : List HealingPass)
    (nodeID : Text) : (filter, nodeID) ∉ StepMachine.run (healingStep brokers) s passes := by
  refine StepMachine.run_of_step (I := fun s => ∀ nodeID, (filter, nodeID) ∉ s) ?_ hs passes nodeID
  intro s pass hs n hrow
  rcases mem_of_mem_healingStep hrow with hrow | ⟨-, hmissing⟩
  · exact hs n hrow
  · exact hnone _ (mem_localSubscriptions.2 (mem_missingFilters.1 hmissing).1)

/-- The reconcilers register nothing but what a connected client subscribes to exactly if every
filter of a disconnected session is also held by a connected client of the same node. -/
theorem healsLive_iff (brokers : Text → BrokerClients) :
    HealsLive brokers ↔
      ∀ nodeID filter, HeldBy (brokers nodeID) false filter →
        HeldBy (brokers nodeID) true filter := by
  constructor
  · intro h nodeID filter hheld
    -- a cache without routes misses every filter
    have hmissing : filter ∈ missingFilters (brokers nodeID) .empty nodeID :=
      mem_missingFilters.2 ⟨Or.inr hheld, AList.notMem_empty _⟩
    exact ((h.missing nodeID .empty filter).1 hmissing).1
  · intro hcond
    have hlive (nodeID filter : Text) :
        HeldBy (brokers nodeID) true filter ∨ HeldBy (brokers nodeID) false filter ↔
          HeldBy (brokers nodeID) true filter :=
      or_iff_left_of_imp (hcond nodeID filter)
    refine ⟨fun nodeID cache filter => ?_,
      fun s passes filter _ hoffline hs cache hmirrors topic => ?_⟩
    · rw [mem_missingFilters, hlive]
    · intro hsuppressed
      obtain ⟨-, nodeID, hroute⟩ := cache.exists_hasRoute_of_shared hsuppressed
      refine notMem_run_healingStep (fun n hmem => ?_) hs passes nodeID ((hmirrors _ _).1 hroute)
      exact hoffline n ((hlive n filter).1 (mem_localSubscriptions.1 hmem))

end Passes

/-! ### An offline member of a shared group -/

/-- `$share/g/t`. -/
def groupFilter : Text := "$share/g/t".toList

/-- Node `A` after its client `c` has resumed a session with the shared filter and has lost the
connection. -/
def afterDisconnect : RefState :=
  StepMachine.run RefState.step {}
    [.resume ['c'] [groupFilter], .advance ['c'], .advance ['c'], .disconnect ['c'], .advance ['c']]

/-- The client of node `A`, and no other broker has any. -/
def afterDisconnectBrokers (nodeID : Text) : BrokerClients :=
  if nodeID = ['A'] then afterDisconnect.clients else ∅

/-- The routes of node `A`, of which the disconnect has left the offline owner of the client. -/
def afterDisconnectStore : RouteStore :=
  (AList.singleton (ownershipKey ['c'] groupFilter, ['A']) () : RouteStore)

/-- The disconnect has removed the live route of the client. The next pass registers it again, and
the routers do not select the client as an offline member of its group any more. -/
theorem not_healsLive_afterDisconnect :
    ¬ HealsLive afterDisconnectBrokers ∧
      groupFilter ∉ afterDisconnect.store ∧
      (afterDisconnectStore.scanned.offlineSharedSelections ['t']).lookup groupFilter =
        some (['A'], ['c']) ∧
      ((healingStep afterDisconnectBrokers afterDisconnectStore
        ⟨['A'], afterDisconnectStore.scanned, fun _ => .ok⟩).scanned.offlineSharedSelections
          ['t']).lookup groupFilter = none := by
  refine ⟨fun h => ?_, by decide +kernel, by decide +kernel, by decide +kernel⟩
  have hmissing : groupFilter ∈ missingFilters (afterDisconnectBrokers ['A']) .empty ['A'] := by
    decide +kernel
  obtain ⟨⟨clientID, entry, hlookup, hconnected, -⟩, -⟩ := (h.missing _ _ _).1 hmissing
  have hoffline : ∀ row ∈ (afterDisconnectBrokers ['A']).entries, row.2.connected = false := by
    decide +kernel
  rw [hoffline _ (GoMap.mem_entries.2 hlookup)] at hconnected
  cases hconnected

end KeelGateway.Broker

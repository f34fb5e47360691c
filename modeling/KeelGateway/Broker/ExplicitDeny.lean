import KeelGateway.Broker.AclCheck

/-!
# Explicit denies on an edge node

The replicated ACL state may hold a rule that denies a request. An edge node enforces it through
its registry, which is in one of three situations: no snapshot was fetched yet, the last snapshot
fetched is the one of that state, or requests go over RPC and no core peer answers. In the first
and the third the registry answers a deny without a rule, which the hook reads as no opinion.

-/

namespace KeelGateway.Broker

open Acl Raft

/-- The situation of an edge node with respect to the replicated state `st`. -/
inductive EdgeState (st : ACLState) where
  /-- All fetches of the cache have failed so far. -/
  | beforeFirstFetch (attempts : ℕ)
  /-- After any history the cache fetched a snapshot of `st`, and all later fetches failed. -/
  | afterFetch (history : List (Option ACLState)) (snap : ACLState) (same : snap.SameContent st)
      (attempts : ℕ)
  /-- Requests go over RPC and none of the known core peers answers. -/
  | rpcUnanswered (peers : ℕ)

namespace EdgeState

variable {st : ACLState}

/-- How the registry of the edge node answers. -/
def registry : EdgeState st → EvaluateACL
  | beforeFirstFetch attempts =>
    (StepMachine.run ACLCache.refresh {} (List.replicate attempts none)).evaluateACL
  | afterFetch history snap _ attempts =>
    (StepMachine.run ACLCache.refresh {}
      (history ++ some snap :: List.replicate attempts none)).evaluateACL
  | rpcUnanswered peers => fun _ _ _ _ => RemoteRegistry.evaluateACL (List.replicate peers none)

/-- The edge node holds a snapshot of the state. -/
def fetched : EdgeState st → Bool
  | beforeFirstFetch _ => false
  | afterFetch _ _ _ _ => true
  | rpcUnanswered _ => false

theorem registry_of_not_fetched {e : EdgeState st} (h : e.fetched = false)
    (clientID username topic : Text) (action : Action) :
    e.registry clientID username topic action = ⟨.deny, none⟩ := by
  cases e with
  | beforeFirstFetch attempts =>
    simp only [registry, ACLCache.run_failed]
    rfl
  | afterFetch history snap same attempts => cases h
  | rpcUnanswered peers => exact RemoteRegistry.evaluateACL_failed peers

theorem registry_of_fetched {e : EdgeState st} (h : e.fetched = true)
    {clientID username topic : Text} {action : Action}
    (hdeny : (st.evaluateACL clientID username topic action).ExplicitDeny) :
    (e.registry clientID username topic action).ExplicitDeny := by
  cases e with
  | beforeFirstFetch attempts => cases h
  | afterFetch history snap same attempts =>
    simp only [registry, ACLCache.run_fetched]
    exact (same.explicitDeny_iff _ _ _ _).2 hdeny
  | rpcUnanswered peers => cases h

end EdgeState

variable {parseUUID : Text → Bool}

/-- A request that the replicated state denies by a rule is rejected on an edge node exactly when
the client is not connected there, the node has fetched the state, or the built-in policy rejects
the request as well. -/
theorem onACLCheck_eq_false_iff {st : ACLState} (e : EdgeState st) (h : KeelHook)
    (hreg : h.clusterRegistry = some e.registry) (clientID username topic : Text) (write : Bool)
    (huser : ∀ state, h.clients.lookup clientID = some state → state.username = username)
    (hdeny : (st.evaluateACL clientID username topic (actionOf write)).ExplicitDeny) :
    h.onACLCheck parseUUID clientID topic write = false ↔
      e.fetched = true ∨
        ∀ state, h.clients.lookup clientID = some state →
          builtinPolicy parseUUID state topic write = false := by
  cases hstate : h.clients.lookup clientID with
  | none =>
    have hfalse : h.onACLCheck parseUUID clientID topic write = false := by
      rw [KeelHook.onACLCheck, hstate]
    simp [hfalse]
  | some state =>
    obtain rfl := huser state hstate
    cases hf : e.fetched with
    | true =>
      have hedge := EdgeState.registry_of_fetched hf hdeny
      rw [KeelHook.onACLCheck_of_rule_ne_none hstate hreg hedge.2, Decision.allowed, hedge.1]
      simp
    | false =>
      rw [KeelHook.onACLCheck_of_rule_eq_none hstate]
      · simp
      · intro evaluateACL heq
        obtain rfl : e.registry = evaluateACL := Option.some.inj (hreg.symm.trans heq)
        rw [EdgeState.registry_of_not_fetched hf]

/-! ### A denied telemetry topic -/

/-- A role that denies the topic `t` to whoever is bound to it. -/
def muteRole : Role := ⟨"mute".toList, [⟨"t".toList, ["publish".toList], .deny⟩]⟩

/-- The replicated state binds the role to the client ID `sensor`. -/
def muteState : ACLState where
  roles := AList.singleton "mute".toList muteRole
  bindings := AList.singleton "sensor".toList ["mute".toList]

/-- An edge node on which the client `sensor` is connected. -/
def edgeHook (e : EdgeState muteState) : KeelHook where
  clients := AList.singleton "sensor".toList ⟨⟨UUID.nil, UUID.nil⟩, .password, []⟩
  clusterRegistry := some e.registry

/-- Before the first fetch the edge node lets the denied request through. -/
theorem onACLCheck_beforeFirstFetch :
    (muteState.evaluateACL "sensor".toList [] "t".toList .publish).ExplicitDeny ∧
    (edgeHook (.beforeFirstFetch 1)).onACLCheck (fun _ => false) "sensor".toList "t".toList true =
      true := by
  refine ⟨⟨by decide +kernel, by decide +kernel⟩, by decide +kernel⟩

theorem onACLCheck_eq_false_iff_muted :
    (edgeHook (.afterFetch [] muteState ⟨fun _ => rfl, fun _ => rfl, fun _ => Iff.rfl⟩
      3)).onACLCheck
      (fun _ => false) "sensor".toList "t".toList true = false := by
  have hdeny : (muteState.evaluateACL "sensor".toList [] "t".toList .publish).ExplicitDeny :=
    ⟨by decide +kernel, by decide +kernel⟩
  refine (onACLCheck_eq_false_iff _ _ rfl "sensor".toList [] "t".toList true ?_ hdeny).2
    (Or.inl rfl)
  intro state hstate
  have hlookup : some (⟨⟨UUID.nil, UUID.nil⟩, .password, []⟩ : ClientState) = some state := hstate
  exact (Option.some.inj hlookup) ▸ rfl

end KeelGateway.Broker

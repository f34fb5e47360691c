import KeelGateway.Broker.Forwarding

/-!
# Forwards do not lead to forwards

A node that gets a forward publishes the message as the inline client of its server, and `OnPublish`
runs for this publish as for any other. It sends nothing on only because the table of the hook has
no client with the ID of the inline client. The table is filled with client IDs that devices choose,
and it keeps the entry of a persistent session that has gone offline.

Between two steps of the nodes the cluster may change in any way: clients come and go, routes are
registered and removed, and the tables of the hooks follow. A forward may also get lost, as no run
has to do all of its tasks.

-/

namespace KeelGateway.Broker

open Mochi Routing TaskPool StepMachine

/-! ### Forward messages -/

/-- The cluster at the moment at which a node works for a publish. -/
structure Moment where
  net : Net
  redis : Cluster
  input : Input := {}

/-- A node has processed a publish: whether its hook has fanned it out, and the nodes that a Forward
message was sent to. -/
structure Processed where
  nodeID : Text
  fansOut : Bool
  targets : List Text

/-- The node that a forward goes to. -/
def Task.target : Task → Option Text
  | inbound nodeID _ _ _ => some nodeID
  | queue _ _ _ => none

/-- The publish of a client is processed on a node and leads to these tasks. -/
def Moment.processed (m : Moment) (nodeID clientID : Text) (tasks : List Task) : Processed where
  nodeID := nodeID
  fansOut := m.net.Admits nodeID clientID m.input
  targets := tasks.filterMap Task.target

/-- A publish of a client after its node has processed it. -/
def Moment.publish (m : Moment) (nodeID clientID : Text) (pk : PublishPacket) :
    Pool Unit Task Processed :=
  let tasks := (m.net.start m.redis nodeID clientID pk m.input).tasks
  { state := (), tasks := tasks, log := [m.processed nodeID clientID tasks] }

/-- A task that is done at a moment. The cluster is that of the next moment in any case. -/
def hop (cfg : ClusterConfig) (_ : Unit) (t : Task) (m : Moment) : Pool Unit Task Processed :=
  let tasks := (m.net.exec cfg m.redis t m.input).tasks
  match t with
  | .inbound nodeID _ _ _ =>
    { state := (), tasks := tasks, log := [m.processed nodeID inlineClientID tasks] }
  | .queue _ _ _ => { state := (), tasks := tasks }

/-- The targets of all Forward messages. -/
def forwards (log : List Processed) : List Text := log.flatMap Processed.targets

/-- The nodes that have fanned the publish out. -/
def fanOuts (log : List Processed) : List Text :=
  (log.filter Processed.fansOut).map Processed.nodeID

/-- The task is a forward that its node fans out again: the hook finds a client with the ID of the
inline client, and the rate limiter of its tenant lets the publish through. -/
def Moment.Relays (m : Moment) : Task → Prop
  | .inbound nodeID _ _ _ => m.net.Admits nodeID inlineClientID m.input
  | .queue _ _ _ => False

/-- The task that is done next is not fanned out. -/
def EndsHere (p : Pool Unit Task Processed) (e : ℕ × Moment) : Prop :=
  ∀ t, p.tasks[e.1]? = some t → ¬ e.2.Relays t

/-- What was done so far for a publish on a node. -/
structure SingleHop (m : Moment) (nodeID clientID : Text) (pk : PublishPacket)
    (p : Pool Unit Task Processed) : Prop where
  /-- No forward has started another fan-out. -/
  origin : fanOuts p.log = fanOuts (m.publish nodeID clientID pk).log
  /-- No node gets two Forward messages. -/
  nodup : (forwards p.log).Nodup
  /-- The node of the publisher gets none. -/
  notSelf : nodeID ∉ forwards p.log
  /-- There are fewer than the cluster has nodes. -/
  bounded : ∀ nodes : Finset Text, nodeID ∈ nodes →
    (∀ target ∈ (m.net.caches nodeID).forwardTargets nodeID pk.topic.text, target ∈ nodes) →
    (forwards p.log).length < nodes.card

/-! ### What one task sends -/

namespace Net

variable {net : Net} {redis : Cluster} {nodeID clientID : Text} {pk : PublishPacket}
  {publishID : UUID} {sharedFilters : Option (List Text)} {input : Input}

theorem targets_offlineTasks :
    (net.offlineTasks redis nodeID pk publishID).filterMap Task.target = [] := by
  simp [offlineTasks, Task.target]

theorem targets_processPublish_of_admits (h : net.Admits nodeID clientID input) :
    (net.processPublish redis nodeID clientID pk sharedFilters input).tasks.filterMap Task.target =
      (net.caches nodeID).forwardTargets nodeID pk.topic.text := by
  rw [processPublish_of_admits h]
  simp only [forwardToClusterSubscribers, List.filterMap_append, targets_offlineTasks,
    List.filterMap_map]
  exact List.filterMap_some

theorem targets_processPublish_of_not_admits (h : ¬ net.Admits nodeID clientID input) :
    (net.processPublish redis nodeID clientID pk sharedFilters input).tasks.filterMap Task.target =
      [] := by
  unfold processPublish
  rcases onPublish_of_not_admits h sharedFilters with hsome | hnone
  · rw [hsome]
    rfl
  · rw [hnone]
    rfl

private theorem nodup_forwardTargets :
    ((net.caches nodeID).forwardTargets nodeID pk.topic.text).Nodup :=
  (List.nodup_dedup _).filter _

end Net

variable {cfg : ClusterConfig} {m : Moment} {nodeID clientID : Text} {pk : PublishPacket}

theorem hop_of_not_relays (cfg : ClusterConfig) (s : Unit) {t : Task} (h : ¬ m.Relays t) :
    fanOuts (hop cfg s t m).log = [] ∧ forwards (hop cfg s t m).log = [] := by
  cases t with
  | inbound nodeID pk publishID sharedFilters =>
    have hadmits : ¬ m.net.Admits nodeID inlineClientID m.input := h
    refine ⟨?_, ?_⟩
    · simp [fanOuts, hop, Moment.processed, hadmits]
    · simp only [forwards, hop, Moment.processed, Net.exec, List.flatMap_singleton,
        List.filterMap_append, Net.targets_offlineTasks, List.append_nil]
      exact Net.targets_processPublish_of_not_admits hadmits
  | queue pk publishID call => exact ⟨rfl, rfl⟩

private theorem fanOuts_hop_of_relays {t : Task} {s : Unit} (h : m.Relays t) :
    fanOuts (hop cfg s t m).log ≠ [] := by
  cases t with
  | inbound nodeID pk publishID sharedFilters =>
    have hadmits : m.net.Admits nodeID inlineClientID m.input := h
    simp [fanOuts, hop, Moment.processed, hadmits]
  | queue pk publishID call => exact absurd h id

section Publish

variable (m nodeID clientID pk)

private theorem sublist_forwards_publish : (forwards (m.publish nodeID clientID pk).log).Sublist
    ((m.net.caches nodeID).forwardTargets nodeID pk.topic.text) := by
  have hforwards : forwards (m.publish nodeID clientID pk).log =
      (m.net.processPublish m.redis nodeID clientID pk none m.input).tasks.filterMap Task.target :=
    List.flatMap_singleton _ _
  rw [hforwards]
  by_cases h : m.net.Admits nodeID clientID m.input
  · rw [Net.targets_processPublish_of_admits h]
  · rw [Net.targets_processPublish_of_not_admits h]
    exact List.nil_sublist _

theorem singleHop_publish : SingleHop m nodeID clientID pk (m.publish nodeID clientID pk) := by
  have hsub := sublist_forwards_publish m nodeID clientID pk
  have hnodup := Net.nodup_forwardTargets.sublist hsub
  have hself : nodeID ∉ forwards (m.publish nodeID clientID pk).log :=
    fun h => (RouteTables.mem_forwardTargets.1 (hsub.subset h)).1 rfl
  refine ⟨rfl, hnodup, hself, fun nodes hnodes htargets => ?_⟩
  have hcons : nodeID :: forwards (m.publish nodeID clientID pk).log ⊆ nodes.toList := by
    refine List.cons_subset.2 ⟨Finset.mem_toList.2 hnodes, fun target htarget => ?_⟩
    exact Finset.mem_toList.2 (htargets target (hsub.subset htarget))
  have hlength := ((List.nodup_cons.2 ⟨hself, hnodup⟩).subperm hcons).length_le
  rw [Finset.length_toList] at hlength
  exact hlength

end Publish

theorem forwards_append (log log' : List Processed) :
    forwards (log ++ log') = forwards log ++ forwards log' :=
  List.flatMap_append

theorem fanOuts_append (log log' : List Processed) :
    fanOuts (log ++ log') = fanOuts log ++ fanOuts log' := by
  simp [fanOuts]

theorem singleHop_step_iff {p : Pool Unit Task Processed} (h : SingleHop m nodeID clientID pk p)
    (e : ℕ × Moment) :
    SingleHop m nodeID clientID pk (step (hop cfg) p e) ↔ EndsHere p e := by
  unfold step EndsHere
  split
  · next hnone =>
    refine iff_of_true h fun t ht => ?_
    rw [hnone] at ht
    cases ht
  · next t ht =>
    constructor
    · intro h' t' ht' hrelays
      obtain rfl := Option.some.inj (ht.symm.trans ht')
      have horigin := h'.origin.trans h.origin.symm
      rw [Pool.after, fanOuts_append, List.append_right_eq_self] at horigin
      exact fanOuts_hop_of_relays hrelays horigin
    · intro hends
      obtain ⟨hfan, hsent⟩ := hop_of_not_relays cfg p.state (hends t ht)
      have hforwards : forwards (p.after e.1 (hop cfg p.state t e.2)).log = forwards p.log := by
        rw [Pool.after, forwards_append, hsent, List.append_nil]
      refine ⟨?_, ?_, ?_, ?_⟩
      · rw [Pool.after, fanOuts_append, hfan, List.append_nil, h.origin]
      · rw [hforwards]
        exact h.nodup
      · rw [hforwards]
        exact h.notSelf
      · rw [hforwards]
        exact h.bounded

/-! ### Runs -/

/-- Whatever the clients, the sessions and the routes of all nodes are at every moment: no forward
starts another fan-out, and all Forward messages for a publish together are at most one to any other
node, exactly if no node handles a forward while its hook has a client with the ID of the inline
client that it fans out for. -/
theorem always_singleHop_iff (cfg : ClusterConfig) (m : Moment) (nodeID clientID : Text)
    (pk : PublishPacket) (es : List (ℕ × Moment)) :
    Always (step (hop cfg)) (SingleHop m nodeID clientID pk) (m.publish nodeID clientID pk) es ↔
      Along (step (hop cfg)) EndsHere (m.publish nodeID clientID pk) es :=
  always_iff_along (fun _ e h => singleHop_step_iff h e)
    (singleHop_publish m nodeID clientID pk)

/-- As long as no hook has a client that calls itself `inline`, all forwards for a publish come from
its own node, at most one to any other node. -/
theorem always_singleHop_of_noInline {es : List (ℕ × Moment)}
    (h : ∀ e ∈ es, ∀ nodeID, (e.2.net.hooks nodeID).clients.lookup inlineClientID = none) :
    Always (step (hop cfg)) (SingleHop m nodeID clientID pk) (m.publish nodeID clientID pk) es := by
  refine always_of_along (fun p e hp he => (singleHop_step_iff hp e).2 fun t ht hrelays => ?_)
    (singleHop_publish m nodeID clientID pk) (along_of_forall h _)
  cases t with
  | inbound nodeID pk publishID sharedFilters =>
    obtain ⟨state, hstate, -⟩ := hrelays
    rw [he nodeID] at hstate
    cases hstate
  | queue pk publishID call => exact hrelays

/-! ### A persistent client called `inline` -/

/-- A publish on the topic `x`. -/
def publishX : PublishPacket where
  topic := ⟨['x'], by decide, by decide⟩
  payload := [1]
  qos := 0

/-- The nodes `A` and `B` have subscribers of `x`, and the client `p` is connected to `A`. A
persistent client called `inline` has been connected to one node after the other, and the tables of
both have kept it. -/
def bounce : Moment where
  net := {
    hooks := fun nodeID =>
      let kept := AList.singleton inlineClientID ⟨Cluster.device 1, .password, []⟩
      if nodeID = ['A'] then { clients := kept.insert ['p'] ⟨Cluster.device 2, .password, []⟩ }
      else { clients := kept }
    caches := fun _ => .reconcile [routeKey ['x'] ['A'], routeKey ['x'] ['B']]
    indexes := fun _ => .empty
    connected := fun nodeID clientID => nodeID = ['A'] && clientID = ['p'] }
  redis := Cluster.fresh

/-- Without that client a forward of the publish ends at node `B`. -/
theorem always_singleHop_quiet :
    Always (step (hop Cluster.schema2)) (SingleHop bounce ['A'] ['p'] publishX)
      (bounce.publish ['A'] ['p'] publishX)
      [(0, { bounce with net := { bounce.net with hooks := fun _ => {} } })] :=
  always_singleHop_of_noInline fun e he nodeID => by rw [List.mem_singleton.1 he]; rfl

/-- The handler of the forward on a node. -/
def bounceTask (nodeID : Text) : Task := .inbound nodeID publishX UUID.nil (some [])

theorem bounce_run (cfg : ClusterConfig) (n : ℕ) :
    let p := run (step (hop cfg)) (bounce.publish ['A'] ['p'] publishX)
      (List.replicate n (0, bounce))
    (p.tasks = [bounceTask ['B']] ∨ p.tasks = [bounceTask ['A']]) ∧
      (forwards p.log).length = n + 1 := by
  induction n with
  | zero => exact ⟨Or.inl rfl, rfl⟩
  | succ n ih =>
    obtain ⟨htasks, hlength⟩ := ih
    rw [List.replicate_succ', run_append, run_cons, run_nil]
    rcases htasks with htasks | htasks
    · rw [step_of_tasks_eq_singleton htasks]
      exact ⟨Or.inr rfl, by rw [forwards_append, List.length_append, hlength]; rfl⟩
    · rw [step_of_tasks_eq_singleton htasks]
      exact ⟨Or.inl rfl, by rw [forwards_append, List.length_append, hlength]; rfl⟩

/-- The two nodes send a single publish to each other without end: there are as many Forward
messages as one likes, and with the second one there are too many for a cluster of two nodes. -/
theorem not_singleHop_bounce :
    (∀ n, (forwards (run (step (hop Cluster.schema2)) (bounce.publish ['A'] ['p'] publishX)
      (List.replicate n (0, bounce))).log).length = n + 1) ∧
    ¬ SingleHop bounce ['A'] ['p'] publishX
      (run (step (hop Cluster.schema2)) (bounce.publish ['A'] ['p'] publishX) [(0, bounce)]) := by
  refine ⟨fun n => (bounce_run _ n).2, fun h => ?_⟩
  have hlength := (bounce_run Cluster.schema2 1).2
  have hbounded := h.bounded {['A'], ['B']} (by decide) (by decide +kernel)
  exact absurd hlength (Nat.ne_of_lt hbounded)

end KeelGateway.Broker

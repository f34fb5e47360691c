import KeelGateway.Broker.SessionLifetime

/-!
# What a session leaves behind

A CONNECT with Clean starts a new session, and the end of a connection that reports `expire` ends
one. Neither deletes the keys of the client as a whole. A clean CONNECT removes what the client
object on its own node remembers, field by field; a session that ends is deleted from Redis unless
it was taken over, in which case the fields that its client object remembers are removed. The
offline-ownership entries of the client stay in both cases.

-/

namespace KeelGateway.Broker

open Redis Mochi StepMachine

/-- What `attachClient` finds in a client object whose connection has ended: a new connection that
took it over has emptied it. -/
def ClientObject.remaining (o : ClientObject) : Copy := if o.takenOver then {} else o.copy

namespace Lifetime

variable (cfg : LifetimeConfig)

/-- The client object in the table of a node, an empty one if there is none. -/
def localCopy (s : Lifetime) (node : Text) : Copy :=
  match s.object node with
  | none => {}
  | some o => o.copy

/-- No subscription, no in-flight message, no packet ID counter and no offline-ownership entry. -/
structure NoResidue (s : Lifetime) : Prop where
  sub : ∀ f, f ∉ s.sub
  hash : ∀ f, f ∉ s.keys.hash.value
  counter : s.keys.counter.value = none
  ownership : ∀ f, f ∉ s.ownership

/-- A client object whose end is due, and with it the end of its session. -/
def Ending (o : ClientObject) : Prop :=
  o.stop.isSome = true ∧ o.ended = false ∧ o.properties.expire = true

/-- Nothing is left after a clean CONNECT, nor after the end of a session unless the client has
connected again. -/
def LeavesNothing (s : Lifetime) : LifetimeEvent → Prop
  | .connect node properties now =>
    properties.clean = true → (s.connected cfg node properties now).NoResidue
  | .ended i owner => ∀ o ∈ s.objects[i]?, Ending o → i + 1 = s.objects.length →
    (s.ended cfg i owner).NoResidue
  | _ => True

/-- The client object remembers every subscription and every message in flight that Redis holds. -/
structure Remembered (s : Lifetime) (copy : Copy) : Prop where
  sub : ∀ f ∈ s.sub, f ∈ copy.filters
  hash : ∀ f ∈ s.keys.hash.value, ∃ pk ∈ copy.inflight.getAll, f ∈ deleteFields cfg.schema pk true

/-- There is no ownership entry, and no counter and nothing else in Redis but what the client object
remembers; a session that ends without having been taken over may have anything in Redis. -/
def Removable (s : Lifetime) : LifetimeEvent → Prop
  | .connect node properties _ => properties.clean = true →
    (∀ f, f ∉ s.ownership) ∧ s.keys.counter.value = none ∧
      s.Remembered cfg (s.localCopy node)
  | .ended i _ => ∀ o ∈ s.objects[i]?, Ending o → i + 1 = s.objects.length →
    (∀ f, f ∉ s.ownership) ∧
      (o.stop.map Prod.fst = some .sessionTakenOver → s.keys.counter.value = none ∧
        s.Remembered cfg o.remaining)
  | _ => True

variable {cfg}

/-! ### Removing what a client object remembers -/

theorem cleared_empty (k : Keys) :
    SessionState.cleared cfg.toSessionConfig k (({} : Copy).inflight.getAll) = k := by
  simp [Inflight.getAll, SessionState.cleared]

private theorem counter_cleared (k : Keys) (pks : List Packet) :
    (SessionState.cleared cfg.toSessionConfig k pks).counter = k.counter := by
  induction pks generalizing k with
  | nil => rfl
  | cons pk pks ih =>
    refine (ih _).trans ?_
    dsimp only [Keys.liveDelete]
    split_ifs <;> rfl

theorem mem_cleared {k : Keys} (h : k.marker.value.fence? = some cfg.schema) (pks : List Packet)
    (f : Field) : f ∈ (SessionState.cleared cfg.toSessionConfig k pks).hash.value ↔
      f ∈ k.hash.value ∧ ¬ ∃ pk ∈ pks, f ∈ deleteFields cfg.schema pk true := by
  rw [← AList.lookup_isSome, SessionState.lookup_cleared h, ← AList.lookup_isSome]
  split_ifs with hpk <;> simp [hpk]

variable {s : Lifetime} {o : ClientObject}

theorem noResidue_removed_iff {t : Lifetime} (copy : Copy)
    (h : s.keys.marker.value.fence? = some cfg.schema)
    (hsub : t.sub = redisOnUnsubscribed s.sub copy.filters)
    (hkeys : t.keys = SessionState.cleared cfg.toSessionConfig s.keys copy.inflight.getAll)
    (hown : t.ownership = s.ownership) :
    t.NoResidue ↔ (∀ f, f ∉ s.ownership) ∧ s.keys.counter.value = none ∧ s.Remembered cfg copy := by
  have hmem (f : Text) : f ∈ t.sub ↔ f ∉ copy.filters ∧ f ∈ s.sub := by
    rw [hsub]
    exact mem_foldl_erase _ _ f
  have hfield (f : Field) : f ∈ t.keys.hash.value ↔ f ∈ s.keys.hash.value ∧
      ¬ ∃ pk ∈ copy.inflight.getAll, f ∈ deleteFields cfg.schema pk true := by
    rw [hkeys]
    exact mem_cleared h _ f
  have hcounter : t.keys.counter = s.keys.counter := by
    rw [hkeys]
    exact counter_cleared _ _
  constructor
  · intro hno
    refine ⟨fun f => hown ▸ hno.ownership f, hcounter ▸ hno.counter, fun f hf => ?_, fun f hf => ?_⟩
    · by_contra hnot
      exact hno.sub f ((hmem f).2 ⟨hnot, hf⟩)
    · by_contra hnot
      exact hno.hash f ((hfield f).2 ⟨hf, hnot⟩)
  · rintro ⟨howner, hnone, hrem⟩
    exact
      { sub := fun f hf => ((hmem f).1 hf).1 (hrem.sub f ((hmem f).1 hf).2)
        hash := fun f hf => ((hfield f).1 hf).2 (hrem.hash f ((hfield f).1 hf).1)
        counter := hcounter ▸ hnone
        ownership := fun f => hown ▸ howner f }

/-! ### A clean CONNECT -/

theorem connected_clean (cfg : LifetimeConfig) (s : Lifetime) (node : Text)
    {properties : ClientProperties} (hclean : properties.clean = true) (now : ℤ) :
    (s.connected cfg node properties now).sub =
        redisOnUnsubscribed s.sub (s.localCopy node).filters ∧
      (s.connected cfg node properties now).keys =
        SessionState.cleared cfg.toSessionConfig s.keys
          (s.localCopy node).inflight.getAll ∧
      (s.connected cfg node properties now).ownership = s.ownership := by
  unfold connected
  simp only [hclean, if_true, SessionState.abandoned, session, localCopy]
  cases s.object node with
  | none => exact ⟨rfl, (cleared_empty s.keys).symm, trivial⟩
  | some o => exact ⟨rfl, rfl, trivial⟩

/-! ### The end of a session -/

theorem keelOnDisconnect_of_expire (s : Lifetime) (i : ℕ) (h : o.properties.expire = true)
    (owner : Option Text) :
    (s.keelOnDisconnect i o owner).sub = s.sub ∧ (s.keelOnDisconnect i o owner).keys = s.keys ∧
      (s.keelOnDisconnect i o owner).ownership = s.ownership := by
  unfold keelOnDisconnect
  rw [h]
  split_ifs <;> exact ⟨rfl, rfl, rfl⟩

theorem dropped_of_expire (cfg : LifetimeConfig) (s : Lifetime) (i : ℕ)
    (h : o.properties.expire = true) :
    (dropped cfg s i o).sub =
        redisOnUnsubscribed s.sub o.remaining.filters ∧
      (dropped cfg s i o).keys = SessionState.cleared cfg.toSessionConfig s.keys
        o.remaining.inflight.getAll ∧
      (dropped cfg s i o).ownership = s.ownership := by
  unfold dropped ClientObject.remaining
  cases htaken : o.takenOver with
  | false =>
    simp only [h, Bool.not_false, Bool.and_true, if_true, Bool.false_eq_true, if_false]
    exact ⟨trivial, trivial, trivial⟩
  | true =>
    simp only [Bool.not_true, Bool.and_false, Bool.false_eq_true, if_false]
    exact ⟨rfl, (cleared_empty s.keys).symm, trivial⟩

private theorem redisOnDisconnect_of_takenOver (s : Lifetime)
    (h : o.stop.map Prod.fst = some .sessionTakenOver) : s.redisOnDisconnect o = s := by
  obtain ⟨stop, hstop, hcause⟩ := Option.map_eq_some_iff.1 h
  obtain ⟨cause, time⟩ := stop
  subst hcause
  simp only [redisOnDisconnect, hstop]

private theorem redisOnDisconnect_of_expire (s : Lifetime)
    (hcause : o.stop.map Prod.fst ≠ some .sessionTakenOver) (h : o.properties.expire = true) :
    s.redisOnDisconnect o = s.deleteSessionState := by
  unfold redisOnDisconnect
  split
  · rename_i time hstop
    exact absurd (by rw [hstop]; rfl) hcause
  · rw [if_pos h]

theorem ended_of_ending (cfg : LifetimeConfig) {i : ℕ} (ho : s.objects[i]? = some o) (h : Ending o)
    (owner : Option Text) :
    (s.ended cfg i owner).sub =
        redisOnUnsubscribed ((s.markEnded i).redisOnDisconnect o).sub o.remaining.filters ∧
      (s.ended cfg i owner).keys = SessionState.cleared cfg.toSessionConfig
        ((s.markEnded i).redisOnDisconnect o).keys o.remaining.inflight.getAll ∧
      (s.ended cfg i owner).ownership = ((s.markEnded i).redisOnDisconnect o).ownership := by
  obtain ⟨hstop, hended, hexpire⟩ := h
  have heq : s.ended cfg i owner =
      dropped cfg (((s.markEnded i).redisOnDisconnect o).keelOnDisconnect i o owner) i o := by
    simp [ended, ho, hstop, hended]
  obtain ⟨hsub, hkeys, hown⟩ :=
    keelOnDisconnect_of_expire ((s.markEnded i).redisOnDisconnect o) i hexpire owner
  obtain ⟨hsub', hkeys', hown'⟩ := dropped_of_expire cfg
    (((s.markEnded i).redisOnDisconnect o).keelOnDisconnect i o owner) i hexpire
  rw [heq]
  exact ⟨hsub'.trans (by rw [hsub]), hkeys'.trans (by rw [hkeys]), hown'.trans hown⟩

/-- What the end of a session leaves. -/
theorem noResidue_ended_iff {i : ℕ} (hschema : s.keys.marker.value.fence? = some cfg.schema)
    (ho : s.objects[i]? = some o) (h : Ending o) (owner : Option Text) :
    (s.ended cfg i owner).NoResidue ↔ (∀ f, f ∉ s.ownership) ∧
      (o.stop.map Prod.fst = some .sessionTakenOver →
        s.keys.counter.value = none ∧ s.Remembered cfg o.remaining) := by
  obtain ⟨hsub, hkeys, hown⟩ := ended_of_ending cfg ho h owner
  by_cases hcause : o.stop.map Prod.fst = some .sessionTakenOver
  · rw [redisOnDisconnect_of_takenOver _ hcause] at hsub hkeys hown
    rw [noResidue_removed_iff o.remaining hschema hsub hkeys hown]
    exact and_congr Iff.rfl ⟨fun hrem _ => ⟨hrem.1, hrem.2.sub, hrem.2.hash⟩,
      fun hrem => ⟨(hrem hcause).1, (hrem hcause).2.sub, (hrem hcause).2.hash⟩⟩
  · rw [redisOnDisconnect_of_expire _ hcause h.2.2] at hsub hkeys hown
    rw [noResidue_removed_iff (s := (s.markEnded i).deleteSessionState) o.remaining hschema hsub
      hkeys hown]
    -- after `deleteSessionState` there is nothing left to remember
    have hrem : (s.markEnded i).deleteSessionState.Remembered cfg o.remaining :=
      ⟨fun f hf => absurd hf (AList.notMem_empty f), fun f hf => absurd hf (AList.notMem_empty f)⟩
    exact and_congr Iff.rfl ⟨fun _ htaken => absurd htaken hcause, fun _ => ⟨rfl, hrem⟩⟩

/-- What one step leaves behind. -/
theorem leavesNothing_iff (s : Lifetime) (e : LifetimeEvent)
    (hschema : s.keys.marker.value.fence? = some cfg.schema) :
    s.LeavesNothing cfg e ↔ s.Removable cfg e := by
  cases e with
  | connect node properties now =>
    refine forall_congr' fun hclean => ?_
    obtain ⟨hsub, hkeys, hown⟩ := connected_clean cfg s node hclean now
    exact noResidue_removed_iff _ hschema hsub hkeys hown
  | ended i owner =>
    refine forall_congr' fun o => forall_congr' fun ho => forall_congr' fun hend =>
      forall_congr' fun _ => ?_
    exact noResidue_ended_iff hschema ho hend owner
  | subscribe | unsubscribe | ack | deliver | receive | enqueue | reconcile | stop | evict
  | sweep => exact Iff.rfl

/-! ### Runs -/

theorem marker_onObject (s : Lifetime) (i : ℕ) {f : SessionState → Copy → Copy × SubHash × Keys}
    (hf : ∀ t copy, (f t copy).2.2.marker = t.keys.marker) :
    (s.onObject i f).keys.marker = s.keys.marker := by
  unfold onObject
  split
  · rfl
  · split_ifs
    · rfl
    · exact hf _ _

private theorem marker_ended (s : Lifetime) (i : ℕ) (owner : Option Text) :
    (s.ended cfg i owner).keys.marker = s.keys.marker := by
  have hredis (t : Lifetime) (o : ClientObject) :
      (t.redisOnDisconnect o).keys.marker = t.keys.marker := by
    unfold redisOnDisconnect
    split
    · rfl
    · split_ifs <;> rfl
  have hkeel (t : Lifetime) (o : ClientObject) : (t.keelOnDisconnect i o owner).keys = t.keys := by
    unfold keelOnDisconnect
    split_ifs
    · split
      · split <;> rfl
      · rfl
    · rfl
  have hdropped (t : Lifetime) (o : ClientObject) :
      (dropped cfg t i o).keys.marker = t.keys.marker := by
    unfold dropped
    split_ifs
    · exact SessionState.marker_cleared _ _
    · rfl
  unfold ended
  split
  · rfl
  · split_ifs
    · rw [hdropped, hkeel, hredis]
      rfl
    · rfl

theorem marker_step (s : Lifetime) (e : LifetimeEvent) :
    (s.step cfg e).keys.marker = s.keys.marker := by
  cases e with
  | connect node properties now =>
    unfold step connected
    dsimp only
    split_ifs
    · exact (s.session node).marker_abandoned node properties.clean
    · exact (s.session node).marker_connected node
  | subscribe i pk aclCheck | unsubscribe i pk => exact s.marker_onObject i fun t copy => rfl
  | ack i a => exact s.marker_onObject i fun t copy => t.marker_onAck a copy
  | deliver i pk last outcome =>
    exact s.marker_onObject i fun t copy => t.marker_onDeliver pk last outcome copy
  | receive i packetID now =>
    exact s.marker_onObject i fun t copy => t.marker_onReceive packetID now copy
  | enqueue args now => exact s.keys.marker_queueOfflineInflight cfg.clientID args now
  | reconcile | stop | evict => rfl
  | ended i owner => exact s.marker_ended i owner
  | sweep node dt =>
    unfold step swept
    dsimp only
    split
    · rfl
    · split_ifs <;> rfl

/-- In a run from a state whose schema marker the nodes know, clean CONNECTs and ends of sessions
leave nothing exactly as long as each of them meets no ownership entry and nothing in Redis that it
does not remove. -/
theorem along_leavesNothing_iff (s : Lifetime) (es : List LifetimeEvent)
    (hschema : s.keys.marker.value.fence? = some cfg.schema) :
    Along (step cfg) (LeavesNothing cfg) s es ↔
      Along (step cfg) (Removable cfg) s es :=
  along_iff_of_invariant
    (fun s e hs => (congrArg (·.value.fence?) (marker_step s e)).trans hs) leavesNothing_iff
    hschema es

/-! ### What is left -/

/-- A client whose sessions end with the connection. -/
def transient (clean : Bool) : ClientProperties where
  clean := clean

/-- A persistent session with a subscription goes offline on one node. -/
def offline : List LifetimeEvent :=
  [.connect "x".toList persistent 0,
    .subscribe 0 (SubState.subscribeTo 1 "t".toList) fun _ => true,
    .stop 0 none 10, .ended 0 (some "x".toList)]

/-- A message is queued for a session that is offline; the client resumes the session for the length
of a connection, acknowledges the message and is evicted. -/
def evicted : List LifetimeEvent :=
  [.connect "x".toList persistent 0, .stop 0 none 10, .ended 0 (some "x".toList),
    .enqueue QueueState.reading 15, .connect "x".toList (transient false) 20, .ack 1 (.puback 1),
    .evict "x".toList 30]

/-- A clean CONNECT on another node leaves the subscription of the earlier session in Redis, and the
end of the evicted session leaves the counter. -/
theorem not_along_leavesNothing :
    ¬ Along (step hourly) (LeavesNothing hourly) unknown
        (offline ++ [.connect "y".toList (transient true) 20]) ∧
      ¬ Along (step hourly) (LeavesNothing hourly) unknown
        (evicted ++ [.ended 1 none]) := by
  constructor
  · rw [along_append]
    rintro ⟨-, hconnect, -⟩
    have hsub := (hconnect rfl).sub "t".toList
    revert hsub
    decide +kernel
  · rw [along_append]
    rintro ⟨-, hended, -⟩
    have hobject : ∃ o, (run (step hourly) unknown evicted).objects[1]? = some o ∧
        Ending o := ⟨_, rfl, rfl, rfl, rfl⟩
    obtain ⟨o, ho, hend⟩ := hobject
    have hcounter := (hended o ho hend rfl).counter
    revert hcounter
    decide +kernel

/-- A session has a subscription and a delivery in flight when its client connects again with Clean.
The new session has a subscription as well, and the connection ends by itself. -/
def renewed : List LifetimeEvent :=
  [.connect "x".toList persistent 0,
    .subscribe 0 (SubState.subscribeTo 1 "t".toList) fun _ => true,
    .deliver 0 { type := .publish, packetID := 0, qos := 1, topicName := "t".toList } 0 .taken,
    .connect "x".toList (transient true) 10,
    .subscribe 1 (SubState.subscribeTo 1 "u".toList) fun _ => true,
    .stop 1 none 20, .ended 1 none]

/-- The clean CONNECT removes what the old session had in Redis, and the end of the new session what
that one had. -/
theorem along_leavesNothing_renewed :
    unknown.keys.marker.value.fence? = some hourly.schema ∧
      ("t".toList ∈ (run (step hourly) unknown (renewed.take 3)).sub ∧
        .outbound 1 ∈ (run (step hourly) unknown (renewed.take 3)).keys.hash.value ∧
        "u".toList ∈ (run (step hourly) unknown (renewed.take 6)).sub) ∧
      Along (step hourly) (LeavesNothing hourly) unknown renewed := by
  have hempty {K V : Type} [DecidableEq K] (k : K) : k ∉ (∅ : GoMap K V) := AList.notMem_empty k
  refine ⟨rfl, ⟨by decide +kernel, by decide +kernel, by decide +kernel⟩,
    (along_leavesNothing_iff unknown renewed rfl).2
      ⟨fun h => absurd h (by decide), trivial, trivial,
      fun _ => ⟨fun f => hempty f, by decide +kernel, ?_⟩, trivial, trivial,
      fun o ho _ _ => ⟨fun f => hempty f, fun hcause => ?_⟩, trivial⟩⟩
  · have hsub : ∀ f ∈ (run (step hourly) unknown (renewed.take 3)).sub.keys,
        f ∈ ((run (step hourly) unknown (renewed.take 3)).localCopy "x".toList).filters := by
      decide +kernel
    have hhash : ∀ f ∈ (run (step hourly) unknown (renewed.take 3)).keys.hash.value.keys,
        ∃ pk ∈ ((run (step hourly) unknown (renewed.take 3)).localCopy "x".toList).inflight.getAll,
          f ∈ deleteFields hourly.schema pk true := by
      decide +kernel
    exact ⟨fun f hf => hsub f (AList.mem_keys.1 hf), fun f hf => hhash f (AList.mem_keys.1 hf)⟩
  · cases ho
    cases hcause

end Lifetime

end KeelGateway.Broker

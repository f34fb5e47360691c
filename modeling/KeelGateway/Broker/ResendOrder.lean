import KeelGateway.Broker.InflightMirror
import KeelGateway.Redis.LegacyFields
import KeelGateway.Redis.OfflineQueue
import KeelGateway.Redis.PacketSearch

/-!
# The order of resent messages

Messages for an offline client are queued one after the other. When the client comes back they are
sent in the order of their records, which have the second of the commit and a packet ID. Packet IDs
are taken in cyclic order. Messages of one second are therefore sent in the order of their commits
as long as the search for a packet ID does not start over.

-/

namespace KeelGateway.Broker

open Redis Mochi Optimistic StepMachine

/-- The keys of an offline session: every record names its field, and schema 1 has numeric fields
only. -/
structure StoredSession where
  keys : Keys
  schema : Schema
  marker : keys.marker.value.schema? = some schema
  own : OwnID keys.hash.value
  legacy : schema = .legacy →
    ∀ f ∈ keys.hash.value, ∃ id, 1 ≤ id ∧ id ≤ packetIDs ∧ f = .numeric id

/-- The keys, and the packets that have been committed so far. -/
structure Backlog where
  keys : Keys
  committed : List Packet := []

namespace Backlog

/-- The record that a call commits, as a packet. -/
def packetOf (clientID : Text) (args : CallArgs) (id : ℕ) (now : ℤ) : Packet :=
  (marshalOfflineInflight clientID id args.msg now).toPacket

/-- A call of `QueueOfflineInflight` at some second. -/
def step (clientID : Text) (s : Backlog) (call : CallArgs × ℤ) : Backlog :=
  let r := s.keys.queueOfflineInflight clientID call.1 call.2
  match r.2 with
  | .queued id => ⟨r.1, s.committed ++ [packetOf clientID call.1 id call.2]⟩
  | _ => ⟨r.1, s.committed⟩

/-- The packets of the session in the order of `ResendInflightMessages`, on a node that may have
some of them in memory. -/
def resend (schema : Schema) (memory : Inflight) (s : Backlog) : List Packet :=
  (memory.setAll (((storedInflightForClient schema s.keys.hash.value).2.getD []).map
    Message.toPacket)).getAll

/-- The committed messages are sent in the order of their commits, every one once. -/
def InOrder (schema : Schema) (memory : Inflight) (s : Backlog) : Prop :=
  (s.resend schema memory).filter (· ∈ s.committed) = s.committed

/-- The packet ID is free. -/
def Free (schema : Schema) (s : Backlog) (id : ℕ) : Prop :=
  queueField schema id ∉ s.keys.hash.value ∧ (schema = .v2 → .numeric id ∉ s.keys.hash.value)

/-- The call is neither refused nor a duplicate. -/
def Accepts (schema : Schema) (s : Backlog) (args : CallArgs) : Prop :=
  (args.configured = none ∨ args.configured = some schema) ∧
    ¬ (args.publishID ≠ UUID.nil ∧ (s.keys.dedup args.publishID).value = true)

/-- The stored counter is one that doubles hold exactly, with all those that a search tries. -/
def InRange (s : Backlog) : Prop := CounterInRange s.keys.counterValue

instance (s : Backlog) : Decidable s.InRange := inferInstanceAs (Decidable (CounterInRange _))

/-- If the last message was committed in the same second, and some packet ID is free, then one above
the last one is. -/
def FindsHigher (schema : Schema) (s : Backlog) (call : CallArgs × ℤ) : Prop :=
  s.Accepts schema call.1 → ∀ last ∈ s.committed.getLast?, last.created = call.2 →
    (∃ id, 1 ≤ id ∧ id ≤ packetIDs ∧ s.Free schema id) →
      ∃ id, last.packetID < id ∧ id ≤ packetIDs ∧ s.Free schema id

/-- The clock does not go back. -/
def ClockOk (s : Backlog) (call : CallArgs × ℤ) : Prop := ∀ pk ∈ s.committed, pk.created ≤ call.2

/-! ### One call -/

variable {clientID : Text} {schema : Schema} {s : Backlog} {call : CallArgs × ℤ}

/-- The counter that the script returns. -/
def nextCounter (schema : Schema) (s : Backlog) : ℤ :=
  nextOfflinePacketCounter s.keys.hash.value schema s.keys.counterValue

theorem step_cases (hmarker : s.keys.marker.value.schema? = some schema) :
    ((¬ s.Accepts schema call.1 ∨ s.nextCounter schema = 0) ∧ s.step clientID call = s) ∨
    (s.Accepts schema call.1 ∧ s.nextCounter schema ≠ 0 ∧ s.step clientID call =
      ⟨s.keys.commit clientID call.1 schema (s.nextCounter schema) call.2,
        s.committed ++ [packetOf clientID call.1 (packetIDOf (s.nextCounter schema)) call.2]⟩) := by
  unfold step Keys.queueOfflineInflight Accepts
  rw [hmarker]
  dsimp only
  split_ifs with hconf hdup hzero
  · exact Or.inl ⟨Or.inl fun h => h.2 hdup, rfl⟩
  · exact Or.inl ⟨Or.inr hzero, rfl⟩
  · exact Or.inr ⟨⟨hconf, hdup⟩, hzero, rfl⟩
  · exact Or.inl ⟨Or.inl fun h => hconf h.1, rfl⟩

theorem not_occupied_iff {id : ℕ} :
    ¬ Occupied (spelled s.keys.hash.value) schema id ↔ s.Free schema id := by
  have hnumeric := @text_mem_spelled s.keys.hash.value (.numeric id)
  have houtbound := @text_mem_spelled s.keys.hash.value (.outbound id)
  simp only [Field.text] at hnumeric houtbound
  unfold Occupied Free queueField
  cases schema with
  | legacy => simp [Schema.fieldPrefix, hnumeric]
  | v2 => simp only [Schema.fieldPrefix, hnumeric, houtbound, not_or, true_and, forall_const]

/-- What is known about the keys and the committed messages. -/
structure Inv (schema : Schema) (s : Backlog) : Prop where
  marker : s.keys.marker.value.schema? = some schema
  own : OwnID s.keys.hash.value
  legacy : schema = .legacy →
    ∀ f ∈ s.keys.hash.value, ∃ id, 1 ≤ id ∧ id ≤ packetIDs ∧ f = .numeric id
  stored : ∀ pk ∈ s.committed, ∃ m, m.toPacket = pk ∧ m.type = .publish ∧
    s.keys.hash.value.lookup (queueField schema pk.packetID) = some m
  nodup : (s.committed.map Packet.packetID).Nodup
  counter : ∀ last ∈ s.committed.getLast?, 0 < s.keys.counterValue ∧
    packetIDOf s.keys.counterValue = last.packetID

theorem inv_start (start : StoredSession) : Inv start.schema ⟨start.keys, []⟩ where
  marker := start.marker
  own := start.own
  legacy := start.legacy
  stored pk hpk := by cases hpk
  nodup := List.nodup_nil
  counter last hlast := by cases hlast

theorem Inv.nextCounter_cases (h : s.Inv schema) (hrange : s.InRange) :
    (s.nextCounter schema = 0 ∧ ∀ id, 1 ≤ id → id ≤ packetIDs → ¬ s.Free schema id) ∨
    ∃ k < packetIDs, s.nextCounter schema = s.keys.counterValue + k + 1 ∧
      s.Free schema (packetIDOf (s.keys.counterValue + k + 1)) ∧
      ∀ j < k, ¬ s.Free schema (packetIDOf (s.keys.counterValue + j + 1)) := by
  have hfields : schema = .legacy → LegacyFields (spelled s.keys.hash.value) := by
    intro hlegacy f hf
    obtain ⟨g, hg, rfl⟩ := mem_spelled.1 hf
    obtain ⟨id, hpos, hle, rfl⟩ := h.legacy hlegacy g hg
    exact ⟨id, hpos, hle, rfl⟩
  rw [nextCounter, nextOfflinePacketCounter_eq_script]
  rcases nextOfflinePacketCounterScript_cases hfields hrange with
    ⟨hzero, hall⟩ | ⟨k, hk, hnext, hfree, hbefore⟩
  · exact Or.inl ⟨hzero, fun id hpos hle hfree => not_occupied_iff.2 hfree (hall id hpos hle)⟩
  · exact Or.inr ⟨k, hk, hnext, not_occupied_iff.1 hfree,
      fun j hj hfree => not_occupied_iff.2 hfree (hbefore j hj)⟩

theorem packetIDOf_add {counter : ℤ} (hpos : 0 < counter) {k : ℕ}
    (hle : packetIDOf counter + k + 1 ≤ packetIDs) :
    packetIDOf (counter + k + 1) = packetIDOf counter + k + 1 := by
  have hbefore := packetIDOf_eq (show 0 ≤ counter - 1 by omega) 0
  have hafter := packetIDOf_eq hpos.le k
  rw [Nat.cast_zero, add_zero, sub_add_cancel] at hbefore
  unfold packetIDs at *
  omega

theorem Inv.lt_packetIDOf_iff (h : s.Inv schema) (hrange : s.InRange) {last : Packet}
    (hlast : last ∈ s.committed.getLast?) (hnext : s.nextCounter schema ≠ 0) :
    last.packetID < packetIDOf (s.nextCounter schema) ↔
      ∃ id, last.packetID < id ∧ id ≤ packetIDs ∧ s.Free schema id := by
  obtain ⟨hpos, hid⟩ := h.counter last hlast
  rcases h.nextCounter_cases hrange with ⟨hzero, -⟩ | ⟨k, hk, heq, hfree, hbefore⟩
  · exact absurd hzero hnext
  · rw [heq]
    constructor
    · intro hlt
      exact ⟨_, hlt, (one_le_packetIDOf hrange.1 k).2, hfree⟩
    · rintro ⟨id, hlt, hle, hfree'⟩
      -- the search tries `id` before it starts over, so it stops there or earlier
      obtain ⟨j, rfl⟩ := Nat.exists_eq_add_of_lt hlt
      rw [← hid] at hle hfree'
      rw [← packetIDOf_add hpos hle] at hfree'
      have hkj : k ≤ j := by
        by_contra hjk
        exact hbefore j (not_le.1 hjk) hfree'
      rw [packetIDOf_add hpos (by omega)]
      omega

theorem hash_commit (k : Keys) (clientID : Text) (args : CallArgs) (schema : Schema)
    (next now : ℤ) :
    (k.commit clientID args schema next now).hash.value =
      k.hash.value.insert
        (writeField schema (packetOf clientID args (packetIDOf next) now))
        (marshalOfflineInflight clientID (packetIDOf next) args.msg now) := by
  cases schema <;> rfl

theorem lookup_commit (k : Keys) (clientID : Text) (args : CallArgs) (schema : Schema)
    (next now : ℤ) (f : Field) :
    (k.commit clientID args schema next now).hash.value.lookup f =
      if f = queueField schema (packetIDOf next) then
        some (marshalOfflineInflight clientID (packetIDOf next) args.msg now)
      else k.hash.value.lookup f :=
  GoMap.lookup_insert _ _ _ _

private theorem queueField_injective (schema : Schema) :
    Function.Injective (queueField schema) := by
  intro a b hab
  cases schema <;> cases hab <;> rfl

theorem Inv.packetID_ne_of_free (h : s.Inv schema) {id : ℕ} (hfree : s.Free schema id) :
    ∀ pk ∈ s.committed, pk.packetID ≠ id := by
  rintro pk hpk rfl
  obtain ⟨m, -, -, hm⟩ := h.stored pk hpk
  exact hfree.1 (GoMap.mem_iff_exists_lookup.2 ⟨m, hm⟩)

theorem Inv.step (h : s.Inv schema) (hrange : s.InRange) : (s.step clientID call).Inv schema := by
  rcases @step_cases clientID schema s call h.marker with ⟨-, heq⟩ | ⟨-, hnext, heq⟩
  · rw [heq]
    exact h
  · obtain ⟨k, -, hvalue, hfree, -⟩ := (h.nextCounter_cases hrange).resolve_left fun hc =>
      hnext hc.1
    rw [← hvalue] at hfree
    have hrange' := one_le_packetIDOf hrange.1 k
    rw [← hvalue] at hrange'
    rw [heq]
    refine ⟨h.marker, ?_, fun hlegacy f hf => ?_, fun pk hpk => ?_, ?_, fun last hlast => ?_⟩
    · exact hash_commit s.keys clientID call.1 schema _ call.2 ▸ h.own.insert schema _
    · rcases (AList.mem_insert _).1 hf with rfl | hf
      · subst hlegacy
        exact ⟨_, hrange'.1, hrange'.2, rfl⟩
      · exact h.legacy hlegacy f hf
    · rcases List.mem_append.1 hpk with hpk | hpk
      · obtain ⟨m, hm, htype, hlookup⟩ := h.stored pk hpk
        refine ⟨m, hm, htype, ?_⟩
        rw [lookup_commit, if_neg, hlookup]
        exact fun hfield => h.packetID_ne_of_free hfree pk hpk (queueField_injective schema hfield)
      · obtain rfl := List.mem_singleton.1 hpk
        refine ⟨_, rfl, rfl, ?_⟩
        rw [lookup_commit]
        exact if_pos rfl
    · rw [List.map_append, List.map_singleton, List.nodup_append_comm, List.singleton_append,
        List.nodup_cons]
      refine ⟨fun hmem => ?_, h.nodup⟩
      obtain ⟨pk, hpk, hid⟩ := List.mem_map.1 hmem
      exact h.packetID_ne_of_free hfree pk hpk hid
    · rw [List.getLast?_concat] at hlast
      cases hlast
      have hcounter : 0 < s.nextCounter schema := by
        have := hrange.1
        omega
      exact ⟨hcounter, rfl⟩

/-! ### What is sent -/

/-- The packet is sent before the other one, or could be. -/
def Before (p q : Packet) : Prop :=
  p.created < q.created ∨ (p.created = q.created ∧ p.packetID ≤ q.packetID)

theorem Before.trans {p q r : Packet} (h : Before p q) (h' : Before q r) : Before p r := by
  unfold Before at *
  omega

private theorem pairwise_before_getAll (i : Inflight) : i.getAll.Pairwise Before := by
  have hsorted := @List.pairwise_mergeSort Packet
    (fun a b => a.created < b.created || (a.created = b.created && a.packetID ≤ b.packetID))
    (fun a b c hab hbc => by grind) (fun a b => by grind)
    (i.internal.entries.map Sigma.snd ++ i.receive.entries.map Sigma.snd)
  refine hsorted.imp fun {a b} hab => ?_
  simpa [Before] using hab

theorem Inv.storedInflightForClient (h : s.Inv schema) :
    ∃ ms, (storedInflightForClient schema s.keys.hash.value).2 = some ms ∧
      (∀ m ∈ ms, ∀ n ∈ ms, inflightFieldKey m.toPacket = inflightFieldKey n.toPacket → m = n) ∧
      ∀ id m, s.keys.hash.value.lookup (queueField schema id) = some m → m ∈ ms := by
  cases schema with
  | legacy =>
    have hown : OwnField .legacy s.keys.hash.value := by
      intro f m hm
      obtain ⟨id, -, -, rfl⟩ := h.legacy rfl f (GoMap.mem_iff_exists_lookup.2 ⟨m, hm⟩)
      exact congrArg Field.numeric (h.own _ m hm).1.symm
    obtain ⟨ms, hms, hmem⟩ := storedInflight_of_ownField hown
    refine ⟨ms, hms, fun m hm n hn hkey => ?_, fun id m hm => (hmem m).2 ⟨_, hm⟩⟩
    obtain ⟨f, hf⟩ := (hmem m).1 hm
    obtain ⟨g, hg⟩ := (hmem n).1 hn
    have hid := congrArg Field.id hkey
    rw [id_inflightFieldKey, id_inflightFieldKey] at hid
    exact hown.eq_of_writeField_eq hf hg (congrArg Field.numeric hid)
  | v2 =>
    obtain ⟨ms, hms, hnodup, hmem⟩ := mem_storedInflightForClient h.own
    refine ⟨ms, hms, fun m hm n hn hkey => List.inj_on_of_nodup_map hnodup hm hn hkey,
      fun id m hm => (hmem m).2 ⟨.outbound id, rfl, yields_eq_some.2 (Or.inl hm)⟩⟩

/-- Every committed message is sent. -/
theorem Inv.mem_resend (h : s.Inv schema) (memory : Inflight) {pk : Packet}
    (hpk : pk ∈ s.committed) : pk ∈ s.resend schema memory := by
  obtain ⟨ms, hms, hflow, hall⟩ := h.storedInflightForClient
  obtain ⟨m, rfl, -, hm⟩ := h.stored pk hpk
  rw [resend, hms, Inflight.mem_getAll]
  refine ⟨inflightFieldKey m.toPacket, memory.flow_setAll_of_mem
    (List.mem_map_of_mem (hall _ m hm)) fun q hq hkey => ?_⟩
  obtain ⟨n, hn, rfl⟩ := List.mem_map.1 hq
  rw [hflow n hn m (hall _ m hm) hkey]

variable {memory : Inflight}

private theorem nodup_resend (schema : Schema) (hdir : memory.Directed) (s : Backlog) :
    (s.resend schema memory).Nodup :=
  (pairwise_getAll (hdir.setAll _)).imp fun hne heq => hne (congrArg inflightFieldKey heq)

theorem inOrder_iff (h : s.Inv schema) (hdir : memory.Directed) :
    s.InOrder schema memory ↔ s.committed.Pairwise Before := by
  have hsorted : ((s.resend schema memory).filter (· ∈ s.committed)).Pairwise Before :=
    (pairwise_before_getAll _).filter _
  constructor
  · intro horder
    rwa [horder] at hsorted
  · intro hcommitted
    -- the same packets, both times in order
    have hperm : ((s.resend schema memory).filter (· ∈ s.committed)).Perm s.committed := by
      refine (List.perm_ext_iff_of_nodup ((nodup_resend schema hdir s).filter _)
        (List.Nodup.of_map _ h.nodup)).2 fun pk => ?_
      rw [List.mem_filter, decide_eq_true_iff]
      exact ⟨fun hpk => hpk.2, fun hpk => ⟨h.mem_resend memory hpk, hpk⟩⟩
    refine hperm.eq_of_pairwise (fun p q hp hq hpq hqp => ?_) hsorted hcommitted
    have hid : p.packetID = q.packetID := by
      unfold Before at hpq hqp
      omega
    exact List.inj_on_of_nodup_map h.nodup (hperm.mem_iff.1 hp) hq hid

/-! ### The order along a run -/

theorem Inv.pairwise_step_iff (h : s.Inv schema) (hrange : s.InRange) (hclock : s.ClockOk call)
    (horder : s.committed.Pairwise Before) :
    (s.step clientID call).committed.Pairwise Before ↔ s.FindsHigher schema call := by
  rcases @step_cases clientID schema s call h.marker with ⟨hnone, heq⟩ | ⟨haccepts, hnext, heq⟩
  · rw [heq]
    refine iff_of_true horder fun haccepts last _ _ hfree => ?_
    obtain ⟨id, hpos, hle, hfree⟩ := hfree
    rcases hnone with hrefused | hzero
    · exact absurd haccepts hrefused
    · rcases h.nextCounter_cases hrange with ⟨-, hall⟩ | ⟨k, -, hvalue, -⟩
      · exact absurd hfree (hall id hpos hle)
      · have := hrange.1
        omega
  · rw [heq]
    obtain ⟨k, -, hvalue, hfree, -⟩ := (h.nextCounter_cases hrange).resolve_left fun hc =>
      hnext hc.1
    have hids := one_le_packetIDOf hrange.1 k
    rw [← hvalue] at hfree hids
    rw [List.pairwise_append]
    simp only [List.pairwise_singleton, List.mem_singleton, forall_eq, true_and, horder]
    constructor
    · intro hbefore _ last hlast hsecond _
      refine (h.lt_packetIDOf_iff hrange hlast hnext).1 ?_
      have hmem := List.mem_of_getLast? hlast
      have hne := h.packetID_ne_of_free hfree last hmem
      rcases hbefore last hmem with hlt | ⟨-, hle⟩
      · exact absurd hsecond hlt.ne
      · exact lt_of_le_of_ne hle hne
    · intro hfinds pk hpk
      obtain ⟨rest, last, hcommitted⟩ := (List.eq_nil_or_concat' s.committed).resolve_left
        (List.ne_nil_of_mem hpk)
      have hlast : last ∈ s.committed.getLast? := by
        rw [hcommitted, List.getLast?_concat]
        rfl
      have hnew : Before last (packetOf clientID call.1 (packetIDOf (s.nextCounter schema))
          call.2) := by
        rcases (hclock last (List.mem_of_getLast? hlast)).lt_or_eq with hlt | hsecond
        · exact Or.inl hlt
        · have hhigher := hfinds haccepts last hlast hsecond ⟨_, hids.1, hids.2, hfree⟩
          exact Or.inr ⟨hsecond, ((h.lt_packetIDOf_iff hrange hlast hnext).2 hhigher).le⟩
      -- the last message is the latest of all
      rw [hcommitted] at hpk horder
      rcases List.mem_append.1 hpk with hpk | hpk
      · exact ((List.pairwise_append.1 horder).2.2 pk hpk last (List.mem_singleton_self last)).trans
          hnew
      · exact List.mem_singleton.1 hpk ▸ hnew

theorem along_clockOk {calls : List (CallArgs × ℤ)} (hclock : (calls.map Prod.snd).Pairwise (· ≤ ·))
    (hold : ∀ pk ∈ s.committed, ∀ call ∈ calls, pk.created ≤ call.2) :
    Along (step clientID) ClockOk s calls := by
  induction calls generalizing s with
  | nil => trivial
  | cons call calls ih =>
    obtain ⟨hhead, htail⟩ := List.pairwise_cons.1 hclock
    refine ⟨fun pk hpk => hold pk hpk call List.mem_cons_self,
      ih htail fun pk hpk call' hcall' => ?_⟩
    have hlater : call.2 ≤ call'.2 := hhead _ (List.mem_map_of_mem hcall')
    unfold step at hpk
    dsimp only at hpk
    split at hpk
    · rcases List.mem_append.1 hpk with hpk | hpk
      · exact hold pk hpk call' (List.mem_cons_of_mem _ hcall')
      · exact List.mem_singleton.1 hpk ▸ hlater
    · exact hold pk hpk call' (List.mem_cons_of_mem _ hcall')

theorem always_inOrder_iff (start : StoredSession) (hdir : memory.Directed)
    {calls : List (CallArgs × ℤ)} (hclock : (calls.map Prod.snd).Pairwise (· ≤ ·))
    (hrange : Along (step clientID) (fun s _ => s.InRange) ⟨start.keys, []⟩ calls) :
    Always (step clientID) (InOrder start.schema memory) ⟨start.keys, []⟩ calls ↔
      Along (step clientID) (FindsHigher start.schema) ⟨start.keys, []⟩ calls := by
  have hside : Along (step clientID) (fun s call => s.InRange ∧ s.ClockOk call) ⟨start.keys, []⟩
      calls :=
    hrange.and (along_clockOk hclock fun pk hpk => by cases hpk)
  have hinv := inv_start start
  refine always_iff_along_of_side
    (fun s call hi _ hs => hi.step hs.1) (fun s call hi horder hs => ?_) hinv
    ((inOrder_iff hinv hdir).2 List.Pairwise.nil) hside
  rw [inOrder_iff (hi.step hs.1) hdir]
  exact hi.pairwise_step_iff hs.1 hs.2 ((inOrder_iff hi hdir).1 horder)

/-- The messages are sent in the order of their commits in every run in which all counters are in
range and no search starts over within the second of the last commit. A run in which some search
does so does not keep the order. -/
theorem inOrder_of_findsHigher (start : StoredSession) (memory : Inflight) (hdir : memory.Directed)
    (clientID : Text) (calls : List (CallArgs × ℤ))
    (hclock : (calls.map Prod.snd).Pairwise (· ≤ ·)) :
    (Along (step clientID) (fun s call => s.InRange ∧ s.FindsHigher start.schema call)
        ⟨start.keys, []⟩ calls →
      Always (step clientID) (InOrder start.schema memory) ⟨start.keys, []⟩ calls) ∧
    (Along (step clientID) (fun s _ => s.InRange) ⟨start.keys, []⟩ calls →
      Always (step clientID) (InOrder start.schema memory) ⟨start.keys, []⟩ calls →
        Along (step clientID) (FindsHigher start.schema) ⟨start.keys, []⟩ calls) := by
  refine ⟨fun h => ?_, fun hrange => (always_inOrder_iff start hdir hclock hrange).1⟩
  have hrange := h.imp fun s call hc => hc.1
  exact (always_inOrder_iff start hdir hclock hrange).2 (h.imp fun s call hc => hc.2)

/-! ### Two messages of one second -/

/-- A session of schema 2 without messages, at some counter. -/
def emptySession (counter : ℤ) : StoredSession where
  keys := { marker := ⟨.valid .v2, 0⟩, hash := ⟨∅, 0⟩, counter := ⟨some counter, 0⟩,
            dedup := fun _ => ⟨false, 0⟩ }
  schema := .v2
  marker := rfl
  own f m hm := by cases (AList.lookup_empty f).symm.trans hm
  legacy h := by cases h

/-- A message in the first second. -/
def message : CallArgs × ℤ := ({ publishID := UUID.nil, msg := ⟨['t'], [], 1⟩ }, 0)

theorem accepts_message (s : Backlog) : s.Accepts .v2 message.1 := ⟨Or.inl rfl, fun h => h.1 rfl⟩

section TwoMessages

variable {counter : ℤ} (h0 : 0 ≤ counter) (h1 : counter + 1 ≤ 2 ^ 53)

include h0 h1

theorem step_emptySession (clientID : Text) :
    step clientID ⟨(emptySession counter).keys, []⟩ message =
      ⟨(emptySession counter).keys.commit clientID message.1 .v2 (counter + 1) 0,
        [packetOf clientID message.1 (packetIDOf (counter + 1)) 0]⟩ := by
  have hnext : nextCounter .v2 ⟨(emptySession counter).keys, []⟩ = counter + 1 :=
    nextOfflinePacketCounter_of_empty AList.notMem_empty h0 h1
  rcases @step_cases clientID .v2 ⟨(emptySession counter).keys, []⟩ message rfl with
    ⟨hrefused | hzero, -⟩ | ⟨-, -, heq⟩
  · exact absurd (accepts_message _) hrefused
  · omega
  · rw [heq, hnext]
    rfl

private theorem free_step_emptySession (clientID : Text) (id : ℕ) :
    (step clientID ⟨(emptySession counter).keys, []⟩ message).Free .v2 id ↔
      id ≠ packetIDOf (counter + 1) := by
  have hempty (f : Field) : f ∉ (emptySession counter).keys.hash.value := AList.notMem_empty f
  rw [step_emptySession h0 h1, Free, hash_commit, AList.mem_insert, AList.mem_insert]
  simp only [hempty]
  simp [queueField, packetOf, marshalOfflineInflight, Message.toPacket, writeField,
    inflightFieldKey]

theorem findsHigher_message_iff (clientID : Text) :
    (step clientID ⟨(emptySession counter).keys, []⟩ message).FindsHigher .v2 message ↔
      packetIDOf (counter + 1) < packetIDs := by
  have hfree := free_step_emptySession h0 h1 clientID
  unfold FindsHigher
  simp only [hfree]
  rw [step_emptySession h0 h1]
  simp only [accepts_message, List.getLast?_singleton, Option.mem_some_iff, forall_eq',
    forall_const]
  constructor
  · intro h
    obtain ⟨id, hlt, hle, -⟩ := h rfl
      (if hone : packetIDOf (counter + 1) = 1 then ⟨2, by decide, by decide, by omega⟩
        else ⟨1, by decide, by decide, fun h => hone h.symm⟩)
    exact lt_of_lt_of_le hlt hle
  · intro hlt _ _
    exact ⟨packetIDOf (counter + 1) + 1, Nat.lt_succ_self _, hlt, by omega⟩

end TwoMessages

/-- Two messages of one second take the packet IDs 1 and 2. -/
theorem inOrder_twoMessages :
    Always (step ['c']) (InOrder .v2 {}) ⟨(emptySession 0).keys, []⟩ [message, message] := by
  refine (inOrder_of_findsHigher (emptySession 0) {} .empty ['c'] [message, message] (by decide)).1
    ⟨⟨by decide, fun _ last hlast => by cases hlast⟩, ⟨?_, ?_⟩, trivial⟩
  · rw [step_emptySession (by decide) (by decide)]
    exact by decide
  · exact (findsHigher_message_iff (by decide) (by decide) ['c']).2 (by decide)

/-- They take 65535 and 1 if this is where the counter stands, and are sent the other way round. -/
theorem not_inOrder_at_wrap :
    ¬ InOrder .v2 {} (run (step ['c']) ⟨(emptySession 65534).keys, []⟩ [message, message]) := by
  have hinv := inv_start (emptySession 65534)
  have hrange : InRange ⟨(emptySession 65534).keys, []⟩ := by decide
  have hrange' : (step ['c'] ⟨(emptySession 65534).keys, []⟩ message).InRange := by
    rw [step_emptySession (by decide) (by decide)]
    exact by decide
  have hinv' : (step ['c'] ⟨(emptySession 65534).keys, []⟩ message).Inv .v2 := hinv.step hrange
  have horder : (step ['c'] ⟨(emptySession 65534).keys, []⟩ message).committed.Pairwise Before := by
    rw [step_emptySession (by decide) (by decide)]
    exact List.pairwise_singleton _ _
  have hclock : (step ['c'] ⟨(emptySession 65534).keys, []⟩ message).ClockOk message := by
    rw [step_emptySession (by decide) (by decide)]
    exact fun pk hpk => List.mem_singleton.1 hpk ▸ le_rfl
  rw [run_cons, run_cons, run_nil, inOrder_iff (hinv'.step hrange') .empty,
    hinv'.pairwise_step_iff hrange' hclock horder,
    findsHigher_message_iff (by decide) (by decide)]
  decide

end Backlog

end KeelGateway.Broker

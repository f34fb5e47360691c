import KeelGateway.Mochi.Subscribers

/-!
# Topic aliases

The first packet of an alias announces it, and the later ones leave the topic name out. A publisher
reserves an alias for its packet and gives it up again when the packet is not queued. The client
finds the topic of a later packet only if it has received the announcement.
-/

namespace KeelGateway.Mochi

/-- `OutboundTopicAliases`. -/
structure OutboundTopicAliases where
  internal : GoMap Text ℕ := ∅
  cursor : ℕ := 0
  maximum : ℕ

/-- A queued PUBLISH: the topic of its message, and the fields that go out. -/
structure OutPacket where
  topic : TopicName
  topicName : Text
  topicAlias : ℕ

namespace OutboundTopicAliases

/-- `Set`: the alias of a topic, and whether it existed. -/
def set (a : OutboundTopicAliases) (topic : Text) : OutboundTopicAliases × ℕ × Bool :=
  if a.maximum = 0 then (a, 0, false)
  else
    match a.internal.lookup topic with
    | some i => (a, i, true)
    | none =>
      if a.maximum < a.cursor + 1 then (a, 0, false)
      else
        ({ a with
          internal := a.internal.insert topic (a.cursor + 1)
          cursor := a.cursor + 1 }, a.cursor + 1, false)

/-- `Delete`. -/
def delete (a : OutboundTopicAliases) (topic : Text) (id : ℕ) : OutboundTopicAliases :=
  if a.internal.lookup topic = some id then { a with internal := a.internal.erase topic } else a

/-- `publishToClientMode` reserves an alias for a packet. -/
def prepare (a : OutboundTopicAliases) (topic : TopicName) : OutboundTopicAliases × OutPacket :=
  let (a, topicAlias, aliasExists) := a.set topic.text
  (a, ⟨topic, if 0 < topicAlias ∧ aliasExists then [] else topic.text, topicAlias⟩)

/-- It gives the alias up when the packet has not been queued. -/
def rollBack (a : OutboundTopicAliases) (pk : OutPacket) : OutboundTopicAliases :=
  if 0 < pk.topicAlias then a.delete pk.topic.text pk.topicAlias else a

end OutboundTopicAliases

/-! ### The topics that the client reads -/

namespace InboundTopicAliases

/-- `Set` on the table: the topic, which is empty for an alias that is not known. -/
def set (maximum : ℕ) (internal : GoMap ℕ Text) (id : ℕ) (topic : Text) : GoMap ℕ Text × Text :=
  if maximum = 0 then (internal, topic)
  else if topic = [] then (internal, (internal.lookup id).getD [])
  else (internal.insert id topic, topic)

/-- `processPublish` looks for the topic of a packet. The client is taken to do the same. -/
def receive (maximum : ℕ) (internal : GoMap ℕ Text) (pk : OutPacket) : GoMap ℕ Text × Text :=
  if 0 < pk.topicAlias then set maximum internal pk.topicAlias pk.topicName
  else (internal, pk.topicName)

/-- The table after the packets that have been sent. -/
def after (maximum : ℕ) (handled : List (OutPacket × Bool)) : GoMap ℕ Text :=
  handled.foldl (fun internal h => if h.2 then (receive maximum internal h.1).1 else internal) ∅

end InboundTopicAliases

/-- The packet gives its topic name and an alias for it. -/
abbrev OutPacket.Announces (pk : OutPacket) : Prop := pk.topicName ≠ [] ∧ 0 < pk.topicAlias

/-- The alias that a packet goes by was announced by a packet that has been sent. -/
def Resolved (older : List (OutPacket × Bool)) (pk : OutPacket) : Prop :=
  pk.topicName = [] → ∀ first ∈ older,
    first.1.Announces → first.1.topicAlias = pk.topicAlias → first.2 = true

/-- A packet has its topic name and a new alias, or it goes by the alias of an older packet. -/
def Fits (maximum : ℕ) (older : List OutPacket) (pk : OutPacket) : Prop :=
  pk.topicAlias ≤ maximum ∧
    (pk.topicName = pk.topic.text ∧
        (0 < pk.topicAlias → ∀ first ∈ older, first.topicAlias ≠ pk.topicAlias) ∨
      pk.topicName = [] ∧ ∃ first ∈ older,
        first.Announces ∧ first.topicAlias = pk.topicAlias ∧ first.topicName = pk.topic.text)

/-- All packets fit those before them. -/
def Coherent (maximum : ℕ) (pks : List OutPacket) : Prop :=
  ∀ older pk, older ++ [pk] <+: pks → Fits maximum older pk

/-- The table of the broker agrees with what has been queued. -/
structure Booked (maximum : ℕ) (a : OutboundTopicAliases) (pks : List OutPacket) : Prop where
  maximum_eq : a.maximum = maximum
  known : ∀ topic id, a.internal.lookup topic = some id →
    ∃ first ∈ pks, first.Announces ∧ first.topicAlias = id ∧ first.topicName = topic
  used : ∀ pk ∈ pks, pk.topicAlias ≤ a.cursor
  bounded : a.cursor ≤ maximum
  coherent : Coherent maximum pks

variable {a : OutboundTopicAliases} {pks : List OutPacket} {pk : OutPacket} {maximum : ℕ}

theorem OutboundTopicAliases.prepare_cases (a : OutboundTopicAliases) (topic : TopicName) :
    a.prepare topic = (a, ⟨topic, topic.text, 0⟩) ∨
      (∃ id, a.internal.lookup topic.text = some id ∧
        a.prepare topic = (a, ⟨topic, if 0 < id then [] else topic.text, id⟩)) ∨
      a.cursor + 1 ≤ a.maximum ∧
        a.prepare topic = ({ a with
          internal := a.internal.insert topic.text (a.cursor + 1)
          cursor := a.cursor + 1 }, ⟨topic, topic.text, a.cursor + 1⟩) := by
  by_cases hzero : a.maximum = 0
  · simp [prepare, set, hzero]
  · cases hlookup : a.internal.lookup topic.text with
    | some id => simp [prepare, set, hzero, hlookup]
    | none =>
      by_cases hfull : a.maximum < a.cursor + 1
      · simp [prepare, set, hzero, hlookup, hfull]
      · simp [prepare, set, hzero, hlookup, hfull, not_lt.1 hfull]

theorem Coherent.concat (h : Coherent maximum pks) (hpk : Fits maximum pks pk) :
    Coherent maximum (pks ++ [pk]) := by
  intro older later hpre
  rcases List.prefix_concat_iff.1 hpre with heq | hpre
  · obtain ⟨rfl, rfl⟩ := List.append_singleton_inj.1 heq
    exact hpk
  · exact h older later hpre

theorem Booked.concat (h : Booked maximum a pks) (hused : pk.topicAlias ≤ a.cursor)
    (hpk : Fits maximum pks pk) : Booked maximum a (pks ++ [pk]) where
  maximum_eq := h.maximum_eq
  known topic id hid := by
    obtain ⟨first, hfirst, hrest⟩ := h.known topic id hid
    exact ⟨first, List.mem_append_left _ hfirst, hrest⟩
  used := List.forall_mem_append.2 ⟨h.used, List.forall_mem_singleton.2 hused⟩
  bounded := h.bounded
  coherent := h.coherent.concat hpk

theorem Booked.prepare (h : Booked maximum a pks) (topic : TopicName) :
    Booked maximum (a.prepare topic).1 (pks ++ [(a.prepare topic).2]) := by
  rcases a.prepare_cases topic with heq | ⟨id, hid, heq⟩ | ⟨hroom, heq⟩ <;> rw [heq]
  · exact h.concat (Nat.zero_le _) ⟨Nat.zero_le _, Or.inl ⟨rfl, fun hpos => by cases hpos⟩⟩
  · obtain ⟨first, hfirst, hann, rfl, hname⟩ := h.known _ _ hid
    have hused := h.used first hfirst
    exact h.concat hused
      ⟨hused.trans h.bounded, Or.inr ⟨if_pos hann.2, first, hfirst, hann, rfl, hname⟩⟩
  · rw [h.maximum_eq] at hroom
    have hused := fun pk hpk => Nat.lt_succ_of_le (h.used pk hpk)
    refine ⟨h.maximum_eq, fun t id hid => ?_, ?_, hroom,
      h.coherent.concat ⟨hroom, Or.inl ⟨rfl, fun _ pk hpk => (hused pk hpk).ne⟩⟩⟩
    · rw [GoMap.lookup_insert] at hid
      split_ifs at hid with ht
      · obtain rfl := Option.some_inj.1 hid
        exact ⟨_, List.mem_append_right _ (List.mem_singleton_self _),
          ⟨topic.ne_nil, Nat.succ_pos _⟩, rfl, ht.symm⟩
      · obtain ⟨first, hfirst, hrest⟩ := h.known t id hid
        exact ⟨first, List.mem_append_left _ hfirst, hrest⟩
    · exact List.forall_mem_append.2
        ⟨fun pk hpk => (hused pk hpk).le, List.forall_mem_singleton.2 le_rfl⟩

theorem Booked.rollBack (h : Booked maximum a pks) (topic : TopicName) :
    Booked maximum ((a.prepare topic).1.rollBack (a.prepare topic).2) pks := by
  rcases a.prepare_cases topic with heq | ⟨id, hid, heq⟩ | ⟨hroom, heq⟩ <;> rw [heq]
  · exact h
  · rw [OutboundTopicAliases.rollBack]
    split_ifs
    · rw [OutboundTopicAliases.delete, if_pos hid]
      refine ⟨h.maximum_eq, fun t id' hid' => h.known t id' ?_, h.used, h.bounded, h.coherent⟩
      rw [GoMap.lookup_erase] at hid'
      split_ifs at hid'
      exact hid'
    · exact h
  · rw [OutboundTopicAliases.rollBack, if_pos (Nat.succ_pos _), OutboundTopicAliases.delete,
      if_pos (AList.lookup_insert _)]
    refine ⟨h.maximum_eq, fun t id' hid' => h.known t id' ?_,
      fun pk hpk => (h.used pk hpk).trans (Nat.le_succ _), h.maximum_eq ▸ hroom, h.coherent⟩
    rw [GoMap.lookup_erase, GoMap.lookup_insert] at hid'
    split_ifs at hid'
    exact hid'

theorem booked_start (maximum : ℕ) : Booked maximum { maximum } [] where
  maximum_eq := rfl
  known topic id hid := by cases hid
  used pk hpk := by cases hpk
  bounded := Nat.zero_le _
  coherent older pk hpre := by simp at hpre

namespace InboundTopicAliases

private theorem lookup_receive (hle : pk.topicAlias ≤ maximum) (internal : GoMap ℕ Text) (id : ℕ) :
    (receive maximum internal pk).1.lookup id =
      if pk.Announces ∧ id = pk.topicAlias then some pk.topicName else internal.lookup id := by
  rw [receive]
  split_ifs with hpos hann hann
  · rw [set, if_neg (by omega), if_neg hann.1.1, GoMap.lookup_insert, if_pos hann.2]
  · rw [set, if_neg (by omega)]
    split_ifs with hname
    · rfl
    · rw [GoMap.lookup_insert, if_neg fun hid => hann ⟨⟨hname, hpos⟩, hid⟩]
  · exact absurd hann.1.2 hpos
  · rfl

theorem lookup_after {handled : List (OutPacket × Bool)}
    (hcoh : Coherent maximum (handled.map Prod.fst)) :
    (∀ h ∈ handled, h.1.Announces → (after maximum handled).lookup h.1.topicAlias =
        if h.2 then some h.1.topicName else none) ∧
      ∀ id, (∀ h ∈ handled, h.1.topicAlias ≠ id) → (after maximum handled).lookup id = none := by
  induction handled using List.reverseRecOn with
  | nil => exact ⟨fun h hh => (by cases hh), fun id _ => rfl⟩
  | append_singleton older last ih =>
    rw [List.map_append, List.map_singleton] at hcoh
    obtain ⟨hle, hfits⟩ := hcoh _ _ List.prefix_rfl
    obtain ⟨hknown, hnew⟩ := ih fun x y hpre => hcoh x y (hpre.trans (List.prefix_append _ _))
    have htable : ∀ id, (after maximum (older ++ [last])).lookup id =
        if last.2 = true ∧ last.1.Announces ∧ id = last.1.topicAlias then some last.1.topicName
        else (after maximum older).lookup id := by
      intro id
      rw [after, List.foldl_concat]
      cases hsent : last.2 with
      | false => simp [after]
      | true => simp [after, lookup_receive hle]
    have hfresh : last.1.Announces → ∀ h ∈ older, h.1.topicAlias ≠ last.1.topicAlias := by
      rcases hfits with ⟨-, hfresh⟩ | ⟨hname, -⟩
      · exact fun hann h hh => hfresh hann.2 h.1 (List.mem_map_of_mem hh)
      · exact fun hann => absurd hname hann.1
    refine ⟨fun h hh hann => ?_, fun id hid => ?_⟩ <;> rw [htable]
    · rcases List.mem_append.1 hh with hold | hlast
      · rw [if_neg fun hnext => hfresh hnext.2.1 h hold hnext.2.2, hknown h hold hann]
      · obtain rfl := List.mem_singleton.1 hlast
        exact if_congr (and_iff_left ⟨hann, rfl⟩) rfl (hnew _ (hfresh hann))
    · rw [if_neg fun hnext => hid last (by simp) hnext.2.2.symm,
        hnew id fun h hh => hid h (List.mem_append_left _ hh)]

theorem receive_eq_iff {older : List (OutPacket × Bool)}
    (hcoh : Coherent maximum (older.map Prod.fst)) (hfits : Fits maximum (older.map Prod.fst) pk) :
    (receive maximum (after maximum older) pk).2 = pk.topic.text ↔ Resolved older pk := by
  have hne := pk.topic.ne_nil
  obtain ⟨hle, ⟨hname, -⟩ | ⟨hname, first, hfirst, hann, halias, htopic⟩⟩ := hfits
  · have hread : (receive maximum (after maximum older) pk).2 = pk.topicName := by
      rw [receive, set, if_neg (hname ▸ hne : pk.topicName ≠ [])]
      split_ifs <;> rfl
    exact iff_of_true (hread.trans hname) fun hnil => absurd (hname ▸ hnil) hne
  · obtain ⟨⟨first, sent⟩, hmem, rfl⟩ := List.mem_map.1 hfirst
    have hpos := hann.2
    have hread : (receive maximum (after maximum older) pk).2 =
        ((after maximum older).lookup pk.topicAlias).getD [] := by
      rw [receive, if_pos (halias ▸ hpos), set, if_neg (by omega), if_pos hname]
    have hfirst := (lookup_after hcoh).1 _ hmem hann
    rw [hread, ← halias, hfirst]
    cases sent with
    | true =>
      refine iff_of_true htopic fun _ other hother hann' heq => ?_
      -- the alias of a lost announcement would be unknown
      have hknown := (lookup_after hcoh).1 other hother hann'
      rw [heq, ← halias, hfirst] at hknown
      by_contra hlost
      rw [if_pos rfl, if_neg hlost] at hknown
      cases hknown
    | false => exact iff_of_false hne.symm fun hres => by cases hres hname _ hmem hann halias

end InboundTopicAliases

end KeelGateway.Mochi

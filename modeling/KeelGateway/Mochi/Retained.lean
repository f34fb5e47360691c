import KeelGateway.Mochi.Subscribers

/-!
# Retained messages of the broker library

The server keeps the last retained message of every topic in memory. A subscriber gets those that
`Messages` finds for its filter: by a look at the map if the filter has no wildcard, and otherwise
by a scan that goes down the tree of particles, from level to level of the filter.

The tree is given by the paths of the retained topics, as in `Mochi.Topics` by those of the
subscriptions. All particles below a wildcard are visited once each, so the scan is followed here
along the particles of one topic.

-/

namespace KeelGateway.Mochi

open Acl

/-- A retained message of the server, and the client that has published it. -/
structure RetainedPacket where
  payload : List UInt8
  origin : Text
  deriving DecidableEq

/-- The retained messages by topic. -/
abbrev RetainedPackets : Type := GoMap Text RetainedPacket

/-- `TopicsIndex.RetainMessage`. -/
def retainMessage (retained : RetainedPackets) (topic : Text) (pk : RetainedPacket) :
    RetainedPackets :=
  if pk.payload ≠ [] then retained.insert topic pk else retained.erase topic

/-- `SysPrefix`. -/
def sysPrefix : Text := "$SYS".toList

/-- `scanMessages` from level `d` of the filter on, along the keys of a topic that are left: the
scan gathers the message of the topic. A final `#` is met once more on every level below. -/
def gathers (filter : Text) : ℕ → Path → Bool
  | _, [] => false
  | d, adjacent :: rest =>
    let (key, hasNext) := isolateParticle filter d
    if key = ['+'] ∨ key = ['#'] then
      if d = 0 ∧ adjacent = sysPrefix then false
      else
        (!hasNext && rest.isEmpty) ||
          ((hasNext || key = ['#']) && gathers filter (d + 1) rest)
    else if adjacent = key then
      if hasNext then gathers filter (d + 1) rest else rest.isEmpty
    else false

/-- `TopicsIndex.Messages`, with the topic of every message. -/
def messages (retained : RetainedPackets) (filter : Text) : List (Text × RetainedPacket) :=
  if filter = [] then []
  else if Concrete filter then (retained.lookup filter).toList.map (filter, ·)
  else (retained.entries.filter fun row => gathers filter 0 (levels row.1)).map fun row =>
    (row.1, row.2)

/-- `Messages` finds the topic. -/
def LocalMatch (filter topic : Text) : Prop :=
  filter ≠ [] ∧ if Concrete filter then filter = topic else gathers filter 0 (levels topic) = true

instance (filter topic : Text) : Decidable (LocalMatch filter topic) :=
  inferInstanceAs (Decidable (_ ∧ _))

variable {retained : RetainedPackets} {filter topic : Text} {pk : RetainedPacket}

theorem lookup_retainMessage {topic' : Text} :
    (retainMessage retained topic pk).lookup topic' =
      if topic' = topic then (if pk.payload ≠ [] then some pk else none)
      else retained.lookup topic' := by
  unfold retainMessage
  by_cases hpayload : pk.payload ≠ []
  · rw [if_pos hpayload, if_pos hpayload, GoMap.lookup_insert]
  · rw [if_neg hpayload, if_neg hpayload, GoMap.lookup_erase]

theorem mem_messages :
    (topic, pk) ∈ messages retained filter ↔
      retained.lookup topic = some pk ∧ LocalMatch filter topic := by
  unfold messages LocalMatch
  by_cases hnil : filter = []
  · simp [hnil]
  by_cases hconcrete : Concrete filter
  · simp only [hnil, hconcrete, if_false, if_true, List.mem_map, Option.mem_toList, Prod.mk.injEq,
      ne_eq, not_false_eq_true, true_and]
    constructor
    · rintro ⟨_, hlookup, rfl, rfl⟩
      exact ⟨hlookup, rfl⟩
    · rintro ⟨hlookup, rfl⟩
      exact ⟨pk, hlookup, rfl, rfl⟩
  · simp only [hnil, hconcrete, if_false, List.mem_map, List.mem_filter, Prod.mk.injEq, ne_eq,
      not_false_eq_true, true_and]
    constructor
    · rintro ⟨row, ⟨hrow, hgathers⟩, rfl, rfl⟩
      exact ⟨GoMap.mem_entries.1 hrow, hgathers⟩
    · rintro ⟨hlookup, hgathers⟩
      exact ⟨⟨topic, pk⟩, ⟨GoMap.mem_entries.2 hlookup, hgathers⟩, rfl, rfl⟩

theorem mem_topics_messages :
    topic ∈ (messages retained filter).map Prod.fst ↔
      topic ∈ retained ∧ LocalMatch filter topic := by
  simp only [List.mem_map, Prod.exists, mem_messages, exists_and_right, exists_eq_right,
    GoMap.mem_iff_exists_lookup]

/-- No topic is found twice. -/
theorem nodup_topics_messages : ((messages retained filter).map Prod.fst).Nodup := by
  unfold messages
  split_ifs
  · exact List.nodup_nil
  · cases retained.lookup filter with
    | none => exact List.nodup_nil
    | some pk => exact List.nodup_singleton _
  · rw [List.map_map]
    exact retained.keys_nodup.sublist (List.filter_sublist.map Sigma.fst)

/-! ### The two matchers -/

variable {pre rest : List Text}

theorem exists_of_levels_append {t l : Text} (h : levels t = pre ++ l :: rest) (hrest : rest ≠ []) :
    ∃ before after, t = (before ++ l) ++ '/' :: after := by
  induction pre generalizing t with
  | nil =>
    rcases levels_eq_cons h with ⟨-, hnil⟩ | ⟨after, rfl, -⟩
    · exact absurd hnil hrest
    · exact ⟨[], after, rfl⟩
  | cons first pre ih =>
    rcases levels_eq_cons h with ⟨-, hnil⟩ | ⟨tail, rfl, htail⟩
    · simp at hnil
    · obtain ⟨before, after, rfl⟩ := ih htail.symm
      exact ⟨first ++ '/' :: before, after, by simp⟩

theorem hash_last_of_isValidFilter (h : isValidFilter filter = true)
    (hlevels : levels filter = pre ++ ['#'] :: rest) : rest = [] := by
  by_contra hrest
  obtain ⟨before, after, rfl⟩ := exists_of_levels_append hlevels hrest
  have hmem : '#' ∈ before ++ ['#'] := List.mem_append_right _ (List.mem_singleton_self _)
  have hidx : (before ++ ['#'] ++ '/' :: after).idxOf '#' < (before ++ ['#']).length := by
    rw [List.idxOf_append_of_mem hmem]
    exact List.idxOf_lt_length_of_mem hmem
  have hwild : '#' ∈ before ++ ['#'] ++ '/' :: after ∧
      (before ++ ['#'] ++ '/' :: after).idxOf '#' ≠
        (before ++ ['#'] ++ '/' :: after).length - 1 := by
    refine ⟨List.mem_append_left _ hmem, ?_⟩
    simp only [List.length_append, List.length_cons] at hidx ⊢
    omega
  simp only [isValidFilter, if_pos hwild, ite_self, Bool.false_eq_true] at h

private theorem isolateParticle_of_levels {f : Text} (h : levels filter = pre ++ f :: rest) :
    isolateParticle filter pre.length = (f, decide (rest ≠ [])) := by
  have hpos : 0 < rest.length ↔ rest ≠ [] := List.length_pos_iff
  simp [isolateParticle, h, hpos]

theorem matchLevels_of_gathers (hvalid : isValidFilter filter = true) {path : Path} {f : Text}
    (hlevels : levels filter = pre ++ f :: rest) (h : gathers filter pre.length path = true) :
    matchLevels (f :: rest) path = true := by
  induction path generalizing pre f rest with
  | nil => cases h
  | cons adjacent path ih =>
    -- the next level of the filter, if the scan goes on with one
    have hnext (hrest : rest ≠ []) (h : gathers filter (pre.length + 1) path = true) :
        matchLevels rest path = true := by
      obtain ⟨g, gs, rfl⟩ := List.exists_cons_of_ne_nil hrest
      have hlevels' : levels filter = (pre ++ [f]) ++ g :: gs := by
        rw [hlevels, List.append_assoc, List.singleton_append]
      refine ih hlevels' ?_
      rwa [List.length_append]
    simp only [gathers, isolateParticle_of_levels hlevels] at h
    by_cases hhash : f = ['#']
    · subst hhash
      rw [hash_last_of_isValidFilter hvalid hlevels]
      rfl
    by_cases hplus : f = ['+']
    · subst hplus
      rw [if_pos (Or.inl rfl)] at h
      split_ifs at h with hsys
      rw [matchLevels_plus]
      rcases Bool.or_eq_true_iff.1 h with hend | hmore
      · obtain ⟨hrest, hpath⟩ := Bool.and_eq_true_iff.1 hend
        have hnil : rest = [] := by simpa using hrest
        rw [hnil, matchLevels_nil, hpath]
      · obtain ⟨hrest, hpath⟩ := Bool.and_eq_true_iff.1 hmore
        have hne : rest ≠ [] := by simpa using hrest
        exact hnext hne hpath
    · rw [if_neg (not_or.2 ⟨hplus, hhash⟩)] at h
      split_ifs at h with hkey hrest
      · rw [matchLevels_cons_cons hhash]
        exact ⟨Or.inl hkey.symm, hnext (of_decide_eq_true hrest) h⟩
      · have hnil : rest = [] := by simpa using hrest
        rw [matchLevels_cons_cons hhash, hnil]
        exact ⟨Or.inl hkey.symm, h⟩

theorem matchTopic_iff_of_concrete (h : Concrete filter) :
    matchTopic filter topic = true ↔ filter = topic := by
  refine ⟨fun hmatch => ?_, fun heq => heq ▸ matchTopic_self filter⟩
  by_contra hne
  unfold matchTopic at hmatch
  rw [if_neg hne, matchLevels_eq_of_literal (noWildcard_levels h),
    decide_eq_false (levels_injective.ne hne), ite_self] at hmatch
  cases hmatch

theorem LocalMatch.matchTopic (h : LocalMatch filter topic) (hvalid : isValidFilter filter = true)
    (hdollar : topic.head? ≠ some '$') : matchTopic filter topic = true := by
  obtain ⟨-, h⟩ := h
  split_ifs at h with hconcrete
  · exact (matchTopic_iff_of_concrete hconcrete).2 h
  · obtain ⟨f, rest, hlevels⟩ := List.exists_cons_of_ne_nil (levels_ne_nil filter)
    have hcovers : matchLevels (levels filter) (levels topic) = true := by
      rw [hlevels]
      exact matchLevels_of_gathers hvalid (show levels filter = [] ++ f :: rest from hlevels) h
    unfold Acl.matchTopic
    split_ifs with heq hguard
    · rfl
    · have hhidden := hidden_of_dollarGuard hguard
      simp [hidden, hdollar] at hhidden
    · exact hcovers

end KeelGateway.Mochi

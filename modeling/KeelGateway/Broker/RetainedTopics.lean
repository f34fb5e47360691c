import KeelGateway.Acl.Coverage
import KeelGateway.Broker.Retained

/-!
# Retained topics in Redis

The store keeps a key for every retained topic, and the set of these topics under a key of the same
form. This is the key of the topic `index`. A retained message on this topic replaces the set by a
string, and from then on every command on the set fails. A retained clear of it removes the set, and
filters with wildcards no longer find the other topics.

-/

namespace KeelGateway.Broker

open Acl Mochi StepMachine
open RetainedCluster (topicT topicU topicIndex)

/-- A call that changes the store. -/
inductive RetainedCall where
  | set (topic : TopicName) (payload : List UInt8)
  | delete (topic : TopicName)

namespace RetainedCall

/-- The topic of the call. -/
def topic : RetainedCall → Text
  | set topic _ => topic.text
  | delete topic => topic.text

/-- The message that the call leaves on its topic. -/
def kept : RetainedCall → Option (List UInt8)
  | set _ payload => if payload ≠ [] then some payload else none
  | delete _ => none

/-- The call on a store, and whether it succeeds. -/
def apply (s : RetainedStore) : RetainedCall → RetainedStore × Bool
  | set topic payload => s.set topic.text payload
  | delete topic => s.delete topic.text

private theorem concrete_topic (c : RetainedCall) : Concrete c.topic := by
  cases c with
  | set topic _ => exact topic.concrete
  | delete topic => exact topic.concrete

theorem apply_of_kept_eq_none {c : RetainedCall} (h : c.kept = none) (s : RetainedStore) :
    c.apply s = s.delete c.topic := by
  cases c with
  | set topic payload =>
    have hempty : payload = [] := by
      by_contra hne
      rw [kept, if_pos hne] at h
      cases h
    rw [apply, RetainedStore.set, if_pos hempty]
    rfl
  | delete topic => rfl

theorem apply_of_kept_eq_some {c : RetainedCall} {payload : List UInt8} (h : c.kept = some payload)
    (s : RetainedStore) : c.apply s =
      RetainedStore.sAdd ⟨s.keys.insert (retainedKey c.topic) (.string payload)⟩ c.topic := by
  cases c with
  | set topic p =>
    rw [kept] at h
    split_ifs at h with hne
    cases h
    rw [apply, RetainedStore.set, if_neg hne]
    rfl
  | delete topic => cases h

end RetainedCall

/-- The store, and the last message on every topic that has one. -/
structure RetainedLog where
  store : RetainedStore := {}
  last : Text → Option (List UInt8) := fun _ => none

namespace RetainedLog

/-- A call. -/
def step (s : RetainedLog) (c : RetainedCall) : RetainedLog where
  store := (c.apply s.store).1
  last := Function.update s.last c.topic c.kept

/-- The call does not fail. -/
def Succeeds (s : RetainedLog) (c : RetainedCall) : Prop := (c.apply s.store).2 = true

/-- `Match` succeeds for every valid filter, and answers once with every topic that the filter
matches and that is not excluded, with its last message. -/
def Exact (s : RetainedLog) : Prop :=
  ∀ filter exclude, ValidFilter filter → ∃ result, s.store.matching filter exclude = some result ∧
    (result.map Prod.fst).Nodup ∧ ∀ topic payload, (topic, payload) ∈ result ↔
      topic ∉ exclude ∧ MqttMatch filter topic ∧ s.last topic = some payload

/-- A call on the topic `index` leaves no message, and nothing is retained before it. -/
def SparesIndex (s : RetainedLog) (c : RetainedCall) : Prop :=
  c.topic = indexTopic → c.kept = none ∧ ∀ topic, s.last topic = none

/-- The store follows the messages, which are on topic names. -/
structure Inv (s : RetainedLog) : Prop where
  mirrors : s.store.Mirrors s.last
  concrete : ∀ topic payload, s.last topic = some payload → Concrete topic

theorem inv_empty : Inv {} := ⟨RetainedStore.mirrors_empty, fun _ _ h => by cases h⟩

variable {s : RetainedLog} {c : RetainedCall}

theorem last_step (s : RetainedLog) (c : RetainedCall) (topic : Text) :
    (s.step c).last topic = if topic = c.topic then c.kept else s.last topic :=
  Function.update_apply _ _ _ _

theorem Inv.exact (h : s.Inv) : s.Exact := by
  intro filter exclude _
  obtain ⟨members, hmembers, -⟩ := h.mirrors.topics
  obtain ⟨result, hresult⟩ : ∃ result, s.store.matching filter exclude = some result := by
    unfold RetainedStore.matching
    split_ifs
    · exact ⟨_, rfl⟩
    · exact ⟨_, rfl⟩
    · rw [hmembers]
      exact ⟨_, rfl⟩
  have hnodup := RetainedStore.nodup_topics_matching s.store filter exclude
  rw [hresult] at hnodup
  refine ⟨result, hresult, hnodup, fun topic payload => ?_⟩
  have hmem := @RetainedStore.mem_matching _ _ h.mirrors filter topic payload exclude
  rw [hresult, Option.getD_some] at hmem
  rw [hmem]
  refine and_congr_right fun _ => and_congr_left fun hlast => ?_
  exact matchTopic_iff_mqttMatch (h.concrete topic payload hlast) filter

theorem Inv.last_indexTopic (h : s.Inv) : s.last indexTopic = none := by
  obtain ⟨members, hmembers, -⟩ := h.mirrors.topics
  rw [← h.mirrors.payloads, RetainedStore.mGet_indexTopic hmembers]

/-! ### Calls on other topics, and clears of an empty store -/

theorem concrete_step (h : s.Inv) (c : RetainedCall) :
    ∀ topic payload, (s.step c).last topic = some payload → Concrete topic := by
  intro topic payload hlast
  rw [last_step] at hlast
  split_ifs at hlast with htopic
  · exact htopic ▸ c.concrete_topic
  · exact h.concrete topic payload hlast

theorem delete_indexTopic (s : RetainedStore) :
    s.delete indexTopic = (⟨s.keys.erase retainedIndexKey⟩, true) := by
  have hkey : retainedKey indexTopic = retainedIndexKey := rfl
  rw [RetainedStore.delete, hkey, RetainedStore.sRem, AList.lookup_erase]

theorem sMembers_erase (s : RetainedStore) :
    (⟨s.keys.erase retainedIndexKey⟩ : RetainedStore).sMembers = some [] := by
  rw [RetainedStore.sMembers, AList.lookup_erase]

theorem Inv.step_of_sparesIndex (h : s.Inv) (hspares : s.SparesIndex c) :
    s.Succeeds c ∧ (s.step c).Inv := by
  by_cases htopic : c.topic = indexTopic
  · obtain ⟨hkept, hnothing⟩ := hspares htopic
    have happly : c.apply s.store = (⟨s.store.keys.erase retainedIndexKey⟩, true) := by
      rw [RetainedCall.apply_of_kept_eq_none hkept, htopic, delete_indexTopic]
    have hlast : (s.step c).last = s.last := by
      rw [step, hkept, Function.update_eq_self_iff, hnothing]
    refine ⟨congrArg Prod.snd happly, ⟨fun topic => ?_, ⟨[], ?_, fun topic => ?_⟩⟩,
      concrete_step h c⟩
    · rw [hlast, hnothing, step, happly]
      by_cases hindex : topic = indexTopic
      · rw [hindex, RetainedStore.mGet_indexTopic (sMembers_erase s.store)]
      · rw [RetainedStore.mGet, AList.lookup_erase_ne (retainedKey_ne_retainedIndexKey hindex),
          ← RetainedStore.mGet, h.mirrors.payloads, hnothing]
    · rw [step, happly, sMembers_erase]
    · rw [hlast, hnothing]
      simp
  · have hmirrors : (c.apply s.store).2 = true ∧
        (c.apply s.store).1.Mirrors (Function.update s.last c.topic c.kept) := by
      cases c with
      | set topic payload => exact RetainedStore.mirrors_set h.mirrors htopic payload
      | delete topic => exact RetainedStore.mirrors_delete h.mirrors htopic
    exact ⟨hmirrors.1, hmirrors.2, concrete_step h c⟩

/-! ### Other calls on the topic `index` -/

theorem matching_of_wildcard {store : RetainedStore} {filter : Text} (hfilter : ¬ Concrete filter)
    (exclude : List Text) :
    store.matching filter exclude = store.sMembers.map fun members =>
      (members.filter fun t => t ∉ exclude ∧ matchTopic filter t = true).filterMap fun t =>
        (store.mGet t).map (t, ·) := by
  rw [RetainedStore.matching, if_neg hfilter]
  cases store.sMembers <;> rfl

theorem not_exact_of_set {payload : List UInt8} (htopic : c.topic = indexTopic)
    (hkept : c.kept = some payload) : ¬ (s.step c).Exact := by
  intro hexact
  have hkey : retainedKey indexTopic = retainedIndexKey := rfl
  have hstore : (s.step c).store = ⟨s.store.keys.insert retainedIndexKey (.string payload)⟩ := by
    rw [step, RetainedCall.apply_of_kept_eq_some hkept, htopic, hkey, RetainedStore.sAdd,
      AList.lookup_insert]
  obtain ⟨result, hresult, -⟩ := hexact ['#'] [] (by decide)
  rw [matching_of_wildcard (by decide), hstore, RetainedStore.sMembers] at hresult
  cases hresult

/-- The filter of a topic and everything below it. -/
def below (topic : Text) : Text := topic ++ ['/', '#']

theorem levels_below (topic : Text) : levels (below topic) = levels topic ++ [['#']] :=
  levels_slash topic ['#']

private theorem not_concrete_below (topic : Text) : ¬ Concrete (below topic) := by
  simp [Concrete, below]

private theorem validFilter_below {topic : Text} (h : Concrete topic) :
    ValidFilter (below topic) := by
  have hlevel {l : Text} (hl : l ∈ levels (below topic)) : Concrete l ∨ l = ['#'] := by
    rw [levels_below, List.mem_append, List.mem_singleton] at hl
    exact hl.imp_left fun hl => ⟨fun hc => h.1 (mem_of_mem_levels hl hc),
      fun hc => h.2 (mem_of_mem_levels hl hc)⟩
  refine ⟨fun l hl hplus => ?_, fun l hl hhash => ?_, ?_⟩
  · rcases hlevel hl with hl | rfl
    · exact absurd hplus hl.1
    · exact absurd hplus (by decide)
  · rcases hlevel hl with hl | rfl
    · exact absurd hhash hl.2
    · rfl
  · rw [levels_below, List.dropLast_concat]
    exact fun hl => h.2 (mem_of_mem_levels hl (List.mem_singleton_self '#'))

private theorem mqttMatch_below {topic : Text} (h : Concrete topic) :
    MqttMatch (below topic) topic := by
  have hliteral : ∀ l ∈ levels topic, l ≠ ['#'] ∧ l ≠ ['+'] := by
    intro l hl
    have hwild := not_isWildcard_of_concrete h hl
    exact ⟨fun heq => hwild (Or.inr heq), fun heq => hwild (Or.inl heq)⟩
  refine ⟨?_, fun l hl t ht hwild => ?_⟩
  · have hmatch := matchLevels_append_hash hliteral []
    rw [List.append_nil] at hmatch
    rw [levels_below]
    exact (matchLevels_iff_levelsMatch _ _).1 hmatch
  · -- the first level is the one of the topic
    rw [levels_below, List.head?_append_of_ne_nil _ (levels_ne_nil topic)] at hl
    exact absurd hwild (not_isWildcard_of_concrete h (List.mem_of_head? hl))

theorem Inv.not_exact_of_clear (h : s.Inv) (htopic : c.topic = indexTopic) (hkept : c.kept = none)
    {topic : Text} {payload : List UInt8} (hlast : s.last topic = some payload) :
    ¬ (s.step c).Exact := by
  intro hexact
  have hstore : (s.step c).store = ⟨s.store.keys.erase retainedIndexKey⟩ := by
    rw [step, RetainedCall.apply_of_kept_eq_none hkept, htopic, delete_indexTopic]
  have hne : topic ≠ c.topic := by
    rintro rfl
    rw [htopic, h.last_indexTopic] at hlast
    cases hlast
  have hconcrete := h.concrete topic payload hlast
  obtain ⟨result, hresult, -, hmem⟩ := hexact (below topic) [] (validFilter_below hconcrete)
  rw [matching_of_wildcard (not_concrete_below topic), hstore, sMembers_erase] at hresult
  cases hresult
  refine absurd ((hmem topic payload).2 ⟨List.not_mem_nil, mqttMatch_below hconcrete, ?_⟩)
    List.not_mem_nil
  rw [last_step, if_neg hne, hlast]

/-! ### Runs -/

theorem Inv.exact_step_iff (h : s.Inv) : (s.step c).Exact ↔ s.SparesIndex c := by
  refine ⟨fun hexact htopic => ?_, fun hspares => (h.step_of_sparesIndex hspares).2.exact⟩
  have hkept : c.kept = none := by
    by_contra hne
    obtain ⟨payload, hpayload⟩ := Option.ne_none_iff_exists'.1 hne
    exact not_exact_of_set htopic hpayload hexact
  refine ⟨hkept, fun topic => ?_⟩
  by_contra hne
  obtain ⟨payload, hpayload⟩ := Option.ne_none_iff_exists'.1 hne
  exact h.not_exact_of_clear htopic hkept hpayload hexact

private theorem always_exact_iff (calls : List RetainedCall) :
    Always step Exact {} calls ↔ Along step SparesIndex {} calls := by
  -- as long as the answers are exact, the store follows the messages
  refine always_iff_along_of_invariant (I := fun s => s.Exact → s.Inv)
    (fun s c hinv hexact hnext => ?_) (fun s c hinv hexact => (hinv hexact).exact_step_iff)
    (fun _ => inv_empty) inv_empty.exact
  have h := hinv hexact
  exact (h.step_of_sparesIndex (h.exact_step_iff.1 hnext)).2

/-- The topics are independent: no call fails, and after every call all answers are exact. This is
so exactly if every call on the topic `index` clears it when nothing is retained. -/
theorem independent_iff (calls : List RetainedCall) :
    (Along step Succeeds {} calls ∧ Always step Exact {} calls) ↔
      Along step SparesIndex {} calls := by
  rw [always_exact_iff]
  refine ⟨fun h => h.2, fun h => ⟨?_, h⟩⟩
  exact along_of_invariant (fun s c hinv hok => (Inv.step_of_sparesIndex hinv hok).2)
    (fun s c hinv hok => (Inv.step_of_sparesIndex hinv hok).1) inv_empty h

/-- A message on the topic `index` makes a message on another topic fail, and a clear of it hides a
message on another topic. -/
theorem index_not_independent :
    (RetainedCall.apply (run step {} [.set topicT [1], .set topicIndex [2]]).store
      (.set topicU [3])).2 = false ∧
    (run step {} [.set topicT [1], .delete topicIndex]).last ['t'] = some [1] ∧
    (run step {} [.set topicT [1], .delete topicIndex]).store.matching ['#'] [] = some [] := by
  decide +kernel

end RetainedLog

end KeelGateway.Broker

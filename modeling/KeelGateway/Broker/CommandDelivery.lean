import KeelGateway.Broker.AclCheck

/-!
# Delivery of commands to devices

A device may hold three read filters. `OnACLCheck` compares a filter at SUBSCRIBE time, and the
topic of every message before it is delivered, with the same three texts. For the one filter
without a wildcard the two questions have one answer. The two wildcard filters are accepted as
filters, while the topics they cover are none of the three texts.

-/

namespace KeelGateway.Broker

open Acl

/-- The fields of a command that choose its topic. -/
structure Command where
  deviceID : Text
  tenantID : Text
  type : Text

/-- The topic of `Commander.handle`, with the request ID it draws. A command without a device is
skipped. -/
def commandTopic (cmd : Command) (reqID : UUID) : Option Text :=
  if cmd.deviceID = [] then none
  else
    let subject := if cmd.type = [] then "req".toList else cmd.type
    if cmd.tenantID ≠ [] then
      some ("command/".toList ++ cmd.tenantID ++ "//".toList ++ cmd.deviceID ++ "/req/".toList ++
        reqID.string ++ "/".toList ++ subject)
    else some ("command/".toList ++ cmd.deviceID)

/-- The three read texts of a device. -/
def plainFilter (info : DeviceInfo) : Text := "command/".toList ++ info.id.string

/-- Everything below the command topic of the device. -/
def subtreeFilter (info : DeviceInfo) : Text := plainFilter info ++ "/#".toList

/-- The requests in the format with a tenant. -/
def honoFilter (info : DeviceInfo) : Text :=
  "command/".toList ++ info.tenantID.string ++ "//".toList ++ info.id.string ++ "/req/#".toList

theorem isAllowedRead_iff (topic : Text) (info : DeviceInfo) :
    isAllowedRead topic info = true ↔
      topic = plainFilter info ∨ topic = subtreeFilter info ∨ topic = honoFilter info := by
  simp only [isAllowedRead, Bool.or_eq_true, decide_eq_true_eq, or_assoc]
  rfl

/-! ### The topics the filters cover -/

theorem levels_plainFilter (info : DeviceInfo) :
    levels (plainFilter info) = ["command".toList, info.id.string] := by
  have hslash : '/' ∉ info.id.string := info.id.notMem_string (by decide)
  calc levels (plainFilter info) = levels ("command".toList ++ '/' :: info.id.string) := rfl
    _ = ["command".toList, info.id.string] := by
        rw [levels_slash, levels_of_notMem hslash]
        rfl

/-- A UUID is no wildcard level. -/
theorem string_ne_wildcard (u : UUID) : u.string ≠ ['#'] ∧ u.string ≠ ['+'] := by
  constructor <;> intro h <;> simpa [h] using u.length_string

theorem eq_plainFilter_of_matchTopic {info : DeviceInfo} {topic : Text}
    (h : matchTopic (plainFilter info) topic = true) : topic = plainFilter info := by
  by_contra hne
  have hlevels : matchLevels (levels (plainFilter info)) (levels topic) = true := by
    unfold matchTopic at h
    split_ifs at h with heq hd
    · exact absurd heq.symm hne
    · exact h
  have hliteral : ∀ f ∈ levels (plainFilter info), f ≠ ['#'] ∧ f ≠ ['+'] := by
    rw [levels_plainFilter]
    intro f hf
    rcases List.mem_cons.1 hf with rfl | hf
    · decide
    · rw [List.mem_singleton.1 hf]
      exact string_ne_wildcard info.id
  rw [matchLevels_eq_of_literal hliteral, decide_eq_true_eq] at hlevels
  exact hne (levels_injective hlevels).symm

theorem matchTopic_command_hash {base : Text} {ls : List Text}
    (hbase : levels base = "command".toList :: ls) (hls : ∀ l ∈ ls, l ≠ ['#'] ∧ l ≠ ['+']) :
    matchTopic (base ++ "/#".toList) (base ++ "/x".toList) = true := by
  have hfilter : levels (base ++ "/#".toList) = "command".toList :: ls ++ [['#']] := by
    change levels (base ++ '/' :: ['#']) = _
    rw [levels_slash, hbase, levels_of_notMem (by decide)]
  have htopic : levels (base ++ "/x".toList) = "command".toList :: ls ++ [['x']] := by
    change levels (base ++ '/' :: ['x']) = _
    rw [levels_slash, hbase, levels_of_notMem (by decide)]
  have hne : base ++ "/#".toList ≠ base ++ "/x".toList := by
    rw [ne_eq, List.append_cancel_left_eq]
    decide
  have hdollar : dollarGuard (levels (base ++ "/#".toList)) (levels (base ++ "/x".toList)) =
      false := by
    rw [hfilter, htopic]
    rfl
  have hliteral : ∀ l ∈ "command".toList :: ls, l ≠ ['#'] ∧ l ≠ ['+'] := by
    intro l hl
    rcases List.mem_cons.1 hl with rfl | hl
    · decide
    · exact hls l hl
  rw [matchTopic_eq_matchLevels hne hdollar, hfilter, htopic]
  exact matchLevels_append_hash hliteral _

/-- The part of the filter with a tenant before its wildcard. -/
def honoBase (info : DeviceInfo) : Text :=
  "command/".toList ++ info.tenantID.string ++ "//".toList ++ info.id.string ++ "/req".toList

private theorem levels_honoBase (info : DeviceInfo) :
    levels (honoBase info) =
      ["command".toList, info.tenantID.string, [], info.id.string, "req".toList] := by
  have hd : '/' ∉ info.id.string := info.id.notMem_string (by decide)
  have ht : '/' ∉ info.tenantID.string := info.tenantID.notMem_string (by decide)
  have hsplit : honoBase info = "command".toList ++ '/' :: (info.tenantID.string ++ '/' ::
      ([] ++ '/' :: (info.id.string ++ '/' :: "req".toList))) := by
    unfold honoBase
    simp
  rw [hsplit, levels_slash, levels_slash, levels_slash, levels_slash, levels_of_notMem ht,
    levels_of_notMem hd]
  rfl

theorem honoFilter_eq (info : DeviceInfo) : honoFilter info = honoBase info ++ "/#".toList := by
  unfold honoFilter honoBase
  simp

theorem concrete_append {s t : Text} (hs : Concrete s) (ht : Concrete t) : Concrete (s ++ t) :=
  ⟨fun h => (List.mem_append.1 h).elim hs.1 ht.1, fun h => (List.mem_append.1 h).elim hs.2 ht.2⟩

theorem concrete_string (u : UUID) : Concrete u.string :=
  ⟨u.notMem_string (by decide), u.notMem_string (by decide)⟩

private theorem concrete_plainFilter (info : DeviceInfo) : Concrete (plainFilter info) :=
  concrete_append (by decide) (concrete_string _)

private theorem concrete_honoBase (info : DeviceInfo) : Concrete (honoBase info) := by
  exact concrete_append (concrete_append (concrete_append (concrete_append (by decide)
    (concrete_string _)) (by decide)) (concrete_string _)) (by decide)

theorem isAllowedRead_letter {info : DeviceInfo} {base : Text}
    (hlen : 44 ≤ base.length) : isAllowedRead (base ++ "/x".toList) info = false := by
  rw [Bool.eq_false_iff, ne_eq, isAllowedRead_iff]
  have hend : "/x".toList ≠ "/#".toList := by decide
  rintro (h | h | h)
  · have hlen' := congrArg List.length h
    unfold plainFilter at hlen'
    simp at hlen'
    omega
  · exact hend (List.append_inj' h rfl).2
  · rw [honoFilter_eq] at h
    exact hend (List.append_inj' h rfl).2

/-! ### Agreement of the two decisions -/

section Agreement

variable (parseUUID : Text → Bool)

/-- What the hook accepts as a read filter, it accepts for every concrete topic the filter
covers. -/
def ReadAgrees (h : KeelHook) (clientID filter : Text) : Prop :=
  h.onACLCheck parseUUID clientID filter false = true →
    ∀ topic, Concrete topic → matchTopic filter topic = true →
      h.onACLCheck parseUUID clientID topic false = true

/-- A device that the hook has authenticated, for which the registry has no rule. -/
structure PlainDevice (h : KeelHook) (clientID : Text) (state : ClientState) : Prop where
  lookup : h.clients.lookup clientID = some state
  method : state.method ≠ .testConsumerRole
  noRule : ∀ evaluateACL, h.clusterRegistry = some evaluateACL →
    ∀ topic action, (evaluateACL clientID state.username topic action).rule = none

variable {parseUUID}

theorem PlainDevice.onACLCheck_read {h : KeelHook} {clientID : Text} {state : ClientState}
    (hd : PlainDevice h clientID state) (topic : Text) :
    h.onACLCheck parseUUID clientID topic false = isAllowedRead topic state.info := by
  rw [KeelHook.onACLCheck_of_rule_eq_none hd.lookup fun e he => hd.noRule e he topic _]
  simp [builtinPolicy, hd.method]

theorem isAllowedRead_commandTopic {cmd : Command} {reqID : UUID} {info : DeviceInfo}
    {topic : Text} (hdev : cmd.deviceID = info.id.string)
    (hten : cmd.tenantID = [] ∨ cmd.tenantID = info.tenantID.string)
    (htopic : commandTopic cmd reqID = some topic) :
    isAllowedRead topic info = true ↔ cmd.tenantID = [] := by
  have hne : info.id.string ≠ [] := by
    intro h
    simpa [h] using info.id.length_string
  unfold commandTopic at htopic
  rw [hdev, if_neg hne] at htopic
  rcases hten with hten | hten
  · simp only [hten, ne_eq, not_true_eq_false, if_false, Option.some.injEq] at htopic
    rw [← htopic, isAllowedRead_iff, iff_true_right hten]
    exact Or.inl rfl
  · have hten' : cmd.tenantID ≠ [] := by
      intro h
      simpa [← hten, h] using info.tenantID.length_string
    simp only [hten', ne_eq, not_false_eq_true, if_true, Option.some.injEq] at htopic
    rw [iff_false_right hten', isAllowedRead_iff]
    have hlen := congrArg List.length htopic
    rw [hten] at hlen
    unfold honoFilter subtreeFilter plainFilter
    rintro (h | h | h) <;>
    · rw [h] at hlen
      simp at hlen
      try omega

/-- For every device without a matching rule: the decision on a filter agrees with the decisions
on the topics it covers exactly when the filter is neither of the two wildcard filters, and a
command for the device is let through exactly when it is in the format without a tenant. -/
theorem readAgrees_iff {h : KeelHook} {clientID : Text} {state : ClientState}
    (hd : PlainDevice h clientID state) (filter : Text) :
    (ReadAgrees parseUUID h clientID filter ↔
      filter ≠ subtreeFilter state.info ∧ filter ≠ honoFilter state.info) ∧
    ∀ (cmd : Command) (reqID : UUID) (topic : Text), cmd.deviceID = state.info.id.string →
      (cmd.tenantID = [] ∨ cmd.tenantID = state.info.tenantID.string) →
      commandTopic cmd reqID = some topic →
      (h.onACLCheck parseUUID clientID topic false = true ↔ cmd.tenantID = []) := by
  constructor
  · unfold ReadAgrees
    simp only [hd.onACLCheck_read]
    constructor
    · intro hagree
      constructor
      · rintro rfl
        have hread := hagree ((isAllowedRead_iff _ _).2 (Or.inr (Or.inl rfl)))
          (plainFilter state.info ++ "/x".toList)
          (concrete_append (concrete_plainFilter _) (by decide))
          (matchTopic_command_hash (levels_plainFilter _) (by simpa using string_ne_wildcard _))
        rw [isAllowedRead_letter (by unfold plainFilter; simp)] at hread
        cases hread
      · rintro rfl
        have hread := hagree ((isAllowedRead_iff _ _).2 (Or.inr (Or.inr rfl)))
          (honoBase state.info ++ "/x".toList)
          (concrete_append (concrete_honoBase _) (by decide))
          (honoFilter_eq state.info ▸ matchTopic_command_hash (levels_honoBase _)
            (by simpa using ⟨string_ne_wildcard _, string_ne_wildcard _⟩))
        rw [isAllowedRead_letter (by unfold honoBase; simp)] at hread
        cases hread
    · rintro ⟨hsub, hhono⟩ hacc topic - hmatch
      rcases (isAllowedRead_iff _ _).1 hacc with rfl | h | h
      · rw [eq_plainFilter_of_matchTopic hmatch]
        exact hacc
      · exact absurd h hsub
      · exact absurd h hhono
  · intro cmd reqID topic hdev hten htopic
    rw [hd.onACLCheck_read]
    exact isAllowedRead_commandTopic hdev hten htopic

end Agreement

/-! ### A device on a node without a cluster registry -/

/-- Device `1111…` of tenant `2222…`. -/
def sampleInfo : DeviceInfo := ⟨⟨List.replicate 16 0x11, rfl⟩, ⟨List.replicate 16 0x22, rfl⟩⟩

/-- The device is connected under the client ID `sensor`. -/
def sampleHook : KeelHook where
  clients := AList.singleton "sensor".toList ⟨sampleInfo, .password, "sensor".toList⟩

/-- The hook accepts everything below the command topic as a filter and rejects the messages. -/
theorem not_readAgrees_subtreeFilter :
    ¬ ReadAgrees (fun _ => false) sampleHook "sensor".toList (subtreeFilter sampleInfo) := by
  intro h
  have hread := h (by decide +kernel) (plainFilter sampleInfo ++ "/x".toList) (by decide +kernel)
    (by decide +kernel)
  revert hread
  decide +kernel

theorem readAgrees_iff_sensor :
    PlainDevice sampleHook "sensor".toList ⟨sampleInfo, .password, "sensor".toList⟩ ∧
    ReadAgrees (fun _ => false) sampleHook "sensor".toList (plainFilter sampleInfo) := by
  have hd : PlainDevice sampleHook "sensor".toList ⟨sampleInfo, .password, "sensor".toList⟩ :=
    ⟨AList.lookup_insert ∅, by decide, fun _ h => by cases h⟩
  exact ⟨hd, (readAgrees_iff hd _).1.2 ⟨by decide +kernel, by decide +kernel⟩⟩

end KeelGateway.Broker

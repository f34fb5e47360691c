import KeelGateway.Raft.AclCache

/-!
# Topic-level access control of the broker hook

`OnACLCheck` answers two questions with one predicate: may this client subscribe to a filter, and
may a message with a concrete topic be delivered to it. It asks the cluster registry first. A
decision that names a rule is final; a decision without a rule counts as no opinion, and the
built-in policy decides.

-/

namespace KeelGateway.Broker

open Acl

/-- How a connection presented its credentials. The last method is the hardcoded test role. -/
inductive AuthMethod where
  | password
  | jwt
  | certificate
  | testConsumerRole
  deriving DecidableEq, Repr

/-- The part of `auth.DeviceInfo` that access control reads. -/
structure DeviceInfo where
  id : UUID
  tenantID : UUID
  deriving DecidableEq

/-- `clientState`: what the hook remembers of an authenticated connection. -/
structure ClientState where
  info : DeviceInfo
  method : AuthMethod
  /-- The raw MQTT username, a principal of the ACL engine besides the client ID. -/
  username : Text
  deriving DecidableEq

/-- The registry interface as far as access control uses it. -/
abbrev EvaluateACL : Type := Text → Text → Text → Action → Decision

/-- The part of `keelHook` that access control reads. -/
structure KeelHook where
  clients : GoMap Text ClientState := ∅
  clusterRegistry : Option EvaluateACL := none

/-- `isAllowedConsumerSubscribe`: the policy of the test consumer, on the underlying filter of a
shared subscription. -/
def isAllowedConsumerSubscribe (topic : Text) : Bool :=
  let topic :=
    match sharedFilter topic with
    | some (_, underlying) => underlying
    | none => topic
  if topic = "telemetry/#".toList || topic = "telemetry".toList then true
  else "telemetry/".toList.isPrefixOf topic && !topic.any fun c => c = '+' || c = '#'

/-- `isHonoTopicShape`: after the prefix comes the own tenant and a slash. -/
def isHonoTopicShape (topic pre : Text) (info : DeviceInfo) : Bool :=
  (info.tenantID.string ++ ['/']).isPrefixOf (topic.drop pre.length)

/-- `isHonoTopicOwned`: after the prefix come the own tenant and the own device. -/
def isHonoTopicOwned (topic pre : Text) (info : DeviceInfo) : Bool :=
  let rest := topic.drop pre.length
  let td := info.tenantID.string ++ '/' :: info.id.string
  rest = td || (td ++ ['/']).isPrefixOf rest

/-- The topics a device may publish to directly. -/
def isAllowedPublishDirect (topic : Text) (info : DeviceInfo) : Bool :=
  if topic = "telemetry".toList || topic = "t".toList || topic = "event".toList ||
      topic = "e".toList || topic = "status/heartbeat".toList || topic = "status/ota".toList ||
      topic = "status/ca".toList then true
  else if topic.length > 2 && ("t/".toList.isPrefixOf topic || "e/".toList.isPrefixOf topic) then
    true
  else if topic.length > 10 && "telemetry/".toList.isPrefixOf topic then
    isHonoTopicOwned topic "telemetry/".toList info ||
      !isHonoTopicShape topic "telemetry/".toList info
  else if topic.length > 6 && "event/".toList.isPrefixOf topic then
    isHonoTopicOwned topic "event/".toList info || !isHonoTopicShape topic "event/".toList info
  else false

section Policy

-- Whether `uuid.Parse`, a function of an outside library, accepts a text.
variable (parseUUID : Text → Bool)

/-- The body of `isAllowedPublish`, with the recursive call as an argument. -/
def isAllowedPublishStep (info : DeviceInfo) (inner : Text → Bool) (topic : Text) : Bool :=
  if "via/".toList.isPrefixOf topic then
    match (topic.drop 4).span (· != '/') with
    | (_ :: _, []) => false
    | ([], _) => false
    | (c :: subID, _ :: subTopic) => if parseUUID (c :: subID) then inner subTopic else false
  else isAllowedPublishDirect topic info

/-- `isAllowedPublish` with a bound on the nesting of `via/` prefixes. -/
def isAllowedPublishWithin (info : DeviceInfo) : ℕ → Text → Bool
  | 0, _ => false
  | fuel + 1, topic =>
    isAllowedPublishStep parseUUID info (isAllowedPublishWithin info fuel) topic

/-- `isAllowedPublish`. Every `via/` prefix shortens the topic, so its length bounds the nesting;
`isAllowedPublish_eq` is the equation of the source. -/
def isAllowedPublish (topic : Text) (info : DeviceInfo) : Bool :=
  isAllowedPublishWithin parseUUID info (topic.length + 1) topic

/-- The filters and topics a device may read. -/
def isAllowedRead (topic : Text) (info : DeviceInfo) : Bool :=
  let deviceID := info.id.string
  let tenantID := info.tenantID.string
  topic = "command/".toList ++ deviceID ||
    topic = "command/".toList ++ deviceID ++ "/#".toList ||
    topic = "command/".toList ++ tenantID ++ "//".toList ++ deviceID ++ "/req/#".toList

/-- What `OnACLCheck` does when the registry has no opinion. -/
def builtinPolicy (state : ClientState) (topic : Text) (write : Bool) : Bool :=
  if state.method = .testConsumerRole then !write && isAllowedConsumerSubscribe topic
  else if write then isAllowedPublish parseUUID topic state.info
  else isAllowedRead topic state.info

/-- The action a read or a write asks for. -/
def actionOf (write : Bool) : Action := if write then .publish else .subscribe

/-- `keelHook.OnACLCheck`. -/
def KeelHook.onACLCheck (h : KeelHook) (clientID topic : Text) (write : Bool) : Bool :=
  match h.clients.lookup clientID with
  | none => false
  | some state =>
    match h.clusterRegistry with
    | none => builtinPolicy parseUUID state topic write
    | some evaluateACL =>
      let decision := evaluateACL clientID state.username topic (actionOf write)
      match decision.rule with
      | some _ => decision.allowed
      | none => builtinPolicy parseUUID state topic write

/-! ### Nesting of gateway prefixes -/

theorem isAllowedPublishStep_congr (info : DeviceInfo) {f g : Text → Bool} (topic : Text)
    (h : ∀ t : Text, t.length < topic.length → f t = g t) :
    isAllowedPublishStep parseUUID info f topic = isAllowedPublishStep parseUUID info g topic := by
  unfold isAllowedPublishStep
  split_ifs with hvia
  · split
    · rfl
    · rfl
    · rename_i c subID slash subTopic hspan
      have hlen : subTopic.length < topic.length := by
        have hsplit : topic.drop 4 = (c :: subID) ++ slash :: subTopic := by
          rw [← List.takeWhile_append_dropWhile (l := topic.drop 4)]
          rw [List.span_eq_takeWhile_dropWhile, Prod.mk.injEq] at hspan
          rw [hspan.1, hspan.2]
        have := congrArg List.length hsplit
        simp only [List.length_drop, List.length_append, List.length_cons] at this
        omega
      rw [h subTopic hlen]
  · rfl

theorem isAllowedPublishWithin_eq (info : DeviceInfo) {fuel fuel' : ℕ} {topic : Text}
    (h : topic.length < fuel) (h' : topic.length < fuel') :
    isAllowedPublishWithin parseUUID info fuel topic =
      isAllowedPublishWithin parseUUID info fuel' topic := by
  induction fuel generalizing fuel' topic with
  | zero => omega
  | succ fuel ih =>
    cases fuel' with
    | zero => omega
    | succ fuel' =>
      exact isAllowedPublishStep_congr parseUUID info topic
        fun _ ht => ih (by omega) (by omega)

theorem isAllowedPublish_eq (topic : Text) (info : DeviceInfo) :
    isAllowedPublish parseUUID topic info =
      isAllowedPublishStep parseUUID info (isAllowedPublish parseUUID · info) topic :=
  isAllowedPublishStep_congr parseUUID info topic fun _ ht =>
    isAllowedPublishWithin_eq parseUUID info ht (Nat.lt_succ_self _)

/-! ### The hook -/

variable {parseUUID}

theorem KeelHook.onACLCheck_of_rule_eq_none {h : KeelHook} {clientID topic : Text} {write : Bool}
    {state : ClientState} (hstate : h.clients.lookup clientID = some state)
    (hrule : ∀ evaluateACL, h.clusterRegistry = some evaluateACL →
      (evaluateACL clientID state.username topic (actionOf write)).rule = none) :
    h.onACLCheck parseUUID clientID topic write = builtinPolicy parseUUID state topic write := by
  unfold onACLCheck
  rw [hstate]
  cases hreg : h.clusterRegistry with
  | none => rfl
  | some evaluateACL => simp only [hrule evaluateACL hreg]

theorem KeelHook.onACLCheck_of_rule_ne_none {h : KeelHook} {clientID topic : Text} {write : Bool}
    {state : ClientState} (hstate : h.clients.lookup clientID = some state)
    {evaluateACL : EvaluateACL} (hreg : h.clusterRegistry = some evaluateACL)
    (hrule : (evaluateACL clientID state.username topic (actionOf write)).rule ≠ none) :
    h.onACLCheck parseUUID clientID topic write =
      (evaluateACL clientID state.username topic (actionOf write)).allowed := by
  unfold onACLCheck
  rw [hstate, hreg]
  obtain ⟨rule, hr⟩ := Option.ne_none_iff_exists'.1 hrule
  simp only [hr]

end Policy

end KeelGateway.Broker

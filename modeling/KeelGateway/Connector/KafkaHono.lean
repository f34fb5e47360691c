import KeelGateway.Broker.HonoTopics
import Mathlib.Data.List.TakeWhile

/-!
# Categories of the Kafka connector

The connector sorts the messages of devices into telemetry and events, by the first level of their
topic. It takes a gateway prefix off the topic before that. The policy of the broker accepts topics
with any number of such prefixes, and the connector takes off one. A message that has come through
two gateways has `via` for a first level then, and is rejected.

-/

namespace KeelGateway.Connector

open Broker

section Functions

-- Whether `uuid.Parse`, a function of an outside library, accepts a text.
variable (parseUUID : Text → Bool)

/-- `stripViaPrefix`. -/
def stripViaPrefix (topic : Text) : Text :=
  if !"via/".toList.isPrefixOf topic then topic
  else
    match (topic.drop 4).span (· != '/') with
    | (_, []) => topic
    | (subID, _ :: rest) => if !parseUUID subID then topic else rest

/-- `categoryFromTopic`. The empty text is no category. -/
def categoryFromTopic (topic : Text) : Text :=
  let first := ((stripViaPrefix parseUUID topic).span (· != '/')).1
  if first = "telemetry".toList || first = "t".toList then "telemetry".toList
  else if first = "event".toList || first = "e".toList then "event".toList
  else []

end Functions

/-- The name of the category of a topic under one of the names. -/
def honoName : HonoCategory → Text
  | .telemetry | .t => "telemetry".toList
  | .event | .e => "event".toList

@[simp] theorem honoName_telemetry : honoName .telemetry = "telemetry".toList := rfl

@[simp] theorem honoName_t : honoName .t = "telemetry".toList := rfl

@[simp] theorem honoName_event : honoName .event = "event".toList := rfl

@[simp] theorem honoName_e : honoName .e = "event".toList := rfl

/-- The topic is one of the names, or under it. -/
def InCategory (category : HonoCategory) (topic : Text) : Prop :=
  topic = category.text ∨ ∃ rest, topic = category.text ++ '/' :: rest

section Category

variable {parseUUID : Text → Bool} {subID topic inner : Text} {category : HonoCategory}

theorem stripViaPrefix_via (hslash : '/' ∉ subID) (hparse : parseUUID subID = true) :
    stripViaPrefix parseUUID ("via/".toList ++ (subID ++ '/' :: topic)) = topic := by
  have hdrop : ("via/".toList ++ (subID ++ '/' :: topic)).drop 4 = subID ++ '/' :: topic := rfl
  rw [stripViaPrefix, hdrop, span_ne hslash]
  simp [hparse]

theorem span_of_inCategory (h : InCategory category topic) :
    (topic.span (· != '/')).1 = category.text := by
  have hslash : '/' ∉ category.text := by cases category <;> simp
  rcases h with rfl | ⟨rest, rfl⟩
  · rw [List.span_eq_takeWhile_dropWhile]
    refine List.takeWhile_eq_self_iff.2 fun c hc => ?_
    simpa using fun heq : c = '/' => hslash (heq ▸ hc)
  · rw [span_ne hslash]

private theorem stripViaPrefix_of_inCategory (h : InCategory category topic) :
    stripViaPrefix parseUUID topic = topic := by
  have hprefix : "via/".toList.isPrefixOf topic = false := by
    rcases h with rfl | ⟨rest, rfl⟩
    · have hname := isPrefixOf_category category []
      rwa [List.append_nil] at hname
    · exact isPrefixOf_category category _
  rw [stripViaPrefix, hprefix]
  rfl

theorem categoryFromTopic_of_strip (hstrip : stripViaPrefix parseUUID topic = inner)
    (hinner : InCategory category inner) :
    categoryFromTopic parseUUID topic = honoName category := by
  rw [categoryFromTopic, hstrip, span_of_inCategory hinner]
  cases category <;> simp

theorem categoryFromTopic_of_strip_via {rest : Text}
    (hstrip : stripViaPrefix parseUUID topic = "via/".toList ++ rest) :
    categoryFromTopic parseUUID topic = [] := by
  rw [categoryFromTopic, hstrip]
  simp

private theorem honoName_ne_nil (category : HonoCategory) : honoName category ≠ [] := by
  cases category <;> simp

/-- The connector finds the category of a topic exactly if there is at most one gateway prefix. -/
theorem categoryFromTopic_iff (parseUUID : Text → Bool) {n : ℕ} {topic inner : Text}
    {category : HonoCategory} (hvia : Delegated parseUUID n topic inner)
    (hinner : InCategory category inner) :
    categoryFromTopic parseUUID topic = honoName category ↔ n ≤ 1 := by
  cases hvia with
  | direct =>
    refine iff_of_true ?_ (Nat.zero_le 1)
    exact categoryFromTopic_of_strip (stripViaPrefix_of_inCategory hinner) hinner
  | via _ hslash hparse h =>
    have hstrip (rest : Text) := @stripViaPrefix_via parseUUID _ rest hslash hparse
    cases h with
    | direct => exact iff_of_true (categoryFromTopic_of_strip (hstrip _) hinner) le_rfl
    | via _ _ _ _ =>
      refine iff_of_false (fun heq => ?_) (by omega)
      rw [categoryFromTopic_of_strip_via (hstrip _)] at heq
      exact honoName_ne_nil category heq.symm

/-- A parser of UUIDs that accepts the canonical forms. -/
def isUUID (t : Text) : Bool := (UUIDParser.hexadecimal.parse t).isSome

/-- The topic behind the prefix of a gateway. -/
def viaTopic (gateway : UUID) (topic : Text) : Text :=
  "via/".toList ++ (gateway.string ++ '/' :: topic)

private theorem delegated_viaTopic {n : ℕ} (gateway : UUID) (h : Delegated isUUID n topic inner) :
    Delegated isUUID (n + 1) (viaTopic gateway topic) inner := by
  have hne : gateway.string ≠ [] := by
    rw [← List.length_pos_iff, UUID.length_string]
    omega
  have hparse : isUUID gateway.string = true := by
    rw [isUUID, UUIDParser.hexadecimal.parse_spelling gateway _ (by simp [UUID.spellings]),
      Option.isSome_some]
  exact .via hne (gateway.notMem_string (by decide)) hparse h

/-- Behind one gateway the category is found. -/
theorem categoryFromTopic_oneGateway :
    categoryFromTopic isUUID (viaTopic (uniform 3) "telemetry".toList) = "telemetry".toList :=
  (categoryFromTopic_iff isUUID (delegated_viaTopic (uniform 3) (.direct _))
    (@Or.inl (_ = HonoCategory.telemetry.text) _ rfl)).2 le_rfl

/-- Behind two gateways the policy accepts a message of the device, and the connector has no
category for it. -/
theorem categoryFromTopic_twoGateways :
    isAllowedPublish isUUID
        (viaTopic (uniform 4) (viaTopic (uniform 3) "telemetry".toList)) device = true ∧
      categoryFromTopic isUUID
        (viaTopic (uniform 4) (viaTopic (uniform 3) "telemetry".toList)) = [] := by
  refine ⟨?_, ?_⟩
  · rw [isAllowedPublish_eq]
    rfl
  · exact categoryFromTopic_of_strip_via
      (stripViaPrefix_via ((uniform 4).notMem_string (by decide)) rfl)

end Category

end KeelGateway.Connector

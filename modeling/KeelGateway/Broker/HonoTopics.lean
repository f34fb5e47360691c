import KeelGateway.Auth.UUIDParser
import KeelGateway.Broker.AclCheck

/-!
# Hono addresses in device topics

A device publishes under `telemetry` or `event`, or the short names `t` and `e` of the two. The
levels after that may name a tenant and a device. A gateway puts `via/<uuid>/` in front, any number
of times. The built-in policy compares tenant and device with those of the publisher under the long
names, and only if the tenant is the publisher's own. Under the short names it compares nothing.

-/

namespace KeelGateway.Broker

/-! ### Gateway prefixes -/

/-- The first topic is the second one behind a number of prefixes `via/<uuid>/`. -/
inductive Delegated (parseUUID : Text → Bool) : ℕ → Text → Text → Prop
  | direct (topic : Text) : Delegated parseUUID 0 topic topic
  | via {n : ℕ} {subID topic inner : Text} (hne : subID ≠ []) (hslash : '/' ∉ subID)
      (hparse : parseUUID subID = true) (h : Delegated parseUUID n topic inner) :
      Delegated parseUUID (n + 1) ("via/".toList ++ (subID ++ '/' :: topic)) inner

section Delegated

variable {parseUUID : Text → Bool} {info : DeviceInfo} {n : ℕ} {topic inner subID : Text}

private theorem isAllowedPublish_via (hne : subID ≠ []) (hslash : '/' ∉ subID)
    (hparse : parseUUID subID = true) :
    isAllowedPublish parseUUID ("via/".toList ++ (subID ++ '/' :: topic)) info =
      isAllowedPublish parseUUID topic info := by
  have hprefix : "via/".toList.isPrefixOf ("via/".toList ++ (subID ++ '/' :: topic)) = true :=
    List.isPrefixOf_iff_prefix.2 (List.prefix_append _ _)
  have hdrop : ("via/".toList ++ (subID ++ '/' :: topic)).drop 4 = subID ++ '/' :: topic := rfl
  obtain ⟨c, subID, rfl⟩ := List.exists_cons_of_ne_nil hne
  rw [isAllowedPublish_eq, isAllowedPublishStep, if_pos hprefix, hdrop, span_ne hslash]
  dsimp only
  rw [if_pos hparse]

/-- Gateway prefixes do not change the decision. -/
theorem isAllowedPublish_of_delegated (h : Delegated parseUUID n topic inner) :
    isAllowedPublish parseUUID topic info = isAllowedPublish parseUUID inner info := by
  induction h with
  | direct topic => rfl
  | via hne hslash hparse _ ih => rw [isAllowedPublish_via hne hslash hparse, ih]

end Delegated

/-! ### Addresses -/

/-- The names under which a device publishes. -/
inductive HonoCategory where
  | telemetry
  | event
  | t
  | e
  deriving DecidableEq

/-- The name as the first level of a topic. -/
def HonoCategory.text : HonoCategory → Text
  | telemetry => "telemetry".toList
  | event => "event".toList
  | t => "t".toList
  | e => "e".toList

@[simp] theorem HonoCategory.text_telemetry : telemetry.text = "telemetry".toList := rfl

@[simp] theorem HonoCategory.text_event : event.text = "event".toList := rfl

@[simp] theorem HonoCategory.text_t : t.text = "t".toList := rfl

@[simp] theorem HonoCategory.text_e : e.text = "e".toList := rfl

/-- The short names. -/
def HonoCategory.IsShort (category : HonoCategory) : Prop := category = .t ∨ category = .e

/-- The topic names the category, a tenant and a device, and more levels or none. -/
def HonoAddress (category : HonoCategory) (tenantID deviceID : UUID) (topic : Text) : Prop :=
  ∃ suffix, topic = category.text ++ '/' :: (tenantID.string ++
    '/' :: (deviceID.string ++ suffix)) ∧
    (suffix = [] ∨ ∃ rest, suffix = '/' :: rest)

section Address

variable {parseUUID : Text → Bool} {info : DeviceInfo} {tenantID deviceID : UUID} {topic : Text}

theorem isPrefixOf_category (category : HonoCategory) (rest : Text) :
    "via/".toList.isPrefixOf (category.text ++ rest) = false := by
  cases category <;> simp [List.isPrefixOf]

theorem isAllowedPublish_eq_direct (category : HonoCategory) (rest : Text) :
    isAllowedPublish parseUUID (category.text ++ '/' :: rest) info =
      isAllowedPublishDirect (category.text ++ '/' :: rest) info := by
  rw [isAllowedPublish_eq, isAllowedPublishStep, isPrefixOf_category, if_neg Bool.false_ne_true]

theorem isAllowedPublish_of_isShort {category : HonoCategory} (hshort : category.IsShort)
    {rest : Text} (hrest : rest ≠ []) :
    isAllowedPublish parseUUID (category.text ++ '/' :: rest) info = true := by
  obtain ⟨c, rest, rfl⟩ := List.exists_cons_of_ne_nil hrest
  rw [isAllowedPublish_eq_direct]
  rcases hshort with rfl | rfl <;> simp [isAllowedPublishDirect]

theorem isAllowedPublish_of_not_isShort {category : HonoCategory} (hlong : ¬ category.IsShort)
    {rest : Text} (hrest : rest ≠ []) :
    isAllowedPublish parseUUID (category.text ++ '/' :: rest) info =
      (isHonoTopicOwned (category.text ++ '/' :: rest) (category.text ++ ['/']) info ||
        !isHonoTopicShape (category.text ++ '/' :: rest) (category.text ++ ['/']) info) := by
  obtain ⟨c, rest, rfl⟩ := List.exists_cons_of_ne_nil hrest
  rw [isAllowedPublish_eq_direct]
  cases category with
  | telemetry | event => simp [isAllowedPublishDirect]
  | t => exact absurd (Or.inl rfl) hlong
  | e => exact absurd (Or.inr rfl) hlong

theorem drop_category (category : HonoCategory) (rest : Text) :
    (category.text ++ '/' :: rest).drop (category.text ++ ['/']).length = rest := by
  have heq : category.text ++ '/' :: rest = category.text ++ ['/'] ++ rest := List.append_cons _ _ _
  rw [heq]
  exact List.drop_left

/-- The own tenant is recognised. -/
theorem isHonoTopicShape_own (category : HonoCategory) (rest : Text) :
    isHonoTopicShape (category.text ++ '/' :: (info.tenantID.string ++ '/' :: rest))
      (category.text ++ ['/']) info = true := by
  rw [isHonoTopicShape, drop_category, List.isPrefixOf_iff_prefix]
  exact ⟨rest, (List.append_cons _ _ _).symm⟩

theorem isHonoTopicOwned_iff (category : HonoCategory) {suffix : Text}
    (hsuffix : suffix = [] ∨ ∃ rest, suffix = '/' :: rest) :
    isHonoTopicOwned (category.text ++ '/' :: (info.tenantID.string ++ '/' ::
      (deviceID.string ++ suffix))) (category.text ++ ['/']) info = true ↔ deviceID = info.id := by
  have hlength : deviceID.string.length = info.id.string.length := by
    rw [UUID.length_string, UUID.length_string]
  rw [isHonoTopicOwned, drop_category, Bool.or_eq_true, decide_eq_true_iff,
    List.isPrefixOf_iff_prefix]
  constructor
  · rintro (heq | ⟨rest, heq⟩)
    · have hid := List.append_cancel_left heq
      rw [List.cons.injEq] at hid
      have hid' : deviceID.string ++ suffix = info.id.string ++ [] := by
        rw [List.append_nil]
        exact hid.2
      exact UUID.string_injective (List.append_inj_left hid' hlength)
    · rw [List.append_assoc, List.append_assoc] at heq
      have hid := (List.cons.inj (List.append_cancel_left heq)).2
      exact UUID.string_injective (List.append_inj_left hid.symm hlength)
  · rintro rfl
    rcases hsuffix with rfl | ⟨rest, rfl⟩
    · exact Or.inl (by rw [List.append_nil])
    · exact Or.inr ⟨rest, by simp⟩

/-- What the policy asks of an address, behind any number of gateway prefixes. Under a short name it
asks nothing. Under a long name, with the tenant of the publisher, it asks for the publisher's own
device. -/
theorem isAllowedPublish_honoAddress (parseUUID : Text → Bool) (info : DeviceInfo) {n : ℕ}
    {topic inner : Text} {category : HonoCategory} {tenantID deviceID : UUID}
    (hvia : Delegated parseUUID n topic inner)
    (haddress : HonoAddress category tenantID deviceID inner) :
    (category.IsShort → isAllowedPublish parseUUID topic info = true) ∧
      (¬ category.IsShort → tenantID = info.tenantID →
        (isAllowedPublish parseUUID topic info = true ↔ deviceID = info.id)) := by
  obtain ⟨suffix, rfl, hsuffix⟩ := haddress
  have hrest : tenantID.string ++ '/' :: (deviceID.string ++ suffix) ≠ [] := by simp
  rw [isAllowedPublish_of_delegated hvia]
  refine ⟨fun hshort => isAllowedPublish_of_isShort hshort hrest, fun hlong htenant => ?_⟩
  subst htenant
  rw [isAllowedPublish_of_not_isShort hlong hrest, isHonoTopicShape_own, Bool.not_true,
    Bool.or_false]
  exact isHonoTopicOwned_iff category hsuffix

/-- A UUID of equal bytes. -/
def uniform (b : UInt8) : UUID := ⟨[b, b, b, b, b, b, b, b, b, b, b, b, b, b, b, b], rfl⟩

/-- A device and its tenant. -/
def device : DeviceInfo := ⟨uniform 1, uniform 2⟩

/-- The topic of an address without further levels. -/
def addressTopic (category : HonoCategory) (tenantID deviceID : UUID) : Text :=
  category.text ++ '/' :: (tenantID.string ++ '/' :: deviceID.string)

theorem honoAddress_addressTopic (category : HonoCategory) (tenantID deviceID : UUID) :
    HonoAddress category tenantID deviceID (addressTopic category tenantID deviceID) :=
  ⟨[], by rw [List.append_nil]; rfl, Or.inl rfl⟩

/-- Under its own tenant the device may publish for itself, and not for another device. -/
theorem isAllowedPublish_ownDevice :
    isAllowedPublish (fun _ => false) (addressTopic .telemetry (uniform 2) (uniform 1)) device =
        true ∧
      isAllowedPublish (fun _ => false) (addressTopic .telemetry (uniform 2) (uniform 3)) device ≠
        true := by
  have hlong : ¬ HonoCategory.telemetry.IsShort := by
    rintro (h | h) <;> cases h
  have hpolicy (deviceID : UUID) := (isAllowedPublish_honoAddress (fun _ => false) device
    (.direct _)
    (honoAddress_addressTopic .telemetry (uniform 2) deviceID)).2 hlong rfl
  exact ⟨(hpolicy (uniform 1)).2 rfl, fun h => absurd ((hpolicy (uniform 3)).1 h) (by decide)⟩

/-- Under a short name it may publish for a device of another tenant. -/
theorem isAllowedPublish_foreignAlias :
    HonoAddress .t (uniform 4) (uniform 3) (addressTopic .t (uniform 4) (uniform 3)) ∧
      isAllowedPublish (fun _ => false) (addressTopic .t (uniform 4) (uniform 3)) device = true ∧
      uniform 4 ≠ device.tenantID ∧ uniform 3 ≠ device.id := by
  refine ⟨honoAddress_addressTopic _ _ _, ?_, by decide, by decide⟩
  exact isAllowedPublish_of_isShort (Or.inl rfl) (by simp)

end Address

end KeelGateway.Broker

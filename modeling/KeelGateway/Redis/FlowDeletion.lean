import KeelGateway.Redis.LegacyFields

/-!
# Deleting a flow from a mixed hash

When a flow ends, `deleteInflight` removes two fields under schema 2: the directional field that the
packet of the hook call stands for, and the numeric field of its packet ID. The numeric field goes
whatever message is in it, and the packet does not always say which direction has ended.

-/

namespace KeelGateway.Redis

open Mochi

/-- The hook calls with which the broker reports the end of a flow, and the flow. -/
inductive EndsFlow : HookCall → Field → Prop
  /-- `processPuback` and `processPubcomp`. -/
  | delivered (pk : Packet) (htype : pk.type = .puback ∨ pk.type = .pubcomp) :
      EndsFlow ⟨pk, false⟩ (.outbound pk.packetID)
  /-- `processPubrel`, whether the PUBREL refuses the flow or not. -/
  | received (pk : Packet) (dropped : Bool) (htype : pk.type = .pubrel) :
      EndsFlow ⟨pk, dropped⟩ (.inbound pk.packetID)
  /-- `ResendInflightMessages`: an acknowledgement that had not been sent ends the client's flow. -/
  | resent (pk : Packet) (htype : pk.type = .puback ∨ pk.type = .pubcomp) :
      EndsFlow ⟨pk, false⟩ (.inbound pk.packetID)
  /-- `processPubrec` with an error, `ClearInflights`, `ClearExpiredInflights`, and deliveries that
  are taken back: the hook gets the packet of the flow. -/
  | dropped (pk : Packet) : EndsFlow ⟨pk, true⟩ (inflightFieldKey pk)
  /-- The second call of `clearExpiredInflights`, which knows the packet ID alone. -/
  | expired (f : Field) (hf : f.isDirectional = true) :
      EndsFlow ⟨{ type := .reserved, packetID := f.id }, true⟩ f

theorem EndsFlow.flow {call : HookCall} {f : Field} (h : EndsFlow call f) :
    f.isDirectional = true ∧ f.id = call.pk.packetID := by
  cases h with
  | delivered pk htype => exact ⟨rfl, rfl⟩
  | received pk dropped htype => exact ⟨rfl, rfl⟩
  | resent pk htype => exact ⟨rfl, rfl⟩
  | dropped pk => exact ⟨isDirectional_inflightFieldKey pk, id_inflightFieldKey pk⟩
  | expired f hf => exact ⟨hf, rfl⟩

/-- The directional field that a hook call deletes. -/
def deletedField (call : HookCall) : Field :=
  if call.dropped then inflightDroppedFieldKey call.pk else inflightCompletionFieldKey call.pk

theorem deletedField_flow (call : HookCall) :
    (deletedField call).isDirectional = true ∧ (deletedField call).id = call.pk.packetID := by
  unfold deletedField inflightDroppedFieldKey inflightCompletionFieldKey
  split_ifs <;> exact ⟨rfl, rfl⟩

/-! ### The attempts -/

section Attempts

variable (configured : Option Schema) (marker : Marker) (hash : InflightHash) (call : HookCall)

/-- The loop of `deleteInflight`: a rejected script has deleted nothing, and in auto mode the schema
is read again for the next attempt. -/
def deleteAttempts : ℕ → Schema → Option InflightHash
  | 0, _ => none
  | n + 1, schema =>
    if marker.fence? = some schema then some (hdel hash (deleteFields schema call.pk call.dropped))
    else if configured.isSome then none
    else
      match marker.schema? with
      | none => none
      | some schema => deleteAttempts n schema

/-- `deleteInflight`, for a hook that believes in a schema: the hash afterwards, or an error. -/
def deleteInflight (cached : Schema) : Option InflightHash :=
  deleteAttempts configured marker hash call 2 cached

end Attempts

theorem deleteInflight_eq_some {configured : Option Schema} {hash hash' : InflightHash}
    {call : HookCall} {cached : Schema}
    (h : deleteInflight configured (.valid .v2) hash call cached = some hash') :
    hash' = hdel hash (deleteFields .v2 call.pk call.dropped) := by
  have hattempts (n : ℕ) (schema : Schema)
      (h : deleteAttempts configured (.valid .v2) hash call n schema = some hash') :
      hash' = hdel hash (deleteFields .v2 call.pk call.dropped) := by
    induction n generalizing schema with
    | zero => cases h
    | succ n ih =>
      unfold deleteAttempts at h
      simp only [Marker.schema?, Marker.fence?, Option.some.injEq] at h
      split_ifs at h with hschema
      · cases h
        rw [hschema]
      · exact ih .v2 h
  exact hattempts 2 cached h

theorem deleteInflight_auto (hash : InflightHash) (call : HookCall) (cached : Schema) :
    deleteInflight none (.valid .v2) hash call cached =
      some (hdel hash (deleteFields .v2 call.pk call.dropped)) := by
  cases cached <;> rfl

/-! ### What is left -/

/-- What a node reads back afterwards is what it would have read before, without the flow. -/
def DeletesOnly (hash hash' : InflightHash) (f : Field) : Prop :=
  ∃ ms ms', (storedInflightForClient .v2 hash).2 = some ms ∧
    (storedInflightForClient .v2 hash').2 = some ms' ∧
    ∀ m, m ∈ ms' ↔ m ∈ ms ∧ inflightFieldKey m.toPacket ≠ f

/-- The same in terms of flows. -/
theorem deletesOnly_iff_yields {hash hash' : InflightHash} (h : OwnID hash) (h' : OwnID hash')
    {f : Field} : DeletesOnly hash hash' f ↔
      ∀ g, g.isDirectional = true → yields hash' g = if g = f then none else yields hash g := by
  obtain ⟨ms, hread, -, hmem⟩ := mem_storedInflightForClient h
  obtain ⟨ms', hread', -, hmem'⟩ := mem_storedInflightForClient h'
  constructor
  · rintro ⟨ns, ns', hns, hns', hiff⟩ g hg
    obtain rfl : ns = ms := Option.some.inj (hns.symm.trans hread)
    obtain rfl : ns' = ms' := Option.some.inj (hns'.symm.trans hread')
    refine Option.ext fun m => ?_
    constructor
    · intro hm
      have hkey := h'.key_of_yields hg hm
      obtain ⟨hmem₀, hne⟩ := (hiff m).1 ((hmem' m).2 ⟨g, hg, hm⟩)
      obtain ⟨g₀, hg₀, hm₀⟩ := (hmem m).1 hmem₀
      obtain rfl : g₀ = g := (h.key_of_yields hg₀ hm₀).symm.trans hkey
      rw [if_neg (hkey ▸ hne)]
      exact hm₀
    · intro hm
      split_ifs at hm with hgf
      have hkey := h.key_of_yields hg hm
      obtain ⟨g₀, hg₀, hm₀⟩ := (hmem' m).1
        ((hiff m).2 ⟨(hmem m).2 ⟨g, hg, hm⟩, hkey ▸ hgf⟩)
      obtain rfl : g₀ = g := (h'.key_of_yields hg₀ hm₀).symm.trans hkey
      exact hm₀
  · intro hall
    refine ⟨ms, ms', hread, hread', fun m => ?_⟩
    rw [hmem', hmem]
    constructor
    · rintro ⟨g, hg, hm⟩
      have hkey := h'.key_of_yields hg hm
      rw [hall g hg] at hm
      split_ifs at hm with hgf
      exact ⟨⟨g, hg, hm⟩, hkey ▸ hgf⟩
    · rintro ⟨⟨g, hg, hm⟩, hne⟩
      refine ⟨g, hg, ?_⟩
      rw [hall g hg, if_neg (h.key_of_yields hg hm ▸ hne)]
      exact hm

theorem yields_hdel (hash : InflightHash) (call : HookCall) {g : Field}
    (hg : g.isDirectional = true) :
    yields (hdel hash (deleteFields .v2 call.pk call.dropped)) g =
      if g = deletedField call then none
      else if g.id = call.pk.packetID then hash.lookup g
      else yields hash g := by
  have hmem (k : Field) : k ∈ deleteFields .v2 call.pk call.dropped ↔
      k = deletedField call ∨ k = .numeric call.pk.packetID := by
    simp [deleteFields, deletedField]
  have hnumeric : g ≠ .numeric call.pk.packetID := Field.ne_numeric hg _
  have hfield (k : ℕ) : Field.numeric k ≠ deletedField call :=
    (Field.ne_numeric (deletedField_flow call).1 k).symm
  unfold yields
  simp only [lookup_hdel, hmem, hnumeric, hfield, Field.numeric.injEq, or_false, false_or]
  by_cases hgd : g = deletedField call
  · rw [hgd]
    simp [(deletedField_flow call).2]
  · simp only [hgd]
    by_cases hid : g.id = call.pk.packetID
    · simp only [hid]
      cases hash.lookup g <;> rfl
    · simp only [hid, if_false]

/-- A packet ID has two flows. -/
theorem eq_or_eq_of_id_eq {f d g : Field} (hf : f.isDirectional = true)
    (hd : d.isDirectional = true)
    (hg : g.isDirectional = true) (hfd : d ≠ f) (hdid : d.id = f.id) (hgid : g.id = f.id) :
    g = f ∨ g = d := by
  cases f <;> cases d <;> cases g <;> simp_all [Field.isDirectional, Field.id]

/-- A deletion removes the ended flow and nothing else exactly in these cases: the call names the
direction of the flow, and a numeric field with a message of the other direction is not the only
record of it; or the call names the other direction, which has no record, and the ended flow has at
most the numeric field. -/
theorem deletesOnly_iff {hash hash' : InflightHash} (hown : OwnID hash) {call : HookCall}
    {f : Field}
    (hends : EndsFlow call f) {configured : Option Schema} {cached : Schema}
    (hdone : deleteInflight configured (.valid .v2) hash call cached = some hash') :
    DeletesOnly hash hash' f ↔
      if deletedField call = f then
        ∀ m, hash.lookup (.numeric f.id) = some m → inflightFieldKey m.toPacket ≠ f →
          inflightFieldKey m.toPacket ∈ hash
      else f ∉ hash ∧ yields hash (deletedField call) = none := by
  obtain ⟨hf, hid⟩ := hends.flow
  obtain ⟨hd, hdid⟩ := deletedField_flow call
  rw [deleteInflight_eq_some hdone, deletesOnly_iff_yields hown (hown.hdel _)]
  split_ifs with heq
  · subst heq
    constructor
    · intro hall m hm hne
      -- the numeric message belongs to the other direction, which would lose it
      have hkey : (inflightFieldKey m.toPacket).id = (deletedField call).id :=
        (id_inflightFieldKey _).trans (hown _ m hm).1
      have hflow := hall _ (isDirectional_inflightFieldKey m.toPacket)
      rw [yields_hdel hash call (isDirectional_inflightFieldKey m.toPacket), if_neg hne,
        if_pos (hkey.trans hid), if_neg hne] at hflow
      by_contra hno
      have hlookup := AList.lookup_eq_none.2 hno
      have hyields := yields_eq_some.2 (Or.inr ⟨hlookup, hkey ▸ hm, rfl⟩)
      rw [hlookup, hyields] at hflow
      cases hflow
    · intro hnumeric g hg
      rw [yields_hdel hash call hg]
      by_cases hgd : g = deletedField call
      · rw [if_pos hgd, if_pos hgd]
      · rw [if_neg hgd]
        split_ifs with hgid
        · cases hyields : yields hash g with
          | none =>
            cases hlookup : hash.lookup g with
            | none => rfl
            | some n => rw [yields_eq_some.2 (Or.inl hlookup)] at hyields; cases hyields
          | some n =>
            rcases yields_eq_some.1 hyields with hlookup | ⟨hlookup, hn, rfl⟩
            · exact hlookup
            · rw [hgid, ← hid] at hn
              exact absurd (hnumeric n hn hgd) (AList.lookup_eq_none.1 hlookup)
        · rfl
  · constructor
    · intro hall
      constructor
      · have hflow := hall f hf
        rw [yields_hdel hash call hf, if_neg (Ne.symm heq), if_pos hid, if_pos rfl] at hflow
        exact AList.lookup_eq_none.1 hflow
      · have hflow := hall (deletedField call) hd
        rw [yields_hdel hash call hd, if_pos rfl, if_neg heq] at hflow
        exact hflow.symm
    · rintro ⟨hno, hnone⟩ g hg
      rw [yields_hdel hash call hg]
      by_cases hgid : g.id = call.pk.packetID
      · rcases eq_or_eq_of_id_eq hf hd hg heq (hdid.trans hid.symm) (hgid.trans hid.symm) with
          rfl | rfl
        · rw [if_neg (Ne.symm heq), if_pos hgid, if_pos rfl]
          exact AList.lookup_eq_none.2 hno
        · rw [if_pos rfl, if_neg heq, hnone]
      · have hgf : g ≠ f := by
          rintro rfl
          exact hgid hid
        have hgd : g ≠ deletedField call := by
          rintro rfl
          exact hgid hdid
        rw [if_neg hgd, if_neg hgid, if_neg hgf]

/-- The client's flow 5 in numeric form, next to the delivery with the same packet ID. -/
def pubrecHash : InflightHash :=
  (AList.singleton (.numeric 5) (MigrationState.directed 5 .pubrec [])).insert (.outbound 5)
    (MigrationState.directed 5 .publish ['t'])

/-- The PUBACK of delivery 5 takes the client's flow 5 along with it. A delivery that waits for its
PUBCOMP and is dropped takes the client's flow along too, and stays itself. -/
theorem not_deletesOnly_pubrec :
    (OwnID pubrecHash ∧ EndsFlow ⟨{ type := .puback, packetID := 5 }, false⟩ (.outbound 5) ∧
      ∃ hash', deleteInflight none (.valid .v2) pubrecHash
        ⟨{ type := .puback, packetID := 5 }, false⟩
          .v2 = some hash' ∧ hash' = ∅ ∧ ¬ DeletesOnly pubrecHash hash' (.outbound 5)) ∧
    EndsFlow ⟨{ type := .pubrel, packetID := 5 }, true⟩ (.outbound 5) ∧
      ∃ hash', deleteInflight none (.valid .v2) pubrecHash
        ⟨{ type := .pubrel, packetID := 5 }, true⟩
          .v2 = some hash' ∧ .outbound 5 ∈ hash' ∧
            ¬ DeletesOnly pubrecHash hash' (.outbound 5) := by
  have hown : OwnID pubrecHash := by decide +kernel
  refine ⟨⟨hown, .delivered _ (Or.inl rfl), ∅, rfl, rfl, fun honly => ?_⟩,
    .dropped { type := .pubrel, packetID := 5 },
    AList.singleton (.outbound 5) (MigrationState.directed 5 .publish ['t']), rfl,
    by decide +kernel, fun honly => ?_⟩
  · have hflow := (deletesOnly_iff_yields hown (by decide +kernel)).1 honly (.inbound 5) rfl
    exact absurd hflow (by decide +kernel)
  · have hflow := (deletesOnly_iff_yields hown (by decide +kernel)).1 honly (.inbound 5) rfl
    exact absurd hflow (by decide +kernel)

/-- Delivery 5 in numeric form, and the client's flow 5 in its own field. -/
def publishHash : InflightHash :=
  (AList.singleton (.numeric 5) (MigrationState.directed 5 .publish ['t'])).insert (.inbound 5)
    (MigrationState.directed 5 .pubrec [])

/-- The PUBACK ends the delivery and nothing else. -/
theorem deletesOnly_puback :
    DeletesOnly publishHash (AList.singleton (.inbound 5) (MigrationState.directed 5 .pubrec []))
      (.outbound 5) := by
  have hdone : deleteInflight none (.valid .v2) publishHash
      ⟨{ type := .puback, packetID := 5 }, false⟩ .legacy =
        some (AList.singleton (.inbound 5) (MigrationState.directed 5 .pubrec [])) := rfl
  refine (deletesOnly_iff (by decide +kernel) (.delivered _ (Or.inl rfl)) hdone).2 ?_
  intro m hm hne
  obtain rfl : MigrationState.directed 5 .publish ['t'] = m := Option.some.inj hm
  exact absurd rfl hne

end KeelGateway.Redis

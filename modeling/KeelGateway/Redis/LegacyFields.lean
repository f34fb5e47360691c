import KeelGateway.Lib.StepMachine
import KeelGateway.Redis.StoredSession

/-!
# Legacy fields of an in-flight hash

After the switch to schema 2 a hash can hold numeric fields that nobody has migrated yet. A numeric
field says nothing about the direction of its flow; only the message in it does. A node migrates the
numeric fields of a client when it reads the hash: it takes a snapshot of the rows and then runs one
script for every numeric field in it. Several nodes may do so at once, in any order, and any of them
may stop half way.

What such a hash means is the function `yields`: the message of a flow is the one in the directional
field, and without one the message of that direction in the numeric field.

-/

namespace KeelGateway.Redis

open StepMachine

/-! ### Flows of a mixed hash -/

/-- The message of a flow: a directional field wins over a numeric one. -/
def yields (hash : InflightHash) (f : Field) : Option Message :=
  match hash.lookup f with
  | some m => some m
  | none => (hash.lookup (.numeric f.id)).filter fun m => inflightFieldKey m.toPacket = f

/-- Every message is stored under its own packet ID, and in a directional field also under its own
direction. -/
def OwnID (hash : InflightHash) : Prop :=
  ∀ f m, hash.lookup f = some m →
    m.packetID = f.id ∧ (f.isDirectional = true → inflightFieldKey m.toPacket = f)

instance (hash : InflightHash) : Decidable (OwnID hash) :=
  GoMap.decidableForallLookup hash fun f m =>
    m.packetID = f.id ∧ (f.isDirectional = true → inflightFieldKey m.toPacket = f)

theorem yields_eq_some {hash : InflightHash} {f : Field} {m : Message} :
    yields hash f = some m ↔ hash.lookup f = some m ∨
      (hash.lookup f = none ∧ hash.lookup (.numeric f.id) = some m ∧
        inflightFieldKey m.toPacket = f) := by
  unfold yields
  cases hash.lookup f with
  | some n => simp
  | none => simp [Option.filter_eq_some_iff]

section OwnID

variable {hash : InflightHash}

theorem OwnID.key_of_yields (h : OwnID hash) {f : Field} (hf : f.isDirectional = true) {m : Message}
    (hm : yields hash f = some m) : inflightFieldKey m.toPacket = f := by
  rcases yields_eq_some.1 hm with hm | ⟨-, -, hkey⟩
  · exact (h f m hm).2 hf
  · exact hkey

theorem OwnID.insert (h : OwnID hash) (schema : Schema) (m : Message) :
    OwnID (hash.insert (writeField schema m.toPacket) m) := by
  intro f n hn
  rw [GoMap.lookup_insert] at hn
  split_ifs at hn with hf
  · cases hn
    subst hf
    refine ⟨(id_writeField schema m.toPacket).symm, fun hdir => ?_⟩
    cases schema with
    | legacy => cases hdir
    | v2 => rfl
  · exact h f n hn

theorem OwnID.hdel (h : OwnID hash) (fields : List Field) : OwnID (hdel hash fields) := by
  intro f n hn
  rw [lookup_hdel] at hn
  split_ifs at hn
  exact h f n hn

end OwnID

/-! ### One script -/

section Script

variable {hash : InflightHash} {id : ℕ} {m : Message}

theorem lookup_migrateLegacyInflightField (hm : hash.lookup (.numeric id) = some m) (g : Field) :
    (migrateLegacyInflightField hash id (inflightFieldKey m.toPacket)).lookup g =
      if g = .numeric id then none
      else if g = inflightFieldKey m.toPacket ∧ g ∉ hash then some m
      else hash.lookup g := by
  unfold migrateLegacyInflightField
  rw [hm]
  rw [GoMap.lookup_erase]
  by_cases hnumeric : g = .numeric id
  · rw [if_pos hnumeric, if_pos hnumeric]
  · rw [if_neg hnumeric, if_neg hnumeric]
    by_cases hmem : inflightFieldKey m.toPacket ∈ hash
    · rw [if_pos hmem, if_neg]
      rintro ⟨rfl, hno⟩
      exact hno hmem
    · rw [if_neg hmem, GoMap.lookup_insert]
      by_cases hg : g = inflightFieldKey m.toPacket
      · simp [hg, hmem]
      · simp [hg]

/-- The script changes no flow. -/
theorem yields_migrateLegacyInflightField (h : OwnID hash)
    (hm : hash.lookup (.numeric id) = some m) {f : Field} (hf : f.isDirectional = true) :
    yields (migrateLegacyInflightField hash id (inflightFieldKey m.toPacket)) f =
      yields hash f := by
  have hkey : (inflightFieldKey m.toPacket).id = id :=
    (id_inflightFieldKey _).trans (h _ m hm).1
  unfold yields
  rw [lookup_migrateLegacyInflightField hm, if_neg (Field.ne_numeric hf id)]
  by_cases hmem : f ∈ hash
  · obtain ⟨n, hn⟩ := GoMap.mem_iff_exists_lookup.1 hmem
    simp [hmem, hn]
  · rw [AList.lookup_eq_none.2 hmem]
    by_cases hfk : f = inflightFieldKey m.toPacket
    · -- the message moves from the numeric field to its own
      rw [if_pos ⟨hfk, hmem⟩, hfk, hkey, hm]
      simp [Option.filter_some]
    · rw [if_neg fun hboth => hfk hboth.1, lookup_migrateLegacyInflightField hm]
      by_cases hid : f.id = id
      · rw [hid, hm]
        simp [Option.filter_some, Ne.symm hfk]
      · have hne : Field.numeric f.id ≠ .numeric id := fun heq => hid (Field.numeric.inj heq)
        have hdir : inflightFieldKey m.toPacket ≠ .numeric f.id :=
          Field.ne_numeric (isDirectional_inflightFieldKey m.toPacket) f.id
        rw [if_neg hne, if_neg fun hboth => hdir hboth.1.symm]

theorem OwnID.migrateLegacyInflightField (h : OwnID hash)
    (hm : hash.lookup (.numeric id) = some m) :
    OwnID (migrateLegacyInflightField hash id (inflightFieldKey m.toPacket)) := by
  intro g n hn
  rw [lookup_migrateLegacyInflightField hm] at hn
  split_ifs at hn with hnumeric hboth
  · cases hn
    rw [hboth.1]
    exact ⟨(id_inflightFieldKey m.toPacket).symm, fun _ => rfl⟩
  · exact h g n hn

end Script

/-! ### Migrations in parallel -/

/-- A call of `migrateLegacyInflightFields` on some node. -/
structure Migration where
  hint : Schema
  /-- The numeric fields of the snapshot that are still to be migrated, with their targets. -/
  rows : List (ℕ × Field)
  deriving DecidableEq

/-- The hash of the client and the migrations that work on it. -/
structure MigrationState where
  hash : InflightHash
  runs : List Migration := []

/-- What a migration does next. -/
inductive MigrationEvent where
  /-- A node takes the snapshot. Under schema 1 it returns at once. -/
  | start (hint : Schema)
  /-- A migration runs the script for one of its rows. Go leaves the order of the rows open. -/
  | script (i k : ℕ)

/-- The numeric fields of a snapshot with the directional fields of their messages. -/
def legacyRows (hash : InflightHash) : List (ℕ × Field) :=
  hash.entries.filterMap fun row =>
    match row.1 with
    | .numeric id => some (id, inflightFieldKey row.2.toPacket)
    | _ => none

theorem mem_legacyRows {hash : InflightHash} {id : ℕ} {target : Field} :
    (id, target) ∈ legacyRows hash ↔
      ∃ m, hash.lookup (.numeric id) = some m ∧ inflightFieldKey m.toPacket = target := by
  rw [legacyRows, List.mem_filterMap]
  constructor
  · rintro ⟨⟨f, m⟩, hrow, hf⟩
    cases f with
    | numeric k =>
      cases hf
      exact ⟨m, GoMap.mem_entries.1 hrow, rfl⟩
    | inbound k => cases hf
    | outbound k => cases hf
  · rintro ⟨m, hm, rfl⟩
    exact ⟨⟨.numeric id, m⟩, GoMap.mem_entries.2 hm, rfl⟩

namespace MigrationState

/-- One step of anybody. -/
def step (s : MigrationState) : MigrationEvent → MigrationState
  | .start hint =>
    { s with
      runs := s.runs ++ [⟨hint, match hint with
        | .legacy => []
        | .v2 => legacyRows s.hash⟩] }
  | .script i k =>
    match s.runs[i]? with
    | none => s
    | some r =>
      match r.rows[k]? with
      | none => s
      | some (id, target) =>
        { hash := migrateLegacyInflightField s.hash id target
          runs := s.runs.set i { r with rows := r.rows.eraseIdx k } }

/-- What the migrations of a hash keep. -/
structure Inv (start : InflightHash) (s : MigrationState) : Prop where
  own : OwnID s.hash
  yields : ∀ f, f.isDirectional = true → yields s.hash f = yields start f
  pending : ∀ r ∈ s.runs, r.hint = .v2 → ∀ id, .numeric id ∈ s.hash →
    ∃ target, (id, target) ∈ r.rows
  target : ∀ r ∈ s.runs, ∀ row ∈ r.rows, ∀ m, s.hash.lookup (.numeric row.1) = some m →
    row.2 = inflightFieldKey m.toPacket

variable {s : MigrationState} {start : InflightHash}

theorem inv_start (h : s.Inv start) (hint : Schema) : (s.step (.start hint)).Inv start where
  own := h.own
  yields := h.yields
  pending r hr hv2 id hid := by
    rcases List.mem_append.1 hr with hr | hr
    · exact h.pending r hr hv2 id hid
    · obtain rfl := List.mem_singleton.1 hr
      obtain rfl : hint = .v2 := hv2
      obtain ⟨m, hm⟩ := GoMap.mem_iff_exists_lookup.1 hid
      exact ⟨_, mem_legacyRows.2 ⟨m, hm, rfl⟩⟩
  target r hr row hrow m hm := by
    rcases List.mem_append.1 hr with hr | hr
    · exact h.target r hr row hrow m hm
    · obtain rfl := List.mem_singleton.1 hr
      cases hint with
      | legacy => cases hrow
      | v2 =>
        obtain ⟨n, hn, htarget⟩ := mem_legacyRows.1
          (show (row.1, row.2) ∈ legacyRows s.hash from hrow)
        obtain rfl : n = m := Option.some.inj (hn.symm.trans hm)
        exact htarget.symm

theorem lookup_numeric_script {hash : InflightHash} {id : ℕ} {target : Field}
    (htarget : ∀ m, hash.lookup (.numeric id) = some m → target = inflightFieldKey m.toPacket)
    (k : ℕ) : (migrateLegacyInflightField hash id target).lookup (.numeric k) =
      if k = id then none else hash.lookup (.numeric k) := by
  cases hm : hash.lookup (.numeric id) with
  | none =>
    have hsame : migrateLegacyInflightField hash id target = hash := by
      simp only [migrateLegacyInflightField, hm]
    rw [hsame]
    split_ifs with hk
    · rw [hk, hm]
    · rfl
  | some m =>
    have hdir : inflightFieldKey m.toPacket ≠ .numeric k :=
      Field.ne_numeric (isDirectional_inflightFieldKey m.toPacket) k
    rw [htarget m hm, lookup_migrateLegacyInflightField hm,
      if_neg fun hboth : Field.numeric k = _ ∧ _ => hdir hboth.1.symm]
    simp only [Field.numeric.injEq]

/-- A script changes no flow. -/
theorem inv_script (h : s.Inv start) (i k : ℕ) : (s.step (.script i k)).Inv start := by
  dsimp only [step]
  cases hr : s.runs[i]? with
  | none => exact h
  | some r =>
    dsimp only
    cases hrow : r.rows[k]? with
    | none => exact h
    | some row =>
      obtain ⟨id, target⟩ := row
      dsimp only
      have hrmem : r ∈ s.runs := List.mem_of_getElem? hr
      have htarget : ∀ m, s.hash.lookup (.numeric id) = some m →
          target = inflightFieldKey m.toPacket :=
        h.target r hrmem _ (List.mem_of_getElem? hrow)
      have hnumeric := lookup_numeric_script htarget
      have hkept (j : ℕ) (hj : Field.numeric j ∈ migrateLegacyInflightField s.hash id target) :
          j ≠ id ∧ Field.numeric j ∈ s.hash := by
        obtain ⟨m, hm⟩ := GoMap.mem_iff_exists_lookup.1 hj
        rw [hnumeric] at hm
        split_ifs at hm with hjid
        exact ⟨hjid, GoMap.mem_iff_exists_lookup.2 ⟨m, hm⟩⟩
      -- a run of the new state is one of the old state, perhaps without the row
      have hruns (r' : Migration) (hr' : r' ∈ s.runs.set i { r with rows := r.rows.eraseIdx k }) :
          ∃ old ∈ s.runs, r'.hint = old.hint ∧ (∀ x ∈ r'.rows, x ∈ old.rows) ∧
            ∀ x ∈ old.rows, x.1 ≠ id → x ∈ r'.rows := by
        rcases List.mem_or_eq_of_mem_set hr' with hold | rfl
        · exact ⟨r', hold, rfl, fun x hx => hx, fun x hx _ => hx⟩
        · refine ⟨r, hrmem, rfl, fun x hx => List.mem_of_mem_eraseIdx hx, fun x hx hne => ?_⟩
          obtain ⟨j, hj⟩ := List.mem_iff_getElem?.1 hx
          refine List.mem_eraseIdx_iff_getElem?.2 ⟨j, ?_, hj⟩
          rintro rfl
          rw [hrow] at hj
          cases hj
          exact hne rfl
      have hpending : ∀ r' ∈ s.runs.set i { r with rows := r.rows.eraseIdx k }, r'.hint = .v2 →
          ∀ j, Field.numeric j ∈ migrateLegacyInflightField s.hash id target →
            ∃ t, (j, t) ∈ r'.rows := by
        intro r' hr' hv2 j hj
        obtain ⟨old, hold, hhint, -, hrows⟩ := hruns r' hr'
        obtain ⟨hne, hmem⟩ := hkept j hj
        obtain ⟨t, ht⟩ := h.pending old hold (hhint ▸ hv2) j hmem
        exact ⟨t, hrows _ ht hne⟩
      have htargets : ∀ r' ∈ s.runs.set i { r with rows := r.rows.eraseIdx k }, ∀ x ∈ r'.rows,
          ∀ m, (migrateLegacyInflightField s.hash id target).lookup (.numeric x.1) = some m →
            x.2 = inflightFieldKey m.toPacket := by
        intro r' hr' x hx m hm
        obtain ⟨old, hold, -, hrows, -⟩ := hruns r' hr'
        rw [hnumeric] at hm
        split_ifs at hm
        exact h.target old hold x (hrows x hx) m hm
      cases hm : s.hash.lookup (.numeric id) with
      | none =>
        have hsame : migrateLegacyInflightField s.hash id target = s.hash := by
          simp only [migrateLegacyInflightField, hm]
        rw [hsame] at hpending htargets ⊢
        exact ⟨h.own, h.yields, hpending, htargets⟩
      | some m =>
        obtain rfl := htarget m hm
        exact ⟨h.own.migrateLegacyInflightField hm,
          fun f hf => (yields_migrateLegacyInflightField h.own hm hf).trans (h.yields f hf),
          hpending, htargets⟩

theorem inv_step (h : s.Inv start) : (e : MigrationEvent) → (s.step e).Inv start
  | .start hint => inv_start h hint
  | .script i k => inv_script h i k

theorem inv_run (hown : OwnID start) (es : List MigrationEvent) :
    (run step { hash := start } es).Inv start := by
  have hfresh : ({ hash := start } : MigrationState).Inv start :=
    ⟨hown, fun _ _ => rfl, by simp, by simp⟩
  exact run_of_step (I := Inv start) (fun _ e hs => inv_step hs e) hfresh es

/-! A call that nobody disturbs is a run of the machine. -/

theorem run_scripts (hash : InflightHash) (rows : List (ℕ × Field)) :
    run step ⟨hash, [⟨.v2, rows⟩]⟩ (List.replicate rows.length (.script 0 0)) =
      ⟨rows.foldl (fun hash row => migrateLegacyInflightField hash row.1 row.2) hash,
        [⟨.v2, []⟩]⟩ := by
  induction rows generalizing hash with
  | nil => rfl
  | cons row rows ih => exact ih (migrateLegacyInflightField hash row.1 row.2)

end MigrationState

/-! ### Reading back -/

private theorem migrateLegacyInflightFields_eq_foldl (hash : InflightHash) :
    migrateLegacyInflightFields hash =
      (legacyRows hash).foldl (fun hash row => migrateLegacyInflightField hash row.1 row.2)
        hash := by
  rw [legacyRows, List.foldl_filterMap, migrateLegacyInflightFields]
  congr 1
  funext acc row
  cases row.1 <;> rfl

theorem migrateLegacyInflightFields_spec {hash : InflightHash} (h : OwnID hash) :
    OwnID (migrateLegacyInflightFields hash) ∧
      (∀ f, f.isDirectional = true → yields (migrateLegacyInflightFields hash) f = yields hash f) ∧
      ∀ id, .numeric id ∉ migrateLegacyInflightFields hash := by
  have hrun : run MigrationState.step { hash := hash }
      (.start .v2 :: List.replicate (legacyRows hash).length (.script 0 0)) =
        ⟨migrateLegacyInflightFields hash, [⟨.v2, []⟩]⟩ := by
    rw [migrateLegacyInflightFields_eq_foldl]
    exact MigrationState.run_scripts hash (legacyRows hash)
  have hinv := MigrationState.inv_run h
    (.start .v2 :: List.replicate (legacyRows hash).length (.script 0 0))
  rw [hrun] at hinv
  refine ⟨hinv.own, hinv.yields, fun id hid => ?_⟩
  obtain ⟨target, hmem⟩ := hinv.pending _ (List.mem_singleton_self _) rfl id hid
  cases hmem

theorem mem_storedInflightForClient {hash : InflightHash} (h : OwnID hash) :
    ∃ ms, (storedInflightForClient .v2 hash).2 = some ms ∧
      (ms.map fun m => inflightFieldKey m.toPacket).Nodup ∧
      ∀ m, m ∈ ms ↔ ∃ f, f.isDirectional = true ∧ yields hash f = some m := by
  obtain ⟨hown, hyields, hnumeric⟩ := migrateLegacyInflightFields_spec h
  have hdir (f : Field) (m : Message)
      (hm : (migrateLegacyInflightFields hash).lookup f = some m) : f.isDirectional = true := by
    cases f with
    | numeric id => exact absurd (GoMap.mem_iff_exists_lookup.2 ⟨m, hm⟩) (hnumeric id)
    | inbound id => rfl
    | outbound id => rfl
  have hfield : OwnField .v2 (migrateLegacyInflightFields hash) :=
    fun f m hm => ((hown f m hm).2 (hdir f m hm)).symm
  obtain ⟨ms, hms, hmem⟩ := storedInflight_of_ownField hfield
  have hread : (storedInflightForClient .v2 hash).2 = some ms := by
    simp only [storedInflightForClient, if_true, hms]
  refine ⟨ms, hread, nodup_storedInflight hfield hms, fun m => (hmem m).trans ?_⟩
  constructor
  · rintro ⟨f, hm⟩
    refine ⟨f, hdir f m hm, ?_⟩
    rw [← hyields f (hdir f m hm)]
    exact yields_eq_some.2 (Or.inl hm)
  · rintro ⟨f, hf, hm⟩
    rw [← hyields f hf] at hm
    rcases yields_eq_some.1 hm with hm | ⟨-, hm, -⟩
    · exact ⟨f, hm⟩
    · exact ⟨_, hm⟩

namespace MigrationState

/-- A message of a client. -/
def directed (id : ℕ) (type : PacketType) (topic : Text) : Message where
  client := ['c']
  type := type
  qos := 2
  topicName := topic
  payload := []
  created := 0
  packetID := id

/-- Delivery 1 in both forms, with different topics, and the client's own flow 2 in numeric form. -/
def mixedHash : InflightHash :=
  ((AList.singleton (.numeric 1) (directed 1 .publish ['o'])).insert (.outbound 1)
    (directed 1 .publish ['n'])).insert (.numeric 2) (directed 2 .pubrec [])

/-- Migrations lose nothing, wherever they stop and however they interleave. Once a migration that
knows schema 2 is complete, no numeric field is left, and the hash is read back as it was meant at
the start. -/
theorem yields_run {start : InflightHash} (hown : OwnID start) (es : List MigrationEvent) :
    (∀ f, f.isDirectional = true →
      yields (run step { hash := start } es).hash f = yields start f) ∧
    ∀ r ∈ (run step { hash := start } es).runs, r.hint = .v2 → r.rows = [] →
      (∀ id, .numeric id ∉ (run step { hash := start } es).hash) ∧
      ∃ ms, (storedInflightForClient .v2 (run step { hash := start } es).hash).2 =
          some ms ∧
        (ms.map fun m => inflightFieldKey m.toPacket).Nodup ∧
        ∀ m, m ∈ ms ↔ ∃ f, f.isDirectional = true ∧ yields start f = some m := by
  have hinv := inv_run hown es
  refine ⟨hinv.yields, fun r hr hv2 hdone => ?_⟩
  have hnumeric (id : ℕ) : .numeric id ∉ (run step { hash := start } es).hash := by
    intro hid
    obtain ⟨target, hmem⟩ := hinv.pending r hr hv2 id hid
    rw [hdone] at hmem
    cases hmem
  obtain ⟨ms, hread, hnodup, hmem⟩ := mem_storedInflightForClient hinv.own
  refine ⟨hnumeric, ms, hread, hnodup, fun m => (hmem m).trans ?_⟩
  refine exists_congr fun f => and_congr_right fun hf => ?_
  rw [hinv.yields f hf]

/-- Two nodes migrate at once, the second one stops, and the conflict of packet ID 1 is resolved in
favour of the directional field. -/
theorem yields_run_twoNodes :
    OwnID mixedHash ∧
    (run step { hash := mixedHash }
      [.start .v2, .start .v2, .script 1 1, .script 0 0, .script 0 0]).runs.map Migration.rows =
        [[], [(2, .inbound 2)]] ∧
    yields (run step { hash := mixedHash }
      [.start .v2, .start .v2, .script 1 1, .script 0 0, .script 0 0]).hash (.outbound 1) =
        some (directed 1 .publish ['n']) :=
  ⟨by decide +kernel, by decide +kernel,
    ((yields_run (by decide +kernel) _).1 (.outbound 1) rfl).trans (by decide +kernel)⟩

end MigrationState

end KeelGateway.Redis

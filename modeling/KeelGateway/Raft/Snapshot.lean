import KeelGateway.Raft.FSMReads

/-!
# Snapshots of the state machine

`Snapshot` copies the state, `Persist` writes the copy as a JSON document, and `Restore` replaces
the state of a machine by a document. The two run at different times: commands are applied between
`Snapshot` and `Persist`, so the copy must not share the slices of the role names, which are
filtered in place.

A field of a document may be missing or null. `Restore` makes a new map for each such field but one:
the session map is taken as it is, and the next claim panics on a nil map.

-/

namespace KeelGateway.Raft

open Acl Slices StepMachine FSM

/-! ### Documents -/

/-- The value of type `snapshot` that a JSON document decodes to. A field that is missing or null is
the nil map or the empty text, and a null list is an empty one. -/
structure Document where
  sessions : NilMap Text Text := .nil
  sessionIdentity : NilMap Text Text := .nil
  roles : NilMap Text Role := .nil
  bindings : NilMap Text (List Text) := .nil
  enabledRulesets : NilMap Text Bool := .nil
  redisPrimary : Text := []
  revoked : NilMap Text ℤ := .nil

namespace Document

variable (d : Document)

/-- The fields that carry `omitempty` are left out when they are empty. -/
def omitEmpty : Document :=
  { d with sessionIdentity := d.sessionIdentity.omitEmpty, revoked := d.revoked.omitEmpty }

/-- The document with empty maps for its missing fields. -/
def filled : Document where
  sessions := d.sessions.orMake
  sessionIdentity := d.sessionIdentity.orMake
  roles := d.roles.orMake
  bindings := d.bindings.orMake
  enabledRulesets := d.enabledRulesets.orMake
  redisPrimary := d.redisPrimary
  revoked := d.revoked.orMake

/-- The content of a document. -/
def store : Store where
  sessions := d.sessions.get
  sessionIdentity := d.sessionIdentity.get
  roles := d.roles.get
  bindings := d.bindings.get
  enabledRulesets := d.enabledRulesets.get
  redisPrimary := d.redisPrimary
  revoked := d.revoked.get

/-- Which maps of the document are nil. -/
def nils : Nils where
  sessions := d.sessions.isNil
  sessionIdentity := d.sessionIdentity.isNil
  roles := d.roles.isNil
  bindings := d.bindings.isNil
  enabledRulesets := d.enabledRulesets.isNil
  revoked := d.revoked.isNil

private theorem store_omitEmpty : d.omitEmpty.store = d.store := by
  simp only [store, omitEmpty, NilMap.get_omitEmpty]

private theorem store_filled : d.filled.store = d.store := by
  simp only [store, filled, NilMap.get_orMake]

end Document

/-- The JSON encoder and decoder, for some type of byte streams. What was encoded decodes to the
same content, with the empty fields that were left out as nil maps. -/
structure Codec (Stream : Type) where
  encode : Document → Stream
  decode : Stream → Except Text Document
  decode_encode : ∀ d, ∃ d', decode (encode d) = .ok d' ∧ d'.store = d.omitEmpty.store ∧
    d'.nils = d.omitEmpty.nils

/-- A codec whose streams are documents. -/
def Codec.plain : Codec Document where
  encode := Document.omitEmpty
  decode := .ok
  decode_encode := fun d => ⟨d.omitEmpty, rfl, rfl, rfl⟩

/-! ### Lists in arrays of their own -/

/-- A map of slices for a list of rows, each in a new array whose unused end holds `free`. -/
def allocRows (free : List Text) (h : Heap Text) (rows : List (Sigma fun _ : Text => List Text)) :
    Heap Text × GoMap Text Slice :=
  rows.foldl (fun p row => ((p.1.alloc row.2 free).1, p.2.insert row.1 (p.1.alloc row.2 free).2))
    (h, ∅)

private theorem update_foldl_alloc (free : List Text) {reserved : Set ℕ} {h : Heap Text}
    (rows : List (Sigma fun _ : Text => List Text)) (hrows : rows.NodupKeys)
    (p : Heap Text × GoMap Text Slice) (c : Text → Option (List Text))
    (u : Update reserved h p.1 (fun k => p.2.lookup k) c) :
    let p' := rows.foldl
      (fun p row => ((p.1.alloc row.2 free).1, p.2.insert row.1 (p.1.alloc row.2 free).2)) p
    Update reserved h p'.1 (fun k => p'.2.lookup k) fun k => (rows.dlookup k).or (c k) := by
  induction rows generalizing p c with
  | nil => exact u
  | cons row rows ih =>
    obtain ⟨hnotMem, hrest⟩ := List.nodupKeys_cons.1 hrows
    have hnew := u.trans (u.owns.alloc row.1 row.2 free)
    have hlookup : (fun k => (p.2.insert row.1 (p.1.alloc row.2 free).2).lookup k) =
        Function.update (fun k => p.2.lookup k) row.1 (some (p.1.alloc row.2 free).2) := by
      funext k
      rw [GoMap.lookup_insert, Function.update_apply]
    rw [u.contents, ← hlookup] at hnew
    have hthen := ih hrest (_, _) _ hnew
    have hcontent : (fun k => ((row :: rows).dlookup k).or (c k)) =
        fun k => (rows.dlookup k).or (Function.update c row.1 (some row.2) k) := by
      funext k
      by_cases hk : k = row.1
      · subst hk
        rw [List.dlookup_cons_eq, List.dlookup_eq_none.2 hnotMem, Function.update_self]
        rfl
      · rw [List.dlookup_cons_ne _ _ hk, Function.update_of_ne hk]
    rw [hcontent]
    exact hthen

theorem update_allocRows (free : List Text) (h : Heap Text)
    {rows : List (Sigma fun _ : Text => List Text)} (hrows : rows.NodupKeys) :
    Update {a | a < h.next} h (allocRows free h rows).1
      (fun k => (allocRows free h rows).2.lookup k) fun k => rows.dlookup k := by
  have hstart : Update {a | a < h.next} h h (fun k => (∅ : GoMap Text Slice).lookup k)
      fun _ => none := by
    refine ⟨⟨?_, ?_, ?_, fun a ha => ha⟩, rfl, fun _ _ => rfl⟩
    · intro k s hs
      cases hs
    · intro k k' s t a hs
      cases hs
    · intro k s a hs
      cases hs
  have hrun := update_foldl_alloc free rows hrows (h, ∅) _ hstart
  simp only [Option.or_none] at hrun
  exact hrun

/-! ### Snapshot, Persist and Restore -/

/-- The type `snapshot` in memory. -/
structure Snapshot where
  sessions : NilMap Text Text
  sessionIdentity : NilMap Text Text
  roles : NilMap Text Role
  bindings : NilMap Text Slice
  enabledRulesets : NilMap Text Bool
  redisPrimary : Text
  revoked : NilMap Text ℤ

/-- The orders of the loops of `Snapshot`. -/
structure LoopOrders where
  sessions : List ℕ := []
  sessionIdentity : List ℕ := []
  roles : List ℕ := []
  bindings : List ℕ := []
  enabledRulesets : List ℕ := []
  revoked : List ℕ := []

/-- `Persist`: the document that is encoded. It reads the copied role names where they are. -/
def Snapshot.persist (snap : Snapshot) (heap : Heap Text) : Document where
  sessions := snap.sessions
  sessionIdentity := snap.sessionIdentity
  roles := snap.roles
  bindings := snap.bindings.mapValues heap.read
  enabledRulesets := snap.enabledRulesets
  redisPrimary := snap.redisPrimary
  revoked := snap.revoked

namespace FSM

/-- `Snapshot`: the copy, and the machine with the arrays of the copy on its heap. -/
def snapshot (f : FSM) (order : LoopOrders) : FSM × Snapshot :=
  let copies := allocRows [] f.heap
    (((f.bindings.content.arranged order.bindings).mapValues f.heap.read).entries)
  ({ f with heap := copies.1 },
    { sessions := f.sessions.copied order.sessions
      sessionIdentity := f.sessionIdentity.copied order.sessionIdentity
      roles := f.roles.copied order.roles
      bindings := .ofMap copies.2
      enabledRulesets := f.enabledRulesets.copied order.enabledRulesets
      redisPrimary := f.redisPrimary
      revoked := f.revoked.copied order.revoked })

/-- What `Restore` does once the document is decoded; `free` is the unused end of the arrays that
the decoder makes. The session map is not checked. -/
def load (f : FSM) (d : Document) (free : List Text) : FSM :=
  let decoded := allocRows free f.heap d.bindings.content.entries
  { heap := decoded.1
    sessions := d.sessions
    sessionIdentity := d.sessionIdentity.orMake
    roles := d.roles.orMake
    bindings := if d.bindings.isNil then .make else .ofMap decoded.2
    enabledRulesets := d.enabledRulesets.orMake
    redisPrimary := d.redisPrimary
    revoked := d.revoked.orMake }

/-- `Restore`. The machine stays as it is if the document does not decode. -/
def restore {Stream : Type} (codec : Codec Stream) (f : FSM) (rc : Stream) (free : List Text) :
    Except Text FSM :=
  match codec.decode rc with
  | .error err => .error ("fsm: decode snapshot: ".toList ++ err)
  | .ok d => .ok (f.load d free)

/-! ### What they keep -/

variable {reserved : Set ℕ} {f g : FSM}

theorem load_spec (f : FSM) (d : Document) (free : List Text) :
    (f.load d free).Sound ∅ ∧ (f.load d free).store = d.store ∧
      (f.load d free).nils = { sessions := d.sessions.isNil } := by
  have hrows := update_allocRows free f.heap d.bindings.content.nodupKeys
  have hget : (f.load d free).bindings.get =
      fun k => (allocRows free f.heap d.bindings.content.entries).2.lookup k := by
    rw [load]
    cases hnil : d.bindings.isNil with
    | true =>
      have hcontent : d.bindings.content = ∅ := by
        cases hd : d.bindings with
        | none => rfl
        | some c =>
          rw [hd] at hnil
          cases hnil
      rw [hcontent]
      rfl
    | false => rfl
  refine ⟨?_, ?_, ?_⟩
  · rw [Sound, hget]
    exact ⟨hrows.owns.valid, hrows.owns.apart, fun _ _ _ _ _ => id, fun _ => False.elim⟩
  · have hbindings :
        (f.load d free).heap.contents (f.load d free).bindings.get = d.bindings.get := by
      rw [hget]
      exact hrows.contents
    rw [store, hbindings]
    simp only [load, Document.store, NilMap.get_orMake]
  · have hbindings : (f.load d free).bindings.isNil = false := by
      rw [load]
      cases d.bindings.isNil <;> rfl
    rw [nils, hbindings]
    simp only [load, NilMap.isNil_orMake]

theorem snapshot_spec (hf : f.Sound reserved) (order : LoopOrders) :
    (f.snapshot order).1.Sound (arraysOf (f.snapshot order).2.bindings.get) ∧
      (f.snapshot order).1.store = f.store ∧ (f.snapshot order).1.nils = f.nils ∧
      ((f.snapshot order).2.persist (f.snapshot order).1.heap).store = f.store ∧
      ((f.snapshot order).2.persist (f.snapshot order).1.heap).nils = {} := by
  have hcopies := update_allocRows [] f.heap
    ((f.bindings.content.arranged order.bindings).mapValues f.heap.read).nodupKeys
  have hbeside := Owns.beside hf hcopies
  refine ⟨hbeside.1, ?_, rfl, ?_, rfl⟩
  · rw [store, store]
    simp only [snapshot, hbeside.2]
  · have hbindings : ((f.snapshot order).2.persist (f.snapshot order).1.heap).bindings.get =
        f.heap.contents f.bindings.get := by
      funext principal
      rw [Snapshot.persist, NilMap.get_mapValues]
      refine (congrFun hcopies.contents principal).trans ?_
      refine (GoMap.lookup_mapValues f.heap.read _ principal).trans ?_
      rw [GoMap.lookup_arranged]
      rfl
    rw [Document.store, hbindings]
    simp only [Snapshot.persist, snapshot, NilMap.get_copied, store]

theorem persist_of_frame (snap : Snapshot) {heap heap' : Heap Text}
    (hframe : ∀ a ∈ arraysOf snap.bindings.get, heap'.arrays a = heap.arrays a) :
    snap.persist heap' = snap.persist heap := by
  have hbindings : snap.bindings.mapValues heap'.read = snap.bindings.mapValues heap.read :=
    NilMap.mapValues_congr fun _ _ hget => read_of_frame hframe hget
  rw [Snapshot.persist, Snapshot.persist, hbindings]

theorem sameReads_exec {reserved reserved' : Set ℕ} (hf : f.Sound reserved) (hg : g.Sound reserved')
    (hstore : f.store = g.store) (hfnils : f.nils = {}) (hgnils : g.nils = {})
    {es es' : List (Command × Env)} (htimes : es.map timed = es'.map timed) :
    ∃ f' g' results, f.execCommands es = some (f', results) ∧
      g.execCommands es' = some (g', results) ∧ SameReads f' g' := by
  obtain ⟨f', hexec, hf'⟩ := exists_exec hf fun _ _ => ready_of_nils_eq hfnils
  obtain ⟨g', hexec', hg'⟩ := exists_exec hg fun _ _ => ready_of_nils_eq hgnils
  rw [← hstore, ← htimes] at hexec' hg'
  exact ⟨f', g', _, hexec, hexec', SameReads.of_store (hf'.store.trans hg'.store.symm)⟩

/-- A machine that has applied any log is copied, goes on with other commands, and then the copy is
written. What is written is what would have been written at once. A machine in any state that is
restored from it returns the same results as the original at the time of the copy for all later
commands that are applied at the same times, and gives the same answers to all reads. -/
theorem snapshot_restore {Stream : Type} (codec : Codec Stream) (es between : List (Command × Env))
    (order : LoopOrders) (other : FSM) (free : List Text) :
    ∃ f earlier, newFSM.execCommands es = some (f, earlier) ∧
      ∃ f₂ meanwhile, (f.snapshot order).1.execCommands between = some (f₂, meanwhile) ∧
        (f.snapshot order).2.persist f₂.heap =
          (f.snapshot order).2.persist (f.snapshot order).1.heap ∧
        ∃ restored, other.restore codec (codec.encode ((f.snapshot order).2.persist f₂.heap)) free =
            .ok restored ∧
          ∀ later later' : List (Command × Env), later.map timed = later'.map timed →
            ∃ f' restored' results, (f.snapshot order).1.execCommands later = some (f', results) ∧
              restored.execCommands later' = some (restored', results) ∧
              SameReads f' restored' := by
  obtain ⟨f, hexec, hf⟩ := exists_exec_newFSM es
  obtain ⟨hsound, hstore, hnils, hcopied, hcopiedNils⟩ := snapshot_spec hf.sound order
  have hnotNil : (f.snapshot order).1.nils = {} := hnils.trans hf.nils
  have hready : ∀ e ∈ between, e.1.ready (f.snapshot order).1.nils = true :=
    fun _ _ => ready_of_nils_eq hnotNil
  obtain ⟨f₂, hbetween, hf₂⟩ := exists_exec hsound hready
  have hpersist := persist_of_frame (f.snapshot order).2 hf₂.frame
  obtain ⟨d, hdecode, hdStore, hdNils⟩ :=
    codec.decode_encode ((f.snapshot order).2.persist (f.snapshot order).1.heap)
  obtain ⟨hloadSound, hloadStore, hloadNils⟩ := load_spec other d free
  have hsessions : d.sessions.isNil = false := congrArg Nils.sessions hdNils
  rw [hsessions] at hloadNils
  rw [Document.store_omitEmpty, hcopied] at hdStore
  refine ⟨f, _, hexec, f₂, _, hbetween, hpersist, other.load d free, ?_,
    fun later later' htimes => ?_⟩
  · rw [hpersist, restore, hdecode]
  · exact sameReads_exec hsound hloadSound
      (hstore.trans (hdStore.symm.trans hloadStore.symm)) hnotNil hloadNils htimes

/-- Client `c` is on node `A` and has a role. -/
def beforeCopy : List (Command × Env) :=
  [({ op := .claimSession, clientID := ['c'], nodeID := ['A'] }, {}),
    ({ op := .createBinding, principal := ['c'], roleName := ['r'] }, {})]

/-- It moves to node `B` and loses the role. -/
def afterCopy : List (Command × Env) :=
  [({ op := .claimSession, clientID := ['c'], nodeID := ['B'] }, {}),
    ({ op := .deleteBinding, principal := ['c'], roleName := ['r'] }, {})]

/-- The machine that is restored has the client where it was at the time of the copy, though the
copy was written after the client had moved. -/
theorem snapshot_restore_moved :
    ∃ f earlier f₂ meanwhile restored, newFSM.execCommands beforeCopy = some (f, earlier) ∧
      (f.snapshot {}).1.execCommands afterCopy = some (f₂, meanwhile) ∧
      f₂.sessionOwner ['c'] = some ['B'] ∧
      newFSM.restore Codec.plain (Codec.plain.encode ((f.snapshot {}).2.persist f₂.heap)) [] =
        .ok restored ∧
      restored.sessionOwner ['c'] = some ['A'] := by
  obtain ⟨f, earlier, hexec, f₂, meanwhile, hbetween, -, restored, hrestore, hlater⟩ :=
    snapshot_restore Codec.plain beforeCopy afterCopy {} newFSM []
  obtain ⟨_, _, _, hnow, hthen, hreads⟩ := hlater [] [] rfl
  cases hnow
  cases hthen
  have hbefore : ((newFSM.execCommands beforeCopy).map (·.1.sessionOwner ['c'])) =
      some (some ['A']) := by
    decide +kernel
  have hafter : ((newFSM.execCommands beforeCopy).bind fun p =>
      ((p.1.snapshot {}).1.execCommands afterCopy).map (·.1.sessionOwner ['c'])) =
      some (some ['B']) := by
    decide +kernel
  rw [hexec] at hbefore hafter
  rw [Option.bind_some, hbetween] at hafter
  exact ⟨f, earlier, f₂, meanwhile, restored, hexec, hbetween, Option.some.inj hafter, hrestore,
    (hreads.sessionOwner ['c']).symm.trans (Option.some.inj hbefore)⟩

/-! ### Documents with missing fields -/

theorem ready_load {cmd : Command} {noSessions : Bool} :
    cmd.ready { sessions := noSessions } = true ↔ noSessions = false ∨ cmd.op ≠ .claimSession := by
  obtain ⟨op, -⟩ := cmd
  cases op <;> simp [Command.ready]

/-- A machine is restored from any document. Every later command takes effect as it does after the
document with empty maps for its missing fields, and none panics, exactly if the sessions are in the
document or no command is a claim. -/
theorem load_usable_iff (f : FSM) (d : Document) (free free' : List Text)
    {es es' : List (Command × Env)} (htimes : es.map timed = es'.map timed) :
    (∃ restored filled results, (f.load d free).execCommands es = some (restored, results) ∧
        (f.load d.filled free').execCommands es' = some (filled, results) ∧
        restored.store = filled.store) ↔
      d.sessions.isNil = false ∨ ∀ e ∈ es, e.1.op ≠ .claimSession := by
  obtain ⟨hsound, hstore, hnils⟩ := load_spec f d free
  obtain ⟨hfilledSound, hfilledStore, hfilledNils⟩ := load_spec f d.filled free'
  rw [Document.store_filled] at hfilledStore
  have hfilledNil : (f.load d.filled free').nils = {} := by
    rw [hfilledNils, Document.filled]
    simp only [NilMap.isNil_orMake]
  constructor
  · rintro ⟨restored, filled, results, hexec, -⟩
    by_contra hnot
    push Not at hnot
    obtain ⟨hnil, e, he, hclaim⟩ := hnot
    have hnone : (f.load d free).execCommands es = none := by
      refine execCommands_eq_none hsound ⟨e, he, ?_⟩
      rw [hnils, Bool.eq_false_iff]
      intro hready
      exact (ready_load.1 hready).elim hnil fun hne => hne hclaim
    rw [hnone] at hexec
    cases hexec
  · intro husable
    have hready : ∀ e ∈ es, e.1.ready (f.load d free).nils = true := by
      intro e he
      rw [hnils, ready_load]
      exact husable.imp id fun hall => hall e he
    obtain ⟨restored, hexec, hrestored⟩ := exists_exec hsound hready
    have hready' : ∀ e ∈ es', e.1.ready (f.load d.filled free').nils = true :=
      fun _ _ => ready_of_nils_eq hfilledNil
    obtain ⟨filled, hexec', hfilled⟩ := exists_exec hfilledSound hready'
    rw [hfilledStore, ← htimes] at hexec' hfilled
    rw [hstore] at hexec hrestored
    exact ⟨restored, filled, _, hexec, hexec', hrestored.store.trans hfilled.store.symm⟩

/-- A release after an empty document does what it does after the document with empty maps. -/
theorem load_usable_iff_release :
    ∃ restored filled results,
      (newFSM.load {} []).execCommands [({ op := .releaseSession }, {})] =
          some (restored, results) ∧
        (newFSM.load (Document.filled {}) []).execCommands [({ op := .releaseSession }, {})] =
          some (filled, results) ∧
        restored.store = filled.store :=
  (load_usable_iff newFSM {} [] [] rfl).2 (Or.inr (by simp))

/-- The first claim after an empty document panics, while it succeeds after the document with empty
maps. -/
theorem load_empty_claim_panics :
    (newFSM.load {} []).execCommands
        [({ op := .claimSession, nodeID := "node".toList }, {})] = none ∧
      ((newFSM.load (Document.filled {}) []).execCommands
        [({ op := .claimSession, nodeID := "node".toList }, {})]).isSome = true := by
  decide

end FSM

end KeelGateway.Raft

import KeelGateway.Lib.Base64
import KeelGateway.Raft.CommandHistory

/-!
# Agreement of the replicas

Every voter applies the same log to its own copy of the state. The entries are the same byte
strings, but each replica applies them at its own time, loops over its maps in its own order, and
gets its memory from its own allocator. The orders and the memory leave no trace in the state. The
time does: a revocation stores `time.Now()`, so two replicas keep different revocation times unless
they apply the last revocation of every identity in the same second.

-/

namespace KeelGateway.Raft

open FSM StepMachine

/-! ### Two stores -/

namespace Store

/-- The store without the times of its revocations. -/
def untimed (s : Store) : Store := { s with revoked := fun _ => none }

theorem untimed_applyCommand {s t : Store} (h : s.untimed = t.untimed) (cmd : FSM.Command)
    (now now' : ℤ) :
    (s.applyCommand cmd now).1.untimed = (t.applyCommand cmd now').1.untimed ∧
      (s.applyCommand cmd now).2 = (t.applyCommand cmd now').2 := by
  obtain ⟨sessions, sessionIdentity, roles, bindings, enabledRulesets, redisPrimary, revoked⟩ := s
  obtain ⟨rfl, rfl, rfl, rfl, rfl, rfl⟩ := h
  rw [applyCommand, applyCommand]
  cases cmd.op with
  | releaseSession | createBinding =>
    dsimp only
    split_ifs <;> exact ⟨rfl, rfl⟩
  | _ => exact ⟨rfl, rfl⟩

private theorem ext_untimed {s t : Store} (h : s.untimed = t.untimed)
    (hrevoked : ∀ identity, s.revoked identity = t.revoked identity) : s = t := by
  have hfields := h
  simp only [untimed, mk.injEq, and_true] at hfields
  obtain ⟨hsessions, hidentity, hroles, hbindings, henabled, hprimary⟩ := hfields
  exact Store.ext hsessions hidentity hroles hbindings henabled hprimary (funext hrevoked)

variable (unmarshal : List UInt8 → Except Text FSM.Command)

/-- A log entry at a time: an entry that does not decode changes nothing. -/
def applyEntry (s : Store) (e : List UInt8 × ℤ) : Store × ApplyResult :=
  match unmarshal e.1 with
  | .error err => (s, { err := some (.unmarshal err) })
  | .ok cmd => s.applyCommand cmd e.2

/-- The state after a log entry. -/
def stepEntry (s : Store) (e : List UInt8 × ℤ) : Store := (s.applyEntry unmarshal e).1

end Store

/-! ### Two replicas -/

namespace FSM

section Replicas

variable (unmarshal : List UInt8 → Except Text Command)

/-- The entries of a log, each with what one replica meets when it applies it. -/
def applyLog : FSM → List (List UInt8 × Env) → Option (FSM × List ApplyResult) :=
  exec fun f e => f.apply unmarshal e.1 e.2

/-- What an environment contributes to an entry: the time. -/
def timedEntry (e : List UInt8 × Env) : List UInt8 × ℤ := (e.1, e.2.now)

/-- The entry revokes the certificate of an identity. -/
def EntryRevokes (identity : Text) (data : List UInt8) : Prop :=
  ∃ cmd, unmarshal data = .ok cmd ∧ cmd.Revokes identity

/-- The last revocation of the identity in the log met two different times. Each entry comes with
what the first and what the second replica meets. -/
def Reapplied (identity : Text) (log : List (List UInt8 × Env × Env)) : Prop :=
  Since (fun e => EntryRevokes unmarshal identity e.1 ∧ e.2.1.now ≠ e.2.2.now)
    (fun e => EntryRevokes unmarshal identity e.1) log

end Replicas

/-- Two machines have the same content, and the same maps are nil. -/
structure Agree (f g : FSM) : Prop where
  store : f.store = g.store
  nils : f.nils = g.nils

/-- Two runs end in the same way: both panic, or they return the same results and agree. -/
def AgreeOutcome : Option (FSM × List ApplyResult) → Option (FSM × List ApplyResult) → Prop
  | none, none => True
  | some (f, results), some (g, results') => Agree f g ∧ results = results'
  | _, _ => False

variable {f g : FSM}

section Runs

variable {unmarshal : List UInt8 → Except Text Command}

/-- An entry that decodes to no command or to one that writes to no nil map. -/
def EntryReady (unmarshal : List UInt8 → Except Text Command) (n : Nils) (data : List UInt8) :
    Prop :=
  ∀ cmd, unmarshal data = .ok cmd → cmd.ready n = true

variable {reserved : Set ℕ}

private theorem Becomes.entry (f' : FSM) (s : Store) (e : List UInt8 × Env)
    (hready : EntryReady unmarshal f.nils e.1) (h : Becomes reserved f f' s) :
    ∃ f'', f'.apply unmarshal e.1 e.2 = some (f'', (s.applyEntry unmarshal (timedEntry e)).2) ∧
      Becomes reserved f f'' (s.applyEntry unmarshal (timedEntry e)).1 := by
  rw [apply, Store.applyEntry, timedEntry]
  cases hdata : unmarshal e.1 with
  | error err => exact ⟨f', rfl, h⟩
  | ok cmd =>
    have hcmd := hready cmd hdata
    rw [← h.nils] at hcmd
    obtain ⟨f'', hstep, hbecomes⟩ := exists_applyCommand h.sound hcmd e.2
    rw [h.store] at hstep hbecomes
    exact ⟨f'', hstep, h.trans hbecomes⟩

theorem exists_applyLog (hf : f.Sound reserved) {es : List (List UInt8 × Env)}
    (hready : ∀ e ∈ es, EntryReady unmarshal f.nils e.1) :
    ∃ f', f.applyLog unmarshal es =
        some (f', answers (Store.applyEntry unmarshal) f.store (es.map timedEntry)) ∧
      Becomes reserved f f'
        (run (Store.stepEntry unmarshal) f.store (es.map timedEntry)) :=
  exec_of_refinement (Store.applyEntry unmarshal) timedEntry Becomes.entry hf.refl
    hready

/-- Any other log panics. -/
theorem applyLog_eq_none (hf : f.Sound reserved) {es : List (List UInt8 × Env)}
    (hready : ∃ e ∈ es, ¬ EntryReady unmarshal f.nils e.1) : f.applyLog unmarshal es = none := by
  refine exec_eq_none (Store.applyEntry unmarshal) timedEntry Becomes.entry
    (fun f' s e hnot h => ?_) hf.refl hready
  rw [EntryReady] at hnot
  push Not at hnot
  obtain ⟨cmd, hdata, hcmd⟩ := hnot
  rw [apply, hdata]
  refine applyCommand_eq_none ?_ e.2
  rw [h.nils]
  exact Bool.eq_false_of_not_eq_true hcmd

end Runs

/-! ### What the times leave behind -/

section Times

variable (unmarshal : List UInt8 → Except Text Command)

/-- Both replicas apply an entry, each at its own time. -/
def stepBoth (p : Store × Store)
    (e : List UInt8 × Env × Env) : Store × Store :=
  (p.1.stepEntry unmarshal (e.1, e.2.1.now), p.2.stepEntry unmarshal (e.1, e.2.2.now))

/-- The two runs side by side. -/
theorem run_stepBoth (log : List (List UInt8 × Env × Env)) (s t : Store) :
    run (stepBoth unmarshal) (s, t) log =
      (run (Store.stepEntry unmarshal) s (log.map fun e => (e.1, e.2.1.now)),
        run (Store.stepEntry unmarshal) t (log.map fun e => (e.1, e.2.2.now))) := by
  induction log generalizing s t with
  | nil => rfl
  | cons e log ih =>
    rw [run_cons, List.map_cons, List.map_cons, run_cons, run_cons, ← ih]
    rfl

theorem untimed_stepBoth {p : Store × Store} (h : p.1.untimed = p.2.untimed)
    (e : List UInt8 × Env × Env) :
    (stepBoth unmarshal p e).1.untimed = (stepBoth unmarshal p e).2.untimed := by
  simp only [stepBoth, Store.stepEntry, Store.applyEntry]
  cases unmarshal e.1 with
  | error err => exact h
  | ok cmd => exact (Store.untimed_applyCommand h cmd _ _).1

theorem answers_eq (log : List (List UInt8 × Env × Env)) {s t : Store}
    (h : s.untimed = t.untimed) :
    answers (Store.applyEntry unmarshal) s (log.map fun e => (e.1, e.2.1.now)) =
      answers (Store.applyEntry unmarshal) t (log.map fun e => (e.1, e.2.2.now)) := by
  induction log generalizing s t with
  | nil => rfl
  | cons e log ih =>
    refine congrArg₂ List.cons ?_ (ih (untimed_stepBoth unmarshal (p := (s, t)) h e))
    rw [Store.applyEntry, Store.applyEntry]
    cases unmarshal e.1 with
    | error err => rfl
    | ok cmd => exact (Store.untimed_applyCommand h cmd _ _).2

theorem revoked_stepBoth (identity : Text) (p : Store × Store) (e : List UInt8 × Env × Env) :
    (stepBoth unmarshal p e).1.revoked identity ≠ (stepBoth unmarshal p e).2.revoked identity ↔
      (EntryRevokes unmarshal identity e.1 ∧ e.2.1.now ≠ e.2.2.now) ∨
        (p.1.revoked identity ≠ p.2.revoked identity ∧ ¬ EntryRevokes unmarshal identity e.1) := by
  simp only [stepBoth, Store.stepEntry, Store.applyEntry, EntryRevokes]
  cases unmarshal e.1 with
  | error err => simp
  | ok cmd =>
    have hstep (s : Store) (now : ℤ) : (s.applyCommand cmd now).1 = s.step (cmd, now) := rfl
    simp only [hstep, Store.step_eq, Except.ok.injEq, exists_eq_left', Command.Revokes]
    cases cmd.op with
    | revokeCertificate => grind
    | _ => simp

private theorem run_eq_iff (log : List (List UInt8 × Env × Env)) (s : Store) :
    run (Store.stepEntry unmarshal) s (log.map fun e => (e.1, e.2.1.now)) =
        run (Store.stepEntry unmarshal) s (log.map fun e => (e.1, e.2.2.now)) ↔
      ∀ identity, ¬ Reapplied unmarshal identity log := by
  have hboth := run_stepBoth unmarshal log s s
  have huntimed := run_of_step (I := fun p : Store × Store => p.1.untimed = p.2.untimed)
    (fun _ e h => untimed_stepBoth unmarshal h e) (s := (s, s)) rfl log
  have hrevoked (identity : Text) := run_iff_since_of_not
    (P := fun p : Store × Store => p.1.revoked identity ≠ p.2.revoked identity)
    (revoked_stepBoth unmarshal identity) (s := (s, s)) (not_not.2 rfl) log
  simp only [hboth] at huntimed hrevoked
  constructor
  · intro heq identity hreapplied
    exact (hrevoked identity).2 hreapplied (by rw [heq])
  · intro hnever
    exact Store.ext_untimed huntimed fun identity =>
      not_not.1 fun hne => hnever identity ((hrevoked identity).1 hne)

end Times

/-- Two replicas that agree apply the same log, each in its own environment. Their slices own their
arrays, as those of `NewFSM`, `Apply` and `Restore` do. They return the same results, or both panic.
They agree afterwards exactly if an entry writes to a nil map, so that both panic, or the last
revocation of every identity was applied in the same second at both. -/
theorem agree_applyLog_iff (unmarshal : List UInt8 → Except Text Command) {f g : FSM}
    (hf : f.Sound ∅) (hg : g.Sound ∅) (hagree : Agree f g)
    (log : List (List UInt8 × Env × Env)) :
    (f.applyLog unmarshal (log.map fun e => (e.1, e.2.1))).map Prod.snd =
        (g.applyLog unmarshal (log.map fun e => (e.1, e.2.2))).map Prod.snd ∧
      (AgreeOutcome (f.applyLog unmarshal (log.map fun e => (e.1, e.2.1)))
          (g.applyLog unmarshal (log.map fun e => (e.1, e.2.2))) ↔
        (∃ e ∈ log, ¬ EntryReady unmarshal f.nils e.1) ∨
          ∀ identity, ¬ Reapplied unmarshal identity log) := by
  have hleft : (log.map fun e => (e.1, e.2.1)).map timedEntry =
      log.map fun e => (e.1, e.2.1.now) := by
    rw [List.map_map]
    rfl
  have hright : (log.map fun e => (e.1, e.2.2)).map timedEntry =
      log.map fun e => (e.1, e.2.2.now) := by
    rw [List.map_map]
    rfl
  by_cases hready : ∀ e ∈ log, EntryReady unmarshal f.nils e.1
  · have hreadyLeft : ∀ e ∈ log.map fun e => (e.1, e.2.1), EntryReady unmarshal f.nils e.1 :=
      List.forall_mem_map.2 hready
    have hreadyRight : ∀ e ∈ log.map fun e => (e.1, e.2.2), EntryReady unmarshal g.nils e.1 := by
      rw [← hagree.nils]
      exact List.forall_mem_map.2 hready
    obtain ⟨f', hrunLeft, hf'⟩ := exists_applyLog hf hreadyLeft
    obtain ⟨g', hrunRight, hg'⟩ := exists_applyLog hg hreadyRight
    rw [hleft] at hrunLeft hf'
    rw [hright, ← hagree.store] at hrunRight hg'
    have hresults := answers_eq unmarshal log (s := f.store) rfl
    rw [hrunLeft, hrunRight]
    refine ⟨congrArg some hresults, ?_⟩
    rw [← run_eq_iff unmarshal log f.store, ← hf'.store, ← hg'.store]
    constructor
    · rintro ⟨hsame, -⟩
      exact Or.inr hsame.store
    · rintro (⟨e, he, hnot⟩ | hstore)
      · exact absurd (hready e he) hnot
      exact ⟨⟨hstore, hf'.nils.trans (hagree.nils.trans hg'.nils.symm)⟩, hresults⟩
  · push Not at hready
    obtain ⟨e, he, hnot⟩ := hready
    have hnoneLeft : f.applyLog unmarshal (log.map fun e => (e.1, e.2.1)) = none :=
      applyLog_eq_none hf ⟨(e.1, e.2.1), List.mem_map.2 ⟨e, he, rfl⟩, hnot⟩
    have hnoneRight : g.applyLog unmarshal (log.map fun e => (e.1, e.2.2)) = none :=
      applyLog_eq_none hg ⟨(e.1, e.2.2), List.mem_map.2 ⟨e, he, rfl⟩, hagree.nils ▸ hnot⟩
    rw [hnoneLeft, hnoneRight]
    exact ⟨rfl, iff_of_true trivial (Or.inl ⟨e, he, hnot⟩)⟩

/-- The JSON of a claim. -/
def claimEntry : List UInt8 :=
  Base64.utf8 "\x7b\"op\":\"claim_session\",\"node_id\":\"A\",\"client_id\":\"c\"\x7d".toList

/-- The JSON of a revocation. -/
def revocationEntry : List UInt8 :=
  Base64.utf8
    "\x7b\"op\":\"device_pki.revoke_certificate\",\"identity\":\"device@tenant\"\x7d".toList

/-- A decoder that knows these entries. -/
def unmarshalKnown (data : List UInt8) : Except Text Command :=
  if data = claimEntry then .ok { op := .claimSession, nodeID := ['A'], clientID := ['c'] }
  else if data = revocationEntry then
    .ok { op := .revokeCertificate, identity := "device@tenant".toList }
  else .error "unknown entry".toList

/-- Two new machines apply a claim in different seconds and a revocation in the same second, and
they agree. -/
theorem agree_applyLog_iff_claim :
    AgreeOutcome
      (newFSM.applyLog unmarshalKnown [(claimEntry, { now := 0 }), (revocationEntry, { now := 2 })])
      (newFSM.applyLog unmarshalKnown
        [(claimEntry, { now := 1 }), (revocationEntry, { now := 2 })]) := by
  refine ((agree_applyLog_iff unmarshalKnown sound_newFSM sound_newFSM ⟨rfl, rfl⟩
    [(claimEntry, { now := 0 }, { now := 1 }), (revocationEntry, { now := 2 }, { now := 2 })]).2).2
    (Or.inr fun identity hsince => ?_)
  obtain ⟨before, e, after, hlog, ⟨⟨cmd, hcmd, hop, -⟩, htimes⟩, -⟩ := hsince
  have hmem : e ∈ before ++ e :: after := List.mem_append_right _ List.mem_cons_self
  rw [← hlog] at hmem
  rcases List.mem_pair.1 hmem with rfl | rfl
  · have hclaim : unmarshalKnown claimEntry =
        .ok { op := .claimSession, nodeID := ['A'], clientID := ['c'] } := if_pos rfl
    cases hclaim.symm.trans hcmd
    cases hop
  · exact htimes rfl

/-- Two new machines apply one revocation, in the seconds 0 and 1. They return the same result and
keep different times. -/
theorem not_agree_revocation :
    Agree newFSM newFSM ∧
      ¬ AgreeOutcome (newFSM.applyLog unmarshalKnown [(revocationEntry, { now := 0 })])
        (newFSM.applyLog unmarshalKnown [(revocationEntry, { now := 1 })]) := by
  refine ⟨⟨rfl, rfl⟩, ?_⟩
  rintro ⟨hagree, -⟩
  have htimes := congrFun (congrArg Store.revoked hagree.store) "device@tenant".toList
  exact absurd htimes (by decide)

end FSM

end KeelGateway.Raft

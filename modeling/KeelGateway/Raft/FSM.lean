import KeelGateway.Acl.Evaluate
import KeelGateway.Lib.Slices
import KeelGateway.Lib.StepMachine
import KeelGateway.NilMap

/-!
# The replicated state machine

The Raft log is a list of byte strings, each a command in JSON. `FSM.Apply` decodes an entry and
changes the session, access-control, Redis and revocation parts of its state. The state is made of
Go maps: a map that was never made panics on a write. The role names of a principal are a slice that
is appended to and filtered in place, so they are modelled with the arrays behind them.

What the machine is for is said by `Store`: functions instead of maps, lists instead of slices, and
no failure. Every command that does not meet a nil map does to the store of an FSM what the store
says, whatever order Go picks for the loop over the bindings and wherever `append` puts its arrays.

-/

namespace KeelGateway.Raft.FSM

open Acl Slices StepMachine

/-! ### Commands -/

/-- What a command does. The source's type is a string, so the text may be none of these. -/
inductive Op where
  | claimSession
  | releaseSession
  | createRole
  | deleteRole
  | createBinding
  | deleteBinding
  | enableRuleset
  | disableRuleset
  | setRedisPrimary
  | revokeCertificate
  | unknown (text : Text)
  deriving DecidableEq

/-- A command, without the serial number of a certificate, which `Apply` does not read. -/
structure Command where
  op : Op
  nodeID : Text := []
  clientID : Text := []
  roleName : Text := []
  rules : List ACLRule := []
  principal : Text := []
  rulesetName : Text := []
  identity : Text := []
  deriving DecidableEq

/-- The errors of `Apply`. -/
inductive CommandError where
  /-- `fsm: unmarshal command`, with the error of the decoder. -/
  | unmarshal (err : Text)
  /-- `fsm: unknown op`. -/
  | unknownOp (op : Text)
  deriving DecidableEq

/-- `applyResult`. -/
structure ApplyResult where
  ok : Bool := false
  err : Option CommandError := none
  evictedNode : Text := []
  deriving DecidableEq

/-- What `Apply` gets from its environment. -/
structure Env where
  now : ℤ := 0
  /-- The order of a loop over a map. -/
  order : List ℕ := []
  /-- The unused end of a new array. -/
  free : List Text := []

end FSM

open FSM Acl Slices StepMachine

/-! ### The state machine -/

/-- `state`, with the arrays of its slices. -/
structure FSM where
  heap : Heap Text := {}
  sessions : NilMap Text Text := .make
  sessionIdentity : NilMap Text Text := .make
  roles : NilMap Text Role := .make
  bindings : NilMap Text Slice := .make
  enabledRulesets : NilMap Text Bool := .make
  redisPrimary : Text := []
  revoked : NilMap Text ℤ := .make

namespace FSM

/-- `NewFSM`. -/
def newFSM : FSM := {}

/-- The result of a command that has nothing to report. -/
def done : ApplyResult := { ok := true }

section Commands

variable (f : FSM)

/-- `OpClaimSession`. There is no state afterwards if a write panics. -/
def claimSession (clientID nodeID identity : Text) : Option (FSM × ApplyResult) := do
  let evicted := match f.sessions.get clientID with
    | some owner => if owner ≠ nodeID then owner else []
    | none => []
  let sessions ← f.sessions.put clientID nodeID
  let sessionIdentity ←
    if identity ≠ [] then f.sessionIdentity.put clientID identity
    else some (f.sessionIdentity.delete clientID)
  some ({ f with sessions := sessions, sessionIdentity := sessionIdentity },
    { ok := true, evictedNode := evicted })

/-- `OpReleaseSession`. -/
def releaseSession (clientID nodeID : Text) : FSM :=
  if f.sessions.get clientID = some nodeID then
    { f with
      sessions := f.sessions.delete clientID
      sessionIdentity := f.sessionIdentity.delete clientID }
  else f

/-- `OpCreateRole`. -/
def createRole (roleName : Text) (rules : List ACLRule) : Option FSM := do
  let roles ← f.roles.put roleName ⟨roleName, rules⟩
  some { f with roles := roles }

/-- A role is filtered out of the slice of a principal, which goes with its last role. Both
deletions do this. -/
def detach (roleName principal : Text) (roleNames : Slice) : Option FSM :=
  let (heap, kept) := f.heap.retain (fun rn => rn ≠ roleName) roleNames
  if kept.length = 0 then some { f with heap := heap, bindings := f.bindings.delete principal }
  else do
    let bindings ← f.bindings.put principal kept
    some { f with heap := heap, bindings := bindings }

/-- `OpDeleteRole`: the role, and then all bindings to it. -/
def deleteRole (roleName : Text) (order : List ℕ) : Option FSM :=
  (f.bindings.rows order).foldlM (fun f row => f.detach roleName row.1 row.2)
    { f with roles := f.roles.delete roleName }

/-- `OpCreateBinding`. -/
def createBinding (principal roleName : Text) (free : List Text) : Option FSM :=
  let existing := (f.bindings.get principal).getD {}
  if roleName ∈ f.heap.read existing then some f
  else do
    let (heap, roleNames) := f.heap.append existing roleName free
    let bindings ← f.bindings.put principal roleNames
    some { f with heap := heap, bindings := bindings }

/-- `OpDeleteBinding`. -/
def deleteBinding (principal roleName : Text) : Option FSM :=
  f.detach roleName principal ((f.bindings.get principal).getD {})

/-- `OpEnableRuleset`. -/
def enableRuleset (rulesetName : Text) : Option FSM := do
  let enabledRulesets ← f.enabledRulesets.put rulesetName true
  some { f with enabledRulesets := enabledRulesets }

/-- `OpRevokeCertificate`. -/
def revokeCertificate (identity : Text) (now : ℤ) : Option FSM := do
  let revoked ← f.revoked.put identity now
  some { f with revoked := revoked }

/-- The switch of `Apply`. -/
def applyCommand (cmd : Command) (env : Env) : Option (FSM × ApplyResult) :=
  match cmd.op with
  | .claimSession => f.claimSession cmd.clientID cmd.nodeID cmd.identity
  | .releaseSession => some (f.releaseSession cmd.clientID cmd.nodeID, done)
  | .createRole => (f.createRole cmd.roleName cmd.rules).map (·, done)
  | .deleteRole => (f.deleteRole cmd.roleName env.order).map (·, done)
  | .createBinding => (f.createBinding cmd.principal cmd.roleName env.free).map (·, done)
  | .deleteBinding => (f.deleteBinding cmd.principal cmd.roleName).map (·, done)
  | .enableRuleset => (f.enableRuleset cmd.rulesetName).map (·, done)
  | .disableRuleset =>
    some ({ f with enabledRulesets := f.enabledRulesets.delete cmd.rulesetName }, done)
  | .setRedisPrimary => some ({ f with redisPrimary := cmd.nodeID }, done)
  | .revokeCertificate => (f.revokeCertificate cmd.identity env.now).map (·, done)
  | .unknown text => some (f, { err := some (.unknownOp text) })

/-- `Apply` of a log entry; `unmarshal` is `json.Unmarshal` into a command. -/
def apply (unmarshal : List UInt8 → Except Text Command) (data : List UInt8) (env : Env) :
    Option (FSM × ApplyResult) :=
  match unmarshal data with
  | .error err => some (f, { err := some (.unmarshal err) })
  | .ok cmd => f.applyCommand cmd env

end Commands

/-- The commands of a list one after the other, each with its environment: the state afterwards and
the results. -/
def execCommands : FSM → List (Command × Env) → Option (FSM × List ApplyResult) :=
  exec fun f e => f.applyCommand e.1 e.2

end FSM

/-! ### The replicated state -/

/-- The content of the replicated state. -/
@[ext]
structure Store where
  sessions : Text → Option Text := fun _ => none
  sessionIdentity : Text → Option Text := fun _ => none
  roles : Text → Option Role := fun _ => none
  bindings : Text → Option (List Text) := fun _ => none
  enabledRulesets : Text → Option Bool := fun _ => none
  redisPrimary : Text := []
  revoked : Text → Option ℤ := fun _ => none

namespace Store

/-- A list of role names without a role; an empty list is dropped. -/
def without (roleName : Text) (roleNames : List Text) : Option (List Text) :=
  let kept := roleNames.filter fun rn => rn ≠ roleName
  if kept = [] then none else some kept

variable (s : Store)

/-- The state with other bindings. -/
def withBindings (bindings : Text → Option (List Text)) : Store := { s with bindings := bindings }

/-- The node that a claim displaces, the empty text if there is none. -/
def evictedNode (clientID nodeID : Text) : Text :=
  match s.sessions clientID with
  | some owner => if owner ≠ nodeID then owner else []
  | none => []

/-- A command at a time: the state afterwards and the result. -/
def applyCommand (cmd : FSM.Command) (now : ℤ) : Store × ApplyResult :=
  match cmd.op with
  | .claimSession =>
    ({ s with
        sessions := Function.update s.sessions cmd.clientID (some cmd.nodeID)
        sessionIdentity := Function.update s.sessionIdentity cmd.clientID
          (if cmd.identity ≠ [] then some cmd.identity else none) },
      { ok := true, evictedNode := s.evictedNode cmd.clientID cmd.nodeID })
  | .releaseSession =>
    (if s.sessions cmd.clientID = some cmd.nodeID then
        { s with
          sessions := Function.update s.sessions cmd.clientID none
          sessionIdentity := Function.update s.sessionIdentity cmd.clientID none }
      else s, done)
  | .createRole =>
    ({ s with
        roles := Function.update s.roles cmd.roleName (some ⟨cmd.roleName, cmd.rules⟩) }, done)
  | .deleteRole =>
    ({ s with roles := Function.update s.roles cmd.roleName none }.withBindings
      fun principal => (s.bindings principal).bind (without cmd.roleName), done)
  | .createBinding =>
    let existing := (s.bindings cmd.principal).getD []
    (if cmd.roleName ∈ existing then s
      else s.withBindings
        (Function.update s.bindings cmd.principal (some (existing ++ [cmd.roleName]))), done)
  | .deleteBinding =>
    (s.withBindings (Function.update s.bindings cmd.principal
      ((s.bindings cmd.principal).bind (without cmd.roleName))), done)
  | .enableRuleset =>
    ({ s with
        enabledRulesets := Function.update s.enabledRulesets cmd.rulesetName (some true) }, done)
  | .disableRuleset =>
    ({ s with enabledRulesets := Function.update s.enabledRulesets cmd.rulesetName none }, done)
  | .setRedisPrimary => ({ s with redisPrimary := cmd.nodeID }, done)
  | .revokeCertificate =>
    ({ s with revoked := Function.update s.revoked cmd.identity (some now) }, done)
  | .unknown text => (s, { err := some (.unknownOp text) })

/-- One command of a log. -/
def applyTimed (s : Store) (e : FSM.Command × ℤ) : Store × ApplyResult := s.applyCommand e.1 e.2

/-- The state after one command of a log. -/
def step (s : Store) (e : FSM.Command × ℤ) : Store := (s.applyTimed e).1

/-- The state after a log. -/
def ofLog (log : List (FSM.Command × ℤ)) : Store := run step {} log

/-- The results of the commands of a log. -/
def results (s : Store) (log : List (FSM.Command × ℤ)) : List ApplyResult :=
  answers applyTimed s log

end Store

/-! ### The content of an FSM -/

namespace FSM

/-- Which maps of an FSM are nil. -/
structure Nils where
  sessions : Bool := false
  sessionIdentity : Bool := false
  roles : Bool := false
  bindings : Bool := false
  enabledRulesets : Bool := false
  revoked : Bool := false
  deriving DecidableEq

/-- The command writes to none of the nil maps. -/
def Command.ready (cmd : Command) (n : Nils) : Bool :=
  match cmd.op with
  | .claimSession => !n.sessions && (cmd.identity = [] || !n.sessionIdentity)
  | .createRole => !n.roles
  | .createBinding => !n.bindings
  | .enableRuleset => !n.enabledRulesets
  | .revokeCertificate => !n.revoked
  | _ => true

section Content

variable (f : FSM)

/-- The content of an FSM. -/
def store : Store where
  sessions := f.sessions.get
  sessionIdentity := f.sessionIdentity.get
  roles := f.roles.get
  bindings := f.heap.contents f.bindings.get
  enabledRulesets := f.enabledRulesets.get
  redisPrimary := f.redisPrimary
  revoked := f.revoked.get

/-- Which of its maps are nil. -/
def nils : Nils where
  sessions := f.sessions.isNil
  sessionIdentity := f.sessionIdentity.isNil
  roles := f.roles.isNil
  bindings := f.bindings.isNil
  enabledRulesets := f.enabledRulesets.isNil
  revoked := f.revoked.isNil

/-- The principals share no array, and none of their arrays is reserved. -/
def Sound (reserved : Set ℕ) : Prop := Owns reserved f.heap f.bindings.get

end Content

/-- The FSM `f` has become `f'`, with the content `s`, and the reserved arrays are as they were. -/
structure Becomes (reserved : Set ℕ) (f f' : FSM) (s : Store) : Prop where
  sound : f'.Sound reserved
  store : f'.store = s
  nils : f'.nils = f.nils
  frame : ∀ a ∈ reserved, f'.heap.arrays a = f.heap.arrays a

theorem store_bindings (f : FSM) (principal : Text) :
    f.store.bindings principal = (f.bindings.get principal).map f.heap.read := rfl

theorem sound_newFSM : newFSM.Sound ∅ where
  valid := fun _ _ h => Option.noConfusion rfl (heq_of_eq h)
  apart := fun _ _ _ _ _ h => Option.noConfusion rfl (heq_of_eq h)
  avoids := fun _ _ _ _ _ => id
  allocated := fun _ => False.elim

variable {reserved : Set ℕ} {f f' f'' : FSM} {s s' : Store}

theorem Becomes.trans (h : Becomes reserved f f' s) (h' : Becomes reserved f' f'' s') :
    Becomes reserved f f'' s' :=
  ⟨h'.sound, h'.store, h'.nils.trans h.nils, fun a ha => (h'.frame a ha).trans (h.frame a ha)⟩

theorem Becomes.congr (h : Becomes reserved f f' s) (hs : s = s') : Becomes reserved f f' s' :=
  hs ▸ h

theorem Sound.refl (hf : f.Sound reserved) : Becomes reserved f f f.store :=
  ⟨hf, rfl, rfl, fun _ _ => rfl⟩

private theorem Sound.becomes (hf : f.Sound reserved) (hheap : f'.heap = f.heap)
    (hbindings : f'.bindings = f.bindings) (hstore : f'.store = s) (hnils : f'.nils = f.nils) :
    Becomes reserved f f' s :=
  ⟨by rw [Sound, hheap, hbindings]; exact hf, hstore, hnils, fun a _ => by rw [hheap]⟩

/-! ### Sessions, roles, rulesets and revocations -/

private theorem exists_claimSession (hf : f.Sound reserved) {clientID nodeID identity : Text}
    (hsessions : f.sessions.isNil = false)
    (hidentity : identity ≠ [] → f.sessionIdentity.isNil = false) :
    ∃ f', f.claimSession clientID nodeID identity =
        some (f', { ok := true, evictedNode := f.store.evictedNode clientID nodeID }) ∧
      Becomes reserved f f' { f.store with
        sessions := Function.update f.store.sessions clientID (some nodeID)
        sessionIdentity := Function.update f.store.sessionIdentity clientID
          (if identity ≠ [] then some identity else none) } := by
  obtain ⟨sessions, hput, hget, hnil⟩ := NilMap.put_eq_some hsessions clientID nodeID
  by_cases hempty : identity ≠ []
  · obtain ⟨ids, hputID, hgetID, hnilID⟩ :=
      NilMap.put_eq_some (hidentity hempty) clientID identity
    refine ⟨{ f with sessions := sessions, sessionIdentity := ids }, ?_, ?_⟩
    · simp only [claimSession, hput, if_pos hempty, hputID]
      rfl
    · refine hf.becomes rfl rfl ?_ ?_
      · simp only [store, hget, hgetID, if_pos hempty]
      · simp only [nils, hnil, hnilID, hsessions, hidentity hempty]
  · refine ⟨{ f with sessions := sessions, sessionIdentity := f.sessionIdentity.delete clientID },
      ?_, ?_⟩
    · simp only [claimSession, hput, if_neg hempty]
      rfl
    · refine hf.becomes rfl rfl ?_ ?_
      · simp only [store, hget, NilMap.get_delete, if_neg hempty]
      · simp only [nils, hnil, hsessions, NilMap.isNil_delete]

private theorem becomes_releaseSession (hf : f.Sound reserved) (clientID nodeID : Text) :
    Becomes reserved f (f.releaseSession clientID nodeID)
      (if f.store.sessions clientID = some nodeID then
        { f.store with
          sessions := Function.update f.store.sessions clientID none
          sessionIdentity := Function.update f.store.sessionIdentity clientID none }
      else f.store) := by
  by_cases howner : f.store.sessions clientID = some nodeID
  · have hrelease : f.releaseSession clientID nodeID = { f with
        sessions := f.sessions.delete clientID
        sessionIdentity := f.sessionIdentity.delete clientID } := if_pos howner
    rw [hrelease, if_pos howner]
    refine hf.becomes rfl rfl ?_ ?_
    · simp only [store, NilMap.get_delete]
    · simp only [nils, NilMap.isNil_delete]
  · have hrelease : f.releaseSession clientID nodeID = f := if_neg howner
    rw [hrelease, if_neg howner]
    exact hf.refl

private theorem exists_createRole (hf : f.Sound reserved) (hroles : f.roles.isNil = false)
    (roleName : Text) (rules : List ACLRule) :
    ∃ f', f.createRole roleName rules = some f' ∧
      Becomes reserved f f' { f.store with
        roles := Function.update f.store.roles roleName (some ⟨roleName, rules⟩) } := by
  obtain ⟨roles, hput, hget, hnil⟩ := NilMap.put_eq_some hroles roleName ⟨roleName, rules⟩
  refine ⟨{ f with roles := roles }, by simp [createRole, hput], hf.becomes rfl rfl ?_ ?_⟩
  · simp only [store, hget]
  · simp only [nils, hnil, hroles]

private theorem exists_enableRuleset (hf : f.Sound reserved)
    (henabled : f.enabledRulesets.isNil = false) (rulesetName : Text) :
    ∃ f', f.enableRuleset rulesetName = some f' ∧
      Becomes reserved f f' { f.store with
        enabledRulesets := Function.update f.store.enabledRulesets rulesetName (some true) } := by
  obtain ⟨enabled, hput, hget, hnil⟩ := NilMap.put_eq_some henabled rulesetName true
  refine ⟨{ f with enabledRulesets := enabled }, by simp [enableRuleset, hput],
    hf.becomes rfl rfl ?_ ?_⟩
  · simp only [store, hget]
  · simp only [nils, hnil, henabled]

private theorem exists_revokeCertificate (hf : f.Sound reserved)
    (hrevoked : f.revoked.isNil = false) (identity : Text) (now : ℤ) :
    ∃ f', f.revokeCertificate identity now = some f' ∧
      Becomes reserved f f' { f.store with
        revoked := Function.update f.store.revoked identity (some now) } := by
  obtain ⟨revoked, hput, hget, hnil⟩ := NilMap.put_eq_some hrevoked identity now
  refine ⟨{ f with revoked := revoked }, by simp [revokeCertificate, hput],
    hf.becomes rfl rfl ?_ ?_⟩
  · simp only [store, hget]
  · simp only [nils, hnil, hrevoked]

/-! ### Bindings -/

private theorem isNil_bindings {principal : Text} {roleNames : Slice}
    (h : f.bindings.get principal = some roleNames) : f.bindings.isNil = false := by
  cases hnil : f.bindings.isNil with
  | false => rfl
  | true =>
    rw [NilMap.get_of_isNil hnil] at h
    cases h

theorem exists_detach (roleName : Text) (hf : f.Sound reserved) {principal : Text}
    {roleNames : Slice} (hslice : f.bindings.get principal = some roleNames) :
    ∃ f' kept, f.detach roleName principal roleNames = some f' ∧
      f'.bindings.get = Function.update f.bindings.get principal kept ∧
      Becomes reserved f f' (f.store.withBindings
        (Function.update f.store.bindings principal
          (Store.without roleName (f.heap.read roleNames)))) := by
  have hretain := hf.retain hslice fun rn => decide (rn ≠ roleName)
  generalize hresult : f.heap.retain (fun rn => decide (rn ≠ roleName)) roleNames = result
    at hretain
  obtain ⟨heap, kept⟩ := result
  have hread :
      heap.read kept = (f.heap.read roleNames).filter fun rn => decide (rn ≠ roleName) := by
    have hcontents := congrFun hretain.contents principal
    rw [Heap.contents, Function.update_self, Function.update_self] at hcontents
    exact Option.some.inj hcontents
  have hvalid : heap.Valid kept := hretain.owns.valid principal kept (Function.update_self _ _ _)
  have hnotNil := isNil_bindings hslice
  by_cases hzero : kept.length = 0
  · have hempty : (f.heap.read roleNames).filter (fun rn => decide (rn ≠ roleName)) = [] := by
      rw [← hread]
      exact (length_eq_zero_iff hvalid).1 hzero
    have herase := hretain.owns.erase principal
    rw [hretain.contents, Function.update_idem, Function.update_idem] at herase
    refine ⟨{ f with heap := heap, bindings := f.bindings.delete principal }, none, ?_,
      NilMap.get_delete _ _, ?_, ?_, ?_, ?_⟩
    · simp only [detach, hresult, hzero, if_true]
    · simp only [Sound, NilMap.get_delete]
      exact herase.owns
    · simp only [store, Store.withBindings, NilMap.get_delete, herase.contents, Store.without,
        hempty, if_true]
    · simp only [nils, NilMap.isNil_delete]
    · exact hretain.frame
  · have hkept : (f.heap.read roleNames).filter (fun rn => decide (rn ≠ roleName)) ≠ [] := by
      rw [← hread]
      exact fun hnil => hzero ((length_eq_zero_iff hvalid).2 hnil)
    obtain ⟨bindings, hput, hget, hnil⟩ := NilMap.put_eq_some hnotNil principal kept
    refine ⟨{ f with heap := heap, bindings := bindings }, some kept, ?_, hget, ?_, ?_, ?_, ?_⟩
    · simp only [detach, hresult, hzero, if_false, hput, Option.bind_eq_bind, Option.bind_some]
    · simp only [Sound, hget]
      exact hretain.owns
    · simp only [store, Store.withBindings, hget, hretain.contents, Store.without, if_neg hkept]
    · simp only [nils, hnil, hnotNil]
    · exact hretain.frame

private theorem exists_foldlM_detach (roleName : Text) (rows : List (Sigma fun _ : Text => Slice))
    (hkeys : rows.NodupKeys) (hf : f.Sound reserved)
    (hrows : ∀ row ∈ rows, f.bindings.get row.1 = some row.2) :
    ∃ f', rows.foldlM (fun f row => f.detach roleName row.1 row.2) f = some f' ∧
      Becomes reserved f f' (f.store.withBindings fun principal =>
        if principal ∈ rows.keys then (f.store.bindings principal).bind (Store.without roleName)
        else f.store.bindings principal) := by
  induction rows generalizing f with
  | nil => exact ⟨f, rfl, hf.refl⟩
  | cons row rows ih =>
    obtain ⟨hnotMem, hrest⟩ := List.nodupKeys_cons.1 hkeys
    have hslice := hrows row List.mem_cons_self
    obtain ⟨f₁, kept, hdetach, hget, hfirst⟩ := exists_detach roleName hf hslice
    -- The other principals still have the slices that the loop is going to meet.
    have hrows₁ : ∀ row' ∈ rows, f₁.bindings.get row'.1 = some row'.2 := by
      intro row' hrow'
      have hne : row'.1 ≠ row.1 := fun heq => hnotMem (heq ▸ List.mem_keys_of_mem hrow')
      rw [hget, Function.update_of_ne hne]
      exact hrows row' (List.mem_cons_of_mem _ hrow')
    obtain ⟨f', hloop, hthen⟩ := ih hrest hfirst.sound hrows₁
    refine ⟨f', ?_, ?_⟩
    · rw [List.foldlM_cons, hdetach]
      exact hloop
    · have htrans := hfirst.trans hthen
      rw [hfirst.store] at htrans
      refine htrans.congr (congrArg f.store.withBindings (funext fun principal => ?_))
      simp only [Store.withBindings]
      by_cases hp : principal = row.1
      · have hcontent : f.store.bindings row.1 = some (f.heap.read row.2) := by
          rw [store_bindings, hslice, Option.map_some]
        rw [hp, if_neg hnotMem, if_pos (by simp), Function.update_self, hcontent, Option.bind_some]
      · rw [Function.update_of_ne hp]
        simp [hp]

private theorem exists_deleteRole (hf : f.Sound reserved) (roleName : Text) (order : List ℕ) :
    ∃ f', f.deleteRole roleName order = some f' ∧
      Becomes reserved f f'
        ({ f.store with roles := Function.update f.store.roles roleName none }.withBindings
          fun principal => (f.store.bindings principal).bind (Store.without roleName)) := by
  have hroles : Becomes reserved f { f with roles := f.roles.delete roleName }
      { f.store with roles := Function.update f.store.roles roleName none } := by
    refine hf.becomes rfl rfl ?_ ?_
    · simp only [store, NilMap.get_delete]
    · simp only [nils, NilMap.isNil_delete]
  obtain ⟨f', hloop, hbindings⟩ := exists_foldlM_detach roleName (f.bindings.rows order)
    (f.bindings.nodupKeys_rows order) hroles.sound fun row hrow => NilMap.mem_rows.1 hrow
  refine ⟨f', hloop, ?_⟩
  have htrans := hroles.trans hbindings
  rw [hroles.store] at htrans
  refine htrans.congr (congrArg (Store.withBindings _) (funext fun principal => ?_))
  by_cases hp : principal ∈ (f.bindings.rows order).keys
  · rw [if_pos hp]
  · -- A principal that the loop does not meet has no binding at all.
    have hnone : f.store.bindings principal = none := by
      rw [store_bindings, Option.map_eq_none_iff, Option.eq_none_iff_forall_ne_some]
      exact fun slice hslice => hp (List.mem_keys_of_mem (NilMap.mem_rows.2 hslice))
    rw [if_neg hp, hnone]
    rfl

private theorem exists_deleteBinding (hf : f.Sound reserved) (principal roleName : Text) :
    ∃ f', f.deleteBinding principal roleName = some f' ∧
      Becomes reserved f f' (f.store.withBindings
        (Function.update f.store.bindings principal
          ((f.store.bindings principal).bind (Store.without roleName)))) := by
  cases hslice : f.bindings.get principal with
  | some roleNames =>
    obtain ⟨f', -, hdetach, -, hbecomes⟩ := exists_detach roleName hf hslice
    have hcontent : f.store.bindings principal = some (f.heap.read roleNames) := by
      rw [store_bindings, hslice, Option.map_some]
    rw [hcontent]
    exact ⟨f', by rw [deleteBinding, hslice]; exact hdetach, hbecomes⟩
  | none =>
    have hcontent : f.store.bindings principal = none := by
      rw [store_bindings, hslice, Option.map_none]
    have hget : (f.bindings.delete principal).get = f.bindings.get := by
      rw [NilMap.get_delete]
      exact Function.update_eq_self_iff.2 hslice.symm
    have hself : Function.update f.store.bindings principal none = f.store.bindings :=
      Function.update_eq_self_iff.2 hcontent.symm
    refine ⟨{ f with bindings := f.bindings.delete principal }, ?_, ?_, ?_, ?_, fun _ _ => rfl⟩
    · rw [deleteBinding, hslice]
      rfl
    · simp only [Sound, hget]
      exact hf
    · rw [hcontent, Option.bind_none, hself]
      simp only [store, Store.withBindings, hget]
    · simp only [nils, NilMap.isNil_delete]

private theorem exists_createBinding (hf : f.Sound reserved) (hbindings : f.bindings.isNil = false)
    (principal roleName : Text) (free : List Text) :
    ∃ f', f.createBinding principal roleName free = some f' ∧
      Becomes reserved f f'
        (if roleName ∈ (f.store.bindings principal).getD [] then f.store
        else f.store.withBindings (Function.update f.store.bindings principal
          (some ((f.store.bindings principal).getD [] ++ [roleName])))) := by
  have hread : f.heap.read ((f.bindings.get principal).getD {}) =
      (f.store.bindings principal).getD [] := by
    rw [store_bindings]
    cases f.bindings.get principal with
    | none => exact read_of_array_eq_none rfl
    | some roleNames => rfl
  by_cases hbound : roleName ∈ (f.store.bindings principal).getD []
  · rw [if_pos hbound]
    exact ⟨f, by rw [createBinding]; simp only [hread, if_pos hbound], hf.refl⟩
  · have happend := hf.append (i := principal) rfl roleName free
    rw [hread] at happend
    obtain ⟨bindings, hput, hget, hnil⟩ := NilMap.put_eq_some hbindings principal
      (f.heap.append ((f.bindings.get principal).getD {}) roleName free).2
    rw [if_neg hbound]
    refine ⟨{ f with
      heap := (f.heap.append ((f.bindings.get principal).getD {}) roleName free).1
      bindings := bindings }, ?_, ?_, ?_, ?_, happend.frame⟩
    · simp only [createBinding, hread, if_neg hbound, hput, Option.bind_eq_bind, Option.bind_some]
    · simp only [Sound, hget]
      exact happend.owns
    · simp only [store, Store.withBindings, hget, happend.contents]
    · simp only [nils, hnil, hbindings]

/-! ### Any command -/

theorem exists_applyCommand (hf : f.Sound reserved) {cmd : Command}
    (hready : cmd.ready f.nils = true) (env : Env) :
    ∃ f', f.applyCommand cmd env = some (f', (f.store.applyCommand cmd env.now).2) ∧
      Becomes reserved f f' (f.store.applyCommand cmd env.now).1 := by
  obtain ⟨op, nodeID, clientID, roleName, rules, principal, rulesetName, identity⟩ := cmd
  -- The commands that report nothing but success.
  have hdone {o : Option FSM} {s : Store} (h : ∃ f', o = some f' ∧ Becomes reserved f f' s) :
      ∃ f', o.map (·, done) = some (f', done) ∧ Becomes reserved f f' s := by
    obtain ⟨f', rfl, hbecomes⟩ := h
    exact ⟨f', rfl, hbecomes⟩
  cases op with
  | claimSession =>
    simp only [Command.ready, Bool.and_eq_true, Bool.not_eq_true', Bool.or_eq_true,
      decide_eq_true_eq] at hready
    exact exists_claimSession hf hready.1 fun hne => hready.2.resolve_left hne
  | releaseSession => exact ⟨_, rfl, becomes_releaseSession hf clientID nodeID⟩
  | createRole =>
    exact hdone (exists_createRole hf (by simpa [Command.ready, nils] using hready) roleName rules)
  | deleteRole => exact hdone (exists_deleteRole hf roleName env.order)
  | createBinding =>
    exact hdone (exists_createBinding hf (by simpa [Command.ready, nils] using hready) principal
      roleName env.free)
  | deleteBinding => exact hdone (exists_deleteBinding hf principal roleName)
  | enableRuleset =>
    exact hdone (exists_enableRuleset hf (by simpa [Command.ready, nils] using hready) rulesetName)
  | disableRuleset =>
    refine ⟨_, rfl, hf.becomes rfl rfl ?_ ?_⟩
    · simp only [store, NilMap.get_delete, Store.applyCommand]
    · simp only [nils, NilMap.isNil_delete]
  | setRedisPrimary => exact ⟨_, rfl, hf.becomes rfl rfl rfl rfl⟩
  | revokeCertificate =>
    exact hdone (exists_revokeCertificate hf (by simpa [Command.ready, nils] using hready) identity
      env.now)
  | unknown text => exact ⟨f, rfl, hf.refl⟩

/-- A command that writes to a nil map panics. -/
theorem applyCommand_eq_none {cmd : Command} (hready : cmd.ready f.nils = false) (env : Env) :
    f.applyCommand cmd env = none := by
  obtain ⟨op, nodeID, clientID, roleName, rules, principal, rulesetName, identity⟩ := cmd
  cases op with
  | claimSession =>
    simp only [Command.ready, Bool.and_eq_false_iff, Bool.not_eq_false', Bool.or_eq_false_iff,
      decide_eq_false_iff_not] at hready
    by_cases hsessions : f.sessions.isNil = true
    · simp [applyCommand, claimSession, NilMap.put_eq_none hsessions]
    · obtain ⟨hne, hidentity⟩ := hready.resolve_left hsessions
      simp [applyCommand, claimSession, hne, NilMap.put_eq_none hidentity]
  | createRole =>
    have hnil : f.roles.isNil = true := by simpa [Command.ready, nils] using hready
    simp [applyCommand, createRole, NilMap.put_eq_none hnil]
  | createBinding =>
    have hnil : f.bindings.isNil = true := by simpa [Command.ready, nils] using hready
    have hget : f.bindings.get principal = none := by rw [NilMap.get_of_isNil hnil]
    simp [applyCommand, createBinding, hget, read_of_array_eq_none, NilMap.put_eq_none hnil]
  | enableRuleset =>
    have hnil : f.enabledRulesets.isNil = true := by simpa [Command.ready, nils] using hready
    simp [applyCommand, enableRuleset, NilMap.put_eq_none hnil]
  | revokeCertificate =>
    have hnil : f.revoked.isNil = true := by simpa [Command.ready, nils] using hready
    simp [applyCommand, revokeCertificate, NilMap.put_eq_none hnil]
  | releaseSession | deleteRole | deleteBinding | disableRuleset | setRedisPrimary | unknown _ =>
    cases hready

/-! ### Runs -/

/-- What an environment contributes to the content: the time. -/
def timed (e : Command × Env) : Command × ℤ := (e.1, e.2.now)

private theorem Becomes.step (f' : FSM) (s : Store) (e : Command × Env)
    (hready : e.1.ready f.nils = true) (h : Becomes reserved f f' s) :
    ∃ f'', f'.applyCommand e.1 e.2 = some (f'', (s.applyTimed (timed e)).2) ∧
      Becomes reserved f f'' (s.applyTimed (timed e)).1 := by
  rw [← h.nils] at hready
  obtain ⟨f'', hstep, hbecomes⟩ := exists_applyCommand h.sound hready e.2
  rw [h.store] at hstep hbecomes
  exact ⟨f'', hstep, h.trans hbecomes⟩

theorem exists_exec (hf : f.Sound reserved) {es : List (Command × Env)}
    (hready : ∀ e ∈ es, e.1.ready f.nils = true) :
    ∃ f', f.execCommands es = some (f', f.store.results (es.map timed)) ∧
      Becomes reserved f f' (run Store.step f.store (es.map timed)) :=
  exec_of_refinement Store.applyTimed timed Becomes.step hf.refl hready

theorem execCommands_eq_none (hf : f.Sound reserved) {es : List (Command × Env)}
    (hready : ∃ e ∈ es, e.1.ready f.nils = false) : f.execCommands es = none := by
  refine exec_eq_none Store.applyTimed timed Becomes.step (fun f' s e hnot h => ?_) hf.refl ?_
  · refine applyCommand_eq_none ?_ e.2
    rw [h.nils]
    exact Bool.eq_false_of_not_eq_true hnot
  · obtain ⟨e, he, hfalse⟩ := hready
    exact ⟨e, he, by simp [hfalse]⟩

theorem ready_of_nils_eq {cmd : Command} (h : f.nils = {}) : cmd.ready f.nils = true := by
  obtain ⟨op, -⟩ := cmd
  rw [h]
  cases op <;> simp [Command.ready]

theorem exists_exec_newFSM (es : List (Command × Env)) :
    ∃ f, newFSM.execCommands es = some (f, Store.results {} (es.map timed)) ∧
      Becomes ∅ newFSM f (Store.ofLog (es.map timed)) :=
  exists_exec sound_newFSM fun _ _ => ready_of_nils_eq rfl

end FSM

end KeelGateway.Raft

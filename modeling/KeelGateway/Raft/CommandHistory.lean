import KeelGateway.Raft.FSMReads
import KeelGateway.Raft.Sessions

/-!
# The history behind a state

What the maps of the state machine hold after a log is a matter of which commands are in the log and
which of them came last. A session belongs to the last claimant until that node releases it. A role
is granted by a binding that neither its own deletion nor the deletion of the role has followed.
Each part of the state has a lemma that says what one command does to it, and
`StepMachine.run_iff_since` turns it into a statement about the whole log.

-/

namespace KeelGateway.Raft

open Acl StepMachine FSM

/-! ### What a command is about -/

namespace FSM.Command

variable (cmd : Command)

/-- The command claims the session of a client. -/
def Claims (clientID : Text) : Prop := cmd.op = .claimSession ∧ cmd.clientID = clientID

/-- The command claims the session of a client for a node. -/
def ClaimsFor (clientID nodeID : Text) : Prop := cmd.Claims clientID ∧ cmd.nodeID = nodeID

/-- The command releases the session of a client for a node. -/
def Releases (clientID nodeID : Text) : Prop :=
  cmd.op = .releaseSession ∧ cmd.clientID = clientID ∧ cmd.nodeID = nodeID

/-- The command creates a role, whatever its rules. -/
def CreatesRole (roleName : Text) : Prop := cmd.op = .createRole ∧ cmd.roleName = roleName

/-- The command deletes a role. -/
def DeletesRole (roleName : Text) : Prop := cmd.op = .deleteRole ∧ cmd.roleName = roleName

/-- The command binds a role to a principal. -/
def CreatesBinding (principal roleName : Text) : Prop :=
  cmd.op = .createBinding ∧ cmd.principal = principal ∧ cmd.roleName = roleName

/-- The command takes a role from a principal. -/
def DeletesBinding (principal roleName : Text) : Prop :=
  cmd.op = .deleteBinding ∧ cmd.principal = principal ∧ cmd.roleName = roleName

/-- The command enables a ruleset. -/
def Enables (rulesetName : Text) : Prop := cmd.op = .enableRuleset ∧ cmd.rulesetName = rulesetName

/-- The command disables a ruleset. -/
def Disables (rulesetName : Text) : Prop := cmd.op = .disableRuleset ∧ cmd.rulesetName = rulesetName

/-- The command revokes the certificate of an identity. -/
def Revokes (identity : Text) : Prop := cmd.op = .revokeCertificate ∧ cmd.identity = identity

end FSM.Command

/-! ### One command -/

namespace Store

section Step

variable (s : Store) (e : FSM.Command × ℤ)

theorem step_eq : s.step e =
    { sessions := match e.1.op with
        | .claimSession => Function.update s.sessions e.1.clientID (some e.1.nodeID)
        | .releaseSession =>
          if s.sessions e.1.clientID = some e.1.nodeID then
            Function.update s.sessions e.1.clientID none
          else s.sessions
        | _ => s.sessions
      sessionIdentity := match e.1.op with
        | .claimSession => Function.update s.sessionIdentity e.1.clientID
            (if e.1.identity ≠ [] then some e.1.identity else none)
        | .releaseSession =>
          if s.sessions e.1.clientID = some e.1.nodeID then
            Function.update s.sessionIdentity e.1.clientID none
          else s.sessionIdentity
        | _ => s.sessionIdentity
      roles := match e.1.op with
        | .createRole => Function.update s.roles e.1.roleName (some ⟨e.1.roleName, e.1.rules⟩)
        | .deleteRole => Function.update s.roles e.1.roleName none
        | _ => s.roles
      bindings := match e.1.op with
        | .deleteRole => fun principal => (s.bindings principal).bind (without e.1.roleName)
        | .createBinding =>
          if e.1.roleName ∈ (s.bindings e.1.principal).getD [] then s.bindings
          else Function.update s.bindings e.1.principal
            (some ((s.bindings e.1.principal).getD [] ++ [e.1.roleName]))
        | .deleteBinding => Function.update s.bindings e.1.principal
            ((s.bindings e.1.principal).bind (without e.1.roleName))
        | _ => s.bindings
      enabledRulesets := match e.1.op with
        | .enableRuleset => Function.update s.enabledRulesets e.1.rulesetName (some true)
        | .disableRuleset => Function.update s.enabledRulesets e.1.rulesetName none
        | _ => s.enabledRulesets
      redisPrimary := match e.1.op with
        | .setRedisPrimary => e.1.nodeID
        | _ => s.redisPrimary
      revoked := match e.1.op with
        | .revokeCertificate => Function.update s.revoked e.1.identity (some e.2)
        | _ => s.revoked } := by
  rw [step, applyTimed, applyCommand]
  cases e.1.op with
  | releaseSession | createBinding =>
    dsimp only
    split_ifs <;> rfl
  | _ => rfl

/-! ### What a command brings about and ends -/

private theorem sessions_step (clientID nodeID : Text) :
    (s.step e).sessions clientID = some nodeID ↔
      e.1.ClaimsFor clientID nodeID ∨ (s.sessions clientID = some nodeID ∧
        ¬ (e.1.Claims clientID ∨ e.1.Releases clientID nodeID)) := by
  rw [step_eq, FSM.Command.ClaimsFor, FSM.Command.Claims, FSM.Command.Releases]
  cases e.1.op with
  | claimSession | releaseSession => grind
  | _ => simp

private theorem roles_step (roleName : Text) (role : Role) :
    (s.step e).roles roleName = some role ↔
      (e.1.CreatesRole roleName ∧ (⟨e.1.roleName, e.1.rules⟩ : Role) = role) ∨
        (s.roles roleName = some role ∧
          ¬ (e.1.CreatesRole roleName ∨ e.1.DeletesRole roleName)) := by
  rw [step_eq, FSM.Command.CreatesRole, FSM.Command.DeletesRole]
  cases e.1.op with
  | createRole | deleteRole => grind
  | _ => simp

theorem mem_without {roleNames : Option (List Text)} {roleName deleted : Text} :
    roleName ∈ (roleNames.bind (without deleted)).getD [] ↔
      roleName ∈ roleNames.getD [] ∧ roleName ≠ deleted := by
  cases roleNames with
  | none => simp
  | some names =>
    have hfilter : ((some names).bind (without deleted)).getD [] =
        names.filter fun rn => rn ≠ deleted := by
      rw [Option.bind_some, without]
      split_ifs with hempty
      · exact hempty.symm
      · rfl
    rw [hfilter]
    simp

private theorem mem_bindings_step (principal roleName : Text) :
    roleName ∈ ((s.step e).bindings principal).getD [] ↔
      e.1.CreatesBinding principal roleName ∨ (roleName ∈ (s.bindings principal).getD [] ∧
        ¬ (e.1.DeletesBinding principal roleName ∨ e.1.DeletesRole roleName)) := by
  rw [step_eq, FSM.Command.CreatesBinding, FSM.Command.DeletesBinding, FSM.Command.DeletesRole]
  cases e.1.op with
  | createBinding | deleteBinding => grind [mem_without]
  | deleteRole => simp [mem_without, eq_comm]
  | _ => simp

private theorem enabledRulesets_step (rulesetName : Text) :
    (s.step e).enabledRulesets rulesetName = some true ↔
      e.1.Enables rulesetName ∨
        (s.enabledRulesets rulesetName = some true ∧ ¬ e.1.Disables rulesetName) := by
  rw [step_eq, FSM.Command.Enables, FSM.Command.Disables]
  cases e.1.op with
  | enableRuleset | disableRuleset => grind
  | _ => simp

theorem revoked_step (identity : Text) :
    (s.step e).revoked identity ≠ none ↔ s.revoked identity ≠ none ∨ e.1.Revokes identity := by
  rw [step_eq, FSM.Command.Revokes]
  cases e.1.op with
  | revokeCertificate => grind
  | _ => simp

end Step

/-! ### Invariants -/

/-- No principal has an empty list of roles or a role twice, no ruleset is mapped to false, and only
owned sessions have an identity. -/
structure Tidy (s : Store) : Prop where
  bindings : ∀ principal roleNames, s.bindings principal = some roleNames →
    roleNames.Nodup ∧ roleNames ≠ []
  enabledRulesets : ∀ rulesetName, s.enabledRulesets rulesetName ≠ some false
  sessionIdentity : ∀ clientID, s.sessions clientID = none → s.sessionIdentity clientID = none

private theorem tidy_empty : Tidy {} :=
  ⟨fun _ _ h => Option.noConfusion rfl (heq_of_eq h),
    fun _ h => Option.noConfusion rfl (heq_of_eq h),
    fun _ _ => rfl⟩

private theorem tidy_without {roleNames kept : List Text} {roleName : Text}
    (hnodup : roleNames.Nodup) (h : without roleName roleNames = some kept) :
    kept.Nodup ∧ kept ≠ [] := by
  rw [without] at h
  split_ifs at h with hempty
  obtain rfl := Option.some.inj h
  exact ⟨hnodup.filter _, hempty⟩

theorem Tidy.step {s : Store} (hs : s.Tidy) (e : FSM.Command × ℤ) : (s.step e).Tidy where
  bindings := by
    have hbindings := hs.bindings
    intro principal roleNames
    rw [step_eq]
    cases e.1.op with
    | deleteRole =>
      intro h
      obtain ⟨before, hbefore, hwithout⟩ := Option.bind_eq_some_iff.1 h
      exact tidy_without (hbindings principal before hbefore).1 hwithout
    | createBinding =>
      dsimp only
      split_ifs with hbound
      · exact hbindings principal roleNames
      · rw [Function.update_apply]
        split_ifs with hp
        · intro h
          obtain rfl := Option.some.inj h
          have hnodup : ((s.bindings e.1.principal).getD []).Nodup := by
            cases hbefore : s.bindings e.1.principal with
            | none => exact List.nodup_nil
            | some before => exact (hbindings _ before hbefore).1
          refine ⟨List.Nodup.append hnodup (List.nodup_singleton _) ?_, by simp⟩
          rwa [List.disjoint_singleton]
        · exact hbindings principal roleNames
    | deleteBinding =>
      dsimp only
      rw [Function.update_apply]
      split_ifs with hp
      · intro h
        obtain ⟨before, hbefore, hwithout⟩ := Option.bind_eq_some_iff.1 h
        exact tidy_without (hbindings _ before hbefore).1 hwithout
      · exact hbindings principal roleNames
    | _ => exact hbindings principal roleNames
  enabledRulesets := by
    have henabled := hs.enabledRulesets
    intro rulesetName
    rw [step_eq]
    cases e.1.op with
    | enableRuleset | disableRuleset => grind
    | _ => exact henabled rulesetName
  sessionIdentity := by
    have hidentity := hs.sessionIdentity
    intro clientID
    rw [step_eq]
    cases e.1.op with
    | claimSession | releaseSession => grind
    | _ => exact hidentity clientID

theorem tidy_ofLog (log : List (FSM.Command × ℤ)) : (ofLog log).Tidy :=
  run_of_step (fun _ e hs => hs.step e) tidy_empty log

/-! ### Logs -/

private theorem ofLog_concat (log : List (FSM.Command × ℤ)) (e : FSM.Command × ℤ) :
    ofLog (log ++ [e]) = (ofLog log).step e := by
  rw [ofLog, run_append, run_cons, run_nil, ofLog]

section Log

variable (log : List (FSM.Command × ℤ))

private theorem sessions_ofLog (clientID nodeID : Text) :
    (ofLog log).sessions clientID = some nodeID ↔
      Since (fun e => e.1.ClaimsFor clientID nodeID)
        (fun e => e.1.Claims clientID ∨ e.1.Releases clientID nodeID) log :=
  run_iff_since_of_not (P := fun s : Store => s.sessions clientID = some nodeID)
    (fun s e => s.sessions_step e clientID nodeID) (by simp) log

theorem sessionIdentity_ofLog (clientID identity : Text) :
    (ofLog log).sessionIdentity clientID = some identity ↔
      identity ≠ [] ∧ (∃ nodeID, (ofLog log).sessions clientID = some nodeID) ∧
        Since (fun e => e.1.Claims clientID ∧ e.1.identity = identity)
          (fun e => e.1.Claims clientID) log := by
  induction log using List.reverseRecOn with
  | nil => simp [ofLog]
  | append_singleton log e ih =>
    rw [since_concat, ofLog_concat, step_eq]
    generalize ofLog log = s at ih
    generalize Since _ _ log = claimed at ih ⊢
    rw [FSM.Command.Claims]
    cases e.1.op with
    | claimSession | releaseSession => grind
    | _ => simpa using ih

private theorem mem_bindings_ofLog (principal roleName : Text) :
    roleName ∈ ((ofLog log).bindings principal).getD [] ↔
      Since (fun e => e.1.CreatesBinding principal roleName)
        (fun e => e.1.DeletesBinding principal roleName ∨ e.1.DeletesRole roleName) log :=
  run_iff_since_of_not (P := fun s : Store => roleName ∈ (s.bindings principal).getD [])
    (fun s e => s.mem_bindings_step e principal roleName) (by simp) log

private theorem roles_ofLog (roleName : Text) (role : Role) :
    (ofLog log).roles roleName = some role ↔
      Since (fun e => e.1.CreatesRole roleName ∧ (⟨e.1.roleName, e.1.rules⟩ : Role) = role)
        (fun e => e.1.CreatesRole roleName ∨ e.1.DeletesRole roleName) log :=
  run_iff_since_of_not (P := fun s : Store => s.roles roleName = some role)
    (fun s e => s.roles_step e roleName role) (by simp) log

private theorem enabledRulesets_ofLog (rulesetName : Text) :
    (ofLog log).enabledRulesets rulesetName = some true ↔
      Since (fun e => e.1.Enables rulesetName) (fun e => e.1.Disables rulesetName) log :=
  run_iff_since_of_not (P := fun s : Store => s.enabledRulesets rulesetName = some true)
    (fun s e => s.enabledRulesets_step e rulesetName) (by simp) log

private theorem revoked_ofLog (identity : Text) :
    (ofLog log).revoked identity ≠ none ↔ ∃ e ∈ log, e.1.Revokes identity := by
  have hstep : ∀ e ∈ log, ∀ s : Store, (s.step e).revoked identity ≠ none ↔
      s.revoked identity ≠ none ∨ e.1.Revokes identity := fun e _ s => s.revoked_step e identity
  rw [ofLog, run_iff_exists (P := fun s : Store => s.revoked identity ≠ none) hstep]
  simp

end Log

/-- A revocation is never taken back. -/
theorem revoked_run {s : Store} {identity : Text} (h : s.revoked identity ≠ none)
    (log : List (FSM.Command × ℤ)) : (run step s log).revoked identity ≠ none :=
  run_of_step (I := fun s : Store => s.revoked identity ≠ none)
    (fun s e hs => (s.revoked_step e identity).2 (Or.inl hs)) h log

theorem evictedNode_of_ne {s : Store} {clientID nodeID owner : Text}
    (howner : s.sessions clientID = some owner) (hne : owner ≠ nodeID) :
    s.evictedNode clientID nodeID = owner := by
  rw [evictedNode, howner]
  exact if_pos hne

/-- And nobody otherwise. -/
theorem evictedNode_eq_nil {s : Store} {clientID nodeID : Text}
    (h : ∀ owner, s.sessions clientID = some owner → owner = nodeID) :
    s.evictedNode clientID nodeID = [] := by
  rw [evictedNode]
  cases howner : s.sessions clientID with
  | none => rfl
  | some owner => exact if_neg (not_not.2 (h owner howner))

end Store

/-! ### The state machine -/

namespace FSM

/-- The session part of an FSM. -/
def toSessions (f : FSM) : Sessions where
  sessions := f.sessions.content
  sessionIdentity := f.sessionIdentity.content

theorem claimSession_toSessions {f : FSM} (hsessions : f.sessions.isNil = false)
    (hidentity : f.sessionIdentity.isNil = false) (clientID nodeID identity : Text) :
    ∃ f', f.claimSession clientID nodeID identity =
        some (f', { ok := true
                    evictedNode := (f.toSessions.claimSession clientID nodeID identity).2 }) ∧
      f'.toSessions = (f.toSessions.claimSession clientID nodeID identity).1 := by
  obtain ⟨sessions, hs⟩ := NilMap.exists_eq_ofMap hsessions
  obtain ⟨identities, hi⟩ := NilMap.exists_eq_ofMap hidentity
  refine ⟨{ f with
    sessions := .ofMap (sessions.insert clientID nodeID)
    sessionIdentity := .ofMap
      (if identity ≠ [] then identities.insert clientID identity else identities.erase clientID) },
    ?_, ?_⟩
  · have hthere : f.toSessions.sessions = sessions := by rw [toSessions, hs, NilMap.content_ofMap]
    simp only [claimSession, hs, hi, Sessions.claimSession,
      hthere]
    by_cases hempty : identity ≠ []
    · simp only [if_pos hempty]
      rfl
    · simp only [if_neg hempty]
      rfl
  · simp only [toSessions, Sessions.claimSession, hs, hi, NilMap.content_ofMap]

/-- So is a release. -/
theorem releaseSession_toSessions {f : FSM} (hsessions : f.sessions.isNil = false)
    (hidentity : f.sessionIdentity.isNil = false) (clientID nodeID : Text) :
    (f.releaseSession clientID nodeID).toSessions =
      f.toSessions.releaseSession clientID nodeID := by
  obtain ⟨sessions, hs⟩ := NilMap.exists_eq_ofMap hsessions
  obtain ⟨identities, hi⟩ := NilMap.exists_eq_ofMap hidentity
  by_cases howner : f.sessions.get clientID = some nodeID
  · have hrelease : f.releaseSession clientID nodeID = { f with
        sessions := f.sessions.delete clientID
        sessionIdentity := f.sessionIdentity.delete clientID } := if_pos howner
    have hthere : f.toSessions.releaseSession clientID nodeID =
        { sessions := f.sessions.content.erase clientID
          sessionIdentity := f.sessionIdentity.content.erase clientID } := if_pos howner
    rw [hrelease, hthere]
    simp only [toSessions, hs, hi, NilMap.delete_ofMap, NilMap.content_ofMap]
  · have hrelease : f.releaseSession clientID nodeID = f := if_neg howner
    have hthere : f.toSessions.releaseSession clientID nodeID = f.toSessions := if_neg howner
    rw [hrelease, hthere]

theorem applyCommand_of_releases {f : FSM} {cmd : Command} {clientID nodeID : Text}
    (h : cmd.Releases clientID nodeID) (howner : f.sessionOwner clientID ≠ some nodeID)
    (env : Env) :
    f.applyCommand cmd env = some (f, done) := by
  obtain ⟨hop, rfl, rfl⟩ := h
  have hrelease : f.releaseSession cmd.clientID cmd.nodeID = f := if_neg howner
  rw [applyCommand, hop]
  simp only [hrelease]

/-- The result of a claim in a log. -/
private theorem getElem_results_claim (before after : List (Command × ℤ)) {e : Command × ℤ}
    (hop : e.1.op = .claimSession) :
    (Store.results {} (before ++ e :: after))[before.length]? =
      some { ok := true
             evictedNode := (Store.ofLog before).evictedNode e.1.clientID e.1.nodeID } := by
  rw [Store.results, answers_append, List.getElem?_append_right (length_answers _ _ _).le,
    length_answers, Nat.sub_self, answers, Store.applyTimed,
    Store.applyCommand, hop]
  rfl

private theorem map_fst_timed (es : List (Command × Env)) :
    es.map Prod.fst = (es.map timed).map Prod.fst := by
  rw [List.map_map]
  rfl

/-- Whose session is whose, after any log. A session belongs to its last claimant unless that node
has released it since. A release for another node changes nothing. A claim reports the owner that it
displaces. A session has an identity exactly if it has an owner and its last claim carried one. -/
theorem session_history (es : List (Command × Env)) :
    ∃ f results, newFSM.execCommands es = some (f, results) ∧
      (∀ clientID nodeID, f.sessionOwner clientID = some nodeID ↔
        Since (fun cmd => cmd.ClaimsFor clientID nodeID)
          (fun cmd => cmd.Claims clientID ∨ cmd.Releases clientID nodeID) (es.map Prod.fst)) ∧
      (∀ cmd clientID nodeID env, Command.Releases cmd clientID nodeID →
        f.sessionOwner clientID ≠ some nodeID → f.applyCommand cmd env = some (f, done)) ∧
      (∀ before cmd env after, es = before ++ (cmd, env) :: after → cmd.op = .claimSession →
        ∃ g earlier result, newFSM.execCommands before = some (g, earlier) ∧
          results[before.length]? = some result ∧ result.ok = true ∧
          (∀ owner, g.sessionOwner cmd.clientID = some owner → owner ≠ cmd.nodeID →
            result.evictedNode = owner) ∧
          ((∀ owner, g.sessionOwner cmd.clientID = some owner → owner = cmd.nodeID) →
            result.evictedNode = [])) ∧
      (∀ clientID identity, f.sessionIdentity.get clientID = some identity ↔
        identity ≠ [] ∧ (∃ nodeID, f.sessionOwner clientID = some nodeID) ∧
          Since (fun cmd => cmd.Claims clientID ∧ cmd.identity = identity)
            (fun cmd => cmd.Claims clientID) (es.map Prod.fst)) := by
  obtain ⟨f, hexec, hf⟩ := exists_exec_newFSM es
  refine ⟨f, _, hexec, fun clientID nodeID => ?_, fun cmd clientID nodeID env hreleases howner =>
    applyCommand_of_releases hreleases howner env, ?_, fun clientID identity => ?_⟩
  · rw [map_fst_timed, since_map, ← Store.sessions_ofLog, ← hf.store]
    rfl
  · rintro before cmd env after rfl hop
    obtain ⟨g, hbefore, hg⟩ := exists_exec_newFSM before
    have hresult := getElem_results_claim (before.map timed) (after.map timed)
      (e := timed (cmd, env)) hop
    rw [List.length_map, ← List.map_cons, ← List.map_append, ← hg.store] at hresult
    exact ⟨g, _, _, hbefore, hresult, rfl,
      fun owner howner hne => Store.evictedNode_of_ne howner hne,
      fun hsame => Store.evictedNode_eq_nil hsame⟩
  · have hhistory := Store.sessionIdentity_ofLog (es.map timed) clientID identity
    rw [← hf.store] at hhistory
    rw [map_fst_timed, since_map]
    exact hhistory

theorem isRevoked_iff_exists {es : List (Command × Env)} {f : FSM} {results : List ApplyResult}
    (h : newFSM.execCommands es = some (f, results)) {identity : Text} :
    f.isRevoked identity = true ↔ ∃ e ∈ es, e.1.Revokes identity := by
  obtain ⟨f', hexec, hf⟩ := exists_exec_newFSM es
  obtain rfl : f' = f := congrArg Prod.fst (Option.some.inj (hexec.symm.trans h))
  rw [isRevoked_iff, hf.store, Store.revoked_ofLog]
  simp only [List.mem_map, exists_exists_and_eq_and, timed]

/-- What has been granted, after any log. A principal has a role exactly if a binding to it is later
than every deletion of the binding and of the role, so a role that is created again grants nothing
to those who held it before. No list of roles has a duplicate or is empty. A role has the rules of
its last creation, unless it has been deleted since. A ruleset is enabled exactly if it has not been
disabled since. A custom rule reaches an evaluation exactly through such a binding and such a role.
An identity is revoked exactly if a command of the log revokes it, and it stays revoked. -/
theorem grant_history (es : List (Command × Env)) :
    ∃ f results, newFSM.execCommands es = some (f, results) ∧
      (∀ principal roleName, (∃ roleNames, f.bindings.get principal = some roleNames ∧
          roleName ∈ f.heap.read roleNames) ↔
        Since (fun cmd => cmd.CreatesBinding principal roleName)
          (fun cmd => cmd.DeletesBinding principal roleName ∨ cmd.DeletesRole roleName)
          (es.map Prod.fst)) ∧
      (∀ principal roleNames, f.bindings.get principal = some roleNames →
        (f.heap.read roleNames).Nodup ∧ f.heap.read roleNames ≠ []) ∧
      (∀ roleName role, f.roles.get roleName = some role ↔
        Since (fun cmd => cmd.CreatesRole roleName ∧ (⟨cmd.roleName, cmd.rules⟩ : Role) = role)
          (fun cmd => cmd.CreatesRole roleName ∨ cmd.DeletesRole roleName) (es.map Prod.fst)) ∧
      (∀ rulesetName, f.enabledRulesets.get rulesetName ≠ some false ∧
        (f.enabledRulesets.get rulesetName = some true ↔
          Since (fun cmd => cmd.Enables rulesetName) (fun cmd => cmd.Disables rulesetName)
            (es.map Prod.fst))) ∧
      (∀ order order' clientID username rule,
        rule ∈ (f.aclState order order').customRules clientID username ↔
          ∃ principal roleName role, (principal = clientID ∨ principal = username) ∧
            Since (fun cmd => cmd.CreatesBinding principal roleName)
              (fun cmd => cmd.DeletesBinding principal roleName ∨ cmd.DeletesRole roleName)
              (es.map Prod.fst) ∧
            Since (fun cmd => cmd.CreatesRole roleName ∧ (⟨cmd.roleName, cmd.rules⟩ : Role) = role)
              (fun cmd => cmd.CreatesRole roleName ∨ cmd.DeletesRole roleName) (es.map Prod.fst) ∧
            rule ∈ role.rules) ∧
      (∀ identity, f.isRevoked identity = true ↔ ∃ e ∈ es, e.1.Revokes identity) ∧
      (∀ identity, f.isRevoked identity = true → ∀ more g results',
        f.execCommands more = some (g, results') → g.isRevoked identity = true) := by
  obtain ⟨f, hexec, hf⟩ := exists_exec_newFSM es
  have hbound (principal roleName : Text) : roleName ∈ (f.store.bindings principal).getD [] ↔
      Since (fun cmd => cmd.CreatesBinding principal roleName)
        (fun cmd => cmd.DeletesBinding principal roleName ∨ cmd.DeletesRole roleName)
        (es.map Prod.fst) := by
    rw [map_fst_timed, since_map, hf.store]
    exact Store.mem_bindings_ofLog (es.map timed) principal roleName
  have hrole (roleName : Text) (role : Role) : f.store.roles roleName = some role ↔
      Since (fun cmd => cmd.CreatesRole roleName ∧ (⟨cmd.roleName, cmd.rules⟩ : Role) = role)
        (fun cmd => cmd.CreatesRole roleName ∨ cmd.DeletesRole roleName) (es.map Prod.fst) := by
    rw [map_fst_timed, since_map, hf.store]
    exact Store.roles_ofLog (es.map timed) roleName role
  have htidy : f.store.Tidy := hf.store ▸ Store.tidy_ofLog (es.map timed)
  refine ⟨f, _, hexec, fun principal roleName => ?_, fun principal roleNames hget => ?_, hrole,
    fun rulesetName => ⟨htidy.enabledRulesets rulesetName, ?_⟩, ?_,
    fun identity => isRevoked_iff_exists hexec, ?_⟩
  · rw [← hbound, store_bindings]
    cases f.bindings.get principal <;> simp
  · refine htidy.bindings principal _ ?_
    rw [store_bindings, hget, Option.map_some]
  · rw [map_fst_timed, since_map, ← Store.enabledRulesets_ofLog, ← hf.store]
    rfl
  · intro order order' clientID username rule
    simp only [mem_customRules_aclState, hbound, hrole]
  · intro identity hrevoked more g results' hmore
    have hnils : f.nils = {} := hf.nils
    obtain ⟨g', hexec', hg⟩ := exists_exec hf.sound fun e _ => ready_of_nils_eq hnils
    obtain rfl : g' = g := congrArg Prod.fst (Option.some.inj (hexec'.symm.trans hmore))
    rw [isRevoked_iff] at hrevoked ⊢
    rw [hg.store]
    exact Store.revoked_run hrevoked (more.map timed)

end FSM

end KeelGateway.Raft

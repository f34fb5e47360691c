import KeelGateway.Lib.TokenBucket
import KeelGateway.Text

/-!
# The keyed rate limiter

The broker limits connect attempts by source address and publishes by tenant. There is a token
bucket for every key, made when the key is first seen. A periodic sweep drops the buckets of keys
that have not been seen for some time, and a key that comes back gets a new bucket, which is full.
A bucket that was dropped before it had filled up is filled up by that.

-/

namespace KeelGateway.Broker

open TokenBucket StepMachine

/-- `keyedRateLimiter`: what it is made with. Both values are positive if a limiter is configured at
all. -/
structure KeyedRateLimiter where
  limit : ℚ
  burst : ℕ
  ttl : ℚ
  limit_pos : 0 < limit
  burst_pos : 1 ≤ burst

/-- `rateLimiterEntry`. -/
structure RateLimiterEntry where
  limiter : Bucket ℚ
  lastSeen : ℚ

/-- The buckets by key. -/
abbrev LimiterEntries : Type := GoMap Text RateLimiterEntry

/-- `rateLimiterTTL`, in seconds. -/
def rateLimiterTTL : ℚ := 600

/-- A call with the time at which it is made. -/
inductive LimiterCall where
  | allow (key : Text) (now : ℚ)
  | sweep (now : ℚ)

namespace LimiterCall

/-- When the call is made. -/
def time : LimiterCall → ℚ
  | allow _ now => now
  | sweep now => now

/-- The call is none of the sweep. -/
def isAllow : LimiterCall → Bool
  | allow _ _ => true
  | sweep _ => false

/-- The calls are made in the order of their times. -/
def TimeOrdered (calls : List LimiterCall) : Prop := (calls.map time).Pairwise (· ≤ ·)

instance (calls : List LimiterCall) : Decidable (TimeOrdered calls) :=
  inferInstanceAs (Decidable (List.Pairwise _ _))

end LimiterCall

namespace KeyedRateLimiter

variable (l : KeyedRateLimiter)

/-- The bucket of a key, a new one if there is none. -/
def bucket (entries : LimiterEntries) (key : Text) (now : ℚ) : Bucket ℚ :=
  match entries.lookup key with
  | some e => e.limiter
  | none => fresh (l.burst : ℚ) now

/-- `keyedRateLimiter.allow`. -/
def allow (entries : LimiterEntries) (key : Text) (now : ℚ) : LimiterEntries × Bool :=
  let r := TokenBucket.allow l.limit l.burst (l.bucket entries key now) now
  (entries.insert key ⟨r.1, now⟩, r.2)

/-- `keyedRateLimiter.sweep`. -/
def sweep (entries : LimiterEntries) (now : ℚ) : LimiterEntries :=
  entries.filterMap fun _ e => if now - e.lastSeen > l.ttl then none else some e

/-- The buckets after a call. -/
def step (entries : LimiterEntries) : LimiterCall → LimiterEntries
  | .allow key now => (l.allow entries key now).1
  | .sweep now => l.sweep entries now

/-- What a call returns. -/
def answer (entries : LimiterEntries) : LimiterCall → Option Bool
  | .allow key now => some (l.allow entries key now).2
  | .sweep _ => none

/-- The answers of a new limiter to a sequence of calls. -/
def answers (calls : List LimiterCall) : List Bool := trace l.step l.answer ∅ calls

/-! ### Limiters with and without sweep -/

/-- An entry as the calls up to some time leave it. -/
structure Kept (e : RateLimiterEntry) (now : ℚ) : Prop where
  last : e.limiter.last = e.lastSeen
  tokens : 0 ≤ e.limiter.tokens
  lastSeen_le : e.lastSeen ≤ now

/-- The swept limiter has the buckets of the other one, except for some that have filled up. -/
structure Agrees (now : ℚ) (swept unswept : LimiterEntries) : Prop where
  kept : ∀ key e, unswept.lookup key = some e → Kept e now
  dropped : ∀ key, swept.lookup key = unswept.lookup key ∨
    (swept.lookup key = none ∧ ∃ e, unswept.lookup key = some e ∧
      Full l.limit (l.burst : ℚ) e.limiter now)

variable {l} {now later : ℚ} {swept unswept : LimiterEntries}

theorem Kept.mono {e : RateLimiterEntry} (h : Kept e now) (hle : now ≤ later) : Kept e later :=
  ⟨h.last, h.tokens, h.lastSeen_le.trans hle⟩

theorem Agrees.mono (h : l.Agrees now swept unswept) (hle : now ≤ later) :
    l.Agrees later swept unswept := by
  refine ⟨fun key e he => (h.kept key e he).mono hle, fun key => ?_⟩
  rcases h.dropped key with heq | ⟨hnone, e, he, hfull⟩
  · exact Or.inl heq
  · exact Or.inr ⟨hnone, e, he, hfull.mono l.limit_pos.le hle⟩

variable {entries : LimiterEntries}

theorem bucket_of_lookup {key : Text} {e : RateLimiterEntry} (h : entries.lookup key = some e)
    (now : ℚ) : l.bucket entries key now = e.limiter := by
  rw [bucket, h]

theorem bucket_of_lookup_none {key : Text} (h : entries.lookup key = none) (now : ℚ) :
    l.bucket entries key now = fresh (l.burst : ℚ) now := by
  rw [bucket, h]

theorem lookup_allow (entries : LimiterEntries) (key key' : Text) (now : ℚ) :
    (l.allow entries key now).1.lookup key' =
      if key' = key then
        some ⟨(TokenBucket.allow l.limit l.burst (l.bucket entries key now) now).1, now⟩
      else entries.lookup key' :=
  GoMap.lookup_insert _ _ _ _

theorem Agrees.allow_bucket_eq (h : l.Agrees now swept unswept) (key : Text) :
    TokenBucket.allow l.limit (l.burst : ℚ) (l.bucket swept key now) now =
      TokenBucket.allow l.limit (l.burst : ℚ) (l.bucket unswept key now) now := by
  rcases h.dropped key with heq | ⟨hnone, e, he, hfull⟩
  · rw [bucket, bucket, heq]
  · rw [bucket_of_lookup_none hnone, bucket_of_lookup he, allow_of_full hfull]

theorem Agrees.bucket_level_nonneg (h : l.Agrees now swept unswept) (key : Text) :
    0 ≤ level l.limit (l.burst : ℚ) (l.bucket unswept key now) now := by
  cases hlookup : unswept.lookup key with
  | none =>
    rw [bucket_of_lookup_none hlookup, level_of_full (full_fresh now)]
    exact Nat.cast_nonneg l.burst
  | some e =>
    have hkept := h.kept key e hlookup
    rw [bucket_of_lookup hlookup]
    exact level_nonneg l.limit_pos.le (Nat.cast_nonneg l.burst) hkept.tokens
      (hkept.last.le.trans hkept.lastSeen_le)

theorem Agrees.allow (h : l.Agrees now swept unswept) (key : Text) :
    (l.allow swept key now).2 = (l.allow unswept key now).2 ∧
      l.Agrees now (l.allow swept key now).1 (l.allow unswept key now).1 := by
  have heq := h.allow_bucket_eq key
  refine ⟨congrArg (·.2) heq, fun key' e he => ?_, fun key' => ?_⟩
  · rw [lookup_allow] at he
    split_ifs at he with hkey
    · cases he
      exact ⟨last_allow _ _, tokens_allow_nonneg (h.bucket_level_nonneg key), le_rfl⟩
    · exact h.kept key' e he
  · rw [lookup_allow, lookup_allow, heq]
    split_ifs
    · exact Or.inl rfl
    · exact h.dropped key'

theorem Agrees.sweep (h : l.Agrees now swept unswept) (hidle : (l.burst : ℚ) ≤ l.limit * l.ttl) :
    l.Agrees now (l.sweep swept now) unswept := by
  refine ⟨h.kept, fun key => ?_⟩
  rw [KeyedRateLimiter.sweep, GoMap.lookup_filterMap]
  rcases h.dropped key with heq | ⟨hnone, hfull⟩
  · rw [heq]
    cases hlookup : unswept.lookup key with
    | none => exact Or.inl rfl
    | some e =>
      rw [Option.bind_some]
      split_ifs with hold
      · refine Or.inr ⟨rfl, e, rfl, ?_⟩
        have hkept := h.kept key e hlookup
        refine full_of_idle hkept.tokens (hidle.trans ?_)
        rw [hkept.last]
        exact mul_le_mul_of_nonneg_left hold.le l.limit_pos.le
      · exact Or.inl rfl
  · exact Or.inr ⟨by rw [hnone, Option.bind_none], hfull⟩

theorem Agrees.trace_eq (hidle : (l.burst : ℚ) ≤ l.limit * l.ttl)
    (h : l.Agrees now swept unswept) {calls : List LimiterCall}
    (hordered : LimiterCall.TimeOrdered calls) (hle : ∀ c ∈ calls, now ≤ c.time) :
    trace l.step l.answer swept calls =
      trace l.step l.answer unswept (calls.filter LimiterCall.isAllow) := by
  induction calls generalizing now swept unswept with
  | nil => rfl
  | cons c calls ih =>
    obtain ⟨hhead, htail⟩ := List.pairwise_cons.1 hordered
    have h' := h.mono (hle c List.mem_cons_self)
    have hle' : ∀ c' ∈ calls, c.time ≤ c'.time := fun c' hc' => hhead _ (List.mem_map_of_mem hc')
    cases c with
    | allow key t =>
      obtain ⟨hanswer, hagrees⟩ := h'.allow key
      have hrest := ih hagrees htail hle'
      exact congrArg₂ (fun (a : Bool) as => [a] ++ as) hanswer hrest
    | sweep t =>
      have hrest := ih (h'.sweep hidle) htail hle'
      exact hrest

/-! ### A sweep that comes too early -/

variable (l)

/-- As many calls for one key, at one time, as the bucket allows at most. -/
def rush (now : ℚ) : List LimiterCall := List.replicate l.burst (.allow ['k'] now)

variable {l}

theorem bucket_allow (entries : LimiterEntries) (key : Text) (now later : ℚ) :
    l.bucket (l.allow entries key now).1 key later =
      (TokenBucket.allow l.limit l.burst (l.bucket entries key now) now).1 :=
  bucket_of_lookup ((lookup_allow _ _ _ _).trans (if_pos rfl)) later

theorem trace_replicate_allow (entries : LimiterEntries) (key : Text) (now : ℚ) (n : ℕ) :
    trace l.step l.answer entries (List.replicate n (.allow key now)) =
      TokenBucket.burst l.limit (l.burst : ℚ) now n (l.bucket entries key now) := by
  induction n generalizing entries with
  | zero => rfl
  | succ n ih =>
    have hrest := ih (l.allow entries key now).1
    rw [bucket_allow] at hrest
    exact congrArg _ hrest

theorem lookup_run_replicate_allow (entries : LimiterEntries) (key : Text) (now : ℚ) {n : ℕ}
    (hn : n ≠ 0) :
    (run l.step entries (List.replicate n (.allow key now))).lookup key =
      some ⟨drained l.limit (l.burst : ℚ) now n (l.bucket entries key now), now⟩ := by
  induction n generalizing entries with
  | zero => exact absurd rfl hn
  | succ n ih =>
    rcases eq_or_ne n 0 with rfl | hn'
    · exact (lookup_allow _ _ _ _).trans (if_pos rfl)
    · have hrest := ih (l.allow entries key now).1 hn'
      rw [bucket_allow] at hrest
      exact hrest

theorem burst_ne_zero (l : KeyedRateLimiter) : l.burst ≠ 0 := Nat.one_le_iff_ne_zero.1 l.burst_pos

theorem lookup_run_rush (l : KeyedRateLimiter) (now : ℚ) :
    (run l.step ∅ (l.rush now)).lookup ['k'] = some ⟨⟨0, now⟩, now⟩ := by
  have hlevel : level l.limit (l.burst : ℚ) (l.bucket ∅ ['k'] now) now = l.burst :=
    level_of_full (full_fresh now)
  rw [rush, lookup_run_replicate_allow _ _ _ l.burst_ne_zero,
    drained_eq l.burst_ne_zero hlevel.ge, hlevel, sub_self]

theorem trace_rush_of_full (h : Full l.limit (l.burst : ℚ) (l.bucket entries ['k'] now) now) :
    trace l.step l.answer entries (l.rush now) = List.replicate l.burst true := by
  rw [rush, trace_replicate_allow]
  exact burst_eq_replicate (level_of_full h).ge

theorem exists_early_sweep (h : l.limit * l.ttl < l.burst) :
    ∃ d, 0 ≤ d ∧ l.ttl < d ∧ l.limit * d < l.burst := by
  have hburst : (0 : ℚ) < l.burst := Nat.cast_pos.2 l.burst_pos
  have httl : l.ttl < l.burst / l.limit := by
    rw [lt_div_iff₀ l.limit_pos, mul_comm]
    exact h
  have hzero : 0 < l.burst / l.limit := div_pos hburst l.limit_pos
  obtain ⟨d, hd, hd'⟩ := exists_between (max_lt httl hzero)
  refine ⟨d, (le_max_right _ _).trans hd.le, (le_max_left _ _).trans_lt hd, ?_⟩
  rw [mul_comm, ← lt_div_iff₀ l.limit_pos]
  exact hd'

theorem answers_rush_sweep_rush_ne {d : ℚ} (hd : 0 ≤ d) (hold : l.ttl < d)
    (hearly : l.limit * d < l.burst) :
    l.answers (l.rush 0 ++ .sweep d :: l.rush d) ≠ l.answers (l.rush 0 ++ l.rush d) := by
  intro heq
  rw [answers, answers, trace_append, trace_append, List.append_cancel_left_eq] at heq
  set entries := run l.step ∅ (l.rush 0) with hentries
  have hlookup : entries.lookup ['k'] = some ⟨⟨0, 0⟩, 0⟩ := l.lookup_run_rush 0
  have hswept : (l.sweep entries d).lookup ['k'] = none := by
    rw [sweep, GoMap.lookup_filterMap, hlookup, Option.bind_some, if_pos (by rwa [sub_zero])]
  -- the swept limiter has a new bucket for the second rush
  have hfull : Full l.limit (l.burst : ℚ) (l.bucket (l.sweep entries d) ['k'] d) d := by
    rw [bucket_of_lookup_none hswept]
    exact full_fresh d
  have hall : trace l.step l.answer entries (l.rush d) = List.replicate l.burst true :=
    heq.symm.trans (trace_rush_of_full hfull)
  rw [rush, trace_replicate_allow, bucket_of_lookup hlookup] at hall
  -- the other one has what has been refilled since the first rush
  have hnonneg : 0 ≤ level l.limit (l.burst : ℚ) ⟨0, 0⟩ d :=
    level_nonneg l.limit_pos.le (Nat.cast_nonneg l.burst) le_rfl hd
  have hle : (l.burst : ℚ) ≤ 0 + l.limit * (d - 0) :=
    (le_level_of_burst hnonneg hall).trans (min_le_right _ _)
  rw [zero_add, sub_zero] at hle
  exact absurd hle (not_le.2 hearly)

theorem filter_rush (l : KeyedRateLimiter) (now : ℚ) :
    (l.rush now).filter LimiterCall.isAllow = l.rush now :=
  List.filter_eq_self.2 fun _ hc => (List.eq_of_mem_replicate hc) ▸ rfl

private theorem timeOrdered_rush_sweep_rush (l : KeyedRateLimiter) {d : ℚ} (hd : 0 ≤ d) :
    LimiterCall.TimeOrdered (l.rush 0 ++ .sweep d :: l.rush d) := by
  simp [LimiterCall.TimeOrdered, rush, LimiterCall.time, List.pairwise_append, hd]

private theorem agrees_empty (l : KeyedRateLimiter) (now : ℚ) : l.Agrees now ∅ ∅ :=
  ⟨fun key e he => (by cases (AList.lookup_empty key).symm.trans he), fun _ => Or.inl rfl⟩

/-- The sweep is unobservable exactly if an empty bucket fills up within the time that it is kept:
then the answers to calls in the order of time are those of a limiter that is never swept. -/
theorem sweep_unobservable_iff (l : KeyedRateLimiter) :
    (∀ calls, LimiterCall.TimeOrdered calls →
      l.answers calls = l.answers (calls.filter LimiterCall.isAllow)) ↔
    (l.burst : ℚ) ≤ l.limit * l.ttl := by
  constructor
  · intro h
    by_contra hidle
    obtain ⟨d, hd, hold, hearly⟩ := exists_early_sweep (not_le.1 hidle)
    have heq := h _ (l.timeOrdered_rush_sweep_rush hd)
    rw [List.filter_append, List.filter_cons_of_neg (by simp [LimiterCall.isAllow]),
      filter_rush, filter_rush] at heq
    exact answers_rush_sweep_rush_ne hd hold hearly heq
  · intro hidle calls hordered
    cases calls with
    | nil => rfl
    | cons c calls =>
      refine (l.agrees_empty c.time).trace_eq hidle hordered fun c' hc' => ?_
      rcases List.mem_cons.1 hc' with rfl | hmem
      · exact le_rfl
      · exact (List.pairwise_cons.1 hordered).1 _ (List.mem_map_of_mem hmem)

/-- One event in a thousand seconds, with the time that the broker keeps a bucket. -/
def sparse : KeyedRateLimiter where
  limit := 1 / 1000
  burst := 1
  ttl := rateLimiterTTL
  limit_pos := one_div_pos.2 (Nat.cast_pos.2 (Nat.succ_pos 999))
  burst_pos := le_rfl

/-- A source that comes back after eleven minutes is allowed again, which is too early. -/
theorem sparse_sweep_observed :
    LimiterCall.TimeOrdered [.allow ['k'] 0, .sweep 660, .allow ['k'] 660] ∧
      sparse.answers [.allow ['k'] 0, .sweep 660, .allow ['k'] 660] = [true, true] ∧
      sparse.answers [.allow ['k'] 0, .allow ['k'] 660] = [true, false] := by
  decide +kernel

end KeyedRateLimiter

end KeelGateway.Broker

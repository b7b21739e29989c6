import Mathlib
import Gateway.Authentication

/-! The rate limit as the upstreams see it: what reaches them for one address, in any
interleaving. -/
namespace Gateway

open Program Transition FixedWindow

variable {D : Deployment} {cfg : Config} {σ τ : Deployed} {l : Label} {tr : List (Deployed × Label)}
  {log log' : List Entry} {x y : Entry} {ip : Bytes} {a b : Int} {k : Nat}

/-- The call of `allow` that an entry stands for, with its verdict. -/
def Entry.verdict? : Entry → Option (Call × Bool)
  | ⟨_, ⟨.allow ip, verdict⟩, now⟩ => some (⟨ip, now⟩, verdict)
  | _ => none

def verdictsOf (log : List Entry) : List (Call × Bool) := log.filterMap Entry.verdict?

/-- The log holds the history of the limiter. -/
structure Metered (cfg : Config) (σ : Deployed) : Prop where
  limiter : σ.limiter =
    (freshLimiter cfg.rateLimitPerMin).afterCalls ((verdictsOf σ.log).map Prod.fst)
  history : verdictsOf σ.log =
    (freshLimiter cfg.rateLimitPerMin).history ((verdictsOf σ.log).map Prod.fst)
  positive : ∀ c ∈ (verdictsOf σ.log).map Prod.fst, 0 < c.now

theorem verdictsOf_append : verdictsOf (log ++ log') = verdictsOf log ++ verdictsOf log' :=
  List.filterMap_append

/-- A call that is none of `allow` is no part of the history. -/
theorem verdict?_of_other {o : Op} {r : Res o} {now : Int} (h : ∀ ip, o ≠ .allow ip) :
    Entry.verdict? ⟨k, ⟨o, r⟩, now⟩ = none ∧
      ∀ limiter, limiterAfter limiter now ⟨o, r⟩ = limiter := by
  cases o with
  | allow ip => exact (h ip rfl).elim
  | _ => exact ⟨rfl, fun limiter => rfl⟩

theorem metered_step (hσ : Metered cfg σ) (h : DeployedMove D cfg σ l τ) : Metered cfg τ := by
  cases h with
  | @call k o next r now pc safe answer lowest clock answered =>
    obtain ⟨hlimiter, hhistory, hpositive⟩ := hσ
    by_cases hallow : ∃ ip, o = .allow ip
    · obtain ⟨ip, rfl⟩ := hallow
      -- the call comes last in the history, with the verdict of the limiter as it is now
      have hlog : verdictsOf (σ.log ++ [⟨k, ⟨.allow ip, r⟩, now⟩]) =
          verdictsOf σ.log ++ [(⟨ip, now⟩, r)] := verdictsOf_append
      obtain rfl : r = (σ.limiter.allow ip now).1 := answered
      refine ⟨?_, ?_, ?_⟩
      · rw [hlog, List.map_append, RateLimiter.afterCalls_append, ← hlimiter]
        rfl
      · rw [hlog, List.map_append, RateLimiter.history_append, ← hlimiter, ← hhistory]
        rfl
      · rw [hlog, List.map_append]
        exact List.forall_mem_append.mpr ⟨hpositive, List.forall_mem_singleton.mpr clock⟩
    · obtain ⟨hnone, hkept⟩ := @verdict?_of_other k o r now fun ip heq => hallow ⟨ip, heq⟩
      have hlog : verdictsOf (σ.log ++ [⟨k, ⟨o, r⟩, now⟩]) = verdictsOf σ.log := by
        rw [verdictsOf_append]
        simp [verdictsOf, hnone]
      refine ⟨?_, ?_, ?_⟩
      · rw [hlog, hkept]
        exact hlimiter
      · rw [hlog]
        exact hhistory
      · rw [hlog]
        exact hpositive
  | _ => exact ⟨hσ.limiter, hσ.history, hσ.positive⟩

theorem metered_run (h : DeployedRun D cfg tr τ) : Metered cfg τ :=
  Run.preserves (I := Metered cfg) (fun hσ hstep => metered_step hσ hstep.2) h
    ⟨rfl, rfl, by simp [verdictsOf, deploy]⟩

/-- The limiter admitted a client of the address within the interval. -/
def Entry.admits (ip : Bytes) (a b : Int) (x : Entry) : Bool :=
  match x.verdict? with
  | some (c, verdict) => verdict && decide (a ≤ c.now ∧ c.now < b) && decide (c.ip = ip)
  | none => false

/-- A request from the address is handed to an upstream. -/
def Entry.forwardsFor (ip : Bytes) (x : Entry) : Bool :=
  match forwardOf x.event with
  | some (_, req, _, _) => decide (req.clientIp = ip)
  | none => false

/-- The forwards for an address whose handlers were admitted within the interval. -/
def forwardsIn (ip : Bytes) (a b : Int) (log : List Entry) : List Entry :=
  log.filter fun x =>
    x.forwardsFor ip && log.any fun y => decide (y.handler = x.handler) && y.admits ip a b

/-- What the log says was admitted is what the limiter allowed. -/
theorem countP_admits (log : List Entry) :
    log.countP (Entry.admits ip a b) = allowedIn ip a b (verdictsOf log) := by
  rw [allowedIn, verdictsOf, List.countP_filterMap]
  congr 1
  funext x
  unfold Entry.admits
  cases x.verdict? with
  | none => rfl
  | some c => rfl

theorem length_forwardsOf (log : List Entry) :
    (forwardsOf (traceOf k (log.map Entry.call))).length =
      log.countP fun x => decide (x.handler = k) && (forwardOf x.event).isSome := by
  rw [forwardsOf, List.length_filterMap_eq_countP, traceOf, List.countP_map, List.countP_filter,
    List.countP_map]
  congr 1
  funext x
  exact Bool.and_comm _ _

theorem forwardsFor_iff : x.forwardsFor ip = true ↔
    ∃ base req path auth, forwardOf x.event = some (base, req, path, auth) ∧ req.clientIp = ip := by
  unfold Entry.forwardsFor
  cases forwardOf x.event with
  | none => simp
  | some f =>
    obtain ⟨base, req, path, auth⟩ := f
    simp

theorem touchesUpstream_of_forward {f : Bytes × HttpRequest × Bytes × AuthInfo} {s : Socket}
    (h : forwardOf x.event = some f) : TouchesUpstream s x.event.op := by
  obtain ⟨k, ⟨o, r⟩, now⟩ := x
  cases o with
  | invoke i =>
    cases i with
    | reply s resp => cases h
    | forwardRequest base req path auth => trivial
  | _ => cases h

/-- Behind each forward for an address stands the admission of its own handler, and no other forward
of that handler. -/
theorem forward_admitted (hrun : DeployedRun D cfg tr τ) (hx : x ∈ τ.log)
    (hforward : x.forwardsFor ip = true) :
    (∃ y ∈ τ.log, y.handler = x.handler ∧ y.event = ⟨.allow ip, true⟩) ∧
      (forwardsOf (τ.callsOf x.handler)).length = 1 := by
  obtain ⟨base, req, path, auth, heq, rfl⟩ := forwardsFor_iff.mp hforward
  obtain ⟨pre, post, hlog⟩ := List.append_of_mem hx
  obtain ⟨hrec, hserves⟩ := chronicled_run hrun
  have hcall : (x.handler, x.event) ∈ τ.log.map Entry.call := List.mem_map_of_mem hx
  obtain ⟨p, hp⟩ := hrec.exists_start hcall
  obtain ⟨s, ip, hs⟩ := hserves p (List.mem_of_getElem? hp)
  obtain ⟨req', token, base', path', auth', hhanded, honce⟩ :=
    handed_of_log hrun hlog hp hs (touchesUpstream_of_forward heq)
  have hmem : (base, req, path, auth) ∈ forwardsOf (τ.callsOf x.handler) :=
    List.mem_filterMap.mpr ⟨x.event, mem_traceOf.mpr (List.mem_map_of_mem hx), heq⟩
  rw [honce, List.mem_singleton] at hmem
  obtain ⟨rfl, rfl, rfl, rfl⟩ := hmem
  have hallow : (x.handler, (⟨.allow req.clientIp, true⟩ : Event Op Res)) ∈ pre.map Entry.call :=
    mem_traceOf.mp (hhanded.verdicts.subset (by simp))
  obtain ⟨y, hy, hycall⟩ := List.mem_map.mp hallow
  obtain ⟨hhandler, hevent⟩ := Prod.mk.inj hycall
  exact ⟨⟨y, by simp [hlog, hy], hhandler, hevent⟩, by rw [honce]; rfl⟩

/-- No handler forwards twice. -/
theorem forwardsIn_nodup (hrun : DeployedRun D cfg tr τ) :
    ((forwardsIn ip a b τ.log).map Entry.handler).Nodup := by
  rw [List.nodup_iff_count_le_one]
  intro k
  by_cases hk : k ∈ (forwardsIn ip a b τ.log).map Entry.handler
  · obtain ⟨x, hx, rfl⟩ := List.mem_map.mp hk
    obtain ⟨hlog, hin⟩ := List.mem_filter.mp hx
    obtain ⟨hforward, -⟩ := Bool.and_eq_true_iff.mp hin
    have hone := (forward_admitted hrun hlog hforward).2
    rw [Deployed.callsOf, length_forwardsOf] at hone
    rw [List.count_eq_countP, List.countP_map, forwardsIn, List.countP_filter, ← hone]
    apply List.countP_mono_left
    intro y _ hy
    obtain ⟨hhandler, hy⟩ := Bool.and_eq_true_iff.mp hy
    obtain ⟨hfor, -⟩ := Bool.and_eq_true_iff.mp hy
    obtain ⟨base, req, path, auth, heq, -⟩ := forwardsFor_iff.mp hfor
    have hself : y.handler = x.handler := by simpa using hhandler
    simp [hself, heq]
  · rw [List.count_eq_zero_of_not_mem hk]
    exact Nat.zero_le 1

/-- There are no more forwards than admissions in the interval. -/
theorem forwardsIn_le (hrun : DeployedRun D cfg tr τ) :
    (forwardsIn ip a b τ.log).length ≤ allowedIn ip a b (verdictsOf τ.log) := by
  have hsub : (forwardsIn ip a b τ.log).map Entry.handler ⊆
      (τ.log.filter (Entry.admits ip a b)).map Entry.handler := by
    intro k hk
    obtain ⟨x, hx, rfl⟩ := List.mem_map.mp hk
    obtain ⟨-, hin⟩ := List.mem_filter.mp hx
    obtain ⟨-, hany⟩ := Bool.and_eq_true_iff.mp hin
    obtain ⟨y, hy, hyx⟩ := List.any_eq_true.mp hany
    obtain ⟨hhandler, hadmits⟩ := Bool.and_eq_true_iff.mp hyx
    exact List.mem_map.mpr ⟨y, List.mem_filter.mpr ⟨hy, hadmits⟩, by simpa using hhandler⟩
  have hle := (List.subperm_of_subset (forwardsIn_nodup hrun) hsub).length_le
  rw [List.length_map, List.length_map, ← List.countP_eq_length_filter, countP_admits] at hle
  exact hle

/-- In any interleaving each request that reaches an upstream was admitted for its own handler, and
where there is a limit and the limiter's lock was taken in the order of the clock readings, in `k`
minutes at most `k + 1` times the limit of an address are admitted that ever reach one. -/
theorem forwards_limited (hrun : DeployedRun D cfg tr τ) :
    (∀ ip, ∀ x ∈ τ.log, x.forwardsFor ip = true →
      ∃ y ∈ τ.log, y.handler = x.handler ∧ y.event = ⟨.allow ip, true⟩) ∧
    (0 < cfg.rateLimitPerMin →
      ((verdictsOf τ.log).map Prod.fst).Pairwise (fun c d => c.now ≤ d.now) →
      ∀ (ip : Bytes) (T : Int) (k : Nat),
        ((forwardsIn ip T (T + 60 * k) τ.log).length : Int) ≤ (k + 1) * cfg.rateLimitPerMin) := by
  refine ⟨fun ip x hx hforward => (forward_admitted hrun hx hforward).1, ?_⟩
  intro hmin hordered ip T k
  obtain ⟨-, hhistory, hpositive⟩ := metered_run hrun
  have htimely : Timely ((verdictsOf τ.log).map Prod.fst) := ⟨hpositive, hordered⟩
  have hbound := admittedIn_le (a := T) hmin (by omega : (0 : Int) < 60) (htimely.callsOf ip).2 k
  rw [← history_eq_run hmin htimely, admittedIn, List.countP_filter, ← hhistory] at hbound
  have hle : ((forwardsIn ip T (T + 60 * k) τ.log).length : Int) ≤
      allowedIn ip T (T + 60 * k) (verdictsOf τ.log) := by exact_mod_cast forwardsIn_le hrun
  exact hle.trans hbound

/-- The sample client is forwarded once within its minute. -/
theorem bearerRequest_limited : ∃ tr τ, DeployedRun sampleDeployment bearerConfig tr τ ∧
    (forwardsIn [] 0 60 τ.log).length = 1 ∧
    ((forwardsIn [] 0 60 τ.log).length : Int) ≤ (1 + 1) * 100 := by
  obtain ⟨tr, τ, h⟩ := bearerRequest_alone
  have hverdicts : verdictsOf τ.log = [(⟨[], 1⟩, true)] := by
    rw [h.log]
    rfl
  have hordered : ((verdictsOf τ.log).map Prod.fst).Pairwise fun c d => c.now ≤ d.now := by
    rw [hverdicts]
    exact List.pairwise_singleton _ _
  have hbound := (forwards_limited h.run).2 (by decide +kernel) hordered [] 0 1
  refine ⟨tr, τ, h.run, ?_, hbound⟩
  rw [h.log]
  rfl

end Gateway

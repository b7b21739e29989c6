import Mathlib
import Gateway.DescriptorTable
import Gateway.Routing
import Gateway.Startup
import Gateway.UpstreamTimeouts

/-! Which client limits keep every descriptor of `connectWithTimeout` within its `fd_set`. -/
namespace Gateway

open Program Transition Accounts

variable {cfg : Config} {σ τ : Process} {l : Label} {tr : List (Process × Label)}
  {p q : Io Unit} {env : Environment} {a : Bytes} {n m : Nat}

/-- How many descriptors an `fd_set` has room for. -/
def FD_SETSIZE : Nat := 1024

/-- What `connectWithTimeout` has put into its `fd_set` lies within it. -/
def SelectsInRange (σ : Process) : Prop :=
  ∀ (u : Nat) ms next, Handler.running (.call (.select u ms) next) ∈ σ.sys.handlers →
    u < FD_SETSIZE

/-- Some area has an upstream that `forwardRequest` can use. -/
def Forwards (cfg : Config) : Prop :=
  ∃ a ∈ apiAreas, ∃ up, parseUpstream (cfg.upstreamFor a) = .ok up

section noUpstream

def isSelect : Op → Bool
  | .select _ _ => true
  | _ => false

/-- The monitor that only forbids waiting for a connection. -/
abbrev waitless : Monitor Op Res Unit := Monitor.only Op Res (isSelect · = false)

theorem base_of_api {method target : Bytes}
    (h : (matchRoute method target cfg).kind = .kApi) :
    ∃ a ∈ apiAreas, (matchRoute method target cfg).upstreamBase = cfg.upstreamFor a := by
  rcases matchRoute_cases method target cfg with
    ⟨hkind, -⟩ | ⟨-, ⟨hkind, -⟩ | ⟨a, ha, -, ⟨hkind, -⟩ | ⟨-, -, -, hbase, -⟩⟩⟩
  · rw [h] at hkind
    cases hkind
  · rw [h] at hkind
    cases hkind
  · rw [h] at hkind
    cases hkind
  · exact ⟨a, ha, hbase⟩

theorem waitless_rules (hno : ¬ Forwards cfg) (s : Socket) :
    ClientRules waitless s cfg () () (fun _ => ()) fun _ => True := by
  constructor
  case data => exact fun _ _ _ _ => rfl
  case closed => exact fun _ => rfl
  case error => exact fun _ _ => rfl
  case allow => exact fun _ _ => rfl
  case verifyJwt => exact fun _ _ _ _ => rfl
  case forward =>
    intro method target req auth hkind
    obtain ⟨a, ha, hbase⟩ := base_of_api hkind
    cases hparse : parseUpstream (cfg.upstreamFor a) with
    | ok up => exact (hno ⟨a, ha, up, hparse⟩).elim
    | error e =>
      rw [hbase, forwardRequest, invoke, perform_bind, hparse]
      exact fun r _ => ⟨(), rfl, rfl⟩
  case reply => exact fun _ _ => rfl
  case send => exact fun _ _ _ => rfl
  case close => exact fun _ => ⟨(), rfl, trivial⟩
  case hangUp => exact ⟨(), rfl, trivial⟩

/-- What a thread runs never waits for a connection when there is no upstream. -/
theorem serves_waitless {s : Socket} {ip : Bytes} (hno : ¬ Forwards cfg)
    (h : ServesConnection s ip cfg p) : p.Calls (isSelect · = false) := by
  cases h with
  | whole => exact Monitor.calls_of_wp (handleClient_wp (waitless_rules hno s) ip)
  | accepted req leftover =>
    exact Monitor.calls_of_wp (handleAccepted_wp (waitless_rules hno s) ip leftover)

theorem selectsInRange_of_noUpstream (hno : ¬ Forwards cfg) (h : TableRun cfg tr τ) :
    SelectsInRange τ := by
  have hwaitless : ∀ p, Handler.running p ∈ τ.sys.handlers → p.Calls (isSelect · = false) :=
    Run.preserves
      (I := fun σ => ∀ p, Handler.running p ∈ σ.sys.handlers → p.Calls (isSelect · = false))
      (fun hσ hstep => remaining_move (fun s ip p hp => serves_waitless hno hp)
        (fun o next r hcalls => hcalls.2 r) hσ hstep.2.sys) h (by simp)
  intro u ms next hmem
  cases (hwaitless _ hmem).1

end noUpstream

section crowd

/-- A call that no peer answers and that leaves the descriptor table alone. -/
def IsQuiet : Op → Prop
  | .send _ _ _ | .socket _ | .closeSocket _ => False
  | _ => True

/-- A quiet call moves its handler and nothing else. -/
theorem quiet_move {k : Nat} {o : Op} {next : Res o → Io Unit} (h : IsQuiet o)
    (pc : σ.sys.handlers[k]? = some (.running (.call o next))) (r : Res o) :
    ProcessMove cfg σ (.call k o)
      { σ with sys := { σ.sys with handlers := σ.sys.handlers.set k (.running (next r)) } } := by
  have hmove : ∀ safe answer lowest, ProcessMove cfg σ (.call k o) _ := fun safe answer lowest =>
    .call r pc safe answer lowest
  cases o with
  | send s data flags => exact h.elim
  | socket ai => exact h.elim
  | closeSocket s => exact h.elim
  | _ => exact hmove id trivial trivial

/-- A new socket gets the lowest free descriptor. -/
theorem socket_move {k : Nat} {ai : AddrInfo} {next : Option Socket → Io Unit}
    (pc : σ.sys.handlers[k]? = some (.running (.call (.socket ai) next)))
    (lowest : LowestFree σ.fds m) : ProcessMove cfg σ (.call k (.socket ai))
      { sys := σ.sys.answered k (.socket ai) (some m) next, fds := insert m σ.fds } :=
  .call (show Res (.socket ai) from some m) pc id trivial lowest

/-- A handler goes on through quiet calls while everyone else waits. -/
theorem quiet_run {k : Nat} {evs : Trace} (hrun : TableRun cfg tr σ)
    (halive : σ.sys.ended = none) (hk : σ.sys.handlers[k]? = some (.running p))
    (h : p.Leads evs q) (hquiet : ∀ e ∈ evs, IsQuiet e.op) : ∃ tr', TableRun cfg tr'
      { σ with sys := { σ.sys with handlers := σ.sys.handlers.set k (.running q) } } := by
  induction evs generalizing σ tr p with
  | nil =>
    obtain rfl : q = p := by simpa [Prog.Leads] using h
    obtain ⟨hlt, heq⟩ := List.getElem?_eq_some_iff.mp hk
    rw [← heq, List.set_getElem_self]
    exact ⟨tr, hrun⟩
  | cons e evs ih =>
    rw [List.forall_mem_cons] at hquiet
    cases p with
    | ret a => exact h.elim
    | call o next =>
      obtain ⟨r, rfl, hrest⟩ := h
      obtain ⟨hlt, -⟩ := List.getElem?_eq_some_iff.mp hk
      have hnext := hrun.snoc ⟨halive, quiet_move hquiet.1 hk r⟩
      obtain ⟨tr', hrun'⟩ := ih hnext halive (List.getElem?_set_self hlt) hrest hquiet.2
      rw [List.set_set] at hrun'
      exact ⟨tr', hrun'⟩

/-- A running process with `n` handlers and the first `m` descriptors open. -/
structure Busy (σ : Process) (pc : MainPc) (n m : Nat) : Prop where
  main : σ.sys.main = pc
  running : σ.sys.running = true
  alive : σ.sys.ended = none
  count : σ.sys.activeClients = n
  length : σ.sys.handlers.length = n
  fds : σ.fds = Finset.range m

/-- The process reaches such a state, in which handler `k` has `p` left to do. -/
def Reaches (cfg : Config) (pc : MainPc) (n m k : Nat) (p : Io Unit) : Prop :=
  ∃ tr σ, TableRun cfg tr σ ∧ Busy σ pc n m ∧ σ.sys.handlers[k]? = some (.running p)

theorem Busy.lowest {pc : MainPc} (h : Busy σ pc n m) : LowestFree σ.fds m := by
  rw [h.fds]
  exact isLeast_range m

theorem Busy.insert {pc : MainPc} (h : Busy σ pc n m) : insert m σ.fds = Finset.range (m + 1) := by
  rw [h.fds, Finset.range_add_one]

/-- Main takes in one client and starts its thread. -/
theorem busy_admits (ip : Bytes) (hrun : TableRun cfg tr σ) (h : Busy σ .accepting n m)
    (hroom : (n : Int) < cfg.maxClients) (hp : ServesConnection m ip cfg p) :
    Reaches cfg .accepting (n + 1) (m + 1) n p := by
  have h₁ : TableRun cfg _ _ := hrun.snoc ⟨h.alive, .keeps (.enter h.main h.running) rfl⟩
  have h₂ : TableRun cfg _ _ := h₁.snoc ⟨h.alive, .accept (.accept m rfl) h.lowest⟩
  have h₃ : TableRun cfg _ _ := h₂.snoc ⟨h.alive, .keeps (.check rfl (h.count ▸ hroom)) rfl⟩
  have h₄ : TableRun cfg _ _ := h₃.snoc ⟨h.alive, .keeps (.timeoutSet rfl) rfl⟩
  have h₅ : TableRun cfg _ _ := h₄.snoc ⟨h.alive, .keeps (.register ip rfl) rfl⟩
  have h₆ : TableRun cfg _ _ := h₅.snoc ⟨h.alive, .spawn rfl hp⟩
  refine ⟨_, _, h₆, ⟨rfl, h.running, h.alive, ?_, ?_, h.insert⟩, ?_⟩
  · simp [h.count]
  · simp [h.length]
  · simp [h.length]

/-- The program opens a socket before anything else that counts, and waits for it to connect. -/
def Connects (p : Io Unit) : Prop :=
  ∃ evs ai next, p.Leads evs (.call (.socket ai) next) ∧ (∀ e ∈ evs, IsQuiet e.op) ∧
    ∀ u, ∃ evs' ms next', (next (some u)).Leads evs' (.call (.select u ms) next') ∧
      ∀ e ∈ evs', IsQuiet e.op

/-- A handler opens its upstream socket and stays in the wait for it. -/
theorem busy_connects {pc : MainPc} {k : Nat} (h : Reaches cfg pc n m k p) (hp : Connects p) :
    ∃ ms next, Reaches cfg pc n (m + 1) k (.call (.select m ms) next) := by
  obtain ⟨tr, σ, hrun, hbusy, hk⟩ := h
  obtain ⟨evs, ai, next, hleads, hquiet, hnext⟩ := hp
  obtain ⟨evs', ms, next', hleads', hquiet'⟩ := hnext m
  obtain ⟨hlt, -⟩ := List.getElem?_eq_some_iff.mp hk
  obtain ⟨tr₁, h₁⟩ := quiet_run hrun hbusy.alive hk hleads hquiet
  have h₂ : TableRun cfg _ _ :=
    h₁.snoc ⟨hbusy.alive, socket_move (List.getElem?_set_self hlt) hbusy.lowest⟩
  simp only [Sys.answered, List.set_set] at h₂
  obtain ⟨tr₃, h₃⟩ := quiet_run h₂ hbusy.alive (List.getElem?_set_self hlt) hleads' hquiet'
  simp only [List.set_set] at h₃
  refine ⟨ms, next', tr₃, _, h₃, ⟨hbusy.main, hbusy.running, hbusy.alive, hbusy.count, ?_,
    hbusy.insert⟩, List.getElem?_set_self hlt⟩
  simp [hbusy.length]

/-- A read of an area with a one-letter token. -/
def areaRequest (a : Bytes) : HttpRequest :=
  { tokenRequest with target := ascii "/api/" ++ a, path := ascii "/api/" ++ a }

theorem bodyPhase_areaRequest {s : Socket} {ip : Bytes} (hbody : 0 ≤ cfg.maxBodyBytes) :
    bodyPhase s cfg { areaRequest a with clientIp := ip } [] =
      .ret (.done { areaRequest a with clientIp := ip }) := by
  have hencoding : tokenRequest.header (ascii "transfer-encoding") = [] := by decide +kernel
  have hlength : tokenRequest.header (ascii "content-length") = [] := by decide +kernel
  exact bodyPhase_unframed hbody hencoding hlength

theorem matchRoute_areaRequest (ha : a ∈ apiAreas) :
    matchRoute (areaRequest a).method (areaRequest a).target cfg =
      { kind := .kApi, area := a, upstreamBase := cfg.upstreamFor a, forwardPath := ascii "/",
        requiredScope := scopeFor (ascii "GET") a } := by
  have hplain : ∀ a ∈ apiAreas, splitQuery (ascii "/api/" ++ a) = (ascii "/api/" ++ a, []) := by
    decide +kernel
  exact matchRoute_api (hplain a ha) ha (Or.inl ⟨rfl, rfl⟩)
    (show ascii "GET" ∈ allowedMethods by decide)

theorem Connects.of_leads {evs : Trace} (h : p.Leads evs q) (hquiet : ∀ e ∈ evs, IsQuiet e.op)
    (hq : Connects q) : Connects p := by
  obtain ⟨evs', ai, next, hleads, hquiet', hnext⟩ := hq
  refine ⟨evs ++ evs', ai, next, Prog.leads_append h hleads, ?_, hnext⟩
  intro e he
  rcases List.mem_append.mp he with he | he
  · exact hquiet e he
  · exact hquiet' e he

/-- The address loop opens a socket for its first address and waits for it to connect. -/
theorem connectAny_waits {timeoutMs : Int} {f : Option Socket × Bool → Io Unit} (ai : AddrInfo)
    (rest : List AddrInfo) : Connects (connectAny timeoutMs (ai :: rest) false >>= f) := by
  refine ⟨[], ai, _, rfl, by simp, ?_⟩
  intro u
  refine ⟨[⟨.getFl u, some 0⟩, ⟨.setFl u (0 ||| O_NONBLOCK), true⟩,
    ⟨.connect u ai, .error .EINPROGRESS⟩], timeoutMs, _,
    ⟨some 0, rfl, true, rfl, .error .EINPROGRESS, rfl, rfl⟩, by simp [IsQuiet]⟩

theorem forwardRequest_waits {base path : Bytes} {req : HttpRequest} {auth : AuthInfo}
    {timeoutMs : Int} {up : UpstreamAddr} (f : ProxyResult → Io Unit)
    (hup : parseUpstream base = .ok up) :
    Connects (forwardRequest base req path auth timeoutMs >>= f) := by
  have hlist : ¬ ((0 : Int) ≠ 0 ∨ [sampleAddr] = []) := by simp
  apply @Connects.of_leads _ _ [⟨.invoke (.forwardRequest base req path auth), ()⟩,
    ⟨.getaddrinfo up.host (toDecimal up.port.toNat), ⟨0, [sampleAddr]⟩⟩]
  · refine ⟨(), rfl, ?_⟩
    simp only [Prog.bind, hup]
    refine ⟨⟨0, [sampleAddr]⟩, rfl, ?_⟩
    simp only [Prog.bind, hlist, if_false]
    exact rfl
  · simp [IsQuiet]
  · change Connects (connectAny timeoutMs [sampleAddr] false >>= _ >>= f)
    rw [Prog.bind_assoc]
    exact connectAny_waits sampleAddr []

/-- A connection with such a request waits for the upstream of its area. -/
theorem areaRequest_connects {s : Socket} {ip : Bytes} {up : UpstreamAddr}
    (hbody : 0 ≤ cfg.maxBodyBytes) (ha : a ∈ apiAreas)
    (hup : parseUpstream (cfg.upstreamFor a) = .ok up) :
    Connects (handleAccepted s ip cfg (areaRequest a) []) := by
  let auth : AuthInfo := { ok := true, permissions := [scopeFor (ascii "GET") a] }
  let req : HttpRequest := { areaRequest a with clientIp := ip }
  have hroute : matchRoute req.method req.target cfg = _ := matchRoute_areaRequest ha
  have htoken : bearerFromHeader (req.header (ascii "authorization")) = ascii "t" :=
    show bearerFromHeader (tokenRequest.header (ascii "authorization")) = _ by decide +kernel
  have hscope : hasScope auth a (scopeFor (ascii "GET") a) = true := by simp [hasScope, auth]
  have hbase : cfg.upstreamFor a ≠ [] := by
    intro hnil
    rw [hnil] at hup
    cases hup
  have hserve : handleAccepted s ip cfg (areaRequest a) [] = serve s ip cfg req := by
    rw [handleAccepted, bodyPhase_areaRequest hbody]
    rfl
  rw [hserve]
  have hleads := @serve_leads s _ _ auth ip _ _ hroute rfl htoken (by decide) rfl hscope hbase
  exact .of_leads hleads (by simp [IsQuiet]) (forwardRequest_waits _ hup)

example : parseHttpRequest (ascii "GET /api/users HTTP/1.1\r\nAuthorization: Bearer t\r\n") =
    some (areaRequest (ascii "users")) := by decide +kernel

/-- Any number of clients within the limit can have their handlers wait for an upstream. -/
theorem crowd_reached {up : UpstreamAddr} (hbody : 0 ≤ cfg.maxBodyBytes) (ha : a ∈ apiAreas)
    (hup : parseUpstream (cfg.upstreamFor a) = .ok up) (hn : (n : Int) ≤ cfg.maxClients) :
    ∃ tr σ, TableRun cfg tr σ ∧ Busy σ .accepting n (4 + 2 * n) := by
  induction n with
  | zero => exact ⟨[], {}, .refl _, ⟨rfl, rfl, rfl, rfl, rfl, rfl⟩⟩
  | succ n ih =>
    obtain ⟨tr, σ, hrun, hbusy⟩ := ih (by omega)
    have hadmitted := busy_admits [] hrun hbusy (by omega) (.accepted (areaRequest a) [])
    obtain ⟨ms, next, tr', τ, hrun', hbusy', -⟩ :=
      busy_connects hadmitted (areaRequest_connects hbody ha hup)
    exact ⟨tr', τ, hrun', hbusy'⟩

/-- From 510 clients on, one of them waits on a descriptor that is out of range. -/
theorem select_out_of_range {up : UpstreamAddr} (hbody : 0 ≤ cfg.maxBodyBytes)
    (ha : a ∈ apiAreas) (hup : parseUpstream (cfg.upstreamFor a) = .ok up)
    (hmany : 510 ≤ cfg.maxClients) :
    ∃ tr τ ms next, TableRun cfg tr τ ∧
      τ.sys.handlers[509]? = some (.running (.call (.select 1024 ms) next)) := by
  obtain ⟨tr, σ, hrun, hbusy⟩ := @crowd_reached cfg a 509 up hbody ha hup (by omega)
  obtain ⟨tr₁, τ, h₁, hlast, hk⟩ :=
    busy_admits [] hrun hbusy (by omega) (.accepted (areaRequest a) [])
  -- main holds one more client, which it has yet to reject or count
  have h₂ : TableRun cfg _ _ := h₁.snoc ⟨hlast.alive, .keeps (.enter hlast.main hlast.running) rfl⟩
  have h₃ : TableRun cfg _ _ := h₂.snoc ⟨hlast.alive, .accept (.accept 1023 rfl) hlast.lowest⟩
  have hfull : Reaches cfg (.accepted 1023) 510 1024 509 _ :=
    ⟨_, _, h₃, ⟨rfl, hlast.running, hlast.alive, hlast.count, hlast.length, hlast.insert⟩, hk⟩
  obtain ⟨ms, next, tr₄, ρ, h₄, -, hwait⟩ :=
    busy_connects hfull (areaRequest_connects hbody ha hup)
  exact ⟨tr₄, ρ, ms, next, h₄, hwait⟩

end crowd

theorem maxBodyBytes_nonneg (h : loadConfig env = .ok cfg) : 0 ≤ cfg.maxBodyBytes := by
  have hlow := (@envInt_mem_range env (ascii "MAX_BODY_BYTES") (1024 * 1024) 1024
    (16 * 1024 * 1024) (by decide) (by decide)).1
  rw [(loadConfig_ok h).1]
  exact le_trans (by decide) hlow

/-- Every descriptor that is waited on is in range, in every interleaving, exactly when at most
509 clients are admitted or no request can be forwarded at all. -/
theorem selects_in_range_iff (hload : loadConfig env = .ok cfg) :
    (∀ tr τ, TableRun cfg tr τ → SelectsInRange τ) ↔ cfg.maxClients ≤ 509 ∨ ¬ Forwards cfg := by
  constructor
  · intro hall
    by_contra hno
    simp only [not_or, not_le, not_not] at hno
    obtain ⟨hmany, a, ha, up, hup⟩ := hno
    obtain ⟨tr, τ, ms, next, hrun, hwait⟩ :=
      select_out_of_range (maxBodyBytes_nonneg hload) ha hup (by omega)
    exact absurd (hall tr τ hrun 1024 ms next (List.mem_of_getElem? hwait)) (by decide)
  · rintro (hfew | hno) tr τ hrun
    · have hmax := (maxClients_range hload).1
      intro u ms next hwait
      have hle := select_le (accountable_run (by omega) hrun) hwait
      unfold FD_SETSIZE
      omega
    · exact selectsInRange_of_noUpstream hno hrun

/-- The default limit is far from the bound. -/
theorem users_in_range : (readConfig (usersAt (ascii "http://users:9001/v1"))).maxClients = 128 ∧
    ∀ tr τ, TableRun (readConfig (usersAt (ascii "http://users:9001/v1"))) tr τ →
      SelectsInRange τ :=
  ⟨by decide +kernel, (selects_in_range_iff loadConfig_users).mpr (Or.inl (by decide +kernel))⟩

/-- One module and a limit of 510 clients. -/
def crowdedSettings : Environment := fun name =>
  if name = ascii "MAX_CLIENTS" then some (ascii "510")
  else usersAt (ascii "http://users:9001/v1") name

theorem loadConfig_crowded : loadConfig crowdedSettings = .ok (readConfig crowdedSettings) :=
  loadConfig_of_checks (by decide +kernel) (by decide +kernel)

/-- All 510 handlers hold an upstream socket, and main holds a client that it will reject. -/
theorem crowd_overruns : ∃ cfg tr τ ms next, loadConfig crowdedSettings = .ok cfg ∧
    cfg.maxClients = 510 ∧ TableRun cfg tr τ ∧
    τ.sys.handlers[509]? = some (.running (.call (.select 1024 ms) next)) ∧
    ¬ SelectsInRange τ := by
  have hmax : (readConfig crowdedSettings).maxClients = 510 := by decide +kernel
  have hbase : (readConfig crowdedSettings).upstreamFor (ascii "users") =
      ascii "http://users:9001/v1" := by decide +kernel
  have hup : parseUpstream (ascii "http://users:9001/v1") =
      .ok ⟨ascii "users", 9001, ascii "/v1"⟩ := by decide +kernel
  obtain ⟨tr, τ, ms, next, hrun, hwait⟩ :=
    select_out_of_range (maxBodyBytes_nonneg loadConfig_crowded)
      (show ascii "users" ∈ apiAreas by decide) (hbase ▸ hup) (by omega)
  refine ⟨_, tr, τ, ms, next, loadConfig_crowded, hmax, hrun, hwait, ?_⟩
  intro hrange
  exact absurd (hrange 1024 ms next (List.mem_of_getElem? hwait)) (by decide)

end Gateway

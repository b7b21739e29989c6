import Mathlib
import Gateway.Deployment
import Gateway.Logger

/-! The start of main, up to its accept loop (main.cpp, getAddress.cpp). -/
namespace Gateway

open Program

/-- The calls that main makes before its accept loop. -/
inductive LaunchOp where
  | cout (text : Bytes)
  | cerr (text : Bytes)
  | gwLog (n : Note)
  | setLogLevel (level : LogLevel)
  | signal (sig : Signal)
  | netInit
  | netCleanup
  | netLastError
  | getaddrinfo (node : Bytes) (service : Option Bytes)
  | freeaddrinfo (list : List AddrInfo)
  | socket (ai : AddrInfo)
  | setReuseAddr (s : Socket)
  | bind (s : Socket) (ai : AddrInfo)
  | listen (s : Socket)
  | closeSocket (s : Socket)
  | gethostname
  | inetNtop (ai : AddrInfo)

@[reducible] def LaunchRes : LaunchOp → Type
  | .netInit | .setReuseAddr _ | .bind _ _ | .listen _ => Bool
  | .netLastError => Nat
  | .getaddrinfo _ _ => AddrResult
  | .socket _ => Option Socket
  | .gethostname | .inetNtop _ => Option Bytes
  | _ => Unit

abbrev Launch (α : Type) := Prog LaunchOp LaunchRes α

abbrev LaunchEvent := Event LaunchOp LaunchRes

def ask (o : LaunchOp) : Launch (LaunchRes o) := Prog.perform o

/-- The loop of `getLocalIPAddress`, which keeps the last address that can be written. -/
def lastAddress : List AddrInfo → Bytes → Launch Bytes
  | [], address => return address
  | p :: rest, address => do
    match ← ask (.inetNtop p) with
    | none => lastAddress rest address
    | some ipStr =>
      ask (.cout (ascii "- " ++ ipStr ++ [LF]))
      lastAddress rest ipStr

def getLocalIPAddress : Launch Bytes := do
  let fallback := ascii "127.0.0.1"
  match ← ask .gethostname with
  | none => return fallback
  | some hostname =>
    ask (.cout [LF])
    ask (.cout (ascii "Hostname: " ++ hostname ++ [LF]))
    let result ← ask (.getaddrinfo hostname none)
    if result.rc ≠ 0 then return fallback
    ask (.cout (ascii "Local IP Addresses:" ++ [LF]))
    let address ← lastAddress result.list fallback
    ask (.cout [LF])
    ask (.freeaddrinfo result.list)
    return address

/-- The loop over the addresses to listen on. -/
def listenAny : List AddrInfo → Launch (Option Socket)
  | [] => return none
  | ai :: rest => do
    match ← ask (.socket ai) with
    | none => listenAny rest
    | some s =>
      let _ ← ask (.setReuseAddr s)
      let bound ← ask (.bind s ai)
      let listening ← if bound then ask (.listen s) else pure false
      if listening then return some s
      let err ← ask .netLastError
      ask (.gwLog ⟨.Debug, ascii "bind/listen failed: " ++ toDecimal err⟩)
      ask (.closeSocket s)
      listenAny rest

/-- A line of the banner for each area. -/
def upstreamLine (cfg : Config) (area : Bytes) : Bytes :=
  let up := cfg.upstreamFor area
  ascii "  /api/" ++ area ++ ascii "/* -> " ++
    (if up = [] then ascii "(not configured, 502 at runtime)" else up) ++ [LF]

def banner (cfg : Config) : Bytes :=
  let address := cfg.bind ++ ascii ":" ++ toDecimal cfg.port.toNat
  ascii "module_main gateway v" ++ kGatewayVersion ++ ascii " started" ++ [LF] ++
    ascii "Listen:    http://" ++ address ++ ascii "/" ++ [LF] ++
    ascii "Health:    http://" ++ address ++ ascii "/health" ++ [LF] ++
    ascii "Log level: " ++ cfg.logLevel ++ [LF] ++ ascii "Upstreams:" ++ [LF] ++
    apiAreas.flatMap (upstreamLine cfg)

/-- Main returns a code, or comes to its accept loop. -/
inductive Launched where
  | returned (code : Nat)
  | listening (s : Socket) (cfg : Config)

/-- Main from the configuration it has read to its accept loop. -/
def startListening (cfg : Config) : Launch Launched := do
  ask (.setLogLevel (setLogLevel cfg.logLevel))
  ask (.signal .SIGINT)
  ask (.signal .SIGTERM)
  if !(← ask .netInit) then
    ask (.cerr (ascii "Network init failed." ++ [LF]))
    return .returned 1
  let resolved ← ask (.getaddrinfo cfg.bind (some (toDecimal cfg.port.toNat)))
  if resolved.rc ≠ 0 ∨ resolved.list = [] then
    ask (.cerr (ascii "Cannot resolve bind address '" ++ cfg.bind ++ ascii "'." ++ [LF]))
    ask .netCleanup
    return .returned 1
  let listener ← listenAny resolved.list
  ask (.freeaddrinfo resolved.list)
  match listener with
  | none =>
    ask (.cerr (ascii "Cannot listen on " ++ cfg.bind ++ ascii ":" ++
      toDecimal cfg.port.toNat ++ ascii " (err "))
    let err ← ask .netLastError
    ask (.cerr (toDecimal err ++ ascii "). Port busy?" ++ [LF]))
    ask .netCleanup
    return .returned 1
  | some s =>
    ask (.cout (banner cfg))
    ask (.cout (ascii "Local IP in LAN: "))
    let address ← getLocalIPAddress
    ask (.cout (address ++ [LF, LF]))
    return .listening s cfg

/-- Main up to its accept loop. -/
def launch (env : Environment) : Launch Launched :=
  match loadConfig env with
  | .error e => do
    ask (.cerr (ascii "Config error: " ++ e ++ [LF]))
    return .returned 1
  | .ok cfg => startListening cfg

/-- How far main has come with a socket. -/
inductive Stage where
  | opened
  | reusable
  | bound
  | listening
  deriving DecidableEq

/-- What main holds while it starts: the network, an address list and a socket. -/
structure Setup where
  net : Bool := false
  list : List AddrInfo := []
  own : Option (Socket × Stage) := none
  dispositions : List Signal := []

/-- Main opens one socket at a time, takes it from stage to stage and closes none that listens; it
asks for addresses and sockets only between `net_init` and `net_cleanup`, and frees the list it
has. -/
def Setup.step (g : Setup) : LaunchEvent → Option Setup
  | ⟨.signal sig, _⟩ => some { g with dispositions := g.dispositions ++ [sig] }
  | ⟨.netInit, ok⟩ => if g.net then none else some { g with net := ok }
  | ⟨.netCleanup, _⟩ => if g.net then some { g with net := false } else none
  | ⟨.getaddrinfo _ _, r⟩ => if g.net ∧ g.list = [] then some { g with list := r.list } else none
  | ⟨.freeaddrinfo list, _⟩ => if g.list = list then some { g with list := [] } else none
  | ⟨.socket _, so⟩ =>
    if g.net ∧ g.own = none then some { g with own := so.map (·, .opened) } else none
  | ⟨.setReuseAddr s, _⟩ =>
    if g.own = some (s, .opened) then some { g with own := some (s, .reusable) } else none
  | ⟨.bind s _, ok⟩ =>
    if g.own = some (s, .reusable) then
      some { g with own := some (s, if ok then .bound else .reusable) }
    else none
  | ⟨.listen s, ok⟩ =>
    if g.own = some (s, .bound) then
      some { g with own := some (s, if ok then .listening else .bound) }
    else none
  | ⟨.closeSocket s, _⟩ =>
    if g.own.map Prod.fst = some s ∧ g.own.map Prod.snd ≠ some .listening then
      some { g with own := none }
    else none
  | _ => some g

/-- A lookup that fails leaves no list behind. -/
def LeavesNoList : LaunchEvent → Prop
  | ⟨.getaddrinfo _ _, r⟩ => r.rc ≠ 0 → r.list = []
  | _ => True

def setupMonitor : Monitor LaunchOp LaunchRes Setup where
  promised := LeavesNoList
  step := Setup.step

variable {env : Environment} {cfg : Config} {g g' : Setup} {evs : List LaunchEvent}
  {out : Launched}

theorem lastAddress_wp (list : List AddrInfo) (address : Bytes) :
    setupMonitor.wp (lastAddress list address) (fun _ g' => g' = g) g := by
  induction list generalizing address with
  | nil => rfl
  | cons p rest ih =>
    intro ipStr _
    refine ⟨g, rfl, ?_⟩
    cases ipStr with
    | none => exact ih address
    | some ipStr => exact fun _ _ => ⟨g, rfl, ih ipStr⟩

/-- The look at the own addresses leaves everything as it was. -/
theorem getLocalIPAddress_wp (hnet : g.net = true) (hlist : g.list = []) :
    setupMonitor.wp getLocalIPAddress (fun _ g' => g' = g) g := by
  obtain ⟨net, list, own, dispositions⟩ := g
  obtain rfl : net = true := hnet
  obtain rfl : list = [] := hlist
  intro hostname _
  refine ⟨_, rfl, ?_⟩
  cases hostname with
  | none => rfl
  | some hostname =>
    refine fun _ _ => ⟨_, rfl, fun _ _ => ⟨_, rfl, ?_⟩⟩
    intro result hresult
    refine ⟨⟨true, result.list, own, dispositions⟩, rfl, ?_⟩
    by_cases hrc : result.rc = 0
    · simp only [Prog.bind, hrc, ne_eq, not_true_eq_false, if_false]
      refine fun _ _ => ⟨_, rfl, ?_⟩
      apply Monitor.wp_bind (p := lastAddress result.list _)
      apply Monitor.wp_mono (lastAddress_wp result.list _)
      rintro address g' rfl
      refine fun _ _ => ⟨_, rfl, fun _ _ => ⟨⟨true, [], own, dispositions⟩, ?_, rfl⟩⟩
      simp [setupMonitor, Setup.step]
    · have hnone : result.list = [] := hresult hrc
      simp [Prog.bind, hrc, hnone]

/-- Every socket of the loop is closed, or it listens and is returned. -/
theorem listenAny_wp (hnet : g.net = true) (hown : g.own = none) (list : List AddrInfo) :
    setupMonitor.wp (listenAny list)
      (fun out g' => g' = { g with own := out.map (·, .listening) }) g := by
  obtain ⟨net, addresses, own, dispositions⟩ := g
  obtain rfl : net = true := hnet
  obtain rfl : own = none := hown
  induction list with
  | nil => exact rfl
  | cons ai rest ih =>
    intro so _
    refine ⟨⟨true, addresses, so.map (·, .opened), dispositions⟩, rfl, ?_⟩
    cases so with
    | none => exact ih
    | some s =>
      have hfailed : ∀ st, st ≠ .listening → setupMonitor.wp (do
          let err ← ask .netLastError
          ask (.gwLog ⟨.Debug, ascii "bind/listen failed: " ++ toDecimal err⟩)
          ask (.closeSocket s)
          listenAny rest)
          (fun out g' => g' = ⟨true, addresses, out.map (·, .listening), dispositions⟩)
          ⟨true, addresses, some (s, st), dispositions⟩ := by
        refine fun st hst _ _ => ⟨_, rfl, fun _ _ => ⟨_, rfl, fun _ _ => ⟨_, ?_, ih⟩⟩⟩
        simp [setupMonitor, Setup.step, hst]
      refine fun _ _ => ⟨⟨true, addresses, some (s, .reusable), dispositions⟩, ?_, ?_⟩
      · simp [setupMonitor, Setup.step]
      · intro bound _
        refine ⟨⟨true, addresses, some (s, if bound then .bound else .reusable), dispositions⟩,
          ?_, ?_⟩
        · simp [setupMonitor, Setup.step]
        · cases bound with
          | false => exact hfailed _ (by simp)
          | true =>
            intro listening _
            refine ⟨⟨true, addresses, some (s, if listening then .listening else .bound),
              dispositions⟩, ?_, ?_⟩
            · simp [setupMonitor, Setup.step]
            · cases listening with
              | false => exact hfailed _ (by simp)
              | true => exact rfl

/-- Where main stands with a configuration: it has returned and holds nothing, or its socket
listens, the signals have their handlers and the network is up. -/
def Ready (cfg : Config) : Launched → Setup → Prop
  | .returned code, g => code = 1 ∧ g.net = false ∧ g.list = [] ∧ g.own = none
  | .listening s cfg', g => cfg' = cfg ∧
      g = { net := true, own := some (s, .listening), dispositions := installedDispositions }

theorem startListening_wp (cfg : Config) : setupMonitor.wp (startListening cfg) (Ready cfg) {} := by
  refine fun _ _ => ⟨_, rfl, fun _ _ => ⟨_, rfl, fun _ _ => ⟨_, rfl, ?_⟩⟩⟩
  intro ok _
  refine ⟨{ net := ok, dispositions := installedDispositions }, rfl, ?_⟩
  cases ok with
  | false => exact fun _ _ => ⟨_, rfl, rfl, rfl, rfl, rfl⟩
  | true =>
    intro resolved hresolved
    refine ⟨{ net := true, list := resolved.list, dispositions := installedDispositions }, rfl, ?_⟩
    by_cases hfailed : resolved.rc ≠ 0 ∨ resolved.list = []
    · have hnone : resolved.list = [] := hfailed.elim hresolved id
      simp only [Prog.bind, if_pos hfailed]
      exact fun _ _ => ⟨_, rfl, fun _ _ => ⟨_, rfl, rfl, rfl, hnone, rfl⟩⟩
    · simp only [Prog.bind, if_neg hfailed]
      apply Monitor.wp_bind
      apply Monitor.wp_mono (listenAny_wp rfl rfl resolved.list)
      rintro so g' rfl
      intro _ _
      refine ⟨{ net := true, own := so.map (·, .listening), dispositions := installedDispositions },
        by simp [setupMonitor, Setup.step], ?_⟩
      cases so with
      | none =>
        refine fun _ _ => ⟨_, rfl, fun _ _ => ⟨_, rfl, fun _ _ => ⟨_, rfl, fun _ _ => ?_⟩⟩⟩
        exact ⟨_, rfl, rfl, rfl, rfl, rfl⟩
      | some s =>
        refine fun _ _ => ⟨_, rfl, fun _ _ => ⟨_, rfl, ?_⟩⟩
        apply Monitor.wp_bind (p := getLocalIPAddress)
        apply Monitor.wp_mono (getLocalIPAddress_wp rfl rfl)
        rintro address g' rfl
        exact fun _ _ => ⟨_, rfl, rfl, rfl⟩

/-- The descriptors that are open when the process starts: the standard streams. -/
def standardFds : Finset Socket := {0, 1, 2}

def launchFds (fds : Finset Socket) : LaunchEvent → Finset Socket
  | ⟨.socket _, some u⟩ => insert u fds
  | ⟨.closeSocket u, _⟩ => fds.erase u
  | _ => fds

/-- Every socket gets the lowest descriptor that is free. -/
def HandedLowest : Finset Socket → List LaunchEvent → Prop
  | _, [] => True
  | fds, e :: evs =>
    (∀ ai u, e = ⟨.socket ai, some u⟩ → LowestFree fds u) ∧ HandedLowest (launchFds fds e) evs

/-- The socket that main has. -/
def Setup.fd (g : Setup) : Option Socket := g.own.map Prod.fst

/-- The open descriptors are the standard streams and the socket of main, the listener's. -/
def Tabled (g : Setup) (fds : Finset Socket) : Prop :=
  g.fd = none ∧ fds = standardFds ∨ g.fd = some listener ∧ fds = firstFds

theorem tabled_step {e : LaunchEvent} {fds : Finset Socket} (hstep : g.step e = some g')
    (htabled : Tabled g fds) (hgranted : ∀ ai u, e = ⟨.socket ai, some u⟩ → LowestFree fds u) :
    Tabled g' (launchFds fds e) := by
  obtain ⟨o, r⟩ := e
  have hkept (hfd : g'.fd = g.fd) (hfds : launchFds fds ⟨o, r⟩ = fds) :
      Tabled g' (launchFds fds ⟨o, r⟩) := by
    rwa [hfds, Tabled, hfd]
  cases o with
  | socket ai =>
    obtain ⟨⟨-, hown⟩, rfl⟩ := by simpa [Setup.step] using hstep
    obtain ⟨-, rfl⟩ : g.fd = none ∧ fds = standardFds := by
      simpa [Tabled, Setup.fd, hown] using htabled
    cases r with
    | none => exact .inl ⟨rfl, rfl⟩
    | some u =>
      obtain rfl : u = listener := (hgranted ai u rfl).unique listener_lowestFree
      exact .inr ⟨rfl, show insert listener standardFds = firstFds by decide⟩
  | closeSocket u =>
    obtain ⟨⟨hfd, -⟩, rfl⟩ := by simpa [Setup.step] using hstep
    have hfd' : g.fd = some u := by simpa [Setup.fd] using hfd
    rcases htabled with ⟨hnone, -⟩ | ⟨hsome, rfl⟩
    · rw [hfd'] at hnone
      cases hnone
    · obtain rfl : u = listener := Option.some.inj (hfd'.symm.trans hsome)
      exact .inl ⟨rfl, show firstFds.erase listener = standardFds by decide⟩
  | setReuseAddr u =>
    obtain ⟨hown, rfl⟩ := by simpa [Setup.step] using hstep
    exact hkept (by simp [Setup.fd, hown]) rfl
  | bind u ai =>
    obtain ⟨hown, rfl⟩ := by simpa [Setup.step] using hstep
    exact hkept (by simp [Setup.fd, hown]) rfl
  | listen u =>
    obtain ⟨hown, rfl⟩ := by simpa [Setup.step] using hstep
    exact hkept (by simp [Setup.fd, hown]) rfl
  | netInit =>
    obtain ⟨-, rfl⟩ := by simpa [Setup.step] using hstep
    exact hkept rfl rfl
  | netCleanup =>
    obtain ⟨-, rfl⟩ := by simpa [Setup.step] using hstep
    exact hkept rfl rfl
  | getaddrinfo node service =>
    obtain ⟨-, rfl⟩ := by simpa [Setup.step] using hstep
    exact hkept rfl rfl
  | freeaddrinfo list =>
    obtain ⟨-, rfl⟩ := by simpa [Setup.step] using hstep
    exact hkept rfl rfl
  | _ =>
    obtain rfl := Option.some.inj hstep
    exact hkept rfl rfl

theorem tabled_follow {fds : Finset Socket} (hfollow : setupMonitor.follow g evs = some g')
    (htabled : Tabled g fds) (hgranted : HandedLowest fds evs) :
    Tabled g' (evs.foldl launchFds fds) := by
  induction evs generalizing g fds with
  | nil =>
    obtain rfl := Option.some.inj hfollow
    exact htabled
  | cons e evs ih =>
    obtain ⟨next, hstep, hrest⟩ := Option.bind_eq_some_iff.mp hfollow
    exact ih hrest (tabled_step hstep htabled hgranted.1) hgranted.2

/-- A socket that listens stays in the hands of main. -/
theorem listening_step {e : LaunchEvent} {s : Socket} (hown : g.own = some (s, .listening))
    (hstep : g.step e = some g') : g'.own = some (s, .listening) := by
  obtain ⟨net, list, own, dispositions⟩ := g
  obtain rfl : own = some (s, .listening) := hown
  obtain ⟨o, r⟩ := e
  cases o with
  | socket ai => simp [Setup.step] at hstep
  | setReuseAddr u => simp [Setup.step] at hstep
  | bind u ai => simp [Setup.step] at hstep
  | listen u => simp [Setup.step] at hstep
  | closeSocket u => simp [Setup.step] at hstep
  | netInit =>
    obtain ⟨-, rfl⟩ := by simpa [Setup.step] using hstep
    rfl
  | netCleanup =>
    obtain ⟨-, rfl⟩ := by simpa [Setup.step] using hstep
    rfl
  | getaddrinfo node service =>
    obtain ⟨-, rfl⟩ := by simpa [Setup.step] using hstep
    rfl
  | freeaddrinfo freed =>
    obtain ⟨-, rfl⟩ := by simpa [Setup.step] using hstep
    rfl
  | _ =>
    obtain rfl := Option.some.inj hstep
    rfl

theorem listening_follow {s : Socket} (hown : g.own = some (s, .listening))
    (hfollow : setupMonitor.follow g evs = some g') : g'.own = some (s, .listening) := by
  induction evs generalizing g with
  | nil =>
    obtain rfl := Option.some.inj hfollow
    exact hown
  | cons e evs ih =>
    obtain ⟨next, hstep, hrest⟩ := Option.bind_eq_some_iff.mp hfollow
    exact ih (listening_step hown hstep) hrest

/-- Main has no socket at the end only if none has come to listen. -/
theorem none_listened (hfollow : setupMonitor.follow g evs = some g') (hown : g'.own = none)
    (s : Socket) : (⟨.listen s, true⟩ : LaunchEvent) ∉ evs := by
  induction evs generalizing g with
  | nil => exact List.not_mem_nil
  | cons e evs ih =>
    obtain ⟨next, hstep, hrest⟩ := Option.bind_eq_some_iff.mp hfollow
    intro hmem
    rcases List.mem_cons.mp hmem with rfl | hmem
    · obtain ⟨-, rfl⟩ := by simpa [setupMonitor, Setup.step] using hstep
      have hlast := listening_follow (s := s) rfl hrest
      rw [hown] at hlast
      cases hlast
    · exact ih hrest hmem

/-- A run of main up to its accept loop. -/
structure LaunchRun (env : Environment) (evs : List LaunchEvent) (out : Launched) : Prop where
  runs : (launch env).Runs evs out
  lookups : ∀ e ∈ evs, LeavesNoList e
  granted : HandedLowest standardFds evs

/-- What a start of main comes to. -/
inductive Start (env : Environment) (evs : List LaunchEvent) (g : Setup) : Launched → Prop
  /-- Main gives up: nothing listens, and all that it took is given back. -/
  | gaveUp (unheard : ∀ s, (⟨.listen s, true⟩ : LaunchEvent) ∉ evs) (net : g.net = false)
      (list : g.list = []) (fds : evs.foldl launchFds standardFds = standardFds) :
      Start env evs g (.returned 1)
  /-- Main listens, and its accept loop begins as the process is deployed. -/
  | deployed {cfg : Config} (config : loadConfig env = .ok cfg) (net : g.net = true)
      (list : g.list = []) (own : g.own = some (listener, .listening))
      (begins : (deploy cfg).proc = { sys := { dispositions := g.dispositions }
                                      fds := evs.foldl launchFds standardFds }) :
      Start env evs g (.listening listener cfg)

theorem follow_launch (h : LaunchRun env evs out) : ∃ g, setupMonitor.follow {} evs = some g ∧
    ((∃ cfg, loadConfig env = .ok cfg ∧ Ready cfg out g) ∨ out = .returned 1 ∧ g = {}) := by
  obtain ⟨hruns, hlookups, -⟩ := h
  unfold launch at hruns
  cases hload : loadConfig env with
  | error e =>
    rw [hload] at hruns
    obtain ⟨r, rest, rfl, rfl, rfl⟩ := hruns
    exact ⟨{}, rfl, .inr ⟨rfl, rfl⟩⟩
  | ok cfg =>
    rw [hload] at hruns
    obtain ⟨g, hfollow, hready⟩ := Monitor.follow_of_wp (startListening_wp cfg) hruns hlookups
    exact ⟨g, hfollow, .inl ⟨cfg, rfl, hready⟩⟩

/-- In every run main either returns 1 with nothing listening and everything given back, or hands
its accept loop the state in which the process is deployed: the configuration that was checked, the
handlers of the signals installed, and beside the standard streams one descriptor, on which it
listens. -/
theorem launch_hands_over (h : LaunchRun env evs out) :
    ∃ g, setupMonitor.follow {} evs = some g ∧ Start env evs g out := by
  obtain ⟨g, hfollow, hout⟩ := follow_launch h
  have htabled : Tabled g (evs.foldl launchFds standardFds) :=
    tabled_follow hfollow (.inl ⟨rfl, rfl⟩) h.granted
  have hgaveUp (hout : out = .returned 1) (hnet : g.net = false) (hlist : g.list = [])
      (hown : g.own = none) : Start env evs g out := by
    obtain ⟨-, hfds⟩ : g.fd = none ∧ _ := by simpa [Tabled, Setup.fd, hown] using htabled
    rw [hout]
    exact .gaveUp (none_listened hfollow hown) hnet hlist hfds
  refine ⟨g, hfollow, ?_⟩
  rcases hout with ⟨cfg, hload, hready⟩ | ⟨hout, rfl⟩
  · cases out with
    | returned code =>
      obtain ⟨rfl, hnet, hlist, hown⟩ := hready
      exact hgaveUp rfl hnet hlist hown
    | listening s cfg' =>
      obtain ⟨rfl, rfl⟩ := hready
      obtain ⟨rfl, hfds⟩ : s = listener ∧ evs.foldl launchFds standardFds = firstFds := by
        simpa [Tabled, Setup.fd] using htabled
      exact .deployed hload rfl rfl rfl (by rw [hfds]; rfl)
  · exact hgaveUp hout rfl rfl rfl

/-- The loopback address, for TCP. -/
def loopback : AddrInfo := ⟨2, 1, 6, [127, 0, 0, 1]⟩

/-- With nothing but a secret set, and the first address free, main comes to its accept loop. -/
theorem secretOnly_launches : ∃ evs g,
    LaunchRun secretOnly evs (.listening listener (readConfig secretOnly)) ∧
      Start secretOnly evs g (.listening listener (readConfig secretOnly)) := by
  have hlaunch : launch secretOnly = startListening (readConfig secretOnly) := by
    rw [launch, loadConfig_secretOnly]
  have hruns : (startListening (readConfig secretOnly)).Runs _
      (.listening listener (readConfig secretOnly)) :=
    ⟨(), _, rfl, (), _, rfl, (), _, rfl, true, _, rfl, ⟨0, [loopback]⟩, _, rfl,
      some listener, _, rfl, true, _, rfl, true, _, rfl, true, _, rfl, (), _, rfl, (), _, rfl,
      (), _, rfl, none, _, rfl, (), _, rfl, rfl, rfl⟩
  rw [← hlaunch] at hruns
  have hrun : LaunchRun secretOnly _ _ := ⟨hruns, by simp [LeavesNoList], by
    simpa [HandedLowest, launchFds, standardFds] using listener_lowestFree⟩
  obtain ⟨g, -, hstart⟩ := launch_hands_over hrun
  exact ⟨_, g, hrun, hstart⟩

end Gateway

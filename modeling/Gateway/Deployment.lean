import Mathlib
import Gateway.DescriptorTable
import Gateway.RateLimits
import Gateway.Jwt.Token
import Gateway.Library.Threads

/-! The process as it is deployed: its calls are answered by the limiter it shares and by the JWT
library it is linked with, and a log keeps who made them and who owns each descriptor. -/
namespace Gateway

open Program Transition

/-- What the verification of a token rests on outside the process. -/
structure Deployment where
  hmac : Jwt.Hmac

/-- Who is to close a descriptor. -/
inductive Owner where
  | main
  | handler (k : Nat)
  deriving DecidableEq

/-- A call with the handler that made it and its reading of the limiter's clock. -/
structure Entry where
  handler : Nat
  event : Event Op Res
  now : Int

def Entry.call (x : Entry) : Nat × Event Op Res := (x.handler, x.event)

structure Deployed where
  proc : Process := {}
  limiter : RateLimiter
  /-- What the threads were started with. -/
  starts : List (Io Unit) := []
  owner : Socket → Option Owner := fun u => if u ∈ firstFds then some .main else none
  log : List Entry := []

/-- The limiter answers `allow`, and the linked library `verifyJwt`, at some reading of its
clock. -/
def Deployment.Answers (D : Deployment) (limiter : RateLimiter) (now : Int) : Event Op Res → Prop
  | ⟨.allow ip, verdict⟩ => verdict = (limiter.allow ip now).1
  | ⟨.verifyJwt token secret requiredIssuer, info⟩ => ∃ clock order,
      order.Perm [.exp, .iat, .nbf] ∧
      verifyJwt (Jwt.library D.hmac clock order) token secret requiredIssuer = .ok info
  | _ => True

def limiterAfter (limiter : RateLimiter) (now : Int) : Event Op Res → RateLimiter
  | ⟨.allow ip, _⟩ => (limiter.allow ip now).2
  | _ => limiter

/-- A handler owns the sockets it opens. -/
def ownerAfter (owner : Socket → Option Owner) (k : Nat) : Event Op Res → Socket → Option Owner
  | ⟨.socket _, some u⟩ => Function.update owner u (some (.handler k))
  | ⟨.closeSocket u, _⟩ => Function.update owner u none
  | _ => owner

/-- A step of the process, with what the limiter, the log and the owners make of it. `allow` reads
its clock before it takes the lock, so the readings need not come in order. -/
inductive DeployedMove (D : Deployment) (cfg : Config) (σ : Deployed) : Label → Deployed → Prop
  | keeps {l : Label} {τ : Process} (h : ProcessMove cfg σ.proc l τ) (kept : l.keepsFds = true) :
      DeployedMove D cfg σ l { σ with proc := τ }
  | accept {cs : Socket} {τ : Process} (h : ProcessMove cfg σ.proc (.accept cs) τ) :
      DeployedMove D cfg σ (.accept cs)
        { σ with proc := τ, owner := Function.update σ.owner cs (some .main) }
  | reject {cs : Socket} {τ : Process} (pc : σ.proc.sys.main = .accepted cs)
      (h : ProcessMove cfg σ.proc .reject τ) :
      DeployedMove D cfg σ .reject
        { σ with proc := τ, owner := Function.update σ.owner cs none }
  | timeoutFailed {cs : Socket} {τ : Process} (pc : σ.proc.sys.main = .checked cs)
      (h : ProcessMove cfg σ.proc .timeoutFailed τ) :
      DeployedMove D cfg σ .timeoutFailed
        { σ with proc := τ, owner := Function.update σ.owner cs none }
  | spawn {cs : Socket} {ip : Bytes} {p : Io Unit} (pc : σ.proc.sys.main = .starting cs ip)
      (serves : ServesConnection cs ip cfg p) :
      DeployedMove D cfg σ .spawn
        { σ with
          proc :=
            { sys := { σ.proc.sys with
                main := .accepting
                handlers := σ.proc.sys.handlers ++ [.running p] }
              fds := σ.proc.fds }
          starts := σ.starts ++ [p]
          owner := Function.update σ.owner cs (some (.handler σ.starts.length)) }
  | shutdown {τ : Process} (h : ProcessMove cfg σ.proc .shutdown τ) :
      DeployedMove D cfg σ .shutdown
        { σ with proc := τ, owner := Function.update σ.owner listener none }
  | call {k : Nat} {o : Op} {next : Res o → Io Unit} (r : Res o) (now : Int)
      (pc : σ.proc.sys.handlers[k]? = some (.running (.call o next)))
      (safe : ¬ RaisesSigpipe σ.proc.sys o) (answer : Answers σ.proc.sys o r)
      (lowest : HandsOut σ.proc.fds ⟨o, r⟩) (clock : 0 < now)
      (answered : D.Answers σ.limiter now ⟨o, r⟩) :
      DeployedMove D cfg σ (.call k o)
        { σ with
          proc := { sys := σ.proc.sys.answered k o r next, fds := fdsAfter σ.proc.fds ⟨o, r⟩ }
          limiter := limiterAfter σ.limiter now ⟨o, r⟩
          owner := ownerAfter σ.owner k ⟨o, r⟩
          log := σ.log ++ [⟨k, ⟨o, r⟩, now⟩] }
  | sigpipe {k : Nat} {o : Op} {next : Res o → Io Unit}
      (pc : σ.proc.sys.handlers[k]? = some (.running (.call o next)))
      (raised : RaisesSigpipe σ.proc.sys o) :
      DeployedMove D cfg σ (.call k o)
        { σ with proc := { sys := { σ.proc.sys with ended := some .killed }, fds := σ.proc.fds } }

def DeployedStep (D : Deployment) (cfg : Config) (σ : Deployed) (l : Label) (τ : Deployed) : Prop :=
  σ.proc.sys.ended = none ∧ DeployedMove D cfg σ l τ

/-- The process when its accept loop begins. -/
def deploy (cfg : Config) : Deployed where
  limiter := freshLimiter cfg.rateLimitPerMin

def DeployedRun (D : Deployment) (cfg : Config) (tr : List (Deployed × Label)) (τ : Deployed) :
    Prop :=
  Run (DeployedStep D cfg) (deploy cfg) tr τ

variable {D : Deployment} {cfg : Config} {σ τ : Deployed} {l : Label}
  {tr : List (Deployed × Label)} {ip : Bytes} {p q : Io Unit} {evs : Trace}

/-- Without limiter, log and owners a step is one of the process. -/
theorem DeployedMove.process (h : DeployedMove D cfg σ l τ) : ProcessMove cfg σ.proc l τ.proc := by
  cases h with
  | keeps h kept => exact h
  | accept h => exact h
  | reject pc h => exact h
  | timeoutFailed pc h => exact h
  | spawn pc serves => exact .spawn pc serves
  | shutdown h => exact h
  | call r now pc safe answer lowest clock answered => exact .call r pc safe answer lowest
  | sigpipe pc raised => exact .sigpipe pc raised

theorem deployed_tableRun (h : DeployedRun D cfg tr τ) :
    TableRun cfg (tr.map fun p => (p.1.proc, p.2)) τ.proc :=
  h.map Deployed.proc fun step => ⟨step.1, step.2.process⟩

theorem deployed_processRun (h : DeployedRun D cfg tr τ) :
    ProcessRun cfg (tr.map fun p => (p.1.proc.sys, p.2)) τ.proc.sys := by
  have hstep : ∀ {σ l τ}, DeployedStep D cfg σ l τ → Step cfg σ.proc.sys l τ.proc.sys :=
    fun step => ⟨step.1, step.2.process.sys⟩
  exact Run.map (fun σ : Deployed => σ.proc.sys) hstep h

/-- What a handler has left to do. -/
def Handler.rest : Handler → Io Unit
  | .running p => p
  | .finished => .ret ()

/-- The log tells how each thread came to where it stands, and each serves a connection. -/
structure Chronicled (cfg : Config) (σ : Deployed) : Prop where
  recorded : Recorded σ.starts (σ.proc.sys.handlers.map Handler.rest) (σ.log.map Entry.call)
  serves : ∀ p ∈ σ.starts, ∃ cs ip, ServesConnection cs ip cfg p

theorem rests_of_keeps {σ τ : Sys} (h : Move cfg σ l τ) (kept : l.keepsFds = true) :
    τ.handlers.map Handler.rest = σ.handlers.map Handler.rest := by
  rcases handlers_of_keeps h kept with heq | ⟨k, hk, heq⟩
  · rw [heq]
  · rw [heq, List.map_set]
    apply Accounts.set_of_getElem?
    rw [List.getElem?_map, hk]
    rfl

/-- The steps of main leave the handlers alone. -/
theorem rests_of_main {σ τ : Process} (h : ProcessMove cfg σ l τ)
    (hl : (∃ cs, l = .accept cs) ∨ l = .reject ∨ l = .timeoutFailed ∨ l = .shutdown) :
    τ.sys.handlers = σ.sys.handlers := by
  rcases hl with ⟨cs, rfl⟩ | rfl | rfl | rfl
  · cases h with
    | keeps h kept => cases kept
    | accept h lowest => cases h with | accept cs pc => rfl
  · cases h with
    | keeps h kept => cases kept
    | reject pc h => cases h with | reject pc full => rfl
  · cases h with
    | keeps h kept => cases kept
    | timeoutFailed pc h => cases h with | timeoutFailed pc => rfl
  · cases h with
    | keeps h kept => cases kept
    | shutdown h => cases h with | shutdown pc stop => rfl

theorem chronicled_step (hσ : Chronicled cfg σ) (h : DeployedMove D cfg σ l τ) :
    Chronicled cfg τ := by
  obtain ⟨hrec, hserves⟩ := hσ
  cases h with
  | keeps h kept =>
    refine ⟨?_, hserves⟩
    cases h with
    | keeps h kept => exact rests_of_keeps h kept ▸ hrec
    | _ => cases kept
  | accept h => exact ⟨rests_of_main h (.inl ⟨_, rfl⟩) ▸ hrec, hserves⟩
  | reject pc h => exact ⟨rests_of_main h (.inr (.inl rfl)) ▸ hrec, hserves⟩
  | timeoutFailed pc h => exact ⟨rests_of_main h (.inr (.inr (.inl rfl))) ▸ hrec, hserves⟩
  | shutdown h => exact ⟨rests_of_main h (.inr (.inr (.inr rfl))) ▸ hrec, hserves⟩
  | @spawn cs ip p pc serves =>
    refine ⟨?_, ?_⟩
    · simp only [List.map_append, List.map_cons, List.map_nil]
      exact hrec.spawn p
    · intro q hq
      rcases List.mem_append.mp hq with hq | hq
      · exact hserves q hq
      · obtain rfl := List.mem_singleton.mp hq
        exact ⟨cs, ip, serves⟩
  | @call k o next r now pc safe answer lowest clock answered =>
    refine ⟨?_, hserves⟩
    have hk : (σ.proc.sys.handlers.map Handler.rest)[k]? = some (.call o next) := by
      rw [List.getElem?_map, pc]
      rfl
    simp only [Sys.answered, List.map_set, List.map_append, List.map_cons, List.map_nil]
    exact hrec.call hk r
  | sigpipe pc raised => exact ⟨hrec, hserves⟩

theorem chronicled_run (h : DeployedRun D cfg tr τ) : Chronicled cfg τ :=
  Run.preserves (I := Chronicled cfg) (fun hσ hstep => chronicled_step hσ hstep.2) h
    ⟨.nil, by simp [deploy]⟩

/-- The calls of a handler, in the order in which it made them. -/
def Deployed.callsOf (σ : Deployed) (k : Nat) : Trace := traceOf k (σ.log.map Entry.call)

/-- The answers that a handler gets are possible while it is alone and the limiter's clock stands
at 1: the table hands out its descriptors, and the limiter and the library give their verdicts. -/
def Answerable (D : Deployment) : RateLimiter → Finset Socket → Trace → Prop
  | _, _, [] => True
  | limiter, fds, e :: evs => HandsOut fds e ∧ D.Answers limiter 1 e ∧
      Answerable D (limiterAfter limiter 1 e) (fdsAfter fds e) evs

/-- A call that only the operating system and the peers answer, and that opens nothing. -/
def IsPlain : Op → Prop
  | .socket _ | .allow _ | .verifyJwt _ _ _ => False
  | _ => True

theorem answerable_of_plain {limiter : RateLimiter} {fds : Finset Socket}
    (h : ∀ e ∈ evs, IsPlain e.op) : Answerable D limiter fds evs := by
  induction evs generalizing limiter fds with
  | nil => trivial
  | cons e evs ih =>
    rw [List.forall_mem_cons] at h
    obtain ⟨o, r⟩ := e
    cases o with
    | socket ai => exact h.1.elim
    | allow ip => exact h.1.elim
    | verifyJwt token secret issuer => exact h.1.elim
    | _ => exact ⟨trivial, trivial, ih h.2⟩

theorem Answerable.of_append {limiter : RateLimiter} {fds : Finset Socket} {evs' : Trace}
    (h : Answerable D limiter fds (evs ++ evs')) : Answerable D limiter fds evs := by
  induction evs generalizing limiter fds with
  | nil => trivial
  | cons e evs ih => exact ⟨h.1, h.2.1, ih h.2.2⟩

/-- A run with one client, whose handler has made the calls `evs` from `start` on and has `p` left
to do, while every peer was there. -/
structure AloneRun (D : Deployment) (cfg : Config) (start : Io Unit) (tr : List (Deployed × Label))
    (σ : Deployed) (evs : Trace) (p : Io Unit) : Prop where
  run : DeployedRun D cfg tr σ
  calm : ∀ e ∈ tr, ∀ s, e.1.proc.sys.peerClosed s = false
  labels : ∃ ip, tr.map Prod.snd = connects 4 ip ++ evs.map fun e => .call 0 e.op
  log : σ.log = evs.map fun e => ⟨0, e, 1⟩
  starts : σ.starts = [start]
  main : σ.proc.sys.main = .accepting
  running : σ.proc.sys.running = true
  count : σ.proc.sys.activeClients = 1
  handlers : σ.proc.sys.handlers = [.running p]
  peers : ∀ s, σ.proc.sys.peerClosed s = false
  alive : σ.proc.sys.ended = none

/-- Whatever answers are possible can be given, while everyone else waits. -/
theorem AloneRun.goes_on {pre : Trace} {start : Io Unit} (h : AloneRun D cfg start tr σ pre p)
    (hleads : p.Leads evs q) (hanswers : Answerable D σ.limiter σ.proc.fds evs) :
    ∃ tr' τ, AloneRun D cfg start tr' τ (pre ++ evs) q := by
  induction evs generalizing pre p tr σ with
  | nil =>
    obtain rfl := Prog.leads_nil.mp hleads
    exact ⟨tr, σ, by rwa [List.append_nil]⟩
  | cons e evs ih =>
    obtain ⟨o, r⟩ := e
    obtain ⟨hlowest, hanswered, hmore⟩ := hanswers
    obtain ⟨next, rfl, hrest⟩ := Prog.leads_cons.mp hleads
    have hk : σ.proc.sys.handlers[0]? = some (.running (.call o next)) := by
      rw [h.handlers]
      rfl
    have hsafe : ¬ RaisesSigpipe σ.proc.sys o ∧ Answers σ.proc.sys o r := by
      cases o with
      | send s data flags => simp [RaisesSigpipe, Answers, h.peers s]
      | _ => exact ⟨id, trivial⟩
    have hopened : ∀ s, opened σ.proc.sys.peerClosed o r s = false := by
      intro s
      cases o with
      | socket ai =>
        cases r with
        | none => exact h.peers s
        | some u => simp [opened, Function.update_apply, h.peers s]
      | _ => exact h.peers s
    obtain ⟨ip, hlabels⟩ := h.labels
    have hnext : AloneRun D cfg start _ _ (pre ++ [⟨o, r⟩]) (next r) :=
      { run := h.run.snoc ⟨h.alive, .call r 1 hk hsafe.1 hsafe.2 hlowest Int.one_pos hanswered⟩
        calm := List.forall_mem_append.mpr ⟨h.calm, List.forall_mem_singleton.mpr h.peers⟩
        labels := ⟨ip, by simp [hlabels]⟩
        log := by simp [h.log]
        starts := h.starts
        main := h.main
        running := h.running
        count := h.count
        handlers := by simp [Sys.answered, h.handlers]
        peers := hopened
        alive := h.alive }
    obtain ⟨tr', τ, hrun⟩ := ih hnext hrest hmore
    refine ⟨tr', τ, ?_⟩
    rwa [List.append_assoc] at hrun

/-- Every way into a connection on which the answers are possible is one that the first client's
handler can go. -/
theorem alone_reaches (hmax : 0 < cfg.maxClients) (hp : ServesConnection 4 ip cfg p)
    (hleads : p.Leads evs q)
    (hanswers : Answerable D (freshLimiter cfg.rateLimitPerMin) (insert 4 firstFds) evs) :
    ∃ tr σ, AloneRun D cfg p tr σ evs q := by
  have h₁ : DeployedRun D cfg _ _ := .snoc (.refl _) ⟨rfl, .keeps (.keeps (.enter rfl rfl) rfl) rfl⟩
  have h₂ : DeployedRun D cfg _ _ :=
    .snoc h₁ ⟨rfl, .accept (.accept (.accept 4 rfl) (Accounts.isLeast_range 4))⟩
  have h₃ : DeployedRun D cfg _ _ := .snoc h₂ ⟨rfl, .keeps (.keeps (.check rfl hmax) rfl) rfl⟩
  have h₄ : DeployedRun D cfg _ _ := .snoc h₃ ⟨rfl, .keeps (.keeps (.timeoutSet rfl) rfl) rfl⟩
  have h₅ : DeployedRun D cfg _ _ := .snoc h₄ ⟨rfl, .keeps (.keeps (.register ip rfl) rfl) rfl⟩
  have h₆ : DeployedRun D cfg _ _ := .snoc h₅ ⟨rfl, .spawn rfl hp⟩
  have hpeers : ∀ s : Socket, Function.update (fun _ => false) 4 false s = false := by
    intro s
    simp [Function.update_apply]
  have hfirst : AloneRun D cfg p _ _ [] p :=
    { run := h₆
      calm := by simp [deploy]
      labels := ⟨ip, rfl⟩
      log := rfl
      starts := rfl
      main := rfl
      running := rfl
      count := rfl
      handlers := rfl
      peers := hpeers
      alive := rfl }
  exact hfirst.goes_on hleads hanswers

namespace AloneRun

variable {start : Io Unit}

theorem callsOf (h : AloneRun D cfg start tr σ evs p) : σ.callsOf 0 = evs := by
  rw [Deployed.callsOf, h.log, List.map_map]
  exact traceOf_self

/-- A handler that has nothing left to do finishes. -/
theorem finishes (h : AloneRun D cfg start tr σ evs (.ret ())) : ∃ τ,
    DeployedRun D cfg (tr ++ [(σ, .finish 0)]) τ ∧ τ.proc.sys.handlers = [.finished] ∧
      τ.log = σ.log := by
  have hk : σ.proc.sys.handlers[0]? = some (.running (.ret ())) := by
    rw [h.handlers]
    rfl
  exact ⟨_, h.run.snoc ⟨h.alive, .keeps (.keeps (.finish hk) rfl) rfl⟩, by simp [h.handlers], rfl⟩

end AloneRun

end Gateway

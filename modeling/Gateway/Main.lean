import Mathlib
import Gateway.HandleClient
import Gateway.Library.Transition

/-! The accept loop, the detached handlers and their peers as one system (main.cpp). -/
namespace Gateway

open Program Transition

inductive Signal where
  | SIGINT
  | SIGTERM
  | SIGPIPE
  deriving DecidableEq

/-- The signals for which `main` installs a handler. -/
def installedDispositions : List Signal := [.SIGINT, .SIGTERM]

def MSG_NOSIGNAL : Nat := 16384

/-- Where the main thread stands: `accepting` is the loop head, `waiting` the wait for a client,
and in `starting` a client is counted whose thread does not exist yet. -/
inductive MainPc where
  | accepting
  | waiting
  | accepted (cs : Socket)
  | checked (cs : Socket)
  | configured (cs : Socket)
  | starting (cs : Socket) (ip : Bytes)
  | draining (i : Nat)
  | returned
  deriving DecidableEq

/-- A detached thread: what is left of its connection, or nothing after its `fetch_sub`. -/
inductive Handler where
  | running (rest : Io Unit)
  | finished

/-- How the process ends: main has returned, or a signal has killed it. -/
inductive Ending where
  | exited
  | killed
  deriving DecidableEq

structure Sys where
  main : MainPc := .accepting
  /-- `g_running`. -/
  running : Bool := true
  activeClients : Int := 0
  handlers : List Handler := []
  dispositions : List Signal := installedDispositions
  /-- The streams whose other side has closed or reset the connection. -/
  peerClosed : Socket → Bool := fun _ => false
  ended : Option Ending := none

inductive Label where
  | enter
  | idle
  | accept (cs : Socket)
  | reject
  | check
  | timeoutFailed
  | timeoutSet
  | register (ip : Bytes)
  | spawn
  | shutdown
  | poll
  | leave
  | exit
  | signal (sig : Signal)
  | peerCloses (s : Socket)
  | call (k : Nat) (o : Op)
  | finish (k : Nat)

/-- The call raises a `SIGPIPE` that the process has neither suppressed nor handled. -/
def RaisesSigpipe (σ : Sys) : Op → Prop
  | .send s _ flags => σ.peerClosed s = true ∧ flags &&& MSG_NOSIGNAL = 0 ∧
      .SIGPIPE ∉ σ.dispositions
  | _ => False

/-- A send to a closed peer that raises no signal fails with `EPIPE`. -/
def Answers (σ : Sys) : (o : Op) → Res o → Prop
  | .send s _ _, r => σ.peerClosed s = true → r.value = -1 ∧ r.errno = .EPIPE
  | _, _ => True

/-- A new upstream socket has an open peer. -/
def opened (peerClosed : Socket → Bool) : (o : Op) → Res o → Socket → Bool
  | .socket _, some s => Function.update peerClosed s false
  | _, _ => peerClosed

/-- The state after handler `k` was answered: only that handler has moved. -/
def Sys.answered (σ : Sys) (k : Nat) (o : Op) (r : Res o) (next : Res o → Io Unit) : Sys :=
  { σ with
    handlers := σ.handlers.set k (.running (next r))
    peerClosed := opened σ.peerClosed o r }

/-- One step of the main thread, of a handler, of a peer or of the system. -/
inductive Move (cfg : Config) (σ : Sys) : Label → Sys → Prop
  | enter (pc : σ.main = .accepting) (run : σ.running = true) :
      Move cfg σ .enter { σ with main := .waiting }
  | idle (pc : σ.main = .waiting) : Move cfg σ .idle { σ with main := .accepting }
  | accept (cs : Socket) (pc : σ.main = .waiting) :
      Move cfg σ (.accept cs)
        { σ with main := .accepted cs, peerClosed := Function.update σ.peerClosed cs false }
  | reject {cs : Socket} (pc : σ.main = .accepted cs) (full : cfg.maxClients ≤ σ.activeClients) :
      Move cfg σ .reject { σ with main := .accepting }
  | check {cs : Socket} (pc : σ.main = .accepted cs) (room : σ.activeClients < cfg.maxClients) :
      Move cfg σ .check { σ with main := .checked cs }
  | timeoutFailed {cs : Socket} (pc : σ.main = .checked cs) :
      Move cfg σ .timeoutFailed { σ with main := .accepting }
  | timeoutSet {cs : Socket} (pc : σ.main = .checked cs) :
      Move cfg σ .timeoutSet { σ with main := .configured cs }
  | register {cs : Socket} (ip : Bytes) (pc : σ.main = .configured cs) :
      Move cfg σ (.register ip)
        { σ with main := .starting cs ip, activeClients := σ.activeClients + 1 }
  | spawn {cs : Socket} {ip : Bytes} {p : Io Unit} (pc : σ.main = .starting cs ip)
      (serves : ServesConnection cs ip cfg p) :
      Move cfg σ .spawn
        { σ with main := .accepting, handlers := σ.handlers ++ [.running p] }
  | shutdown (pc : σ.main = .accepting) (stop : σ.running = false) :
      Move cfg σ .shutdown { σ with main := .draining 0 }
  | poll {i : Nat} (pc : σ.main = .draining i) (more : i < 100 ∧ 0 < σ.activeClients) :
      Move cfg σ .poll { σ with main := .draining (i + 1) }
  | leave {i : Nat} (pc : σ.main = .draining i) (done : ¬ (i < 100 ∧ 0 < σ.activeClients)) :
      Move cfg σ .leave { σ with main := .returned }
  | exit (pc : σ.main = .returned) : Move cfg σ .exit { σ with ended := some .exited }
  | signal {sig : Signal} (h : sig = .SIGINT ∨ sig = .SIGTERM) :
      Move cfg σ (.signal sig) { σ with running := false }
  | peerCloses (s : Socket) : Move cfg σ (.peerCloses s)
      { σ with peerClosed := Function.update σ.peerClosed s true }
  | call {k : Nat} {o : Op} {next : Res o → Io Unit} (r : Res o)
      (pc : σ.handlers[k]? = some (.running (.call o next))) (safe : ¬ RaisesSigpipe σ o)
      (answer : Answers σ o r) : Move cfg σ (.call k o) (σ.answered k o r next)
  | sigpipe {k : Nat} {o : Op} {next : Res o → Io Unit}
      (pc : σ.handlers[k]? = some (.running (.call o next))) (raised : RaisesSigpipe σ o) :
      Move cfg σ (.call k o) { σ with ended := some .killed }
  | finish {k : Nat} (pc : σ.handlers[k]? = some (.running (.ret ()))) :
      Move cfg σ (.finish k)
        { σ with
          handlers := σ.handlers.set k .finished
          activeClients := σ.activeClients - 1 }

/-- A process that has ended takes no further step, and neither do its threads. -/
def Step (cfg : Config) (σ : Sys) (l : Label) (τ : Sys) : Prop :=
  σ.ended = none ∧ Move cfg σ l τ

/-- A run of the process from its first accept on. -/
def ProcessRun (cfg : Config) (tr : List (Sys × Label)) (τ : Sys) : Prop :=
  Run (Step cfg) {} tr τ

variable {cfg : Config} {σ τ : Sys} {l : Label}

/-- Every handler is what a thread was started with, or what its calls have left of that. -/
theorem remaining_move {I : Io Unit → Prop}
    (hserves : ∀ cs ip p, ServesConnection cs ip cfg p → I p)
    (hcall : ∀ o next r, I (.call o next) → I (next r))
    (hσ : ∀ p, Handler.running p ∈ σ.handlers → I p) (h : Move cfg σ l τ) :
    ∀ p, Handler.running p ∈ τ.handlers → I p := by
  cases h with
  | @spawn cs ip p pc serves =>
    intro q hq
    rcases List.mem_append.mp hq with hq | hq
    · exact hσ q hq
    · cases List.mem_singleton.mp hq
      exact hserves cs ip p serves
  | @call k o next r pc safe answer =>
    intro p hp
    rcases List.mem_or_eq_of_mem_set hp with hp | hp
    · exact hσ p hp
    · cases hp
      exact hcall o next r (hσ _ (List.mem_of_getElem? pc))
  | finish pc =>
    intro p hp
    rcases List.mem_or_eq_of_mem_set hp with hp | hp
    · exact hσ p hp
    · cases hp
  | _ => exact hσ

/-- The process right after the thread of its first client was started. -/
def firstClient (cs : Socket) (p : Io Unit) : Sys where
  activeClients := 1
  handlers := [.running p]
  peerClosed := Function.update (fun _ => false) cs false

/-- The process after the thread of its only client has ended. -/
def clientGone (cs : Socket) : Sys where
  handlers := [.finished]
  peerClosed := Function.update (Function.update (fun _ => false) cs false) cs true

def connects (cs : Socket) (ip : Bytes) : List Label :=
  [.enter, .accept cs, .check, .timeoutSet, .register ip, .spawn]

def hangsUp (cs : Socket) : List Label :=
  [.peerCloses cs, .call 0 (.recv cs 4096), .call 0 (.closeSocket cs), .finish 0]

theorem firstClient_run {cs : Socket} {ip : Bytes} {p : Io Unit} (h : 0 < cfg.maxClients)
    (hp : ServesConnection cs ip cfg p) :
    ∃ tr, ProcessRun cfg tr (firstClient cs p) ∧ tr.map Prod.snd = connects cs ip := by
  have h₁ : ProcessRun cfg _ _ := .snoc (.refl _) ⟨rfl, .enter rfl rfl⟩
  have h₂ : ProcessRun cfg _ _ := .snoc h₁ ⟨rfl, .accept cs rfl⟩
  have h₃ : ProcessRun cfg _ _ := .snoc h₂ ⟨rfl, .check rfl h⟩
  have h₄ : ProcessRun cfg _ _ := .snoc h₃ ⟨rfl, .timeoutSet rfl⟩
  have h₅ : ProcessRun cfg _ _ := .snoc h₄ ⟨rfl, .register ip rfl⟩
  have h₆ : ProcessRun cfg _ _ := .snoc h₅ ⟨rfl, .spawn rfl hp⟩
  exact ⟨_, h₆, rfl⟩

theorem clientGone_run (cs : Socket) (ip : Bytes) (h : 0 < cfg.maxClients) :
    ∃ tr, ProcessRun cfg tr (clientGone cs) ∧
      tr.map Prod.snd = connects cs ip ++ hangsUp cs := by
  obtain ⟨next, hfirst, hclosed⟩ := handleClient_closed cs ip cfg
  have hserves : ServesConnection cs ip cfg (.call (.recv cs 4096) next) := hfirst ▸ .whole
  obtain ⟨tr, hrun, hlabels⟩ := firstClient_run h hserves
  have hclose : [Handler.running (next .closed)][0]? =
      some (.running (.call (.closeSocket cs) .ret)) := by
    rw [hclosed]
    rfl
  have h₁ : ProcessRun cfg _ _ := .snoc hrun ⟨rfl, .peerCloses cs⟩
  have h₂ : ProcessRun cfg _ _ := .snoc h₁ ⟨rfl, .call (k := 0) RecvResult.closed rfl id trivial⟩
  have h₃ : ProcessRun cfg _ _ := .snoc h₂ ⟨rfl, .call () hclose id trivial⟩
  have h₄ : ProcessRun cfg _ _ := .snoc h₃ ⟨rfl, .finish (k := 0) rfl⟩
  refine ⟨_, h₄, ?_⟩
  simp only [List.map_append, hlabels, List.append_assoc]
  rfl

theorem secretOnly_maxClients : 0 < (readConfig secretOnly).maxClients := by decide +kernel

end Gateway

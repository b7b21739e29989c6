import Mathlib
import Gateway.ClientLimit
import Gateway.ClientResponse
import Gateway.HandlerRules
import Gateway.Library.Accounts

/-! The process with its descriptor table, and what each handler holds of it. -/
namespace Gateway

open Program Transition Accounts

variable {cfg : Config} {s : Socket} {e : Event Op Res}

/-- The descriptor of `main`'s own socket, opened when only 0 to 2 are in use. -/
def listener : Socket := 3

/-- What POSIX promises of a new descriptor. -/
def LowestFree (fds : Finset Socket) (u : Socket) : Prop := IsLeast {v | v ∉ fds} u

theorem listener_lowestFree : LowestFree {0, 1, 2} listener := isLeast_range 3

/-- What is open when the accept loop begins. -/
def firstFds : Finset Socket := {0, 1, 2, listener}

/-- The process and the descriptors that are open in it. -/
structure Process where
  sys : Sys := {}
  fds : Finset Socket := firstFds

/-- What a call does to the descriptors. -/
def fdsAfter (fds : Finset Socket) : Event Op Res → Finset Socket
  | ⟨.socket _, some u⟩ => insert u fds
  | ⟨.closeSocket u, _⟩ => fds.erase u
  | _ => fds

/-- A call that opens a socket hands out the lowest free descriptor. -/
def HandsOut (fds : Finset Socket) : Event Op Res → Prop
  | ⟨.socket _, some u⟩ => LowestFree fds u
  | _ => True

/-- The steps that neither open nor close a descriptor. -/
def Label.keepsFds : Label → Bool
  | .enter | .idle | .check | .timeoutSet | .register _ | .poll | .leave | .exit | .signal _
  | .peerCloses _ | .finish _ => true
  | _ => false

/-- A step of the process, with what it does to its descriptors. -/
inductive ProcessMove (cfg : Config) (σ : Process) : Label → Process → Prop
  | keeps {l : Label} {τ : Sys} (h : Move cfg σ.sys l τ) (kept : l.keepsFds = true) :
      ProcessMove cfg σ l { sys := τ, fds := σ.fds }
  | accept {cs : Socket} {τ : Sys} (h : Move cfg σ.sys (.accept cs) τ)
      (lowest : LowestFree σ.fds cs) :
      ProcessMove cfg σ (.accept cs) { sys := τ, fds := insert cs σ.fds }
  | reject {cs : Socket} {τ : Sys} (pc : σ.sys.main = .accepted cs)
      (h : Move cfg σ.sys .reject τ) :
      ProcessMove cfg σ .reject { sys := τ, fds := σ.fds.erase cs }
  | timeoutFailed {cs : Socket} {τ : Sys} (pc : σ.sys.main = .checked cs)
      (h : Move cfg σ.sys .timeoutFailed τ) :
      ProcessMove cfg σ .timeoutFailed { sys := τ, fds := σ.fds.erase cs }
  | spawn {cs : Socket} {ip : Bytes} {p : Io Unit} (pc : σ.sys.main = .starting cs ip)
      (serves : ServesConnection cs ip cfg p) :
      ProcessMove cfg σ .spawn
        { sys := { σ.sys with main := .accepting, handlers := σ.sys.handlers ++ [.running p] }
          fds := σ.fds }
  | shutdown {τ : Sys} (h : Move cfg σ.sys .shutdown τ) :
      ProcessMove cfg σ .shutdown { sys := τ, fds := σ.fds.erase listener }
  | call {k : Nat} {o : Op} {next : Res o → Io Unit} (r : Res o)
      (pc : σ.sys.handlers[k]? = some (.running (.call o next)))
      (safe : ¬ RaisesSigpipe σ.sys o) (answer : Answers σ.sys o r)
      (lowest : HandsOut σ.fds ⟨o, r⟩) :
      ProcessMove cfg σ (.call k o)
        { sys := σ.sys.answered k o r next, fds := fdsAfter σ.fds ⟨o, r⟩ }
  | sigpipe {k : Nat} {o : Op} {next : Res o → Io Unit}
      (pc : σ.sys.handlers[k]? = some (.running (.call o next)))
      (raised : RaisesSigpipe σ.sys o) :
      ProcessMove cfg σ (.call k o) { sys := { σ.sys with ended := some .killed }, fds := σ.fds }

def ProcessStep (cfg : Config) (σ : Process) (l : Label) (τ : Process) : Prop :=
  σ.sys.ended = none ∧ ProcessMove cfg σ l τ

/-- A run of the process with its descriptor table, from its first accept on. -/
def TableRun (cfg : Config) (tr : List (Process × Label)) (τ : Process) : Prop :=
  Run (ProcessStep cfg) {} tr τ

variable {σ τ : Process} {l : Label} {tr : List (Process × Label)}

/-- Without the descriptors a step of the process is one of the system. -/
theorem ProcessMove.sys (h : ProcessMove cfg σ l τ) : Move cfg σ.sys l τ.sys := by
  cases h with
  | keeps h kept => exact h
  | accept h lowest => exact h
  | reject pc h => exact h
  | timeoutFailed pc h => exact h
  | spawn pc serves => exact .spawn pc serves
  | shutdown h => exact h
  | call r pc safe answer lowest => exact .call r pc safe answer
  | sigpipe pc raised => exact .sigpipe pc raised

/-- The sockets that a handler holds. -/
inductive Holding where
  | client (s : Socket)
  | both (s u : Socket)
  | nothing
  deriving DecidableEq

def Holding.fds : Holding → Finset Socket
  | client s => {s}
  | both s u => {s, u}
  | nothing => ∅

/-- A handler opens one upstream socket at a time, waits on no other, and closes the client's
socket last. -/
def Holding.step : Holding → Event Op Res → Option Holding
  | client s, ⟨.socket _, some u⟩ => some (both s u)
  | both s u, ⟨.select v _, _⟩ => if v = u then some (both s u) else none
  | both s u, ⟨.closeSocket v, _⟩ => if v = u then some (client s) else none
  | client s, ⟨.closeSocket v, _⟩ => if v = s then some nothing else none
  | _, ⟨.socket _, some _⟩ | _, ⟨.select _ _, _⟩ | _, ⟨.closeSocket _, _⟩ => none
  | held, _ => some held

def holdingMonitor : Monitor Op Res Holding where
  promised := fun _ => True
  step := Holding.step

theorem holding_upstream (s : Socket) :
    UpstreamRules holdingMonitor (fun _ so => so.elim (.client s) (.both s)) fun _ => True := by
  constructor
  case mark => exact fun _ _ _ _ => rfl
  case resolve => exact fun _ _ _ => rfl
  case free =>
    intro list so _
    cases so <;> rfl
  case noSocket => exact fun _ _ => rfl
  case socket => exact fun _ _ _ _ => ⟨trivial, rfl⟩
  case uses =>
    intro list u o r _ ho
    cases o with
    | select v ms =>
      obtain rfl := ho
      simp [holdingMonitor, Holding.step]
    | socket ai => exact ho.elim
    | closeSocket v => exact ho.elim
    | _ => rfl
  case close =>
    intro list u _
    simp [holdingMonitor, Holding.step]

theorem holding_rules (s : Socket) (cfg : Config) :
    ClientRules holdingMonitor s cfg (.client s) (.client s) (fun _ => .client s)
      (· = .nothing) := by
  constructor
  case data => exact fun _ _ _ _ => rfl
  case closed => exact fun _ => rfl
  case error => exact fun _ _ => rfl
  case allow => exact fun _ _ => rfl
  case verifyJwt => exact fun _ _ _ _ => rfl
  case forward =>
    intro method target req auth _
    exact forwardRequest_wp (holding_upstream s) _ _ _ _ _
  case reply => exact fun _ _ => rfl
  case send => exact fun _ _ _ => rfl
  case close => exact fun _ => ⟨.nothing, by simp [holdingMonitor, Holding.step], rfl⟩
  case hangUp => exact ⟨.nothing, by simp [holdingMonitor, Holding.step], rfl⟩

theorem serves_holding {ip : Bytes} {p : Io Unit} (h : ServesConnection s ip cfg p) :
    holdingMonitor.wp p (fun _ held => held = .nothing) (.client s) := by
  cases h with
  | whole => exact handleClient_wp (holding_rules s cfg) ip
  | accepted req leftover => exact handleAccepted_wp (holding_rules s cfg) ip leftover

/-- The descriptors that no handler holds: the first four, and the client that main has. -/
def MainPc.commonFds : MainPc → Finset Socket
  | .accepted cs | .checked cs | .configured cs | .starting cs _ => insert cs firstFds
  | _ => firstFds

/-- What is left of a handler gives back what it holds. -/
def Follows : Handler → Holding → Prop
  | .running p, held => holdingMonitor.wp p (fun _ held' => held' = .nothing) held
  | .finished, held => held = .nothing

/-- The handlers and what they hold, which with the common descriptors is all that is open. -/
structure Shares (σ : Process) (held : List Holding) : Prop where
  follows : List.Forall₂ Follows σ.sys.handlers held
  accounted : Accounted σ.sys.main.commonFds (held.map Holding.fds) σ.fds

variable {held : List Holding}

theorem commonFds_card (main : MainPc) : main.commonFds.card ≤ 5 := by
  have hfirst : firstFds.card = 4 := by decide
  unfold MainPc.commonFds
  split
  · exact le_trans (Finset.card_insert_le _ _) (by omega)
  · exact le_trans (Finset.card_insert_le _ _) (by omega)
  · exact le_trans (Finset.card_insert_le _ _) (by omega)
  · exact le_trans (Finset.card_insert_le _ _) (by omega)
  · omega

/-- A handler holds at most two sockets, and none when it has finished. -/
theorem held_card {hs : List Handler} (h : List.Forall₂ Follows hs held) :
    ((held.map Holding.fds).map Finset.card).sum ≤ 2 * hs.countP Handler.active := by
  induction h with
  | nil => simp
  | @cons handler share hs held hfollows htail ih =>
    rw [List.map_cons, List.map_cons, List.sum_cons, List.countP_cons]
    cases handler with
    | running p =>
      have htwo : share.fds.card ≤ 2 := by
        cases share with
        | client s => simp [Holding.fds]
        | both s u => exact Finset.card_le_two
        | nothing => simp [Holding.fds]
      simp only [Handler.active, if_true]
      omega
    | finished =>
      obtain rfl := hfollows
      simp only [Holding.fds, Finset.card_empty, Handler.active, Bool.false_eq_true, if_false]
      omega

/-- What can be open at once under the client limit. -/
theorem fds_card_le (hcount : Counted σ.sys) (hlimit : WithinLimit cfg σ.sys)
    (h : Shares σ held) : (σ.fds.card : Int) ≤ 2 * cfg.maxClients + 5 := by
  have hcard := h.accounted.card_le
  have hcommon := commonFds_card σ.sys.main
  have hheld := held_card h.follows
  have hbounded := hlimit.bounded
  unfold Counted at hcount
  omega

theorem commonFds_of_keeps {σ τ : Sys} (h : Move cfg σ l τ) (kept : l.keepsFds = true) :
    τ.main.commonFds = σ.main.commonFds := by
  cases h <;> simp_all [MainPc.commonFds, Label.keepsFds]

theorem handlers_of_keeps {σ τ : Sys} (h : Move cfg σ l τ) (kept : l.keepsFds = true) :
    τ.handlers = σ.handlers ∨ ∃ k, σ.handlers[k]? = some (.running (.ret ())) ∧
      τ.handlers = σ.handlers.set k .finished := by
  cases h with
  | finish pc => exact Or.inr ⟨_, pc, rfl⟩
  | spawn pc serves => cases kept
  | call r pc safe answer => cases kept
  | _ => exact Or.inl rfl

/-- All that a call can do to what its handler holds, and to the table. -/
inductive HoldingMove : Holding → Event Op Res → Holding → Prop
  | keeps {share : Holding} {e : Event Op Res} (h : ∀ fds, fdsAfter fds e = fds) :
      HoldingMove share e share
  | opens (s : Socket) (ai : AddrInfo) (u : Socket) :
      HoldingMove (.client s) ⟨.socket ai, some u⟩ (.both s u)
  | closes (s u : Socket) : HoldingMove (.both s u) ⟨.closeSocket u, ()⟩ (.client s)
  | ends (s : Socket) : HoldingMove (.client s) ⟨.closeSocket s, ()⟩ .nothing

theorem holdingMove_of_step {share share' : Holding} (h : share.step e = some share') :
    HoldingMove share e share' := by
  obtain ⟨o, res⟩ := e
  cases o with
  | socket ai =>
    cases res with
    | none =>
      have hkept : share' = share := by
        cases share <;> exact (Option.some.inj h).symm
      rw [hkept]
      exact .keeps fun _ => rfl
    | some u =>
      cases share with
      | client s =>
        cases h
        exact .opens s ai u
      | both s v => cases h
      | nothing => cases h
  | closeSocket v =>
    cases share with
    | client s =>
      obtain ⟨rfl, rfl⟩ : v = s ∧ share' = .nothing := by
        simpa [Holding.step, eq_comm] using h
      exact .ends v
    | both s u =>
      obtain ⟨rfl, rfl⟩ : v = u ∧ share' = .client s := by
        simpa [Holding.step, eq_comm] using h
      exact .closes s v
    | nothing => cases h
  | select v ms =>
    cases share with
    | client s => cases h
    | both s u =>
      obtain ⟨-, rfl⟩ : v = u ∧ share' = .both s u := by
        simpa [Holding.step, eq_comm] using h
      exact .keeps fun _ => rfl
    | nothing => cases h
  | _ =>
    have hkept : share' = share := by
      cases share <;> exact (Option.some.inj h).symm
    rw [hkept]
    exact .keeps fun _ => rfl

/-- The share of a handler moves along with the table. -/
theorem holdingMove_fds {share share' : Holding} {fds : Finset Socket}
    (h : HoldingMove share e share') :
    (∀ r ∈ share.fds, r ∈ fdsAfter fds e → r ∈ share'.fds) ∧
      ∀ r ∈ fdsAfter fds e, r ∈ fds ∨ r ∈ share'.fds := by
  cases h with
  | keeps hkept =>
    rw [hkept]
    exact ⟨fun r hr _ => hr, fun r hr => Or.inl hr⟩
  | opens s ai u =>
    refine ⟨?_, ?_⟩
    · intro r hr _
      exact Finset.mem_insert.mpr (Or.inl (Finset.mem_singleton.mp hr))
    · intro r hr
      rcases Finset.mem_insert.mp hr with rfl | hr
      · exact Or.inr (by simp [Holding.fds])
      · exact Or.inl hr
  | closes s u =>
    refine ⟨?_, fun r hr => Or.inl (Finset.mem_of_mem_erase hr)⟩
    intro r hr hopen
    rcases Finset.mem_insert.mp hr with rfl | hr
    · exact Finset.mem_singleton_self r
    · exact (Finset.ne_of_mem_erase hopen (Finset.mem_singleton.mp hr)).elim
  | ends s =>
    refine ⟨?_, fun r hr => Or.inl (Finset.mem_of_mem_erase hr)⟩
    intro r hr hopen
    exact (Finset.ne_of_mem_erase hopen (Finset.mem_singleton.mp hr)).elim

/-- A client's socket that was closed is common no longer. -/
theorem first_of_closed {fds : Finset Socket} :
    ∀ r ∈ insert s firstFds, r ∈ fds.erase s → r ∈ firstFds := by
  intro r hr hopen
  rcases Finset.mem_insert.mp hr with rfl | hr
  · exact (Finset.ne_of_mem_erase hopen rfl).elim
  · exact hr

/-- Every step leaves the shares as they are, or moves the share of one handler. -/
theorem shares_step (hmove : ProcessMove cfg σ l τ) (h : Shares σ held) :
    ∃ held', Shares τ held' ∧ ∀ s u, Holding.both s u ∈ held' → .both s u ∈ held ∨
      LowestFree σ.fds u ∧ τ.fds = insert u σ.fds := by
  obtain ⟨hfollows, haccounted⟩ := h
  have hsame : ∀ s u, Holding.both s u ∈ held → .both s u ∈ held ∨
      LowestFree σ.fds u ∧ τ.fds = insert u σ.fds := fun s u hmem => Or.inl hmem
  cases hmove with
  | @keeps l τ h kept =>
    have hcommon := commonFds_of_keeps h kept
    rcases handlers_of_keeps h kept with hhandlers | ⟨k, hk, hhandlers⟩
    · exact ⟨held, ⟨hhandlers ▸ hfollows, hcommon ▸ haccounted⟩, hsame⟩
    · -- a handler that returns has given everything back
      obtain ⟨share, hshare, rfl⟩ := exists_getElem? hfollows hk
      obtain ⟨hlt, heq⟩ := List.getElem?_eq_some_iff.mp hshare
      have hself : held.set k .nothing = held := by
        rw [← heq, List.set_getElem_self]
      refine ⟨held, ⟨?_, hcommon ▸ haccounted⟩, hsame⟩
      have hset : List.Forall₂ Follows _ (held.set k .nothing) :=
        forall₂_set (k := k) (a := Handler.finished) hfollows rfl
      rw [hself] at hset
      exact hhandlers ▸ hset
  | @accept cs τ h lowest =>
    cases h with
    | accept cs pc =>
      refine ⟨held, ⟨hfollows, ?_⟩, hsame⟩
      apply haccounted.change_common
      · intro r hr _
        rw [pc] at hr
        exact Finset.mem_insert_of_mem hr
      · intro r hr
        rcases Finset.mem_insert.mp hr with rfl | hr
        · exact Or.inr (Finset.mem_insert_self _ _)
        · exact Or.inl hr
  | @reject cs τ pc h =>
    cases h with
    | reject pc' full =>
      refine ⟨held, ⟨hfollows, ?_⟩, hsame⟩
      rw [pc] at haccounted
      exact haccounted.change_common first_of_closed fun r hr => Or.inl (Finset.mem_of_mem_erase hr)
  | @timeoutFailed cs τ pc h =>
    cases h with
    | timeoutFailed pc' =>
      refine ⟨held, ⟨hfollows, ?_⟩, hsame⟩
      rw [pc] at haccounted
      exact haccounted.change_common first_of_closed fun r hr => Or.inl (Finset.mem_of_mem_erase hr)
  | @spawn cs ip p pc serves =>
    refine ⟨held ++ [.client cs], ⟨?_, ?_⟩, ?_⟩
    · exact List.rel_append hfollows (.cons (serves_holding serves) .nil)
    · rw [pc] at haccounted
      rw [List.map_append]
      exact haccounted.handOver
    · intro s u hmem
      rcases List.mem_append.mp hmem with hmem | hmem
      · exact Or.inl hmem
      · cases List.mem_singleton.mp hmem
  | @shutdown τ h =>
    cases h with
    | shutdown pc stop =>
      refine ⟨held, ⟨hfollows, ?_⟩, hsame⟩
      rw [pc] at haccounted
      exact haccounted.change_common (fun r hr _ => hr)
        fun r hr => Or.inl (Finset.mem_of_mem_erase hr)
  | @call k o next r pc safe answer lowest =>
    obtain ⟨share, hshare, hwp⟩ := exists_getElem? hfollows pc
    obtain ⟨share', hstep, hrest⟩ := hwp r trivial
    have hholding := holdingMove_of_step hstep
    obtain ⟨hgiven, htaken⟩ := @holdingMove_fds _ _ _ σ.fds hholding
    refine ⟨held.set k share', ⟨forall₂_set hfollows hrest, ?_⟩, ?_⟩
    · rw [List.map_set]
      exact haccounted.set (by rw [List.getElem?_map, hshare]; rfl) hgiven htaken
    · intro s u hmem
      rcases List.mem_or_eq_of_mem_set hmem with hmem | rfl
      · exact Or.inl hmem
      · cases hholding with
        | keeps hkept => exact Or.inl (List.mem_of_getElem? hshare)
        | opens s ai u => exact Or.inr ⟨lowest, rfl⟩
  | sigpipe pc raised => exact ⟨held, ⟨hfollows, haccounted⟩, hsame⟩

/-- The client limit holds, and with it a bound on every upstream socket. -/
structure Accountable (cfg : Config) (σ : Process) : Prop where
  counted : Counted σ.sys
  limit : WithinLimit cfg σ.sys
  shares : ∃ held, Shares σ held ∧
    ∀ s u, Holding.both s u ∈ held → (u : Int) ≤ 2 * cfg.maxClients + 4

theorem accountable_step (h : Accountable cfg σ) (hstep : ProcessStep cfg σ l τ) :
    Accountable cfg τ := by
  obtain ⟨hcount, hlimit, held, hshares, hbelow⟩ := h
  have hsys : Step cfg σ.sys l τ.sys := ⟨hstep.1, hstep.2.sys⟩
  have hcount' := counted_step hsys hcount
  have hlimit' := withinLimit_step hsys hlimit
  obtain ⟨held', hshares', hgains⟩ := shares_step hstep.2 hshares
  refine ⟨hcount', hlimit', held', hshares', ?_⟩
  intro s u hmem
  rcases hgains s u hmem with hmem | ⟨hlowest, hfds⟩
  · exact hbelow s u hmem
  · -- the new socket is counted among the descriptors that may be open after the step
    have hle := le_card_of_isLeast hlowest
    have hcard := fds_card_le hcount' hlimit' hshares'
    rw [hfds, Finset.card_insert_of_notMem hlowest.1] at hcard
    omega

theorem accountable_run (hmax : 0 ≤ cfg.maxClients) (h : TableRun cfg tr τ) :
    Accountable cfg τ := by
  apply Run.preserves (I := Accountable cfg) accountable_step h
  refine ⟨rfl, ⟨hmax, fun hadmits => by cases hadmits⟩, [], ⟨.nil, ?_⟩, by simp⟩
  exact fun r hr => Or.inl hr

/-- A handler waits only on its upstream socket, which the client limit keeps low. -/
theorem select_le (h : Accountable cfg σ) {u : Socket} {ms : Int}
    {next : SelectResult → Io Unit}
    (hwait : Handler.running (.call (.select u ms) next) ∈ σ.sys.handlers) :
    (u : Int) ≤ 2 * cfg.maxClients + 4 := by
  obtain ⟨-, -, held, ⟨hfollows, -⟩, hbelow⟩ := h
  obtain ⟨k, hk⟩ := List.mem_iff_getElem?.mp hwait
  obtain ⟨share, hshare, hwp⟩ := exists_getElem? hfollows hk
  obtain ⟨share', hstep, -⟩ := hwp .ready trivial
  cases share with
  | client s => cases hstep
  | both s v =>
    obtain ⟨rfl, -⟩ : u = v ∧ share' = .both s v := by
      simpa [holdingMonitor, Holding.step, eq_comm] using hstep
    exact hbelow s u (List.mem_of_getElem? hshare)
  | nothing => cases hstep

end Gateway

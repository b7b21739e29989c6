import Mathlib
import Gateway.Shutdown

/-! The client limit over every interleaving of the accept loop and the handlers. -/
namespace Gateway

open Transition

variable {cfg : Config} {σ τ : Sys} {l : Label} {tr : List (Sys × Label)} {env : Environment}

/-- Main has found room for the client it holds and has not counted it yet. -/
def MainPc.admits : MainPc → Bool
  | .checked _ | .configured _ => true
  | _ => false

/-- The clients that main has accepted and neither counted nor rejected. -/
def MainPc.undecided : MainPc → Nat
  | .accepted _ | .checked _ | .configured _ => 1
  | _ => 0

/-- The count is within the limit, and below it while main goes on with a client. -/
structure WithinLimit (cfg : Config) (σ : Sys) : Prop where
  bounded : σ.activeClients ≤ cfg.maxClients
  room : σ.main.admits = true → σ.activeClients < cfg.maxClients

theorem withinLimit_step (h : Step cfg σ l τ) (hσ : WithinLimit cfg σ) : WithinLimit cfg τ := by
  obtain ⟨-, hmove⟩ := h
  obtain ⟨hbounded, hroom⟩ := hσ
  cases hmove with
  | check pc room => exact ⟨hbounded, fun _ => room⟩
  | timeoutSet pc => exact ⟨hbounded, fun _ => hroom (by rw [pc]; rfl)⟩
  | register ip pc =>
    have hlt := hroom (by rw [pc]; rfl)
    exact ⟨by simp only; omega, fun hadmits => by cases hadmits⟩
  | finish pc =>
    -- a handler that ends makes room
    refine ⟨by simp only; omega, ?_⟩
    intro hadmits
    have hlt := hroom hadmits
    simp only
    omega
  | exit pc => exact ⟨hbounded, hroom⟩
  | call r pc safe answer => exact ⟨hbounded, hroom⟩
  | sigpipe pc raised => exact ⟨hbounded, hroom⟩
  | signal hsig => exact ⟨hbounded, hroom⟩
  | peerCloses s => exact ⟨hbounded, hroom⟩
  | _ => exact ⟨hbounded, fun hadmits => by cases hadmits⟩

theorem withinLimit_run (hmax : 0 ≤ cfg.maxClients) (h : ProcessRun cfg tr τ) :
    WithinLimit cfg τ :=
  Run.preserves (I := WithinLimit cfg) (fun hσ hstep => withinLimit_step hstep hσ) h
    ⟨hmax, fun hadmits => by cases hadmits⟩

/-- How often steps of a kind were taken. -/
def tally (kind : Label → Bool) (tr : List (Sys × Label)) : Nat := tr.countP fun p => kind p.2

def Label.isAccept : Label → Bool
  | .accept _ => true
  | _ => false

def Label.isRegister : Label → Bool
  | .register _ => true
  | _ => false

def Label.isFinish : Label → Bool
  | .finish _ => true
  | _ => false

/-- The two early ends of a connection in the accept loop. -/
def Label.isRejection : Label → Bool
  | .reject | .timeoutFailed => true
  | _ => false

theorem tally_snoc (kind : Label → Bool) :
    tally kind (tr ++ [(σ, l)]) = tally kind tr + if kind l then 1 else 0 := by
  simp [tally, List.countP_append, List.countP_cons]

/-- The count is made by registrations and ends of handlers alone, and every accepted client is
registered, rejected or still with main. -/
structure Balanced (tr : List (Sys × Label)) (τ : Sys) : Prop where
  count : τ.activeClients = tally Label.isRegister tr - tally Label.isFinish tr
  clients : tally Label.isAccept tr =
    tally Label.isRegister tr + tally Label.isRejection tr + τ.main.undecided

theorem balanced_snoc (h : Balanced tr σ) (hstep : Step cfg σ l τ) :
    Balanced (tr ++ [(σ, l)]) τ := by
  obtain ⟨-, hmove⟩ := hstep
  obtain ⟨hcount, hclients⟩ := h
  constructor
  · rw [tally_snoc, tally_snoc]
    cases hmove <;> simp [Label.isRegister, Label.isFinish, Sys.answered, hcount] <;> omega
  · rw [tally_snoc, tally_snoc, tally_snoc, hclients]
    cases hmove <;>
      simp_all [Label.isAccept, Label.isRegister, Label.isRejection, MainPc.undecided,
        Sys.answered] <;> omega

theorem balanced_run (h : ProcessRun cfg tr τ) : Balanced tr τ := by
  generalize hstart : ({} : Sys) = σ at h
  induction h with
  | refl =>
    subst hstart
    exact ⟨rfl, rfl⟩
  | snoc run step ih => exact balanced_snoc ih step

/-- The limit in one reachable state, and the part that rejected connections have in it. -/
structure LimitKept (cfg : Config) (tr : List (Sys × Label)) (τ : Sys) : Prop where
  counted : Counted τ
  nonneg : 0 ≤ τ.activeClients
  bounded : τ.activeClients ≤ cfg.maxClients
  handlers : (τ.handlers.countP Handler.active : Int) ≤ cfg.maxClients
  balanced : Balanced tr τ

theorem maxClients_range (h : loadConfig env = .ok cfg) :
    1 ≤ cfg.maxClients ∧ cfg.maxClients ≤ 4096 := by
  rw [(loadConfig_ok h).1]
  exact envInt_mem_range (by decide) (by decide)

/-- No interleaving takes the gateway past its client limit. -/
theorem client_limit_kept (hload : loadConfig env = .ok cfg) (hrun : ProcessRun cfg tr τ) :
    LimitKept cfg tr τ := by
  have hmax := (maxClients_range hload).1
  have hcount := counted_run hrun
  have hbounded := (withinLimit_run (by omega) hrun).bounded
  unfold Counted at hcount
  exact ⟨hcount, by omega, hbounded, by omega, balanced_run hrun⟩

/-- One client under the limit of the defaults. -/
theorem firstClient_kept : ∃ tr, LimitKept (readConfig secretOnly) tr
    (firstClient 5 (handleClient 5 [] (readConfig secretOnly))) := by
  obtain ⟨tr, hrun, -⟩ := firstClient_run secretOnly_maxClients .whole
  exact ⟨tr, client_limit_kept loadConfig_secretOnly hrun⟩

end Gateway

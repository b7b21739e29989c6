import Mathlib
import Gateway.Main

/-! What main leaves behind when it stops draining and returns. -/
namespace Gateway

open Program Transition

variable {cfg : Config} {σ τ : Sys} {l : Label} {tr : List (Sys × Label)}

/-- The handler has not made its final `fetch_sub`. -/
def Handler.active : Handler → Bool
  | .running _ => true
  | .finished => false

/-- The clients that main has counted and whose threads it has yet to start. -/
def MainPc.pending : MainPc → Nat
  | .starting _ _ => 1
  | _ => 0

/-- `activeClients` counts the unfinished handlers and the client about to get one. -/
def Counted (σ : Sys) : Prop :=
  σ.activeClients = σ.handlers.countP Handler.active + σ.main.pending

/-- Where main has returned, no handler is left that could use its locals. -/
def Outlived (σ : Sys) : Prop := σ.main = .returned → ∀ h ∈ σ.handlers, h = .finished

/-- Main never returns before a handler's last step. -/
def NeverOutruns (tr : List (Sys × Label)) (τ : Sys) : Prop :=
  ∀ ρ, Visited tr τ ρ → Outlived ρ

/-- Main leaves the drain loop although clients are active. -/
def GivesUp (σ : Sys) (l : Label) : Prop := l = .leave ∧ 0 < σ.activeClients

theorem countP_answered {handlers : List Handler} {k : Nat} {p q : Io Unit}
    (h : handlers[k]? = some (.running p)) :
    (handlers.set k (.running q)).countP Handler.active = handlers.countP Handler.active := by
  obtain ⟨hlt, heq⟩ := List.getElem?_eq_some_iff.mp h
  have hpos : 0 < handlers.countP Handler.active :=
    List.countP_pos_iff.mpr ⟨_, List.getElem_mem hlt, by rw [heq]; rfl⟩
  rw [List.countP_set hlt, heq]
  simp only [Handler.active, if_true]
  omega

theorem countP_finished {handlers : List Handler} {k : Nat} {p : Io Unit}
    (h : handlers[k]? = some (.running p)) :
    (handlers.set k .finished).countP Handler.active + 1 = handlers.countP Handler.active := by
  obtain ⟨hlt, heq⟩ := List.getElem?_eq_some_iff.mp h
  have hpos : 0 < handlers.countP Handler.active :=
    List.countP_pos_iff.mpr ⟨_, List.getElem_mem hlt, by rw [heq]; rfl⟩
  rw [List.countP_set hlt, heq]
  simp only [Handler.active, if_true, Bool.false_eq_true, if_false]
  omega

theorem countP_active_eq_zero {handlers : List Handler} :
    handlers.countP Handler.active = 0 ↔ ∀ h ∈ handlers, h = .finished := by
  rw [List.countP_eq_zero]
  constructor
  · intro hnone h hmem
    cases h with
    | running rest => exact (hnone _ hmem rfl).elim
    | finished => rfl
  · intro hall h hmem hactive
    rw [hall h hmem] at hactive
    cases hactive

theorem counted_step (h : Step cfg σ l τ) (hσ : Counted σ) : Counted τ := by
  obtain ⟨-, hmove⟩ := h
  unfold Counted at hσ ⊢
  cases hmove with
  | spawn pc serves =>
    simp only [pc, MainPc.pending] at hσ
    simp only [List.countP_append, List.countP_singleton, Handler.active, MainPc.pending, if_true]
    omega
  | register ip pc =>
    simp only [pc, MainPc.pending] at hσ ⊢
    omega
  | call r pc safe answer =>
    simpa only [Sys.answered, countP_answered pc] using hσ
  | finish pc =>
    have hcount := countP_finished pc
    simp only
    omega
  | _ => simp_all only [MainPc.pending]

theorem counted_run (h : ProcessRun cfg tr τ) : Counted τ :=
  Run.preserves (I := Counted) (fun hσ hstep => counted_step hstep hσ) h rfl

/-- A step after main's return finds no handler, and main returns only when none is active. -/
theorem outlived_step (hcount : Counted σ) (hσ : Outlived σ) (hstays : ¬ GivesUp σ l)
    (h : Step cfg σ l τ) : Outlived τ := by
  obtain ⟨-, hmove⟩ := h
  cases hmove with
  | leave pc done =>
    intro _
    have hidle : ¬ 0 < σ.activeClients := fun hpos => hstays ⟨rfl, hpos⟩
    simp only [Counted, pc, MainPc.pending] at hcount
    have hzero : σ.handlers.countP Handler.active = 0 := by omega
    exact countP_active_eq_zero.mp hzero
  | call r pc safe answer =>
    intro hreturned
    have hfinished := hσ hreturned _ (List.mem_of_getElem? pc)
    cases hfinished
  | finish pc =>
    intro hreturned
    have hfinished := hσ hreturned _ (List.mem_of_getElem? pc)
    cases hfinished
  | exit pc => exact hσ
  | signal hsig => exact hσ
  | peerCloses s => exact hσ
  | sigpipe pc raised => exact hσ
  | _ =>
    intro hreturned
    cases hreturned

/-- Main outruns no handler exactly in the runs in which it does not give up draining. -/
theorem neverOutruns_iff (hrun : ProcessRun cfg tr τ) :
    NeverOutruns tr τ ↔ ∀ p ∈ tr, ¬ GivesUp p.1 p.2 := by
  constructor
  · rintro h ⟨ρ, l⟩ hmem ⟨rfl, hactive⟩
    obtain ⟨pre, υ, hpre, ⟨-, hmove⟩, hvisited⟩ := hrun.step_of_mem hmem
    have hcount := counted_run hpre
    cases hmove with
    | leave pc done =>
      have hzero := countP_active_eq_zero.mpr (h _ hvisited rfl)
      simp only at hzero hactive
      simp only [Counted, pc, MainPc.pending] at hcount
      omega
  · intro h ρ hρ
    have hboth : Counted ρ ∧ Outlived ρ :=
      Run.invariant_visited (I := fun σ => Counted σ ∧ Outlived σ)
        (C := fun σ l => ¬ GivesUp σ l)
        (fun hσ hstays hstep =>
          ⟨counted_step hstep hσ.1, outlived_step hσ.1 hσ.2 hstays hstep⟩)
        hrun ⟨rfl, fun hmain => by cases hmain⟩ h hρ
    exact hboth.2

/-- A signal that finds no client connected lets main return. -/
theorem clientGone_shutdown : ∃ tr τ, ProcessRun (readConfig secretOnly) tr τ ∧
    τ.main = .returned ∧ NeverOutruns tr τ := by
  obtain ⟨tr, hrun, hlabels⟩ := clientGone_run 5 [] secretOnly_maxClients
  have h₁ : ProcessRun _ _ _ := .snoc hrun ⟨rfl, .signal (Or.inr rfl)⟩
  have h₂ : ProcessRun _ _ _ := .snoc h₁ ⟨rfl, .shutdown rfl rfl⟩
  have h₃ : ProcessRun _ _ _ := .snoc h₂ ⟨rfl, .leave rfl (by decide)⟩
  refine ⟨_, _, h₃, rfl, (neverOutruns_iff h₃).mpr ?_⟩
  rintro ⟨ρ, l⟩ hmem ⟨rfl, hactive⟩
  simp only [List.mem_append, List.mem_singleton, Prod.mk.injEq, reduceCtorEq, and_false,
    or_false, and_true] at hmem
  rcases hmem with hmem | rfl
  · have hl : Label.leave ∈ connects 5 [] ++ hangsUp 5 := by
      rw [← hlabels]
      exact List.mem_map_of_mem hmem
    simp [connects, hangsUp] at hl
  · exact absurd hactive (by decide)

/-- The drain loop runs through any number of polls up to its bound while a client is active. -/
theorem polls (hrun : ProcessRun cfg tr { σ with main := .draining 0 })
    (halive : σ.ended = none) (hactive : 0 < σ.activeClients) :
    ∀ n ≤ 100, ∃ tr, ProcessRun cfg tr { σ with main := .draining n } := by
  intro n
  induction n with
  | zero => exact fun _ => ⟨tr, hrun⟩
  | succ n ih =>
    intro hle
    obtain ⟨tr, hn⟩ := ih (by omega)
    exact ⟨_, hn.snoc ⟨halive, .poll rfl ⟨by omega, hactive⟩⟩⟩

/-- A client that has sent nothing when main gives up: its handler waits in `recv`, whose timeout
is longer than all polls together. -/
theorem silentClient_outrun : ∃ (cfg : Config) (tr : List (Sys × Label)) (τ : Sys)
    (next : RecvResult 4096 → Io Unit), loadConfig secretOnly = .ok cfg ∧
    100 * 50 < cfg.recvTimeoutMs ∧ ProcessRun cfg tr τ ∧ τ.main = .returned ∧
    τ.handlers = [.running (.call (.recv 5 4096) next)] ∧ ¬ NeverOutruns tr τ := by
  obtain ⟨next, hfirst, -⟩ := handleClient_closed 5 [] (readConfig secretOnly)
  have hserves : ServesConnection 5 [] (readConfig secretOnly) (.call (.recv 5 4096) next) :=
    hfirst ▸ .whole
  obtain ⟨tr, hrun, -⟩ := firstClient_run secretOnly_maxClients hserves
  have h₁ : ProcessRun _ _ _ := .snoc hrun ⟨rfl, .signal (Or.inr rfl)⟩
  have h₂ : ProcessRun _ _ _ := .snoc h₁ ⟨rfl, .shutdown rfl rfl⟩
  obtain ⟨tr', h₃⟩ := polls h₂ rfl Int.one_pos 100 (by omega)
  have h₄ : ProcessRun _ _ _ := .snoc h₃ ⟨rfl, .leave rfl (by omega)⟩
  refine ⟨_, _, _, next, loadConfig_secretOnly, by decide +kernel, h₄, rfl, rfl, ?_⟩
  intro houtlived
  have hfinished := houtlived _ (Or.inl rfl) rfl _ (List.mem_singleton.mpr rfl)
  cases hfinished

end Gateway

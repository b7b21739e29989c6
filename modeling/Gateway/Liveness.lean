import Mathlib
import Gateway.DescriptorOwners
import Gateway.VerifyJwt
import Gateway.Library.Liveness

/-! What must happen: handlers end, descriptors are given back, and a signal makes main return. -/
namespace Gateway

open Program Transition Accounts

variable {D : Deployment} {cfg : Config} {σ τ : Deployed} {l : Label} {tr : List (Deployed × Label)}
  {k : Nat} {p : Io Unit} {o : Op} {next : Res o → Io Unit}

/-- The steps of the main thread up to its return. -/
def Label.ofMain : Label → Bool
  | .signal _ | .peerCloses _ | .call _ _ | .finish _ | .exit => false
  | _ => true

/-- The steps of one handler. -/
def Label.ofHandler (k : Nat) : Label → Prop
  | .call j _ | .finish j => j = k
  | _ => False

/-- A thread is started. -/
def Label.spawns : Label → Nat
  | .spawn => 1
  | _ => 0

/-- How many steps main can take at most when it has been told to stop. -/
def MainPc.stepsLeft : MainPc → Nat
  | .waiting => 107
  | .accepted _ => 106
  | .checked _ => 105
  | .configured _ => 104
  | .starting _ _ => 103
  | .accepting => 102
  | .draining i => 101 - i
  | .returned => 0

/-- How many clients main can still take in then. -/
def MainPc.clientsLeft : MainPc → Nat
  | .waiting | .accepted _ | .checked _ | .configured _ | .starting _ _ => 1
  | _ => 0

/-- The polls of the drain loop do not pass their bound. -/
def MainPc.Bounded : MainPc → Prop
  | .draining i => i ≤ 100
  | _ => True

/-- Where main stands after a step. -/
inductive MainStep (σ τ : Sys) : Label → Prop where
  | other {l : Label} (hl : l.ofMain = false) (main : τ.main = σ.main)
      (running : σ.running = false → τ.running = false) : MainStep σ τ l
  | moves {l : Label} (hl : l.ofMain = true) (running : τ.running = σ.running)
      (bounded : σ.main.Bounded → τ.main.Bounded)
      (steps : σ.running = false → σ.main.Bounded → τ.main.stepsLeft < σ.main.stepsLeft)
      (clients : σ.running = false →
        τ.main.clientsLeft + l.spawns ≤ σ.main.clientsLeft) : MainStep σ τ l

theorem mainStep_of_move {σ τ : Sys} (h : Move cfg σ l τ) : MainStep σ τ l := by
  cases h with
  | signal h => exact .other rfl rfl fun _ => rfl
  | peerCloses s => exact .other rfl rfl id
  | call r pc safe answer => exact .other rfl rfl id
  | sigpipe pc raised => exact .other rfl rfl id
  | finish pc => exact .other rfl rfl id
  | exit pc => exact .other rfl rfl id
  | poll pc more =>
    refine .moves rfl rfl (fun _ => ?_) (fun _ _ => ?_) (fun _ => ?_)
    · exact more.1
    · simp only [pc, MainPc.stepsLeft]
      omega
    · simp [pc, MainPc.clientsLeft, Label.spawns]
  | leave pc done =>
    refine .moves rfl rfl (fun _ => trivial) (fun _ hbounded => ?_) (fun _ => ?_)
    · rw [pc, MainPc.Bounded] at hbounded
      simp only [pc, MainPc.stepsLeft]
      omega
    · simp [pc, MainPc.clientsLeft, Label.spawns]
  | enter pc run =>
    refine .moves rfl rfl (fun _ => trivial) (fun hstop _ => ?_) (fun hstop => ?_)
    · rw [run] at hstop
      cases hstop
    · rw [run] at hstop
      cases hstop
  | shutdown pc stop =>
    refine .moves rfl rfl (fun _ => Nat.zero_le 100) (fun _ _ => ?_) (fun _ => ?_)
    · simp [pc, MainPc.stepsLeft]
    · simp [pc, MainPc.clientsLeft, Label.spawns]
  | _ =>
    refine .moves rfl rfl (fun _ => trivial) (fun _ _ => ?_) (fun _ => ?_)
    · simp_all only [MainPc.stepsLeft]
      omega
    · simp_all only [MainPc.clientsLeft, Label.spawns]
      omega

theorem mainStep_of_deployed (h : DeployedMove D cfg σ l τ) :
    MainStep σ.proc.sys τ.proc.sys l := mainStep_of_move h.process.sys

/-- Main has been told to stop, and polls no more than it may. -/
def Stopped (σ : Deployed) : Prop := σ.proc.sys.running = false ∧ σ.proc.sys.main.Bounded

theorem stopped_step (hσ : Stopped σ) (h : DeployedStep D cfg σ l τ) : Stopped τ := by
  obtain ⟨hstop, hbounded⟩ := hσ
  cases mainStep_of_deployed h.2 with
  | other hl main running => exact ⟨running hstop, by rwa [main]⟩
  | moves hl running bounded steps clients => exact ⟨running.trans hstop, bounded hbounded⟩

theorem bounded_run (h : DeployedRun D cfg tr σ) : σ.proc.sys.main.Bounded := by
  refine Run.preserves (I := fun σ : Deployed => σ.proc.sys.main.Bounded) ?_ h trivial
  intro σ l τ hσ hstep
  cases mainStep_of_deployed hstep.2 with
  | other hl main running => rwa [main]
  | moves hl running bounded steps clients => exact bounded hσ

/-- Once it has been told to stop, every step of main uses up one of those it has left. -/
theorem stepsLeft_run (hσ : Stopped σ) (h : Run (DeployedStep D cfg) σ tr τ) :
    τ.proc.sys.main.stepsLeft + tr.countP (·.2.ofMain) ≤ σ.proc.sys.main.stepsLeft ∧
      τ.proc.sys.main.clientsLeft + (tr.map (·.2.spawns)).sum ≤ σ.proc.sys.main.clientsLeft := by
  induction h with
  | refl => simp
  | @snoc ρ υ l tr run step ih =>
    obtain ⟨hstop, hbounded⟩ := run.preserves (I := Stopped) stopped_step hσ
    obtain ⟨hsteps, hclients⟩ := ih
    simp only [List.countP_append, List.countP_singleton, List.map_append, List.sum_append,
      List.map_cons, List.map_nil, List.sum_cons, List.sum_nil]
    cases mainStep_of_deployed step.2 with
    | other hl main running =>
      have hspawn : l.spawns = 0 := by
        cases l <;> first | rfl | cases hl
      simp only [hl, main, hspawn, Bool.false_eq_true, if_false]
      omega
    | moves hl running bounded steps clients =>
      have hless := steps hstop hbounded
      have hfewer := clients hstop
      simp only [hl, if_true]
      omega

/-- Main is never stuck before it returns. -/
theorem main_enabled (halive : σ.proc.sys.ended = none) (hmain : σ.proc.sys.main ≠ .returned) :
    ∃ l τ, l.ofMain = true ∧ DeployedStep D cfg σ l τ := by
  cases hpc : σ.proc.sys.main with
  | accepting =>
    cases hrun : σ.proc.sys.running with
    | true => exact ⟨_, _, rfl, halive, .keeps (.keeps (.enter hpc hrun) rfl) rfl⟩
    | false => exact ⟨_, _, rfl, halive, .shutdown (.shutdown (.shutdown hpc hrun))⟩
  | waiting => exact ⟨_, _, rfl, halive, .keeps (.keeps (.idle hpc) rfl) rfl⟩
  | accepted cs =>
    rcases Int.lt_or_le σ.proc.sys.activeClients cfg.maxClients with hroom | hfull
    · exact ⟨_, _, rfl, halive, .keeps (.keeps (.check hpc hroom) rfl) rfl⟩
    · exact ⟨_, _, rfl, halive, .reject hpc (.reject hpc (.reject hpc hfull))⟩
  | checked cs => exact ⟨_, _, rfl, halive, .keeps (.keeps (.timeoutSet hpc) rfl) rfl⟩
  | configured cs => exact ⟨_, _, rfl, halive, .keeps (.keeps (.register [] hpc) rfl) rfl⟩
  | starting cs ip => exact ⟨_, _, rfl, halive, .spawn hpc .whole⟩
  | draining i =>
    by_cases hmore : i < 100 ∧ 0 < σ.proc.sys.activeClients
    · exact ⟨_, _, rfl, halive, .keeps (.keeps (.poll hpc hmore) rfl) rfl⟩
    · exact ⟨_, _, rfl, halive, .keeps (.keeps (.leave hpc hmore) rfl) rfl⟩
  | returned => exact (hmain hpc).elim

/-- After a signal main takes in at most one more client and returns within 107 steps of its own,
whatever the handlers, the clients and the upstreams do meanwhile. -/
theorem shutdown_prompt {pre : List (Deployed × Label)} (hrun : DeployedRun D cfg pre σ)
    (hstop : σ.proc.sys.running = false) (h : Run (DeployedStep D cfg) σ tr τ) :
    τ.proc.sys.running = false ∧ tr.countP (·.2.ofMain) ≤ 107 ∧ (tr.map (·.2.spawns)).sum ≤ 1 ∧
      (τ.proc.sys.ended = none → τ.proc.sys.main ≠ .returned →
        ∃ l υ, l.ofMain = true ∧ DeployedStep D cfg τ l υ) := by
  have hσ : Stopped σ := ⟨hstop, bounded_run hrun⟩
  obtain ⟨hsteps, hclients⟩ := stepsLeft_run hσ h
  have hmax : σ.proc.sys.main.stepsLeft ≤ 107 ∧ σ.proc.sys.main.clientsLeft ≤ 1 := by
    cases σ.proc.sys.main with
    | draining i =>
      simp only [MainPc.stepsLeft, MainPc.clientsLeft]
      omega
    | _ => simp [MainPc.stepsLeft, MainPc.clientsLeft]
  exact ⟨(h.preserves (I := Stopped) stopped_step hσ).1, by omega, by omega, main_enabled⟩

/-- A signal that main learns of after one more client, which hangs up while main polls. -/
theorem goneClient_drains (D : Deployment) (hmax : 0 < cfg.maxClients) :
    ∃ (pre tr : List (Deployed × Label)) (σ τ : Deployed) (p : Io Unit),
      DeployedRun D cfg pre σ ∧ σ.proc.sys.running = false ∧ Run (DeployedStep D cfg) σ tr τ ∧
      tr.map Prod.snd = [.accept 4, .check, .timeoutSet, .register [], .spawn, .shutdown, .poll,
        .call 0 (.recv 4 4096), .call 0 (.closeSocket 4), .finish 0, .leave, .exit] ∧
      (∀ e ∈ pre ++ tr, ¬ GivesUp e.1.proc.sys e.2) ∧
      stateAt (pre ++ tr) τ 0 = deploy cfg ∧
      (stateAt (pre ++ tr) τ 7).proc.sys.handlers[0]? = some (.running p) ∧
      (stateAt (pre ++ tr) τ 7).proc.sys.running = false ∧ τ.proc.sys.ended = some .exited := by
  obtain ⟨next, hfirst, hclosed⟩ := handleClient_closed 4 [] cfg
  have hserves : ServesConnection 4 [] cfg (.call (.recv 4 4096) next) := hfirst ▸ .whole
  have hclose : [Handler.running (next .closed)][0]? =
      some (.running (.call (.closeSocket 4) .ret)) := by
    rw [hclosed]
    rfl
  have hmore : 0 < 100 ∧ (0 : Int) < 0 + 1 := by decide
  have hdone : ¬ (1 < 100 ∧ (0 : Int) < 0 + 1 - 1) := by decide
  let σ : Deployed := { deploy cfg with proc := { sys := { main := .waiting, running := false } } }
  have h₁ : DeployedRun D cfg _ _ := .snoc (.refl _) ⟨rfl, .keeps (.keeps (.enter rfl rfl) rfl) rfl⟩
  have h₂ : DeployedRun D cfg _ σ := .snoc h₁ ⟨rfl, .keeps (.keeps (.signal (.inr rfl)) rfl) rfl⟩
  have h₃ : Run (DeployedStep D cfg) σ _ _ :=
    .snoc (.refl _) ⟨rfl, .accept (.accept (.accept 4 rfl) (isLeast_range 4))⟩
  have h₄ : Run (DeployedStep D cfg) σ _ _ :=
    .snoc h₃ ⟨rfl, .keeps (.keeps (.check rfl hmax) rfl) rfl⟩
  have h₅ : Run (DeployedStep D cfg) σ _ _ :=
    .snoc h₄ ⟨rfl, .keeps (.keeps (.timeoutSet rfl) rfl) rfl⟩
  have h₆ : Run (DeployedStep D cfg) σ _ _ :=
    .snoc h₅ ⟨rfl, .keeps (.keeps (.register [] rfl) rfl) rfl⟩
  have h₇ : Run (DeployedStep D cfg) σ _ _ := .snoc h₆ ⟨rfl, .spawn rfl hserves⟩
  have h₈ : Run (DeployedStep D cfg) σ _ _ :=
    .snoc h₇ ⟨rfl, .shutdown (.shutdown (.shutdown rfl rfl))⟩
  have h₉ : Run (DeployedStep D cfg) σ _ _ :=
    .snoc h₈ ⟨rfl, .keeps (.keeps (.poll rfl hmore) rfl) rfl⟩
  have h₁₀ : Run (DeployedStep D cfg) σ _ _ :=
    .snoc h₉ ⟨rfl, @DeployedMove.call D cfg _ 0 (.recv 4 4096) next .closed 1 rfl id trivial trivial
      Int.one_pos trivial⟩
  have h₁₁ : Run (DeployedStep D cfg) σ _ _ :=
    .snoc h₁₀ ⟨rfl, @DeployedMove.call D cfg _ 0 (.closeSocket 4) .ret () 1 hclose id trivial
      trivial Int.one_pos trivial⟩
  have h₁₂ : Run (DeployedStep D cfg) σ _ _ :=
    .snoc h₁₁ ⟨rfl, .keeps (.keeps (.finish (k := 0) rfl) rfl) rfl⟩
  have h₁₃ : Run (DeployedStep D cfg) σ _ _ :=
    .snoc h₁₂ ⟨rfl, .keeps (.keeps (.leave rfl hdone) rfl) rfl⟩
  have h₁₄ : Run (DeployedStep D cfg) σ _ _ := .snoc h₁₃ ⟨rfl, .keeps (.keeps (.exit rfl) rfl) rfl⟩
  exact ⟨_, _, σ, _, _, h₂, rfl, h₁₄, rfl, by simp [GivesUp, σ, deploy, Sys.answered],
    rfl, rfl, rfl, rfl⟩

/-- That shutdown took twelve steps, nine of them of main, and one client more. -/
theorem goneClient_shutdown_prompt : ∃ (tr : List (Deployed × Label)) (τ : Deployed),
    tr.map Prod.snd = [Label.accept 4, .check, .timeoutSet, .register [], .spawn, .shutdown, .poll,
      .call 0 (.recv 4 4096), .call 0 (.closeSocket 4), .finish 0, .leave, .exit] ∧
    τ.proc.sys.ended = some .exited ∧ τ.proc.sys.running = false ∧
    tr.countP (·.2.ofMain) ≤ 107 ∧ (tr.map (·.2.spawns)).sum ≤ 1 := by
  obtain ⟨pre, tr, σ, τ, p, hrun, hstop, htail, hlabels, -, -, -, -, hexited⟩ :=
    goneClient_drains ⟨fun _ _ => none⟩ secretOnly_maxClients
  obtain ⟨hstopped, hsteps, hclients, -⟩ := shutdown_prompt hrun hstop htail
  exact ⟨tr, τ, hlabels, hexited, hstopped, hsteps, hclients⟩

/-- What a step of the system makes of a handler. -/
inductive HandlerStep (k : Nat) (p : Io Unit) (τ : Sys) (l : Label) : Prop where
  | stops (h : τ.ended ≠ none)
  | waits (hl : ¬ l.ofHandler k) (h : τ.handlers[k]? = some (.running p))
  | answered {q : Io Unit} (hl : l.ofHandler k) (h : τ.handlers[k]? = some (.running q))
      (follows : q.Follows p)
  | ends (h : τ.handlers[k]? = some .finished)

theorem handlerStep_of_move {σ τ : Sys} (hk : σ.handlers[k]? = some (.running p))
    (h : Move cfg σ l τ) : HandlerStep k p τ l := by
  have hlt := (List.getElem?_eq_some_iff.mp hk).1
  cases h with
  | @call j o next r pc safe answer =>
    by_cases hj : j = k
    · subst hj
      obtain rfl : p = .call o next := by
        rw [hk] at pc
        simpa using pc
      exact .answered rfl (by simp [Sys.answered, hlt]) ⟨o, next, r, rfl, rfl⟩
    · exact .waits hj (by simpa [Sys.answered, hj] using hk)
  | @finish j pc =>
    by_cases hj : j = k
    · subst hj
      exact .ends (by simp [hlt])
    · exact .waits hj (by simpa [hj] using hk)
  | sigpipe pc raised => exact .stops (by simp)
  | exit pc => exact .stops (by simp)
  | spawn pc serves => exact .waits id (by simpa [List.getElem?_append_left hlt] using hk)
  | _ => exact .waits id hk

/-- Every call can be answered, whatever the handler calls. -/
theorem exists_answer (D : Deployment) (σ : Deployed) (o : Op) : ∃ r : Res o,
    Answers σ.proc.sys o r ∧ HandsOut σ.proc.fds ⟨o, r⟩ ∧
      D.Answers σ.limiter 1 ⟨o, r⟩ := by
  cases o with
  | send s data flags => exact ⟨⟨-1, .EPIPE, .inl rfl⟩, fun _ => ⟨rfl, rfl⟩, trivial, trivial⟩
  | socket ai => exact ⟨none, trivial, trivial, trivial⟩
  | allow ip => exact ⟨(σ.limiter.allow ip 1).1, trivial, trivial, rfl⟩
  | verifyJwt token secret requiredIssuer =>
    have hcases := verifyJwt_cases (Jwt.library D.hmac ⟨0, 0⟩ [.exp, .iat, .nbf]) token secret
      requiredIssuer
    rcases hcases with ⟨d, -, hinfo⟩ | ⟨-, e, -, hinfo⟩
    · exact ⟨_, trivial, trivial, ⟨0, 0⟩, _, .refl _, hinfo⟩
    · exact ⟨_, trivial, trivial, ⟨0, 0⟩, _, .refl _, hinfo⟩
  | recv s len => exact ⟨.closed, trivial, trivial, trivial⟩
  | getaddrinfo host port => exact ⟨⟨0, []⟩, trivial, trivial, trivial⟩
  | connect s ai => exact ⟨.done, trivial, trivial, trivial⟩
  | select s timeoutMs => exact ⟨.ready, trivial, trivial, trivial⟩
  | getFl s => exact ⟨none, trivial, trivial, trivial⟩
  | getSoError s => exact ⟨none, trivial, trivial, trivial⟩
  | setFl s flags => exact ⟨true, trivial, trivial, trivial⟩
  | setTimeout s opt ms => exact ⟨true, trivial, trivial, trivial⟩
  | _ => exact ⟨(), trivial, trivial, trivial⟩

theorem handler_enabled (halive : σ.proc.sys.ended = none)
    (hk : σ.proc.sys.handlers[k]? = some (.running p)) :
    ∃ l τ, l.ofHandler k ∧ DeployedStep D cfg σ l τ := by
  cases p with
  | ret a => exact ⟨.finish k, _, rfl, halive, .keeps (.keeps (.finish hk) rfl) rfl⟩
  | call o next =>
    refine ⟨.call k o, ?_⟩
    by_cases hraised : RaisesSigpipe σ.proc.sys o
    · exact ⟨_, rfl, halive, .sigpipe hk hraised⟩
    · obtain ⟨r, hanswer, hlowest, hanswered⟩ := exists_answer D σ o
      exact ⟨_, rfl, halive, .call r 1 hk hraised hanswer hlowest Int.one_pos hanswered⟩

/-- Every answer brings a handler nearer to its end, and no other step takes it further from it. -/
theorem handler_progress (D : Deployment) (cfg : Config) (k : Nat) :
    Progress (DeployedStep D cfg) (Label.ofHandler k)
      (fun σ => ∃ p, σ.proc.sys.handlers[k]? = some (.running p) ∧ σ.proc.sys.ended = none)
      (fun σ => σ.proc.sys.ended ≠ none ∨ σ.proc.sys.handlers[k]? = some .finished)
      Prog.Follows (fun σ => (σ.proc.sys.handlers[k]?.map Handler.rest).getD (.ret ())) := by
  refine .of_step ?_ ?_
  · rintro σ ⟨p, hk, halive⟩
    exact handler_enabled halive hk
  · rintro σ l τ ⟨p, hk, halive⟩ ⟨-, hmove⟩
    by_cases hended : τ.proc.sys.ended = none
    · cases handlerStep_of_move hk hmove.process.sys with
      | stops h => exact (h hended).elim
      | waits hno h =>
        exact .inr ⟨⟨_, h, hended⟩, fun hl => (hno hl).elim, fun _ => by simp [h, hk]⟩
      | answered hl h follows =>
        refine .inr ⟨⟨_, h, hended⟩, fun _ => ?_, fun hno => (hno hl).elim⟩
        simpa [h, hk, Handler.rest] using follows
      | ends h => exact .inl (.inr h)
    · exact .inl (.inl hended)

theorem main_progress (D : Deployment) (cfg : Config) :
    Progress (DeployedStep D cfg) (fun l => l.ofMain = true)
      (fun σ => Stopped σ ∧ σ.proc.sys.ended = none ∧ σ.proc.sys.main ≠ .returned)
      (fun σ => σ.proc.sys.ended ≠ none ∨ σ.proc.sys.main = .returned)
      (· < ·) (fun σ => σ.proc.sys.main.stepsLeft) := by
  refine .of_step ?_ ?_
  · rintro σ ⟨-, halive, hmain⟩
    exact main_enabled halive hmain
  · rintro σ l τ ⟨hσ, halive, hmain⟩ hstep
    have hτ := stopped_step hσ hstep
    by_cases hend : τ.proc.sys.ended ≠ none ∨ τ.proc.sys.main = .returned
    · exact .inl hend
    · simp only [not_or, not_not] at hend
      refine .inr ⟨⟨hτ, hend⟩, ?_⟩
      cases mainStep_of_deployed hstep.2 with
      | other hl main running => simp [hl, main]
      | moves hl running bounded steps clients =>
        exact ⟨fun _ => steps hσ.1 hσ.2, fun hno => (hno hl).elim⟩

theorem ne_of_running {sys : Sys} {j : Nat} (pc : sys.handlers[j]? = some (.running p))
    (hk : sys.handlers[k]? = some .finished) : j ≠ k := by
  rintro rfl
  rw [hk] at pc
  cases pc

theorem finished_step (hk : σ.proc.sys.handlers[k]? = some .finished)
    (h : DeployedStep D cfg σ l τ) : τ.proc.sys.handlers[k]? = some .finished := by
  have hlt := (List.getElem?_eq_some_iff.mp hk).1
  have hmove := h.2.process.sys
  generalize τ.proc.sys = τ' at hmove ⊢
  cases hmove with
  | @call j o next r pc safe answer =>
    have hj := ne_of_running pc hk
    simpa [Sys.answered, hj] using hk
  | @finish j pc =>
    have hj := ne_of_running pc hk
    simpa [hj] using hk
  | spawn pc serves => simpa [List.getElem?_append_left hlt] using hk
  | _ => exact hk

/-- The process exits as soon as main has returned. -/
theorem exit_progress (D : Deployment) (cfg : Config) :
    Progress (DeployedStep D cfg) (· = .exit)
      (fun σ => Stopped σ ∧ σ.proc.sys.main = .returned ∧ σ.proc.sys.ended = none)
      (fun σ => σ.proc.sys.ended ≠ none) (· < ·) (fun _ => 0) := by
  refine .of_step ?_ ?_
  · rintro σ ⟨-, hmain, halive⟩
    exact ⟨_, _, rfl, halive, .keeps (.keeps (.exit hmain) rfl) rfl⟩
  · rintro σ l τ ⟨hσ, hmain, halive⟩ hstep
    have hτ := stopped_step hσ hstep
    by_cases hended : τ.proc.sys.ended = none
    · refine .inr ⟨⟨hτ, ?_, hended⟩, ?_, fun _ => rfl⟩
      · cases mainStep_of_deployed hstep.2 with
        | other hl main running => exact main.trans hmain
        | moves hl running bounded steps clients =>
          have hless := steps hσ.1 hσ.2
          rw [hmain] at hless
          cases hless
      · rintro rfl
        have hmove := hstep.2.process.sys
        generalize τ.proc.sys = τ' at hmove hended
        cases hmove with
        | exit pc => cases hended
    · exact .inl hended

/-- The process exits only after main has returned. -/
theorem exited_run (h : DeployedRun D cfg tr σ) :
    σ.proc.sys.ended = some .exited → σ.proc.sys.main = .returned := by
  refine Run.preserves
    (I := fun σ : Deployed => σ.proc.sys.ended = some .exited → σ.proc.sys.main = .returned)
    ?_ h nofun
  rintro σ l τ - ⟨halive, hmove⟩ hended
  have hsys := hmove.process.sys
  generalize τ.proc.sys = τ' at hsys hended ⊢
  cases hsys with
  | exit pc => exact pc
  | sigpipe pc raised => cases hended
  | call r pc safe answer => cases halive.symm.trans hended
  | _ => cases halive.symm.trans hended

theorem SharedOut.finished_owns_nothing {held : List (Socket × Holding)} {v : Socket}
    (h : SharedOut cfg σ held) (hk : σ.proc.sys.handlers[k]? = some .finished) :
    σ.owner v ≠ some (.handler k) := by
  obtain ⟨⟨s, share⟩, hq, rfl⟩ := exists_getElem? h.observes hk
  rw [Ne, h.titled, mem_holdings hq]
  simp [Holding.fds]

/-- When main has returned and every handler has finished, the standard streams alone are open. -/
theorem fds_of_ended (h : DeployedRun D cfg tr σ) (hmain : σ.proc.sys.main = .returned)
    (hall : ∀ h ∈ σ.proc.sys.handlers, h = .finished) : σ.proc.fds = {0, 1, 2} := by
  obtain ⟨-, held, hshared⟩ := sharedOut_run h
  ext v
  rw [hshared.opened]
  have hstandard : MainPc.returned.ownFds = {0, 1, 2} := by decide
  constructor
  · intro howned
    cases howner : σ.owner v with
    | none => exact (howned howner).elim
    | some o =>
      rw [hshared.titled] at howner
      cases o with
      | main =>
        rw [hmain] at howner
        simpa [holdings, hstandard] using howner
      | handler k =>
        cases hq : held[k]? with
        | none => simp [holdings, hq] at howner
        | some q =>
          rw [mem_holdings hq] at howner
          obtain ⟨h, hk, hobserves⟩ :=
            exists_getElem? (P := fun q h => Observes h q.2) hshared.observes.flip hq
          rw [hall h (List.mem_of_getElem? hk)] at hobserves
          rw [show q.2 = .nothing from hobserves] at howner
          simp [Holding.fds] at howner
  · intro hv
    have howner : σ.owner v = some .main := by
      rw [hshared.titled, hmain]
      simpa [holdings, hstandard] using hv
    simp [howner]

variable {E : Execution (DeployedStep D cfg)} {n : Nat}

/-- The handlers, main and the exit of the process are each scheduled again and again, and no send
to a closed peer kills the process. -/
structure Scheduled (E : Execution (DeployedStep D cfg)) : Prop where
  start : E.state 0 = deploy cfg
  main : E.Fair fun l => l.ofMain = true
  handlers : ∀ k, E.Fair (Label.ofHandler k)
  exit : E.Fair (· = .exit)
  alive : ∀ n, (E.state n).proc.sys.ended ≠ some .killed

theorem Scheduled.exists_run (h : Scheduled E) (n : Nat) :
    ∃ tr, DeployedRun D cfg tr (E.state n) := by
  have hrun := E.exists_run (Nat.zero_le n)
  rwa [h.start] at hrun

theorem Scheduled.exited_of_ended (h : Scheduled E) (hended : (E.state n).proc.sys.ended ≠ none) :
    (E.state n).proc.sys.ended = some .exited := by
  have hkilled := h.alive n
  cases hend : (E.state n).proc.sys.ended with
  | none => exact (hended hend).elim
  | some ending =>
    cases ending with
    | exited => rfl
    | killed => exact (hkilled hend).elim

/-- A handler finishes, unless the process exits before. -/
theorem Scheduled.finishes (h : Scheduled E)
    (hk : (E.state n).proc.sys.handlers[k]? = some (.running p)) :
    ∃ m, n ≤ m ∧ ((E.state m).proc.sys.ended = some .exited ∨
      (E.state m).proc.sys.handlers[k]? = some .finished) := by
  by_cases halive : (E.state n).proc.sys.ended = none
  · obtain ⟨m, hm, hended | hfinished⟩ := Execution.reaches (handler_progress D cfg k)
      Prog.follows_wf (h.handlers k) ⟨p, hk, halive⟩
    · exact ⟨m, hm, .inl (h.exited_of_ended hended)⟩
    · exact ⟨m, hm, .inr hfinished⟩
  · exact ⟨n, le_rfl, .inl (h.exited_of_ended halive)⟩

theorem Scheduled.stays_finished (hk : (E.state n).proc.sys.handlers[k]? = some .finished)
    {m : Nat} (hm : n ≤ m) : (E.state m).proc.sys.handlers[k]? = some .finished :=
  E.always (I := fun σ => σ.proc.sys.handlers[k]? = some .finished) finished_step hk hm

/-- Main returns after a signal, and the process exits. -/
theorem Scheduled.exits (h : Scheduled E) (hstop : (E.state n).proc.sys.running = false) :
    ∃ m, n ≤ m ∧ (E.state m).proc.sys.ended = some .exited := by
  obtain ⟨tr, hrun⟩ := h.exists_run n
  have hσ : Stopped (E.state n) := ⟨hstop, bounded_run hrun⟩
  obtain ⟨i, hi, hreturned⟩ : ∃ m, n ≤ m ∧ ((E.state m).proc.sys.ended ≠ none ∨
      (E.state m).proc.sys.main = .returned) := by
    by_cases hdone : (E.state n).proc.sys.ended ≠ none ∨ (E.state n).proc.sys.main = .returned
    · exact ⟨n, le_rfl, hdone⟩
    · simp only [not_or, not_not] at hdone
      exact Execution.reaches (main_progress D cfg) wellFounded_lt h.main ⟨hσ, hdone⟩
  by_cases hended : (E.state i).proc.sys.ended = none
  · have hmain := hreturned.resolve_left (not_not.mpr hended)
    obtain ⟨m, hm, hexit⟩ := Execution.reaches (exit_progress D cfg) wellFounded_lt h.exit
      ⟨E.always (I := Stopped) stopped_step hσ hi, hmain, hended⟩
    exact ⟨m, hi.trans hm, h.exited_of_ended hexit⟩
  · exact ⟨i, hi, h.exited_of_ended hended⟩

/-- Where main never gave up draining, it has outlived every handler. -/
theorem Scheduled.outlives (h : Scheduled E)
    (hstays : ∀ i l, E.event i = some l → ¬ GivesUp (E.state i).proc.sys l) :
    Outlived (E.state n).proc.sys := by
  have hstart : Counted (E.state 0).proc.sys ∧ Outlived (E.state 0).proc.sys := by
    rw [h.start]
    exact ⟨rfl, fun hmain => by cases hmain⟩
  refine (E.always_of (I := fun σ => Counted σ.proc.sys ∧ Outlived σ.proc.sys)
    (C := fun σ l => ¬ GivesUp σ.proc.sys l) ?_ hstays hstart (Nat.zero_le n)).2
  rintro σ l τ ⟨hcount, hσ⟩ hstays ⟨halive, hmove⟩
  have hstep : Step cfg σ.proc.sys l τ.proc.sys := ⟨halive, hmove.process.sys⟩
  exact ⟨counted_step hstep hcount, outlived_step hcount hσ hstays hstep⟩

/-- Wherever the threads are scheduled fairly, every connection comes to its end and gives back
all its descriptors for good, unless the process exits before it; and a signal to stop ends with the
exit of the process, at which every handler has finished and no descriptor is open but the standard
streams, unless main has given up waiting for the handlers. -/
theorem connections_end (h : Scheduled E) :
    (∀ n k p, (E.state n).proc.sys.handlers[k]? = some (.running p) →
      ∃ m, n ≤ m ∧ ((E.state m).proc.sys.ended = some .exited ∨
        ∀ j, m ≤ j → (E.state j).proc.sys.handlers[k]? = some .finished ∧
          ∀ v, (E.state j).owner v ≠ some (.handler k))) ∧
    ∀ n, (E.state n).proc.sys.running = false →
      ∃ m, n ≤ m ∧ (∀ j, m ≤ j → E.state j = E.state m) ∧
        (E.state m).proc.sys.ended = some .exited ∧ (E.state m).proc.sys.main = .returned ∧
        ((∀ i l, E.event i = some l → ¬ GivesUp (E.state i).proc.sys l) →
          (∀ handler ∈ (E.state m).proc.sys.handlers, handler = .finished) ∧
          (E.state m).proc.fds = {0, 1, 2}) := by
  constructor
  · intro n k p hk
    obtain ⟨m, hm, hexited | hfinished⟩ := h.finishes hk
    · exact ⟨m, hm, .inl hexited⟩
    · refine ⟨m, hm, .inr fun j hj => ?_⟩
      have hlater := Scheduled.stays_finished hfinished hj
      obtain ⟨tr, hrun⟩ := h.exists_run j
      obtain ⟨-, held, hshared⟩ := sharedOut_run hrun
      exact ⟨hlater, fun v => hshared.finished_owns_nothing hlater⟩
  · intro n hstop
    obtain ⟨m, hm, hexited⟩ := h.exits hstop
    obtain ⟨tr, hrun⟩ := h.exists_run m
    have hmain := exited_run hrun hexited
    have hstuck : ∀ l τ, ¬ DeployedStep D cfg (E.state m) l τ := by
      rintro l τ ⟨halive, -⟩
      cases halive.symm.trans hexited
    refine ⟨m, hm, fun j hj => E.stays_of_stuck hstuck hj, hexited, hmain, fun hstays => ?_⟩
    have hfinished := h.outlives hstays hmain
    exact ⟨hfinished, fds_of_ended hrun hmain hfinished⟩

/-- The client of that shutdown is served to its end, and the process exits with the standard
streams alone. -/
theorem goneClient_ends : ∃ (E : Execution (DeployedStep ⟨fun _ _ => none⟩
    (readConfig secretOnly))) (p : Io Unit), (E.state 7).proc.sys.handlers[0]? = some (.running p) ∧
      (∃ m, 7 ≤ m ∧ ((E.state m).proc.sys.ended = some .exited ∨
        ∀ j, m ≤ j → (E.state j).proc.sys.handlers[0]? = some .finished ∧
          ∀ v, (E.state j).owner v ≠ some (.handler 0))) ∧
      ∃ m, 7 ≤ m ∧ (E.state m).proc.sys.ended = some .exited ∧
        (∀ handler ∈ (E.state m).proc.sys.handlers, handler = .finished) ∧
        (E.state m).proc.fds = {0, 1, 2} := by
  obtain ⟨pre, tr, σ, τ, p, hpre, -, htail, -, hstays, hstart, hk, hstop, hexited⟩ :=
    goneClient_drains ⟨fun _ _ => none⟩ secretOnly_maxClients
  have hrun := hpre.trans htail
  have hstuck : ∀ l υ, ¬ DeployedStep ⟨fun _ _ => none⟩ (readConfig secretOnly) τ l υ := by
    rintro l υ ⟨halive, -⟩
    cases halive.symm.trans hexited
  have hscheduled : Scheduled (Execution.ofRun hrun) := by
    refine ⟨hstart, Execution.fair_ofRun hrun fun l υ _ => hstuck l υ,
      fun k => Execution.fair_ofRun hrun fun l υ _ => hstuck l υ,
      Execution.fair_ofRun hrun fun l υ _ => hstuck l υ, ?_⟩
    intro n hkilled
    rcases visited_stateAt (pre ++ tr) τ n with heq | ⟨l, hmem⟩
    · cases hexited.symm.trans ((congrArg (fun σ => σ.proc.sys.ended) heq).symm.trans hkilled)
    · obtain ⟨-, υ, -, ⟨halive, -⟩, -⟩ := hrun.step_of_mem hmem
      cases halive.symm.trans hkilled
  obtain ⟨hends, hexits⟩ := connections_end hscheduled
  obtain ⟨m, hm, -, hended, -, hdrained⟩ := hexits 7 hstop
  refine ⟨_, p, hk, hends 7 0 p hk, m, hm, hended, hdrained fun i l he => ?_⟩
  obtain ⟨⟨ρ, l'⟩, hget, rfl⟩ := Option.map_eq_some_iff.mp he
  have hstate : (Execution.ofRun hrun).state i = ρ := by
    change stateAt (pre ++ tr) τ i = ρ
    rw [stateAt, hget]
    rfl
  rw [hstate]
  exact hstays _ (List.mem_of_getElem? hget)

end Gateway

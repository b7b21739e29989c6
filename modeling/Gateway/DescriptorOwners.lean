import Mathlib
import Gateway.Authentication
import Gateway.SocketDiscipline

/-! Every descriptor has one owner, who alone uses and closes it, in any interleaving. -/
namespace Gateway

open Program Transition Accounts

variable {D : Deployment} {cfg : Config} {σ τ : Deployed} {l : Label} {tr : List (Deployed × Label)}
  {s u v : Socket} {ip : Bytes} {p : Io Unit} {share share' : Holding} {e : Event Op Res} {k : Nat}

/-- The descriptor that a call acts on. -/
def Op.target : Op → Option Socket
  | .recv s _ | .send s _ _ | .closeSocket s | .getFl s | .setFl s _ | .connect s _ | .select s _
  | .getSoError s | .setTimeout s _ _ => some s
  | _ => none

/-- The one socket that a handler deals with at the moment. -/
def Holding.current : Holding → Option Socket
  | client s => some s
  | both _ u => some u
  | nothing => none

/-- Besides what it holds, a handler deals with its current socket only. -/
def ownMonitor : Monitor Op Res Holding where
  promised := fun _ => True
  step := fun share e =>
    if e.op.target = none ∨ e.op.target = share.current then share.step e else none

theorem target_of_onSocket {o : Op} (h : OnSocket u o) : o.target = some u := by
  cases o with
  | send s data flags => exact congrArg some h.1
  | recv s len => exact congrArg some h
  | getFl s => exact congrArg some h
  | setFl s flags => exact congrArg some h
  | connect s ai => exact congrArg some h
  | select s ms => exact congrArg some h
  | getSoError s => exact congrArg some h
  | setTimeout s opt ms => exact congrArg some h
  | _ => exact h.elim

theorem own_of_held (hstep : share.step e = some share')
    (htarget : e.op.target = none ∨ e.op.target = share.current) :
    ownMonitor.step share e = some share' := by
  rw [← hstep]
  exact if_pos htarget

theorem own_upstream (s : Socket) :
    UpstreamRules ownMonitor (fun _ so => so.elim (.client s) (.both s)) fun _ => True := by
  have h := holding_upstream s
  constructor
  case mark => exact fun base req path auth => own_of_held (h.mark base req path auth) (.inl rfl)
  case resolve => exact fun host port r => own_of_held (h.resolve host port r) (.inl rfl)
  case free => exact fun list so hne => own_of_held (h.free list so hne) (.inl rfl)
  case noSocket => exact fun list ai => own_of_held (h.noSocket list ai) (.inl rfl)
  case socket =>
    exact fun list ai u _ => ⟨trivial, own_of_held (h.socket list ai u trivial).2 (.inl rfl)⟩
  case uses =>
    exact fun list u o r _ ho =>
      own_of_held (h.uses list u o r trivial ho) (.inr (target_of_onSocket ho))
  case close => exact fun list u _ => own_of_held (h.close list u trivial) (.inr rfl)

theorem own_rules (s : Socket) (cfg : Config) :
    ClientRules ownMonitor s cfg (.client s) (.client s) (fun _ => .client s) (· = .nothing) := by
  have hends : ownMonitor.step (.client s) ⟨.closeSocket s, ()⟩ = some .nothing :=
    own_of_held (by simp [Holding.step]) (.inr rfl)
  constructor
  case data => exact fun _ _ _ _ => own_of_held rfl (.inr rfl)
  case closed => exact fun _ => own_of_held rfl (.inr rfl)
  case error => exact fun _ _ => own_of_held rfl (.inr rfl)
  case allow => exact fun _ _ => own_of_held rfl (.inl rfl)
  case verifyJwt => exact fun _ _ _ _ => own_of_held rfl (.inl rfl)
  case forward =>
    intro method target req auth _
    exact forwardRequest_wp (own_upstream s) _ _ _ _ _
  case reply => exact fun _ _ => own_of_held rfl (.inl rfl)
  case send => exact fun _ _ _ => own_of_held rfl (.inr rfl)
  case close => exact fun _ => ⟨.nothing, hends, rfl⟩
  case hangUp => exact ⟨.nothing, hends, rfl⟩

theorem serves_own (h : ServesConnection s ip cfg p) :
    ownMonitor.wp p (fun _ share => share = .nothing) (.client s) := by
  cases h with
  | whole => exact handleClient_wp (own_rules s cfg) ip
  | accepted req leftover => exact handleAccepted_wp (own_rules s cfg) ip leftover

/-- What is left of a handler deals with what it holds, and gives it back. -/
def Observes : Handler → Holding → Prop
  | .running p, share => ownMonitor.wp p (fun _ share' => share' = .nothing) share
  | .finished, share => share = .nothing

/-- A holding of the handler of client `s`, whose upstream socket is another. -/
def Holding.Of (s : Socket) : Holding → Prop
  | client t => t = s
  | both t u => t = s ∧ u ≠ s
  | nothing => True

/-- The client that main has in its hands. -/
def MainPc.client : MainPc → Option Socket
  | .accepted cs | .checked cs | .configured cs | .starting cs _ => some cs
  | _ => none

/-- The descriptors that main is to close, or that stay open as long as the process. -/
def MainPc.ownFds : MainPc → Finset Socket
  | .draining _ | .returned => firstFds.erase listener
  | main => main.commonFds

def holdings (main : MainPc) (held : List (Socket × Holding)) : Owner → Finset Socket
  | .main => main.ownFds
  | .handler k => held[k]?.elim ∅ fun q => q.2.fds

/-- The descriptors are shared out among main and the handlers, each with its own client. -/
structure SharedOut (cfg : Config) (σ : Deployed) (held : List (Socket × Holding)) : Prop where
  observes : List.Forall₂ (fun h q => Observes h q.2) σ.proc.sys.handlers held
  serves : List.Forall₂ (fun p s => ∃ ip, ServesConnection s ip cfg p) σ.starts
    (held.map Prod.fst)
  clients : ∀ q ∈ held, q.2.Of q.1
  titled : Titled σ.owner (holdings σ.proc.sys.main held)
  opened : ∀ v, v ∈ σ.proc.fds ↔ σ.owner v ≠ none
  apart : ∀ cs, σ.proc.sys.main.client = some cs → cs ∉ firstFds
  fresh : ∀ k q e, held[k]? = some q → (k, e) ∈ σ.log.map Entry.call → NotHandedOut q.1 e

variable {held : List (Socket × Holding)}

theorem ownFds_of_keeps {σ τ : Sys} (h : Move cfg σ l τ) (kept : l.keepsFds = true) :
    τ.main.ownFds = σ.main.ownFds ∧ τ.main.client = σ.main.client := by
  cases h <;> simp_all [MainPc.ownFds, MainPc.commonFds, MainPc.client, Label.keepsFds]

theorem opened_insert {fds : Finset Socket} {owner : Socket → Option Owner} {o : Owner}
    (h : ∀ v, v ∈ fds ↔ owner v ≠ none) (u : Socket) :
    ∀ v, v ∈ insert u fds ↔ Function.update owner u (some o) v ≠ none := by
  intro v
  rcases eq_or_ne v u with rfl | hne
  · simp
  · simp [hne, h v]

theorem opened_erase {fds : Finset Socket} {owner : Socket → Option Owner}
    (h : ∀ v, v ∈ fds ↔ owner v ≠ none) (u : Socket) :
    ∀ v, v ∈ fds.erase u ↔ Function.update owner u none v ≠ none := by
  intro v
  rcases eq_or_ne v u with rfl | hne
  · simp
  · simp [hne, h v]

/-- The client that main lets go is none of the first descriptors. -/
theorem mem_firstFds_iff {cs : Socket} (hcs : cs ∉ firstFds) (v : Socket) :
    v ∈ firstFds ↔ v ≠ cs ∧ v ∈ insert cs firstFds := by
  rcases eq_or_ne v cs with rfl | hne
  · simp [hcs]
  · simp [hne]

/-- A call that leaves every descriptor table alone changes no owner and opens nothing. -/
theorem owner_of_keeps (h : ∀ fds, fdsAfter fds e = fds) :
    (∀ owner : Socket → Option Owner, ownerAfter owner k e = owner) ∧ ∀ s, NotHandedOut s e := by
  obtain ⟨o, r⟩ := e
  cases o with
  | socket ai =>
    cases r with
    | none => exact ⟨fun owner => rfl, fun s ai' heq => by cases heq⟩
    | some u => exact absurd (h ∅) (Finset.insert_ne_empty u ∅)
  | closeSocket u =>
    have hself := h {u}
    simp [fdsAfter] at hself
  | _ => exact ⟨fun owner => rfl, fun s ai' heq => by cases heq⟩

theorem holdings_set (main : MainPc) {q : Socket × Holding} (hq : held[k]? = some q) :
    (∀ v, v ∈ holdings main (held.set k (q.1, share')) (.handler k) ↔ v ∈ share'.fds) ∧
      ∀ o ≠ .handler k, holdings main (held.set k (q.1, share')) o = holdings main held o := by
  obtain ⟨hlt, -⟩ := List.getElem?_eq_some_iff.mp hq
  constructor
  · intro v
    rw [holdings, List.getElem?_set_self hlt]
    rfl
  · intro o ho
    cases o with
    | main => rfl
    | handler j =>
      have hj : k ≠ j := fun heq => ho (heq ▸ rfl)
      rw [holdings, holdings, List.getElem?_set_ne hj]

theorem mem_holdings {main : MainPc} {q : Socket × Holding} (hq : held[k]? = some q) (v : Socket) :
    v ∈ holdings main held (.handler k) ↔ v ∈ q.2.fds := by
  rw [holdings, hq]
  rfl

/-- One call of a handler moves its own descriptors and nobody else's. -/
theorem titled_call {main : MainPc} {fds : Finset Socket} {owner : Socket → Option Owner}
    (htitled : Titled owner (holdings main held)) (hopened : ∀ v, v ∈ fds ↔ owner v ≠ none)
    (hk : held[k]? = some (s, share)) (hof : share.Of s) (h : HoldingMove share e share')
    (lowest : HandsOut fds e) :
    Titled (ownerAfter owner k e) (holdings main (held.set k (s, share'))) ∧
      (∀ v, v ∈ fdsAfter fds e ↔ ownerAfter owner k e v ≠ none) ∧ share'.Of s ∧
      NotHandedOut s e := by
  obtain ⟨hself, hothers⟩ := @holdings_set share' k held main _ hk
  have hmine := @mem_holdings k held main _ hk
  cases h with
  | keeps hkept =>
    obtain ⟨howner, hnone⟩ := @owner_of_keeps e k hkept
    rw [howner, hkept, set_of_getElem? hk]
    exact ⟨htitled, hopened, hof, hnone s⟩
  | opens t ai u =>
    obtain rfl : t = s := hof
    have hfree : owner u = none := by
      by_contra hne
      exact lowest.1 ((hopened u).mpr hne)
    have howned : owner t = some (.handler k) := by
      rw [htitled, hmine]
      exact Finset.mem_singleton_self t
    have hne : u ≠ t := by
      rintro rfl
      rw [hfree] at howned
      cases howned
    refine ⟨htitled.take hfree ?_ hothers, opened_insert hopened u, ⟨rfl, hne⟩, ?_⟩
    · intro v
      rw [hself, hmine]
      simp [Holding.fds, or_comm]
    · rintro ai' heq
      cases heq
      exact hne rfl
  | closes t u =>
    obtain ⟨rfl, hne⟩ := hof
    refine ⟨htitled.drop (r := u) ?_ ?_ hothers, opened_erase hopened u, rfl, ?_⟩
    · rw [hmine]
      simp [Holding.fds]
    · intro v
      rw [hself, hmine]
      simp only [Holding.fds, Finset.mem_insert, Finset.mem_singleton]
      constructor
      · rintro rfl
        exact ⟨hne.symm, .inl rfl⟩
      · rintro ⟨hv, rfl | rfl⟩
        · rfl
        · exact (hv rfl).elim
    · intro ai heq
      cases heq
  | ends t =>
    obtain rfl : t = s := hof
    refine ⟨htitled.drop (r := t) ?_ ?_ hothers, opened_erase hopened t, trivial, ?_⟩
    · rw [hmine]
      exact Finset.mem_singleton_self t
    · intro v
      rw [hself, hmine]
      simp [Holding.fds]
    · intro ai heq
      cases heq

theorem sharedOut_call {o : Op} {next : Res o → Io Unit} {r : Res o} {now : Int}
    (h : SharedOut cfg σ held)
    (pc : σ.proc.sys.handlers[k]? = some (.running (.call o next)))
    (lowest : HandsOut σ.proc.fds ⟨o, r⟩) : ∃ held', SharedOut cfg
      { σ with
        proc := { sys := σ.proc.sys.answered k o r next, fds := fdsAfter σ.proc.fds ⟨o, r⟩ }
        limiter := limiterAfter σ.limiter now ⟨o, r⟩
        owner := ownerAfter σ.owner k ⟨o, r⟩
        log := σ.log ++ [⟨k, ⟨o, r⟩, now⟩] } held' := by
  obtain ⟨⟨s, share⟩, hk, hwp⟩ := exists_getElem? h.observes pc
  obtain ⟨share', hstep, hrest⟩ := hwp r trivial
  have hheld : share.step ⟨o, r⟩ = some share' := by
    simp only [ownMonitor] at hstep
    split at hstep
    · exact hstep
    · cases hstep
  obtain ⟨htitled, hopened, hof, hnew⟩ := titled_call h.titled h.opened hk
    (h.clients _ (List.mem_of_getElem? hk)) (holdingMove_of_step hheld) lowest
  refine ⟨held.set k (s, share'), forall₂_set h.observes hrest, ?_, ?_, htitled, hopened, h.apart,
    ?_⟩
  · have hfst : (held.map Prod.fst)[k]? = some s := by
      rw [List.getElem?_map, hk]
      rfl
    rw [List.map_set, set_of_getElem? hfst]
    exact h.serves
  · intro q hq
    rcases List.mem_or_eq_of_mem_set hq with hq | rfl
    · exact h.clients q hq
    · exact hof
  · intro j q e hj he
    rw [List.map_append] at he
    by_cases hjk : k = j
    · subst hjk
      rw [List.getElem?_set_self (List.getElem?_eq_some_iff.mp hk).1] at hj
      obtain rfl := Option.some.inj hj
      rcases List.mem_append.mp he with he | he
      · exact h.fresh k (s, share) e hk he
      · obtain rfl := (Prod.mk.inj (List.mem_singleton.mp he)).2
        exact hnew
    · rw [List.getElem?_set_ne hjk] at hj
      rcases List.mem_append.mp he with he | he
      · exact h.fresh j q e hj he
      · exact (hjk (Prod.mk.inj (List.mem_singleton.mp he)).1.symm).elim

theorem sharedOut_spawn {cs : Socket} (h : SharedOut cfg σ held)
    (hrec : Recorded σ.starts (σ.proc.sys.handlers.map Handler.rest) (σ.log.map Entry.call))
    (pc : σ.proc.sys.main = .starting cs ip) (serves : ServesConnection cs ip cfg p) :
    SharedOut cfg
      { σ with
        proc :=
          { sys := { σ.proc.sys with
              main := .accepting
              handlers := σ.proc.sys.handlers ++ [.running p] }
            fds := σ.proc.fds }
        starts := σ.starts ++ [p]
        owner := Function.update σ.owner cs (some (.handler σ.starts.length)) }
      (held ++ [(cs, .client cs)]) := by
  have hlen : σ.starts.length = held.length := by simpa using h.serves.length_eq
  have hcs : cs ∉ firstFds := h.apart cs (by rw [pc]; rfl)
  have hmine : cs ∈ holdings σ.proc.sys.main held .main := by
    rw [pc]
    exact Finset.mem_insert_self _ _
  refine ⟨List.rel_append h.observes (.cons (serves_own serves) .nil), ?_, ?_, ?_, ?_, ?_, ?_⟩
  · rw [List.map_append]
    exact List.rel_append h.serves (.cons ⟨ip, serves⟩ .nil)
  · intro q hq
    rcases List.mem_append.mp hq with hq | hq
    · exact h.clients q hq
    · obtain rfl := List.mem_singleton.mp hq
      exact rfl
  · rw [hlen]
    apply h.titled.give hmine (by simp)
    · intro v
      rw [pc]
      exact mem_firstFds_iff hcs v
    · intro v
      simp [holdings, Holding.fds]
    · intro o hmain ho
      cases o with
      | main => exact (hmain rfl).elim
      | handler j =>
        have hj : held.length ≠ j := fun heq => ho (heq ▸ rfl)
        have hget : (held ++ [(cs, Holding.client cs)])[j]? = held[j]? := by
          rcases Nat.lt_or_ge j held.length with hlt | hge
          · exact List.getElem?_append_left hlt
          · rw [List.getElem?_eq_none hge, List.getElem?_eq_none]
            simp only [List.length_append, List.length_singleton]
            omega
        rw [holdings, holdings, hget]
  · intro v
    rcases eq_or_ne v cs with rfl | hne
    · have howned := (h.titled v .main).mpr hmine
      simp [h.opened v, howned]
    · simp [hne, h.opened v]
  · intro c hc
    cases hc
  · intro j q e hj he
    have hlt := hrec.bounded _ he
    simp only at hlt
    rw [List.getElem?_append_left (by omega)] at hj
    exact h.fresh j q e hj he

/-- Main closes one of its own descriptors. -/
theorem sharedOut_close {sys : Sys} (h : SharedOut cfg σ held)
    (hhandlers : sys.handlers = σ.proc.sys.handlers) (hu : u ∈ σ.proc.sys.main.ownFds)
    (hown : ∀ v, v ∈ sys.main.ownFds ↔ v ≠ u ∧ v ∈ σ.proc.sys.main.ownFds)
    (hclient : sys.main.client = none) :
    SharedOut cfg
      { σ with
        proc := { sys, fds := σ.proc.fds.erase u }
        owner := Function.update σ.owner u none } held := by
  refine ⟨hhandlers ▸ h.observes, h.serves, h.clients, h.titled.drop (o := .main) hu hown ?_,
    opened_erase h.opened u, ?_, h.fresh⟩
  · intro o ho
    cases o with
    | main => exact (ho rfl).elim
    | handler j => rfl
  · intro cs hcs
    rw [hclient] at hcs
    cases hcs

/-- Main lets a client go that it has not counted. -/
theorem sharedOut_letGo {sys : Sys} {cs : Socket} (h : SharedOut cfg σ held)
    (hhandlers : sys.handlers = σ.proc.sys.handlers) (hmain : sys.main = .accepting)
    (hcs : σ.proc.sys.main.client = some cs)
    (hown : σ.proc.sys.main.ownFds = insert cs firstFds) :
    SharedOut cfg
      { σ with
        proc := { sys, fds := σ.proc.fds.erase cs }
        owner := Function.update σ.owner cs none } held := by
  apply sharedOut_close h hhandlers
  · rw [hown]
    exact Finset.mem_insert_self _ _
  · intro v
    rw [hmain, hown]
    exact mem_firstFds_iff (h.apart cs hcs) v
  · rw [hmain]
    rfl

/-- Every step leaves the descriptors shared out. -/
theorem sharedOut_step (hchron : Chronicled cfg σ) (h : SharedOut cfg σ held)
    (hmove : DeployedMove D cfg σ l τ) : ∃ held', SharedOut cfg τ held' := by
  cases hmove with
  | keeps hproc kept =>
    cases hproc with
    | keeps hsys _ =>
      obtain ⟨hown, hclient⟩ := ownFds_of_keeps hsys kept
      have htitled : ∀ main : MainPc, main.ownFds = σ.proc.sys.main.ownFds →
          Titled σ.owner (holdings main held) := by
        intro main hmain
        have hsame : holdings main held = holdings σ.proc.sys.main held := by
          funext o
          cases o with
          | main => exact hmain
          | handler j => rfl
        rw [hsame]
        exact h.titled
      refine ⟨held, ?_, h.serves, h.clients, htitled _ hown, h.opened, ?_, h.fresh⟩
      · rcases handlers_of_keeps hsys kept with hsame | ⟨k, hk, hset⟩
        · exact hsame ▸ h.observes
        · -- a handler that returns has given everything back
          obtain ⟨⟨s, share⟩, hshare, rfl⟩ := exists_getElem? h.observes hk
          have hdone : Observes .finished (s, Holding.nothing).2 := rfl
          have hfinished := forall₂_set (k := k) h.observes hdone
          rw [set_of_getElem? hshare] at hfinished
          exact hset ▸ hfinished
      · intro cs hcs
        rw [hclient] at hcs
        exact h.apart cs hcs
    | _ => cases kept
  | @accept cs τ hproc =>
    cases hproc with
    | keeps hsys kept => cases kept
    | accept hsys lowest =>
      cases hsys with
      | accept cs pc =>
        have hfree : σ.owner cs = none := by
          by_contra hne
          exact lowest.1 ((h.opened cs).mpr hne)
        have hhold : ∀ v, v ∈ holdings σ.proc.sys.main held .main ↔ v ∈ firstFds := by
          intro v
          rw [pc]
          rfl
        refine ⟨held, h.observes, h.serves, h.clients, h.titled.take hfree ?_ ?_,
          opened_insert h.opened cs, ?_, h.fresh⟩
        · intro v
          rw [hhold]
          exact Finset.mem_insert
        · intro o ho
          cases o with
          | main => exact (ho rfl).elim
          | handler j => rfl
        · intro c hc hfirst
          obtain rfl := Option.some.inj hc
          have howned := (h.titled _ .main).mpr ((hhold _).mpr hfirst)
          rw [hfree] at howned
          cases howned
  | @reject cs τ pc hproc =>
    cases hproc with
    | keeps hsys kept => cases kept
    | @reject cs' τ pc' hsys =>
      obtain rfl := MainPc.accepted.inj (pc'.symm.trans pc)
      cases hsys with
      | reject pc'' full =>
        refine ⟨held, sharedOut_letGo h rfl rfl ?_ ?_⟩
        · rw [pc]
          rfl
        · rw [pc]
          rfl
  | @timeoutFailed cs τ pc hproc =>
    cases hproc with
    | keeps hsys kept => cases kept
    | @timeoutFailed cs' τ pc' hsys =>
      obtain rfl := MainPc.checked.inj (pc'.symm.trans pc)
      cases hsys with
      | timeoutFailed pc'' =>
        refine ⟨held, sharedOut_letGo h rfl rfl ?_ ?_⟩
        · rw [pc]
          rfl
        · rw [pc]
          rfl
  | spawn pc serves => exact ⟨_, sharedOut_spawn h hchron.recorded pc serves⟩
  | shutdown hproc =>
    cases hproc with
    | keeps hsys kept => cases kept
    | shutdown hsys =>
      cases hsys with
      | shutdown pc stop =>
        refine ⟨held, sharedOut_close h rfl ?_ ?_ rfl⟩
        · rw [pc]
          decide
        · intro v
          rw [pc]
          exact Finset.mem_erase
  | call r now pc safe answer lowest clock answered => exact sharedOut_call h pc lowest
  | sigpipe pc raised =>
    exact ⟨held, h.observes, h.serves, h.clients, h.titled, h.opened, h.apart, h.fresh⟩

theorem sharedOut_deploy (cfg : Config) : SharedOut cfg (deploy cfg) [] := by
  refine ⟨.nil, .nil, by simp, ?_, ?_, ?_, by simp⟩
  · intro v o
    cases o with
    | main =>
      change (if v ∈ firstFds then some Owner.main else none) = some .main ↔ v ∈ firstFds
      simp
    | handler k =>
      change (if v ∈ firstFds then some Owner.main else none) = some (.handler k) ↔ v ∈ ∅
      simp
  · intro v
    change v ∈ firstFds ↔ (if v ∈ firstFds then some Owner.main else none) ≠ none
    simp
  · intro cs hcs
    cases hcs

theorem sharedOut_run (h : DeployedRun D cfg tr τ) :
    Chronicled cfg τ ∧ ∃ held, SharedOut cfg τ held := by
  refine Run.preserves (I := fun σ => Chronicled cfg σ ∧ ∃ held, SharedOut cfg σ held) ?_ h
    ⟨⟨.nil, by simp [deploy]⟩, [], sharedOut_deploy cfg⟩
  rintro σ l τ ⟨hchron, held, hshared⟩ ⟨-, hmove⟩
  exact ⟨chronicled_step hchron hmove, sharedOut_step hchron hshared hmove⟩

/-- The socket that a handler is about to use is its own. -/
theorem SharedOut.target_owned {o : Op} {next : Res o → Io Unit} (h : SharedOut cfg σ held)
    (pc : σ.proc.sys.handlers[k]? = some (.running (.call o next))) (htarget : o.target = some v) :
    σ.owner v = some (.handler k) := by
  obtain ⟨⟨s, share⟩, hk, hwp⟩ := exists_getElem? h.observes pc
  obtain ⟨r⟩ : Nonempty (Res o) := inferInstance
  obtain ⟨share', hstep, -⟩ := hwp r trivial
  rw [h.titled, mem_holdings hk]
  simp only [ownMonitor, htarget] at hstep
  split at hstep
  · rename_i hcurrent
    rcases hcurrent with hnone | hcurrent
    · cases hnone
    · cases share with
      | client t =>
        obtain rfl := Option.some.inj hcurrent
        simp [Holding.fds]
      | both t u =>
        obtain rfl := Option.some.inj hcurrent
        simp [Holding.fds]
      | nothing => cases hcurrent
  · cases hstep

/-- The sample client is served over an upstream socket, and its handler finishes. -/
theorem bearerRequest_finishes : ∃ tr τ, DeployedRun sampleDeployment bearerConfig tr τ ∧
    τ.proc.sys.handlers[0]? = some .finished ∧ τ.callsOf 0 = bearerTrace := by
  obtain ⟨tr, σ, h⟩ := bearerRequest_alone
  obtain ⟨τ, hrun, hhandlers, hlog⟩ := h.finishes
  refine ⟨_, τ, hrun, by rw [hhandlers]; rfl, ?_⟩
  rw [Deployed.callsOf, hlog]
  exact h.callsOf

/-- In any interleaving the open descriptors are those that have an owner, a handler acts only on
descriptors that it owns at that moment, and one that has finished owns none. -/
theorem descriptors_owned (hrun : DeployedRun D cfg tr τ) :
    (∀ v, v ∈ τ.proc.fds ↔ τ.owner v ≠ none) ∧
    (∀ σ k o, (σ, Label.call k o) ∈ tr → ∀ v, o.target = some v →
      σ.owner v = some (.handler k)) ∧
    ∀ k v, τ.proc.sys.handlers[k]? = some .finished → τ.owner v ≠ some (.handler k) := by
  obtain ⟨-, held, hshared⟩ := sharedOut_run hrun
  refine ⟨hshared.opened, ?_, ?_⟩
  · intro σ k o hmem v hv
    obtain ⟨pre, υ, hpre, ⟨-, hmove⟩, -⟩ := hrun.step_of_mem hmem
    obtain ⟨-, held', hshared'⟩ := sharedOut_run hpre
    cases hmove with
    | keeps hproc kept => cases kept
    | call r now pc safe answer lowest clock answered => exact hshared'.target_owned pc hv
    | sigpipe pc raised => exact hshared'.target_owned pc hv
  · intro k v hk howned
    obtain ⟨⟨s, share⟩, hq, rfl⟩ := exists_getElem? hshared.observes hk
    rw [hshared.titled, mem_holdings hq] at howned
    simp [Holding.fds] at howned

/-- The upstream socket of the sample client was opened and used, and nobody owns it any more. -/
theorem bearerRequest_owns_nothing : ∃ tr τ, DeployedRun sampleDeployment bearerConfig tr τ ∧
    τ.callsOf 0 = bearerTrace ∧ ∀ v, τ.owner v ≠ some (.handler 0) := by
  obtain ⟨tr, τ, hrun, hk, hcalls⟩ := bearerRequest_finishes
  exact ⟨tr, τ, hrun, hcalls, fun v => (descriptors_owned hrun).2.2 0 v hk⟩

theorem serves_disciplined {evs : Trace} (h : ServesConnection s ip cfg p) (hrun : p.Runs evs ())
    (hkept : ∀ e ∈ evs, NotHandedOut s e) : Disciplined s evs := by
  cases h with
  | whole => exact disciplined_of_settles hrun (handleClient_wp (connection_rules s cfg) ip) hkept
  | accepted req leftover =>
    exact disciplined_of_settles hrun (handleAccepted_wp (connection_rules s cfg) ip leftover) hkept

/-- Each connection that is over kept the discipline of its descriptors, address lists and replies,
whatever the others did: the operating system never hands out its socket while it is open. -/
theorem finished_disciplined (hrun : DeployedRun D cfg tr τ)
    (hk : τ.proc.sys.handlers[k]? = some .finished) : ∃ s ip p, τ.starts[k]? = some p ∧
      ServesConnection s ip cfg p ∧ Disciplined s (τ.callsOf k) := by
  obtain ⟨⟨hrec, -⟩, held, hshared⟩ := sharedOut_run hrun
  obtain ⟨⟨s, share⟩, hheld, -⟩ := exists_getElem? hshared.observes hk
  have hs : (held.map Prod.fst)[k]? = some s := by
    rw [List.getElem?_map, hheld]
    rfl
  have hrest : (τ.proc.sys.handlers.map Handler.rest)[k]? = some (.ret ()) := by
    rw [List.getElem?_map, hk]
    rfl
  have hlt : k < τ.starts.length := by
    rw [hrec.length_eq]
    exact (List.getElem?_eq_some_iff.mp hrest).1
  have hp := List.getElem?_eq_getElem hlt
  obtain ⟨s', hs', ip, hserves⟩ := exists_getElem? hshared.serves hp
  obtain rfl : s' = s := by
    rw [hs] at hs'
    exact (Option.some.inj hs').symm
  refine ⟨s', ip, _, hp, hserves, ?_⟩
  have hends : Prog.Runs τ.starts[k] (τ.callsOf k) () :=
    Prog.runs_iff_leads.mpr (hrec.leads hp hrest)
  exact serves_disciplined hserves hends fun e he =>
    hshared.fresh k _ e hheld (mem_traceOf.mp he)

/-- The sample client's connection was disciplined, its upstream and its reply included. -/
theorem bearerRequest_disciplined : ∃ tr τ s, DeployedRun sampleDeployment bearerConfig tr τ ∧
    τ.callsOf 0 = bearerTrace ∧ Disciplined s (τ.callsOf 0) := by
  obtain ⟨tr, τ, hrun, hk, hcalls⟩ := bearerRequest_finishes
  obtain ⟨s, ip, p, -, -, hdisciplined⟩ := finished_disciplined hrun hk
  exact ⟨tr, τ, s, hrun, hcalls, hdisciplined⟩

end Gateway

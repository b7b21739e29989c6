import Mathlib
import Gateway.DescriptorLimit
import Gateway.Authentication
import Gateway.Library.Costs

/-! How many bytes the handlers can have received, over every interleaving. -/
namespace Gateway

open Program Transition Prog

variable {D : Deployment} {env : Environment} {cfg : Config} {σ τ : Deployed} {s : Socket}
  {ip : Bytes} {req : HttpRequest} {tr : List (Deployed × Label)} {k n : Nat} {p : Io Unit}

/-- The bytes that a call has received. -/
def received : Event Op Res → Nat
  | ⟨.recv _ _, .data bytes _ _⟩ => bytes.length
  | _ => 0

/-- What can be received of a head: one piece goes past the limit. -/
def headLimit : Nat := kMaxHeaderBytes + 4095

/-- What can be received of a body, beyond what came with the head. -/
def bodyLimit (cfg : Config) : Nat := cfg.maxBodyBytes.toNat + 4095

/-- What can be received of the response of an upstream. -/
def upstreamLimit : Nat := kMaxUpstreamBytes + 8191

/-- What one handler can receive at most. -/
def receiveLimit (cfg : Config) : Nat := headLimit + (bodyLimit cfg + upstreamLimit)

theorem costs_recv {α : Type} {len : Nat} {k : RecvResult len → Io α} (hlen : len ≤ n)
    (hclosed : (k .closed).Costs received n) (herror : ∀ e, (k (.error e)).Costs received n)
    (hdata : ∀ bytes pos le, (k (.data bytes pos le)).Costs received (n - bytes.length)) :
    (Prog.call (.recv s len) k).Costs received n := by
  intro r
  cases r with
  | closed => exact ⟨Nat.zero_le n, hclosed⟩
  | error e => exact ⟨Nat.zero_le n, herror e⟩
  | data bytes pos le => exact ⟨le.trans hlen, hdata bytes pos le⟩

theorem readHead_costs (head : Bytes) (hn : headLimit ≤ n + head.length) :
    (readHead s head).Costs received n := by
  have hlimit : headLimit = kMaxHeaderBytes + 4095 := rfl
  induction hk : kMaxHeaderBytes - head.length using Nat.strong_induction_on
    generalizing head n with
  | _ k ih =>
    rw [readHead]
    by_cases hlt : head.length < kMaxHeaderBytes
    · rw [if_pos hlt]
      refine costs_recv (by omega) trivial (fun _ => trivial) fun bytes pos le => ?_
      dsimp only
      split
      · trivial
      · exact ih _ (by rw [List.length_append]; omega) _ (by rw [List.length_append]; omega) rfl
    · rw [if_neg hlt]
      trivial

theorem readBody_costs (maxBodyBytes : Int) (cl : Nat) (body : Bytes)
    (hn : cl + 4095 ≤ n + body.length) : (readBody s maxBodyBytes cl body).Costs received n := by
  induction hk : cl - body.length using Nat.strong_induction_on generalizing body n with
  | _ k ih =>
    rw [readBody]
    by_cases hlt : body.length < cl
    · rw [if_pos hlt]
      refine costs_recv (by omega) trivial (fun _ => trivial) fun bytes pos le => ?_
      dsimp only
      split
      · trivial
      · exact ih _ (by rw [List.length_append]; omega) _ (by rw [List.length_append]; omega) rfl
    · rw [if_neg hlt]
      trivial

theorem recvUpstream_costs (raw : Bytes) (hn : upstreamLimit ≤ n + raw.length) :
    (recvUpstream s raw).Costs received n := by
  have hlimit : upstreamLimit = kMaxUpstreamBytes + 8191 := rfl
  induction hk : kMaxUpstreamBytes - raw.length using Nat.strong_induction_on
    generalizing raw n with
  | _ k ih =>
    rw [recvUpstream]
    by_cases hlt : raw.length < kMaxUpstreamBytes
    · rw [if_pos hlt]
      refine costs_recv (by omega) trivial (fun _ => trivial) fun bytes pos le => ?_
      exact ih _ (by rw [List.length_append]; omega) _ (by rw [List.length_append]; omega) rfl
    · rw [if_neg hlt]
      trivial

theorem replyAndClose_costs (r : HttpResponse) : (replyAndClose s r).Costs received 0 := by
  have hsend : (HandleClient.sendAll s (buildResponse r) 0).Costs received 0 := by
    refine costs_of_calls (HandleClient.sendAll_calls s (buildResponse r) 0) ?_
    rintro _ ⟨chunk, rfl⟩ n
    rfl
  rw [replyAndClose, reply, invoke]
  refine costs_bind_free ?_ fun _ => costs_call_free (fun _ => rfl) fun _ => trivial
  refine costs_call_free (fun _ => rfl) fun _ => ?_
  exact costs_bind_free (p := HandleClient.sendAll s _ 0) hsend fun _ => trivial

theorem connectWithTimeout_costs (ai : AddrInfo) (timeoutMs : Int) :
    (connectWithTimeout s ai timeoutMs).Costs received 0 := by
  refine costs_call_free (fun _ => rfl) fun flags => ?_
  cases flags with
  | none => trivial
  | some flags =>
    refine costs_call_free (fun _ => rfl) fun set => ?_
    cases set with
    | false => trivial
    | true =>
      refine costs_call_free (fun _ => rfl) fun c => ?_
      cases c with
      | done => exact costs_call_free (fun _ => rfl) fun _ => trivial
      | error e =>
        dsimp only [Prog.bind]
        split
        · trivial
        · refine costs_call_free (fun _ => rfl) fun sel => ?_
          cases sel with
          | timeout => trivial
          | error => trivial
          | ready =>
            refine costs_call_free (fun _ => rfl) fun so => ?_
            dsimp only [Prog.bind]
            split
            · trivial
            · exact costs_call_free (fun _ => rfl) fun _ => trivial

theorem connectAny_costs (timeoutMs : Int) (list : List AddrInfo) (timedOut : Bool) :
    (connectAny timeoutMs list timedOut).Costs received 0 := by
  induction list generalizing timedOut with
  | nil => trivial
  | cons ai rest ih =>
    refine costs_call_free (fun _ => rfl) fun so => ?_
    cases so with
    | none => exact ih timedOut
    | some s =>
      refine costs_bind_free (p := connectWithTimeout s ai timeoutMs)
        (connectWithTimeout_costs ai timeoutMs) ?_
      rintro ⟨connected, t⟩
      cases connected with
      | true => trivial
      | false =>
        refine costs_call_free (fun _ => rfl) fun _ => ?_
        cases t with
        | true => trivial
        | false => exact ih false

theorem exchange_costs (wire : Bytes) (timeoutMs : Int) :
    (exchange s wire timeoutMs).Costs received upstreamLimit := by
  have hsend : (Proxy.sendAll s wire 0).Costs received 0 := by
    refine costs_of_calls (Proxy.sendAll_sends s wire 0) ?_
    rintro _ ⟨chunk, rfl⟩ n
    rfl
  have hlast : ∀ (sentOk : Bool) (p : Bytes × Bool), Costs received (do
      closeSocket s
      if kMaxUpstreamBytes ≤ p.1.length then
        return { error := ascii "upstream response too large" }
      if !sentOk || p.2 || p.1.isEmpty then return { error := ascii "upstream io failed" }
      return parseUpstreamResponse p.1 : Io ProxyResult) 0 := by
    intro sentOk p
    refine costs_call_free (fun _ => rfl) fun _ => ?_
    dsimp only [Prog.bind]
    split
    · trivial
    · split <;> trivial
  refine costs_call_free (fun _ => rfl) fun _ => costs_call_free (fun _ => rfl) fun _ => ?_
  refine costs_bind_free (p := Proxy.sendAll s wire 0) hsend fun sentOk => ?_
  cases sentOk with
  | true =>
    exact costs_bind_last (p := recvUpstream s []) (recvUpstream_costs [] (by simp)) (hlast true)
  | false => exact costs_mono (hlast false ([], false)) (Nat.zero_le _)

theorem forwardRequest_costs (base : Bytes) (path : Bytes) (auth : AuthInfo) (timeoutMs : Int) :
    (forwardRequest base req path auth timeoutMs).Costs received upstreamLimit := by
  refine costs_call_free (fun _ => rfl) fun _ => ?_
  dsimp only [Prog.bind]
  split
  · trivial
  · refine costs_call_free (fun _ => rfl) fun resolved => ?_
    dsimp only [Prog.bind]
    split
    · split
      · exact costs_call_free (fun _ => rfl) fun _ => trivial
      · trivial
    · refine costs_bind_free (connectAny_costs timeoutMs resolved.list false) ?_
      rintro ⟨connected, t⟩
      refine costs_call_free (fun _ => rfl) fun _ => ?_
      cases connected with
      | none => trivial
      | some s => exact exchange_costs _ timeoutMs

theorem serve_costs : (serve s ip cfg req).Costs received upstreamLimit := by
  have hreply : ∀ r, (replyAndClose s r).Costs received upstreamLimit := fun r =>
    costs_mono (replyAndClose_costs r) (Nat.zero_le _)
  rw [serve]
  refine costs_call_free (fun _ => rfl) fun allowed => ?_
  dsimp only [Prog.bind]
  split
  · exact hreply _
  · cases (matchRoute req.method req.target cfg).kind with
    | kApi =>
      dsimp only
      rw [authorize]
      split
      · exact hreply _
      · refine costs_call_free (fun _ => rfl) fun auth => ?_
        dsimp only [Prog.bind]
        split
        · exact hreply _
        · split
          · exact hreply _
          · split
            · exact hreply _
            · exact costs_bind_last (forwardRequest_costs _ _ auth _) fun pr =>
                replyAndClose_costs _
    | _ => exact hreply _

theorem bodyPhase_costs (leftover : Bytes) : (bodyPhase s cfg req leftover).Costs received
    (bodyLimit cfg) := by
  rw [bodyPhase, bodyLimit]
  split
  · trivial
  · dsimp only
    split
    · trivial
    · split
      · trivial
      · rename_i hcl
        refine costs_bind_last (readBody_costs _ _ leftover (by omega)) fun read => ?_
        cases read <;> trivial

theorem handleAccepted_costs (leftover : Bytes) : (handleAccepted s ip cfg req leftover).Costs
    received (bodyLimit cfg + upstreamLimit) := by
  have hreply : ∀ r, (replyAndClose s r).Costs received upstreamLimit := fun r =>
    costs_mono (replyAndClose_costs r) (Nat.zero_le _)
  refine costs_bind (bodyPhase_costs leftover) fun out => ?_
  cases out with
  | disconnected => exact costs_call_free (fun _ => rfl) fun _ => trivial
  | done req => exact serve_costs
  | _ => exact hreply _

theorem handleClient_costs : (handleClient s ip cfg).Costs received (receiveLimit cfg) := by
  have hintake : (intake s).Costs received headLimit := by
    refine costs_bind_last (readHead_costs [] (by simp)) fun read => ?_
    cases read <;> trivial
  rw [handleClient_eq, receiveLimit]
  refine costs_bind hintake fun out => ?_
  cases out with
  | disconnected => exact costs_call_free (fun _ => rfl) fun _ => trivial
  | accepted req leftover => exact handleAccepted_costs leftover
  | _ => exact costs_mono (replyAndClose_costs _) (Nat.zero_le _)

theorem serves_costs (h : ServesConnection s ip cfg p) : p.Costs received (receiveLimit cfg) := by
  cases h with
  | whole => exact handleClient_costs
  | accepted req leftover =>
    exact costs_mono (handleAccepted_costs leftover) (Nat.le_add_left _ headLimit)

/-- The bytes that a handler has received so far. -/
def Deployed.receivedBy (σ : Deployed) (k : Nat) : Nat := ((σ.callsOf k).map received).sum

/-- The bytes that were received by handlers that have not ended. -/
def Deployed.buffered (σ : Deployed) : Nat :=
  ((σ.proc.sys.handlers.zipIdx.filter fun h => h.1.active).map fun h => σ.receivedBy h.2).sum

theorem receivedBy_le (hrun : DeployedRun D cfg tr σ) (k : Nat) :
    σ.receivedBy k ≤ receiveLimit cfg := by
  obtain ⟨hrec, hserves⟩ := chronicled_run hrun
  cases hp : σ.starts[k]? with
  | none =>
    have hnone : σ.callsOf k = [] := by
      rw [List.eq_nil_iff_forall_not_mem]
      intro e he
      obtain ⟨p, hstart⟩ := hrec.exists_start (mem_traceOf.mp he)
      rw [hp] at hstart
      cases hstart
    rw [Deployed.receivedBy, hnone]
    exact Nat.zero_le _
  | some p =>
    obtain ⟨cs, ip, hserve⟩ := hserves p (List.mem_of_getElem? hp)
    obtain ⟨q, -, hleads⟩ := hrec.exists_rest hp
    exact cost_of_leads (serves_costs hserve) hleads

theorem receiveLimit_lt (hload : loadConfig env = .ok cfg) : receiveLimit cfg < 21 * 2 ^ 20 := by
  have hbody : cfg.maxBodyBytes ≤ 16 * 1024 * 1024 := by
    rw [(loadConfig_ok hload).1]
    exact (envInt_mem_range (by decide) (by decide)).2
  have hhead : headLimit = 20479 := rfl
  have hupstream : upstreamLimit = 4202495 := rfl
  rw [receiveLimit, bodyLimit, hhead, hupstream]
  omega

/-- The handlers at work are as many as main has counted, and no more than the limit. -/
theorem active_le (hload : loadConfig env = .ok cfg) (hrun : DeployedRun D cfg tr σ) :
    σ.proc.sys.handlers.countP Handler.active ≤ cfg.maxClients.toNat := by
  have hmax := (maxClients_range hload).1
  obtain ⟨hcount, hlimit, -⟩ := accountable_run (by omega) (deployed_tableRun hrun)
  have hbounded := hlimit.bounded
  rw [Counted] at hcount
  omega

/-- Whatever the clients and the upstreams send, and however the handlers are interleaved, no
handler receives more than its limit, which is below 21 MiB, and those that are at work have
received together no more than the client limit allows for. -/
theorem buffers_bounded (hload : loadConfig env = .ok cfg) (hrun : DeployedRun D cfg tr σ) :
    (∀ k, σ.receivedBy k ≤ receiveLimit cfg) ∧ receiveLimit cfg < 21 * 2 ^ 20 ∧
      σ.buffered ≤ cfg.maxClients.toNat * receiveLimit cfg := by
  have hreceived := receivedBy_le hrun
  refine ⟨hreceived, receiveLimit_lt hload, ?_⟩
  have hactive : (σ.proc.sys.handlers.zipIdx.filter fun h => h.1.active).length =
      σ.proc.sys.handlers.countP Handler.active := by
    rw [← List.countP_eq_length_filter, ← List.zipIdx_map_fst 0 σ.proc.sys.handlers,
      List.countP_map, List.zipIdx_map_fst]
    rfl
  have hsum := List.sum_le_card_nsmul
    ((σ.proc.sys.handlers.zipIdx.filter fun h => h.1.active).map fun h => σ.receivedBy h.2)
    (receiveLimit cfg) (by
      intro n hn
      obtain ⟨h, -, rfl⟩ := List.mem_map.mp hn
      exact hreceived h.2)
  rw [List.length_map, hactive, smul_eq_mul] at hsum
  exact hsum.trans (Nat.mul_le_mul_right _ (active_le hload hrun))

/-- The handler of the sample client has received the answer of the upstream. -/
theorem bearerAnswer_buffered : ∃ tr σ, DeployedRun sampleDeployment bearerConfig tr σ ∧
    σ.receivedBy 0 = bearerAnswer.length ∧ σ.buffered = bearerAnswer.length ∧
    σ.buffered ≤ bearerConfig.maxClients.toNat * receiveLimit bearerConfig := by
  obtain ⟨tr, σ, h⟩ := bearerRequest_alone
  have hreceived : σ.receivedBy 0 = bearerAnswer.length := by
    rw [Deployed.receivedBy, h.callsOf]
    rfl
  have hbuffered : σ.buffered = σ.receivedBy 0 := by
    rw [Deployed.buffered, h.handlers]
    rfl
  exact ⟨tr, σ, h.run, hreceived, hbuffered.trans hreceived,
    (buffers_bounded loadConfig_bearer h.run).2.2⟩

end Gateway

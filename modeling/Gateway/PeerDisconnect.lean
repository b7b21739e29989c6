import Mathlib
import Gateway.Authentication

/-! What a peer that closes its connection does to the process. -/
namespace Gateway

open Program Search Transition

variable {cfg : Config} {σ τ ρ : Sys} {l : Label} {tr : List (Sys × Label)} {s : Socket}

def SendsUnflagged : Op → Prop
  | .send _ _ flags => flags = 0
  | _ => True

/-- No send of a handler asks for the signal to be suppressed. -/
theorem sendsUnflagged_of_handlerCall (o : Op) (h : HandlerCall o) : SendsUnflagged o := by
  cases o with
  | send s data flags => exact h
  | _ => trivial

/-- No handler suppresses the signal, and the process has not installed a disposition. -/
structure Unguarded (σ : Sys) : Prop where
  dispositions : σ.dispositions = installedDispositions
  sends : ∀ (k : Nat) (rest : Io Unit), σ.handlers[k]? = some (.running rest) →
    rest.Calls SendsUnflagged

theorem unguarded_step (h : Step cfg σ l τ) (hσ : Unguarded σ) : Unguarded τ := by
  obtain ⟨hdisp, hsends⟩ := hσ
  obtain ⟨-, hmove⟩ := h
  have hall : ∀ p, Handler.running p ∈ σ.handlers → p.Calls SendsUnflagged := by
    intro p hp
    obtain ⟨k, hk⟩ := List.mem_iff_getElem?.mp hp
    exact hsends k p hk
  have hstart : ∀ cs ip p, ServesConnection cs ip cfg p → p.Calls SendsUnflagged :=
    fun cs ip p hp => Prog.calls_mono sendsUnflagged_of_handlerCall (serves_calls hp)
  refine ⟨?_, ?_⟩
  · cases hmove <;> exact hdisp
  · intro k rest hk
    exact remaining_move hstart (fun o next r hcalls => hcalls.2 r) hall hmove rest
      (List.mem_of_getElem? hk)

theorem unguarded_run (h : ProcessRun cfg tr τ) : Unguarded τ := by
  have hstart : Unguarded {} := ⟨rfl, fun k rest hk => by simp at hk⟩
  exact Run.preserves (I := Unguarded) (fun hσ hstep => unguarded_step hstep hσ) h hstart

/-- The step is a send on a stream whose peer has closed. -/
def SendsToClosedPeer (σ : Sys) (l : Label) : Prop :=
  ∃ k s data flags, l = .call k (.send s data flags) ∧ σ.peerClosed s = true

/-- No peer ends the process: a send to a closed peer fails, and only its handler goes on. -/
structure SurvivesPeers (tr : List (Sys × Label)) (τ : Sys) : Prop where
  alive : ∀ ρ, Visited tr τ ρ → ρ.ended ≠ some .killed
  contained : ∀ (ρ : Sys) (k : Nat) (s : Socket) (data : Bytes) (flags : Nat),
    (ρ, .call k (.send s data flags)) ∈ tr → ρ.peerClosed s = true →
    ∃ (next : SendResult data.length → Io Unit) (r : SendResult data.length),
      ρ.handlers[k]? = some (.running (.call (.send s data flags) next)) ∧ r.value = -1 ∧
      Visited tr τ (ρ.answered k (.send s data flags) r next)

/-- A failed send ends `sendAll` of the upstream side with false. -/
theorem Proxy.sendAll_failed {data : Bytes} {sent : Nat} (hlt : sent < data.length) :
    ∃ (chunk : Bytes) (next : SendResult chunk.length → Io Bool),
      Proxy.sendAll s data sent = .call (.send s chunk 0) next ∧
      ∀ r, r.value = -1 → next r = .ret false := by
  rw [Proxy.sendAll_of_lt hlt]
  refine ⟨_, _, rfl, ?_⟩
  intro r hr
  have hle : r.value ≤ 0 := by omega
  simp only [hle, if_true]

/-- A failed send ends `sendAll` of the client side with false. -/
theorem HandleClient.sendAll_failed {data : Bytes} {sent : Nat} (hlt : sent < data.length) :
    ∃ (chunk : Bytes) (next : SendResult chunk.length → Io Bool),
      HandleClient.sendAll s data sent = .call (.send s chunk 0) next ∧
      ∀ r, r.value = -1 → next r = .ret false := by
  rw [HandleClient.sendAll_eq]
  exact Proxy.sendAll_failed hlt

/-- In the gateway as it is, a send to a closed peer kills the process. -/
theorem killed_of_sendsToClosedPeer (hσ : Unguarded σ) (h : Step cfg σ l τ)
    (hsend : SendsToClosedPeer σ l) : τ.ended = some .killed := by
  obtain ⟨k, s, data, flags, rfl, hclosed⟩ := hsend
  obtain ⟨-, hmove⟩ := h
  cases hmove with
  | call r pc safe answer =>
    have hflags : flags = 0 := (hσ.sends _ _ pc).1
    have hdisp : Signal.SIGPIPE ∉ σ.dispositions := by
      rw [hσ.dispositions]
      decide
    refine (safe ⟨hclosed, ?_, hdisp⟩).elim
    rw [hflags]
    rfl
  | sigpipe pc raised => rfl

theorem alive_step (hσ : σ.ended ≠ some .killed) (hsend : ¬ SendsToClosedPeer σ l)
    (h : Step cfg σ l τ) : τ.ended ≠ some .killed := by
  obtain ⟨-, hmove⟩ := h
  cases hmove with
  | exit pc => simp
  | @sigpipe k o next pc raised =>
    cases o with
    | send s data flags => exact (hsend ⟨k, s, data, flags, rfl, raised.1⟩).elim
    | _ => exact raised.elim
  | _ => exact hσ

/-- A run is survived exactly when none of its steps sends to a peer that has closed. -/
theorem survivesPeers_iff (hrun : ProcessRun cfg tr τ) :
    SurvivesPeers tr τ ↔ ∀ p ∈ tr, ¬ SendsToClosedPeer p.1 p.2 := by
  constructor
  · intro h p hp hsend
    obtain ⟨pre, υ, hpre, hstep, hvisited⟩ := hrun.step_of_mem hp
    have hkilled := killed_of_sendsToClosedPeer (unguarded_run hpre) hstep hsend
    exact h.alive υ hvisited hkilled
  · intro h
    constructor
    · intro ρ hρ
      exact Run.invariant_visited (I := fun σ => σ.ended ≠ some .killed)
        (C := fun σ l => ¬ SendsToClosedPeer σ l) alive_step hrun nofun h hρ
    · intro ρ k s data flags hmem hclosed
      exact (h _ hmem ⟨k, s, data, flags, rfl, hclosed⟩).elim

/-- The sample client closes after it was answered over the upstream. -/
theorem bearerRequest_survives : ∃ tr τ, ProcessRun bearerConfig tr τ ∧
    (∃ ρ, (ρ, .call 0 (.send 5 bearerWire 0)) ∈ tr) ∧
    (∃ ρ, (ρ, .call 0 (.send 4 (buildResponse bearerResponse) 0)) ∈ tr) ∧
    (∃ ρ, (ρ, .peerCloses 4) ∈ tr) ∧ SurvivesPeers tr τ := by
  obtain ⟨tr, σ, h⟩ := bearerRequest_alone
  have hrun := deployed_processRun h.run
  have hclosed : ProcessRun bearerConfig _ _ := hrun.snoc ⟨h.alive, .peerCloses 4⟩
  obtain ⟨ip, hlabels⟩ := h.labels
  have hsent : ∀ s data, sendsAll s data ∈ bearerTrace →
      ∃ ρ, (ρ, .call 0 (.send s data 0)) ∈ tr.map fun p => (p.1.proc.sys, p.2) := by
    intro s data hmem
    have hl : Label.call 0 (.send s data 0) ∈ tr.map Prod.snd := by
      rw [hlabels]
      exact List.mem_append_right _ (List.mem_map.mpr ⟨_, hmem, rfl⟩)
    obtain ⟨⟨ρ, l⟩, hρ, rfl⟩ := List.mem_map.mp hl
    exact ⟨_, List.mem_map_of_mem hρ⟩
  refine ⟨_, _, hclosed, ?_, ?_, ⟨_, List.mem_append_right _ (List.mem_singleton_self _)⟩, ?_⟩
  · obtain ⟨ρ, hρ⟩ := hsent 5 bearerWire (by simp [bearerTrace, bearerForward, exchangeTrace])
    exact ⟨ρ, List.mem_append_left _ hρ⟩
  · obtain ⟨ρ, hρ⟩ := hsent 4 (buildResponse bearerResponse) (by simp [bearerTrace, replyTrace])
    exact ⟨ρ, List.mem_append_left _ hρ⟩
  · refine (survivesPeers_iff hclosed).mpr ?_
    rintro ⟨ρ, l⟩ hmem ⟨k, s, data, flags, rfl, hpeer⟩
    rcases List.mem_append.mp hmem with hmem | hmem
    · obtain ⟨⟨υ, l⟩, hυ, heq⟩ := List.mem_map.mp hmem
      obtain ⟨rfl, rfl⟩ := Prod.mk.inj heq
      rw [h.calm _ hυ s] at hpeer
      cases hpeer
    · cases List.mem_singleton.mp hmem

/-- A client that sends an empty line is answered. -/
theorem handleClient_emptyLine (s : Socket) (clientIp : Bytes) (cfg : Config) :
    ∃ (next : RecvResult 4096 → Io Unit) (r : HttpResponse),
      handleClient s clientIp cfg = .call (.recv s 4096) next ∧
      next (.data crlfcrlf (by decide) (by decide)) = replyAndClose s r := by
  have hfound : (find? crlfcrlf ([] ++ crlfcrlf)).isSome = true := by decide
  have hcut : cutAndParse ([] ++ crlfcrlf) = .malformed := by decide +kernel
  unfold handleClient intake
  rw [readHead, if_pos (by decide)]
  refine ⟨_, jsonError 400 (ascii "bad_request") (ascii "Malformed HTTP request."), rfl, ?_⟩
  simp only [hfound, if_true, Prog.bind, Prog.pure_eq, hcut]

/-- A reply is announced and then sent. -/
theorem replyAndClose_sends (s : Socket) (r : HttpResponse) :
    ∃ (chunk : Bytes) (next : SendResult chunk.length → Io Unit),
      replyAndClose s r = .call (.invoke (.reply s r)) fun _ => .call (.send s chunk 0) next := by
  have hlt : 0 < (buildResponse r).length := by
    simp only [buildResponse, List.length_append]
    have hversion : (ascii "HTTP/1.1 ").length = 9 := by decide
    omega
  obtain ⟨chunk, next, heq, -⟩ := HandleClient.sendAll_failed (s := s) hlt
  refine ⟨chunk, fun n => (next n >>= fun _ => .ret ()) >>= fun _ => closeSocket s, ?_⟩
  unfold replyAndClose reply
  rw [heq]
  rfl

/-- A handler that is about to send is killed, with the whole process, by a peer that closes. -/
theorem AloneRun.killed_by_peer {D : Deployment} {start : Io Unit} {tr : List (Deployed × Label)}
    {σ : Deployed} {evs : Trace} {data : Bytes} {next : SendResult data.length → Io Unit}
    (h : AloneRun D cfg start tr σ evs (.call (.send s data 0) next)) :
    ∃ tr τ, ProcessRun cfg tr τ ∧ (∃ ρ, (ρ, .call 0 (.send s data 0)) ∈ tr) ∧
      τ.ended = some .killed ∧ ¬ SurvivesPeers tr τ := by
  have hrun := deployed_processRun h.run
  have hdisp : Signal.SIGPIPE ∉ σ.proc.sys.dispositions := by
    rw [(unguarded_run hrun).dispositions]
    decide
  have hk : σ.proc.sys.handlers[0]? = some (.running (.call (.send s data 0) next)) := by
    rw [h.handlers]
    rfl
  have hcloses : ProcessRun cfg _ _ := hrun.snoc ⟨h.alive, .peerCloses s⟩
  have hpeer : Function.update σ.proc.sys.peerClosed s true s = true := Function.update_self ..
  have hkilled : ProcessRun cfg _ _ :=
    hcloses.snoc ⟨h.alive, .sigpipe (k := 0) hk ⟨hpeer, rfl, hdisp⟩⟩
  refine ⟨_, _, hkilled, ⟨_, List.mem_append_right _ (List.mem_singleton_self _)⟩, rfl, ?_⟩
  exact fun hsurvives => hsurvives.alive _ (Or.inl rfl) rfl

/-- A client that sends an empty line and resets its connection before the answer ends the gateway,
and so does an upstream that resets it before the request. -/
theorem peer_kills : loadConfig secretOnly = .ok (readConfig secretOnly) ∧
    (∃ tr τ data, ProcessRun (readConfig secretOnly) tr τ ∧
      (∃ ρ, (ρ, .call 0 (.send 4 data 0)) ∈ tr) ∧ τ.ended = some .killed ∧ ¬ SurvivesPeers tr τ) ∧
    ∃ tr τ, ProcessRun bearerConfig tr τ ∧ (∃ ρ, (ρ, .call 0 (.send 5 bearerWire 0)) ∈ tr) ∧
      τ.ended = some .killed ∧ ¬ SurvivesPeers tr τ := by
  refine ⟨loadConfig_secretOnly, ?_, ?_⟩
  · obtain ⟨next, r, hfirst, hempty⟩ := handleClient_emptyLine 4 [] (readConfig secretOnly)
    obtain ⟨chunk, sent, hreply⟩ := replyAndClose_sends 4 r
    have hleads : (handleClient 4 [] (readConfig secretOnly)).Leads
        [⟨.recv 4 4096, .data crlfcrlf (by decide) (by decide)⟩, ⟨.invoke (.reply 4 r), ()⟩]
        (.call (.send 4 chunk 0) sent) := by
      rw [hfirst]
      refine ⟨_, rfl, ?_⟩
      rw [hempty, hreply]
      exact ⟨(), rfl, rfl⟩
    obtain ⟨tr, σ, h⟩ := alone_reaches (D := sampleDeployment) secretOnly_maxClients .whole hleads
      (answerable_of_plain (by simp [IsPlain]))
    obtain ⟨tr', τ, hkilled⟩ := h.killed_by_peer
    exact ⟨tr', τ, chunk, hkilled⟩
  · have hsplit : bearerTrace = bearerTrace.take 12 ++ sendsAll 5 bearerWire ::
        bearerTrace.drop 13 := rfl
    have hruns := bearerRequest_runs
    have hanswers := bearerTrace_answerable
    rw [hsplit] at hruns hanswers
    obtain ⟨q, hleads, hrest⟩ := Prog.exists_leads hruns
    obtain ⟨next, rfl, -⟩ := Prog.leads_cons.mp (Prog.runs_iff_leads.mp hrest)
    obtain ⟨-, -, -, hmax, -⟩ := bearerConfig_settings
    obtain ⟨tr, σ, h⟩ := alone_reaches hmax (.accepted bearerRequest []) hleads hanswers.of_append
    exact h.killed_by_peer

end Gateway

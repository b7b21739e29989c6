import Mathlib
import Gateway.SystemCalls
import Gateway.Library.Monitor

/-! The rules by which a ledger follows a handler, whatever it keeps account of. -/
namespace Gateway

open Program Search

variable {γ : Type} {M : Monitor Op Res γ} {hold : List AddrInfo → Option Socket → γ}
  {Upstream : Socket → Prop} {g lost : γ} {answered : HttpResponse → γ} {post : γ → Prop}
  {s u : Socket} {cfg : Config} {req : HttpRequest} {timeoutMs : Int}

/-- A ledger follows `forwardRequest`, which holds at most an address list and a socket;
`Upstream` is what the operating system promises of a new socket. -/
structure UpstreamRules (M : Monitor Op Res γ) (hold : List AddrInfo → Option Socket → γ)
    (Upstream : Socket → Prop) : Prop where
  mark : ∀ base req path auth,
    M.step (hold [] none) ⟨.invoke (.forwardRequest base req path auth), ()⟩ = some (hold [] none)
  resolve : ∀ host port r,
    M.step (hold [] none) ⟨.getaddrinfo host port, r⟩ = some (hold r.list none)
  free : ∀ list so, list ≠ [] →
    M.step (hold list so) ⟨.freeaddrinfo list, ()⟩ = some (hold [] so)
  noSocket : ∀ list ai, M.step (hold list none) ⟨.socket ai, none⟩ = some (hold list none)
  socket : ∀ list ai u, M.promised ⟨.socket ai, some u⟩ →
    Upstream u ∧ M.step (hold list none) ⟨.socket ai, some u⟩ = some (hold list (some u))
  uses : ∀ list u o r, Upstream u → OnSocket u o →
    M.step (hold list (some u)) ⟨o, r⟩ = some (hold list (some u))
  close : ∀ list u, Upstream u →
    M.step (hold list (some u)) ⟨.closeSocket u, ()⟩ = some (hold list none)

/-- A program on the upstream socket, followed by another. -/
theorem wp_onSocket_bind {α β : Type} {p : Io α} {f : α → Io β} {post : β → γ → Prop}
    {list : List AddrInfo} (h : UpstreamRules M hold Upstream) (hp : p.Calls (OnSocket u))
    (hu : Upstream u) (hf : ∀ a, M.wp (f a) post (hold list (some u))) :
    M.wp (p >>= f) post (hold list (some u)) := by
  have hcalls := Monitor.wp_of_calls (M := M) hp fun o ho r _ => h.uses list u o r hu ho
  apply Monitor.wp_bind
  apply Monitor.wp_mono hcalls
  rintro a g' rfl
  exact hf a

/-- Every socket of the address loop is closed, or it is connected and returned. -/
theorem connectAny_wp (h : UpstreamRules M hold Upstream) (all list : List AddrInfo)
    (timedOut : Bool) : M.wp (connectAny timeoutMs list timedOut)
      (fun out g' => g' = hold all out.1 ∧ ∀ u ∈ out.1, Upstream u) (hold all none) := by
  induction list generalizing timedOut with
  | nil => exact ⟨rfl, fun u hu => by cases hu⟩
  | cons ai rest ih =>
    rw [connectAny, perform_bind]
    intro so hso
    cases so with
    | none => exact ⟨_, h.noSocket all ai, ih timedOut⟩
    | some u =>
      obtain ⟨hu, hopened⟩ := h.socket all ai u hso
      refine ⟨_, hopened, ?_⟩
      apply wp_onSocket_bind h (connectWithTimeout_calls u ai timeoutMs) hu
      rintro ⟨connected, t⟩
      cases connected with
      | true =>
        refine ⟨rfl, ?_⟩
        rintro v hv
        cases hv
        exact hu
      | false =>
        intro r _
        refine ⟨_, h.close all u hu, ?_⟩
        cases t with
        | true => exact ⟨rfl, fun v hv => by cases hv⟩
        | false => exact ih false

/-- The exchange closes the upstream socket it was given. -/
theorem exchange_wp (h : UpstreamRules M hold Upstream) (wire : Bytes) (hu : Upstream u) :
    M.wp (exchange u wire timeoutMs) (fun _ g' => g' = hold [] none) (hold [] (some u)) := by
  have hlast : ∀ (sentOk : Bool) (p : Bytes × Bool), M.wp (do
      closeSocket u
      if kMaxUpstreamBytes ≤ p.1.length then
        return { error := ascii "upstream response too large" }
      if !sentOk || p.2 || p.1.isEmpty then return { error := ascii "upstream io failed" }
      return parseUpstreamResponse p.1 : Io ProxyResult)
      (fun _ g' => g' = hold [] none) (hold [] (some u)) := by
    intro sentOk p r _
    refine ⟨_, h.close [] u hu, ?_⟩
    simp only [Prog.bind]
    split
    · exact rfl
    · split <;> exact rfl
  rw [exchange, perform_bind]
  refine Monitor.wp_call_of_steps (fun r _ => ?_) fun _ _ => ?_
  · exact h.uses [] u _ r hu rfl
  rw [perform_bind]
  refine Monitor.wp_call_of_steps (fun r _ => ?_) fun _ _ => ?_
  · exact h.uses [] u _ r hu rfl
  apply wp_onSocket_bind h (Proxy.sendAll_calls u wire 0) hu
  intro sentOk
  cases sentOk with
  | true => exact wp_onSocket_bind h (recvUpstream_calls u []) hu (hlast true)
  | false => exact hlast false ([], false)

/-- `forwardRequest` releases all it has opened. -/
theorem forwardRequest_wp (h : UpstreamRules M hold Upstream) (base : Bytes) (req : HttpRequest)
    (path : Bytes) (auth : AuthInfo) (timeoutMs : Int) :
    M.wp (forwardRequest base req path auth timeoutMs) (fun _ g' => g' = hold [] none)
      (hold [] none) := by
  rw [forwardRequest, invoke, perform_bind]
  apply Monitor.wp_call_of_steps fun r _ => h.mark base req path auth
  intro _ _
  split
  · exact rfl
  · rename_i up hup
    rw [perform_bind]
    intro resolved _
    refine ⟨_, h.resolve _ _ resolved, ?_⟩
    by_cases hempty : resolved.list = []
    · simp [hempty]
    · by_cases hrc : resolved.rc = 0
      · simp only [hrc, hempty, ne_eq, not_true_eq_false, or_self, if_false]
        apply Monitor.wp_bind
        apply Monitor.wp_mono (connectAny_wp h resolved.list resolved.list false)
        rintro ⟨connected, t⟩ g' ⟨rfl, hup⟩ r _
        refine ⟨_, h.free _ _ hempty, ?_⟩
        cases connected with
        | none => exact rfl
        | some u => exact exchange_wp h _ (hup u rfl)
      · simp only [hrc, hempty, ne_eq, not_false_eq_true, true_or, if_true]
        intro r _
        exact ⟨_, h.free _ _ hempty, rfl⟩

/-- A ledger follows the client's side of a connection: `g` while the request is read and served,
`lost` once the client is found to be gone, and `answered` from the reply on. -/
structure ClientRules (M : Monitor Op Res γ) (s : Socket) (cfg : Config) (g lost : γ)
    (answered : HttpResponse → γ) (post : γ → Prop) : Prop where
  data : ∀ len bytes pos le, M.step g ⟨.recv s len, .data bytes pos le⟩ = some g
  closed : ∀ len, M.step g ⟨.recv s len, .closed⟩ = some lost
  error : ∀ len e, M.step g ⟨.recv s len, .error e⟩ = some lost
  allow : ∀ ip r, M.step g ⟨.allow ip, r⟩ = some g
  verifyJwt : ∀ token secret issuer r, M.step g ⟨.verifyJwt token secret issuer, r⟩ = some g
  forward : ∀ method target req auth, (matchRoute method target cfg).kind = .kApi →
    M.wp (forwardRequest (matchRoute method target cfg).upstreamBase req
      (matchRoute method target cfg).forwardPath auth cfg.upstreamTimeoutMs)
      (fun _ g' => g' = g) g
  reply : ∀ resp, Built resp → M.step g ⟨.invoke (.reply s resp), ()⟩ = some (answered resp)
  send : ∀ resp chunk r, M.step (answered resp) ⟨.send s chunk 0, r⟩ = some (answered resp)
  close : ∀ resp, ∃ g', M.step (answered resp) ⟨.closeSocket s, ()⟩ = some g' ∧ post g'
  hangUp : ∃ g', M.step lost ⟨.closeSocket s, ()⟩ = some g' ∧ post g'

section client
variable (h : ClientRules M s cfg g lost answered post)
include h

theorem replyAndClose_wp {resp : HttpResponse} (hbuilt : Built resp) :
    M.wp (replyAndClose s resp) (fun _ => post) g := by
  have hsend := Monitor.wp_of_calls (M := M) (HandleClient.sendAll_calls s (buildResponse resp) 0)
    (by rintro _ ⟨chunk, rfl⟩ r _; exact h.send resp chunk r)
  rw [replyAndClose, reply, invoke, perform_bind]
  intro _ _
  refine ⟨_, h.reply resp hbuilt, ?_⟩
  apply Monitor.wp_bind
  apply Monitor.wp_bind
  apply Monitor.wp_mono hsend
  rintro _ g' rfl r _
  exact h.close resp

theorem closeSocket_wp : M.wp (closeSocket s) (fun _ => post) lost := fun _ _ => h.hangUp

/-- A receive from the client finds out that it has gone, or brings bytes. -/
theorem wp_recv {α : Type} {len : Nat} {k : RecvResult len → Io α} {q : α → γ → Prop}
    (hclosed : M.wp (k .closed) q lost) (herror : ∀ e, M.wp (k (.error e)) q lost)
    (hdata : ∀ bytes pos le, M.wp (k (.data bytes pos le)) q g) :
    M.wp (.call (.recv s len) k) q g := by
  intro n _
  cases n with
  | closed => exact ⟨_, h.closed len, hclosed⟩
  | error e => exact ⟨_, h.error len e, herror e⟩
  | data bytes pos le => exact ⟨g, h.data len bytes pos le, hdata bytes pos le⟩

/-- The head loop stops with a disconnection exactly when it finds one. -/
theorem readHead_wp (head : Bytes) : M.wp (readHead s head)
    (fun out g' => g' = if out = .disconnected then lost else g) g := by
  induction hk : kMaxHeaderBytes - head.length using Nat.strong_induction_on
    generalizing head with
  | _ k ih =>
    rw [readHead]
    by_cases hlt : head.length < kMaxHeaderBytes
    · rw [if_pos hlt]
      refine wp_recv h ?_ ?_ ?_
      · exact rfl
      · exact fun _ => rfl
      · intro bytes pos le
        by_cases hfound : (find? crlfcrlf (head ++ bytes)).isSome = true
        · simp only [hfound, if_true]
          exact rfl
        · simp only [hfound]
          exact ih _ (by rw [List.length_append]; omega) _ rfl
    · rw [if_neg hlt]
      exact rfl

theorem readBody_wp (maxBodyBytes : Int) (cl : Nat) (body : Bytes) :
    M.wp (readBody s maxBodyBytes cl body)
      (fun out g' => g' = if out = .disconnected then lost else g) g := by
  induction hk : cl - body.length using Nat.strong_induction_on generalizing body with
  | _ k ih =>
    rw [readBody]
    by_cases hlt : body.length < cl
    · rw [if_pos hlt]
      refine wp_recv h ?_ ?_ ?_
      · exact rfl
      · exact fun _ => rfl
      · intro bytes pos le
        by_cases hbig : maxBodyBytes < (body ++ bytes).length
        · simp only [hbig, if_true]
          exact rfl
        · simp only [hbig, if_false]
          exact ih _ (by rw [List.length_append]; omega) _ rfl
    · rw [if_neg hlt]
      exact rfl

theorem bodyPhase_wp (leftover : Bytes) : M.wp (bodyPhase s cfg req leftover)
    (fun out g' => g' = if out = .disconnected then lost else g) g := by
  unfold bodyPhase
  split
  · exact rfl
  · dsimp only
    split
    · exact rfl
    · split
      · exact rfl
      · apply Monitor.wp_bind
        apply Monitor.wp_mono (readBody_wp h _ _ _)
        rintro out g' rfl
        cases out <;> exact rfl

theorem intake_wp : M.wp (intake s)
    (fun out g' => g' = if out = .disconnected then lost else g) g := by
  apply Monitor.wp_bind
  apply Monitor.wp_mono (readHead_wp h [])
  rintro out g' rfl
  cases out with
  | disconnected => exact rfl
  | tooLarge => exact rfl
  | done head =>
    have hout : cutAndParse head ≠ .disconnected := by
      unfold cutAndParse
      split
      · simp
      · split <;> simp
    simp [hout]

theorem authorize_wp (method target : Bytes) (hkind : (matchRoute method target cfg).kind = .kApi) :
    M.wp (authorize s cfg req (matchRoute method target cfg)) (fun _ => post) g := by
  unfold authorize
  dsimp only
  split
  · exact replyAndClose_wp h (.error _ _ _)
  · rw [perform_bind]
    apply Monitor.wp_call_of_steps fun r _ => h.verifyJwt _ _ _ r
    intro auth _
    split
    · exact replyAndClose_wp h (.error _ _ _)
    · split
      · exact replyAndClose_wp h (.error _ _ _)
      · split
        · exact replyAndClose_wp h (.error _ _ _)
        · apply Monitor.wp_bind
          have houtcome := forwardRequest_outcome (matchRoute method target cfg).upstreamBase req
            (matchRoute method target cfg).forwardPath auth cfg.upstreamTimeoutMs
          apply Monitor.wp_mono (Monitor.wp_and_returns (h.forward method target req auth hkind)
            houtcome)
          rintro pr g' ⟨rfl, hpr⟩
          exact replyAndClose_wp h (built_of_outcome hpr)

theorem serve_wp (clientIp : Bytes) :
    M.wp (serve s clientIp cfg req) (fun _ => post) g := by
  rw [serve, perform_bind]
  apply Monitor.wp_call_of_steps fun r _ => h.allow clientIp r
  intro admitted _
  split
  · exact replyAndClose_wp h (.error _ _ _)
  · dsimp only
    cases hkind : (matchRoute req.method req.target cfg).kind with
    | kHealth => exact replyAndClose_wp h (.health cfg)
    | kNotFound => exact replyAndClose_wp h (.error _ _ _)
    | kMethodNotAllowed => exact replyAndClose_wp h (.error _ _ _)
    | kApi => exact authorize_wp h _ _ hkind

theorem handleAccepted_wp (clientIp leftover : Bytes) :
    M.wp (handleAccepted s clientIp cfg req leftover) (fun _ => post) g := by
  apply Monitor.wp_bind
  apply Monitor.wp_mono (bodyPhase_wp h leftover)
  rintro out g' rfl
  cases out with
  | chunked => exact replyAndClose_wp h (.error _ _ _)
  | badContentLength => exact replyAndClose_wp h (.error _ _ _)
  | tooLarge => exact replyAndClose_wp h (.error _ _ _)
  | disconnected => exact closeSocket_wp h
  | done req => exact serve_wp h clientIp

theorem handleClient_wp (clientIp : Bytes) :
    M.wp (handleClient s clientIp cfg) (fun _ => post) g := by
  rw [handleClient_eq]
  apply Monitor.wp_bind
  apply Monitor.wp_mono (intake_wp h)
  rintro out g' rfl
  cases out with
  | disconnected => exact closeSocket_wp h
  | tooLarge => exact replyAndClose_wp h (.error _ _ _)
  | malformed => exact replyAndClose_wp h (.error _ _ _)
  | accepted req leftover => exact handleAccepted_wp h clientIp leftover

end client

section calls

open Classical in
theorem handlerCall_upstream :
    UpstreamRules (Monitor.only Op Res HandlerCall) (fun _ _ => ()) fun _ => True := by
  constructor
  case mark => exact fun _ _ _ _ => if_pos trivial
  case resolve => exact fun _ _ _ => if_pos trivial
  case free => exact fun _ _ _ => if_pos trivial
  case noSocket => exact fun _ _ => if_pos trivial
  case socket => exact fun _ _ _ _ => ⟨trivial, if_pos trivial⟩
  case uses => exact fun _ _ o _ _ ho => if_pos (handlerCall_of_systemCall o ho.isSystemCall)
  case close => exact fun _ _ _ => if_pos trivial

open Classical in
theorem handlerCall_rules (s : Socket) (cfg : Config) :
    ClientRules (Monitor.only Op Res HandlerCall) s cfg () () (fun _ => ()) fun _ => True := by
  constructor
  case data => exact fun _ _ _ _ => if_pos trivial
  case closed => exact fun _ => if_pos trivial
  case error => exact fun _ _ => if_pos trivial
  case allow => exact fun _ _ => if_pos trivial
  case verifyJwt => exact fun _ _ _ _ => if_pos trivial
  case forward =>
    intro method target req auth _
    exact forwardRequest_wp handlerCall_upstream _ _ _ _ _
  case reply => exact fun _ hbuilt => if_pos hbuilt
  case send => exact fun _ _ _ => if_pos rfl
  case close => exact fun _ => ⟨(), if_pos trivial, trivial⟩
  case hangUp => exact ⟨(), if_pos trivial, trivial⟩

theorem handleAccepted_calls (s : Socket) (clientIp : Bytes) (cfg : Config) (req : HttpRequest)
    (leftover : Bytes) : (handleAccepted s clientIp cfg req leftover).Calls HandlerCall := by
  classical
  exact Monitor.calls_of_wp (handleAccepted_wp (handlerCall_rules s cfg) clientIp leftover)

/-- What a handler calls, from its first read to its close. -/
theorem handleClient_calls (s : Socket) (clientIp : Bytes) (cfg : Config) :
    (handleClient s clientIp cfg).Calls HandlerCall := by
  classical
  exact Monitor.calls_of_wp (handleClient_wp (handlerCall_rules s cfg) clientIp)

theorem serves_calls {ip : Bytes} {p : Io Unit} (h : ServesConnection s ip cfg p) :
    p.Calls HandlerCall := by
  cases h with
  | whole => exact handleClient_calls s ip cfg
  | accepted req leftover => exact handleAccepted_calls s ip cfg req leftover

end calls

end Gateway

import Mathlib
import Gateway.CheckedProxy
import Gateway.VerifyJwt

/-! The handler with the position of every string operation checked: no input makes it fail. -/
namespace Gateway

namespace Checked

open Program Search Positions

/-- Step 1; the position of the empty line is used without a test of its own. -/
def intake (s : Socket) : FallibleIo Intake := do
  match ← readHead s [] with
  | .disconnected => return .disconnected
  | .tooLarge => return .tooLarge
  | .done head =>
    let eoh ← found (find? crlfcrlf head)
    let headPart ← substr head 0 (some eoh)
    let leftover ← substr head (eoh + 4) none
    match ← parseHttpRequest headPart with
    | none => return .malformed
    | some req => return .accepted req leftover

/-- The receive loop of the request body, then the resize. -/
def readBody (s : Socket) (maxBodyBytes : Int) (cl : Nat) (body : Bytes) : FallibleIo BodyRead :=
  if body.length < cl then
    ExceptT.mk (.call (.recv s 4096) fun n =>
      match n with
      | .closed => .ret (.ok .disconnected)
      | .error _ => .ret (.ok .disconnected)
      | .data bytes _ _ =>
        if maxBodyBytes < (body ++ bytes).length then .ret (.ok .tooLarge)
        else (readBody s maxBodyBytes cl (body ++ bytes)).run)
  else do
    if cl < body.length then return .done (← resize body cl)
    return .done body
termination_by cl - body.length
decreasing_by
  rw [List.length_append]
  omega

/-- Step 2. -/
def bodyPhase (s : Socket) (cfg : Config) (req : HttpRequest) (leftover : Bytes) :
    FallibleIo BodyPhase := do
  if req.header (ascii "transfer-encoding") ≠ [] then return .chunked
  let clOk := parseContentLength (req.header (ascii "content-length"))
  if req.header (ascii "content-length") ≠ [] ∧ clOk = none then return .badContentLength
  let cl := clOk.getD 0
  if cfg.maxBodyBytes < cl then return .tooLarge
  match ← readBody s cfg.maxBodyBytes cl leftover with
  | .disconnected => return .disconnected
  | .tooLarge => return .tooLarge
  | .done body => return .done { req with body }

/-- Step 6 for a configured upstream. -/
def proxyRequest (s : Socket) (cfg : Config) (req : HttpRequest) (route : RouteResult)
    (auth : AuthInfo) : FallibleIo Unit := do
  let pr ← forwardRequest route.upstreamBase req route.forwardPath auth cfg.upstreamTimeoutMs
  replyAndClose s (relayResponse pr)

/-- Steps 5 and 6; the masked token goes to the log. -/
def authorize (s : Socket) (cfg : Config) (req : HttpRequest) (route : RouteResult) :
    FallibleIo Unit := do
  let token ← bearerFromHeader (req.header (ascii "authorization"))
  if token = [] ∨ 8192 < token.length then
    replyAndClose s (jsonError 401 (ascii "unauthorized") (ascii "Missing bearer token."))
  else
    let auth ← perform (.verifyJwt token cfg.jwtSecret cfg.jwtIssuer)
    if !auth.ok then replyAndClose s (jsonError 401 (ascii "unauthorized") auth.error)
    else
      let _ ← maskToken token
      if !hasScope auth route.area route.requiredScope then
        replyAndClose s (jsonError 403 (ascii "forbidden")
          (ascii "Missing required scope: " ++ route.requiredScope))
      else if route.upstreamBase = [] then
        replyAndClose s (jsonError 502 (ascii "bad_gateway")
          (ascii "Upstream not configured: " ++ route.area))
      else proxyRequest s cfg req route auth

/-- Steps 3 to 6. -/
def serve (s : Socket) (clientIp : Bytes) (cfg : Config) (req : HttpRequest) : FallibleIo Unit := do
  if !(← perform (.allow clientIp)) then
    replyAndClose s (jsonError 429 (ascii "rate_limited") (ascii "Too many requests, slow down."))
  else
    let route ← matchRoute req.method req.target cfg
    match route.kind with
    | .kHealth => replyAndClose s (healthResponse cfg)
    | .kNotFound => replyAndClose s (jsonError 404 (ascii "not_found") (ascii "Unknown path."))
    | .kMethodNotAllowed =>
      replyAndClose s (jsonError 405 (ascii "method_not_allowed")
        (ascii "Use GET/POST/PUT/PATCH/DELETE."))
    | .kApi => authorize s cfg req route

/-- Steps 2 to 6. -/
def handleAccepted (s : Socket) (clientIp : Bytes) (cfg : Config) (req : HttpRequest)
    (leftover : Bytes) : FallibleIo Unit := do
  match ← bodyPhase s cfg { req with clientIp } leftover with
  | .chunked =>
    replyAndClose s (jsonError 400 (ascii "bad_request")
      (ascii "Chunked transfer is not supported."))
  | .badContentLength =>
    replyAndClose s (jsonError 400 (ascii "bad_request") (ascii "Bad Content-Length."))
  | .tooLarge =>
    replyAndClose s (jsonError 413 (ascii "body_too_large")
      (ascii "Request body exceeds the limit."))
  | .disconnected => closeSocket s
  | .done req => serve s clientIp cfg req

def handleClient (s : Socket) (clientIp : Bytes) (cfg : Config) : FallibleIo Unit := do
  match ← intake s with
  | .disconnected => closeSocket s
  | .tooLarge =>
    replyAndClose s (jsonError 413 (ascii "headers_too_large") (ascii "Request head is too large."))
  | .malformed =>
    replyAndClose s (jsonError 400 (ascii "bad_request") (ascii "Malformed HTTP request."))
  | .accepted req leftover => handleAccepted s clientIp cfg req leftover

/-- The head is only taken as read where it holds an empty line. -/
theorem readHead_returns (s : Socket) (head : Bytes) :
    (readHead s head).Returns fun r => ∀ h, r = .done h → (find? crlfcrlf h).isSome = true := by
  induction hk : kMaxHeaderBytes - head.length using Nat.strong_induction_on generalizing head with
  | _ k ih =>
    rw [readHead]
    by_cases hlt : head.length < kMaxHeaderBytes
    · rw [if_pos hlt]
      intro n
      cases n with
      | closed =>
        intro h hh
        cases hh
      | error e =>
        intro h hh
        cases hh
      | data bytes pos le =>
        dsimp only
        by_cases hend : (find? crlfcrlf (head ++ bytes)).isSome = true
        · rw [if_pos hend]
          intro h hh
          cases hh
          exact hend
        · rw [if_neg hend]
          exact ih _ (by rw [List.length_append]; omega) _ rfl
    · rw [if_neg hlt]
      intro h hh
      cases hh

/-- The cut of a head that holds an empty line. -/
theorem cutAndParse_eq {head : Bytes} {eoh : Nat} (h : find? crlfcrlf head = some eoh) :
    cutAndParse head = match Gateway.parseHttpRequest (head.take eoh) with
      | none => .malformed
      | some req => .accepted req (head.drop (eoh + 4)) := by
  rw [cutAndParse, cut, h]
  rfl

theorem intake_ok (s : Socket) : intake s = liftM (Gateway.intake s) := by
  rw [intake, Gateway.intake, liftM_bind]
  apply Fallible.liftM_bind_congr (readHead_returns s [])
  intro r hr
  cases r with
  | disconnected => rfl
  | tooLarge => rfl
  | done head =>
    obtain ⟨eoh, heoh⟩ := Option.isSome_iff_exists.mp (hr head rfl)
    have hafter : eoh + 4 ≤ head.length := find?_some_le heoh
    dsimp only
    rw [cutAndParse_eq heoh, heoh, found_some]
    simp only [Fallible.liftM_ok, pure_bind, substr_zero, substr_rest_ok hafter,
      parseHttpRequest_ok]
    cases Gateway.parseHttpRequest (head.take eoh) with
    | none => rfl
    | some req => rfl

theorem readBody_ok (s : Socket) (maxBodyBytes : Int) (cl : Nat) (body : Bytes) :
    readBody s maxBodyBytes cl body = liftM (Gateway.readBody s maxBodyBytes cl body) := by
  induction hk : cl - body.length using Nat.strong_induction_on generalizing body with
  | _ k ih =>
    rw [readBody, Gateway.readBody]
    by_cases hlt : body.length < cl
    · rw [if_pos hlt, if_pos hlt]
      apply ExceptT.ext
      change Prog.call _ _ = Prog.call _ _
      congr 1
      funext n
      cases n with
      | closed => rfl
      | error e => rfl
      | data bytes pos le =>
        dsimp only
        split
        · rfl
        · rw [ih _ (by rw [List.length_append]; omega) _ rfl]
          rfl
    · rw [if_neg hlt, if_neg hlt]
      by_cases hlong : cl < body.length
      · rw [if_pos hlong, resize_ok hlong.le]
        rfl
      · rw [if_neg hlong, List.take_of_length_le (Nat.not_lt.mp hlong)]
        rfl

theorem bodyPhase_ok (s : Socket) (cfg : Config) (req : HttpRequest) (leftover : Bytes) :
    bodyPhase s cfg req leftover = liftM (Gateway.bodyPhase s cfg req leftover) := by
  rw [bodyPhase, Gateway.bodyPhase]
  simp only [readBody_ok, Fallible.liftM_ite, liftM_pure, liftM_bind]
  split
  · rfl
  · split
    · rfl
    · split
      · rfl
      · refine bind_congr fun read => ?_
        cases read <;> rfl

theorem proxyRequest_ok (s : Socket) (cfg : Config) (req : HttpRequest) (route : RouteResult)
    (auth : AuthInfo) :
    proxyRequest s cfg req route auth = liftM (Gateway.proxyRequest s cfg req route auth) := by
  rw [proxyRequest, Gateway.proxyRequest, forwardRequest_ok, liftM_bind]

theorem authorize_ok (s : Socket) (cfg : Config) (req : HttpRequest) (route : RouteResult) :
    authorize s cfg req route = liftM (Gateway.authorize s cfg req route) := by
  rw [authorize, Gateway.authorize, bearerFromHeader_ok]
  simp only [proxyRequest_ok, maskToken_ok, Fallible.liftM_ite, liftM_bind, Fallible.liftM_ok,
    pure_bind]

theorem serve_ok (s : Socket) (clientIp : Bytes) (cfg : Config) (req : HttpRequest) :
    serve s clientIp cfg req = liftM (Gateway.serve s clientIp cfg req) := by
  rw [serve, Gateway.serve, matchRoute_ok]
  simp only [Fallible.liftM_ite, liftM_bind, Fallible.liftM_ok, pure_bind]
  refine bind_congr fun allowed => ?_
  split
  · rfl
  · cases (Gateway.matchRoute req.method req.target cfg).kind with
    | kApi => exact authorize_ok s cfg req _
    | _ => rfl

theorem handleAccepted_ok (s : Socket) (clientIp : Bytes) (cfg : Config) (req : HttpRequest)
    (leftover : Bytes) : handleAccepted s clientIp cfg req leftover =
      liftM (Gateway.handleAccepted s clientIp cfg req leftover) := by
  rw [handleAccepted, Gateway.handleAccepted, bodyPhase_ok, liftM_bind]
  simp only [serve_ok]
  refine bind_congr fun phase => ?_
  cases phase <;> rfl

/-- No string operation of a handler fails, whatever its calls return. -/
theorem handleClient_ok (s : Socket) (clientIp : Bytes) (cfg : Config) :
    handleClient s clientIp cfg = liftM (Gateway.handleClient s clientIp cfg) := by
  rw [handleClient, handleClient_eq, intake_ok, liftM_bind]
  refine bind_congr fun taken => ?_
  cases taken with
  | accepted req leftover => exact handleAccepted_ok s clientIp cfg req leftover
  | _ => rfl

/-- The verifier hands every exception of the token library back as an error. -/
theorem verifyJwt_returns (lib : JwtLibrary) (token secret requiredIssuer : Bytes) :
    ∃ info, verifyJwt lib token secret requiredIssuer = .ok info := by
  rcases verifyJwt_cases lib token secret requiredIssuer with ⟨d, -, h⟩ | ⟨-, e, -, h⟩
  · exact ⟨_, h⟩
  · exact ⟨_, h⟩

/-- For every input each parser computes its value without a position out of range and without
an uncaught conversion, and no run of a handler, whatever its calls return, ends in a failure,
nor does any of its steps, whatever request it is handed. -/
theorem handlers_never_throw :
    (∀ s, trimStr s = .ok (Gateway.trimStr s)) ∧
    (∀ head, parseHttpRequest head = .ok (Gateway.parseHttpRequest head)) ∧
    (∀ method target cfg, matchRoute method target cfg =
      .ok (Gateway.matchRoute method target cfg)) ∧
    (∀ authHeader, bearerFromHeader authHeader = .ok (Gateway.bearerFromHeader authHeader)) ∧
    (∀ base, parseUpstream base = .ok (Gateway.parseUpstream base)) ∧
    (∀ up req forwardPath auth, requestWire up req forwardPath auth =
      .ok (Gateway.requestWire up req forwardPath auth)) ∧
    (∀ raw, parseUpstreamResponse raw = .ok (Gateway.parseUpstreamResponse raw)) ∧
    (∀ token, ∃ masked, maskToken token = .ok masked) ∧
    (∀ lib token secret requiredIssuer, ∃ info,
      verifyJwt lib token secret requiredIssuer = .ok info) ∧
    (∀ upstreamBase req forwardPath auth timeoutMs,
      (forwardRequest upstreamBase req forwardPath auth timeoutMs).NeverFails) ∧
    (∀ s maxBodyBytes cl body, (readBody s maxBodyBytes cl body).NeverFails) ∧
    (∀ s cfg req leftover, (bodyPhase s cfg req leftover).NeverFails) ∧
    (∀ s cfg req route, (authorize s cfg req route).NeverFails) ∧
    (∀ s clientIp cfg req, (serve s clientIp cfg req).NeverFails) ∧
    (∀ s clientIp cfg req leftover,
      (handleAccepted s clientIp cfg req leftover).NeverFails) ∧
    ∀ s clientIp cfg, (handleClient s clientIp cfg).NeverFails := by
  refine ⟨trimStr_ok, parseHttpRequest_ok, matchRoute_ok, bearerFromHeader_ok, parseUpstream_ok,
    requestWire_ok, parseUpstreamResponse_ok, fun token => ⟨_, maskToken_ok token⟩,
    verifyJwt_returns, ?_, ?_, ?_, ?_, ?_, ?_, ?_⟩
  · intro upstreamBase req forwardPath auth timeoutMs
    exact Fallible.neverFails_of_eq (forwardRequest_ok upstreamBase req forwardPath auth timeoutMs)
  · intro s maxBodyBytes cl body
    exact Fallible.neverFails_of_eq (readBody_ok s maxBodyBytes cl body)
  · intro s cfg req leftover
    exact Fallible.neverFails_of_eq (bodyPhase_ok s cfg req leftover)
  · intro s cfg req route
    exact Fallible.neverFails_of_eq (authorize_ok s cfg req route)
  · intro s clientIp cfg req
    exact Fallible.neverFails_of_eq (serve_ok s clientIp cfg req)
  · intro s clientIp cfg req leftover
    exact Fallible.neverFails_of_eq (handleAccepted_ok s clientIp cfg req leftover)
  · intro s clientIp cfg
    exact Fallible.neverFails_of_eq (handleClient_ok s clientIp cfg)

end Checked

end Gateway

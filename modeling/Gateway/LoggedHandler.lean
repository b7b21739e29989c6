import Mathlib
import Gateway.HandleClient
import Gateway.Library.Notes
import Gateway.Logger

/-! The pipeline of one connection with the calls of `gwLog` it makes (HandleClient.cpp). -/
namespace Gateway

open Program Search

/-- `maskToken` of SimpleFunctions.h. -/
def maskToken (token : Bytes) : Bytes :=
  if token = [] then ascii "<empty>"
  else token.take 6 ++ ascii "...<len=" ++ toDecimal token.length ++ ascii ">"

namespace Logged

abbrev LoggedIo (α : Type) := Noted Op Note Res α

/-- `gwLog` with the identity of the connection. -/
def log (level : LogLevel) (msg : Bytes) : LoggedIo Unit := Noted.note ⟨level, msg⟩

def closeSocket (s : Socket) : LoggedIo Unit := Noted.silent (Gateway.closeSocket s)

def reply (s : Socket) (r : HttpResponse) : LoggedIo Unit := do
  Noted.silent (invoke (.reply s r))
  if !(← Noted.silent (HandleClient.sendAll s (buildResponse r) 0)) then
    log .Debug (ascii "Send failed.")

def replyAndClose (s : Socket) (r : HttpResponse) : LoggedIo Unit := do
  reply s r
  closeSocket s

/-- Step 2; a body that outgrows the limit while it is read leaves no line. -/
def bodyPhase (s : Socket) (cfg : Config) (req : HttpRequest) (leftover : Bytes) :
    LoggedIo BodyPhase := do
  if req.header (ascii "transfer-encoding") ≠ [] then return .chunked
  let clOk := parseContentLength (req.header (ascii "content-length"))
  if req.header (ascii "content-length") ≠ [] ∧ clOk = none then return .badContentLength
  let cl := clOk.getD 0
  if cfg.maxBodyBytes < cl then
    log .Warn (ascii "Body too large: " ++ toDecimal cl)
    return .tooLarge
  match ← Noted.silent (readBody s cfg.maxBodyBytes cl leftover) with
  | .disconnected =>
    log .Debug (ascii "Client disconnected while reading body.")
    return .disconnected
  | .tooLarge => return .tooLarge
  | .done body => return .done { req with body }

/-- Step 6 for a configured upstream. -/
def proxyRequest (s : Socket) (cfg : Config) (req : HttpRequest) (route : RouteResult)
    (auth : AuthInfo) : LoggedIo Unit := do
  let pr ← Noted.silent
    (forwardRequest route.upstreamBase req route.forwardPath auth cfg.upstreamTimeoutMs)
  if !pr.ok then log .Warn (ascii "Upstream error: " ++ pr.error)
  else log .Info (ascii "Upstream " ++ route.area ++ ascii " -> " ++ toDecimal pr.status)
  replyAndClose s (relayResponse pr)

/-- Steps 5 and 6 for a request to an area. -/
def authorize (s : Socket) (cfg : Config) (req : HttpRequest) (route : RouteResult) :
    LoggedIo Unit := do
  let token := bearerFromHeader (req.header (ascii "authorization"))
  if token = [] ∨ 8192 < token.length then
    replyAndClose s (jsonError 401 (ascii "unauthorized") (ascii "Missing bearer token."))
  else
    let auth ← Noted.silent (perform (.verifyJwt token cfg.jwtSecret cfg.jwtIssuer))
    if !auth.ok then
      log .Warn (ascii "Auth failed: " ++ auth.error)
      replyAndClose s (jsonError 401 (ascii "unauthorized") auth.error)
    else
      log .Debug (ascii "Auth ok sub=" ++ (if auth.sub = [] then ascii "-" else auth.sub) ++
        ascii " token=" ++ maskToken token)
      if !hasScope auth route.area route.requiredScope then
        log .Warn (ascii "Forbidden: need " ++ route.requiredScope)
        replyAndClose s (jsonError 403 (ascii "forbidden")
          (ascii "Missing required scope: " ++ route.requiredScope))
      else if route.upstreamBase = [] then
        replyAndClose s (jsonError 502 (ascii "bad_gateway")
          (ascii "Upstream not configured: " ++ route.area))
      else proxyRequest s cfg req route auth

/-- Steps 3 to 6: limiter, route, authorization, upstream. -/
def serve (s : Socket) (clientIp : Bytes) (cfg : Config) (req : HttpRequest) : LoggedIo Unit := do
  log .Info (req.method ++ ascii " " ++ req.target)
  if !(← Noted.silent (perform (.allow clientIp))) then
    log .Warn (ascii "Rate limited: " ++ clientIp)
    replyAndClose s (jsonError 429 (ascii "rate_limited") (ascii "Too many requests, slow down."))
  else
    let route := matchRoute req.method req.target cfg
    match route.kind with
    | .kHealth => replyAndClose s (healthResponse cfg)
    | .kNotFound => replyAndClose s (jsonError 404 (ascii "not_found") (ascii "Unknown path."))
    | .kMethodNotAllowed =>
      replyAndClose s (jsonError 405 (ascii "method_not_allowed")
        (ascii "Use GET/POST/PUT/PATCH/DELETE."))
    | .kApi => authorize s cfg req route

/-- What is left of a connection when step 1 has accepted a request. -/
def handleAccepted (s : Socket) (clientIp : Bytes) (cfg : Config) (req : HttpRequest)
    (leftover : Bytes) : LoggedIo Unit := do
  match ← bodyPhase s cfg { req with clientIp } leftover with
  | .chunked =>
    replyAndClose s (jsonError 400 (ascii "bad_request")
      (ascii "Chunked transfer is not supported."))
  | .badContentLength =>
    replyAndClose s (jsonError 400 (ascii "bad_request") (ascii "Bad Content-Length."))
  | .tooLarge =>
    replyAndClose s (jsonError 413 (ascii "body_too_large")
      (ascii "Request body exceeds the limit."))
  | .disconnected => closeSocket s
  | .done req => serve s clientIp cfg req

def handleClient (s : Socket) (clientIp : Bytes) (cfg : Config) : LoggedIo Unit := do
  log .Info (ascii "New connection from " ++ clientIp)
  match ← Noted.silent (intake s) with
  | .disconnected =>
    log .Debug (ascii "Client disconnected while reading head.")
    closeSocket s
  | .tooLarge =>
    log .Warn (ascii "Header too large, closing.")
    replyAndClose s (jsonError 413 (ascii "headers_too_large") (ascii "Request head is too large."))
  | .malformed =>
    log .Warn (ascii "Malformed HTTP request.")
    replyAndClose s (jsonError 400 (ascii "bad_request") (ascii "Malformed HTTP request."))
  | .accepted req leftover => handleAccepted s clientIp cfg req leftover

/-- What a connection is served by: the whole of `handleClient`, or what is left of it once a
head has been parsed. -/
inductive ServesConnection (s : Socket) (clientIp : Bytes) (cfg : Config) : LoggedIo Unit → Prop
  | whole : ServesConnection s clientIp cfg (handleClient s clientIp cfg)
  | accepted {head : Bytes} {req : HttpRequest} (parsed : parseHttpRequest head = some req)
      (leftover : Bytes) :
      ServesConnection s clientIp cfg (handleAccepted s clientIp cfg req leftover)

variable {s : Socket} {clientIp leftover : Bytes} {cfg : Config} {req : HttpRequest}
  {route : RouteResult} {auth : AuthInfo} {α : Type}

@[simp] theorem erase_log (level : LogLevel) (msg : Bytes) : (log level msg).erase = .ret () := rfl

@[simp] theorem erase_closeSocket : (closeSocket s).erase = Gateway.closeSocket s := rfl

theorem erase_ite {p : Prop} [Decidable p] (t e : LoggedIo α) :
    (if p then t else e).erase = if p then t.erase else e.erase :=
  apply_ite Noted.erase p t e

@[simp] theorem erase_replyAndClose (r : HttpResponse) :
    (replyAndClose s r).erase = Gateway.replyAndClose s r := by
  simp only [replyAndClose, reply, Noted.erase_bind, Noted.erase_silent, erase_closeSocket,
    Gateway.replyAndClose, Gateway.reply]
  congr 1
  refine congrArg _ (funext fun _ => ?_)
  refine congrArg _ (funext fun sent => ?_)
  cases sent <;> rfl

@[simp] theorem erase_bodyPhase :
    (bodyPhase s cfg req leftover).erase = Gateway.bodyPhase s cfg req leftover := by
  rw [bodyPhase, Gateway.bodyPhase]
  simp only [erase_ite, Noted.erase_bind, Noted.erase_silent, erase_log, Prog.ret_bind]
  split
  · rfl
  · split
    · rfl
    · split
      · rfl
      · refine bind_congr fun read => ?_
        cases read <;> rfl

@[simp] theorem erase_proxyRequest :
    (proxyRequest s cfg req route auth).erase = Gateway.proxyRequest s cfg req route auth := by
  rw [proxyRequest, Gateway.proxyRequest, Noted.erase_bind, Noted.erase_silent]
  refine bind_congr fun pr => ?_
  cases pr.ok <;> simp

@[simp] theorem erase_authorize :
    (authorize s cfg req route).erase = Gateway.authorize s cfg req route := by
  rw [authorize, Gateway.authorize]
  simp only [erase_ite, Noted.erase_bind, Noted.erase_silent, erase_log, Prog.ret_bind,
    erase_replyAndClose, erase_proxyRequest]

@[simp] theorem erase_serve :
    (serve s clientIp cfg req).erase = Gateway.serve s clientIp cfg req := by
  rw [serve, Gateway.serve]
  simp only [erase_ite, Noted.erase_bind, Noted.erase_silent, erase_log, Prog.ret_bind,
    erase_replyAndClose]
  refine bind_congr fun allowed => ?_
  split
  · rfl
  · cases (matchRoute req.method req.target cfg).kind with
    | kApi => exact erase_authorize
    | _ => exact erase_replyAndClose _

@[simp] theorem erase_handleAccepted : (handleAccepted s clientIp cfg req leftover).erase =
    Gateway.handleAccepted s clientIp cfg req leftover := by
  rw [handleAccepted, Gateway.handleAccepted, Noted.erase_bind, erase_bodyPhase]
  refine bind_congr fun phase => ?_
  cases phase with
  | done req => exact erase_serve
  | disconnected => rfl
  | _ => exact erase_replyAndClose _

/-- The handler that logs is the handler. -/
theorem erase_handleClient :
    (handleClient s clientIp cfg).erase = Gateway.handleClient s clientIp cfg := by
  rw [handleClient, handleClient_eq, Noted.erase_bind, erase_log, Prog.ret_bind, Noted.erase_bind,
    Noted.erase_silent]
  refine bind_congr fun taken => ?_
  cases taken with
  | accepted req leftover => exact erase_handleAccepted
  | disconnected => rfl
  | tooLarge => simp
  | malformed => simp

/-- A request with neither framing header has no body. -/
theorem bodyPhase_unframed (hbody : 0 ≤ cfg.maxBodyBytes)
    (hencoding : req.header (ascii "transfer-encoding") = [])
    (hlength : req.header (ascii "content-length") = []) :
    bodyPhase s cfg req [] = .ret (.done { req with body := [] }) := by
  have hnone : (parseContentLength []).getD 0 = 0 := by decide
  have hcap : ¬ cfg.maxBodyBytes < ((0 : Nat) : Int) := by simpa using hbody
  have hread : readBody s cfg.maxBodyBytes 0 [] = .ret (.done []) := by
    rw [readBody]
    rfl
  unfold bodyPhase
  simp only [hencoding, hlength, hnone, hcap, hread, ne_eq, not_true_eq_false, false_and, if_false]
  rfl

/-- A request with a good token for an area it may use. -/
theorem serve_leads {token : Bytes}
    (hroute : matchRoute req.method req.target cfg = route) (hkind : route.kind = .kApi)
    (htoken : bearerFromHeader (req.header (ascii "authorization")) = token)
    (hlen : ¬ (token = [] ∨ 8192 < token.length)) (hok : auth.ok = true)
    (hscope : hasScope auth route.area route.requiredScope = true)
    (hup : route.upstreamBase ≠ []) :
    (serve s clientIp cfg req).Leads
      [⟨.inr ⟨.Info, req.method ++ ascii " " ++ req.target⟩, ()⟩, ⟨.inl (.allow clientIp), true⟩,
        ⟨.inl (.verifyJwt token cfg.jwtSecret cfg.jwtIssuer), auth⟩,
        ⟨.inr ⟨.Debug, ascii "Auth ok sub=" ++ (if auth.sub = [] then ascii "-" else auth.sub) ++
          ascii " token=" ++ maskToken token⟩, ()⟩]
      (proxyRequest s cfg req route auth) := by
  refine ⟨(), rfl, true, rfl, ?_⟩
  simp only [Noted.silent, Prog.bind, Bool.not_true, Bool.false_eq_true, if_false, hroute, hkind]
  subst htoken
  unfold authorize
  simp only [hlen, if_false]
  refine ⟨auth, rfl, ?_⟩
  simp only [Noted.silent, Prog.bind, hok, hscope, Bool.not_true, Bool.false_eq_true, if_false, hup]
  exact ⟨(), rfl, rfl⟩

end Logged

theorem bodyPhase_unframed (hbody : 0 ≤ cfg.maxBodyBytes)
    (hencoding : req.header (ascii "transfer-encoding") = [])
    (hlength : req.header (ascii "content-length") = []) :
    bodyPhase s cfg req [] = .ret (.done { req with body := [] }) := by
  rw [← Logged.erase_bodyPhase, Logged.bodyPhase_unframed hbody hencoding hlength]
  rfl

end Gateway

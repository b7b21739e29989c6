import Mathlib
import Gateway.Router
import Gateway.Proxy

/-! The pipeline of one connection (HandleClient.cpp). -/
namespace Gateway

open Program Search

/-- `sendAll` of HandleClient.cpp, from the byte count already sent. -/
def HandleClient.sendAll (s : Socket) (data : Bytes) (sent : Nat) : Io Bool :=
  if sent < data.length then
    let chunk := if 65536 < data.length - sent then 65536 else data.length - sent
    .call (.send s ((data.drop sent).take chunk) 0) fun n =>
      if n.value = -1 ∨ n.value = 0 then .ret false
      else HandleClient.sendAll s data (sent + n.value.toNat)
  else .ret true
termination_by data.length - sent
decreasing_by
  have := n.range
  omega

def reply (s : Socket) (r : HttpResponse) : Io Unit := do
  invoke (.reply s r)
  let _ ← HandleClient.sendAll s (buildResponse r) 0

/-- The digit loop of `parseContentLength`; `none` is `ok = false`. -/
def contentLengthLoop : Bytes → Nat → Option Nat
  | [], n => some n
  | c :: cs, n =>
    if c < 48 ∨ 57 < c then none
    else
      let n := n * 10 + (c.toNat - 48)
      if 64 * 1024 * 1024 < n then none else contentLengthLoop cs n

def parseContentLength (v : Bytes) : Option Nat :=
  if v = [] ∨ 10 < v.length then none else contentLengthLoop v 0

def bearerFromHeader (authHeader : Bytes) : Bytes :=
  if ¬ ascii "Bearer " <+: authHeader then [] else trimStr (authHeader.drop 7)

/-- How the reading of the head ends. -/
inductive HeadRead where
  | disconnected
  | tooLarge
  | done (head : Bytes)
  deriving DecidableEq

/-- Step 1, the receive loop of the request head. -/
def readHead (s : Socket) (head : Bytes) : Io HeadRead :=
  if head.length < kMaxHeaderBytes then
    .call (.recv s 4096) fun n =>
      match n with
      | .closed => .ret .disconnected
      | .error _ => .ret .disconnected
      | .data bytes _ _ =>
        if (find? crlfcrlf (head ++ bytes)).isSome then .ret (.done (head ++ bytes))
        else readHead s (head ++ bytes)
  else .ret .tooLarge
termination_by kMaxHeaderBytes - head.length
decreasing_by
  rw [List.length_append]
  omega

/-- How step 1 ends. -/
inductive Intake where
  | disconnected
  | tooLarge
  | malformed
  | accepted (req : HttpRequest) (leftover : Bytes)
  deriving DecidableEq

/-- Cuts the head buffer at its first empty line and parses the first part. -/
def cutAndParse (head : Bytes) : Intake :=
  match cut crlfcrlf head with
  | none => .tooLarge
  | some (headPart, leftover) =>
    match parseHttpRequest headPart with
    | none => .malformed
    | some req => .accepted req leftover

def intake (s : Socket) : Io Intake := do
  match ← readHead s [] with
  | .disconnected => return .disconnected
  | .tooLarge => return .tooLarge
  | .done head => return cutAndParse head

/-- How the reading of the body ends. -/
inductive BodyRead where
  | disconnected
  | tooLarge
  | done (body : Bytes)
  deriving DecidableEq

/-- The receive loop of the request body. -/
def readBody (s : Socket) (maxBodyBytes : Int) (cl : Nat) (body : Bytes) : Io BodyRead :=
  if body.length < cl then
    .call (.recv s 4096) fun n =>
      match n with
      | .closed => .ret .disconnected
      | .error _ => .ret .disconnected
      | .data bytes _ _ =>
        if maxBodyBytes < (body ++ bytes).length then .ret .tooLarge
        else readBody s maxBodyBytes cl (body ++ bytes)
  else .ret (.done (body.take cl))
termination_by cl - body.length
decreasing_by
  rw [List.length_append]
  omega

/-- How step 2 ends. -/
inductive BodyPhase where
  | chunked
  | badContentLength
  | tooLarge
  | disconnected
  | done (req : HttpRequest)
  deriving DecidableEq

/-- Step 2: the framing headers, then the body. -/
def bodyPhase (s : Socket) (cfg : Config) (req : HttpRequest) (leftover : Bytes) :
    Io BodyPhase := do
  if req.header (ascii "transfer-encoding") ≠ [] then return .chunked
  let clOk := parseContentLength (req.header (ascii "content-length"))
  if req.header (ascii "content-length") ≠ [] ∧ clOk = none then return .badContentLength
  let cl := clOk.getD 0
  if cfg.maxBodyBytes < cl then return .tooLarge
  match ← readBody s cfg.maxBodyBytes cl leftover with
  | .disconnected => return .disconnected
  | .tooLarge => return .tooLarge
  | .done body => return .done { req with body }

/-- The body of the health response. -/
def healthBody (cfg : Config) : Bytes :=
  ascii "\x7b\"status\":\"ok\",\"version\":\"" ++ kGatewayVersion ++
    ascii "\",\"upstreams\":\x7b" ++
    (ascii ",").intercalate (apiAreas.map fun area =>
      ascii "\"" ++ area ++ ascii "\":\"" ++ cfg.upstreamFor area ++ ascii "\"") ++
    ascii "\x7d\x7d"

def healthResponse (cfg : Config) : HttpResponse where
  status := 200
  headers := (∅ : HeaderMap).insert (ascii "content-type") (ascii "application/json")
  body := healthBody cfg

/-- The response that step 6 sends for the result of `forwardRequest`. -/
def relayResponse (pr : ProxyResult) : HttpResponse :=
  if pr.ok then
    { status := pr.status
      headers := (∅ : HeaderMap).insert (ascii "content-type") pr.contentType
      body := pr.body }
  else if pr.timedOut then
    jsonError 504 (ascii "upstream_timeout") (ascii "Upstream module timed out.")
  else jsonError 502 (ascii "bad_gateway") (ascii "Upstream error: " ++ pr.error)

/-- A reply followed by the end of the connection. -/
def replyAndClose (s : Socket) (r : HttpResponse) : Io Unit := do
  reply s r
  closeSocket s

/-- Step 6 for a configured upstream. -/
def proxyRequest (s : Socket) (cfg : Config) (req : HttpRequest) (route : RouteResult)
    (auth : AuthInfo) : Io Unit := do
  let pr ← forwardRequest route.upstreamBase req route.forwardPath auth cfg.upstreamTimeoutMs
  replyAndClose s (relayResponse pr)

/-- Steps 5 and 6 for a request to an area. -/
def authorize (s : Socket) (cfg : Config) (req : HttpRequest) (route : RouteResult) :
    Io Unit := do
  let token := bearerFromHeader (req.header (ascii "authorization"))
  if token = [] ∨ 8192 < token.length then
    replyAndClose s (jsonError 401 (ascii "unauthorized") (ascii "Missing bearer token."))
  else
    let auth ← perform (.verifyJwt token cfg.jwtSecret cfg.jwtIssuer)
    if !auth.ok then replyAndClose s (jsonError 401 (ascii "unauthorized") auth.error)
    else if !hasScope auth route.area route.requiredScope then
      replyAndClose s (jsonError 403 (ascii "forbidden")
        (ascii "Missing required scope: " ++ route.requiredScope))
    else if route.upstreamBase = [] then
      replyAndClose s (jsonError 502 (ascii "bad_gateway")
        (ascii "Upstream not configured: " ++ route.area))
    else proxyRequest s cfg req route auth

/-- Steps 3 to 6: limiter, route, authorization, upstream. -/
def serve (s : Socket) (clientIp : Bytes) (cfg : Config) (req : HttpRequest) : Io Unit := do
  if !(← perform (.allow clientIp)) then
    replyAndClose s (jsonError 429 (ascii "rate_limited") (ascii "Too many requests, slow down."))
  else
    let route := matchRoute req.method req.target cfg
    match route.kind with
    | .kHealth => replyAndClose s (healthResponse cfg)
    | .kNotFound => replyAndClose s (jsonError 404 (ascii "not_found") (ascii "Unknown path."))
    | .kMethodNotAllowed =>
      replyAndClose s (jsonError 405 (ascii "method_not_allowed")
        (ascii "Use GET/POST/PUT/PATCH/DELETE."))
    | .kApi => authorize s cfg req route

def handleClient (s : Socket) (clientIp : Bytes) (cfg : Config) : Io Unit := do
  match ← intake s with
  | .disconnected => closeSocket s
  | .tooLarge =>
    replyAndClose s (jsonError 413 (ascii "headers_too_large") (ascii "Request head is too large."))
  | .malformed =>
    replyAndClose s (jsonError 400 (ascii "bad_request") (ascii "Malformed HTTP request."))
  | .accepted req leftover =>
    match ← bodyPhase s cfg { req with clientIp } leftover with
    | .chunked =>
      replyAndClose s (jsonError 400 (ascii "bad_request")
        (ascii "Chunked transfer is not supported."))
    | .badContentLength =>
      replyAndClose s (jsonError 400 (ascii "bad_request") (ascii "Bad Content-Length."))
    | .tooLarge =>
      replyAndClose s (jsonError 413 (ascii "body_too_large")
        (ascii "Request body exceeds the limit."))
    | .disconnected => closeSocket s
    | .done req => serve s clientIp cfg req

/-- What is left of a connection when step 1 has accepted a request. -/
def handleAccepted (s : Socket) (clientIp : Bytes) (cfg : Config) (req : HttpRequest)
    (leftover : Bytes) : Io Unit := do
  match ← bodyPhase s cfg { req with clientIp } leftover with
  | .chunked =>
    replyAndClose s (jsonError 400 (ascii "bad_request")
      (ascii "Chunked transfer is not supported."))
  | .badContentLength =>
    replyAndClose s (jsonError 400 (ascii "bad_request") (ascii "Bad Content-Length."))
  | .tooLarge =>
    replyAndClose s (jsonError 413 (ascii "body_too_large")
      (ascii "Request body exceeds the limit."))
  | .disconnected => closeSocket s
  | .done req => serve s clientIp cfg req

theorem handleClient_eq (s : Socket) (clientIp : Bytes) (cfg : Config) :
    handleClient s clientIp cfg = (do
      match ← intake s with
      | .disconnected => closeSocket s
      | .tooLarge =>
        replyAndClose s
          (jsonError 413 (ascii "headers_too_large") (ascii "Request head is too large."))
      | .malformed =>
        replyAndClose s (jsonError 400 (ascii "bad_request") (ascii "Malformed HTTP request."))
      | .accepted req leftover => handleAccepted s clientIp cfg req leftover) := rfl

/-- A connection from its first byte on, or from the end of step 1. -/
inductive ServesConnection (s : Socket) (clientIp : Bytes) (cfg : Config) : Io Unit → Prop
  | whole : ServesConnection s clientIp cfg (handleClient s clientIp cfg)
  | accepted (req : HttpRequest) (leftover : Bytes) :
      ServesConnection s clientIp cfg (handleAccepted s clientIp cfg req leftover)

/-- A handler begins with a read, and ends the connection when the client has. -/
theorem handleClient_closed (cs : Socket) (ip : Bytes) (cfg : Config) :
    ∃ next : RecvResult 4096 → Io Unit, handleClient cs ip cfg = .call (.recv cs 4096) next ∧
      next .closed = .call (.closeSocket cs) .ret := by
  unfold handleClient intake
  rw [readHead, if_pos (by decide)]
  exact ⟨_, rfl, rfl⟩

end Gateway

import Mathlib
import Gateway.Config
import Gateway.Sockets

/-! The forward proxy to the upstream modules (Proxy.h, Proxy.cpp). -/
namespace Gateway

open Program Search

structure ProxyResult where
  ok : Bool := false
  status : Nat := 502
  contentType : Bytes := []
  body : Bytes := []
  error : Bytes := []
  timedOut : Bool := false
  deriving DecidableEq

def sanitizeHeaderValue (v : Bytes) : Bytes := v.map fun c => if c = CR ∨ c = LF then 32 else c

def joinCsv : List Bytes → Bytes
  | [] => []
  | [v] => sanitizeHeaderValue v
  | v :: vs => sanitizeHeaderValue v ++ 44 :: joinCsv vs

structure UpstreamAddr where
  host : Bytes
  port : Int
  pathPrefix : Bytes
  deriving DecidableEq

/-- Position of the last occurrence, as `std::string::rfind`. -/
def rfind? (c : UInt8) (s : Bytes) : Option Nat :=
  (s.reverse.idxOf? c).map (s.length - 1 - ·)

/-- Drops trailing slashes, except a slash in the first place. -/
def trimSlashes : Bytes → Bytes
  | [] => []
  | c :: cs => c :: cs.rdropWhile (· == 47)

def parseHostPort (hostport : Bytes) : Except Bytes (Bytes × Int) :=
  match rfind? 58 hostport with
  | none => .ok (hostport, 80)
  | some colon =>
    match stoi (hostport.drop (colon + 1)) with
    | none => .error (ascii "bad port")
    | some port =>
      if port ≤ 0 ∨ 65535 < port then .error (ascii "bad port")
      else .ok (hostport.take colon, port)

def parseUpstream (base : Bytes) : Except Bytes UpstreamAddr :=
  if ¬ ascii "http://" <+: base then .error (ascii "unsupported scheme (want http://)")
  else
    let rest := base.drop 7
    let (hostport, pathPrefix) := match find? (ascii "/") rest with
      | none => (rest, [])
      | some slash => (rest.take slash, rest.drop slash)
    match parseHostPort hostport with
    | .error e => .error e
    | .ok (host, port) =>
      if host = [] then .error (ascii "empty host")
      else .ok { host, port, pathPrefix := trimSlashes pathPrefix }

/-- Returns the success of the connection and the new value of `timedOut`. -/
def connectWithTimeout (s : Socket) (ai : AddrInfo) (timeoutMs : Int) : Io (Bool × Bool) := do
  match ← perform (.getFl s) with
  | none => return (false, false)
  | some flags =>
    if !(← perform (.setFl s (flags ||| O_NONBLOCK))) then return (false, false)
    match ← perform (.connect s ai) with
    | .done =>
      let _ ← perform (.setFl s flags)
      return (true, false)
    | .error e =>
      if e ≠ .EINPROGRESS then return (false, false)
      match ← perform (.select s timeoutMs) with
      | .timeout => return (false, true)
      | .error => return (false, false)
      | .ready =>
        if (← perform (.getSoError s)) ≠ some 0 then return (false, false)
        let _ ← perform (.setFl s flags)
        return (true, false)

/-- The address loop of `forwardRequest`: the connected socket, if any, and `timedOut`. -/
def connectAny (timeoutMs : Int) : List AddrInfo → Bool → Io (Option Socket × Bool)
  | [], timedOut => return (none, timedOut)
  | ai :: rest, timedOut => do
    match ← perform (.socket ai) with
    | none => connectAny timeoutMs rest timedOut
    | some s =>
      let (connected, timedOut) ← connectWithTimeout s ai timeoutMs
      if connected then return (some s, timedOut)
      closeSocket s
      if timedOut then return (none, timedOut)
      connectAny timeoutMs rest timedOut

/-- `sendAll` of Proxy.cpp, from the byte count already sent. -/
def Proxy.sendAll (s : Socket) (data : Bytes) (sent : Nat) : Io Bool :=
  if sent < data.length then
    let chunk := if 65536 < data.length - sent then 65536 else data.length - sent
    .call (.send s ((data.drop sent).take chunk) 0) fun n =>
      if n.value ≤ 0 then .ret false else Proxy.sendAll s data (sent + n.value.toNat)
  else .ret true
termination_by data.length - sent
decreasing_by
  have := n.range
  omega

/-- The receive loop: the bytes read and `recvFail`. -/
def recvUpstream (s : Socket) (raw : Bytes) : Io (Bytes × Bool) :=
  if raw.length < kMaxUpstreamBytes then
    .call (.recv s 8192) fun n =>
      match n with
      | .closed => .ret (raw, false)
      | .error _ => .ret (raw, true)
      | .data bytes _ _ => recvUpstream s (raw ++ bytes)
  else .ret (raw, false)
termination_by kMaxUpstreamBytes - raw.length
decreasing_by
  rw [List.length_append]
  omega

/-- The path of the upstream request line. -/
def upstreamPath (up : UpstreamAddr) (forwardPath : Bytes) : Bytes :=
  let path := up.pathPrefix ++ forwardPath
  if path.head? = some 47 then path else 47 :: path

/-- The bytes of the upstream request. -/
def requestWire (up : UpstreamAddr) (req : HttpRequest) (forwardPath : Bytes)
    (auth : AuthInfo) : Bytes :=
  req.method ++ ascii " " ++ upstreamPath up forwardPath ++ ascii " HTTP/1.1" ++ crlf ++
    ascii "host: " ++ sanitizeHeaderValue up.host ++ crlf ++
    (if req.header (ascii "content-type") = [] then []
      else ascii "content-type: " ++ sanitizeHeaderValue (req.header (ascii "content-type")) ++
        crlf) ++
    ascii "content-length: " ++ toDecimal req.body.length ++ crlf ++
    ascii "x-forwarded-for: " ++ sanitizeHeaderValue req.clientIp ++ crlf ++
    (if auth.sub = [] then []
      else ascii "x-auth-sub: " ++ sanitizeHeaderValue auth.sub ++ crlf) ++
    (if auth.roles = [] then [] else ascii "x-auth-roles: " ++ joinCsv auth.roles ++ crlf) ++
    (if auth.permissions = [] then []
      else ascii "x-auth-scopes: " ++ joinCsv auth.permissions ++ crlf) ++
    ascii "connection: close" ++ crlfcrlf ++ req.body

/-- The status code of a status line, 0 when there is none. -/
def statusCode (statusLine : Bytes) : Int :=
  match find? (ascii " ") statusLine with
  | none => 0
  | some sp1 =>
    let rest := statusLine.drop (sp1 + 1)
    let codeStr := match find? (ascii " ") rest with
      | none => rest
      | some len => rest.take len
    (stoi codeStr).getD 0

/-- The trimmed value of the first header line named content-type, or nothing. -/
def upstreamContentType (head : Bytes) : Bytes :=
  let key := crlf ++ ascii "content-type:"
  match find? key (toLower head) with
  | none => []
  | some pos =>
    let vs := pos + key.length
    match findCrlf (toLower head) vs with
    | none => trimStr (head.drop vs)
    | some ve => trimStr ((head.drop vs).take (ve - vs))

/-- The part of `forwardRequest` after the upstream socket is closed. -/
def parseUpstreamResponse (raw : Bytes) : ProxyResult :=
  match find? crlfcrlf raw with
  | none => { error := ascii "bad upstream response" }
  | some eoh =>
    let head := raw.take eoh
    let statusLine := match find? crlf head with
      | none => head
      | some eol => head.take eol
    let code := statusCode statusLine
    if code < 100 ∨ 599 < code then { error := ascii "bad upstream status" }
    else
      let upType := upstreamContentType head
      { ok := true
        status := code.toNat
        contentType := if upType = [] then ascii "application/octet-stream" else upType
        body := raw.drop (eoh + 4) }

/-- `forwardRequest` from the connected socket on. -/
def exchange (s : Socket) (wire : Bytes) (timeoutMs : Int) : Io ProxyResult := do
  let _ ← perform (.setTimeout s .SO_RCVTIMEO timeoutMs)
  let _ ← perform (.setTimeout s .SO_SNDTIMEO timeoutMs)
  let sentOk ← Proxy.sendAll s wire 0
  let (raw, recvFail) ← if sentOk then recvUpstream s [] else pure ([], false)
  closeSocket s
  if kMaxUpstreamBytes ≤ raw.length then return { error := ascii "upstream response too large" }
  if !sentOk || recvFail || raw.isEmpty then return { error := ascii "upstream io failed" }
  return parseUpstreamResponse raw

def forwardRequest (upstreamBase : Bytes) (req : HttpRequest) (forwardPath : Bytes)
    (auth : AuthInfo) (timeoutMs : Int) : Io ProxyResult := do
  invoke (.forwardRequest upstreamBase req forwardPath auth)
  match parseUpstream upstreamBase with
  | .error e => return { error := ascii "bad upstream url: " ++ e }
  | .ok up =>
    let resolved ← perform (.getaddrinfo up.host (toDecimal up.port.toNat))
    if resolved.rc ≠ 0 ∨ resolved.list = [] then
      if resolved.list ≠ [] then perform (.freeaddrinfo resolved.list)
      return { error := ascii "dns resolve failed" }
    let (connected, timedOut) ← connectAny timeoutMs resolved.list false
    perform (.freeaddrinfo resolved.list)
    match connected with
    | none =>
      return { error := ascii (if timedOut then "connect timeout" else "connect failed"), timedOut }
    | some s => exchange s (requestWire up req forwardPath auth) timeoutMs

end Gateway

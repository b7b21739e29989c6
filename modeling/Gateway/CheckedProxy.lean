import Mathlib
import Gateway.CheckedParsers
import Gateway.Library.Fallible

/-! The proxy with the position of every string operation checked. -/
namespace Gateway

namespace Checked

open Program Search Positions

/-- `std::stoi`, which throws. -/
def stoi (s : Bytes) : Except Fault Int :=
  match Gateway.stoi s with
  | some n => .ok n
  | none => .error .number

/-- The loop that trims the slashes of the prefix. -/
def trimSlashes (s : Bytes) : Except Fault Bytes :=
  if 1 < s.length then do
    if (← back s) ≠ 47 then return s
    match _h : popBack s with
    | .error e => .error e
    | .ok t => trimSlashes t
  else return s
termination_by s.length
decreasing_by exact popBack_length _h

def parseHostPort (hostport : Bytes) : Except Fault (Except Bytes (Bytes × Int)) := do
  match rfind? 58 hostport with
  | none => return .ok (hostport, 80)
  | some colon =>
    let host ← substr hostport 0 (some colon)
    let port ← catching (do return some (← stoi (← substr hostport (colon + 1) none)))
      (return none)
    match port with
    | none => return .error (ascii "bad port")
    | some port =>
      if port ≤ 0 ∨ 65535 < port then return .error (ascii "bad port")
      return .ok (host, port)

def parseUpstream (base : Bytes) : Except Fault (Except Bytes UpstreamAddr) := do
  if (← substr base 0 (some 7)) ≠ ascii "http://" then
    return .error (ascii "unsupported scheme (want http://)")
  let rest ← substr base 7 none
  let slash := find? (ascii "/") rest
  let hostport ← before rest slash
  let pathPrefix ← trimSlashes (← onward rest [] slash)
  match ← parseHostPort hostport with
  | .error e => return .error e
  | .ok (host, port) =>
    if host = [] then return .error (ascii "empty host")
    return .ok { host, port, pathPrefix }

/-- The code of a status line, 0 where it has none. -/
def statusCode (statusLine : Bytes) : Except Fault Int := do
  match find? (ascii " ") statusLine with
  | none => return 0
  | some sp1 =>
    let n ← match (find? (ascii " ") (statusLine.drop (sp1 + 1))).map (sp1 + 1 + ·) with
      | none => pure none
      | some sp2 => do pure (some (← minus (← minus sp2 sp1) 1))
    let codeStr ← substr statusLine (sp1 + 1) n
    catching (stoi codeStr) (return 0)

/-- The value of the content type, cut out of `head` at positions found in `lower`. -/
def upstreamContentType (head : Bytes) : Except Fault Bytes := do
  let lower := toLower head
  let key := crlf ++ ascii "content-type:"
  match find? key lower with
  | none => return []
  | some pos =>
    let vs := pos + key.length
    let n ← match findCrlf lower vs with
      | none => pure none
      | some ve => do pure (some (← minus ve vs))
    trimFound (← substr head vs n)

def parseUpstreamResponse (raw : Bytes) : Except Fault ProxyResult := do
  match find? crlfcrlf raw with
  | none => return { error := ascii "bad upstream response" }
  | some eoh =>
    let head ← substr raw 0 (some eoh)
    let statusLine ← before head (find? crlf head)
    let code ← statusCode statusLine
    if code < 100 ∨ 599 < code then return { error := ascii "bad upstream status" }
    let upType ← upstreamContentType head
    let body ← substr raw (eoh + 4) none
    return {
      ok := true
      status := code.toNat
      contentType := if upType = [] then ascii "application/octet-stream" else upType
      body := body }

def upstreamPath (up : UpstreamAddr) (forwardPath : Bytes) : Except Fault Bytes := do
  let path := up.pathPrefix ++ forwardPath
  if path = [] then return 47 :: path
  if (← itemAt path 0) ≠ 47 then return 47 :: path
  return path

/-- The loop of `joinCsv` over the indices of `v`. -/
def joinCsv (v : List Bytes) (i : Nat) (o : Bytes) : Except Fault Bytes :=
  if i < v.length then do
    let o := if i = 0 then o else o ++ [44]
    joinCsv v (i + 1) (o ++ sanitizeHeaderValue (← itemAt v i))
  else return o
termination_by v.length - i

def requestWire (up : UpstreamAddr) (req : HttpRequest) (forwardPath : Bytes)
    (auth : AuthInfo) : Except Fault Bytes := do
  let path ← upstreamPath up forwardPath
  let roles ← joinCsv auth.roles 0 []
  let scopes ← joinCsv auth.permissions 0 []
  return req.method ++ ascii " " ++ path ++ ascii " HTTP/1.1" ++ crlf ++
    ascii "host: " ++ sanitizeHeaderValue up.host ++ crlf ++
    (if req.header (ascii "content-type") = [] then []
      else ascii "content-type: " ++ sanitizeHeaderValue (req.header (ascii "content-type")) ++
        crlf) ++
    ascii "content-length: " ++ toDecimal req.body.length ++ crlf ++
    ascii "x-forwarded-for: " ++ sanitizeHeaderValue req.clientIp ++ crlf ++
    (if auth.sub = [] then []
      else ascii "x-auth-sub: " ++ sanitizeHeaderValue auth.sub ++ crlf) ++
    (if auth.roles = [] then [] else ascii "x-auth-roles: " ++ roles ++ crlf) ++
    (if auth.permissions = [] then [] else ascii "x-auth-scopes: " ++ scopes ++ crlf) ++
    ascii "connection: close" ++ crlfcrlf ++ req.body

/-- A handler whose string operations may fail. -/
abbrev FallibleIo (α : Type) := Fallible Fault Op Res α

/-- `forwardRequest` from the connected socket on. -/
def exchange (s : Socket) (up : UpstreamAddr) (req : HttpRequest) (forwardPath : Bytes)
    (auth : AuthInfo) (timeoutMs : Int) : FallibleIo ProxyResult := do
  let _ ← perform (.setTimeout s .SO_RCVTIMEO timeoutMs)
  let _ ← perform (.setTimeout s .SO_SNDTIMEO timeoutMs)
  let wire ← requestWire up req forwardPath auth
  let sentOk ← Proxy.sendAll s wire 0
  let (raw, recvFail) ← if sentOk then recvUpstream s [] else pure ([], false)
  closeSocket s
  if kMaxUpstreamBytes ≤ raw.length then return { error := ascii "upstream response too large" }
  if !sentOk || recvFail || raw.isEmpty then return { error := ascii "upstream io failed" }
  parseUpstreamResponse raw

def forwardRequest (upstreamBase : Bytes) (req : HttpRequest) (forwardPath : Bytes)
    (auth : AuthInfo) (timeoutMs : Int) : FallibleIo ProxyResult := do
  invoke (.forwardRequest upstreamBase req forwardPath auth)
  match ← parseUpstream upstreamBase with
  | .error e => return { error := ascii "bad upstream url: " ++ e }
  | .ok up =>
    let resolved ← perform (.getaddrinfo up.host (toDecimal up.port.toNat))
    if resolved.rc ≠ 0 ∨ resolved.list = [] then
      if resolved.list ≠ [] then perform (.freeaddrinfo resolved.list)
      return { error := ascii "dns resolve failed" }
    let (connected, timedOut) ← connectAny timeoutMs resolved.list false
    perform (.freeaddrinfo resolved.list)
    match connected with
    | none =>
      return { error := ascii (if timedOut then "connect timeout" else "connect failed"), timedOut }
    | some s => exchange s up req forwardPath auth timeoutMs

theorem trimSlashes_ok (s : Bytes) : trimSlashes s = .ok (Gateway.trimSlashes s) := by
  induction s using List.reverseRecOn with
  | nil => rw [trimSlashes]; rfl
  | append_singleton s c ih =>
    rw [trimSlashes]
    cases s with
    | nil => rfl
    | cons d ds =>
      have hlong : 1 < (d :: ds ++ [c]).length := by simp
      rw [if_pos hlong, back_concat, ok_bind, List.cons_append, Gateway.trimSlashes]
      by_cases hc : c = 47
      · have hslash : (c == 47) = true := beq_iff_eq.mpr hc
        rw [if_neg (not_not_intro hc), List.rdropWhile_concat_pos (· == 47) ds c hslash]
        split
        · rename_i e h
          rw [← List.cons_append, popBack_concat] at h
          cases h
        · rename_i t h
          rw [← List.cons_append, popBack_concat] at h
          cases h
          exact ih
      · have hslash : ¬ (c == 47) = true := mt beq_iff_eq.mp hc
        rw [if_pos hc, List.rdropWhile_concat_neg (· == 47) ds c hslash]
        rfl

theorem rfind?_lt {c : UInt8} {s : Bytes} {i : Nat} (h : rfind? c s = some i) : i < s.length := by
  obtain ⟨j, hj, rfl⟩ := Option.map_eq_some_iff.mp h
  obtain ⟨hlt, -⟩ := List.idxOf?_eq_some_iff.mp hj
  rw [List.length_reverse] at hlt
  omega

theorem parseHostPort_ok (hostport : Bytes) :
    parseHostPort hostport = .ok (Gateway.parseHostPort hostport) := by
  rw [parseHostPort, Gateway.parseHostPort]
  cases hcolon : rfind? 58 hostport with
  | none => rfl
  | some colon =>
    have hafter : colon + 1 ≤ hostport.length := rfind?_lt hcolon
    dsimp only
    rw [substr_zero, ok_bind, substr_rest_ok hafter, ok_bind, stoi]
    cases Gateway.stoi (hostport.drop (colon + 1)) with
    | none => rfl
    | some port =>
      dsimp only
      rw [ok_bind, pure_eq_ok, catching_ok, ok_bind]
      dsimp only
      split <;> rfl

theorem parseUpstream_ok (base : Bytes) :
    parseUpstream base = .ok (Gateway.parseUpstream base) := by
  have hcompare := take_ne_iff (s := base) (w := ascii "http://") (n := 7) (by decide)
  rw [parseUpstream, Gateway.parseUpstream, substr_zero, ok_bind]
  simp only [hcompare]
  split
  · rfl
  · rename_i hscheme
    have hlen : 7 ≤ base.length := (not_not.mp hscheme).length_le
    -- what follows the search for the slash
    have htail : ∀ hostport pathPrefix, (do
        let pathPrefix ← trimSlashes pathPrefix
        match ← parseHostPort hostport with
        | .error e => return .error e
        | .ok (host, port) =>
          if host = [] then return .error (ascii "empty host")
          return .ok { host, port, pathPrefix }) =
        (.ok (match Gateway.parseHostPort hostport with
          | .error e => .error e
          | .ok (host, port) =>
            if host = [] then .error (ascii "empty host")
            else .ok { host, port, pathPrefix := Gateway.trimSlashes pathPrefix }) :
          Except Fault (Except Bytes UpstreamAddr)) := by
      intro hostport pathPrefix
      rw [trimSlashes_ok, ok_bind, parseHostPort_ok, ok_bind]
      cases Gateway.parseHostPort hostport with
      | error e => rfl
      | ok hp =>
        obtain ⟨host, port⟩ := hp
        dsimp only
        split <;> rfl
    rw [substr_rest_ok hlen, ok_bind]
    cases hslash : find? (ascii "/") (base.drop 7) with
    | none => exact htail (base.drop 7) []
    | some slash =>
      rw [before_ok, ok_bind, onward_ok (Nat.le_of_succ_le (find?_some_le hslash)), ok_bind]
      exact htail _ _

theorem catching_stoi (s : Bytes) :
    catching (stoi s) (return 0) = .ok ((Gateway.stoi s).getD 0) := by
  rw [stoi]
  cases Gateway.stoi s with
  | none => rfl
  | some n => rfl

theorem statusCode_ok (statusLine : Bytes) :
    statusCode statusLine = .ok (Gateway.statusCode statusLine) := by
  rw [statusCode, Gateway.statusCode]
  cases hsp1 : find? (ascii " ") statusLine with
  | none => rfl
  | some sp1 =>
    have hafter : sp1 + 1 ≤ statusLine.length := find?_some_le hsp1
    dsimp only
    cases find? (ascii " ") (statusLine.drop (sp1 + 1)) with
    | none =>
      rw [Option.map_none, pure_eq_ok, ok_bind, substr_rest_ok hafter, ok_bind, catching_stoi]
    | some len =>
      have hlen : minus (sp1 + 1 + len) sp1 = .ok (len + 1) := by
        rw [minus_ok (by omega)]
        congr 1
        omega
      have hcut : minus (len + 1) 1 = .ok len := minus_ok (Nat.succ_pos len)
      rw [Option.map_some]
      dsimp only
      rw [hlen, ok_bind, hcut, ok_bind, pure_eq_ok, ok_bind, substr_ok hafter, ok_bind,
        catching_stoi]

theorem length_toLower (s : Bytes) : (toLower s).length = s.length := List.length_map _

theorem upstreamContentType_ok (head : Bytes) :
    upstreamContentType head = .ok (Gateway.upstreamContentType head) := by
  rw [upstreamContentType, Gateway.upstreamContentType]
  dsimp only
  cases hkey : find? (crlf ++ ascii "content-type:") (toLower head) with
  | none => rfl
  | some pos =>
    have hvs := find?_some_le hkey
    rw [length_toLower] at hvs
    dsimp only
    generalize pos + (crlf ++ ascii "content-type:").length = vs at hvs
    cases hve : findCrlf (toLower head) vs with
    | none =>
      rw [pure_eq_ok, ok_bind, substr_rest_ok hvs, ok_bind, trimFound_ok]
    | some ve =>
      dsimp only
      rw [minus_ok (findCrlf_bounds hve).1, ok_bind, pure_eq_ok, ok_bind, substr_ok hvs, ok_bind,
        trimFound_ok]

theorem parseUpstreamResponse_ok (raw : Bytes) :
    parseUpstreamResponse raw = .ok (Gateway.parseUpstreamResponse raw) := by
  rw [parseUpstreamResponse, Gateway.parseUpstreamResponse]
  cases heoh : find? crlfcrlf raw with
  | none => rfl
  | some eoh =>
    have hafter : eoh + 4 ≤ raw.length := find?_some_le heoh
    dsimp only
    -- what follows the search for the end of the status line
    have htail : ∀ statusLine, (do
        let code ← statusCode statusLine
        if code < 100 ∨ 599 < code then return { error := ascii "bad upstream status" }
        let upType ← upstreamContentType (raw.take eoh)
        let body ← substr raw (eoh + 4) none
        return {
          ok := true
          status := code.toNat
          contentType := if upType = [] then ascii "application/octet-stream" else upType
          body := body }) =
        (.ok (if Gateway.statusCode statusLine < 100 ∨ 599 < Gateway.statusCode statusLine then
            { error := ascii "bad upstream status" }
          else
            { ok := true
              status := (Gateway.statusCode statusLine).toNat
              contentType := if Gateway.upstreamContentType (raw.take eoh) = [] then
                  ascii "application/octet-stream"
                else Gateway.upstreamContentType (raw.take eoh)
              body := raw.drop (eoh + 4) }) : Except Fault ProxyResult) := by
      intro statusLine
      rw [statusCode_ok, ok_bind, upstreamContentType_ok, ok_bind, substr_rest_ok hafter, ok_bind]
      split <;> rfl
    rw [substr_zero, ok_bind]
    cases find? crlf (raw.take eoh) with
    | none => exact htail (raw.take eoh)
    | some eol =>
      rw [before_ok, ok_bind]
      exact htail _

theorem upstreamPath_ok (up : UpstreamAddr) (forwardPath : Bytes) :
    upstreamPath up forwardPath = .ok (Gateway.upstreamPath up forwardPath) := by
  rw [upstreamPath, Gateway.upstreamPath]
  cases up.pathPrefix ++ forwardPath with
  | nil => rfl
  | cons c cs =>
    have hfirst : itemAt (c :: cs) 0 = .ok c := rfl
    rw [if_neg (List.cons_ne_nil c cs), hfirst, ok_bind, List.head?_cons]
    by_cases hc : c = 47
    · rw [if_neg (not_not_intro hc), if_pos (congrArg some hc)]
      rfl
    · rw [if_pos hc, if_neg (by simpa using hc)]
      rfl

/-- The loop of `joinCsv` behind the first value. -/
theorem joinCsv_rest {v : List Bytes} {i : Nat} (hi : 0 < i) (o : Bytes) :
    joinCsv v i o = .ok (o ++ (v.drop i).flatMap fun w => 44 :: sanitizeHeaderValue w) := by
  induction hk : v.length - i using Nat.strong_induction_on generalizing i o with
  | _ k ih =>
    rw [joinCsv]
    rcases Nat.lt_or_ge i v.length with hlt | hge
    · rw [if_pos hlt, if_neg (Nat.ne_of_gt hi), itemAt_ok hlt, ok_bind,
        ih _ (by omega) (Nat.succ_pos i) _ rfl, List.drop_eq_getElem_cons hlt, List.flatMap_cons]
      simp
    · rw [if_neg (Nat.not_lt.mpr hge), List.drop_eq_nil_of_le hge]
      simp

theorem joinCsv_cons (v : Bytes) (vs : List Bytes) : Gateway.joinCsv (v :: vs) =
    sanitizeHeaderValue v ++ vs.flatMap fun w => 44 :: sanitizeHeaderValue w := by
  induction vs generalizing v with
  | nil => simp [Gateway.joinCsv]
  | cons w ws ih =>
    rw [Gateway.joinCsv, ih, List.flatMap_cons]
    · rfl
    · exact List.cons_ne_nil w ws

theorem joinCsv_ok (v : List Bytes) : joinCsv v 0 [] = .ok (Gateway.joinCsv v) := by
  rw [joinCsv]
  cases v with
  | nil => rfl
  | cons v vs =>
    have hfirst : itemAt (v :: vs) 0 = .ok v := rfl
    have hpos : 0 < (v :: vs).length := Nat.succ_pos _
    rw [if_pos hpos, hfirst, ok_bind, joinCsv_rest (Nat.succ_pos 0),
      joinCsv_cons]
    rfl

theorem requestWire_ok (up : UpstreamAddr) (req : HttpRequest) (forwardPath : Bytes)
    (auth : AuthInfo) :
    requestWire up req forwardPath auth = .ok (Gateway.requestWire up req forwardPath auth) := by
  rw [requestWire, upstreamPath_ok, ok_bind, joinCsv_ok, ok_bind, joinCsv_ok, ok_bind]
  rfl

theorem exchange_ok (s : Socket) (up : UpstreamAddr) (req : HttpRequest) (forwardPath : Bytes)
    (auth : AuthInfo) (timeoutMs : Int) : exchange s up req forwardPath auth timeoutMs =
      liftM (Gateway.exchange s (Gateway.requestWire up req forwardPath auth) timeoutMs) := by
  rw [exchange, Gateway.exchange, requestWire_ok]
  simp only [liftM_bind, liftM_pure, Fallible.liftM_ite, Fallible.liftM_ok, pure_bind,
    parseUpstreamResponse_ok]

theorem forwardRequest_ok (upstreamBase : Bytes) (req : HttpRequest) (forwardPath : Bytes)
    (auth : AuthInfo) (timeoutMs : Int) :
    forwardRequest upstreamBase req forwardPath auth timeoutMs =
      liftM (Gateway.forwardRequest upstreamBase req forwardPath auth timeoutMs) := by
  rw [forwardRequest, Gateway.forwardRequest, parseUpstream_ok]
  cases Gateway.parseUpstream upstreamBase with
  | error e => simp only [liftM_bind, liftM_pure, Fallible.liftM_ok_bind]
  | ok up =>
    simp only [liftM_bind, liftM_pure, Fallible.liftM_ite, Fallible.liftM_ok_bind, exchange_ok]
    refine bind_congr fun _ => bind_congr fun resolved => ?_
    split
    · rfl
    · refine bind_congr fun result => bind_congr fun _ => ?_
      obtain ⟨connected, timedOut⟩ := result
      cases connected with
      | none => rfl
      | some s => rfl

end Checked

end Gateway

import Mathlib
import Gateway.Text
import Gateway.Library.Search

/-! The request parser and the response builder (Http.h, Http.cpp). -/
namespace Gateway

open Search

/-- `std::map<std::string, std::string>`. -/
abbrev HeaderMap := Std.ExtTreeMap Bytes Bytes

structure HttpRequest where
  method : Bytes := []
  target : Bytes := []
  path : Bytes := []
  query : Bytes := []
  version : Bytes := []
  headers : HeaderMap := ∅
  body : Bytes := []
  clientIp : Bytes := []
  deriving DecidableEq

def HttpRequest.header (r : HttpRequest) (name : Bytes) : Bytes := (r.headers[name]?).getD []

structure HttpResponse where
  status : Nat := 200
  headers : HeaderMap := ∅
  body : Bytes := []
  deriving DecidableEq

def reasonPhrase : Nat → Bytes
  | 200 => ascii "OK"
  | 400 => ascii "Bad Request"
  | 401 => ascii "Unauthorized"
  | 403 => ascii "Forbidden"
  | 404 => ascii "Not Found"
  | 405 => ascii "Method Not Allowed"
  | 413 => ascii "Payload Too Large"
  | 429 => ascii "Too Many Requests"
  | 502 => ascii "Bad Gateway"
  | 504 => ascii "Gateway Timeout"
  | _ => ascii "Error"

def hexDigit (n : UInt8) : UInt8 := if n < 10 then n + 48 else n + 87

/-- One character of `jsonEscape`; the last escape is `snprintf("\\u%04x")`. -/
def jsonEscapeByte (c : UInt8) : Bytes :=
  if c = 34 then [92, 34]
  else if c = 92 then [92, 92]
  else if c = 10 then ascii "\\n"
  else if c = 13 then ascii "\\r"
  else if c = 9 then ascii "\\t"
  else if c < 32 then ascii "\\u00" ++ [hexDigit (c / 16), hexDigit (c % 16)]
  else [c]

def jsonEscape (s : Bytes) : Bytes := s.flatMap jsonEscapeByte

def jsonError (status : Nat) (code message : Bytes) : HttpResponse where
  status := status
  headers := (∅ : HeaderMap).insert (ascii "content-type") (ascii "application/json")
  body := ascii "\x7b\"error\":\"" ++ jsonEscape code ++ ascii "\",\"message\":\"" ++
    jsonEscape message ++ ascii "\"\x7d"

/-- `head.find("\r\n", pos)`. -/
def findCrlf (head : Bytes) (pos : Nat) : Option Nat :=
  (find? crlf (head.drop pos)).map (pos + ·)

theorem findCrlf_bounds {head : Bytes} {pos eol : Nat} (h : findCrlf head pos = some eol) :
    pos ≤ eol ∧ eol + 2 ≤ head.length := by
  obtain ⟨i, hi, rfl⟩ := Option.map_eq_some_iff.mp h
  have hl := find?_some_le hi
  simp only [crlf, List.length_drop, List.length_cons, List.length_nil] at hl
  omega

/-- The request line: exactly three words. -/
def parseRequestLine (line : Bytes) : Option (Bytes × Bytes × Bytes) := do
  let (method, rest) ← readWord line
  let (target, rest) ← readWord rest
  let (version, rest) ← readWord rest
  if (readWord rest).isSome then none else some (method, target, version)

/-- The header loop of `parseHttpRequest`. -/
def parseHeaders (head : Bytes) (pos : Nat) (headers : HeaderMap) : Option HeaderMap :=
  if pos < head.length then
    match _h : findCrlf head pos with
    | none => none
    | some eol =>
      if eol = pos then some headers
      else
        let line := (head.drop pos).take (eol - pos)
        match find? (ascii ":") line with
        | none => none
        | some colon =>
          let name := toLower (trimStr (line.take colon))
          let value := trimStr (line.drop (colon + 1))
          if name = [] ∨ 8192 < value.length then none
          else if 100 < headers.size then none
          else parseHeaders head (eol + 2) (headers.insert name value)
  else some headers
termination_by head.length - pos
decreasing_by
  have := findCrlf_bounds _h
  omega

/-- The target split at its first `?`. -/
def splitTarget (target : Bytes) : Bytes × Bytes :=
  match find? (ascii "?") target with
  | none => (target, [])
  | some q => (target.take q, target.drop (q + 1))

def parseHttpRequest (head : Bytes) : Option HttpRequest := do
  let lineEnd ← find? crlf head
  let (method, target, version) ← parseRequestLine (head.take lineEnd)
  if method.any fun c => !isUpper c && c != 45 then none
  else if target.head? ≠ some 47 then none
  else if ¬ ascii "HTTP/" <+: version then none
  else
    let (path, query) := splitTarget target
    if (find? (ascii "..") path).isSome then none
    else
      let headers ← parseHeaders head (lineEnd + 2) ∅
      some { method, target, path, query, version, headers }

/-- What the parser has checked when it accepts a head. -/
theorem parseHttpRequest_eq_some {head : Bytes} {r : HttpRequest}
    (h : parseHttpRequest head = some r) :
    ∃ lineEnd, find? crlf head = some lineEnd ∧
      parseRequestLine (head.take lineEnd) = some (r.method, r.target, r.version) ∧
      (∀ c ∈ r.method, isUpper c = true ∨ c = 45) ∧ r.target.head? = some 47 ∧
      ascii "HTTP/" <+: r.version ∧ splitTarget r.target = (r.path, r.query) ∧
      find? (ascii "..") r.path = none ∧ parseHeaders head (lineEnd + 2) ∅ = some r.headers := by
  simp only [parseHttpRequest, Option.bind_eq_bind, Option.bind_eq_some_iff, Prod.exists] at h
  obtain ⟨lineEnd, hend, m, t, v, hline, h⟩ := h
  by_cases hm : (m.any fun c => !isUpper c && c != 45) = true
  · rw [if_pos hm] at h
    cases h
  · rw [if_neg hm] at h
    by_cases ht : t.head? = some 47
    · rw [if_neg (not_not_intro ht)] at h
      by_cases hv : ascii "HTTP/" <+: v
      · rw [if_neg (not_not_intro hv)] at h
        generalize hsplit : splitTarget t = pathQuery at h
        obtain ⟨path, query⟩ := pathQuery
        by_cases hdots : (find? (ascii "..") path).isSome = true
        · simp only [hdots, if_true] at h
          cases h
        · simp only [hdots] at h
          obtain ⟨headers, hheaders, heq⟩ := Option.bind_eq_some_iff.mp h
          cases heq
          refine ⟨lineEnd, hend, hline, ?_, ht, hv, hsplit, by simpa using hdots, hheaders⟩
          intro c hc
          by_contra hno
          apply hm
          rw [List.any_eq_true]
          exact ⟨c, hc, by simpa [not_or] using hno⟩
      · rw [if_pos hv] at h
        cases h
    · rw [if_pos ht] at h
      cases h

/-- The header lines of a response, in the key order of the map. -/
def headerLines (headers : HeaderMap) : Bytes :=
  headers.toList.flatMap fun kv => kv.1 ++ ascii ": " ++ kv.2 ++ crlf

def buildResponse (r : HttpResponse) : Bytes :=
  ascii "HTTP/1.1 " ++ toDecimal r.status ++ ascii " " ++ reasonPhrase r.status ++ crlf ++
    headerLines r.headers ++
    (if r.headers.contains (ascii "content-type") then []
      else ascii "content-type: application/json" ++ crlf) ++
    (if r.headers.contains (ascii "content-length") then []
      else ascii "content-length: " ++ toDecimal r.body.length ++ crlf) ++
    ascii "connection: close" ++ crlfcrlf ++ r.body

end Gateway

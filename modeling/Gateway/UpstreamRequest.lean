import Mathlib
import Gateway.Router
import Gateway.ForwardRuns

/-! The bytes of the upstream request: lines that no field can break. -/
namespace Gateway

open Program Search

variable {base forwardPath wire body : Bytes} {up : UpstreamAddr} {req r : HttpRequest}
  {auth : AuthInfo}

/-- The header lines of the upstream request, as names and values. -/
def upstreamFields (up : UpstreamAddr) (req : HttpRequest) (auth : AuthInfo) :
    List (Bytes × Bytes) :=
  [(ascii "host", sanitizeHeaderValue up.host)] ++
    (if req.header (ascii "content-type") = [] then []
      else [(ascii "content-type", sanitizeHeaderValue (req.header (ascii "content-type")))]) ++
    [(ascii "content-length", toDecimal req.body.length),
      (ascii "x-forwarded-for", sanitizeHeaderValue req.clientIp)] ++
    (if auth.sub = [] then [] else [(ascii "x-auth-sub", sanitizeHeaderValue auth.sub)]) ++
    (if auth.roles = [] then [] else [(ascii "x-auth-roles", joinCsv auth.roles)]) ++
    (if auth.permissions = [] then [] else [(ascii "x-auth-scopes", joinCsv auth.permissions)]) ++
    [(ascii "connection", ascii "close")]

def fieldLine (f : Bytes × Bytes) : Bytes := f.1 ++ ascii ": " ++ f.2

/-- A header line as its receiver reads it. -/
def readField (line : Bytes) : Option (Bytes × Bytes) := cut (ascii ": ") line

/-- The request line of the upstream request. -/
def requestLine (up : UpstreamAddr) (req : HttpRequest) (forwardPath : Bytes) : Bytes :=
  (ascii " ").intercalate [req.method, upstreamPath up forwardPath, ascii "HTTP/1.1"]

/-- The lines of the head of the upstream request. -/
def requestLines (up : UpstreamAddr) (req : HttpRequest) (forwardPath : Bytes)
    (auth : AuthInfo) : List Bytes :=
  requestLine up req forwardPath :: (upstreamFields up req auth).map fieldLine

/-- The bytes of a line. -/
def IsLine (l : Bytes) : Prop := l ≠ [] ∧ CR ∉ l ∧ LF ∉ l

theorem intercalate_fieldLines (f : Bytes × Bytes) (fs : List (Bytes × Bytes)) (l : Bytes) :
    crlf.intercalate (l :: (fs ++ [f]).map fieldLine) =
      l ++ crlf ++ (fs.flatMap fun g => fieldLine g ++ crlf) ++ fieldLine f := by
  induction fs generalizing l with
  | nil => simp [List.intercalate]
  | cons g gs ih =>
    rw [List.cons_append, List.map_cons, List.intercalate_cons_cons, ih]
    simp

/-- A header line under a name that is written out. -/
theorem fieldLine_ascii (name : String) (v : Bytes) :
    fieldLine (ascii name, v) = ascii (name ++ ": ") ++ v := by
  simp [fieldLine, ascii]

/-- A header line that is left out when it has no value. -/
theorem flatMap_optional {p : Prop} [Decidable p] (f : Bytes × Bytes) (g : Bytes × Bytes → Bytes) :
    (if p then [] else [f]).flatMap g = if p then [] else g f := by
  split <;> simp

theorem requestWire_eq : requestWire up req forwardPath auth =
    crlf.intercalate (requestLines up req forwardPath auth) ++ crlfcrlf ++ req.body := by
  have hversion : ascii " HTTP/1.1" = ascii " " ++ ascii "HTTP/1.1" := by decide
  have hclose : ascii "connection: close" = ascii "connection: " ++ ascii "close" := by decide
  rw [requestLines, upstreamFields, intercalate_fieldLines]
  unfold requestWire requestLine
  simp only [List.flatMap_append, flatMap_optional, List.flatMap_cons, List.flatMap_nil,
    fieldLine_ascii, String.reduceAppend, List.intercalate_cons_cons,
    List.intercalate_singleton, hversion, hclose, List.append_assoc, List.append_nil]

theorem sanitizeHeaderValue_plain (v : Bytes) :
    CR ∉ sanitizeHeaderValue v ∧ LF ∉ sanitizeHeaderValue v := by
  constructor <;>
  · intro h
    obtain ⟨c, -, hc⟩ := List.mem_map.mp h
    split at hc <;> simp_all [CR, LF]

theorem joinCsv_plain (vs : List Bytes) : CR ∉ joinCsv vs ∧ LF ∉ joinCsv vs := by
  induction vs using joinCsv.induct with
  | case1 => simp [joinCsv]
  | case2 v => exact sanitizeHeaderValue_plain v
  | case3 v vs hne ih =>
    obtain ⟨hcr, hlf⟩ := sanitizeHeaderValue_plain v
    have hcomma : CR ≠ 44 ∧ LF ≠ 44 := by decide
    rw [joinCsv]
    · simp [hcr, hlf, ih, hcomma]
    · exact hne

theorem toDecimal_plain (n : Nat) : CR ∉ toDecimal n ∧ LF ∉ toDecimal n := by
  constructor <;>
  · intro h
    have hd := digit_of_mem_toDecimal h
    revert hd
    decide

/-- The names of the header lines of the upstream request. -/
def fieldNames : List Bytes :=
  [ascii "host", ascii "content-type", ascii "content-length", ascii "x-forwarded-for",
    ascii "x-auth-sub", ascii "x-auth-roles", ascii "x-auth-scopes", ascii "connection"]

theorem fieldNames_plain {n : Bytes} (h : n ∈ fieldNames) :
    n ≠ [] ∧ CR ∉ n ∧ LF ∉ n ∧ 58 ∉ n := by
  revert n
  decide

/-- No value of a field holds a line break, and no name is empty or holds one. -/
theorem upstreamFields_plain {f : Bytes × Bytes} (h : f ∈ upstreamFields up req auth) :
    (f.1 ≠ [] ∧ CR ∉ f.1 ∧ LF ∉ f.1 ∧ 58 ∉ f.1) ∧ CR ∉ f.2 ∧ LF ∉ f.2 := by
  simp only [upstreamFields, List.mem_append, List.mem_ite_nil_left, List.mem_cons,
    List.not_mem_nil, or_false] at h
  rcases h with (((((rfl | ⟨-, rfl⟩) | rfl | rfl) | ⟨-, rfl⟩) | ⟨-, rfl⟩) | ⟨-, rfl⟩) | rfl
  · exact ⟨fieldNames_plain (by simp [fieldNames]), sanitizeHeaderValue_plain up.host⟩
  · exact ⟨fieldNames_plain (by simp [fieldNames]), sanitizeHeaderValue_plain _⟩
  · exact ⟨fieldNames_plain (by simp [fieldNames]), toDecimal_plain _⟩
  · exact ⟨fieldNames_plain (by simp [fieldNames]), sanitizeHeaderValue_plain req.clientIp⟩
  · exact ⟨fieldNames_plain (by simp [fieldNames]), sanitizeHeaderValue_plain auth.sub⟩
  · exact ⟨fieldNames_plain (by simp [fieldNames]), joinCsv_plain auth.roles⟩
  · exact ⟨fieldNames_plain (by simp [fieldNames]), joinCsv_plain auth.permissions⟩
  · exact ⟨fieldNames_plain (by simp [fieldNames]), by decide⟩

theorem fieldLine_isLine {f : Bytes × Bytes} (h : f ∈ upstreamFields up req auth) :
    IsLine (fieldLine f) := by
  obtain ⟨⟨hne, hcr, hlf, -⟩, hcr', hlf'⟩ := upstreamFields_plain h
  have hsep : CR ∉ ascii ": " ∧ LF ∉ ascii ": " := by decide
  refine ⟨by simp [fieldLine, hne], ?_, ?_⟩
  · simp [fieldLine, hcr, hcr', hsep]
  · simp [fieldLine, hlf, hlf', hsep]

/-- A field line reads back as its name and value. -/
theorem readField_fieldLine {f : Bytes × Bytes} (h : f ∈ upstreamFields up req auth) :
    readField (fieldLine f) = some f := by
  obtain ⟨⟨-, -, -, hcolon⟩, -⟩ := upstreamFields_plain h
  exact cut_block hcolon

theorem mapM_readField {fs : List (Bytes × Bytes)}
    (h : ∀ f ∈ fs, readField (fieldLine f) = some f) :
    (fs.map fieldLine).mapM readField = some fs := by
  induction fs with
  | nil => rfl
  | cons f fs ih =>
    have htail := ih fun g hg => h g (List.mem_cons_of_mem f hg)
    simp [h f List.mem_cons_self, htail]

theorem parseRequestLine_words {line m t v : Bytes}
    (h : parseRequestLine line = some (m, t, v)) :
    (m ≠ [] ∧ ∀ c ∈ m, isSpace c = false) ∧ (t ≠ [] ∧ ∀ c ∈ t, isSpace c = false) := by
  simp only [parseRequestLine, Option.bind_eq_bind, Option.bind_eq_some_iff, Prod.exists] at h
  obtain ⟨m', rest, hm, t', rest', ht, v', rest'', hv, h⟩ := h
  split at h
  · cases h
  · cases h
    exact ⟨readWord_eq_some hm, readWord_eq_some ht⟩

/-- The method and the target of a parsed request are words. -/
theorem parseHttpRequest_words {head : Bytes} (h : parseHttpRequest head = some r) :
    (r.method ≠ [] ∧ ∀ c ∈ r.method, isSpace c = false) ∧
      (r.target ≠ [] ∧ ∀ c ∈ r.target, isSpace c = false) := by
  obtain ⟨lineEnd, -, hline, -⟩ := parseHttpRequest_eq_some h
  exact parseRequestLine_words hline

theorem splitQuery_append (target : Bytes) :
    (splitQuery target).1 ++ (splitQuery target).2 = target := by
  unfold splitQuery
  split
  · simp
  · simp

/-- A forward path is made of bytes of the target and slashes. -/
theorem mem_forwardPath {method target : Bytes} {cfg : Config} {c : UInt8}
    (h : c ∈ (matchRoute method target cfg).forwardPath) : c = 47 ∨ c ∈ target := by
  have hsplit := splitQuery_append target
  have harea : ∀ rest : Bytes, c ∈ (splitArea rest).2 → c = 47 ∨ c ∈ rest := by
    intro rest hc
    unfold splitArea at hc
    split at hc
    · exact Or.inl (by simpa [ascii] using hc)
    · exact Or.inr (List.mem_of_mem_drop hc)
  simp only [matchRoute] at h
  generalize splitQuery target = pq at h hsplit
  obtain ⟨path, query⟩ := pq
  have hpath : c ∈ path.drop 5 → c ∈ target := by
    intro hc
    rw [← hsplit]
    exact List.mem_append_left query (List.mem_of_mem_drop hc)
  split at h
  · cases h
  · split at h
    · cases h
    · split at h
      · cases h
      · split at h
        · cases h
        · rcases List.mem_append.mp h with h | h
          · split at h
            · exact Or.inl (by simpa [ascii] using h)
            · exact (harea _ h).imp_right hpath
          · right
            rw [← hsplit]
            exact List.mem_append_right path h

theorem mem_trimSlashes {c : UInt8} {s : Bytes} (h : c ∈ trimSlashes s) : c ∈ s := by
  cases s with
  | nil => exact h
  | cons d s =>
    rcases List.mem_cons.mp h with rfl | h
    · exact List.mem_cons_self
    · exact List.mem_cons_of_mem d ((List.rdropWhile_prefix _ s).subset h)

/-- The path prefix of an upstream is part of its URL. -/
theorem mem_pathPrefix {c : UInt8} (hup : parseUpstream base = .ok up) (h : c ∈ up.pathPrefix) :
    c ∈ base := by
  simp only [parseUpstream] at hup
  split at hup
  · cases hup
  · split at hup
    · cases hup
    · split at hup
      · cases hup
      · cases hup
        have hprefix := mem_trimSlashes h
        split at hprefix
        · cases hprefix
        · exact List.mem_of_mem_drop (List.mem_of_mem_drop hprefix)

theorem mem_upstreamPath {c : UInt8} (h : c ∈ upstreamPath up forwardPath) :
    c = 47 ∨ c ∈ up.pathPrefix ∨ c ∈ forwardPath := by
  simp only [upstreamPath] at h
  split at h
  · exact Or.inr (List.mem_append.mp h)
  · rcases List.mem_cons.mp h with h | h
    · exact Or.inl h
    · exact Or.inr (List.mem_append.mp h)

/-- A word can neither end a line nor a part of the request line. -/
theorem not_mem_of_word {w : Bytes} (h : ∀ c ∈ w, isSpace c = false) :
    32 ∉ w ∧ CR ∉ w ∧ LF ∉ w := by
  refine ⟨?_, ?_, ?_⟩ <;>
  · intro hc
    have hs := h _ hc
    revert hs
    decide

theorem requestLine_ne_nil : requestLine up req forwardPath ≠ [] := by
  simp [requestLine, List.intercalate_cons_cons, ascii]

theorem requestLines_isLine (h : CR ∉ requestLine up req forwardPath) :
    ∀ l ∈ requestLines up req forwardPath auth, l ≠ [] ∧ CR ∉ l := by
  intro l hl
  rcases List.mem_cons.mp hl with rfl | hl
  · exact ⟨requestLine_ne_nil, h⟩
  · obtain ⟨f, hf, rfl⟩ := List.mem_map.mp hl
    exact ⟨(fieldLine_isLine hf).1, (fieldLine_isLine hf).2.1⟩

/-- Unless the request line is broken, the first empty line is the end of the head. -/
theorem cut_requestWire (h : CR ∉ requestLine up req forwardPath) :
    cut crlfcrlf (requestWire up req forwardPath auth) =
      some (crlf.intercalate (requestLines up req forwardPath auth), req.body) := by
  rw [requestWire_eq]
  have hlf : CR ∉ [LF] := by decide
  exact cut_double hlf (List.cons_ne_nil _ _) fun l hl =>
    ⟨(requestLines_isLine h l hl).1, not_infix_of_not_mem (requestLines_isLine h l hl).2⟩

theorem splitOn_requestLines (h : CR ∉ requestLine up req forwardPath) :
    splitOn crlf (crlf.intercalate (requestLines up req forwardPath auth)) =
      requestLines up req forwardPath auth := by
  have hlf : CR ∉ [LF] := by decide
  exact splitOn_intercalate hlf (List.cons_ne_nil _ _) fun l hl =>
    not_infix_of_not_mem (requestLines_isLine h l hl).2

/-- The wire as its receiver reads it: three words, the fields, an empty line, the body. -/
def WellFramed (wire : Bytes) (method path : Bytes) (fields : List (Bytes × Bytes))
    (body : Bytes) : Prop :=
  ∃ head line lines, cut crlfcrlf wire = some (head, body) ∧
    splitOn crlf head = line :: lines ∧
    splitOn (ascii " ") line = [method, path, ascii "HTTP/1.1"] ∧
    lines.mapM readField = some fields ∧
    (∀ l ∈ line :: lines, CR ∉ l ∧ LF ∉ l)

/-- A request whose method and path are words is framed as its fields say. -/
theorem requestWire_wellFramed (hmethod : ∀ c ∈ req.method, isSpace c = false)
    (hpath : ∀ c ∈ upstreamPath up forwardPath, isSpace c = false) :
    WellFramed (requestWire up req forwardPath auth) req.method (upstreamPath up forwardPath)
      (upstreamFields up req auth) req.body := by
  have hm := not_mem_of_word hmethod
  have hp := not_mem_of_word hpath
  have hv : 32 ∉ ascii "HTTP/1.1" ∧ CR ∉ ascii "HTTP/1.1" ∧ LF ∉ ascii "HTTP/1.1" := by decide
  have hsp : CR ∉ ascii " " ∧ LF ∉ ascii " " := by decide
  have hline : CR ∉ requestLine up req forwardPath ∧ LF ∉ requestLine up req forwardPath := by
    constructor <;> simp [requestLine, List.intercalate_cons_cons, hm, hp, hv, hsp]
  refine ⟨crlf.intercalate (requestLines up req forwardPath auth),
    requestLine up req forwardPath, (upstreamFields up req auth).map fieldLine,
    cut_requestWire hline.1, splitOn_requestLines hline.1, ?_, ?_, ?_⟩
  · apply splitOn_intercalate List.not_mem_nil (by simp)
    intro w hw
    apply not_infix_of_not_mem
    simp only [List.mem_cons, List.not_mem_nil, or_false] at hw
    rcases hw with rfl | rfl | rfl
    · exact hm.1
    · exact hp.1
    · exact hv.1
  · exact mapM_readField fun f hf => readField_fieldLine hf
  · intro l hl
    rcases List.mem_cons.mp hl with rfl | hl
    · exact hline
    · obtain ⟨f, hf, rfl⟩ := List.mem_map.mp hl
      exact (fieldLine_isLine hf).2

/-- Which of the header lines the upstream request carries. -/
def isPresent (noType noSub noRoles noScopes : Bool) (n : Bytes) : Bool :=
  if n = ascii "content-type" then !noType
  else if n = ascii "x-auth-sub" then !noSub
  else if n = ascii "x-auth-roles" then !noRoles
  else if n = ascii "x-auth-scopes" then !noScopes
  else true

theorem upstreamFields_names : (upstreamFields up req auth).map Prod.fst =
    fieldNames.filter (isPresent (req.header (ascii "content-type") = []) (auth.sub = [])
      (auth.roles = []) (auth.permissions = [])) := by
  have hall : ∀ noType noSub noRoles noScopes : Bool,
      [ascii "host"] ++ (if noType then [] else [ascii "content-type"]) ++
        [ascii "content-length", ascii "x-forwarded-for"] ++
        (if noSub then [] else [ascii "x-auth-sub"]) ++
        (if noRoles then [] else [ascii "x-auth-roles"]) ++
        (if noScopes then [] else [ascii "x-auth-scopes"]) ++ [ascii "connection"] =
      fieldNames.filter (isPresent noType noSub noRoles noScopes) := by
    decide
  rw [← hall]
  simp only [upstreamFields, List.map_append, apply_ite (List.map Prod.fst), List.map_cons,
    List.map_nil, decide_eq_true_eq]

theorem upstreamFields_nodup : ((upstreamFields up req auth).map Prod.fst).Nodup := by
  rw [upstreamFields_names]
  exact List.Nodup.filter _ (by decide)

theorem name_mem_fieldNames {n : Bytes} (h : n ∈ (upstreamFields up req auth).map Prod.fst) :
    n ∈ fieldNames := by
  rw [upstreamFields_names] at h
  exact List.mem_of_mem_filter h

/-- The content-length line gives the number of bytes of the body. -/
theorem decimal_contentLength {v : Bytes}
    (h : (ascii "content-length", v) ∈ upstreamFields up req auth) :
    decimal v = req.body.length := by
  have hv : v = toDecimal req.body.length := by
    simpa [upstreamFields, ascii] using h
  rw [hv, decimal_toDecimal]

/-- Only these parts of a request reach the wire. -/
theorem requestWire_congr {req' : HttpRequest} (hmethod : req'.method = req.method)
    (htype : req'.header (ascii "content-type") = req.header (ascii "content-type"))
    (hbody : req'.body = req.body) (hip : req'.clientIp = req.clientIp) :
    requestWire up req' forwardPath auth = requestWire up req forwardPath auth := by
  unfold requestWire
  rw [hmethod, htype, hbody, hip]

/-- What reaches the upstream: the request line, the gateway's own fields, each once and in
order, and the body; no other header of the request, and nothing else in any run. -/
structure Unforgeable (base : Bytes) (up : UpstreamAddr) (req : HttpRequest)
    (forwardPath : Bytes) (auth : AuthInfo) (timeoutMs : Int) : Prop where
  framed : WellFramed (requestWire up req forwardPath auth) req.method
    (upstreamPath up forwardPath) (upstreamFields up req auth) req.body
  names : (upstreamFields up req auth).map Prod.fst =
    fieldNames.filter (isPresent (req.header (ascii "content-type") = []) (auth.sub = [])
      (auth.roles = []) (auth.permissions = []))
  once : ((upstreamFields up req auth).map Prod.fst).Nodup
  no_authorization : ascii "authorization" ∉ (upstreamFields up req auth).map Prod.fst
  content_length : ∀ v, (ascii "content-length", v) ∈ upstreamFields up req auth →
    decimal v = req.body.length
  other_headers : ∀ headers : HeaderMap,
    ({ req with headers }).header (ascii "content-type") = req.header (ascii "content-type") →
    requestWire up { req with headers } forwardPath auth = requestWire up req forwardPath auth
  sent : ∀ evs pr, Prog.Runs (forwardRequest base req forwardPath auth timeoutMs) evs pr →
    sentBytes evs <+: requestWire up req forwardPath auth ∧
      (pr.ok = true → sentBytes evs = requestWire up req forwardPath auth)

/-- A run of `forwardRequest` sends a prefix of the wire, and all of it when it succeeds. -/
theorem sentBytes_requestWire {timeoutMs : Int} {evs : Trace} {pr : ProxyResult}
    (hup : parseUpstream base = .ok up)
    (hrun : Prog.Runs (forwardRequest base req forwardPath auth timeoutMs) evs pr) :
    sentBytes evs <+: requestWire up req forwardPath auth ∧
      (pr.ok = true → sentBytes evs = requestWire up req forwardPath auth) := by
  have hf := forwardRequest_runs hrun
  have hsame : ∀ {up'}, parseUpstream base = .ok up' → up' = up := by
    intro up' h
    rw [hup] at h
    cases h
    rfl
  constructor
  · by_cases hnil : sentBytes evs = []
    · rw [hnil]
      exact List.nil_prefix
    · obtain ⟨up', hup', hpre, -⟩ := hf.sent (Or.inl hnil)
      rw [hsame hup'] at hpre
      exact hpre
  · intro hok
    obtain ⟨up', hup', -, hall⟩ := hf.sent (Or.inr (Or.inl hok))
    rw [hsame hup'] at hall
    exact hall (Or.inl hok)

/-- No request, identity or upstream prefix can add, drop or break a line of the wire. -/
theorem upstream_request_unforgeable {head : Bytes} (hparse : parseHttpRequest head = some r)
    (hup : parseUpstream base = .ok up)
    (hbase : ∀ c ∈ base, isSpace c = false ∧ isControl c = false)
    (headers : HeaderMap) (body clientIp : Bytes) (cfg : Config) (auth : AuthInfo)
    (timeoutMs : Int) :
    Unforgeable base up { r with headers, body, clientIp }
      (matchRoute r.method r.target cfg).forwardPath auth timeoutMs := by
  obtain ⟨⟨-, hmethod⟩, -, htarget⟩ := parseHttpRequest_words hparse
  have hpath : ∀ c ∈ upstreamPath up (matchRoute r.method r.target cfg).forwardPath,
      isSpace c = false := by
    intro c hc
    rcases mem_upstreamPath hc with rfl | hc | hc
    · decide
    · exact (hbase c (mem_pathPrefix hup hc)).1
    · rcases mem_forwardPath hc with rfl | hc
      · decide
      · exact htarget c hc
  constructor
  · exact requestWire_wellFramed hmethod hpath
  · exact upstreamFields_names
  · exact upstreamFields_nodup
  · intro hmem
    have hname := name_mem_fieldNames hmem
    revert hname
    decide
  · intro v hv
    exact decimal_contentLength hv
  · intro headers' htype
    exact requestWire_congr rfl htype rfl rfl
  · intro evs pr hrun
    exact sentBytes_requestWire hup hrun

/-- A parsed request whose target carries a query. -/
def queryRequest : HttpRequest where
  method := ascii "GET"
  target := ascii "/api/users/7?q=1"
  path := ascii "/api/users/7"
  query := ascii "q=1"
  version := ascii "HTTP/1.1"

theorem parseHttpRequest_queryRequest :
    parseHttpRequest (ascii "GET /api/users/7?q=1 HTTP/1.1\r\n") = some queryRequest := by
  decide +kernel

theorem parseUpstream_users : parseUpstream (ascii "http://users:9001/v1/") =
    .ok ⟨ascii "users", 9001, ascii "/v1"⟩ := by
  decide +kernel

/-- Line breaks in the headers, the body, the address and the identity change nothing. -/
theorem queryRequest_unforgeable :
    Unforgeable (ascii "http://users:9001/v1/") ⟨ascii "users", 9001, ascii "/v1"⟩
      { queryRequest with
        headers := (∅ : HeaderMap).insert (ascii "content-type") (ascii "a\nx-auth-sub: root")
        body := ascii "\r\n\r\n"
        clientIp := ascii "10.0.0.1\r\n" }
      (matchRoute (ascii "GET") (ascii "/api/users/7?q=1") {}).forwardPath
      { ok := true, sub := ascii "7\r\nx-auth-roles: admin", roles := [ascii "a,b", ascii "\n"] }
      5000 :=
  upstream_request_unforgeable parseHttpRequest_queryRequest parseUpstream_users
    (by decide +kernel) _ _ _ {} _ 5000

end Gateway

import Mathlib
import Gateway.LoggedHandler
import Gateway.UpstreamRequest
import Gateway.FramingHeaders

/-! Of a bearer token the log and the upstream learn nothing that its mask does not show. -/
namespace Gateway

open Program Search LastWins

variable {cfg : Config} {s : Socket} {ip leftover token : Bytes} {req req' : HttpRequest}
  {route : RouteResult} {auth : AuthInfo}

/-- A request with another token of the same length and with the same first six characters. -/
structure SameMask (req req' : HttpRequest) : Prop where
  request : req' = { req with headers := req'.headers }
  headers : ∀ name, name ≠ ascii "authorization" → req'.header name = req.header name
  length : (bearerFromHeader (req'.header (ascii "authorization"))).length =
    (bearerFromHeader (req.header (ascii "authorization"))).length
  start : (bearerFromHeader (req'.header (ascii "authorization"))).take 6 =
    (bearerFromHeader (req.header (ascii "authorization"))).take 6

/-- An event without the token, which stands in the call of `verifyJwt` and among the headers of
the request that `forwardRequest` is called with. -/
def blotted : NotedEvent Op Note Res → NotedEvent Op Note Res
  | ⟨.inl (.verifyJwt _ secret requiredIssuer), r⟩ =>
    ⟨.inl (.verifyJwt [] secret requiredIssuer), r⟩
  | ⟨.inl (.invoke (.forwardRequest base req path auth)), r⟩ =>
    ⟨.inl (.invoke (.forwardRequest base { req with headers := ∅ } path auth)), r⟩
  | e => e

/-- The programs do the same, up to the token. -/
abbrev AlikeButToken {α β : Type} (S : α → β → Prop) (p : Logged.LoggedIo α)
    (q : Logged.LoggedIo β) : Prop :=
  Alike blotted S p q

theorem maskToken_congr {token' : Bytes} (hlen : token'.length = token.length)
    (hstart : token'.take 6 = token.take 6) : maskToken token' = maskToken token := by
  have hempty : token' = [] ↔ token = [] := by
    rw [← List.length_eq_zero_iff, hlen, List.length_eq_zero_iff]
  simp only [maskToken, hempty, hlen, hstart]

/-- What is not about the headers is the same. -/
theorem SameMask.fields (h : SameMask req req') : req'.method = req.method ∧
    req'.target = req.target ∧ req'.body = req.body ∧ req'.clientIp = req.clientIp := by
  rw [h.request]
  exact ⟨rfl, rfl, rfl, rfl⟩

theorem SameMask.withIp (h : SameMask req req') :
    SameMask { req with clientIp := ip } { req' with clientIp := ip } where
  request := by rw [h.request]
  headers := h.headers
  length := h.length
  start := h.start

theorem SameMask.withBody (h : SameMask req req') (body : Bytes) :
    SameMask { req with body } { req' with body } where
  request := by rw [h.request]
  headers := h.headers
  length := h.length
  start := h.start

theorem proxyRequest_alike (h : SameMask req req') :
    AlikeButToken Eq (Logged.proxyRequest s cfg req route auth)
      (Logged.proxyRequest s cfg req' route auth) := by
  have hforward : AlikeButToken Eq
      (Noted.silent
        (forwardRequest route.upstreamBase req route.forwardPath auth cfg.upstreamTimeoutMs))
      (Noted.silent
        (forwardRequest route.upstreamBase req' route.forwardPath auth cfg.upstreamTimeoutMs)) := by
    obtain ⟨hmethod, -, hbody, hip⟩ := h.fields
    have hwire : ∀ up, requestWire up req route.forwardPath auth =
        requestWire up req' route.forwardPath auth := fun up =>
      (requestWire_congr hmethod (h.headers _ (by decide)) hbody hip).symm
    rw [forwardRequest, forwardRequest]
    simp only [hwire]
    refine ⟨_, _, rfl, fun r => ⟨r, ?_, .refl _⟩⟩
    rw [h.request]
    rfl
  exact hforward.bind fun pr pr' heq => .of_eq (by rw [heq])

theorem authorize_alike (h : SameMask req req') :
    AlikeButToken Eq (Logged.authorize s cfg req route) (Logged.authorize s cfg req' route) := by
  rw [Logged.authorize, Logged.authorize]
  have hmask := maskToken_congr h.length h.start
  have hlen := h.length
  generalize bearerFromHeader (req'.header (ascii "authorization")) = token' at hmask hlen ⊢
  generalize bearerFromHeader (req.header (ascii "authorization")) = token at hmask hlen ⊢
  have hempty : token' = [] ↔ token = [] := by
    rw [← List.length_eq_zero_iff, hlen, List.length_eq_zero_iff]
  simp only [hempty, hlen, hmask]
  split
  · exact .refl _
  · have hverify : AlikeButToken Eq
        (Noted.silent (perform (.verifyJwt token cfg.jwtSecret cfg.jwtIssuer)))
        (Noted.silent (perform (.verifyJwt token' cfg.jwtSecret cfg.jwtIssuer))) :=
      ⟨_, _, rfl, fun auth => ⟨auth, rfl, .refl _⟩⟩
    refine hverify.bind fun auth auth' heq => ?_
    subst heq
    split
    · exact .refl _
    · refine (Alike.refl _).bind fun _ _ _ => ?_
      split
      · exact .refl _
      · split
        · exact .refl _
        · exact proxyRequest_alike h

/-- Alike up to whatever `view` hides, if authorizing is. -/
theorem serve_congr {ε : Type} {view : NotedEvent Op Note Res → ε} {cfg' : Config}
    (hmethod : req'.method = req.method) (htarget : req'.target = req.target)
    (hroute : matchRoute req.method req.target cfg' = matchRoute req.method req.target cfg)
    (hhealth : healthResponse cfg' = healthResponse cfg)
    (hapi : ∀ route, Alike view Eq (Logged.authorize s cfg req route)
      (Logged.authorize s cfg' req' route)) :
    Alike view Eq (Logged.serve s ip cfg req) (Logged.serve s ip cfg' req') := by
  rw [Logged.serve, Logged.serve, hmethod, htarget, hroute, hhealth]
  refine (Alike.refl _).bind fun _ _ _ => (Alike.refl _).bind fun allowed allowed' heq => ?_
  subst heq
  split
  · exact .refl _
  · dsimp only
    cases (matchRoute req.method req.target cfg).kind with
    | kApi => exact hapi _
    | _ => exact .refl _

theorem serve_alike (h : SameMask req req') :
    AlikeButToken Eq (Logged.serve s ip cfg req) (Logged.serve s ip cfg req') := by
  obtain ⟨hmethod, htarget, -, -⟩ := h.fields
  exact serve_congr hmethod htarget rfl rfl fun _ => authorize_alike h

/-- The bodies are read alike, and leave requests alike. -/
theorem bodyPhase_alike (h : SameMask req req') :
    AlikeButToken (fun out out' => out' = out ∨ ∃ r r', out = .done r ∧ out' = .done r' ∧
        SameMask r r')
      (Logged.bodyPhase s cfg req leftover) (Logged.bodyPhase s cfg req' leftover) := by
  have hsame : ∀ out : BodyPhase, AlikeButToken (fun out out' => out' = out ∨
      ∃ r r', out = .done r ∧ out' = .done r' ∧ SameMask r r') (.ret out) (.ret out) := fun out =>
    ⟨out, rfl, .inl rfl⟩
  rw [Logged.bodyPhase, Logged.bodyPhase, h.headers _ (by decide), h.headers _ (by decide)]
  dsimp only
  split
  · exact hsame _
  · split
    · exact hsame _
    · split
      · exact (Alike.refl _).bind fun _ _ _ => hsame _
      · refine (Alike.refl _).bind fun read read' heq => ?_
        subst heq
        cases read with
        | disconnected => exact (Alike.refl _).bind fun _ _ _ => hsame _
        | tooLarge => exact hsame _
        | done body => exact ⟨_, rfl, .inr ⟨_, _, rfl, rfl, h.withBody body⟩⟩

theorem handleAccepted_alike (h : SameMask req req') :
    AlikeButToken Eq (Logged.handleAccepted s ip cfg req leftover)
      (Logged.handleAccepted s ip cfg req' leftover) := by
  refine (bodyPhase_alike h.withIp).bind fun out out' hout => ?_
  rcases hout with rfl | ⟨r, r', rfl, rfl, hr⟩
  · exact .refl _
  · exact serve_alike hr

/-- No note is blotted. -/
theorem notesIn_blotted (evs : List (NotedEvent Op Note Res)) :
    Noted.notesIn (evs.map blotted) = Noted.notesIn evs := by
  induction evs with
  | nil => rfl
  | cons e evs ih =>
    obtain ⟨o, r⟩ := e
    cases o with
    | inl o =>
      cases o with
      | invoke i => cases i <;> exact ih
      | _ => exact ih
    | inr n => exact congrArg (n :: ·) ih

/-- The token that the fields of a head carry. -/
def tokenOf (fields : List (Bytes × Bytes)) : Bytes :=
  bearerFromHeader ((lastValue fields (ascii "authorization")).getD [])

/-- The fields of other names. -/
def otherFields (fields : List (Bytes × Bytes)) : List (Bytes × Bytes) :=
  fields.filter fun f => f.1 ≠ ascii "authorization"

variable {head head' m t v : Bytes} {fields fields' : List (Bytes × Bytes)}

theorem lastValue_otherFields {name : Bytes} (h : name ≠ ascii "authorization") :
    lastValue (otherFields fields) name = lastValue fields name := by
  have hfilter : (otherFields fields).filter (·.1 = name) = fields.filter (·.1 = name) := by
    rw [otherFields, List.filter_filter]
    refine List.filter_congr fun f _ => ?_
    by_cases hf : f.1 = name
    · simp [hf, h]
    · simp [hf]
  rw [lastValue, hfilter, lastValue]

theorem sameMask_of_heads (g : RequestGrammar head m t v fields)
    (g' : RequestGrammar head' m t v fields') (hparse : parseHttpRequest head = some req)
    (hparse' : parseHttpRequest head' = some req')
    (hother : otherFields fields' = otherFields fields)
    (hlen : (tokenOf fields').length = (tokenOf fields).length)
    (hstart : (tokenOf fields').take 6 = (tokenOf fields).take 6) : SameMask req req' where
  request := by
    obtain rfl := Option.some.inj ((parse_of_grammar g).symm.trans hparse)
    obtain rfl := Option.some.inj ((parse_of_grammar g').symm.trans hparse')
    rfl
  headers name hname := by
    rw [header_parsed g hparse, header_parsed g' hparse', ← lastValue_otherFields hname, hother,
      lastValue_otherFields hname]
  length := by rwa [header_parsed g hparse, header_parsed g' hparse']
  start := by rwa [header_parsed g hparse, header_parsed g' hparse']

/-- Two heads that differ in nothing but a token of the same mask are served alike: to every run
for one there is a run for the other with the same messages in the log and the same calls, down to
the bytes of every send, but for the token that is handed to `verifyJwt`. -/
theorem token_secrecy (g : RequestGrammar head m t v fields)
    (g' : RequestGrammar head' m t v fields') (hparse : parseHttpRequest head = some req)
    (hparse' : parseHttpRequest head' = some req')
    (hother : otherFields fields' = otherFields fields)
    (hlen : (tokenOf fields').length = (tokenOf fields).length)
    (hstart : (tokenOf fields').take 6 = (tokenOf fields).take 6) :
    ∀ evs, (Logged.handleAccepted s ip cfg req leftover).Runs evs () →
      ∃ evs', (Logged.handleAccepted s ip cfg req' leftover).Runs evs' () ∧
        evs'.map blotted = evs.map blotted ∧ Noted.notesIn evs' = Noted.notesIn evs := by
  intro evs hrun
  have hmask := sameMask_of_heads g g' hparse hparse' hother hlen hstart
  obtain ⟨evs', ⟨⟩, hrun', -, hblotted⟩ := (handleAccepted_alike hmask).runs hrun
  refine ⟨evs', hrun', hblotted, ?_⟩
  rw [← notesIn_blotted, hblotted, notesIn_blotted]

/-- A POST that carries a token. -/
def tokenLines (token : Bytes) : List (Bytes × Bytes) :=
  [(ascii "Authorization", ascii " Bearer " ++ token), (ascii "Content-Length", ascii " 0")]

def firstToken : Bytes := ascii "eyJhbGciOiJIUzI1NiJ9.e30.c2VjcmV0MQ"

def secondToken : Bytes := ascii "eyJhbGciOiJIUzI1NiJ9.e30.c2VjcmV0Mg"

theorem tokenLines_grammar : ∀ token ∈ [firstToken, secondToken],
    RequestGrammar (postWith (tokenLines token)) (ascii "POST") (ascii "/api/users")
      (ascii "HTTP/1.1") ((tokenLines token).map readLine) := by
  intro token htoken
  simp only [List.mem_cons, List.not_mem_nil, or_false] at htoken
  rcases htoken with rfl | rfl <;>
    exact postWith_grammar (by decide +kernel) (by decide +kernel) (by decide +kernel)
      (by decide +kernel)

/-- The handler serves a request with the second token as it serves one with the first. -/
theorem tokenLines_alike : ∃ evs evs' : List (NotedEvent Op Note Res),
    (Logged.handleAccepted 4 (ascii "10.0.0.1") {} (parsedRequest (ascii "POST")
      (ascii "/api/users") (ascii "HTTP/1.1") ((tokenLines firstToken).map readLine)) []).Runs
        evs () ∧
    (Logged.handleAccepted 4 (ascii "10.0.0.1") {} (parsedRequest (ascii "POST")
      (ascii "/api/users") (ascii "HTTP/1.1") ((tokenLines secondToken).map readLine)) []).Runs
        evs' () ∧
    evs'.map blotted = evs.map blotted ∧ Noted.notesIn evs' = Noted.notesIn evs := by
  obtain ⟨evs, ⟨⟩, hrun⟩ := Prog.exists_runs (Logged.handleAccepted 4 (ascii "10.0.0.1") {}
    (parsedRequest (ascii "POST") (ascii "/api/users") (ascii "HTTP/1.1")
      ((tokenLines firstToken).map readLine)) [])
  obtain ⟨evs', hrun', hsame⟩ := token_secrecy (tokenLines_grammar firstToken (by decide))
    (tokenLines_grammar secondToken (by decide))
    (parse_of_grammar (tokenLines_grammar firstToken (by decide)))
    (parse_of_grammar (tokenLines_grammar secondToken (by decide)))
    (by decide +kernel) (by decide +kernel) (by decide +kernel) evs hrun
  exact ⟨evs, evs', hrun, hrun', hsame⟩

end Gateway

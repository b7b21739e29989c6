import Mathlib
import Gateway.LoggedHandler
import Gateway.SystemCalls

/-! The gate in front of the upstreams: steps 3 to 6 of a connection. -/
namespace Gateway

open Program Search

variable {s : Socket} {cfg : Config} {req r : HttpRequest} {evs evs' : Trace} {a : Bytes}
  {auth : AuthInfo}

def replyOf : Event Op Res → Option (Socket × HttpResponse)
  | ⟨.invoke (.reply s r), _⟩ => some (s, r)
  | _ => none

def forwardOf : Event Op Res → Option (Bytes × HttpRequest × Bytes × AuthInfo)
  | ⟨.invoke (.forwardRequest base req path auth), _⟩ => some (base, req, path, auth)
  | _ => none

/-- The replies made in a run. -/
def repliesOf (evs : Trace) : List (Socket × HttpResponse) := evs.filterMap replyOf

/-- The calls of `forwardRequest` made in a run. -/
def forwardsOf (evs : Trace) : List (Bytes × HttpRequest × Bytes × AuthInfo) :=
  evs.filterMap forwardOf

/-- A call that concerns only the client's own connection. -/
def IsLocal (s : Socket) : Op → Prop
  | .allow _ | .verifyJwt _ _ _ | .invoke (.reply _ _) => True
  | .send s' _ _ | .closeSocket s' => s' = s
  | _ => False

@[simp] theorem repliesOf_nil : repliesOf [] = [] := rfl

@[simp] theorem forwardsOf_nil : forwardsOf [] = [] := rfl

@[simp] theorem repliesOf_cons {e : Event Op Res} :
    repliesOf (e :: evs) = (replyOf e).toList ++ repliesOf evs := by
  cases h : replyOf e <;> simp [repliesOf, h]

@[simp] theorem forwardsOf_cons {e : Event Op Res} :
    forwardsOf (e :: evs) = (forwardOf e).toList ++ forwardsOf evs := by
  cases h : forwardOf e <;> simp [forwardsOf, h]

@[simp] theorem repliesOf_append : repliesOf (evs ++ evs') = repliesOf evs ++ repliesOf evs' :=
  List.filterMap_append

@[simp] theorem forwardsOf_append :
    forwardsOf (evs ++ evs') = forwardsOf evs ++ forwardsOf evs' := List.filterMap_append

theorem system_trace (h : ∀ e ∈ evs, IsSystemCall e.op) :
    repliesOf evs = [] ∧ forwardsOf evs = [] := by
  constructor
  · apply List.filterMap_eq_nil_iff.mpr
    intro e he
    have hs := h e he
    obtain ⟨o, res⟩ := e
    cases o <;> first | exact hs.elim | rfl
  · apply List.filterMap_eq_nil_iff.mpr
    intro e he
    have hs := h e he
    obtain ⟨o, res⟩ := e
    cases o <;> first | exact hs.elim | rfl

theorem forwardsOf_local (h : ∀ e ∈ evs, IsLocal s e.op) : forwardsOf evs = [] := by
  apply List.filterMap_eq_nil_iff.mpr
  intro e he
  have hl := h e he
  obtain ⟨o, res⟩ := e
  cases o with
  | invoke i =>
    cases i with
    | reply s r => rfl
    | forwardRequest base req path auth => exact hl.elim
  | _ => rfl

/-- A reply is one reply on the client's own connection. -/
theorem replyAndClose_runs {resp : HttpResponse} (h : Prog.Runs (replyAndClose s resp) evs ()) :
    repliesOf evs = [(s, resp)] ∧ ∀ e ∈ evs, IsLocal s e.op := by
  obtain ⟨pre, _, post, rfl, hreply, hclose⟩ := Prog.runs_bind.mp h
  obtain ⟨_, rest, rfl, hrest⟩ := hreply
  obtain ⟨_, tail, rfl, rfl, -⟩ := hclose
  simp only [Prog.bind] at hrest
  obtain ⟨sends, _, tail, rfl, hsend, rfl, -⟩ := Prog.runs_bind.mp hrest
  have hsends := Prog.calls_of_runs (HandleClient.sendAll_calls s (buildResponse resp) 0) hsend
  have hsys : ∀ e ∈ sends, IsSystemCall e.op := by
    intro e he
    obtain ⟨chunk, heq⟩ := hsends e he
    rw [heq]
    exact rfl
  have hlocal : ∀ e ∈ sends, IsLocal s e.op := by
    intro e he
    obtain ⟨chunk, heq⟩ := hsends e he
    rw [heq]
    exact rfl
  constructor
  · simp [replyOf, (system_trace hsys).1]
  · simp only [List.append_nil, List.cons_append, List.mem_cons, List.mem_append,
      List.not_mem_nil, or_false]
    rintro e (rfl | he | rfl)
    · trivial
    · exact hlocal e he
    · exact rfl

/-- One call of `forwardRequest` marks itself and makes no reply. -/
theorem forwardRequest_invokes {base path : Bytes} {timeoutMs : Int} {pr : ProxyResult}
    (h : Prog.Runs (forwardRequest base req path auth timeoutMs) evs pr) :
    repliesOf evs = [] ∧ forwardsOf evs = [(base, req, path, auth)] := by
  obtain ⟨p, heq, hp⟩ := forwardRequest_calls base req path auth timeoutMs
  rw [heq] at h
  obtain ⟨_, rest, rfl, hrest⟩ := h
  have hcalls := Prog.calls_of_runs hp hrest
  obtain ⟨hreply, hforward⟩ := system_trace hcalls
  constructor
  · simp [replyOf, hreply]
  · simp [forwardOf, hforward]

/-- The path is `/api/<a>` or lies below it. -/
def PathOfArea (path a : Bytes) : Prop :=
  path = ascii "/api/" ++ a ∨ ascii "/api/" ++ a ++ ascii "/" <+: path

def IsHealthPath (path : Bytes) : Prop := path = ascii "/health" ∨ path = ascii "/health/"

def allowedMethods : List Bytes :=
  [ascii "GET", ascii "POST", ascii "PUT", ascii "PATCH", ascii "DELETE"]

/-- The scope that a request with the method needs for the area. -/
def scopeFor (method a : Bytes) : Bytes :=
  a ++ (if method = ascii "GET" then ascii ":read" else ascii ":write")

/-- The authorization header carries this token. -/
def BearerToken (header token : Bytes) : Prop :=
  ∃ rest, header = ascii "Bearer " ++ rest ∧ token = trimStr rest ∧
    1 ≤ token.length ∧ token.length ≤ 8192

theorem slash_not_mem_area (h : a ∈ apiAreas) : 47 ∉ a := by
  revert a
  decide

/-- The first segment of the rest of the path is the area. -/
theorem splitArea_fst_iff {rest : Bytes} (ha : 47 ∉ a) :
    (splitArea rest).1 = a ↔ rest = a ∨ a ++ ascii "/" <+: rest := by
  constructor
  · intro h
    unfold splitArea at h
    split at h
    · exact Or.inl h
    · rename_i k hk
      right
      refine ⟨rest.drop (k + (ascii "/").length), ?_⟩
      rw [← h]
      exact find?_some_eq hk
  · intro h
    rcases h with rfl | ⟨t, rfl⟩
    · have hfind : find? (ascii "/") rest = none := find?_none_of_not_mem ha
      simp [splitArea, hfind]
    · have hfind : find? (ascii "/") (a ++ ascii "/" ++ t) = some a.length := find?_block ha
      simp only [splitArea, hfind]
      simp

theorem pathOfArea_iff {path : Bytes} (ha : a ∈ apiAreas) :
    PathOfArea path a ↔ ascii "/api/" <+: path ∧ (splitArea (path.drop 5)).1 = a := by
  rw [splitArea_fst_iff (slash_not_mem_area ha), PathOfArea]
  constructor
  · rintro (rfl | ⟨t, rfl⟩)
    · exact ⟨List.prefix_append _ _, Or.inl rfl⟩
    · refine ⟨⟨a ++ ascii "/" ++ t, by simp⟩, Or.inr ⟨t, ?_⟩⟩
      simp [ascii]
  · rintro ⟨⟨t, rfl⟩, h⟩
    have hdrop : (ascii "/api/" ++ t).drop 5 = t := rfl
    rw [hdrop] at h
    rcases h with rfl | h
    · exact Or.inl rfl
    · right
      rw [List.append_assoc]
      exact (List.prefix_append_right_inj _).mpr h

theorem isApiArea_iff : isApiArea a = true ↔ a ∈ apiAreas := by
  simp [isApiArea]

theorem isAllowedMethod_iff {m : Bytes} : isAllowedMethod m = true ↔ m ∈ allowedMethods := by
  simp [isAllowedMethod, allowedMethods]

theorem scope_of_allowed {m : Bytes} (h : m ∈ allowedMethods) :
    a ++ (if isReadMethod m then ascii ":read" else ascii ":write") = scopeFor m a := by
  have hread : isReadMethod m = decide (m = ascii "GET") := by
    revert m
    decide
  simp [scopeFor, hread]

/-- What each kind of route says about the request. -/
theorem matchRoute_cases (method target : Bytes) (cfg : Config) :
    let path := (splitQuery target).1
    let route := matchRoute method target cfg
    (route.kind = .kHealth ∧ IsHealthPath path) ∨
    (¬ IsHealthPath path ∧
      ((route.kind = .kNotFound ∧ ∀ a ∈ apiAreas, ¬ PathOfArea path a) ∨
      ∃ a ∈ apiAreas, PathOfArea path a ∧
        ((route.kind = .kMethodNotAllowed ∧ method ∉ allowedMethods) ∨
        (route.kind = .kApi ∧ method ∈ allowedMethods ∧ route.area = a ∧
          route.upstreamBase = cfg.upstreamFor a ∧
          route.requiredScope = scopeFor method a)))) := by
  simp only [matchRoute]
  generalize splitQuery target = pathQuery
  obtain ⟨path, query⟩ := pathQuery
  by_cases hhealth : path = ascii "/health" ∨ path = ascii "/health/"
  · left
    rw [if_pos hhealth]
    exact ⟨rfl, hhealth⟩
  · right
    rw [if_neg hhealth]
    refine ⟨hhealth, ?_⟩
    by_cases hapi : ascii "/api/" <+: path
    · rw [if_neg (not_not_intro hapi)]
      generalize harea : splitArea (path.drop 5) = areaRest
      obtain ⟨area, remainder⟩ := areaRest
      simp only
      by_cases hmem : area ∈ apiAreas
      · right
        have hpath : PathOfArea path area := (pathOfArea_iff hmem).mpr ⟨hapi, by rw [harea]⟩
        refine ⟨area, hmem, hpath, ?_⟩
        rw [isApiArea_iff.mpr hmem]
        by_cases hmethod : method ∈ allowedMethods
        · right
          rw [isAllowedMethod_iff.mpr hmethod]
          exact ⟨rfl, hmethod, rfl, rfl, scope_of_allowed hmethod⟩
        · left
          have hrefused : isAllowedMethod method = false := by
            rw [Bool.eq_false_iff]
            exact fun h => hmethod (isAllowedMethod_iff.mp h)
          rw [hrefused]
          exact ⟨rfl, hmethod⟩
      · left
        have hunknown : isApiArea area = false := by
          rw [Bool.eq_false_iff]
          exact fun h => hmem (isApiArea_iff.mp h)
        rw [hunknown]
        refine ⟨rfl, ?_⟩
        intro a ha hpath
        have heq := ((pathOfArea_iff ha).mp hpath).2
        rw [harea] at heq
        rw [← heq] at ha
        exact hmem ha
    · left
      rw [if_pos hapi]
      refine ⟨rfl, ?_⟩
      intro a ha hpath
      exact hapi ((pathOfArea_iff ha).mp hpath).1

theorem parsed_path {head : Bytes} (h : parseHttpRequest head = some r) :
    r.path = (splitQuery r.target).1 := by
  obtain ⟨_, -, -, -, -, -, hsplit, -⟩ := parseHttpRequest_eq_some h
  unfold splitTarget at hsplit
  unfold splitQuery
  cases hq : find? (ascii "?") r.target with
  | none =>
    rw [hq] at hsplit
    exact (Prod.mk.inj hsplit).1.symm
  | some q =>
    rw [hq] at hsplit
    exact (Prod.mk.inj hsplit).1.symm

/-- The bearer token of a header, when its length is acceptable. -/
theorem bearerToken_iff {header token : Bytes} : BearerToken header token ↔
    bearerFromHeader header = token ∧ ¬ (token = [] ∨ 8192 < token.length) := by
  have hlen : ∀ t : Bytes, ¬ (t = [] ∨ 8192 < t.length) ↔ 1 ≤ t.length ∧ t.length ≤ 8192 := by
    intro t
    rw [← List.length_eq_zero_iff]
    omega
  rw [hlen]
  constructor
  · rintro ⟨rest, rfl, rfl, hlo, hhi⟩
    refine ⟨?_, hlo, hhi⟩
    rw [bearerFromHeader, if_neg (not_not_intro (List.prefix_append _ _))]
    rfl
  · rintro ⟨rfl, hlo, hhi⟩
    by_cases hpre : ascii "Bearer " <+: header
    · obtain ⟨rest, rfl⟩ := hpre
      rw [bearerFromHeader, if_neg (not_not_intro (List.prefix_append _ _))] at hlo hhi ⊢
      exact ⟨rest, rfl, rfl, hlo, hhi⟩
    · rw [bearerFromHeader, if_pos hpre] at hlo
      exact absurd hlo (by decide)

/-- The limiter admitted the request, which names an area and an allowed method. -/
structure Routed (req : HttpRequest) (evs : Trace) (a : Bytes) : Prop where
  admitted : evs[0]? = some ⟨.allow req.clientIp, true⟩
  area : a ∈ apiAreas
  path : PathOfArea req.path a
  method : req.method ∈ allowedMethods

/-- The verifier accepted exactly the token of the request. -/
structure Authenticated (cfg : Config) (req : HttpRequest) (evs : Trace) (a token : Bytes)
    (auth : AuthInfo) : Prop extends Routed req evs a where
  bearer : BearerToken (req.header (ascii "authorization")) token
  verified : evs[1]? = some ⟨.verifyJwt token cfg.jwtSecret cfg.jwtIssuer, auth⟩
  ok : auth.ok = true

structure Authorized (cfg : Config) (req : HttpRequest) (evs : Trace) (a token : Bytes)
    (auth : AuthInfo) : Prop extends Authenticated cfg req evs a token auth where
  scope : hasScope auth a (scopeFor req.method a) = true

/-- The reply given in place of forwarding: each case has passed the checks before its own. -/
inductive Refusal (cfg : Config) (req : HttpRequest) (evs : Trace) : HttpResponse → Prop
  | rateLimited (h : evs[0]? = some ⟨.allow req.clientIp, false⟩) : Refusal cfg req evs
      (jsonError 429 (ascii "rate_limited") (ascii "Too many requests, slow down."))
  | health (admitted : evs[0]? = some ⟨.allow req.clientIp, true⟩)
      (h : IsHealthPath req.path) : Refusal cfg req evs (healthResponse cfg)
  | notFound (admitted : evs[0]? = some ⟨.allow req.clientIp, true⟩)
      (hpath : ¬ IsHealthPath req.path) (h : ∀ a ∈ apiAreas, ¬ PathOfArea req.path a) :
      Refusal cfg req evs (jsonError 404 (ascii "not_found") (ascii "Unknown path."))
  | methodNotAllowed {a : Bytes} (admitted : evs[0]? = some ⟨.allow req.clientIp, true⟩)
      (area : a ∈ apiAreas) (path : PathOfArea req.path a) (h : req.method ∉ allowedMethods) :
      Refusal cfg req evs (jsonError 405 (ascii "method_not_allowed")
        (ascii "Use GET/POST/PUT/PATCH/DELETE."))
  | missingToken {a : Bytes} (routed : Routed req evs a)
      (h : ∀ token, ¬ BearerToken (req.header (ascii "authorization")) token) :
      Refusal cfg req evs
        (jsonError 401 (ascii "unauthorized") (ascii "Missing bearer token."))
  | invalidToken {a token : Bytes} {auth : AuthInfo} (routed : Routed req evs a)
      (bearer : BearerToken (req.header (ascii "authorization")) token)
      (verified : evs[1]? = some ⟨.verifyJwt token cfg.jwtSecret cfg.jwtIssuer, auth⟩)
      (h : auth.ok = false) :
      Refusal cfg req evs (jsonError 401 (ascii "unauthorized") auth.error)
  | forbidden {a token : Bytes} {auth : AuthInfo}
      (authenticated : Authenticated cfg req evs a token auth)
      (h : hasScope auth a (scopeFor req.method a) = false) : Refusal cfg req evs
      (jsonError 403 (ascii "forbidden")
        (ascii "Missing required scope: " ++ scopeFor req.method a))
  | notConfigured {a token : Bytes} {auth : AuthInfo}
      (authorized : Authorized cfg req evs a token auth) (h : cfg.upstreamFor a = []) :
      Refusal cfg req evs
        (jsonError 502 (ascii "bad_gateway") (ascii "Upstream not configured: " ++ a))

/-- Either the request is fully authorized and forwarded once with the verified identity, or
no upstream is touched; the client gets one reply. -/
inductive Gate (s : Socket) (cfg : Config) (req : HttpRequest) (evs : Trace) : Prop
  | forwarded {a token path : Bytes} {auth : AuthInfo} {resp : HttpResponse}
      (authorized : Authorized cfg req evs a token auth) (configured : cfg.upstreamFor a ≠ [])
      (once : forwardsOf evs = [(cfg.upstreamFor a, req, path, auth)])
      (reply : repliesOf evs = [(s, resp)])
  | refused {resp : HttpResponse} (refusal : Refusal cfg req evs resp)
      (reply : repliesOf evs = [(s, resp)]) (stays_local : ∀ e ∈ evs, IsLocal s e.op)

theorem gate_of_refusal {resp : HttpResponse} (pre : Trace)
    (h : Prog.Runs (replyAndClose s resp) evs ()) (hlocal : ∀ e ∈ pre, IsLocal s e.op)
    (hpre : repliesOf pre = []) (href : Refusal cfg req (pre ++ evs) resp) :
    Gate s cfg req (pre ++ evs) := by
  obtain ⟨hreply, hevs⟩ := replyAndClose_runs h
  apply Gate.refused href
  · simp [hpre, hreply]
  · intro e he
    rcases List.mem_append.mp he with he | he
    · exact hlocal e he
    · exact hevs e he

/-- A reply that the client takes in one send. -/
def replyTrace (s : Socket) (resp : HttpResponse) : Trace :=
  [⟨.invoke (.reply s resp), ()⟩, sendsAll s (buildResponse resp), ⟨.closeSocket s, ()⟩]

theorem replyAndClose_atOnce {resp : HttpResponse} (hpos : 0 < (buildResponse resp).length)
    (hle : (buildResponse resp).length ≤ 65536) :
    Prog.Runs (replyAndClose s resp) (replyTrace s resp) () := by
  have hsend := Proxy.sendAll_atOnce s hpos hle
  rw [← HandleClient.sendAll_eq] at hsend
  apply Prog.runs_bind.mpr
  refine ⟨[_, sendsAll s (buildResponse resp)], (), [_], rfl, ⟨(), _, rfl, ?_⟩, (), [], rfl, rfl,
    rfl⟩
  simp only [Prog.bind]
  exact Prog.runs_bind.mpr ⟨_, true, [], rfl, hsend, rfl, rfl⟩

/-- Step 6: one call of `forwardRequest`, then the reply made of its result. -/
theorem proxyRequest_runs {route : RouteResult}
    (h : Prog.Runs (proxyRequest s cfg req route auth) evs ()) :
    forwardsOf evs = [(route.upstreamBase, req, route.forwardPath, auth)] ∧
      ∃ pr, repliesOf evs = [(s, relayResponse pr)] := by
  obtain ⟨pre, pr, post, rfl, hforward, hreply⟩ := Prog.runs_bind.mp h
  obtain ⟨hnoReply, honce⟩ := forwardRequest_invokes hforward
  obtain ⟨hone, hlocal⟩ := replyAndClose_runs hreply
  exact ⟨by simp [honce, forwardsOf_local hlocal], pr, by simp [hnoReply, hone]⟩

/-- Steps 5 and 6 after an admitted and routed request. -/
theorem authorize_gate {route : RouteResult} (harea : a ∈ apiAreas)
    (hpath : PathOfArea req.path a) (hmethod : req.method ∈ allowedMethods)
    (hra : route.area = a) (hup : route.upstreamBase = cfg.upstreamFor a)
    (hscope : route.requiredScope = scopeFor req.method a)
    (h : Prog.Runs (authorize s cfg req route) evs ()) :
    Gate s cfg req (⟨.allow req.clientIp, true⟩ :: evs) := by
  have hrouted : ∀ tail, Routed req (⟨.allow req.clientIp, true⟩ :: tail) a := fun tail =>
    ⟨rfl, harea, hpath, hmethod⟩
  unfold authorize at h
  generalize htoken : bearerFromHeader (req.header (ascii "authorization")) = token at h
  by_cases hbad : token = [] ∨ 8192 < token.length
  · simp only [hbad, if_true] at h
    refine gate_of_refusal [_] h (by simp [IsLocal]) rfl (.missingToken (hrouted _) ?_)
    intro t ht
    obtain ⟨rfl, hgood⟩ := bearerToken_iff.mp ht
    rw [htoken] at hgood
    exact hgood hbad
  · have hbearer : BearerToken (req.header (ascii "authorization")) token :=
      bearerToken_iff.mpr ⟨htoken, hbad⟩
    simp only [hbad, if_false] at h
    obtain ⟨auth, rest, rfl, h⟩ := h
    simp only [Prog.bind] at h
    have hlocal : ∀ e ∈ [(⟨.allow req.clientIp, true⟩ : Event Op Res),
        ⟨.verifyJwt token cfg.jwtSecret cfg.jwtIssuer, auth⟩], IsLocal s e.op := by
      simp [IsLocal]
    by_cases hok : auth.ok = true
    · have hauth : ∀ tail, Authenticated cfg req (⟨.allow req.clientIp, true⟩ ::
          ⟨.verifyJwt token cfg.jwtSecret cfg.jwtIssuer, auth⟩ :: tail) a token auth :=
        fun tail => ⟨hrouted _, hbearer, rfl, hok⟩
      simp only [hok, Bool.not_true, Bool.false_eq_true, if_false] at h
      rw [hra, hscope, hup] at h
      by_cases hs : hasScope auth a (scopeFor req.method a) = true
      · simp only [hs, Bool.not_true, Bool.false_eq_true, if_false] at h
        by_cases hconf : cfg.upstreamFor a = []
        · rw [if_pos hconf] at h
          exact gate_of_refusal [_, _] h hlocal rfl (.notConfigured ⟨hauth _, hs⟩ hconf)
        · rw [if_neg hconf] at h
          obtain ⟨honce, pr, hreply⟩ := proxyRequest_runs h
          have honce' : forwardsOf (⟨.allow req.clientIp, true⟩ ::
              ⟨.verifyJwt token cfg.jwtSecret cfg.jwtIssuer, auth⟩ :: rest) =
              [(cfg.upstreamFor a, req, route.forwardPath, auth)] := by
            simp [forwardOf, honce, hup]
          have hreply' : repliesOf (⟨.allow req.clientIp, true⟩ ::
              ⟨.verifyJwt token cfg.jwtSecret cfg.jwtIssuer, auth⟩ :: rest) =
              [(s, relayResponse pr)] := by
            simp [replyOf, hreply]
          exact Gate.forwarded ⟨hauth _, hs⟩ hconf honce' hreply'
      · have hs' : hasScope auth a (scopeFor req.method a) = false := by simpa using hs
        simp only [hs', Bool.not_false, if_true] at h
        exact gate_of_refusal [_, _] h hlocal rfl (.forbidden (hauth _) hs')
    · have hok' : auth.ok = false := by simpa using hok
      simp only [hok', Bool.not_false, if_true] at h
      exact gate_of_refusal [_, _] h hlocal rfl
        (.invalidToken (hrouted _) hbearer rfl hok')

/-- Steps 3 to 6 forward a request only through the whole gate, and answer it once. -/
theorem serve_gate {head : Bytes} {body clientIp : Bytes} (hparse : parseHttpRequest head = some r)
    (h : Prog.Runs (serve s clientIp cfg { r with body, clientIp }) evs ()) :
    Gate s cfg { r with body, clientIp } evs := by
  have hpath := parsed_path hparse
  obtain ⟨allowed, rest, rfl, h⟩ := h
  simp only [Prog.bind] at h
  have hlocal : ∀ b, ∀ e ∈ [(⟨.allow clientIp, b⟩ : Event Op Res)], IsLocal s e.op := by
    simp [IsLocal]
  cases allowed with
  | false => exact gate_of_refusal [_] h (hlocal false) rfl (.rateLimited rfl)
  | true =>
    simp only [Bool.not_true, Bool.false_eq_true, if_false] at h
    rcases matchRoute_cases r.method r.target cfg with
      ⟨hkind, hhealth⟩ | ⟨hhealth, ⟨hkind, hno⟩ | ⟨a, harea, harea', ⟨hkind, hmethod⟩ |
        ⟨hkind, hmethod, hra, hup, hscope⟩⟩⟩
    · rw [← hpath] at hhealth
      simp only [hkind] at h
      exact gate_of_refusal [_] h (hlocal true) rfl (.health rfl hhealth)
    · rw [← hpath] at hhealth hno
      simp only [hkind] at h
      exact gate_of_refusal [_] h (hlocal true) rfl (.notFound rfl hhealth hno)
    · rw [← hpath] at harea'
      simp only [hkind] at h
      exact gate_of_refusal [_] h (hlocal true) rfl (.methodNotAllowed rfl harea harea' hmethod)
    · rw [← hpath] at harea'
      simp only [hkind] at h
      exact authorize_gate harea harea' hmethod hra hup hscope h

/-- An admitted and authorized request does reach its upstream. -/
theorem serve_leads {clientIp token : Bytes} {route : RouteResult}
    (hroute : matchRoute req.method req.target cfg = route) (hkind : route.kind = .kApi)
    (htoken : bearerFromHeader (req.header (ascii "authorization")) = token)
    (hlen : ¬ (token = [] ∨ 8192 < token.length)) (hok : auth.ok = true)
    (hscope : hasScope auth route.area route.requiredScope = true)
    (hup : route.upstreamBase ≠ []) :
    (serve s clientIp cfg req).Leads
      [⟨.allow clientIp, true⟩, ⟨.verifyJwt token cfg.jwtSecret cfg.jwtIssuer, auth⟩]
      (proxyRequest s cfg req route auth) := by
  have hleads := Noted.leads_erase (@Logged.serve_leads s clientIp cfg req route auth token
    hroute hkind htoken hlen hok hscope hup)
  rw [Logged.erase_serve, Logged.erase_proxyRequest] at hleads
  exact hleads

/-- A read of an area with a one-letter token. -/
def tokenRequest : HttpRequest where
  method := ascii "GET"
  target := ascii "/api/users/7"
  path := ascii "/api/users/7"
  version := ascii "HTTP/1.1"
  headers := (∅ : HeaderMap).insert (ascii "authorization") (ascii "Bearer t")

def usersConfig : Config where
  jwtSecret := ascii "k"
  upstreams := (∅ : Std.ExtTreeMap Bytes Bytes).insert (ascii "users") (ascii "http://users:9001")

def readerAuth : AuthInfo where
  ok := true
  permissions := [ascii "users:read"]

theorem parseHttpRequest_tokenRequest : parseHttpRequest
    (ascii "GET /api/users/7 HTTP/1.1\r\nAuthorization: Bearer t\r\n") = some tokenRequest := by
  decide +kernel

theorem matchRoute_tokenRequest : matchRoute tokenRequest.method tokenRequest.target usersConfig =
    { kind := .kApi, area := ascii "users", upstreamBase := ascii "http://users:9001",
      forwardPath := ascii "/7", requiredScope := ascii "users:read" } := by
  decide +kernel

/-- The request is admitted, its token carries the scope, and it passes the gate. -/
theorem tokenRequest_gate : ∃ evs,
    forwardsOf evs ≠ [] ∧
      Gate 4 usersConfig { tokenRequest with body := [], clientIp := [] } evs := by
  obtain ⟨evs, _, hproxy⟩ := Prog.exists_runs (proxyRequest 4 usersConfig
    { tokenRequest with body := [], clientIp := [] }
    { kind := .kApi, area := ascii "users", upstreamBase := ascii "http://users:9001",
      forwardPath := ascii "/7", requiredScope := ascii "users:read" } readerAuth)
  have htoken : bearerFromHeader (tokenRequest.header (ascii "authorization")) = ascii "t" := by
    decide +kernel
  have hserve : Prog.Runs
      (serve 4 [] usersConfig { tokenRequest with body := [], clientIp := [] }) _ () :=
    Prog.runs_of_leads (serve_leads matchRoute_tokenRequest rfl htoken (by decide) rfl
      (by decide) (by decide)) hproxy
  refine ⟨_, ?_, serve_gate parseHttpRequest_tokenRequest hserve⟩
  simp [forwardOf, (proxyRequest_runs hproxy).1]

end Gateway

import Mathlib
import Gateway.Deployment
import Gateway.DescriptorLimit
import Gateway.Jwt.Verification

/-! Nothing is done for an upstream before a token was accepted, in any interleaving. -/
namespace Gateway

open Program Transition Search

variable {D : Deployment} {cfg : Config} {σ τ : Deployed} {l : Label} {tr : List (Deployed × Label)}
  {s : Socket} {ip : Bytes} {req : HttpRequest} {p : Io Unit} {evs : Trace} {k : Nat}

/-- A call that the handler of client `s` makes for an upstream only. -/
def TouchesUpstream (s : Socket) : Op → Prop
  | .getaddrinfo _ _ | .freeaddrinfo _ | .socket _ | .getFl _ | .setFl _ _ | .connect _ _
  | .select _ _ | .getSoError _ | .setTimeout _ _ _ | .invoke (.forwardRequest _ _ _ _) => True
  | .send u _ _ | .recv u _ | .closeSocket u => u ≠ s
  | _ => False

theorem not_touchesUpstream_of_local {o : Op} (h : IsLocal s o) : ¬ TouchesUpstream s o := by
  cases o with
  | invoke i =>
    cases i with
    | reply s r => exact id
    | forwardRequest base req path auth => exact h.elim
  | allow ip => exact id
  | verifyJwt token secret issuer => exact id
  | send s' data flags => exact not_not.mpr h
  | closeSocket s' => exact not_not.mpr h
  | _ => exact h.elim

theorem not_touchesUpstream_of_recv {o : Op} (h : o = .recv s 4096) : ¬ TouchesUpstream s o := by
  subst h
  exact not_not.mpr rfl

theorem readHead_receives (s : Socket) (head : Bytes) :
    (readHead s head).Calls (· = .recv s 4096) := by
  induction hk : kMaxHeaderBytes - head.length using Nat.strong_induction_on
    generalizing head with
  | _ k ih =>
    rw [readHead]
    by_cases hlt : head.length < kMaxHeaderBytes
    · rw [if_pos hlt]
      refine ⟨rfl, fun n => ?_⟩
      cases n with
      | closed => trivial
      | error e => trivial
      | data bytes pos le =>
        by_cases hfound : (find? crlfcrlf (head ++ bytes)).isSome = true
        · simp only [hfound, if_true]
          trivial
        · simp only [hfound]
          exact ih _ (by rw [List.length_append]; omega) _ rfl
    · rw [if_neg hlt]
      trivial

theorem readBody_receives (s : Socket) (maxBodyBytes : Int) (cl : Nat) (body : Bytes) :
    (readBody s maxBodyBytes cl body).Calls (· = .recv s 4096) := by
  induction hk : cl - body.length using Nat.strong_induction_on generalizing body with
  | _ k ih =>
    rw [readBody]
    by_cases hlt : body.length < cl
    · rw [if_pos hlt]
      refine ⟨rfl, fun n => ?_⟩
      cases n with
      | closed => trivial
      | error e => trivial
      | data bytes pos le =>
        by_cases hbig : maxBodyBytes < (body ++ bytes).length
        · simp only [hbig, if_true]
          trivial
        · simp only [hbig, if_false]
          exact ih _ (by rw [List.length_append]; omega) _ rfl
    · rw [if_neg hlt]
      trivial

theorem intake_receives (s : Socket) : (intake s).Calls (· = .recv s 4096) := by
  apply Prog.calls_bind (readHead_receives s [])
  intro out
  cases out <;> trivial

theorem bodyPhase_receives (s : Socket) (cfg : Config) (req : HttpRequest) (leftover : Bytes) :
    (bodyPhase s cfg req leftover).Calls (· = .recv s 4096) := by
  unfold bodyPhase
  dsimp only
  split
  · trivial
  · split
    · trivial
    · split
      · trivial
      · apply Prog.calls_bind (readBody_receives s _ _ _)
        intro out
        cases out <;> trivial

/-- The reading of the body changes the body only. -/
theorem bodyPhase_returns (s : Socket) (cfg : Config) (req : HttpRequest) (leftover : Bytes) :
    (bodyPhase s cfg req leftover).Returns
      fun out => ∀ r, out = .done r → ∃ body, r = { req with body } := by
  unfold bodyPhase
  dsimp only
  split
  · exact fun r h => by cases h
  · split
    · exact fun r h => by cases h
    · split
      · exact fun r h => by cases h
      · apply Prog.returns_bind
        intro out
        cases out with
        | disconnected => exact fun r h => by cases h
        | tooLarge => exact fun r h => by cases h
        | done body =>
          rintro r ⟨⟩
          exact ⟨body, rfl⟩

/-- How a handler has gone through its connection: it reads, and then closes or serves. -/
inductive ServedRun (s : Socket) (ip : Bytes) (cfg : Config) : Trace → Prop
  | stays {evs : Trace} (untouched : ∀ e ∈ evs, ¬ TouchesUpstream s e.op) : ServedRun s ip cfg evs
  | serves {reads served : Trace} {req : HttpRequest} (clientIp : req.clientIp = ip)
      (receives : ∀ e ∈ reads, e.op = .recv s 4096)
      (run : (serve s ip cfg req).Runs served ()) : ServedRun s ip cfg (reads ++ served)

theorem ServedRun.reads {reads : Trace} (hreads : ∀ e ∈ reads, e.op = .recv s 4096)
    (h : ServedRun s ip cfg evs) : ServedRun s ip cfg (reads ++ evs) := by
  cases h with
  | stays untouched =>
    apply ServedRun.stays
    intro e he
    rcases List.mem_append.mp he with he | he
    · exact not_touchesUpstream_of_recv (hreads e he)
    · exact untouched e he
  | @serves more served req clientIp receives run =>
    rw [← List.append_assoc]
    apply ServedRun.serves clientIp ?_ run
    intro e he
    rcases List.mem_append.mp he with he | he
    · exact hreads e he
    · exact receives e he

theorem servedRun_of_reply {resp : HttpResponse} (h : (replyAndClose s resp).Runs evs ()) :
    ServedRun s ip cfg evs :=
  .stays fun e he => not_touchesUpstream_of_local ((replyAndClose_runs h).2 e he)

theorem servedRun_of_close (h : (closeSocket s).Runs evs ()) : ServedRun s ip cfg evs := by
  obtain ⟨_, rest, rfl, rfl, -⟩ := h
  exact .stays (by simp [TouchesUpstream])

theorem handleAccepted_served {leftover : Bytes}
    (h : (handleAccepted s ip cfg req leftover).Runs evs ()) : ServedRun s ip cfg evs := by
  obtain ⟨reads, out, rest, rfl, hbody, h⟩ := Prog.runs_bind.mp h
  apply ServedRun.reads (Prog.calls_of_runs (bodyPhase_receives s cfg _ leftover) hbody)
  have hout := Prog.of_returns (bodyPhase_returns s cfg _ leftover) hbody
  cases out with
  | chunked => exact servedRun_of_reply h
  | badContentLength => exact servedRun_of_reply h
  | tooLarge => exact servedRun_of_reply h
  | disconnected => exact servedRun_of_close h
  | done r =>
    obtain ⟨body, rfl⟩ := hout r rfl
    have hserves : ServedRun s ip cfg ([] ++ rest) := .serves rfl (by simp) h
    exact hserves

theorem handleClient_served (h : (handleClient s ip cfg).Runs evs ()) :
    ServedRun s ip cfg evs := by
  rw [handleClient_eq] at h
  obtain ⟨reads, out, rest, rfl, hintake, h⟩ := Prog.runs_bind.mp h
  apply ServedRun.reads (Prog.calls_of_runs (intake_receives s) hintake)
  cases out with
  | disconnected => exact servedRun_of_close h
  | tooLarge => exact servedRun_of_reply h
  | malformed => exact servedRun_of_reply h
  | accepted req leftover => exact handleAccepted_served h

theorem serves_served (hp : ServesConnection s ip cfg p) (h : p.Runs evs ()) :
    ServedRun s ip cfg evs := by
  cases hp with
  | whole => exact handleClient_served h
  | accepted req leftover => exact handleAccepted_served h

/-- The token of a request was verified, and lets it through to the upstream of its area. -/
structure Granted (cfg : Config) (req : HttpRequest) (token base : Bytes) (auth : AuthInfo) :
    Prop where
  bearer : BearerToken (req.header (ascii "authorization")) token
  ok : auth.ok = true
  permitted : ∃ a ∈ apiAreas, PathOfArea (splitQuery req.target).1 a ∧
    req.method ∈ allowedMethods ∧ hasScope auth a (scopeFor req.method a) = true ∧
    base = cfg.upstreamFor a
  configured : base ≠ []

/-- A request is served without an upstream, or it is forwarded right after it was granted. -/
inductive Forwarding (s : Socket) (ip : Bytes) (cfg : Config) (req : HttpRequest) : Trace → Prop
  | none {evs : Trace} (untouched : ∀ e ∈ evs, ¬ TouchesUpstream s e.op) :
      Forwarding s ip cfg req evs
  | once {token base path : Bytes} {auth : AuthInfo} {rest : Trace}
      (granted : Granted cfg req token base auth) (single : forwardsOf rest = []) :
      Forwarding s ip cfg req (⟨.allow ip, true⟩ ::
        ⟨.verifyJwt token cfg.jwtSecret cfg.jwtIssuer, auth⟩ ::
        ⟨.invoke (.forwardRequest base req path auth), ()⟩ :: rest)

theorem forwarding_of_reply {resp : HttpResponse} (pre : Trace)
    (hpre : ∀ e ∈ pre, ¬ TouchesUpstream s e.op) (h : (replyAndClose s resp).Runs evs ()) :
    Forwarding s ip cfg req (pre ++ evs) := by
  apply Forwarding.none
  intro e he
  rcases List.mem_append.mp he with he | he
  · exact hpre e he
  · exact not_touchesUpstream_of_local ((replyAndClose_runs h).2 e he)

theorem proxyRequest_starts {route : RouteResult} {auth : AuthInfo}
    (h : (proxyRequest s cfg req route auth).Runs evs ()) : ∃ rest,
      evs = ⟨.invoke (.forwardRequest route.upstreamBase req route.forwardPath auth), ()⟩ :: rest ∧
      forwardsOf rest = [] := by
  have honce := (proxyRequest_runs h).1
  obtain ⟨rest, rfl⟩ : ∃ rest, evs =
      ⟨.invoke (.forwardRequest route.upstreamBase req route.forwardPath auth), ()⟩ :: rest := by
    obtain ⟨pre, pr, post, rfl, hforward, -⟩ := Prog.runs_bind.mp h
    obtain ⟨p, heq, -⟩ :=
      forwardRequest_calls route.upstreamBase req route.forwardPath auth cfg.upstreamTimeoutMs
    rw [heq] at hforward
    obtain ⟨_, rest, rfl, -⟩ := hforward
    exact ⟨rest ++ post, rfl⟩
  refine ⟨rest, rfl, ?_⟩
  simpa [forwardOf] using honce

theorem authorize_forwards {route : RouteResult} {a : Bytes} (harea : a ∈ apiAreas)
    (hpath : PathOfArea (splitQuery req.target).1 a) (hmethod : req.method ∈ allowedMethods)
    (hra : route.area = a) (hup : route.upstreamBase = cfg.upstreamFor a)
    (hscope : route.requiredScope = scopeFor req.method a)
    (h : (authorize s cfg req route).Runs evs ()) :
    Forwarding s ip cfg req (⟨.allow ip, true⟩ :: evs) := by
  unfold authorize at h
  generalize htoken : bearerFromHeader (req.header (ascii "authorization")) = token at h
  by_cases hbad : token = [] ∨ 8192 < token.length
  · simp only [hbad, if_true] at h
    exact forwarding_of_reply [_] (by simp [TouchesUpstream]) h
  · simp only [hbad, if_false] at h
    obtain ⟨auth, rest, rfl, h⟩ := h
    simp only [Prog.bind] at h
    have hpre : ∀ e ∈ [(⟨.allow ip, true⟩ : Event Op Res),
        ⟨.verifyJwt token cfg.jwtSecret cfg.jwtIssuer, auth⟩], ¬ TouchesUpstream s e.op := by
      simp [TouchesUpstream]
    rw [hra, hscope, hup] at h
    cases hok : auth.ok with
    | false =>
      simp only [hok, Bool.not_false, if_true] at h
      exact forwarding_of_reply [_, _] hpre h
    | true =>
      simp only [hok, Bool.not_true, Bool.false_eq_true, if_false] at h
      cases hs : hasScope auth a (scopeFor req.method a) with
      | false =>
        simp only [hs, Bool.not_false, if_true] at h
        exact forwarding_of_reply [_, _] hpre h
      | true =>
        simp only [hs, Bool.not_true, Bool.false_eq_true, if_false] at h
        by_cases hconf : cfg.upstreamFor a = []
        · rw [if_pos hconf] at h
          exact forwarding_of_reply [_, _] hpre h
        · rw [if_neg hconf] at h
          obtain ⟨rest, rfl, hsingle⟩ := proxyRequest_starts h
          exact .once ⟨bearerToken_iff.mpr ⟨htoken, hbad⟩, hok,
            ⟨a, harea, hpath, hmethod, hs, hup⟩, hup ▸ hconf⟩ hsingle

theorem serve_forwards (h : (serve s ip cfg req).Runs evs ()) : Forwarding s ip cfg req evs := by
  obtain ⟨admitted, rest, rfl, h⟩ := h
  simp only [Prog.bind] at h
  cases admitted with
  | false => exact forwarding_of_reply [_] (by simp [TouchesUpstream]) h
  | true =>
    simp only [Bool.not_true, Bool.false_eq_true, if_false] at h
    have hpre : ∀ e ∈ [(⟨.allow ip, true⟩ : Event Op Res)], ¬ TouchesUpstream s e.op := by
      simp [TouchesUpstream]
    rcases matchRoute_cases req.method req.target cfg with
      ⟨hkind, -⟩ | ⟨-, ⟨hkind, -⟩ | ⟨a, harea, hpath, ⟨hkind, -⟩ |
        ⟨hkind, hmethod, hra, hup, hscope⟩⟩⟩
    · simp only [hkind] at h
      exact forwarding_of_reply [_] hpre h
    · simp only [hkind] at h
      exact forwarding_of_reply [_] hpre h
    · simp only [hkind] at h
      exact forwarding_of_reply [_] hpre h
    · simp only [hkind] at h
      exact authorize_forwards harea hpath hmethod hra hup hscope h

/-- Some reading of the library's clock accounts for each verdict in the log. -/
def Attested (D : Deployment) (σ : Deployed) : Prop :=
  ∀ x ∈ σ.log, ∃ limiter, D.Answers limiter x.now x.event

theorem attested_run (h : DeployedRun D cfg tr τ) : Attested D τ := by
  apply Run.preserves (I := Attested D) ?_ h (by simp [Attested, deploy])
  intro σ l τ hσ hstep
  cases hstep.2 with
  | call r now pc safe answer lowest clock answered =>
    intro x hx
    rcases List.mem_append.mp hx with hx | hx
    · exact hσ x hx
    · obtain rfl := List.mem_singleton.mp hx
      exact ⟨_, answered⟩
  | _ => exact hσ

/-- What a handler has called is the beginning of a way through its connection. -/
theorem served_begins (h : DeployedRun D cfg tr τ) (hp : τ.starts[k]? = some p)
    (hserves : ServesConnection s ip cfg p) : ∃ more, ServedRun s ip cfg (τ.callsOf k ++ more) := by
  obtain ⟨more, _, hrun⟩ := (chronicled_run h).recorded.begins hp
  exact ⟨more, serves_served hserves hrun⟩

/-- The calls of one handler by which a request is admitted, its token accepted, and the request
handed to the upstream of its area, with the identity that the token carries. -/
inductive Vouched (D : Deployment) (cfg : Config) (k : Nat) : List (Nat × Event Op Res) → Prop
  | intro {req : HttpRequest} {token base path : Bytes} {clock : Jwt.Clock} {d : Jwt.Decoded}
      (accepted : Jwt.Accepted D.hmac clock token cfg.jwtSecret cfg.jwtIssuer d)
      (granted : Granted cfg req token base (Jwt.identity d.payloadClaims)) :
      Vouched D cfg k [(k, ⟨.allow req.clientIp, true⟩),
        (k, ⟨.verifyJwt token cfg.jwtSecret cfg.jwtIssuer, Jwt.identity d.payloadClaims⟩),
        (k, ⟨.invoke (.forwardRequest base req path (Jwt.identity d.payloadClaims)), ()⟩)]

/-- A call `e` that a handler makes for an upstream after `pre`: the two verdicts come before it,
and its one call of `forwardRequest` before it or with it. -/
structure Handed (cfg : Config) (pre : Trace) (e : Event Op Res) (req : HttpRequest)
    (token base path : Bytes) (auth : AuthInfo) : Prop where
  granted : Granted cfg req token base auth
  verdicts : [⟨.allow req.clientIp, true⟩,
    ⟨.verifyJwt token cfg.jwtSecret cfg.jwtIssuer, auth⟩].Sublist pre
  calls : [⟨.allow req.clientIp, true⟩, ⟨.verifyJwt token cfg.jwtSecret cfg.jwtIssuer, auth⟩,
    ⟨.invoke (.forwardRequest base req path auth), ()⟩].Sublist (pre ++ [e])
  once : forwardsOf (pre ++ [e]) = [(base, req, path, auth)]

theorem ServedRun.handed {pre post : Trace} {e : Event Op Res}
    (h : ServedRun s ip cfg (pre ++ e :: post)) (he : TouchesUpstream s e.op) :
    ∃ req token base path auth, Handed cfg pre e req token base path auth ∧
      forwardsOf post = [] := by
  generalize hevs : pre ++ e :: post = evs at h
  have hmem : e ∈ evs := by simp [← hevs]
  cases h with
  | stays untouched => exact (untouched e hmem he).elim
  | @serves reads served req clientIp receives run =>
    have hquiet : ∀ b ∈ reads, ¬ TouchesUpstream s b.op := by
      intro b hb
      exact not_touchesUpstream_of_recv (receives b hb)
    have hreads : forwardsOf reads = [] := by
      refine (system_trace fun b hb => ?_).2
      rw [receives b hb]
      trivial
    have hforward := serve_forwards run
    cases hforward with
    | none untouched =>
      rcases List.mem_append.mp hmem with hmem | hmem
      · exact (hquiet e hmem he).elim
      · exact (untouched e hmem he).elim
    | @once token base path auth rest granted single =>
      subst clientIp
      have hsplit : pre ++ e :: post = (reads ++ [⟨.allow req.clientIp, true⟩,
          ⟨.verifyJwt token cfg.jwtSecret cfg.jwtIssuer, auth⟩]) ++
          ⟨.invoke (.forwardRequest base req path auth), ()⟩ :: rest := by
        rw [hevs]
        simp
      have hfree : ∀ b ∈ reads ++ [⟨.allow req.clientIp, true⟩,
          ⟨.verifyJwt token cfg.jwtSecret cfg.jwtIssuer, auth⟩], ¬ TouchesUpstream s b.op := by
        intro b hb
        rcases List.mem_append.mp hb with hb | hb
        · exact hquiet b hb
        · rcases List.mem_pair.mp hb with rfl | rfl <;> exact id
      obtain ⟨mid, rfl, hmid⟩ :=
        split_at_first (P := fun b : Event Op Res => TouchesUpstream s b.op) hsplit he hfree
      have hverdicts := List.sublist_append_right reads
        [(⟨.allow req.clientIp, true⟩ : Event Op Res),
          ⟨.verifyJwt token cfg.jwtSecret cfg.jwtIssuer, auth⟩]
      have hlast : [(⟨.invoke (.forwardRequest base req path auth), ()⟩ : Event Op Res)].Sublist
          (mid ++ [e]) ∧ forwardsOf (mid ++ [e]) = [(base, req, path, auth)] ∧
          forwardsOf post = [] := by
        cases mid with
        | nil =>
          obtain ⟨rfl, rfl⟩ := List.cons.inj hmid
          exact ⟨.refl _, rfl, single⟩
        | cons b mid =>
          obtain ⟨rfl, rfl⟩ := List.cons.inj hmid
          have hrest : forwardsOf (mid ++ e :: post) = [] := single
          rw [forwardsOf_append, List.append_eq_nil_iff, forwardsOf_cons,
            List.append_eq_nil_iff] at hrest
          obtain ⟨hmid', he', hpost⟩ := hrest
          refine ⟨by simp, ?_, hpost⟩
          rw [List.cons_append, forwardsOf_cons, forwardsOf_append, hmid', forwardsOf_cons, he']
          rfl
      refine ⟨req, token, base, path, auth, ⟨granted, ?_, ?_, ?_⟩, hlast.2.2⟩
      · exact hverdicts.trans (List.sublist_append_left _ _)
      · rw [List.append_assoc]
        exact hverdicts.append hlast.1
      · rw [List.append_assoc, forwardsOf_append, hlast.2.1]
        simp [hreads, forwardOf]

/-- What the log has of a handler that acts for an upstream. -/
theorem handed_of_log (hrun : DeployedRun D cfg tr τ) {pre post : List Entry} {x : Entry}
    (hlog : τ.log = pre ++ x :: post) (hp : τ.starts[x.handler]? = some p)
    (hserves : ServesConnection s ip cfg p) (hx : TouchesUpstream s x.event.op) :
    ∃ req token base path auth,
      Handed cfg (traceOf x.handler (pre.map Entry.call)) x.event req token base path auth ∧
      forwardsOf (τ.callsOf x.handler) = [(base, req, path, auth)] := by
  have htrace : τ.callsOf x.handler = traceOf x.handler (pre.map Entry.call) ++ x.event ::
      traceOf x.handler (post.map Entry.call) := by
    rw [Deployed.callsOf, hlog, List.map_append, List.map_cons, traceOf_append]
    exact congrArg _ traceOf_cons_self
  obtain ⟨more, hserved⟩ := served_begins hrun hp hserves
  rw [htrace, List.append_assoc, List.cons_append] at hserved
  obtain ⟨req, token, base, path, auth, hhanded, hpost⟩ := hserved.handed hx
  refine ⟨req, token, base, path, auth, hhanded, ?_⟩
  rw [forwardsOf_append, List.append_eq_nil_iff] at hpost
  rw [htrace, List.append_cons, forwardsOf_append, hhanded.once, hpost.1]
  rfl

theorem accepted_of_answer {limiter : RateLimiter} {now : Int} {token secret issuer : Bytes}
    {auth : AuthInfo} (h : D.Answers limiter now ⟨.verifyJwt token secret issuer, auth⟩)
    (hok : auth.ok = true) : ∃ clock d, Jwt.Accepted D.hmac clock token secret issuer d ∧
      auth = Jwt.identity d.payloadClaims := by
  obtain ⟨clock, order, horder, hverify⟩ := h
  rcases @Jwt.verifyJwt_library_cases D.hmac clock order token secret issuer horder with
    ⟨d, hd, hres⟩ | ⟨-, e, hres⟩
  · rw [hverify] at hres
    exact ⟨clock, d, hd, Except.ok.inj hres⟩
  · rw [hverify] at hres
    obtain rfl := Except.ok.inj hres
    cases hok

/-- In any interleaving, whatever a handler does for an upstream comes after the limiter admitted
its client, after the library accepted its token, and with or after the one call of
`forwardRequest` that it makes, for the verified identity. -/
theorem forwards_authenticated (hrun : DeployedRun D cfg tr τ) {pre post : List Entry} {x : Entry}
    (hlog : τ.log = pre ++ x :: post) (hp : τ.starts[x.handler]? = some p)
    (hserves : ServesConnection s ip cfg p) (hx : TouchesUpstream s x.event.op) :
    (∃ calls, Vouched D cfg x.handler calls ∧
      calls.Sublist ((pre ++ [x]).map Entry.call)) ∧
      (forwardsOf (τ.callsOf x.handler)).length = 1 := by
  obtain ⟨req, token, base, path, auth, hhanded, honce⟩ := handed_of_log hrun hlog hp hserves hx
  -- the verdict on the token stands in the log, where the library accounts for it
  have hverified : (x.handler, (⟨.verifyJwt token cfg.jwtSecret cfg.jwtIssuer, auth⟩ :
      Event Op Res)) ∈ pre.map Entry.call := mem_traceOf.mp (hhanded.verdicts.subset (by simp))
  obtain ⟨y, hy, hycall⟩ := List.mem_map.mp hverified
  obtain ⟨limiter, hanswer⟩ := attested_run hrun y (by simp [hlog, hy])
  rw [(Prod.mk.inj hycall).2] at hanswer
  obtain ⟨clock, d, haccepted, rfl⟩ := accepted_of_answer hanswer hhanded.granted.ok
  have hlast : traceOf x.handler ((pre ++ [x]).map Entry.call) =
      traceOf x.handler (pre.map Entry.call) ++ [x.event] := by
    rw [List.map_append, traceOf_append]
    exact congrArg _ traceOf_cons_self
  have hcalls := hhanded.calls
  rw [← hlast] at hcalls
  refine ⟨⟨_, ?_, sublist_of_traceOf hcalls⟩, by rw [honce]; rfl⟩
  exact .intro haccepted hhanded.granted

/-- The sample token, sent to an area that it may read. -/
def bearerRequest : HttpRequest :=
  { tokenRequest with
    headers := (∅ : HeaderMap).insert (ascii "authorization")
      (ascii "Bearer " ++ Jwt.sampleToken) }

theorem parseHttpRequest_bearerRequest :
    parseHttpRequest (ascii "GET /api/users/7 HTTP/1.1\r\nAuthorization: Bearer " ++
      Jwt.sampleToken ++ crlf) = some bearerRequest := by
  decide +kernel

def sampleDeployment : Deployment where
  hmac := Jwt.sampleHmac

def bearerAuth : AuthInfo where
  ok := true
  sub := ascii "u1"
  permissions := [ascii "users:read"]

theorem sampleToken_verified :
    verifyJwt (Jwt.library Jwt.sampleHmac Jwt.sampleClock [.exp, .iat, .nbf]) Jwt.sampleToken
      (ascii "k") [] = .ok bearerAuth :=
  Jwt.sample_runs [.exp, .iat, .nbf] (by simp) Jwt.sampleToken (by simp)

/-- The settings of a gateway with one module and the secret of the sample token. -/
def bearerSettings : Environment := fun name =>
  if name = ascii "JWT_SECRET" then some (ascii "k")
  else if name = ascii "MODULE_USERS_URL" then some (ascii "http://users:9001")
  else none

def bearerConfig : Config := readConfig bearerSettings

theorem loadConfig_bearer : loadConfig bearerSettings = .ok bearerConfig :=
  loadConfig_of_checks (by decide +kernel) (by decide +kernel)

theorem bearerConfig_settings : bearerConfig.jwtSecret = ascii "k" ∧ bearerConfig.jwtIssuer = [] ∧
    bearerConfig.upstreamTimeoutMs = 5000 ∧ 0 < bearerConfig.maxClients ∧
    0 ≤ bearerConfig.maxBodyBytes ∧
    ((freshLimiter bearerConfig.rateLimitPerMin).allow [] 1).1 = true := by
  decide +kernel

/-- The route of the sample request. -/
def bearerRoute : RouteResult where
  kind := .kApi
  area := ascii "users"
  upstreamBase := ascii "http://users:9001"
  forwardPath := ascii "/7"
  requiredScope := ascii "users:read"

/-- What the handler makes of the sample request. -/
theorem bearerRequest_read :
    matchRoute bearerRequest.method bearerRequest.target bearerConfig = bearerRoute ∧
    bearerFromHeader (bearerRequest.header (ascii "authorization")) = Jwt.sampleToken ∧
    ¬ (Jwt.sampleToken = [] ∨ 8192 < Jwt.sampleToken.length) ∧
    bearerRequest.header (ascii "transfer-encoding") = [] ∧
    bearerRequest.header (ascii "content-length") = [] := by
  decide +kernel

theorem serve_bearerRequest : (serve 4 [] bearerConfig bearerRequest).Leads
    [⟨.allow [], true⟩, ⟨.verifyJwt Jwt.sampleToken (ascii "k") [], bearerAuth⟩]
    (proxyRequest 4 bearerConfig bearerRequest bearerRoute bearerAuth) := by
  obtain ⟨hsecret, hissuer, -⟩ := bearerConfig_settings
  obtain ⟨hroute, htoken, hlen, -⟩ := bearerRequest_read
  have hleads := @serve_leads 4 _ _ bearerAuth [] _ _ hroute rfl htoken hlen rfl (by decide)
    (by decide)
  rwa [hsecret, hissuer] at hleads

/-- What the upstream is sent. -/
def bearerWire : Bytes :=
  requestWire ⟨ascii "users", 9001, []⟩ bearerRequest (ascii "/7") bearerAuth

/-- What the upstream answers. -/
def bearerAnswer : Bytes := ascii "HTTP/1.1 200 OK\r\nContent-Type: application/json\r\n\r\n{}"

def bearerResponse : HttpResponse := relayResponse (parseUpstreamResponse bearerAnswer)

/-- The exchange with the upstream. -/
def bearerForward : Trace :=
  connectTrace (ascii "http://users:9001") bearerRequest (ascii "/7") bearerAuth
    ⟨ascii "users", 9001, []⟩ 5 ++
  exchangeTrace 5 bearerWire 5000
    (show 0 < bearerAnswer.length by decide) (show bearerAnswer.length ≤ 8192 by decide)

/-- The whole connection of such a client: its token is verified, the request forwarded, and the
answer relayed. -/
def bearerTrace : Trace :=
  ⟨.allow [], true⟩ :: ⟨.verifyJwt Jwt.sampleToken (ascii "k") [], bearerAuth⟩ ::
    (bearerForward ++ replyTrace 4 bearerResponse)

/-- Both texts fit into one send. -/
theorem bearer_sizes : 0 < bearerWire.length ∧ bearerWire.length ≤ 65536 ∧
    0 < (buildResponse bearerResponse).length ∧
    (buildResponse bearerResponse).length ≤ 65536 := by
  decide +kernel

theorem bearerRequest_forwarded : (forwardRequest bearerRoute.upstreamBase bearerRequest
    bearerRoute.forwardPath bearerAuth bearerConfig.upstreamTimeoutMs).Runs bearerForward
      (parseUpstreamResponse bearerAnswer) := by
  obtain ⟨-, -, htimeout, -⟩ := bearerConfig_settings
  have hup : parseUpstream (ascii "http://users:9001") = .ok ⟨ascii "users", 9001, []⟩ := by
    decide +kernel
  have hforward := forwardRequest_opens hup (exchange_atOnce 5 5000
    bearer_sizes.1 bearer_sizes.2.1
    (show 0 < bearerAnswer.length by decide) (show bearerAnswer.length ≤ 8192 by decide))
  rwa [← htimeout] at hforward

theorem bodyPhase_bearerRequest :
    bodyPhase 4 bearerConfig { bearerRequest with clientIp := [] } [] =
      .ret (.done bearerRequest) := by
  obtain ⟨-, -, -, -, hbody, -⟩ := bearerConfig_settings
  obtain ⟨-, -, -, hencoding, hlength⟩ := bearerRequest_read
  exact bodyPhase_unframed hbody hencoding hlength

theorem bearerRequest_runs :
    (handleAccepted 4 [] bearerConfig bearerRequest []).Runs bearerTrace () := by
  have hserve : handleAccepted 4 [] bearerConfig bearerRequest [] =
      serve 4 [] bearerConfig bearerRequest := by
    rw [handleAccepted, bodyPhase_bearerRequest]
    rfl
  have hreply : (replyAndClose 4 bearerResponse).Runs (replyTrace 4 bearerResponse) () :=
    replyAndClose_atOnce bearer_sizes.2.2.1 bearer_sizes.2.2.2
  rw [hserve]
  exact Prog.runs_of_leads serve_bearerRequest
    (Prog.runs_bind.mpr ⟨_, _, _, rfl, bearerRequest_forwarded, hreply⟩)

theorem bearerTrace_answerable : Answerable sampleDeployment
    (freshLimiter bearerConfig.rateLimitPerMin) (insert 4 firstFds) bearerTrace := by
  have hlowest : LowestFree (insert 4 firstFds) 5 := by
    rw [show insert 4 firstFds = Finset.range 5 by decide]
    exact Accounts.isLeast_range 5
  obtain ⟨-, -, -, -, -, hadmitted⟩ := bearerConfig_settings
  have hverified : sampleDeployment.Answers
      (limiterAfter (freshLimiter bearerConfig.rateLimitPerMin) 1 ⟨.allow [], true⟩) 1
      ⟨.verifyJwt Jwt.sampleToken (ascii "k") [], bearerAuth⟩ :=
    ⟨Jwt.sampleClock, [.exp, .iat, .nbf], .refl _, sampleToken_verified⟩
  refine And.intro trivial (And.intro hadmitted.symm (And.intro trivial (And.intro hverified ?_)))
  refine And.intro trivial (And.intro trivial (And.intro trivial (And.intro trivial ?_)))
  refine And.intro hlowest (And.intro trivial (answerable_of_plain ?_))
  simp [exchangeTrace, replyTrace, sendsAll, IsPlain]

/-- The whole connection happens in the deployed process. -/
theorem bearerRequest_alone : ∃ tr σ, AloneRun sampleDeployment bearerConfig
    (handleAccepted 4 [] bearerConfig bearerRequest []) tr σ bearerTrace (.ret ()) := by
  obtain ⟨-, -, -, hmax, -⟩ := bearerConfig_settings
  exact alone_reaches hmax (.accepted bearerRequest []) (Prog.runs_iff_leads.mp bearerRequest_runs)
    bearerTrace_answerable

/-- What is sent to the upstream was vouched for. -/
theorem bearerRequest_vouched : ∃ tr τ calls, DeployedRun sampleDeployment bearerConfig tr τ ∧
    ⟨0, sendsAll 5 bearerWire, 1⟩ ∈ τ.log ∧
    Vouched sampleDeployment bearerConfig 0 calls ∧ calls.Sublist (τ.log.map Entry.call) ∧
    (forwardsOf (τ.callsOf 0)).length = 1 := by
  obtain ⟨tr, τ, h⟩ := bearerRequest_alone
  have hmem : (⟨0, sendsAll 5 bearerWire, 1⟩ : Entry) ∈ τ.log := by
    rw [h.log]
    simp [bearerTrace, bearerForward, exchangeTrace]
  obtain ⟨pre, post, hlog⟩ := List.append_of_mem hmem
  have hp : τ.starts[0]? = some (handleAccepted 4 [] bearerConfig bearerRequest []) := by
    rw [h.starts]
    rfl
  obtain ⟨⟨calls, hvouched, hcalls⟩, hone⟩ := forwards_authenticated h.run hlog hp
    (.accepted bearerRequest []) (show (5 : Socket) ≠ 4 by decide)
  have hbegins : (pre ++ [(⟨0, sendsAll 5 bearerWire, 1⟩ : Entry)]).Sublist τ.log := by
    rw [hlog]
    simp
  exact ⟨tr, τ, calls, h.run, hmem, hvouched, hcalls.trans (hbegins.map _), hone⟩

end Gateway

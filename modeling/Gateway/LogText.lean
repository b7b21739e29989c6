import Mathlib
import Gateway.LoggedHandler
import Gateway.Jwt.Texts
import Gateway.Authentication

/-! The log is read back line by line: no client, upstream or token can forge a line. -/
namespace Gateway

open Program Search

variable {D : Deployment} {cfg : Config} {s : Socket} {ip leftover : Bytes} {req : HttpRequest}
  {route : RouteResult} {auth : AuthInfo} {globalLogLevel : LogLevel} {calls : List LogCall}

/-- The linked library answers `verifyJwt`, and where debug lines are shown it finds no line
break in the subject of a token. -/
def PlainAnswer (D : Deployment) (globalLogLevel : LogLevel) : Event Op Res → Prop
  | ⟨.verifyJwt token secret requiredIssuer, info⟩ =>
    (∃ clock order,
      verifyJwt (Jwt.library D.hmac clock order) token secret requiredIssuer = .ok info) ∧
    (globalLogLevel = .Debug → LF ∉ info.sub)
  | _ => True

/-- A message that is shown is one line. -/
def OneLine (globalLogLevel : LogLevel) (n : Note) : Prop :=
  n.shown globalLogLevel = true → LF ∉ n.msg

/-- A handler that leaves only lines. -/
abbrev WritesLines {α : Type} (D : Deployment) (globalLogLevel : LogLevel)
    (p : Logged.LoggedIo α) : Prop :=
  Noted.Writes (PlainAnswer D globalLogLevel) (OneLine globalLogLevel) p

theorem log_writesLines {level : LogLevel} {msg : Bytes} (h : LF ∉ msg) :
    WritesLines D globalLogLevel (Logged.log level msg) :=
  Noted.writes_note fun _ => h

theorem replyAndClose_writesLines (r : HttpResponse) :
    WritesLines D globalLogLevel (Logged.replyAndClose s r) := by
  refine Noted.writes_seq (Noted.writes_seq (Noted.writes_silent _) fun _ =>
    Noted.writes_seq (Noted.writes_silent _) fun sent => ?_) fun _ => Noted.writes_silent _
  cases sent with
  | true => trivial
  | false => exact log_writesLines (by decide)

theorem not_LF_toDecimal (n : Nat) : LF ∉ toDecimal n := not_mem_toDecimal (by decide)

theorem bodyPhase_writesLines :
    WritesLines D globalLogLevel (Logged.bodyPhase s cfg req leftover) := by
  rw [Logged.bodyPhase]
  dsimp only
  split
  · trivial
  · split
    · trivial
    · split
      · have hmsg : LF ∉ ascii "Body too large: " := by decide
        exact Noted.writes_seq (log_writesLines (by simp [hmsg, not_LF_toDecimal])) fun _ => trivial
      · refine Noted.writes_seq (Noted.writes_silent _) fun read => ?_
        cases read with
        | disconnected => exact Noted.writes_seq (log_writesLines (by decide)) fun _ => trivial
        | tooLarge => trivial
        | done body => trivial

theorem parseUpstream_error {base e : Bytes} (h : parseUpstream base = .error e) :
    e ∈ [ascii "unsupported scheme (want http://)", ascii "bad port", ascii "empty host"] := by
  rw [parseUpstream] at h
  split at h
  · cases h
    simp
  · simp only at h
    split at h
    · rename_i e' hport
      cases h
      rw [parseHostPort] at hport
      split at hport
      · cases hport
      · split at hport
        · cases hport
          simp
        · split at hport
          · cases hport
            simp
          · cases hport
    · split at h
      · cases h
        simp
      · cases h

/-- What can go wrong with the upstream is said in one line. -/
theorem error_of_outcome {base : Bytes} {pr : ProxyResult} (h : Outcome base pr) :
    LF ∉ pr.error := by
  cases h with
  | badUrl h =>
    have hplain : ∀ e ∈ [ascii "unsupported scheme (want http://)", ascii "bad port",
        ascii "empty host"], LF ∉ ascii "bad upstream url: " ++ e := by decide
    exact hplain _ (parseUpstream_error h)
  | answered raw =>
    have hplain : ∀ e ∈ [[], ascii "bad upstream response", ascii "bad upstream status"],
        LF ∉ e := by decide
    exact hplain _ (parseUpstreamResponse_error raw)
  | _ => exact (by decide)

theorem proxyRequest_writesLines (harea : LF ∉ route.area) :
    WritesLines D globalLogLevel (Logged.proxyRequest s cfg req route auth) := by
  refine Noted.writes_silent_bind (forwardRequest_outcome _ req _ auth _) fun pr hpr => ?_
  have herror := error_of_outcome hpr
  have htexts : LF ∉ ascii "Upstream error: " ∧ LF ∉ ascii "Upstream " ∧ LF ∉ ascii " -> " := by
    decide
  dsimp only
  cases pr.ok with
  | false =>
    exact Noted.writes_seq (log_writesLines (by simp [herror, htexts])) fun _ =>
      replyAndClose_writesLines _
  | true =>
    exact Noted.writes_seq (log_writesLines (by simp [harea, htexts, not_LF_toDecimal])) fun _ =>
      replyAndClose_writesLines _

theorem maskToken_unbroken {token : Bytes} (h : LF ∉ token) : LF ∉ maskToken token := by
  have hstart : LF ∉ token.take 6 := fun hmem => h (List.mem_of_mem_take hmem)
  have htexts : LF ∉ ascii "...<len=" ∧ LF ∉ ascii ">" ∧ LF ∉ ascii "<empty>" := by decide
  rw [maskToken]
  split <;> simp [hstart, htexts, not_LF_toDecimal]

theorem authorize_writesLines (harea : LF ∉ route.area) (hscope : LF ∉ route.requiredScope) :
    WritesLines D globalLogLevel (Logged.authorize s cfg req route) := by
  rw [Logged.authorize]
  split
  · exact replyAndClose_writesLines _
  · refine Noted.writes_perform_bind fun auth hanswer => ?_
    obtain ⟨⟨clock, order, hverify⟩, hsub⟩ := hanswer
    have htexts : LF ∉ ascii "Auth failed: " ∧ LF ∉ ascii "Auth ok sub=" ∧ LF ∉ ascii "-" ∧
        LF ∉ ascii " token=" ∧ LF ∉ ascii "Forbidden: need " := by decide
    cases hok : auth.ok with
    | false =>
      have herror : ∀ e ∈ Jwt.verifyErrors, LF ∉ e := by decide
      simp only [Bool.not_false, if_true]
      exact Noted.writes_seq
        (log_writesLines (by simp [herror _ (Jwt.verifyJwt_error hverify), htexts])) fun _ =>
        replyAndClose_writesLines _
    | true =>
      have htoken := maskToken_unbroken (Jwt.token_unbroken hverify hok)
      simp only [Bool.not_true, Bool.false_eq_true, if_false]
      refine Noted.writes_seq (Noted.writes_note fun hshown => ?_) fun _ => ?_
      · have hdebug : globalLogLevel = .Debug := by
          cases globalLogLevel <;> first | rfl | cases hshown
        have hsub := hsub hdebug
        split <;> simp [hsub, htoken, htexts]
      · split
        · exact Noted.writes_seq (log_writesLines (by simp [hscope, htexts])) fun _ =>
            replyAndClose_writesLines _
        · split
          · exact replyAndClose_writesLines _
          · exact proxyRequest_writesLines harea

/-- The areas and the scopes of the routes are words of the source. -/
theorem route_unbroken (h : (matchRoute req.method req.target cfg).kind = .kApi) :
    LF ∉ (matchRoute req.method req.target cfg).area ∧
      LF ∉ (matchRoute req.method req.target cfg).requiredScope := by
  have hcases := matchRoute_cases req.method req.target cfg
  simp only [h, reduceCtorEq, false_and, false_or, true_and] at hcases
  obtain ⟨-, a, ha, -, hmethod, harea, -, hscope⟩ := hcases
  rw [harea, hscope]
  have hwords : ∀ m ∈ allowedMethods, ∀ a ∈ apiAreas, LF ∉ a ∧ LF ∉ scopeFor m a := by decide
  exact hwords _ hmethod _ ha

theorem not_LF_of_word {w : Bytes} (h : ∀ c ∈ w, isSpace c = false) : LF ∉ w := by
  intro hmem
  exact absurd (h LF hmem) (by decide)

theorem serve_writesLines (hip : LF ∉ ip) (hmethod : LF ∉ req.method) (htarget : LF ∉ req.target) :
    WritesLines D globalLogLevel (Logged.serve s ip cfg req) := by
  have htexts : LF ∉ ascii " " ∧ LF ∉ ascii "Rate limited: " := by decide
  refine Noted.writes_seq (log_writesLines (by simp [hmethod, htarget, htexts])) fun _ =>
    Noted.writes_seq (Noted.writes_silent _) fun allowed => ?_
  cases allowed with
  | false =>
    exact Noted.writes_seq (log_writesLines (by simp [hip, htexts])) fun _ =>
      replyAndClose_writesLines _
  | true =>
    simp only [Bool.not_true, Bool.false_eq_true, if_false]
    cases hkind : (matchRoute req.method req.target cfg).kind with
    | kApi =>
      obtain ⟨harea, hscope⟩ := route_unbroken hkind
      exact authorize_writesLines harea hscope
    | _ => exact replyAndClose_writesLines _

theorem handleAccepted_writesLines (hip : LF ∉ ip) (hmethod : LF ∉ req.method)
    (htarget : LF ∉ req.target) :
    WritesLines D globalLogLevel (Logged.handleAccepted s ip cfg req leftover) := by
  have hreturns := bodyPhase_returns s cfg { req with clientIp := ip } leftover
  rw [← Logged.erase_bodyPhase] at hreturns
  refine Noted.writes_bind hreturns bodyPhase_writesLines fun out hout => ?_
  cases out with
  | done r =>
    obtain ⟨body, rfl⟩ := hout r rfl
    exact serve_writesLines hip hmethod htarget
  | disconnected => exact Noted.writes_silent _
  | _ => exact replyAndClose_writesLines _

/-- What is accepted was parsed. -/
theorem intake_returns (s : Socket) : (intake s).Returns fun out => ∀ req leftover,
    out = .accepted req leftover → ∃ head, parseHttpRequest head = some req := by
  refine Prog.returns_bind fun read => ?_
  cases read with
  | done head =>
    intro req leftover heq
    rw [cutAndParse] at heq
    split at heq
    · cases heq
    · rename_i headPart rest hcut
      split at heq
      · cases heq
      · rename_i req' hparse
        cases heq
        exact ⟨headPart, hparse⟩
  | disconnected => exact fun req leftover heq => by cases heq
  | tooLarge => exact fun req leftover heq => by cases heq

/-- The method and the target of a parsed head are words. -/
theorem parsed_writesLines {head : Bytes} (hip : LF ∉ ip)
    (hparse : parseHttpRequest head = some req) (leftover : Bytes) :
    WritesLines D globalLogLevel (Logged.handleAccepted s ip cfg req leftover) := by
  obtain ⟨⟨-, hmethod⟩, -, htarget⟩ := parseHttpRequest_words hparse
  exact handleAccepted_writesLines hip (not_LF_of_word hmethod) (not_LF_of_word htarget)

/-- Whatever the client sends, what the handler logs of it are lines. -/
theorem handleClient_writesLines (hip : LF ∉ ip) :
    WritesLines D globalLogLevel (Logged.handleClient s ip cfg) := by
  have htext : LF ∉ ascii "New connection from " := by decide
  refine Noted.writes_seq (log_writesLines (by simp [hip, htext])) fun _ =>
    Noted.writes_silent_bind (intake_returns s) fun out hout => ?_
  cases out with
  | disconnected =>
    exact Noted.writes_seq (log_writesLines (by decide)) fun _ => Noted.writes_silent _
  | tooLarge =>
    exact Noted.writes_seq (log_writesLines (by decide)) fun _ => replyAndClose_writesLines _
  | malformed =>
    exact Noted.writes_seq (log_writesLines (by decide)) fun _ => replyAndClose_writesLines _
  | accepted req leftover =>
    obtain ⟨head, hparse⟩ := hout req leftover rfl
    exact parsed_writesLines hip hparse leftover

theorem serves_writesLines {p : Logged.LoggedIo Unit} (hp : Logged.ServesConnection s ip cfg p)
    (hip : LF ∉ ip) : WritesLines D globalLogLevel p := by
  cases hp with
  | whole => exact handleClient_writesLines hip
  | accepted hparse leftover => exact parsed_writesLines hip hparse leftover

/-- The messages of `main`, the first two with an error code of the system. -/
inductive MainNote : Note → Prop where
  | bindFailed (err : Nat) : MainNote ⟨.Debug, ascii "bind/listen failed: " ++ toDecimal err⟩
  | acceptFailed (err : Nat) : MainNote ⟨.Warn, ascii "accept failed: " ++ toDecimal err⟩
  | rejected : MainNote ⟨.Warn, ascii "Too many clients, connection rejected."⟩
  | timeoutFailed : MainNote ⟨.Warn, ascii "Cannot set recv timeout, closing."⟩

/-- What a handler has called and logged so far; its address is what `peerIp` writes. -/
structure LoggedRun (D : Deployment) (cfg : Config) (globalLogLevel : LogLevel)
    (evs : List (NotedEvent Op Note Res)) : Prop where
  started : ∃ s ip p rest, LF ∉ ip ∧ Logged.ServesConnection s ip cfg p ∧ p.Leads evs rest
  answered : ∀ e ∈ Noted.callsIn evs, PlainAnswer D globalLogLevel e

/-- The messages of one connection. -/
def notesOf (connId : Int) (calls : List LogCall) : List Note :=
  (calls.filter fun c => c.connId = connId).map LogCall.note

/-- The calls of `gwLog` in the order in which they take the mutex: those of main, and those of
each connection in the order of its run. The first connection has the number 1. -/
structure Logs (D : Deployment) (cfg : Config) (globalLogLevel : LogLevel)
    (connections : List (List (NotedEvent Op Note Res))) (calls : List LogCall) : Prop where
  stamped : ∀ c ∈ calls, 93 ∉ c.stamp ∧ LF ∉ c.stamp
  ran : ∀ evs ∈ connections, LoggedRun D cfg globalLogLevel evs
  source : ∀ c ∈ calls, (c.connId = -1 ∧ MainNote c.note) ∨
    ∃ (k : Nat) (evs : List (NotedEvent Op Note Res)), connections[k]? = some evs ∧ c.connId = k + 1
  notes : ∀ (k : Nat) (evs : List (NotedEvent Op Note Res)), connections[k]? = some evs →
    notesOf (k + 1) calls = Noted.notesIn evs

/-- What the text of a log tells of a connection. -/
def toldOf (connId : Int) (text : Bytes) : List Note := notesOf connId ((readLog text).filterMap id)

theorem MainNote.unbroken {n : Note} (h : MainNote n) : LF ∉ n.msg := by
  have htexts : LF ∉ ascii "bind/listen failed: " ∧ LF ∉ ascii "accept failed: " := by decide
  cases h with
  | bindFailed err => simp [htexts, not_LF_toDecimal]
  | acceptFailed err => simp [htexts, not_LF_toDecimal]
  | rejected => decide
  | timeoutFailed => decide

theorem LoggedRun.oneLine {evs : List (NotedEvent Op Note Res)}
    (h : LoggedRun D cfg globalLogLevel evs) :
    ∀ n ∈ Noted.notesIn evs, OneLine globalLogLevel n := by
  obtain ⟨⟨s, ip, p, rest, hip, hserves, hleads⟩, hanswered⟩ := h
  exact Noted.notes_of_leads (serves_writesLines hserves hip) hleads hanswered

variable {connections : List (List (NotedEvent Op Note Res))}

theorem Logs.readable (h : Logs D cfg globalLogLevel connections calls) {c : LogCall}
    (hc : c ∈ calls) (hshown : c.note.shown globalLogLevel = true) : c.Readable := by
  obtain ⟨hbracket, hstamp⟩ := h.stamped c hc
  rcases h.source c hc with ⟨hconn, hmain⟩ | ⟨k, evs, hk, hconn⟩
  · exact ⟨by omega, hbracket, hstamp, hmain.unbroken⟩
  · have hnote : c.note ∈ Noted.notesIn evs := by
      rw [← h.notes k evs hk]
      exact List.mem_map_of_mem (List.mem_filter.mpr ⟨hc, by simpa using hconn⟩)
    have honeLine := (h.ran evs (List.mem_of_getElem? hk)).oneLine _ hnote
    exact ⟨by omega, hbracket, hstamp, honeLine hshown⟩

theorem notesOf_shown (connId : Int) :
    notesOf connId (calls.filter fun c => c.note.shown globalLogLevel) =
      (notesOf connId calls).filter (Note.shown globalLogLevel) := by
  rw [notesOf, notesOf, List.filter_map, List.filter_filter, List.filter_filter]
  congr 2
  funext c
  exact Bool.and_comm _ _

/-- However the lines of the threads mix, the log is read back call by call, and tells of every
connection the messages of its run that the level lets through, in their order. -/
theorem log_reads_back (h : Logs D cfg globalLogLevel connections calls) :
    readLog (logText globalLogLevel calls) =
      (calls.filter fun c => c.note.shown globalLogLevel).map some ∧
    ∀ (k : Nat) (evs : List (NotedEvent Op Note Res)), connections[k]? = some evs →
      toldOf (k + 1) (logText globalLogLevel calls) =
        (Noted.notesIn evs).filter (Note.shown globalLogLevel) := by
  have hread := readLog_logText fun c hc hshown => h.readable hc hshown
  refine ⟨hread, ?_⟩
  intro k evs hk
  rw [toldOf, hread, List.filterMap_map, Function.id_comp, List.filterMap_some, notesOf_shown,
    h.notes k evs hk]

/-- A client that hangs up before it has sent a request. -/
def goneEvents : List (NotedEvent Op Note Res) :=
  [⟨.inr ⟨.Info, ascii "New connection from 10.0.0.7"⟩, ()⟩, ⟨.inl (.recv 4 4096), .closed⟩,
    ⟨.inr ⟨.Debug, ascii "Client disconnected while reading head."⟩, ()⟩,
    ⟨.inl (.closeSocket 4), ()⟩]

theorem goneEvents_logged : LoggedRun D cfg globalLogLevel goneEvents where
  started := by
    refine ⟨4, ascii "10.0.0.7", _, .ret (), by decide, .whole, ?_⟩
    rw [Logged.handleClient, intake, readHead, if_pos (by decide)]
    exact ⟨(), rfl, .closed, rfl, (), rfl, (), rfl, rfl⟩
  answered := by simp [goneEvents, Noted.callsIn, PlainAnswer]

/-- The request of the sample token, from its parsed head on. -/
def bearerEvents : List (NotedEvent Op Note Res) :=
  [⟨.inr ⟨.Info, ascii "GET /api/users/7"⟩, ()⟩, ⟨.inl (.allow []), true⟩,
    ⟨.inl (.verifyJwt Jwt.sampleToken (ascii "k") []), bearerAuth⟩,
    ⟨.inr ⟨.Debug, ascii "Auth ok sub=u1 token=eyJhbG...<len=148>"⟩, ()⟩] ++
  (Noted.quiet bearerForward ++ ⟨.inr ⟨.Info, ascii "Upstream users -> 200"⟩, ()⟩ ::
    Noted.quiet (replyTrace 4 bearerResponse))

theorem replyAndClose_quiet : (Logged.replyAndClose 4 bearerResponse).Runs
    (Noted.quiet (replyTrace 4 bearerResponse)) () := by
  have hsend := Proxy.sendAll_atOnce 4 bearer_sizes.2.2.1 bearer_sizes.2.2.2
  rw [← HandleClient.sendAll_eq] at hsend
  have hlogged : (Noted.silent (HandleClient.sendAll 4 (buildResponse bearerResponse) 0) >>=
      fun sent => if !sent then Logged.log .Debug (ascii "Send failed.") else pure ()).Runs
        (Noted.quiet [sendsAll 4 (buildResponse bearerResponse)]) () :=
    Prog.runs_bind.mpr ⟨_, true, [], rfl, Noted.runs_silent hsend, rfl, rfl⟩
  refine Prog.runs_bind.mpr ⟨_ :: Noted.quiet [sendsAll 4 (buildResponse bearerResponse)], (), [_],
    rfl, ⟨(), _, rfl, hlogged⟩, (), [], rfl, rfl, rfl⟩

theorem bearerRequest_logs : (Logged.handleAccepted 4 [] bearerConfig bearerRequest []).Runs
    bearerEvents () := by
  obtain ⟨hsecret, hissuer, -, -, hbody, -⟩ := bearerConfig_settings
  obtain ⟨hroute, htoken, hlen, hencoding, hlength⟩ := bearerRequest_read
  have hunframed : Logged.bodyPhase 4 bearerConfig { bearerRequest with clientIp := [] } [] =
      .ret (.done bearerRequest) := Logged.bodyPhase_unframed hbody hencoding hlength
  have hproxy : (Logged.proxyRequest 4 bearerConfig bearerRequest bearerRoute bearerAuth).Runs
      (Noted.quiet bearerForward ++ ⟨.inr ⟨.Info, ascii "Upstream users -> 200"⟩, ()⟩ ::
        Noted.quiet (replyTrace 4 bearerResponse)) () := by
    refine Prog.runs_bind.mpr ⟨_, _, _, rfl, Noted.runs_silent bearerRequest_forwarded, ?_⟩
    exact ⟨(), _, rfl, replyAndClose_quiet⟩
  have hserve := @Logged.serve_leads 4 [] _ _ _ bearerAuth _ hroute rfl htoken hlen rfl (by decide)
    (by decide)
  have htexts : bearerRequest.method ++ ascii " " ++ bearerRequest.target =
      ascii "GET /api/users/7" ∧
      ascii "Auth ok sub=" ++ (if bearerAuth.sub = [] then ascii "-" else bearerAuth.sub) ++
        ascii " token=" ++ maskToken Jwt.sampleToken =
      ascii "Auth ok sub=u1 token=eyJhbG...<len=148>" := by
    decide +kernel
  rw [hsecret, hissuer, htexts.1, htexts.2] at hserve
  rw [Logged.handleAccepted, hunframed]
  exact Prog.runs_of_leads hserve hproxy

theorem bearerEvents_logged : LoggedRun sampleDeployment bearerConfig globalLogLevel
    bearerEvents where
  started := ⟨4, [], _, .ret (), List.not_mem_nil, .accepted parseHttpRequest_bearerRequest [],
    Prog.runs_iff_leads.mp bearerRequest_logs⟩
  answered := by
    simp only [bearerEvents, Noted.callsIn_append, Noted.callsIn_quiet, Noted.callsIn,
      bearerForward, connectTrace, exchangeTrace, replyTrace, sendsAll, List.cons_append,
      List.nil_append, List.forall_mem_cons, PlainAnswer, true_and]
    exact ⟨⟨⟨Jwt.sampleClock, [.exp, .iat, .nbf], sampleToken_verified⟩, fun _ => by decide⟩,
      List.forall_mem_nil _⟩

theorem notesIn_bearerEvents : Noted.notesIn bearerEvents =
    [⟨.Info, ascii "GET /api/users/7"⟩,
      ⟨.Debug, ascii "Auth ok sub=u1 token=eyJhbG...<len=148>"⟩,
      ⟨.Info, ascii "Upstream users -> 200"⟩] := by
  simp [bearerEvents, Noted.notesIn]

/-- The log of the two, and of a client that was rejected meanwhile. -/
def mixedCalls : List LogCall :=
  [⟨ascii "2024-05-01T12:00:00", 1, ⟨.Info, ascii "New connection from 10.0.0.7"⟩⟩,
    ⟨ascii "2024-05-01T12:00:00", 2, ⟨.Info, ascii "GET /api/users/7"⟩⟩,
    ⟨ascii "2024-05-01T12:00:01", -1, ⟨.Warn, ascii "Too many clients, connection rejected."⟩⟩,
    ⟨ascii "2024-05-01T12:00:01", 2, ⟨.Debug, ascii "Auth ok sub=u1 token=eyJhbG...<len=148>"⟩⟩,
    ⟨ascii "2024-05-01T12:00:02", 1, ⟨.Debug, ascii "Client disconnected while reading head."⟩⟩,
    ⟨ascii "2024-05-01T12:00:03", 2, ⟨.Info, ascii "Upstream users -> 200"⟩⟩]

theorem mixedCalls_logged :
    Logs sampleDeployment bearerConfig globalLogLevel [goneEvents, bearerEvents] mixedCalls where
  stamped := by decide
  ran evs hevs := by
    rcases List.mem_pair.mp hevs with rfl | rfl
    · exact goneEvents_logged
    · exact bearerEvents_logged
  source c hc := by
    simp only [mixedCalls, List.mem_cons, List.not_mem_nil, or_false] at hc
    rcases hc with rfl | rfl | rfl | rfl | rfl | rfl
    · exact .inr ⟨0, _, rfl, rfl⟩
    · exact .inr ⟨1, _, rfl, rfl⟩
    · exact .inl ⟨rfl, .rejected⟩
    · exact .inr ⟨1, _, rfl, rfl⟩
    · exact .inr ⟨0, _, rfl, rfl⟩
    · exact .inr ⟨1, _, rfl, rfl⟩
  notes k evs hk := by
    match k with
    | 0 =>
      cases hk
      rfl
    | 1 =>
      cases hk
      exact notesIn_bearerEvents.symm
    | k + 2 => cases hk

/-- Of the second connection the log tells its request, its token's mask and its upstream. -/
theorem mixedCalls_read_back : toldOf 2 (logText .Debug mixedCalls) =
    [⟨.Info, ascii "GET /api/users/7"⟩,
      ⟨.Debug, ascii "Auth ok sub=u1 token=eyJhbG...<len=148>"⟩,
      ⟨.Info, ascii "Upstream users -> 200"⟩] := by
  have hlogs : Logs sampleDeployment bearerConfig .Debug [goneEvents, bearerEvents] mixedCalls :=
    mixedCalls_logged
  have htold := (log_reads_back hlogs).2 1 bearerEvents rfl
  rw [notesIn_bearerEvents] at htold
  exact htold

end Gateway

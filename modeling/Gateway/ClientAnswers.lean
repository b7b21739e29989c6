import Mathlib
import Gateway.DescriptorOwners

/-! What a client is sent: the beginning of the one response that its handler has built. -/
namespace Gateway

open Program Transition Accounts

variable {D : Deployment} {cfg : Config} {τ : Deployed} {tr : List (Deployed × Label)}
  {s : Socket} {ip : Bytes} {evs pre more : Trace} {p : Io Unit} {req : HttpRequest}
  {route : RouteResult}

/-- The bytes that this socket accepts from a call. -/
def sentOnBy (s : Socket) (e : Event Op Res) : Bytes :=
  if e.op.target = some s then sentByEvent e else []

/-- What this socket has accepted, call after call. -/
def sentOn (s : Socket) (evs : Trace) : Bytes := evs.flatMap (sentOnBy s)

@[simp] theorem sentOn_nil : sentOn s [] = [] := rfl

@[simp] theorem sentOn_cons {e : Event Op Res} :
    sentOn s (e :: evs) = sentOnBy s e ++ sentOn s evs := rfl

@[simp] theorem sentOn_append : sentOn s (pre ++ evs) = sentOn s pre ++ sentOn s evs :=
  List.flatMap_append

theorem sentOnBy_other {e : Event Op Res} (h : sentByEvent e = []) : sentOnBy s e = [] := by
  rw [sentOnBy, h, ite_self]

/-- The call begins no reply and sends nothing to the client. -/
def SaysNothing (s : Socket) (e : Event Op Res) : Prop := replyOf e = none ∧ sentOnBy s e = []

theorem replies_of_quiet (h : ∀ e ∈ evs, SaysNothing s e) :
    repliesOf evs = [] ∧ sentOn s evs = [] :=
  ⟨List.filterMap_eq_nil_iff.mpr fun e he => (h e he).1,
    List.flatMap_eq_nil_iff.mpr fun e he => (h e he).2⟩

/-- Nothing is said to the client, or nothing before the one reply and only its response after. -/
inductive Answered (s : Socket) : Trace → Prop
  | silent {evs : Trace} (quiet : ∀ e ∈ evs, SaysNothing s e) : Answered s evs
  | replied {pre post : Trace} {resp : HttpResponse} (quiet : ∀ e ∈ pre, SaysNothing s e)
      (single : repliesOf post = []) (sent : sentOn s post <+: buildResponse resp) :
      Answered s (pre ++ ⟨.invoke (.reply s resp), ()⟩ :: post)

theorem Answered.after (hpre : ∀ e ∈ pre, SaysNothing s e) (h : Answered s evs) :
    Answered s (pre ++ evs) := by
  cases h with
  | silent quiet => exact .silent (List.forall_mem_append.mpr ⟨hpre, quiet⟩)
  | replied quiet single sent =>
    rw [← List.append_assoc]
    exact .replied (List.forall_mem_append.mpr ⟨hpre, quiet⟩) single sent

/-- What holds of a whole connection, at every moment of it. -/
theorem Answered.begun (h : Answered s (evs ++ more)) : repliesOf evs = [] ∧ sentOn s evs = [] ∨
    ∃ resp, repliesOf evs = [(s, resp)] ∧ sentOn s evs <+: buildResponse resp := by
  generalize hall : evs ++ more = all at h
  cases h with
  | silent quiet =>
    subst hall
    exact .inl (replies_of_quiet fun e he => quiet e (List.mem_append_left _ he))
  | @replied pre post resp quiet single sent =>
    rcases List.append_eq_append_iff.mp hall with ⟨mid, rfl, -⟩ | ⟨mid, rfl, hmid⟩
    · exact .inl (replies_of_quiet fun e he => quiet e (List.mem_append_left _ he))
    · obtain ⟨hreplies, hsent⟩ := replies_of_quiet quiet
      cases mid with
      | nil => exact .inl (by simpa using ⟨hreplies, hsent⟩)
      | cons e mid =>
        obtain ⟨rfl, hpost⟩ := List.cons.inj hmid
        have hpost : post = mid ++ more := hpost
        rw [hpost, repliesOf_append, List.append_eq_nil_iff] at single
        rw [hpost, sentOn_append] at sent
        refine .inr ⟨resp, by simp [hreplies, single.1, replyOf], ?_⟩
        have hmark : sentOnBy s ⟨.invoke (.reply s resp), ()⟩ = [] := sentOnBy_other rfl
        rw [sentOn_append, hsent, sentOn_cons, hmark]
        exact (List.prefix_append _ _).trans sent

/-- Every run answers the client, unless the client's descriptor is handed out once more. -/
def AnswersClient (s : Socket) (p : Io Unit) : Prop :=
  ∀ evs, p.Runs evs () → (∀ e ∈ evs, NotHandedOut s e) → Answered s evs

theorem AnswersClient.after {α : Type} {p : Io α} {f : α → Io Unit}
    (hp : ∀ pre a, p.Runs pre a → (∀ e ∈ pre, NotHandedOut s e) → ∀ e ∈ pre, SaysNothing s e)
    (hf : ∀ a, AnswersClient s (f a)) : AnswersClient s (p >>= f) := by
  intro evs hrun hfresh
  obtain ⟨pre, a, rest, rfl, hpre, hrest⟩ := Prog.runs_bind.mp hrun
  obtain ⟨hfirst, hlast⟩ := List.forall_mem_append.mp hfresh
  exact (hf a rest hrest hlast).after (hp pre a hpre hfirst)

/-- Calls that do not send come before the answer. -/
theorem AnswersClient.after_calls {α : Type} {P : Op → Prop} {p : Io α} {f : α → Io Unit}
    (hp : p.Calls P) (hquiet : ∀ o, P o → ∀ r, SaysNothing s ⟨o, r⟩)
    (hf : ∀ a, AnswersClient s (f a)) : AnswersClient s (p >>= f) :=
  .after (fun _ _ hrun _ e he => hquiet e.op (Prog.calls_of_runs hp hrun e he) e.res) hf

theorem closeSocket_answers (s : Socket) : AnswersClient s (closeSocket s) := by
  rintro evs ⟨_, rest, rfl, rfl, -⟩ -
  exact .silent (List.forall_mem_singleton.mpr ⟨rfl, sentOnBy_other rfl⟩)

theorem replyAndClose_answers (resp : HttpResponse) : AnswersClient s (replyAndClose s resp) := by
  rintro evs h -
  obtain ⟨pre, _, post, rfl, hreply, hclose⟩ := Prog.runs_bind.mp h
  obtain ⟨_, rest, rfl, hrest⟩ := hreply
  obtain ⟨_, tail, rfl, rfl, -⟩ := hclose
  simp only [Prog.bind] at hrest
  obtain ⟨sends, _, tail, rfl, hsend, rfl, -⟩ := Prog.runs_bind.mp hrest
  have hcalls := Prog.calls_of_runs (HandleClient.sendAll_calls s (buildResponse resp) 0) hsend
  have hreplies : repliesOf sends = [] := by
    apply List.filterMap_eq_nil_iff.mpr
    rintro ⟨o, r⟩ he
    obtain ⟨chunk, rfl⟩ := hcalls _ he
    rfl
  have hsent : sentOn s sends = sentBytes sends := by
    apply List.flatMap_congr
    rintro ⟨o, r⟩ he
    obtain ⟨chunk, rfl⟩ := hcalls _ he
    exact if_pos rfl
  rw [HandleClient.sendAll_eq] at hsend
  have haccepted := (Proxy.sendAll_accepted (Prog.runs_iff_leads.mp hsend)).1
  have hlast : sentOn s [⟨.closeSocket s, ()⟩] = [] := by
    rw [sentOn_cons, sentOnBy_other rfl, sentOn_nil, List.append_nil]
  refine Answered.replied (List.forall_mem_nil _) ?_ ?_
  · simp [hreplies, replyOf]
  · rw [List.append_nil]
    change sentOn s (sends ++ [⟨.closeSocket s, ()⟩]) <+: buildResponse resp
    rw [sentOn_append, hsent, hlast, List.append_nil, haccepted]
    exact List.take_prefix _ _

/-- No call concerns the client's socket. -/
def spareMonitor (s : Socket) : Monitor Op Res Unit where
  promised := NotHandedOut s
  step := fun _ e => if e.op.target = some s then none else some ()

theorem spare_step {e : Event Op Res} (h : e.op.target ≠ some s) :
    (spareMonitor s).step () e = some () := if_neg h

theorem spare_upstream (s : Socket) :
    UpstreamRules (spareMonitor s) (fun _ _ => ()) (· ≠ s) := by
  constructor
  case mark => exact fun _ _ _ _ => spare_step nofun
  case resolve => exact fun _ _ _ => spare_step nofun
  case free => exact fun _ _ _ => spare_step nofun
  case noSocket => exact fun _ _ => spare_step nofun
  case socket =>
    intro _ ai u hkept
    refine ⟨?_, spare_step nofun⟩
    rintro rfl
    exact hkept ai rfl
  case uses =>
    intro _ u o r hu ho
    have hother : o.target ≠ some s := by
      rw [target_of_onSocket ho]
      exact fun h => hu (Option.some.inj h)
    exact spare_step hother
  case close => exact fun _ u hu => spare_step fun h => hu (Option.some.inj h)

theorem spared_of_follow {g : Unit} (h : (spareMonitor s).follow () evs = some g) :
    ∀ e ∈ evs, e.op.target ≠ some s := by
  induction evs with
  | nil => simp
  | cons e evs ih =>
    rw [Monitor.follow_cons] at h
    by_cases he : e.op.target = some s
    · rw [show (spareMonitor s).step () e = none from if_pos he] at h
      cases h
    · rw [show (spareMonitor s).step () e = some () from spare_step he] at h
      exact List.forall_mem_cons.mpr ⟨he, ih h⟩

/-- While the request is with the upstream, the client is sent nothing. -/
theorem forwardRequest_quiet {base path : Bytes} {auth : AuthInfo} {timeoutMs : Int}
    {pr : ProxyResult} (hrun : (forwardRequest base req path auth timeoutMs).Runs evs pr)
    (hfresh : ∀ e ∈ evs, NotHandedOut s e) : ∀ e ∈ evs, SaysNothing s e := by
  have hwp := forwardRequest_wp (spare_upstream s) base req path auth timeoutMs
  obtain ⟨_, hfollow, -⟩ := Monitor.follow_of_wp hwp hrun hfresh
  intro e he
  exact ⟨List.filterMap_eq_nil_iff.mp (forwardRequest_invokes hrun).1 e he,
    if_neg (spared_of_follow hfollow e he)⟩

theorem quiet_recv {o : Op} (h : o = .recv s 4096) (r : Res o) : SaysNothing s ⟨o, r⟩ := by
  subst h
  exact ⟨rfl, sentOnBy_other rfl⟩

theorem authorize_answers : AnswersClient s (authorize s cfg req route) := by
  have hverify : ∀ token secret issuer, (perform (.verifyJwt token secret issuer)).Calls fun o =>
      ∃ t c i, o = .verifyJwt t c i := fun _ _ _ => ⟨⟨_, _, _, rfl⟩, fun _ => trivial⟩
  rw [authorize]
  split
  · exact replyAndClose_answers _
  · apply AnswersClient.after_calls (hverify _ _ _)
    · rintro _ ⟨t, c, i, rfl⟩ r
      exact ⟨rfl, sentOnBy_other rfl⟩
    · intro auth
      split
      · exact replyAndClose_answers _
      · split
        · exact replyAndClose_answers _
        · split
          · exact replyAndClose_answers _
          · exact .after (fun _ _ => forwardRequest_quiet) fun _ => replyAndClose_answers _

theorem serve_answers : AnswersClient s (serve s ip cfg req) := by
  have hallow : (perform (.allow ip)).Calls (· = .allow ip) := ⟨rfl, fun _ => trivial⟩
  rw [serve]
  apply AnswersClient.after_calls hallow
  · rintro _ rfl r
    exact ⟨rfl, sentOnBy_other rfl⟩
  · intro admitted
    split
    · exact replyAndClose_answers _
    · dsimp only
      split
      · exact replyAndClose_answers _
      · exact replyAndClose_answers _
      · exact replyAndClose_answers _
      · exact authorize_answers

theorem handleAccepted_answers (leftover : Bytes) :
    AnswersClient s (handleAccepted s ip cfg req leftover) := by
  apply AnswersClient.after_calls (bodyPhase_receives s cfg _ leftover) fun _ => quiet_recv
  intro out
  cases out with
  | disconnected => exact closeSocket_answers s
  | done req => exact serve_answers
  | _ => exact replyAndClose_answers _

theorem serves_answers (h : ServesConnection s ip cfg p) : AnswersClient s p := by
  cases h with
  | whole =>
    rw [handleClient_eq]
    apply AnswersClient.after_calls (intake_receives s) fun _ => quiet_recv
    intro out
    cases out with
    | disconnected => exact closeSocket_answers s
    | accepted req leftover => exact handleAccepted_answers leftover
    | _ => exact replyAndClose_answers _
  | accepted req leftover => exact handleAccepted_answers leftover

/-- A program can be answered to its end without this descriptor being handed out. -/
theorem exists_freshRun (s : Socket) (p : Io Unit) :
    ∃ evs, p.Runs evs () ∧ ∀ e ∈ evs, NotHandedOut s e := by
  induction p with
  | ret a => exact ⟨[], ⟨rfl, rfl⟩, by simp⟩
  | call o k ih =>
    obtain ⟨r, hr⟩ : ∃ r, NotHandedOut s ⟨o, r⟩ := by
      by_cases ho : ∃ ai, o = .socket ai
      · obtain ⟨ai, rfl⟩ := ho
        exact ⟨none, fun ai' h => by cases h⟩
      · obtain ⟨r⟩ : Nonempty (Res o) := inferInstance
        exact ⟨r, fun ai h => ho ⟨ai, congrArg Event.op h⟩⟩
    obtain ⟨evs, hrun, hfresh⟩ := ih r
    exact ⟨_, ⟨r, evs, rfl, hrun⟩, List.forall_mem_cons.mpr ⟨hr, hfresh⟩⟩

/-- At every moment the socket of a client has accepted nothing, or the beginning of the one
response that its handler has built, and nothing else from this handler. -/
theorem clients_answered (h : DeployedRun D cfg tr τ) {x : Entry} (hx : x ∈ τ.log) :
    ∃ s ip p, τ.starts[x.handler]? = some p ∧ ServesConnection s ip cfg p ∧
      (repliesOf (τ.callsOf x.handler) = [] ∧ sentOn s (τ.callsOf x.handler) = [] ∨
        ∃ resp, Built resp ∧ repliesOf (τ.callsOf x.handler) = [(s, resp)] ∧
          sentOn s (τ.callsOf x.handler) <+: buildResponse resp) := by
  obtain ⟨hchron, held, hshared⟩ := sharedOut_run h
  have hcall : (x.handler, x.event) ∈ τ.log.map Entry.call := List.mem_map_of_mem hx
  obtain ⟨p, hp⟩ := hchron.recorded.exists_start hcall
  obtain ⟨s, hs, ip, hserves⟩ := exists_getElem? hshared.serves hp
  rw [List.getElem?_map] at hs
  obtain ⟨q, hq, rfl⟩ := Option.map_eq_some_iff.mp hs
  have hfresh : ∀ e ∈ τ.callsOf x.handler, NotHandedOut q.1 e := fun e he =>
    hshared.fresh x.handler q e hq (mem_traceOf.mp he)
  obtain ⟨rest, -, hleads⟩ := hchron.recorded.exists_rest hp
  obtain ⟨more, hrun, hmore⟩ := exists_freshRun q.1 rest
  have hall : p.Runs (τ.callsOf x.handler ++ more) () := Prog.runs_of_leads hleads hrun
  have hanswered := serves_answers hserves _ hall (List.forall_mem_append.mpr ⟨hfresh, hmore⟩)
  refine ⟨q.1, ip, p, hp, hserves, hanswered.begun.imp_right ?_⟩
  rintro ⟨resp, hreplies, hsent⟩
  have hmem : (q.1, resp) ∈ repliesOf (τ.callsOf x.handler ++ more) := by
    rw [repliesOf_append, hreplies]
    exact List.mem_cons_self
  exact ⟨resp, built_of_mem_replies (serves_calls hserves) hall _ hmem, hreplies, hsent⟩

/-- The sample client is sent the whole response to its request, and the upstream the request. -/
theorem bearerRequest_answered : ∃ tr τ x, DeployedRun sampleDeployment bearerConfig tr τ ∧
    x ∈ τ.log ∧ Built bearerResponse ∧
    repliesOf (τ.callsOf x.handler) = [(4, bearerResponse)] ∧
    sentOn 4 (τ.callsOf x.handler) = buildResponse bearerResponse ∧
    sentOn 5 (τ.callsOf x.handler) = bearerWire := by
  obtain ⟨tr, τ, h⟩ := bearerRequest_alone
  have hx : (⟨0, ⟨.closeSocket 4, ()⟩, 1⟩ : Entry) ∈ τ.log := by
    rw [h.log]
    simp [bearerTrace, replyTrace]
  have hreplies : repliesOf (τ.callsOf 0) = [(4, bearerResponse)] := by
    rw [h.callsOf]
    rfl
  have hsent : sentOn 4 (τ.callsOf 0) = buildResponse bearerResponse ∧
      sentOn 5 (τ.callsOf 0) = bearerWire := by
    rw [h.callsOf]
    simp [bearerTrace, bearerForward, connectTrace, exchangeTrace, replyTrace, sendsAll, sentOnBy,
      sentByEvent, Op.target]
  refine ⟨tr, τ, _, h.run, hx, ?_, hreplies, hsent⟩
  obtain ⟨s, ip, p, -, -, ⟨hnone, -⟩ | ⟨resp, hbuilt, hone, -⟩⟩ := clients_answered h.run hx
  · cases hreplies.symm.trans hnone
  · cases hreplies.symm.trans hone
    exact hbuilt

end Gateway

import Mathlib
import Gateway.HandleClient
import Gateway.UpstreamRequest

/-! Which failures of the upstream exchange are answered as timeouts. -/
namespace Gateway

open Program

variable {base forwardPath : Bytes} {req : HttpRequest} {auth : AuthInfo} {timeoutMs : Int}
  {evs : Trace} {pr : ProxyResult}

/-- The configured timeout expired: in the wait for a connection, a send or a receive. -/
def timeoutExpired (evs : Trace) : Bool :=
  evs.any isConnectTimeout || evs.any isTransferTimeout

def upstreamTimeoutResponse : HttpResponse :=
  jsonError 504 (ascii "upstream_timeout") (ascii "Upstream module timed out.")

/-- An expired timeout is answered with 504, every other failure with 502. -/
structure ReportsCause (evs : Trace) (pr : ProxyResult) : Prop where
  timeout : timeoutExpired evs = true → relayResponse pr = upstreamTimeoutResponse
  other : timeoutExpired evs = false → pr.ok = false →
    relayResponse pr = jsonError 502 (ascii "bad_gateway") (ascii "Upstream error: " ++ pr.error)

/-- The call that ran into the timeout ends the exchange, which has then failed. -/
theorem failed_of_timeoutExpired
    (hrun : Prog.Runs (forwardRequest base req forwardPath auth timeoutMs) evs pr)
    (h : timeoutExpired evs = true) : pr.ok = false := by
  have hf := forwardRequest_runs hrun
  rcases Bool.or_eq_true_iff.mp h with hc | ht
  · exact (hf.connectTimeout hc).2
  · exact hf.transferTimeout ht

/-- The cause is reported exactly when no send and no receive ran into its timeout. -/
theorem reportsCause_iff
    (hrun : Prog.Runs (forwardRequest base req forwardPath auth timeoutMs) evs pr) :
    ReportsCause evs pr ↔ evs.any isTransferTimeout = false := by
  have hf := forwardRequest_runs hrun
  constructor
  · intro h
    by_contra hne
    have ht : evs.any isTransferTimeout = true := by simpa using hne
    have hc : evs.any isConnectTimeout = false := by
      by_contra hc
      have hno := (hf.connectTimeout (by simpa using hc)).1
      exact hne hno
    have hres := h.timeout (by simp [timeoutExpired, ht])
    have hok := hf.transferTimeout ht
    have hto : pr.timedOut = false := by rw [hf.timedOut, hc]
    have hstatus := congrArg HttpResponse.status hres
    simp [relayResponse, hok, hto, upstreamTimeoutResponse, jsonError] at hstatus
  · intro ht
    have hexp : timeoutExpired evs = pr.timedOut := by
      simp [timeoutExpired, ht, hf.timedOut]
    constructor
    · intro h
      have hok := failed_of_timeoutExpired hrun h
      rw [hexp] at h
      simp [relayResponse, hok, h, upstreamTimeoutResponse]
    · intro h hok
      rw [hexp] at h
      simp [relayResponse, hok, h]

def sampleAddr : AddrInfo := ⟨2, 1, 6, ascii "10.0.0.2"⟩

/-- The single address of the upstream does not answer in time. -/
def connectTimeoutTrace : Trace :=
  [⟨.invoke (.forwardRequest (ascii "http://users") queryRequest (ascii "/7") {}), ()⟩,
    ⟨.getaddrinfo (ascii "users") (ascii "80"), ⟨0, [sampleAddr]⟩⟩, ⟨.socket sampleAddr, some 4⟩,
    ⟨.getFl 4, some 2⟩, ⟨.setFl 4 (2 ||| O_NONBLOCK), true⟩,
    ⟨.connect 4 sampleAddr, .error .EINPROGRESS⟩, ⟨.select 4 5000, .timeout⟩,
    ⟨.closeSocket 4, ()⟩, ⟨.freeaddrinfo [sampleAddr], ()⟩]

theorem parseUpstream_sample :
    parseUpstream (ascii "http://users") = .ok ⟨ascii "users", 80, []⟩ := by
  decide +kernel

theorem connectTimeoutTrace_runs :
    Prog.Runs (forwardRequest (ascii "http://users") queryRequest (ascii "/7") {} 5000)
      connectTimeoutTrace { error := ascii "connect timeout", timedOut := true } := by
  refine ⟨(), _, rfl, ?_⟩
  simp only [Prog.bind, parseUpstream_sample]
  refine ⟨⟨0, [sampleAddr]⟩, _, rfl, ?_⟩
  simp only [Prog.bind]
  exact ⟨some 4, _, rfl, some 2, _, rfl, true, _, rfl, .error .EINPROGRESS, _, rfl, .timeout, _,
    rfl, (), _, rfl, (), _, rfl, rfl, rfl⟩

theorem connectTimeout_reported :
    ReportsCause connectTimeoutTrace { error := ascii "connect timeout", timedOut := true } ↔
      connectTimeoutTrace.any isTransferTimeout = false :=
  reportsCause_iff connectTimeoutTrace_runs

/-- The upstream accepts the connection, and the first send times out: the answer is 502. -/
theorem sendTimeout_answered_502 :
    ∃ evs pr, Prog.Runs
        (forwardRequest (ascii "http://users") queryRequest (ascii "/7") {} 5000) evs pr ∧
      timeoutExpired evs = true ∧ pr.ok = false ∧
      (relayResponse pr).status = 502 ∧ ¬ ReportsCause evs pr := by
  have hne : requestWire ⟨ascii "users", 80, []⟩ queryRequest (ascii "/7") {} ≠ [] := by
    decide +kernel
  obtain ⟨evs, pr, hex, htime⟩ := exchange_sendTimeout 4 5000 hne
  obtain ⟨pre, hrun, hc⟩ := forwardRequest_connects parseUpstream_sample hex
  have htime' : (pre ++ evs).any isTransferTimeout = true := by simp [htime]
  have hf := forwardRequest_runs hrun
  have hok := hf.transferTimeout htime'
  have hto : pr.timedOut = false := by
    rw [hf.timedOut, Bool.eq_false_iff]
    intro hconn
    simp [(hf.connectTimeout hconn).1] at htime'
  have hstatus : (relayResponse pr).status = 502 := by simp [relayResponse, hok, hto, jsonError]
  refine ⟨pre ++ evs, pr, hrun, by simp [timeoutExpired, htime'], hok, hstatus, ?_⟩
  intro h
  have hres := h.timeout (by simp [timeoutExpired, htime'])
  rw [hres] at hstatus
  simp [upstreamTimeoutResponse, jsonError] at hstatus

end Gateway

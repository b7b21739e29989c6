import Mathlib
import Gateway.Proxy

/-! The runs of `forwardRequest`, phase by phase: what each sends, receives and reports. -/
namespace Gateway

open Program

variable {s : Socket} {ai : AddrInfo} {timeoutMs : Int} {evs evs' : Trace} {wire raw : Bytes}

/-- The bytes one call hands to the network. -/
def sentByEvent : Event Op Res → Bytes
  | ⟨.send _ data _, r⟩ => data.take r.value.toNat
  | _ => []

/-- The bytes one call takes from the network. -/
def receivedByEvent : Event Op Res → Bytes
  | ⟨.recv _ _, .data bytes _ _⟩ => bytes
  | _ => []

def sentBytes (evs : Trace) : Bytes := evs.flatMap sentByEvent

def receivedBytes (evs : Trace) : Bytes := evs.flatMap receivedByEvent

/-- What one receive tells about the stream. -/
inductive Receipt where
  | data (bytes : Bytes)
  | closed
  | failed
  deriving DecidableEq

def receiptOf : Event Op Res → Option Receipt
  | ⟨.recv _ _, .data bytes _ _⟩ => some (.data bytes)
  | ⟨.recv _ _, .closed⟩ => some .closed
  | ⟨.recv _ _, .error _⟩ => some .failed
  | _ => none

def Receipt.bytes : Receipt → Bytes
  | .data bytes => bytes
  | _ => []

/-- The results of the receives of a run, in order. -/
def receipts (evs : Trace) : List Receipt := evs.filterMap receiptOf

/-- A receive that reports the end of the stream. -/
def isRecvClosed : Event Op Res → Bool
  | ⟨.recv _ _, .closed⟩ => true
  | _ => false

/-- The wait for a connection expired. -/
def isConnectTimeout : Event Op Res → Bool
  | ⟨.select _ _, .timeout⟩ => true
  | _ => false

/-- A send or a receive ran into its socket timeout. -/
def isTransferTimeout : Event Op Res → Bool
  | ⟨.send _ _ _, r⟩ => r.value == -1 && r.errno.isTimeout
  | ⟨.recv _ _, .error e⟩ => e.isTimeout
  | _ => false

/-- A call that moves no payload. -/
def IsControl : Op → Prop
  | .recv _ _ | .send _ _ _ => False
  | _ => True

@[simp] theorem sentBytes_nil : sentBytes [] = [] := rfl

@[simp] theorem receivedBytes_nil : receivedBytes [] = [] := rfl

@[simp] theorem sentBytes_cons {e : Event Op Res} :
    sentBytes (e :: evs) = sentByEvent e ++ sentBytes evs := List.flatMap_cons

@[simp] theorem receivedBytes_cons {e : Event Op Res} :
    receivedBytes (e :: evs) = receivedByEvent e ++ receivedBytes evs := List.flatMap_cons

@[simp] theorem sentBytes_append : sentBytes (evs ++ evs') = sentBytes evs ++ sentBytes evs' :=
  List.flatMap_append

@[simp] theorem receivedBytes_append :
    receivedBytes (evs ++ evs') = receivedBytes evs ++ receivedBytes evs' :=
  List.flatMap_append

@[simp] theorem receipts_nil : receipts [] = [] := rfl

@[simp] theorem receipts_cons {e : Event Op Res} :
    receipts (e :: evs) = (receiptOf e).toList ++ receipts evs := by
  cases h : receiptOf e <;> simp [receipts, h]

@[simp] theorem receipts_append : receipts (evs ++ evs') = receipts evs ++ receipts evs' :=
  List.filterMap_append

/-- The receipts determine what was received and whether the end was seen. -/
theorem received_eq_receipts (evs : Trace) :
    receivedBytes evs = (receipts evs).flatMap Receipt.bytes ∧
      evs.any isRecvClosed = (receipts evs).any (· == .closed) := by
  have hev : ∀ e : Event Op Res, receivedByEvent e = (receiptOf e).toList.flatMap Receipt.bytes ∧
      isRecvClosed e = (receiptOf e).toList.any (· == .closed) := by
    rintro ⟨o, r⟩
    cases o with
    | recv s n =>
      cases r with
      | data bytes pos le => simp [receivedByEvent, receiptOf, Receipt.bytes, isRecvClosed]
      | closed => simp [receivedByEvent, receiptOf, Receipt.bytes, isRecvClosed]
      | error e => simp [receivedByEvent, receiptOf, Receipt.bytes, isRecvClosed]
    | _ => exact ⟨rfl, rfl⟩
  induction evs with
  | nil => exact ⟨rfl, rfl⟩
  | cons e evs ih =>
    rw [receivedBytes_cons, List.any_cons, receipts_cons, List.flatMap_append, List.any_append,
      (hev e).1, (hev e).2, ih.1, ih.2]
    exact ⟨rfl, rfl⟩

theorem received_of_receipts {cs : List Bytes} (h : receipts evs = cs.map .data ++ [.closed]) :
    receivedBytes evs = cs.flatten ∧ evs.any isRecvClosed = true := by
  obtain ⟨hbytes, hclosed⟩ := received_eq_receipts evs
  constructor
  · rw [hbytes, h, List.flatMap_append, List.flatMap_map, List.flatten_eq_flatMap]
    exact List.append_nil _
  · rw [hclosed, h, List.any_append]
    exact Bool.or_true _

theorem receipts_control (h : ∀ e ∈ evs, IsControl e.op) : receipts evs = [] := by
  apply List.filterMap_eq_nil_iff.mpr
  intro e he
  have hc := h e he
  obtain ⟨o, r⟩ := e
  cases o <;> first | exact hc.elim | rfl

/-- Control calls leave every transfer observation as it was. -/
theorem control_trace (h : ∀ e ∈ evs, IsControl e.op) :
    sentBytes evs = [] ∧ receivedBytes evs = [] ∧ evs.any isRecvClosed = false ∧
      evs.any isTransferTimeout = false := by
  have hev : ∀ e ∈ evs, sentByEvent e = [] ∧ receivedByEvent e = [] ∧
      isRecvClosed e = false ∧ isTransferTimeout e = false := by
    intro e he
    have hc := h e he
    obtain ⟨o, r⟩ := e
    cases o <;> first | exact hc.elim | exact ⟨rfl, rfl, rfl, rfl⟩
  refine ⟨?_, ?_, ?_, ?_⟩
  · exact List.flatMap_eq_nil_iff.mpr fun e he => (hev e he).1
  · exact List.flatMap_eq_nil_iff.mpr fun e he => (hev e he).2.1
  · exact List.any_eq_false.mpr fun e he => by simp [(hev e he).2.2.1]
  · exact List.any_eq_false.mpr fun e he => by simp [(hev e he).2.2.2]

/-- What follows control calls is observed as if it stood alone. -/
theorem control_append (h : ∀ e ∈ evs, IsControl e.op) (evs' : Trace) :
    sentBytes (evs ++ evs') = sentBytes evs' ∧ receivedBytes (evs ++ evs') = receivedBytes evs' ∧
      (evs ++ evs').any isRecvClosed = evs'.any isRecvClosed ∧
      (evs ++ evs').any isTransferTimeout = evs'.any isTransferTimeout := by
  obtain ⟨hsent, hrecv, hclosed, htime⟩ := control_trace h
  rw [sentBytes_append, receivedBytes_append, List.any_append, List.any_append, hsent, hrecv,
    hclosed, htime]
  exact ⟨rfl, rfl, rfl, rfl⟩

/-- `timedOut` says whether the wait of this attempt expired, and then it has failed. -/
theorem connectWithTimeout_runs {ok t : Bool}
    (h : Prog.Runs (connectWithTimeout s ai timeoutMs) evs (ok, t)) :
    (∀ e ∈ evs, IsControl e.op) ∧ t = evs.any isConnectTimeout ∧ (ok = true → t = false) := by
  unfold connectWithTimeout at h
  obtain ⟨flags, rest, rfl, h⟩ := h
  cases flags with
  | none =>
    obtain ⟨rfl, heq⟩ := h
    cases heq
    simp [IsControl, isConnectTimeout]
  | some flags =>
    obtain ⟨b, rest, rfl, h⟩ := h
    cases b with
    | false =>
      obtain ⟨rfl, heq⟩ := h
      cases heq
      simp [IsControl, isConnectTimeout]
    | true =>
      obtain ⟨c, rest, rfl, h⟩ := h
      cases c with
      | done =>
        obtain ⟨b, rest, rfl, rfl, heq⟩ := h
        cases heq
        simp [IsControl, isConnectTimeout]
      | error e =>
        by_cases he : e = .EINPROGRESS
        · simp only [Prog.bind, he, ne_eq, not_true_eq_false, if_false] at h
          obtain ⟨sel, rest, rfl, h⟩ := h
          cases sel with
          | timeout =>
            obtain ⟨rfl, heq⟩ := h
            cases heq
            simp [IsControl, isConnectTimeout]
          | error =>
            obtain ⟨rfl, heq⟩ := h
            cases heq
            simp [IsControl, isConnectTimeout]
          | ready =>
            obtain ⟨so, rest, rfl, h⟩ := h
            by_cases hso : so = some 0
            · simp only [Prog.bind, hso, not_true_eq_false, if_false] at h
              obtain ⟨b, rest, rfl, rfl, heq⟩ := h
              cases heq
              simp [IsControl, isConnectTimeout]
            · simp only [Prog.bind, hso, not_false_eq_true, if_true] at h
              obtain ⟨rfl, heq⟩ := h
              cases heq
              simp [IsControl, isConnectTimeout]
        · simp only [Prog.bind, he, ne_eq, not_false_eq_true, if_true] at h
          obtain ⟨rfl, heq⟩ := h
          cases heq
          simp [IsControl, isConnectTimeout]

/-- The address loop moves no payload, and `timedOut` says whether a wait expired. -/
theorem connectAny_runs {list : List AddrInfo} {r : Option Socket} {t : Bool}
    (h : Prog.Runs (connectAny timeoutMs list false) evs (r, t)) :
    (∀ e ∈ evs, IsControl e.op) ∧ t = evs.any isConnectTimeout ∧ (r ≠ none → t = false) := by
  induction list generalizing evs with
  | nil =>
    obtain ⟨rfl, heq⟩ := h
    cases heq
    simp
  | cons ai rest ih =>
    obtain ⟨so, evs, rfl, h⟩ := h
    cases so with
    | none =>
      obtain ⟨hc, ht, hr⟩ := ih h
      refine ⟨?_, by simpa [isConnectTimeout] using ht, hr⟩
      intro e he
      rcases List.mem_cons.mp he with rfl | he
      · trivial
      · exact hc e he
    | some s =>
      simp only [Prog.bind] at h
      obtain ⟨pre, ⟨ok, t'⟩, post, rfl, hconn, h⟩ := Prog.runs_bind.mp h
      obtain ⟨hc, ht, hok⟩ := connectWithTimeout_runs hconn
      cases ok with
      | true =>
        obtain ⟨rfl, heq⟩ := h
        cases heq
        refine ⟨?_, by simpa [isConnectTimeout] using ht, fun _ => hok rfl⟩
        simpa [IsControl] using hc
      | false =>
        obtain ⟨_, post, rfl, h⟩ := h
        cases t' with
        | true =>
          obtain ⟨rfl, heq⟩ := h
          cases heq
          refine ⟨?_, by simp [isConnectTimeout, ← ht], fun hne => (hne rfl).elim⟩
          simpa [IsControl, or_imp, forall_and] using hc
        | false =>
          obtain ⟨hc', ht', hr⟩ := ih h
          refine ⟨?_, by simpa [isConnectTimeout, ← ht] using ht', hr⟩
          simp only [List.mem_cons, List.mem_append]
          rintro e (rfl | he | rfl | he)
          · trivial
          · exact hc e he
          · trivial
          · exact hc' e he

/-- The chunk that the loop asks `send` to take when this much is left. -/
def sendSize (left : Nat) : Nat := if 65536 < left then 65536 else left

theorem Proxy.sendAll_of_lt {data : Bytes} {sent : Nat} (hlt : sent < data.length) :
    Proxy.sendAll s data sent =
      .call (.send s ((data.drop sent).take (sendSize (data.length - sent))) 0) fun n =>
        if n.value ≤ 0 then .ret false else Proxy.sendAll s data (sent + n.value.toNat) := by
  rw [Proxy.sendAll, if_pos hlt]
  rfl

theorem Proxy.sendAll_of_ge {data : Bytes} {sent : Nat} (hge : data.length ≤ sent) :
    Proxy.sendAll s data sent = .ret true := by
  rw [Proxy.sendAll, if_neg (Nat.not_lt.mpr hge)]

/-- What one send has accepted is the beginning of what was left. -/
theorem sentByEvent_send {data : Bytes} {sent size : Nat}
    (r : SendResult ((data.drop sent).take size).length) :
    sentByEvent ⟨.send s ((data.drop sent).take size) 0, r⟩ =
        (data.drop sent).take r.value.toNat ∧
      r.value.toNat ≤ data.length - sent := by
  have hr := r.range
  simp only [List.length_take, List.length_drop] at hr
  constructor
  · rw [sentByEvent, List.take_take, Nat.min_eq_left (by omega)]
  · omega

/-- `sendAll` sends a prefix of what is left, and all of it exactly when it returns true. -/
theorem Proxy.sendAll_runs {data : Bytes} {sent : Nat} {ok : Bool}
    (h : Prog.Runs (Proxy.sendAll s data sent) evs ok) :
    (sentBytes evs <+: data.drop sent ∧ (ok = true ↔ sentBytes evs = data.drop sent)) ∧
      receipts evs = [] ∧ evs.any isRecvClosed = false ∧
      evs.any isConnectTimeout = false ∧ (ok = true → evs.any isTransferTimeout = false) := by
  induction hk : data.length - sent using Nat.strong_induction_on generalizing sent evs with
  | _ k ih =>
    rcases Nat.lt_or_ge sent data.length with hlt | hge
    · rw [Proxy.sendAll_of_lt hlt] at h
      obtain ⟨n, rest, rfl, h⟩ := h
      obtain ⟨hbytes, -⟩ := sentByEvent_send (s := s) n
      dsimp only at h
      by_cases hn : n.value ≤ 0
      · rw [if_pos hn] at h
        obtain ⟨rfl, rfl⟩ := h
        have hz : n.value.toNat = 0 := by omega
        simp [sentBytes, sentByEvent, receiptOf, isRecvClosed, isConnectTimeout, hz, hlt]
      · rw [if_neg hn] at h
        obtain ⟨⟨hpre, hall⟩, hrecv, hclosed, hconn, htime⟩ :=
          ih (data.length - (sent + n.value.toNat)) (by omega) h rfl
        have hne : n.value ≠ -1 := by omega
        have hsent : sentBytes (⟨_, n⟩ :: rest) =
            (data.drop sent).take n.value.toNat ++ sentBytes rest := by
          rw [sentBytes_cons, hbytes]
        have hdrop : (data.drop sent).take n.value.toNat ++ data.drop (sent + n.value.toNat) =
            data.drop sent := by
          rw [← List.drop_drop, List.take_append_drop]
        refine ⟨⟨?_, ?_⟩, ?_, ?_, ?_, ?_⟩
        · have hcat := (List.prefix_append_right_inj ((data.drop sent).take n.value.toNat)).mpr hpre
          rw [hdrop] at hcat
          rw [hsent]
          exact hcat
        · rw [hall, hsent, ← List.append_cancel_left_eq ((data.drop sent).take n.value.toNat),
            hdrop]
        · exact hrecv
        · exact hclosed
        · exact hconn
        · have hno : isTransferTimeout ⟨.send s _ 0, n⟩ = false := by
            simp [isTransferTimeout, hne]
          rw [List.any_cons, hno, Bool.false_or]
          exact htime
    · rw [Proxy.sendAll_of_ge hge] at h
      obtain ⟨rfl, rfl⟩ := h
      simp [sentBytes, List.drop_eq_nil_of_le hge]

/-- The receive loop appends what it is given and fails exactly by a failed receive. -/
theorem recvUpstream_runs {raw raw' : Bytes} {fail : Bool}
    (h : Prog.Runs (recvUpstream s raw) evs (raw', fail)) :
    raw' = raw ++ receivedBytes evs ∧ sentBytes evs = [] ∧ evs.any isConnectTimeout = false ∧
      (evs.any isTransferTimeout = true → fail = true) ∧
      (fail = true ∨ evs.any isRecvClosed = true → raw'.length < kMaxUpstreamBytes) ∧
      (evs.any isRecvClosed = true → fail = false) := by
  induction hk : kMaxUpstreamBytes - raw.length using Nat.strong_induction_on
    generalizing raw evs with
  | _ k ih =>
    rw [recvUpstream] at h
    by_cases hlt : raw.length < kMaxUpstreamBytes
    · simp only [hlt, if_true] at h
      obtain ⟨n, rest, rfl, h⟩ := h
      cases n with
      | closed =>
        obtain ⟨rfl, heq⟩ := h
        cases heq
        simp [sentBytes, receivedBytes, sentByEvent, receivedByEvent, isConnectTimeout,
          isTransferTimeout, hlt]
      | error e =>
        obtain ⟨rfl, heq⟩ := h
        cases heq
        simp [sentBytes, receivedBytes, sentByEvent, receivedByEvent, isConnectTimeout,
          isRecvClosed, hlt]
      | data bytes pos le =>
        obtain ⟨hraw, hsent, hconn, htime, hlen, hclosed⟩ := ih
          (kMaxUpstreamBytes - (raw ++ bytes).length) (by rw [List.length_append]; omega) h rfl
        -- a piece of data adds its bytes and changes no other observation
        refine ⟨?_, hsent, hconn, htime, hlen, hclosed⟩
        rw [hraw, List.append_assoc]
        rfl
    · simp only [hlt, if_false] at h
      obtain ⟨rfl, heq⟩ := h
      cases heq
      simp [sentBytes, receivedBytes]

/-- Of a stream that ends, the receive loop returns everything, or enough to reach the limit. -/
theorem recvUpstream_stream {raw raw' : Bytes} {fail : Bool} {cs : List Bytes}
    (h : Prog.Runs (recvUpstream s raw) evs (raw', fail))
    (hstream : receipts evs <+: cs.map .data ++ [.closed]) :
    fail = false ∧ (raw' = raw ++ cs.flatten ∨
      kMaxUpstreamBytes ≤ raw'.length ∧ raw' <+: raw ++ cs.flatten) := by
  induction hk : kMaxUpstreamBytes - raw.length using Nat.strong_induction_on
    generalizing raw evs cs with
  | _ k ih =>
    rw [recvUpstream] at h
    by_cases hlt : raw.length < kMaxUpstreamBytes
    · simp only [hlt, if_true] at h
      obtain ⟨n, rest, rfl, h⟩ := h
      cases n with
      | closed =>
        obtain ⟨rfl, heq⟩ := h
        cases heq
        cases cs with
        | nil => exact ⟨rfl, .inl (by simp)⟩
        | cons c cs => simp [receiptOf] at hstream
      | error e => cases cs <;> simp [receiptOf] at hstream
      | data bytes pos le =>
        cases cs with
        | nil => simp [receiptOf] at hstream
        | cons c cs =>
          simp only [receipts_cons, receiptOf, Option.toList_some, List.cons_append,
            List.nil_append, List.map_cons, List.cons_prefix_cons, Receipt.data.injEq] at hstream
          obtain ⟨rfl, hstream⟩ := hstream
          have hrest := ih (kMaxUpstreamBytes - (raw ++ bytes).length)
            (by rw [List.length_append]; omega) h hstream rfl
          rwa [List.append_assoc] at hrest
    · simp only [hlt, if_false] at h
      obtain ⟨rfl, heq⟩ := h
      cases heq
      exact ⟨rfl, .inr ⟨Nat.le_of_not_lt hlt, List.prefix_append _ _⟩⟩

theorem parseUpstreamResponse_timedOut : (parseUpstreamResponse raw).timedOut = false := by
  unfold parseUpstreamResponse
  split
  · rfl
  · dsimp only
    split <;> split <;> rfl

/-- What the exchange makes of an upstream that closes the connection. -/
def closedResult (raw : Bytes) : ProxyResult :=
  if raw.isEmpty then { error := ascii "upstream io failed" } else parseUpstreamResponse raw

/-- What the exchange makes of a stream, up to where its upstream closes the connection. -/
def streamResult (stream : Bytes) : ProxyResult :=
  if kMaxUpstreamBytes ≤ stream.length then { error := ascii "upstream response too large" }
  else closedResult stream

/-- One exchange: what is sent, what is reported, and what a closed stream yields. -/
structure ExchangeRun (wire : Bytes) (evs : Trace) (pr : ProxyResult) : Prop where
  sent : sentBytes evs <+: wire
  allSent : pr.ok = true ∨ evs.any isRecvClosed = true → sentBytes evs = wire
  noConnectTimeout : evs.any isConnectTimeout = false
  notTimedOut : pr.timedOut = false
  failed : evs.any isTransferTimeout = true → pr.ok = false
  closed : evs.any isRecvClosed = true → pr = closedResult (receivedBytes evs)
  streamed : wire ≠ [] → sentBytes evs = wire → ∀ cs : List Bytes,
    receipts evs <+: cs.map .data ++ [.closed] → pr = streamResult cs.flatten

theorem exchange_runs {pr : ProxyResult} (h : Prog.Runs (exchange s wire timeoutMs) evs pr) :
    ExchangeRun wire evs pr := by
  obtain ⟨_, rest, rfl, h⟩ := h
  obtain ⟨_, rest, rfl, h⟩ := h
  simp only [Prog.bind] at h
  obtain ⟨pre, sentOk, post, rfl, hs, hcont⟩ := Prog.runs_bind.mp h
  obtain ⟨⟨hpre, hall⟩, hrecv, hclosed, hconn, htime⟩ := Proxy.sendAll_runs hs
  have hbytes : receivedBytes pre = [] := by rw [(received_eq_receipts pre).1, hrecv]; rfl
  rw [List.drop_zero] at hpre hall
  cases sentOk with
  | false =>
    have hpart : sentBytes pre ≠ wire := by simpa using hall
    obtain ⟨_, rest, rfl, rfl, rfl⟩ := hcont
    constructor <;>
      simp [isConnectTimeout, isRecvClosed, sentByEvent, hpre, hclosed, hconn, hpart]
  | true =>
    obtain ⟨mid, ⟨raw, fail⟩, post, rfl, hr, hlast⟩ := Prog.runs_bind.mp hcont
    obtain ⟨hraw, hsent', hconn', htime', hlen', hclosed'⟩ := recvUpstream_runs hr
    obtain ⟨_, rest, rfl, hend⟩ := hlast
    simp only [Prog.bind] at hend
    rw [List.nil_append] at hraw
    have hpr : rest = [] ∧ pr.timedOut = false ∧ (fail = true → pr.ok = false) ∧
        (fail = false → pr = streamResult raw) := by
      by_cases hbig : kMaxUpstreamBytes ≤ raw.length
      · simp only [hbig, if_true] at hend
        obtain ⟨rfl, rfl⟩ := hend
        exact ⟨rfl, rfl, fun _ => rfl, fun _ => by rw [streamResult, if_pos hbig]⟩
      · simp only [hbig, if_false] at hend
        cases fail with
        | true =>
          obtain ⟨rfl, rfl⟩ := hend
          exact ⟨rfl, rfl, fun _ => rfl, fun hf => by cases hf⟩
        | false =>
          cases hemp : raw.isEmpty with
          | true =>
            simp only [hemp] at hend
            obtain ⟨rfl, rfl⟩ := hend
            simp [streamResult, closedResult, hemp, hbig]
          | false =>
            simp only [hemp] at hend
            obtain ⟨rfl, rfl⟩ := hend
            simp [streamResult, closedResult, hemp, hbig, parseUpstreamResponse_timedOut]
    obtain ⟨rfl, ht, hf, hres⟩ := hpr
    have hwire : sentBytes pre = wire := hall.mp rfl
    refine ⟨?_, ?_, ?_, ht, ?_, ?_, ?_⟩
    · simp [sentByEvent, hwire, hsent']
    · simp [sentByEvent, hwire, hsent']
    · simp [isConnectTimeout, hconn, hconn']
    · intro hany
      have hmid : mid.any isTransferTimeout = true := by
        simpa [isTransferTimeout, htime rfl] using hany
      exact hf (htime' hmid)
    · intro hany
      have hmid : mid.any isRecvClosed = true := by
        simpa [isRecvClosed, hclosed] using hany
      have hlt := hlen' (.inr hmid)
      rw [hres (hclosed' hmid), streamResult, if_neg (Nat.not_le_of_lt hlt), hraw]
      simp [receivedByEvent, hbytes]
    · intro _ _ cs hstream
      have hmid : receipts mid <+: cs.map .data ++ [.closed] := by
        simpa [receiptOf, hrecv] using hstream
      obtain ⟨hok, hcases⟩ := recvUpstream_stream hr hmid
      rw [List.nil_append] at hcases
      rw [hres hok]
      obtain rfl | ⟨hbig, hprefix⟩ := hcases
      · rfl
      · rw [streamResult, if_pos hbig, streamResult, if_pos (hbig.trans hprefix.length_le)]

/-- One call of `forwardRequest`: failures before the exchange, or an exchange with the
resolved upstream. -/
structure ForwardRun (upstreamBase : Bytes) (req : HttpRequest) (forwardPath : Bytes)
    (auth : AuthInfo) (evs : Trace) (pr : ProxyResult) : Prop where
  sent : sentBytes evs ≠ [] ∨ pr.ok = true ∨ evs.any isRecvClosed = true →
    ∃ up, parseUpstream upstreamBase = .ok up ∧
      sentBytes evs <+: requestWire up req forwardPath auth ∧
      (pr.ok = true ∨ evs.any isRecvClosed = true →
        sentBytes evs = requestWire up req forwardPath auth)
  timedOut : pr.timedOut = evs.any isConnectTimeout
  connectTimeout : evs.any isConnectTimeout = true →
    evs.any isTransferTimeout = false ∧ pr.ok = false
  transferTimeout : evs.any isTransferTimeout = true → pr.ok = false
  closed : evs.any isRecvClosed = true → pr = closedResult (receivedBytes evs)
  streamed : ∀ up, parseUpstream upstreamBase = .ok up →
    sentBytes evs = requestWire up req forwardPath auth → ∀ cs : List Bytes,
    receipts evs <+: cs.map .data ++ [.closed] → pr = streamResult cs.flatten

theorem requestWire_ne_nil (up : UpstreamAddr) (req : HttpRequest) (forwardPath : Bytes)
    (auth : AuthInfo) : requestWire up req forwardPath auth ≠ [] := by
  intro h
  exact absurd (List.append_eq_nil_iff.mp (List.append_eq_nil_iff.mp h).1).2 (by decide)

/-- A call that ends before the upstream is connected. -/
theorem ForwardRun.of_control {base forwardPath : Bytes} {req : HttpRequest} {auth : AuthInfo}
    {pr : ProxyResult} (hc : ∀ e ∈ evs, IsControl e.op) (hok : pr.ok = false)
    (ht : pr.timedOut = evs.any isConnectTimeout) :
    ForwardRun base req forwardPath auth evs pr := by
  obtain ⟨hsent, hrecv, hclosed, htime⟩ := control_trace hc
  refine ⟨by simp [hsent, hok, hclosed], ht, by simp [htime, hok], by simp [htime],
    by simp [hclosed], ?_⟩
  intro up _ hwire
  rw [hsent] at hwire
  exact absurd hwire.symm (requestWire_ne_nil up req forwardPath auth)

/-- A call that reaches the exchange. -/
theorem ForwardRun.of_exchange {base forwardPath : Bytes} {req : HttpRequest} {auth : AuthInfo}
    {up : UpstreamAddr} {pr : ProxyResult} (hup : parseUpstream base = .ok up)
    (hc : ∀ e ∈ evs, IsControl e.op) (ht : evs.any isConnectTimeout = false)
    (h : ExchangeRun (requestWire up req forwardPath auth) evs' pr) :
    ForwardRun base req forwardPath auth (evs ++ evs') pr := by
  obtain ⟨hpre, hall, hconn, hnt, hfail, hres, hstream⟩ := h
  obtain ⟨hsent, hrecv, hclosed, htime⟩ := control_append hc evs'
  have hno : (evs ++ evs').any isConnectTimeout = false := by
    rw [List.any_append, ht, hconn]
    rfl
  rw [← hsent] at hpre
  rw [← hclosed, ← hsent] at hall
  rw [← htime] at hfail
  rw [← hclosed, ← hrecv] at hres
  refine ⟨fun _ => ⟨up, hup, hpre, hall⟩, hnt.trans hno.symm, ?_, hfail, hres, ?_⟩
  · intro hany
    rw [hno] at hany
    cases hany
  · intro up' hup' hwire cs hcs
    obtain rfl := Except.ok.inj (hup.symm.trans hup')
    rw [receipts_append, receipts_control hc, List.nil_append] at hcs
    exact hstream (requestWire_ne_nil up req forwardPath auth) (hsent ▸ hwire) cs hcs

theorem forwardRequest_runs {base forwardPath : Bytes} {req : HttpRequest} {auth : AuthInfo}
    {pr : ProxyResult}
    (h : Prog.Runs (forwardRequest base req forwardPath auth timeoutMs) evs pr) :
    ForwardRun base req forwardPath auth evs pr := by
  obtain ⟨_, rest, rfl, h⟩ := h
  simp only [Prog.bind] at h
  cases hup : parseUpstream base with
  | error e =>
    simp only [hup] at h
    obtain ⟨rfl, rfl⟩ := h
    apply ForwardRun.of_control <;> simp [IsControl, isConnectTimeout]
  | ok up =>
    simp only [hup] at h
    obtain ⟨resolved, rest, rfl, h⟩ := h
    simp only [Prog.bind] at h
    by_cases hdns : resolved.rc ≠ 0 ∨ resolved.list = []
    · rw [if_pos hdns] at h
      by_cases hlist : resolved.list = []
      · simp only [hlist, ne_eq, not_true_eq_false, if_false] at h
        obtain ⟨rfl, rfl⟩ := h
        apply ForwardRun.of_control <;> simp [IsControl, isConnectTimeout]
      · simp only [hlist, ne_eq, not_false_eq_true, if_true] at h
        obtain ⟨_, rest, rfl, rfl, rfl⟩ := h
        apply ForwardRun.of_control <;> simp [IsControl, isConnectTimeout]
    · rw [if_neg hdns] at h
      obtain ⟨pre, ⟨connected, t⟩, post, rfl, hconn, hcont⟩ := Prog.runs_bind.mp h
      obtain ⟨hc, ht, hr⟩ := connectAny_runs hconn
      obtain ⟨_, rest, rfl, hend⟩ := hcont
      simp only [Prog.bind] at hend
      cases connected with
      | none =>
        obtain ⟨rfl, rfl⟩ := hend
        apply ForwardRun.of_control
        · simpa [IsControl, or_imp, forall_and] using hc
        · rfl
        · simpa [isConnectTimeout] using ht
      | some s =>
        have hpc : pre.any isConnectTimeout = false := by
          rw [← ht]
          exact hr (by simp)
        -- all that comes before the exchange moves no payload
        let before : Trace := ⟨.invoke (.forwardRequest base req forwardPath auth), ()⟩ ::
          ⟨.getaddrinfo up.host (toDecimal up.port.toNat), resolved⟩ ::
          (pre ++ [⟨.freeaddrinfo resolved.list, ()⟩])
        have hbefore : ∀ e ∈ before, IsControl e.op := by
          simpa [before, IsControl, or_imp, forall_and] using hc
        have hno : before.any isConnectTimeout = false := by
          simpa [before, isConnectTimeout] using hpc
        have hrun := ForwardRun.of_exchange hup hbefore hno (exchange_runs hend)
        simpa [before] using hrun

/-- The results that a call of `forwardRequest` can have. -/
inductive Outcome (base : Bytes) : ProxyResult → Prop
  | badUrl {e : Bytes} (h : parseUpstream base = .error e) :
      Outcome base { error := ascii "bad upstream url: " ++ e }
  | noAddress : Outcome base { error := ascii "dns resolve failed" }
  | connectTimeout : Outcome base { error := ascii "connect timeout", timedOut := true }
  | connectFailed : Outcome base { error := ascii "connect failed" }
  | tooLarge : Outcome base { error := ascii "upstream response too large" }
  | ioFailed : Outcome base { error := ascii "upstream io failed" }
  | answered (raw : Bytes) : Outcome base (parseUpstreamResponse raw)

theorem exchange_outcome (base : Bytes) (s : Socket) (wire : Bytes) (timeoutMs : Int) :
    (exchange s wire timeoutMs).Returns (Outcome base) := by
  rw [exchange, perform_bind]
  intro _
  rw [perform_bind]
  intro _
  apply Prog.returns_bind
  intro sentOk
  have hlast : ∀ p : Bytes × Bool, Prog.Returns (Outcome base) (do
      closeSocket s
      if kMaxUpstreamBytes ≤ p.1.length then
        return { error := ascii "upstream response too large" }
      if !sentOk || p.2 || p.1.isEmpty then return { error := ascii "upstream io failed" }
      return parseUpstreamResponse p.1 : Io ProxyResult) := by
    intro p _
    simp only [Prog.bind]
    split
    · exact .tooLarge
    · split
      · exact .ioFailed
      · exact .answered p.1
  cases sentOk with
  | true => exact Prog.returns_bind hlast
  | false => exact hlast ([], false)

theorem forwardRequest_outcome (base : Bytes) (req : HttpRequest) (path : Bytes) (auth : AuthInfo)
    (timeoutMs : Int) : (forwardRequest base req path auth timeoutMs).Returns (Outcome base) := by
  intro _
  simp only [Prog.bind]
  cases hup : parseUpstream base with
  | error e => exact .badUrl hup
  | ok up =>
    intro resolved
    simp only [Prog.bind]
    split
    · split
      · exact fun _ => .noAddress
      · exact .noAddress
    · apply Prog.returns_bind
      rintro ⟨connected, t⟩ _
      cases connected with
      | none =>
        cases t with
        | true => exact .connectTimeout
        | false => exact .connectFailed
      | some s => exact exchange_outcome base s _ timeoutMs

/-- A send that takes all that it is given. -/
def sendsAll (s : Socket) (data : Bytes) : Event Op Res :=
  ⟨.send s data 0, ⟨data.length, .other 0, .inr ⟨Int.natCast_nonneg _, le_rfl⟩⟩⟩

theorem Proxy.sendAll_succeeds (s : Socket) (data : Bytes) (sent : Nat) :
    ∃ evs, Prog.Runs (Proxy.sendAll s data sent) evs true := by
  induction hk : data.length - sent using Nat.strong_induction_on generalizing sent with
  | _ k ih =>
    rcases Nat.lt_or_ge sent data.length with hlt | hge
    · let chunk := (data.drop sent).take (sendSize (data.length - sent))
      have hpos : 0 < chunk.length := by
        simp only [chunk, sendSize, List.length_take, List.length_drop]
        split <;> omega
      obtain ⟨rest, hrest⟩ :=
        ih (data.length - (sent + chunk.length)) (by omega) (sent + chunk.length) rfl
      refine ⟨sendsAll s chunk :: rest, ?_⟩
      rw [Proxy.sendAll_of_lt hlt]
      refine ⟨(sendsAll s chunk).res, rest, rfl, ?_⟩
      have hn : ¬ (chunk.length : Int) ≤ 0 := by omega
      change Prog.Runs (if (chunk.length : Int) ≤ 0 then .ret false else _) rest true
      rw [if_neg hn]
      exact hrest
    · refine ⟨[], ?_⟩
      rw [Proxy.sendAll_of_ge hge]
      exact ⟨rfl, rfl⟩

theorem Proxy.sendAll_atOnce (s : Socket) {data : Bytes} (hpos : 0 < data.length)
    (hle : data.length ≤ 65536) : Prog.Runs (Proxy.sendAll s data 0) [sendsAll s data] true := by
  have hwhole : (data.drop 0).take (sendSize (data.length - 0)) = data := by
    have hsize : sendSize data.length = data.length := if_neg (Nat.not_lt.mpr hle)
    rw [List.drop_zero, Nat.sub_zero, hsize, List.take_length]
  have hsent : Proxy.sendAll s data (0 + data.length) = .ret true :=
    Proxy.sendAll_of_ge (by omega)
  rw [Proxy.sendAll_of_lt hpos, hwhole]
  refine ⟨(sendsAll s data).res, [], rfl, ?_⟩
  have hn : ¬ (data.length : Int) ≤ 0 := by omega
  change Prog.Runs (if (data.length : Int) ≤ 0 then .ret false
    else Proxy.sendAll s data (0 + data.length)) [] true
  rw [if_neg hn, hsent]
  exact ⟨rfl, rfl⟩

/-- Every stream below the limit can be received in any pieces that a receive can return. -/
theorem recvUpstream_delivers (s : Socket) {raw : Bytes} {cs : List Bytes}
    (hcs : ∀ c ∈ cs, 0 < c.length ∧ c.length ≤ 8192)
    (h : (raw ++ cs.flatten).length < kMaxUpstreamBytes) :
    ∃ evs, Prog.Runs (recvUpstream s raw) evs (raw ++ cs.flatten, false) ∧
      receipts evs = cs.map .data ++ [.closed] := by
  induction cs generalizing raw with
  | nil =>
    rw [List.flatten_nil, List.append_nil] at h ⊢
    refine ⟨[⟨.recv s 8192, .closed⟩], ?_, rfl⟩
    rw [recvUpstream, if_pos h]
    exact ⟨.closed, [], rfl, rfl, rfl⟩
  | cons c cs ih =>
    rw [List.forall_mem_cons] at hcs
    rw [List.flatten_cons, ← List.append_assoc] at h ⊢
    obtain ⟨rest, hrest, hreceipts⟩ := ih hcs.2 h
    have hlt : raw.length < kMaxUpstreamBytes := by
      simp only [List.length_append] at h
      omega
    refine ⟨⟨.recv s 8192, .data c hcs.1.1 hcs.1.2⟩ :: rest, ?_, ?_⟩
    · rw [recvUpstream, if_pos hlt]
      exact ⟨_, rest, rfl, hrest⟩
    · rw [receipts_cons, hreceipts]
      rfl

/-- An upstream with one address, which answers at once. -/
def connectTrace (base : Bytes) (req : HttpRequest) (forwardPath : Bytes) (auth : AuthInfo)
    (up : UpstreamAddr) (s : Socket) : Trace :=
  let ai : AddrInfo := ⟨2, 1, 6, []⟩
  [⟨.invoke (.forwardRequest base req forwardPath auth), ()⟩,
    ⟨.getaddrinfo up.host (toDecimal up.port.toNat), ⟨0, [ai]⟩⟩, ⟨.socket ai, some s⟩,
    ⟨.getFl s, some 0⟩, ⟨.setFl s (0 ||| O_NONBLOCK), true⟩, ⟨.connect s ai, .done⟩,
    ⟨.setFl s 0, true⟩, ⟨.freeaddrinfo [ai], ()⟩]

theorem forwardRequest_opens {base forwardPath : Bytes} {up : UpstreamAddr}
    {req : HttpRequest} {auth : AuthInfo} {pr : ProxyResult}
    (hup : parseUpstream base = .ok up)
    (h : Prog.Runs (exchange s (requestWire up req forwardPath auth) timeoutMs) evs pr) :
    Prog.Runs (forwardRequest base req forwardPath auth timeoutMs)
      (connectTrace base req forwardPath auth up s ++ evs) pr := by
  let ai : AddrInfo := ⟨2, 1, 6, []⟩
  refine ⟨(), _, rfl, ?_⟩
  simp only [Prog.bind, hup]
  refine ⟨⟨0, [ai]⟩, _, rfl, ?_⟩
  simp only [Prog.bind]
  refine ⟨some s, _, rfl, some 0, _, rfl, true, _, rfl, .done, _, rfl, true, _, rfl, (), _, rfl, ?_⟩
  exact h

/-- Every exchange on a connected socket is the end of some call of `forwardRequest`. -/
theorem forwardRequest_connects {base forwardPath : Bytes} {up : UpstreamAddr}
    {req : HttpRequest} {auth : AuthInfo} {pr : ProxyResult}
    (hup : parseUpstream base = .ok up)
    (h : Prog.Runs (exchange s (requestWire up req forwardPath auth) timeoutMs) evs pr) :
    ∃ pre, Prog.Runs (forwardRequest base req forwardPath auth timeoutMs) (pre ++ evs) pr ∧
      ∀ e ∈ pre, IsControl e.op :=
  ⟨_, forwardRequest_opens hup h, by simp [connectTrace, IsControl]⟩

/-- An exchange in one send and one receive. -/
def exchangeTrace (s : Socket) (wire : Bytes) (timeoutMs : Int) {answer : Bytes}
    (pos : 0 < answer.length) (le : answer.length ≤ 8192) : Trace :=
  [⟨.setTimeout s .SO_RCVTIMEO timeoutMs, true⟩, ⟨.setTimeout s .SO_SNDTIMEO timeoutMs, true⟩,
    sendsAll s wire, ⟨.recv s 8192, .data answer pos le⟩, ⟨.recv s 8192, .closed⟩,
    ⟨.closeSocket s, ()⟩]

theorem exchange_atOnce (s : Socket) (timeoutMs : Int) {answer : Bytes} (hwire : 0 < wire.length)
    (hsize : wire.length ≤ 65536) (pos : 0 < answer.length) (le : answer.length ≤ 8192) :
    Prog.Runs (exchange s wire timeoutMs) (exchangeTrace s wire timeoutMs pos le)
      (parseUpstreamResponse answer) := by
  have hmax : kMaxUpstreamBytes = 4194304 := rfl
  have hempty : answer.isEmpty = false := by simpa [List.isEmpty_eq_false_iff] using pos.ne'
  refine ⟨true, _, rfl, true, _, rfl, ?_⟩
  simp only [Prog.bind]
  apply Prog.runs_bind.mpr
  refine ⟨[sendsAll s wire], true, _, rfl, Proxy.sendAll_atOnce s hwire hsize, ?_⟩
  apply Prog.runs_bind.mpr
  refine ⟨[⟨.recv s 8192, .data answer pos le⟩, ⟨.recv s 8192, .closed⟩], (answer, false), _, rfl,
    ?_, (), [], rfl, ?_⟩
  · rw [recvUpstream, if_pos (by decide)]
    refine ⟨_, _, rfl, ?_⟩
    dsimp only
    rw [List.nil_append, recvUpstream, if_pos (by omega)]
    exact ⟨_, [], rfl, rfl, rfl⟩
  · simp only [Prog.bind]
    rw [if_neg (by omega)]
    simp [hempty]

/-- Every stream below the limit is delivered by some exchange, in any pieces. -/
theorem exchange_delivers (s : Socket) (wire : Bytes) (timeoutMs : Int) {cs : List Bytes}
    (hcs : ∀ c ∈ cs, 0 < c.length ∧ c.length ≤ 8192)
    (hlen : cs.flatten.length < kMaxUpstreamBytes) :
    ∃ evs pr, Prog.Runs (exchange s wire timeoutMs) evs pr ∧ sentBytes evs = wire ∧
      receipts evs = cs.map .data ++ [.closed] := by
  obtain ⟨sends, hsend⟩ := Proxy.sendAll_succeeds s wire 0
  obtain ⟨recvs, hrecv, hreceipts⟩ := @recvUpstream_delivers s [] cs hcs hlen
  obtain ⟨⟨-, hall⟩, hnil, -⟩ := Proxy.sendAll_runs hsend
  have hwire : sentBytes sends = wire := hall.mp rfl
  have hnone : sentBytes recvs = [] := (recvUpstream_runs hrecv).2.1
  refine ⟨⟨.setTimeout s .SO_RCVTIMEO timeoutMs, true⟩ ::
    ⟨.setTimeout s .SO_SNDTIMEO timeoutMs, true⟩ :: (sends ++ (recvs ++ [⟨.closeSocket s, ()⟩])),
    closedResult cs.flatten, ?_, ?_, ?_⟩
  · refine ⟨true, _, rfl, true, _, rfl, ?_⟩
    simp only [Prog.bind]
    apply Prog.runs_bind.mpr
    refine ⟨sends, true, _, rfl, hsend, ?_⟩
    apply Prog.runs_bind.mpr
    refine ⟨recvs, (cs.flatten, false), _, rfl, hrecv, (), [], rfl, ?_⟩
    simp only [Prog.bind]
    rw [if_neg (Nat.not_le_of_lt hlen)]
    cases hemp : cs.flatten.isEmpty <;> simp [closedResult, hemp]
  · simp [sentByEvent, hwire, hnone]
  · simp [receiptOf, hnil, hreceipts]

theorem forwardRequest_receives {base : Bytes} {up : UpstreamAddr} {cs : List Bytes}
    (req : HttpRequest) (forwardPath : Bytes) (auth : AuthInfo) (timeoutMs : Int)
    (hup : parseUpstream base = .ok up) (hcs : ∀ c ∈ cs, 0 < c.length ∧ c.length ≤ 8192)
    (hlen : cs.flatten.length < kMaxUpstreamBytes) :
    ∃ evs pr, Prog.Runs (forwardRequest base req forwardPath auth timeoutMs) evs pr ∧
      sentBytes evs = requestWire up req forwardPath auth ∧
      receipts evs = cs.map .data ++ [.closed] := by
  obtain ⟨evs, pr, hex, hsent, hreceipts⟩ :=
    exchange_delivers 7 (requestWire up req forwardPath auth) timeoutMs hcs hlen
  obtain ⟨pre, hrun, hc⟩ := forwardRequest_connects hup hex
  refine ⟨pre ++ evs, pr, hrun, (control_append hc evs).1.trans hsent, ?_⟩
  rw [receipts_append, receipts_control hc, hreceipts, List.nil_append]

theorem forwardRequest_delivers {base stream : Bytes} {up : UpstreamAddr} (req : HttpRequest)
    (forwardPath : Bytes) (auth : AuthInfo) (timeoutMs : Int)
    (hup : parseUpstream base = .ok up) (hlen : stream.length < kMaxUpstreamBytes) :
    ∃ evs pr, Prog.Runs (forwardRequest base req forwardPath auth timeoutMs) evs pr ∧
      receivedBytes evs = stream ∧ evs.any isRecvClosed = true := by
  have hbytes : (stream.map fun c => [c]).flatten = stream := by
    rw [← List.flatMap_def, List.flatMap_singleton']
  obtain ⟨evs, pr, hrun, -, hreceipts⟩ := @forwardRequest_receives base up
    (stream.map fun c => [c]) req forwardPath auth timeoutMs hup (by simp) (by rwa [hbytes])
  obtain ⟨hrecv, hclosed⟩ := received_of_receipts hreceipts
  exact ⟨evs, pr, hrun, hrecv.trans hbytes, hclosed⟩

/-- The first send of some exchange runs into the timeout. -/
theorem exchange_sendTimeout (s : Socket) {wire : Bytes} (timeoutMs : Int) (hne : wire ≠ []) :
    ∃ evs pr, Prog.Runs (exchange s wire timeoutMs) evs pr ∧
      evs.any isTransferTimeout = true := by
  have hpos : 0 < wire.length := List.length_pos_iff.mpr hne
  let chunk := (wire.drop 0).take (sendSize (wire.length - 0))
  let n : SendResult chunk.length := ⟨-1, .EAGAIN, Or.inl rfl⟩
  refine ⟨[⟨.setTimeout s .SO_RCVTIMEO timeoutMs, true⟩,
    ⟨.setTimeout s .SO_SNDTIMEO timeoutMs, true⟩, ⟨.send s chunk 0, n⟩, ⟨.closeSocket s, ()⟩],
    { error := ascii "upstream io failed" }, ?_, ?_⟩
  · refine ⟨true, _, rfl, true, _, rfl, ?_⟩
    simp only [Prog.bind]
    apply Prog.runs_bind.mpr
    refine ⟨[⟨.send s chunk 0, n⟩], false, _, rfl, ?_, (), _, rfl, rfl, rfl⟩
    rw [Proxy.sendAll_of_lt hpos]
    exact ⟨n, [], rfl, rfl, rfl⟩
  · simp [isTransferTimeout, n, Errno.isTimeout]

end Gateway

import Mathlib
import Gateway.HandleClient
import Gateway.UpstreamRequest

/-! Upstream response messages in the three body framings, and what of them is relayed. -/
namespace Gateway

open Program Search

variable {base forwardPath b : Bytes} {req : HttpRequest} {auth : AuthInfo} {timeoutMs : Int}
  {evs : Trace} {pr : ProxyResult}

def isHexDigit (c : UInt8) : Bool := isDigit c || (65 ≤ c && c ≤ 70) || (97 ≤ c && c ≤ 102)

def hexDigitValue (c : UInt8) : Nat :=
  if isDigit c then c.toNat - 48 else if c ≤ 70 then c.toNat - 55 else c.toNat - 87

/-- The size at the start of a chunk header; what follows it are extensions. -/
def chunkSize (line : Bytes) : Option Nat :=
  match line.takeWhile isHexDigit with
  | [] => none
  | digits => some (digits.foldl (fun n c => 16 * n + hexDigitValue c) 0)

structure Chunk where
  sizeLine : Bytes
  data : Bytes
  data_ne : data ≠ []
  sized : chunkSize sizeLine = some data.length
  unbroken : CR ∉ sizeLine ∧ LF ∉ sizeLine

def Chunk.wire (c : Chunk) : Bytes := c.sizeLine ++ crlf ++ c.data ++ crlf

/-- The chunk of size zero and the trailer lines after it. -/
structure LastChunk where
  sizeLine : Bytes
  trailers : List Bytes
  sized : chunkSize sizeLine = some 0
  unbroken : ∀ l ∈ sizeLine :: trailers, CR ∉ l ∧ LF ∉ l
  trailers_ne : ∀ l ∈ trailers, l ≠ []

inductive UpstreamBody where
  | contentLength (payload : Bytes)
  | chunked (chunks : List Chunk) (last : LastChunk)
  | untilClose (payload : Bytes)

/-- The body as its sender means it. -/
def UpstreamBody.payload : UpstreamBody → Bytes
  | contentLength payload => payload
  | chunked chunks _ => chunks.flatMap Chunk.data
  | untilClose payload => payload

/-- The bytes of the body up to where a close is no longer premature. -/
def UpstreamBody.committed : UpstreamBody → Bytes
  | contentLength payload => payload
  | chunked chunks last => chunks.flatMap Chunk.wire ++ last.sizeLine ++ crlf
  | untilClose _ => []

/-- The bytes of the body on the wire. -/
def UpstreamBody.raw : UpstreamBody → Bytes
  | contentLength payload => payload
  | chunked chunks last => chunks.flatMap Chunk.wire ++ last.sizeLine ++ crlf ++
      (last.trailers.flatMap fun l => l ++ crlf) ++ crlf
  | untilClose payload => payload

def UpstreamBody.IsChunked : UpstreamBody → Prop
  | chunked _ _ => True
  | _ => False

/-- The values of the fields of a name given in lower case. -/
def fieldValues (fields : List (Bytes × Bytes)) (name : Bytes) : List Bytes :=
  (fields.filter fun f => toLower f.1 = name).map fun f => trimStr f.2

/-- The framing that the header fields declare. -/
def UpstreamBody.DeclaredBy (body : UpstreamBody) (fields : List (Bytes × Bytes)) : Prop :=
  match body with
  | contentLength payload => fieldValues fields (ascii "transfer-encoding") = [] ∧
      ∃ v, fieldValues fields (ascii "content-length") = [v] ∧ v ≠ [] ∧
        (∀ c ∈ v, isDigit c = true) ∧ decimal v = payload.length
  | chunked _ _ => fieldValues fields (ascii "content-length") = [] ∧
      (fieldValues fields (ascii "transfer-encoding")).map toLower = [ascii "chunked"]
  | untilClose _ => fieldValues fields (ascii "content-length") = [] ∧
      fieldValues fields (ascii "transfer-encoding") = []

/-- A final response as an upstream may send it. -/
structure UpstreamMessage where
  status : Nat
  reason : Bytes
  fields : List (Bytes × Bytes)
  body : UpstreamBody
  status_final : 200 ≤ status ∧ status ≤ 599
  reason_unbroken : CR ∉ reason ∧ LF ∉ reason
  names_token : ∀ f ∈ fields, f.1 ≠ [] ∧ ∀ c ∈ f.1, c ≠ 58 ∧ isSpace c = false ∧ isControl c = false
  values_unbroken : ∀ f ∈ fields, CR ∉ f.2 ∧ LF ∉ f.2
  declared : body.DeclaredBy fields
  no_content : status = 204 ∨ status = 304 → body.raw = []

def UpstreamMessage.statusLine (m : UpstreamMessage) : Bytes :=
  ascii "HTTP/1.1 " ++ toDecimal m.status ++ ascii " " ++ m.reason

/-- The lines of the head; a value brings its own optional white space. -/
def UpstreamMessage.lines (m : UpstreamMessage) : List Bytes :=
  m.statusLine :: m.fields.map fun f => f.1 ++ ascii ":" ++ f.2

/-- The head with the empty line that ends it. -/
def UpstreamMessage.head (m : UpstreamMessage) : Bytes := crlf.intercalate m.lines ++ crlfcrlf

def UpstreamMessage.wire (m : UpstreamMessage) : Bytes := m.head ++ m.body.raw

/-- A close after `n` bytes comes before the declared length, or before the end of the last
chunk. -/
def UpstreamMessage.Premature (m : UpstreamMessage) (n : Nat) : Prop :=
  match m.body with
  | .untilClose _ => False
  | body => n < m.head.length + body.committed.length

/-- How an upstream delivers a message before it closes the connection. -/
inductive Delivery (m : UpstreamMessage) where
  | complete
  | cut (n : Nat) (premature : m.Premature n)

def Delivery.bytes {m : UpstreamMessage} : Delivery m → Bytes
  | .complete => m.wire
  | .cut n _ => m.wire.take n

/-- A complete message is relayed with its status and payload, a cut one is a failure. -/
def RelaysFaithfully {m : UpstreamMessage} (pr : ProxyResult) : Delivery m → Prop
  | .complete => pr.ok = true ∧ (relayResponse pr).status = m.status ∧
      (relayResponse pr).body = m.body.payload
  | .cut _ _ => pr.ok = false ∧ (relayResponse pr).status = 502

/-- A complete message is not chunked, and a premature close falls into the head. -/
def Relayable {m : UpstreamMessage} : Delivery m → Prop
  | .complete => ¬ m.body.IsChunked
  | .cut n _ => n < m.head.length

theorem UpstreamMessage.lines_unbroken (m : UpstreamMessage) :
    ∀ l ∈ m.lines, l ≠ [] ∧ CR ∉ l := by
  have hcode : CR ∉ toDecimal m.status := (toDecimal_plain m.status).1
  have hparts : CR ∉ ascii "HTTP/1.1 " ∧ CR ∉ ascii " " ∧ CR ∉ ascii ":" := by decide
  intro l hl
  rcases List.mem_cons.mp hl with rfl | hl
  · constructor
    · simp [statusLine, ascii]
    · simp [statusLine, hcode, hparts, m.reason_unbroken]
  · obtain ⟨f, hf, rfl⟩ := List.mem_map.mp hl
    obtain ⟨hne, htoken⟩ := m.names_token f hf
    have hname : CR ∉ f.1 := by
      intro hc
      have hspace := (htoken CR hc).2.1
      revert hspace
      decide
    constructor
    · simp [hne]
    · simp [hname, hparts, m.values_unbroken f hf]

/-- The head ends at the first empty line. -/
theorem UpstreamMessage.find?_head (m : UpstreamMessage) (b : Bytes) :
    find? crlfcrlf (m.head ++ b) = some (crlf.intercalate m.lines).length := by
  have hlf : CR ∉ [LF] := by decide
  exact find?_double hlf (List.cons_ne_nil _ _) fun l hl =>
    ⟨(m.lines_unbroken l hl).1, not_infix_of_not_mem (m.lines_unbroken l hl).2⟩

theorem UpstreamMessage.head_length (m : UpstreamMessage) :
    m.head.length = (crlf.intercalate m.lines).length + 4 := by
  simp [head, crlfcrlf]

theorem UpstreamMessage.statusCode_eq (m : UpstreamMessage) :
    statusCode m.statusLine = m.status := by
  have hversion : 32 ∉ ascii "HTTP/1.1" := by decide
  have hdigits : 32 ∉ toDecimal m.status := by
    intro h
    have hd := digit_of_mem_toDecimal h
    revert hd
    decide
  have hline : m.statusLine =
      ascii "HTTP/1.1" ++ ascii " " ++ (toDecimal m.status ++ ascii " " ++ m.reason) := by
    simp [statusLine, ascii]
  have hle := m.status_final.2
  have hcode := stoi_toDecimal (show m.status ≤ 2147483647 by omega)
  have hsp : find? (ascii " ") m.statusLine = some 8 := by
    rw [hline]
    exact find?_block hversion
  have hrest : m.statusLine.drop 9 = toDecimal m.status ++ ascii " " ++ m.reason := by
    rw [hline]
    rfl
  have hsp' : find? (ascii " ") (toDecimal m.status ++ ascii " " ++ m.reason) =
      some (toDecimal m.status).length := find?_block hdigits
  simp only [statusCode, hsp, hrest, hsp']
  simp [hcode]

/-- The first line of the head is the status line. -/
theorem UpstreamMessage.firstLine (m : UpstreamMessage) :
    (find? crlf (crlf.intercalate m.lines) = none ∧
      crlf.intercalate m.lines = m.statusLine) ∨
    (find? crlf (crlf.intercalate m.lines) = some m.statusLine.length ∧
      (crlf.intercalate m.lines).take m.statusLine.length = m.statusLine) := by
  have hcr : CR ∉ m.statusLine := (m.lines_unbroken _ List.mem_cons_self).2
  have hlines : m.lines = m.statusLine :: m.fields.map fun f => f.1 ++ ascii ":" ++ f.2 := rfl
  rw [hlines]
  cases m.fields.map fun f => f.1 ++ ascii ":" ++ f.2 with
  | nil =>
    left
    have hfind : find? crlf m.statusLine = none := find?_none_of_not_mem hcr
    simp [hfind]
  | cons l ls =>
    right
    have hfind : find? crlf (m.statusLine ++ crlf ++ crlf.intercalate (l :: ls)) =
        some m.statusLine.length := find?_block hcr
    rw [List.intercalate_cons_cons, hfind]
    simp

/-- Whatever follows the head becomes the body of a success with the status of the message. -/
theorem UpstreamMessage.parse_head (m : UpstreamMessage) (b : Bytes) :
    let pr := closedResult (m.head ++ b)
    pr.ok = true ∧ pr.status = m.status ∧ pr.body = b := by
  have hfind := m.find?_head b
  have hlen := m.head_length
  have hne : (m.head ++ b).isEmpty = false := by
    simp [head, crlfcrlf]
  have htake : (m.head ++ b).take (crlf.intercalate m.lines).length =
      crlf.intercalate m.lines := by
    simp [head]
  have hdrop : (m.head ++ b).drop ((crlf.intercalate m.lines).length + 4) = b := by
    rw [← hlen, List.drop_left]
  have hcode : ¬ (m.status < 100 ∨ 599 < m.status) := by
    have hstatus := m.status_final
    omega
  rcases m.firstLine with ⟨hcrlf, hline⟩ | ⟨hcrlf, hline⟩
  · simp only [closedResult, hne, parseUpstreamResponse, hfind, htake, hcrlf, hdrop]
    simp [hline, m.statusCode_eq, hcode]
  · simp only [closedResult, hne, parseUpstreamResponse, hfind, htake, hcrlf, hdrop]
    simp [hline, m.statusCode_eq, hcode]

/-- A stream that ends inside the head is a failure. -/
theorem UpstreamMessage.parse_cut (m : UpstreamMessage) {n : Nat} (h : n < m.head.length) :
    (closedResult (m.wire.take n)).ok = false := by
  have hnone : find? crlfcrlf (m.wire.take n) = none := by
    cases hf : find? crlfcrlf (m.wire.take n) with
    | none => rfl
    | some i =>
      have hle := find?_some_le hf
      have hfind := find?_append_of_some (b := m.wire.drop n) hf
      rw [List.take_append_drop, wire, m.find?_head] at hfind
      cases hfind
      have hlen := m.head_length
      simp only [List.length_take, crlfcrlf, List.length_cons, List.length_nil] at hle
      omega
  unfold closedResult
  split
  · rfl
  · simp [parseUpstreamResponse, hnone]

/-- Chunk framing adds bytes, so the bytes on the wire are not the payload. -/
theorem UpstreamBody.raw_eq_payload_iff (body : UpstreamBody) :
    body.raw = body.payload ↔ ¬ body.IsChunked := by
  cases body with
  | contentLength payload => simp [raw, UpstreamBody.payload, IsChunked]
  | untilClose payload => simp [raw, UpstreamBody.payload, IsChunked]
  | chunked chunks last =>
    have hle : (chunks.flatMap Chunk.data).length ≤ (chunks.flatMap Chunk.wire).length := by
      induction chunks with
      | nil => simp
      | cons c cs ih =>
        simp only [List.flatMap_cons, List.length_append, Chunk.wire]
        omega
    have hne : (UpstreamBody.chunked chunks last).raw ≠
        (UpstreamBody.chunked chunks last).payload := by
      intro h
      have hlen := congrArg List.length h
      simp only [raw, payload, List.length_append, crlf, List.length_cons] at hlen
      omega
    simp [hne, IsChunked]

/-- The response relayed for an exchange that the upstream closed. -/
theorem relayResponse_closedResult (raw : Bytes) :
    let pr := closedResult raw
    (pr.ok = true → (relayResponse pr).status = pr.status ∧ (relayResponse pr).body = pr.body) ∧
      (pr.ok = false → (relayResponse pr).status = 502) := by
  have hto : (closedResult raw).timedOut = false := by
    unfold closedResult
    split
    · rfl
    · exact parseUpstreamResponse_timedOut
  constructor
  · intro hok
    simp [relayResponse, hok]
  · intro hok
    simp [relayResponse, hok, hto, jsonError]

theorem relays_closedResult_iff {m : UpstreamMessage} (d : Delivery m) :
    RelaysFaithfully (closedResult d.bytes) d ↔ Relayable d := by
  obtain ⟨hgood, hbad⟩ := relayResponse_closedResult d.bytes
  cases d with
  | complete =>
    obtain ⟨hok, hstatus, hbody⟩ := m.parse_head m.body.raw
    obtain ⟨hrs, hrb⟩ := hgood hok
    simp only [Delivery.bytes, UpstreamMessage.wire] at hrs hrb
    simp only [RelaysFaithfully, Delivery.bytes, UpstreamMessage.wire, Relayable, hok, hrs, hrb,
      hstatus, hbody, true_and]
    exact m.body.raw_eq_payload_iff
  | cut n premature =>
    by_cases hn : n < m.head.length
    · have hok := m.parse_cut hn
      exact iff_of_true ⟨hok, hbad hok⟩ hn
    · have hcut : m.wire.take n = m.head ++ m.body.raw.take (n - m.head.length) := by
        rw [UpstreamMessage.wire, List.take_append, List.take_of_length_le (by omega)]
      have hok := (m.parse_head (m.body.raw.take (n - m.head.length))).1
      rw [← hcut] at hok
      refine iff_of_false ?_ hn
      intro h
      simp [RelaysFaithfully, Delivery.bytes, hok] at h

theorem closedResult_of_delivered {raw : Bytes}
    (hrun : Prog.Runs (forwardRequest base req forwardPath auth timeoutMs) evs pr)
    (hrecv : receivedBytes evs = raw) (hclosed : evs.any isRecvClosed = true) :
    pr = closedResult raw := by
  rw [(forwardRequest_runs hrun).closed hclosed, hrecv]

/-- A complete message is relayed faithfully exactly when it is not chunked, and a premature
close is reported exactly when it falls into the head. -/
theorem relaysFaithfully_iff {m : UpstreamMessage} (d : Delivery m)
    (hrun : Prog.Runs (forwardRequest base req forwardPath auth timeoutMs) evs pr)
    (hrecv : receivedBytes evs = d.bytes) (hclosed : evs.any isRecvClosed = true) :
    RelaysFaithfully pr d ↔ Relayable d := by
  rw [closedResult_of_delivered hrun hrecv hclosed]
  exact relays_closedResult_iff d

/-- Five bytes framed by their length. -/
def sizedMessage : UpstreamMessage where
  status := 200
  reason := ascii "OK"
  fields := [(ascii "Content-Length", ascii " 5")]
  body := .contentLength (ascii "hello")
  status_final := by decide
  reason_unbroken := by decide
  names_token := by decide +kernel
  values_unbroken := by decide
  declared := ⟨by decide, ascii "5", by decide +kernel⟩
  no_content := by decide

/-- The same bytes in one chunk. -/
def chunkedMessage : UpstreamMessage where
  status := 200
  reason := ascii "OK"
  fields := [(ascii "Transfer-Encoding", ascii " chunked")]
  body := .chunked [⟨ascii "5", ascii "hello", by decide, by decide, by decide⟩]
    ⟨ascii "0", [], by decide, by decide, by decide⟩
  status_final := by decide
  reason_unbroken := by decide
  names_token := by decide +kernel
  values_unbroken := by decide
  declared := ⟨by decide, by decide⟩
  no_content := by decide

/-- The close after the first byte of the five. -/
def sizedCut : Delivery sizedMessage := .cut 39 (by
  change 39 < sizedMessage.head.length + (ascii "hello").length
  decide +kernel)

theorem sizedMessage_relayed : ∃ evs pr,
    Prog.Runs (forwardRequest (ascii "http://users:9001/v1/") queryRequest (ascii "/7") {} 5000)
      evs pr ∧
    (RelaysFaithfully pr (.complete : Delivery sizedMessage) ↔
      Relayable (.complete : Delivery sizedMessage)) := by
  have hlen : (Delivery.bytes (.complete : Delivery sizedMessage)).length < kMaxUpstreamBytes := by
    decide +kernel
  obtain ⟨evs, pr, hrun, hrecv, hclosed⟩ :=
    forwardRequest_delivers queryRequest (ascii "/7") {} 5000 parseUpstream_users hlen
  exact ⟨evs, pr, hrun, relaysFaithfully_iff .complete hrun hrecv hclosed⟩

/-- Chunk framing reaches the client, and a message cut after its head passes for a success. -/
theorem chunked_and_cut_relayed :
    (∃ evs pr, Prog.Runs
        (forwardRequest (ascii "http://users:9001/v1/") queryRequest (ascii "/7") {} 5000) evs pr ∧
      receivedBytes evs = chunkedMessage.wire ∧ evs.any isRecvClosed = true ∧
      ¬ RelaysFaithfully pr (.complete : Delivery chunkedMessage)) ∧
    ∃ evs pr, Prog.Runs
        (forwardRequest (ascii "http://users:9001/v1/") queryRequest (ascii "/7") {} 5000) evs pr ∧
      receivedBytes evs = sizedCut.bytes ∧ evs.any isRecvClosed = true ∧
      ¬ RelaysFaithfully pr sizedCut := by
  constructor
  · have hlen : chunkedMessage.wire.length < kMaxUpstreamBytes := by decide +kernel
    obtain ⟨evs, pr, hrun, hrecv, hclosed⟩ :=
      forwardRequest_delivers queryRequest (ascii "/7") {} 5000 parseUpstream_users hlen
    refine ⟨evs, pr, hrun, hrecv, hclosed, ?_⟩
    rw [closedResult_of_delivered hrun hrecv hclosed]
    intro h
    exact (relays_closedResult_iff (.complete : Delivery chunkedMessage)).mp h trivial
  · have hlen : sizedCut.bytes.length < kMaxUpstreamBytes := by decide +kernel
    obtain ⟨evs, pr, hrun, hrecv, hclosed⟩ :=
      forwardRequest_delivers queryRequest (ascii "/7") {} 5000 parseUpstream_users hlen
    refine ⟨evs, pr, hrun, hrecv, hclosed, ?_⟩
    rw [closedResult_of_delivered hrun hrecv hclosed]
    intro h
    have hlt : 39 < sizedMessage.head.length := (relays_closedResult_iff sizedCut).mp h
    revert hlt
    decide +kernel

end Gateway

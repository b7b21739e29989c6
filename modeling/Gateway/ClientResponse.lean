import Mathlib
import Gateway.AuthorizationGate
import Gateway.HandlerRules
import Gateway.ResponseStream

/-! The responses to the client: what they are built from, and how their bytes are framed. -/
namespace Gateway

open Program Search

variable {s : Socket} {clientIp head raw : Bytes} {cfg : Config} {req : HttpRequest}
  {resp : HttpResponse} {evs : Trace}

def statusLine (resp : HttpResponse) : Bytes :=
  ascii "HTTP/1.1 " ++ toDecimal resp.status ++ ascii " " ++ reasonPhrase resp.status

/-- The lines of the head of a response with this content type. -/
def responseLines (resp : HttpResponse) (contentType : Bytes) : List Bytes :=
  [statusLine resp, ascii "content-type: " ++ contentType,
    ascii "content-length: " ++ toDecimal resp.body.length, ascii "connection: close"]

/-- The client finds the body and the four lines of the head again. -/
def SelfDelimiting (resp : HttpResponse) : Prop :=
  ∃ head contentType, cut crlfcrlf (buildResponse resp) = some (head, resp.body) ∧
    resp.headers[ascii "content-type"]? = some contentType ∧
    splitOn crlf head = responseLines resp contentType

/-- A response whose only header is its content type, and that type cannot end a line. -/
structure Typed (resp : HttpResponse) (contentType : Bytes) : Prop where
  headers : resp.headers = (∅ : HeaderMap).insert (ascii "content-type") contentType
  within_line : ¬ crlf <:+: contentType

theorem crlf_infix_append {a b : Bytes} (h : CR ∉ a) : crlf <:+: a ++ b ↔ crlf <:+: b := by
  rw [← not_iff_not, ← find?_eq_none_iff, ← find?_eq_none_iff]
  have hskip : find? crlf (a ++ b) = (find? crlf b).map (a.length + ·) := find?_append_of_not_mem h
  rw [hskip, Option.map_eq_none_iff]

theorem singleton_toList (k v : Bytes) : ((∅ : HeaderMap).insert k v).toList = [(k, v)] := by
  have hlen : ((∅ : HeaderMap).insert k v).toList.length = 1 := by
    rw [Std.ExtTreeMap.length_toList, Std.ExtTreeMap.size_insert]
    simp
  obtain ⟨kv, hkv⟩ := List.length_eq_one_iff.mp hlen
  have hmem : (k, v) ∈ ((∅ : HeaderMap).insert k v).toList := by
    rw [Std.ExtTreeMap.mem_toList_iff_getElem?_eq_some]
    simp
  rw [hkv] at hmem ⊢
  rw [List.mem_singleton.mp hmem]

theorem reasonPhrase_plain (status : Nat) : CR ∉ reasonPhrase status := by
  unfold reasonPhrase
  split <;> decide

/-- The bytes of a typed response are its four lines, an empty line and its body. -/
theorem buildResponse_eq {contentType : Bytes} (h : Typed resp contentType) :
    buildResponse resp =
      crlf.intercalate (responseLines resp contentType) ++ crlfcrlf ++ resp.body := by
  have htype : ((∅ : HeaderMap).insert (ascii "content-type") contentType).contains
      (ascii "content-type") = true := by simp
  have hlength : ((∅ : HeaderMap).insert (ascii "content-type") contentType).contains
      (ascii "content-length") = false := by
    have hne : ascii "content-type" ≠ ascii "content-length" := by decide
    simp [Std.ExtTreeMap.contains_insert, hne]
  have hline : headerLines ((∅ : HeaderMap).insert (ascii "content-type") contentType) =
      ascii "content-type: " ++ contentType ++ crlf := by
    have hname : ascii "content-type" ++ ascii ": " = ascii "content-type: " := by decide
    rw [headerLines, singleton_toList, List.flatMap_singleton, hname]
  rw [buildResponse, h.headers, htype, hlength, hline]
  simp only [if_true, Bool.false_eq_true, if_false, responseLines, statusLine,
    List.intercalate_cons_cons, List.intercalate_singleton, List.append_assoc, List.nil_append]

theorem responseLines_delimited {contentType : Bytes} (h : ¬ crlf <:+: contentType) :
    ∀ l ∈ responseLines resp contentType, l ≠ [] ∧ ¬ crlf <:+: l := by
  have hparts : CR ∉ ascii "HTTP/1.1 " ∧ CR ∉ ascii " " ∧ CR ∉ ascii "content-type: " ∧
      CR ∉ ascii "content-length: " ∧ CR ∉ ascii "connection: close" := by decide
  obtain ⟨hversion, hspace, htype, hlength, hclose⟩ := hparts
  have hdigits : ∀ n, CR ∉ toDecimal n := by
    intro n hmem
    exact absurd (digit_of_mem_toDecimal hmem) (by decide)
  have hreason := reasonPhrase_plain resp.status
  simp only [responseLines, List.forall_mem_cons]
  refine ⟨⟨by simp [statusLine, ascii], not_infix_of_not_mem ?_⟩, ⟨by simp [ascii], ?_⟩,
    ⟨by simp [ascii], not_infix_of_not_mem ?_⟩, ⟨by decide, not_infix_of_not_mem hclose⟩, by simp⟩
  · simp only [statusLine, List.mem_append, not_or]
    exact ⟨⟨⟨hversion, hdigits resp.status⟩, hspace⟩, hreason⟩
  · rwa [crlf_infix_append htype]
  · rw [List.mem_append, not_or]
    exact ⟨hlength, hdigits resp.body.length⟩

theorem selfDelimiting_of_typed {contentType : Bytes} (h : Typed resp contentType) :
    SelfDelimiting resp := by
  have hlf : CR ∉ [LF] := by decide
  have hlines := @responseLines_delimited resp _ h.within_line
  refine ⟨crlf.intercalate (responseLines resp contentType), contentType, ?_, ?_, ?_⟩
  · rw [buildResponse_eq h]
    exact cut_double hlf (List.cons_ne_nil _ _) hlines
  · rw [h.headers]
    simp
  · exact splitOn_intercalate hlf (List.cons_ne_nil _ _) fun l hl => (hlines l hl).2

theorem infix_trimStr (v : Bytes) : trimStr v <:+: v :=
  (List.rdropWhile_prefix _ _).isInfix.trans (List.dropWhile_suffix _).isInfix

/-- No type that is cut out of a head holds a line end. -/
theorem contentTypeOf_within_line (head : Bytes) : ¬ crlf <:+: contentTypeOf head := by
  unfold contentTypeOf
  split
  · exact not_infix_of_not_mem (by decide)
  · unfold contentTypeValue
    cases hline : contentTypeLine head with
    | none => exact not_infix_of_not_mem List.not_mem_nil
    | some line =>
      have hmem : line ∈ splitOn crlf head := List.mem_of_mem_tail (List.mem_of_find?_eq_some hline)
      have hwhole : ¬ crlf <:+: line := (intercalate_splitOn CR [LF] head).2 line hmem
      intro h
      exact hwhole (h.trans ((infix_trimStr _).trans (List.drop_suffix 13 line).isInfix))

/-- A response without an upstream has the type of its JSON. -/
theorem typed_json (status : Nat) (body : Bytes) :
    Typed ⟨status, (∅ : HeaderMap).insert (ascii "content-type") (ascii "application/json"), body⟩
      (ascii "application/json") :=
  ⟨rfl, not_infix_of_not_mem (by decide)⟩

theorem typed_relay {pr : ProxyResult} (h : pr.ok = true → ¬ crlf <:+: pr.contentType) :
    ∃ contentType, Typed (relayResponse pr) contentType := by
  unfold relayResponse
  split
  · rename_i hok
    exact ⟨pr.contentType, rfl, h hok⟩
  · split
    · exact ⟨_, typed_json _ _⟩
    · exact ⟨_, typed_json _ _⟩

/-- The type of a parsed response cannot end a line. -/
theorem parsedType_within_line (raw : Bytes) (hok : (parseUpstreamResponse raw).ok = true) :
    ¬ crlf <:+: (parseUpstreamResponse raw).contentType := by
  cases hcut : cut crlfcrlf raw with
  | none =>
    have hfind : find? crlfcrlf raw = none := by simpa [cut] using hcut
    simp [parseUpstreamResponse, hfind] at hok
  | some parts =>
    obtain ⟨head, body⟩ := parts
    rw [parseUpstreamResponse_eq hcut, reportedMessage] at hok ⊢
    split at hok
    · cases hok
    · exact contentTypeOf_within_line head

theorem Built.selfDelimiting (h : Built resp) : SelfDelimiting resp := by
  cases h with
  | error status code message => exact selfDelimiting_of_typed (typed_json _ _)
  | health cfg => exact selfDelimiting_of_typed (typed_json _ _)
  | relayed raw =>
    obtain ⟨contentType, htyped⟩ := typed_relay (parsedType_within_line raw)
    exact selfDelimiting_of_typed htyped

theorem built_of_mem_replies {p : Io Unit} (hp : p.Calls HandlerCall)
    (hrun : Prog.Runs p evs ()) : ∀ q ∈ repliesOf evs, Built q.2 := by
  intro q hq
  obtain ⟨⟨o, r⟩, he, hreply⟩ := List.mem_filterMap.mp hq
  have hbuilt := Prog.calls_of_runs hp hrun _ he
  cases o with
  | invoke i =>
    cases i with
    | reply s resp =>
      obtain rfl := Option.some.inj hreply
      exact hbuilt
    | forwardRequest base req path auth => cases hreply
  | _ => cases hreply

/-- Every response of a connection is one of the built ones, and each of these delimits itself. -/
theorem responses_self_delimiting : (∀ resp, Built resp → SelfDelimiting resp) ∧
    ∀ s clientIp cfg p evs, ServesConnection s clientIp cfg p → Prog.Runs p evs () →
      ∀ q ∈ repliesOf evs, Built q.2 := by
  refine ⟨fun resp h => h.selfDelimiting, ?_⟩
  intro s clientIp cfg p evs hserves hrun
  exact built_of_mem_replies (serves_calls hserves) hrun

/-- No header value of a response can break its line in any reading. -/
def Unbroken (resp : HttpResponse) : Prop :=
  ∀ kv ∈ resp.headers.toList, CR ∉ kv.2 ∧ LF ∉ kv.2

/-- Whenever the upstream sends this stream, in any pieces, the response to the client is
unbroken. -/
def NoSplitting (stream : Bytes) : Prop :=
  ∀ s cfg req route auth evs (cs : List Bytes), cs.flatten = stream →
    Prog.Runs (proxyRequest s cfg req route auth) evs () →
    receipts evs <+: cs.map .data ++ [.closed] → ∀ q ∈ repliesOf evs, Unbroken q.2

/-- A response that is relayed and whose first content-type line, if it has one, holds no line
break inside its value. -/
def CleanType (stream : Bytes) : Prop :=
  stream.length < kMaxUpstreamBytes → ∀ head body, cut crlfcrlf stream = some (head, body) →
    statusOf head ≠ none → ∀ line, contentTypeLine head = some line →
    CR ∉ trimStr (line.drop 13) ∧ LF ∉ trimStr (line.drop 13)

theorem unbroken_iff {contentType : Bytes} (h : Typed resp contentType) :
    Unbroken resp ↔ CR ∉ contentType ∧ LF ∉ contentType := by
  rw [Unbroken, h.headers, singleton_toList]
  simp

theorem unbroken_json (status : Nat) (body : Bytes) :
    Unbroken ⟨status, (∅ : HeaderMap).insert (ascii "content-type") (ascii "application/json"),
      body⟩ := by
  rw [unbroken_iff (typed_json status body)]
  decide

theorem contentTypeOf_unbroken_iff (head : Bytes) :
    (CR ∉ contentTypeOf head ∧ LF ∉ contentTypeOf head) ↔
      ∀ line, contentTypeLine head = some line →
        CR ∉ trimStr (line.drop 13) ∧ LF ∉ trimStr (line.drop 13) := by
  have hoctet : CR ∉ ascii "application/octet-stream" ∧ LF ∉ ascii "application/octet-stream" := by
    decide
  unfold contentTypeOf contentTypeValue
  cases contentTypeLine head with
  | none => simpa using hoctet
  | some line =>
    simp only [Option.map_some, Option.getD_some, Option.some.injEq, forall_eq']
    by_cases hnil : trimStr (line.drop 13) = []
    · simpa [hnil] using hoctet
    · rw [if_neg hnil]

theorem reportedMessage_unbroken_iff (head body : Bytes) :
    Unbroken (relayResponse (reportedMessage head body)) ↔ statusOf head ≠ none →
      ∀ line, contentTypeLine head = some line →
        CR ∉ trimStr (line.drop 13) ∧ LF ∉ trimStr (line.drop 13) := by
  rw [reportedMessage]
  cases hstatus : statusOf head with
  | none => exact iff_of_true (unbroken_json _ _) fun h => absurd rfl h
  | some n =>
    have htyped : Typed (relayResponse ⟨true, n.toNat, contentTypeOf head, body, [], false⟩)
        (contentTypeOf head) := ⟨rfl, contentTypeOf_within_line head⟩
    rw [unbroken_iff htyped, contentTypeOf_unbroken_iff]
    simp

/-- What is relayed of a stream is unbroken exactly when its type is clean. -/
theorem relayed_unbroken_iff (stream : Bytes) :
    Unbroken (relayResponse (reported stream)) ↔ CleanType stream := by
  unfold CleanType reported
  by_cases hlarge : kMaxUpstreamBytes ≤ stream.length
  · rw [if_pos hlarge]
    exact iff_of_true (unbroken_json _ _) fun h => absurd h (Nat.not_lt_of_le hlarge)
  · rw [if_neg hlarge]
    by_cases hnil : stream = []
    · rw [if_pos hnil]
      refine iff_of_true (unbroken_json _ _) ?_
      intro _ head body hcut
      rw [hnil] at hcut
      cases hcut
    · rw [if_neg hnil]
      cases hcut : cut crlfcrlf stream with
      | none => exact iff_of_true (unbroken_json _ _) fun _ head body h => by cases h
      | some parts =>
        obtain ⟨head, body⟩ := parts
        refine (reportedMessage_unbroken_iff head body).trans ?_
        constructor
        · rintro h - _ _ ⟨⟩
          exact h
        · intro h
          exact h (Nat.lt_of_not_le hlarge) head body rfl

/-- A failure is answered with JSON. -/
theorem unbroken_of_failed {pr : ProxyResult} (h : pr.ok = false) :
    Unbroken (relayResponse pr) := by
  unfold relayResponse
  rw [if_neg (by simp [h])]
  split <;> exact unbroken_json _ _

/-- Step 6 answers with what `forwardRequest` has made of the stream. -/
theorem proxyRequest_reply {route : RouteResult} {auth : AuthInfo}
    (h : Prog.Runs (proxyRequest s cfg req route auth) evs ()) :
    ∃ pre post pr, evs = pre ++ post ∧ repliesOf evs = [(s, relayResponse pr)] ∧
      Prog.Runs (forwardRequest route.upstreamBase req route.forwardPath auth
        cfg.upstreamTimeoutMs) pre pr := by
  obtain ⟨pre, pr, post, rfl, hforward, hreply⟩ := Prog.runs_bind.mp h
  refine ⟨pre, post, pr, rfl, ?_, hforward⟩
  rw [repliesOf_append, (forwardRequest_invokes hforward).1, (replyAndClose_runs hreply).1]
  rfl

theorem noSplitting_of_clean {stream : Bytes} (h : CleanType stream) : NoSplitting stream := by
  rintro s cfg req route auth evs cs rfl hrun hpieces
  obtain ⟨pre, post, pr, rfl, hreplies, hforward⟩ := proxyRequest_reply hrun
  rw [hreplies, List.forall_mem_singleton]
  cases hok : pr.ok with
  | false => exact unbroken_of_failed hok
  | true =>
    obtain ⟨up, hup, -, hsent⟩ := (forwardRequest_runs hforward).sent (.inr (.inl hok))
    have hpre : receipts pre <+: cs.map .data ++ [.closed] := by
      rw [receipts_append] at hpieces
      exact (List.prefix_append _ _).trans hpieces
    rw [(forwardRequest_runs hforward).streamed _ hup (hsent (.inl hok)) _ hpre, streamResult_eq]
    exact (relayed_unbroken_iff _).mpr h

/-- Each stream below the limit is received and answered in some run. -/
theorem exists_reply {cs : List Bytes} (hcs : ∀ c ∈ cs, 0 < c.length ∧ c.length ≤ 8192)
    (hlen : cs.flatten.length < kMaxUpstreamBytes) : ∃ cfg route evs,
      Prog.Runs (proxyRequest 4 cfg { } route { }) evs () ∧
      receipts evs = cs.map .data ++ [.closed] ∧
      repliesOf evs = [(4, relayResponse (reported cs.flatten))] := by
  have hup : parseUpstream (ascii "http://users:9001") = .ok ⟨ascii "users", 9001, []⟩ := by
    decide +kernel
  obtain ⟨pre, pr, hforward, hsent, hpieces⟩ := @forwardRequest_receives _ _ cs { }
    (ascii "/7") { } 5000 hup hcs hlen
  have hpr := (forwardRequest_runs hforward).streamed _ hup hsent cs (by rw [hpieces])
  rw [streamResult_eq] at hpr
  obtain ⟨post, _, hreply⟩ := Prog.exists_runs (replyAndClose 4 (relayResponse pr))
  have hlocal := (replyAndClose_runs hreply).2
  refine ⟨{ upstreamTimeoutMs := 5000 }, { upstreamBase := ascii "http://users:9001"
                                           forwardPath := ascii "/7" }, pre ++ post, ?_, ?_, ?_⟩
  · exact Prog.runs_bind.mpr ⟨pre, pr, post, rfl, hforward, hreply⟩
  · have hnone : receipts post = [] := by
      apply List.filterMap_eq_nil_iff.mpr
      intro e he
      have hl := hlocal e he
      obtain ⟨o, r⟩ := e
      cases o <;> first | exact hl.elim | rfl
    rw [receipts_append, hpieces, hnone, List.append_nil]
  · rw [repliesOf_append, (forwardRequest_invokes hforward).1, (replyAndClose_runs hreply).1, hpr]
    rfl

theorem clean_of_noSplitting {stream : Bytes} (h : NoSplitting stream) : CleanType stream := by
  intro hlen
  have hbytes : (stream.map fun c => [c]).flatten = stream := by
    rw [← List.flatMap_def, List.flatMap_singleton']
  obtain ⟨cfg, route, evs, hrun, hpieces, hreply⟩ := @exists_reply
    (stream.map fun c => [c]) (by simp) (by rwa [hbytes])
  have hunbroken := h 4 cfg { } route { } evs _ hbytes hrun (by rw [hpieces])
    (4, relayResponse (reported stream)) (by rw [hreply, hbytes]; exact List.mem_singleton_self _)
  exact (relayed_unbroken_iff stream).mp hunbroken hlen

/-- No response is split exactly when the stream is not relayed or its first content-type line
holds no line break inside the value. -/
theorem no_splitting_iff (stream : Bytes) : NoSplitting stream ↔ CleanType stream :=
  ⟨clean_of_noSplitting, noSplitting_of_clean⟩

/-- A lone line feed in the upstream's content type becomes a header line of its own. -/
theorem loneLineFeed_splits :
    ¬ NoSplitting
      (ascii "HTTP/1.1 200 OK\r\ncontent-type: text/html\nset-cookie: a=b\r\n\r\n") := by
  intro hsafe
  have h := clean_of_noSplitting hsafe
  have hcut : cut crlfcrlf
      (ascii "HTTP/1.1 200 OK\r\ncontent-type: text/html\nset-cookie: a=b\r\n\r\n") =
      some (ascii "HTTP/1.1 200 OK\r\ncontent-type: text/html\nset-cookie: a=b", []) := by
    decide +kernel
  have hline : contentTypeLine
      (ascii "HTTP/1.1 200 OK\r\ncontent-type: text/html\nset-cookie: a=b") =
      some (ascii "content-type: text/html\nset-cookie: a=b") := by
    decide +kernel
  exact (h (by decide +kernel) _ _ hcut (by decide +kernel) _ hline).2 (by decide +kernel)

end Gateway

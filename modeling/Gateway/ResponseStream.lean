import Mathlib
import Gateway.ForwardRuns

/-! The result of `forwardRequest` as a function of the bytes that the upstream sends. -/
namespace Gateway

open Program Search

variable {base forwardPath head : Bytes} {up : UpstreamAddr} {req : HttpRequest} {auth : AuthInfo}
  {timeoutMs : Int} {evs : Trace} {pr : ProxyResult}

/-- The number behind the first space of the first line, when it is a status. -/
def statusOf (head : Bytes) : Option Int := do
  let (_, rest) ← cut [32] ((splitOn crlf head).headD [])
  let n ← stoi (rest.takeWhile (· ≠ 32))
  if 100 ≤ n ∧ n ≤ 599 then some n else none

/-- The first line behind the status line that is named content-type, in any letter case. -/
def contentTypeLine (head : Bytes) : Option Bytes :=
  (splitOn crlf head).tail.find? fun line => ascii "content-type:" <+: toLower line

/-- The trimmed value of that line, if there is one. -/
def contentTypeValue (head : Bytes) : Bytes :=
  ((contentTypeLine head).map fun line => trimStr (line.drop 13)).getD []

def contentTypeOf (head : Bytes) : Bytes :=
  if contentTypeValue head = [] then ascii "application/octet-stream" else contentTypeValue head

/-- What is reported for a response with this head and body. -/
def reportedMessage (head body : Bytes) : ProxyResult :=
  match statusOf head with
  | none => { error := ascii "bad upstream status" }
  | some n => { ok := true, status := n.toNat, contentType := contentTypeOf head, body }

/-- What is reported for everything an upstream sends before it closes the connection. -/
def reported (stream : Bytes) : ProxyResult :=
  if kMaxUpstreamBytes ≤ stream.length then { error := ascii "upstream response too large" }
  else if stream = [] then { error := ascii "upstream io failed" }
  else
    match cut crlfcrlf stream with
    | none => { error := ascii "bad upstream response" }
    | some (head, body) => reportedMessage head body

theorem lowerByte_break (c d : UInt8) (hd : d = CR ∨ d = LF) : lowerByte c = d ↔ c = d := by
  obtain rfl | rfl := hd
  · revert c
    decide +kernel
  · revert c
    decide +kernel

theorem crlf_infix_toLower {l : Bytes} : crlf <:+: toLower l ↔ crlf <:+: l := by
  constructor
  · rintro ⟨a, b, h⟩
    obtain ⟨u, w, rfl, hu, hw⟩ := List.map_eq_append_iff.mp h.symm
    obtain ⟨a', m, rfl, -, hm⟩ := List.map_eq_append_iff.mp hu
    have hpair : m = crlf := by
      obtain ⟨c, m, rfl, hc, hm⟩ := List.map_eq_cons_iff.mp hm
      obtain ⟨d, m, rfl, hd, hm⟩ := List.map_eq_cons_iff.mp hm
      rw [List.map_eq_nil_iff.mp hm, (lowerByte_break c 13 (.inl rfl)).mp hc,
        (lowerByte_break d 10 (.inr rfl)).mp hd]
      rfl
    rw [hpair]
    exact ⟨a', w, rfl⟩
  · rintro ⟨a, b, rfl⟩
    refine ⟨toLower a, toLower b, ?_⟩
    simp only [toLower, List.map_append]
    rfl

/-- A key without a line break begins a line if it begins what the line begins. -/
theorem prefix_line_iff {key l rest : Bytes} (hkey : CR ∉ key) (hrest : rest = [] ∨ crlf <+: rest) :
    key <+: l ++ rest ↔ key <+: l := by
  constructor
  · intro h
    obtain hshort | ⟨q, rfl⟩ := List.prefix_or_prefix_of_prefix h (List.prefix_append l rest)
    · exact hshort
    · rw [List.prefix_append_right_inj] at h
      obtain rfl | hbreak := hrest
      · rw [List.prefix_nil.mp h, List.append_nil]
      · cases q with
        | nil => simp
        | cons c q =>
          obtain ⟨t, rfl⟩ := hbreak
          obtain rfl : c = CR := (List.cons_prefix_cons.mp h).1
          exact absurd (List.mem_append_right l List.mem_cons_self) hkey
  · intro h
    exact h.trans (List.prefix_append l rest)

theorem intercalate_line (l : Bytes) (ls : List Bytes) : ∃ rest,
    crlf.intercalate (l :: ls) = l ++ rest ∧ (rest = [] ∨ crlf <+: rest) := by
  cases ls with
  | nil => exact ⟨[], by simp, .inl rfl⟩
  | cons m ms =>
    refine ⟨crlf ++ crlf.intercalate (m :: ms), ?_, .inr (List.prefix_append _ _)⟩
    rw [List.intercalate_cons_cons, List.append_assoc]

/-- The key behind a line break is found at the first line that begins with it. -/
theorem find?_key {key : Bytes} (hkey : CR ∉ key) (l : Bytes) (ls : List Bytes)
    (hls : ∀ m ∈ l :: ls, ¬ crlf <:+: m) :
    ((ls.find? fun m => key <+: toLower m) = none →
      find? (crlf ++ key) (toLower (crlf.intercalate (l :: ls))) = none) ∧
    ∀ m, (ls.find? fun m => key <+: toLower m) = some m → ∃ pos rest,
      find? (crlf ++ key) (toLower (crlf.intercalate (l :: ls))) = some pos ∧
        (crlf.intercalate (l :: ls)).drop (pos + 2) = m ++ rest ∧ (rest = [] ∨ crlf <+: rest) := by
  have hlf : CR ∉ [LF] := by decide
  induction ls generalizing l with
  | nil =>
    rw [List.forall_mem_cons] at hls
    refine ⟨?_, by simp⟩
    intro _
    rw [List.intercalate_singleton, find?_eq_none_iff]
    intro h
    exact hls.1 (crlf_infix_toLower.mp ((List.prefix_append crlf key).isInfix.trans h))
  | cons m ms ih =>
    rw [List.forall_mem_cons] at hls
    have hline : ¬ crlf <:+: toLower l := fun h => hls.1 (crlf_infix_toLower.mp h)
    obtain ⟨hnone, hsome⟩ := ih m hls.2
    obtain ⟨rest, hrest, hbreak⟩ := intercalate_line m ms
    have hstarts : key <+: toLower (crlf.intercalate (m :: ms)) ↔ key <+: toLower m := by
      rw [hrest, toLower, List.map_append]
      apply prefix_line_iff hkey
      obtain rfl | ⟨t, rfl⟩ := hbreak
      · exact .inl rfl
      · exact .inr ⟨t.map lowerByte, by simp [crlf]; decide⟩
    have hlower : toLower (crlf.intercalate (l :: m :: ms)) =
        toLower l ++ crlf ++ toLower (crlf.intercalate (m :: ms)) := by
      rw [List.intercalate_cons_cons]
      simp only [toLower, List.map_append]
      rfl
    have hlen : (toLower l ++ crlf).length = l.length + 2 := by simp [toLower, crlf]
    have hfind : find? (crlf ++ key) (toLower l ++ crlf ++ toLower (crlf.intercalate (m :: ms))) =
        if key <+: toLower (crlf.intercalate (m :: ms)) then some (toLower l).length
        else (find? (crlf ++ key) (toLower (crlf.intercalate (m :: ms)))).map
          ((toLower l ++ crlf).length + ·) := find?_line hlf hline
    by_cases hm : key <+: toLower m
    · rw [if_pos (hstarts.mpr hm)] at hfind
      have hfirst : ((m :: ms).find? fun m => key <+: toLower m) = some m := by simp [hm]
      rw [hlower, hfind, hfirst]
      refine ⟨by simp, ?_⟩
      rintro _ ⟨⟩
      refine ⟨_, rest, rfl, ?_, hbreak⟩
      rw [List.intercalate_cons_cons, ← hrest]
      have hlen' : (toLower l).length + 2 = (l ++ crlf).length := by simp [toLower, crlf]
      rw [hlen', List.drop_left]
    · rw [if_neg fun h => hm (hstarts.mp h)] at hfind
      have hnext : ((m :: ms).find? fun m => key <+: toLower m) =
          ms.find? fun m => key <+: toLower m := by simp [hm]
      rw [hlower, hfind, hnext, hlen]
      constructor
      · intro h
        rw [hnone h]
        rfl
      · intro m' h
        obtain ⟨pos, rest', hpos, hdrop, hbreak'⟩ := hsome m' h
        refine ⟨l.length + 2 + pos, rest', by rw [hpos]; rfl, ?_, hbreak'⟩
        have hlen' : l.length + 2 + pos + 2 = (l ++ crlf).length + (pos + 2) := by
          simp only [crlf, List.length_append, List.length_cons, List.length_nil]
          omega
        rw [List.intercalate_cons_cons, hlen', ← List.drop_drop, List.drop_left, hdrop]

/-- The index searches of the code cut out the value of the first line of that name. -/
theorem upstreamContentType_eq (head : Bytes) :
    upstreamContentType head = contentTypeValue head := by
  obtain ⟨hjoin, hlines⟩ := intercalate_splitOn CR [LF] head
  obtain ⟨l, ls, hls⟩ := List.exists_cons_of_ne_nil (splitOn_ne_nil crlf head)
  have hkey : CR ∉ ascii "content-type:" := by decide
  have hlen : (crlf ++ ascii "content-type:").length = 15 := by decide
  change crlf.intercalate (splitOn crlf head) = head at hjoin
  change ∀ m ∈ splitOn crlf head, ¬ crlf <:+: m at hlines
  rw [hls] at hjoin hlines
  obtain ⟨hnone, hsome⟩ := find?_key hkey l ls hlines
  rw [hjoin] at hnone hsome
  have hline : contentTypeLine head = ls.find? fun m => ascii "content-type:" <+: toLower m := by
    rw [contentTypeLine, hls]
    rfl
  rw [contentTypeValue, hline]
  cases hfound : ls.find? fun m => ascii "content-type:" <+: toLower m with
  | none =>
    simp only [upstreamContentType, hnone hfound]
    rfl
  | some m =>
    obtain ⟨pos, rest, hpos, hdrop, hbreak⟩ := hsome m hfound
    have hmem : m ∈ ls := List.mem_of_find?_eq_some hfound
    have hstarts : ascii "content-type:" <+: toLower m := by
      simpa using List.find?_some hfound
    have hlong : 13 ≤ m.length := by
      have hle := hstarts.length_le
      simpa [toLower, ascii] using hle
    have hvalue : head.drop (pos + 15) = m.drop 13 ++ rest := by
      rw [show pos + 15 = pos + 2 + 13 from rfl, ← List.drop_drop, hdrop,
        List.drop_append_of_le_length hlong]
    have hend : ¬ crlf <:+: toLower (m.drop 13) := by
      intro h
      apply hlines m (List.mem_cons_of_mem l hmem)
      exact (crlf_infix_toLower.mp h).trans (List.drop_suffix 13 m).isInfix
    have hlower : (toLower head).drop (pos + 15) = toLower (m.drop 13) ++ toLower rest := by
      rw [toLower, ← List.map_drop, hvalue, List.map_append]
      rfl
    simp only [upstreamContentType, hpos, hlen, findCrlf, hlower, hvalue, Option.map_some,
      Option.getD_some]
    obtain rfl | ⟨t, rfl⟩ := hbreak
    · have hnext : find? crlf (toLower (m.drop 13) ++ toLower []) = none := by
        rw [show toLower [] = [] from rfl, List.append_nil]
        exact find?_eq_none_iff.mpr hend
      rw [hnext, List.append_nil]
      rfl
    · have hnext : find? crlf (toLower (m.drop 13) ++ toLower (crlf ++ t)) =
          some (toLower (m.drop 13)).length := by
        rw [toLower, toLower, List.map_append, ← List.append_assoc]
        exact find?_block_of_not_infix (by decide) hend
      have hcut : pos + 15 + (toLower (m.drop 13)).length - (pos + 15) = (m.drop 13).length := by
        simp only [toLower, List.length_map]
        omega
      rw [hnext]
      simp only [Option.map_some, hcut, List.take_left]

theorem firstLine_eq (head : Bytes) :
    (find? crlf head = none → (splitOn crlf head).headD [] = head) ∧
      ∀ eol, find? crlf head = some eol → (splitOn crlf head).headD [] = head.take eol := by
  rw [splitOn]
  split
  · rename_i h
    simp [h]
  · rename_i i h
    rw [dif_pos (by decide), h]
    simp

/-- The number of a field is a status, or the code has found none. -/
theorem status_of_field (field : Bytes) :
    ((stoi field).bind fun n => if 100 ≤ n ∧ n ≤ 599 then some n else none) =
      if (stoi field).getD 0 < 100 ∨ 599 < (stoi field).getD 0 then none
      else some ((stoi field).getD 0) := by
  cases stoi field with
  | none => rfl
  | some n =>
    simp only [Option.bind_some, Option.getD_some]
    by_cases hn : n < 100 ∨ 599 < n
    · rw [if_pos hn, if_neg (by omega)]
    · rw [if_neg hn, if_pos (by omega)]

/-- The check of the code on the first line of the head. -/
theorem statusOf_eq {line : Bytes} (h : (splitOn crlf head).headD [] = line) : statusOf head =
    if statusCode line < 100 ∨ 599 < statusCode line then none else some (statusCode line) := by
  have hspace : ascii " " = [32] := by decide
  unfold statusOf statusCode
  rw [hspace, h]
  cases hsp : find? [32] line with
  | none =>
    simp only [cut, hsp]
    rfl
  | some sp1 =>
    simp only [cut, hsp, Option.map_some, Option.bind_eq_bind, Option.bind_some,
      List.length_singleton, status_of_field]
    cases hnext : find? [32] (line.drop (sp1 + 1)) with
    | none => rw [(parts_of_find?_none hnext).1]
    | some len => rw [← (parts_of_find?_singleton hnext).1]

theorem reportedMessage_eq {line : Bytes} (body : Bytes)
    (h : (splitOn crlf head).headD [] = line) : reportedMessage head body =
      if statusCode line < 100 ∨ 599 < statusCode line then
        { error := ascii "bad upstream status" }
      else
        { ok := true
          status := (statusCode line).toNat
          contentType := contentTypeOf head
          body } := by
  rw [reportedMessage, statusOf_eq h]
  by_cases hcode : statusCode line < 100 ∨ 599 < statusCode line
  · simp only [hcode, if_true]
  · simp only [hcode, if_false]

/-- The code cuts and parses a response into what is reported for it. -/
theorem parseUpstreamResponse_eq {stream body : Bytes}
    (h : cut crlfcrlf stream = some (head, body)) :
    parseUpstreamResponse stream = reportedMessage head body := by
  obtain ⟨eoh, hfind, heq⟩ := Option.map_eq_some_iff.mp h
  obtain ⟨rfl, rfl⟩ := Prod.mk.inj heq
  obtain ⟨hnone, hsome⟩ := firstLine_eq (stream.take eoh)
  unfold parseUpstreamResponse
  simp only [hfind, upstreamContentType_eq]
  cases hline : find? crlf (stream.take eoh) with
  | none => exact (reportedMessage_eq _ (hnone hline)).symm
  | some eol => exact (reportedMessage_eq _ (hsome eol hline)).symm

theorem streamResult_eq (stream : Bytes) : streamResult stream = reported stream := by
  unfold streamResult reported
  split
  · rfl
  · unfold closedResult
    by_cases hne : stream = []
    · rw [if_pos hne, if_pos (by rw [hne]; rfl)]
    · rw [if_neg hne, if_neg (by simpa using hne)]
      cases hcut : cut crlfcrlf stream with
      | none =>
        have hfind : find? crlfcrlf stream = none := by simpa [cut] using hcut
        simp only [parseUpstreamResponse, hfind]
      | some parts => exact parseUpstreamResponse_eq hcut

/-- Once the request was sent, the result is what is reported for the bytes of the upstream, in
whatever pieces they are received. -/
theorem result_of_stream (hup : parseUpstream base = .ok up)
    (hrun : Prog.Runs (forwardRequest base req forwardPath auth timeoutMs) evs pr)
    (hsent : sentBytes evs = requestWire up req forwardPath auth) {cs : List Bytes}
    (hpieces : receipts evs <+: cs.map .data ++ [.closed]) : pr = reported cs.flatten := by
  rw [(forwardRequest_runs hrun).streamed up hup hsent cs hpieces, streamResult_eq]

/-- A response whose header name and empty line are torn between the receives. -/
def tornPieces : List Bytes :=
  [ascii "HTTP/1.1 200 OK\r\nContent-Ty", ascii "pe: \ttext/plain\r", ascii "\n\r\nhello"]

theorem tornPieces_reported :
    ∃ evs pr, Prog.Runs (forwardRequest (ascii "http://users:9001") { } (ascii "/7") { } 5000) evs
      pr ∧ receipts evs = tornPieces.map .data ++ [.closed] ∧
      pr = { ok := true, status := 200, contentType := ascii "text/plain",
             body := ascii "hello" } := by
  have hup : parseUpstream (ascii "http://users:9001") = .ok ⟨ascii "users", 9001, []⟩ := by
    decide +kernel
  obtain ⟨evs, pr, hrun, hsent, hpieces⟩ := @forwardRequest_receives _ _ tornPieces { }
    (ascii "/7") { } 5000 hup (by decide) (by decide +kernel)
  have hresult := result_of_stream hup hrun hsent (by rw [hpieces])
  refine ⟨evs, pr, hrun, hpieces, hresult.trans ?_⟩
  decide +kernel

end Gateway

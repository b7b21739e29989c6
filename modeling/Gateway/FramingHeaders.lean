import Mathlib
import Gateway.HandleClient
import Gateway.HeadGrammar

/-! The framing headers of an accepted head: the checks of step 2 before the body is read. -/
namespace Gateway

open Program LastWins

variable {s : Socket} {clientIp : Bytes} {cfg : Config} {req r : HttpRequest}
  {leftover head m t v : Bytes} {fields : List (Bytes × Bytes)} {n : Nat} {resp : HttpResponse}

def badRequest (message : Bytes) : HttpResponse := jsonError 400 (ascii "bad_request") message

def bodyTooLarge : HttpResponse :=
  jsonError 413 (ascii "body_too_large") (ascii "Request body exceeds the limit.")

/-- The connection ends with this reply: nothing is read, looked up or forwarded any more. -/
def AnswersOnly (s : Socket) (clientIp : Bytes) (cfg : Config) (req : HttpRequest)
    (leftover : Bytes) (resp : HttpResponse) : Prop :=
  handleAccepted s clientIp cfg req leftover = replyAndClose s resp

/-- The connection goes on with the body loop for `n` bytes and serves what that delivers. -/
def ReadsDeclared (s : Socket) (clientIp : Bytes) (cfg : Config) (req : HttpRequest)
    (leftover : Bytes) (n : Nat) : Prop :=
  ∃ next, handleAccepted s clientIp cfg req leftover =
      (readBody s cfg.maxBodyBytes n leftover >>= next) ∧
    ∀ body, next (.done body) = serve s clientIp cfg { req with clientIp, body }

theorem replyAndClose_first (s : Socket) (resp : HttpResponse) :
    (replyAndClose s resp).first = some (.invoke (.reply s resp)) := rfl

theorem AnswersOnly.unique {resp' : HttpResponse}
    (h : AnswersOnly s clientIp cfg req leftover resp)
    (h' : AnswersOnly s clientIp cfg req leftover resp') : resp = resp' := by
  have hfirst := congrArg Prog.first (h.symm.trans h')
  rw [replyAndClose_first, replyAndClose_first] at hfirst
  cases hfirst
  rfl

/-- A connection that goes on to the body does not begin with a reply. -/
theorem ReadsDeclared.not_answers (h : ReadsDeclared s clientIp cfg req leftover n) :
    ¬ AnswersOnly s clientIp cfg req leftover resp := by
  intro hanswer
  obtain ⟨next, hread, hnext⟩ := h
  have hfirst := congrArg Prog.first (hread.symm.trans hanswer)
  rw [replyAndClose_first] at hfirst
  rw [readBody] at hfirst
  split at hfirst
  · cases hfirst
  · rw [Prog.ret_bind, hnext] at hfirst
    cases hfirst

/-- How step 2 judges the framing headers of a request. -/
theorem handleAccepted_cases (s : Socket) (clientIp : Bytes) (cfg : Config) (req : HttpRequest)
    (leftover : Bytes) :
    (req.header (ascii "transfer-encoding") ≠ [] ∧ AnswersOnly s clientIp cfg req leftover
      (badRequest (ascii "Chunked transfer is not supported."))) ∨
    (req.header (ascii "transfer-encoding") = [] ∧
      ((req.header (ascii "content-length") ≠ [] ∧
        parseContentLength (req.header (ascii "content-length")) = none ∧
        AnswersOnly s clientIp cfg req leftover (badRequest (ascii "Bad Content-Length."))) ∨
      ((req.header (ascii "content-length") = [] ∨
          parseContentLength (req.header (ascii "content-length")) ≠ none) ∧
        let n := (parseContentLength (req.header (ascii "content-length"))).getD 0
        (cfg.maxBodyBytes < n ∧ AnswersOnly s clientIp cfg req leftover bodyTooLarge) ∨
        ((n : Int) ≤ cfg.maxBodyBytes ∧ ReadsDeclared s clientIp cfg req leftover n)))) := by
  have hheader : ∀ name, ({ req with clientIp } : HttpRequest).header name = req.header name :=
    fun name => rfl
  unfold AnswersOnly ReadsDeclared handleAccepted bodyPhase
  simp only [hheader]
  by_cases hte : req.header (ascii "transfer-encoding") = []
  · right
    refine ⟨hte, ?_⟩
    by_cases hbad : req.header (ascii "content-length") ≠ [] ∧
        parseContentLength (req.header (ascii "content-length")) = none
    · left
      refine ⟨hbad.1, hbad.2, ?_⟩
      rw [if_neg (not_not_intro hte), if_pos hbad]
      rfl
    · right
      refine ⟨by rwa [not_and_or, not_not] at hbad, ?_⟩
      rw [if_neg (not_not_intro hte), if_neg hbad]
      by_cases hbig : cfg.maxBodyBytes <
          ((parseContentLength (req.header (ascii "content-length"))).getD 0 : Nat)
      · left
        refine ⟨hbig, ?_⟩
        rw [if_pos hbig]
        rfl
      · right
        refine ⟨by omega, ?_⟩
        rw [if_neg hbig, Prog.bind_assoc]
        exact ⟨_, rfl, fun body => rfl⟩
  · left
    refine ⟨hte, ?_⟩
    rw [if_pos hte]
    rfl

/-- A non-empty string of decimal digits. -/
def IsNumeral (v : Bytes) : Prop := v ≠ [] ∧ ∀ c ∈ v, isDigit c = true

instance (v : Bytes) : Decidable (IsNumeral v) := inferInstanceAs (Decidable (_ ∧ _))

theorem isDigit_iff {c : UInt8} : isDigit c = true ↔ ¬ (c < 48 ∨ 57 < c) := by
  simp [isDigit, not_or]

theorem le_foldl_digits (v : Bytes) (acc : Nat) :
    acc ≤ v.foldl (fun n c => 10 * n + (c.toNat - 48)) acc := by
  induction v generalizing acc with
  | nil => exact le_rfl
  | cons c v ih =>
    have hnext := ih (10 * acc + (c.toNat - 48))
    rw [List.foldl_cons]
    omega

/-- The digit loop reads on exactly while the number stays within its cap. -/
theorem contentLengthLoop_eq_some_iff {acc : Nat} (hacc : acc ≤ 64 * 1024 * 1024) :
    contentLengthLoop v acc = some n ↔ (∀ c ∈ v, isDigit c = true) ∧
      v.foldl (fun n c => 10 * n + (c.toNat - 48)) acc = n ∧ n ≤ 64 * 1024 * 1024 := by
  induction v generalizing acc with
  | nil =>
    simp only [contentLengthLoop, Option.some.injEq, List.not_mem_nil, false_implies,
      implies_true, List.foldl_nil, true_and]
    constructor
    · rintro rfl
      exact ⟨rfl, hacc⟩
    · exact And.left
  | cons c v ih =>
    rw [contentLengthLoop, List.forall_mem_cons, List.foldl_cons]
    by_cases hdigit : isDigit c = true
    · rw [if_neg (isDigit_iff.mp hdigit)]
      have hnext : acc * 10 + (c.toNat - 48) = 10 * acc + (c.toNat - 48) := by omega
      simp only [hnext]
      by_cases hcap : 64 * 1024 * 1024 < 10 * acc + (c.toNat - 48)
      · rw [if_pos hcap]
        have hgrow := le_foldl_digits v (10 * acc + (c.toNat - 48))
        constructor
        · intro h
          cases h
        · rintro ⟨-, heq, hle⟩
          omega
      · rw [if_neg hcap, ih (by omega)]
        simp [hdigit]
    · rw [if_pos (not_not.mp (mt isDigit_iff.mpr hdigit))]
      simp [hdigit]

theorem parseContentLength_eq_some_iff : parseContentLength v = some n ↔
    IsNumeral v ∧ v.length ≤ 10 ∧ decimal v = n ∧ n ≤ 64 * 1024 * 1024 := by
  unfold parseContentLength IsNumeral decimal
  by_cases hrefused : v = [] ∨ 10 < v.length
  · rw [if_pos hrefused]
    constructor
    · intro h
      cases h
    · rintro ⟨⟨hne, -⟩, hlen, -⟩
      rcases hrefused with h | h
      · exact (hne h).elim
      · omega
  · rw [if_neg hrefused, contentLengthLoop_eq_some_iff (by omega)]
    obtain ⟨hne, hlen⟩ := not_or.mp hrefused
    constructor
    · rintro ⟨hdigits, hval⟩
      exact ⟨⟨hne, hdigits⟩, by omega, hval⟩
    · rintro ⟨⟨-, hdigits⟩, -, hval⟩
      exact ⟨hdigits, hval⟩

/-- A value that `parseContentLength` takes. -/
def FitsCaps (v : Bytes) : Prop :=
  IsNumeral v ∧ v.length ≤ 10 ∧ decimal v ≤ 64 * 1024 * 1024

instance (v : Bytes) : Decidable (FitsCaps v) := inferInstanceAs (Decidable (_ ∧ _))

theorem parseContentLength_eq (v : Bytes) :
    parseContentLength v = if FitsCaps v then some (decimal v) else none := by
  split
  · rename_i h
    exact parseContentLength_eq_some_iff.mpr ⟨h.1, h.2.1, rfl, h.2.2⟩
  · rename_i h
    cases hp : parseContentLength v with
    | none => rfl
    | some n =>
      obtain ⟨hnum, hlen, rfl, hcap⟩ := parseContentLength_eq_some_iff.mp hp
      exact (h ⟨hnum, hlen, hcap⟩).elim

/-- Step 2 answers 400 and goes no further. -/
def Answers400 (s : Socket) (clientIp : Bytes) (cfg : Config) (req : HttpRequest)
    (leftover : Bytes) : Prop :=
  ∃ resp, resp.status = 400 ∧ AnswersOnly s clientIp cfg req leftover resp

theorem answers400_iff : Answers400 s clientIp cfg req leftover ↔
    req.header (ascii "transfer-encoding") ≠ [] ∨
      (req.header (ascii "content-length") ≠ [] ∧
        ¬ FitsCaps (req.header (ascii "content-length"))) := by
  have hnone : parseContentLength (req.header (ascii "content-length")) = none ↔
      ¬ FitsCaps (req.header (ascii "content-length")) := by
    rw [parseContentLength_eq]
    split <;> simp_all
  have hnot : req.header (ascii "transfer-encoding") = [] →
      (req.header (ascii "content-length") = [] ∨
        parseContentLength (req.header (ascii "content-length")) ≠ none) →
      ¬ (req.header (ascii "transfer-encoding") ≠ [] ∨
        (req.header (ascii "content-length") ≠ [] ∧
          ¬ FitsCaps (req.header (ascii "content-length")))) := by
    rintro hte hcl (hte' | ⟨hcl', hbad⟩)
    · exact hte' hte
    · rcases hcl with hcl | hcl
      · exact hcl' hcl
      · exact hcl (hnone.mpr hbad)
  rcases handleAccepted_cases s clientIp cfg req leftover with
    ⟨hte, h⟩ | ⟨hte, ⟨hcl, hbad, h⟩ | ⟨hcl, ⟨-, h⟩ | ⟨-, h⟩⟩⟩
  · exact iff_of_true ⟨_, rfl, h⟩ (Or.inl hte)
  · exact iff_of_true ⟨_, rfl, h⟩ (Or.inr ⟨hcl, hnone.mp hbad⟩)
  · refine iff_of_false ?_ ?_
    · rintro ⟨resp, hstatus, h'⟩
      rw [← h.unique h'] at hstatus
      cases hstatus
    · exact hnot hte hcl
  · refine iff_of_false ?_ (hnot hte hcl)
    rintro ⟨resp, -, h'⟩
    exact h.not_answers h'

/-- A line that announces a transfer coding. -/
def IsTransferCoding (f : Bytes × Bytes) : Prop := f.1 = ascii "transfer-encoding" ∧ f.2 ≠ []

instance (f : Bytes × Bytes) : Decidable (IsTransferCoding f) :=
  inferInstanceAs (Decidable (_ ∧ _))

/-- A line that declares a length which is not a number. -/
def IsBadLength (f : Bytes × Bytes) : Prop :=
  f.1 = ascii "content-length" ∧ f.2 ≠ [] ∧ ¬ IsNumeral f.2

/-- Each kind of rejected framing line, wherever it stands, makes step 2 answer 400. -/
structure FramingRejected (s : Socket) (clientIp : Bytes) (cfg : Config) (req : HttpRequest)
    (leftover : Bytes) (fields : List (Bytes × Bytes)) : Prop where
  transferEncoding : (∃ f ∈ fields, IsTransferCoding f) →
    Answers400 s clientIp cfg req leftover
  contentLength : (∃ f ∈ fields, IsBadLength f) → Answers400 s clientIp cfg req leftover

theorem header_parsed (g : RequestGrammar head m t v fields)
    (h : parseHttpRequest head = some req) (name : Bytes) :
    req.header name = (lastValue fields name).getD [] := by
  obtain rfl : parsedRequest m t v fields = req := by
    rw [parse_of_grammar g] at h
    exact Option.some.inj h
  rw [HttpRequest.header, parsedRequest, getElem?_stored]

/-- A rejected framing line stays rejected exactly when the last line of one of the two names
is itself rejected. -/
theorem framing_rejected_iff (g : RequestGrammar head m t v fields)
    (h : parseHttpRequest head = some req) :
    FramingRejected s clientIp cfg req leftover fields ↔
      ((∃ f ∈ fields, IsTransferCoding f ∨ IsBadLength f) →
        (lastValue fields (ascii "transfer-encoding")).getD [] ≠ [] ∨
        ((lastValue fields (ascii "content-length")).getD [] ≠ [] ∧
          ¬ FitsCaps ((lastValue fields (ascii "content-length")).getD []))) := by
  rw [← header_parsed g h, ← header_parsed g h, ← answers400_iff]
  constructor
  · rintro ⟨hte, hcl⟩ ⟨f, hf, hline | hline⟩
    · exact hte ⟨f, hf, hline⟩
    · exact hcl ⟨f, hf, hline⟩
  · intro hall
    constructor
    · rintro ⟨f, hf, hline⟩
      exact hall ⟨f, hf, Or.inl hline⟩
    · rintro ⟨f, hf, hline⟩
      exact hall ⟨f, hf, Or.inr hline⟩

/-- A POST to an area with the given header lines, each a name and the text after its colon. -/
def postWith (lines : List (Bytes × Bytes)) : Bytes :=
  ascii "POST /api/users HTTP/1.1" ++ crlf ++ linesBlock lines

theorem postWith_grammar {lines : List (Bytes × Bytes)} (hplain : ∀ l ∈ lines, IsPlainLine l)
    (hnames : ∀ f ∈ lines.map readLine, f.1 ≠ [])
    (hvalues : ∀ f ∈ lines.map readLine, f.2.length ≤ 8192)
    (hdistinct : ∀ i < (lines.map readLine).length,
      (names ((lines.map readLine).take i)).card ≤ 100) :
    RequestGrammar (postWith lines) (ascii "POST") (ascii "/api/users") (ascii "HTTP/1.1")
      (lines.map readLine) := by
  refine ⟨⟨_, _, rfl, ?_, ?_, headerFields_linesBlock hplain⟩, ?_, rfl, ?_, ?_, hnames, hvalues,
    hdistinct⟩ <;> decide +kernel

/-- A chunked body that is announced as such. -/
def chunkedLines : List (Bytes × Bytes) := [(ascii "Transfer-Encoding", ascii " chunked")]

/-- The same announcement with a blank line of the same name after it. -/
def blankedLines : List (Bytes × Bytes) := chunkedLines ++ [(ascii "TRANSFER-ENCODING", ascii " ")]

theorem chunkedLines_grammar : RequestGrammar (postWith chunkedLines) (ascii "POST")
    (ascii "/api/users") (ascii "HTTP/1.1") (chunkedLines.map readLine) :=
  postWith_grammar (by decide +kernel) (by decide +kernel) (by decide +kernel) (by decide +kernel)

theorem blankedLines_grammar : RequestGrammar (postWith blankedLines) (ascii "POST")
    (ascii "/api/users") (ascii "HTTP/1.1") (blankedLines.map readLine) :=
  postWith_grammar (by decide +kernel) (by decide +kernel) (by decide +kernel) (by decide +kernel)

theorem chunkedLines_rejected :
    FramingRejected 4 (ascii "10.0.0.1") {} (parsedRequest (ascii "POST") (ascii "/api/users")
      (ascii "HTTP/1.1") (chunkedLines.map readLine)) [] (chunkedLines.map readLine) := by
  apply (framing_rejected_iff chunkedLines_grammar (parse_of_grammar chunkedLines_grammar)).mpr
  intro _
  left
  decide +kernel

/-- A blank line of the same name undoes the rejection of a chunked body. -/
theorem blankedLines_accepted :
    RequestGrammar (postWith blankedLines) (ascii "POST") (ascii "/api/users") (ascii "HTTP/1.1")
      (blankedLines.map readLine) ∧
    parseHttpRequest (postWith blankedLines) = some (parsedRequest (ascii "POST")
      (ascii "/api/users") (ascii "HTTP/1.1") (blankedLines.map readLine)) ∧
    ¬ FramingRejected 4 (ascii "10.0.0.1") {} (parsedRequest (ascii "POST") (ascii "/api/users")
      (ascii "HTTP/1.1") (blankedLines.map readLine)) [] (blankedLines.map readLine) := by
  refine ⟨blankedLines_grammar, parse_of_grammar blankedLines_grammar, ?_⟩
  rintro ⟨hte, -⟩
  have hline : ∃ f ∈ blankedLines.map readLine, IsTransferCoding f :=
    ⟨(ascii "transfer-encoding", ascii "chunked"), by decide +kernel, by decide +kernel⟩
  have hheader := header_parsed blankedLines_grammar (parse_of_grammar blankedLines_grammar)
  rcases answers400_iff.mp (hte hline) with h | ⟨h, -⟩
  · rw [hheader] at h
    revert h
    decide +kernel
  · rw [hheader] at h
    revert h
    decide +kernel

/-- Every value that the accumulator of the digit loop takes, refused ones included. -/
def accumulated : Bytes → Nat → List Nat
  | [], _ => []
  | c :: cs, n =>
    if c < 48 ∨ 57 < c then []
    else
      let n := n * 10 + (c.toNat - 48)
      n :: if 64 * 1024 * 1024 < n then [] else accumulated cs n

/-- The loop returns the last value of its accumulator. -/
theorem contentLengthLoop_eq_accumulated {acc : Nat} (h : contentLengthLoop v acc = some n) :
    n = (accumulated v acc).getLastD acc := by
  induction v generalizing acc with
  | nil => exact (Option.some.inj h).symm
  | cons c v ih =>
    simp only [contentLengthLoop] at h
    split at h
    · cases h
    · rename_i hdigit
      split at h
      · cases h
      · rename_i hcap
        simp only [accumulated, hdigit, hcap, if_false, List.getLastD_cons]
        exact ih h

/-- No value of the accumulator comes near the range of a 64-bit integer. -/
theorem accumulated_le {acc : Nat} (hacc : acc ≤ 64 * 1024 * 1024) :
    ∀ a ∈ accumulated v acc, a ≤ 64 * 1024 * 1024 * 10 + 9 := by
  induction v generalizing acc with
  | nil => simp [accumulated]
  | cons c v ih =>
    rw [accumulated]
    split
    · simp
    · rename_i hdigit
      have hnine : c.toNat - 48 ≤ 9 := by
        have hle : c ≤ 57 := by simpa using (not_or.mp hdigit).2
        have hnat : c.toNat ≤ 57 := UInt8.le_iff_toNat_le.mp hle
        omega
      rw [List.forall_mem_cons]
      refine ⟨by omega, ?_⟩
      split
      · simp
      · exact ih (by omega)

/-- The treatment that the limit asks for, when a number is declared. -/
structure DeclaredLengthKept (s : Socket) (clientIp : Bytes) (cfg : Config) (req : HttpRequest)
    (leftover : Bytes) (n : Nat) : Prop where
  oversized : cfg.maxBodyBytes < n → AnswersOnly s clientIp cfg req leftover bodyTooLarge
  within : (n : Int) ≤ cfg.maxBodyBytes → ReadsDeclared s clientIp cfg req leftover n
  numeral : ¬ AnswersOnly s clientIp cfg req leftover (badRequest (ascii "Bad Content-Length."))

/-- A declared number is held against the limit exactly when the head announces no transfer
coding and the numeral passes both caps; the accumulation, whose last value is returned, never
overflows. -/
theorem declared_length_kept_iff
    (hnum : IsNumeral (req.header (ascii "content-length"))) :
    (DeclaredLengthKept s clientIp cfg req leftover
        (decimal (req.header (ascii "content-length"))) ↔
      req.header (ascii "transfer-encoding") = [] ∧
        (req.header (ascii "content-length")).length ≤ 10 ∧
        decimal (req.header (ascii "content-length")) ≤ 64 * 1024 * 1024) ∧
    ∀ w : Bytes, (∀ a ∈ accumulated w 0, a < 2 ^ 63) ∧
      ∀ n, contentLengthLoop w 0 = some n → n = (accumulated w 0).getLastD 0 := by
  constructor
  · generalize hv : req.header (ascii "content-length") = v at hnum
    have hparse := parseContentLength_eq v
    have hcases := handleAccepted_cases s clientIp cfg req leftover
    rw [hv] at hcases
    constructor
    · intro hkept
      rcases hcases with ⟨-, h⟩ | ⟨hte, ⟨-, -, h⟩ | ⟨hok, -⟩⟩
      · -- a transfer coding is refused before the length is looked at
        by_cases hbig : cfg.maxBodyBytes < (decimal v : Int)
        · have hclash := congrArg HttpResponse.status (h.unique (hkept.oversized hbig))
          cases hclash
        · exact ((hkept.within (by omega)).not_answers h).elim
      · exact (hkept.numeral h).elim
      · rcases hok with hempty | hsome
        · exact (hnum.1 hempty).elim
        · by_cases hcaps : FitsCaps v
          · exact ⟨hte, hcaps.2⟩
          · rw [if_neg hcaps] at hparse
            exact (hsome hparse).elim
    · rintro ⟨hte, hcaps⟩
      rw [if_pos ⟨hnum, hcaps⟩] at hparse
      rcases hcases with ⟨hne, -⟩ | ⟨-, ⟨-, hnone, -⟩ | ⟨-, hjudged⟩⟩
      · exact (hne hte).elim
      · rw [hparse] at hnone
        cases hnone
      · rw [hparse, Option.getD_some] at hjudged
        rcases hjudged with ⟨hbig, h⟩ | ⟨hfit, h⟩
        · refine ⟨fun _ => h, fun hle => by omega, ?_⟩
          intro h400
          have hclash := congrArg HttpResponse.status (h.unique h400)
          cases hclash
        · exact ⟨fun hbig => by omega, fun _ => h, h.not_answers⟩
  · refine fun w => ⟨fun a ha => ?_, fun n hn => contentLengthLoop_eq_accumulated hn⟩
    have hle := accumulated_le (by omega) a ha
    omega

/-- A body of five bytes, with the digit 5 written after some zeros. -/
def paddedLines (zeros : Nat) : List (Bytes × Bytes) :=
  [(ascii "Content-Length", List.replicate zeros 48 ++ ascii "5")]

def paddedRequest (zeros : Nat) : HttpRequest :=
  parsedRequest (ascii "POST") (ascii "/api/users") (ascii "HTTP/1.1")
    ((paddedLines zeros).map readLine)

theorem paddedRequest_length_one :
    (paddedRequest 1).header (ascii "content-length") = ascii "05" := by decide +kernel

theorem paddedRequest_length_ten :
    (paddedRequest 10).header (ascii "content-length") = ascii "00000000005" := by decide +kernel

theorem parse_paddedLines_ten : parseHttpRequest (postWith (paddedLines 10)) =
    some (paddedRequest 10) :=
  parse_of_grammar (postWith_grammar (by decide +kernel) (by decide +kernel) (by decide +kernel)
    (by decide +kernel))

theorem paddedRequest_kept :
    DeclaredLengthKept 4 (ascii "10.0.0.1") (readConfig secretOnly) (paddedRequest 1) []
      (decimal ((paddedRequest 1).header (ascii "content-length"))) := by
  have hnum : IsNumeral ((paddedRequest 1).header (ascii "content-length")) := by
    rw [paddedRequest_length_one]
    decide +kernel
  apply (declared_length_kept_iff hnum).1.mpr
  rw [paddedRequest_length_one]
  decide +kernel

/-- Ten leading zeros turn a body of five bytes into a bad request. -/
theorem paddedRequest_refused : loadConfig secretOnly = .ok (readConfig secretOnly) ∧
    parseHttpRequest (postWith (paddedLines 10)) = some (paddedRequest 10) ∧
    IsNumeral ((paddedRequest 10).header (ascii "content-length")) ∧
    decimal ((paddedRequest 10).header (ascii "content-length")) = 5 ∧
    ¬ DeclaredLengthKept 4 (ascii "10.0.0.1") (readConfig secretOnly) (paddedRequest 10) [] 5 := by
  rw [paddedRequest_length_ten]
  refine ⟨loadConfig_secretOnly, parse_paddedLines_ten, by decide +kernel, by decide +kernel, ?_⟩
  intro hkept
  have hnone : parseContentLength (ascii "00000000005") = none := by decide +kernel
  rcases handleAccepted_cases 4 (ascii "10.0.0.1") (readConfig secretOnly) (paddedRequest 10) []
    with ⟨hte, -⟩ | ⟨-, ⟨-, -, h⟩ | ⟨hok, -⟩⟩
  · revert hte
    decide +kernel
  · exact hkept.numeral h
  · rw [paddedRequest_length_ten] at hok
    rcases hok with hempty | hsome
    · revert hempty
      decide
    · exact hsome hnone

end Gateway

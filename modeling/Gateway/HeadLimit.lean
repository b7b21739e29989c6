import Mathlib
import Gateway.RequestHead

/-! The size limit of the request head over every segmentation of the client's bytes. -/
namespace Gateway

open Program Search

variable {s : Socket} {clientIp : Bytes} {cfg : Config} {head c : Bytes} {cs : List Bytes}

def headersTooLarge : HttpResponse :=
  jsonError 413 (ascii "headers_too_large") (ascii "Request head is too large.")

/-- What follows step 1 when the head is complete: it is parsed, and refused or served. -/
def parseHead (s : Socket) (clientIp : Bytes) (cfg : Config) (headPart leftover : Bytes) :
    Io Unit :=
  match parseHttpRequest headPart with
  | none => replyAndClose s (jsonError 400 (ascii "bad_request") (ascii "Malformed HTTP request."))
  | some req => handleAccepted s clientIp cfg req leftover

/-- The first empty line of the stream ends within the limit. -/
def EndsWithin (cs : List Bytes) : Prop :=
  ∃ i, find? crlfcrlf cs.flatten = some i ∧ i + 4 ≤ kMaxHeaderBytes

/-- The connection is answered with 413 and ends. -/
def AnswersTooLarge (s : Socket) (clientIp : Bytes) (cfg : Config) (cs : List Bytes) : Prop :=
  ∃ rest, (handleClient s clientIp cfg).against (clientStream s) cs =
    (replyAndClose s headersTooLarge, rest)

/-- The bytes before the first empty line are parsed, with those after it left for the body. -/
def ParsesHead (s : Socket) (clientIp : Bytes) (cfg : Config) (cs : List Bytes) : Prop :=
  ∃ i leftover rest, find? crlfcrlf cs.flatten = some i ∧
    cs.flatten.take i ++ crlfcrlf ++ leftover ++ rest.flatten = cs.flatten ∧
    (handleClient s clientIp cfg).against (clientStream s) cs =
      (parseHead s clientIp cfg (cs.flatten.take i) leftover).against (clientStream s) rest

/-- The limit is applied to the stream, whatever its segmentation. -/
structure HeadLimitKept (s : Socket) (clientIp : Bytes) (cfg : Config) (cs : List Bytes) :
    Prop where
  tooLarge : AnswersTooLarge s clientIp cfg cs ↔ ¬ EndsWithin cs
  parses : EndsWithin cs → ParsesHead s clientIp cfg cs

/-- The first empty line ends past the limit, in a read that began before it. -/
def Overruns (cs : List Bytes) : Prop :=
  ∃ i pre c post, find? crlfcrlf cs.flatten = some i ∧ kMaxHeaderBytes < i + 4 ∧
    cs = pre ++ c :: post ∧ pre.flatten.length < kMaxHeaderBytes ∧
    i + 4 ≤ (pre.flatten ++ c).length

theorem handleClient_parses {buf : Bytes} {rest : List Bytes} {i : Nat}
    (hrun : (readHead s []).against (clientStream s) cs = (.ret (.done buf), rest))
    (hend : find? crlfcrlf buf = some i) :
    (handleClient s clientIp cfg).against (clientStream s) cs =
      (parseHead s clientIp cfg (buf.take i) (buf.drop (i + 4))).against (clientStream s) rest := by
  have hintake : (intake s).against (clientStream s) cs = (.ret (cutAndParse buf), rest) := by
    rw [intake, Prog.against_bind hrun]
    rfl
  rw [handleClient_eq, Prog.against_bind hintake, parseHead, cutAndParse, cut, hend]
  simp only [Option.map_some, crlfcrlf, List.length_cons, List.length_nil]
  cases parseHttpRequest (buf.take i) <;> rfl

theorem handleClient_tooLarge {rest : List Bytes}
    (hrun : (readHead s []).against (clientStream s) cs = (.ret .tooLarge, rest)) :
    (handleClient s clientIp cfg).against (clientStream s) cs =
      (replyAndClose s headersTooLarge, rest) := by
  have hintake : (intake s).against (clientStream s) cs = (.ret .tooLarge, rest) := by
    rw [intake, Prog.against_bind hrun]
    rfl
  rw [handleClient_eq, Prog.against_bind hintake]
  rfl

/-- A head that is read completely is never called too large. -/
theorem not_tooLarge_of_done {buf : Bytes} {rest : List Bytes} {i : Nat}
    (hrun : (readHead s []).against (clientStream s) cs = (.ret (.done buf), rest))
    (hend : find? crlfcrlf buf = some i) : ¬ AnswersTooLarge s clientIp cfg cs := by
  rintro ⟨rest', htoo⟩
  have hcut : cut crlfcrlf buf = some (buf.take i, buf.drop (i + crlfcrlf.length)) := by
    simp [cut, hend]
  rw [handleClient_parses hrun hend, parseHead, parseHttpRequest_cut_eq_none hcut] at htoo
  have hfirst := congrArg (Prog.first ∘ Prod.fst) htoo
  cases hfirst

/-- An empty line that the first pieces do not hold ends after them. -/
theorem past_of_none {pre post : List Bytes} {i : Nat} (hnot : find? crlfcrlf pre.flatten = none)
    (hi : find? crlfcrlf (pre ++ post).flatten = some i) : pre.flatten.length < i + 4 := by
  by_contra hle
  rw [List.flatten_append] at hi
  have hin : i + crlfcrlf.length ≤ pre.flatten.length := by
    simp only [crlfcrlf, List.length_cons, List.length_nil]
    omega
  rw [find?_of_append hi hin] at hnot
  cases hnot

theorem limit_kept_of_tooLarge {pre post : List Bytes}
    (hlong : kMaxHeaderBytes ≤ pre.flatten.length) (hnot : find? crlfcrlf pre.flatten = none)
    (hrun : (readHead s []).against (clientStream s) (pre ++ post) = (.ret .tooLarge, post)) :
    HeadLimitKept s clientIp cfg (pre ++ post) := by
  have hbeyond : ¬ EndsWithin (pre ++ post) := by
    rintro ⟨i, hi, hle⟩
    have hlt := past_of_none hnot hi
    omega
  exact ⟨iff_of_true ⟨post, handleClient_tooLarge hrun⟩ hbeyond, fun h => (hbeyond h).elim⟩

theorem not_overruns_of_none {pre post : List Bytes}
    (hlong : kMaxHeaderBytes ≤ pre.flatten.length) (hnot : find? crlfcrlf pre.flatten = none) :
    ¬ Overruns (pre ++ post) := by
  rintro ⟨i, pre', c, post', hi, -, hcs, hshort, hreach⟩
  -- the read in which the head ends would lie inside the pieces already read
  have hread : pre' ++ [c] <+: pre := by
    have hpre : pre <+: pre ++ post := List.prefix_append pre post
    have hpre' : pre' ++ [c] <+: pre ++ post := ⟨post', by simp [hcs]⟩
    rcases List.prefix_or_prefix_of_prefix hpre' hpre with h | h
    · exact h
    · rcases List.prefix_concat_iff.mp h with rfl | hshorter
      · exact List.prefix_rfl
      · have hle := hshorter.flatten.length_le
        omega
  have hle := hread.flatten.length_le
  have hlt := past_of_none hnot hi
  rw [List.flatten_append, List.flatten_singleton] at hle
  omega

theorem limit_kept_of_done {pre post : List Bytes} {i : Nat}
    (hfound : find? crlfcrlf (pre.flatten ++ c) = some i) (hin : i + 4 ≤ kMaxHeaderBytes)
    (hrun : (readHead s []).against (clientStream s) (pre ++ c :: post) =
      (.ret (.done (pre.flatten ++ c)), post)) :
    HeadLimitKept s clientIp cfg (pre ++ c :: post) := by
  have hflat : (pre ++ c :: post).flatten = pre.flatten ++ c ++ post.flatten := by simp
  have hwhole := find?_append_of_some (b := post.flatten) hfound
  rw [← hflat] at hwhole
  have hreach := find?_some_le hfound
  refine ⟨iff_of_false (not_tooLarge_of_done hrun hfound) (not_not_intro ⟨i, hwhole, hin⟩), ?_⟩
  intro _
  have htake : (pre ++ c :: post).flatten.take i = (pre.flatten ++ c).take i := by
    rw [hflat, List.take_append_of_le_length (by omega)]
  refine ⟨i, (pre.flatten ++ c).drop (i + 4), post, hwhole, ?_, ?_⟩
  · rw [htake, hflat]
    exact congrArg (· ++ post.flatten) (find?_some_eq hfound)
  · rw [htake]
    exact handleClient_parses hrun hfound

theorem not_limit_kept_of_overruns (hcs : Segmented cs) (h : Overruns cs) :
    ¬ HeadLimitKept s clientIp cfg cs := by
  have hempty : find? crlfcrlf ([] : Bytes) = none := by decide
  rcases readHead_cases (s := s) hcs hempty with ⟨pre, c, post, i, rfl, -, hfound, hrun⟩ |
    ⟨pre, post, rfl, hlong, hnot, -⟩ | ⟨-, hnot⟩
  · obtain ⟨j, -, -, -, hj, hpast, -⟩ := h
    rintro ⟨hlimit, -⟩
    apply not_tooLarge_of_done hrun hfound (hlimit.mpr ?_)
    rintro ⟨k, hk, hle⟩
    rw [hj] at hk
    cases hk
    omega
  · exact (not_overruns_of_none hlong hnot h).elim
  · obtain ⟨j, -, -, -, hj, -⟩ := h
    rw [List.nil_append, hj] at hnot
    cases hnot

/-- The loop keeps the limit exactly when no read takes the end of the head past it. -/
theorem head_limit_kept_iff (hcs : Segmented cs)
    (henough : crlfcrlf <:+: cs.flatten ∨ kMaxHeaderBytes ≤ cs.flatten.length) :
    HeadLimitKept s clientIp cfg cs ↔ ¬ Overruns cs := by
  refine ⟨fun hkept hover => not_limit_kept_of_overruns hcs hover hkept, ?_⟩
  intro hno
  have hempty : find? crlfcrlf ([] : Bytes) = none := by decide
  rcases readHead_cases (s := s) hcs hempty with ⟨pre, c, post, i, rfl, hshort, hfound, hrun⟩ |
    ⟨pre, post, rfl, hlong, hnot, hrun⟩ | ⟨hshort, hnot⟩
  · rw [List.nil_append] at hshort hfound hrun
    apply limit_kept_of_done hfound ?_ hrun
    by_contra hpast
    have hwhole := find?_append_of_some (b := post.flatten) hfound
    have hflat : (pre ++ c :: post).flatten = pre.flatten ++ c ++ post.flatten := by simp
    rw [← hflat] at hwhole
    exact hno ⟨i, pre, c, post, hwhole, by omega, rfl, hshort, find?_some_le hfound⟩
  · rw [List.nil_append] at hlong hnot
    exact limit_kept_of_tooLarge hlong hnot hrun
  · rw [List.nil_append] at hshort hnot
    rcases henough with hin | hlong
    · exact (find?_eq_none_iff.mp hnot hin).elim
    · omega

def filler (n : Nat) : Bytes := List.replicate n 97

@[simp] theorem filler_length (n : Nat) : (filler n).length = n := List.length_replicate

theorem filler_append (m n : Nat) (t : Bytes) :
    filler m ++ (filler n ++ t) = filler (m + n) ++ t := by
  simp [filler, ← List.append_assoc]

theorem filler_plain (n : Nat) : (13 : UInt8) ∉ filler n := by
  intro h
  have heq := List.eq_of_mem_replicate h
  revert heq
  decide

/-- A head that ends with the last byte of the limit, in the sixth read. -/
def limitPieces : List Bytes :=
  [filler 4095, filler 4095, filler 4095, filler 4095, [13, 10], [13, 10]]

theorem limitPieces_end : find? crlfcrlf limitPieces.flatten = some 16380 := by
  have hflat : limitPieces.flatten = filler 16380 ++ crlfcrlf ++ [] := by
    simp [limitPieces, filler_append, crlfcrlf]
  rw [hflat, crlfcrlf, find?_block (filler_plain 16380), filler_length]

theorem limitPieces_kept : HeadLimitKept 4 (ascii "10.0.0.1") {} limitPieces ∧
    ParsesHead 4 (ascii "10.0.0.1") {} limitPieces := by
  have hsegmented : Segmented limitPieces := by simp [Segmented, limitPieces]
  have hends : crlfcrlf <:+: limitPieces.flatten := by
    by_contra hno
    cases (find?_eq_none_iff.mpr hno).symm.trans limitPieces_end
  have hkept : HeadLimitKept 4 (ascii "10.0.0.1") {} limitPieces := by
    apply (head_limit_kept_iff hsegmented (.inl hends)).mpr
    rintro ⟨i, pre, c, post, hi, hpast, -⟩
    obtain rfl := Option.some.inj (limitPieces_end.symm.trans hi)
    revert hpast
    decide
  exact ⟨hkept, hkept.parses ⟨16380, limitPieces_end, by decide⟩⟩

/-- Four pieces of 4095 bytes, then one that ends the head 10 bytes past the limit. -/
def overrunPieces : List Bytes :=
  [filler 4095, filler 4095, filler 4095, filler 4095, filler 10 ++ crlfcrlf]

theorem overrunPieces_segmented : Segmented overrunPieces := by
  simp [Segmented, overrunPieces, crlfcrlf]

theorem overrunPieces_overruns : Overruns overrunPieces := by
  refine ⟨16390, [filler 4095, filler 4095, filler 4095, filler 4095], filler 10 ++ crlfcrlf, [],
    ?_, by decide, rfl, ?_, ?_⟩
  · have hflat : overrunPieces.flatten = filler 16390 ++ crlfcrlf ++ [] := by
      simp [overrunPieces, filler_append]
    rw [hflat, crlfcrlf, find?_block (filler_plain 16390), filler_length]
  · simp [kMaxHeaderBytes]
  · simp [crlfcrlf]

/-- The head ends past the limit, and yet the connection is not answered with 413. -/
theorem overrunPieces_accepted : Segmented overrunPieces ∧ crlfcrlf <:+: overrunPieces.flatten ∧
    ¬ EndsWithin overrunPieces ∧
    ¬ AnswersTooLarge 4 (ascii "10.0.0.1") {} overrunPieces ∧
    ¬ HeadLimitKept 4 (ascii "10.0.0.1") {} overrunPieces := by
  have hover := overrunPieces_overruns
  have hkept : ¬ HeadLimitKept 4 (ascii "10.0.0.1") {} overrunPieces :=
    not_limit_kept_of_overruns overrunPieces_segmented hover
  obtain ⟨i, -, -, -, hi, hpast, -⟩ := hover
  have hbeyond : ¬ EndsWithin overrunPieces := by
    rintro ⟨j, hj, hle⟩
    rw [hi] at hj
    cases hj
    omega
  refine ⟨overrunPieces_segmented, ?_, hbeyond, ?_, hkept⟩
  · by_contra hno
    rw [find?_eq_none_iff.mpr hno] at hi
    cases hi
  · intro htoo
    exact hkept ⟨iff_of_true htoo hbeyond, fun h => (hbeyond h).elim⟩

end Gateway

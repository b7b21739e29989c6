import Mathlib
import Gateway.ClientStream

/-! The cut of the head buffer against the head that `parseHttpRequest` expects. -/
namespace Gateway

open Program Search

variable {s : Socket} {buf headPart leftover : Bytes}

/-- A request head as a client may send it. -/
structure RequestHead where
  method : Bytes
  target : Bytes
  fields : List (Bytes × Bytes)
  method_ne : method ≠ []
  method_upper : ∀ c ∈ method, isUpper c = true
  target_slash : target.head? = some 47
  target_space : ∀ c ∈ target, isSpace c = false
  target_dots : ¬ ascii ".." <:+: (splitTarget target).1
  fields_le : fields.length ≤ 100
  names_ne : ∀ f ∈ fields, f.1 ≠ []
  names_plain : ∀ f ∈ fields, ∀ c ∈ f.1, c ≠ 58 ∧ isSpace c = false ∧ isControl c = false
  names_nodup : (fields.map fun f => toLower f.1).Nodup
  values_le : ∀ f ∈ fields, f.2.length ≤ 8192
  values_plain : ∀ f ∈ fields, CR ∉ f.2 ∧ LF ∉ f.2

namespace RequestHead

def requestLine (h : RequestHead) : Bytes :=
  h.method ++ ascii " " ++ h.target ++ ascii " HTTP/1.1"

def wire (h : RequestHead) : Bytes :=
  h.requestLine ++ crlf ++ h.fields.flatMap (fun f => f.1 ++ ascii ": " ++ f.2 ++ crlf) ++ crlf

/-- The request that the head denotes. -/
def request (h : RequestHead) : HttpRequest where
  method := h.method
  target := h.target
  path := (splitTarget h.target).1
  query := (splitTarget h.target).2
  version := ascii "HTTP/1.1"
  headers := h.fields.foldl (fun m f => m.insert (toLower f.1) (trimStr f.2)) ∅

end RequestHead

/-- Step 1 takes the head from this segmented stream and yields the request it denotes. -/
def AcceptsHead (s : Socket) (h : RequestHead) (cs : List Bytes) : Prop :=
  ∃ leftover rest,
    (intake s).against (clientStream s) cs = (.ret (.accepted h.request leftover), rest)

theorem crlfcrlf_of_crlf {l : Bytes} (h : crlf <+: l) (h' : crlf <+: l.drop 2) :
    crlfcrlf <+: l := by
  obtain ⟨t, rfl⟩ := h
  obtain ⟨u, hu⟩ := h'
  exact ⟨u, by simpa [crlf, crlfcrlf] using hu⟩

theorem findCrlf_prefix {head : Bytes} {pos eol : Nat} (h : findCrlf head pos = some eol) :
    crlf <+: head.drop eol := by
  obtain ⟨i, hi, rfl⟩ := Option.map_eq_some_iff.mp h
  simpa [List.drop_drop] using (find?_eq_some_iff.mp hi).2.1

/-- The header loop fails on a head without an empty line whose last line lacks its CRLF. -/
theorem parseHeaders_cut_eq_none {head : Bytes} {pos : Nat} {headers : HeaderMap}
    (hno : ∀ j, ¬ crlfcrlf <+: head.drop j) (hend : ∀ j, head.drop j ≠ crlf)
    (hpos : 2 ≤ pos) (hle : pos ≤ head.length) (hline : crlf <+: head.drop (pos - 2)) :
    parseHeaders head pos headers = none := by
  have hdrop : (head.drop (pos - 2)).drop 2 = head.drop pos := by
    rw [List.drop_drop]
    congr 1
    omega
  fun_induction parseHeaders head pos headers with
  | case1 => rfl
  | case2 pos headers hlt hfind =>
    have hcr := findCrlf_prefix hfind
    rw [← hdrop] at hcr
    exact (hno _ (crlfcrlf_of_crlf hline hcr)).elim
  | case3 => rfl
  | case4 => rfl
  | case5 => rfl
  | case6 pos headers hlt eol hfind hne line colon hcolon name value hbad hsize ih =>
    have hb := findCrlf_bounds hfind
    apply ih (by omega) hb.2
    · simpa using findCrlf_prefix hfind
    · rw [List.drop_drop]
      congr 1
  | case7 pos headers hge =>
    obtain rfl : pos = head.length := by omega
    obtain ⟨t, ht⟩ := hline
    rw [List.drop_length] at hdrop
    obtain rfl : t = [] := by simpa [← ht, crlf] using hdrop
    exact (hend _ (by simpa using ht.symm)).elim

/-- What the caller cuts off is never a head that the parser accepts. -/
theorem parseHttpRequest_cut_eq_none (h : cut crlfcrlf buf = some (headPart, leftover)) :
    parseHttpRequest headPart = none := by
  obtain ⟨i, hi, heq⟩ := Option.map_eq_some_iff.mp h
  obtain ⟨rfl, rfl⟩ := Prod.mk.inj heq
  have hbytes := find?_some_eq hi
  obtain ⟨hle, -, hmin⟩ := find?_eq_some_iff.mp hi
  have hlen : (buf.take i).length = i := List.length_take_of_le hle
  have hshort : ∀ j, crlf <+: (buf.take i).drop j → j < i := by
    intro j hj
    have hl := hj.length_le
    simp only [crlf, List.length_drop, List.length_cons, List.length_nil] at hl
    omega
  have hno : ∀ j, ¬ crlfcrlf <+: (buf.take i).drop j := by
    intro j hp
    have hj := hshort j (List.IsPrefix.trans ⟨[13, 10], rfl⟩ hp)
    apply hmin j hj
    rw [← hbytes, List.append_assoc, List.drop_append_of_le_length (by omega)]
    exact hp.trans (List.prefix_append _ _)
  have hend : ∀ j, (buf.take i).drop j ≠ crlf := by
    intro j he
    have hj := hshort j (by rw [he])
    apply hmin j hj
    rw [← hbytes, List.append_assoc, List.drop_append_of_le_length (by omega), he]
    exact ⟨crlf ++ buf.drop (i + crlfcrlf.length), rfl⟩
  cases hf : find? crlf (buf.take i) with
  | none => simp [parseHttpRequest, hf]
  | some eol =>
    have hl := find?_some_le hf
    have hp := (find?_eq_some_iff.mp hf).2.1
    simp only [crlf, List.length_cons, List.length_nil] at hl
    have hloop : parseHeaders (buf.take i) (eol + 2) ∅ = none :=
      parseHeaders_cut_eq_none hno hend (by omega) hl (by simpa using hp)
    simp [parseHttpRequest, hf, hloop]

/-- The first empty line of a stream that starts with a head ends no later than the head. -/
theorem RequestHead.find?_wire (h : RequestHead) (rest : Bytes) :
    ∃ i, find? crlfcrlf (h.wire ++ rest) = some i ∧ i + 4 ≤ h.wire.length := by
  have hlines : ∃ a, h.wire = a ++ crlfcrlf := by
    unfold RequestHead.wire
    rcases List.eq_nil_or_concat h.fields with hn | ⟨fs, f, hf⟩
    · exact ⟨h.requestLine, by simp [hn, crlf, crlfcrlf]⟩
    · exact ⟨h.requestLine ++ crlf ++ fs.flatMap (fun f => f.1 ++ ascii ": " ++ f.2 ++ crlf) ++
        f.1 ++ ascii ": " ++ f.2, by simp [hf, crlf, crlfcrlf]⟩
  obtain ⟨a, ha⟩ := hlines
  cases hf : find? crlfcrlf h.wire with
  | none => exact (find?_eq_none_iff.mp hf ⟨a, [], by simp [ha]⟩).elim
  | some i => exact ⟨i, find?_append_of_some hf, by simpa [crlfcrlf] using find?_some_le hf⟩

/-- Step 1 calls every head within the limit malformed. -/
theorem intake_against_head {h : RequestHead} {rest : Bytes} {cs : List Bytes}
    (hsize : h.wire.length ≤ kMaxHeaderBytes) (hcs : Segmented cs)
    (hstream : cs.flatten = h.wire ++ rest) :
    ∃ unread, (intake s).against (clientStream s) cs = (.ret .malformed, unread) := by
  obtain ⟨i, hi, hle⟩ := h.find?_wire rest
  have hempty : find? crlfcrlf ([] : Bytes) = none := by decide
  obtain ⟨buf, unread, hrun, -, hbuf⟩ := readHead_done (s := s) hcs hempty
    (by simpa [hstream] using hi) (by omega)
  refine ⟨unread, ?_⟩
  rw [intake, Prog.against_bind hrun]
  simp only [Prog.pure_eq, Prog.against_ret, cutAndParse, cut, hbuf, Option.map_some]
  have hcut : cut crlfcrlf buf = some (buf.take i, buf.drop (i + crlfcrlf.length)) := by
    simp [cut, hbuf]
  rw [parseHttpRequest_cut_eq_none hcut]

/-- No well-formed head is ever accepted: each one is answered with 400. -/
theorem wellFormed_head_never_accepted {h : RequestHead} {rest : Bytes} {cs : List Bytes}
    (clientIp : Bytes) (cfg : Config) (hsize : h.wire.length ≤ kMaxHeaderBytes)
    (hcs : Segmented cs) (hstream : cs.flatten = h.wire ++ rest) :
    ¬ AcceptsHead s h cs ∧
    ∃ unread, (handleClient s clientIp cfg).against (clientStream s) cs =
      (replyAndClose s (jsonError 400 (ascii "bad_request") (ascii "Malformed HTTP request.")),
        unread) := by
  obtain ⟨unread, hrun⟩ := intake_against_head (s := s) hsize hcs hstream
  constructor
  · rintro ⟨leftover, rest', hacc⟩
    simp [hrun] at hacc
  · refine ⟨unread, ?_⟩
    rw [handleClient, Prog.against_bind hrun]
    rfl

/-- `GET / HTTP/1.1` with a single header line. -/
def getHead : RequestHead where
  method := ascii "GET"
  target := ascii "/"
  fields := [(ascii "Host", ascii "a")]
  method_ne := by decide +kernel
  method_upper := by decide +kernel
  target_slash := by decide +kernel
  target_space := by decide +kernel
  target_dots := by decide +kernel
  fields_le := by decide +kernel
  names_ne := by decide +kernel
  names_plain := by decide +kernel
  names_nodup := by decide +kernel
  values_le := by decide +kernel
  values_plain := by decide +kernel

theorem getHead_never_accepted :
    ¬ AcceptsHead 4 getHead [getHead.wire] ∧
    ∃ unread, (handleClient 4 (ascii "10.0.0.1") {}).against (clientStream 4) [getHead.wire] =
      (replyAndClose 4 (jsonError 400 (ascii "bad_request") (ascii "Malformed HTTP request.")),
        unread) :=
  wellFormed_head_never_accepted (ascii "10.0.0.1") {} (by decide) (by decide)
    (show [getHead.wire].flatten = getHead.wire ++ [] by simp)

/-- The one-line head in a single piece meets every condition and is called malformed. -/
theorem getHead_malformed :
    getHead.wire.length ≤ kMaxHeaderBytes ∧ Segmented [getHead.wire] ∧
    [getHead.wire].flatten = getHead.wire ++ [] ∧ ¬ AcceptsHead 4 getHead [getHead.wire] := by
  have hcs : Segmented [getHead.wire] := by decide
  refine ⟨by decide, hcs, by simp, ?_⟩
  rintro ⟨leftover, rest, hacc⟩
  have hflat : [getHead.wire].flatten = getHead.wire ++ [] := by simp
  obtain ⟨unread, hrun⟩ := intake_against_head (s := 4) (by decide) hcs hflat
  simp [hrun] at hacc

end Gateway

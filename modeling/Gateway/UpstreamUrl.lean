import Mathlib
import Gateway.Startup
import Gateway.ForwardRuns

/-! The upstream URLs as documented, `http://host:port[/prefix]`, against those that are read. -/
namespace Gateway

open Program

variable {base host port path forwardPath target : Bytes} {up : UpstreamAddr} {n : Int}

def portText : Option Bytes → Bytes
  | none => []
  | some port => 58 :: port

def portNumber : Option Bytes → Int
  | none => 80
  | some port => decimal port

/-- The documented form of a base URL. -/
structure UrlForm (base host : Bytes) (port : Option Bytes) (path : Bytes) : Prop where
  written : base = ascii "http://" ++ host ++ portText port ++ path
  host_ne : host ≠ []
  host_plain : ∀ c ∈ host, c ≠ 47 ∧ c ≠ 58
  port_digits : ∀ p, port = some p →
    p ≠ [] ∧ (∀ c ∈ p, isDigit c = true) ∧ 1 ≤ decimal p ∧ decimal p ≤ 65535
  path_rooted : path = [] ∨ path.head? = some 47

/-- The prefix is the path without its trailing slashes; of slashes alone it keeps the first. -/
structure Stripped (path pathPrefix : Bytes) : Prop where
  only_slashes : ∃ k, path = pathPrefix ++ List.replicate k 47
  all_slashes : pathPrefix = [47] ∨ pathPrefix.getLast? ≠ some 47

/-- The parser accepts a base exactly in the documented form, and returns what is written. -/
structure ReadAsDocumented (base : Bytes) : Prop where
  sound : ∀ up, parseUpstream base = .ok up → ∃ port path,
    UrlForm base up.host port path ∧ up.port = portNumber port ∧ Stripped path up.pathPrefix
  complete : ∀ host port path, UrlForm base host port path → ∃ up, parseUpstream base = .ok up

/-- A port whose number is in range, with all that `std::stoi` passes over. -/
structure PaddedPort (port blanks sign digits rest : Bytes) : Prop where
  written : port = blanks ++ sign ++ digits ++ rest
  blank : ∀ c ∈ blanks, isSpace c = true
  plus : sign = [] ∨ sign = [43]
  digits_ne : digits ≠ []
  digit : ∀ c ∈ digits, isDigit c = true
  ends : ∀ c ∈ rest.head?, isDigit c = false
  low : 1 ≤ decimal digits
  high : decimal digits ≤ 65535

/-- Where a number in range stands behind the last colon of an authority with a host, the port
is written in digits alone and no colon stands before it. -/
def PlainAuthority (base : Bytes) : Prop :=
  ∀ host port blanks sign digits rest, ascii "http://" <+: base →
    authorityOf base = host ++ 58 :: port → 58 ∉ port → host ≠ [] →
    PaddedPort port blanks sign digits rest → port = digits ∧ 58 ∉ host

theorem scheme_length : (ascii "http://").length = 7 := by decide

/-- A base is its scheme, its authority and its path. -/
theorem parts_of_base (hscheme : ascii "http://" <+: base) :
    base = ascii "http://" ++ authorityOf base ++ pathOf base := by
  obtain ⟨rest, rfl⟩ := hscheme
  rw [authorityOf, pathOf, List.drop_left' scheme_length, List.append_assoc,
    List.takeWhile_append_dropWhile]

theorem not_slash_mem_authority (base : Bytes) : 47 ∉ authorityOf base := by
  intro h
  simpa using List.mem_takeWhile_imp h

theorem pathOf_rooted (base : Bytes) : pathOf base = [] ∨ (pathOf base).head? = some 47 := by
  have hhead := List.head?_dropWhile_not (fun c => decide (c ≠ 47)) (base.drop 7)
  unfold pathOf
  cases hpath : (base.drop 7).dropWhile fun c => decide (c ≠ 47) with
  | nil => exact .inl rfl
  | cons c cs =>
    rw [hpath] at hhead
    right
    simpa using hhead

/-- An authority without a slash and a path that begins with one are found again. -/
theorem authority_path_of_written {authority : Bytes} (hplain : 47 ∉ authority)
    (hpath : path = [] ∨ path.head? = some 47) :
    authorityOf (ascii "http://" ++ authority ++ path) = authority ∧
      pathOf (ascii "http://" ++ authority ++ path) = path := by
  have hne : ∀ c ∈ authority, decide (c ≠ 47) = true := by
    intro c hc
    exact decide_eq_true fun heq => hplain (heq ▸ hc)
  rw [authorityOf, pathOf, List.append_assoc, List.drop_left' scheme_length,
    List.takeWhile_append_of_pos hne, List.dropWhile_append_of_pos hne]
  cases path with
  | nil => simp
  | cons c cs =>
    obtain rfl : c = 47 := by simpa using hpath
    simp

/-- What the parser returns for a base that it accepts. -/
theorem parsed_parts (hup : parseUpstream base = .ok up) : ascii "http://" <+: base ∧
    parseHostPort (authorityOf base) = .ok (up.host, up.port) ∧ up.host ≠ [] ∧
      up.pathPrefix = trimSlashes (pathOf base) := by
  have hscheme : ascii "http://" <+: base := (parseUpstream_iff.mp ⟨up, hup⟩).1
  obtain ⟨herror, hok⟩ := parseUpstream_of_scheme hscheme
  refine ⟨hscheme, ?_⟩
  cases hread : parseHostPort (authorityOf base) with
  | error e =>
    rw [herror e hread] at hup
    cases hup
  | ok hostPort =>
    obtain ⟨host, port⟩ := hostPort
    rw [hok host port hread] at hup
    split at hup
    · cases hup
    · rename_i hhost
      cases hup
      exact ⟨rfl, hhost, rfl⟩

/-- `std::stoi` reads a port in range exactly from a padded port. -/
theorem stoi_port_iff : (stoi port = some n ∧ 0 < n ∧ n ≤ 65535) ↔
    ∃ blanks sign digits rest, PaddedPort port blanks sign digits rest ∧ n = decimal digits := by
  constructor
  · rintro ⟨hread, hlow, hhigh⟩
    obtain ⟨blanks, sign, digits, rest, hwritten, hblanks, hsign, hne, hdigits, hrest, rfl⟩ :=
      written_of_stoi hread hlow
    exact ⟨blanks, sign, digits, rest,
      ⟨hwritten, hblanks, hsign, hne, hdigits, hrest, by omega, by omega⟩, rfl⟩
  · rintro ⟨blanks, sign, digits, rest, h, rfl⟩
    have hlow := h.low
    have hhigh := h.high
    refine ⟨?_, by omega, by omega⟩
    rw [h.written]
    exact stoi_written h.blank h.plus h.digits_ne h.digit h.ends (by omega)

theorem paddedPort_of_digits (hne : port ≠ []) (hdigits : ∀ c ∈ port, isDigit c = true)
    (hlow : 1 ≤ decimal port) (hhigh : decimal port ≤ 65535) : PaddedPort port [] [] port [] :=
  ⟨by simp, by simp, .inl rfl, hne, hdigits, by simp, hlow, hhigh⟩

theorem colon_not_digit (hdigits : ∀ c ∈ port, isDigit c = true) : 58 ∉ port := by
  intro h
  exact absurd (hdigits 58 h) (by decide)

/-- The code's trimming is the documented one. -/
theorem stripped_trimSlashes (hpath : path = [] ∨ path.head? = some 47) :
    Stripped path (trimSlashes path) := by
  cases path with
  | nil => exact ⟨⟨0, rfl⟩, .inr (by simp [trimSlashes])⟩
  | cons c cs =>
    obtain rfl : c = 47 := by simpa using hpath
    have hcut := @List.rdropWhile_append_rtakeWhile _ (· == (47 : UInt8)) cs
    have hslashes : cs.rtakeWhile (· == 47) =
        List.replicate (cs.rtakeWhile (· == 47)).length 47 := by
      rw [List.eq_replicate_iff]
      exact ⟨rfl, fun c hc => by simpa using List.mem_rtakeWhile_imp hc⟩
    constructor
    · refine ⟨(cs.rtakeWhile (· == 47)).length, ?_⟩
      rw [← hslashes, trimSlashes, List.cons_append, hcut]
    · rw [trimSlashes]
      by_cases hnil : cs.rdropWhile (· == 47) = []
      · exact .inl (by rw [hnil])
      · right
        have hlast := List.rdropWhile_last_not (· == (47 : UInt8)) cs hnil
        rw [List.getLast?_cons_of_ne_nil hnil, List.getLast?_eq_getLast_of_ne_nil hnil]
        simpa using hlast

/-- With a plain authority, what is accepted is documented. -/
theorem urlForm_of_parsed (hplain : PlainAuthority base) (hup : parseUpstream base = .ok up) :
    ∃ port, UrlForm base up.host port (pathOf base) ∧ up.port = portNumber port := by
  obtain ⟨hscheme, hread, hhost, -⟩ := parsed_parts hup
  have hparts := parts_of_base hscheme
  have hslash := not_slash_mem_authority base
  by_cases hcolon : 58 ∈ authorityOf base
  · obtain ⟨host, port, heq, hport⟩ := exists_last hcolon
    rw [heq] at hread hparts hslash
    obtain ⟨hhost', hstoi, hlow, hhigh⟩ := (parseHostPort_last hport).mp hread
    obtain ⟨blanks, sign, digits, rest, hpadded, hnumber⟩ :=
      stoi_port_iff.mp ⟨hstoi, hlow, hhigh⟩
    obtain ⟨rfl, hfree⟩ := hplain host port blanks sign digits rest hscheme heq hport
      (hhost' ▸ hhost) hpadded
    rw [hhost']
    refine ⟨some port, ⟨?_, hhost' ▸ hhost, ?_, ?_, pathOf_rooted base⟩, hnumber⟩
    · simpa [portText] using hparts
    · intro c hc
      exact ⟨fun h => hslash (h ▸ List.mem_append_left _ hc), fun h => hfree (h ▸ hc)⟩
    · rintro p ⟨⟩
      exact ⟨hpadded.digits_ne, hpadded.digit, hpadded.low, hpadded.high⟩
  · rw [parseHostPort_plain hcolon] at hread
    obtain ⟨hhost', hnumber⟩ := Prod.mk.inj (Except.ok.inj hread)
    rw [hhost'] at hparts hslash hcolon
    refine ⟨none, ⟨by simpa [portText] using hparts, hhost, ?_, by simp, pathOf_rooted base⟩,
      hnumber.symm⟩
    intro c hc
    exact ⟨fun h => hslash (h ▸ hc), fun h => hcolon (h ▸ hc)⟩

theorem UrlForm.authority {port : Option Bytes} (h : UrlForm base host port path) :
    ascii "http://" <+: base ∧ authorityOf base = host ++ portText port ∧ pathOf base = path := by
  have hplain : 47 ∉ host ++ portText port := by
    intro hmem
    obtain hmem | hmem := List.mem_append.mp hmem
    · exact (h.host_plain 47 hmem).1 rfl
    · cases port with
      | none => exact absurd hmem List.not_mem_nil
      | some p =>
        obtain heq | hmem := List.mem_cons.mp hmem
        · exact absurd heq (by decide)
        · exact absurd ((h.port_digits p rfl).2.1 47 hmem) (by decide)
  have hparts := authority_path_of_written hplain h.path_rooted
  rw [← List.append_assoc, ← h.written] at hparts
  refine ⟨?_, hparts⟩
  rw [h.written, List.append_assoc, List.append_assoc]
  exact List.prefix_append _ _

/-- Every documented URL is accepted. -/
theorem parsed_of_urlForm {port : Option Bytes} (h : UrlForm base host port path) :
    ∃ up, parseUpstream base = .ok up := by
  obtain ⟨hscheme, hauthority, -⟩ := h.authority
  apply parseUpstream_iff.mpr
  refine ⟨hscheme, ?_⟩
  rw [hauthority]
  cases port with
  | none =>
    rw [portText, List.append_nil]
    exact .bare h.host_ne fun hmem => (h.host_plain 58 hmem).2 rfl
  | some p =>
    obtain ⟨hne, hdigits, hlow, hhigh⟩ := h.port_digits p rfl
    obtain ⟨hread, hpos, hmax⟩ := stoi_port_iff.mpr
      ⟨[], [], p, [], paddedPort_of_digits hne hdigits hlow hhigh, rfl⟩
    exact .withPort h.host_ne (colon_not_digit hdigits) hread hpos hmax

/-- Digits are padded by nothing. -/
theorem PaddedPort.eq_digits {blanks sign digits rest : Bytes}
    (h : PaddedPort port blanks sign digits rest) (hdigits : ∀ c ∈ port, isDigit c = true) :
    port = digits := by
  rw [h.written] at hdigits
  simp only [List.forall_mem_append] at hdigits
  obtain ⟨⟨⟨hblanks, hsign⟩, -⟩, hrest⟩ := hdigits
  have hnoBlank : blanks = [] := by
    apply List.eq_nil_iff_forall_not_mem.mpr
    intro c hc
    have hspace := not_space_of_digit (hblanks c hc)
    rw [h.blank c hc] at hspace
    cases hspace
  have hnoSign : sign = [] := by
    obtain hs | hs := h.plus
    · exact hs
    · exact absurd (hsign 43 (by simp [hs])) (by decide)
  have hnoRest : rest = [] := by
    cases rest with
    | nil => rfl
    | cons c cs =>
      have hc := hrest c List.mem_cons_self
      rw [h.ends c rfl] at hc
      cases hc
  rw [h.written, hnoBlank, hnoSign, hnoRest]
  simp

theorem plainAuthority_of_documented (h : ReadAsDocumented base) : PlainAuthority base := by
  intro host port blanks sign digits rest hscheme hauthority hplain hhost hpadded
  obtain ⟨hread, hlow, hhigh⟩ := stoi_port_iff.mpr ⟨blanks, sign, digits, rest, hpadded, rfl⟩
  obtain ⟨up, hup⟩ := parseUpstream_iff.mpr
    ⟨hscheme, hauthority ▸ .withPort hhost hplain hread hlow hhigh⟩
  obtain ⟨port', path, hform, -, -⟩ := h.sound up hup
  obtain ⟨-, hparsed, -, -⟩ := parsed_parts hup
  rw [hauthority, parseHostPort_last hplain] at hparsed
  rw [hparsed.1] at hform
  obtain ⟨-, hauthority', -⟩ := hform.authority
  have htext : portText port' = 58 :: port :=
    List.append_cancel_left (hauthority'.symm.trans hauthority)
  cases port' with
  | none => cases htext
  | some p =>
    obtain rfl := (List.cons.inj htext).2
    exact ⟨hpadded.eq_digits (hform.port_digits p rfl).2.1,
      fun hmem => (hform.host_plain 58 hmem).2 rfl⟩

/-- The documented URLs are read exactly as documented unless something stands around the digits
of the port or a colon in the host. -/
theorem read_as_documented_iff (base : Bytes) : ReadAsDocumented base ↔ PlainAuthority base := by
  constructor
  · exact plainAuthority_of_documented
  · intro hplain
    constructor
    · intro up hup
      obtain ⟨port, hform, hnumber⟩ := urlForm_of_parsed hplain hup
      refine ⟨port, pathOf base, hform, hnumber, ?_⟩
      rw [(parsed_parts hup).2.2.2]
      exact stripped_trimSlashes (pathOf_rooted base)
    · intro host port path hform
      exact parsed_of_urlForm hform

/-- The letters behind the port are dropped. -/
theorem letters_dropped : parseUpstream (ascii "http://users:80abc/v1") =
      .ok ⟨ascii "users", 80, ascii "/v1"⟩ ∧
    ¬ ReadAsDocumented (ascii "http://users:80abc/v1") := by
  refine ⟨by decide +kernel, ?_⟩
  intro h
  have hauthority : authorityOf (ascii "http://users:80abc/v1") =
      ascii "users" ++ 58 :: ascii "80abc" := by decide
  have hpadded : PaddedPort (ascii "80abc") [] [] (ascii "80") (ascii "abc") :=
    ⟨by decide, by simp, .inl rfl, by decide, List.all_eq_true.mp (by decide), fun c hc => by
      cases hc
      decide, by decide, by decide⟩
  have hsame := (plainAuthority_of_documented h _ _ _ _ _ _ (by decide) hauthority (by decide)
    (by decide) hpadded).1
  exact absurd hsame (by decide)

/-- The path of a base without its trailing slashes. -/
def strippedPath (base : Bytes) : Bytes := (pathOf base).rdropWhile (· == 47)

/-- Every call of `forwardRequest` sends a request line with this target, as far as it comes. -/
def PutsTarget (base forwardPath target : Bytes) : Prop :=
  ∀ req auth timeoutMs evs pr,
    Prog.Runs (forwardRequest base req forwardPath auth timeoutMs) evs pr →
    sentBytes evs <+: req.method ++ ascii " " ++ target ++ ascii " HTTP/1.1" ++ crlf ∨
      req.method ++ ascii " " ++ target ++ ascii " HTTP/1.1" ++ crlf <+: sentBytes evs

/-- With and without more slashes behind the base, the target is the same. -/
def SlashesIgnored (base forwardPath : Bytes) (k : Nat) : Prop :=
  PutsTarget base forwardPath (strippedPath base ++ forwardPath) ∧
    PutsTarget (base ++ List.replicate k 47) forwardPath (strippedPath base ++ forwardPath)

theorem rdropWhile_slashes (path : Bytes) (k : Nat) :
    (path ++ List.replicate k 47).rdropWhile (· == 47) = path.rdropWhile (· == 47) := by
  induction k with
  | zero => simp
  | succ k ih =>
    rw [List.replicate_succ', ← List.append_assoc, List.rdropWhile_concat_pos _ _ _ (by simp), ih]

/-- The code keeps a slash where all of a path is slashes. -/
theorem trimSlashes_eq (hpath : path = [] ∨ path.head? = some 47) : trimSlashes path =
    if path ≠ [] ∧ path.rdropWhile (· == 47) = [] then [47] else path.rdropWhile (· == 47) := by
  cases path with
  | nil => simp [trimSlashes]
  | cons c cs =>
    obtain rfl : c = 47 := by simpa using hpath
    have hcons : (47 :: cs).rdropWhile (· == (47 : UInt8)) =
        if cs.rdropWhile (· == 47) = [] then [] else 47 :: cs.rdropWhile (· == 47) := by
      simp only [List.rdropWhile, List.reverse_cons, List.dropWhile_append, List.isEmpty_iff,
        List.reverse_eq_nil_iff]
      split <;> simp
    rw [hcons, trimSlashes]
    by_cases hnil : cs.rdropWhile (· == 47) = [] <;> simp [hnil]

theorem upstreamPath_eq (hup : parseUpstream base = .ok up) (hfp : forwardPath.head? = some 47) :
    upstreamPath up forwardPath = up.pathPrefix ++ forwardPath := by
  have hhead : (up.pathPrefix ++ forwardPath).head? = some 47 := by
    rw [(parsed_parts hup).2.2.2]
    obtain hnil | hroot := pathOf_rooted base
    · simpa [hnil, trimSlashes] using hfp
    · cases hpath : pathOf base with
      | nil =>
        rw [hpath] at hroot
        cases hroot
      | cons c cs =>
        rw [hpath] at hroot
        simpa [trimSlashes] using hroot
  simp only [upstreamPath, hhead, if_true]

/-- The request line begins the request. -/
theorem line_prefix_wire (up : UpstreamAddr) (req : HttpRequest) (forwardPath : Bytes)
    (auth : AuthInfo) : req.method ++ ascii " " ++ upstreamPath up forwardPath ++
      ascii " HTTP/1.1" ++ crlf <+: requestWire up req forwardPath auth := by
  unfold requestWire
  generalize req.method ++ ascii " " ++ upstreamPath up forwardPath ++ ascii " HTTP/1.1" ++ crlf =
    line
  simp only [List.append_assoc]
  exact List.prefix_append _ _

/-- The request line that is sent has the target of the code. -/
theorem putsTarget_upstreamPath (hup : parseUpstream base = .ok up) :
    PutsTarget base forwardPath (upstreamPath up forwardPath) := by
  intro req auth timeoutMs evs pr hrun
  by_cases hnone : sentBytes evs = []
  · rw [hnone]
    exact .inl List.nil_prefix
  · obtain ⟨up', hup', hsent, -⟩ := (forwardRequest_runs hrun).sent (.inl hnone)
    obtain rfl := Except.ok.inj (hup.symm.trans hup')
    exact List.prefix_or_prefix_of_prefix hsent (line_prefix_wire up req forwardPath auth)

/-- Only a repetition of one byte begins itself again one place later. -/
theorem eq_of_prefix_cons {c : UInt8} {w r : Bytes} (h : w <+: c :: (w ++ r)) :
    ∀ x ∈ w, x = c := by
  induction w generalizing r with
  | nil => exact fun x hx => absurd hx List.not_mem_nil
  | cons d w ih =>
    obtain ⟨rfl, hrest⟩ := List.cons_prefix_cons.mp h
    rw [List.forall_mem_cons]
    exact ⟨rfl, ih hrest⟩

/-- A target with a slash too many is seen in some call. -/
theorem not_putsTarget (hup : parseUpstream base = .ok up)
    (htarget : upstreamPath up forwardPath = 47 :: target) :
    ¬ PutsTarget base forwardPath target := by
  intro hputs
  obtain ⟨evs, pr, hrun, -, hclosed⟩ :=
    forwardRequest_delivers { } forwardPath { } 0 hup (show ([] : Bytes).length < _ by decide)
  have hline := hputs _ _ _ _ _ hrun
  obtain ⟨up', hup', -, hall⟩ := (forwardRequest_runs hrun).sent (.inr (.inr hclosed))
  obtain rfl := Except.ok.inj (hup.symm.trans hup')
  obtain ⟨rest, hwire⟩ := line_prefix_wire up { } forwardPath { }
  rw [hall (.inr hclosed), ← hwire, htarget] at hline
  simp only [List.nil_append, List.append_assoc, List.cons_append] at hline
  obtain hlong | hshort := hline
  · have hlen := hlong.length_le
    simp only [List.length_append, List.length_cons] at hlen
    omega
  · rw [List.prefix_append_right_inj] at hshort
    have hsame := @eq_of_prefix_cons 47 (target ++ (ascii " HTTP/1.1" ++ crlf)) rest
      (by simpa only [List.append_assoc] using hshort)
    exact absurd (hsame 13 (by simp [crlf])) (by decide)

/-- Where the base is accepted, its target is stripped unless its path is slashes alone. -/
theorem puts_stripped_iff (hup : parseUpstream base = .ok up) (hfp : forwardPath.head? = some 47) :
    PutsTarget base forwardPath (strippedPath base ++ forwardPath) ↔
      strippedPath base ≠ [] ∨ pathOf base = [] := by
  have hcode := upstreamPath_eq hup hfp
  rw [(parsed_parts hup).2.2.2, trimSlashes_eq (pathOf_rooted base)] at hcode
  by_cases hroot : pathOf base ≠ [] ∧ strippedPath base = []
  · have hroot' := hroot
    rw [strippedPath] at hroot'
    rw [if_pos hroot'] at hcode
    have htarget : strippedPath base ++ forwardPath = forwardPath := by
      rw [hroot.2, List.nil_append]
    rw [htarget]
    refine iff_of_false (not_putsTarget hup hcode) ?_
    rintro (h | h)
    · exact h hroot.2
    · exact hroot.1 h
  · have hroot' := hroot
    rw [strippedPath] at hroot'
    rw [if_neg hroot'] at hcode
    refine iff_of_true ?_ ?_
    · rw [strippedPath, ← hcode]
      exact putsTarget_upstreamPath hup
    · by_cases hpath : pathOf base = []
      · exact .inr hpath
      · exact .inl fun h => hroot ⟨hpath, h⟩

/-- More slashes behind an accepted base are accepted too, as a part of its path. -/
theorem parsed_slashes (hup : parseUpstream base = .ok up) (k : Nat) :
    (∃ up', parseUpstream (base ++ List.replicate k 47) = .ok up') ∧
      pathOf (base ++ List.replicate k 47) = pathOf base ++ List.replicate k 47 := by
  have hscheme := (parsed_parts hup).1
  have hpath : pathOf base ++ List.replicate k 47 = [] ∨
      (pathOf base ++ List.replicate k 47).head? = some 47 := by
    obtain hnil | hroot := pathOf_rooted base
    · rw [hnil]
      cases k with
      | zero => exact .inl rfl
      | succ k => exact .inr rfl
    · right
      rw [List.head?_append, hroot]
      rfl
  have hparts := authority_path_of_written (not_slash_mem_authority base) hpath
  rw [← List.append_assoc, ← parts_of_base hscheme] at hparts
  refine ⟨parseUpstream_iff.mpr ⟨hscheme.trans (List.prefix_append _ _), ?_⟩, hparts.2⟩
  rw [hparts.1]
  exact (parseUpstream_iff.mp ⟨up, hup⟩).2

/-- Trailing slashes are ignored exactly where a path is left without them, or none are added to
a base without a path. -/
theorem slashes_ignored_iff (hup : parseUpstream base = .ok up)
    (hfp : forwardPath.head? = some 47) (k : Nat) : SlashesIgnored base forwardPath k ↔
      strippedPath base ≠ [] ∨ (pathOf base = [] ∧ k = 0) := by
  obtain ⟨⟨up', hup'⟩, hpath⟩ := parsed_slashes hup k
  have hsame : strippedPath (base ++ List.replicate k 47) = strippedPath base := by
    rw [strippedPath, hpath, rdropWhile_slashes, strippedPath]
  have hmore := puts_stripped_iff hup' hfp
  rw [hsame, hpath, List.append_eq_nil_iff, List.replicate_eq_nil_iff] at hmore
  rw [SlashesIgnored, puts_stripped_iff hup hfp, hmore]
  tauto

theorem versioned_slashes_ignored :
    SlashesIgnored (ascii "http://users:9001/v1/") (ascii "/7") 2 := by
  have hup : parseUpstream (ascii "http://users:9001/v1/") =
      .ok ⟨ascii "users", 9001, ascii "/v1"⟩ := by decide +kernel
  exact (slashes_ignored_iff hup (by decide) 2).mpr (.inl (by decide))

/-- One slash behind a base without a path doubles the slash of the target. -/
theorem root_slash_doubled :
    parseUpstream (ascii "http://users:9001") = .ok ⟨ascii "users", 9001, []⟩ ∧
      ¬ SlashesIgnored (ascii "http://users:9001") (ascii "/7") 1 := by
  have hup : parseUpstream (ascii "http://users:9001" ++ List.replicate 1 47) =
      .ok ⟨ascii "users", 9001, ascii "/"⟩ := by decide +kernel
  refine ⟨by decide +kernel, ?_⟩
  intro h
  exact not_putsTarget hup (by decide) h.2

end Gateway

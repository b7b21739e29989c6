import Mathlib
import Gateway.Http
import Gateway.Library.LastWins

/-! The grammar of the heads that `parseHttpRequest` accepts, and what it makes of them. -/
namespace Gateway

open Search LastWins

variable {head block line m t v w rest : Bytes} {fields : List (Bytes × Bytes)} {r : HttpRequest}
  {headers headers' : HeaderMap} {pos : Nat}

/-- The tokens of a line between white space. -/
def words (line : Bytes) : List Bytes := (line.splitOnP isSpace).filter (· ≠ [])

/-- Header lines up to an empty line or the end, each as its lower-cased name and its value. -/
inductive HeaderFields : Bytes → List (Bytes × Bytes) → Prop where
  | done : HeaderFields [] []
  | blank (rest : Bytes) : HeaderFields (crlf ++ rest) []
  | line {name value rest : Bytes} {fields : List (Bytes × Bytes)}
      (hline : ¬ crlf <:+: name ++ 58 :: value) (hname : 58 ∉ name)
      (htail : HeaderFields rest fields) :
      HeaderFields ((name ++ 58 :: value) ++ crlf ++ rest)
        ((toLower (trimStr name), trimStr value) :: fields)

/-- A head with this request line and these header fields. -/
structure RequestGrammar (head m t v : Bytes) (fields : List (Bytes × Bytes)) : Prop where
  lines : ∃ line block, head = line ++ crlf ++ block ∧ ¬ crlf <:+: line ∧
    words line = [m, t, v] ∧ HeaderFields block fields
  method : ∀ c ∈ m, isUpper c = true ∨ c = 45
  target : t.head? = some 47
  version : ascii "HTTP/" <+: v
  traversal : ¬ ascii ".." <:+: t.takeWhile (· ≠ 63)
  names : ∀ f ∈ fields, f.1 ≠ []
  values : ∀ f ∈ fields, f.2.length ≤ 8192
  distinct : ∀ i < fields.length, (LastWins.names (fields.take i)).card ≤ 100

theorem words_dropWhile (line : Bytes) : words (line.dropWhile isSpace) = words line := by
  induction line with
  | nil => rfl
  | cons c line ih =>
    cases hc : isSpace c with
    | false => simp [hc]
    | true =>
      rw [List.dropWhile_cons_of_pos hc, ih]
      have hnil : ∀ x ∈ ([] : Bytes), isSpace x = false := by simp
      have hsplit := List.splitOnP_append_cons_of_forall_mem hnil c hc line
      simp only [List.nil_append] at hsplit
      simp [words, hsplit]

theorem words_word (hw : w ≠ []) (hplain : ∀ c ∈ w, isSpace c = false)
    (hrest : ∀ c ∈ rest.head?, isSpace c = true) : words (w ++ rest) = w :: words rest := by
  cases rest with
  | nil => simp [words, List.splitOnP_eq_singleton hplain, hw]
  | cons c rest =>
    have hc : isSpace c = true := hrest c rfl
    have hsplit := List.splitOnP_append_cons_of_forall_mem (p := isSpace) hplain c hc rest
    have htail := words_dropWhile (c :: rest)
    rw [List.dropWhile_cons_of_pos hc, words_dropWhile] at htail
    rw [← htail]
    simp [words, hsplit, hw]

theorem readWord_cases (line : Bytes) : (readWord line = none ∧ words line = []) ∨
    ∃ w rest, readWord line = some (w, rest) ∧ words line = w :: words rest := by
  rw [← words_dropWhile]
  unfold readWord
  split
  · rename_i h
    rw [h]
    exact Or.inl ⟨rfl, rfl⟩
  · rename_i h
    right
    refine ⟨_, _, rfl, ?_⟩
    have hword : readWord line = some ((line.dropWhile isSpace).takeWhile (!isSpace ·),
        (line.dropWhile isSpace).dropWhile (!isSpace ·)) := by
      unfold readWord
      split
      · contradiction
      · rfl
    obtain ⟨hne, hplain⟩ := readWord_eq_some hword
    have hrest : ∀ c ∈ ((line.dropWhile isSpace).dropWhile (!isSpace ·)).head?,
        isSpace c = true := by
      intro c hc
      have hnot := List.head?_dropWhile_not (!isSpace ·) (line.dropWhile isSpace)
      rw [Option.mem_def.mp hc] at hnot
      simpa using hnot
    have hwords := words_word hne hplain hrest
    rw [List.takeWhile_append_dropWhile] at hwords
    exact hwords

/-- The request line is read when it has three words. -/
theorem parseRequestLine_iff : parseRequestLine line = some (m, t, v) ↔ words line = [m, t, v] := by
  unfold parseRequestLine
  rcases readWord_cases line with ⟨h1, hw1⟩ | ⟨w1, rest1, h1, hw1⟩
  · simp [h1, hw1]
  · rcases readWord_cases rest1 with ⟨h2, hw2⟩ | ⟨w2, rest2, h2, hw2⟩
    · simp [h1, hw1, h2, hw2]
    · rcases readWord_cases rest2 with ⟨h3, hw3⟩ | ⟨w3, rest3, h3, hw3⟩
      · simp [h1, hw1, h2, hw2, h3, hw3]
      · rcases readWord_cases rest3 with ⟨h4, hw4⟩ | ⟨w4, rest4, h4, hw4⟩
        · simp [h1, hw1, h2, hw2, h3, hw3, h4, hw4]
        · simp [h1, hw1, h2, hw2, h3, hw3, h4, hw4]

/-- The checks of the header loop on the fields that follow this map. -/
def Storable : HeaderMap → List (Bytes × Bytes) → Prop
  | _, [] => True
  | headers, f :: fields =>
    (f.1 ≠ [] ∧ f.2.length ≤ 8192 ∧ headers.size ≤ 100) ∧ Storable (store headers f) fields

theorem findCrlf_split {eol : Nat} (h : findCrlf head pos = some eol) :
    ∃ line, ¬ crlf <:+: line ∧ eol = pos + line.length ∧
      head.drop pos = line ++ crlf ++ head.drop (eol + 2) := by
  obtain ⟨i, hi, rfl⟩ := Option.map_eq_some_iff.mp h
  have hplain : (13 : UInt8) ∉ [(10 : UInt8)] := by decide
  obtain ⟨line, rest, heq, rfl, hline⟩ := (find?_eq_some_split hplain).mp hi
  refine ⟨line, hline, rfl, ?_⟩
  have hrest : head.drop (pos + line.length + 2) = rest := by
    rw [Nat.add_assoc, ← List.drop_drop, heq]
    simp [List.drop_append]
  rw [hrest, heq]
  rfl

/-- One turn of the header loop, on the line that ends at `eol`. -/
theorem parseHeaders_turn {eol : Nat} (hlt : pos < head.length)
    (heol : findCrlf head pos = some eol) : parseHeaders head pos headers =
      if eol = pos then some headers
      else
        let line := (head.drop pos).take (eol - pos)
        match find? (ascii ":") line with
        | none => none
        | some colon =>
          let name := toLower (trimStr (line.take colon))
          let value := trimStr (line.drop (colon + 1))
          if name = [] ∨ 8192 < value.length then none
          else if 100 < headers.size then none
          else parseHeaders head (eol + 2) (headers.insert name value) := by
  rw [parseHeaders, if_pos hlt]
  split
  · rename_i hnone
    rw [heol] at hnone
    cases hnone
  · rename_i eol hsome
    rw [heol] at hsome
    cases hsome
    rfl

/-- What the header loop has read when it succeeds. -/
theorem parseHeaders_sound (h : parseHeaders head pos headers = some headers') :
    ∃ fields, HeaderFields (head.drop pos) fields ∧ Storable headers fields ∧
      headers' = fields.foldl store headers := by
  fun_induction parseHeaders head pos headers with
  | case1 => cases h
  | case2 pos headers hlt hfind =>
    cases h
    obtain ⟨line, -, hlen, heq⟩ := findCrlf_split hfind
    obtain rfl : line = [] := List.length_eq_zero_iff.mp (by omega)
    refine ⟨[], ?_, trivial, rfl⟩
    rw [heq]
    exact HeaderFields.blank _
  | case3 => cases h
  | case4 => cases h
  | case5 => cases h
  | case6 pos headers hlt eol hfind hne line colon hcolon name value hbad hsize ih =>
    obtain ⟨fields, hfields, hstorable, rfl⟩ := ih h
    obtain ⟨whole, hwhole, rfl, heq⟩ := findCrlf_split hfind
    have hline : line = whole := by simp [line, heq]
    rw [hline] at hcolon
    have hplain : (58 : UInt8) ∉ ([] : Bytes) := by simp
    obtain ⟨n, v, hnv, rfl, hn⟩ := (find?_eq_some_split hplain).mp hcolon
    rw [singleton_infix_iff] at hn
    have hwhole' : whole = n ++ 58 :: v := by simpa using hnv
    have hdrop : (n ++ 58 :: v).drop (n.length + 1) = v := by
      rw [← List.drop_drop, List.drop_left]
      rfl
    have hname : name = toLower (trimStr n) := by simp [name, hline, hwhole']
    have hvalue : value = trimStr v := by simp only [value, hline, hwhole', hdrop]
    refine ⟨(name, value) :: fields, ?_, ⟨⟨?_, ?_, ?_⟩, hstorable⟩, rfl⟩
    · rw [heq, hname, hvalue]
      generalize head.drop (pos + whole.length + 2) = rest at hfields
      rw [hwhole'] at hwhole ⊢
      exact HeaderFields.line hwhole hn hfields
    · exact fun hempty => hbad (Or.inl hempty)
    · exact Nat.le_of_not_lt fun hlong => hbad (Or.inr hlong)
    · exact Nat.le_of_not_lt hsize
  | case7 pos headers hge =>
    cases h
    refine ⟨[], ?_, trivial, rfl⟩
    rw [List.drop_of_length_le (by omega)]
    exact HeaderFields.done

/-- The header loop reads every block of well-formed lines. -/
theorem parseHeaders_complete (h : HeaderFields block fields) (hpos : head.drop pos = block)
    (hstorable : Storable headers fields) :
    parseHeaders head pos headers = some (fields.foldl store headers) := by
  have hfind : ∀ (pos : Nat) (line rest : Bytes), ¬ crlf <:+: line →
      head.drop pos = line ++ crlf ++ rest → findCrlf head pos = some (pos + line.length) := by
    intro pos line rest hline heq
    rw [findCrlf, heq, crlf, find?_block_of_not_infix (by decide) hline]
    rfl
  have hlt : ∀ (pos : Nat) (line rest : Bytes), head.drop pos = line ++ crlf ++ rest →
      pos < head.length := by
    intro pos line rest heq
    by_contra hge
    rw [List.drop_of_length_le (by omega)] at heq
    simp [crlf] at heq
  induction h generalizing pos headers with
  | done =>
    rw [parseHeaders, if_neg (by simpa using hpos)]
    rfl
  | blank rest =>
    have heol := hfind pos [] rest (by decide) hpos
    rw [parseHeaders_turn (hlt pos [] rest hpos) heol, if_pos (by simp)]
    rfl
  | line hline hname htail ih =>
    rename_i name value rest fields
    obtain ⟨⟨hnamed, hshort, hroom⟩, hstorable⟩ := hstorable
    have heol := hfind pos (name ++ 58 :: value) rest hline hpos
    have hcolon : find? (ascii ":") (name ++ 58 :: value) = some name.length := by
      rw [List.append_cons]
      exact find?_block hname
    have hvalue : (name ++ 58 :: value).drop (name.length + 1) = value := by
      rw [← List.drop_drop, List.drop_left]
      rfl
    rw [parseHeaders_turn (hlt pos (name ++ 58 :: value) rest hpos) heol, if_neg (by simp)]
    have hwhole : (head.drop pos).take (pos + (name ++ 58 :: value).length - pos) =
        name ++ 58 :: value := by
      rw [hpos, Nat.add_sub_cancel_left, List.append_assoc, List.take_left]
    have hrest : head.drop (pos + (name ++ 58 :: value).length + 2) = rest := by
      rw [Nat.add_assoc, ← List.drop_drop, hpos, List.append_assoc, ← List.drop_drop,
        List.drop_left]
      rfl
    simp only [hwhole, hcolon, List.take_left, hvalue]
    rw [if_neg (by simpa [not_or] using ⟨hnamed, hshort⟩), if_neg (Nat.not_lt.mpr hroom)]
    exact ih hrest hstorable

/-- The checks over the whole list of fields, after those already stored. -/
theorem storable_iff (done fields : List (Bytes × Bytes)) :
    Storable (stored compare done) fields ↔ (∀ f ∈ fields, f.1 ≠ []) ∧
      (∀ f ∈ fields, f.2.length ≤ 8192) ∧
      ∀ i < fields.length, (LastWins.names (done ++ fields.take i)).card ≤ 100 := by
  induction fields generalizing done with
  | nil => simp [Storable]
  | cons f fields ih =>
    have hnext : store (stored compare done) f = stored compare (done ++ [f]) :=
      stored_concat.symm
    rw [Storable, hnext, ih, size_stored]
    simp only [List.forall_mem_cons, List.length_cons, List.append_assoc, List.singleton_append]
    constructor
    · rintro ⟨⟨hname, hvalue, hroom⟩, hnames, hvalues, hdistinct⟩
      refine ⟨⟨hname, hnames⟩, ⟨hvalue, hvalues⟩, ?_⟩
      intro i hi
      cases i with
      | zero => simpa using hroom
      | succ i => exact hdistinct i (by omega)
    · rintro ⟨⟨hname, hnames⟩, ⟨hvalue, hvalues⟩, hdistinct⟩
      refine ⟨⟨hname, hvalue, ?_⟩, hnames, hvalues, ?_⟩
      · simpa using hdistinct 0 (by omega)
      · intro i hi
        exact hdistinct (i + 1) (by omega)

theorem splitTarget_eq (target : Bytes) : splitTarget target =
    (target.takeWhile (· ≠ 63), (target.dropWhile (· ≠ 63)).drop 1) := by
  have hmark : ascii "?" = [63] := by decide
  unfold splitTarget
  rw [hmark]
  split
  · rename_i h
    obtain ⟨htake, hdrop⟩ := parts_of_find?_none h
    rw [htake, hdrop]
    rfl
  · rename_i q h
    obtain ⟨htake, hdrop⟩ := parts_of_find?_singleton h
    rw [← htake, ← hdrop, List.drop_drop]

/-- The parser accepts a head that passes each of its checks. -/
theorem parseHttpRequest_of_checks {lineEnd : Nat} (hend : find? crlf head = some lineEnd)
    (hline : parseRequestLine (head.take lineEnd) = some (m, t, v))
    (hmethod : ∀ c ∈ m, isUpper c = true ∨ c = 45) (htarget : t.head? = some 47)
    (hversion : ascii "HTTP/" <+: v) (hdots : find? (ascii "..") (splitTarget t).1 = none)
    (hheaders : parseHeaders head (lineEnd + 2) ∅ = some headers) :
    parseHttpRequest head = some
      { method := m, target := t, path := (splitTarget t).1, query := (splitTarget t).2,
        version := v, headers } := by
  have hany : (m.any fun c => !isUpper c && c != 45) = false := by
    rw [List.any_eq_false]
    intro c hc
    rcases hmethod c hc with h | h
    · simp [h]
    · simp [h]
  simp only [parseHttpRequest, Option.bind_eq_bind, hend, hline, Option.bind_some, hany, htarget,
    hversion, hdots, hheaders]
  rfl

/-- The request that a head of the grammar denotes. -/
def parsedRequest (m t v : Bytes) (fields : List (Bytes × Bytes)) : HttpRequest where
  method := m
  target := t
  path := (splitTarget t).1
  query := (splitTarget t).2
  version := v
  headers := stored compare fields

theorem parse_of_grammar (g : RequestGrammar head m t v fields) :
    parseHttpRequest head = some (parsedRequest m t v fields) := by
  obtain ⟨line, block, rfl, hline, hwords, hblock⟩ := g.lines
  have hend : find? crlf (line ++ crlf ++ block) = some line.length :=
    find?_block_of_not_infix (by decide) hline
  have hread : parseRequestLine ((line ++ crlf ++ block).take line.length) = some (m, t, v) := by
    rw [List.append_assoc, List.take_left]
    exact parseRequestLine_iff.mpr hwords
  have hdots : find? (ascii "..") (splitTarget t).1 = none := by
    rw [splitTarget_eq]
    exact find?_eq_none_iff.mpr g.traversal
  have hpos : (line ++ crlf ++ block).drop (line.length + 2) = block := by
    rw [← List.drop_drop, List.append_assoc, List.drop_left]
    rfl
  have hstorable : Storable (stored compare []) fields :=
    (storable_iff [] fields).mpr ⟨g.names, g.values, g.distinct⟩
  exact parseHttpRequest_of_checks hend hread g.method g.target g.version hdots
    (parseHeaders_complete hblock hpos hstorable)

theorem grammar_of_parse (h : parseHttpRequest head = some r) :
    ∃ fields, RequestGrammar head r.method r.target r.version fields ∧
      r = parsedRequest r.method r.target r.version fields := by
  obtain ⟨lineEnd, hend, hline, hmethod, htarget, hversion, hsplit, hdots, hheaders⟩ :=
    parseHttpRequest_eq_some h
  have hplain : (13 : UInt8) ∉ [(10 : UInt8)] := by decide
  obtain ⟨line, block, rfl, rfl, hlast⟩ := (find?_eq_some_split hplain).mp hend
  have hpath : r.path = (splitTarget r.target).1 := by rw [hsplit]
  rw [hpath] at hdots
  have hrequest := parseHttpRequest_of_checks hend hline hmethod htarget hversion hdots hheaders
  have hpos : (line ++ crlf ++ block).drop (line.length + 2) = block := by
    rw [← List.drop_drop, List.append_assoc, List.drop_left]
    rfl
  obtain ⟨fields, hfields, hstorable, hstored⟩ := parseHeaders_sound hheaders
  obtain ⟨hnames, hvalues, hdistinct⟩ := (storable_iff [] fields).mp hstorable
  refine ⟨fields, ⟨⟨line, block, rfl, hlast, ?_, ?_⟩, hmethod, htarget, hversion, ?_, hnames,
    hvalues, hdistinct⟩, ?_⟩
  · rw [List.append_assoc, List.take_left] at hline
    exact parseRequestLine_iff.mp hline
  · rw [← hpos]
    exact hfields
  · rw [splitTarget_eq] at hdots
    exact find?_eq_none_iff.mp hdots
  · have heq := Option.some.inj (h.symm.trans hrequest)
    rw [hstored] at heq
    exact heq

/-- Header lines on the wire, each a name and the text after its colon. -/
def linesBlock (lines : List (Bytes × Bytes)) : Bytes :=
  lines.flatMap fun l => (l.1 ++ 58 :: l.2) ++ crlf

/-- What the parser stores for a header line. -/
def readLine (l : Bytes × Bytes) : Bytes × Bytes := (toLower (trimStr l.1), trimStr l.2)

def IsPlainLine (l : Bytes × Bytes) : Prop := ¬ crlf <:+: l.1 ++ 58 :: l.2 ∧ 58 ∉ l.1

instance (l : Bytes × Bytes) : Decidable (IsPlainLine l) := inferInstanceAs (Decidable (_ ∧ _))

/-- Every list of plain lines can be written down and is read back. -/
theorem headerFields_linesBlock {lines : List (Bytes × Bytes)}
    (h : ∀ l ∈ lines, IsPlainLine l) : HeaderFields (linesBlock lines) (lines.map readLine) := by
  induction lines with
  | nil => exact HeaderFields.done
  | cons l lines ih =>
    obtain ⟨hline, hname⟩ := h l List.mem_cons_self
    have htail := ih fun k hk => h k (List.mem_cons_of_mem l hk)
    rw [linesBlock, List.flatMap_cons, List.map_cons]
    exact HeaderFields.line hline hname htail

/-- The parser accepts its grammar, and the request holds what the head says. -/
theorem parseHttpRequest_accepts_grammar (head : Bytes) :
    ((parseHttpRequest head).isSome ↔ ∃ m t v fields, RequestGrammar head m t v fields) ∧
    ∀ r, parseHttpRequest head = some r ↔
      ∃ fields, RequestGrammar head r.method r.target r.version fields ∧
        r.path = r.target.takeWhile (· ≠ 63) ∧
        r.query = (r.target.dropWhile (· ≠ 63)).drop 1 ∧
        (∀ name, r.headers[name]? = lastValue fields name) ∧ r.body = [] ∧ r.clientIp = [] := by
  constructor
  · constructor
    · intro h
      obtain ⟨r, hr⟩ := Option.isSome_iff_exists.mp h
      obtain ⟨fields, g, -⟩ := grammar_of_parse hr
      exact ⟨_, _, _, fields, g⟩
    · rintro ⟨m, t, v, fields, g⟩
      rw [parse_of_grammar g]
      rfl
  · intro r
    constructor
    · intro h
      obtain ⟨fields, g, heq⟩ := grammar_of_parse h
      refine ⟨fields, g, ?_, ?_, ?_, ?_, ?_⟩
      · exact (congrArg HttpRequest.path heq).trans
          (congrArg Prod.fst (splitTarget_eq r.target))
      · exact (congrArg HttpRequest.query heq).trans
          (congrArg Prod.snd (splitTarget_eq r.target))
      · intro name
        rw [congrArg HttpRequest.headers heq]
        exact getElem?_stored
      · exact congrArg HttpRequest.body heq
      · exact congrArg HttpRequest.clientIp heq
    · rintro ⟨fields, g, hpath, hquery, hheaders, hbody, hip⟩
      rw [parse_of_grammar g]
      obtain ⟨method, target, path, query, version, headers, body, clientIp⟩ := r
      simp only at hpath hquery hheaders hbody hip
      have hmap : stored compare fields = headers := by
        apply Std.ExtTreeMap.ext_getElem?
        intro name
        rw [hheaders name]
        exact getElem?_stored
      simp only [parsedRequest, splitTarget_eq, hpath, hquery, hbody, hip, hmap]

end Gateway

import Mathlib
import Gateway.UpstreamRequest

/-! The identity headers as a module reads them (INTEGRATION.md, section 1). -/
namespace Gateway

open Search

variable {forwardPath wire : Bytes} {up : UpstreamAddr} {req : HttpRequest} {auth : AuthInfo}

/-- The identity a module acts on. -/
structure Identity where
  sub : Bytes
  roles : List Bytes
  permissions : List Bytes
  deriving DecidableEq

def AuthInfo.identity (auth : AuthInfo) : Identity := ⟨auth.sub, auth.roles, auth.permissions⟩

/-- The header lines a module receives. -/
def receivedLines (wire : Bytes) : List Bytes :=
  match cut crlfcrlf wire with
  | none => []
  | some (head, _) => (splitOn crlf head).tail

/-- The value of a header, whose name has no letter case; `none` when it is absent. -/
def moduleHeader (lines : List Bytes) (name : Bytes) : Option Bytes :=
  ((lines.filterMap readField).find? fun f => toLower f.1 = toLower name).map Prod.snd

/-- A header that lists its items between commas. -/
def moduleList (lines : List Bytes) (name : Bytes) : List Bytes :=
  match moduleHeader lines name with
  | none => []
  | some v => splitOn (ascii ",") v

def readIdentity (lines : List Bytes) : Identity where
  sub := (moduleHeader lines (ascii "X-Auth-Sub")).getD []
  roles := moduleList lines (ascii "X-Auth-Roles")
  permissions := moduleList lines (ascii "X-Auth-Scopes")

theorem filterMap_readField : ((upstreamFields up req auth).map fieldLine).filterMap readField =
    upstreamFields up req auth := by
  have hmap : ∀ fs : List (Bytes × Bytes), (∀ f ∈ fs, readField (fieldLine f) = some f) →
      (fs.map fieldLine).filterMap readField = fs := by
    intro fs h
    induction fs with
    | nil => rfl
    | cons f fs ih =>
      rw [List.map_cons, List.filterMap_cons_some (h f List.mem_cons_self),
        ih fun g hg => h g (List.mem_cons_of_mem f hg)]
  exact hmap _ fun f hf => readField_fieldLine hf

theorem toLower_fieldName {n : Bytes} (h : n ∈ fieldNames) : toLower n = n := by
  revert n
  decide

/-- A module finds the one line of a name, in whatever letter case it asks for it. -/
theorem moduleHeader_of_mem {name n v : Bytes} (hn : toLower name = n)
    (h : (n, v) ∈ upstreamFields up req auth) :
    moduleHeader ((upstreamFields up req auth).map fieldLine) name = some v := by
  rw [moduleHeader, filterMap_readField]
  cases hf : (upstreamFields up req auth).find? fun f => toLower f.1 = toLower name with
  | none =>
    have hno := List.find?_eq_none.mp hf _ h
    simp [hn, toLower_fieldName (name_mem_fieldNames (List.mem_map_of_mem h))] at hno
  | some f =>
    have hmem := List.mem_of_find?_eq_some hf
    have hname : f.1 = n := by
      have hp := List.find?_some hf
      simpa [toLower_fieldName (name_mem_fieldNames (List.mem_map_of_mem hmem)), hn] using hp
    have heq := List.inj_on_of_nodup_map upstreamFields_nodup hmem h hname
    simp [heq]

theorem moduleHeader_of_not_mem {name n : Bytes} (hn : toLower name = n)
    (h : n ∉ (upstreamFields up req auth).map Prod.fst) :
    moduleHeader ((upstreamFields up req auth).map fieldLine) name = none := by
  rw [moduleHeader, filterMap_readField, Option.map_eq_none_iff, List.find?_eq_none]
  intro f hf hp
  apply h
  have hname : f.1 = n := by
    simpa [toLower_fieldName (name_mem_fieldNames (List.mem_map_of_mem hf)), hn] using hp
  rw [← hname]
  exact List.mem_map_of_mem hf

theorem joinCsv_eq (vs : List Bytes) :
    joinCsv vs = (ascii ",").intercalate (vs.map sanitizeHeaderValue) := by
  induction vs using joinCsv.induct with
  | case1 => rfl
  | case2 v => simp [joinCsv]
  | case3 v vs hne ih =>
    rw [joinCsv, ih]
    · cases vs with
      | nil => exact (hne rfl).elim
      | cons w ws => simp [List.intercalate_cons_cons, ascii]
    · exact hne

/-- Splitting at commas undoes the join of a non-empty list without commas. -/
theorem splitOn_joinCsv {vs : List Bytes} (hne : vs ≠ []) (h : ∀ v ∈ vs, 44 ∉ v) :
    splitOn (ascii ",") (joinCsv vs) = vs.map sanitizeHeaderValue := by
  have hcomma : ascii "," = [44] := by decide
  rw [joinCsv_eq, hcomma]
  apply splitOn_intercalate List.not_mem_nil
  · simpa using hne
  · intro w hw
    apply not_infix_of_not_mem
    intro hmem
    obtain ⟨v, hv, rfl⟩ := List.mem_map.mp hw
    obtain ⟨c, hc, heq⟩ := List.mem_map.mp hmem
    split at heq
    · simp at heq
    · rw [heq] at hc
      exact h v hv hc

theorem sanitizeHeaderValue_of_plain {v : Bytes} (h : CR ∉ v ∧ LF ∉ v) :
    sanitizeHeaderValue v = v := by
  rw [sanitizeHeaderValue]
  conv_rhs => rw [← List.map_id v]
  apply List.map_congr_left
  intro c hc
  have hne : ¬ (c = CR ∨ c = LF) := by
    rintro (rfl | rfl)
    · exact h.1 hc
    · exact h.2 hc
  simp [hne]

/-- An empty part of the identity has no header line. -/
theorem absent_of_empty : (auth.sub = [] →
      ascii "x-auth-sub" ∉ (upstreamFields up req auth).map Prod.fst) ∧
    (auth.roles = [] → ascii "x-auth-roles" ∉ (upstreamFields up req auth).map Prod.fst) ∧
    (auth.permissions = [] →
      ascii "x-auth-scopes" ∉ (upstreamFields up req auth).map Prod.fst) := by
  have hsub : ∀ a b c, isPresent a true b c (ascii "x-auth-sub") = false := by decide
  have hroles : ∀ a b c, isPresent a b true c (ascii "x-auth-roles") = false := by decide
  have hscopes : ∀ a b c, isPresent a b c true (ascii "x-auth-scopes") = false := by decide
  rw [upstreamFields_names]
  refine ⟨?_, ?_, ?_⟩ <;>
  · intro h hmem
    have hp := (List.mem_filter.mp hmem).2
    simp [h, hsub, hroles, hscopes] at hp

theorem readIdentity_sub :
    (readIdentity ((upstreamFields up req auth).map fieldLine)).sub =
      sanitizeHeaderValue auth.sub := by
  have hlower : toLower (ascii "X-Auth-Sub") = ascii "x-auth-sub" := by decide
  by_cases hsub : auth.sub = []
  · have hno := (@absent_of_empty up req auth).1 hsub
    simp [readIdentity, moduleHeader_of_not_mem hlower hno, hsub, sanitizeHeaderValue]
  · have hmem : (ascii "x-auth-sub", sanitizeHeaderValue auth.sub) ∈
        upstreamFields up req auth := by
      simp [upstreamFields, hsub]
    simp [readIdentity, moduleHeader_of_mem hlower hmem]

/-- A list header holds the items, with line breaks blanked, when none holds a comma. -/
theorem moduleList_eq {name n : Bytes} {vs : List Bytes} (hn : toLower name = n)
    (habsent : vs = [] → n ∉ (upstreamFields up req auth).map Prod.fst)
    (hpresent : vs ≠ [] → (n, joinCsv vs) ∈ upstreamFields up req auth)
    (h : ∀ v ∈ vs, 44 ∉ v) :
    moduleList ((upstreamFields up req auth).map fieldLine) name =
      vs.map sanitizeHeaderValue := by
  by_cases hvs : vs = []
  · simp [moduleList, moduleHeader_of_not_mem hn (habsent hvs), hvs]
  · simp only [moduleList, moduleHeader_of_mem hn (hpresent hvs)]
    exact splitOn_joinCsv hvs h

theorem readIdentity_roles (h : ∀ v ∈ auth.roles, 44 ∉ v) :
    (readIdentity ((upstreamFields up req auth).map fieldLine)).roles =
      auth.roles.map sanitizeHeaderValue := by
  have hlower : toLower (ascii "X-Auth-Roles") = ascii "x-auth-roles" := by decide
  apply moduleList_eq hlower absent_of_empty.2.1 _ h
  intro hne
  simp [upstreamFields, hne]

theorem readIdentity_permissions (h : ∀ v ∈ auth.permissions, 44 ∉ v) :
    (readIdentity ((upstreamFields up req auth).map fieldLine)).permissions =
      auth.permissions.map sanitizeHeaderValue := by
  have hlower : toLower (ascii "X-Auth-Scopes") = ascii "x-auth-scopes" := by decide
  apply moduleList_eq hlower absent_of_empty.2.2 _ h
  intro hne
  simp [upstreamFields, hne]

/-- A receiver finds the field lines after an unbroken request line. -/
theorem receivedLines_eq (h : CR ∉ requestLine up req forwardPath) :
    receivedLines (requestWire up req forwardPath auth) =
      (upstreamFields up req auth).map fieldLine := by
  simp only [receivedLines, cut_requestWire h, splitOn_requestLines h]
  rfl

/-- The identity with each line break turned into a space. -/
def Identity.blanked (i : Identity) : Identity :=
  ⟨sanitizeHeaderValue i.sub, i.roles.map sanitizeHeaderValue,
    i.permissions.map sanitizeHeaderValue⟩

def Identity.CommaFree (i : Identity) : Prop :=
  (∀ v ∈ i.roles, 44 ∉ v) ∧ ∀ v ∈ i.permissions, 44 ∉ v

def Identity.Unbroken (i : Identity) : Prop :=
  ∀ v ∈ i.sub :: (i.roles ++ i.permissions), CR ∉ v ∧ LF ∉ v

theorem Identity.blanked_of_unbroken {i : Identity} (h : i.Unbroken) : i.blanked = i := by
  have hmap : ∀ vs : List Bytes, (∀ v ∈ vs, CR ∉ v ∧ LF ∉ v) →
      vs.map sanitizeHeaderValue = vs := by
    intro vs hvs
    conv_rhs => rw [← List.map_id vs]
    exact List.map_congr_left fun v hv => sanitizeHeaderValue_of_plain (hvs v hv)
  have hsub := sanitizeHeaderValue_of_plain (h i.sub List.mem_cons_self)
  have hroles := hmap i.roles fun v hv => h v (by simp [hv])
  have hperms := hmap i.permissions fun v hv => h v (by simp [hv])
  simp only [Identity.blanked, hsub, hroles, hperms]

theorem readIdentity_eq_blanked (h : auth.identity.CommaFree) :
    readIdentity ((upstreamFields up req auth).map fieldLine) = auth.identity.blanked := by
  have hsub := @readIdentity_sub up req auth
  have hroles := @readIdentity_roles up req auth h.1
  have hperms := @readIdentity_permissions up req auth h.2
  generalize readIdentity ((upstreamFields up req auth).map fieldLine) = i at *
  cases i
  simp only at hsub hroles hperms
  simp only [hsub, hroles, hperms, Identity.blanked, AuthInfo.identity]

/-- A module recovers the verified identity with its line breaks blanked: the subject always,
a list whenever none of its items holds a comma. -/
theorem identity_headers_decode (up : UpstreamAddr) (req : HttpRequest) (forwardPath : Bytes)
    (auth : AuthInfo) :
    let wire := requestWire up req forwardPath auth
    let lines := (upstreamFields up req auth).map fieldLine
    wire = crlf.intercalate (requestLine up req forwardPath :: lines) ++ crlfcrlf ++ req.body ∧
    (CR ∉ requestLine up req forwardPath → receivedLines wire = lines) ∧
    (readIdentity lines).sub = sanitizeHeaderValue auth.sub ∧
    ((∀ v ∈ auth.roles, 44 ∉ v) →
      (readIdentity lines).roles = auth.roles.map sanitizeHeaderValue) ∧
    ((∀ v ∈ auth.permissions, 44 ∉ v) →
      (readIdentity lines).permissions = auth.permissions.map sanitizeHeaderValue) ∧
    (auth.identity.CommaFree → auth.identity.Unbroken → readIdentity lines = auth.identity) ∧
    ∀ auth' : AuthInfo, auth.identity.CommaFree → auth'.identity.CommaFree →
      (upstreamFields up req auth').map fieldLine = lines →
      auth'.identity.blanked = auth.identity.blanked := by
  intro wire lines
  refine ⟨requestWire_eq, receivedLines_eq, readIdentity_sub, readIdentity_roles,
    readIdentity_permissions, ?_, ?_⟩
  · intro hcomma hbreak
    rw [← Identity.blanked_of_unbroken hbreak]
    exact readIdentity_eq_blanked hcomma
  · intro auth' hcomma hcomma' hsame
    rw [← @readIdentity_eq_blanked up req auth' hcomma', hsame]
    exact readIdentity_eq_blanked hcomma

/-- A line break in the subject and a comma in a permission are not recovered. -/
theorem lineBreak_and_comma_lost :
    readIdentity (receivedLines (requestWire ⟨ascii "users", 80, []⟩ queryRequest (ascii "/7")
      { ok := true, sub := ascii "a\nb" })) ≠ ⟨ascii "a\nb", [], []⟩ ∧
    readIdentity (receivedLines (requestWire ⟨ascii "users", 80, []⟩ queryRequest (ascii "/7")
      { ok := true, permissions := [ascii "a,b"] })) ≠ ⟨[], [], [ascii "a,b"]⟩ ∧
    requestWire ⟨ascii "users", 80, []⟩ queryRequest (ascii "/7")
        { ok := true, sub := ascii "a\nb" } =
      requestWire ⟨ascii "users", 80, []⟩ queryRequest (ascii "/7")
        { ok := true, sub := ascii "a b" } := by
  decide +kernel

end Gateway

import Mathlib
import Gateway.AuthorizationGate
import Gateway.HeadGrammar

/-! The whole answer of the route table, and what each scope opens (Router.h, Router.cpp). -/
namespace Gateway

open Search

variable {method target path query rem a : Bytes} {cfg : Config} {r : HttpRequest}

theorem splitQuery_eq (target : Bytes) : splitQuery target =
    (target.takeWhile (· ≠ 63), target.dropWhile (· ≠ 63)) := by
  have hmark : ascii "?" = [63] := by decide
  unfold splitQuery
  rw [hmark]
  split
  · rename_i h
    obtain ⟨htake, hdrop⟩ := parts_of_find?_none h
    rw [htake, hdrop]
  · rename_i q h
    obtain ⟨htake, hdrop⟩ := parts_of_find?_singleton h
    rw [htake, hdrop]

theorem splitQuery_fst (target : Bytes) :
    (splitQuery target).1 = target.takeWhile (· ≠ 63) := congrArg Prod.fst (splitQuery_eq target)

/-- The part of a path behind its area, which is `/` when there is none. -/
def Remainder (path a rem : Bytes) : Prop :=
  (path = ascii "/api/" ++ a ∧ rem = ascii "/") ∨
    (path = ascii "/api/" ++ a ++ rem ∧ rem.head? = some 47)

theorem exists_remainder (h : PathOfArea path a) : ∃ rem, Remainder path a rem := by
  rcases h with h | ⟨t, rfl⟩
  · exact ⟨ascii "/", Or.inl ⟨h, rfl⟩⟩
  · exact ⟨ascii "/" ++ t, Or.inr ⟨by simp, rfl⟩⟩

theorem splitArea_of_remainder (ha : 47 ∉ a) (h : Remainder path a rem) :
    ascii "/api/" <+: path ∧ splitArea (path.drop 5) = (a, rem) := by
  rcases h with ⟨rfl, rfl⟩ | ⟨rfl, hhead⟩
  · have hfind : find? (ascii "/") a = none := find?_none_of_not_mem ha
    have hdrop : (ascii "/api/" ++ a).drop 5 = a := rfl
    refine ⟨List.prefix_append _ _, ?_⟩
    rw [hdrop, splitArea, hfind]
  · obtain ⟨t, rfl⟩ : ∃ t, rem = 47 :: t := by
      cases rem with
      | nil => cases hhead
      | cons c t => exact ⟨t, by simpa using hhead⟩
    have hfind : find? (ascii "/") (a ++ 47 :: t) = some a.length := by
      rw [List.append_cons]
      exact find?_block ha
    have hdrop : (ascii "/api/" ++ a ++ 47 :: t).drop 5 = a ++ 47 :: t := rfl
    refine ⟨⟨a ++ 47 :: t, by simp⟩, ?_⟩
    rw [hdrop, splitArea, hfind]
    simp

theorem remainder_head (h : Remainder path a rem) : rem.head? = some 47 := by
  rcases h with ⟨-, rfl⟩ | ⟨-, h⟩
  · rfl
  · exact h

/-- The route of a request to an area with an allowed method. -/
theorem matchRoute_api (hsplit : splitQuery target = (path, query)) (ha : a ∈ apiAreas)
    (hrem : Remainder path a rem) (hmethod : method ∈ allowedMethods) :
    matchRoute method target cfg =
      { kind := .kApi, area := a, upstreamBase := cfg.upstreamFor a, forwardPath := rem ++ query,
        requiredScope := scopeFor method a } := by
  obtain ⟨hpre, harea⟩ := splitArea_of_remainder (slash_not_mem_area ha) hrem
  have hhealth : ¬ (path = ascii "/health" ∨ path = ascii "/health/") := by
    rintro (rfl | rfl)
    · revert hpre
      decide
    · revert hpre
      decide
  have hne : rem ≠ [] := by
    rintro rfl
    cases remainder_head hrem
  simp only [matchRoute, hsplit, if_neg hhealth, if_neg (not_not_intro hpre), harea,
    isApiArea_iff.mpr ha, isAllowedMethod_iff.mpr hmethod, if_neg hne,
    scope_of_allowed hmethod, Bool.not_true, Bool.false_eq_true, if_false]

/-- The path names one of the six areas. -/
def IsAreaPath (path : Bytes) : Prop := ∃ a ∈ apiAreas, PathOfArea path a

theorem not_health_of_area (h : IsAreaPath path) : ¬ IsHealthPath path := by
  obtain ⟨a, ha, hpath⟩ := h
  have hpre := ((pathOfArea_iff ha).mp hpath).1
  rintro (rfl | rfl)
  · revert hpre
    decide
  · revert hpre
    decide

/-- What the kind of a route says, in both directions. -/
structure KindsExact (method path : Bytes) (kind : RouteKind) : Prop where
  health : kind = .kHealth ↔ IsHealthPath path
  api : kind = .kApi ↔ IsAreaPath path ∧ method ∈ allowedMethods
  methodNotAllowed : kind = .kMethodNotAllowed ↔ IsAreaPath path ∧ method ∉ allowedMethods
  notFound : kind = .kNotFound ↔ ¬ IsHealthPath path ∧ ¬ IsAreaPath path

theorem matchRoute_kinds (method target : Bytes) (cfg : Config) :
    KindsExact method (target.takeWhile (· ≠ 63)) (matchRoute method target cfg).kind := by
  rw [← splitQuery_fst]
  have hcases := matchRoute_cases method target cfg
  generalize (splitQuery target).1 = path at hcases ⊢
  rcases hcases with ⟨hk, hh⟩ | ⟨hh, ⟨hk, hno⟩ | ⟨a, ha, hp, hcases⟩⟩
  · have hno : ¬ IsAreaPath path := fun h => not_health_of_area h hh
    constructor <;> simp [hk, hh, hno]
  · have hno' : ¬ IsAreaPath path := fun ⟨a, ha, hp⟩ => hno a ha hp
    constructor <;> simp [hk, hh, hno']
  · have harea : IsAreaPath path := ⟨a, ha, hp⟩
    rcases hcases with ⟨hk, hm⟩ | ⟨hk, hm, -⟩
    · constructor <;> simp [hk, hh, hm, harea]
    · constructor <;> simp [hk, hh, hm, harea]

/-- Every field of a route to an area; the target is the forwarded path under its prefix, with
one slash inserted when nothing follows the area. -/
structure ApiRoute (method target path a : Bytes) (cfg : Config) (route : RouteResult) : Prop where
  area : route.area = a
  requiredScope : route.requiredScope =
    a ++ (if method = ascii "GET" then ascii ":read" else ascii ":write")
  upstreamBase : route.upstreamBase = cfg.upstreamFor a
  slash : route.forwardPath.head? = some 47
  rebuilt : path ≠ ascii "/api/" ++ a → ascii "/api/" ++ a ++ route.forwardPath = target
  inserted : path = ascii "/api/" ++ a →
    ∃ query, target = ascii "/api/" ++ a ++ query ∧ route.forwardPath = 47 :: query

theorem matchRoute_apiRoute (ha : a ∈ apiAreas)
    (hpath : PathOfArea (target.takeWhile (· ≠ 63)) a) (hmethod : method ∈ allowedMethods) :
    ApiRoute method target (target.takeWhile (· ≠ 63)) a cfg (matchRoute method target cfg) := by
  have htarget := List.takeWhile_append_dropWhile (p := (· ≠ (63 : UInt8))) (l := target)
  have hsplit := splitQuery_eq target
  generalize target.takeWhile (· ≠ 63) = path, target.dropWhile (· ≠ 63) = query
    at hpath htarget hsplit ⊢
  obtain ⟨rem, hrem⟩ := exists_remainder hpath
  rw [matchRoute_api hsplit ha hrem hmethod]
  have hhead := remainder_head hrem
  refine ⟨rfl, rfl, rfl, ?_, ?_, ?_⟩
  · rw [List.head?_append, hhead]
    rfl
  · intro hne
    rcases hrem with ⟨h, -⟩ | ⟨h, -⟩
    · exact (hne h).elim
    · rw [← htarget, h]
      simp
  · intro heq
    rcases hrem with ⟨-, rfl⟩ | ⟨h, -⟩
    · exact ⟨query, by rw [← htarget, heq], rfl⟩
    · rw [heq] at h
      have hnil : rem = [] := List.self_eq_append_right.mp h
      rw [hnil] at hhead
      cases hhead

/-- Only a route to an area forwards anything. -/
theorem forwardPath_nil_or_api (method target : Bytes) (cfg : Config) :
    (matchRoute method target cfg).kind = .kApi ∨
      (matchRoute method target cfg).forwardPath = [] := by
  generalize hroute : matchRoute method target cfg = route
  simp only [matchRoute] at hroute
  split at hroute
  · exact Or.inr (hroute ▸ rfl)
  · split at hroute
    · exact Or.inr (hroute ▸ rfl)
    · split at hroute
      · exact Or.inr (hroute ▸ rfl)
      · split at hroute
        · exact Or.inr (hroute ▸ rfl)
        · exact Or.inl (hroute ▸ rfl)

/-- A remainder holds nothing that its path does not hold. -/
theorem not_infix_remainder {pat : Bytes} (h : Remainder path a rem) (hpath : ¬ pat <:+: path)
    (hslash : ¬ pat <:+: ascii "/") : ¬ pat <:+: rem := by
  rcases h with ⟨-, rfl⟩ | ⟨rfl, -⟩
  · exact hslash
  · exact fun hin => hpath (hin.trans (List.suffix_append _ rem).isInfix)

/-- What is forwarded before a first `?` is the remainder of the path. -/
theorem takeWhile_forward (hplain : 63 ∉ rem) (hquery : ∀ c ∈ query.head?, c = 63) :
    (rem ++ query).takeWhile (· ≠ 63) = rem := by
  have hne : ∀ c ∈ rem, decide (c ≠ 63) = true := by
    intro c hc
    exact decide_eq_true fun heq => hplain (heq ▸ hc)
  rw [List.takeWhile_append_of_pos hne]
  cases query with
  | nil => simp
  | cons c t => simp [hquery c rfl]

/-- The forwarded path holds no traversal, as the parser has checked the path it is cut from. -/
theorem forwardPath_traversal (method : Bytes) (cfg : Config) {head : Bytes}
    (h : parseHttpRequest head = some r) :
    ¬ ascii ".." <:+: (matchRoute method r.target cfg).forwardPath.takeWhile (· ≠ 63) := by
  obtain ⟨_, -, -, -, -, -, -, hdots, -⟩ := parseHttpRequest_eq_some h
  rw [find?_eq_none_iff, parsed_path h] at hdots
  have hsplit := splitQuery_eq r.target
  have hmark : 63 ∉ (splitQuery r.target).1 := by
    rw [hsplit]
    intro hc
    simpa using List.mem_takeWhile_imp hc
  have hquery : ∀ c ∈ (splitQuery r.target).2.head?, c = 63 := by
    rw [hsplit]
    intro c hc
    have hnot := List.head?_dropWhile_not (· ≠ (63 : UInt8)) r.target
    rw [Option.mem_def.mp hc] at hnot
    simpa using hnot
  rcases forwardPath_nil_or_api method r.target cfg with hkind | hnil
  · obtain ⟨⟨a, ha, hpath⟩, hmethod⟩ := (matchRoute_kinds method r.target cfg).api.mp hkind
    rw [← splitQuery_fst] at hpath
    obtain ⟨rem, hrem⟩ := exists_remainder hpath
    have hrem63 : 63 ∉ rem := by
      rw [← singleton_infix_iff] at hmark ⊢
      exact not_infix_remainder hrem hmark (by decide)
    rw [matchRoute_api (Prod.mk.eta).symm ha hrem hmethod, takeWhile_forward hrem63 hquery]
    exact not_infix_remainder hrem hdots (by decide)
  · rw [hnil]
    decide

/-- The route table is exact, and a forwarded path holds all of the target and no traversal. -/
theorem routing_exact (method target : Bytes) (cfg : Config) :
    KindsExact method (target.takeWhile (· ≠ 63)) (matchRoute method target cfg).kind ∧
    (∀ a ∈ apiAreas, PathOfArea (target.takeWhile (· ≠ 63)) a → method ∈ allowedMethods →
      ApiRoute method target (target.takeWhile (· ≠ 63)) a cfg (matchRoute method target cfg)) ∧
    ∀ head r, parseHttpRequest head = some r → (splitQuery r.target).1 = r.path ∧
      ¬ ascii ".." <:+: (matchRoute method r.target cfg).forwardPath.takeWhile (· ≠ 63) := by
  refine ⟨matchRoute_kinds method target cfg, ?_, ?_⟩
  · intro a ha hpath hmethod
    exact matchRoute_apiRoute ha hpath hmethod
  · intro head r h
    exact ⟨(parsed_path h).symm, forwardPath_traversal method cfg h⟩

/-- A request below an area and one to the bare area with a query. -/
theorem users_routed :
    ApiRoute (ascii "GET") (ascii "/api/users/7?a=..") (ascii "/api/users/7") (ascii "users")
      usersConfig (matchRoute (ascii "GET") (ascii "/api/users/7?a=..") usersConfig) ∧
    ApiRoute (ascii "PUT") (ascii "/api/users?a") (ascii "/api/users") (ascii "users")
      usersConfig (matchRoute (ascii "PUT") (ascii "/api/users?a") usersConfig) := by
  obtain ⟨-, hget, -⟩ := routing_exact (ascii "GET") (ascii "/api/users/7?a=..") usersConfig
  obtain ⟨-, hput, -⟩ := routing_exact (ascii "PUT") (ascii "/api/users?a") usersConfig
  constructor
  · exact hget (ascii "users") (by decide) (Or.inr (by decide +kernel)) (by decide)
  · exact hput (ascii "users") (by decide) (Or.inl (by decide +kernel)) (by decide)

inductive Mode where
  | read
  | write
  deriving DecidableEq

def Mode.suffix : Mode → Bytes
  | read => ascii ":read"
  | write => ascii ":write"

/-- The scope `<area>:<mode>`. -/
def scope (a : Bytes) (m : Mode) : Bytes := a ++ m.suffix

/-- The singular form of an area: its name without the final `s`. -/
def singular (a : Bytes) : Bytes := a.dropLast

/-- The areas and modes that a user with this identity may use. -/
def openedBy (auth : AuthInfo) : Set (Bytes × Mode) :=
  {am | am.1 ∈ apiAreas ∧ hasScope auth am.1 (scope am.1 am.2) = true}

variable {auth : AuthInfo} {m : Mode} {p : Bytes}

theorem granularPrefix_eq (ha : a ∈ apiAreas) : granularPrefix a = singular a ++ ascii ":" := by
  revert a
  decide

theorem hasScope_iff (ha : a ∈ apiAreas) : hasScope auth a (scope a m) = true ↔
    ascii "admin" ∈ auth.roles ∨ scope a m ∈ auth.permissions ∨
      ∃ p ∈ auth.permissions, singular a ++ ascii ":" <+: p := by
  simp [hasScope, granularPrefix_eq ha, or_assoc]

/-- The areas and modes that one permission opens on its own. -/
def granted (p : Bytes) : Set (Bytes × Mode) := openedBy { permissions := [p] }

theorem mem_granted_iff {am : Bytes × Mode} : am ∈ granted p ↔
    am.1 ∈ apiAreas ∧ (p = scope am.1 am.2 ∨ singular am.1 ++ ascii ":" <+: p) := by
  unfold granted openedBy
  rw [Set.mem_ofPred_eq]
  apply and_congr_right
  intro ha
  rw [hasScope_iff ha]
  simp [eq_comm]

theorem scope_inj {b : Bytes} {n : Mode} (ha : a ∈ apiAreas) (hb : b ∈ apiAreas)
    (h : scope a m = scope b n) : a = b ∧ m = n := by
  have hfinite : ∀ a ∈ apiAreas, ∀ b ∈ apiAreas, scope a m = scope b n → a = b ∧ m = n := by
    cases m <;> cases n <;> decide
  exact hfinite a ha b hb h

/-- The singular form of no area, with its colon, begins a plural scope. -/
theorem singular_not_prefix_scope {b : Bytes} (ha : a ∈ apiAreas) (hb : b ∈ apiAreas) :
    ¬ singular b ++ ascii ":" <+: scope a m := by
  have hfinite : ∀ a ∈ apiAreas, ∀ b ∈ apiAreas, ¬ singular b ++ ascii ":" <+: scope a m := by
    cases m <;> decide
  exact hfinite a ha b hb

/-- The singular forms of two areas, with their colons, never begin one permission. -/
theorem singular_prefix_inj {b : Bytes} (ha : a ∈ apiAreas) (hb : b ∈ apiAreas)
    (h : singular a ++ ascii ":" <+: p) (h' : singular b ++ ascii ":" <+: p) : a = b := by
  have hfinite : ∀ a ∈ apiAreas, ∀ b ∈ apiAreas,
      singular a ++ ascii ":" <+: singular b ++ ascii ":" → a = b := by decide
  rcases List.prefix_or_prefix_of_prefix h h' with hab | hba
  · exact hfinite a ha b hb hab
  · exact (hfinite b hb a ha hba).symm

theorem granted_scope (ha : a ∈ apiAreas) (m : Mode) : granted (scope a m) = {(a, m)} := by
  ext ⟨b, n⟩
  rw [mem_granted_iff, Set.mem_singleton_iff, Prod.mk.injEq]
  constructor
  · rintro ⟨hb, h | h⟩
    · obtain ⟨rfl, rfl⟩ := scope_inj ha hb h
      exact ⟨rfl, rfl⟩
    · exact (singular_not_prefix_scope ha hb h).elim
  · rintro ⟨rfl, rfl⟩
    exact ⟨ha, Or.inl rfl⟩

theorem granted_singular (ha : a ∈ apiAreas) (h : singular a ++ ascii ":" <+: p) :
    granted p = {(a, .read), (a, .write)} := by
  ext ⟨b, n⟩
  rw [mem_granted_iff, Set.mem_insert_iff, Set.mem_singleton_iff, Prod.mk.injEq, Prod.mk.injEq]
  constructor
  · rintro ⟨hb, rfl | h'⟩
    · exact (singular_not_prefix_scope hb ha h).elim
    · obtain rfl := singular_prefix_inj ha hb h h'
      cases n
      · exact Or.inl ⟨rfl, rfl⟩
      · exact Or.inr ⟨rfl, rfl⟩
  · rintro (⟨rfl, rfl⟩ | ⟨rfl, rfl⟩)
    · exact ⟨ha, Or.inr h⟩
    · exact ⟨ha, Or.inr h⟩

theorem granted_other (h : ∀ a ∈ apiAreas, (∀ m, p ≠ scope a m) ∧ ¬ singular a ++ ascii ":" <+: p) :
    granted p = ∅ := by
  rw [Set.eq_empty_iff_forall_notMem]
  rintro ⟨b, n⟩ hmem
  obtain ⟨hb, hscope | hprefix⟩ := mem_granted_iff.mp hmem
  · exact (h b hb).1 n hscope
  · exact (h b hb).2 hprefix

/-- One permission opens one area at most. -/
theorem granted_area {x y : Bytes × Mode} (hx : x ∈ granted p) (hy : y ∈ granted p) :
    x.1 = y.1 := by
  obtain ⟨hxa, hx⟩ := mem_granted_iff.mp hx
  obtain ⟨hya, hy⟩ := mem_granted_iff.mp hy
  rcases hx with rfl | hx
  · rcases hy with hy | hy
    · exact (scope_inj hxa hya hy).1
    · exact (singular_not_prefix_scope hxa hya hy).elim
  · rcases hy with rfl | hy
    · exact (singular_not_prefix_scope hya hxa hx).elim
    · exact singular_prefix_inj hxa hya hx hy

theorem openedBy_mono {auth' : AuthInfo} (hroles : auth.roles ⊆ auth'.roles)
    (hperms : auth.permissions ⊆ auth'.permissions) : openedBy auth ⊆ openedBy auth' := by
  rintro ⟨a, m⟩ ⟨ha, h⟩
  refine ⟨ha, ?_⟩
  rcases (hasScope_iff ha).mp h with hadmin | hexact | ⟨p, hp, hprefix⟩
  · exact (hasScope_iff ha).mpr (Or.inl (hroles hadmin))
  · exact (hasScope_iff ha).mpr (Or.inr (Or.inl (hperms hexact)))
  · exact (hasScope_iff ha).mpr (Or.inr (Or.inr ⟨p, hperms hp, hprefix⟩))

/-- Scopes leak neither between areas nor between modes. -/
theorem scopes_separate :
    (∀ auth, ∀ a ∈ apiAreas, ∀ m, hasScope auth a (scope a m) = true ↔
      ascii "admin" ∈ auth.roles ∨ scope a m ∈ auth.permissions ∨
        ∃ p ∈ auth.permissions, singular a ++ ascii ":" <+: p) ∧
    (∀ a ∈ apiAreas, ∀ m, granted (scope a m) = {(a, m)}) ∧
    (∀ p, ∀ a ∈ apiAreas, singular a ++ ascii ":" <+: p →
      granted p = {(a, .read), (a, .write)}) ∧
    (∀ p, (∀ a ∈ apiAreas, (∀ m, p ≠ scope a m) ∧ ¬ singular a ++ ascii ":" <+: p) →
      granted p = ∅) ∧
    (∀ p, ∀ x ∈ granted p, ∀ y ∈ granted p, x.1 = y.1) ∧
    (∀ a ∈ apiAreas, ∀ b, (b, .write) ∉ granted (scope a .read)) ∧
    ∀ auth auth' : AuthInfo, auth.roles ⊆ auth'.roles → auth.permissions ⊆ auth'.permissions →
      openedBy auth ⊆ openedBy auth' := by
  refine ⟨fun _ a ha m => hasScope_iff ha, fun a ha m => granted_scope ha m,
    fun p a ha h => granted_singular ha h, fun p h => granted_other h,
    fun p x hx y hy => granted_area hx hy, ?_, fun _ _ => openedBy_mono⟩
  intro a ha b hmem
  rw [granted_scope ha, Set.mem_singleton_iff] at hmem
  cases hmem

/-- A granular permission opens both modes of its area, a plural one its own mode. -/
theorem userList_opens_users :
    granted (ascii "user:list:read") = {(ascii "users", .read), (ascii "users", .write)} ∧
    granted (ascii "tests:read") = {(ascii "tests", .read)} := by
  obtain ⟨-, hscope, hsingular, -⟩ := scopes_separate
  exact ⟨hsingular _ (ascii "users") (by decide) (by decide),
    hscope (ascii "tests") (by decide) .read⟩

end Gateway

import Mathlib
import Gateway.HandleClient
import Gateway.Library.Positions

/-! The parsers of the source once more, with the position of every string operation checked and
every loop a total recursion. -/
namespace Gateway

namespace Checked

open Search Positions

/-- The first loop of `trimStr`. -/
def skipFront (s : Bytes) (a : Nat) : Except Fault Nat :=
  if _h : a < s.length then do
    if isBlank (← itemAt s a) then skipFront s (a + 1) else return a
  else return a
termination_by s.length - a

/-- The second loop of `trimStr`. -/
def skipBack (s : Bytes) (a b : Nat) : Except Fault Nat :=
  if _h : a < b then do
    if isBlank (← itemAt s (← minus b 1)) then skipBack s a (b - 1) else return b
  else return b
termination_by b

def trimStr (s : Bytes) : Except Fault Bytes := do
  let a ← skipFront s 0
  let b ← skipBack s a s.length
  substr s a (some (← minus b a))

/-- The header loop of `parseHttpRequest`; `none` is a head that it rejects. -/
def parseHeaders (head : Bytes) (pos : Nat) (headers : HeaderMap) :
    Except Fault (Option HeaderMap) :=
  if pos < head.length then
    match _h : findCrlf head pos with
    | none => return none
    | some eol => do
      if eol = pos then return some headers
      let line ← substr head pos (some (← minus eol pos))
      match find? (ascii ":") line with
      | none => return none
      | some colon =>
        let name := toLower (← trimStr (← substr line 0 (some colon)))
        let value ← trimStr (← substr line (colon + 1) none)
        if name = [] ∨ 8192 < value.length then return none
        if 100 < headers.size then return none
        parseHeaders head (eol + 2) (headers.insert name value)
  else return some headers
termination_by head.length - pos
decreasing_by
  have := findCrlf_bounds _h
  omega

def splitTarget (target : Bytes) : Except Fault (Bytes × Bytes) := do
  match find? (ascii "?") target with
  | none => return (target, [])
  | some q => return (← substr target 0 (some q), ← substr target (q + 1) none)

def parseHttpRequest (head : Bytes) : Except Fault (Option HttpRequest) := do
  match find? crlf head with
  | none => return none
  | some lineEnd =>
    match parseRequestLine (← substr head 0 (some lineEnd)) with
    | none => return none
    | some (method, target, version) =>
      if method.any fun c => !isUpper c && c != 45 then return none
      if target = [] then return none
      if (← itemAt target 0) ≠ 47 then return none
      if (← substr version 0 (some 5)) ≠ ascii "HTTP/" then return none
      let (path, query) ← splitTarget target
      if (find? (ascii "..") path).isSome then return none
      match ← parseHeaders head (lineEnd + 2) ∅ with
      | none => return none
      | some headers => return some { method, target, path, query, version, headers }

def matchRoute (method target : Bytes) (cfg : Config) : Except Fault RouteResult := do
  let q := find? (ascii "?") target
  let path ← before target q
  let query ← onward target [] q
  if path = ascii "/health" ∨ path = ascii "/health/" then return { kind := .kHealth }
  if (← substr path 0 (some 5)) ≠ ascii "/api/" then return { kind := .kNotFound }
  let rest ← substr path 5 none
  let slash := find? (ascii "/") rest
  let area ← before rest slash
  if !isApiArea area then return { kind := .kNotFound }
  if !isAllowedMethod method then return { kind := .kMethodNotAllowed }
  let remainder ← onward rest (ascii "/") slash
  let remainder := if remainder = [] then ascii "/" else remainder
  return {
    kind := .kApi
    area := area
    upstreamBase := cfg.upstreamFor area
    forwardPath := remainder ++ query
    requiredScope := area ++ (if isReadMethod method then ascii ":read" else ascii ":write") }

/-- The trim by two searches in `bearerFromHeader` and in `forwardRequest`. -/
def trimFound (t : Bytes) : Except Fault Bytes := do
  let b := lastNotOf isBlank t
  match firstNotOf isBlank t with
  | none => return []
  | some a => substr t a (some ((← minus (← found b) a) + 1))

def bearerFromHeader (authHeader : Bytes) : Except Fault Bytes := do
  if (← substr authHeader 0 (some 7)) ≠ ascii "Bearer " then return []
  trimFound (← substr authHeader 7 none)

/-- `maskToken` of SimpleFunctions.h, for the log. -/
def maskToken (token : Bytes) : Except Fault Bytes := do
  if token = [] then return ascii "<empty>"
  let head ← substr token 0 (some (if token.length < 6 then token.length else 6))
  return head ++ ascii "...<len=" ++ toDecimal token.length ++ ascii ">"

variable {s : Bytes} {a b : Nat}

theorem skipFront_ok (h : a ≤ s.length) : ∃ a', skipFront s a = .ok a' ∧ a' ≤ s.length ∧
    s.drop a' = (s.drop a).dropWhile isBlank := by
  induction hk : s.length - a using Nat.strong_induction_on generalizing a with
  | _ k ih =>
    rw [skipFront]
    rcases Nat.lt_or_ge a s.length with hlt | hge
    · rw [dif_pos hlt, itemAt_ok hlt, ok_bind, List.drop_eq_getElem_cons hlt]
      by_cases hblank : isBlank s[a] = true
      · rw [if_pos hblank, List.dropWhile_cons_of_pos hblank]
        exact ih (s.length - (a + 1)) (by omega) hlt rfl
      · rw [if_neg hblank, List.dropWhile_cons_of_neg hblank]
        exact ⟨a, rfl, h, List.drop_eq_getElem_cons hlt⟩
    · rw [dif_neg (Nat.not_lt.mpr hge), List.drop_eq_nil_of_le hge]
      exact ⟨a, rfl, h, List.drop_eq_nil_of_le hge⟩

theorem skipBack_ok (hab : a ≤ b) (hb : b ≤ s.length) : ∃ b', skipBack s a b = .ok b' ∧ a ≤ b' ∧
    (s.drop a).take (b' - a) = ((s.drop a).take (b - a)).rdropWhile isBlank := by
  induction b with
  | zero =>
    obtain rfl := Nat.le_zero.mp hab
    exact ⟨0, by rw [skipBack]; rfl, le_refl _, by simp⟩
  | succ b ih =>
    rw [skipBack]
    rcases Nat.lt_or_ge a (b + 1) with hlt | hge
    · have hin : b < s.length := hb
      -- the last character read is the last of the part that is trimmed
      have hlast : (s.drop a).take (b + 1 - a) = (s.drop a).take (b - a) ++ [s[b]] := by
        rw [Nat.succ_sub (Nat.le_of_lt_succ hlt), List.take_add_one, List.getElem?_drop,
          Nat.add_sub_cancel' (Nat.le_of_lt_succ hlt), List.getElem?_eq_getElem hin]
        rfl
      have hprev : minus (b + 1) 1 = .ok b := minus_ok (Nat.succ_pos b)
      rw [dif_pos hlt, hprev, ok_bind, itemAt_ok hin, ok_bind, hlast, Nat.add_sub_cancel]
      by_cases hblank : isBlank s[b] = true
      · rw [if_pos hblank, List.rdropWhile_concat_pos _ _ _ hblank]
        exact ih (Nat.le_of_lt_succ hlt) (Nat.le_of_lt hin)
      · rw [if_neg hblank, List.rdropWhile_concat_neg _ _ _ hblank]
        exact ⟨b + 1, rfl, hab, hlast⟩
    · obtain rfl : a = b + 1 := Nat.le_antisymm hab hge
      rw [dif_neg (lt_irrefl _), Nat.sub_self, List.take_zero]
      exact ⟨b + 1, rfl, le_refl _, by simp⟩

theorem trimStr_ok (s : Bytes) : trimStr s = .ok (Gateway.trimStr s) := by
  obtain ⟨a, hfront, ha, hdrop⟩ := @skipFront_ok s 0 (Nat.zero_le _)
  obtain ⟨b, hback, hab, htake⟩ := skipBack_ok ha (le_refl s.length)
  rw [trimStr, hfront, ok_bind, hback, ok_bind, minus_ok hab, ok_bind, substr_ok ha, htake, hdrop,
    List.drop_zero, List.take_of_length_le]
  · rfl
  · rw [← List.drop_zero (l := s), ← hdrop, List.length_drop]
    simp

theorem take_ne_iff {w : Bytes} {n : Nat} (hn : w.length = n) : s.take n ≠ w ↔ ¬ w <+: s := by
  rw [List.prefix_iff_eq_take, hn, ne_comm]

theorem parseHeaders_ok (head : Bytes) (pos : Nat) (headers : HeaderMap) :
    parseHeaders head pos headers = .ok (Gateway.parseHeaders head pos headers) := by
  induction hk : head.length - pos using Nat.strong_induction_on generalizing pos headers with
  | _ k ih =>
    rw [parseHeaders, Gateway.parseHeaders]
    by_cases hpos : pos < head.length
    · rw [if_pos hpos, if_pos hpos]
      cases hfind : findCrlf head pos with
      | none => rfl
      | some eol =>
        obtain ⟨hlo, hhi⟩ := findCrlf_bounds hfind
        dsimp only
        by_cases hempty : eol = pos
        · rw [if_pos hempty, if_pos hempty]
          rfl
        · rw [if_neg hempty, if_neg hempty, minus_ok hlo, ok_bind, substr_ok hpos.le, ok_bind]
          generalize (head.drop pos).take (eol - pos) = line
          cases hcolon : find? (ascii ":") line with
          | none => rfl
          | some colon =>
            have hafter : colon + 1 ≤ line.length := find?_some_le hcolon
            dsimp only
            rw [substr_zero, ok_bind, trimStr_ok, ok_bind, substr_rest_ok hafter, ok_bind,
              trimStr_ok, ok_bind]
            split
            · rfl
            · split
              · rfl
              · exact ih _ (by omega) _ _ rfl
    · rw [if_neg hpos, if_neg hpos]
      rfl

theorem splitTarget_ok (target : Bytes) :
    splitTarget target = .ok (Gateway.splitTarget target) := by
  rw [splitTarget, Gateway.splitTarget]
  cases hq : find? (ascii "?") target with
  | none => rfl
  | some q =>
    have hafter : q + 1 ≤ target.length := find?_some_le hq
    dsimp only
    rw [substr_zero, ok_bind, substr_rest_ok hafter, ok_bind]
    rfl

theorem parseHttpRequest_ok (head : Bytes) :
    parseHttpRequest head = .ok (Gateway.parseHttpRequest head) := by
  rw [parseHttpRequest, Gateway.parseHttpRequest]
  cases find? crlf head with
  | none => rfl
  | some lineEnd =>
    dsimp only
    rw [substr_zero, ok_bind, Option.bind_eq_bind, Option.bind_some]
    cases parseRequestLine (head.take lineEnd) with
    | none => rfl
    | some words =>
      obtain ⟨method, target, version⟩ := words
      rw [Option.bind_eq_bind, Option.bind_some]
      dsimp only
      by_cases hmethod : (method.any fun c => !isUpper c && c != 45) = true
      · rw [if_pos hmethod, if_pos hmethod]
        rfl
      · rw [if_neg hmethod, if_neg hmethod]
        cases target with
        | nil => rfl
        | cons c cs =>
          have hslash : c ≠ 47 ↔ (c :: cs).head? ≠ some 47 := by simp
          have hcompare := take_ne_iff (s := version) (w := ascii "HTTP/") (n := 5) (by decide)
          have hfirst : itemAt (c :: cs) 0 = .ok c := rfl
          rw [if_neg (List.cons_ne_nil c cs), hfirst, ok_bind, substr_zero, ok_bind,
            splitTarget_ok, ok_bind]
          generalize Gateway.splitTarget (c :: cs) = parts
          obtain ⟨path, query⟩ := parts
          dsimp only
          rw [parseHeaders_ok, ok_bind]
          simp only [hslash, hcompare]
          split
          · rfl
          · split
            · rfl
            · split
              · rfl
              · cases Gateway.parseHeaders head (lineEnd + 2) ∅ with
                | none => rfl
                | some headers => rfl

theorem splitQuery_ok (target : Bytes) :
    before target (find? (ascii "?") target) = .ok (splitQuery target).1 ∧
      onward target [] (find? (ascii "?") target) = .ok (splitQuery target).2 := by
  rw [splitQuery]
  cases hq : find? (ascii "?") target with
  | none => exact ⟨rfl, rfl⟩
  | some q => exact ⟨before_ok, onward_ok (Nat.le_of_succ_le (find?_some_le hq))⟩

theorem splitArea_ok (rest : Bytes) :
    before rest (find? (ascii "/") rest) = .ok (splitArea rest).1 ∧
      onward rest (ascii "/") (find? (ascii "/") rest) = .ok (splitArea rest).2 := by
  rw [splitArea]
  cases hslash : find? (ascii "/") rest with
  | none => exact ⟨rfl, rfl⟩
  | some slash => exact ⟨before_ok, onward_ok (Nat.le_of_succ_le (find?_some_le hslash))⟩

theorem matchRoute_ok (method target : Bytes) (cfg : Config) :
    matchRoute method target cfg = .ok (Gateway.matchRoute method target cfg) := by
  obtain ⟨hpath, hquery⟩ := splitQuery_ok target
  rw [matchRoute, Gateway.matchRoute]
  dsimp only
  rw [hpath, ok_bind, hquery, ok_bind]
  generalize splitQuery target = parts
  obtain ⟨path, query⟩ := parts
  have hcompare := take_ne_iff (s := path) (w := ascii "/api/") (n := 5) (by decide)
  dsimp only
  rw [substr_zero, ok_bind]
  simp only [hcompare]
  split
  · rfl
  · split
    · rfl
    · rename_i hapi
      have hlen : 5 ≤ path.length := (not_not.mp hapi).length_le
      obtain ⟨harea, hremainder⟩ := splitArea_ok (path.drop 5)
      rw [substr_rest_ok hlen, ok_bind, harea, ok_bind]
      split
      · rfl
      · split
        · rfl
        · rw [hremainder, ok_bind]
          rfl

theorem trimFound_ok (t : Bytes) : trimFound t = .ok (Gateway.trimStr t) := by
  rw [trimFound, Gateway.trimStr]
  cases hfirst : firstNotOf isBlank t with
  | none =>
    rw [trim_of_firstNotOf_none hfirst]
    rfl
  | some a =>
    obtain ⟨b, hlast, hab, hb, htrim⟩ := trim_of_firstNotOf hfirst
    dsimp only
    rw [hlast, found_some, ok_bind, minus_ok hab, ok_bind, substr_ok (by omega), htrim]

theorem bearerFromHeader_ok (authHeader : Bytes) :
    bearerFromHeader authHeader = .ok (Gateway.bearerFromHeader authHeader) := by
  have hcompare := take_ne_iff (s := authHeader) (w := ascii "Bearer ") (n := 7) (by decide)
  rw [bearerFromHeader, Gateway.bearerFromHeader, substr_zero, ok_bind]
  simp only [hcompare]
  split
  · rfl
  · rename_i hscheme
    have hlen : 7 ≤ authHeader.length := (not_not.mp hscheme).length_le
    rw [substr_rest_ok hlen, ok_bind, trimFound_ok]

/-- The mask shows at most six characters of the token. -/
theorem maskToken_ok (token : Bytes) : maskToken token = .ok (if token = [] then ascii "<empty>"
    else token.take 6 ++ ascii "...<len=" ++ toDecimal token.length ++ ascii ">") := by
  have hcut : token.take (if token.length < 6 then token.length else 6) = token.take 6 := by
    split
    · rw [List.take_length, List.take_of_length_le (by omega)]
    · rfl
  rw [maskToken]
  split
  · rfl
  · rw [substr_zero, ok_bind, hcut]
    rfl

end Checked

end Gateway

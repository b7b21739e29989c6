import Mathlib
import Gateway.Text
import Gateway.Library.Delimiters

/-! The token of a raw message (FindToken.h), which `CheckToken` verifies. -/
namespace Gateway

open Search

def kMaxTokenLen : Nat := 8192

/-- Space, LF, CR, tab and the two quotes, in the order the source searches them. -/
def tokenDelims : Bytes := [32, 10, 13, 9, 34, 39]

/-- `message.find(delim, start)`. -/
def findDelim (message : Bytes) (start : Nat) (delim : UInt8) : Option Nat :=
  (find? [delim] (message.drop start)).map (start + ·)

/-- One turn of the delimiter loop. -/
def cutAtDelim (message : Bytes) (start cut_pos : Nat) (delim : UInt8) : Nat :=
  match findDelim message start delim with
  | some p => if p < cut_pos then p else cut_pos
  | none => cut_pos

/-- `findToken` with its delimiters in any order. -/
def findTokenWith (delims message : Bytes) : Bytes :=
  match find? (ascii "Bearer ") message with
  | none => []
  | some bearerPos =>
    let start := bearerPos + 7
    if message.length ≤ start then []
    else
      let cut_pos := delims.foldl (cutAtDelim message start) message.length
      let token := (message.drop start).take (cut_pos - start)
      if kMaxTokenLen < token.length then token.take kMaxTokenLen else token

def findToken (message : Bytes) : Bytes := findTokenWith tokenDelims message

variable {message pre rest delims : Bytes} {start cut_pos : Nat} {delim : UInt8}

/-- A delimiter that is not found counts as standing at the end. -/
theorem cutAtDelim_eq (hs : start ≤ message.length) (hc : cut_pos ≤ message.length) :
    cutAtDelim message start cut_pos delim =
      min cut_pos (start + (message.drop start).idxOf delim) := by
  unfold cutAtDelim findDelim
  rw [find?_singleton]
  by_cases hmem : delim ∈ message.drop start
  · rw [if_pos hmem]
    dsimp only [Option.map_some]
    split <;> omega
  · have hend := List.idxOf_eq_length hmem
    rw [List.length_drop] at hend
    rw [if_neg hmem, Option.map_none, hend]
    dsimp only
    omega

/-- The loop ends at the first position of any delimiter. -/
theorem foldl_cutAtDelim (hs : start ≤ message.length) (hc : cut_pos ≤ message.length)
    (hle : start ≤ cut_pos) :
    delims.foldl (cutAtDelim message start) cut_pos - start =
      min (cut_pos - start) ((message.drop start).findIdx (· ∈ delims)) := by
  have hm : cut_pos - start ≤ (message.drop start).length := by
    rw [List.length_drop]
    omega
  rw [← foldl_min_idxOf hm]
  clear hm
  induction delims generalizing cut_pos with
  | nil => rfl
  | cons d ds ih =>
    have hstep := @cutAtDelim_eq message start cut_pos d hs hc
    rw [List.foldl_cons, List.foldl_cons, hstep, ih (by omega) (by omega)]
    congr 1
    omega

/-- Behind the first `Bearer ` the token is what stands before any delimiter. -/
theorem findTokenWith_eq (hfirst : ¬ ascii "Bearer " <:+: pre) :
    findTokenWith delims (pre ++ ascii "Bearer " ++ rest) =
      (rest.takeWhile (· ∉ delims)).take kMaxTokenLen := by
  have hplain : (66 : UInt8) ∉ ascii "earer " := by decide
  have hfind : find? (ascii "Bearer ") (pre ++ ascii "Bearer " ++ rest) = some pre.length :=
    find?_block_of_not_infix hplain hfirst
  have hlen : (ascii "Bearer ").length = 7 := by decide
  have hdrop : (pre ++ ascii "Bearer " ++ rest).drop (pre.length + 7) = rest := by
    rw [← hlen, ← List.length_append, List.drop_left]
  have htotal : (pre ++ ascii "Bearer " ++ rest).length = pre.length + 7 + rest.length := by
    simp only [List.length_append, hlen]
  unfold findTokenWith
  rw [hfind]
  generalize pre ++ ascii "Bearer " ++ rest = message at hdrop htotal
  dsimp only
  by_cases hrest : rest = []
  · subst hrest
    have hend : message.length ≤ pre.length + 7 := by simpa using htotal.le
    rw [if_pos hend]
    rfl
  · have hpos := List.length_pos_iff.mpr hrest
    have hcut : delims.foldl (cutAtDelim message (pre.length + 7)) message.length -
        (pre.length + 7) = rest.findIdx (· ∈ delims) := by
      have hidx : rest.findIdx (· ∈ delims) ≤ rest.length := List.findIdx_le_length
      rw [foldl_cutAtDelim (by omega) (by omega) (by omega), hdrop]
      omega
    have hrun : rest.takeWhile (· ∉ delims) = rest.take (rest.findIdx (· ∈ delims)) := by
      rw [List.takeWhile_eq_take_findIdx_not]
      simp
    rw [if_neg (by omega), hcut, hdrop, ← hrun]
    split
    · rfl
    · rw [List.take_of_length_le (by omega)]

theorem findTokenWith_absent (h : ¬ ascii "Bearer " <:+: message) :
    findTokenWith delims message = [] := by
  unfold findTokenWith
  rw [find?_eq_none_iff.mpr h]

/-- A message holds no `Bearer `, or parts around the first one. -/
theorem bearer_cases (message : Bytes) : ¬ ascii "Bearer " <:+: message ∨
    ∃ pre rest, message = pre ++ ascii "Bearer " ++ rest ∧ ¬ ascii "Bearer " <:+: pre := by
  cases hfind : find? (ascii "Bearer ") message with
  | none => exact .inl (find?_eq_none_iff.mp hfind)
  | some bearerPos =>
    have hplain : (66 : UInt8) ∉ ascii "earer " := by decide
    obtain ⟨pre, rest, hparts, -, hfirst⟩ := (find?_eq_some_split hplain).mp hfind
    exact .inr ⟨pre, rest, hparts, hfirst⟩

theorem findTokenWith_perm {order : Bytes} (hp : order.Perm delims) :
    findTokenWith order message = findTokenWith delims message := by
  rcases bearer_cases message with hno | ⟨pre, rest, rfl, hfirst⟩
  · rw [findTokenWith_absent hno, findTokenWith_absent hno]
  · have hrun : LongestRun order rest (rest.takeWhile (· ∉ delims)) :=
      longestRun_takeWhile.perm hp
    rw [findTokenWith_eq hfirst, findTokenWith_eq hfirst, longestRun_takeWhile.unique hrun]

theorem findTokenWith_clean : ∀ c ∈ findTokenWith delims message, c ∉ delims := by
  intro c hc
  rcases bearer_cases message with hno | ⟨pre, rest, rfl, hfirst⟩
  · rw [findTokenWith_absent hno] at hc
    exact (List.not_mem_nil hc).elim
  · rw [findTokenWith_eq hfirst] at hc
    exact longestRun_takeWhile.clean c (List.mem_of_mem_take hc)

/-- `findToken` returns nothing, or the longest run behind the first `Bearer `, cut to its
first 8192 characters; no order of the six searches changes that. -/
theorem findToken_longest_run (message : Bytes) :
    (¬ ascii "Bearer " <:+: message → findToken message = []) ∧
    (∀ pre rest, message = pre ++ ascii "Bearer " ++ rest → ¬ ascii "Bearer " <:+: pre →
      ∃ run, LongestRun tokenDelims rest run ∧ findToken message = run.take 8192) ∧
    (∀ c ∈ findToken message, c ∉ tokenDelims) ∧
    ∀ order : Bytes, order.Perm tokenDelims → findTokenWith order message = findToken message := by
  refine ⟨findTokenWith_absent, ?_, findTokenWith_clean, fun order => findTokenWith_perm⟩
  rintro pre rest rfl hfirst
  exact ⟨_, longestRun_takeWhile, findTokenWith_eq hfirst⟩

example : findToken (ascii "Authorization: Bearer abc123\r\nHost: x") = ascii "abc123" := by
  decide +kernel

end Gateway

import Mathlib
import Gateway.CheckToken
import Gateway.Library.Results
import Gateway.Library.Search

/-! The base64 family of the vendored jwt-cpp (base.h). -/
namespace Gateway.Jwt

open Search Results

/-- 64 letters, and a fill whose first character is none of them. -/
structure Alphabet where
  data : Bytes
  fillHead : UInt8
  fillTail : Bytes
  size : data.length = 64
  nodup : data.Nodup
  apart : fillHead ∉ data

def base64url : Alphabet where
  data := ascii "ABCDEFGHIJKLMNOPQRSTUVWXYZabcdefghijklmnopqrstuvwxyz0123456789-_"
  fillHead := 37
  fillTail := ascii "3d"
  size := by decide
  nodup := by decide
  apart := by decide

/-- `std::runtime_error`. -/
def runtimeError (what : String) : StdException := .other (ascii what)

namespace Alphabet

variable (A : Alphabet)

def fill : Bytes := A.fillHead :: A.fillTail

/-- `alphabet[n & 0x3F]`. -/
def letter (n : Nat) : UInt8 := A.data.getD (n &&& 0x3F) 0

/-- `get_sextet`. -/
def getSextet (c : UInt8) : Except StdException Nat :=
  match A.data.idxOf? c with
  | some i => .ok i
  | none => .error (runtimeError "Invalid input: not within alphabet")

/-- The fills that a text of this length is followed by. -/
def fills (n : Nat) : Bytes := (List.replicate n A.fill).flatten

def encode : Bytes → Bytes
  | a :: b :: c :: bin =>
    let triple := a.toNat <<< 0x10 + b.toNat <<< 0x08 + c.toNat
    A.letter (triple >>> 18) :: A.letter (triple >>> 12) :: A.letter (triple >>> 6) ::
      A.letter triple :: encode bin
  | [a, b] =>
    let triple := a.toNat <<< 0x10 + b.toNat <<< 0x08
    [A.letter (triple >>> 18), A.letter (triple >>> 12), A.letter (triple >>> 6)] ++ A.fill
  | [a] =>
    let triple := a.toNat <<< 0x10
    [A.letter (triple >>> 18), A.letter (triple >>> 12)] ++ A.fill ++ A.fill
  | [] => []

/-- The loop that takes the fills off the end and counts them. -/
def stripFill (base : Bytes) (fillCnt : Nat) : Except StdException (Bytes × Nat) :=
  if A.fill.length < base.length then
    if base.drop (base.length - A.fill.length) = A.fill then
      if 2 < fillCnt + 1 then .error (runtimeError "Invalid input: too much fill")
      else stripFill (base.take (base.length - A.fill.length)) (fillCnt + 1)
    else .ok (base, fillCnt)
  else .ok (base, fillCnt)
termination_by 2 - fillCnt

/-- The byte at the low end of `n`. -/
def byte (n : Nat) : UInt8 := (n &&& 0xFF).toUInt8

/-- The sextets behind the last full group; no other case passes the size check. -/
def decodeTail (fillCnt : Nat) (tail : Bytes) : Except StdException Bytes :=
  match fillCnt, tail with
  | 1, [a, b, c] => do
    let triple := (← A.getSextet a) <<< 18 + (← A.getSextet b) <<< 12
    let triple := triple ||| (← A.getSextet c) <<< 6
    return [byte (triple >>> 16), byte (triple >>> 8)]
  | 2, [a, b] => do
    let triple := (← A.getSextet a) <<< 18 + (← A.getSextet b) <<< 12
    return [byte (triple >>> 16)]
  | _, _ => .ok []

/-- The groups of four sextets. -/
def decodeGroups (fillCnt : Nat) : Bytes → Except StdException Bytes
  | a :: b :: c :: d :: rest => do
    let triple := (← A.getSextet a) <<< 18 + (← A.getSextet b) <<< 12 +
      (← A.getSextet c) <<< 6 + (← A.getSextet d)
    return byte (triple >>> 16) :: byte (triple >>> 8) :: byte triple ::
      (← decodeGroups fillCnt rest)
  | tail => A.decodeTail fillCnt tail

def decode (base : Bytes) : Except StdException Bytes := do
  let (base, fillCnt) ← A.stripFill base 0
  if (base.length + fillCnt) % 4 ≠ 0 then
    .error (runtimeError "Invalid input: incorrect total size")
  else A.decodeGroups fillCnt base

def pad (base : Bytes) : Bytes :=
  match base.length % 4 with
  | 1 => base ++ A.fills 3
  | 2 => base ++ A.fills 2
  | 3 => base ++ A.fills 1
  | _ => base

def trim (base : Bytes) : Bytes :=
  match find? A.fill base with
  | some pos => base.take pos
  | none => base

end Alphabet

namespace Alphabet

variable {A : Alphabet} {c : UInt8} {n k : Nat} {bin rest t : Bytes}

@[simp] theorem fills_zero : A.fills 0 = [] := rfl

theorem fills_succ (n : Nat) : A.fills (n + 1) = A.fill ++ A.fills n := by
  simp [fills, List.replicate_succ]

theorem fills_succ' (n : Nat) : A.fills (n + 1) = A.fills n ++ A.fill := by
  simp [fills, List.replicate_succ']

theorem letter_eq (n : Nat) : A.letter n = A.data.getD (n % 64) 0 := by
  rw [letter, Nat.and_two_pow_sub_one_eq_mod n 6]

theorem letter_mem (n : Nat) : A.letter n ∈ A.data := by
  have hlt : n % 64 < A.data.length := by rw [A.size]; omega
  rw [letter_eq, List.getD_eq_getElem _ _ hlt]
  exact List.getElem_mem hlt

/-- A letter stands for the six low bits it was chosen by. -/
theorem getSextet_letter (n : Nat) : A.getSextet (A.letter n) = .ok (n % 64) := by
  have hlt : n % 64 < A.data.length := by rw [A.size]; omega
  have hidx : A.data.idxOf? (A.letter n) = some (n % 64) := by
    rw [letter_eq, List.getD_eq_getElem _ _ hlt, List.idxOf?_eq_some_iff]
    refine ⟨hlt, rfl, ?_⟩
    intro j hj heq
    have := (A.nodup.getElem_inj_iff).mp heq
    omega
  rw [getSextet, hidx]

/-- What stands for a sextet is its letter. -/
theorem letter_of_getSextet (h : A.getSextet c = .ok n) : n < 64 ∧ A.letter n = c := by
  unfold getSextet at h
  split at h
  · rename_i i hi
    cases h
    obtain ⟨hlt, heq, -⟩ := List.idxOf?_eq_some_iff.mp hi
    have hsize := A.size
    refine ⟨by omega, ?_⟩
    rw [letter_eq, Nat.mod_eq_of_lt (by omega), List.getD_eq_getElem _ _ hlt, heq]
  · cases h

/-- The letters of an encoding, without its fills. -/
def text (A : Alphabet) : Bytes → Bytes
  | a :: b :: c :: bin =>
    let triple := a.toNat <<< 0x10 + b.toNat <<< 0x08 + c.toNat
    A.letter (triple >>> 18) :: A.letter (triple >>> 12) :: A.letter (triple >>> 6) ::
      A.letter triple :: text A bin
  | [a, b] =>
    let triple := a.toNat <<< 0x10 + b.toNat <<< 0x08
    [A.letter (triple >>> 18), A.letter (triple >>> 12), A.letter (triple >>> 6)]
  | [a] =>
    let triple := a.toNat <<< 0x10
    [A.letter (triple >>> 18), A.letter (triple >>> 12)]
  | [] => []

/-- How many fills the encoding of `n` bytes ends with. -/
def fillCount (n : Nat) : Nat := (3 - n % 3) % 3

theorem encode_eq (A : Alphabet) (bin : Bytes) :
    A.encode bin = A.text bin ++ A.fills (fillCount bin.length) := by
  induction bin using encode.induct with
  | case1 a b c bin ih =>
    have hcount : fillCount (a :: b :: c :: bin).length = fillCount bin.length := by
      simp only [List.length_cons, fillCount]
      omega
    rw [hcount, encode, ih, text]
    rfl
  | case2 a b => simp [encode, text, fillCount, fills]
  | case3 a => simp [encode, text, fillCount, fills]
  | case4 => rfl

theorem text_length (A : Alphabet) (bin : Bytes) :
    (A.text bin).length = (4 * bin.length + 2) / 3 := by
  induction bin using encode.induct with
  | case1 a b c bin ih =>
    simp only [text, List.length_cons, ih]
    omega
  | case2 a b => simp [text]
  | case3 a => simp [text]
  | case4 => rfl

theorem mem_of_mem_text (h : c ∈ A.text bin) : c ∈ A.data := by
  induction bin using encode.induct with
  | case1 a b d bin ih =>
    simp only [text, List.mem_cons] at h
    rcases h with rfl | rfl | rfl | rfl | h
    · exact letter_mem _
    · exact letter_mem _
    · exact letter_mem _
    · exact letter_mem _
    · exact ih h
  | case2 a b =>
    simp only [text, List.mem_cons, List.not_mem_nil, or_false] at h
    rcases h with rfl | rfl | rfl <;> exact letter_mem _
  | case3 a =>
    simp only [text, List.mem_cons, List.not_mem_nil, or_false] at h
    rcases h with rfl | rfl <;> exact letter_mem _
  | case4 => cases h

/-- The search for a fill finds the first one behind the letters. -/
theorem trim_encode (A : Alphabet) (bin : Bytes) : A.trim (A.encode bin) = A.text bin := by
  have hfree : A.fillHead ∉ A.text bin := fun h => A.apart (mem_of_mem_text h)
  rw [encode_eq, trim]
  cases hk : fillCount bin.length with
  | zero =>
    have hnone : find? A.fill (A.text bin) = none := find?_none_of_not_mem hfree
    rw [fills_zero, List.append_nil, hnone]
  | succ k =>
    have hfound : find? A.fill (A.text bin ++ A.fill ++ A.fills k) = some (A.text bin).length :=
      find?_block hfree
    rw [fills_succ, ← List.append_assoc, hfound]
    simp

theorem pad_text (A : Alphabet) (bin : Bytes) :
    A.pad (A.text bin) = A.text bin ++ A.fills (fillCount bin.length) := by
  have hmod : bin.length % 3 < 3 := Nat.mod_lt _ (by omega)
  unfold pad
  rw [text_length]
  interval_cases h : bin.length % 3
  · have hlen : (4 * bin.length + 2) / 3 % 4 = 0 := by omega
    simp [hlen, fillCount, h]
  · have hlen : (4 * bin.length + 2) / 3 % 4 = 2 := by omega
    simp [hlen, fillCount, h]
  · have hlen : (4 * bin.length + 2) / 3 % 4 = 3 := by omega
    simp [hlen, fillCount, h]

/-- No fill is taken off a text of letters. -/
theorem not_fill_of_letters (h : ∀ c ∈ t, c ∈ A.data) :
    t.drop (t.length - A.fill.length) ≠ A.fill := by
  intro heq
  have hmem : A.fillHead ∈ t.drop (t.length - A.fill.length) := by
    rw [heq]
    exact List.mem_cons_self
  exact A.apart (h _ (List.mem_of_mem_drop hmem))

theorem stripFill_letters (h : ∀ c ∈ t, c ∈ A.data) : A.stripFill t k = .ok (t, k) := by
  rw [stripFill]
  split
  · rw [if_neg (not_fill_of_letters h)]
  · rfl

/-- One turn of the loop at a text that ends with a fill. -/
theorem stripFill_fill (hne : t ≠ []) (hcnt : k < 2) :
    A.stripFill (t ++ A.fill) k = A.stripFill t (k + 1) := by
  have hpos : 0 < t.length := List.length_pos_iff.mpr hne
  rw [stripFill, if_pos (by simp; omega)]
  simp only [List.length_append, Nat.add_sub_cancel, List.drop_left, List.take_left, if_true]
  rw [if_neg (by omega)]

/-- The loop takes off all fills behind letters. -/
theorem stripFill_fills (h : ∀ c ∈ t, c ∈ A.data) (hne : t ≠ []) (hcnt : k + n ≤ 2) :
    A.stripFill (t ++ A.fills n) k = .ok (t, k + n) := by
  induction n generalizing k with
  | zero => simpa using stripFill_letters h
  | succ n ih =>
    rw [fills_succ', ← List.append_assoc, stripFill_fill (by simp [hne]) (by omega),
      ih (by omega)]
    congr 2
    omega

theorem byte_eq (n : Nat) : byte n = UInt8.ofNat (n % 256) := by
  rw [byte, Nat.and_two_pow_sub_one_eq_mod n 8]

theorem byte_of_eq {a : UInt8} (h : n % 256 = a.toNat) : byte n = a := by
  rw [byte_eq, h]
  exact UInt8.ofNat_toNat

/-- What was cut into sextets is put together again. -/
theorem sextets_eq (h : n < 2 ^ 24) : (n >>> 18 % 64) <<< 18 + (n >>> 12 % 64) <<< 12 +
    (n >>> 6 % 64) <<< 6 + n % 64 = n := by
  simp only [Nat.shiftLeft_eq, Nat.shiftRight_eq_div_pow]
  omega

theorem triple_lt (a b c : UInt8) : a.toNat <<< 16 + b.toNat <<< 8 + c.toNat < 2 ^ 24 := by
  have ha := a.toNat_lt
  have hb := b.toNat_lt
  have hc := c.toNat_lt
  simp only [Nat.shiftLeft_eq]
  omega

/-- The three bytes of a group. -/
theorem bytes_of_triple (a b c : UInt8) :
    byte ((a.toNat <<< 16 + b.toNat <<< 8 + c.toNat) >>> 16) = a ∧
      byte ((a.toNat <<< 16 + b.toNat <<< 8 + c.toNat) >>> 8) = b ∧
      byte (a.toNat <<< 16 + b.toNat <<< 8 + c.toNat) = c := by
  have ha := a.toNat_lt
  have hb := b.toNat_lt
  have hc := c.toNat_lt
  refine ⟨byte_of_eq ?_, byte_of_eq ?_, byte_of_eq ?_⟩ <;>
    simp only [Nat.shiftLeft_eq, Nat.shiftRight_eq_div_pow] <;> omega

/-- The third sextet of an incomplete group falls into bits that are still clear. -/
theorem or_sextet {a b c : Nat} (hc : c < 64) :
    a <<< 18 + b <<< 12 ||| c <<< 6 = a <<< 18 + b <<< 12 + c <<< 6 := by
  have hlow : c <<< 6 < 2 ^ 12 := by
    rw [Nat.shiftLeft_eq]
    omega
  have hhigh : a <<< 18 + b <<< 12 = (a <<< 6 + b) <<< 12 := by
    simp only [Nat.shiftLeft_eq]
    omega
  rw [hhigh, Nat.shiftLeft_add_eq_or_of_lt hlow]

/-- Letters that were chosen by three bytes give them back. -/
theorem decodeGroups_text (A : Alphabet) (bin : Bytes) :
    A.decodeGroups (fillCount bin.length) (A.text bin) = .ok bin := by
  induction bin using encode.induct with
  | case1 a b c bin ih =>
    have hcount : fillCount (a :: b :: c :: bin).length = fillCount bin.length := by
      simp only [List.length_cons, fillCount]
      omega
    obtain ⟨ha, hb, hc⟩ := bytes_of_triple a b c
    rw [hcount]
    simp only [text, decodeGroups, getSextet_letter, ih, bind, Except.bind, pure, Except.pure]
    rw [sextets_eq (triple_lt a b c), ha, hb, hc]
  | case2 a b =>
    obtain ⟨ha, hb, -⟩ := bytes_of_triple a b 0
    have hsplit := sextets_eq (triple_lt a b 0)
    have hlast : (a.toNat <<< 16 + b.toNat <<< 8 + (0 : UInt8).toNat) % 64 = 0 := by
      simp only [Nat.shiftLeft_eq, UInt8.toNat_zero]
      omega
    simp only [UInt8.toNat_zero, Nat.add_zero] at ha hb hsplit hlast
    simp only [hlast, Nat.add_zero] at hsplit
    simp only [text, decodeGroups, decodeTail, fillCount, List.length_cons, List.length_nil,
      getSextet_letter, bind, Except.bind, pure, Except.pure]
    rw [or_sextet (Nat.mod_lt _ (by omega)), hsplit, ha, hb]
  | case3 a =>
    obtain ⟨ha, -, -⟩ := bytes_of_triple a 0 0
    have hsplit := sextets_eq (triple_lt a 0 0)
    have hlast : a.toNat <<< 16 % 64 = 0 ∧ a.toNat <<< 16 >>> 6 % 64 = 0 := by
      simp only [Nat.shiftLeft_eq, Nat.shiftRight_eq_div_pow]
      omega
    simp only [UInt8.toNat_zero, Nat.zero_shiftLeft, Nat.add_zero] at ha hsplit
    simp only [hlast, Nat.zero_shiftLeft, Nat.add_zero] at hsplit
    simp only [text, decodeGroups, decodeTail, fillCount, List.length_cons, List.length_nil,
      getSextet_letter, bind, Except.bind, pure, Except.pure]
    rw [hsplit, ha]
  | case4 => rfl

/-- The decoder reads back every encoding, filled up or not. -/
theorem decode_encode (A : Alphabet) (bin : Bytes) : A.decode (A.encode bin) = .ok bin := by
  have hletters : ∀ c ∈ A.text bin, c ∈ A.data := fun c hc => mem_of_mem_text hc
  have hlen := text_length A bin
  have hstrip : A.stripFill (A.encode bin) 0 = .ok (A.text bin, fillCount bin.length) := by
    rw [encode_eq]
    by_cases hnil : A.text bin = []
    · have hbin : bin = [] := by
        rw [hnil, List.length_nil] at hlen
        exact List.length_eq_zero_iff.mp (by omega)
      subst hbin
      exact stripFill_letters (by simp [text, fillCount])
    · have hfew : fillCount bin.length ≤ 2 := by
        unfold fillCount
        omega
      simpa using stripFill_fills hletters hnil (k := 0) (by omega)
  have hsize : ¬ ((A.text bin).length + fillCount bin.length) % 4 ≠ 0 := by
    rw [hlen]
    unfold fillCount
    have hmod : bin.length % 3 = 0 ∨ bin.length % 3 = 1 ∨ bin.length % 3 = 2 := by omega
    rcases hmod with h | h | h <;> simp only [h] <;> omega
  rw [decode, hstrip]
  simp only [bind, Except.bind]
  rw [if_neg hsize]
  exact decodeGroups_text A bin

theorem decode_pad_trim (A : Alphabet) (bin : Bytes) :
    A.decode (A.pad (A.trim (A.encode bin))) = .ok bin := by
  rw [trim_encode, pad_text, ← encode_eq, decode_encode]

/-- A text that stands for these bytes: it is the encoding, except that the bits of the last
letter which no byte needs may be set. -/
def Spells (A : Alphabet) (s bin : Bytes) : Prop :=
  ∃ init last last', s = init ++ last ∧ A.text bin = init ++ last' ∧ last.length = last'.length ∧
    last.length ≤ 1 ∧ (bin.length % 3 = 0 → last = [])

/-- The loop takes off nothing but fills. -/
theorem stripFill_ok {s : Bytes} {cnt : Nat} (h : A.stripFill t k = .ok (s, cnt)) (hk : k ≤ 2) :
    ∃ n, t = s ++ A.fills n ∧ cnt = k + n ∧ cnt ≤ 2 := by
  induction hn : 2 - k using Nat.strong_induction_on generalizing t k with
  | _ n ih =>
    rw [stripFill] at h
    split at h
    · rename_i hlt
      split at h
      · rename_i hfill
        split at h
        · cases h
        · obtain ⟨m, ht, hcnt, hle⟩ := ih _ (by omega) h (by omega) rfl
          refine ⟨m + 1, ?_, by omega, hle⟩
          have hsplit := List.take_append_drop (t.length - A.fill.length) t
          rw [hfill] at hsplit
          rw [fills_succ', ← List.append_assoc, ← ht, hsplit]
      · cases h
        exact ⟨0, by simp, rfl, hk⟩
    · cases h
      exact ⟨0, by simp, rfl, hk⟩

@[simp] theorem byte_toNat (n : Nat) : (byte n).toNat = n % 256 := by
  rw [byte_eq]
  simp

theorem letter_congr {m : Nat} (h : m % 64 = n % 64) : A.letter m = A.letter n := by
  rw [letter_eq, letter_eq, h]

/-- The letters that a whole group is encoded with are those it was decoded from. -/
theorem text_group {a b c d : Nat} (hb : b < 64) (hc : c < 64) (hd : d < 64)
    (hn : n = a <<< 18 + b <<< 12 + c <<< 6 + d) :
    A.text (byte (n >>> 16) :: byte (n >>> 8) :: byte n :: bin) =
      A.letter a :: A.letter b :: A.letter c :: A.letter d :: A.text bin := by
  simp only [Nat.shiftLeft_eq] at hn
  simp only [text, byte_toNat, List.cons.injEq, and_true]
  refine ⟨letter_congr ?_, letter_congr ?_, letter_congr ?_, letter_congr ?_⟩ <;>
    simp only [Nat.shiftLeft_eq, Nat.shiftRight_eq_div_pow] <;> omega

/-- Of an incomplete group all letters but the last are given back. -/
theorem text_one {a b : Nat} (hb : b < 64) (hn : n = a <<< 18 + b <<< 12) :
    ∃ last, A.text [byte (n >>> 16)] = [A.letter a, last] := by
  have hfirst : A.letter ((byte (n >>> 16)).toNat <<< 16 >>> 18) = A.letter a := by
    simp only [Nat.shiftLeft_eq] at hn
    apply letter_congr
    simp only [byte_toNat, Nat.shiftLeft_eq, Nat.shiftRight_eq_div_pow]
    omega
  exact ⟨_, by rw [text, hfirst]⟩

theorem text_two {a b c : Nat} (hb : b < 64) (hc : c < 64)
    (hn : n = a <<< 18 + b <<< 12 + c <<< 6) :
    ∃ last, A.text [byte (n >>> 16), byte (n >>> 8)] = [A.letter a, A.letter b, last] := by
  simp only [Nat.shiftLeft_eq] at hn
  have hfirst : A.letter (((byte (n >>> 16)).toNat <<< 16 + (byte (n >>> 8)).toNat <<< 8) >>> 18) =
      A.letter a := by
    apply letter_congr
    simp only [byte_toNat, Nat.shiftLeft_eq, Nat.shiftRight_eq_div_pow]
    omega
  have hsecond : A.letter (((byte (n >>> 16)).toNat <<< 16 + (byte (n >>> 8)).toNat <<< 8) >>> 12) =
      A.letter b := by
    apply letter_congr
    simp only [byte_toNat, Nat.shiftLeft_eq, Nat.shiftRight_eq_div_pow]
    omega
  exact ⟨_, by rw [text, hfirst, hsecond]⟩

/-- The groups are letters, and those of the bytes they give, but for the last one. -/
theorem decodeGroups_ok {s : Bytes} (h : A.decodeGroups k s = .ok bin) (hk : k ≤ 2)
    (hsize : (s.length + k) % 4 = 0) : A.Spells s bin ∧ k = fillCount bin.length ∧
      ∀ c ∈ s, c ∈ A.data := by
  induction s using decodeGroups.induct generalizing bin with
  | case1 a b c d rest ih =>
    simp only [decodeGroups, bind_eq_ok, pure, Except.pure, Except.ok.injEq] at h
    obtain ⟨na, ha, nb, hb, nc, hc, nd, hd, bs, hrest, rfl⟩ := h
    obtain ⟨-, rfl⟩ := letter_of_getSextet ha
    obtain ⟨hnb, rfl⟩ := letter_of_getSextet hb
    obtain ⟨hnc, rfl⟩ := letter_of_getSextet hc
    obtain ⟨hnd, rfl⟩ := letter_of_getSextet hd
    simp only [List.length_cons] at hsize
    obtain ⟨⟨init, last, last', rfl, htext, hlen, hone, hwhole⟩, hcount, hmem⟩ :=
      ih hrest (by omega)
    refine ⟨⟨A.letter na :: A.letter nb :: A.letter nc :: A.letter nd :: init, last, last', rfl,
      ?_, hlen, hone, ?_⟩, ?_, ?_⟩
    · rw [text_group hnb hnc hnd rfl, htext]
      rfl
    · intro hmod
      simp only [List.length_cons] at hmod
      exact hwhole (by omega)
    · rw [hcount]
      simp only [List.length_cons, fillCount]
      omega
    · simp only [List.forall_mem_cons, letter_mem, true_and]
      exact hmem
  | case2 tail htail =>
    -- the size check leaves no sextet, two or three, with the fills that belong to them
    match tail, htail with
    | [], _ =>
      obtain rfl : k = 0 := by
        simp only [List.length_nil] at hsize
        omega
      cases h
      exact ⟨⟨[], [], [], rfl, rfl, rfl, by simp, fun _ => rfl⟩, rfl, by simp⟩
    | [a], _ =>
      simp only [List.length_cons, List.length_nil] at hsize
      omega
    | [a, b], _ =>
      obtain rfl : k = 2 := by
        simp only [List.length_cons, List.length_nil] at hsize
        omega
      simp only [decodeGroups, decodeTail, bind_eq_ok, pure, Except.pure, Except.ok.injEq] at h
      obtain ⟨na, ha, nb, hb, rfl⟩ := h
      obtain ⟨-, rfl⟩ := letter_of_getSextet ha
      obtain ⟨hnb, rfl⟩ := letter_of_getSextet hb
      obtain ⟨last, htext⟩ := @text_one A _ _ _ hnb rfl
      exact ⟨⟨[A.letter na], [A.letter nb], [last], rfl, htext, rfl, le_rfl, by simp⟩, rfl,
        by simp [letter_mem]⟩
    | [a, b, c], _ =>
      obtain rfl : k = 1 := by
        simp only [List.length_cons, List.length_nil] at hsize
        omega
      simp only [decodeGroups, decodeTail, bind_eq_ok, pure, Except.pure, Except.ok.injEq] at h
      obtain ⟨na, ha, nb, hb, nc, hc, rfl⟩ := h
      obtain ⟨-, rfl⟩ := letter_of_getSextet ha
      obtain ⟨hnb, rfl⟩ := letter_of_getSextet hb
      obtain ⟨hnc, rfl⟩ := letter_of_getSextet hc
      rw [or_sextet hnc]
      obtain ⟨last, htext⟩ := @text_two A _ _ _ _ hnb hnc rfl
      exact ⟨⟨[A.letter na, A.letter nb], [A.letter nc], [last], rfl, htext, rfl, le_rfl, by simp⟩,
        rfl, by simp [letter_mem]⟩
    | a :: b :: c :: d :: rest, htail => exact (htail a b c d rest rfl).elim

/-- What the decoder accepts is an encoding: the letters of the bytes it returns, but for clear
bits of the last one, and the fills that belong to them. -/
theorem decode_ok (h : A.decode t = .ok bin) :
    ∃ s, A.Spells s bin ∧ t = s ++ A.fills (fillCount bin.length) ∧ ∀ c ∈ s, c ∈ A.data := by
  obtain ⟨⟨s, cnt⟩, hstrip, hgroups⟩ := bind_eq_ok.mp h
  obtain ⟨n, rfl, hcnt, hle⟩ := stripFill_ok hstrip (by omega)
  simp only at hgroups
  split at hgroups
  · cases hgroups
  · rename_i hsize
    obtain ⟨hspells, hcount, hmem⟩ := decodeGroups_ok hgroups hle (by omega)
    obtain rfl : n = fillCount bin.length := by omega
    exact ⟨s, hspells, rfl, hmem⟩

theorem Spells.length_eq {s : Bytes} (h : A.Spells s bin) : s.length = (A.text bin).length := by
  obtain ⟨init, last, last', rfl, htext, hlen, -, -⟩ := h
  rw [htext, List.length_append, List.length_append, hlen]

/-- Texts of the same bytes differ in their last letter only. -/
theorem Spells.init_eq {s init : Bytes} {m : UInt8} (h : A.Spells s bin)
    (htext : A.text bin = init ++ [m]) :
    ∃ l, s = init ++ [l] := by
  obtain ⟨pre, last, last', rfl, heq, hlen, hone, -⟩ := h
  cases last with
  | nil =>
    obtain rfl := List.length_eq_zero_iff.mp hlen.symm
    exact ⟨m, heq.symm.trans htext⟩
  | cons l tl =>
    obtain rfl : tl = [] := by simpa using hone
    obtain ⟨l', rfl⟩ := List.length_eq_one_iff.mp hlen.symm
    obtain ⟨rfl, -⟩ := List.append_inj' (heq.symm.trans htext) rfl
    exact ⟨l, rfl⟩

/-- Bytes that take one fill are written without it in one way only. -/
theorem decode_pad_ok {s : Bytes} (h : A.decode (A.pad s) = .ok bin) (hfill : A.fill.length = 3)
    (hlen : bin.length % 3 = 2) : A.Spells s bin := by
  obtain ⟨t, hspells, hpad, hletters⟩ := decode_ok h
  have hcount : fillCount bin.length = 1 := by
    unfold fillCount
    omega
  have htlen : t.length % 4 = 3 := by
    rw [hspells.length_eq, text_length]
    omega
  have hfills : ∀ n, (A.fills n).length = 3 * n := by
    intro n
    simp [fills, hfill]
    omega
  have hone : A.fills 1 = A.fill := by simp [fills]
  rw [hcount, hone] at hpad
  unfold pad at hpad
  split at hpad
  · -- the loop takes off two fills and no more, so the text would keep one
    rw [fills_succ', ← List.append_assoc] at hpad
    have htext : s ++ A.fills 2 = t := List.append_cancel_right hpad
    have hmem : A.fillHead ∈ t := by
      rw [← htext, fills_succ]
      simp [fill]
    exact (A.apart (hletters _ hmem)).elim
  · rename_i hmod
    have hsize := congrArg List.length hpad
    simp only [List.length_append, hfills, hfill] at hsize
    omega
  · rw [hone] at hpad
    rwa [List.append_cancel_right hpad]
  · rename_i _ hmod _
    have hmod : s.length % 4 ≠ 2 := hmod
    have hsize := congrArg List.length hpad
    simp only [List.length_append, hfill] at hsize
    omega

/-- The decoder reads back every encoding, filled up or trimmed, and accepts nothing that is not
the encoding of what it returns, up to the bits of the last letter that no byte needs. -/
theorem base64_codec (A : Alphabet) :
    (∀ bin, A.decode (A.encode bin) = .ok bin ∧
      A.decode (A.pad (A.trim (A.encode bin))) = .ok bin) ∧
    ∀ t bin, A.decode t = .ok bin → ∃ init last last',
      t = init ++ last ++ A.fills (fillCount bin.length) ∧
      A.encode bin = init ++ last' ++ A.fills (fillCount bin.length) ∧
      last.length = last'.length ∧ last.length ≤ 1 ∧ (bin.length % 3 = 0 → last = []) ∧
      ∀ c ∈ last, c ∈ A.data := by
  refine ⟨fun bin => ⟨decode_encode A bin, decode_pad_trim A bin⟩, ?_⟩
  intro t bin h
  obtain ⟨s, ⟨init, last, last', rfl, htext, hlen, hone, hwhole⟩, rfl, hmem⟩ := decode_ok h
  refine ⟨init, last, last', rfl, ?_, hlen, hone, hwhole, ?_⟩
  · rw [encode_eq, htext]
  · exact fun c hc => hmem c (List.mem_append_right _ hc)

example : base64url.trim (base64url.encode (ascii "\x7b\"alg\":\"HS256\"\x7d")) =
    ascii "eyJhbGciOiJIUzI1NiJ9" := by decide +kernel

end Alphabet

end Gateway.Jwt

import Mathlib
import Gateway.CheckToken
import Gateway.Http
import Gateway.Library.OrderedMap

/-! The vendored picojson.h, with `PICOJSON_USE_INT64`, in the C locale. -/
namespace Gateway.Picojson

/-- `overflow` is the exception of `value(double)` for an infinite number, and `outOfFuel` does
not occur (`parse_enough_fuel`). -/
inductive ParseError where
  | syntaxError
  | overflow
  | outOfFuel
  deriving DecidableEq

def DEFAULT_MAX_DEPTHS : Nat := 100

def isWs (c : UInt8) : Bool := c == 32 || c == 9 || c == 10 || c == 13

/-- `input::skip_ws`. -/
def skipWs (s : Bytes) : Bytes := s.dropWhile isWs

/-- `input::expect`: whether the character is found, and what is left to read. -/
def expect (expected : UInt8) (s : Bytes) : Bool × Bytes :=
  match skipWs s with
  | [] => (false, [])
  | c :: t => if c = expected then (true, t) else (false, c :: t)

/-- `input::match`. -/
def matchText (pattern s : Bytes) : Except ParseError Bytes :=
  if pattern <+: s then .ok (s.drop pattern.length) else .error .syntaxError

/-- One turn of the loop of `_parse_quadhex`. -/
def quadhexDigit (hex : UInt8) : Except ParseError Nat :=
  if 48 ≤ hex ∧ hex ≤ 57 then .ok (hex.toNat - 48)
  else if 65 ≤ hex ∧ hex ≤ 70 then .ok (hex.toNat - (65 - 0xa))
  else if 97 ≤ hex ∧ hex ≤ 102 then .ok (hex.toNat - (97 - 0xa))
  else .error .syntaxError

/-- `_parse_quadhex`. -/
def parseQuadhex : Bytes → Except ParseError (Nat × Bytes)
  | a :: b :: c :: d :: t => do
    let uniCh ← quadhexDigit a
    let uniCh := uniCh * 16 + (← quadhexDigit b)
    let uniCh := uniCh * 16 + (← quadhexDigit c)
    let uniCh := uniCh * 16 + (← quadhexDigit d)
    return (uniCh, t)
  | _ => .error .syntaxError

/-- The bytes that `_parse_codepoint` pushes. -/
def pushCodepoint (uniCh : Nat) : Bytes :=
  if uniCh < 0x80 then [uniCh.toUInt8]
  else if uniCh < 0x800 then
    [(0xc0 ||| uniCh >>> 6).toUInt8, (0x80 ||| (uniCh &&& 0x3f)).toUInt8]
  else if uniCh < 0x10000 then
    [(0xe0 ||| uniCh >>> 12).toUInt8, (0x80 ||| (uniCh >>> 6 &&& 0x3f)).toUInt8,
      (0x80 ||| (uniCh &&& 0x3f)).toUInt8]
  else
    [(0xf0 ||| uniCh >>> 18).toUInt8, (0x80 ||| (uniCh >>> 12 &&& 0x3f)).toUInt8,
      (0x80 ||| (uniCh >>> 6 &&& 0x3f)).toUInt8, (0x80 ||| (uniCh &&& 0x3f)).toUInt8]

/-- `_parse_codepoint`: what is pushed, and what is left to read. -/
def parseCodepoint (s : Bytes) : Except ParseError (Bytes × Bytes) := do
  let (uniCh, t) ← parseQuadhex s
  if 0xd800 ≤ uniCh ∧ uniCh ≤ 0xdfff then
    if 0xdc00 ≤ uniCh then .error .syntaxError
    else
      match t with
      | 92 :: 117 :: t => do
        let (second, t) ← parseQuadhex t
        if 0xdc00 ≤ second ∧ second ≤ 0xdfff then
          let uniCh := (uniCh - 0xd800) <<< 10 ||| (second - 0xdc00) &&& 0x3ff
          return (pushCodepoint (uniCh + 0x10000), t)
        else .error .syntaxError
      | _ => .error .syntaxError
  else return (pushCodepoint uniCh, t)

/-- The characters that one backslash makes one. -/
def shortEscape (ch : UInt8) : Option UInt8 :=
  if ch = 34 ∨ ch = 92 ∨ ch = 47 then some ch
  else if ch = 98 then some 8
  else if ch = 102 then some 12
  else if ch = 110 then some 10
  else if ch = 114 then some 13
  else if ch = 116 then some 9
  else none

/-- The loop of `_parse_string`. -/
def stringLoop : Nat → Bytes → Bytes → Except ParseError (Bytes × Bytes)
  | 0, _, _ => .error .outOfFuel
  | _ + 1, _, [] => .error .syntaxError
  | fuel + 1, out, ch :: t =>
    if ch < 32 then .error .syntaxError
    else if ch = 34 then .ok (out, t)
    else if ch = 92 then
      match t with
      | [] => .error .syntaxError
      | ch :: t =>
        match shortEscape ch with
        | some val => stringLoop fuel (out ++ [val]) t
        | none =>
          if ch = 117 then do
            let (pushed, t) ← parseCodepoint t
            stringLoop fuel (out ++ pushed) t
          else .error .syntaxError
    else stringLoop fuel (out ++ [ch]) t

/-- `_parse_string`, from behind the opening quote. -/
def parseString (s : Bytes) : Except ParseError (Bytes × Bytes) := stringLoop (s.length + 1) [] s

/-- The characters that `_parse_number` collects: digits, signs, `e`, `E` and the point. -/
def isNumberChar (ch : UInt8) : Bool :=
  isDigit ch || ch == 43 || ch == 45 || ch == 101 || ch == 69 || ch == 46

/-- `strtoimax` where it takes the whole text and does not overflow. -/
def wholeInt64 (numStr : Bytes) : Option Int :=
  let (neg, t) := readSign numStr
  let n : Int := if neg then -(decimal t : Int) else decimal t
  if t ≠ [] ∧ t.all isDigit ∧ -2 ^ 63 ≤ n ∧ n < 2 ^ 63 then some n else none

/-- The number `mantissa * 10 ^ exponent`, but for its sign. -/
structure Decimal where
  mantissa : Nat
  exponent : Int

/-- What `strtod` reads where it takes the whole text, which has no other characters than those
of `isNumberChar`. -/
def wholeDecimal (numStr : Bytes) : Option Decimal :=
  let t := (readSign numStr).2
  let whole := t.takeWhile isDigit
  let t := t.dropWhile isDigit
  let (frac, t) := match t with
    | 46 :: t => (t.takeWhile isDigit, t.dropWhile isDigit)
    | t => ([], t)
  if whole = [] ∧ frac = [] then none
  else
    match t with
    | [] => some ⟨decimal (whole ++ frac), -frac.length⟩
    | e :: t =>
      let (neg, digits) := readSign t
      let n : Int := if neg then -(decimal digits : Int) else decimal digits
      if (e = 101 ∨ e = 69) ∧ digits ≠ [] ∧ digits.all isDigit then
        some ⟨decimal (whole ++ frac), n - frac.length⟩
      else none

/-- Rounded to a double the number is infinite. -/
def Decimal.isInf (x : Decimal) : Bool :=
  (2 ^ 1024 - 2 ^ 970) * 10 ^ (-x.exponent).toNat ≤ x.mantissa * 10 ^ x.exponent.toNat

/-- `set_int64` or `set_number` for the collected text. -/
def numberValue (numStr : Bytes) : Except ParseError Json :=
  match wholeInt64 numStr with
  | some n => .ok (.int64 n)
  | none =>
    match wholeDecimal numStr with
    | some x => if x.isInf then .error .overflow else .ok .number
    | none => .error .syntaxError

/-- `o[key] = value` in a `std::map`, which keeps its keys in order. -/
def setMember (key : Bytes) (value : Json) (members : List (Bytes × Json)) : List (Bytes × Json) :=
  OrderedMap.set compare key value members

mutual

/-- `_parse` with a `default_parse_context` of `depths`. An array hands one depth less to its
items; an object hands its own to its members. -/
def parseValue : Nat → Nat → Bytes → Except ParseError (Json × Bytes)
  | 0, _, _ => .error .outOfFuel
  | fuel + 1, depths, s =>
    match skipWs s with
    | [] => .error .syntaxError
    | ch :: t =>
      if ch = 110 then return (.null, ← matchText (ascii "ull") t)
      else if ch = 102 then return (.boolean false, ← matchText (ascii "alse") t)
      else if ch = 116 then return (.boolean true, ← matchText (ascii "rue") t)
      else if ch = 34 then do
        let (str, t) ← parseString t
        return (.string str, t)
      else if ch = 91 then
        match depths with
        | 0 => .error .syntaxError
        | depths + 1 => do
          let (stop, t) := expect 93 t
          if stop then return (.array [], t)
          let (items, t) ← parseItems fuel depths [] t
          return (.array items, t)
      else if ch = 123 then
        if depths = 0 then .error .syntaxError
        else do
          let (stop, t) := expect 125 t
          if stop then return (.object [], t)
          let (members, t) ← parseMembers fuel depths [] t
          return (.object members, t)
      else if isDigit ch || ch == 45 then do
        let v ← numberValue ((ch :: t).takeWhile isNumberChar)
        return (v, (ch :: t).dropWhile isNumberChar)
      else .error .syntaxError

/-- The loop of `_parse_array`, to which `items` were pushed. -/
def parseItems : Nat → Nat → List Json → Bytes → Except ParseError (List Json × Bytes)
  | 0, _, _, _ => .error .outOfFuel
  | fuel + 1, depths, items, s => do
    let (v, t) ← parseValue fuel depths s
    let (more, t) := expect 44 t
    if more then parseItems fuel depths (items ++ [v]) t
    else
      let (stop, t) := expect 93 t
      if stop then return (items ++ [v], t) else .error .syntaxError

/-- The loop of `_parse_object`, to which `members` were set. -/
def parseMembers : Nat → Nat → List (Bytes × Json) → Bytes →
    Except ParseError (List (Bytes × Json) × Bytes)
  | 0, _, _, _ => .error .outOfFuel
  | fuel + 1, depths, members, s => do
    let (quote, t) := expect 34 s
    if !quote then .error .syntaxError
    let (key, t) ← parseString t
    let (colon, t) := expect 58 t
    if !colon then .error .syntaxError
    let (v, t) ← parseValue fuel depths t
    let members := setMember key v members
    let (more, t) := expect 44 t
    if more then parseMembers fuel depths members t
    else
      let (stop, t) := expect 125 t
      if stop then return (members, t) else .error .syntaxError

end

/-- `picojson::parse`, which leaves alone what follows the value. -/
def parse (s : Bytes) : Except ParseError Json := do
  let (v, _) ← parseValue (2 * s.length + 1) DEFAULT_MAX_DEPTHS s
  return v

/-- `serialize_str_char`; the last escape is `snprintf("\\u%04x")`. -/
def serializeStrChar (c : UInt8) : Bytes :=
  if c = 34 then ascii "\\\""
  else if c = 92 then ascii "\\\\"
  else if c = 47 then ascii "\\/"
  else if c = 8 then ascii "\\b"
  else if c = 12 then ascii "\\f"
  else if c = 10 then ascii "\\n"
  else if c = 13 then ascii "\\r"
  else if c = 9 then ascii "\\t"
  else if c < 0x20 ∨ c = 0x7f then ascii "\\u00" ++ [hexDigit (c / 16), hexDigit (c % 16)]
  else [c]

def serializeStr (s : Bytes) : Bytes := 34 :: (s.flatMap serializeStrChar ++ [34])

/-- `PRId64`. -/
def int64Text (n : Int) : Bytes :=
  if n < 0 then 45 :: toDecimal n.natAbs else toDecimal n.natAbs

mutual

/-- `serialize` without `prettify`. A double is not kept in the model, and a value that holds one
has no text here. -/
def serialize : Json → Option Bytes
  | .null => some (ascii "null")
  | .boolean b => some (if b then ascii "true" else ascii "false")
  | .int64 n => some (int64Text n)
  | .number => none
  | .string s => some (serializeStr s)
  | .array items => do return 91 :: ((← serializeItems items) ++ [93])
  | .object members => do return 123 :: ((← serializeMembers members) ++ [125])

/-- The items of an array with the commas between them. -/
def serializeItems : List Json → Option Bytes
  | [] => some []
  | [v] => serialize v
  | v :: items => do return (← serialize v) ++ 44 :: (← serializeItems items)

/-- The members of an object with the commas between them. -/
def serializeMembers : List (Bytes × Json) → Option Bytes
  | [] => some []
  | [(key, v)] => do return serializeStr key ++ 58 :: (← serialize v)
  | (key, v) :: members => do
    return serializeStr key ++ 58 :: ((← serialize v) ++ 44 :: (← serializeMembers members))

end

end Gateway.Picojson

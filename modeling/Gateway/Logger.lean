import Mathlib
import Gateway.Text
import Gateway.Library.Search

/-! The lines that the gateway logs (Logger.h), and how they are read back. -/
namespace Gateway

open Search

inductive LogLevel where
  | Debug
  | Info
  | Warn
  | Error
  deriving DecidableEq

/-- The value of the enumerator. -/
def LogLevel.value : LogLevel → Nat
  | .Debug => 0
  | .Info => 1
  | .Warn => 2
  | .Error => 3

/-- The level that `setLogLevel` stores. -/
def setLogLevel (name : Bytes) : LogLevel :=
  if name = ascii "debug" then .Debug
  else if name = ascii "warn" ∨ name = ascii "warning" then .Warn
  else if name = ascii "error" then .Error
  else .Info

def levelName : LogLevel → Bytes
  | .Debug => ascii "DEBUG"
  | .Warn => ascii "WARN"
  | .Error => ascii "ERROR"
  | .Info => ascii "INFO"

/-- The arguments of a call of `gwLog`, without the connection. -/
structure Note where
  level : LogLevel
  msg : Bytes
  deriving DecidableEq

/-- A call of `gwLog`, with the time as `put_time` writes it. -/
structure LogCall where
  stamp : Bytes
  connId : Int
  note : Note
  deriving DecidableEq

/-- The guard of `gwLog`. -/
def Note.shown (globalLogLevel : LogLevel) (n : Note) : Bool :=
  !decide (n.level.value < globalLogLevel.value)

/-- The line without its end. -/
def LogCall.line (c : LogCall) : Bytes :=
  if 0 ≤ c.connId then
    ascii "[" ++ c.stamp ++ ascii "][" ++ levelName c.note.level ++ ascii "][conn=" ++
      toDecimal c.connId.toNat ++ ascii "] " ++ c.note.msg
  else
    ascii "[" ++ c.stamp ++ ascii "][" ++ levelName c.note.level ++ ascii "] " ++ c.note.msg

/-- What one call writes to the standard output while it holds the mutex. -/
def gwLog (globalLogLevel : LogLevel) (c : LogCall) : Bytes :=
  if c.note.shown globalLogLevel then c.line ++ [LF] else []

/-- What all calls write, in the order in which they take the mutex. -/
def logText (globalLogLevel : LogLevel) (calls : List LogCall) : Bytes :=
  calls.flatMap (gwLog globalLogLevel)

/-- The level of a name. -/
def levelOf (name : Bytes) : Option LogLevel :=
  [LogLevel.Debug, .Info, .Warn, .Error].find? fun l => levelName l = name

/-- A field in square brackets, and what follows it. -/
def bracketed : Bytes → Option (Bytes × Bytes)
  | 91 :: rest => cut [93] rest
  | _ => none

/-- What follows a blank. -/
def spaced : Bytes → Option Bytes
  | 32 :: msg => some msg
  | _ => none

/-- Reads a line back; a line that names no connection has -1. -/
def readLogLine (line : Bytes) : Option LogCall := do
  let (stamp, rest) ← bracketed line
  let (name, rest) ← bracketed rest
  let level ← levelOf name
  match bracketed rest with
  | some (conn, rest) => return ⟨stamp, decimal (conn.drop 5), ⟨level, ← spaced rest⟩⟩
  | none => return ⟨stamp, -1, ⟨level, ← spaced rest⟩⟩

def readLog (text : Bytes) : List (Option LogCall) :=
  (splitOn [LF] text).dropLast.map readLogLine

/-- A call whose line can be read: the time holds no bracket and no line break, as none that
`put_time` writes does, and the message holds no line break. -/
structure LogCall.Readable (c : LogCall) : Prop where
  conn : -1 ≤ c.connId
  bracket : 93 ∉ c.stamp
  stamp : LF ∉ c.stamp
  msg : LF ∉ c.note.msg

variable {c : LogCall} {s t : Bytes} {calls : List LogCall} {globalLogLevel : LogLevel}

@[simp] theorem levelOf_levelName (l : LogLevel) : levelOf (levelName l) = some l := by
  cases l <;> decide +kernel

theorem levelName_plain (l : LogLevel) : 93 ∉ levelName l ∧ LF ∉ levelName l := by
  cases l <;> decide

@[simp] theorem bracketed_append (h : 93 ∉ s) : bracketed (91 :: (s ++ 93 :: t)) = some (s, t) :=
  cut_singleton.mpr ⟨rfl, h⟩

theorem not_mem_toDecimal {n : Nat} {b : UInt8} (hb : isDigit b = false) : b ∉ toDecimal n := by
  intro hmem
  rw [digit_of_mem_toDecimal hmem] at hb
  cases hb

@[simp] theorem bracketed_blank : bracketed (32 :: t) = none := rfl

@[simp] theorem spaced_blank : spaced (32 :: t) = some t := rfl

theorem readLogLine_line (h : c.Readable) : readLogLine c.line = some c := by
  obtain ⟨stamp, connId, level, msg⟩ := c
  obtain ⟨hconn, hbracket, -, -⟩ := h
  have hopen : ascii "[" = [91] := by decide
  have hbetween : ascii "][" = [93, 91] := by decide
  have hname := (levelName_plain level).1
  rcases Int.lt_or_le connId 0 with hneg | hpos
  · have hclose : ascii "] " = [93, 32] := by decide
    obtain rfl : connId = -1 := by
      dsimp only at hconn
      omega
    simp [LogCall.line, readLogLine, hopen, hbetween, hclose, hbracket, hname]
  · obtain ⟨n, rfl⟩ := Int.eq_ofNat_of_zero_le hpos
    have hconnect : ascii "][conn=" = [93, 91] ++ ascii "conn=" := by decide
    have hclose : ascii "] " = [93, 32] := by decide
    have hfield : 93 ∉ ascii "conn=" ++ toDecimal n := by
      simp only [List.mem_append, not_or]
      exact ⟨by decide, not_mem_toDecimal (by decide)⟩
    have hdrop : (ascii "conn=" ++ toDecimal n).drop 5 = toDecimal n :=
      @List.drop_left _ (ascii "conn=") _
    have hread := bracketed_append (s := ascii "conn=" ++ toDecimal n) (t := 32 :: msg) hfield
    rw [List.append_assoc] at hread
    simp [LogCall.line, readLogLine, hopen, hbetween, hconnect, hclose, hbracket, hname, hread,
      hdrop, decimal_toDecimal]

/-- Lines that end where they are written to end come back from the text. -/
theorem splitOn_lines {ls : List Bytes} (h : ∀ l ∈ ls, LF ∉ l) :
    splitOn [LF] (ls.flatMap (· ++ [LF])) = ls ++ [[]] := by
  induction ls with
  | nil => exact splitOn_of_not_infix (by simp)
  | cons l ls ih =>
    obtain ⟨hl, hls⟩ := List.forall_mem_cons.mp h
    have hplain : ¬ [LF] <:+: l := by simpa [singleton_infix_iff] using hl
    rw [List.flatMap_cons, splitOn_block List.not_mem_nil hplain, ih hls, List.cons_append]

theorem line_unbroken (h : c.Readable) : LF ∉ c.line := by
  have hname := (levelName_plain c.note.level).2
  have hconn : LF ∉ toDecimal c.connId.toNat := not_mem_toDecimal (by decide)
  have hopen : LF ∉ ascii "[" ∧ LF ∉ ascii "][" ∧ LF ∉ ascii "][conn=" ∧ LF ∉ ascii "] " := by
    decide
  obtain ⟨h₁, h₂, h₃, h₄⟩ := hopen
  rw [LogCall.line]
  split <;> simp [h.stamp, h.msg, hname, hconn, h₁, h₂, h₃, h₄]

theorem logText_eq : logText globalLogLevel calls =
    ((calls.filter fun c => c.note.shown globalLogLevel).map LogCall.line).flatMap (· ++ [LF]) := by
  induction calls with
  | nil => rfl
  | cons c calls ih =>
    rw [logText, List.flatMap_cons, ← logText, ih, gwLog]
    split <;> simp_all

/-- Every line of the log is one call, and every call that is shown is one line. -/
theorem readLog_logText (h : ∀ c ∈ calls, c.note.shown globalLogLevel = true → c.Readable) :
    readLog (logText globalLogLevel calls) =
      (calls.filter fun c => c.note.shown globalLogLevel).map some := by
  have hreadable : ∀ c ∈ calls.filter fun c => c.note.shown globalLogLevel, c.Readable := by
    intro c hc
    obtain ⟨hmem, hshown⟩ := List.mem_filter.mp hc
    exact h c hmem hshown
  have hlines : ∀ l ∈ (calls.filter fun c => c.note.shown globalLogLevel).map LogCall.line,
      LF ∉ l := by
    rintro l hl
    obtain ⟨c, hc, rfl⟩ := List.mem_map.mp hl
    exact line_unbroken (hreadable c hc)
  rw [readLog, logText_eq, splitOn_lines hlines, List.dropLast_concat, List.map_map]
  exact List.map_congr_left fun c hc => readLogLine_line (hreadable c hc)

end Gateway

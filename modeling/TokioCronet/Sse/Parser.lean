import Mathlib.Algebra.Group.Nat.Defs
import TokioCronet.Lib.Scan

/-!
# The event-stream parser

`SseParser` of `sse.rs`: a buffer of bytes that have not made a line yet, and the
fields of the event whose lines are being read. A Rust string is its UTF-8 bytes,
so every string here is a list of bytes.
-/

namespace TokioCronet.Sse

/-- A Rust `String` or `str`: its UTF-8 bytes. -/
abbrev Str := List UInt8

/-- The bytes of a literal. -/
def str (literal : String) : Str := literal.toUTF8.data.toList

/-- `'\n'` -/
def lf : UInt8 := 10

/-- `'\r'` -/
def cr : UInt8 := 13

/-- `':'` -/
def colon : UInt8 := 58

/-- `[0xEF, 0xBB, 0xBF]` -/
def bom : List UInt8 := [0xEF, 0xBB, 0xBF]

/-- One dispatched event. -/
structure SseEvent where
  id : Option Str
  event : Str
  data : Str
  deriving DecidableEq

/-- Incremental `text/event-stream` parser. A duration is its milliseconds. -/
structure SseParser where
  buffer : List UInt8 := []
  event : Str := []
  data : List Str := []
  id : Option Str := none
  retry : Option Nat := none
  lastId : Option Str := none
  deriving DecidableEq

/-- `ParseOutput` -/
inductive ParseOutput where
  | event (event : SseEvent)
  | retry (retry : Nat)
  deriving DecidableEq

/-! ## Lines and fields -/

/-- `find_line_end` -/
def findLineEnd (buffer : List UInt8) : Option Nat :=
  (buffer.findIdx? fun byte => byte == lf || byte == cr).map fun index =>
    if buffer[index]? = some cr ∧ buffer[index + 1]? = some lf then index + 2 else index + 1

/-- `trim_line_ending` -/
def trimLineEnding (line : List UInt8) : List UInt8 :=
  match line.reverse with
  | 10 :: 13 :: rest => rest.reverse
  | 10 :: rest => rest.reverse
  | 13 :: rest => rest.reverse
  | _ => line

/-- A UTF-8 continuation byte. -/
def continues (byte : UInt8) : Bool := 0x80 ≤ byte && byte ≤ 0xBF

/-- Whether `std::str::from_utf8` accepts the bytes: the well-formed sequences of
the Unicode standard, by their first byte. -/
def validUtf8 : List UInt8 → Bool
  | [] => true
  | a :: rest =>
    if a < 0x80 then validUtf8 rest
    else if 0xC2 ≤ a && a ≤ 0xDF then
      match rest with
      | b :: rest => continues b && validUtf8 rest
      | [] => false
    else if 0xE0 ≤ a && a ≤ 0xEF then
      match rest with
      | b :: c :: rest =>
        -- no overlong form, no surrogate
        (if a = 0xE0 then 0xA0 ≤ b && b ≤ 0xBF
          else if a = 0xED then 0x80 ≤ b && b ≤ 0x9F else continues b) &&
          continues c && validUtf8 rest
      | _ => false
    else if 0xF0 ≤ a && a ≤ 0xF4 then
      match rest with
      | b :: c :: d :: rest =>
        -- no overlong form, nothing above U+10FFFF
        (if a = 0xF0 then 0x90 ≤ b && b ≤ 0xBF
          else if a = 0xF4 then 0x80 ≤ b && b ≤ 0x8F else continues b) &&
          continues c && continues d && validUtf8 rest
      | _ => false
    else false

/-- `str::split_once(':')` -/
def splitOnce (text : Str) : Option (Str × Str) :=
  (text.findIdx? (· == colon)).map fun index => (text.take index, text.drop (index + 1))

/-- `value.strip_prefix(' ').unwrap_or(value)` -/
def stripSpace (value : Str) : Str :=
  match value with
  | 32 :: rest => rest
  | _ => value

/-- `split_field` -/
def splitField (line : List UInt8) : Str × Str :=
  let text := if validUtf8 line then line else []
  match splitOnce text with
  | some (field, value) => (field, stripSpace value)
  | none => (text, [])

/-- One decimal digit of `str::parse::<u64>`, which fails on overflow. -/
def parseDigit (value : Nat) (byte : UInt8) : Option Nat :=
  if 48 ≤ byte && byte ≤ 57 then
    let next := value * 10 + (byte.toNat - 48)
    if next < 2 ^ 64 then some next else none
  else none

/-- `str::parse::<u64>`: an optional plus sign and at least one digit. -/
def parseU64 (value : Str) : Option Nat :=
  let digits := match value with
    | 43 :: rest => rest
    | _ => value
  if digits = [] then none else digits.foldlM parseDigit 0

/-- `[String]::join("\n")` -/
def joinLines : List Str → Str
  | [] => []
  | [value] => value
  | value :: rest => value ++ lf :: joinLines rest

/-! ## The parser -/

namespace SseParser

/-- `dispatch` -/
def dispatch (p : SseParser) : Option ParseOutput × SseParser :=
  if p.data = [] then
    (none, { p with event := [], id := none })
  else
    let event := if p.event = [] then str "message" else p.event
    let lastId := match p.id with
      | some id => some id
      | none => p.lastId
    (some (.event { id := p.id, event := event, data := joinLines p.data }),
      { p with event := [], data := [], id := none, lastId := lastId })

/-- `push_line` -/
def pushLine (p : SseParser) (line : List UInt8) : Option ParseOutput × SseParser :=
  if line = [] then p.dispatch
  else if line.head? = some colon then (none, p)
  else
    let (field, value) := splitField line
    if field = str "event" then (none, { p with event := value })
    else if field = str "data" then (none, { p with data := p.data ++ [value] })
    else if field = str "id" ∧ ¬ value.contains 0 then (none, { p with id := some value })
    else if field = str "retry" then
      match parseU64 value with
      | some millis => (some (.retry millis), { p with retry := some millis })
      | none => (none, p)
    else (none, p)

/-- The loop of `push`, at most `n` times round. -/
def pushLines : Nat → SseParser → List ParseOutput × SseParser
  | 0, p => ([], p)
  | n + 1, p =>
    match findLineEnd p.buffer with
    | none => ([], p)
    | some stop =>
      let line := trimLineEnding (p.buffer.take stop)
      let (item, p) := { p with buffer := p.buffer.drop stop }.pushLine line
      let (output, p) := pushLines n p
      (item.toList ++ output, p)

/-- `buffer.starts_with(&[0xEF, 0xBB, 0xBF])`, then `buffer.drain(..3)` -/
def stripBom (buffer : List UInt8) : List UInt8 :=
  if bom.isPrefixOf buffer then buffer.drop 3 else buffer

/-- Every round of the loop takes a byte, so the buffer's length bounds them. -/
def push (p : SseParser) (chunk : List UInt8) : List ParseOutput × SseParser :=
  let buffer := stripBom (p.buffer ++ chunk)
  pushLines buffer.length { p with buffer := buffer }

/-- Push the chunks one after another. -/
def feed (p : SseParser) : List (List UInt8) → List ParseOutput × SseParser
  | [] => ([], p)
  | chunk :: chunks =>
    let (output, p) := p.push chunk
    let (outputs, p) := p.feed chunks
    (output ++ outputs, p)

end SseParser

end TokioCronet.Sse

import MgRobot.Lib.CodeUnits
import MgRobot.Lib.OrderedMap
import MgRobot.Lib.PlainValue
import MgRobot.Lib.Regex
import MgRobot.Sequencer.Fsm
import Mathlib.Data.List.DropRight

/-!
# The event log format

The lines `evt=<domain>.<event> key=value …`: `FormatEvent` of `event_format.hpp`
on the bytes of its strings, `format_event` and `parse_event` of `event_log.py` on
characters, and `parseEvent` of `logfmt.ts` on UTF-16 units. What the languages
share is written once for any code units.
-/

namespace MgRobot.EventLog

set_option autoImplicit false

open MgRobot.Lib CodeUnit

section

variable {α : Type} [CodeUnit α] [DecidableEq α]

def backslash : α := unit (Char.ofNat 92)

def quoteMark : α := unit (Char.ofNat 34)

/-- The rules of the `switch` in `QuoteIfNeeded` and of the table `_ESCAPES`. -/
def escape (c : α) : List α :=
  if c = backslash then [backslash, backslash]
  else if c = quoteMark then [backslash, quoteMark]
  else if c = unit (Char.ofNat 10) then [backslash, unit 'n']
  else if c = unit (Char.ofNat 13) then [backslash, unit 'r']
  else if c = unit (Char.ofNat 9) then [backslash, unit 't']
  else [c]

/-- A value, quoted if it is empty or contains what needs quotes. -/
def quote (needsQuote : α → Bool) (text : List α) : List α :=
  if text.isEmpty || text.any needsQuote then
    [quoteMark] ++ text.flatMap escape ++ [quoteMark]
  else text

/-- The table `_UNESCAPES`; what is not in it stands for itself. -/
def unescape (c : α) : α :=
  if c = unit 'n' then unit (Char.ofNat 10)
  else if c = unit 'r' then unit (Char.ofNat 13)
  else if c = unit 't' then unit (Char.ofNat 9)
  else c

/-- `_unquote`. -/
def unquote : List α → List α
  | [] => []
  | [c] => [c]
  | c :: d :: body =>
      if c = backslash then unescape d :: unquote body else c :: unquote (d :: body)

def isLower (c : α) : Bool := 'a'.toNat ≤ code c && code c ≤ 'z'.toNat

def isUpper (c : α) : Bool := 'A'.toNat ≤ code c && code c ≤ 'Z'.toNat

def isDigit (c : α) : Bool := '0'.toNat ≤ code c && code c ≤ '9'.toNat

def isUnderscore (c : α) : Bool := code c = '_'.toNat

/-- `IsIdentifier`. -/
def isIdentifier : List α → Bool
  | [] => false
  | c :: text => isLower c && (c :: text).all fun c => isLower c || isDigit c || isUnderscore c

/-- `IsEventName`; the first dot separates domain and event. -/
def isEventName (name : List α) : Bool :=
  match name.dropWhile (fun c => c ≠ unit '.') with
  | [] => false
  | _ :: event => isIdentifier (name.takeWhile fun c => c ≠ unit '.') && isIdentifier event

/-- The classes of a language's regular expressions: `\s`, and what `.` does not match. -/
structure Classes (α : Type) where
  space : α → Bool
  lineEnd : α → Bool

/-- `([A-Za-z_][A-Za-z0-9_]*)=("(?:[^"\\]|\\.)*"|\S*)`. -/
def pairRe (K : Classes α) : Regex α :=
  .seq (.group (.seq (.cls fun c => isUpper c || isLower c || isUnderscore c)
      (.star (.cls fun c => isUpper c || isLower c || isDigit c || isUnderscore c))))
    (.seq (.char (unit '='))
      (.group (.alt
        (.seq (.char quoteMark)
          (.seq (.star (.alt (.cls fun c => c ≠ quoteMark && c ≠ backslash)
              (.seq (.char backslash) (.cls fun c => !K.lineEnd c))))
            (.char quoteMark)))
        (.star (.cls fun c => !K.space c)))))

/-- The value that stands for the raw text of a pair. -/
def readValue (raw : List α) : List α :=
  if raw.head? = some quoteMark then unquote (raw.drop 1).dropLast else raw

/-- The pairs of a message, in order. -/
def readPairs (K : Classes α) (message : List α) : List (List α × List α) :=
  ((pairRe K).finditer message).filterMap fun m =>
    match m.groups with
    | [key, raw] => some (key, readValue raw)
    | _ => none

end

/-! ## `event_format.hpp` -/

namespace Cpp

/-- The characters that `QuoteIfNeeded` looks for. -/
def needsQuote {α : Type} [CodeUnit α] (c : α) : Bool :=
  code c ∈ [32, 9, 10, 13, 11, 12, 34, 61, 92]

def quoteIfNeeded (text : List UInt8) : List UInt8 := quote needsQuote text

structure EventField where
  key : List UInt8
  value : List UInt8
  deriving DecidableEq, Repr

def EventField.ofString (k v : List UInt8) : EventField := ⟨k, quoteIfNeeded v⟩

def EventField.ofBool (k : List UInt8) (v : Bool) : EventField :=
  ⟨k, if v then lit "true" else lit "false"⟩

def EventField.ofInt (k : List UInt8) (v : Int) : EventField := ⟨k, lit (toString v)⟩

/-- The loop of `FormatEvent`; an error is the text of its `std::invalid_argument`. -/
def appendFields (out : List UInt8) : List EventField → Except (List UInt8) (List UInt8)
  | [] => .ok out
  | field :: fields =>
      if !isIdentifier field.key || field.key = lit "evt" then
        .error (lit "invalid event key: " ++ field.key)
      else appendFields (out ++ lit " " ++ field.key ++ lit "=" ++ field.value) fields

def formatEvent (name : List UInt8) (fields : List EventField) :
    Except (List UInt8) (List UInt8) :=
  if !isEventName name then .error (lit "event name must be <domain>.<event>: " ++ name)
  else appendFields (lit "evt=" ++ name) fields

end Cpp

/-! ## `event_log.py` -/

namespace Py

/-- `\s`. -/
def isSpace {α : Type} [CodeUnit α] (c : α) : Bool :=
  (9 ≤ code c && code c ≤ 13) || (28 ≤ code c && code c ≤ 32) || code c = 0x85 || code c = 0xA0 ||
    code c = 0x1680 || (0x2000 ≤ code c && code c ≤ 0x200A) || code c = 0x2028 ||
    code c = 0x2029 || code c = 0x202F || code c = 0x205F || code c = 0x3000

def classes : Classes Char := ⟨isSpace, fun c => c.toNat = 10⟩

/-- `re.match` of an expression that ends in `$`. -/
def matchesLine (r : Regex Char) (s : List Char) : Bool :=
  (r.tries s).any fun m => m.rest = [] || m.rest = [Char.ofNat 10]

/-- `_KEY_RE` without its anchors. -/
def keyRe : Regex Char :=
  .seq (.cls isLower) (.star (.cls fun c => isLower c || isDigit c || isUnderscore c))

/-- `_NAME_RE` without its anchors. -/
def nameRe : Regex Char := .seq keyRe (.seq (.char '.') keyRe)

/-- `_NEEDS_QUOTE_RE`. -/
def needsQuote (c : Char) : Bool := isSpace c || c.toNat ∈ [34, 61, 92]

/-- What a field holds; a number that is not an `int` is given by its text. -/
inductive Value where
  | none
  | bool (b : Bool)
  | int (n : Int)
  | float (text : List Char)  -- `format(value, '.6g')`
  | str (s : List Char)
  deriving DecidableEq, Repr

/-- What `str` and the two other formats give. -/
def Value.text : Value → List Char
  | .none => "None".toList
  | .bool b => if b then "true".toList else "false".toList
  | .int n => (toString n).toList
  | .float text => text
  | .str s => s

/-- `str` goes through: an integer with too many digits raises `ValueError`. -/
def Value.printable : Value → Bool
  | .int n => decide (n.natAbs < 10 ^ Yaml.Scalar.INT_MAX_STR_DIGITS)
  | _ => true

def strError : String := "Exceeds the limit (4300) for integer string conversion"

def formatValue (value : Value) : Except String (List Char) :=
  if value.printable then .ok (quote needsQuote value.text) else .error strError

/-- `key.rstrip('_')`. -/
def rstripUnderscores (key : List Char) : List Char := key.rdropWhile fun c => c = '_'

/-- The text of a `ValueError`. -/
def nameError (isPrintable : Char → Bool) (name : List Char) : String :=
  "イベント名は <domain>.<event> の形にする: " ++
    Sequencer.pyRepr isPrintable (String.ofList name)

def keyError (isPrintable : Char → Bool) (key : List Char) : String :=
  "イベントのキーは小文字・数字・_ だけにする: " ++
    Sequencer.pyRepr isPrintable (String.ofList key)

def reservedKeyError (isPrintable : Char → Bool) : String :=
  "イベントのキーに " ++ Sequencer.pyRepr isPrintable "evt" ++ " は使えない"

/-- The loop of `format_event`. -/
def formatParts (isPrintable : Char → Bool) (parts : List (List Char)) :
    List (List Char × Value) → Except String (List (List Char))
  | [] => .ok parts
  | (key, value) :: fields =>
      let key := rstripUnderscores key
      if !matchesLine keyRe key then .error (keyError isPrintable key)
      else if key = "evt".toList then .error (reservedKeyError isPrintable)
      else if value = .none then formatParts isPrintable parts fields
      else match formatValue value with
        | .ok text => formatParts isPrintable (parts ++ [key ++ ['='] ++ text]) fields
        | .error e => .error e

def formatEvent (isPrintable : Char → Bool) (name : List Char)
    (fields : List (List Char × Value)) : Except String (List Char) :=
  if !matchesLine nameRe name then .error (nameError isPrintable name)
  else
    match formatParts isPrintable ["evt=".toList ++ name] fields with
    | .ok parts => .ok ([' '].intercalate parts)
    | .error e => .error e

/-- `parse_event`. The pop finds its key, because the first pair of the message is `evt=…`. -/
def parseEvent (message : List Char) :
    Option (List Char × OrderedMap (List Char) (List Char)) :=
  if "evt=".toList.isPrefixOf message then
    let fields := (readPairs classes message).foldl (fun m e => m.set e.1 e.2) OrderedMap.empty
    (fields.get? "evt".toList).map fun name => (name, fields.erase "evt".toList)
  else none

end Py

/-! ## `logfmt.ts` -/

namespace Js

/-- `\s`. -/
def isSpace {α : Type} [CodeUnit α] (c : α) : Bool :=
  (9 ≤ code c && code c ≤ 13) || code c = 32 || code c = 0xA0 || code c = 0xFEFF ||
    code c = 0x1680 || (0x2000 ≤ code c && code c ≤ 0x200A) || code c = 0x2028 ||
    code c = 0x2029 || code c = 0x202F || code c = 0x205F || code c = 0x3000

def classes : Classes UInt16 :=
  ⟨isSpace, fun c => code c ∈ [10, 13, 0x2028, 0x2029]⟩

structure ParsedEvent where
  name : List UInt16
  domain : List UInt16
  fields : OrderedMap (List UInt16) (List UInt16)
  deriving DecidableEq

/-- `fields[key] = value`; a string that is assigned to `__proto__` is dropped. -/
def assign (fields : OrderedMap (List UInt16) (List UInt16)) (key value : List UInt16) :
    OrderedMap (List UInt16) (List UInt16) :=
  if key = lit "__proto__" then fields else fields.set key value

def parseEvent (message : List UInt16) : Option ParsedEvent :=
  if (lit "evt=").isPrefixOf message then
    let fields := (readPairs classes message).foldl (fun m e => assign m e.1 e.2) OrderedMap.empty
    (fields.get? (lit "evt")).map fun name =>
      ⟨name, name.takeWhile (fun c => c ≠ unit '.'), fields.erase (lit "evt")⟩
  else none

end Js

end MgRobot.EventLog

import BasicSim.Core.Double
import Mathlib.Data.Char
import Mathlib.Data.List.DropRight
import Mathlib.Data.List.Lex

/-!
# `Core.ExpUtil` — string handling, literals and configuration (`model/core/exp-util.cc`)

The functions of the source in its order. A string function works on the list of bytes; a parsing
function throws what the source throws, with its text.

`std::stoll` is documented standard behaviour and is defined here (`stoll`). `std::stod` is a
parameter of everything that parses a floating-point number: a `Double` is a rational, an infinity
or NaN.
-/

namespace BasicSim

open Fallible

/-! ## Trimming, prefixes and suffixes -/

/-- The characters of `" \t\n\r\f\v"`, which are also those that `isspace` accepts. -/
def isWhitespace (c : Char) : Bool := " \t\n\r\x0c\x0b".toList.contains c

def rightTrim (s : Str) : Str := s.rdropWhile isWhitespace

def leftTrim (s : Str) : Str := s.dropWhile isWhitespace

def trim (s : Str) : Str := leftTrim (rightTrim s)

def endsWith (str suf : Str) : Bool :=
  decide (suf.length ≤ str.length) && (str.drop (str.length - suf.length) == suf)

def startsWith (str pre : Str) : Bool :=
  decide (pre.length ≤ str.length) && (str.take pre.length == pre)

def removeStartEndDoubleQuoteIfPresent (s : Str) : Str :=
  if 2 ≤ s.length ∧ startsWith s "\"".toList = true ∧ endsWith s "\"".toList = true then
    (s.drop 1).take (s.length - 2)
  else s

/-! ## Splitting -/

/-- `std::string::find`: the position of the first occurrence. -/
def find (delimiter : Str) : Str → Option Nat
  | [] => if delimiter = [] then some 0 else none
  | c :: s => if delimiter.isPrefixOf (c :: s) then some 0 else (find delimiter s).map (· + 1)

/-- The `while` loop of `split_string`; `none` when it is still running after `fuel` rounds. -/
def splitLoop (delimiter : Str) : Nat → Str → List Str → Option (List Str)
  | 0, _, _ => none
  | fuel + 1, remainder, result =>
    match find delimiter remainder with
    | none => some (result ++ [remainder])
    | some idx =>
      splitLoop delimiter fuel (remainder.drop (idx + delimiter.length))
        (result ++ [remainder.take idx])

/-- `split_string(line, delimiter)`. Every round but the last drops a delimiter from the remainder,
    so for a non-empty delimiter `line.length + 1` rounds are enough; for an empty one the loop of
    the source does not end. -/
def splitString (line delimiter : Str) : Except Exc (List Str) :=
  match splitLoop delimiter (line.length + 1) line [] with
  | some result => .ok result
  | none => .error (.undefined "split_string does not terminate")

/-- `split_string(line, delimiter, expected)`. -/
def splitStringExpected (line delimiter : Str) (expected : Nat) : Except Exc (List Str) := do
  let theSplit ← splitString line delimiter
  throwIf (theSplit.length ≠ expected) <| .invalidArgument <|
    "String " ++ String.ofList line ++ " has a " ++ String.ofList delimiter ++ "-split of "
      ++ toString theSplit.length ++ " != " ++ toString expected
  .ok theSplit

/-! ## Numbers and booleans -/

/-- Value of a string of decimal digits. -/
def digitsValue (digits : Str) : Nat :=
  digits.foldl (fun acc c => 10 * acc + (c.toNat - '0'.toNat)) 0

/-- `std::stoll` in base ten: skip white space, read an optional sign and the longest run of digits;
    the result comes with the number of characters read. -/
def stoll (s : Str) : Except Exc (Int × Nat) := do
  let body := leftTrim s
  let negative := body.head? == some '-'
  let unsigned := if negative || body.head? == some '+' then body.tail else body
  let digits := unsigned.takeWhile Char.isDigit
  throwIf (digits = []) <| .invalidArgument "stoll"
  let val : Int := if negative then -(digitsValue digits : Int) else digitsValue digits
  throwIf (¬ InInt64 val) <| .outOfRange "stoll"
  .ok (val, s.length - unsigned.length + digits.length)

def parseInt64 (str : Str) : Except Exc Int :=
  let strNoWhitespace := trim str
  match stoll strNoWhitespace with
  | .error (.invalidArgument _) =>
    .error (.invalidArgument ("Could not convert to int64: " ++ String.ofList str))
  | .error e => .error e
  | .ok (val, i) => do
    throwIf (i ≠ strNoWhitespace.length) <|
      .invalidArgument ("Could not convert to int64: " ++ String.ofList str)
    .ok val

def parsePositiveInt64 (str : Str) : Except Exc Int := do
  let val ← parseInt64 str
  throwIf (val < 0) <| .invalidArgument ("Negative int64 value not permitted: " ++ toString val)
  .ok val

def parseGeqOneInt64 (str : Str) : Except Exc Int := do
  let val ← parsePositiveInt64 str
  throwIf (val < 1) <| .invalidArgument ("Value must be >= 1: " ++ toString val)
  .ok val

section Double

-- `std::stod`: the value and the number of characters read
variable (stod : Str → Except Exc (Double × Nat))

def parseDouble (str : Str) : Except Exc Double :=
  let strNoWhitespace := trim str
  match stod strNoWhitespace with
  | .error (.invalidArgument _) =>
    .error (.invalidArgument ("Could not convert to double: " ++ String.ofList str))
  | .error e => .error e
  | .ok (val, i) => do
    throwIf (i ≠ strNoWhitespace.length) <|
      .invalidArgument ("Could not convert to double: " ++ String.ofList str)
    .ok val

/-- The text of the error does not show the value (the source prints it with `%f`). -/
def parsePositiveDouble (str : Str) : Except Exc Double := do
  let val ← parseDouble stod str
  throwIf (val.ltRat 0 = true) <| .invalidArgument "Negative double value not permitted"
  .ok val

def parseDoubleBetweenZeroAndOne (str : Str) : Except Exc Double := do
  let val ← parseDouble stod str
  throwIf ((val.ltRat 0 || val.gtRat 1) = true) <| .invalidArgument "Double value must be [0, 1]"
  .ok val

end Double

def parseBoolean (str : Str) : Except Exc Bool :=
  let strNoWhitespace := trim str
  if strNoWhitespace = "true".toList ∨ strNoWhitespace = "1".toList then .ok true
  else if strNoWhitespace = "false".toList ∨ strNoWhitespace = "0".toList then .ok false
  else .error (.invalidArgument ("Value could not be converted to bool: " ++ String.ofList str))

/-! ## Set, list and map literals -/

/-- What stands between the opening text of a literal, such as `set(`, and its closing parenthesis;
    `kind` is the word the error message uses for the literal. -/
def onlyInside (kind : String) (opening str : Str) : Except Exc Str := do
  throwIf (startsWith str opening = false ∨ endsWith str ")".toList = false) <| .invalidArgument <|
    kind ++ " " ++ String.ofList str ++ " is not encased in " ++ String.ofList opening ++ "...)"
  .ok ((str.drop opening.length).take (str.length - (opening.length + 1)))

/-- The items of a `set(...)` or `list(...)` literal, trimmed, in the order they are written. -/
def literalItems (kind : String) (opening str : Str) : Except Exc (List Str) := do
  let inside ← onlyInside kind opening str
  if trim inside = [] then .ok []
  else do
    let items ← splitString inside ",".toList
    .ok (items.map trim)

def parseSetString (str : Str) : Except Exc (OrdSet Str) := do
  let final ← literalItems "Set" "set(".toList str
  let finalSet := OrdSet.ofList final
  throwIf (final.length ≠ finalSet.size) <|
    .invalidArgument ("Set " ++ String.ofList str ++ " contains duplicates")
  .ok finalSet

def parseSetPositiveInt64 (str : Str) : Except Exc (OrdSet Int) := do
  let stringSet ← parseSetString str
  let int64Set ← stringSet.toList.foldlM
    (fun int64Set s => do let v ← parsePositiveInt64 s; .ok (int64Set.insert v)) ∅
  throwIf (stringSet.size ≠ int64Set.size) <|
    .invalidArgument ("Set " ++ String.ofList str ++ " contains int64 duplicates")
  .ok int64Set

def parseSetDirectedPairPositiveInt64 (str : Str) : Except Exc (OrdSet Int64Pair) := do
  let stringSet ← parseSetString str
  let directedPairSet ← stringSet.toList.foldlM (fun (directedPairSet : OrdSet Int64Pair) s => do
    let splitByDirectedArrow ← splitStringExpected s "->".toList 2
    let a ← parsePositiveInt64 (← vectorAt splitByDirectedArrow 0)
    let b ← parsePositiveInt64 (← vectorAt splitByDirectedArrow 1)
    throwIf (a = b) <|
      .invalidArgument ("Directed pair cannot be to itself: " ++ String.ofList s)
    .ok (directedPairSet.insert ⟨a, b⟩)) ∅
  throwIf (stringSet.size ≠ directedPairSet.size) <|
    .invalidArgument ("Direct pair set " ++ String.ofList str ++ " contains int64->int64 duplicates")
  .ok directedPairSet

def parseListString (str : Str) : Except Exc (List Str) := literalItems "List" "list(".toList str

def parseListPositiveInt64 (str : Str) : Except Exc (List Int) := do
  let stringList ← parseListString str
  stringList.mapM parsePositiveInt64

/-- One `key: value` piece of a map literal. -/
def parseMapEntry (s : Str) : Except Exc (Str × Str) := do
  let colonSplitList ← splitStringExpected s ":".toList 2
  let key := trim (← vectorAt colonSplitList 0)
  .ok (key, trim (← vectorAt colonSplitList 1))

def parseMapString (str : Str) : Except Exc (List (Str × Str)) := do
  let inside ← onlyInside "Map" "map(".toList str
  if trim inside = [] then .ok []
  else do
    let commaSplitList ← splitString inside ",".toList
    let (result, _) ← commaSplitList.foldlM (fun (result, keySet) s => do
      let entry ← parseMapEntry s
      let result := result ++ [entry]
      let keySet := OrdSet.insert keySet entry.1
      throwIf (result.length ≠ keySet.size) <|
        .invalidArgument ("Duplicate key: " ++ String.ofList entry.1)
      .ok (result, keySet)) (([] : List (Str × Str)), (∅ : OrdSet Str))
    .ok result

/-! ## Sets of integers -/

/-- Throw at the first item that is not less than the number (the message is the source's). -/
def allItemsAreLessThan (s : OrdSet Int) (number : Int) : Except Exc Unit :=
  forM s.toList fun val =>
    throwIf (number ≤ val) <|
      .invalidArgument ("Value " ++ toString val ++ " > " ++ toString number)

def directSetIntersection (s1 s2 : OrdSet Int) : OrdSet Int := s1.inter s2

def directSetUnion (s1 s2 : OrdSet Int) : OrdSet Int := s1.union s2

/-! ## Configuration files -/

/-- A configuration: `std::map<std::string, std::string>`. -/
abbrev Config := OrdMap Str Str

/-- What the file system has under a name. -/
inductive File where
  | missing
  | unreadable
  | content (text : Str)

/-- The lines `getline` yields: text after the last newline is a line if it is not empty. -/
def getlines (text : Str) : List Str := go [] text
where
  go (line : Str) : Str → List Str
    | [] => if line = [] then [] else [line.reverse]
    | c :: text => if c = '\n' then line.reverse :: go [] text else go (c :: line) text

def readConfig (filename : Str) : File → Except Exc Config
  | .missing => .error (.runtimeError ("File " ++ String.ofList filename ++ " does not exist."))
  | .unreadable =>
    .error (.runtimeError ("File " ++ String.ofList filename ++ " could not be read."))
  | .content text =>
    (getlines text).foldlM (fun (config : Config) line =>
      if trim line = [] ∨ line.head? = some '#' then .ok config
      else do
        let equalsSplit ← splitStringExpected line "=".toList 2
        let key := trim (← vectorAt equalsSplit 0)
        let value := removeStartEndDoubleQuoteIfPresent (trim (← vectorAt equalsSplit 1))
        throwIf ((config.find? key).isSome = true) <|
          .runtimeError ("Duplicate property key: " ++ String.ofList key)
        .ok (config.insert key value)) ∅

def getParamOrFail (paramKey : Str) (config : Config) : Except Exc Str :=
  match config.find? paramKey with
  | some value => .ok value
  | none =>
    .error (.invalidArgument ("Necessary parameter '" ++ String.ofList paramKey ++ "' is not set."))

def getParamOrDefault (paramKey defaultValue : Str) (config : Config) : Str :=
  (config.find? paramKey).getD defaultValue

end BasicSim

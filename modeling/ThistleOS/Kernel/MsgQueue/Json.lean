import Mathlib.Data.List.DropRight
import Mathlib.Tactic.Common

/-!
# The text of the message queue

Base64, and the few steps of JSON that the message queue takes on its own. Text is a list of
characters.
-/

namespace ThistleOS.MsgQueue

abbrev Text := List Char

/-! ### Base64 -/

def b64Chars : Text := "ABCDEFGHIJKLMNOPQRSTUVWXYZabcdefghijklmnopqrstuvwxyz0123456789+/".toList

/-- The character for six bits. -/
def b64Char (n : Nat) : Char := b64Chars.getD (n &&& 0x3F) 'A'

def base64Encode : List UInt8 → Text
  | [] => []
  | [b0] =>
    let triple := b0.toNat <<< 16
    [b64Char (triple >>> 18), b64Char (triple >>> 12), '=', '=']
  | [b0, b1] =>
    let triple := b0.toNat <<< 16 ||| b1.toNat <<< 8
    [b64Char (triple >>> 18), b64Char (triple >>> 12), b64Char (triple >>> 6), '=']
  | b0 :: b1 :: b2 :: data =>
    let triple := b0.toNat <<< 16 ||| b1.toNat <<< 8 ||| b2.toNat
    b64Char (triple >>> 18) :: b64Char (triple >>> 12) :: b64Char (triple >>> 6) ::
      b64Char triple :: base64Encode data

def base64DecodeChar (c : Char) : Option Nat :=
  if 'A' ≤ c ∧ c ≤ 'Z' then some (c.toNat - 'A'.toNat)
  else if 'a' ≤ c ∧ c ≤ 'z' then some (c.toNat - 'a'.toNat + 26)
  else if '0' ≤ c ∧ c ≤ '9' then some (c.toNat - '0'.toNat + 52)
  else if c = '+' then some 62
  else if c = '/' then some 63
  else none

/-- The bytes of characters, four at a time; what is missing at the end counts as zero. -/
def base64DecodeGroups : Text → Option (List UInt8)
  | [] => some []
  | [c0] => do
    let a ← base64DecodeChar c0
    return [UInt8.ofNat ((a <<< 18) >>> 16)]
  | [c0, c1] => do
    let a ← base64DecodeChar c0
    let b ← base64DecodeChar c1
    return [UInt8.ofNat ((a <<< 18 ||| b <<< 12) >>> 16)]
  | [c0, c1, c2] => do
    let a ← base64DecodeChar c0
    let b ← base64DecodeChar c1
    let c ← base64DecodeChar c2
    let triple := a <<< 18 ||| b <<< 12 ||| c <<< 6
    return [UInt8.ofNat (triple >>> 16), UInt8.ofNat (triple >>> 8)]
  | c0 :: c1 :: c2 :: c3 :: rest => do
    let a ← base64DecodeChar c0
    let b ← base64DecodeChar c1
    let c ← base64DecodeChar c2
    let d ← base64DecodeChar c3
    let triple := a <<< 18 ||| b <<< 12 ||| c <<< 6 ||| d
    let data ← base64DecodeGroups rest
    return UInt8.ofNat (triple >>> 16) :: UInt8.ofNat (triple >>> 8) :: UInt8.ofNat triple :: data

def base64Decode (s : Text) : Option (List UInt8) := base64DecodeGroups (s.rdropWhile (· == '='))

/-! ### JSON -/

def jsonEscape (s : Text) : Text :=
  s.flatMap fun c =>
    if c = '"' then ['\\', '"']
    else if c = '\\' then ['\\', '\\']
    else if c = '\n' then ['\\', 'n']
    else if c = '\r' then ['\\', 'r']
    else if c = '\t' then ['\\', 't']
    else [c]

/-- The White_Space characters of Unicode. -/
def isWhiteSpace (c : Char) : Bool :=
  (9 ≤ c.toNat && c.toNat ≤ 13) || c.toNat == 0x20 || c.toNat == 0x85 || c.toNat == 0xA0 ||
    c.toNat == 0x1680 || (0x2000 ≤ c.toNat && c.toNat ≤ 0x200A) || c.toNat == 0x2028 ||
    c.toNat == 0x2029 || c.toNat == 0x202F || c.toNat == 0x205F || c.toNat == 0x3000

def trimStart (s : Text) : Text := s.dropWhile isWhiteSpace

def trim (s : Text) : Text := (trimStart s).rdropWhile isWhiteSpace

/-- What follows the first place where a pattern is found. -/
def findAfter (pattern : Text) : Text → Option Text
  | [] => if pattern = [] then some [] else none
  | c :: s =>
    if pattern.isPrefixOf (c :: s) then some ((c :: s).drop pattern.length)
    else findAfter pattern s

def quoted (key : Text) : Text := '"' :: key ++ ['"']

def stripColon : Text → Option Text
  | ':' :: s => some s
  | _ => none

/-- The text of the value of a key. -/
def jsonValue (json key : Text) : Option Text := do
  let afterKey ← findAfter (quoted key) json
  let afterColon ← stripColon (trimStart afterKey)
  return trimStart afterColon

/-- The text up to the first quote that does not follow a backslash; `prev` is the character
before it. -/
def untilQuote : Option Char → Text → Option Text
  | _, [] => none
  | prev, c :: s =>
    if c = '"' ∧ prev ≠ some '\\' then some []
    else (untilQuote (some c) s).map (c :: ·)

def jsonGetString (json key : Text) : Option Text := do
  match ← jsonValue json key with
  | '"' :: value => untilQuote none value
  | _ => none

/-- The decimal numbers that an `i64` can have. -/
def parseI64 (s : Text) : Option Int :=
  let (negative, digits) :=
    match s with
    | '-' :: digits => (true, digits)
    | _ => (false, s)
  if digits = [] ∨ !digits.all Char.isDigit then none
  else
    let n : Int := Nat.ofDigitChars 10 digits 0
    let n := if negative then -n else n
    if -0x8000000000000000 ≤ n ∧ n < 0x8000000000000000 then some n else none

def jsonGetInt (json key : Text) : Option Int := do
  let value ← jsonValue json key
  parseI64 (value.takeWhile fun c => c.isDigit || c == '-')

/-- Where the splitting of an array stands: the depth of the braces, whether it is in a string and
after a backslash there, where the object began, and the objects found so far. -/
structure SplitState where
  depth : Int
  inString : Bool
  escape : Bool
  objStart : Option Nat
  result : List Text

def SplitState.next (inner : Text) (st : SplitState) (ci : Char × Nat) : SplitState :=
  let (ch, i) := ci
  if st.escape then { st with escape := false }
  else if ch = '\\' ∧ st.inString then { st with escape := true }
  else if ch = '"' then { st with inString := !st.inString }
  else if st.inString then st
  else if ch = '{' then
    { st with
      objStart := if st.depth = 0 then some i else st.objStart
      depth := st.depth + 1 }
  else if ch = '}' then
    let st := { st with depth := st.depth - 1 }
    if st.depth = 0 then
      match st.objStart with
      | some start =>
        { st with
          result := st.result ++ [(inner.drop start).take (i + 1 - start)]
          objStart := none }
      | none => st
    else st
  else st

/-- The objects in the text of an array. -/
def jsonSplitArray (json : Text) : List Text :=
  let trimmed := trim json
  if trimmed.head? ≠ some '[' ∨ trimmed.getLast? ≠ some ']' then []
  else
    let inner := (trimmed.drop 1).dropLast
    (inner.zipIdx.foldl (SplitState.next inner) ⟨0, false, false, none, []⟩).result

end ThistleOS.MsgQueue

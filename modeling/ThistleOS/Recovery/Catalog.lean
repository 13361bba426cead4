import ThistleOS.Kernel.MsgQueue.Json
import ThistleOS.Text

/-!
# Catalogs

The text of a catalog as Recovery reads it, and the grammar of the ids that may become file names.
-/

open ThistleOS.MsgQueue (Text findAfter quoted trimStart)

namespace ThistleOS.Catalog

/-! ### Objects of a catalog -/

/-- Where the iteration over the objects stands: between two objects, or in one of which it has seen
some characters, at a depth of braces, perhaps in a string and after a backslash there. -/
inductive Scan
  | outside
  | inside (seen : Text) (depth : Nat) (inStr escape : Bool)

/-- The objects of a text, each with the text from its first brace to the brace that closes it. An
object that is not closed is none, and nothing is looked for in it. -/
def jsonObjects : Scan → Text → List Text
  | _, [] => []
  | .outside, c :: src =>
    if c = '{' then jsonObjects (.inside [c] 1 false false) src else jsonObjects .outside src
  | .inside seen depth inStr escape, c :: src =>
    if escape then jsonObjects (.inside (seen ++ [c]) depth inStr false) src
    else if c = '\\' && inStr then jsonObjects (.inside (seen ++ [c]) depth inStr true) src
    else if c = '"' then jsonObjects (.inside (seen ++ [c]) depth (!inStr) false) src
    else if c = '{' && !inStr then jsonObjects (.inside (seen ++ [c]) (depth + 1) inStr false) src
    else if c = '}' && !inStr then
      if depth - 1 = 0 then (seen ++ [c]) :: jsonObjects .outside src
      else jsonObjects (.inside (seen ++ [c]) (depth - 1) inStr false) src
    else jsonObjects (.inside (seen ++ [c]) depth inStr false) src

def iterJsonObjects (json : Text) : List Text := jsonObjects .outside json

/-- The string after the first colon that follows the key. -/
def jsonExtractString (json : Text) (key : String) : Option String := do
  let after ← findAfter (quoted key.toList) json
  let rest ← findAfter [':'] after
  match trimStart rest with
  | '"' :: inner =>
    if inner.contains '"' then some (String.ofList (inner.takeWhile (· ≠ '"'))) else none
  | _ => none

/-! ### Catalog ids -/

def maxCatalogIdLength : Nat := 63

def isLowercaseOrDigit (byte : UInt8) : Bool :=
  (97 ≤ byte && byte ≤ 122) || (48 ≤ byte && byte ≤ 57)

/-- An id is a single lowercase component, without dot segments and repeated dots. -/
def validateCatalogId (id : String) : Except String Unit :=
  let bytes := utf8 id
  if bytes.isEmpty || maxCatalogIdLength < bytes.length then
    .error "catalog id has an invalid length"
  else if !bytes.head?.any isLowercaseOrDigit then
    .error "catalog id must start with a lowercase letter or digit"
  else if !bytes.getLast?.any isLowercaseOrDigit then
    .error "catalog id must end with a lowercase letter or digit"
  else if !bytes.all (fun byte => isLowercaseOrDigit byte || byte == 45 || byte == 46) ||
      (findAfter ['.', '.'] id.toList).isSome then
    .error "catalog id must use the lowercase component grammar"
  else .ok ()

/-- What a catalog id is made of. -/
def isIdByte (byte : UInt8) : Bool := isLowercaseOrDigit byte || byte == 45 || byte == 46

/-- What `validateCatalogId` has checked of the characters. -/
lemma bytes_of_validateCatalogId {id : String} (h : validateCatalogId id = .ok ()) :
    utf8 id ≠ [] ∧ (utf8 id).all isIdByte = true := by
  rw [validateCatalogId] at h
  split_ifs at h with hlen hfirst hlast hbytes
  simp only [Bool.or_eq_true, not_or, Bool.not_eq_true', Bool.not_eq_false] at hlen hbytes
  refine ⟨fun hnil => hlen.1 ?_, hbytes.1⟩
  rw [hnil]
  rfl

end ThistleOS.Catalog

import ThistleOS.Kernel.TapInstaller
import ThistleOS.LittleEndian

/-!
# The packaging tool

The archive that the tool writes: the entries in the order of their names, each stored behind a header
of its own, then the central directory, then the end record.
-/

open LittleEndian

namespace ThistleOS.TapPackage

open TapInstaller (ZipEntry)

/-- What a writer chooses in the headers of an entry: its flags, which announce neither encryption nor a
data descriptor, and its date. -/
structure ZipInfo where
  flagBits : Nat
  plain : flagBits % 65536 &&& 0x0009 = 0
  date : Nat

/-- An entry that is to be written. -/
abbrev Content := String × List UInt8

/-! ### The records -/

def localFields (info : ZipInfo) (e : ZipEntry) : List (Nat × Nat) :=
  [(4, 0x04034b50), (2, 20), (2, info.flagBits), (2, 0), (2, 0), (2, info.date), (4, e.crc32.toNat),
    (4, e.size), (4, e.size), (2, (utf8 e.name).length), (2, 0)]

def localFileHeader (info : ZipInfo) (e : ZipEntry) : List UInt8 := pack (localFields info e) ++ utf8 e.name

/-- The mode of a regular file. -/
def externalAttr : Nat := 0o100644 * 65536

def centralFields (info : ZipInfo) (e : ZipEntry) : List (Nat × Nat) :=
  [(4, 0x02014b50), (2, 0x0314), (2, 20), (2, info.flagBits), (2, 0), (2, 0), (2, info.date),
    (4, e.crc32.toNat), (4, e.size), (4, e.size), (2, (utf8 e.name).length), (2, 0), (2, 0), (2, 0), (2, 0),
    (4, externalAttr), (4, e.localOffset)]

def centralRecord (info : ZipInfo) (e : ZipEntry) : List UInt8 :=
  pack (centralFields info e) ++ utf8 e.name

def centralDirectory (info : String → ZipInfo) (entries : List ZipEntry) : List UInt8 :=
  entries.flatMap fun e => centralRecord (info e.name) e

def endFields (count size offset : Nat) : List (Nat × Nat) :=
  [(4, 0x06054b50), (2, 0), (2, 0), (2, count), (2, count), (4, size), (4, offset), (2, 0)]

/-- An archive with some bytes before its central directory. -/
def withDirectory (info : String → ZipInfo) (before : List UInt8) (entries : List ZipEntry) : List UInt8 :=
  before ++ (centralDirectory info entries ++
    pack (endFields entries.length (centralDirectory info entries).length before.length))

/-! ### The archive -/

/-- The entry of a content whose header begins at `offset`. -/
def entryAt (offset : Nat) (c : Content) : ZipEntry :=
  ⟨c.1, TapInstaller.crc32 c.2, c.2.length, offset⟩

def localRecord (info : String → ZipInfo) (c : Content) : List UInt8 :=
  localFileHeader (info c.1) (entryAt 0 c) ++ c.2

/-- The entries of contents that are stored from `offset` on. -/
def entriesFrom : Nat → List Content → List ZipEntry
  | _, [] => []
  | offset, c :: contents =>
    entryAt offset c :: entriesFrom (offset + (30 + (utf8 c.1).length + c.2.length)) contents

def localRecords (info : String → ZipInfo) (contents : List Content) : List UInt8 :=
  contents.flatMap (localRecord info)

def zipArchive (info : String → ZipInfo) (contents : List Content) : List UInt8 :=
  withDirectory info (localRecords info contents) (entriesFrom 0 contents)

/-! ### The writers -/

/-- `FIXED_TIMESTAMP`. -/
def fixedTimestamp : Nat × Nat × Nat := (1980, 1, 1)

def dosDate (t : Nat × Nat × Nat) : Nat := (t.1 - 1980) <<< 9 ||| t.2.1 <<< 5 ||| t.2.2

/-- The headers of the tool. The library it writes with says itself whether a name needs UTF-8. -/
def zipInfo (name : String) : ZipInfo :=
  if name.toList.all fun c => decide (c.toNat < 128) then ⟨0, rfl, dosDate fixedTimestamp⟩
  else ⟨0x800, rfl, dosDate fixedTimestamp⟩

/-- The archive of a package's entries, which the tool sorts by their names. -/
def buildArchive (entries : List Content) : List UInt8 :=
  zipArchive zipInfo (entries.mergeSort fun c c' => decide (c.1 ≤ c'.1))

end ThistleOS.TapPackage

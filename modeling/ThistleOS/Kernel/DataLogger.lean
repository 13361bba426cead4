import ThistleOS.Component
import ThistleOS.CString
import ThistleOS.Csv
import ThistleOS.EspErr
import ThistleOS.Kernel.Timestamps
import Mathlib.Data.List.Forall2

/-!
# The data logger

Tables of typed columns, whose rows are logged at once or value by value, and their export as comma separated
values.
-/

open ThistleOS.Digits ThistleOS.Timestamps

namespace ThistleOS

inductive ColumnType where
  | int
  | float
  | text
  | bool
  deriving DecidableEq

inductive DataValue where
  | int (n : Int64)
  | float (f : Float)
  | text (s : String)
  | bool (b : Bool)
  | null

structure DataColumn where
  name : String
  colType : ColumnType

structure DataRow where
  timestamp : UInt32
  values : List DataValue

structure ColumnStats where
  min : Float
  max : Float
  mean : Float
  count : ℕ

/-- The type check: a column takes the values of its type, and each takes Null. -/
def ColumnType.takes : ColumnType → DataValue → Bool
  | _, .null => true
  | .int, .int _ => true
  | .float, .float _ => true
  | .text, .text _ => true
  | .bool, .bool _ => true
  | _, _ => false

structure DataLogger where
  name : String
  columns : List DataColumn
  rows : List DataRow
  pendingRow : Option (UInt32 × List DataValue)

namespace DataLogger

def new (name : String) : DataLogger := ⟨name, [], [], none⟩

def addColumn (name : String) (colType : ColumnType) (l : DataLogger) : Except EspErr ℕ × DataLogger :=
  if !l.rows.isEmpty then (.error espFail, l)
  else (.ok l.columns.length, { l with columns := l.columns ++ [⟨name, colType⟩] })

def logRow (timestamp : UInt32) (values : List DataValue) (l : DataLogger) : Except EspErr Unit × DataLogger :=
  if values.length ≠ l.columns.length then (.error espErrInvalidArg, l)
  else if (l.columns.zip values).any fun p => !p.1.colType.takes p.2 then (.error espErrInvalidArg, l)
  else (.ok (), { l with rows := l.rows ++ [⟨timestamp, values⟩] })

/-- The values of a column, unless a row has none there and the index is out of range. -/
def getColumnValues (colIndex : ℕ) (l : DataLogger) : Option (List DataValue) :=
  l.rows.mapM fun row => row.values[colIndex]?

def clearRows (l : DataLogger) : Unit × DataLogger := ((), { l with rows := [] })

/-- What `stats` has counted so far. -/
structure Sums where
  min : Float
  max : Float
  sum : Float
  count : ℕ

def Sums.add (s : Sums) (val : Float) : Sums where
  min := if val < s.min then val else s.min
  max := if val > s.max then val else s.max
  sum := s.sum + val
  count := s.count + 1

def Sums.addValue (s : Sums) : DataValue → Sums
  | .int n => s.add (Float.ofInt n.toInt)
  | .float f => s.add f
  | _ => s

/-- The statistics of a column, if it has any, unless a row has no value there and the index is out of range. -/
def stats (colIndex : ℕ) (l : DataLogger) : Option (Option ColumnStats) :=
  match l.columns[colIndex]? with
  | none => some none
  | some col =>
    if col.colType = .text ∨ col.colType = .bool then some none
    else do
      let s ← l.rows.foldlM (fun s row => do
        let v ← row.values[colIndex]?
        return Sums.addValue s v) ⟨Float.ofBits 0x7FEFFFFFFFFFFFFF, Float.ofBits 0xFFEFFFFFFFFFFFFF, 0.0, 0⟩
      if s.count = 0 then return some ⟨0.0, 0.0, 0.0, 0⟩
      else return some ⟨s.min, s.max, s.sum / Float.ofNat s.count, s.count⟩

/-! ### Rows that are built value by value -/

def beginRow (timestamp : UInt32) (l : DataLogger) : Except EspErr Unit × DataLogger :=
  if l.pendingRow.isSome then (.error espFail, l)
  else (.ok (), { l with pendingRow := some (timestamp, List.replicate l.columns.length .null) })

/-- The call does not return where the pending row has no such value. -/
def setPendingValue (col : ℕ) (value : DataValue) (l : DataLogger) : Option (Except EspErr Unit) × DataLogger :=
  match l.pendingRow with
  | none => (some (.error espFail), l)
  | some (timestamp, values) =>
    match l.columns[col]? with
    | none => (some (.error espErrInvalidArg), l)
    | some column =>
      if !column.colType.takes value then (some (.error espErrInvalidArg), l)
      else if values.length ≤ col then (none, l)
      else (some (.ok ()), { l with pendingRow := some (timestamp, values.set col value) })

def commitRow (l : DataLogger) : Except EspErr Unit × DataLogger :=
  match l.pendingRow with
  | none => (.error espFail, l)
  | some (timestamp, values) => (.ok (), { l with rows := l.rows ++ [⟨timestamp, values⟩], pendingRow := none })

/-! ### The calls of C, on a pointer that is not null -/

def code : Except EspErr Unit → EspErr
  | .ok () => espOk
  | .error e => e

def rsDataLoggerAddColumn (name : Option CStr) (colType : Int32) (l : DataLogger) : EspErr × DataLogger :=
  match name with
  | none => (espErrInvalidArg, l)
  | some name =>
    match name.toStr with
    | none => (espErrInvalidArg, l)
    | some name =>
      match typeOf colType with
      | none => (espErrInvalidArg, l)
      | some colType =>
        match l.addColumn name colType with
        | (.ok index, l) => (Int32.ofNat index, l)
        | (.error e, l) => (e, l)
where
  typeOf (colType : Int32) : Option ColumnType :=
    if colType = 0 then some .int
    else if colType = 1 then some .float
    else if colType = 2 then some .text
    else if colType = 3 then some .bool
    else none

def rsDataLoggerBeginRow (timestamp : UInt32) (l : DataLogger) : EspErr × DataLogger :=
  (code (l.beginRow timestamp).1, (l.beginRow timestamp).2)

/-- What the calls that set a value have in common. -/
def setValue (col : Int32) (value : DataValue) (l : DataLogger) : Option EspErr × DataLogger :=
  if col < 0 then (some espErrInvalidArg, l)
  else ((l.setPendingValue col.toInt.toNat value).1.map code, (l.setPendingValue col.toInt.toNat value).2)

def rsDataLoggerSetInt (col : Int32) (value : Int64) : DataLogger → Option EspErr × DataLogger :=
  setValue col (.int value)

def rsDataLoggerSetFloat (col : Int32) (value : Float) : DataLogger → Option EspErr × DataLogger :=
  setValue col (.float value)

def rsDataLoggerSetText (col : Int32) (text : Option CStr) (l : DataLogger) : Option EspErr × DataLogger :=
  match text with
  | none => (some espErrInvalidArg, l)
  | some text =>
    match text.toStr with
    | none => (some espErrInvalidArg, l)
    | some s => setValue col (.text s) l

def rsDataLoggerSetBool (col : Int32) (value : Int32) : DataLogger → Option EspErr × DataLogger :=
  setValue col (.bool (value != 0))

def rsDataLoggerCommitRow (l : DataLogger) : EspErr × DataLogger := (code l.commitRow.1, l.commitRow.2)

inductive Op where
  | addColumn (name : String) (colType : ColumnType)
  | logRow (timestamp : UInt32) (values : List DataValue)
  | clearRows
  | beginRow (timestamp : UInt32)
  | setPendingValue (col : ℕ) (value : DataValue)
  | commitRow
  | rsAddColumn (name : Option CStr) (colType : Int32)
  | rsBeginRow (timestamp : UInt32)
  | rsSetInt (col : Int32) (value : Int64)
  | rsSetFloat (col : Int32) (value : Float)
  | rsSetText (col : Int32) (text : Option CStr)
  | rsSetBool (col : Int32) (value : Int32)
  | rsCommitRow

def Op.Reply : Op → Type
  | .addColumn _ _ => Except EspErr ℕ
  | .logRow _ _ | .beginRow _ | .commitRow => Except EspErr Unit
  | .clearRows => Unit
  | .setPendingValue _ _ => Option (Except EspErr Unit)
  | .rsAddColumn _ _ | .rsBeginRow _ | .rsCommitRow => EspErr
  | .rsSetInt _ _ | .rsSetFloat _ _ | .rsSetText _ _ | .rsSetBool _ _ => Option EspErr

/-- A logger and its calls. A call that does not return leaves it as it is. -/
def component : Component Op Op.Reply DataLogger where
  step
    | .addColumn name colType => addColumn name colType
    | .logRow timestamp values => logRow timestamp values
    | .clearRows => clearRows
    | .beginRow timestamp => beginRow timestamp
    | .setPendingValue col value => setPendingValue col value
    | .commitRow => commitRow
    | .rsAddColumn name colType => rsDataLoggerAddColumn name colType
    | .rsBeginRow timestamp => rsDataLoggerBeginRow timestamp
    | .rsSetInt col value => rsDataLoggerSetInt col value
    | .rsSetFloat col value => rsDataLoggerSetFloat col value
    | .rsSetText col text => rsDataLoggerSetText col text
    | .rsSetBool col value => rsDataLoggerSetBool col value
    | .rsCommitRow => rsDataLoggerCommitRow

/-! ### Export -/

def csvEscape (s : String) : String :=
  if s.toList.contains ',' || s.toList.contains '"' || s.toList.contains '\n' || s.toList.contains '\r' then
    let escaped := s.toList.flatMap fun c => if c = '"' then ['"', '"'] else [c]
    "\"" ++ String.ofList escaped ++ "\""
  else s

/-- The quotient, a half rounded to the even neighbour. -/
def roundHalfEven (num den : ℕ) : ℕ :=
  if 2 * (num % den) < den ∨ 2 * (num % den) = den ∧ num / den % 2 = 0 then num / den else num / den + 1

/-- `{:.6}`: six digits behind the point. -/
def formatFloat (f : Float) : List Char :=
  let bits := f.toBits.toNat
  let sign := if bits / 2 ^ 63 = 1 then ['-'] else []
  let exponent := bits / 2 ^ 52 % 2 ^ 11
  let fraction := bits % 2 ^ 52
  if exponent = 2047 then
    if fraction = 0 then sign ++ ['i', 'n', 'f'] else ['N', 'a', 'N']
  else
    let significand := if exponent = 0 then fraction else fraction + 2 ^ 52
    -- the value is `significand * 2 ^ (e - 1075)`
    let e := max exponent 1
    let millionths := if 1075 ≤ e then significand * 2 ^ (e - 1075) * 10 ^ 6
      else roundHalfEven (significand * 10 ^ 6) (2 ^ (1075 - e))
    sign ++ padded 1 (millionths / 10 ^ 6) ++ '.' :: padded 6 (millionths % 10 ^ 6)

def dataValueToCsv : DataValue → String
  | .int n => String.ofList (paddedInt 0 n.toInt)
  | .float f => String.ofList (formatFloat f)
  | .text s => csvEscape s
  | .bool b => if b then "true" else "false"
  | .null => ""

def toCsv (l : DataLogger) : String :=
  let header := l.columns.foldl (fun out col => out ++ "," ++ csvEscape col.name) "timestamp" ++ "\n"
  l.rows.foldl (fun out row => row.values.foldl (fun out v => out ++ "," ++ dataValueToCsv v)
    (out ++ String.ofList (Timestamps.DataLogger.unixToIso8601 row.timestamp)) ++ "\n") header

example : (dataValueToCsv (.float 3.14159265)) = "3.141593" := by decide +kernel

end DataLogger

end ThistleOS

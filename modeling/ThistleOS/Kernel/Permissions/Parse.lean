import ThistleOS.Kernel.MsgQueue.Json
import ThistleOS.Kernel.Permissions
import Mathlib.Data.List.SplitOn

/-!
# The names of the permissions

A list of names between commas is parsed to the flags of the permissions that it names.
-/

open ThistleOS.MsgQueue (Text trim)

namespace ThistleOS.Permissions

def Perm.radio : UInt32 := 0x01
def Perm.gps : UInt32 := 0x02
def Perm.storage : UInt32 := 0x04
def Perm.network : UInt32 := 0x08
def Perm.audio : UInt32 := 0x10
def Perm.system : UInt32 := 0x20
def Perm.ipc : UInt32 := 0x40
def Perm.all : UInt32 := 0x7F

/-- The flags of a name in lower case; a name that is not known has none. -/
def flagsOf (tok : Text) : UInt32 :=
  if tok = "radio".toList then Perm.radio
  else if tok = "gps".toList then Perm.gps
  else if tok = "storage".toList then Perm.storage
  else if tok = "network".toList then Perm.network
  else if tok = "audio".toList then Perm.audio
  else if tok = "system".toList then Perm.system
  else if tok = "ipc".toList then Perm.ipc
  else if tok = "all".toList then Perm.all
  else 0

/-- The names in a list: what stands between its commas, without the white space around it and in lower case. -/
def namesIn (name : Text) : List Text := (name.splitOn ',').map fun tok => (trim tok).map Char.toLower

def parse (name : Text) : UInt32 := (namesIn name).foldl (fun acc tok => acc ||| flagsOf tok) 0

end ThistleOS.Permissions

import Mathlib.Tactic.Common

/-!
# Error codes

The `esp_err_t` codes that the programs of the repository name.
-/

namespace ThistleOS

abbrev EspErr := Int32

def espOk : EspErr := 0
def espFail : EspErr := -1
def espErrNoMem : EspErr := 0x101
def espErrInvalidArg : EspErr := 0x102
def espErrInvalidState : EspErr := 0x103
def espErrInvalidSize : EspErr := 0x104
def espErrNotFound : EspErr := 0x105
def espErrNotSupported : EspErr := 0x106
def espErrTimeout : EspErr := 0x107
def espErrInvalidCrc : EspErr := 0x109

end ThistleOS

import ThistleOS.Text

/-!
# C strings
-/

namespace ThistleOS

/-- The bytes of a C string before its terminating zero. -/
structure CStr where
  bytes : List UInt8
  noNul : (0 : UInt8) ∉ bytes
  deriving DecidableEq

namespace CStr

def toStr (s : CStr) : Option String := String.fromUTF8? ⟨s.bytes.toArray⟩

/-- The string at the start of a buffer. -/
def ofBuffer (buf : List UInt8) : CStr :=
  ⟨buf.takeWhile (· != 0), fun h => by simpa using List.mem_takeWhile_imp h⟩

lemma ofBuffer_of_notMem {buf : List UInt8} (h : (0 : UInt8) ∉ buf) : ofBuffer buf = ⟨buf, h⟩ := by
  rw [ofBuffer]
  congr
  exact List.takeWhile_eq_self_iff.mpr fun b hb => bne_iff_ne.mpr fun hzero => h (hzero ▸ hb)

/-- The first `n` bytes. -/
def take (n : Nat) (s : CStr) : CStr := ⟨s.bytes.take n, fun h => s.noNul (List.mem_of_mem_take h)⟩

lemma take_of_length_le {n : Nat} {s : CStr} (h : s.bytes.length ≤ n) : s.take n = s := by
  rw [take]
  congr
  exact List.take_of_length_le h

variable {s : CStr} {t : String}

lemma utf8_of_toStr (h : s.toStr = some t) : utf8 t = s.bytes := by
  rw [toStr, String.fromUTF8?] at h
  split at h
  · obtain rfl := Option.some.inj h
    rfl
  · cases h

lemma toStr_inj {s' : CStr} (h : s.toStr = some t) (h' : s'.toStr = some t) : s = s' := by
  have hbytes := (utf8_of_toStr h).symm.trans (utf8_of_toStr h')
  cases s
  cases s'
  simpa using hbytes

/-- The text of a C string does not contain NUL. -/
lemma nul_notMem (h : s.toStr = some t) : '\x00' ∉ t.toList := by
  intro hmem
  apply s.noNul
  rw [← utf8_of_toStr h, utf8_eq_flatMap, List.mem_flatMap]
  exact ⟨'\x00', hmem, by decide⟩

end CStr

end ThistleOS

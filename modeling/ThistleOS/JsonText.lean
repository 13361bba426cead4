import Mathlib.Data.List.Basic
import Mathlib.Tactic.Common

/-!
# JSON texts

The grammar of JSON over lists of characters, for texts whose strings have no escape sequences. A
sequence of items is listed with commas between them and white space around each.
-/

namespace ThistleOS.JsonText

/-! ### Leaves -/

def White (t : List Char) : Prop := ∀ c ∈ t, c ∈ [' ', '\t', '\n', '\r']

/-- A character that a string may have without an escape sequence. -/
def Unescaped (c : Char) : Prop := c ≠ '"' ∧ c ≠ '\\' ∧ 32 ≤ c.toNat

def IsString (t : List Char) : Prop := ∃ s : List Char, (∀ c ∈ s, Unescaped c) ∧ t = '"' :: s ++ ['"']

def IsDigits (t : List Char) : Prop := t ≠ [] ∧ ∀ c ∈ t, c.isDigit = true

/-- Digits that start with a zero only if there are no others. -/
def IsWhole (t : List Char) : Prop := IsDigits t ∧ (t.head? = some '0' → t = ['0'])

def IsFraction (t : List Char) : Prop := t = [] ∨ ∃ ds, IsDigits ds ∧ t = '.' :: ds

def IsExponent (t : List Char) : Prop :=
  t = [] ∨ ∃ e sign ds, e ∈ ['e', 'E'] ∧ sign ∈ [[], ['+'], ['-']] ∧ IsDigits ds ∧ t = e :: sign ++ ds

def IsNumber (t : List Char) : Prop :=
  ∃ sign whole fraction exponent, sign ∈ [[], ['-']] ∧ IsWhole whole ∧ IsFraction fraction ∧
    IsExponent exponent ∧ t = sign ++ whole ++ fraction ++ exponent

def IsScalar (t : List Char) : Prop :=
  t ∈ ["true".toList, "false".toList, "null".toList] ∨ IsNumber t

/-! ### Values -/

/-- The items of a text: nothing but white space where there is none, otherwise white space around
each and a comma between two. -/
inductive Listed : List (List Char) → List Char → Prop
  | nil {w} (hw : White w) : Listed [] w
  | singleton {w t w'} (hw : White w) (hw' : White w') : Listed [t] (w ++ t ++ w')
  | cons {w t w' u ts rest} (hw : White w) (hw' : White w') (hrest : Listed (u :: ts) rest) :
    Listed (t :: u :: ts) (w ++ t ++ w' ++ ',' :: rest)

/-- A member of an object: a key and a value, each with the white space between it and the colon. -/
structure Member where
  key : List Char
  beforeColon : List Char
  afterColon : List Char
  value : List Char

namespace Member

def text (m : Member) : List Char := m.key ++ m.beforeColon ++ ':' :: m.afterColon ++ m.value

structure WellFormed (m : Member) : Prop where
  key : IsString m.key
  beforeColon : White m.beforeColon
  afterColon : White m.afterColon

end Member

inductive IsValue : List Char → Prop
  | string {t} (h : IsString t) : IsValue t
  | scalar {t} (h : IsScalar t) : IsValue t
  | array {ts body} (hts : ∀ t ∈ ts, IsValue t) (h : Listed ts body) : IsValue ('[' :: body ++ [']'])
  | object {ms : List Member} {body} (hms : ∀ m ∈ ms, m.WellFormed) (hvalues : ∀ m ∈ ms, IsValue m.value)
    (h : Listed (ms.map Member.text) body) : IsValue ('{' :: body ++ ['}'])

/-- A value between braces. -/
def IsObject (t : List Char) : Prop :=
  ∃ (ms : List Member) (body : List Char), (∀ m ∈ ms, m.WellFormed) ∧ (∀ m ∈ ms, IsValue m.value) ∧
    Listed (ms.map Member.text) body ∧ t = '{' :: body ++ ['}']

lemma IsObject.isValue {t : List Char} (h : IsObject t) : IsValue t := by
  obtain ⟨ms, body, hms, hvalues, hlisted, rfl⟩ := h
  exact .object hms hvalues hlisted

/-! ### What leaves are made of -/

/-- A character that is neither a quote nor one of the brackets, braces, commas and colons. -/
def Quiet (c : Char) : Prop := c ∉ ['"', '{', '}', '[', ']', ',', ':']

variable {t w : List Char} {c : Char}

lemma White.quiet (h : White w) (hc : c ∈ w) : Quiet c := by
  have hmem := h c hc
  simp only [List.mem_cons, List.not_mem_nil, or_false] at hmem
  rcases hmem with rfl | rfl | rfl | rfl <;> simp [Quiet]

lemma White.not_mem (h : White w) (hc : ¬ Quiet c) : c ∉ w := fun hmem => hc (h.quiet hmem)

lemma quiet_of_isDigit (h : c.isDigit = true) : Quiet c := by
  intro hmem
  simp only [List.mem_cons, List.not_mem_nil, or_false] at hmem
  rcases hmem with rfl | rfl | rfl | rfl | rfl | rfl | rfl <;> simp [Char.isDigit] at h

lemma IsDigits.quiet (h : IsDigits t) (hc : c ∈ t) : Quiet c := quiet_of_isDigit (h.2 c hc)

lemma IsFraction.quiet (h : IsFraction t) (hc : c ∈ t) : Quiet c := by
  rcases h with rfl | ⟨ds, hds, rfl⟩
  · simp at hc
  · rcases List.mem_cons.mp hc with rfl | hc
    · simp [Quiet]
    · exact hds.quiet hc

lemma IsExponent.quiet (h : IsExponent t) (hc : c ∈ t) : Quiet c := by
  rcases h with rfl | ⟨e, sign, ds, he, hsign, hds, rfl⟩
  · simp at hc
  · rcases List.mem_append.mp hc with hc | hc
    · have hall : ∀ e ∈ ['e', 'E'], ∀ sign ∈ [[], ['+'], ['-']], ∀ c ∈ e :: sign, Quiet c := by
        simp [Quiet]
      exact hall e he sign hsign c hc
    · exact hds.quiet hc

lemma IsNumber.quiet (h : IsNumber t) (hc : c ∈ t) : Quiet c := by
  obtain ⟨sign, whole, fraction, exponent, hsign, hwhole, hfraction, hexponent, rfl⟩ := h
  simp only [List.mem_append] at hc
  rcases hc with ((hc | hc) | hc) | hc
  · have hall : ∀ sign ∈ [[], ['-']], ∀ c ∈ sign, Quiet c := by simp [Quiet]
    exact hall sign hsign c hc
  · exact hwhole.1.quiet hc
  · exact hfraction.quiet hc
  · exact hexponent.quiet hc

lemma IsScalar.quiet (h : IsScalar t) (hc : c ∈ t) : Quiet c := by
  rcases h with h | h
  · have hall : ∀ t ∈ ["true".toList, "false".toList, "null".toList], ∀ c ∈ t, Quiet c := by
      simp [Quiet]
    exact hall t h c hc
  · exact h.quiet hc

/-! ### Lengths -/

lemma Listed.length_le {ts : List (List Char)} {body : List Char} (h : Listed ts body) (ht : t ∈ ts) :
    t.length ≤ body.length := by
  induction h with
  | nil => simp at ht
  | singleton =>
    rw [List.mem_singleton.mp ht]
    simp
    omega
  | cons _ _ _ ih =>
    simp only [List.length_append, List.length_cons]
    rcases List.mem_cons.mp ht with rfl | ht
    · omega
    · have := ih ht
      omega

end ThistleOS.JsonText

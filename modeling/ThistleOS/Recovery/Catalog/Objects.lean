import ThistleOS.JsonText
import ThistleOS.Recovery.Catalog

/-!
# The objects of a catalog

A catalog is an array of objects, or an object with such an array under `entries`. Whatever an object
has inside it, the iteration over the objects leaves it where it has entered it; so it finds the
objects of an array, and of any other document the document itself.
-/

open ThistleOS.MsgQueue (Text quoted)
open ThistleOS.JsonText

namespace ThistleOS.Catalog

variable {s t w : Text} {ts es : List Text} {json body : Text} {c : Char}

/-! ### Documents -/

def IsArray (es : List Text) (t : Text) : Prop :=
  (∀ e ∈ es, IsObject e) ∧ ∃ body, Listed es body ∧ t = '[' :: body ++ [']']

def IsArrayCatalog (json : Text) (es : List Text) : Prop :=
  ∃ w t w', White w ∧ White w' ∧ IsArray es t ∧ json = w ++ t ++ w'

def IsWrapper (es : List Text) (t : Text) : Prop :=
  ∃ (ms : List Member) (body : Text), (∀ m ∈ ms, m.WellFormed) ∧ (∀ m ∈ ms, IsValue m.value) ∧
    Listed (ms.map Member.text) body ∧ t = '{' :: body ++ ['}'] ∧
    ∃ m ∈ ms, m.key = quoted "entries".toList ∧ IsArray es m.value

def IsWrappedCatalog (json : Text) (es : List Text) : Prop :=
  ∃ w t w', White w ∧ White w' ∧ IsWrapper es t ∧ json = w ++ t ++ w'

/-- A well-formed catalog with its entries. -/
def IsCatalog (json : Text) (es : List Text) : Prop :=
  IsArrayCatalog json es ∨ IsWrappedCatalog json es

/-! ### Inside an object -/

/-- A text that leaves an object at the depth where it was entered. -/
def Steady (t : Text) : Prop :=
  ∀ seen depth rest, 0 < depth →
    jsonObjects (.inside seen depth false false) (t ++ rest) =
      jsonObjects (.inside (seen ++ t) depth false false) rest

lemma Steady.nil : Steady [] := by
  intro seen depth rest _
  simp

lemma Steady.append (hs : Steady s) (ht : Steady t) : Steady (s ++ t) := by
  intro seen depth rest hdepth
  rw [List.append_assoc, hs seen depth _ hdepth, ht _ depth rest hdepth, List.append_assoc]

lemma steady_char (hquote : c ≠ '"') (hopen : c ≠ '{') (hclose : c ≠ '}') : Steady [c] := by
  intro seen depth rest _
  simp [jsonObjects, hquote, hopen, hclose]

lemma Steady.cons (hc : Steady [c]) (ht : Steady t) : Steady (c :: t) := hc.append ht

lemma steady_of_quiet (h : ∀ c ∈ t, Quiet c) : Steady t := by
  induction t with
  | nil => exact Steady.nil
  | cons c t ih =>
    have hc : Quiet c := h c List.mem_cons_self
    simp only [Quiet, List.mem_cons, not_or] at hc
    apply (steady_char hc.1 hc.2.1 hc.2.2.1).cons
    exact ih fun d hd => h d (List.mem_cons_of_mem c hd)

lemma steady_white (h : White w) : Steady w := steady_of_quiet fun _ hc => h.quiet hc

/-- Inside a string nothing but a quote or a backslash counts. -/
lemma jsonObjects_inStr (h : ∀ c ∈ s, Unescaped c) (seen : Text) (depth : ℕ) (rest : Text) :
    jsonObjects (.inside seen depth true false) (s ++ rest) =
      jsonObjects (.inside (seen ++ s) depth true false) rest := by
  induction s generalizing seen with
  | nil => simp
  | cons c s ih =>
    obtain ⟨hquote, hescape, -⟩ := h c List.mem_cons_self
    have hs := ih fun d hd => h d (List.mem_cons_of_mem c hd)
    simp [jsonObjects, hquote, hescape, hs]

lemma steady_string (h : IsString t) : Steady t := by
  obtain ⟨s, hs, rfl⟩ := h
  intro seen depth rest _
  simp [jsonObjects, jsonObjects_inStr hs]

lemma steady_braces (h : Steady t) : Steady ('{' :: t ++ ['}']) := by
  intro seen depth rest hdepth
  have hinner := h (seen ++ ['{']) (depth + 1) ('}' :: rest) depth.succ_pos
  simp [jsonObjects, hinner, hdepth.ne']

lemma steady_listed (h : Listed ts body) (hts : ∀ t ∈ ts, Steady t) : Steady body := by
  have hcomma : Steady [','] := steady_char (by decide) (by decide) (by decide)
  induction h with
  | nil hw => exact steady_white hw
  | singleton hw hw' =>
    exact ((steady_white hw).append (hts _ List.mem_cons_self)).append (steady_white hw')
  | cons hw hw' hrest ih =>
    apply (((steady_white hw).append (hts _ List.mem_cons_self)).append (steady_white hw')).append
    exact hcomma.cons (ih fun t ht => hts t (List.mem_cons_of_mem _ ht))

lemma steady_member {m : Member} (hm : m.WellFormed) (hvalue : Steady m.value) : Steady m.text := by
  have hcolon : Steady [':'] := steady_char (by decide) (by decide) (by decide)
  have hkey := (steady_string hm.key).append (steady_white hm.beforeColon)
  exact (hkey.append (hcolon.cons (steady_white hm.afterColon))).append hvalue

theorem steady_value (h : IsValue t) : Steady t := by
  have hopen : Steady ['['] := steady_char (by decide) (by decide) (by decide)
  have hclose : Steady [']'] := steady_char (by decide) (by decide) (by decide)
  induction h with
  | string h => exact steady_string h
  | scalar h => exact steady_of_quiet fun _ hc => h.quiet hc
  | array _ h ih => exact (hopen.cons (steady_listed h ih)).append hclose
  | object hms _ h ih =>
    apply steady_braces
    apply steady_listed h
    intro t ht
    obtain ⟨m, hm, rfl⟩ := List.mem_map.mp ht
    exact steady_member (hms m hm) (ih m hm)

lemma exists_steady_body (h : IsObject t) : ∃ body, Steady body ∧ t = '{' :: body ++ ['}'] := by
  obtain ⟨ms, body, hms, hvalues, hlisted, rfl⟩ := h
  refine ⟨body, steady_listed hlisted fun t ht => ?_, rfl⟩
  obtain ⟨m, hm, rfl⟩ := List.mem_map.mp ht
  exact steady_member (hms m hm) (steady_value (hvalues m hm))

/-! ### Between objects -/

lemma jsonObjects_skip (hs : '{' ∉ s) (rest : Text) :
    jsonObjects .outside (s ++ rest) = jsonObjects .outside rest := by
  induction s with
  | nil => rfl
  | cons c s ih =>
    rw [List.mem_cons, not_or] at hs
    rw [List.cons_append, jsonObjects, if_neg (Ne.symm hs.1)]
    exact ih hs.2

lemma jsonObjects_white (h : White w) (rest : Text) :
    jsonObjects .outside (w ++ rest) = jsonObjects .outside rest :=
  jsonObjects_skip (h.not_mem (by simp [Quiet])) rest

lemma jsonObjects_object (h : IsObject t) (rest : Text) :
    jsonObjects .outside (t ++ rest) = t :: jsonObjects .outside rest := by
  obtain ⟨body, hbody, rfl⟩ := exists_steady_body h
  have hinner := hbody ['{'] 1 ('}' :: rest) Nat.one_pos
  simp [jsonObjects, hinner]

lemma jsonObjects_listed (h : Listed es body) (hes : ∀ e ∈ es, IsObject e) (rest : Text) :
    jsonObjects .outside (body ++ rest) = es ++ jsonObjects .outside rest := by
  induction h with
  | nil hw => exact jsonObjects_white hw rest
  | singleton hw hw' =>
    rw [List.append_assoc, List.append_assoc, jsonObjects_white hw,
      jsonObjects_object (hes _ List.mem_cons_self), jsonObjects_white hw']
    rfl
  | @cons w t w' u ts body hw hw' hrest ih =>
    have hcomma : jsonObjects .outside (',' :: (body ++ rest)) = jsonObjects .outside (body ++ rest) :=
      jsonObjects_skip (s := [',']) (by simp) _
    have hsplit : w ++ t ++ w' ++ ',' :: body ++ rest = w ++ (t ++ (w' ++ ',' :: (body ++ rest))) := by
      simp
    rw [hsplit, jsonObjects_white hw, jsonObjects_object (hes _ List.mem_cons_self),
      jsonObjects_white hw', hcomma, ih fun e he => hes e (List.mem_cons_of_mem _ he)]
    rfl

/-! ### Whole catalogs -/

/-- Of an array, Recovery finds the objects. -/
theorem iterJsonObjects_array (h : IsArrayCatalog json es) : iterJsonObjects json = es := by
  obtain ⟨w, t, w', hw, hw', ⟨hes, body, hbody, rfl⟩, rfl⟩ := h
  have hopen : jsonObjects .outside ('[' :: (body ++ (']' :: w'))) =
      jsonObjects .outside (body ++ (']' :: w')) :=
    jsonObjects_skip (s := ['[']) (by simp) _
  have hclose : jsonObjects .outside (']' :: w') = [] := by
    have hskip := jsonObjects_skip (s := ']' :: w') (by simp [hw'.not_mem, Quiet]) []
    simpa [jsonObjects] using hskip
  have hsplit : w ++ ('[' :: body ++ [']']) ++ w' = w ++ '[' :: (body ++ (']' :: w')) := by simp
  rw [hsplit, iterJsonObjects, jsonObjects_white hw, hopen, jsonObjects_listed hbody hes, hclose,
    List.append_nil]

/-- An entry of a wrapped catalog is shorter than the wrapper, the one object that Recovery finds. -/
theorem iterJsonObjects_wrapped (h : IsWrappedCatalog json es) : iterJsonObjects json ≠ es := by
  obtain ⟨w, t, w', hw, hw', ⟨ms, body, hms, hvalues, hbody, rfl, m, hm, -, -, array, harray, hvalue⟩,
    rfl⟩ := h
  have hend : jsonObjects .outside w' = [] := by
    have hskip := jsonObjects_white hw' []
    simpa [jsonObjects] using hskip
  rw [List.append_assoc, iterJsonObjects, jsonObjects_white hw,
    jsonObjects_object ⟨ms, body, hms, hvalues, hbody, rfl⟩, hend]
  rintro rfl
  have hentry := harray.length_le List.mem_cons_self
  have hmember := hbody.length_le (List.mem_map_of_mem hm)
  simp only [Member.text, hvalue, List.length_append, List.length_cons] at hentry hmember
  omega

end ThistleOS.Catalog

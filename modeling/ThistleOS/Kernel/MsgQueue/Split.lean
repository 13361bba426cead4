import ThistleOS.Kernel.MsgQueue.Json
import Mathlib.Data.List.Basic

/-!
# Splitting an array

An array whose lines are objects is split into them.
-/

namespace ThistleOS.MsgQueue

variable {inner pre post t t' : Text}

/-- The splitting of a text that begins at some place of the array. -/
def scan (inner : Text) (i : Nat) (t : Text) (st : SplitState) : SplitState :=
  (t.zipIdx i).foldl (SplitState.next inner) st

@[simp] lemma scan_nil (i : Nat) (st : SplitState) : scan inner i [] st = st := rfl

@[simp] lemma scan_cons (i : Nat) (c : Char) (t : Text) (st : SplitState) :
    scan inner i (c :: t) st = scan inner (i + 1) t (st.next inner (c, i)) := rfl

lemma scan_append (i : Nat) (t t' : Text) (st : SplitState) :
    scan inner i (t ++ t') st = scan inner (i + t.length) t' (scan inner i t st) := by
  rw [scan, List.zipIdx_append, List.foldl_append]
  rfl

/-- Between two objects. -/
def outside (result : List Text) : SplitState := ⟨0, false, false, none, result⟩

/-! ### Objects -/

/-- A text that leaves the splitting inside the object where it is. -/
def Balanced (t : Text) : Prop :=
  ∀ (inner : Text) (i : Nat) (start : Option Nat) (result : List Text),
    scan inner i t ⟨1, false, false, start, result⟩ = ⟨1, false, false, start, result⟩

lemma Balanced.append (h : Balanced t) (h' : Balanced t') : Balanced (t ++ t') := by
  intro inner i start result
  rw [scan_append, h, h']

/-- A text that is found as one object, wherever it stands in the array. -/
def IsObject (t : Text) : Prop :=
  ∀ (inner pre post : Text) (result : List Text), inner = pre ++ (t ++ post) →
    scan inner pre.length t (outside result) = outside (result ++ [t])

theorem Balanced.isObject (h : Balanced t) : IsObject ('{' :: (t ++ ['}'])) := by
  intro inner pre post result hinner
  have hslice : (inner.drop pre.length).take (t.length + 2) = '{' :: (t ++ ['}']) := by
    have hlength : t.length + 2 = ('{' :: (t ++ ['}'])).length := by simp
    rw [hinner, List.drop_left, hlength, List.take_left]
  have hopen : SplitState.next inner (outside result) ('{', pre.length) =
      ⟨1, false, false, some pre.length, result⟩ := by
    simp [SplitState.next, outside]
  have hend : pre.length + 1 + t.length + 1 - pre.length = t.length + 2 := by omega
  rw [← hend] at hslice
  rw [scan_cons, hopen, scan_append, h, scan_cons, scan_nil]
  simp [SplitState.next, outside, hslice]

/-! ### The array -/

/-- The lines of the array. -/
def objectLines (ts : List Text) : Text :=
  ((ts.map fun t => "  ".toList ++ t).intersperse ",\n".toList).flatten

@[simp] lemma objectLines_singleton (t : Text) : objectLines [t] = "  ".toList ++ t := by
  simp [objectLines]

@[simp] lemma objectLines_cons (t t' : Text) (ts : List Text) :
    objectLines (t :: t' :: ts) =
      "  ".toList ++ (t ++ (",\n".toList ++ objectLines (t' :: ts))) := by
  simp [objectLines]

lemma scan_spaces (i : Nat) (result : List Text) :
    scan inner i "  ".toList (outside result) = outside result := by
  simp [SplitState.next, outside]

lemma scan_separator (i : Nat) (result : List Text) :
    scan inner i ",\n".toList (outside result) = outside result := by
  simp [SplitState.next, outside]

lemma scan_objectLines {ts : List Text} (hts : ∀ t ∈ ts, IsObject t)
    (hinner : inner = pre ++ (objectLines ts ++ post)) (result : List Text) :
    scan inner pre.length (objectLines ts) (outside result) = outside (result ++ ts) := by
  induction ts generalizing pre result with
  | nil => simp [objectLines]
  | cons t ts ih =>
    have ht := hts t List.mem_cons_self
    have hrest := fun t' ht' => hts t' (List.mem_cons_of_mem t ht')
    cases ts with
    | nil =>
      rw [objectLines_singleton, List.append_assoc, ← List.append_assoc] at hinner
      rw [objectLines_singleton, scan_append, scan_spaces, ← List.length_append,
        ht inner _ post result hinner]
    | cons t' ts =>
      rw [objectLines_cons] at hinner ⊢
      have hobject : inner = (pre ++ "  ".toList) ++ (t ++
          (",\n".toList ++ objectLines (t' :: ts) ++ post)) := by
        rw [hinner]
        simp only [List.append_assoc]
      have hlines : inner = (pre ++ "  ".toList ++ t ++ ",\n".toList) ++
          (objectLines (t' :: ts) ++ post) := by
        rw [hinner]
        simp only [List.append_assoc]
      rw [scan_append, scan_spaces, ← List.length_append, scan_append,
        ht inner _ _ result hobject, ← List.length_append, scan_append, scan_separator,
        ← List.length_append, ih hrest hlines, List.append_assoc]
      rfl

/-- The objects of an array are the texts on its lines. -/
theorem jsonSplitArray_objectLines {ts : List Text} (hts : ∀ t ∈ ts, IsObject t) :
    jsonSplitArray ('[' :: ('\n' :: (objectLines ts ++ ['\n']) ++ [']'])) = ts := by
  have hinner : '\n' :: (objectLines ts ++ ['\n']) = ['\n'] ++ (objectLines ts ++ ['\n']) := rfl
  have hlines := scan_objectLines hts hinner []
  have hfirst : SplitState.next ('\n' :: (objectLines ts ++ ['\n'])) (outside []) ('\n', 0) =
      outside [] := by
    simp [SplitState.next, outside]
  have hscan : scan ('\n' :: (objectLines ts ++ ['\n'])) 0 ('\n' :: (objectLines ts ++ ['\n']))
      (outside []) = outside ts := by
    conv_lhs => rw [scan_cons, hfirst, scan_append]
    rw [List.length_singleton] at hlines
    rw [Nat.zero_add, hlines, scan_cons, scan_nil]
    simp [SplitState.next, outside]
  have htrim : trim ('[' :: ('\n' :: (objectLines ts ++ ['\n']) ++ [']'])) =
      '[' :: ('\n' :: (objectLines ts ++ ['\n']) ++ [']']) := by
    have hstart : isWhiteSpace '[' = false := by decide
    rw [trim, trimStart, List.dropWhile_cons, hstart, if_neg Bool.false_ne_true,
      ← List.cons_append, List.rdropWhile_concat, if_neg (by decide)]
  rw [jsonSplitArray]
  simp only [htrim]
  rw [if_neg, List.drop_one, List.tail_cons, List.dropLast_concat]
  · exact congrArg SplitState.result hscan
  · rw [List.head?_cons, ← List.cons_append, List.getLast?_concat]
    simp

end ThistleOS.MsgQueue

import ThistleOS.Recovery.BundleTransaction.Basic

/-!
# Joined names

A relative path that is joined from names has these names again, and is accepted.
-/

namespace ThistleOS.BundleTransaction

lemma toList_joined (parts : List String) :
    ("/".intercalate parts).toList = ['/'].intercalate (parts.map String.toList) := by
  rw [String.toList_intercalate]
  rfl

/-- A name that can stand between two separators. -/
structure PlainName (name : String) : Prop where
  separator : '/' ∉ name.toList
  nonempty : name.toList ≠ []
  noCurDir : name.toList ≠ ['.']
  noParentDir : name.toList ≠ ['.', '.']

variable {name : String} {parts : List String}

lemma PlainName.piece_eq (h : PlainName name) : piece name.toList = [.normal name] := by
  rw [piece.eq_4 _ h.nonempty h.noCurDir h.noParentDir, String.ofList_toList]

lemma splitOn_joined (h : ∀ part ∈ parts, PlainName part) (hne : parts ≠ []) :
    ("/".intercalate parts).toList.splitOn '/' = parts.map String.toList := by
  rw [toList_joined]
  refine List.splitOn_intercalate '/' (fun l hl => ?_) (by simpa using hne)
  obtain ⟨part, hpart, rfl⟩ := List.mem_map.mp hl
  exact (h part hpart).separator

lemma components_joined (h : ∀ part ∈ parts, PlainName part) (hne : parts ≠ []) :
    components ("/".intercalate parts) = parts.map .normal := by
  rw [components, splitOn_joined h hne]
  cases parts with
  | nil => exact absurd rfl hne
  | cons first rest =>
    have hfirst := h first List.mem_cons_self
    have hpieces : ((first :: rest).map String.toList).flatMap piece =
        (first :: rest).map Component.normal := by
      rw [List.flatMap_map, List.map_eq_flatMap]
      refine List.flatMap_congr fun part hpart => ?_
      exact (h part hpart).piece_eq
    rw [← hpieces, List.map_cons]
    split
    · rename_i heq
      cases heq
    · rename_i heq
      exact absurd (List.cons.inj heq).1 hfirst.nonempty
    · rename_i heq
      exact absurd (List.cons.inj heq).1 hfirst.nonempty
    · rename_i heq
      exact absurd (List.cons.inj heq).1 hfirst.noCurDir
    · rename_i heq
      rw [← heq]

lemma names_joined (h : ∀ part ∈ parts, PlainName part) (hne : parts ≠ []) :
    names ("/".intercalate parts) = parts := by
  rw [names, components_joined h hne, List.filterMap_map]
  exact List.filterMap_some

lemma mem_joined {c : Char} (hc : c ∈ ("/".intercalate parts).toList) :
    c = '/' ∨ ∃ part ∈ parts, c ∈ part.toList := by
  rw [toList_joined] at hc
  rcases mem_intercalate hc with hc | ⟨l, hl, hc⟩
  · exact .inl (List.mem_singleton.mp hc)
  · obtain ⟨part, hpart, rfl⟩ := List.mem_map.mp hl
    exact .inr ⟨part, hpart, hc⟩

/-- A joined path without control characters is accepted. -/
lemma validateRelativePath_joined (h : ∀ part ∈ parts, PlainName part) (hne : parts ≠ [])
    (hcontrol : ∀ part ∈ parts, '\t' ∉ part.toList ∧ '\n' ∉ part.toList ∧ '\r' ∉ part.toList) :
    validateRelativePath ("/".intercalate parts) = .ok () := by
  obtain ⟨first, rest, rfl⟩ := List.exists_cons_of_ne_nil hne
  have hfirst := h first List.mem_cons_self
  obtain ⟨c, cs, hc⟩ := List.exists_cons_of_ne_nil hfirst.nonempty
  -- the path starts as its first name does
  have hhead : ("/".intercalate (first :: rest)).toList.head? = some c := by
    rw [toList_joined, List.map_cons, hc]
    cases rest with
    | nil => rfl
    | cons second rest => rfl
  have hrelative : isAbsolute ("/".intercalate (first :: rest)) = false := by
    rw [isAbsolute, hhead]
    have hslash : c ≠ '/' := fun heq =>
      hfirst.separator (by rw [hc, heq]; exact List.mem_cons_self)
    simpa using hslash
  have hnonempty : ("/".intercalate (first :: rest)).toList.isEmpty = false := by
    cases hpath : ("/".intercalate (first :: rest)).toList with
    | nil => simp [hpath] at hhead
    | cons c' cs' => rfl
  have hnormal : (components ("/".intercalate (first :: rest))).any
      (fun component => !component.isNormal) = false := by
    rw [components_joined h hne, List.any_eq_false]
    intro component hmem
    obtain ⟨part, -, rfl⟩ := List.mem_map.mp hmem
    simp [Component.isNormal]
  have hplain : ("/".intercalate (first :: rest)).toList.any
      (fun c => c == '\t' || c == '\n' || c == '\r') = false := by
    rw [List.any_eq_false]
    intro c' hmem hc'
    simp only [Bool.or_eq_true, beq_iff_eq] at hc'
    rcases mem_joined hmem with hslash | ⟨part, hpart, hmem⟩
    · rw [hslash] at hc'
      exact absurd hc' (by decide)
    · rcases hc' with (hc' | hc') | hc'
      · exact (hcontrol part hpart).1 (hc' ▸ hmem)
      · exact (hcontrol part hpart).2.1 (hc' ▸ hmem)
      · exact (hcontrol part hpart).2.2 (hc' ▸ hmem)
  rw [validateRelativePath, hnonempty, hrelative, hnormal, hplain]
  rfl

end ThistleOS.BundleTransaction

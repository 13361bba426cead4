import ThistleOS.Kernel.Manifest.FromJson

/-!
# Keys among other strings

A key is found where it stands if no string before it spells it: other texts, and the keys of nested objects, are not in
the way.
-/

open ThistleOS.MsgQueue ThistleOS.JsonText

namespace ThistleOS.Manifests

variable {key s t v w rest : Text} {c : Char}

/-- A string that does not spell the key. -/
def Other (key t : Text) : Prop := IsString t ∧ t ≠ quoted key

/-- A text with a mark before its first quote. -/
def Marked (s : Text) : Prop := ∃ w c t, s = w ++ c :: t ∧ (∀ x ∈ w, Quiet x) ∧ ¬ Quiet c ∧ c ≠ '"'

lemma marked_cons (hc : ¬ Quiet c) (hne : c ≠ '"') (s : Text) : Marked (c :: s) :=
  ⟨[], c, s, rfl, fun _ h => absurd h List.not_mem_nil, hc, hne⟩

lemma Marked.append (hs : Marked s) (hw : ∀ x ∈ w, Quiet x) : Marked (w ++ s) := by
  obtain ⟨w', c, t, rfl, hw', hc, hne⟩ := hs
  refine ⟨w ++ w', c, t, (List.append_assoc _ _ _).symm, fun x hx => ?_, hc, hne⟩
  exact (List.mem_append.mp hx).elim (hw x) (hw' x)

lemma marked_white (hw : White w) (hc : ¬ Quiet c) (hne : c ≠ '"') (s : Text) : Marked (w ++ c :: s) :=
  (marked_cons hc hne s).append fun _ => hw.quiet

/-- Nothing in the text is taken for the key. -/
def Skipped (key s : Text) : Prop :=
  ∀ rest, Marked rest → findAfter (quoted key) (s ++ rest) = findAfter (quoted key) rest

lemma marked_comma (hw : White w) (s : Text) : Marked (w ++ ',' :: s) :=
  marked_white hw (by simp [Quiet]) (by decide) s

lemma findAfter_mark (hc : c ≠ '"') (s : Text) : findAfter (quoted key) (c :: s) = findAfter (quoted key) s :=
  @findAfter_skip key [c] (by simpa using hc.symm) s

lemma quote_notMem_of_quiet (hs : ∀ c ∈ s, Quiet c) : '"' ∉ s := fun h => hs _ h List.mem_cons_self

section Skipping

variable (hkey : ∀ c ∈ key, Quiet c)

include hkey

lemma not_isPrefixOf_marked (hs : Marked s) : (key ++ ['"']).isPrefixOf s = false := by
  obtain ⟨w, c, t, rfl, hw, hc, hne⟩ := hs
  induction key generalizing w with
  | nil =>
    cases w with
    | nil => simp [List.isPrefixOf, hne.symm]
    | cons x w =>
      have hx : '"' ≠ x := by
        rintro rfl
        exact quote_notMem_of_quiet hw List.mem_cons_self
      simp [List.isPrefixOf, hx]
  | cons k key ih =>
    cases w with
    | nil =>
      have hk : k ≠ c := by
        rintro rfl
        exact hc (hkey k List.mem_cons_self)
      simp [List.isPrefixOf, hk]
    | cons x w =>
      have hrest := ih (fun c hc => hkey c (List.mem_cons_of_mem k hc)) w fun x hx => hw x (List.mem_cons_of_mem _ hx)
      simp [List.isPrefixOf, hrest]

/-- The quote at the end of a string does not begin the key. -/
lemma findAfter_closing (hs : Marked s) : findAfter (quoted key) ('"' :: s) = findAfter (quoted key) s := by
  rw [findAfter_quote, not_isPrefixOf_marked hkey hs]
  rfl

lemma skipped_string (ht : Other key t) : Skipped key t := by
  obtain ⟨⟨s, hs, rfl⟩, hne⟩ := ht
  intro rest hrest
  have hquote : '"' ∉ s := fun h => (hs _ h).1 rfl
  have heq : s ≠ key := by
    rintro rfl
    exact hne rfl
  have hvalue : '"' :: s ++ ['"'] ++ rest = '"' :: (s ++ '"' :: rest) := by simp
  rw [hvalue, findAfter_quote, prefix_part (quote_notMem_of_quiet hkey) hquote, if_neg (by simpa using heq),
    findAfter_skip hquote, findAfter_closing hkey hrest]

omit hkey

lemma skipped_listed {ts : List Text} {body : Text} (h : Listed ts body) (hts : ∀ t ∈ ts, Skipped key t) :
    Skipped key body := by
  induction h with
  | nil hw => exact fun rest _ => findAfter_skip (quote_notMem_white hw) rest
  | singleton hw hw' =>
    intro rest hrest
    rw [List.append_assoc, List.append_assoc, findAfter_skip (quote_notMem_white hw),
      hts _ List.mem_cons_self _ (hrest.append fun _ => hw'.quiet), findAfter_skip (quote_notMem_white hw')]
  | cons hw hw' hlisted ih =>
    intro rest hrest
    rw [List.append_assoc, List.append_assoc, List.append_assoc, List.cons_append, findAfter_skip (quote_notMem_white hw),
      hts _ List.mem_cons_self _ (marked_comma hw' _), findAfter_skip (quote_notMem_white hw'), findAfter_mark (by decide)]
    exact ih (fun t ht => hts t (List.mem_cons_of_mem _ ht)) rest hrest

lemma member_append (m : Member) (rest : Text) :
    m.text ++ rest = m.key ++ (m.beforeColon ++ ':' :: (m.afterColon ++ (m.value ++ rest))) := by
  simp [Member.text]

include hkey

lemma skipped_member {m : Member} (hm : m.Spelled (Other key)) (hv : Skipped key m.value) : Skipped key m.text := by
  intro rest hrest
  have hcolon (s : Text) : Marked (m.beforeColon ++ ':' :: s) :=
    marked_white hm.beforeColon (by simp [Quiet]) (by decide) s
  rw [member_append, skipped_string hkey hm.key _ (hcolon _), findAfter_skip (quote_notMem_white hm.beforeColon),
    findAfter_mark (by decide), findAfter_skip (quote_notMem_white hm.afterColon), hv rest hrest]

/-- A value is skipped if none of its strings spells the key. -/
lemma skipped_value (h : IsJson (Other key) v) : Skipped key v := by
  have hbetween {opening closer : Char} {body : Text} (hopening : opening ≠ '"') (hcloser : ¬ Quiet closer ∧ closer ≠ '"')
      (hbody : Skipped key body) : Skipped key (opening :: body ++ [closer]) := by
    intro rest _
    rw [List.cons_append, List.cons_append, findAfter_mark hopening, List.append_assoc, List.singleton_append,
      hbody _ (marked_cons hcloser.1 hcloser.2 rest), findAfter_mark hcloser.2]
  induction h with
  | string h => exact skipped_string hkey h
  | scalar h => exact fun rest _ => findAfter_skip (quote_notMem_of_quiet fun _ => h.quiet) rest
  | array hts h ih => exact hbetween (by decide) ⟨by simp [Quiet], by decide⟩ (skipped_listed h ih)
  | object hms hvalues h ih =>
    refine hbetween (by decide) ⟨by simp [Quiet], by decide⟩ (skipped_listed h fun t ht => ?_)
    obtain ⟨m, hm, rfl⟩ := List.mem_map.mp ht
    exact skipped_member hkey (hms m hm) (ih m hm)

end Skipping

/-! ### Where a key is found -/

lemma noNumber_white (hw : White w) (hs : NoNumber s) : NoNumber (w ++ s) := by
  cases w with
  | nil => exact hs
  | cons x w =>
    intro c hc
    obtain rfl : x = c := by simpa using hc
    have hx := hw x List.mem_cons_self
    simp only [List.mem_cons, List.not_mem_nil, or_false] at hx
    rcases hx with rfl | rfl | rfl | rfl <;> decide

lemma noNumber_cons (hc : c.isDigit = false ∧ c ≠ '-') (s : Text) : NoNumber (c :: s) := by
  intro c' hc'
  obtain rfl : c = c' := by simpa using hc'
  exact hc

/-- The first item, and what follows it. -/
lemma listed_cons {ts : List Text} {body : Text} (h : Listed (t :: ts) body) : ∃ w rest, White w ∧ body = w ++ t ++ rest ∧
    (∀ tail, NoNumber tail → NoNumber (rest ++ tail)) ∧
    (ts ≠ [] → ∃ w' body', White w' ∧ rest = w' ++ ',' :: body' ∧ Listed ts body') := by
  generalize hus : t :: ts = us at h
  cases h with
  | nil => cases hus
  | singleton hw hw' =>
    obtain ⟨rfl, rfl⟩ := List.cons.inj hus
    exact ⟨_, _, hw, rfl, fun tail => noNumber_white hw', fun h => absurd rfl h⟩
  | cons hw hw' hrest =>
    obtain ⟨rfl, rfl⟩ := List.cons.inj hus
    refine ⟨_, _, hw, by rw [List.append_assoc _ _ (',' :: _)], fun tail _ => ?_, fun _ => ⟨_, _, hw', rfl, hrest⟩⟩
    rw [List.append_assoc]
    exact noNumber_white hw' (noNumber_cons (by decide) _)

lemma head_of_isJson (h : IsJson IsString v) : ∃ c t, v = c :: t ∧ isWhiteSpace c = false := by
  rcases value_cases h with ⟨s, rfl, -⟩ | rfl | rfl | ⟨c, t, rfl, -, hc⟩
  · exact ⟨'"', _, rfl, by decide⟩
  · exact ⟨'t', _, rfl, by decide⟩
  · exact ⟨'f', _, rfl, by decide⟩
  · exact ⟨c, t, rfl, hc⟩

/-- The search comes to the item if those before it are skipped. -/
lemma findAfter_listed {before after : List Text} {body : Text} (h : Listed (before ++ t :: after) body)
    (hbefore : ∀ u ∈ before, Skipped key u) {tail : Text} (htail : NoNumber tail) :
    ∃ rest, NoNumber rest ∧ findAfter (quoted key) (body ++ tail) = findAfter (quoted key) (t ++ rest) := by
  induction before generalizing body with
  | nil =>
    obtain ⟨w, rest, hw, rfl, hrest, -⟩ := listed_cons h
    exact ⟨rest ++ tail, hrest tail htail, by
      rw [List.append_assoc, List.append_assoc, findAfter_skip (quote_notMem_white hw)]⟩
  | cons u before ih =>
    obtain ⟨w, rest, hw, rfl, -, hmore⟩ := listed_cons h
    obtain ⟨w', body', hw', rfl, hlisted⟩ := hmore (by simp)
    obtain ⟨rest, hrest, hfind⟩ := ih hlisted fun u' hu' => hbefore u' (List.mem_cons_of_mem u hu')
    refine ⟨rest, hrest, ?_⟩
    rw [List.append_assoc, List.append_assoc, List.append_assoc, findAfter_skip (quote_notMem_white hw), List.cons_append,
      hbefore u List.mem_cons_self _ (marked_comma hw' _), findAfter_skip (quote_notMem_white hw'), findAfter_mark (by decide), hfind]

lemma trimStart_white (hw : White w) (s : Text) : trimStart (w ++ s) = trimStart s := by
  have hall : ∀ x ∈ w, isWhiteSpace x = true := by
    intro x hx
    have hmem := hw x hx
    simp only [List.mem_cons, List.not_mem_nil, or_false] at hmem
    rcases hmem with rfl | rfl | rfl | rfl <;> decide
  exact List.dropWhile_append_of_pos hall

section Finding

variable {ms before after : List Member} {m : Member} {body : Text} (hkey : ∀ c ∈ key, Quiet c)

include hkey

/-- A key is seen to be absent if no string of the document spells it. -/
theorem shows_of_absent (h : ObjectOf (Other key) ms body) : Shows (object body) ms key := by
  have hvalue : valueAt ms key = none := by
    rw [valueAt, Option.map_eq_none_iff, List.find?_eq_none]
    intro m hm heq
    exact (h.members m hm).key.2 (beq_iff_eq.mp heq)
  have hbody : Skipped key body := by
    refine skipped_listed h.listed fun t ht => ?_
    obtain ⟨m, hm, rfl⟩ := List.mem_map.mp ht
    exact skipped_member hkey (h.members m hm) (skipped_value hkey (h.values m hm))
  have hfind : findAfter (quoted key) (object body) = none := by
    rw [object, List.cons_append, findAfter_mark (by decide), hbody _ (marked_cons (by simp [Quiet]) (by decide) []),
      findAfter_mark (by decide)]
    exact findAfter_last List.not_mem_nil
  rw [Shows, hvalue]
  simp [jsonValue, hfind]

/-- The value of a key is found if no string before the key spells it. -/
theorem shows_of_before (h : ObjectOf IsString (before ++ m :: after) body) (hm : m.key = quoted key)
    (hkeys : ∀ m' ∈ before, m'.Spelled (Other key)) (hvalues : ∀ m' ∈ before, IsJson (Other key) m'.value) :
    Shows (object body) (before ++ m :: after) key := by
  have hmem : m ∈ before ++ m :: after := List.mem_append_right before List.mem_cons_self
  have hvalue : valueAt (before ++ m :: after) key = some m.value := by
    have hnone : before.find? (fun m => m.key == quoted key) = none := by
      rw [List.find?_eq_none]
      intro m' hm' heq
      exact (hkeys m' hm').key.2 (beq_iff_eq.mp heq)
    have hfirst : (m.key == quoted key) = true := beq_iff_eq.mpr hm
    rw [valueAt]
    show ((before ++ m :: after).find? fun m => m.key == quoted key).map Member.value = _
    rw [List.find?_append, hnone, Option.none_or, List.find?_cons, hfirst]
    rfl
  have hbefore : ∀ t ∈ before.map Member.text, Skipped key t := by
    intro t ht
    obtain ⟨m', hm', rfl⟩ := List.mem_map.mp ht
    exact skipped_member hkey (hkeys m' hm') (skipped_value hkey (hvalues m' hm'))
  have hlisted : Listed (before.map Member.text ++ m.text :: after.map Member.text) body := by
    simpa using h.listed
  obtain ⟨rest, hrest, hfind⟩ := findAfter_listed hlisted hbefore (noNumber_cons (by decide) [] : NoNumber ['}'])
  have hkeyText : quoted key ++ (m.beforeColon ++ ':' :: (m.afterColon ++ (m.value ++ rest))) =
      '"' :: (key ++ '"' :: (m.beforeColon ++ ':' :: (m.afterColon ++ (m.value ++ rest)))) := by simp [quoted]
  have hfound : findAfter (quoted key) (object body) =
      some (m.beforeColon ++ ':' :: (m.afterColon ++ (m.value ++ rest))) := by
    rw [object, List.cons_append, findAfter_mark (by decide), hfind, member_append, hm, hkeyText, findAfter_quote,
      prefix_part (quote_notMem_of_quiet hkey) (quote_notMem_of_quiet hkey), if_pos (by simp)]
    simp [List.drop_append]
  have hspelled := h.members m hmem
  obtain ⟨c, t, hc, hwhite⟩ := head_of_isJson (h.values m hmem)
  have hstart : trimStart (m.value ++ rest) = m.value ++ rest := by
    rw [hc, List.cons_append, trimStart_of_not hwhite]
  have hcolon (s : Text) : trimStart (':' :: s) = ':' :: s := trimStart_of_not (by decide) s
  rw [Shows, hvalue]
  refine ⟨rest, ?_, hrest⟩
  simp only [jsonValue, hfound, trimStart_white hspelled.beforeColon, hcolon, stripColon,
    trimStart_white hspelled.afterColon, hstart, Option.bind_eq_bind, Option.bind_some, Option.pure_def]

end Finding

end ThistleOS.Manifests
